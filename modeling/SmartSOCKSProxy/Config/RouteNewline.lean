import SmartSOCKSProxy.Config.RouteLoading

/-
  A newline behind the last line of a route file.

  A last line without a newline is not looked at.  A newline
  behind it changes nothing only when the load ends before
  this line, or when the line has no effect.

  Key definitions include:
    * `FileWorld.withFile`, `EndsOpen`, `lastLine`
    * `IdleRouteLine`, `LoadResult.outcome`
    * `RouteNewlineNeutral`, `IdleRouteEnd`

  Key theorems include:
    * `routeRuleFileParse_withFile`
    * `routeFileLine_outcome_iff`
    * `routeNewlineNeutral_iff`
-/

namespace SmartSOCKSProxy

/- The same system with another content of a file. -/
def FileWorld.withFile
    (world : FileWorld)
    (filename bytes : Text) : FileWorld :=
  { world with
    files :=
      Function.update world.files filename
        (some ⟨bytes, false⟩) }

/- A text with a last line that is not ended. -/
def EndsOpen
    (bytes : Text) : Prop :=
  ∃ c ∈ bytes.getLast?, c ≠ 10 ∧ c ≠ 13

/- The last line, when it is not ended. -/
def LineReads.rest : LineReads → Text
  | .failed => []
  | .eof buf => buf
  | .line _ more => more.rest

def lastLine
    (bytes : Text) : Text :=
  (readLines maxLineLength ⟨bytes, false⟩).rest

/- What is left in the buffer at the end of the file. -/
theorem rest_of_final
    {σ ρ : Type}
    {body : Nat → Text → σ → LineStep σ ρ}
    {reads : LineReads}
    {lineNum : Nat}
    {state : σ}
    {lastNum : Nat}
    {last : Text}
    {lastState : σ}
    (hFinal :
      reads.final body lineNum state =
        some (lastNum, last, lastState)) :
    last = reads.rest := by
  induction reads generalizing lineNum state with
  | failed => cases hFinal
  | eof buf =>
      cases hFinal
      rfl
  | line buf more ih =>
      simp only [LineReads.final] at hFinal
      cases hBody : body lineNum buf state with
      | next state' =>
          rw [hBody] at hFinal
          exact ih hFinal
      | stop result =>
          rw [hBody] at hFinal
          cases hFinal

/- The loop goes on behind a line. -/
def LineStep.goesOn
    {σ ρ : Type} : LineStep σ ρ → Bool
  | .next _ => true
  | .stop _ => false

------------------------------------------------------------
-- Route Files
------------------------------------------------------------

section RouteFiles

variable (world : FileWorld)
variable (sshTunnelList : List SshTunnel)

/- What a file with so much room can include. -/
def parseBelow :
    Nat → List Text → Option (Text → RuleLoad → LoadResult)
  | 0, _ => none
  | room + 1, stack =>
      some (routeRuleFileParse world sshTunnelList room stack)

def treesBelow :
    Nat → List Text → Option (Text → IncludeTree RuleLine)
  | 0, _ => none
  | room + 1, stack =>
      some (routeTree world sshTunnelList room stack)

theorem routeRuleFileParse_eq
    (room : Nat)
    (stack : List Text)
    (filename : Text)
    (load : RuleLoad) :
    routeRuleFileParse world sshTunnelList room stack filename
        load =
      routeFileBody world sshTunnelList filename
        (stack ++ [filename])
        (parseBelow world sshTunnelList room
          (stack ++ [filename])) load := by
  cases room <;> rfl

theorem routeTree_eq
    (room : Nat)
    (stack : List Text)
    (filename : Text) :
    routeTree world sshTunnelList room stack filename =
      treeOfFile world sshTunnelList filename
        (stack ++ [filename])
        (treesBelow world sshTunnelList room
          (stack ++ [filename])) := by
  cases room <;> rfl

theorem includesLoad_below
    (room : Nat)
    (stack : List Text) :
    IncludesLoad sshTunnelList
      (parseBelow world sshTunnelList room stack)
      (treesBelow world sshTunnelList room stack) := by
  cases room with
  | zero => exact .inl ⟨rfl, rfl⟩
  | succ room =>
      refine .inr ⟨_, _, rfl, rfl, ?_⟩
      exact routeRuleFileParse_treeLoads world sshTunnelList
        room stack

end RouteFiles

/- The guard only asks for names that are not on the stack. -/
theorem includeGuard_congr
    {β : Type}
    {stack : List Text}
    {parse parse' : Option (Text → β)}
    (hSame :
      ∀ name ∉ stack,
        (parse.map fun p => p name) =
          parse'.map fun p => p name) :
    includeGuard stack parse = includeGuard stack parse' := by
  funext name
  unfold includeGuard
  split_ifs with hStack
  · rfl
  · exact hSame name hStack

theorem routeFileLine_congr
    (world : FileWorld)
    (sshTunnelList : List SshTunnel)
    (filename : Text)
    {stack : List Text}
    {parse parse' : Option (Text → RuleLoad → LoadResult)}
    (hSame :
      includeGuard stack parse = includeGuard stack parse') :
    routeFileLine world sshTunnelList filename stack parse =
      routeFileLine world sshTunnelList filename stack
        parse' := by
  unfold routeFileLine
  rw [hSame]

/- The other files are the same. -/
theorem FileWorld.withFile_files
    (world : FileWorld)
    {filename name : Text}
    (bytes bytes' : Text)
    (hNe : name ≠ filename) :
    (world.withFile filename bytes).files name =
      (world.withFile filename bytes').files name := by
  simp only [withFile, Function.update_of_ne hNe]

theorem routeFileBody_withFile
    (world : FileWorld)
    (sshTunnelList : List SshTunnel)
    {filename name : Text}
    (bytes bytes' : Text)
    (hNe : name ≠ filename)
    {stack : List Text}
    {parse parse' : Option (Text → RuleLoad → LoadResult)}
    (hGuard :
      includeGuard stack parse = includeGuard stack parse') :
    routeFileBody (world.withFile filename bytes)
        sshTunnelList name stack parse =
      routeFileBody (world.withFile filename bytes')
        sshTunnelList name stack parse' := by
  funext load
  rw [routeFileBody, routeFileBody,
    world.withFile_files bytes bytes' hNe,
    routeFileLine_congr _ sshTunnelList name hGuard]
  rfl

/- A file on the stack is not opened again. -/
theorem routeRuleFileParse_withFile
    (world : FileWorld)
    (sshTunnelList : List SshTunnel)
    {filename : Text}
    (bytes bytes' : Text)
    (room : Nat)
    {stack : List Text}
    (hStack : filename ∈ stack)
    {name : Text}
    (hName : name ∉ stack) :
    routeRuleFileParse (world.withFile filename bytes)
        sshTunnelList room stack name =
      routeRuleFileParse (world.withFile filename bytes')
        sshTunnelList room stack name := by
  have hNe := (ne_of_mem_of_not_mem hStack hName).symm
  induction room generalizing stack name with
  | zero =>
      funext load
      rw [routeRuleFileParse, routeRuleFileParse,
        routeFileBody_withFile world sshTunnelList bytes bytes'
          hNe rfl]
  | succ room ih =>
      funext load
      rw [routeRuleFileParse, routeRuleFileParse]
      apply congrFun
      apply routeFileBody_withFile world sshTunnelList bytes
        bytes' hNe
      apply includeGuard_congr
      intro inner hInner
      have hStack' := List.mem_append_left [name] hStack
      rw [Option.map_some, Option.map_some,
        ih hStack' hInner
          (ne_of_mem_of_not_mem hStack' hInner).symm]

theorem parseBelow_withFile
    (world : FileWorld)
    (sshTunnelList : List SshTunnel)
    {filename : Text}
    (bytes bytes' : Text)
    (room : Nat)
    {stack : List Text}
    (hStack : filename ∈ stack) :
    includeGuard stack
        (parseBelow (world.withFile filename bytes)
          sshTunnelList room stack) =
      includeGuard stack
        (parseBelow (world.withFile filename bytes')
          sshTunnelList room stack) := by
  apply includeGuard_congr
  intro name hName
  cases room with
  | zero => rfl
  | succ room =>
      simp only [parseBelow, Option.map_some]
      rw [routeRuleFileParse_withFile world sshTunnelList
        bytes bytes' room hStack hName]

------------------------------------------------------------
-- The Last Line of a Route File
------------------------------------------------------------

/-
  A line without an effect: it is blank, or names a file that
  is blocked or adds no rule.
-/
def IdleRouteLine
    (stack : List Text)
    (trees : Option (Text → IncludeTree RuleLine))
    (line : Text) : Prop :=
  line = [] ∨
    ∃ name,
      configSetString stringBufLen line (field "routeFile ") =
        .value name ∧
      ∀ t, includeGuard stack trees name.text = some t →
        t.loaded = [] ∧ (t.accepted || t.refused) = true

/- What a caller sees of a load. -/
def LoadResult.outcome : LoadResult →
    Option (Bool × List RouteRule)
  | .crash => none
  | .returned okay load => some (okay, load.routes)

section LastLine

variable {world : FileWorld}
variable {sshTunnelList : List SshTunnel}
variable {filename : Text}
variable {stack : List Text}
variable {parse : Option (Text → RuleLoad → LoadResult)}
variable {trees : Option (Text → IncludeTree RuleLine)}

/- An included file that changes nothing. -/
theorem TreeLoads.outcome_iff
    {t : IncludeTree RuleLine}
    {load : RuleLoad}
    {result : LoadResult}
    (hLoads : TreeLoads sshTunnelList t load result) :
    (∃ okay, result.outcome = some (okay, load.routes)) ↔
      t.loaded = [] ∧ (t.accepted || t.refused) = true := by
  cases hLoads with
  | accepted hTree hRoutes =>
      simp [LoadResult.outcome, hTree, hRoutes.eq_iff]
  | refused hTree hRoutes =>
      simp [LoadResult.outcome, hTree, hRoutes.eq_iff]
  | crash hTree =>
      simp [LoadResult.outcome, hTree]

/- The result with the last line, when it is reached. -/
theorem routeFileLine_outcome_iff
    (hIncludes : IncludesLoad sshTunnelList parse trees)
    (lineNum : Nat)
    (buf : Text)
    (load : RuleLoad) :
    ((routeFileLine world sshTunnelList filename stack parse
          lineNum buf load).andThen
        (.returned true)).outcome =
        some (true, load.routes) ↔
      ∃ line, configLine world.environ buf = .ok line ∧
        IdleRouteLine stack trees line := by
  unfold routeFileLine IdleRouteLine
  cases hLine : configLine world.environ buf with
  | error failure =>
      cases failure <;>
        simp [LineStep.andThen, LoadResult.outcome]
  | ok line =>
      by_cases hBlank : line = []
      · simp [hBlank, LineStep.andThen, LoadResult.outcome]
      simp only [hBlank, if_false, false_or, Except.ok.injEq,
        exists_eq_left']
      cases configSetString stringBufLen line
          (field "routeFile ") with
      | overrun => simp [LineStep.andThen, LoadResult.outcome]
      | unset =>
          cases parseRouteRuleSpec (world.junk load.mallocs)
              line (some filename) lineNum sshTunnelList with
          | error failure =>
              cases failure <;>
                simp [LineStep.andThen, LoadResult.outcome]
          | ok route =>
              simp [LineStep.andThen, LoadResult.outcome,
                insertRouteRule_eq]
      | value name =>
          simp only [Setting.value.injEq, exists_eq_left']
          rcases includeGuard_load stack hIncludes
              name.text with ⟨hParse, hTree⟩ |
              ⟨p, t, hParse, hTree, hLoads⟩
          · simp [hParse, hTree, LineStep.andThen,
              LoadResult.outcome]
          · simp only [hParse, hTree, Option.some_inj,
              forall_eq']
            rw [← (hLoads load).outcome_iff]
            cases p load with
            | crash =>
                simp [LineStep.andThen, LoadResult.outcome]
            | returned okay load' =>
                cases okay <;>
                  simp [LineStep.andThen, LoadResult.outcome]

/- The loop goes on exactly where the tree does. -/
theorem reachesEnd_lineTree
    (hIncludes : IncludesLoad sshTunnelList parse trees)
    {buf line : Text}
    (hLine : configLine world.environ buf = .ok line)
    (hSome : line ≠ [])
    (lineNum : Nat)
    (load : RuleLoad)
    (rest : IncludeTree RuleLine) :
    (lineTree sshTunnelList stack trees
        ⟨line, filename, lineNum⟩ rest).reachesEnd =
      ((routeFileLine world sshTunnelList filename stack parse
        lineNum buf load).goesOn && rest.reachesEnd) := by
  unfold lineTree routeFileLine
  simp only [hLine, if_neg hSome]
  cases configSetString stringBufLen line
      (field "routeFile ") with
  | overrun => rfl
  | value name =>
      rcases includeGuard_load stack hIncludes
          name.text with ⟨hParse, hTree⟩ |
          ⟨p, t, hParse, hTree, hLoads⟩
      · simp only [hParse, hTree]
        rfl
      · simp only [hParse, hTree, IncludeTree.reachesEnd]
        have hHere := hLoads load
        cases hResult : p load with
        | crash =>
            rw [hResult] at hHere
            cases hHere with
            | crash hInner => simp [hInner, LineStep.goesOn]
        | returned okay load' =>
            rw [hResult] at hHere
            cases hHere with
            | accepted hInner _ =>
                simp [hInner, LineStep.goesOn]
            | refused hInner _ =>
                simp [t.accepted_of_refused hInner,
                  LineStep.goesOn]
  | unset =>
      rcases parse_zeroJunk sshTunnelList
          ⟨line, filename, lineNum⟩ (world.junk load.mallocs)
        with ⟨failure, hSpec, hZero⟩ |
          ⟨route, route', hSpec, hZero⟩
      · simp only [hZero]
        unfold RuleLine.parse at hSpec
        simp only [hSpec]
        cases failure <;> rfl
      · simp only [hZero]
        unfold RuleLine.parse at hSpec
        simp only [hSpec, IncludeTree.reachesEnd,
          LineStep.goesOn, Bool.true_and]

/- The loop stands at the end exactly when the tree ends. -/
theorem final_eq_none_iff
    (hIncludes : IncludesLoad sshTunnelList parse trees)
    (reads : LineReads)
    (lineNum : Nat)
    (load : RuleLoad) :
    reads.final
        (routeFileLine world sshTunnelList filename stack
          parse)
        lineNum load = none ↔
      (treeOfLines world sshTunnelList filename stack trees
        reads lineNum).reachesEnd = false := by
  induction reads generalizing lineNum load with
  | failed => exact iff_of_true rfl rfl
  | eof buf =>
      simp [LineReads.final, treeOfLines,
        IncludeTree.reachesEnd]
  | line buf more ih =>
      rw [treeOfLines, LineReads.final]
      cases hLine : configLine world.environ buf with
      | error failure =>
          rw [routeFileLine_of_error _ _ _ _ _ _ _ hLine]
          cases failure <;> exact iff_of_true rfl rfl
      | ok line =>
          cases line with
          | nil =>
              rw [routeFileLine_of_blank _ _ _ _ _ _ _ hLine]
              exact ih (lineNum + 1) load
          | cons c cs =>
              dsimp only
              rw [reachesEnd_lineTree hIncludes hLine
                (List.cons_ne_nil c cs) lineNum load]
              cases routeFileLine world sshTunnelList filename
                  stack parse lineNum buf load with
              | next load' =>
                  simp only [LineStep.goesOn, Bool.true_and]
                  exact ih (lineNum + 1) load'
              | stop result => exact iff_of_true rfl rfl

end LastLine

/- What a newline changes in the result of the loop. -/
theorem routeFileRun_newline_iff
    {world : FileWorld}
    {sshTunnelList : List SshTunnel}
    {filename : Text}
    {stack : List Text}
    {parse : Option (Text → RuleLoad → LoadResult)}
    {trees : Option (Text → IncludeTree RuleLine)}
    (hIncludes : IncludesLoad sshTunnelList parse trees)
    (reads : LineReads)
    (load : RuleLoad) :
    (reads.run
          (routeFileLine world sshTunnelList filename stack
            parse)
          (.returned true) (.returned false) 1 load).outcome =
        (reads.terminate.run
          (routeFileLine world sshTunnelList filename stack
            parse)
          (.returned true) (.returned false) 1 load).outcome ↔
      ((treeOfLines world sshTunnelList filename stack trees
          reads 1).reachesEnd = true →
        ∃ line, configLine world.environ reads.rest =
            .ok line ∧
          IdleRouteLine stack trees line) := by
  have hEnd :
      reads.final
          (routeFileLine world sshTunnelList filename stack
            parse) 1 load = none ↔
        (treeOfLines world sshTunnelList filename stack trees
          reads 1).reachesEnd = false :=
    final_eq_none_iff hIncludes reads 1 load
  rw [outcome_terminate_iff]
  constructor
  · intro hLast hReaches
    cases hFinal :
        reads.final
          (routeFileLine world sshTunnelList filename stack
            parse) 1 load with
    | none =>
        rw [hEnd.mp hFinal] at hReaches
        cases hReaches
    | some final =>
        rcases final with ⟨lastNum, last, lastLoad⟩
        rw [← rest_of_final hFinal,
          ← routeFileLine_outcome_iff hIncludes lastNum last
            lastLoad]
        exact hLast lastNum last lastLoad hFinal
  · intro hIdle lastNum last lastLoad hFinal
    have hReaches :
        (treeOfLines world sshTunnelList filename stack trees
          reads 1).reachesEnd = true := by
      by_contra hNot
      rw [hEnd.mpr (by simpa using hNot)] at hFinal
      cases hFinal
    have hHere := hIdle hReaches
    rw [← rest_of_final hFinal,
      ← routeFileLine_outcome_iff hIncludes lastNum last
        lastLoad] at hHere
    exact hHere

/- The content of the file itself. -/
theorem FileWorld.withFile_self
    (world : FileWorld)
    (filename bytes : Text) :
    (world.withFile filename bytes).files filename =
      some ⟨bytes, false⟩ := by
  simp only [withFile, Function.update_self]

section RouteFile

variable (world : FileWorld)
variable (sshTunnelList : List SshTunnel)
variable (room : Nat)
variable (stack : List Text)
variable (filename : Text)

/- A newline behind the content changes nothing. -/
def RouteNewlineNeutral
    (load : RuleLoad)
    (bytes : Text) : Prop :=
  (routeRuleFileParse (world.withFile filename bytes)
      sshTunnelList room stack filename load).outcome =
    (routeRuleFileParse
      (world.withFile filename (bytes ++ [10]))
      sshTunnelList room stack filename load).outcome

/-
  The load ends before the last line, or that line has no
  effect.
-/
def IdleRouteEnd
    (bytes : Text) : Prop :=
  (routeTree (world.withFile filename bytes) sshTunnelList
      room stack filename).reachesEnd = true →
    ∃ line,
      configLine world.environ (lastLine bytes) = .ok line ∧
      IdleRouteLine (stack ++ [filename])
        (treesBelow (world.withFile filename bytes)
          sshTunnelList room (stack ++ [filename]))
        line

theorem routeNewlineNeutral_iff
    (load : RuleLoad)
    {bytes : Text}
    (hOpen : EndsOpen bytes) :
    RouteNewlineNeutral world sshTunnelList room stack
        filename load bytes ↔
      IdleRouteEnd world sshTunnelList room stack filename
        bytes := by
  have hStack : filename ∈ stack ++ [filename] := by simp
  have hBelow := parseBelow_withFile world sshTunnelList
    (bytes ++ [10]) bytes room hStack
  unfold RouteNewlineNeutral IdleRouteEnd
  rw [routeRuleFileParse_eq, routeRuleFileParse_eq,
    routeTree_eq, routeFileBody, routeFileBody, treeOfFile,
    world.withFile_self, world.withFile_self]
  dsimp only
  rw [readLines_terminate maxLineLength hOpen,
    routeFileLine_congr (world.withFile filename (bytes ++ [10]))
      sshTunnelList filename hBelow]
  exact routeFileRun_newline_iff
    (includesLoad_below (world.withFile filename bytes)
      sshTunnelList room (stack ++ [filename]))
    (readLines maxLineLength ⟨bytes, false⟩) load

end RouteFile

end SmartSOCKSProxy
