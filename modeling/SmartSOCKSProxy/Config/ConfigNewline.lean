import SmartSOCKSProxy.Config.Keywords
import SmartSOCKSProxy.Config.LineEffects
import SmartSOCKSProxy.Config.References
import SmartSOCKSProxy.Config.RouteNewline

/-
  A newline behind the last line of a configuration file.

  A configuration file can be loaded as a route file from one
  of its own proxy sections.  Such a load ends before the
  last line, since the file begins with a line that is no
  rule.

  Key definitions include:
    * `ConfigWorld.withFile`, `Barred`
    * `IdleConfigLine`, `IdleConfigEnd`
    * `ConfigResult.outcome`

  Key theorems include:
    * `loadRouteFile_of_barred`
    * `configFileRun_withFile`
    * `configNewlineNeutral_iff`
    * `final_newline_iff`
-/

namespace SmartSOCKSProxy

/- The same system with another content of a file. -/
def ConfigWorld.withFile
    (world : ConfigWorld)
    (filename bytes : Text) : ConfigWorld :=
  { world with
    toFileWorld := world.toFileWorld.withFile filename bytes }

------------------------------------------------------------
-- Files That Begin with No Rule
------------------------------------------------------------

/-
  The first line that is not blank is ended, and does not let
  the file be loaded as a route file.
-/
def Barred
    (environ : Text → Option Text) : LineReads → Prop
  | .failed => False
  | .eof _ => False
  | .line buf more =>
      match configLine environ buf with
      | .error _ => True
      | .ok [] => Barred environ more
      | .ok (c :: cs) => NoRule (c :: cs)

theorem routeFileLine_of_noRule
    (world : FileWorld)
    (sshTunnelList : List SshTunnel)
    (filename : Text)
    (stack : List Text)
    (parse : Option (Text → RuleLoad → LoadResult))
    {buf line : Text}
    (hLine : configLine world.environ buf = .ok line)
    (hSome : line ≠ [])
    (hRule : NoRule line)
    (lineNum : Nat)
    (load : RuleLoad) :
    routeFileLine world sshTunnelList filename stack parse
        lineNum buf load =
      .stop
        (.returned false
          { load with mallocs := load.mallocs + 1 }) := by
  unfold routeFileLine
  simp only [hLine, if_neg hSome, hRule.1, hRule.2]

/- Such a file is left before its last line. -/
theorem run_of_barred
    {world world' : FileWorld}
    (hEnviron : world'.environ = world.environ)
    (sshTunnelList : List SshTunnel)
    (name : Text)
    (stack : List Text)
    (parse parse' : Option (Text → RuleLoad → LoadResult))
    {reads : LineReads}
    (hBarred : Barred world.environ reads)
    (lineNum : Nat)
    (load : RuleLoad) :
    reads.run
        (routeFileLine world sshTunnelList name stack parse)
        (.returned true) (.returned false) lineNum load =
      reads.terminate.run
        (routeFileLine world' sshTunnelList name stack parse')
        (.returned true) (.returned false) lineNum load := by
  induction reads generalizing lineNum load with
  | failed => cases hBarred
  | eof buf => cases hBarred
  | line buf more ih =>
      rw [LineReads.terminate, LineReads.run, LineReads.run]
      unfold Barred at hBarred
      have hSame :
          configLine world'.environ buf =
            configLine world.environ buf := by
        rw [hEnviron]
      cases hLine : configLine world.environ buf with
      | error failure =>
          rw [hLine] at hSame
          rw [routeFileLine_of_error _ _ _ _ _ _ _ hLine,
            routeFileLine_of_error _ _ _ _ _ _ _ hSame,
            LineStep.andThen_stop, LineStep.andThen_stop]
      | ok line =>
          rw [hLine] at hBarred hSame
          cases line with
          | nil =>
              rw [routeFileLine_of_blank _ _ _ _ _ _ _ hLine,
                routeFileLine_of_blank _ _ _ _ _ _ _ hSame,
                LineStep.andThen_next, LineStep.andThen_next]
              exact ih hBarred (lineNum + 1) load
          | cons c cs =>
              have hSome := List.cons_ne_nil c cs
              rw [routeFileLine_of_noRule _ _ _ _ _ hLine
                  hSome hBarred,
                routeFileLine_of_noRule _ _ _ _ _ hSame
                  hSome hBarred,
                LineStep.andThen_stop, LineStep.andThen_stop]

section Loads

variable (world : FileWorld)
variable (sshTunnelList : List SshTunnel)
variable {filename bytes : Text}

theorem routeFileBody_of_barred
    (hOpen : EndsOpen bytes)
    (hBarred :
      Barred world.environ
        (readLines maxLineLength ⟨bytes, false⟩))
    (name : Text)
    {stack : List Text}
    {parse parse' : Option (Text → RuleLoad → LoadResult)}
    (hGuard :
      includeGuard stack parse = includeGuard stack parse') :
    routeFileBody (world.withFile filename bytes)
        sshTunnelList name stack parse =
      routeFileBody
        (world.withFile filename (bytes ++ [10]))
        sshTunnelList name stack parse' := by
  by_cases hName : name = filename
  · subst hName
    funext load
    rw [routeFileBody, routeFileBody, world.withFile_self,
      world.withFile_self]
    dsimp only
    rw [readLines_terminate maxLineLength hOpen]
    apply run_of_barred
    · rfl
    · exact hBarred
  · exact routeFileBody_withFile world sshTunnelList bytes
      (bytes ++ [10]) hName hGuard

/- A newline changes no load of such a file. -/
theorem routeRuleFileParse_of_barred
    (hOpen : EndsOpen bytes)
    (hBarred :
      Barred world.environ
        (readLines maxLineLength ⟨bytes, false⟩))
    (room : Nat)
    (stack : List Text)
    (name : Text) :
    routeRuleFileParse (world.withFile filename bytes)
        sshTunnelList room stack name =
      routeRuleFileParse
        (world.withFile filename (bytes ++ [10]))
        sshTunnelList room stack name := by
  induction room generalizing stack name with
  | zero =>
      funext load
      rw [routeRuleFileParse, routeRuleFileParse,
        routeFileBody_of_barred world sshTunnelList hOpen
          hBarred name rfl]
  | succ room ih =>
      funext load
      rw [routeRuleFileParse, routeRuleFileParse]
      apply congrFun
      apply routeFileBody_of_barred world sshTunnelList hOpen
        hBarred name
      apply includeGuard_congr
      intro inner _
      rw [Option.map_some, Option.map_some,
        ih (stack ++ [name]) inner]

end Loads

/- The loads that the entries of a proxy section make. -/
theorem loadRouteFile_of_barred
    (world : FileWorld)
    (filename : Text)
    {bytes : Text}
    (hOpen : EndsOpen bytes)
    (hBarred :
      Barred world.environ
        (readLines maxLineLength ⟨bytes, false⟩)) :
    loadRouteFile (world.withFile filename bytes) =
      loadRouteFile
        (world.withFile filename (bytes ++ [10])) := by
  funext sshTunnelList name load
  unfold loadRouteFile
  rw [routeRuleFileParse_of_barred world sshTunnelList hOpen
    hBarred]

------------------------------------------------------------
-- The Lines of a Configuration File
------------------------------------------------------------

section Lines

variable {world : ConfigWorld}
variable {filename bytes bytes' : Text}

theorem loadRouteDir_congr
    (hSame :
      loadRouteFile
          (world.withFile filename bytes).toFileWorld =
        loadRouteFile
          (world.withFile filename bytes').toFileWorld) :
    loadRouteDir (world.withFile filename bytes) =
      loadRouteDir (world.withFile filename bytes') := by
  have hFiles :
      loadRouteFiles
          (world.withFile filename bytes).toFileWorld =
        loadRouteFiles
          (world.withFile filename bytes').toFileWorld := by
    funext sshTunnelList dir names load
    induction names generalizing load with
    | nil => rfl
    | cons name names ih =>
        rw [loadRouteFiles, loadRouteFiles, hSame]
        cases loadRouteFile
            (world.withFile filename bytes').toFileWorld
            sshTunnelList
            (CBuf.copy (dir ++ [47] ++ name) : CBuf 4096).text
            load with
        | crash => rfl
        | returned okay load' =>
            cases okay with
            | true => exact ih load'
            | false => rfl
  funext sshTunnelList dir load
  unfold loadRouteDir
  rw [hFiles]
  rfl

/- Lines see the files only through the loads of rules. -/
theorem sectionLine_congr
    (hSame :
      loadRouteFile
          (world.withFile filename bytes).toFileWorld =
        loadRouteFile
          (world.withFile filename bytes').toFileWorld) :
    sectionLine (world.withFile filename bytes) =
      sectionLine (world.withFile filename bytes') := by
  have hDir := loadRouteDir_congr hSame
  have hEntry :
      sectionEntry (world.withFile filename bytes) =
        sectionEntry (world.withFile filename bytes') := by
    funext name lineNum line current load
    unfold sectionEntry proxyInstanceEntry
    rw [hSame, hDir]
    rfl
  funext name lineNum line state
  unfold sectionLine
  rw [hEntry]
  rfl

theorem configFileLine_congr
    (hSame :
      loadRouteFile
          (world.withFile filename bytes).toFileWorld =
        loadRouteFile
          (world.withFile filename bytes').toFileWorld)
    (name : Text)
    {stack : List Text}
    {parse parse' : Option (Text → ConfigLoad → ConfigResult)}
    (hGuard :
      includeGuard stack parse = includeGuard stack parse') :
    configFileLine (world.withFile filename bytes) name stack
        parse =
      configFileLine (world.withFile filename bytes') name
        stack parse' := by
  unfold configFileLine
  rw [sectionLine_congr hSame, hGuard]
  rfl

end Lines

------------------------------------------------------------
-- Included Files
------------------------------------------------------------

section Same

variable {world : ConfigWorld}
variable {filename bytes bytes' : Text}

theorem configFileBody_withFile
    (hSame :
      loadRouteFile
          (world.withFile filename bytes).toFileWorld =
        loadRouteFile
          (world.withFile filename bytes').toFileWorld)
    {name : Text}
    (hNe : name ≠ filename)
    {stack : List Text}
    {parse parse' : Option (Text → ConfigLoad → ConfigResult)}
    (hGuard :
      includeGuard stack parse = includeGuard stack parse') :
    configFileBody (world.withFile filename bytes) name stack
        parse =
      configFileBody (world.withFile filename bytes') name
        stack parse' := by
  have hFiles :
      (world.withFile filename bytes).files name =
        (world.withFile filename bytes').files name :=
    world.toFileWorld.withFile_files bytes bytes' hNe
  funext load
  rw [configFileBody, configFileBody, hFiles,
    configFileLine_congr hSame name hGuard]

/- A file on the stack is not opened again. -/
theorem configFileParse_withFile
    (hSame :
      loadRouteFile
          (world.withFile filename bytes).toFileWorld =
        loadRouteFile
          (world.withFile filename bytes').toFileWorld)
    (room : Nat)
    {stack : List Text}
    (hStack : filename ∈ stack)
    {name : Text}
    (hName : name ∉ stack) :
    configFileParse (world.withFile filename bytes) room stack
        name =
      configFileParse (world.withFile filename bytes') room
        stack name := by
  have hNe := (ne_of_mem_of_not_mem hStack hName).symm
  induction room generalizing stack name with
  | zero =>
      funext load
      rw [configFileParse, configFileParse,
        configFileBody_withFile hSame hNe rfl]
  | succ room ih =>
      funext load
      rw [configFileParse, configFileParse]
      apply congrFun
      apply configFileBody_withFile hSame hNe
      apply includeGuard_congr
      intro inner hInner
      have hStack' := List.mem_append_left [name] hStack
      rw [Option.map_some, Option.map_some,
        ih hStack' hInner
          (ne_of_mem_of_not_mem hStack' hInner).symm]

theorem configsBelow_withFile
    (hSame :
      loadRouteFile
          (world.withFile filename bytes).toFileWorld =
        loadRouteFile
          (world.withFile filename bytes').toFileWorld)
    (room : Nat)
    {stack : List Text}
    (hStack : filename ∈ stack) :
    includeGuard stack
        (configsBelow (world.withFile filename bytes) room
          stack) =
      includeGuard stack
        (configsBelow (world.withFile filename bytes') room
          stack) := by
  apply includeGuard_congr
  intro name hName
  cases room with
  | zero => rfl
  | succ room =>
      rw [configsBelow, configsBelow, Option.map_some,
        Option.map_some,
        configFileParse_withFile hSame room hStack hName]

end Same

------------------------------------------------------------
-- The Lines Before the Last One
------------------------------------------------------------

section Prefix

variable (world : ConfigWorld)
variable (filename : Text)
variable (stack : List Text)
variable (parse : Option (Text → ConfigLoad → ConfigResult))
variable (lineNum : Nat)
variable {buf : Text}

/- Before the first section, what could be a rule is wrong. -/
theorem configFileLine_of_rule
    (load : ConfigLoad)
    {line : Text}
    (hLine : configLine world.environ buf = .ok line)
    (hSome : line ≠ [])
    (hRule : ¬NoRule line) :
    configFileLine world filename stack parse lineNum buf
        ⟨.none, load⟩ =
      .stop .exited := by
  have hInclude :
      configSetString stringBufLen line (field "include ") =
        .unset := by
    by_contra hInclude
    exact hRule (noRule_of_include hInclude)
  have hHeader : sectionHeader world line load = .other := by
    by_contra hHeader
    exact hRule (noRule_of_header hHeader)
  unfold configFileLine
  simp only [hLine, if_neg hSome, hInclude]
  unfold sectionLine
  simp only [hHeader, sectionEntry]

end Prefix

/- A file that is not barred is left at its first line. -/
theorem run_of_not_barred
    {world world' : ConfigWorld}
    (hEnviron : world'.environ = world.environ)
    (filename : Text)
    (stack : List Text)
    (parse parse' : Option (Text → ConfigLoad → ConfigResult))
    {reads : LineReads}
    (hBarred : ¬Barred world.environ reads)
    (lineNum : Nat)
    (load : ConfigLoad) :
    reads.run (configFileLine world filename stack parse)
        (fun state => .returned true state.load)
        (fun state => .returned false state.load)
        lineNum ⟨.none, load⟩ =
      reads.run (configFileLine world' filename stack parse')
        (fun state => .returned true state.load)
        (fun state => .returned false state.load)
        lineNum ⟨.none, load⟩ := by
  induction reads generalizing lineNum with
  | failed => rw [LineReads.run, LineReads.run]
  | eof buf => rw [LineReads.run, LineReads.run]
  | line buf more ih =>
      rw [LineReads.run, LineReads.run]
      unfold Barred at hBarred
      have hSame :
          configLine world'.environ buf =
            configLine world.environ buf := by
        rw [hEnviron]
      cases hLine : configLine world.environ buf with
      | error failure =>
          rw [hLine] at hSame
          rw [configFileLine_of_error _ _ _ _ _ _ hLine,
            configFileLine_of_error _ _ _ _ _ _ hSame,
            LineStep.andThen_stop, LineStep.andThen_stop]
      | ok line =>
          rw [hLine] at hBarred hSame
          cases line with
          | nil =>
              rw [configFileLine_of_blank _ _ _ _ _ _ hLine,
                configFileLine_of_blank _ _ _ _ _ _ hSame,
                LineStep.andThen_next, LineStep.andThen_next]
              exact ih hBarred (lineNum + 1)
          | cons c cs =>
              have hSome := List.cons_ne_nil c cs
              rw [configFileLine_of_rule _ _ _ _ _ _ hLine
                  hSome hBarred,
                configFileLine_of_rule _ _ _ _ _ _ hSame
                  hSome hBarred,
                LineStep.andThen_stop, LineStep.andThen_stop]

/- The newline is not seen by the lines before it. -/
theorem configFileRun_withFile
    (world : ConfigWorld)
    (filename : Text)
    {bytes : Text}
    (hOpen : EndsOpen bytes)
    (room : Nat)
    (stack : List Text)
    (load : ConfigLoad) :
    (readLines maxLineLength ⟨bytes, false⟩).run
        (configFileLine (world.withFile filename bytes)
          filename (stack ++ [filename])
          (configsBelow (world.withFile filename bytes) room
            (stack ++ [filename])))
        (fun state => .returned true state.load)
        (fun state => .returned false state.load)
        1 ⟨.none, load⟩ =
      (readLines maxLineLength ⟨bytes, false⟩).run
        (configFileLine
          (world.withFile filename (bytes ++ [10]))
          filename (stack ++ [filename])
          (configsBelow
            (world.withFile filename (bytes ++ [10])) room
            (stack ++ [filename])))
        (fun state => .returned true state.load)
        (fun state => .returned false state.load)
        1 ⟨.none, load⟩ := by
  by_cases hBarred :
      Barred world.environ
        (readLines maxLineLength ⟨bytes, false⟩)
  · have hSame :
        loadRouteFile
            (world.withFile filename bytes).toFileWorld =
          loadRouteFile
            (world.withFile filename
              (bytes ++ [10])).toFileWorld :=
      loadRouteFile_of_barred world.toFileWorld filename
        hOpen hBarred
    have hStack : filename ∈ stack ++ [filename] := by simp
    have hBelow := configsBelow_withFile hSame room hStack
    rw [configFileLine_congr hSame filename hBelow]
  · apply run_of_not_barred
    · rfl
    · exact hBarred

------------------------------------------------------------
-- The State Before the Last Line
------------------------------------------------------------

/- What every line keeps holds before the last one. -/
theorem LineReads.final_satisfies
    {σ ρ : Type}
    {body : Nat → Text → σ → LineStep σ ρ}
    {p : σ → Prop}
    (hBody :
      ∀ lineNum buf state state', p state →
        body lineNum buf state = .next state' → p state')
    {reads : LineReads}
    {lineNum : Nat}
    {state : σ}
    (hState : p state)
    {lastNum : Nat}
    {last : Text}
    {lastState : σ}
    (hFinal :
      reads.final body lineNum state =
        some (lastNum, last, lastState)) :
    p lastState := by
  induction reads generalizing lineNum state with
  | failed => cases hFinal
  | eof buf =>
      cases hFinal
      exact hState
  | line buf more ih =>
      simp only [LineReads.final] at hFinal
      cases hNext : body lineNum buf state with
      | next state' =>
          rw [hNext] at hFinal
          exact ih (hBody lineNum buf state state' hState hNext)
            hFinal
      | stop result =>
          rw [hNext] at hFinal
          cases hFinal

/- A header begins a section of an object that there is. -/
theorem namedSection_within
    {line keyword : Text}
    {load load' : ConfigLoad}
    {fallback current : Section}
    {find : Text → Option Section}
    {create : Text → Header}
    (hFallback : load.config.names.Within fallback)
    (hFind : ∀ name current, find name = some current →
      load.config.names.Within current)
    (hCreate : ∀ name current load',
      create name = .enter current load' →
        load'.config.names.Within current)
    (hEnter :
      namedSection line keyword load fallback find create =
        .enter current load') :
    load'.config.names.Within current := by
  unfold namedSection at hEnter
  cases hMatch : matchStart line keyword with
  | none =>
      rw [hMatch] at hEnter
      cases hEnter
  | some name =>
      rw [hMatch] at hEnter
      dsimp only at hEnter
      split_ifs at hEnter
      · cases hEnter
        exact hFallback
      · cases hName : find name with
        | none =>
            rw [hName] at hEnter
            exact hCreate name current load' hEnter
        | some found =>
            rw [hName] at hEnter
            cases hEnter
            exact hFind name current hName

theorem proxyInstanceHeader_within
    {line : Text}
    {load load' : ConfigLoad}
    {current : Section}
    (hEnter :
      proxyInstanceHeader line load = .enter current load') :
    load'.config.names.Within current := by
  apply namedSection_within _ _ _ hEnter
  · trivial
  · intro name current hFind
    rcases Option.map_eq_some_iff.mp hFind with
      ⟨index, hIndex, rfl⟩
    have hLess :=
      (List.findIdx?_eq_some_iff_findIdx_eq.mp hIndex).1
    simpa [ConfigNames.Within, Configuration.names] using hLess
  · intro name current load' hCreate
    cases hName : fillBuf 1024 name with
    | unset => simp [hName] at hCreate
    | overrun => simp [hName] at hCreate
    | value text =>
        simp only [hName, Header.enter.injEq] at hCreate
        rcases hCreate with ⟨rfl, rfl⟩
        simp [ConfigNames.Within, Configuration.names]

theorem logFileHeader_within
    {line : Text}
    {load load' : ConfigLoad}
    {current : Section}
    (hEnter : logFileHeader line load = .enter current load') :
    load'.config.names.Within current := by
  apply namedSection_within _ _ _ hEnter
  · trivial
  · intro name current hFind
    rcases Option.map_eq_some_iff.mp hFind with
      ⟨log, _, rfl⟩
    trivial
  · intro name current load' hCreate
    cases hCreate
    trivial

theorem sshTunnelHeader_within
    {world : ConfigWorld}
    {line : Text}
    {load load' : ConfigLoad}
    {current : Section}
    (hEnter :
      sshTunnelHeader world line load = .enter current load') :
    load'.config.names.Within current := by
  apply namedSection_within _ _ _ hEnter
  · trivial
  · intro name current hFind
    rcases Option.map_eq_some_iff.mp hFind with
      ⟨ssh, _, rfl⟩
    trivial
  · intro name current load' hCreate
    cases hName : fillBuf 200 name with
    | unset => simp [hName] at hCreate
    | overrun => simp [hName] at hCreate
    | value text =>
        simp only [hName, Header.enter.injEq] at hCreate
        rw [← hCreate.1]
        trivial

theorem sectionHeader_within
    {world : ConfigWorld}
    {line : Text}
    {load load' : ConfigLoad}
    {current : Section}
    (hEnter :
      sectionHeader world line load = .enter current load') :
    load'.config.names.Within current := by
  unfold sectionHeader at hEnter
  split_ifs at hEnter
  · cases hEnter
    trivial
  cases hLog : logFileHeader line load with
  | exited => simp [hLog] at hEnter
  | overrun => simp [hLog] at hEnter
  | enter current' load'' =>
      rw [hLog] at hEnter
      exact logFileHeader_within (hLog.trans hEnter)
  | other =>
      rw [hLog] at hEnter
      dsimp only at hEnter
      cases hProxy : proxyInstanceHeader line load with
      | exited => simp [hProxy] at hEnter
      | overrun => simp [hProxy] at hEnter
      | enter current' load'' =>
          rw [hProxy] at hEnter
          exact proxyInstanceHeader_within
            (hProxy.trans hEnter)
      | other =>
          rw [hProxy] at hEnter
          exact sshTunnelHeader_within hEnter

/- A line stays in such a section, or begins one. -/
theorem configFileLine_within
    {world : ConfigWorld}
    {filename : Text}
    {stack : List Text}
    {parse : Option (Text → ConfigLoad → ConfigResult)}
    (hChanges :
      ∀ p ∈ parse, ∀ name load,
        (p name load).Makes world load)
    (lineNum : Nat)
    (buf : Text)
    (state state' : ConfigState)
    (hWithin :
      state.load.config.names.Within state.current)
    (hNext :
      configFileLine world filename stack parse lineNum buf
        state = .next state') :
    state'.load.config.names.Within state'.current := by
  have hStep := configFileLine_changes world filename stack
    hChanges lineNum buf state .refl
  rw [hNext] at hStep
  have hSame : state'.current = state.current →
      state'.load.config.names.Within state'.current := by
    intro hCurrent
    rw [hCurrent]
    exact (Changes.grows hStep).within state.current hWithin
  unfold configFileLine at hNext
  cases hLine : configLine world.environ buf with
  | error failure =>
      cases failure <;> simp [hLine] at hNext
  | ok line =>
      simp only [hLine] at hNext
      split at hNext
      · cases hNext
        exact hSame rfl
      split at hNext
      · cases hNext
      · split at hNext
        · cases hNext
          exact hSame rfl
        · split at hNext <;> cases hNext
          exact hSame rfl
      · unfold sectionLine at hNext
        cases hHeader :
            sectionHeader world line state.load with
        | exited => simp [hHeader] at hNext
        | overrun => simp [hHeader] at hNext
        | enter current load =>
            rw [hHeader] at hNext
            cases hNext
            exact sectionHeader_within hHeader
        | other =>
            rw [hHeader] at hNext
            dsimp only at hNext
            split at hNext <;> cases hNext
            exact hSame rfl

------------------------------------------------------------
-- The Last Line
------------------------------------------------------------

/- What a caller sees of the parse of a configuration. -/
inductive ConfigOutcome where
| crash
| exited
| returned (okay : Bool) (config : Configuration)
deriving DecidableEq

/- Rules have pointers to the tunnels of the configuration. -/
def ConfigResult.outcome : ConfigResult → ConfigOutcome
  | .crash => .crash
  | .exited => .exited
  | .returned okay load =>
      .returned okay load.config.numbered

/- Numbers that no two tunnels share tell tunnels apart. -/
theorem eq_of_ids
    {tunnels : List SshTunnel}
    (hIds : (tunnels.map SshTunnel.id).Nodup)
    {left right : List SshTunnel}
    (hLeft : left ⊆ tunnels)
    (hRight : right ⊆ tunnels)
    (hSame :
      left.map SshTunnel.id = right.map SshTunnel.id) :
    left = right := by
  induction left generalizing right with
  | nil =>
      rw [List.map_nil, eq_comm, List.map_eq_nil_iff] at hSame
      exact hSame.symm
  | cons tun left ih =>
      cases right with
      | nil => cases hSame
      | cons tun' right =>
          rw [List.map_cons, List.map_cons, List.cons.injEq]
            at hSame
          rw [List.cons_subset] at hLeft hRight
          have hTun : tun = tun' :=
            List.inj_on_of_nodup_map hIds hLeft.1 hRight.1
              hSame.1
          rw [hTun, ih hLeft.2 hRight.2 hSame.2]

theorem RouteRule.ids_of_numbered
    {route route' : RouteRule}
    (hSame : route.numbered = route'.numbered) :
    route.tunnels.map SshTunnel.id =
      route'.tunnels.map SshTunnel.id := by
  have hTunnels : ∀ route : RouteRule,
      route.numbered.tunnels.map SshTunnel.id =
        route.tunnels.map SshTunnel.id := by
    intro route
    unfold RouteRule.tunnels RouteRule.numbered
    dsimp only
    rw [Vector.toList_map, untilNull_map, List.map_map]
    rfl
  rw [← hTunnels route, hSame, hTunnels route']

/-
  Equal pointers to equal tunnels: in configurations that can
  be there, rules that are the same in the outcome go through
  the same tunnels.
-/
theorem tunnels_of_numbered
    {load load' : ConfigLoad}
    (hLoad : load.Resolved)
    (hLoad' : load'.Resolved)
    (hSame : load.config.numbered = load'.config.numbered)
    (ref : ProxyRef) :
    (load.config.proxy ref).routeRuleList.map
        RouteRule.tunnels =
      (load'.config.proxy ref).routeRuleList.map
        RouteRule.tunnels := by
  have hTunnels : load.config.tunnels = load'.config.tunnels :=
    congrArg (List.map SshConfig.tunnel)
      (Configuration.mk.inj hSame).2.2.2.2.2.1
  have hProxy : ∀ config : Configuration,
      config.numbered.proxy ref =
        (config.proxy ref).numbered := by
    intro config
    cases ref with
    | default => rfl
    | listed index =>
        simp only [Configuration.proxy, Configuration.numbered,
          List.getD_eq_getElem?_getD, List.getElem?_map]
        cases config.proxyInstanceList[index]? <;> rfl
  have hRules :
      (load.config.proxy ref).routeRuleList.map
          RouteRule.numbered =
        (load'.config.proxy ref).routeRuleList.map
          RouteRule.numbered := by
    have hHere : (load.config.proxy ref).numbered =
        (load'.config.proxy ref).numbered := by
      rw [← hProxy, hSame, hProxy]
    exact congrArg ProxyConfig.routeRuleList hHere
  refine List.ext_getElem? fun i => ?_
  have hAt := congrArg (fun rules => rules[i]?) hRules
  simp only [List.getElem?_map] at hAt ⊢
  cases hRoute : (load.config.proxy ref).routeRuleList[i]? with
  | none =>
      rw [hRoute, Option.map_none, eq_comm,
        Option.map_eq_none_iff] at hAt
      rw [hAt]
  | some route =>
      rw [hRoute, Option.map_some, eq_comm,
        Option.map_eq_some_iff] at hAt
      rcases hAt with ⟨route', hRoute', hNumbered⟩
      have hMem := (hLoad.proxies ref).tunnels route
        (List.mem_of_getElem? hRoute)
      have hMem' := (hLoad'.proxies ref).tunnels route'
        (List.mem_of_getElem? hRoute')
      rw [hRoute', Option.map_some, Option.map_some,
        eq_of_ids hLoad.ids hMem
          (fun tun hTun => hTunnels ▸ hMem' tun hTun)
          (RouteRule.ids_of_numbered hNumbered.symm)]

/-
  A line without an effect: it is blank, or its text only
  sets fields, and these hold the values already.
-/
def IdleConfigLine
    (world : ConfigWorld)
    (config : Configuration)
    (stack : List Text)
    (read : Option (Text → Option (List ConfigSetting)))
    (current : Section)
    (line : Text) : Prop :=
  line = [] ∨
    ∃ current' settings,
      lineSettings world config.names stack read line current =
        some (current', settings) ∧
      config.HasAll settings

/- The result with the last line, when it is reached. -/
theorem configFileLine_outcome_iff
    (world : ConfigWorld)
    (filename : Text)
    (stack : List Text)
    {parse : Option (Text → ConfigLoad → ConfigResult)}
    {read : Option (Text → Option (List ConfigSetting))}
    {state : ConfigState}
    (hIncludes :
      IncludesFollow state.load.config.names parse read)
    (hWithin :
      state.load.config.names.Within state.current)
    (lineNum : Nat)
    (buf : Text) :
    ((configFileLine world filename stack parse lineNum buf
          state).andThen
        fun state => .returned true state.load).outcome =
        .returned true state.load.config.numbered ↔
      ∃ line, configLine world.environ buf = .ok line ∧
        IdleConfigLine world state.load.config stack read
          state.current line := by
  cases hLine : configLine world.environ buf with
  | error failure =>
      rw [configFileLine_of_error _ _ _ _ _ _ hLine]
      cases failure <;>
        simp [LineFailure.configResult, ConfigResult.outcome]
  | ok line =>
      simp only [Except.ok.injEq, exists_eq_left']
      by_cases hBlank : line = []
      · subst hBlank
        rw [configFileLine_of_blank _ _ _ _ _ _ hLine]
        exact iff_of_true rfl (.inl rfl)
      have hStep := configFileLine_follows world filename
        stack hIncludes hLine hBlank lineNum hWithin
      unfold IdleConfigLine
      cases hRead : lineSettings world
          state.load.config.names stack read line
          state.current with
      | none =>
          rw [hRead] at hStep
          refine iff_of_false ?_ (by simp [hBlank])
          intro hSame
          cases hNext : configFileLine world filename stack
              parse lineNum buf state with
          | next state' =>
              rw [hNext] at hSame
              refine hStep.2 state' hNext ?_
              exact Configuration.grows_of_numbered
                (ConfigOutcome.returned.inj hSame).2
          | stop result =>
              rw [hNext] at hSame
              cases result with
              | crash => cases hSame
              | exited => cases hSame
              | returned okay load =>
                  exact hStep.1 okay load hNext
      | some settings =>
          rcases settings with ⟨current, settings⟩
          rw [hRead] at hStep
          rcases hStep with ⟨load, hNext, hSet⟩
          rw [hNext, LineStep.andThen_next,
            ConfigResult.outcome, hSet]
          simp [hBlank, Configuration.numbered_assign_eq_iff]

section ConfigFile

variable (world : ConfigWorld)
variable (room : Nat)
variable (stack : List Text)
variable (filename : Text)

/- A newline behind the content changes nothing. -/
def ConfigNewlineNeutral
    (load : ConfigLoad)
    (bytes : Text) : Prop :=
  (configFileParse (world.withFile filename bytes) room stack
      filename load).outcome =
    (configFileParse (world.withFile filename (bytes ++ [10]))
      room stack filename load).outcome

/-
  In the state that the lines before it lead to, the last
  line has no effect.
-/
def IdleConfigEnd
    (load : ConfigLoad)
    (bytes : Text) : Prop :=
  let world' := world.withFile filename (bytes ++ [10])
  let stack' := stack ++ [filename]
  ∀ lineNum last state,
    (readLines maxLineLength ⟨bytes, false⟩).final
        (configFileLine world' filename stack'
          (configsBelow world' room stack'))
        1 ⟨.none, load⟩ =
      some (lineNum, last, state) →
    ∃ line, configLine world.environ last = .ok line ∧
      IdleConfigLine world' state.load.config stack'
        (settingsBelow world' state.load.config.names room
          stack')
        state.current line

theorem configNewlineNeutral_iff
    (load : ConfigLoad)
    {bytes : Text}
    (hOpen : EndsOpen bytes) :
    ConfigNewlineNeutral world room stack filename load
        bytes ↔
      IdleConfigEnd world room stack filename load bytes := by
  have hFile :
      (world.withFile filename bytes).files filename =
        some ⟨bytes, false⟩ :=
    world.toFileWorld.withFile_self filename bytes
  have hFile' :
      (world.withFile filename (bytes ++ [10])).files filename =
        some ⟨bytes ++ [10], false⟩ :=
    world.toFileWorld.withFile_self filename (bytes ++ [10])
  unfold ConfigNewlineNeutral
  rw [configFileParse_eq, configFileParse_eq, configFileBody,
    configFileBody, hFile, hFile']
  dsimp only
  rw [configFileRun_withFile world filename hOpen room stack
      load,
    readLines_terminate maxLineLength hOpen,
    outcome_terminate_iff]
  apply forall_congr'
  intro lineNum
  apply forall_congr'
  intro last
  apply forall_congr'
  intro state
  apply imp_congr_right
  intro hFinal
  have hStart : load.config.names.Within .none := trivial
  have hWithin := LineReads.final_satisfies
    (configFileLine_within
      (configsBelow_changes _ room (stack ++ [filename])))
    hStart hFinal
  exact configFileLine_outcome_iff _ filename
    (stack ++ [filename])
    (includesFollow_below _ state.load.config.names room
      (stack ++ [filename]))
    hWithin lineNum last

end ConfigFile

/-
  For both parsers, a newline behind the last line changes
  nothing exactly if that line is not reached, or asks for
  nothing that is not there before it.
-/
theorem final_newline_iff
    (world : ConfigWorld)
    (room : Nat)
    (stack : List Text)
    (filename : Text)
    (sshTunnelList : List SshTunnel)
    (rules : RuleLoad)
    (load : ConfigLoad)
    {bytes : Text}
    (hOpen : EndsOpen bytes) :
    (RouteNewlineNeutral world.toFileWorld sshTunnelList room
          stack filename rules bytes ↔
        IdleRouteEnd world.toFileWorld sshTunnelList room
          stack filename bytes) ∧
      (ConfigNewlineNeutral world room stack filename load
          bytes ↔
        IdleConfigEnd world room stack filename load
          bytes) := by
  constructor
  · exact routeNewlineNeutral_iff world.toFileWorld
      sshTunnelList room stack filename rules hOpen
  · exact configNewlineNeutral_iff world room stack filename
      load hOpen

/- A system without any files. -/
def bareWorld : ConfigWorld where
  environ := fun _ => none
  files := fun _ => none
  junk := fun _ => zeroJunk
  directories := fun _ => none
  junkLog := fun _ => ⟨0, none⟩

/- A section whose entry is the last line of its file. -/
def mainText
    (entry : String) : Text :=
  field "main" ++ [10] ++ field entry

/-
  A last line that sets what is set from the beginning, in a
  file that is no route file.
-/
theorem final_newline_iff_ulimit :
    RouteNewlineNeutral bareWorld.toFileWorld [sshTunnelNull]
        199 [] (field "config") ⟨[], 0⟩
        (mainText "ulimit 4096") ∧
      ConfigNewlineNeutral bareWorld 199 [] (field "config")
        (ConfigLoad.init bareWorld.junkLog)
        (mainText "ulimit 4096") := by
  have hOpen : EndsOpen (mainText "ulimit 4096") := by
    refine ⟨54, ?_, ?_, ?_⟩ <;> decide
  have hIff := final_newline_iff bareWorld 199 []
    (field "config") [sshTunnelNull] ⟨[], 0⟩
    (ConfigLoad.init bareWorld.junkLog) hOpen
  refine ⟨hIff.1.mpr ?_, hIff.2.mpr ?_⟩
  · intro hReaches
    have hEnds :
        (routeTree
          (bareWorld.withFile (field "config")
            (mainText "ulimit 4096")).toFileWorld
          [sshTunnelNull] 199 [] (field "config")).reachesEnd =
          false := by
      decide +kernel
    exact absurd (hEnds.symm.trans hReaches)
      Bool.false_ne_true
  · intro lineNum last state hFinal
    have hBefore :
        (readLines maxLineLength
            ⟨mainText "ulimit 4096", false⟩).final
          (configFileLine
            (bareWorld.withFile (field "config")
              (mainText "ulimit 4096" ++ [10]))
            (field "config") [field "config"]
            (configsBelow
              (bareWorld.withFile (field "config")
                (mainText "ulimit 4096" ++ [10]))
              199 [field "config"]))
          1 ⟨.none, ConfigLoad.init bareWorld.junkLog⟩ =
        some
          (2, field "ulimit 4096",
            ⟨.main, .init bareWorld.junkLog⟩) := by
      decide +kernel
    cases hBefore.symm.trans hFinal
    refine ⟨field "ulimit 4096", by decide +kernel, .inr ?_⟩
    refine ⟨.main, [⟨.ulimit, 4096⟩], ?_, ?_⟩
    · decide +kernel
    · rw [← Configuration.assign_eq_iff]
      decide +kernel

/-
  Without the newline, the rule for everything else and the
  limit of open files are lost.
-/
theorem final_newline_lost :
    ¬RouteNewlineNeutral bareWorld.toFileWorld
        [sshTunnelNull] 199 [] (field "rules") ⟨[], 0⟩
        (field "via null") ∧
      ¬ConfigNewlineNeutral bareWorld 199 [] (field "config")
        (ConfigLoad.init bareWorld.junkLog)
        (mainText "ulimit 9") := by
  constructor
  · unfold RouteNewlineNeutral
    decide +kernel
  · unfold ConfigNewlineNeutral
    decide +kernel

end SmartSOCKSProxy
