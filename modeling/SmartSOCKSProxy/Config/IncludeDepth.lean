import SmartSOCKSProxy.Config.ConfigFile
import SmartSOCKSProxy.Foundations.IncludeStack

/-
  Includes end within the stack.

  Both parsers are readers of nested files, with the array of
  file names and the index that their guards test.  The models
  that count the room on the stack give the results of these
  readers.

  Key definitions include:
    * `routeFileAction`, `routeReader`
    * `configFileAction`, `configReader`

  Key theorems include:
    * `routeRuleFileParse_eq_value`
    * `configFileParse_eq_value`
    * `includes_end`
-/

namespace SmartSOCKSProxy

------------------------------------------------------------
-- Lines
------------------------------------------------------------

/- The lines that are found, in order. -/
def LineReads.lines : LineReads → List Text
  | .failed => []
  | .eof _ => []
  | .line buf more => buf :: more.lines

/- The end of the file is reached. -/
def LineReads.complete : LineReads → Bool
  | .failed => false
  | .eof _ => true
  | .line _ more => more.complete

def FileWorld.lines
    (world : FileWorld)
    (filename : Text) : Option (List Text × Bool) :=
  (world.files filename).map fun file =>
    let reads := readLines maxLineLength file
    (reads.lines, reads.complete)

/- An action, with the guard for files that are included. -/
def guarded
    {β σ ρ : Type}
    (stack : List Text)
    (included : Option (Text → β → ρ))
    (state : σ) :
    ReadAction Text β σ ρ → LineStep σ ρ
  | .next state' => .next state'
  | .stop result => .stop result
  | .nested name arg resume =>
      match includeGuard stack included name with
      | none => .next state
      | some parse =>
          match resume (parse arg) with
          | .inl state' => .next state'
          | .inr result => .stop result

/- A loop over the lines is a reader of the lines. -/
theorem run_eq_valueItems
    {β σ ρ : Type}
    (r : NestedReader Text Text β σ ρ)
    {filename : Text}
    {stack : List Text}
    {included : Option (Text → β → ρ)}
    {body : Nat → Text → σ → LineStep σ ρ}
    (hBody :
      ∀ lineNum buf state,
        body lineNum buf state =
          guarded stack included state
            (r.item filename lineNum buf state))
    (reads : LineReads)
    (lineNum : Nat)
    (state : σ) :
    reads.run body (r.atEnd true) (r.atEnd false) lineNum
        state =
      r.valueItems included stack filename reads.complete
        reads.lines lineNum state := by
  induction reads generalizing lineNum state with
  | failed => rfl
  | eof buf => rfl
  | line buf more ih =>
      rw [LineReads.run, LineReads.lines, hBody,
        LineReads.complete]
      simp only [NestedReader.valueItems]
      cases r.item filename lineNum buf state with
      | next state' => exact ih (lineNum + 1) state'
      | stop result => rfl
      | nested name arg resume =>
          simp only [guarded, includeGuard]
          by_cases hOn : name ∈ stack
          · simp only [if_pos hOn, LineStep.andThen_next]
            exact ih (lineNum + 1) state
          · simp only [if_neg hOn]
            cases included with
            | none =>
                simp only [Option.map_none,
                  LineStep.andThen_next]
                exact ih (lineNum + 1) state
            | some parse =>
                simp only [Option.map_some]
                cases resume (parse name arg) with
                | inl state' => exact ih (lineNum + 1) state'
                | inr result => rfl

------------------------------------------------------------
-- Rule Files
------------------------------------------------------------

/-
  The body of the loop of route_rule_file_parse(), up to the
  test of the stack.
-/
def routeFileAction
    (world : FileWorld)
    (sshTunnelList : List SshTunnel)
    (filename : Text)
    (lineNum : Nat)
    (buf : Text)
    (load : RuleLoad) :
    ReadAction Text RuleLoad RuleLoad LoadResult :=
  match configLine world.environ buf with
  | .error .invalid => .stop (.returned false load)
  | .error .overrun => .stop .crash
  | .ok line =>
      if line = [] then .next load
      else
        match configSetString stringBufLen line
            (field "routeFile ") with
        | .overrun => .stop .crash
        | .value name =>
            .nested name.text load fun result =>
              match result with
              | .crash => .inr .crash
              | .returned true load' => .inl load'
              | .returned false load' =>
                  .inr (.returned true load')
        | .unset =>
            let mallocs := load.mallocs + 1
            match parseRouteRuleSpec (world.junk load.mallocs)
                line (some filename) lineNum sshTunnelList with
            | .error .crash => .stop .crash
            | .error .null =>
                .stop (.returned false { load with mallocs })
            | .ok route =>
                .next
                  ⟨insertRouteRule load.routes route, mallocs⟩

/- `route_rule_file_parse()` with its stack and index. -/
def routeReader
    (world : FileWorld)
    (sshTunnelList : List SshTunnel) :
    NestedReader Text Text RuleLoad RuleLoad LoadResult where
  file := world.lines
  start := id
  item := routeFileAction world sshTunnelList
  atEnd := .returned
  missing := .returned false

theorem routeFileLine_eq_guarded
    (world : FileWorld)
    (sshTunnelList : List SshTunnel)
    (filename : Text)
    (stack : List Text)
    (included : Option (Text → RuleLoad → LoadResult))
    (lineNum : Nat)
    (buf : Text)
    (load : RuleLoad) :
    routeFileLine world sshTunnelList filename stack included
        lineNum buf load =
      guarded stack included load
        (routeFileAction world sshTunnelList filename lineNum
          buf load) := by
  unfold routeFileLine routeFileAction
  cases configLine world.environ buf with
  | error failure => cases failure <;> rfl
  | ok line =>
      by_cases hBlank : line = []
      · simp only [if_pos hBlank]
        rfl
      · simp only [if_neg hBlank]
        cases configSetString stringBufLen line
            (field "routeFile ") with
        | overrun => rfl
        | value name =>
            simp only [guarded]
            cases includeGuard stack included name.text with
            | none => rfl
            | some parse =>
                simp only
                cases parse load with
                | crash => rfl
                | returned okay load' => cases okay <;> rfl
        | unset =>
            simp only
            cases parseRouteRuleSpec (world.junk load.mallocs)
                line (some filename) lineNum sshTunnelList with
            | error failure => cases failure <;> rfl
            | ok route => rfl

theorem routeFileBody_eq
    (world : FileWorld)
    (sshTunnelList : List SshTunnel)
    (filename : Text)
    (stack : List Text)
    (included : Option (Text → RuleLoad → LoadResult))
    (load : RuleLoad) :
    routeFileBody world sshTunnelList filename stack included
        load =
      (routeReader world sshTunnelList).valueBody included
        stack filename load := by
  unfold routeFileBody NestedReader.valueBody
  simp only [routeReader, FileWorld.lines]
  cases world.files filename with
  | none => rfl
  | some file =>
      exact run_eq_valueItems (routeReader world sshTunnelList)
        (routeFileLine_eq_guarded world sshTunnelList filename
          stack included)
        (readLines maxLineLength file) 1 load

/- The model that counts the room gives the result. -/
theorem routeRuleFileParse_eq_value
    (world : FileWorld)
    (sshTunnelList : List SshTunnel)
    (room : Nat)
    (stack : List Text)
    (filename : Text)
    (load : RuleLoad) :
    routeRuleFileParse world sshTunnelList room stack filename
        load =
      (routeReader world sshTunnelList).value room stack
        filename load := by
  induction room generalizing stack filename load with
  | zero =>
      rw [routeRuleFileParse, NestedReader.value,
        routeFileBody_eq]
  | succ room ih =>
      have hInner :
          routeRuleFileParse world sshTunnelList room
              (stack ++ [filename]) =
            (routeReader world sshTunnelList).value room
              (stack ++ [filename]) := by
        funext name load'
        exact ih _ _ _
      rw [routeRuleFileParse, NestedReader.value, hInner,
        routeFileBody_eq]

------------------------------------------------------------
-- Configuration Files
------------------------------------------------------------

/- The same for a step of config_file_parse(). -/
def LineStep.toAction
    {ν β σ ρ : Type} :
    LineStep σ ρ → ReadAction ν β σ ρ
  | .next state => .next state
  | .stop result => .stop result

/-
  The body of the loop of config_file_parse(), up to the test
  of the stack.
-/
def configFileAction
    (world : ConfigWorld)
    (filename : Text)
    (lineNum : Nat)
    (buf : Text)
    (state : ConfigState) :
    ReadAction Text ConfigLoad ConfigState ConfigResult :=
  match configLine world.environ buf with
  | .error .invalid => .stop (.returned false state.load)
  | .error .overrun => .stop .crash
  | .ok line =>
      if line = [] then .next state
      else
        match configSetString stringBufLen line
            (field "include ") with
        | .overrun => .stop .crash
        | .value name =>
            .nested name.text state.load fun result =>
              match result with
              | .crash => .inr .crash
              | .exited => .inr .exited
              | .returned _ load => .inl { state with load }
        | .unset =>
            (sectionLine world filename lineNum line
              state).toAction

/- `config_file_parse()` with its stack and index. -/
def configReader
    (world : ConfigWorld) :
    NestedReader Text Text ConfigLoad ConfigState
      ConfigResult where
  file := world.toFileWorld.lines
  start load := ⟨.none, load⟩
  item := configFileAction world
  atEnd complete state := .returned complete state.load
  missing := .returned false

theorem configFileLine_eq_guarded
    (world : ConfigWorld)
    (filename : Text)
    (stack : List Text)
    (included : Option (Text → ConfigLoad → ConfigResult))
    (lineNum : Nat)
    (buf : Text)
    (state : ConfigState) :
    configFileLine world filename stack included lineNum buf
        state =
      guarded stack included state
        (configFileAction world filename lineNum buf
          state) := by
  unfold configFileLine configFileAction
  cases configLine world.environ buf with
  | error failure => cases failure <;> rfl
  | ok line =>
      by_cases hBlank : line = []
      · simp only [if_pos hBlank]
        rfl
      · simp only [if_neg hBlank]
        cases configSetString stringBufLen line
            (field "include ") with
        | overrun => rfl
        | value name =>
            simp only [guarded]
            cases includeGuard stack included name.text with
            | none => rfl
            | some parse =>
                simp only
                cases parse state.load <;> rfl
        | unset =>
            simp only
            cases sectionLine world filename lineNum line
              state <;> rfl

theorem configFileBody_eq
    (world : ConfigWorld)
    (filename : Text)
    (stack : List Text)
    (included : Option (Text → ConfigLoad → ConfigResult))
    (load : ConfigLoad) :
    configFileBody world filename stack included load =
      (configReader world).valueBody included stack filename
        load := by
  unfold configFileBody NestedReader.valueBody
  simp only [configReader, FileWorld.lines]
  cases world.files filename with
  | none => rfl
  | some file =>
      exact run_eq_valueItems (configReader world)
        (configFileLine_eq_guarded world filename stack
          included)
        (readLines maxLineLength file) 1 ⟨.none, load⟩

theorem configFileParse_eq_value
    (world : ConfigWorld)
    (room : Nat)
    (stack : List Text)
    (filename : Text)
    (load : ConfigLoad) :
    configFileParse world room stack filename load =
      (configReader world).value room stack filename load := by
  induction room generalizing stack filename load with
  | zero =>
      rw [configFileParse, NestedReader.value,
        configFileBody_eq]
  | succ room ih =>
      have hInner :
          configFileParse world room (stack ++ [filename]) =
            (configReader world).value room
              (stack ++ [filename]) := by
        funext name load'
        exact ih _ _ _
      rw [configFileParse, NestedReader.value, hInner,
        configFileBody_eq]

------------------------------------------------------------
-- Both Parsers
------------------------------------------------------------

/-
  A call with index 0 ends after at most as many nested calls
  as the stack has places, whatever the stack held before: it
  stores at indices below that number, and no name is on the
  stack twice at any moment.
-/
theorem includes_end
    {size : Nat}
    (hSize : 1 ≤ size)
    (world : ConfigWorld)
    (stack : Nat → Text)
    (filename : Text) :
    (∀ load,
      Ends
        (fun fuel =>
          (configReader world).read size fuel stack 0 filename
            load)
        size size 0 stack
        (configFileParse world (size - 1) [] filename load)) ∧
    ∀ sshTunnelList load,
      Ends
        (fun fuel =>
          (routeReader world.toFileWorld sshTunnelList).read
            size fuel stack 0 filename load)
        size size 0 stack
        (routeRuleFileParse world.toFileWorld sshTunnelList
          (size - 1) [] filename load) := by
  have hNew : (namesBelow stack 0 ++ [filename]).Nodup := by
    simp [namesBelow]
  have hRoom : size - 1 + 1 = size := Nat.sub_add_cancel hSize
  constructor
  · intro load
    have hEnds := (configReader world).read_total size
      (size - 1) (by omega) stack hNew load
    rw [hRoom] at hEnds
    rw [configFileParse_eq_value]
    exact hEnds
  · intro sshTunnelList load
    have hEnds :=
      (routeReader world.toFileWorld sshTunnelList).read_total
        size (size - 1) (by omega) stack hNew load
    rw [hRoom] at hEnds
    rw [routeRuleFileParse_eq_value]
    exact hEnds

/- Every name is a file that includes two names of itself. -/
def selfIncludingWorld : ConfigWorld where
  environ := fun _ => none
  files := fun _ =>
    some
      ⟨field "include a" ++ [10] ++ field "include ./a" ++ [10],
        false⟩
  junk := fun _ => Vector.replicate _ none
  directories := fun _ => none
  junkLog := fun _ => ⟨0, none⟩

/- The size of the array that main() passes. -/
theorem includes_end_selfIncluding :
    Ends
      (fun fuel =>
        (configReader selfIncludingWorld).read 200 fuel
          (fun _ => []) 0 (field "a")
          (ConfigLoad.init selfIncludingWorld.junkLog))
      200 200 0 (fun _ => [])
      (configFileParse selfIncludingWorld 199 [] (field "a")
        (ConfigLoad.init selfIncludingWorld.junkLog)) :=
  (includes_end (by decide) selfIncludingWorld (fun _ => [])
    (field "a")).1 _

end SmartSOCKSProxy
