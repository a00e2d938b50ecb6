import SmartSOCKSProxy.Config.Settings
import SmartSOCKSProxy.Routing.RuleParser

/-
  Loading files of routing rules.

  Key definitions include:
    * `FileWorld`, `RuleLoad`, `LoadResult`
    * `insertRouteRule`
    * `routeFileLine`, `routeRuleFileParse`
-/

namespace SmartSOCKSProxy

------------------------------------------------------------
-- Surroundings
------------------------------------------------------------

abbrev routeRuleFilenameStackSize : Nat := 200

/-
  What the parsers see of the system: environment variables,
  the files that can be opened, and what malloc() leaves in a
  rule.
-/
structure FileWorld where
  environ : Text → Option Text
  files : Text → Option DiskFile
  junk : Nat → Vector (Option SshTunnel)
    routeRuleMaxSshTunnelsPerRule

/- The rule list, and how often a rule was allocated. -/
structure RuleLoad where
  routes : List RouteRule
  mallocs : Nat
deriving DecidableEq

/-
  The result of a load.  `crash` is a string function called
  with NULL, or a buffer that is overrun.
-/
inductive LoadResult where
| crash
| returned (okay : Bool) (load : RuleLoad)
deriving DecidableEq

------------------------------------------------------------
-- The Rule List
------------------------------------------------------------

/- `insert_route_rule()`: the loop goes to the last rule. -/
def insertRouteRule
    (head : List RouteRule)
    (route : RouteRule) : List RouteRule :=
  match head with
  | [] => [route]
  | rule :: next => rule :: insertRouteRule next route

theorem insertRouteRule_eq
    (head : List RouteRule)
    (route : RouteRule) :
    insertRouteRule head route = head ++ [route] := by
  induction head with
  | nil => rfl
  | cons rule next ih =>
      rw [insertRouteRule, ih, List.cons_append]

------------------------------------------------------------
-- Included Files
------------------------------------------------------------

/-
  The include guard.  There is nothing to include for a name
  that is on the stack, or when the stack is full.
-/
def includeGuard
    {β : Type}
    (stack : List Text)
    (included : Option (Text → β))
    (name : Text) : Option β :=
  if name ∈ stack then none
  else included.map fun parse => parse name

/- `include_filename` and the buffers of its kind. -/
abbrev stringBufLen : Nat := 8192

section Lines

variable (world : FileWorld)
variable (sshTunnelList : List SshTunnel)
variable (filename : Text)
variable (stack : List Text)

/-
  The body of the loop of route_rule_file_parse().  The
  result of an included file is the variable that the loop
  goes on with.
-/
def routeFileLine
    (included : Option (Text → RuleLoad → LoadResult))
    (lineNum : Nat)
    (buf : Text)
    (load : RuleLoad) : LineStep RuleLoad LoadResult :=
  match configLine world.environ buf with
  | .error .invalid => .stop (.returned false load)
  | .error .overrun => .stop .crash
  | .ok line =>
      if line = [] then .next load
      else
        match configSetString stringBufLen line
            (field "routeFile ") with
        | .overrun => .stop .crash
        | .value name =>
            match includeGuard stack included name.text with
            | none => .next load
            | some parse =>
                match parse load with
                | .crash => .stop .crash
                | .returned true load' => .next load'
                | .returned false load' =>
                    .stop (.returned true load')
        | .unset =>
            let mallocs := load.mallocs + 1
            match parseRouteRuleSpec (world.junk load.mallocs)
                line (some filename) lineNum sshTunnelList with
            | .error .crash => .stop .crash
            | .error .null =>
                .stop (.returned false { load with mallocs })
            | .ok route =>
                .next
                  ⟨insertRouteRule load.routes route, mallocs⟩

/- What an unusable line is for a load. -/
def LineFailure.loadResult
    (load : RuleLoad) : LineFailure → LoadResult
  | .invalid => .returned false load
  | .overrun => .crash

theorem routeFileLine_of_error
    (parse : Option (Text → RuleLoad → LoadResult))
    (lineNum : Nat)
    {buf : Text}
    (load : RuleLoad)
    {failure : LineFailure}
    (hLine : configLine world.environ buf = .error failure) :
    routeFileLine world sshTunnelList filename stack parse
        lineNum buf load =
      .stop (failure.loadResult load) := by
  unfold routeFileLine
  simp only [hLine]
  cases failure <;> rfl

theorem routeFileLine_of_blank
    (parse : Option (Text → RuleLoad → LoadResult))
    (lineNum : Nat)
    {buf : Text}
    (load : RuleLoad)
    (hLine : configLine world.environ buf = .ok []) :
    routeFileLine world sshTunnelList filename stack parse
        lineNum buf load =
      .next load := by
  unfold routeFileLine
  simp only [hLine, if_true]

/- A file that is on the stack already. -/
def routeFileBody
    (included : Option (Text → RuleLoad → LoadResult))
    (load : RuleLoad) : LoadResult :=
  match world.files filename with
  | none => .returned false load
  | some file =>
      (readLines maxLineLength file).run
        (routeFileLine world sshTunnelList filename stack
          included)
        (.returned true) (.returned false) 1 load

end Lines

/-
  `route_rule_file_parse()`.  `room` is what the guard leaves
  of the stack for files that are included, the difference of
  filename_stack_size and filename_stack_index.
-/
def routeRuleFileParse
    (world : FileWorld)
    (sshTunnelList : List SshTunnel) :
    Nat → List Text → Text → RuleLoad → LoadResult
  | 0, stack, filename, load =>
      routeFileBody world sshTunnelList filename
        (stack ++ [filename]) none load
  | room + 1, stack, filename, load =>
      routeFileBody world sshTunnelList filename
        (stack ++ [filename])
        (some
          (routeRuleFileParse world sshTunnelList room
            (stack ++ [filename])))
        load

/- The call for a `routeFile` line of a proxy section. -/
def loadRouteFile
    (world : FileWorld)
    (sshTunnelList : List SshTunnel)
    (filename : Text)
    (load : RuleLoad) : LoadResult :=
  routeRuleFileParse world sshTunnelList
    (routeRuleFilenameStackSize - 1) [] filename load

end SmartSOCKSProxy
