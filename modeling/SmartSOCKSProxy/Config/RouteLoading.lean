import SmartSOCKSProxy.Config.RouteFile
import SmartSOCKSProxy.Foundations.IncludeTree
import SmartSOCKSProxy.Routing.Clauses

/-
  What a load of routing rules adds.

  A route file and all it includes is a tree of lines.  The
  loader reads this tree, and ends a file well when a file
  that it includes is refused.

  Key definitions include:
    * `RuleLine`, `IsRuleOf`, `Extends`
    * `routeTree`, `TreeLoads`
    * `LoadedWhole`

  Key theorems include:
    * `parseRouteRuleSpec_junk`, `routeTree_tunnels`
    * `routeRuleFileParse_treeLoads`
    * `routeRuleFileParse_whole_iff`
-/

namespace SmartSOCKSProxy

------------------------------------------------------------
-- Fresh Memory
------------------------------------------------------------

theorem parseClauses_route
    (tokens : List Text)
    (route route' : RouteRule) :
    (parseClauses tokens route).map Prod.snd =
      (parseClauses tokens route').map Prod.snd := by
  induction tokens using List.twoStepInduction
    generalizing route route' with
  | nil => rfl
  | singleton cmd =>
      unfold parseClauses
      split_ifs <;> rfl
  | cons_cons cmd param rest ih ihTail =>
      unfold parseClauses
      by_cases hDns : cmd = kwResolveDns
      · simp only [if_pos hDns]
        exact ihTail param _ _
      by_cases hVia : cmd = kwVia
      · simp only [if_neg hDns, if_pos hVia]
        rfl
      simp only [if_neg hDns, if_neg hVia]
      have hSome := grabClause_isSome cmd param route route'
      cases hGrab : grabClause cmd param route with
      | none =>
          rw [hGrab, Option.isSome_none, eq_comm,
            Option.isSome_eq_false_iff,
            Option.isNone_iff_eq_none] at hSome
          rw [hSome]
      | some next =>
          rw [hGrab, Option.isSome_some, eq_comm,
            Option.isSome_iff_exists] at hSome
          rcases hSome with ⟨next', hSome⟩
          rw [hSome]
          exact ih next next'

/- The names of the tunnels that a rule can go through. -/
def tunnelNames
    (sshTunnelList : List SshTunnel) : List Text :=
  sshTunnelList.map fun ssh => ssh.name.text

theorem find?_tunnelNames
    {sshTunnelList sshTunnelList' : List SshTunnel}
    (hNames :
      tunnelNames sshTunnelList = tunnelNames sshTunnelList')
    {sshName : Text}
    (hNone :
      sshTunnelList.find?
        (fun ssh => ssh.name.text = sshName) = none) :
    sshTunnelList'.find?
      (fun ssh => ssh.name.text = sshName) = none := by
  have hNot : sshName ∉ tunnelNames sshTunnelList := by
    simpa [tunnelNames] using hNone
  rw [hNames] at hNot
  simpa [tunnelNames] using hNot

theorem parseVia_route
    {sshTunnelList sshTunnelList' : List SshTunnel}
    (hNames :
      tunnelNames sshTunnelList = tunnelNames sshTunnelList')
    (tokens : List Text)
    (route route' : RouteRule) :
    (parseVia sshTunnelList tokens route).map (fun _ => ()) =
      (parseVia sshTunnelList' tokens route').map
        fun _ => () := by
  induction tokens generalizing route route' with
  | nil => rfl
  | cons sshName tokens ih =>
      unfold parseVia
      split_ifs
      · exact ih route route'
      · cases hFind : sshTunnelList.find?
            (fun ssh => ssh.name.text = sshName) with
        | none =>
            rw [find?_tunnelNames hNames hFind]
        | some ssh =>
            cases hFind' : sshTunnelList'.find?
                (fun ssh => ssh.name.text = sshName) with
            | none =>
                rw [find?_tunnelNames hNames.symm hFind']
                  at hFind
                cases hFind
            | some ssh' => exact ih _ _

/-
  Whether there is a rule is decided by the text and by the
  names of the tunnels.
-/
theorem parseRouteRuleSpec_junk
    (junk junk' : Vector (Option SshTunnel)
      routeRuleMaxSshTunnelsPerRule)
    (strIn : Text)
    (filename : Option Text)
    (lineNum : Int)
    {sshTunnelList sshTunnelList' : List SshTunnel}
    (hNames :
      tunnelNames sshTunnelList =
        tunnelNames sshTunnelList') :
    (parseRouteRuleSpec junk strIn filename lineNum
        sshTunnelList).map (fun _ => ()) =
      (parseRouteRuleSpec junk' strIn filename lineNum
        sshTunnelList').map fun _ => () := by
  unfold parseRouteRuleSpec
  dsimp only
  generalize
    { newRouteRule junk with
      fileName := CBuf.copy (filename.getD [])
      fileLineNumber := lineNum } = route
  generalize
    { newRouteRule junk' with
      fileName := CBuf.copy (filename.getD [])
      fileLineNumber := lineNum } = route'
  have hClauses :=
    parseClauses_route (strIn.splitOn 32) route route'
  cases hLeft : parseClauses (strIn.splitOn 32) route with
  | error failure =>
      rw [hLeft] at hClauses
      cases hRight :
          parseClauses (strIn.splitOn 32) route' with
      | error failure' =>
          rw [hRight] at hClauses
          cases hClauses
          rfl
      | ok parsed =>
          rw [hRight] at hClauses
          cases hClauses
  | ok parsed =>
      rw [hLeft] at hClauses
      cases hRight :
          parseClauses (strIn.splitOn 32) route' with
      | error failure' =>
          rw [hRight] at hClauses
          cases hClauses
      | ok parsed' =>
          rw [hRight] at hClauses
          have hTokens : parsed.2 = parsed'.2 :=
            Except.ok.inj hClauses
          dsimp only
          rw [hTokens]
          exact parseVia_route hNames _ _ _

------------------------------------------------------------
-- The Lines of a File
------------------------------------------------------------

/- A line that should be a rule, and where it stands. -/
structure RuleLine where
  text : Text
  fileName : Text
  lineNum : Nat
deriving DecidableEq, Repr

/- What parse_route_rule_spec() makes of a line. -/
def RuleLine.parse
    (sshTunnelList : List SshTunnel)
    (line : RuleLine)
    (junk : Vector (Option SshTunnel)
      routeRuleMaxSshTunnelsPerRule) :
    Except ParseFailure RouteRule :=
  parseRouteRuleSpec junk line.text (some line.fileName)
    line.lineNum sshTunnelList

/- The rule of a line, for some content of fresh memory. -/
def IsRuleOf
    (sshTunnelList : List SshTunnel)
    (line : RuleLine)
    (route : RouteRule) : Prop :=
  ∃ junk, line.parse sshTunnelList junk = .ok route

/- Fresh memory of zeros. -/
def zeroJunk :
    Vector (Option SshTunnel) routeRuleMaxSshTunnelsPerRule :=
  Vector.replicate routeRuleMaxSshTunnelsPerRule none

section Tree

variable (world : FileWorld)
variable (sshTunnelList : List SshTunnel)

/- A line of a file, in front of the other lines. -/
def lineTree
    (stack : List Text)
    (included : Option (Text → IncludeTree RuleLine))
    (line : RuleLine)
    (rest : IncludeTree RuleLine) : IncludeTree RuleLine :=
  match configSetString stringBufLen line.text
      (field "routeFile ") with
  | .overrun => .lost
  | .value name =>
      match includeGuard stack included name.text with
      | none => rest
      | some inner => .nested inner rest
  | .unset =>
      match line.parse sshTunnelList zeroJunk with
      | .error .crash => .lost
      | .error .null => .bad
      | .ok _ => .item line rest

/-
  The lines that end with a newline, each as what it is.
  Blank lines and blocked files are nothing.
-/
def treeOfLines
    (filename : Text)
    (stack : List Text)
    (included : Option (Text → IncludeTree RuleLine)) :
    LineReads → Nat → IncludeTree RuleLine
  | .failed, _ => .bad
  | .eof _, _ => .done
  | .line buf more, lineNum =>
      match configLine world.environ buf with
      | .error .invalid => .bad
      | .error .overrun => .lost
      | .ok [] =>
          treeOfLines filename stack included more (lineNum + 1)
      | .ok (c :: cs) =>
          lineTree sshTunnelList stack included
            ⟨c :: cs, filename, lineNum⟩
            (treeOfLines filename stack included more
              (lineNum + 1))

def treeOfFile
    (filename : Text)
    (stack : List Text)
    (included : Option (Text → IncludeTree RuleLine)) :
    IncludeTree RuleLine :=
  match world.files filename with
  | none => .bad
  | some file =>
      treeOfLines world sshTunnelList filename stack included
        (readLines maxLineLength file) 1

/- A route file and all that it includes. -/
def routeTree :
    Nat → List Text → Text → IncludeTree RuleLine
  | 0, stack, filename =>
      treeOfFile world sshTunnelList filename
        (stack ++ [filename]) none
  | room + 1, stack, filename =>
      treeOfFile world sshTunnelList filename
        (stack ++ [filename])
        (some (routeTree room (stack ++ [filename])))

/- Of the tunnels, only the names make a difference. -/
theorem lineTree_tunnels
    {sshTunnelList sshTunnelList' : List SshTunnel}
    (hNames :
      tunnelNames sshTunnelList = tunnelNames sshTunnelList')
    (stack : List Text)
    (included : Option (Text → IncludeTree RuleLine))
    (line : RuleLine)
    (rest : IncludeTree RuleLine) :
    lineTree sshTunnelList stack included line rest =
      lineTree sshTunnelList' stack included line rest := by
  have hSame :
      (line.parse sshTunnelList zeroJunk).map
          (fun _ => ()) =
        (line.parse sshTunnelList' zeroJunk).map fun _ => () :=
    parseRouteRuleSpec_junk zeroJunk zeroJunk line.text
      (some line.fileName) line.lineNum hNames
  unfold lineTree
  cases configSetString stringBufLen line.text
      (field "routeFile ") with
  | overrun => rfl
  | value name => rfl
  | unset =>
      cases hLeft : line.parse sshTunnelList zeroJunk with
      | error failure =>
          cases hRight :
              line.parse sshTunnelList' zeroJunk with
          | error failure' =>
              rw [hLeft, hRight] at hSame
              cases hSame
              rfl
          | ok route =>
              rw [hLeft, hRight] at hSame
              cases hSame
      | ok route =>
          cases hRight :
              line.parse sshTunnelList' zeroJunk with
          | error failure =>
              rw [hLeft, hRight] at hSame
              cases hSame
          | ok route' => rfl

theorem treeOfLines_tunnels
    {sshTunnelList sshTunnelList' : List SshTunnel}
    (hNames :
      tunnelNames sshTunnelList = tunnelNames sshTunnelList')
    (filename : Text)
    (stack : List Text)
    (included : Option (Text → IncludeTree RuleLine))
    (reads : LineReads)
    (lineNum : Nat) :
    treeOfLines world sshTunnelList filename stack included
        reads lineNum =
      treeOfLines world sshTunnelList' filename stack included
        reads lineNum := by
  induction reads generalizing lineNum with
  | failed => rfl
  | eof buf => rfl
  | line buf more ih =>
      rw [treeOfLines, treeOfLines]
      cases configLine world.environ buf with
      | error failure => cases failure <;> rfl
      | ok line =>
          cases line with
          | nil => exact ih (lineNum + 1)
          | cons c cs =>
              dsimp only
              rw [ih, lineTree_tunnels hNames]

theorem treeOfFile_tunnels
    {sshTunnelList sshTunnelList' : List SshTunnel}
    (hNames :
      tunnelNames sshTunnelList = tunnelNames sshTunnelList')
    (filename : Text)
    (stack : List Text)
    (included : Option (Text → IncludeTree RuleLine)) :
    treeOfFile world sshTunnelList filename stack included =
      treeOfFile world sshTunnelList' filename stack
        included := by
  unfold treeOfFile
  cases world.files filename with
  | none => rfl
  | some file =>
      exact treeOfLines_tunnels world hNames filename stack
        included _ 1

theorem routeTree_tunnels
    {sshTunnelList sshTunnelList' : List SshTunnel}
    (hNames :
      tunnelNames sshTunnelList = tunnelNames sshTunnelList')
    (room : Nat)
    (stack : List Text)
    (filename : Text) :
    routeTree world sshTunnelList room stack filename =
      routeTree world sshTunnelList' room stack filename := by
  induction room generalizing stack filename with
  | zero =>
      exact treeOfFile_tunnels world hNames filename _ none
  | succ room ih =>
      have hBelow :
          routeTree world sshTunnelList room
              (stack ++ [filename]) =
            routeTree world sshTunnelList' room
              (stack ++ [filename]) :=
        funext fun inner => ih (stack ++ [filename]) inner
      rw [routeTree, routeTree, hBelow]
      exact treeOfFile_tunnels world hNames filename _ _

end Tree

------------------------------------------------------------
-- What a Load Does
------------------------------------------------------------

/- Rules are added behind the others, one for each line. -/
def Extends
    (sshTunnelList : List SshTunnel)
    (lines : List RuleLine)
    (before after : List RouteRule) : Prop :=
  ∃ rules, after = before ++ rules ∧
    List.Forall₂ (IsRuleOf sshTunnelList) lines rules

theorem Extends.refl
    (sshTunnelList : List SshTunnel)
    (routes : List RouteRule) :
    Extends sshTunnelList [] routes routes :=
  ⟨[], by simp, .nil⟩

theorem Extends.trans
    {sshTunnelList : List SshTunnel}
    {front back : List RuleLine}
    {before between after : List RouteRule}
    (hFront : Extends sshTunnelList front before between)
    (hBack : Extends sshTunnelList back between after) :
    Extends sshTunnelList (front ++ back) before after := by
  rcases hFront with ⟨rules, rfl, hRules⟩
  rcases hBack with ⟨more, rfl, hMore⟩
  exact ⟨rules ++ more, List.append_assoc ..,
    List.rel_append hRules hMore⟩

/- No rule is added exactly for no line. -/
theorem Extends.eq_iff
    {sshTunnelList : List SshTunnel}
    {lines : List RuleLine}
    {before after : List RouteRule}
    (hExtends : Extends sshTunnelList lines before after) :
    after = before ↔ lines = [] := by
  rcases hExtends with ⟨rules, rfl, hRules⟩
  rw [List.append_right_eq_self, ← List.length_eq_zero_iff,
    ← hRules.length_eq, List.length_eq_zero_iff]

/- A load that reads a tree the way the loader does. -/
inductive TreeLoads
    (sshTunnelList : List SshTunnel)
    (t : IncludeTree RuleLine)
    (load : RuleLoad) : LoadResult → Prop
| accepted
    {load' : RuleLoad}
    (hTree : t.accepted = true)
    (hRoutes :
      Extends sshTunnelList t.loaded load.routes
        load'.routes) :
    TreeLoads sshTunnelList t load (.returned true load')
| refused
    {load' : RuleLoad}
    (hTree : t.refused = true)
    (hRoutes :
      Extends sshTunnelList t.loaded load.routes
        load'.routes) :
    TreeLoads sshTunnelList t load (.returned false load')
| crash
    (hTree : t.accepted = false ∧ t.refused = false) :
    TreeLoads sshTunnelList t load .crash

/-
  The guard lets the same files through.  Whatever relates two
  sides file by file still does behind the guard.
-/
theorem includeGuard_paired
    {α β : Type}
    (related : α → β → Prop)
    {left : Option (Text → α)}
    {right : Option (Text → β)}
    (hPaired :
      (left = none ∧ right = none) ∨
        ∃ a b, left = some a ∧ right = some b ∧
          ∀ name, related (a name) (b name))
    (stack : List Text)
    (name : Text) :
    (includeGuard stack left name = none ∧
        includeGuard stack right name = none) ∨
      ∃ a b, includeGuard stack left name = some a ∧
        includeGuard stack right name = some b ∧
        related a b := by
  unfold includeGuard
  by_cases hStack : name ∈ stack
  · exact .inl ⟨if_pos hStack, if_pos hStack⟩
  · rw [if_neg hStack, if_neg hStack]
    rcases hPaired with ⟨rfl, rfl⟩ | ⟨a, b, rfl, rfl, hRelated⟩
    · exact .inl ⟨rfl, rfl⟩
    · exact .inr ⟨a name, b name, rfl, rfl, hRelated name⟩

/- Included files, and the trees that they are. -/
def IncludesLoad
    (sshTunnelList : List SshTunnel)
    (parse : Option (Text → RuleLoad → LoadResult))
    (trees : Option (Text → IncludeTree RuleLine)) : Prop :=
  (parse = none ∧ trees = none) ∨
    ∃ p t, parse = some p ∧ trees = some t ∧
      ∀ name load,
        TreeLoads sshTunnelList (t name) load (p name load)

section Steps

variable {sshTunnelList : List SshTunnel}
variable {load load' : RuleLoad}
variable {result : LoadResult}

theorem TreeLoads.item
    {line : RuleLine}
    {route : RouteRule}
    {rest : IncludeTree RuleLine}
    (hRule : IsRuleOf sshTunnelList line route)
    (hRoutes : load'.routes = load.routes ++ [route])
    (hRest : TreeLoads sshTunnelList rest load' result) :
    TreeLoads sshTunnelList (.item line rest) load result := by
  have hOne :
      Extends sshTunnelList [line] load.routes
        load'.routes :=
    ⟨[route], hRoutes, .cons hRule .nil⟩
  cases hRest with
  | accepted hTree hMore =>
      exact .accepted hTree (hOne.trans hMore)
  | refused hTree hMore =>
      exact .refused hTree (hOne.trans hMore)
  | crash hTree => exact .crash hTree

/- A file that is read to its end is its lines. -/
theorem TreeLoads.nested
    {inner rest : IncludeTree RuleLine}
    (hInner :
      TreeLoads sshTunnelList inner load
        (.returned true load'))
    (hRest : TreeLoads sshTunnelList rest load' result) :
    TreeLoads sshTunnelList (.nested inner rest) load
      result := by
  cases hInner with
  | accepted hInner hRoutes =>
      have hNot := inner.refused_of_accepted hInner
      have hLoaded :
          (IncludeTree.nested inner rest).loaded =
            inner.loaded ++ rest.loaded := by
        simp [IncludeTree.loaded, hInner]
      cases hRest with
      | accepted hTree hMore =>
          apply TreeLoads.accepted
          · simp [IncludeTree.accepted, hInner, hTree]
          · rw [hLoaded]
            exact hRoutes.trans hMore
      | refused hTree hMore =>
          apply TreeLoads.refused
          · simp [IncludeTree.refused, hInner, hTree]
          · rw [hLoaded]
            exact hRoutes.trans hMore
      | crash hTree =>
          apply TreeLoads.crash
          simp [IncludeTree.accepted, IncludeTree.refused,
            hInner, hNot, hTree]

/- A file that is refused ends the file around it well. -/
theorem TreeLoads.nested_refused
    {inner rest : IncludeTree RuleLine}
    (hInner :
      TreeLoads sshTunnelList inner load
        (.returned false load')) :
    TreeLoads sshTunnelList (.nested inner rest) load
      (.returned true load') := by
  cases hInner with
  | refused hInner hRoutes =>
      have hNot := inner.accepted_of_refused hInner
      apply TreeLoads.accepted
      · simp [IncludeTree.accepted, hInner]
      · simpa [IncludeTree.loaded, hNot] using hRoutes

theorem TreeLoads.nested_crash
    {inner rest : IncludeTree RuleLine}
    (hInner : TreeLoads sshTunnelList inner load .crash) :
    TreeLoads sshTunnelList (.nested inner rest) load
      .crash := by
  cases hInner with
  | crash hInner =>
      apply TreeLoads.crash
      simp [IncludeTree.accepted, IncludeTree.refused, hInner]

end Steps

------------------------------------------------------------
-- The Loader
------------------------------------------------------------

section Loader

variable {world : FileWorld}
variable {sshTunnelList : List SshTunnel}
variable {filename : Text}
variable {stack : List Text}
variable {parse : Option (Text → RuleLoad → LoadResult)}
variable {trees : Option (Text → IncludeTree RuleLine)}

theorem includeGuard_load
    (stack : List Text)
    (hIncludes : IncludesLoad sshTunnelList parse trees)
    (name : Text) :
    (includeGuard stack parse name = none ∧
        includeGuard stack trees name = none) ∨
      ∃ p t, includeGuard stack parse name = some p ∧
        includeGuard stack trees name = some t ∧
        ∀ load, TreeLoads sshTunnelList t load (p load) :=
  includeGuard_paired
    (fun (p : RuleLoad → LoadResult) t =>
      ∀ load, TreeLoads sshTunnelList t load (p load))
    hIncludes stack name

/- With zeros in fresh memory the same lines are rules. -/
theorem parse_zeroJunk
    (sshTunnelList : List SshTunnel)
    (line : RuleLine)
    (junk : Vector (Option SshTunnel)
      routeRuleMaxSshTunnelsPerRule) :
    (∃ failure,
        line.parse sshTunnelList junk = .error failure ∧
          line.parse sshTunnelList zeroJunk =
            .error failure) ∨
      ∃ route route',
        line.parse sshTunnelList junk = .ok route ∧
          line.parse sshTunnelList zeroJunk = .ok route' := by
  have hSame :
      (line.parse sshTunnelList junk).map (fun _ => ()) =
        (line.parse sshTunnelList zeroJunk).map fun _ => () :=
    parseRouteRuleSpec_junk junk zeroJunk line.text
      (some line.fileName) line.lineNum rfl
  cases hSpec : line.parse sshTunnelList junk with
  | error failure =>
      cases hZero : line.parse sshTunnelList zeroJunk with
      | error failure' =>
          rw [hSpec, hZero] at hSame
          cases hSame
          exact .inl ⟨failure, rfl, rfl⟩
      | ok route =>
          rw [hSpec, hZero] at hSame
          cases hSame
  | ok route =>
      cases hZero : line.parse sshTunnelList zeroJunk with
      | error failure =>
          rw [hSpec, hZero] at hSame
          cases hSame
      | ok route' => exact .inr ⟨route, route', rfl, rfl⟩

/- One line that is not blank, and the lines behind it. -/
theorem routeFileLine_treeLoads
    (hIncludes : IncludesLoad sshTunnelList parse trees)
    {buf line : Text}
    (hLine : configLine world.environ buf = .ok line)
    (hSome : line ≠ [])
    (lineNum : Nat)
    (load : RuleLoad)
    {rest : IncludeTree RuleLine}
    {more : RuleLoad → LoadResult}
    (hRest :
      ∀ load', TreeLoads sshTunnelList rest load'
        (more load')) :
    TreeLoads sshTunnelList
      (lineTree sshTunnelList stack trees
        ⟨line, filename, lineNum⟩ rest)
      load
      ((routeFileLine world sshTunnelList filename stack parse
        lineNum buf load).andThen more) := by
  unfold lineTree routeFileLine
  simp only [hLine, if_neg hSome]
  cases configSetString stringBufLen line
      (field "routeFile ") with
  | overrun => exact .crash ⟨rfl, rfl⟩
  | value name =>
      rcases includeGuard_load stack hIncludes
          name.text with ⟨hParse, hTree⟩ |
          ⟨p, t, hParse, hTree, hLoads⟩
      · simp only [hParse, hTree]
        exact hRest load
      · simp only [hParse, hTree]
        have hHere := hLoads load
        cases hResult : p load with
        | crash =>
            rw [hResult] at hHere
            exact hHere.nested_crash
        | returned okay load' =>
            rw [hResult] at hHere
            cases okay with
            | true => exact hHere.nested (hRest load')
            | false => exact hHere.nested_refused
  | unset =>
      rcases parse_zeroJunk sshTunnelList
          ⟨line, filename, lineNum⟩ (world.junk load.mallocs)
        with ⟨failure, hSpec, hZero⟩ |
          ⟨route, route', hSpec, hZero⟩
      · simp only [hZero]
        unfold RuleLine.parse at hSpec
        simp only [hSpec]
        cases failure with
        | null =>
            exact .refused rfl (Extends.refl sshTunnelList _)
        | crash => exact .crash ⟨rfl, rfl⟩
      · have hRule : IsRuleOf sshTunnelList
            ⟨line, filename, lineNum⟩ route :=
          ⟨world.junk load.mallocs, hSpec⟩
        simp only [hZero]
        unfold RuleLine.parse at hSpec
        simp only [hSpec]
        exact TreeLoads.item hRule
          (insertRouteRule_eq load.routes route) (hRest _)

theorem routeFileRun_treeLoads
    (hIncludes : IncludesLoad sshTunnelList parse trees)
    (reads : LineReads)
    (lineNum : Nat)
    (load : RuleLoad) :
    TreeLoads sshTunnelList
      (treeOfLines world sshTunnelList filename stack trees
        reads lineNum)
      load
      (reads.run
        (routeFileLine world sshTunnelList filename stack parse)
        (.returned true) (.returned false) lineNum load) := by
  induction reads generalizing lineNum load with
  | failed =>
      exact .refused rfl (Extends.refl sshTunnelList _)
  | eof buf =>
      exact .accepted rfl (Extends.refl sshTunnelList _)
  | line buf more ih =>
      rw [treeOfLines, LineReads.run]
      cases hLine : configLine world.environ buf with
      | error failure =>
          rw [routeFileLine_of_error _ _ _ _ _ _ _ hLine]
          cases failure with
          | invalid =>
              exact .refused rfl (Extends.refl sshTunnelList _)
          | overrun => exact .crash ⟨rfl, rfl⟩
      | ok line =>
          cases line with
          | nil =>
              rw [routeFileLine_of_blank _ _ _ _ _ _ _ hLine]
              exact ih (lineNum + 1) load
          | cons c cs =>
              exact routeFileLine_treeLoads hIncludes hLine
                (List.cons_ne_nil c cs) lineNum load
                (ih (lineNum + 1))

theorem routeFileBody_treeLoads
    (hIncludes : IncludesLoad sshTunnelList parse trees)
    (load : RuleLoad) :
    TreeLoads sshTunnelList
      (treeOfFile world sshTunnelList filename stack trees)
      load
      (routeFileBody world sshTunnelList filename stack parse
        load) := by
  unfold treeOfFile routeFileBody
  cases world.files filename with
  | none => exact .refused rfl (Extends.refl sshTunnelList _)
  | some file =>
      exact routeFileRun_treeLoads hIncludes _ 1 load

end Loader

/- The loader reads the tree of its file. -/
theorem routeRuleFileParse_treeLoads
    (world : FileWorld)
    (sshTunnelList : List SshTunnel)
    (room : Nat)
    (stack : List Text)
    (filename : Text)
    (load : RuleLoad) :
    TreeLoads sshTunnelList
      (routeTree world sshTunnelList room stack filename) load
      (routeRuleFileParse world sshTunnelList room stack
        filename load) := by
  induction room generalizing stack filename load with
  | zero =>
      exact routeFileBody_treeLoads (.inl ⟨rfl, rfl⟩) load
  | succ room ih =>
      apply routeFileBody_treeLoads
      refine .inr ⟨_, _, rfl, rfl, ?_⟩
      exact ih (stack ++ [filename])

------------------------------------------------------------
-- Whole Files
------------------------------------------------------------

/-
  Files are loaded whole and in order, or the load fails: a
  load that returns 1 has added exactly the rules of all
  lines, and a bad line makes it return 0.
-/
def LoadedWhole
    (sshTunnelList : List SshTunnel)
    (t : IncludeTree RuleLine)
    (load : RuleLoad)
    (result : LoadResult) : Prop :=
  (∀ load', result = .returned true load' →
    ∃ lines, t.complete = some lines ∧
      Extends sshTunnelList lines load.routes
        load'.routes) ∧
  (t.complete = none → ∃ load', result = .returned false load')

/-
  Files are loaded whole or not at all exactly when all lines
  are good, or the load ends at a line of the file itself.
-/
theorem routeRuleFileParse_whole_iff
    (world : FileWorld)
    (sshTunnelList : List SshTunnel)
    (room : Nat)
    (stack : List Text)
    (filename : Text)
    (load : RuleLoad) :
    LoadedWhole sshTunnelList
        (routeTree world sshTunnelList room stack filename)
        load
        (routeRuleFileParse world sshTunnelList room stack
          filename load) ↔
      (routeTree world sshTunnelList room stack
          filename).complete ≠ none ∨
        (routeTree world sshTunnelList room stack
          filename).refused = true := by
  have hLoads := routeRuleFileParse_treeLoads world
    sshTunnelList room stack filename load
  generalize routeRuleFileParse world sshTunnelList room stack
    filename load = result at hLoads ⊢
  generalize routeTree world sshTunnelList room stack
    filename = t at hLoads ⊢
  constructor
  · rintro ⟨hWhole, hBad⟩
    by_contra hNot
    rw [not_or, not_not] at hNot
    rcases hBad hNot.1 with ⟨load', rfl⟩
    cases hLoads with
    | refused hTree _ => exact hNot.2 hTree
  · rintro (hComplete | hRefused)
    · rcases Option.ne_none_iff_exists'.mp hComplete with
        ⟨lines, hLines⟩
      refine ⟨?_, fun hNone => absurd hNone hComplete⟩
      rintro load' rfl
      have hTree := t.accepted_of_complete hLines
      cases hLoads with
      | accepted _ hRoutes =>
          rw [hTree.2] at hRoutes
          exact ⟨lines, hLines, hRoutes⟩
    · have hNot := t.accepted_of_refused hRefused
      cases hLoads with
      | accepted hTree _ =>
          rw [hNot] at hTree
          cases hTree
      | refused hTree _ =>
          refine ⟨?_, fun _ => ⟨_, rfl⟩⟩
          intro load' hEq
          cases hEq
      | crash hTree =>
          rw [hRefused] at hTree
          cases hTree.2

/-
  A file whose first line includes a file that cannot be
  opened, with a rule behind it.
-/
def missingInclude : FileWorld where
  environ := fun _ => none
  files := fun name =>
    if name = field "rules" then
      some
        ⟨field "routeFile gone" ++ [10] ++
          field "network 10.0.0.0/8 via null" ++ [10], false⟩
    else none
  junk := fun _ => zeroJunk

theorem loadRouteFile_missingInclude :
    ¬LoadedWhole [sshTunnelNull]
      (routeTree missingInclude [sshTunnelNull]
        (routeRuleFilenameStackSize - 1) [] (field "rules"))
      ⟨[], 0⟩
      (loadRouteFile missingInclude [sshTunnelNull]
        (field "rules") ⟨[], 0⟩) := by
  have hLoad :
      loadRouteFile missingInclude [sshTunnelNull]
          (field "rules") ⟨[], 0⟩ =
        .returned true ⟨[], 0⟩ := by
    decide +kernel
  have hTree :
      (routeTree missingInclude [sshTunnelNull]
        (routeRuleFilenameStackSize - 1) []
        (field "rules")).complete = none := by
    decide +kernel
  rintro ⟨_, hBad⟩
  rcases hBad hTree with ⟨load', hFalse⟩
  rw [hLoad] at hFalse
  cases hFalse

end SmartSOCKSProxy
