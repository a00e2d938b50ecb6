import SmartSOCKSProxy.Routing.Grammar

/-
  The tunnel array of a rule.

  The names after `via` are added one by one, each time with
  a NULL behind them.  Three loops of the program rely on
  that NULL.

  Key definitions include:
    * `writeAll`, `tunnelWrites`
    * `namesAfterVia`, `tunnelNamed`, `HoldsTunnels`
    * `RouteRule.decisionReads`, `ScansInside`

  Key theorems include:
    * `addTunnel_terminated`, `parseVia_terminated`
    * `scansInside_of_terminated`
    * `parseTokens_tunnels`, `parseTokens_writes`
-/

namespace SmartSOCKSProxy

------------------------------------------------------------
-- Adding a Tunnel
------------------------------------------------------------

/- The entries of the array that are written, in order. -/
def addTunnelWrites
    (route : RouteRule)
    (ssh : SshTunnel) : List (Nat × Option SshTunnel) :=
  let i := freeTunnelIndex route
  if i < routeRuleMaxSshTunnelsPerRule - 1 then
    [(i, some ssh), (i + 1, none)]
  else []

/- An array after some of its entries were written. -/
def writeAll
    (entries : List (Option SshTunnel))
    (writes : List (Nat × Option SshTunnel)) :
    List (Option SshTunnel) :=
  writes.foldl (fun entries w => entries.set w.1 w.2) entries

theorem addTunnel_writes
    (route : RouteRule)
    (ssh : SshTunnel) :
    (addTunnel route ssh).tunnel.toList =
        writeAll route.tunnel.toList
          (addTunnelWrites route ssh) ∧
      ∀ w ∈ addTunnelWrites route ssh,
        w.1 < routeRuleMaxSshTunnelsPerRule := by
  unfold addTunnel addTunnelWrites
  dsimp only
  split
  · rename_i hFree
    refine ⟨by simp [writeAll], ?_⟩
    intro w hMem
    rcases List.mem_pair.mp hMem with rfl | rfl <;>
      dsimp only <;> omega
  · exact ⟨rfl, nofun⟩

/- The search finds the NULL that ends the array. -/
theorem freeTunnelIndex_of_terminated
    {route : RouteRule}
    (hTerminated : Terminated route.tunnel.toList) :
    freeTunnelIndex route = route.tunnels.length := by
  have hLength := hTerminated.length_lt
  rcases hTerminated.split with ⟨rest, hSplit⟩
  unfold freeTunnelIndex RouteRule.tunnels
  rw [Vector.length_toList] at hLength
  generalize untilNull route.tunnel.toList = before
    at hSplit hLength
  have hNull :
      ∀ n, ((none :: rest).take n).takeWhile
        (Option.isSome (α := SshTunnel)) = [] := by
    intro n
    cases n <;> simp
  have hFront :
      (before.map some).length ≤
        routeRuleMaxSshTunnelsPerRule - 1 := by
    rw [List.length_map]
    exact Nat.le_sub_one_of_lt hLength
  rw [hSplit, List.take_append,
    List.take_of_length_le hFront,
    List.takeWhile_append_of_pos (by simp), hNull]
  simp

/- A tunnel is added at the end, as long as there is room. -/
theorem addTunnel_terminated
    {route : RouteRule}
    (hTerminated : Terminated route.tunnel.toList)
    (ssh : SshTunnel) :
    Terminated (addTunnel route ssh).tunnel.toList ∧
      (addTunnel route ssh).tunnels =
        (route.tunnels ++ [ssh]).take
          (routeRuleMaxSshTunnelsPerRule - 1) := by
  have hMax : routeRuleMaxSshTunnelsPerRule = 100 := rfl
  have hFree := freeTunnelIndex_of_terminated hTerminated
  have hLength :
      route.tunnels.length <
        routeRuleMaxSshTunnelsPerRule := by
    have hInside := hTerminated.length_lt
    rwa [Vector.length_toList] at hInside
  unfold addTunnel
  dsimp only
  rw [hFree]
  by_cases hRoom :
      route.tunnels.length < routeRuleMaxSshTunnelsPerRule - 1
  · rw [if_pos hRoom]
    have hPush := hTerminated.push ssh (by
      rw [Vector.length_toList]
      exact Nat.add_lt_of_lt_sub hRoom)
    rcases hPush with ⟨rest, hPush⟩
    have hArray :
        ((route.tunnel.setIfInBounds route.tunnels.length
          (some ssh)).setIfInBounds
            (route.tunnels.length + 1) none).toList =
          (route.tunnels ++ [ssh]).map some ++
            none :: rest := by
      rw [Vector.toList_setIfInBounds,
        Vector.toList_setIfInBounds]
      exact hPush
    unfold RouteRule.tunnels at hArray ⊢
    rw [hArray, untilNull_append, List.take_of_length_le]
    · exact ⟨terminated_append _ _, rfl⟩
    · rw [List.length_append]
      exact hRoom
  · rw [if_neg hRoom]
    refine ⟨hTerminated, ?_⟩
    rw [List.take_append_of_le_length (by omega),
      List.take_of_length_le (by omega)]

------------------------------------------------------------
-- The Names After `via`
------------------------------------------------------------

section Names

variable (sshTunnelList : List SshTunnel)

/- The first tunnel of that name. -/
def tunnelNamed
    (name : Text) : Option SshTunnel :=
  sshTunnelList.find? fun ssh => ssh.name.text = name

/- All writes that a list of names leads to. -/
def viaWrites :
    List Text → RouteRule → List (Nat × Option SshTunnel)
  | [], _ => []
  | name :: names, route =>
      if name = [] then viaWrites names route
      else
        match tunnelNamed sshTunnelList name with
        | none => []
        | some ssh =>
            addTunnelWrites route ssh ++
              viaWrites names (addTunnel route ssh)

/- The names of a list of pieces. -/
def properNames
    (pieces : List Text) : List Text :=
  pieces.filter (· ≠ [])

/- The array after the names was written inside its bounds. -/
theorem parseVia_writes
    {names : List Text}
    {route route' : RouteRule}
    (hParse :
      parseVia sshTunnelList names route = .ok route') :
    route'.tunnel.toList =
        writeAll route.tunnel.toList
          (viaWrites sshTunnelList names route) ∧
      ∀ w ∈ viaWrites sshTunnelList names route,
        w.1 < routeRuleMaxSshTunnelsPerRule := by
  induction names generalizing route with
  | nil =>
      cases hParse
      exact ⟨rfl, nofun⟩
  | cons name names ih =>
      unfold parseVia at hParse
      unfold viaWrites
      by_cases hEmpty : name = []
      · rw [if_pos hEmpty] at hParse ⊢
        exact ih hParse
      rw [if_neg hEmpty] at hParse ⊢
      unfold tunnelNamed
      cases hFind : sshTunnelList.find?
          (fun ssh => ssh.name.text = name) with
      | none =>
          rw [hFind] at hParse
          cases hParse
      | some ssh =>
          rw [hFind] at hParse
          rcases addTunnel_writes route ssh with
            ⟨hHere, hHereInside⟩
          rcases ih hParse with ⟨hRest, hRestInside⟩
          dsimp only
          constructor
          · rw [hRest, hHere]
            exact (List.foldl_append).symm
          · intro w hMem
            rcases List.mem_append.mp hMem with hMem | hMem
            · exact hHereInside w hMem
            · exact hRestInside w hMem

/- A list that was cut and is cut again after it has grown. -/
theorem take_take_append
    {α : Type}
    (n : Nat)
    (front back : List α) :
    (front.take n ++ back).take n =
      (front ++ back).take n := by
  rw [List.take_append, List.take_append, List.take_take,
    Nat.min_self, List.length_take]
  congr 2
  omega

/- The tunnels are those of the names, as many as fit. -/
theorem parseVia_terminated
    {names : List Text}
    {route route' : RouteRule}
    (hTerminated : Terminated route.tunnel.toList)
    (hParse :
      parseVia sshTunnelList names route = .ok route') :
    Terminated route'.tunnel.toList ∧
      route'.tunnels =
        (route.tunnels ++
          (properNames names).filterMap
            (tunnelNamed sshTunnelList)).take
              (routeRuleMaxSshTunnelsPerRule - 1) := by
  induction names generalizing route with
  | nil =>
      cases hParse
      have hInside := hTerminated.length_lt
      rw [Vector.length_toList] at hInside
      refine ⟨hTerminated, ?_⟩
      rw [properNames, List.filter_nil, List.filterMap_nil,
        List.append_nil, List.take_of_length_le]
      exact Nat.le_sub_one_of_lt hInside
  | cons name names ih =>
      unfold parseVia at hParse
      unfold properNames at ih ⊢
      by_cases hEmpty : name = []
      · rw [if_pos hEmpty] at hParse
        rw [List.filter_cons_of_neg (by simpa using hEmpty)]
        exact ih hTerminated hParse
      rw [if_neg hEmpty] at hParse
      rw [List.filter_cons_of_pos (by simpa using hEmpty)]
      cases hFind : sshTunnelList.find?
          (fun ssh => ssh.name.text = name) with
      | none =>
          rw [hFind] at hParse
          cases hParse
      | some ssh =>
          rw [hFind] at hParse
          rcases addTunnel_terminated hTerminated ssh with
            ⟨hHere, hTunnels⟩
          rcases ih hHere hParse with ⟨hRest, hAll⟩
          have hNamed :
              tunnelNamed sshTunnelList name = some ssh := hFind
          refine ⟨hRest, ?_⟩
          rw [hAll, hTunnels,
            List.filterMap_cons_some hNamed,
            take_take_append, List.append_assoc,
            List.singleton_append]

/- Every known name has its tunnel. -/
theorem map_some_filterMap_tunnelNamed
    {names : List Text}
    (hKnown : NamesKnown sshTunnelList names) :
    ((properNames names).filterMap
        (tunnelNamed sshTunnelList)).map some =
      (properNames names).map (tunnelNamed sshTunnelList) := by
  rw [List.map_filterMap_some_eq_filter_map_isSome,
    List.filter_eq_self]
  intro entry hEntry
  rcases List.mem_map.mp hEntry with ⟨name, hMem, rfl⟩
  rcases List.mem_filter.mp hMem with ⟨hHere, hProper⟩
  rcases hKnown name hHere (of_decide_eq_true hProper) with
    ⟨ssh, hListed, hName⟩
  unfold tunnelNamed
  rw [List.find?_isSome]
  exact ⟨ssh, hListed, decide_eq_true hName⟩

end Names

------------------------------------------------------------
-- The Array of a Parsed Rule
------------------------------------------------------------

/- A clause does not touch the tunnel array. -/
theorem RuleClause.tunnel_store
    {c : RuleClause}
    {route route' : RouteRule}
    (hStore : c.store route = some route') :
    route'.tunnel = route.tunnel := by
  cases c with
  | resolveDns =>
      cases hStore
      rfl
  | arg k param =>
      cases k with
      | is | startsWith | endsWith | contains =>
          cases hStore
          rfl
      | _ =>
          rcases Option.map_eq_some_iff.mp hStore with
            ⟨v, _, rfl⟩
          rfl

/- The names of a text: what follows its first `via`. -/
def namesAfterVia : List Text → List Text
  | [] => []
  | cmd :: tokens =>
      if cmd = kwResolveDns then namesAfterVia tokens
      else if cmd = kwVia then properNames (viaNames tokens)
      else
        match tokens with
        | [] => []
        | _ :: rest => namesAfterVia rest

/- The clauses leave the names to be read, and the array. -/
theorem parseClauses_names
    (tokens : List Text)
    {route route' : RouteRule}
    {rest : List Text}
    (hParse :
      parseClauses tokens route = .ok (route', rest)) :
    properNames (viaNames rest) = namesAfterVia tokens ∧
      route'.tunnel = route.tunnel := by
  induction tokens using List.twoStepInduction
    generalizing route with
  | nil =>
      unfold parseClauses at hParse
      cases hParse
      exact ⟨rfl, rfl⟩
  | singleton cmd =>
      unfold parseClauses at hParse
      unfold namesAfterVia
      by_cases hDns : cmd = kwResolveDns
      · rw [if_pos hDns] at hParse ⊢
        unfold parseClauses at hParse
        cases hParse
        exact ⟨rfl, rfl⟩
      rw [if_neg hDns] at hParse ⊢
      by_cases hVia : cmd = kwVia
      · rw [if_pos hVia] at hParse ⊢
        cases hParse
        exact ⟨rfl, rfl⟩
      rw [if_neg hVia] at hParse
      dsimp only at hParse
      split at hParse <;> cases hParse
  | cons_cons cmd param tokens ih ihTail =>
      unfold parseClauses at hParse
      unfold namesAfterVia
      by_cases hDns : cmd = kwResolveDns
      · rw [if_pos hDns] at hParse ⊢
        have hTail := ihTail param hParse
        exact hTail
      rw [if_neg hDns] at hParse ⊢
      by_cases hVia : cmd = kwVia
      · rw [if_pos hVia] at hParse ⊢
        cases hParse
        exact ⟨rfl, rfl⟩
      rw [if_neg hVia] at hParse ⊢
      dsimp only at hParse ⊢
      by_cases hKeyword : ∃ k : Keyword, cmd = k.text
      · rcases hKeyword with ⟨k, rfl⟩
        rw [grabClause_text] at hParse
        cases hStore : k.store param route with
        | none =>
            rw [hStore] at hParse
            cases hParse
        | some next =>
            rw [hStore] at hParse
            have hKept : next.tunnel = route.tunnel :=
              RuleClause.tunnel_store
                (c := .arg k param) hStore
            rcases ih hParse with ⟨hNames, hTunnel⟩
            exact ⟨hNames, hTunnel.trans hKept⟩
      · rw [not_exists] at hKeyword
        rw [grabClause_of_ne hKeyword] at hParse
        cases hParse

theorem freshRule_terminated
    (junk : Vector (Option SshTunnel)
      routeRuleMaxSshTunnelsPerRule)
    (filename : Option Text)
    (lineNum : Int) :
    Terminated
        (freshRule junk filename lineNum).tunnel.toList ∧
      (freshRule junk filename lineNum).tunnels = [] := by
  have hFirst :
      (freshRule junk filename lineNum).tunnel.toList =
        [].map some ++ none :: junk.toList.tail := by
    have hJunk : junk.toList ≠ [] := by
      rw [← List.length_pos_iff, Vector.length_toList]
      exact firstTunnel
    change (junk.set 0 none firstTunnel).toList = _
    rw [Vector.toList_set]
    cases hList : junk.toList with
    | nil => exact absurd hList hJunk
    | cons entry entries => rfl
  unfold RouteRule.tunnels
  rw [hFirst, untilNull_append]
  exact ⟨terminated_append _ _, rfl⟩

/- All writes to the array of a rule, from malloc() on. -/
def tunnelWrites
    (sshTunnelList : List SshTunnel)
    (tokens : List Text)
    (route : RouteRule) : List (Nat × Option SshTunnel) :=
  (0, none) ::
    match parseClauses tokens route with
    | .error _ => []
    | .ok (parsed, rest) =>
        viaWrites sshTunnelList (viaNames rest) parsed

/-
  The array holds the tunnels of the names, as many as fit,
  and a NULL behind them.
-/
structure HoldsTunnels
    (sshTunnelList : List SshTunnel)
    (names : List Text)
    (route : RouteRule) : Prop where
  known :
    ∀ name ∈ names,
      ∃ ssh ∈ sshTunnelList, ssh.name.text = name
  front :
    route.tunnel.toList.take (min names.length 99) =
      (names.take 99).map (tunnelNamed sshTunnelList)
  ended :
    route.tunnel.toList[min names.length 99]? = some none

/- A rule that is returned holds the tunnels of its names. -/
theorem parseTokens_tunnels
    {sshTunnelList : List SshTunnel}
    {tokens : List Text}
    {route route' : RouteRule}
    (hTerminated : Terminated route.tunnel.toList)
    (hNone : route.tunnels = [])
    (hParse :
      parseTokens sshTunnelList tokens route =
        .ok route') :
    Terminated route'.tunnel.toList ∧
      HoldsTunnels sshTunnelList (namesAfterVia tokens)
        route' := by
  unfold parseTokens at hParse
  cases hClauses : parseClauses tokens route with
  | error failure =>
      rw [hClauses] at hParse
      cases hParse
  | ok parsed =>
      rcases parsed with ⟨parsed, rest⟩
      rw [hClauses] at hParse
      change parseVia sshTunnelList (viaNames rest) parsed =
        .ok route' at hParse
      rcases parseClauses_names tokens hClauses with
        ⟨hNames, hKept⟩
      have hKnown : NamesKnown sshTunnelList (viaNames rest) :=
        (parseVia_isOk_iff sshTunnelList _ parsed).1.mp
          ⟨route', hParse⟩
      have hParsed : Terminated parsed.tunnel.toList := by
        rw [hKept]
        exact hTerminated
      have hEmpty : parsed.tunnels = [] := by
        unfold RouteRule.tunnels
        rw [hKept]
        exact hNone
      rcases parseVia_terminated sshTunnelList hParsed
          hParse with ⟨hEnd, hTunnels⟩
      rw [hEmpty, List.nil_append] at hTunnels
      have hFront :
          route'.tunnels.map some =
            ((properNames (viaNames rest)).take 99).map
              (tunnelNamed sshTunnelList) := by
        rw [hTunnels, List.map_take,
          map_some_filterMap_tunnelNamed sshTunnelList hKnown]
        exact List.map_take.symm
      have hLength :
          route'.tunnels.length =
            min (properNames (viaNames rest)).length 99 := by
        rw [← List.length_map (f := some), hFront,
          List.length_map, List.length_take, Nat.min_comm]
      rw [← hNames]
      refine ⟨hEnd, ?_, ?_, ?_⟩
      · intro name hMem
        rcases List.mem_filter.mp hMem with ⟨hHere, hProper⟩
        exact hKnown name hHere (of_decide_eq_true hProper)
      · rw [← hLength, ← hFront]
        exact take_length_untilNull _
      · rw [← hLength]
        exact hEnd.getElem

/- The array is what the writes left, each inside of it. -/
theorem parseTokens_writes
    {junk : Vector (Option SshTunnel)
      routeRuleMaxSshTunnelsPerRule}
    {filename : Option Text}
    {lineNum : Int}
    {sshTunnelList : List SshTunnel}
    {tokens : List Text}
    {route' : RouteRule}
    (hParse :
      parseTokens sshTunnelList tokens
        (freshRule junk filename lineNum) = .ok route') :
    route'.tunnel.toList =
        writeAll junk.toList
          (tunnelWrites sshTunnelList tokens
            (freshRule junk filename lineNum)) ∧
      ∀ w ∈ tunnelWrites sshTunnelList tokens
          (freshRule junk filename lineNum),
        w.1 < routeRuleMaxSshTunnelsPerRule := by
  unfold parseTokens at hParse
  unfold tunnelWrites
  cases hClauses : parseClauses tokens
      (freshRule junk filename lineNum) with
  | error failure =>
      rw [hClauses] at hParse
      cases hParse
  | ok parsed =>
      rcases parsed with ⟨parsed, rest⟩
      rw [hClauses] at hParse
      rcases parseVia_writes sshTunnelList hParse with
        ⟨hWrites, hInside⟩
      have hFirst :
          parsed.tunnel.toList = junk.toList.set 0 none := by
        rw [(parseClauses_names tokens hClauses).2]
        exact Vector.toList_set firstTunnel
      rw [hFirst] at hWrites
      refine ⟨hWrites, List.forall_mem_cons.mpr ?_⟩
      exact ⟨firstTunnel, hInside⟩

------------------------------------------------------------
-- Reading the Array
------------------------------------------------------------

/- The entries that the engine's debug message looks at. -/
def RouteRule.decisionReads
    (route : RouteRule) : List Nat :=
  match route.tunnel.toList with
  | some _ :: some _ :: _ => [0, 1, 2]
  | some _ :: _ => [0, 1]
  | _ => [0]

/-
  The loops of the program find the NULL inside the array:
  that of socks_connect(), which also tests its index, that
  of check_ssh_tunnels(), which does not, and the reads of
  decide_applicable_rule().
-/
structure ScansInside
    (route : RouteRule) : Prop where
  inside :
    route.tunnels.length < routeRuleMaxSshTunnelsPerRule
  connect :
    scanUntil (fun i => i < routeRuleMaxSshTunnelsPerRule) 0
        route.tunnel.toList =
      some route.tunnels.length
  check :
    scanUntil (fun _ => true) 0 route.tunnel.toList =
      some route.tunnels.length
  decide :
    ∀ i ∈ route.decisionReads, i ≤ route.tunnels.length

/- The engine reads on only behind a tunnel. -/
theorem RouteRule.decisionReads_le
    (route : RouteRule) :
    ∀ i ∈ route.decisionReads, i ≤ route.tunnels.length := by
  unfold decisionReads tunnels
  rcases route.tunnel.toList with _ | ⟨_ | a, _ | ⟨_ | b, _⟩⟩
    <;> simp [untilNull]

theorem scansInside_of_terminated
    {route : RouteRule}
    (hTerminated : Terminated route.tunnel.toList) :
    ScansInside route := by
  have hInside :
      route.tunnels.length <
        routeRuleMaxSshTunnelsPerRule := by
    have hLength := hTerminated.length_lt
    rwa [Vector.length_toList] at hLength
  refine ⟨hInside, ?_, ?_, route.decisionReads_le⟩
  · rw [scanUntil_of_terminated hTerminated 0, Nat.zero_add]
    · rfl
    · intro j hj
      rw [Nat.zero_add]
      exact decide_eq_true (hj.trans hInside)
  · rw [scanUntil_of_terminated hTerminated 0
      (fun _ _ => rfl), Nat.zero_add]
    rfl

end SmartSOCKSProxy
