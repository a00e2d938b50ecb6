import SmartSOCKSProxy.Routing.TunnelArray

/-
  The order of the clauses of a rule.

  Handlers of different keywords fill different fields, so
  that their order does not matter.  What malloc() left in a
  rule does not matter either.

  Key definitions include:
    * `ruleSpec`, `SameRule`, `SameResult`

  Key theorems include:
    * `RuleClause.store_comm`, `storeAll_perm`
    * `parseRouteRuleSpec_perm`
-/

namespace SmartSOCKSProxy

------------------------------------------------------------
-- Clauses Commute
------------------------------------------------------------

/- Different keywords fill different fields. -/
theorem Keyword.store_comm
    {k k' : Keyword}
    (hNe : k ≠ k')
    (param param' : Text)
    (route : RouteRule) :
    (k.store param route).bind (k'.store param') =
      (k'.store param' route).bind (k.store param) := by
  unfold store
  generalize Text.scanInt param = port
  generalize Text.scanInt param' = port'
  generalize netv4Argument param = net
  generalize netv4Argument param' = net'
  cases k <;> cases k' <;>
    first
    | exact absurd rfl hNe
    | rfl
    | (cases port <;> rfl)
    | (cases port' <;> rfl)
    | (cases net <;> rfl)
    | (cases net' <;> rfl)
    | (cases port <;> cases net' <;> rfl)
    | (cases net <;> cases port' <;> rfl)
    | (cases net <;> cases net' <;> rfl)

/- They leave alone what other functions fill. -/
theorem Keyword.store_resolveDns
    (k : Keyword)
    (param : Text)
    (route : RouteRule) :
    k.store param { route with resolveDns := true } =
      (k.store param route).map fun next =>
        { next with resolveDns := true } := by
  unfold store
  generalize Text.scanInt param = port
  generalize netv4Argument param = net
  cases k with
  | port => cases port <;> rfl
  | network | map => cases net <;> rfl
  | is | startsWith | endsWith | contains => rfl
  | _ => cases net <;> rfl

theorem RuleClause.store_comm
    {c c' : RuleClause}
    (hNe : c.keyword ≠ c'.keyword)
    (route : RouteRule) :
    (c.store route).bind c'.store =
      (c'.store route).bind c.store := by
  cases c with
  | resolveDns =>
      cases c' with
      | resolveDns => exact absurd rfl hNe
      | arg k param =>
          rw [RuleClause.store, Option.bind_some,
            RuleClause.store, Keyword.store_resolveDns,
            Option.map_eq_bind]
          rfl
  | arg k param =>
      cases c' with
      | resolveDns =>
          rw [RuleClause.store, RuleClause.store,
            Option.bind_some, RuleClause.store,
            Keyword.store_resolveDns, Option.map_eq_bind]
          rfl
      | arg k' param' =>
          apply Keyword.store_comm
          intro hSame
          exact hNe (congrArg some hSame)

/- Only the order of the clauses changes. -/
theorem storeAll_perm
    {cs cs' : List RuleClause}
    (hPerm : cs.Perm cs')
    (hDistinct : (cs.map RuleClause.keyword).Nodup)
    (route : RouteRule) :
    storeAll cs route = storeAll cs' route := by
  induction hPerm generalizing route with
  | nil => rfl
  | @cons c cs cs' _ ih =>
      rw [List.map_cons, List.nodup_cons] at hDistinct
      rw [storeAll, storeAll]
      congr 1
      funext next
      exact ih hDistinct.2 next
  | swap c c' cs =>
      have hNe : c'.keyword ≠ c.keyword := by
        rw [List.map_cons, List.map_cons,
          List.nodup_cons] at hDistinct
        intro hSame
        apply hDistinct.1
        rw [hSame]
        exact List.mem_cons_self
      change ((c'.store route).bind fun next =>
          (c.store next).bind (storeAll cs)) =
        (c.store route).bind fun next =>
          (c'.store next).bind (storeAll cs)
      rw [← Option.bind_assoc, ← Option.bind_assoc,
        RuleClause.store_comm hNe]
  | @trans cs cs' cs'' hFront _ ihFront ihBack =>
      rw [ihFront hDistinct]
      apply ihBack
      exact (hFront.map _).nodup_iff.mp hDistinct

------------------------------------------------------------
-- Fresh Memory
------------------------------------------------------------

/- A rule with another tunnel array. -/
def RouteRule.setTunnel
    (tunnel : Vector (Option SshTunnel)
      routeRuleMaxSshTunnelsPerRule)
    (route : RouteRule) : RouteRule :=
  { route with tunnel }

theorem RuleClause.store_setTunnel
    (c : RuleClause)
    (tunnel : Vector (Option SshTunnel)
      routeRuleMaxSshTunnelsPerRule)
    (route : RouteRule) :
    c.store (route.setTunnel tunnel) =
      (c.store route).map (RouteRule.setTunnel tunnel) := by
  cases c with
  | resolveDns => rfl
  | arg k param =>
      unfold RuleClause.store
      dsimp only
      unfold Keyword.store
      generalize Text.scanInt param = port
      generalize netv4Argument param = net
      cases k with
      | port => cases port <;> rfl
      | network | map => cases net <;> rfl
      | is | startsWith | endsWith | contains => rfl
      | _ => cases net <;> rfl

theorem storeAll_setTunnel
    (cs : List RuleClause)
    (tunnel : Vector (Option SshTunnel)
      routeRuleMaxSshTunnelsPerRule)
    (route : RouteRule) :
    storeAll cs (route.setTunnel tunnel) =
      (storeAll cs route).map (RouteRule.setTunnel tunnel) := by
  induction cs generalizing route with
  | nil => rfl
  | cons c cs ih =>
      rw [storeAll, storeAll, RuleClause.store_setTunnel]
      cases c.store route with
      | none => rfl
      | some next => exact ih next

/- The names only add to the tunnel array. -/
theorem parseVia_setTunnel
    {sshTunnelList : List SshTunnel}
    {names : List Text}
    {route route' : RouteRule}
    (hParse :
      parseVia sshTunnelList names route = .ok route') :
    route' = route.setTunnel route'.tunnel := by
  induction names generalizing route with
  | nil =>
      cases hParse
      rfl
  | cons name names ih =>
      unfold parseVia at hParse
      by_cases hEmpty : name = []
      · rw [if_pos hEmpty] at hParse
        exact ih hParse
      rw [if_neg hEmpty] at hParse
      cases hFind : sshTunnelList.find?
          (fun ssh => ssh.name.text = name) with
      | none =>
          rw [hFind] at hParse
          cases hParse
      | some ssh =>
          rw [hFind] at hParse
          have hRest := ih hParse
          have hHere :
              addTunnel route ssh =
                route.setTunnel (addTunnel route ssh).tunnel := by
            unfold addTunnel
            dsimp only
            split <;> rfl
          rw [hHere] at hRest
          exact hRest

/- Clauses leave the array as it is. -/
theorem tunnel_storeAll
    {cs : List RuleClause}
    {route route' : RouteRule}
    (hStore : storeAll cs route = some route') :
    route'.tunnel = route.tunnel := by
  induction cs generalizing route with
  | nil =>
      cases hStore
      rfl
  | cons c cs ih =>
      rcases Option.bind_eq_some_iff.mp hStore with
        ⟨next, hHere, hRest⟩
      exact (ih hRest).trans (RuleClause.tunnel_store hHere)

------------------------------------------------------------
-- Texts
------------------------------------------------------------

/- The tokens behind the clauses. -/
def viaTokens : Option (List Text) → List Text
  | none => []
  | some tokens => kwVia :: tokens

/- A text with these clauses, and possibly with `via`. -/
def ruleSpec
    (cs : List RuleClause)
    (via : Option (List Text)) : Text :=
  [32].intercalate
    (cs.flatMap RuleClause.tokens ++ viaTokens via)

/-
  The rules agree: the tunnels up to the NULL, and all other
  fields.
-/
def SameRule
    (route route' : RouteRule) : Prop :=
  route' = route.setTunnel route'.tunnel ∧
    route.tunnels = route'.tunnels

/- What two parses of rules that agree return. -/
def SameResult :
    Except ParseFailure RouteRule →
      Except ParseFailure RouteRule → Prop
  | .ok route, .ok route' => SameRule route route'
  | .error failure, .error failure' => failure = failure'
  | _, _ => False

/- The text is cut into the tokens it was made of. -/
theorem splitOn_ruleSpec
    {cs : List RuleClause}
    {via : Option (List Text)}
    (hSpaceless : ∀ c ∈ cs, c.Spaceless)
    (hVia : ∀ token ∈ viaTokens via, (32 : UInt8) ∉ token)
    (hSome : cs ≠ [] ∨ via.isSome) :
    (ruleSpec cs via).splitOn 32 =
      cs.flatMap RuleClause.tokens ++ viaTokens via := by
  apply List.splitOn_intercalate
  · intro token hToken
    rcases List.mem_append.mp hToken with hToken | hToken
    · rcases List.mem_flatMap.mp hToken with ⟨c, hMem, hToken⟩
      exact RuleClause.space_not_mem_tokens (hSpaceless c hMem)
        token hToken
    · exact hVia token hToken
  · intro hNil
    rcases List.append_eq_nil_iff.mp hNil with
      ⟨hClauses, hTail⟩
    rcases hSome with hSome | hSome
    · cases cs with
      | nil => exact hSome rfl
      | cons c cs => cases c <;> cases hClauses
    · cases via with
      | none => cases hSome
      | some tokens => cases hTail

------------------------------------------------------------
-- Two Parses
------------------------------------------------------------

/- The names are added to two arrays that are empty. -/
theorem parseTokens_viaTokens
    (sshTunnelList : List SshTunnel)
    (via : Option (List Text))
    {route : RouteRule}
    {tunnel : Vector (Option SshTunnel)
      routeRuleMaxSshTunnelsPerRule}
    (hTerminated : Terminated route.tunnel.toList)
    (hEmpty : route.tunnels = [])
    (hTerminated' : Terminated tunnel.toList)
    (hEmpty' : (route.setTunnel tunnel).tunnels = []) :
    SameResult
        (parseTokens sshTunnelList (viaTokens via) route)
        (parseTokens sshTunnelList (viaTokens via)
          (route.setTunnel tunnel)) ∧
      (NamesKnown sshTunnelList (viaNames (via.getD [])) →
        ∃ r,
          parseTokens sshTunnelList (viaTokens via) route =
            .ok r) := by
  cases via with
  | none =>
      rw [viaTokens, parseTokens_nil, parseTokens_nil]
      refine ⟨⟨rfl, ?_⟩, fun _ => ⟨route, rfl⟩⟩
      rw [hEmpty, hEmpty']
  | some tokens =>
      rw [viaTokens, parseTokens_via, parseTokens_via,
        Option.getD_some]
      rcases parseVia_isOk_iff sshTunnelList
          (viaNames tokens) route with ⟨hOk, hNull⟩
      rcases parseVia_isOk_iff sshTunnelList
          (viaNames tokens) (route.setTunnel tunnel) with
        ⟨hOk', hNull'⟩
      refine ⟨?_, hOk.mpr⟩
      by_cases hKnown :
          NamesKnown sshTunnelList (viaNames tokens)
      · rcases hOk.mpr hKnown with ⟨r, hParse⟩
        rcases hOk'.mpr hKnown with ⟨r', hParse'⟩
        rw [hParse, hParse']
        have hFields := parseVia_setTunnel hParse
        have hFields' := parseVia_setTunnel hParse'
        have hTunnels :=
          (parseVia_terminated sshTunnelList hTerminated
            hParse).2
        have hTunnels' :=
          (parseVia_terminated sshTunnelList hTerminated'
            hParse').2
        constructor
        · rw [hFields]
          exact hFields'
        · rw [hTunnels, hTunnels', hEmpty, hEmpty']
      · rw [hNull hKnown, hNull' hKnown]
        rfl

/- Without a token there is no rule. -/
theorem parseRouteRuleSpec_nil
    (junk : Vector (Option SshTunnel)
      routeRuleMaxSshTunnelsPerRule)
    (filename : Option Text)
    (lineNum : Int)
    (sshTunnelList : List SshTunnel) :
    parseRouteRuleSpec junk (ruleSpec [] none) filename
        lineNum sshTunnelList = .error .null := by
  have hTokens : (ruleSpec [] none).splitOn 32 = [[]] := rfl
  have hDns : ([] : Text) ≠ kwResolveDns := nofun
  have hVia : ([] : Text) ≠ kwVia := nofun
  have hText : isTextKeyword [] ≠ true := nofun
  rw [parseRouteRuleSpec_eq, hTokens]
  unfold parseTokens parseClauses
  rw [if_neg hDns, if_neg hVia]
  dsimp only
  rw [if_neg hText]
  rfl

/-
  Texts with the same clauses in any order and the same `via`
  give rules that agree, whatever the memory holds.  There is
  a rule when all names are known.
-/
theorem parseRouteRuleSpec_perm
    {cs cs' : List RuleClause}
    {via : Option (List Text)}
    (hPerm : cs.Perm cs')
    (hValid : ∀ c ∈ cs, c.Valid)
    (hDistinct : (cs.map RuleClause.keyword).Nodup)
    (hSpaceless : ∀ c ∈ cs, c.Spaceless)
    (hVia : ∀ token ∈ viaTokens via, (32 : UInt8) ∉ token)
    (junk junk' : Vector (Option SshTunnel)
      routeRuleMaxSshTunnelsPerRule)
    (filename : Option Text)
    (lineNum : Int)
    (sshTunnelList : List SshTunnel) :
    SameResult
        (parseRouteRuleSpec junk (ruleSpec cs via) filename
          lineNum sshTunnelList)
        (parseRouteRuleSpec junk' (ruleSpec cs' via) filename
          lineNum sshTunnelList) ∧
      ((cs ≠ [] ∨ via.isSome) →
        NamesKnown sshTunnelList (viaNames (via.getD [])) →
          ∃ route,
            parseRouteRuleSpec junk (ruleSpec cs via) filename
                lineNum sshTunnelList =
              .ok route) := by
  by_cases hSome : cs ≠ [] ∨ via.isSome
  · have hSome' : cs' ≠ [] ∨ via.isSome := by
      apply hSome.imp_left
      intro hCs hNil
      rw [hNil] at hPerm
      exact hCs hPerm.eq_nil
    have hSpaceless' : ∀ c ∈ cs', c.Spaceless :=
      fun c hMem => hSpaceless c (hPerm.mem_iff.mpr hMem)
    have hFresh :
        freshRule junk' filename lineNum =
          (freshRule junk filename lineNum).setTunnel
            (freshRule junk' filename lineNum).tunnel := rfl
    rcases freshRule_terminated junk filename lineNum with
      ⟨hEnd, hEmpty⟩
    rcases freshRule_terminated junk' filename lineNum with
      ⟨hEnd', hEmpty'⟩
    rcases Option.isSome_iff_exists.mp
        ((isSome_storeAll cs
          (freshRule junk filename lineNum)).mpr hValid) with
      ⟨stored, hStore⟩
    have hTunnel := tunnel_storeAll hStore
    have hStore' :
        storeAll cs' (freshRule junk' filename lineNum) =
          some (stored.setTunnel
            (freshRule junk' filename lineNum).tunnel) := by
      rw [← storeAll_perm hPerm hDistinct, hFresh,
        storeAll_setTunnel, hStore]
      rfl
    rw [parseRouteRuleSpec_eq, parseRouteRuleSpec_eq,
      splitOn_ruleSpec hSpaceless hVia hSome,
      splitOn_ruleSpec hSpaceless' hVia hSome',
      parseTokens_clauses, parseTokens_clauses, hStore,
      hStore', Option.elim_some, Option.elim_some]
    have hStoredEnd : Terminated stored.tunnel.toList := by
      rw [hTunnel]
      exact hEnd
    have hStoredEmpty : stored.tunnels = [] := by
      unfold RouteRule.tunnels
      rw [hTunnel]
      exact hEmpty
    rcases parseTokens_viaTokens sshTunnelList via hStoredEnd
        hStoredEmpty hEnd' hEmpty' with ⟨hSame, hOk⟩
    exact ⟨hSame, fun _ => hOk⟩
  · rcases not_or.mp hSome with ⟨hCs, hNone⟩
    have hNil : cs = [] := not_not.mp hCs
    have hNoVia : via = none := by
      cases via with
      | none => rfl
      | some tokens => exact absurd rfl hNone
    subst hNil hNoVia
    rw [← hPerm.nil_eq, parseRouteRuleSpec_nil,
      parseRouteRuleSpec_nil]
    exact ⟨rfl, fun hHere => absurd hHere hSome⟩

/- `port 80` -/
def portClause : RuleClause :=
  .arg .port (Text.ascii ['8', '0'])

/- `via null` -/
def viaNull : Option (List Text) :=
  some [Text.ascii ['n', 'u', 'l', 'l']]

/- `port 80 resolveDNS via null`, and the other order. -/
theorem parseRouteRuleSpec_perm_port :
    SameResult
        (parseRouteRuleSpec (Vector.replicate _ none)
          (ruleSpec [portClause, .resolveDns] viaNull) none 1
          [sshTunnelNull])
        (parseRouteRuleSpec
          (Vector.replicate _ (some sshTunnelDirect))
          (ruleSpec [.resolveDns, portClause] viaNull) none 1
          [sshTunnelNull]) := by
  have hPerm :
      [portClause, .resolveDns].Perm
        [.resolveDns, portClause] :=
    List.Perm.swap _ _ _
  have hValid :
      ∀ c ∈ [portClause, .resolveDns], c.Valid := by
    intro c hMem
    rcases List.mem_pair.mp hMem with rfl | rfl
    · exact Option.isSome_iff_exists.mpr ⟨80, rfl⟩
    · trivial
  have hDistinct :
      ([portClause, .resolveDns].map
        RuleClause.keyword).Nodup := by
    decide
  have hSpaceless :
      ∀ c ∈ [portClause, .resolveDns], c.Spaceless := by
    intro c hMem
    rcases List.mem_pair.mp hMem with rfl | rfl
    · change (32 : UInt8) ∉ Text.ascii ['8', '0']
      decide
    · trivial
  have hVia :
      ∀ token ∈ viaTokens viaNull, (32 : UInt8) ∉ token := by
    decide
  exact (parseRouteRuleSpec_perm hPerm hValid hDistinct
    hSpaceless hVia _ _ none 1 [sshTunnelNull]).1

end SmartSOCKSProxy
