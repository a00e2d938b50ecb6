import SmartSOCKSProxy.Routing.Networks

/-
  Rules that map one network to another.

  The rewrite blends the address of the destination with that
  of the rule, so that mapping back restores it.

  Key definitions include:
    * `mapText`, `mapRule`

  Key theorems include:
    * `applyTo_applyTo`
    * `parseRouteRuleSpec_mapText`
    * `destinationBefore_inside`, `destinationBefore_outside`
    * `mapRule_translatesBack`
    * `addressMap_reversible`
-/

namespace SmartSOCKSProxy

------------------------------------------------------------
-- Rewriting Twice
------------------------------------------------------------

/- A stored port is stored as it is. -/
theorem htons_ntohs
    (port : UInt16) :
    htons (ntohs port) = port := by
  have hValue := ntohs_htons_of_isPort (isPort_ntohs port)
  unfold ntohs at hValue
  exact UInt16.toNat_inj.mp (Int.natCast_inj.mp hValue)

theorem toAddr_toAddr
    (route : RouteRule)
    (addr : UInt32) :
    route.toAddr (route.toAddr addr) = route.toAddr addr := by
  apply UInt32.toBitVec_inj.mp
  rw [toBitVec_toAddr, toBitVec_toAddr, BitVec.blend_blend]

theorem rewriteTo_rewriteTo
    (route : RouteRule)
    (d : HostId) :
    route.rewriteTo (route.rewriteTo d) =
      route.rewriteTo d := by
  cases hTo : route.haveToIpv4 with
  | false =>
      have hKept : ∀ d, route.rewriteTo d = d := by
        intro d
        unfold RouteRule.rewriteTo
        rw [hTo]
      rw [hKept, hKept]
  | true =>
      cases hAddr : d.ipv4 with
      | none =>
          have hKept : route.rewriteTo d = d := by
            unfold RouteRule.rewriteTo
            rw [hTo, hAddr]
          rw [hKept, hKept]
      | some addr =>
          have hOnce :
              route.rewriteTo d =
                ⟨CBuf.empty,
                  .inet (htons d.port) (route.toAddr addr),
                  ntohs (htons d.port)⟩ := by
            unfold RouteRule.rewriteTo
            rw [hTo, hAddr]
          rw [hOnce]
          unfold RouteRule.rewriteTo HostId.ipv4
          rw [hTo]
          dsimp only
          rw [htons_ntohs, toAddr_toAddr]

/- The condition of the rewrite, without the cache. -/
theorem applyTo_turn_iff
    (route : RouteRule)
    {st : EngineState}
    (hFresh : st.Fresh) :
    (route.haveToIpv4 = true ∧ st.cache.ipaddr.isSome ∧
        st.cache.family = .inet) ↔
      route.haveToIpv4 = true ∧
        st.con.dstHost.ipv4.isSome := by
  rw [hFresh]
  unfold HostId.ipv4 DstCache.load rreGetHostIdAddr
  cases st.con.dstHost.addr <;> simp

/- The rewrite of an IPv4 destination, written out. -/
theorem applyTo_of_ipv4
    {route : RouteRule}
    {st : EngineState}
    (hFresh : st.Fresh)
    (hTurn :
      route.haveToIpv4 = true ∧
        st.con.dstHost.ipv4.isSome) :
    applyTo route st =
      { st with
        con :=
          { st.con with
            dstHost := route.rewriteTo st.con.dstHost
            socksAddressType := socks5AddrTypeIpv4 }
        cache :=
          DstCache.load (route.rewriteTo st.con.dstHost) } := by
  have hHost :
      (applyTo route st).con.dstHost =
        route.rewriteTo st.con.dstHost :=
    congrArg Located.host (applyTo_refines route hFresh).2.1
  rw [← hHost]
  unfold applyTo
  rw [if_pos ((applyTo_turn_iff route hFresh).mpr hTurn)]

/- The second rewrite changes nothing. -/
theorem applyTo_applyTo
    (route : RouteRule)
    {st : EngineState}
    (hFresh : st.Fresh) :
    applyTo route (applyTo route st) = applyTo route st := by
  by_cases hTurn :
      route.haveToIpv4 = true ∧ st.con.dstHost.ipv4.isSome
  · rcases Option.isSome_iff_exists.mp hTurn.2 with
      ⟨addr, hAddr⟩
    have hAgain :
        route.haveToIpv4 = true ∧
          (route.rewriteTo st.con.dstHost).ipv4.isSome := by
      rw [(rewriteTo_of_ipv4 hTurn.1 hAddr).1]
      exact ⟨hTurn.1, rfl⟩
    have hFresh' := (applyTo_refines route hFresh).1
    rw [applyTo_of_ipv4 hFresh hTurn] at hFresh' ⊢
    rw [applyTo_of_ipv4 hFresh' hAgain, rewriteTo_rewriteTo]
  · have hKept : applyTo route st = st := by
      rw [← applyTo_turn_iff route hFresh] at hTurn
      exact if_neg hTurn
    rw [hKept, hKept]

------------------------------------------------------------
-- A Rule That Maps
------------------------------------------------------------

/- `map a/m to b/m` -/
def mapText
    (a b m : Text) : Text :=
  ruleSpec
    [.arg .map (a ++ 47 :: m), .arg .to (b ++ 47 :: m)] none

section Map

variable (junk : Vector (Option SshTunnel)
  routeRuleMaxSshTunnelsPerRule)
variable (filename : Option Text)
variable (lineNum : Int)

/- The rule of that text. -/
def mapRule
    (net net' mask : UInt32) : RouteRule :=
  { freshRule junk filename lineNum with
    haveMapIpv4 := true
    mapIpv4Addr := net.toUInt64
    mapIpv4Mask := mask.toUInt64
    haveToIpv4 := true
    toIpv4Addr := net'.toUInt64
    toIpv4Mask := mask.toUInt64 }

theorem parseRouteRuleSpec_mapText
    {a b m : Text}
    {net net' mask : UInt32}
    (hNet : inetPton4 a = some net)
    (hNet' : inetPton4 b = some net')
    (hMask : inetPton4 m = some mask)
    (sshTunnelList : List SshTunnel) :
    parseRouteRuleSpec junk (mapText a b m) filename lineNum
        sshTunnelList =
      .ok (mapRule junk filename lineNum net net' mask) := by
  have hSpaceless :
      ∀ c ∈ [RuleClause.arg .map (a ++ 47 :: m),
          RuleClause.arg .to (b ++ 47 :: m)],
        c.Spaceless := by
    have hSpace := (not_mem_of_inetPton4 hMask).2
    intro c hMem
    rcases List.mem_pair.mp hMem with rfl | rfl
    · exact space_not_mem_slash hNet hSpace
    · exact space_not_mem_slash hNet' hSpace
  have hArgument := netv4Argument_slash hNet m
  have hArgument' := netv4Argument_slash hNet' m
  rw [maskOf_dottedQuad hMask] at hArgument hArgument'
  unfold mapText
  rw [parseRouteRuleSpec_clauses (List.cons_ne_nil _ _)
    hSpaceless, storeAll, RuleClause.store, Keyword.store,
    hArgument]
  rw [Option.map_some, Option.map_some, Option.bind_some,
    storeAll, RuleClause.store, Keyword.store, hArgument']
  rfl

variable (net net' mask : UInt32)

/- The rule applies to the addresses of its network. -/
theorem mapRule_matches_iff
    (d : HostId)
    (port : Int) :
    (mapRule junk filename lineNum net net' mask).Matches d
        port ↔
      ∃ addr, d.ipv4 = some addr ∧
        addr &&& mask = net &&& mask := by
  rw [← inNetwork_iff]
  constructor
  · intro hMatches
    exact hMatches.map rfl
  · intro hHere
    exact ⟨.inl rfl, .inl rfl, .inl rfl, .inl rfl, .inl rfl,
      nofun, fun _ => hHere⟩

theorem mapRule_perform
    (s : Located) :
    (mapRule junk filename lineNum net net' mask).perform s =
      { s with
        host :=
          (mapRule junk filename lineNum net net'
            mask).rewriteTo s.host } := rfl

theorem toBitVec_mapRule_toAddr
    (addr : UInt32) :
    ((mapRule junk filename lineNum net net' mask).toAddr
        addr).toBitVec =
      BitVec.blend mask.toBitVec addr.toBitVec
        net'.toBitVec :=
  toAddr_eq_blend rfl rfl addr

/- The new address, inside the network that is mapped to. -/
theorem mapRule_toAddr
    (addr : UInt32) :
    (mapRule junk filename lineNum net net' mask).toAddr
          addr &&& mask =
        net' &&& mask ∧
      (mapRule junk filename lineNum net net' mask).toAddr
          addr &&& ~~~mask =
        addr &&& ~~~mask := by
  rw [and_eq_and_iff, and_eq_and_iff, UInt32.toBitVec_not,
    toBitVec_mapRule_toAddr]
  exact ⟨BitVec.blend_and_mask _ _ _,
    BitVec.blend_and_not _ _ _⟩

/- Mapping back restores the address. -/
theorem mapRule_toAddr_back
    (junk' : Vector (Option SshTunnel)
      routeRuleMaxSshTunnelsPerRule)
    (lineNum' : Int)
    {addr : UInt32}
    (hInside : addr &&& mask = net &&& mask) :
    (mapRule junk' filename lineNum' net' net mask).toAddr
        ((mapRule junk filename lineNum net net' mask).toAddr
          addr) =
      addr := by
  apply UInt32.toBitVec_inj.mp
  rw [toBitVec_mapRule_toAddr, toBitVec_mapRule_toAddr,
    BitVec.blend_blend]
  exact BitVec.blend_of_and_eq
    ((and_eq_and_iff addr net mask).mp hInside)

------------------------------------------------------------
-- Decisions
------------------------------------------------------------

/- Without tunnels, every rule takes its turn. -/
theorem dstHost_of_no_tunnels
    {rules : List RouteRule}
    (hNone : ∀ route ∈ rules, route.tunnels = [])
    (con : ClientConnection)
    (dns : Resolver) :
    (decideApplicableRule rules con dns).2.1.dstHost =
      destinationBefore rules con.dstHost dns
        rules.length := by
  have hDecides :
      ∀ k, ¬Decides rules con.dstHost dns k := by
    rintro k ⟨hk, _, hTunnels⟩
    exact hTunnels (hNone _ (List.getElem_mem hk))
  exact ((decideApplicableRule_refines rules con dns).2.1
    hDecides).2.2

theorem mapRule_tunnels :
    (mapRule junk filename lineNum net net' mask).tunnels =
      [] :=
  (freshRule_terminated junk filename lineNum).2

section Turn

variable {net net' mask : UInt32}
variable {d : HostId}
variable (dns : Resolver)
variable (rules : List RouteRule)
variable {i : Nat}
variable (hRule :
  rules[i]? =
    some (mapRule junk filename lineNum net net' mask))

include hRule

/- The destination behind the rule, when it applies. -/
theorem destinationBefore_inside
    {addr : UInt32}
    (hAddr :
      (destinationBefore rules d dns i).ipv4 = some addr)
    (hInside : addr &&& mask = net &&& mask) :
    (destinationBefore rules d dns (i + 1)).ipv4 =
        some ((mapRule junk filename lineNum net net'
          mask).toAddr addr) ∧
      (destinationBefore rules d dns (i + 1)).name =
        CBuf.empty := by
  rcases List.getElem?_eq_some_iff.mp hRule with
    ⟨hi, hHere⟩
  have hMatches :
      rules[i].Matches (destinationBefore rules d dns i)
        d.port := by
    rw [hHere, mapRule_matches_iff]
    exact ⟨addr, hAddr, hInside⟩
  have hNext :
      destinationBefore rules d dns (i + 1) =
        (mapRule junk filename lineNum net net'
          mask).rewriteTo (destinationBefore rules d dns i) := by
    rw [destinationBefore, locatedBefore_succ d dns hi,
      if_pos hMatches, hHere, mapRule_perform]
    rfl
  rw [hNext]
  exact rewriteTo_of_ipv4 rfl hAddr

/- A destination outside of the network is left alone. -/
theorem destinationBefore_outside
    (hOutside :
      ¬∃ addr,
        (destinationBefore rules d dns i).ipv4 = some addr ∧
          addr &&& mask = net &&& mask) :
    destinationBefore rules d dns (i + 1) =
      destinationBefore rules d dns i := by
  rcases List.getElem?_eq_some_iff.mp hRule with
    ⟨hi, hHere⟩
  have hMatches :
      ¬rules[i].Matches (destinationBefore rules d dns i)
        d.port := by
    rw [hHere, mapRule_matches_iff]
    exact hOutside
  rw [destinationBefore, locatedBefore_succ d dns hi,
    if_neg hMatches]
  rfl

end Turn

end Map

------------------------------------------------------------
-- Mapping There and Back
------------------------------------------------------------

/- The address that is reached is in the network. -/
def InMaskedNetwork
    (net mask : UInt32)
    (d : HostId) : Prop :=
  ∃ addr, d.ipv4 = some addr ∧ addr &&& mask = net &&& mask

/-
  A rule that translates addresses of one network to another,
  and a rule that translates them back.
-/
structure TranslatesBack
    (net net' mask : UInt32)
    (route back : RouteRule) : Prop where
  inside :
    ∀ (con : ClientConnection) dns addr,
      con.dstHost.ipv4 = some addr →
        addr &&& mask = net &&& mask →
          ∃ new,
            (decideApplicableRule [route] con
                dns).2.1.dstHost.ipv4 = some new ∧
              new &&& mask = net' &&& mask ∧
              new &&& ~~~mask = addr &&& ~~~mask
  outside :
    ∀ (con : ClientConnection) dns,
      ¬InMaskedNetwork net mask con.dstHost →
        (decideApplicableRule [route] con dns).2.1.dstHost =
          con.dstHost
  twice :
    ∀ st : EngineState, st.Fresh →
      applyTo route (applyTo route st) = applyTo route st
  thereAndBack :
    ∀ (con : ClientConnection) dns addr,
      con.dstHost.ipv4 = some addr →
        addr &&& mask = net &&& mask →
          (decideApplicableRule [route, back] con
              dns).2.1.dstHost.ipv4 = some addr ∧
            (decideApplicableRule [route, back] con
              dns).2.1.dstHost.name = CBuf.empty

theorem mapRule_translatesBack
    (junk junk' : Vector (Option SshTunnel)
      routeRuleMaxSshTunnelsPerRule)
    (filename : Option Text)
    (lineNum lineNum' : Int)
    (net net' mask : UInt32) :
    TranslatesBack net net' mask
      (mapRule junk filename lineNum net net' mask)
      (mapRule junk' filename lineNum' net' net mask) := by
  refine ⟨?_, ?_, fun _ hFresh => applyTo_applyTo _ hFresh,
    ?_⟩
  · intro con dns addr hAddr hInside
    have hNone :
        ∀ route ∈ [mapRule junk filename lineNum net net'
          mask], route.tunnels = [] := by
      intro route hRoute
      rw [List.mem_singleton.mp hRoute]
      exact mapRule_tunnels junk filename lineNum net net' mask
    rw [dstHost_of_no_tunnels hNone]
    exact ⟨_,
      (destinationBefore_inside junk filename lineNum dns _
        (i := 0) rfl hAddr hInside).1,
      mapRule_toAddr junk filename lineNum net net' mask addr⟩
  · intro con dns hOutside
    have hNone :
        ∀ route ∈ [mapRule junk filename lineNum net net'
          mask], route.tunnels = [] := by
      intro route hRoute
      rw [List.mem_singleton.mp hRoute]
      exact mapRule_tunnels junk filename lineNum net net' mask
    rw [dstHost_of_no_tunnels hNone]
    exact destinationBefore_outside junk filename lineNum dns
      _ (i := 0) rfl hOutside
  · intro con dns addr hAddr hInside
    have hNone :
        ∀ route ∈ [mapRule junk filename lineNum net net' mask,
            mapRule junk' filename lineNum' net' net mask],
          route.tunnels = [] := by
      intro route hRoute
      rcases List.mem_pair.mp hRoute with rfl | rfl
      · exact mapRule_tunnels junk filename lineNum net net'
          mask
      · exact mapRule_tunnels junk' filename lineNum' net' net
          mask
    have hThere :=
      (destinationBefore_inside junk filename lineNum dns
        [mapRule junk filename lineNum net net' mask,
          mapRule junk' filename lineNum' net' net mask]
        (i := 0) rfl hAddr hInside).1
    have hThereInside :=
      (mapRule_toAddr junk filename lineNum net net' mask
        addr).1
    have hBack :=
      destinationBefore_inside junk' filename lineNum' dns _
        (i := 1) rfl hThere hThereInside
    rw [dstHost_of_no_tunnels hNone]
    refine ⟨hBack.1.trans (congrArg some ?_), hBack.2⟩
    exact mapRule_toAddr_back junk filename lineNum net net'
      mask junk' lineNum' hInside

/-
  The texts of two such rules are parsed to rules that
  translate addresses and translate them back.
-/
theorem addressMap_reversible
    {a b m : Text}
    {net net' mask : UInt32}
    (hNet : inetPton4 a = some net)
    (hNet' : inetPton4 b = some net')
    (hMask : inetPton4 m = some mask)
    (junk junk' : Vector (Option SshTunnel)
      routeRuleMaxSshTunnelsPerRule)
    (filename : Option Text)
    (lineNum lineNum' : Int)
    (sshTunnelList : List SshTunnel) :
    ∃ route back,
      parseRouteRuleSpec junk (mapText a b m) filename lineNum
          sshTunnelList = .ok route ∧
        parseRouteRuleSpec junk' (mapText b a m) filename
            lineNum' sshTunnelList = .ok back ∧
        TranslatesBack net net' mask route back :=
  ⟨_, _,
    parseRouteRuleSpec_mapText junk filename lineNum hNet
      hNet' hMask sshTunnelList,
    parseRouteRuleSpec_mapText junk' filename lineNum' hNet'
      hNet hMask sshTunnelList,
    mapRule_translatesBack junk junk' filename lineNum lineNum'
      net net' mask⟩

/- `map 10.0.0.0/255.0.0.0 to 20.0.0.0/255.0.0.0` -/
theorem addressMap_reversible_ten :
    ∃ route back,
      parseRouteRuleSpec (Vector.replicate _ none)
          (mapText (inetNtop4 0x0a000000)
            (inetNtop4 0x14000000) (inetNtop4 0xff000000))
          none 1 [] = .ok route ∧
        parseRouteRuleSpec (Vector.replicate _ none)
            (mapText (inetNtop4 0x14000000)
              (inetNtop4 0x0a000000) (inetNtop4 0xff000000))
            none 2 [] = .ok back ∧
        TranslatesBack 0x0a000000 0x14000000 0xff000000 route
          back :=
  addressMap_reversible (inetPton4_inetNtop4 _)
    (inetPton4_inetNtop4 _) (inetPton4_inetNtop4 _) _ _ none 1
    2 []

end SmartSOCKSProxy
