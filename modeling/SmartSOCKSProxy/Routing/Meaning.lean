import SmartSOCKSProxy.Foundations.RuleChain
import SmartSOCKSProxy.Routing.Engine

/-
  What a rule list means, and that the engine computes it.

  A rule is described without reference to caches or loops:
  by the destinations it matches and by the destination it
  makes of them.  The engine refines the rule chain that
  these descriptions form.

  Key definitions include:
    * `RouteRule.Matches`
    * `RouteRule.rewriteTo`, `RouteRule.perform`
    * `meaning`, `engineChain`
    * `destinationBefore`, `Decides`, `AppliesAt`

  Key theorems include:
    * `thisRouteApplies_iff`
    * `engineChain_refines`, `ruleLoop_refines`
    * `decideApplicableRule_refines`
    * `decideApplicableRule_invariant`
-/

namespace SmartSOCKSProxy

------------------------------------------------------------
-- Matching
------------------------------------------------------------

/- The IPv4 address of a destination. -/
def HostId.ipv4
    (d : HostId) : Option UInt32 :=
  match d.addr with
  | .inet _ addr => some addr
  | _ => none

/- A text by which the destination is known. -/
def HostId.KnownAs
    (d : HostId)
    (t : Text) : Prop :=
  (d.name.text ≠ [] ∧ d.name.text = t) ∨ d.addrStr = some t

/- A missing pattern asks for nothing. -/
def HostId.Meets
    (d : HostId)
    (related : Text → Text → Prop)
    (pattern : Text) : Prop :=
  pattern = [] ∨ ∃ t, d.KnownAs t ∧ related t pattern

/- The IPv4 address lies in a network. -/
def HostId.InNetwork
    (d : HostId)
    (addr mask : UInt64) : Prop :=
  ∃ a, d.ipv4 = some a ∧
    a.toUInt64 &&& mask = addr &&& mask

/-
  All criteria of a rule, and its `map` range, hold for a
  destination and the port that was asked for.
-/
structure RouteRule.Matches
    (r : RouteRule)
    (d : HostId)
    (requestedPort : Int) : Prop where
  is : d.Meets (fun t p => t = p) r.matchIs.text
  startsWith :
    d.Meets (fun t p => p <+: t) r.matchStartsWith.text
  endsWith :
    d.Meets (fun t p => p <:+ Text.lower t)
      r.matchEndsWith.text
  contains :
    d.Meets (fun t p => Text.lower p <:+: Text.lower t)
      r.matchContains.text
  port : r.matchPort = 0 ∨ r.matchPort = requestedPort
  network : r.haveMatchIpv4 = true →
    d.InNetwork r.matchIpv4Addr r.matchIpv4Mask
  map : r.haveMapIpv4 = true →
    d.InNetwork r.mapIpv4Addr r.mapIpv4Mask

------------------------------------------------------------
-- Rewriting
------------------------------------------------------------

/- Replace the network part of an address. -/
def RouteRule.toAddr
    (r : RouteRule)
    (a : UInt32) : UInt32 :=
  (a &&& ~~~ r.toIpv4Mask.toUInt32) |||
    (r.toIpv4Addr.toUInt32 &&& r.toIpv4Mask.toUInt32)

/-
  The `to` rewrite: it needs an IPv4 address, and leaves a
  destination without a name.
-/
def RouteRule.rewriteTo
    (r : RouteRule)
    (d : HostId) : HostId :=
  match r.haveToIpv4, d.ipv4 with
  | true, some a =>
      { name := CBuf.empty
        addr := .inet (htons d.port) (r.toAddr a)
        port := ntohs (htons d.port) }
  | _, _ => d

/- A destination together with the resolver's state. -/
structure Located where
  host : HostId
  dns : Resolver

/- The `resolveDNS` action. -/
def RouteRule.resolve
    (r : RouteRule)
    (s : Located) : Located :=
  if r.resolveDns then
    let out := resolveDnsForHostId s.host s.dns
    ⟨out.2.1, out.2.2⟩
  else s

/- First the `to` rewrite, then `resolveDNS`. -/
def RouteRule.perform
    (r : RouteRule)
    (s : Located) : Located :=
  r.resolve { s with host := r.rewriteTo s.host }

------------------------------------------------------------
-- The Conditions Compute Matching
------------------------------------------------------------

theorem textCriterion_iff
    {test : Text → Text → Bool}
    {related : Text → Text → Prop}
    (hTest : ∀ t p, test t p = true ↔ related t p)
    (pattern : CBuf maxDns)
    (d : HostId) :
    textCriterion test pattern (DstCache.load d) = true ↔
      d.Meets related pattern.text := by
  have hName :
      (rreGetHostIdName d).any
          (fun name => test name pattern.text) = true ↔
        d.name.text ≠ [] ∧
          related d.name.text pattern.text := by
    unfold rreGetHostIdName HostId.hasName
    by_cases hEmpty : d.name.text = []
    · simp [hEmpty]
    · simp [hEmpty, hTest]
  have hAddr :
      (rreGetHostIdAddr d).1.any
          (fun ipaddr => test ipaddr pattern.text) = true ↔
        ∃ t, d.addrStr = some t ∧
          related t pattern.text := by
    unfold rreGetHostIdAddr HostId.addrStr
    cases d.addr <;> simp [hTest]
  unfold textCriterion HostId.Meets HostId.KnownAs
  rw [decide_eq_true_iff]
  apply or_congr_right
  constructor
  · rintro (hHit | hHit)
    · have hRel := hName.mp hHit
      exact ⟨_, Or.inl ⟨hRel.1, rfl⟩, hRel.2⟩
    · rcases hAddr.mp hHit with ⟨t, hStr, hRel⟩
      exact ⟨t, Or.inr hStr, hRel⟩
  · rintro ⟨t, ⟨hNe, rfl⟩ | hStr, hRel⟩
    · exact Or.inl (hName.mpr ⟨hNe, hRel⟩)
    · exact Or.inr (hAddr.mpr ⟨t, hStr, hRel⟩)

theorem netCriterion_iff
    (flag : Bool)
    (addr mask : UInt64)
    (d : HostId) :
    netCriterion flag addr mask (DstCache.load d) = true ↔
      (flag = true → d.InNetwork addr mask) := by
  unfold netCriterion HostId.InNetwork HostId.ipv4
    DstCache.load rreGetHostIdAddr
  cases flag <;> cases d.addr <;> simp

/- The code's test is the declarative one. -/
theorem thisRouteApplies_iff
    (r : RouteRule)
    (d : HostId)
    (requestedPort : Int) :
    thisRouteApplies r (DstCache.load d) requestedPort =
        true ↔
      r.Matches d requestedPort := by
  unfold thisRouteApplies matchIsApplies
    matchStartsWithApplies matchEndsWithApplies
    matchContainsApplies matchPortApplies matchIpv4Applies
    mapIpv4Applies
  simp only [Bool.and_eq_true, decide_eq_true_eq]
  rw [textCriterion_iff
      (fun t p => decide_eq_true_iff (p := t = p)),
    textCriterion_iff stringStartsWith_iff,
    textCriterion_iff stringEndsWith_iff,
    textCriterion_iff stringContains_iff,
    netCriterion_iff, netCriterion_iff]
  constructor
  · rintro ⟨⟨⟨⟨⟨⟨hIs, hStarts⟩, hEnds⟩, hContains⟩,
      hPort⟩, hNetwork⟩, hMap⟩
    exact ⟨hIs, hStarts, hEnds, hContains, hPort,
      hNetwork, hMap⟩
  · rintro ⟨hIs, hStarts, hEnds, hContains, hPort,
      hNetwork, hMap⟩
    exact ⟨⟨⟨⟨⟨⟨hIs, hStarts⟩, hEnds⟩, hContains⟩,
      hPort⟩, hNetwork⟩, hMap⟩

instance
    (r : RouteRule)
    (d : HostId)
    (requestedPort : Int) :
    Decidable (r.Matches d requestedPort) :=
  decidable_of_iff _
    (thisRouteApplies_iff r d requestedPort)

------------------------------------------------------------
-- The Permutations Compute Rewriting
------------------------------------------------------------

/- The 64-bit computation of the new address is exact. -/
theorem newIpv4Addr_toUInt32
    (r : RouteRule)
    (a : UInt32) :
    (newIpv4Addr r a.toUInt64).toUInt32 = r.toAddr a := by
  have hNeg :
      (0xffffffff : UInt64).toUInt32 ^^^
          r.toIpv4Mask.toUInt32 =
        ~~~ r.toIpv4Mask.toUInt32 := by
    apply UInt32.toBitVec_inj.mp
    rw [UInt32.toBitVec_xor, UInt32.toBitVec_not]
    exact BitVec.allOnes_xor
  unfold newIpv4Addr RouteRule.toAddr
  rw [UInt64.toUInt32_or, UInt64.toUInt32_and,
    UInt64.toUInt32_and, UInt64.toUInt32_xor, hNeg,
    UInt32.toUInt32_toUInt64]

/- What the engine state says about the destination. -/
def EngineState.located
    (st : EngineState) : Located where
  host := st.con.dstHost
  dns := st.dns

/- The cache agrees with the destination. -/
def EngineState.Fresh
    (st : EngineState) : Prop :=
  st.cache = DstCache.load st.con.dstHost

/-
  The parts of a connection that routing may change are its
  destination, its address type and its route.
-/
def SameRequest
    (con con' : ClientConnection) : Prop :=
  con' =
    { con with
      dstHost := con'.dstHost
      socksAddressType := con'.socksAddressType
      route := con'.route }

theorem SameRequest.refl
    (con : ClientConnection) :
    SameRequest con con := rfl

theorem SameRequest.trans
    {con con' con'' : ClientConnection}
    (h : SameRequest con con')
    (h' : SameRequest con' con'') :
    SameRequest con con'' := by
  unfold SameRequest at *
  rw [h', h]

/- The `to` block of the engine is the `to` rewrite. -/
theorem applyTo_refines
    (r : RouteRule)
    {st : EngineState}
    (hFresh : st.Fresh) :
    (applyTo r st).Fresh ∧
      (applyTo r st).located =
        { st.located with
          host := r.rewriteTo st.con.dstHost } ∧
      SameRequest st.con (applyTo r st).con := by
  unfold applyTo
  rw [hFresh]
  unfold RouteRule.rewriteTo HostId.ipv4 DstCache.load
    rreGetHostIdAddr
  cases hAddr : st.con.dstHost.addr with
  | unspec =>
      simp only [Option.isSome_none, Bool.false_eq_true,
        false_and, and_false, if_false]
      refine ⟨hFresh, ?_, SameRequest.refl _⟩
      cases r.haveToIpv4 <;> rfl
  | inet sinPort sinAddr =>
      cases hTo : r.haveToIpv4 with
      | false =>
          simp only [Bool.false_eq_true, false_and,
            if_false]
          exact ⟨hFresh, rfl, SameRequest.refl _⟩
      | true =>
          simp only [Option.isSome_some, and_self, if_true]
          refine ⟨rfl, ?_, rfl⟩
          simp only [EngineState.located,
            newIpv4Addr_toUInt32]
          simp [HostId.setName, HostId.setAddrIn]
  | inet6 sin6Port sin6Addr =>
      simp only [reduceCtorEq, and_false, if_false]
      refine ⟨hFresh, ?_, SameRequest.refl _⟩
      cases r.haveToIpv4 <;> rfl

/- The `resolveDNS` block is the `resolveDNS` action. -/
theorem applyResolveDns_refines
    (r : RouteRule)
    {st : EngineState}
    (hFresh : st.Fresh) :
    (applyResolveDns r st).Fresh ∧
      (applyResolveDns r st).located =
        r.resolve st.located ∧
      SameRequest st.con (applyResolveDns r st).con := by
  unfold applyResolveDns RouteRule.resolve
  cases r.resolveDns with
  | false =>
      simp only [Bool.false_eq_true, false_and, if_false]
      exact ⟨hFresh, trivial, SameRequest.refl _⟩
  | true =>
      cases hName : st.con.dstHost.hasName with
      | false =>
          simp only [Bool.false_eq_true, and_false,
            if_false, if_true]
          refine ⟨hFresh, ?_, SameRequest.refl _⟩
          have hNone :=
            resolveDnsForHostId_of_not_hasName st.dns hName
          simp [EngineState.located, hNone]
      | true =>
          simp only [and_self, if_true]
          exact ⟨rfl, rfl, rfl⟩

/- Both permutations together. -/
theorem apply_refines
    (r : RouteRule)
    {st : EngineState}
    (hFresh : st.Fresh) :
    (applyResolveDns r (applyTo r st)).Fresh ∧
      (applyResolveDns r (applyTo r st)).located =
        r.perform st.located ∧
      SameRequest st.con
        (applyResolveDns r (applyTo r st)).con := by
  rcases applyTo_refines r hFresh with
    ⟨hFreshTo, hLocTo, hSameTo⟩
  rcases applyResolveDns_refines r hFreshTo with
    ⟨hFreshDns, hLocDns, hSameDns⟩
  refine ⟨hFreshDns, ?_, hSameTo.trans hSameDns⟩
  rw [hLocDns, hLocTo]
  rfl

------------------------------------------------------------
-- The Loop Computes the Rule Chain
------------------------------------------------------------

/- The rule chain of the routing rules. -/
def meaning
    (requestedPort : Int) :
    RuleChain RouteRule Located where
  applies := fun r s => r.Matches s.host requestedPort
  act := fun r s => r.perform s
  final := fun r => r.tunnels ≠ []

/- The rule chain that the loop runs. -/
def engineChain
    (requestedPort : Int) :
    RuleChain RouteRule EngineState where
  applies := fun r st =>
    thisRouteApplies r st.cache requestedPort
  act := fun r st => applyResolveDns r (applyTo r st)
  final := RouteRule.hasTunnel

theorem ruleLoop_eq_run
    (requestedPort : Int)
    (i : Nat)
    (rules : List RouteRule)
    (st : EngineState) :
    ruleLoop requestedPort i rules st =
      (((engineChain requestedPort).run i rules st).1.map
          (fun found => .listed found.1 found.2),
        ((engineChain requestedPort).run i rules st).2) := by
  induction rules generalizing i st with
  | nil => rfl
  | cons r rules ih =>
      have hApplies :
          thisRouteApplies r st.cache requestedPort =
            (engineChain requestedPort).applies r st := rfl
      have hFinal :
          r.hasTunnel =
            (engineChain requestedPort).final r := rfl
      simp only [ruleLoop, RuleChain.run, RuleChain.step,
        hApplies, hFinal, ih]
      cases (engineChain requestedPort).applies r st with
      | false => simp
      | true =>
          simp only [if_true, true_and]
          cases (engineChain requestedPort).final r with
          | false => rfl
          | true => rfl

/- The invariant is that the cache is fresh. -/
theorem engineChain_refines
    (requestedPort : Int) :
    (engineChain requestedPort).Refines
      (meaning requestedPort) EngineState.located
      EngineState.Fresh where
  applies := by
    intro r st hFresh
    simp only [engineChain, meaning]
    rw [hFresh, Bool.eq_iff_iff, thisRouteApplies_iff]
    exact decide_eq_true_iff.symm
  final := by
    intro r
    simp only [engineChain, meaning]
    rw [Bool.eq_iff_iff, RouteRule.hasTunnel_iff]
    exact decide_eq_true_iff.symm
  act := fun r _ hFresh => (apply_refines r hFresh).2.1
  inv := fun r _ hFresh => (apply_refines r hFresh).1

/-
  The loop finds the rule of the chain's search and leaves
  its destination.
-/
theorem ruleLoop_refines
    (requestedPort : Int)
    (i : Nat)
    (rules : List RouteRule)
    {st : EngineState}
    (hFresh : st.Fresh) :
    (ruleLoop requestedPort i rules st).1 =
        ((meaning requestedPort).run i rules
          st.located).1.map
            (fun found => .listed found.1 found.2) ∧
      (ruleLoop requestedPort i rules st).2.located =
        ((meaning requestedPort).run i rules
          st.located).2 ∧
      SameRequest st.con
        (ruleLoop requestedPort i rules st).2.con := by
  have hChain := engineChain_refines requestedPort
  rcases hChain.run i rules hFresh with ⟨hFound, hLocated⟩
  rw [ruleLoop_eq_run, hFound]
  refine ⟨rfl, hLocated, ?_⟩
  apply (engineChain requestedPort).run_invariant
    (fun st' => SameRequest st.con st'.con)
  · exact SameRequest.refl _
  · intro k r _ hSame
    have hFresh' := (hChain.state rules hFresh k).1
    exact hSame.trans (apply_refines r hFresh').2.2

------------------------------------------------------------
-- Decisions
------------------------------------------------------------

/-
  The destination and resolver before the `i`th rule, when
  every rule before it has taken its turn.
-/
def locatedBefore
    (rules : List RouteRule)
    (d : HostId)
    (dns : Resolver)
    (i : Nat) : Located :=
  (meaning d.port).state rules ⟨d, dns⟩ i

/- The destination `d_i` of a rule list. -/
def destinationBefore
    (rules : List RouteRule)
    (d : HostId)
    (dns : Resolver)
    (i : Nat) : HostId :=
  (locatedBefore rules d dns i).host

/- The rule at position `k` matches `d_k` and has a tunnel. -/
def Decides
    (rules : List RouteRule)
    (d : HostId)
    (dns : Resolver)
    (k : Nat) : Prop :=
  ∃ h : k < rules.length,
    rules[k].Matches (destinationBefore rules d dns k)
        d.port ∧
      rules[k].tunnels ≠ []

/- One rule's turn, in terms of matching and rewriting. -/
theorem locatedBefore_succ
    {rules : List RouteRule}
    (d : HostId)
    (dns : Resolver)
    {i : Nat}
    (hi : i < rules.length) :
    locatedBefore rules d dns (i + 1) =
      if rules[i].Matches (destinationBefore rules d dns i)
          d.port then
        rules[i].perform (locatedBefore rules d dns i)
      else locatedBefore rules d dns i := by
  unfold destinationBefore locatedBefore
  rw [RuleChain.state_succ _ _ hi, RuleChain.step]
  simp [meaning]

theorem decides_iff_selects
    (rules : List RouteRule)
    (d : HostId)
    (dns : Resolver)
    (k : Nat) :
    Decides rules d dns k ↔
      (meaning d.port).Selects rules ⟨d, dns⟩ k := by
  unfold Decides RuleChain.Selects destinationBefore
    locatedBefore meaning
  simp only [decide_eq_true_eq]

/- The engine's result through the chain's search. -/
theorem decideApplicableRule_eq_run
    (rules : List RouteRule)
    (con : ClientConnection)
    (dns : Resolver) :
    let found := (meaning con.dstHost.port).run 0 rules
      ⟨con.dstHost, dns⟩
    let out := decideApplicableRule rules con dns
    out.1 = (if found.1.isSome then 1 else 0) ∧
      out.2.1.route =
        some ((found.1.map fun rule =>
          RoutePtr.listed rule.1 rule.2).getD
            .defaultDirect) ∧
      out.2.1.dstHost = found.2.host ∧
      out.2.2 = found.2.dns ∧
      SameRequest con out.2.1 := by
  intro found out
  have hFresh :
      EngineState.Fresh
        ⟨con, dns, DstCache.load con.dstHost⟩ := rfl
  have hLoop :=
    ruleLoop_refines con.dstHost.port 0 rules hFresh
  rcases hLoop with ⟨hRoute, hLocated, hSame⟩
  have hFound :
      (meaning con.dstHost.port).run 0 rules
          (EngineState.located
            ⟨con, dns, DstCache.load con.dstHost⟩) =
        found := rfl
  rw [hFound] at hRoute hLocated
  have hHost := congrArg Located.host hLocated
  have hDns := congrArg Located.dns hLocated
  simp only [out]
  unfold decideApplicableRule
  rcases hRun : ruleLoop con.dstHost.port 0 rules
      ⟨con, dns, DstCache.load con.dstHost⟩ with
    ⟨route, st⟩
  rw [hRun] at hRoute hHost hDns hSame
  simp only [hRun]
  have hSame' :
      ∀ ptr : RoutePtr,
        SameRequest con { st.con with route := some ptr } :=
    fun ptr => hSame.trans rfl
  cases hFirst : found.1 with
  | none =>
      simp only [hFirst, Option.map_none] at hRoute
      subst hRoute
      exact ⟨rfl, rfl, hHost, hDns, hSame' _⟩
  | some rule =>
      simp only [hFirst, Option.map_some] at hRoute
      subst hRoute
      exact ⟨rfl, rfl, hHost, hDns, hSame' _⟩

/- Once a rule is found, later rules are not looked at. -/
theorem ruleLoop_append
    (requestedPort : Int)
    (i : Nat)
    (front later : List RouteRule)
    {st : EngineState}
    (hFound :
      (ruleLoop requestedPort i front st).1.isSome) :
    ruleLoop requestedPort i (front ++ later) st =
      ruleLoop requestedPort i front st := by
  induction front generalizing i st with
  | nil => simp [ruleLoop] at hFound
  | cons r front ih =>
      rw [List.cons_append]
      unfold ruleLoop at hFound ⊢
      by_cases hApplies :
          thisRouteApplies r st.cache requestedPort = true
      · simp only [hApplies, if_true] at hFound ⊢
        by_cases hTunnel : r.hasTunnel = true
        · simp only [hTunnel, if_true]
        · simp only [hTunnel] at hFound ⊢
          exact ih (i + 1) hFound
      · simp only [hApplies] at hFound ⊢
        exact ih (i + 1) hFound

/- A decision is made by the rules up to the deciding one. -/
theorem decideApplicableRule_take
    {rules : List RouteRule}
    {con : ClientConnection}
    {dns : Resolver}
    {k : Nat}
    (hDecides : Decides rules con.dstHost dns k)
    (hLeast :
      ∀ j < k, ¬ Decides rules con.dstHost dns j)
    (later : List RouteRule) :
    decideApplicableRule (rules.take (k + 1) ++ later)
        con dns =
      decideApplicableRule (rules.take (k + 1)) con dns := by
  let st : EngineState :=
    ⟨con, dns, DstCache.load con.dstHost⟩
  have hFound :
      (ruleLoop con.dstHost.port 0 (rules.take (k + 1))
        st).1.isSome := by
    have hk := hDecides.1
    have hStates :
        ∀ i ≤ k + 1,
          (meaning con.dstHost.port).state
              (rules.take (k + 1)) ⟨con.dstHost, dns⟩ i =
            (meaning con.dstHost.port).state rules
              ⟨con.dstHost, dns⟩ i :=
      RuleChain.state_eq_of_take _ _ (by simp)
    have hSelects :
        ∀ j ≤ k,
          (meaning con.dstHost.port).Selects
              (rules.take (k + 1)) ⟨con.dstHost, dns⟩ j ↔
            Decides rules con.dstHost dns j := by
      intro j hj
      rw [decides_iff_selects]
      unfold RuleChain.Selects
      rw [hStates j (by omega)]
      have hLength : j < (rules.take (k + 1)).length := by
        rw [List.length_take]
        omega
      simp [List.getElem_take, hj,
        show j < rules.length by omega]
    have hRun :=
      RuleChain.run_of_least (meaning con.dstHost.port)
        0 ((hSelects k (le_refl k)).mpr hDecides)
        (fun j hj hSel => hLeast j hj
          ((hSelects j hj.le).mp hSel))
    have hFresh : st.Fresh := rfl
    have hLoop := (ruleLoop_refines con.dstHost.port 0
      (rules.take (k + 1)) hFresh).1
    have hLocated : st.located = ⟨con.dstHost, dns⟩ := rfl
    rw [hLoop, hLocated, hRun]
    rfl
  have hAppend := ruleLoop_append con.dstHost.port 0
    (rules.take (k + 1)) later hFound
  unfold decideApplicableRule
  simp only [st] at hAppend
  simp only [hAppend]

/- Of the rules that decide, one is the first. -/
theorem decides_least
    {rules : List RouteRule}
    {d : HostId}
    {dns : Resolver}
    (hSome : ∃ k, Decides rules d dns k) :
    ∃ k, Decides rules d dns k ∧
      ∀ j < k, ¬ Decides rules d dns j := by
  classical
  exact ⟨Nat.find hSome, Nat.find_spec hSome,
    fun _ hj => Nat.find_min hSome hj⟩

/-
  The engine refines the meaning of its rule list.  With
  `d i` the destination before the `i`th rule, the least rule
  that matches its `d k` and has a tunnel is chosen, with the
  destination `d (k+1)` and whatever rules come later; when
  there is none, the fallback rule is chosen and every rule
  has taken its turn.  The original request is kept.
-/
theorem decideApplicableRule_refines
    (rules : List RouteRule)
    (con : ClientConnection)
    (dns : Resolver) :
    let d := destinationBefore rules con.dstHost dns
    let out := decideApplicableRule rules con dns
    (∀ k, (hk : k < rules.length) →
      Decides rules con.dstHost dns k →
      (∀ j < k, ¬ Decides rules con.dstHost dns j) →
      out.1 = 1 ∧
        out.2.1.route = some (.listed k rules[k]) ∧
        out.2.1.dstHost = d (k + 1) ∧
        ∀ later,
          decideApplicableRule
            (rules.take (k + 1) ++ later) con dns = out) ∧
    ((∀ k, ¬ Decides rules con.dstHost dns k) →
      out.1 = 0 ∧
        out.2.1.route = some .defaultDirect ∧
        out.2.1.dstHost = d rules.length) ∧
    out.2.1.dstHostOriginal = con.dstHostOriginal ∧
    out.2.1.socksAddressTypeOriginal =
      con.socksAddressTypeOriginal ∧
    out.2.1.socksCommandOriginal =
      con.socksCommandOriginal := by
  intro d out
  have hOut := decideApplicableRule_eq_run rules con dns
  rcases hOut with ⟨hRc, hRoute, hHost, _, hSame⟩
  refine ⟨?_, ?_, ?_, ?_, ?_⟩
  · intro k hk hDecides hLeast
    have hRun :=
      RuleChain.run_of_least (meaning con.dstHost.port)
        0 ((decides_iff_selects rules _ dns k).mp hDecides)
        (fun j hj hSel => hLeast j hj
          ((decides_iff_selects rules _ dns j).mpr hSel))
    rw [hRun] at hRc hRoute hHost
    refine ⟨hRc, ?_, hHost, ?_⟩
    · simpa using hRoute
    · intro later
      have hTake :=
        decideApplicableRule_take hDecides hLeast
      rw [hTake later, ← hTake (rules.drop (k + 1)),
        List.take_append_drop]
  · intro hNone
    have hUnselected :
        ∀ k, ¬ (meaning con.dstHost.port).Selects rules
          ⟨con.dstHost, dns⟩ k := fun k hSel =>
      hNone k ((decides_iff_selects rules _ dns k).mpr hSel)
    have hRun :=
      RuleChain.run_of_none (meaning con.dstHost.port) 0
        hUnselected
    rw [hRun] at hRc hRoute hHost
    exact ⟨hRc, hRoute, hHost⟩
  · rw [show out.2.1 = _ from hSame]
  · rw [show out.2.1 = _ from hSame]
  · rw [show out.2.1 = _ from hSame]

------------------------------------------------------------
-- What Applied Rules Preserve
------------------------------------------------------------

/- The rule at position `k` is reached and applies. -/
structure AppliesAt
    (rules : List RouteRule)
    (d : HostId)
    (dns : Resolver)
    (k : Nat)
    (r : RouteRule) : Prop where
  rule : rules[k]? = some r
  applies :
    r.Matches (destinationBefore rules d dns k) d.port
  reached : ∀ j < k, ¬ Decides rules d dns j

/- The rules that the engine applies are the ones meant. -/
theorem appliesAt_of_applied
    {rules : List RouteRule}
    {con : ClientConnection}
    {dns : Resolver}
    {k : Nat}
    {r : RouteRule}
    (hApplied :
      (engineChain con.dstHost.port).Applied rules
        ⟨con, dns, DstCache.load con.dstHost⟩ k r) :
    AppliesAt rules con.dstHost dns k r := by
  have hFresh :
      EngineState.Fresh
        ⟨con, dns, DstCache.load con.dstHost⟩ := rfl
  have hMeant :=
    (engineChain_refines con.dstHost.port).applied hFresh
      hApplied
  exact
    { rule := hMeant.rule
      applies := of_decide_eq_true hMeant.applies
      reached := fun j hj hDecides =>
        hMeant.reached j hj
          ((decides_iff_selects rules _ dns j).mp
            hDecides) }

/-
  What every applied rule preserves holds of the connection
  that the engine leaves.
-/
theorem decideApplicableRule_invariant
    (P : ClientConnection → Prop)
    {rules : List RouteRule}
    {con : ClientConnection}
    {dns : Resolver}
    (hRoute :
      ∀ con' route, P con' → P { con' with route := route })
    (hInit : P con)
    (hStep : ∀ k r st, AppliesAt rules con.dstHost dns k r →
      st.Fresh →
      st.con.dstHost =
        destinationBefore rules con.dstHost dns k →
      P st.con →
      P (applyResolveDns r (applyTo r st)).con) :
    P (decideApplicableRule rules con dns).2.1 := by
  let st : EngineState :=
    ⟨con, dns, DstCache.load con.dstHost⟩
  have hLoop :
      P (ruleLoop con.dstHost.port 0 rules st).2.con := by
    have hState :=
      (engineChain_refines con.dstHost.port).state rules
        (s := st) rfl
    rw [ruleLoop_eq_run]
    apply (engineChain con.dstHost.port).run_invariant
      (fun st' => P st'.con) 0
    · exact hInit
    · intro k r hApplied hHere
      exact hStep k r _ (appliesAt_of_applied hApplied)
        (hState k).1
        (congrArg Located.host (hState k).2) hHere
  unfold decideApplicableRule
  rcases hDecision :
      ruleLoop con.dstHost.port 0 rules st with
    ⟨route, st'⟩
  rw [hDecision] at hLoop
  simp only [st] at hDecision
  simp only [hDecision]
  cases route with
  | some route => exact hRoute _ _ hLoop
  | none => exact hRoute _ _ hLoop

end SmartSOCKSProxy
