import SmartSOCKSProxy.Routing.Meaning

/-
  Letter case in routing.

  Of the criteria on text, `contains` ignores letter case,
  `is` and `startsWith` do not, and `endsWith` folds only the
  name.  Two destinations that differ in letter case are
  routed alike until one of these three tells them apart.

  Key definitions include:
    * `CaseVariant`, `RouteRule.CaseVariant`
    * `SameSpelled`, `TreatsAlike`, `SameDecision`

  Key theorems include:
    * `otherCriteria_congr`, `SameSpelled.perform`
    * `locatedBefore_sameSpelled`
    * `route_position_iff`
    * `letterCase_ignored_of_treatsAlike`
-/

namespace SmartSOCKSProxy

------------------------------------------------------------
-- Case Variants
------------------------------------------------------------

/- Texts that differ in letter case only. -/
def CaseVariant
    (t t' : Text) : Prop :=
  Text.lower t = Text.lower t'

theorem CaseVariant.eq_nil_iff
    {t t' : Text}
    (hCase : CaseVariant t t') :
    t = [] ↔ t' = [] := by
  have hLength := congrArg List.length hCase
  unfold Text.lower at hLength
  rw [List.length_map, List.length_map] at hLength
  rw [← List.length_eq_zero_iff, hLength,
    List.length_eq_zero_iff]

/- Only the name differs, and only in letter case. -/
structure HostId.CaseVariant
    (d d' : HostId) : Prop where
  name : SmartSOCKSProxy.CaseVariant d.name.text d'.name.text
  addr : d'.addr = d.addr
  port : d'.port = d.port

/- A rule without the texts of its criteria. -/
def RouteRule.withoutTexts
    (r : RouteRule) : RouteRule :=
  { r with
    matchIs := CBuf.empty
    matchStartsWith := CBuf.empty
    matchEndsWith := CBuf.empty
    matchContains := CBuf.empty }

/- Only the texts differ, and only in letter case. -/
structure RouteRule.CaseVariant
    (r r' : RouteRule) : Prop where
  is :
    SmartSOCKSProxy.CaseVariant r.matchIs.text
      r'.matchIs.text
  startsWith :
    SmartSOCKSProxy.CaseVariant r.matchStartsWith.text
      r'.matchStartsWith.text
  endsWith :
    SmartSOCKSProxy.CaseVariant r.matchEndsWith.text
      r'.matchEndsWith.text
  contains :
    SmartSOCKSProxy.CaseVariant r.matchContains.text
      r'.matchContains.text
  rest : r.withoutTexts = r'.withoutTexts

/- What is no text is the same. -/
theorem RouteRule.CaseVariant.field
    {α : Type}
    {r r' : RouteRule}
    (hRule : r.CaseVariant r')
    (f : RouteRule → α) :
    f r.withoutTexts = f r'.withoutTexts :=
  congrArg f hRule.rest

/- A resolver that does not see letter case. -/
def Resolver.CaseBlind
    (dns : Resolver) : Prop :=
  ∀ lookup t t', CaseVariant t t' →
    dns.reply lookup t = dns.reply lookup t'

theorem HostId.CaseVariant.hasName
    {d d' : HostId}
    (hCase : d.CaseVariant d') :
    d.hasName = d'.hasName := by
  unfold HostId.hasName
  rw [decide_eq_decide]
  exact not_congr hCase.name.eq_nil_iff

theorem HostId.CaseVariant.ipv4
    {d d' : HostId}
    (hCase : d.CaseVariant d') :
    d'.ipv4 = d.ipv4 := by
  unfold HostId.ipv4
  rw [hCase.addr]

------------------------------------------------------------
-- Criteria
------------------------------------------------------------

/- The criteria that see letter case. -/
structure RouteRule.CaseCriteria
    (r : RouteRule)
    (d : HostId) : Prop where
  is : d.Meets (fun t p => t = p) r.matchIs.text
  startsWith :
    d.Meets (fun t p => p <+: t) r.matchStartsWith.text
  endsWith :
    d.Meets (fun t p => p <:+ Text.lower t)
      r.matchEndsWith.text

/- The criteria that do not. -/
structure RouteRule.OtherCriteria
    (r : RouteRule)
    (d : HostId)
    (requestedPort : Int) : Prop where
  contains :
    d.Meets (fun t p => Text.lower p <:+: Text.lower t)
      r.matchContains.text
  port : r.matchPort = 0 ∨ r.matchPort = requestedPort
  network : r.haveMatchIpv4 = true →
    d.InNetwork r.matchIpv4Addr r.matchIpv4Mask
  map : r.haveMapIpv4 = true →
    d.InNetwork r.mapIpv4Addr r.mapIpv4Mask

theorem matches_iff_criteria
    (r : RouteRule)
    (d : HostId)
    (requestedPort : Int) :
    r.Matches d requestedPort ↔
      r.OtherCriteria d requestedPort ∧ r.CaseCriteria d := by
  constructor
  · intro h
    exact ⟨⟨h.contains, h.port, h.network, h.map⟩,
      ⟨h.is, h.startsWith, h.endsWith⟩⟩
  · rintro ⟨hOther, hCase⟩
    exact ⟨hCase.is, hCase.startsWith, hCase.endsWith,
      hOther.contains, hOther.port, hOther.network,
      hOther.map⟩

/- `contains` does not see letter case. -/
theorem meets_contains_congr
    {d d' : HostId}
    (hCase : d.CaseVariant d')
    {p p' : Text}
    (hPattern : CaseVariant p p')
    (hMeets :
      d.Meets (fun t p => Text.lower p <:+: Text.lower t) p) :
    d'.Meets (fun t p => Text.lower p <:+: Text.lower t)
      p' := by
  rcases hMeets with hNone | ⟨t, hKnown, hInfix⟩
  · exact .inl (hPattern.eq_nil_iff.mp hNone)
  right
  rcases hKnown with ⟨hName, rfl⟩ | hAddr
  · refine ⟨d'.name.text, .inl ⟨?_, rfl⟩, ?_⟩
    · exact fun hNone =>
        hName (hCase.name.eq_nil_iff.mpr hNone)
    · change Text.lower p' <:+: Text.lower d'.name.text
      rw [← hCase.name, ← hPattern]
      exact hInfix
  · refine ⟨t, .inr ?_, ?_⟩
    · unfold HostId.addrStr at hAddr ⊢
      rw [hCase.addr]
      exact hAddr
    · change Text.lower p' <:+: Text.lower t
      rw [← hPattern]
      exact hInfix

theorem HostId.CaseVariant.symm
    {d d' : HostId}
    (hCase : d.CaseVariant d') :
    d'.CaseVariant d :=
  ⟨hCase.name.symm, hCase.addr.symm, hCase.port.symm⟩

theorem RouteRule.CaseVariant.symm
    {r r' : RouteRule}
    (hRule : r.CaseVariant r') :
    r'.CaseVariant r :=
  ⟨hRule.is.symm, hRule.startsWith.symm, hRule.endsWith.symm,
    hRule.contains.symm, hRule.rest.symm⟩

/- Nor do the criteria that have no text. -/
theorem RouteRule.OtherCriteria.variant
    {r r' : RouteRule}
    (hRule : r.CaseVariant r')
    {d d' : HostId}
    (hCase : d.CaseVariant d')
    {requestedPort : Int}
    (hOther : r.OtherCriteria d requestedPort) :
    r'.OtherCriteria d' requestedPort := by
  have hPort : r.matchPort = r'.matchPort :=
    hRule.field RouteRule.matchPort
  have hHave : r.haveMatchIpv4 = r'.haveMatchIpv4 :=
    hRule.field RouteRule.haveMatchIpv4
  have hAddr : r.matchIpv4Addr = r'.matchIpv4Addr :=
    hRule.field RouteRule.matchIpv4Addr
  have hMask : r.matchIpv4Mask = r'.matchIpv4Mask :=
    hRule.field RouteRule.matchIpv4Mask
  have hHaveMap : r.haveMapIpv4 = r'.haveMapIpv4 :=
    hRule.field RouteRule.haveMapIpv4
  have hMapAddr : r.mapIpv4Addr = r'.mapIpv4Addr :=
    hRule.field RouteRule.mapIpv4Addr
  have hMapMask : r.mapIpv4Mask = r'.mapIpv4Mask :=
    hRule.field RouteRule.mapIpv4Mask
  have hNetwork : ∀ net mask,
      d.InNetwork net mask → d'.InNetwork net mask := by
    intro net mask hInside
    unfold HostId.InNetwork at hInside ⊢
    rw [hCase.ipv4]
    exact hInside
  refine ⟨meets_contains_congr hCase hRule.contains
    hOther.contains, ?_, ?_, ?_⟩
  · rw [← hPort]
    exact hOther.port
  · rw [← hHave, ← hAddr, ← hMask]
    exact fun hFlag => hNetwork _ _ (hOther.network hFlag)
  · rw [← hHaveMap, ← hMapAddr, ← hMapMask]
    exact fun hFlag => hNetwork _ _ (hOther.map hFlag)

theorem otherCriteria_congr
    {r r' : RouteRule}
    (hRule : r.CaseVariant r')
    {d d' : HostId}
    (hCase : d.CaseVariant d')
    (requestedPort : Int) :
    r.OtherCriteria d requestedPort ↔
      r'.OtherCriteria d' requestedPort :=
  ⟨RouteRule.OtherCriteria.variant hRule hCase,
    RouteRule.OtherCriteria.variant hRule.symm hCase.symm⟩

------------------------------------------------------------
-- Rewriting
------------------------------------------------------------

/- The two runs are where they were, up to letter case. -/
structure SameSpelled
    (s s' : Located) : Prop where
  host : s.host.CaseVariant s'.host
  dns : s.dns = s'.dns

namespace SameSpelled

variable {s s' : Located}
variable {r r' : RouteRule}
variable (hRule : r.CaseVariant r')
variable (hSame : SameSpelled s s')

include hRule hSame

theorem rewriteTo :
    (r.rewriteTo s.host).CaseVariant
      (r'.rewriteTo s'.host) := by
  have hTo : r.haveToIpv4 = r'.haveToIpv4 :=
    hRule.field RouteRule.haveToIpv4
  have hToAddr : r.toIpv4Addr = r'.toIpv4Addr :=
    hRule.field RouteRule.toIpv4Addr
  have hToMask : r.toIpv4Mask = r'.toIpv4Mask :=
    hRule.field RouteRule.toIpv4Mask
  have hNew : ∀ addr, r.toAddr addr = r'.toAddr addr := by
    intro addr
    unfold RouteRule.toAddr
    rw [hToAddr, hToMask]
  unfold RouteRule.rewriteTo
  rw [← hTo, hSame.host.ipv4]
  cases r.haveToIpv4 with
  | false => exact hSame.host
  | true =>
      cases s.host.ipv4 with
      | none => exact hSame.host
      | some addr =>
          refine ⟨rfl, ?_, ?_⟩
          · dsimp only
            rw [hSame.host.port, hNew]
          · dsimp only
            rw [hSame.host.port]

omit hRule in
/- A lookup is answered alike. -/
theorem resolveDns
    (hBlind : s.dns.CaseBlind) :
    SameSpelled
      ⟨(resolveDnsForHostId s.host s.dns).2.1,
        (resolveDnsForHostId s.host s.dns).2.2⟩
      ⟨(resolveDnsForHostId s'.host s'.dns).2.1,
        (resolveDnsForHostId s'.host s'.dns).2.2⟩ := by
  have hReply :
      s.dns.reply s.dns.lookups s.host.name.text =
        s'.dns.reply s'.dns.lookups s'.host.name.text := by
    rw [← hSame.dns]
    exact hBlind _ _ _ hSame.host.name
  unfold resolveDnsForHostId
  rw [← hSame.host.hasName, ← hReply, ← hSame.dns,
    hSame.host.port]
  cases s.host.hasName with
  | false => exact ⟨hSame.host, rfl⟩
  | true =>
      cases s.dns.reply s.dns.lookups s.host.name.text with
      | failure code => exact ⟨hSame.host, rfl⟩
      | addresses first rest =>
          exact ⟨⟨hSame.host.name, rfl, rfl⟩, rfl⟩

/- Rules that both apply keep the runs together. -/
theorem perform
    (hBlind : s.dns.CaseBlind) :
    SameSpelled (r.perform s) (r'.perform s') := by
  have hDns : r.resolveDns = r'.resolveDns :=
    hRule.field RouteRule.resolveDns
  have hRewritten :
      SameSpelled ⟨r.rewriteTo s.host, s.dns⟩
        ⟨r'.rewriteTo s'.host, s'.dns⟩ :=
    ⟨hSame.rewriteTo hRule, hSame.dns⟩
  unfold RouteRule.perform RouteRule.resolve
  rw [← hDns]
  cases r.resolveDns with
  | false => exact hRewritten
  | true => exact hRewritten.resolveDns hBlind

end SameSpelled

/- A rule that changes nothing and decides nothing. -/
def RouteRule.Inert
    (r : RouteRule) : Prop :=
  r.tunnels = [] ∧ r.haveToIpv4 = false ∧
    r.resolveDns = false

theorem RouteRule.Inert.perform
    {r : RouteRule}
    (hInert : r.Inert)
    (s : Located) :
    r.perform s = s := by
  unfold RouteRule.perform RouteRule.resolve
    RouteRule.rewriteTo
  rw [hInert.2.1, hInert.2.2]
  rfl

theorem RouteRule.Inert.variant
    {r r' : RouteRule}
    (hRule : r.CaseVariant r')
    (hInert : r.Inert) :
    r'.Inert := by
  have hTunnels : r.tunnels = r'.tunnels :=
    hRule.field RouteRule.tunnels
  have hTo : r.haveToIpv4 = r'.haveToIpv4 :=
    hRule.field RouteRule.haveToIpv4
  have hDns : r.resolveDns = r'.resolveDns :=
    hRule.field RouteRule.resolveDns
  unfold RouteRule.Inert
  rw [← hTunnels, ← hTo, ← hDns]
  exact hInert

------------------------------------------------------------
-- Two Runs
------------------------------------------------------------

section Runs

variable (rules rules' : List RouteRule)
variable (d d' : HostId)
variable (dns : Resolver)

/-
  The rule at a position does the same for both: it does
  nothing at all, or a criterion that does not see letter case
  fails, or those that do are met by both or by neither.
-/
def TreatsAlike
    (k : Nat) : Prop :=
  ∀ r ∈ rules[k]?, ∀ r' ∈ rules'[k]?,
    r.Inert ∨
      (r.OtherCriteria (destinationBefore rules d dns k)
          d.port →
        (r.CaseCriteria (destinationBefore rules d dns k) ↔
          r'.CaseCriteria
            (destinationBefore rules' d' dns k)))

/- No rule before the position decides. -/
def Reached
    (k : Nat) : Prop :=
  ∀ j < k, ¬Decides rules d dns j

end Runs

/- Resolution does not change what a resolver answers. -/
theorem perform_caseBlind
    (r : RouteRule)
    {s : Located}
    (hBlind : s.dns.CaseBlind) :
    (r.perform s).dns.CaseBlind := by
  unfold RouteRule.perform RouteRule.resolve
  cases r.resolveDns with
  | false => exact hBlind
  | true =>
      rw [if_pos rfl]
      dsimp only
      unfold resolveDnsForHostId
      split
      · split <;> exact hBlind
      · exact hBlind

section Runs

variable {rules rules' : List RouteRule}
variable {d d' : HostId}
variable {dns : Resolver}

theorem Reached.of_le
    {j k : Nat}
    (hReached : Reached rules d dns k)
    (hLe : j ≤ k) :
    Reached rules d dns j :=
  fun i hi => hReached i (hi.trans_le hLe)

variable (hRules :
  List.Forall₂ RouteRule.CaseVariant rules rules')
variable (hCase : d.CaseVariant d')

include hRules hCase

/- A rule that treats both alike applies to both or neither. -/
theorem TreatsAlike.matches_iff
    {k : Nat}
    (hk : k < rules.length)
    (hk' : k < rules'.length)
    (hSame :
      SameSpelled (locatedBefore rules d dns k)
        (locatedBefore rules' d' dns k))
    (hAlike : TreatsAlike rules rules' d d' dns k) :
    rules[k].Inert ∨
      (rules[k].Matches (destinationBefore rules d dns k)
          d.port ↔
        rules'[k].Matches (destinationBefore rules' d' dns k)
          d'.port) := by
  have hRule : rules[k].CaseVariant rules'[k] :=
    hRules.get hk hk'
  rcases hAlike _ (List.getElem?_eq_getElem hk) _
      (List.getElem?_eq_getElem hk') with hInert | hCriteria
  · exact .inl hInert
  right
  have hOther :
      rules[k].OtherCriteria (destinationBefore rules d dns k)
          d.port ↔
        rules'[k].OtherCriteria
          (destinationBefore rules' d' dns k) d.port :=
    otherCriteria_congr hRule hSame.host d.port
  rw [matches_iff_criteria, matches_iff_criteria, hCase.port,
    ← hOther]
  exact and_congr_right hCriteria

/- The converse: then no criterion sees a difference. -/
theorem TreatsAlike.of_matches_iff
    {k : Nat}
    (hk : k < rules.length)
    (hk' : k < rules'.length)
    (hSame :
      SameSpelled (locatedBefore rules d dns k)
        (locatedBefore rules' d' dns k))
    (hMatches :
      rules[k].Matches (destinationBefore rules d dns k)
          d.port ↔
        rules'[k].Matches (destinationBefore rules' d' dns k)
          d'.port) :
    TreatsAlike rules rules' d d' dns k := by
  have hOther :
      rules[k].OtherCriteria (destinationBefore rules d dns k)
          d.port ↔
        rules'[k].OtherCriteria
          (destinationBefore rules' d' dns k) d.port :=
    otherCriteria_congr (hRules.get hk hk') hSame.host d.port
  rw [matches_iff_criteria, matches_iff_criteria, hCase.port,
    ← hOther] at hMatches
  intro r hr r' hr'
  rw [Option.mem_def, List.getElem?_eq_getElem hk,
    Option.some_inj] at hr
  rw [Option.mem_def, List.getElem?_eq_getElem hk',
    Option.some_inj] at hr'
  subst hr hr'
  right
  intro hHere
  rw [and_iff_right hHere, and_iff_right hHere] at hMatches
  exact hMatches

/- It keeps the runs together. -/
theorem sameSpelled_succ
    {k : Nat}
    (hk : k < rules.length)
    (hBlind : (locatedBefore rules d dns k).dns.CaseBlind)
    (hSame :
      SameSpelled (locatedBefore rules d dns k)
        (locatedBefore rules' d' dns k))
    (hAlike : TreatsAlike rules rules' d d' dns k) :
    SameSpelled (locatedBefore rules d dns (k + 1))
        (locatedBefore rules' d' dns (k + 1)) ∧
      (locatedBefore rules d dns (k + 1)).dns.CaseBlind := by
  have hk' : k < rules'.length := hRules.length_eq ▸ hk
  have hRule : rules[k].CaseVariant rules'[k] :=
    hRules.get hk hk'
  rw [locatedBefore_succ d dns hk,
    locatedBefore_succ d' dns hk']
  rcases hAlike.matches_iff hRules hCase hk hk' hSame with
    hInert | hMatches
  · rw [hInert.perform, (hInert.variant hRule).perform,
      ite_self, ite_self]
    exact ⟨hSame, hBlind⟩
  · by_cases hHere :
        rules[k].Matches (destinationBefore rules d dns k)
          d.port
    · rw [if_pos hHere, if_pos (hMatches.mp hHere)]
      exact ⟨hSame.perform hRule hBlind,
        perform_caseBlind _ hBlind⟩
    · rw [if_neg hHere,
        if_neg (fun hThere => hHere (hMatches.mpr hThere))]
      exact ⟨hSame, hBlind⟩

/- It decides for both or for neither. -/
theorem decides_iff_of_treatsAlike
    {k : Nat}
    (hk : k < rules.length)
    (hSame :
      SameSpelled (locatedBefore rules d dns k)
        (locatedBefore rules' d' dns k))
    (hAlike : TreatsAlike rules rules' d d' dns k) :
    Decides rules d dns k ↔ Decides rules' d' dns k := by
  have hk' : k < rules'.length := hRules.length_eq ▸ hk
  have hRule : rules[k].CaseVariant rules'[k] :=
    hRules.get hk hk'
  have hTunnels : rules[k].tunnels = rules'[k].tunnels :=
    hRule.field RouteRule.tunnels
  unfold Decides
  rcases hAlike.matches_iff hRules hCase hk hk' hSame with
    hInert | hMatches
  · apply iff_of_false
    · exact fun hDecides => hDecides.2.2 hInert.1
    · exact fun hDecides => hDecides.2.2
        (hTunnels.symm.trans hInert.1)
  · constructor
    · rintro ⟨_, hHere, hSome⟩
      exact ⟨hk', hMatches.mp hHere, hTunnels ▸ hSome⟩
    · rintro ⟨_, hHere, hSome⟩
      exact ⟨hk, hMatches.mpr hHere, hTunnels ▸ hSome⟩

/- As long as rules treat both alike, nothing differs. -/
theorem locatedBefore_sameSpelled
    (hBlind : dns.CaseBlind)
    {k : Nat}
    (hLe : k ≤ rules.length)
    (hReached : Reached rules d dns k)
    (hAlike :
      ∀ j < k, TreatsAlike rules rules' d d' dns j) :
    SameSpelled (locatedBefore rules d dns k)
        (locatedBefore rules' d' dns k) ∧
      (locatedBefore rules d dns k).dns.CaseBlind ∧
      Reached rules' d' dns k := by
  induction k with
  | zero =>
      exact ⟨⟨hCase, rfl⟩, hBlind, fun j hj => absurd hj
        (Nat.not_lt_zero j)⟩
  | succ k ih =>
      rcases ih (Nat.le_of_succ_le hLe)
          (hReached.of_le (Nat.le_succ k))
          (fun j hj => hAlike j (Nat.lt_succ_of_lt hj)) with
        ⟨hSame, hBlindHere, hReached'⟩
      have hHere := hAlike k (Nat.lt_succ_self k)
      rcases sameSpelled_succ hRules hCase hLe hBlindHere
          hSame hHere with ⟨hNext, hBlindNext⟩
      refine ⟨hNext, hBlindNext, ?_⟩
      intro j hj
      rcases Nat.lt_succ_iff_lt_or_eq.mp hj with hj | rfl
      · exact hReached' j hj
      · rw [← decides_iff_of_treatsAlike hRules hCase hLe
          hSame hHere]
        exact hReached j (Nat.lt_succ_self j)

end Runs

------------------------------------------------------------
-- Decisions
------------------------------------------------------------

/- The position of a rule in its list. -/
def RoutePtr.position : RoutePtr → Option Nat
  | .listed index _ => some index
  | .defaultDirect => none

/- The same rule position is selected, and the same address. -/
def SameDecision
    (out out' : Int × ClientConnection × Resolver) : Prop :=
  out.1 = out'.1 ∧
    out.2.1.route.map RoutePtr.position =
      out'.2.1.route.map RoutePtr.position ∧
    out.2.1.dstHost.addr = out'.2.1.dstHost.addr

/- There is a first rule that decides, or there is none. -/
theorem decides_first_or_none
    (rules : List RouteRule)
    (d : HostId)
    (dns : Resolver) :
    (∃ k, Decides rules d dns k ∧ Reached rules d dns k) ∨
      ∀ k, ¬Decides rules d dns k := by
  by_cases hSome : ∃ k, Decides rules d dns k
  · exact .inl (decides_least hSome)
  · exact .inr (not_exists.mp hSome)

/- The position is that of the first rule that decides. -/
theorem route_position_iff
    (rules : List RouteRule)
    (con : ClientConnection)
    (dns : Resolver)
    (k : Nat) :
    (decideApplicableRule rules con dns).2.1.route.map
          RoutePtr.position =
        some (some k) ↔
      Decides rules con.dstHost dns k ∧
        Reached rules con.dstHost dns k := by
  rcases decideApplicableRule_refines rules con dns with
    ⟨hFirst, hDefault, _⟩
  constructor
  · intro hPosition
    rcases decides_first_or_none rules con.dstHost dns with
      ⟨m, hDecides, hReached⟩ | hNone
    · rw [(hFirst m hDecides.1 hDecides hReached).2.1]
        at hPosition
      cases hPosition
      exact ⟨hDecides, hReached⟩
    · rw [(hDefault hNone).2.1] at hPosition
      cases hPosition
  · rintro ⟨hDecides, hReached⟩
    rw [(hFirst k hDecides.1 hDecides hReached).2.1]
    rfl

section Decisions

variable {rules rules' : List RouteRule}
variable {con con' : ClientConnection}
variable {dns : Resolver}
variable (hRules :
  List.Forall₂ RouteRule.CaseVariant rules rules')
variable (hCase : con.dstHost.CaseVariant con'.dstHost)
variable (hBlind : dns.CaseBlind)

include hRules hCase hBlind

/- Rules that treat both alike decide both alike. -/
theorem sameDecision_of_treatsAlike
    (hAlike :
      ∀ k, Reached rules con.dstHost dns k →
        TreatsAlike rules rules' con.dstHost con'.dstHost dns
          k) :
    SameDecision (decideApplicableRule rules con dns)
      (decideApplicableRule rules' con' dns) := by
  rcases decideApplicableRule_refines rules con dns with
    ⟨hFirst, hDefault, _⟩
  rcases decideApplicableRule_refines rules' con' dns with
    ⟨hFirst', hDefault', _⟩
  rcases decides_first_or_none rules con.dstHost dns with
    ⟨k, hDecides, hReached⟩ | hNone
  · have hk := hDecides.1
    have hHere := hAlike k hReached
    rcases locatedBefore_sameSpelled hRules hCase hBlind hk.le
        hReached
        (fun j hj => hAlike j (hReached.of_le hj.le)) with
      ⟨hSame, hBlindHere, hReached'⟩
    have hDecides' :=
      (decides_iff_of_treatsAlike hRules hCase hk hSame
        hHere).mp hDecides
    have hNext := (sameSpelled_succ hRules hCase hk hBlindHere
      hSame hHere).1
    rcases hFirst k hk hDecides hReached with
      ⟨hRc, hRoute, hHost, _⟩
    rcases hFirst' k hDecides'.1 hDecides' hReached' with
      ⟨hRc', hRoute', hHost', _⟩
    refine ⟨hRc.trans hRc'.symm, ?_, ?_⟩
    · rw [hRoute, hRoute']
      rfl
    · rw [hHost, hHost']
      exact hNext.host.addr.symm
  · have hAll : Reached rules con.dstHost dns rules.length :=
      fun j _ => hNone j
    rcases locatedBefore_sameSpelled hRules hCase hBlind
        le_rfl hAll (fun j _ => hAlike j fun i _ => hNone i)
      with ⟨hSame, _, hReached'⟩
    have hNone' :
        ∀ k, ¬Decides rules' con'.dstHost dns k := by
      intro k hDecides
      refine hReached' k ?_ hDecides
      rw [hRules.length_eq]
      exact hDecides.1
    rcases hDefault hNone with ⟨hRc, hRoute, hHost⟩
    rcases hDefault' hNone' with ⟨hRc', hRoute', hHost'⟩
    refine ⟨hRc.trans hRc'.symm, ?_, ?_⟩
    · rw [hRoute, hRoute']
    · rw [hHost, hHost', ← hRules.length_eq]
      exact hSame.host.addr.symm

/-
  The first rule that treats them differently decides for one
  of them only, when it has a tunnel.
-/
theorem not_sameDecision_of_tunnel
    {k : Nat}
    {r : RouteRule}
    (hRule : rules[k]? = some r)
    (hTunnels : r.tunnels ≠ [])
    (hReached : Reached rules con.dstHost dns k)
    (hBefore :
      ∀ j < k,
        TreatsAlike rules rules' con.dstHost con'.dstHost dns
          j)
    (hHere :
      ¬TreatsAlike rules rules' con.dstHost con'.dstHost dns
        k) :
    ¬SameDecision (decideApplicableRule rules con dns)
      (decideApplicableRule rules' con' dns) := by
  intro hDecision
  rcases List.getElem?_eq_some_iff.mp hRule with ⟨hk, rfl⟩
  have hk' : k < rules'.length := hRules.length_eq ▸ hk
  rcases locatedBefore_sameSpelled hRules hCase hBlind hk.le
      hReached hBefore with ⟨hSame, _, hReached'⟩
  have hTunnels' : rules'[k].tunnels ≠ [] := by
    have hFields : rules[k].tunnels = rules'[k].tunnels :=
      (hRules.get hk hk').field RouteRule.tunnels
    rw [← hFields]
    exact hTunnels
  have hDecides :
      Decides rules con.dstHost dns k ↔
        Decides rules' con'.dstHost dns k := by
    have hPosition := route_position_iff rules con dns k
    have hPosition' := route_position_iff rules' con' dns k
    rw [and_iff_left hReached] at hPosition
    rw [and_iff_left hReached'] at hPosition'
    rw [← hPosition, ← hPosition', hDecision.2.1]
  apply hHere
  apply TreatsAlike.of_matches_iff hRules hCase hk hk' hSame
  constructor
  · intro hMatches
    exact (hDecides.mp ⟨hk, hMatches, hTunnels⟩).2.1
  · intro hMatches
    exact (hDecides.mpr ⟨hk', hMatches, hTunnels'⟩).2.1

/-
  Letter case is ignored as long as all rules that are reached
  treat both alike.  It is not, when the first one that does
  not has a tunnel.
-/
theorem letterCase_ignored_of_treatsAlike :
    ((∀ k, Reached rules con.dstHost dns k →
        TreatsAlike rules rules' con.dstHost con'.dstHost dns
          k) →
      SameDecision (decideApplicableRule rules con dns)
        (decideApplicableRule rules' con' dns)) ∧
      ∀ k r, rules[k]? = some r → r.tunnels ≠ [] →
        Reached rules con.dstHost dns k →
          (∀ j < k,
            TreatsAlike rules rules' con.dstHost con'.dstHost
              dns j) →
            ¬TreatsAlike rules rules' con.dstHost
                con'.dstHost dns k →
              ¬SameDecision
                (decideApplicableRule rules con dns)
                (decideApplicableRule rules' con' dns) :=
  ⟨sameDecision_of_treatsAlike hRules hCase hBlind,
    fun _ _ hRule hTunnels hReached hBefore hHere =>
      not_sameDecision_of_tunnel hRules hCase hBlind hRule
        hTunnels hReached hBefore hHere⟩

end Decisions

------------------------------------------------------------
-- One Letter
------------------------------------------------------------

/- A connection to a named host. -/
def connectionTo
    (name : Text) : ClientConnection :=
  { (default : ClientConnection) with
    dstHost := ⟨CBuf.copy name, .unspec, 80⟩ }

/- A resolver that knows no names. -/
def deafResolver : Resolver where
  reply := fun _ _ => .failure 8
  stack := fun _ => 0
  lookups := 0

/- `contains a via direct` -/
def containsRule : RouteRule :=
  { defaultDirect with matchContains := CBuf.copy [97] }

/- `is a via direct` -/
def isRule : RouteRule :=
  { defaultDirect with matchIs := CBuf.copy [97] }

theorem caseVariant_refl
    (r : RouteRule) :
    r.CaseVariant r :=
  ⟨rfl, rfl, rfl, rfl, rfl⟩

/- The hosts `a` and `A`. -/
theorem connectionTo_caseVariant :
    (connectionTo [97]).dstHost.CaseVariant
      (connectionTo [65]).dstHost :=
  ⟨rfl, rfl, rfl⟩

theorem deafResolver_caseBlind :
    deafResolver.CaseBlind :=
  fun _ _ _ _ => rfl

/- The rule `contains a` does not tell them apart. -/
theorem letterCase_ignored_contains :
    SameDecision
      (decideApplicableRule [containsRule] (connectionTo [97])
        deafResolver)
      (decideApplicableRule [containsRule] (connectionTo [65])
        deafResolver) := by
  have hRules :
      List.Forall₂ RouteRule.CaseVariant [containsRule]
        [containsRule] :=
    .cons (caseVariant_refl _) .nil
  apply (letterCase_ignored_of_treatsAlike hRules
    connectionTo_caseVariant deafResolver_caseBlind).1
  intro k _ r hr r' hr'
  have hCriteria :
      ∀ d : HostId, containsRule.CaseCriteria d :=
    fun _ => ⟨.inl rfl, .inl rfl, .inl rfl⟩
  rcases List.getElem?_eq_some_iff.mp hr with ⟨hk, rfl⟩
  rcases List.getElem?_eq_some_iff.mp hr' with ⟨hk', rfl⟩
  rw [List.getElem_singleton]
  exact .inr fun _ => iff_of_true (hCriteria _) (hCriteria _)

/- The rule `is a` routes `a`, but not `A`. -/
theorem letterCase_is :
    ¬(∀ rules rules' con con' dns,
      List.Forall₂ RouteRule.CaseVariant rules rules' →
        con.dstHost.CaseVariant con'.dstHost →
          dns.CaseBlind →
            SameDecision (decideApplicableRule rules con dns)
              (decideApplicableRule rules' con' dns)) := by
  intro hIgnored
  have hSame := hIgnored [isRule] [isRule] (connectionTo [97])
    (connectionTo [65]) deafResolver
    (.cons (caseVariant_refl _) .nil) connectionTo_caseVariant
    deafResolver_caseBlind
  have hHere :
      (decideApplicableRule [isRule] (connectionTo [97])
        deafResolver).1 = 1 := by
    decide +kernel
  have hThere :
      (decideApplicableRule [isRule] (connectionTo [65])
        deafResolver).1 = 0 := by
    decide +kernel
  have hRc := hSame.1
  rw [hHere, hThere] at hRc
  cases hRc

end SmartSOCKSProxy
