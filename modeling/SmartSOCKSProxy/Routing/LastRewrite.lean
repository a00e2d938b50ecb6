import SmartSOCKSProxy.Routing.Meaning

/-
  Where a destination's address comes from.

  The rules leave a destination either with the address that
  the last `to` rewrite made, or, without any rewrite, with
  the last answer to the lookups of its name.

  Key definitions include:
    * `RewritesAt`, `LastRewrite`
    * `Resolver.lastAnswer`, `Looked`

  Key theorems include:
    * `locatedBefore_cases`
    * `decideApplicableRule_cases`
-/

namespace SmartSOCKSProxy

------------------------------------------------------------
-- Answers
------------------------------------------------------------

/- The address that a lookup stores, if it succeeds. -/
def Resolver.answer
    (dns : Resolver)
    (name : Text)
    (lookup : Nat) : Option UInt32 :=
  match dns.reply lookup name with
  | .failure _ => none
  | .addresses first _ =>
      some
        ((inetPton4 (numericHost first)).getD
          (dns.stack lookup))

/- The last answer from lookup `start` on, up to a lookup. -/
def Resolver.lastAnswer
    (dns : Resolver)
    (name : Text)
    (start : Nat) : Nat → Option UInt32
  | 0 => none
  | lookup + 1 =>
      if start ≤ lookup then
        (dns.answer name lookup).or
          (dns.lastAnswer name start lookup)
      else none

/- No lookup was made yet. -/
theorem Resolver.lastAnswer_start
    (dns : Resolver)
    (name : Text)
    (start : Nat) :
    dns.lastAnswer name start start = none := by
  cases start with
  | zero => rfl
  | succ lookup =>
      rw [lastAnswer, if_neg (by omega)]

/- The same resolver, after more lookups. -/
structure Resolver.Later
    (dns dns' : Resolver) : Prop where
  same : dns' = { dns with lookups := dns'.lookups }
  lookups : dns.lookups ≤ dns'.lookups

theorem Resolver.Later.refl
    (dns : Resolver) :
    dns.Later dns :=
  ⟨rfl, le_refl _⟩

theorem Resolver.Later.next
    {dns dns' : Resolver}
    (hLater : dns.Later dns') :
    dns.Later dns'.next where
  same := by
    rw [Resolver.next, hLater.same]
  lookups :=
    hLater.lookups.trans (Nat.le_succ dns'.lookups)

/- Later answers are answers of the same resolver. -/
theorem Resolver.Later.answer
    {dns dns' : Resolver}
    (hLater : dns.Later dns')
    (name : Text)
    (lookup : Nat) :
    dns'.answer name lookup = dns.answer name lookup := by
  rw [hLater.same]
  rfl

------------------------------------------------------------
-- Destinations That Were Looked Up
------------------------------------------------------------

/-
  Lookups may have been made for a destination since it was
  `d`: it has the last answer as its address, and its old
  address when there was none.
-/
structure Looked
    (d : HostId)
    (dns : Resolver)
    (s : Located) : Prop where
  name : s.host.name = d.name
  port : s.host.port = d.port
  later : dns.Later s.dns
  addr :
    s.host.addr =
      ((dns.lastAnswer d.name.text dns.lookups
        s.dns.lookups).map
          (SockAddr.inet (htons d.port))).getD d.addr

namespace Looked

variable {d : HostId}
variable {dns : Resolver}
variable {s : Located}

theorem refl
    (d : HostId)
    (dns : Resolver) :
    Looked d dns ⟨d, dns⟩ where
  name := rfl
  port := rfl
  later := Resolver.Later.refl dns
  addr := by
    rw [Resolver.lastAnswer_start]
    rfl

/- One more lookup. -/
theorem next
    (hLooked : Looked d dns s)
    (hPort : IsPort d.port) :
    Looked d dns
      ⟨(resolveDnsForHostId s.host s.dns).2.1,
        (resolveDnsForHostId s.host s.dns).2.2⟩ := by
  rcases hLooked with ⟨hName, hSame, hLater, hAddr⟩
  by_cases hHas : s.host.hasName = true
  · have hAnswer :=
      hLater.answer d.name.text s.dns.lookups
    have hStep :
        dns.lastAnswer d.name.text dns.lookups
            (s.dns.lookups + 1) =
          (s.dns.answer d.name.text s.dns.lookups).or
            (dns.lastAnswer d.name.text dns.lookups
              s.dns.lookups) := by
      rw [Resolver.lastAnswer, if_pos hLater.lookups,
        hAnswer]
    unfold resolveDnsForHostId
    rw [if_pos hHas, hName]
    unfold Resolver.answer at hStep
    cases hReply :
        s.dns.reply s.dns.lookups d.name.text with
    | failure _ =>
        rw [hReply] at hStep
        refine ⟨hName, hSame, hLater.next, ?_⟩
        simp only [Resolver.next, hStep]
        exact hAddr
    | addresses first _ =>
        rw [hReply] at hStep
        refine ⟨hName, ?_, hLater.next, ?_⟩
        · rw [hSame]
          exact HostId.port_setAddrIn_of_isPort _ hPort
        · simp only [Resolver.next, hStep, hSame]
          rfl
  · rw [resolveDnsForHostId_of_not_hasName s.dns
      (by simpa using hHas)]
    exact ⟨hName, hSame, hLater, hAddr⟩

/- The `resolveDNS` action of a rule. -/
theorem resolve
    (hLooked : Looked d dns s)
    (hPort : IsPort d.port)
    (r : RouteRule) :
    Looked d dns (r.resolve s) := by
  unfold RouteRule.resolve
  split
  · exact hLooked.next hPort
  · exact hLooked

end Looked

------------------------------------------------------------
-- Rewrites
------------------------------------------------------------

/-
  The rule at position `j` is applied, and its `to` clause
  leaves the address `a`.
-/
def RewritesAt
    (rules : List RouteRule)
    (d : HostId)
    (dns : Resolver)
    (j : Nat)
    (a : UInt32) : Prop :=
  ∃ r old,
    AppliesAt rules d dns j r ∧ r.haveToIpv4 = true ∧
      (destinationBefore rules d dns j).ipv4 = some old ∧
      a = r.toAddr old

/- The last rewrite leaves the address `a`. -/
def LastRewrite
    (rules : List RouteRule)
    (d : HostId)
    (dns : Resolver)
    (a : UInt32) : Prop :=
  ∃ j, RewritesAt rules d dns j a ∧
    ∀ i, j < i → ∀ b, ¬ RewritesAt rules d dns i b

/- A rewrite leaves one address. -/
theorem RewritesAt.unique
    {rules : List RouteRule}
    {d : HostId}
    {dns : Resolver}
    {j : Nat}
    {a b : UInt32}
    (hA : RewritesAt rules d dns j a)
    (hB : RewritesAt rules d dns j b) :
    a = b := by
  rcases hA with ⟨r, old, hAt, _, hOld, rfl⟩
  rcases hB with ⟨r', old', hAt', _, hOld', rfl⟩
  have hRule := hAt.rule.symm.trans hAt'.rule
  have hSame := hOld.symm.trans hOld'
  cases hRule
  cases hSame
  rfl

theorem LastRewrite.unique
    {rules : List RouteRule}
    {d : HostId}
    {dns : Resolver}
    {a b : UInt32}
    (hA : LastRewrite rules d dns a)
    (hB : LastRewrite rules d dns b) :
    a = b := by
  rcases hA with ⟨i, hI, hAfterI⟩
  rcases hB with ⟨j, hJ, hAfterJ⟩
  rcases Nat.lt_trichotomy i j with hLt | rfl | hGt
  · exact absurd hJ (hAfterI j hLt b)
  · exact hI.unique hJ
  · exact absurd hI (hAfterJ i hGt a)

/- A destination that a rewrite has left. -/
def rewritten
    (port : Int)
    (a : UInt32) : HostId where
  name := CBuf.empty
  addr := .inet (htons port) a
  port := port

theorem rewritten_hasName
    (port : Int)
    (a : UInt32) :
    (rewritten port a).hasName = false := by
  simp [rewritten, HostId.hasName]

/- Destinations without a name are not looked up. -/
theorem resolve_of_nameless
    (r : RouteRule)
    {s : Located}
    (hName : s.host.hasName = false) :
    (r.resolve s).host = s.host := by
  unfold RouteRule.resolve
  split
  · rw [resolveDnsForHostId_of_not_hasName _ hName]
  · rfl

/- What one applied rule does to a destination. -/
theorem perform_cases
    {d : HostId}
    (r : RouteRule)
    (s : Located)
    (hPort : IsPort d.port)
    (hSame : s.host.port = d.port) :
    (∃ old, r.haveToIpv4 = true ∧
        s.host.ipv4 = some old ∧
        (r.perform s).host =
          rewritten d.port (r.toAddr old)) ∨
      (r.haveToIpv4 = true → s.host.ipv4 = none) ∧
        r.perform s = r.resolve s := by
  unfold RouteRule.perform RouteRule.rewriteTo
  cases hTo : r.haveToIpv4 with
  | false =>
      right
      exact ⟨nofun, rfl⟩
  | true =>
      cases hOld : s.host.ipv4 with
      | none =>
          right
          exact ⟨fun _ => rfl, rfl⟩
      | some old =>
          left
          refine ⟨old, rfl, rfl, ?_⟩
          dsimp only
          rw [hSame, ntohs_htons_of_isPort hPort]
          apply resolve_of_nameless
          exact rewritten_hasName d.port (r.toAddr old)

------------------------------------------------------------
-- All Rules
------------------------------------------------------------

/-
  The destination before the `i`th rule: without a rewrite it
  was only looked up, and otherwise the last rewrite left it.
-/
def LocatedAs
    (rules : List RouteRule)
    (d : HostId)
    (dns : Resolver)
    (i : Nat)
    (s : Located) : Prop :=
  (∀ j < i, ∀ a, ¬ RewritesAt rules d dns j a) ∧
      Looked d dns s ∨
    ∃ j < i, ∃ a, RewritesAt rules d dns j a ∧
      (∀ l, j < l → l < i →
        ∀ b, ¬ RewritesAt rules d dns l b) ∧
      s.host = rewritten d.port a

theorem LocatedAs.port
    {rules : List RouteRule}
    {d : HostId}
    {dns : Resolver}
    {i : Nat}
    {s : Located}
    (hAs : LocatedAs rules d dns i s) :
    s.host.port = d.port := by
  rcases hAs with ⟨_, hLooked⟩ | ⟨_, _, a, _, _, hHost⟩
  · exact hLooked.port
  · rw [hHost]
    rfl

/- A turn without a rewrite. -/
theorem LocatedAs.passed
    {rules : List RouteRule}
    {d : HostId}
    {dns : Resolver}
    {i : Nat}
    {s s' : Located}
    (hAs : LocatedAs rules d dns i s)
    (hNone : ∀ a, ¬ RewritesAt rules d dns i a)
    (hLooked : Looked d dns s → Looked d dns s')
    (hNameless :
      s.host.hasName = false → s'.host = s.host) :
    LocatedAs rules d dns (i + 1) s' := by
  rcases hAs with ⟨hBefore, hHere⟩ |
    ⟨j, hj, a, hAt, hAfter, hHost⟩
  · left
    refine ⟨?_, hLooked hHere⟩
    intro j hj
    rcases Nat.lt_succ_iff_lt_or_eq.mp hj with hLt | rfl
    · exact hBefore j hLt
    · exact hNone
  · right
    refine ⟨j, by omega, a, hAt, ?_, ?_⟩
    · intro l hl hLast
      rcases Nat.lt_succ_iff_lt_or_eq.mp hLast with
        hLt | rfl
      · exact hAfter l hl hLt
      · exact hNone
    · rw [hNameless (by rw [hHost, rewritten_hasName]),
        hHost]

/- The induction is on the position; no rule was final. -/
theorem locatedBefore_cases
    {rules : List RouteRule}
    {d : HostId}
    {dns : Resolver}
    (hPort : IsPort d.port)
    {i : Nat}
    (hi : i ≤ rules.length)
    (hReached :
      ∀ j, j + 1 < i → ¬ Decides rules d dns j) :
    LocatedAs rules d dns i
      (locatedBefore rules d dns i) := by
  induction i with
  | zero => exact Or.inl ⟨nofun, Looked.refl d dns⟩
  | succ i ih =>
      have hBefore :=
        ih (by omega) (fun j hj => hReached j (by omega))
      have hRule : rules[i]? = some rules[i] :=
        List.getElem?_eq_getElem hi
      rw [locatedBefore_succ d dns hi]
      by_cases hMatches : rules[i].Matches
          (destinationBefore rules d dns i) d.port
      · rw [if_pos hMatches]
        have hAt : AppliesAt rules d dns i rules[i] :=
          ⟨hRule, hMatches,
            fun j hj => hReached j (by omega)⟩
        rcases perform_cases rules[i]
            (locatedBefore rules d dns i) hPort
            hBefore.port with
          ⟨old, hTo, hOld, hHost⟩ | ⟨hNone, hSame⟩
        · right
          exact ⟨i, by omega, _,
            ⟨rules[i], old, hAt, hTo, hOld, rfl⟩,
            fun l hl hLast => by omega, hHost⟩
        · rw [hSame]
          apply hBefore.passed
          · rintro a ⟨r, old, hAt', hTo, hOld, _⟩
            have hSameRule := hAt'.rule.symm.trans hRule
            cases hSameRule
            have hNo := hNone hTo
            rw [destinationBefore, hNo] at hOld
            contradiction
          · exact fun hLooked => hLooked.resolve hPort _
          · exact resolve_of_nameless _
      · rw [if_neg hMatches]
        apply hBefore.passed
        · rintro a ⟨r, old, hAt', _⟩
          have hSameRule := hAt'.rule.symm.trans hRule
          cases hSameRule
          exact hMatches hAt'.applies
        · exact id
        · exact fun _ => rfl

------------------------------------------------------------
-- Decisions
------------------------------------------------------------

/- No rule after a deciding one is applied. -/
theorem RewritesAt.le_of_decides
    {rules : List RouteRule}
    {d : HostId}
    {dns : Resolver}
    {j k : Nat}
    {a : UInt32}
    (hAt : RewritesAt rules d dns j a)
    (hDecides : Decides rules d dns k) :
    j ≤ k := by
  rcases hAt with ⟨r, old, hApplies, _⟩
  by_contra hLater
  exact hApplies.reached k (by omega) hDecides

/- A rule was chosen because some rule decides. -/
theorem decides_of_decided
    {rules : List RouteRule}
    {con : ClientConnection}
    {dns : Resolver}
    (hDecided : (decideApplicableRule rules con dns).1 = 1) :
    ∃ k, Decides rules con.dstHost dns k := by
  by_contra hNone
  rw [not_exists] at hNone
  have hZero :=
    ((decideApplicableRule_refines rules con dns).2.1
      hNone).1
  omega

/-
  When a rule was chosen, the destination is the one that the
  last rewrite left, or was only looked up.
-/
theorem decideApplicableRule_cases
    {rules : List RouteRule}
    {con : ClientConnection}
    {dns : Resolver}
    (hPort : IsPort con.dstHost.port)
    (hDecided : (decideApplicableRule rules con dns).1 = 1) :
    (∀ j a, ¬ RewritesAt rules con.dstHost dns j a) ∧
        Looked con.dstHost dns
          ⟨(decideApplicableRule rules con dns).2.1.dstHost,
            (decideApplicableRule rules con dns).2.2⟩ ∨
      ∃ a, LastRewrite rules con.dstHost dns a ∧
        (decideApplicableRule rules con dns).2.1.dstHost =
          rewritten con.dstHost.port a := by
  rcases decides_least (decides_of_decided hDecided) with
    ⟨k, hDecides, hLeast⟩
  rcases decideApplicableRule_eq_run rules con dns with
    ⟨_, _, hHost, hDns, _⟩
  have hRun :=
    RuleChain.run_of_least (meaning con.dstHost.port) 0
      ((decides_iff_selects rules _ dns k).mp hDecides)
      (fun j hj hSel => hLeast j hj
        ((decides_iff_selects rules _ dns j).mpr hSel))
  rw [hRun] at hHost hDns
  have hAs :=
    locatedBefore_cases hPort hDecides.1
      (fun j hj => hLeast j (by omega))
  rw [hHost, hDns]
  rcases hAs with ⟨hBefore, hLooked⟩ |
    ⟨j, _, a, hAt, hAfter, hRewritten⟩
  · left
    refine ⟨?_, hLooked⟩
    intro j a hAt
    have hLe := hAt.le_of_decides hDecides
    exact hBefore j (by omega) a hAt
  · right
    refine ⟨a, ⟨j, hAt, ?_⟩, hRewritten⟩
    intro i hi b hLater
    have hLe := hLater.le_of_decides hDecides
    exact hAfter i hi (by omega) b hLater

end SmartSOCKSProxy
