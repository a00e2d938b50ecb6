import SmartSOCKSProxy.Foundations.PrintedNumbers
import SmartSOCKSProxy.Routing.Networks

/-
  Policies: rules as they are meant.

  A rule of a policy says which destinations it is for, what
  it makes of them, and which tunnels lead there.  Written as
  the text of a rule, it is parsed as what it says, and the
  engine decides as the policy does.

  Key definitions include:
    * `RulePattern`, `Ipv4Network`, `RuleTerm`
    * `PolicyRule`, `PolicyRule.Admits`,
      `PolicyRule.perform`, `PolicyRule.text`
    * `policyChain`, `Implements`

  Key theorems include:
    * `storeAll_terms`
    * `parseRouteRuleSpec_text`,
      `parseRouteRuleSpec_policy`
    * `decideApplicableRule_policy`
-/

namespace SmartSOCKSProxy

------------------------------------------------------------
-- Terms
------------------------------------------------------------

/- A text that is a token and fits in a field of a rule. -/
structure RulePattern where
  text : Text
  noNul : (0 : UInt8) ∉ text
  noSpace : (32 : UInt8) ∉ text
  ne_nil : text ≠ []
  fits : text.length ≤ maxDns - 1

theorem RulePattern.text_copy
    (pattern : RulePattern) :
    (CBuf.copy pattern.text : CBuf maxDns).text =
      pattern.text :=
  CBuf.text_copy_of_fits pattern.noNul pattern.fits

structure Ipv4Network where
  addr : UInt32
  mask : UInt32
deriving DecidableEq, Repr

namespace Ipv4Network

/- The mask is written like an address. -/
def text
    (net : Ipv4Network) : Text :=
  inetNtop4 net.addr ++ 47 :: inetNtop4 net.mask

def Has
    (net : Ipv4Network)
    (addr : UInt32) : Prop :=
  addr &&& net.mask = net.addr &&& net.mask

/- The host of that number in the network. -/
def hostAt
    (net : Ipv4Network)
    (addr : UInt32) : UInt32 :=
  (addr &&& ~~~net.mask) ||| (net.addr &&& net.mask)

theorem netv4Argument_text
    (net : Ipv4Network) :
    netv4Argument net.text =
      some (net.addr.toUInt64, net.mask.toUInt64) := by
  unfold text
  rw [netv4Argument_slash (inetPton4_inetNtop4 net.addr),
    maskOf_dottedQuad (inetPton4_inetNtop4 net.mask),
    Option.map_some]

theorem noSpace_text
    (net : Ipv4Network) :
    (32 : UInt8) ∉ net.text :=
  space_not_mem_slash (inetPton4_inetNtop4 net.addr)
    (not_mem_of_inetPton4 (inetPton4_inetNtop4 net.mask)).2

end Ipv4Network

theorem noSpace_ofInt
    (n : Int) :
    (32 : UInt8) ∉ Text.ofInt n := by
  have hNat : ∀ m, (32 : UInt8) ∉ Text.ofNat m :=
    fun m hMem => absurd
      ((Text.isNumeral_ofNat m).2 32 hMem) (by decide)
  cases n with
  | ofNat m => exact hNat m
  | negSucc m =>
      intro hMem
      rcases List.mem_cons.mp hMem with hSign | hMem
      · exact absurd hSign (by decide)
      · exact hNat (m + 1) hMem

/- What a rule may say. -/
inductive RuleTerm where
| is (pattern : RulePattern)
| startsWith (pattern : RulePattern)
| endsWith (pattern : RulePattern)
| contains (pattern : RulePattern)
| port (n : Int32)
| network (net : Ipv4Network)
| map (net : Ipv4Network)
| moveTo (net : Ipv4Network)
| resolveDns

namespace RuleTerm

def keyword : RuleTerm → Option Keyword
| is _ => some .is
| startsWith _ => some .startsWith
| endsWith _ => some .endsWith
| contains _ => some .contains
| port _ => some .port
| network _ => some .network
| map _ => some .map
| moveTo _ => some .to
| resolveDns => none

/- The term as it is written. -/
def clause : RuleTerm → RuleClause
| is pattern => .arg .is pattern.text
| startsWith pattern => .arg .startsWith pattern.text
| endsWith pattern => .arg .endsWith pattern.text
| contains pattern => .arg .contains pattern.text
| port n => .arg .port (Text.ofInt n.toInt)
| network net => .arg .network net.text
| map net => .arg .map net.text
| moveTo net => .arg .to net.text
| resolveDns => .resolveDns

/- The destinations that the term is about. -/
def Holds
    (d : HostId)
    (requestedPort : Int) : RuleTerm → Prop
| is pattern => d.KnownAs pattern.text
| startsWith pattern =>
    ∃ t, d.KnownAs t ∧ pattern.text <+: t
| endsWith pattern =>
    ∃ t, d.KnownAs t ∧ pattern.text <:+ Text.lower t
| contains pattern =>
    ∃ t, d.KnownAs t ∧
      Text.lower pattern.text <:+: Text.lower t
| port n => n.toInt = 0 ∨ n.toInt = requestedPort
| network net => ∃ addr, d.ipv4 = some addr ∧ net.Has addr
| map net => ∃ addr, d.ipv4 = some addr ∧ net.Has addr
| moveTo _ => True
| resolveDns => True

/- The network that destinations are moved to. -/
def target : RuleTerm → Option Ipv4Network
| moveTo net => some net
| _ => none

def isResolveDns : RuleTerm → Bool
| resolveDns => true
| _ => false

/- What is written has no spaces of its own. -/
theorem spaceless_clause
    (term : RuleTerm) :
    term.clause.Spaceless := by
  cases term with
  | is pattern => exact pattern.noSpace
  | startsWith pattern => exact pattern.noSpace
  | endsWith pattern => exact pattern.noSpace
  | contains pattern => exact pattern.noSpace
  | port n => exact noSpace_ofInt n.toInt
  | network net => exact net.noSpace_text
  | map net => exact net.noSpace_text
  | moveTo net => exact net.noSpace_text
  | resolveDns => trivial

end RuleTerm

------------------------------------------------------------
-- Policies
------------------------------------------------------------

/- What `via` may name. -/
structure TunnelName where
  text : Text
  noNul : (0 : UInt8) ∉ text
  noSpace : (32 : UInt8) ∉ text
  noComma : (44 : UInt8) ∉ text
  ne_nil : text ≠ []

/- A rule says nothing twice, but it says something. -/
structure PolicyRule where
  terms : List RuleTerm
  via : List TunnelName
  distinct : (terms.map RuleTerm.keyword).Nodup
  few : via.length < routeRuleMaxSshTunnelsPerRule
  nonempty : terms ≠ [] ∨ via ≠ []

namespace PolicyRule

variable (rule : PolicyRule)

/- The rule is for such a destination. -/
def Admits
    (d : HostId)
    (requestedPort : Int) : Prop :=
  ∀ term ∈ rule.terms, term.Holds d requestedPort

/- Where `to` moves a destination; a name is given up. -/
def moved
    (d : HostId) : HostId :=
  match rule.terms.findSome? RuleTerm.target, d.ipv4 with
  | some net, some addr =>
      { name := CBuf.empty
        addr := .inet (htons d.port) (net.hostAt addr)
        port := ntohs (htons d.port) }
  | _, _ => d

/- A moved destination may be looked up. -/
def perform
    (s : Located) : Located :=
  let host := rule.moved s.host
  if rule.terms.any RuleTerm.isResolveDns then
    let out := resolveDnsForHostId host s.dns
    ⟨out.2.1, out.2.2⟩
  else ⟨host, s.dns⟩

/- The rule as it is written. -/
def text : Text :=
  ruleSpec (rule.terms.map RuleTerm.clause)
    (if rule.via = [] then none
      else some (rule.via.map TunnelName.text))

end PolicyRule

/-
  The first rule that is for the destination and names
  tunnels decides; the rules before it that are for the
  destination change it.
-/
open Classical in
noncomputable def policyChain
    (requestedPort : Int) :
    RuleChain PolicyRule Located where
  applies := fun rule s => rule.Admits s.host requestedPort
  act := fun rule s => rule.perform s
  final := fun rule => rule.via ≠ []

------------------------------------------------------------
-- Fields
------------------------------------------------------------

namespace RouteRule

/- What the fields of a keyword ask for. -/
def Wants
    (r : RouteRule)
    (d : HostId)
    (requestedPort : Int) : Keyword → Prop
| .is => d.Meets (fun t p => t = p) r.matchIs.text
| .startsWith =>
    d.Meets (fun t p => p <+: t) r.matchStartsWith.text
| .endsWith =>
    d.Meets (fun t p => p <:+ Text.lower t)
      r.matchEndsWith.text
| .contains =>
    d.Meets (fun t p => Text.lower p <:+: Text.lower t)
      r.matchContains.text
| .port => r.matchPort = 0 ∨ r.matchPort = requestedPort
| .network => r.haveMatchIpv4 = true →
    d.InNetwork r.matchIpv4Addr r.matchIpv4Mask
| .map => r.haveMapIpv4 = true →
    d.InNetwork r.mapIpv4Addr r.mapIpv4Mask
| .to => True

theorem matches_iff_wants
    (r : RouteRule)
    (d : HostId)
    (requestedPort : Int) :
    r.Matches d requestedPort ↔
      ∀ k, r.Wants d requestedPort k := by
  constructor
  · intro hMatches k
    cases k with
    | is => exact hMatches.is
    | startsWith => exact hMatches.startsWith
    | endsWith => exact hMatches.endsWith
    | contains => exact hMatches.contains
    | port => exact hMatches.port
    | network => exact hMatches.network
    | map => exact hMatches.map
    | _ => trivial
  · intro hWants
    exact ⟨hWants .is, hWants .startsWith, hWants .endsWith,
      hWants .contains, hWants .port, hWants .network,
      hWants .map⟩

/- The network of the `to` clause. -/
def target
    (r : RouteRule) : Option Ipv4Network :=
  if r.haveToIpv4 then
    some ⟨r.toIpv4Addr.toUInt32, r.toIpv4Mask.toUInt32⟩
  else none

theorem rewriteTo_target
    (r : RouteRule)
    (d : HostId) :
    r.rewriteTo d =
      match r.target, d.ipv4 with
      | some net, some addr =>
          { name := CBuf.empty
            addr := .inet (htons d.port) (net.hostAt addr)
            port := ntohs (htons d.port) }
      | _, _ => d := by
  unfold rewriteTo target
  cases r.haveToIpv4 with
  | false => rfl
  | true => cases d.ipv4 <;> rfl

end RouteRule

/- A pattern that is not empty asks for something. -/
theorem HostId.meets_pattern
    (d : HostId)
    (related : Text → Text → Prop)
    (pattern : RulePattern) :
    d.Meets related
        (CBuf.copy pattern.text : CBuf maxDns).text ↔
      ∃ t, d.KnownAs t ∧ related t pattern.text := by
  rw [pattern.text_copy]
  exact or_iff_right pattern.ne_nil

/- What a stored term changes. -/
structure StoresTerm
    (term : RuleTerm)
    (r r' : RouteRule) : Prop where
  own : ∀ k, term.keyword = some k →
    ∀ d requestedPort,
      r'.Wants d requestedPort k ↔
        term.Holds d requestedPort
  others : ∀ k, term.keyword ≠ some k →
    ∀ d requestedPort,
      r'.Wants d requestedPort k ↔
        r.Wants d requestedPort k
  target : r'.target = term.target.or r.target
  resolveDns :
    r'.resolveDns = (term.isResolveDns || r.resolveDns)
  tunnel : r'.tunnel = r.tunnel

theorem store_term
    (term : RuleTerm)
    (r : RouteRule) :
    ∃ r', term.clause.store r = some r' ∧
      StoresTerm term r r' := by
  cases term with
  | is pattern =>
      refine ⟨_, rfl, ⟨?_, ?_, rfl, rfl, rfl⟩⟩
      · rintro k hKeyword d requestedPort
        cases hKeyword
        refine (d.meets_pattern _ pattern).trans ?_
        exact exists_eq_right
      · intro k hKeyword d requestedPort
        cases k with
        | is => exact absurd rfl hKeyword
        | _ => exact Iff.rfl
  | startsWith pattern =>
      refine ⟨_, rfl, ⟨?_, ?_, rfl, rfl, rfl⟩⟩
      · rintro k hKeyword d requestedPort
        cases hKeyword
        exact d.meets_pattern (fun t p => p <+: t) pattern
      · intro k hKeyword d requestedPort
        cases k with
        | startsWith => exact absurd rfl hKeyword
        | _ => exact Iff.rfl
  | endsWith pattern =>
      refine ⟨_, rfl, ⟨?_, ?_, rfl, rfl, rfl⟩⟩
      · rintro k hKeyword d requestedPort
        cases hKeyword
        exact d.meets_pattern
          (fun t p => p <:+ Text.lower t) pattern
      · intro k hKeyword d requestedPort
        cases k with
        | endsWith => exact absurd rfl hKeyword
        | _ => exact Iff.rfl
  | contains pattern =>
      refine ⟨_, rfl, ⟨?_, ?_, rfl, rfl, rfl⟩⟩
      · rintro k hKeyword d requestedPort
        cases hKeyword
        exact d.meets_pattern
          (fun t p => Text.lower p <:+: Text.lower t) pattern
      · intro k hKeyword d requestedPort
        cases k with
        | contains => exact absurd rfl hKeyword
        | _ => exact Iff.rfl
  | port n =>
      have hScan : Text.scanInt (Text.ofInt n.toInt) =
          some n.toInt :=
        Text.scanInt_ofInt n.le_toInt n.toInt_lt
      refine ⟨{ r with matchPort := n.toInt }, ?_,
        ⟨?_, ?_, rfl, rfl, rfl⟩⟩
      · exact congrArg
          (Option.map fun v => { r with matchPort := v }) hScan
      · rintro k hKeyword d requestedPort
        cases hKeyword
        exact Iff.rfl
      · intro k hKeyword d requestedPort
        cases k with
        | port => exact absurd rfl hKeyword
        | _ => exact Iff.rfl
  | network net =>
      refine ⟨_, congrArg (Option.map _)
        net.netv4Argument_text, ⟨?_, ?_, rfl, rfl, rfl⟩⟩
      · rintro k hKeyword d requestedPort
        cases hKeyword
        exact (forall_prop_of_true rfl).trans
          (inNetwork_iff d net.addr net.mask)
      · intro k hKeyword d requestedPort
        cases k with
        | network => exact absurd rfl hKeyword
        | _ => exact Iff.rfl
  | map net =>
      refine ⟨_, congrArg (Option.map _)
        net.netv4Argument_text, ⟨?_, ?_, rfl, rfl, rfl⟩⟩
      · rintro k hKeyword d requestedPort
        cases hKeyword
        exact (forall_prop_of_true rfl).trans
          (inNetwork_iff d net.addr net.mask)
      · intro k hKeyword d requestedPort
        cases k with
        | map => exact absurd rfl hKeyword
        | _ => exact Iff.rfl
  | moveTo net =>
      refine ⟨_, congrArg (Option.map _)
        net.netv4Argument_text, ⟨?_, ?_, ?_, rfl, rfl⟩⟩
      · rintro k hKeyword d requestedPort
        cases hKeyword
        exact Iff.rfl
      · intro k hKeyword d requestedPort
        cases k <;> exact Iff.rfl
      · dsimp only [RouteRule.target, RuleTerm.target]
        rw [if_pos rfl, UInt32.toUInt32_toUInt64,
          UInt32.toUInt32_toUInt64]
        rfl
  | resolveDns =>
      refine ⟨_, rfl, ⟨?_, ?_, rfl, rfl, rfl⟩⟩
      · rintro k hKeyword
        cases hKeyword
      · intro k _ d requestedPort
        cases k <;> exact Iff.rfl

/- What a list of stored terms has changed. -/
structure StoresTerms
    (terms : List RuleTerm)
    (r r' : RouteRule) : Prop where
  own : ∀ term ∈ terms, ∀ k, term.keyword = some k →
    ∀ d requestedPort,
      r'.Wants d requestedPort k ↔
        term.Holds d requestedPort
  others : ∀ k, some k ∉ terms.map RuleTerm.keyword →
    ∀ d requestedPort,
      r'.Wants d requestedPort k ↔
        r.Wants d requestedPort k
  target :
    r'.target =
      (terms.findSome? RuleTerm.target).or r.target
  resolveDns :
    r'.resolveDns =
      (terms.any RuleTerm.isResolveDns || r.resolveDns)
  tunnel : r'.tunnel = r.tunnel

/- Only `to` has a target. -/
theorem findSome_target_eq_none
    {terms : List RuleTerm}
    (hNone : some .to ∉ terms.map RuleTerm.keyword) :
    terms.findSome? RuleTerm.target = none := by
  rw [List.findSome?_eq_none_iff]
  intro term hMem
  cases term with
  | moveTo net => exact absurd (List.mem_map_of_mem hMem) hNone
  | _ => rfl

theorem StoresTerm.cons
    {term : RuleTerm}
    {terms : List RuleTerm}
    {r r₁ r' : RouteRule}
    (hOnce : term.keyword ∉ terms.map RuleTerm.keyword)
    (hHead : StoresTerm term r r₁)
    (hTail : StoresTerms terms r₁ r') :
    StoresTerms (term :: terms) r r' where
  own := by
    intro t hMem k hKeyword d requestedPort
    rcases List.mem_cons.mp hMem with rfl | hMem
    · rw [hTail.others k (hKeyword ▸ hOnce)]
      exact hHead.own k hKeyword d requestedPort
    · exact hTail.own t hMem k hKeyword d requestedPort
  others := by
    intro k hNone d requestedPort
    rw [List.map_cons, List.mem_cons, not_or] at hNone
    rw [hTail.others k hNone.2]
    exact hHead.others k (Ne.symm hNone.1) d requestedPort
  target := by
    rw [hTail.target, hHead.target, List.findSome?_cons]
    cases hTarget : term.target with
    | none => rfl
    | some net =>
        have hTo : term.keyword = some .to := by
          cases term with
          | moveTo net => rfl
          | _ => cases hTarget
        rw [findSome_target_eq_none (hTo ▸ hOnce)]
        rfl
  resolveDns := by
    rw [hTail.resolveDns, hHead.resolveDns, List.any_cons,
      ← Bool.or_assoc, Bool.or_comm term.isResolveDns]
  tunnel := hTail.tunnel.trans hHead.tunnel

/- Terms with different keywords are all stored. -/
theorem storeAll_terms
    (terms : List RuleTerm)
    (hDistinct : (terms.map RuleTerm.keyword).Nodup)
    (r : RouteRule) :
    ∃ r',
      storeAll (terms.map RuleTerm.clause) r = some r' ∧
        StoresTerms terms r r' := by
  induction terms generalizing r with
  | nil =>
      exact ⟨r, rfl, ⟨nofun, fun _ _ _ _ => Iff.rfl, rfl, rfl,
        rfl⟩⟩
  | cons term terms ih =>
      rw [List.map_cons, List.nodup_cons] at hDistinct
      rcases store_term term r with ⟨r₁, hStore, hHead⟩
      rcases ih hDistinct.2 r₁ with ⟨r', hRest, hTail⟩
      refine ⟨r', ?_, hHead.cons hDistinct.1 hTail⟩
      rw [List.map_cons, storeAll, hStore]
      exact hRest

------------------------------------------------------------
-- Rules That Are Parsed
------------------------------------------------------------

/- A rule of the engine that does what a policy's rule says. -/
structure Implements
    (route : RouteRule)
    (rule : PolicyRule) : Prop where
  applies : ∀ d requestedPort,
    route.Matches d requestedPort ↔
      rule.Admits d requestedPort
  performs : ∀ s, route.perform s = rule.perform s
  tunnels :
    route.tunnels.map (fun tun => tun.name.text) =
      rule.via.map TunnelName.text

/- A new rule asks for nothing and does nothing. -/
theorem freshRule_wants
    (junk : Vector (Option SshTunnel)
      routeRuleMaxSshTunnelsPerRule)
    (filename : Option Text)
    (lineNum : Int)
    (d : HostId)
    (requestedPort : Int)
    (k : Keyword) :
    (freshRule junk filename lineNum).Wants d
      requestedPort k := by
  cases k with
  | is => exact .inl rfl
  | startsWith => exact .inl rfl
  | endsWith => exact .inl rfl
  | contains => exact .inl rfl
  | port => exact .inl rfl
  | network => exact nofun
  | map => exact nofun
  | _ => trivial

section Stored

variable {junk : Vector (Option SshTunnel)
  routeRuleMaxSshTunnelsPerRule}
variable {filename : Option Text}
variable {lineNum : Int}
variable {rule : PolicyRule}
variable {r : RouteRule}
variable (hStored :
  StoresTerms rule.terms (freshRule junk filename lineNum) r)

include hStored

theorem StoresTerms.matches_iff
    (d : HostId)
    (requestedPort : Int) :
    r.Matches d requestedPort ↔
      rule.Admits d requestedPort := by
  rw [r.matches_iff_wants]
  constructor
  · intro hWants term hMem
    cases hKeyword : term.keyword with
    | none =>
        cases term with
        | resolveDns => trivial
        | _ => cases hKeyword
    | some k =>
        exact (hStored.own term hMem k hKeyword d
          requestedPort).mp (hWants k)
  · intro hAdmits k
    by_cases hSome :
        some k ∈ rule.terms.map RuleTerm.keyword
    · rcases List.mem_map.mp hSome with
        ⟨term, hMem, hKeyword⟩
      exact (hStored.own term hMem k hKeyword d
        requestedPort).mpr (hAdmits term hMem)
    · exact (hStored.others k hSome d requestedPort).mpr
        (freshRule_wants junk filename lineNum d
          requestedPort k)

theorem StoresTerms.perform_eq
    (s : Located) :
    r.perform s = rule.perform s := by
  have hTarget : r.target =
      rule.terms.findSome? RuleTerm.target :=
    hStored.target.trans (Option.or_none ..)
  have hResolve : r.resolveDns =
      rule.terms.any RuleTerm.isResolveDns :=
    hStored.resolveDns.trans (Bool.or_false _)
  have hMoved : r.rewriteTo s.host = rule.moved s.host := by
    rw [r.rewriteTo_target, hTarget]
    rfl
  unfold RouteRule.perform RouteRule.resolve
    PolicyRule.perform
  dsimp only
  rw [hMoved, hResolve]

end Stored

theorem viaNames_via
    (via : List TunnelName) :
    viaNames (via.map TunnelName.text) =
      via.map TunnelName.text := by
  unfold viaNames
  rw [List.flatMap_map]
  induction via with
  | nil => rfl
  | cons name via ih =>
      rw [List.flatMap_cons, ih,
        List.splitOn_eq_singleton name.noComma]
      rfl

theorem properNames_via
    (via : List TunnelName) :
    properNames (via.map TunnelName.text) =
      via.map TunnelName.text := by
  unfold properNames
  rw [List.filter_eq_self]
  intro name hMem
  rcases List.mem_map.mp hMem with ⟨via, _, rfl⟩
  exact decide_eq_true via.ne_nil

/- The tunnels of a list of names have these names. -/
theorem map_name_filterMap
    {sshTunnelList : List SshTunnel}
    {names : List Text}
    (hKnown : ∀ name ∈ names,
      ∃ ssh ∈ sshTunnelList, ssh.name.text = name) :
    (names.filterMap (tunnelNamed sshTunnelList)).map
        (fun tun => tun.name.text) = names := by
  induction names with
  | nil => rfl
  | cons name names ih =>
      rw [List.forall_mem_cons] at hKnown
      rcases hKnown.1 with ⟨ssh, hListed, hName⟩
      have hSome :
          (tunnelNamed sshTunnelList name).isSome := by
        unfold tunnelNamed
        rw [List.find?_isSome]
        exact ⟨ssh, hListed, decide_eq_true hName⟩
      rcases Option.isSome_iff_exists.mp hSome with
        ⟨tun, hTun⟩
      have hSame : tun.name.text = name := by
        unfold tunnelNamed at hTun
        have hFound := List.find?_some hTun
        exact of_decide_eq_true hFound
      rw [List.filterMap_cons_some hTun, List.map_cons,
        ih hKnown.2, hSame]

section Parsing

variable (junk : Vector (Option SshTunnel)
  routeRuleMaxSshTunnelsPerRule)
variable (filename : Option Text)
variable (lineNum : Int)

/- The text is read term by term, and then the names. -/
theorem parseRouteRuleSpec_text
    (rule : PolicyRule)
    (sshTunnelList : List SshTunnel) :
    ∃ r,
      StoresTerms rule.terms (freshRule junk filename lineNum)
          r ∧
        parseRouteRuleSpec junk rule.text filename lineNum
            sshTunnelList =
          parseVia sshTunnelList
            (rule.via.map TunnelName.text) r := by
  rcases storeAll_terms rule.terms rule.distinct
      (freshRule junk filename lineNum) with
    ⟨r, hStore, hStored⟩
  refine ⟨r, hStored, ?_⟩
  have hSpaceless :
      ∀ c ∈ rule.terms.map RuleTerm.clause,
        c.Spaceless := by
    intro c hMem
    rcases List.mem_map.mp hMem with ⟨term, _, rfl⟩
    exact term.spaceless_clause
  rw [parseRouteRuleSpec_eq]
  unfold PolicyRule.text
  by_cases hVia : rule.via = []
  · have hTokens :
        ∀ token ∈ viaTokens none, (32 : UInt8) ∉ token := by
      intro token hMem
      cases hMem
    have hTerms : rule.terms.map RuleTerm.clause ≠ [] := by
      intro hNil
      rcases rule.nonempty with hSome | hSome
      · exact hSome (List.map_eq_nil_iff.mp hNil)
      · exact hSome hVia
    rw [if_pos hVia, splitOn_ruleSpec hSpaceless hTokens
      (.inl hTerms), parseTokens_clauses, hStore, hVia]
    exact parseTokens_nil sshTunnelList r
  · have hTokens : ∀ token ∈
        viaTokens (some (rule.via.map TunnelName.text)),
          (32 : UInt8) ∉ token := by
      intro token hMem
      rcases List.mem_cons.mp hMem with rfl | hMem
      · decide
      · rcases List.mem_map.mp hMem with ⟨name, _, rfl⟩
        exact name.noSpace
    rw [if_neg hVia, splitOn_ruleSpec hSpaceless hTokens
      (.inr rfl), parseTokens_clauses, hStore]
    refine (parseTokens_via sshTunnelList _ r).trans ?_
    rw [viaNames_via]

/- It is a rule if its tunnels exist, and means the same. -/
theorem parseRouteRuleSpec_policy
    (rule : PolicyRule)
    (sshTunnelList : List SshTunnel) :
    ((∃ route,
        parseRouteRuleSpec junk rule.text filename lineNum
          sshTunnelList = .ok route) ↔
      ∀ name ∈ rule.via,
        ∃ ssh ∈ sshTunnelList, ssh.name.text = name.text) ∧
      ∀ route,
        parseRouteRuleSpec junk rule.text filename lineNum
            sshTunnelList = .ok route →
          Implements route rule := by
  rcases parseRouteRuleSpec_text junk filename lineNum rule
      sshTunnelList with ⟨r, hStored, hText⟩
  rw [hText]
  have hKnown :
      NamesKnown sshTunnelList
          (rule.via.map TunnelName.text) ↔
        ∀ name ∈ rule.via,
          ∃ ssh ∈ sshTunnelList,
            ssh.name.text = name.text := by
    unfold NamesKnown
    rw [List.forall_mem_map]
    exact forall₂_congr fun name _ =>
      forall_prop_of_true name.ne_nil
  have hNames := (parseVia_isOk_iff sshTunnelList
    (rule.via.map TunnelName.text) r).1
  refine ⟨hNames.trans hKnown, fun route hParse => ?_⟩
  have hFresh := freshRule_terminated junk filename lineNum
  have hEnded : Terminated r.tunnel.toList := by
    rw [hStored.tunnel]
    exact hFresh.1
  have hEmpty : r.tunnels = [] := by
    unfold RouteRule.tunnels
    rw [hStored.tunnel]
    exact hFresh.2
  have hFields := parseVia_setTunnel hParse
  refine ⟨?_, ?_, ?_⟩
  · intro d requestedPort
    rw [hFields]
    refine Iff.trans ?_ (hStored.matches_iff d requestedPort)
    exact ⟨fun h => ⟨h.1, h.2, h.3, h.4, h.5, h.6, h.7⟩,
      fun h => ⟨h.1, h.2, h.3, h.4, h.5, h.6, h.7⟩⟩
  · intro s
    rw [hFields]
    exact hStored.perform_eq s
  · have hTunnels :=
      (parseVia_terminated sshTunnelList hEnded hParse).2
    have hAll := hNames.mp ⟨route, hParse⟩
    have hLength :
        ((rule.via.map TunnelName.text).filterMap
          (tunnelNamed sshTunnelList)).length ≤
            routeRuleMaxSshTunnelsPerRule - 1 := by
      refine (List.length_filterMap_le _ _).trans ?_
      rw [List.length_map]
      exact Nat.le_sub_one_of_lt rule.few
    rw [properNames_via, hEmpty, List.nil_append,
      List.take_of_length_le hLength] at hTunnels
    rw [hTunnels]
    apply map_name_filterMap
    intro name hMem
    rcases List.mem_map.mp hMem with ⟨via, _, rfl⟩
    exact hAll via.text hMem via.ne_nil

end Parsing

------------------------------------------------------------
-- Decisions
------------------------------------------------------------

theorem implements_sameRule
    (requestedPort : Int)
    (route : RouteRule)
    (rule : PolicyRule)
    (hRule : Implements route rule) :
    (meaning requestedPort).SameRule
      (policyChain requestedPort) route rule where
  applies := by
    intro s
    exact decide_eq_decide.mpr
      (hRule.applies s.host requestedPort)
  act := hRule.performs
  final := by
    have hEmpty : route.tunnels = [] ↔ rule.via = [] := by
      rw [← List.map_eq_nil_iff (f := fun tun : SshTunnel =>
          tun.name.text),
        hRule.tunnels, List.map_eq_nil_iff]
    exact decide_eq_decide.mpr (not_congr hEmpty)

/-
  An engine whose rules implement a policy decides as the
  policy does: for the same rule, or for none, and with the
  same destination.
-/
theorem decideApplicableRule_policy
    {rules : List RouteRule}
    {policy : List PolicyRule}
    (hRules : List.Forall₂ Implements rules policy)
    (con : ClientConnection)
    (dns : Resolver) :
    let found := (policyChain con.dstHost.port).run 0 policy
      ⟨con.dstHost, dns⟩
    let out := decideApplicableRule rules con dns
    (∀ k rule, found.1 = some (k, rule) →
      out.1 = 1 ∧
        ∃ route, rules[k]? = some route ∧
          out.2.1.route = some (.listed k route) ∧
          Implements route rule) ∧
      (found.1 = none →
        out.1 = 0 ∧ out.2.1.route = some .defaultDirect) ∧
      out.2.1.dstHost = found.2.host ∧
      out.2.2 = found.2.dns := by
  intro found out
  rcases RuleChain.run_sameRules
      (implements_sameRule con.dstHost.port) hRules 0
      ⟨con.dstHost, dns⟩ with ⟨hFound, hLeft⟩
  rcases decideApplicableRule_eq_run rules con dns with
    ⟨hRc, hRoute, hHost, hDns, _⟩
  rw [hLeft] at hHost hDns
  change Option.Rel _ _ found.1 at hFound
  generalize hEngine : ((meaning con.dstHost.port).run 0 rules
    ⟨con.dstHost, dns⟩).1 = chosen at hFound hRc hRoute
  refine ⟨?_, ?_, hHost, hDns⟩
  · intro k rule hSome
    rw [hSome] at hFound
    cases hFound with
    | @some entry _ hPair =>
        rcases entry with ⟨i, route⟩
        rcases hPair with ⟨hIndex, hRule⟩
        cases hIndex
        rcases RuleChain.getElem?_of_run _ hEngine with
          ⟨j, hIndex, hHere⟩
        rw [Nat.zero_add] at hIndex
        exact ⟨hRc, route, hIndex ▸ hHere, hRoute, hRule⟩
  · intro hNone
    rw [hNone] at hFound
    cases hFound with
    | none => exact ⟨hRc, hRoute⟩

end SmartSOCKSProxy
