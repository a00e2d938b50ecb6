import SmartSOCKSProxy.Routing.Clauses
import SmartSOCKSProxy.Routing.Meaning

/-
  Which criteria of a rule text constrain the rule.

  A rule keeps one field for each keyword, so that a clause
  replaces an earlier clause of the same keyword.  A parsed
  rule applies when its surviving clauses hold.

  Key definitions include:
    * `Criterion`, `Clause`, `ruleText`
    * `Clause.Holds`
    * `survivingClauses`, `overwrittenClauses`
    * `specApplies`

  Key theorems include:
    * `parseClauses_criterion`
    * `specApplies_ruleText_iff`
    * `specApplies_conjunction_iff`
-/

namespace SmartSOCKSProxy

------------------------------------------------------------
-- Clauses
------------------------------------------------------------

/- The keywords that state a condition. -/
inductive Criterion where
| is
| startsWith
| endsWith
| contains
| port
| network
deriving DecidableEq, Repr

def Criterion.keyword : Criterion → Text
  | .is => kwIs
  | .startsWith => kwStartsWith
  | .endsWith => kwEndsWith
  | .contains => kwContains
  | .port => kwPort
  | .network => kwNetwork

/- A criterion keyword and its argument. -/
structure Clause where
  kind : Criterion
  arg : Text
  noSpace : (32 : UInt8) ∉ arg
  noNul : (0 : UInt8) ∉ arg

def Clause.tokens
    (c : Clause) : List Text :=
  [c.kind.keyword, c.arg]

/- The rule text that consists of some clauses. -/
def ruleText
    (cs : List Clause) : Text :=
  [32].intercalate (cs.flatMap Clause.tokens)

/- What a clause demands when it is read on its own. -/
def Clause.Holds
    (c : Clause)
    (d : HostId)
    (requestedPort : Int) : Prop :=
  let pattern : CBuf maxDns := CBuf.copy c.arg
  match c.kind with
  | .is => d.Meets (fun t p => t = p) pattern.text
  | .startsWith => d.Meets (fun t p => p <+: t) pattern.text
  | .endsWith =>
      d.Meets (fun t p => p <:+ Text.lower t) pattern.text
  | .contains =>
      d.Meets (fun t p => Text.lower p <:+: Text.lower t)
        pattern.text
  | .port =>
      ∃ v, Text.scanInt c.arg = some v ∧
        (v = 0 ∨ v = requestedPort)
  | .network =>
      ∃ net,
        routeRuleGrabNetv4 kwNetwork kwNetwork c.arg =
          some net ∧
        d.InNetwork net.1 net.2

/- The clauses whose keyword does not occur again. -/
def survivingClauses : List Clause → List Clause
  | [] => []
  | c :: cs =>
      if c.kind ∈ cs.map Clause.kind then
        survivingClauses cs
      else c :: survivingClauses cs

/- The clauses whose keyword occurs again. -/
def overwrittenClauses : List Clause → List Clause
  | [] => []
  | c :: cs =>
      if c.kind ∈ cs.map Clause.kind then
        c :: overwrittenClauses cs
      else overwrittenClauses cs

theorem mem_iff_surviving_or_overwritten
    (c : Clause)
    (cs : List Clause) :
    c ∈ cs ↔
      c ∈ survivingClauses cs ∨
        c ∈ overwrittenClauses cs := by
  induction cs with
  | nil => simp [survivingClauses, overwrittenClauses]
  | cons head cs ih =>
      unfold survivingClauses overwrittenClauses
      rw [List.mem_cons, ih]
      by_cases hAgain : head.kind ∈ cs.map Clause.kind
      · simp only [hAgain, if_true, List.mem_cons]
        exact or_left_comm
      · simp only [hAgain, if_false, List.mem_cons]
        exact or_assoc.symm

/- Nothing is overwritten when no keyword is repeated. -/
theorem overwrittenClauses_of_nodup
    {cs : List Clause}
    (hNodup : (cs.map Clause.kind).Nodup) :
    overwrittenClauses cs = [] := by
  induction cs with
  | nil => rfl
  | cons head cs ih =>
      rw [List.map_cons, List.nodup_cons] at hNodup
      rw [overwrittenClauses, if_neg hNodup.1, ih hNodup.2]

------------------------------------------------------------
-- One Field for Each Keyword
------------------------------------------------------------

/- The condition that the field of a keyword states. -/
def RouteRule.Field
    (r : RouteRule)
    (d : HostId)
    (requestedPort : Int) : Criterion → Prop
  | .is => d.Meets (fun t p => t = p) r.matchIs.text
  | .startsWith =>
      d.Meets (fun t p => p <+: t) r.matchStartsWith.text
  | .endsWith =>
      d.Meets (fun t p => p <:+ Text.lower t)
        r.matchEndsWith.text
  | .contains =>
      d.Meets (fun t p => Text.lower p <:+: Text.lower t)
        r.matchContains.text
  | .port => r.matchPort = 0 ∨ r.matchPort = requestedPort
  | .network => r.haveMatchIpv4 = true →
      d.InNetwork r.matchIpv4Addr r.matchIpv4Mask

/- Without a `map` clause, the fields are all there is. -/
theorem matches_iff_fields
    {r : RouteRule}
    (hMap : r.haveMapIpv4 = false)
    (d : HostId)
    (requestedPort : Int) :
    r.Matches d requestedPort ↔
      ∀ k, r.Field d requestedPort k := by
  constructor
  · intro hMatches k
    cases k with
    | is => exact hMatches.is
    | startsWith => exact hMatches.startsWith
    | endsWith => exact hMatches.endsWith
    | contains => exact hMatches.contains
    | port => exact hMatches.port
    | network => exact hMatches.network
  · intro hFields
    refine ⟨hFields .is, hFields .startsWith,
      hFields .endsWith, hFields .contains,
      hFields .port, hFields .network, ?_⟩
    simp [hMap]

/- A new rule asks for nothing. -/
theorem newRouteRule_field
    (junk : Vector (Option SshTunnel)
      routeRuleMaxSshTunnelsPerRule)
    (fileName : CBuf 4096)
    (lineNum : Int)
    (d : HostId)
    (requestedPort : Int)
    (k : Criterion) :
    { newRouteRule junk with
      fileName := fileName
      fileLineNumber := lineNum }.Field
        d requestedPort k := by
  cases k <;> simp [RouteRule.Field, newRouteRule,
    HostId.Meets]

/- What storing a clause does to the fields of a rule. -/
structure Stores
    (c : Clause)
    (r r' : RouteRule) : Prop where
  own : ∀ d requestedPort,
    r'.Field d requestedPort c.kind ↔
      c.Holds d requestedPort
  others : ∀ d requestedPort k, k ≠ c.kind →
    (r'.Field d requestedPort k ↔
      r.Field d requestedPort k)
  map : r'.haveMapIpv4 = r.haveMapIpv4

/- The parser's keyword of a criterion. -/
def Criterion.toKeyword : Criterion → Keyword
  | .is => .is
  | .startsWith => .startsWith
  | .endsWith => .endsWith
  | .contains => .contains
  | .port => .port
  | .network => .network

theorem Criterion.keyword_eq
    (k : Criterion) :
    k.keyword = k.toKeyword.text := by
  cases k <;> rfl

theorem grabClause_criterion
    (c : Clause)
    (r : RouteRule) :
    grabClause c.kind.keyword c.arg r =
      c.kind.toKeyword.store c.arg r := by
  rw [c.kind.keyword_eq, grabClause_text]

/- The one way to read the argument of `network`. -/
theorem netv4Argument_network
    (param : Text) :
    netv4Argument param =
      routeRuleGrabNetv4 kwNetwork kwNetwork param := by
  have hText :=
    routeRuleGrabNetv4_text .network .network param
  rw [if_pos rfl] at hText
  exact hText.symm

/- A clause replaces the field of its keyword only. -/
theorem grabClause_stores
    {c : Clause}
    {r r' : RouteRule}
    (hGrab : grabClause c.kind.keyword c.arg r = some r') :
    Stores c r r' := by
  rw [grabClause_criterion] at hGrab
  rcases c with ⟨kind, arg, hSpace, hNul⟩
  cases kind with
  | is =>
      cases hGrab
      refine ⟨fun _ _ => Iff.rfl, ?_, rfl⟩
      intro d requestedPort k hk
      cases k <;> first | exact Iff.rfl | exact absurd rfl hk
  | startsWith =>
      cases hGrab
      refine ⟨fun _ _ => Iff.rfl, ?_, rfl⟩
      intro d requestedPort k hk
      cases k <;> first | exact Iff.rfl | exact absurd rfl hk
  | endsWith =>
      cases hGrab
      refine ⟨fun _ _ => Iff.rfl, ?_, rfl⟩
      intro d requestedPort k hk
      cases k <;> first | exact Iff.rfl | exact absurd rfl hk
  | contains =>
      cases hGrab
      refine ⟨fun _ _ => Iff.rfl, ?_, rfl⟩
      intro d requestedPort k hk
      cases k <;> first | exact Iff.rfl | exact absurd rfl hk
  | port =>
      rcases Option.map_eq_some_iff.mp hGrab with
        ⟨v, hScan, rfl⟩
      refine ⟨?_, ?_, rfl⟩
      · intro d requestedPort
        simp [RouteRule.Field, Clause.Holds, hScan]
      · intro d requestedPort k hk
        cases k <;>
          first | exact Iff.rfl | exact absurd rfl hk
  | network =>
      rcases Option.map_eq_some_iff.mp hGrab with
        ⟨net, hNet, rfl⟩
      rw [netv4Argument_network] at hNet
      refine ⟨?_, ?_, rfl⟩
      · intro d requestedPort
        simp [RouteRule.Field, Clause.Holds, hNet]
      · intro d requestedPort k hk
        cases k <;>
          first | exact Iff.rfl | exact absurd rfl hk

------------------------------------------------------------
-- Parsing a Sequence of Clauses
------------------------------------------------------------

theorem Criterion.keyword_ne
    (k : Criterion) :
    k.keyword ≠ kwResolveDns ∧ k.keyword ≠ kwVia := by
  rw [k.keyword_eq]
  exact k.toKeyword.text_ne

theorem Criterion.space_not_mem_keyword
    (k : Criterion) :
    (32 : UInt8) ∉ k.keyword := by
  rw [k.keyword_eq]
  exact k.toKeyword.space_not_mem_text

/- The tokens of a rule text are those of its clauses. -/
theorem splitOn_ruleText
    {cs : List Clause}
    (hCs : cs ≠ []) :
    (ruleText cs).splitOn 32 = cs.flatMap Clause.tokens := by
  unfold ruleText
  apply List.splitOn_intercalate
  · intro token hToken
    rcases List.mem_flatMap.mp hToken with ⟨c, _, hMem⟩
    simp only [Clause.tokens, List.mem_cons,
      List.not_mem_nil, or_false] at hMem
    rcases hMem with rfl | rfl
    · exact c.kind.space_not_mem_keyword
    · exact c.noSpace
  · cases cs with
    | nil => exact absurd rfl hCs
    | cons c cs => simp [Clause.tokens]

/- The parser stores one clause after the other. -/
theorem parseClauses_cons
    (c : Clause)
    (tokens : List Text)
    (r : RouteRule) :
    parseClauses (c.tokens ++ tokens) r =
      match grabClause c.kind.keyword c.arg r with
      | some r' => parseClauses tokens r'
      | none => .error .null := by
  have hKeyword := c.kind.keyword_ne
  unfold Clause.tokens
  rw [List.cons_append, List.cons_append, List.nil_append,
    parseClauses]
  cases grabClause c.kind.keyword c.arg r with
  | none => simp [hKeyword]
  | some r' => simp [hKeyword]

/-
  After all clauses, a field states its surviving clause, or
  what it stated before when its keyword does not occur.
-/
structure StoresAll
    (cs : List Clause)
    (r r' : RouteRule) : Prop where
  field : ∀ d requestedPort k,
    r'.Field d requestedPort k ↔
      (∀ c ∈ survivingClauses cs, c.kind = k →
        c.Holds d requestedPort) ∧
      (k ∉ cs.map Clause.kind →
        r.Field d requestedPort k)
  map : r'.haveMapIpv4 = r.haveMapIpv4

theorem mem_kinds_of_surviving
    {c : Clause}
    {cs : List Clause}
    (hMem : c ∈ survivingClauses cs) :
    c.kind ∈ cs.map Clause.kind :=
  List.mem_map_of_mem
    ((mem_iff_surviving_or_overwritten c cs).mpr
      (Or.inl hMem))

theorem Stores.cons
    {c : Clause}
    {cs : List Clause}
    {r r₁ r' : RouteRule}
    (hHead : Stores c r r₁)
    (hTail : StoresAll cs r₁ r') :
    StoresAll (c :: cs) r r' := by
  refine ⟨?_, hTail.map.trans hHead.map⟩
  intro d requestedPort k
  rw [hTail.field, survivingClauses, List.map_cons,
    List.mem_cons, not_or]
  by_cases hOwn : k = c.kind
  · subst hOwn
    rw [hHead.own]
    by_cases hAgain : c.kind ∈ cs.map Clause.kind
    · simp [hAgain]
    · have hNone :
          ∀ c' ∈ survivingClauses cs, c'.kind = c.kind →
            c'.Holds d requestedPort := by
        intro c' hMem hKind
        have hIn := mem_kinds_of_surviving hMem
        rw [hKind] at hIn
        exact absurd hIn hAgain
      simp only [hAgain, not_false_iff, forall_const,
        if_false, List.forall_mem_cons, not_true,
        false_imp_iff, and_true]
      exact and_comm
  · rw [hHead.others d requestedPort k hOwn]
    by_cases hAgain : c.kind ∈ cs.map Clause.kind
    · simp [hAgain, hOwn]
    · simp [hAgain, hOwn, Ne.symm hOwn]

/- What the clauses of a text make of a rule. -/
theorem parseClauses_criterion
    {cs : List Clause}
    {r r' : RouteRule}
    {tokens : List Text}
    (hParse :
      parseClauses (cs.flatMap Clause.tokens) r =
        .ok (r', tokens)) :
    StoresAll cs r r' ∧ tokens = [] := by
  induction cs generalizing r with
  | nil =>
      rw [List.flatMap_nil, parseClauses] at hParse
      cases hParse
      refine ⟨⟨?_, rfl⟩, rfl⟩
      intro d requestedPort k
      simp [survivingClauses]
  | cons c cs ih =>
      rw [List.flatMap_cons, parseClauses_cons] at hParse
      cases hGrab : grabClause c.kind.keyword c.arg r with
      | none =>
          rw [hGrab] at hParse
          cases hParse
      | some r₁ =>
          rw [hGrab] at hParse
          have hRest := ih hParse
          exact ⟨(grabClause_stores hGrab).cons hRest.1,
            hRest.2⟩

/- Each clause of an accepted text is accepted. -/
theorem grabClause_of_parseClauses
    {cs : List Clause}
    {r : RouteRule}
    {out : RouteRule × List Text}
    (hParse :
      parseClauses (cs.flatMap Clause.tokens) r =
        .ok out) :
    ∀ c ∈ cs, ∀ r₁,
      (grabClause c.kind.keyword c.arg r₁).isSome := by
  induction cs generalizing r with
  | nil => simp
  | cons c cs ih =>
      rw [List.flatMap_cons, parseClauses_cons] at hParse
      cases hGrab : grabClause c.kind.keyword c.arg r with
      | none =>
          rw [hGrab] at hParse
          cases hParse
      | some r' =>
          rw [hGrab] at hParse
          intro c' hMem r₁
          rcases List.mem_cons.mp hMem with rfl | hMem
          · rw [grabClause_isSome _ _ r₁ r, hGrab]
            rfl
          · exact ih hParse c' hMem r₁

------------------------------------------------------------
-- Parsed Rules
------------------------------------------------------------

section Specs

variable (junk : Vector (Option SshTunnel)
  routeRuleMaxSshTunnelsPerRule)
variable (filename : Option Text)
variable (lineNum : Int)
variable (sshTunnelList : List SshTunnel)

/-
  Whether a text is a rule that applies to a destination, as
  decide_applicable_rule() tests it.
-/
def specApplies
    (strIn : Text)
    (d : HostId)
    (requestedPort : Int) : Bool :=
  match parseRouteRuleSpec junk strIn filename lineNum
      sshTunnelList with
  | .ok route =>
      thisRouteApplies route (DstCache.load d) requestedPort
  | .error _ => false

/- Whether the parser accepts a text. -/
def specAccepted
    (strIn : Text) : Bool :=
  match parseRouteRuleSpec junk strIn filename lineNum
      sshTunnelList with
  | .ok _ => true
  | .error _ => false

/- A text without clauses is refused. -/
theorem ne_nil_of_specAccepted
    {cs : List Clause}
    (hAccepted :
      specAccepted junk filename lineNum sshTunnelList
        (ruleText cs) = true) :
    cs ≠ [] := by
  rintro rfl
  have hSplit : (ruleText []).splitOn 32 = [[]] := rfl
  have hEmpty :
      ∀ r, parseClauses [[]] r = .error .null := by
    intro r
    rw [parseClauses]
    simp [show ([] : Text) ≠ kwResolveDns by decide,
      show ([] : Text) ≠ kwVia by decide,
      show isTextKeyword [] = false by decide]
  simp [specAccepted, parseRouteRuleSpec, hSplit, hEmpty]
    at hAccepted

/- A rule of clauses only is what the clauses store. -/
theorem parseRouteRuleSpec_ruleText
    {cs : List Clause}
    (hCs : cs ≠ []) :
    parseRouteRuleSpec junk (ruleText cs) filename lineNum
        sshTunnelList =
      (parseClauses (cs.flatMap Clause.tokens)
        { newRouteRule junk with
          fileName := CBuf.copy (filename.getD [])
          fileLineNumber := lineNum }).map Prod.fst := by
  unfold parseRouteRuleSpec
  rw [splitOn_ruleText hCs]
  cases hParse :
      parseClauses (cs.flatMap Clause.tokens)
        { newRouteRule junk with
          fileName := CBuf.copy (filename.getD [])
          fileLineNumber := lineNum } with
  | error failure => simp only [hParse, Except.map]
  | ok out =>
      rcases out with ⟨r', tokens⟩
      have hTokens := (parseClauses_criterion hParse).2
      subst hTokens
      simp only [hParse, List.flatMap_nil, parseVia,
        Except.map]

/- What an accepted text stores, clause by clause. -/
theorem storesAll_of_specAccepted
    {cs : List Clause}
    (hAccepted :
      specAccepted junk filename lineNum sshTunnelList
        (ruleText cs) = true) :
    ∃ r',
      parseRouteRuleSpec junk (ruleText cs) filename lineNum
          sshTunnelList = .ok r' ∧
        StoresAll cs
          { newRouteRule junk with
            fileName := CBuf.copy (filename.getD [])
            fileLineNumber := lineNum } r' ∧
        ∀ c ∈ cs, ∀ r₁,
          (grabClause c.kind.keyword c.arg r₁).isSome := by
  have hCs := ne_nil_of_specAccepted _ _ _ _ hAccepted
  have hSpec := parseRouteRuleSpec_ruleText junk filename
    lineNum sshTunnelList hCs
  unfold specAccepted at hAccepted
  cases hParse :
      parseClauses (cs.flatMap Clause.tokens)
        { newRouteRule junk with
          fileName := CBuf.copy (filename.getD [])
          fileLineNumber := lineNum } with
  | error failure =>
      rw [hParse] at hSpec
      simp [hSpec, Except.map] at hAccepted
  | ok out =>
      rw [hParse] at hSpec
      exact ⟨out.1, hSpec,
        (parseClauses_criterion hParse).1,
        grabClause_of_parseClauses hParse⟩

/- An accepted rule is that of its surviving clauses. -/
theorem specApplies_ruleText_iff
    {cs : List Clause}
    (hAccepted :
      specAccepted junk filename lineNum sshTunnelList
        (ruleText cs) = true)
    (d : HostId)
    (requestedPort : Int) :
    specApplies junk filename lineNum sshTunnelList
        (ruleText cs) d requestedPort = true ↔
      ∀ c ∈ survivingClauses cs,
        c.Holds d requestedPort := by
  rcases storesAll_of_specAccepted _ _ _ _ hAccepted with
    ⟨r', hSpec, hStores, _⟩
  have hMap : r'.haveMapIpv4 = false := hStores.map
  unfold specApplies
  rw [hSpec]
  dsimp only
  rw [thisRouteApplies_iff, matches_iff_fields hMap]
  constructor
  · intro hFields c hMem
    exact ((hStores.field d requestedPort c.kind).mp
      (hFields c.kind)).1 c hMem rfl
  · intro hHolds k
    refine (hStores.field d requestedPort k).mpr
      ⟨fun c hMem _ => hHolds c hMem, ?_⟩
    intro _
    exact newRouteRule_field junk _ _ d requestedPort k

/- The clauses of an accepted text are accepted texts. -/
theorem specAccepted_of_mem
    {cs : List Clause}
    (hAccepted :
      specAccepted junk filename lineNum sshTunnelList
        (ruleText cs) = true)
    {c : Clause}
    (hMem : c ∈ cs) :
    specAccepted junk filename lineNum sshTunnelList
      (ruleText [c]) = true := by
  rcases storesAll_of_specAccepted _ _ _ _ hAccepted with
    ⟨_, _, _, hGrab⟩
  rcases Option.isSome_iff_exists.mp (hGrab c hMem
      { newRouteRule junk with
        fileName := CBuf.copy (filename.getD [])
        fileLineNumber := lineNum }) with
    ⟨r₁, hSome⟩
  unfold specAccepted
  rw [parseRouteRuleSpec_ruleText _ _ _ _
      (List.cons_ne_nil c []),
    List.flatMap_singleton, ← List.append_nil c.tokens,
    parseClauses_cons, hSome]
  rfl

/- A clause on its own means what it states. -/
theorem specApplies_single_iff
    {cs : List Clause}
    (hAccepted :
      specAccepted junk filename lineNum sshTunnelList
        (ruleText cs) = true)
    {c : Clause}
    (hMem : c ∈ cs)
    (d : HostId)
    (requestedPort : Int) :
    specApplies junk filename lineNum sshTunnelList
        (ruleText [c]) d requestedPort = true ↔
      c.Holds d requestedPort := by
  rw [specApplies_ruleText_iff junk filename lineNum
    sshTunnelList
    (specAccepted_of_mem _ _ _ _ hAccepted hMem)]
  simp [survivingClauses]

/-
  A rule is the conjunction of its clauses at a destination
  if and only if the clauses that later ones overwrite hold
  there, or a surviving clause rules the destination out.
-/
theorem specApplies_conjunction_iff
    (cs : List Clause)
    (hAccepted :
      specAccepted junk filename lineNum sshTunnelList
        (ruleText cs) = true)
    (d : HostId)
    (requestedPort : Int) :
    ((specApplies junk filename lineNum sshTunnelList
          (ruleText cs) d requestedPort = true ↔
        ∀ c ∈ cs,
          specApplies junk filename lineNum sshTunnelList
            (ruleText [c]) d requestedPort = true) ↔
      (∀ c ∈ overwrittenClauses cs,
          c.Holds d requestedPort) ∨
        ∃ c ∈ survivingClauses cs,
          ¬ c.Holds d requestedPort) := by
  have hSingles :
      (∀ c ∈ cs,
          specApplies junk filename lineNum sshTunnelList
            (ruleText [c]) d requestedPort = true) ↔
        ∀ c ∈ cs, c.Holds d requestedPort :=
    forall₂_congr fun c hMem =>
      specApplies_single_iff junk filename lineNum
        sshTunnelList hAccepted hMem d requestedPort
  have hAll :
      (∀ c ∈ cs, c.Holds d requestedPort) ↔
        (∀ c ∈ survivingClauses cs,
          c.Holds d requestedPort) ∧
        ∀ c ∈ overwrittenClauses cs,
          c.Holds d requestedPort := by
    simp only [mem_iff_surviving_or_overwritten _ cs,
      or_imp, forall_and]
  rw [hSingles, hAll,
    specApplies_ruleText_iff junk filename lineNum
      sshTunnelList hAccepted]
  by_cases hSurviving :
      ∀ c ∈ survivingClauses cs, c.Holds d requestedPort
  · have hNone :
        ¬ ∃ c ∈ survivingClauses cs,
          ¬ c.Holds d requestedPort := by
      simpa using hSurviving
    simp only [hNone, or_false]
    tauto
  · have hSome :
        ∃ c ∈ survivingClauses cs,
          ¬ c.Holds d requestedPort := by
      simpa using hSurviving
    simp only [hSome, or_true, iff_true]
    tauto

/- Of two `contains` clauses only the second is checked. -/
theorem specApplies_contains_contains :
    ¬ ∀ cs d,
      specAccepted (Vector.replicate _ none) none 1 []
        (ruleText cs) = true →
      (specApplies (Vector.replicate _ none) none 1 []
          (ruleText cs) d d.port = true ↔
        ∀ c ∈ cs,
          specApplies (Vector.replicate _ none) none 1 []
            (ruleText [c]) d d.port = true) := by
  intro hClaim
  let containsA : Clause :=
    ⟨.contains, [97], by decide, by decide⟩
  let containsB : Clause :=
    ⟨.contains, [98], by decide, by decide⟩
  have hBoth := hClaim [containsA, containsB]
    (HostId.init.setName [98]) (by decide)
  revert hBoth
  decide

/- The law at a rule that repeats a keyword. -/
theorem specApplies_conjunction_contains :
    let containsA : Clause :=
      ⟨.contains, [97], by decide, by decide⟩
    let containsB : Clause :=
      ⟨.contains, [98], by decide, by decide⟩
    let d := HostId.init.setName [97, 98]
    ((specApplies (Vector.replicate _ none) none 1 []
          (ruleText [containsA, containsB]) d 0 = true ↔
        ∀ c ∈ [containsA, containsB],
          specApplies (Vector.replicate _ none) none 1 []
            (ruleText [c]) d 0 = true) ↔
      (∀ c ∈ overwrittenClauses [containsA, containsB],
          c.Holds d 0) ∨
        ∃ c ∈ survivingClauses [containsA, containsB],
          ¬ c.Holds d 0) := by
  intro containsA containsB d
  exact specApplies_conjunction_iff _ none 1 []
    [containsA, containsB] (by decide) d 0

/- Without repeated keywords every clause constrains. -/
theorem specApplies_of_nodup
    (cs : List Clause)
    (hAccepted :
      specAccepted junk filename lineNum sshTunnelList
        (ruleText cs) = true)
    (hNodup : (cs.map Clause.kind).Nodup)
    (d : HostId)
    (requestedPort : Int) :
    specApplies junk filename lineNum sshTunnelList
        (ruleText cs) d requestedPort = true ↔
      ∀ c ∈ cs, c.Holds d requestedPort := by
  rw [specApplies_ruleText_iff junk filename lineNum
    sshTunnelList hAccepted]
  simp [mem_iff_surviving_or_overwritten _ cs,
    overwrittenClauses_of_nodup hNodup]

end Specs

end SmartSOCKSProxy
