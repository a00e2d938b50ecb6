import SmartSOCKSProxy.Routing.RuleParser

/-
  The clauses of a rule, one by one.

  Every keyword that takes an argument has a handler of its
  own, which fills fields of its own.  The parser stores the
  clauses of a text from left to right.

  Key definitions include:
    * `Keyword`, `Keyword.store`, `Keyword.Accepts`
    * `RuleClause`, `RuleClause.store`, `storeAll`

  Key theorems include:
    * `grabClause_text`
    * `parseClauses_clauses`
-/

namespace SmartSOCKSProxy

------------------------------------------------------------
-- Keywords
------------------------------------------------------------

/- The keywords that an argument follows. -/
inductive Keyword where
| is
| startsWith
| endsWith
| contains
| port
| network
| map
| to
deriving DecidableEq, Repr

/- The address and the mask that a token spells. -/
def netv4Argument
    (param : Text) : Option (UInt64 × UInt64) :=
  routeRuleGrabNetv4 [] [] param

namespace Keyword

def text : Keyword → Text
  | .is => kwIs
  | .startsWith => kwStartsWith
  | .endsWith => kwEndsWith
  | .contains => kwContains
  | .port => kwPort
  | .network => kwNetwork
  | .map => kwMap
  | .to => kwTo

/- The keywords whose argument is any text. -/
def IsText : Keyword → Prop
  | .is => True
  | .startsWith => True
  | .endsWith => True
  | .contains => True
  | _ => False

/- The tokens that are arguments of a keyword. -/
def Accepts
    (param : Text) : Keyword → Prop
  | .port => (Text.scanInt param).isSome
  | .network => (netv4Argument param).isSome
  | .map => (netv4Argument param).isSome
  | .to => (netv4Argument param).isSome
  | _ => True

/- The fields that a keyword fills. -/
def store
    (param : Text)
    (route : RouteRule) : Keyword → Option RouteRule
  | .is => some { route with matchIs := CBuf.copy param }
  | .startsWith =>
      some { route with matchStartsWith := CBuf.copy param }
  | .endsWith =>
      some { route with matchEndsWith := CBuf.copy param }
  | .contains =>
      some { route with matchContains := CBuf.copy param }
  | .port =>
      (Text.scanInt param).map fun v =>
        { route with matchPort := v }
  | .network =>
      (netv4Argument param).map fun v =>
        { route with
          haveMatchIpv4 := true
          matchIpv4Addr := v.1
          matchIpv4Mask := v.2 }
  | .map =>
      (netv4Argument param).map fun v =>
        { route with
          haveMapIpv4 := true
          mapIpv4Addr := v.1
          mapIpv4Mask := v.2 }
  | .to =>
      (netv4Argument param).map fun v =>
        { route with
          haveToIpv4 := true
          toIpv4Addr := v.1
          toIpv4Mask := v.2 }

/- An argument is accepted whatever the rule is so far. -/
theorem isSome_store
    (param : Text)
    (route : RouteRule)
    (k : Keyword) :
    (k.store param route).isSome ↔ k.Accepts param := by
  cases k <;> simp [store, Accepts]

/- No two keywords have the same text. -/
theorem text_inj
    (k k' : Keyword) :
    k.text = k'.text ↔ k = k' := by
  cases k <;> cases k' <;> decide

theorem text_ne
    (k : Keyword) :
    k.text ≠ kwResolveDns ∧ k.text ≠ kwVia := by
  cases k <;> decide

theorem space_not_mem_text
    (k : Keyword) :
    (32 : UInt8) ∉ k.text := by
  cases k <;> decide

/- The parser's list of text keywords. -/
theorem isTextKeyword_iff
    (cmd : Text) :
    isTextKeyword cmd = true ↔
      ∃ k : Keyword, k.IsText ∧ cmd = k.text := by
  unfold isTextKeyword
  rw [decide_eq_true_iff]
  constructor
  · rintro (hCmd | hCmd | hCmd | hCmd)
    · exact ⟨.is, trivial, hCmd⟩
    · exact ⟨.startsWith, trivial, hCmd⟩
    · exact ⟨.endsWith, trivial, hCmd⟩
    · exact ⟨.contains, trivial, hCmd⟩
  · rintro ⟨k, hText, hCmd⟩
    cases k with
    | is => exact .inl hCmd
    | startsWith => exact .inr (.inl hCmd)
    | endsWith => exact .inr (.inr (.inl hCmd))
    | contains => exact .inr (.inr (.inr hCmd))
    | _ => exact hText.elim

end Keyword

/- The expected keyword only decides whether to parse. -/
theorem routeRuleGrabNetv4_text
    (expected k : Keyword)
    (param : Text) :
    routeRuleGrabNetv4 expected.text k.text param =
      if k = expected then netv4Argument param else none := by
  unfold netv4Argument routeRuleGrabNetv4
  rw [if_pos rfl]
  by_cases hSame : k = expected
  · rw [if_pos hSame, if_pos (congrArg Keyword.text hSame)]
  · rw [if_neg hSame,
      if_neg fun hText =>
        hSame ((k.text_inj expected).mp hText)]

theorem routeRuleGrabParam_text
    (expected k : Keyword)
    (param : Text) :
    routeRuleGrabParam expected.text k.text param =
      if k = expected then some (CBuf.copy param)
      else none := by
  unfold routeRuleGrabParam
  simp only [Keyword.text_inj, eq_comm]

/- Of all the handlers only that of the keyword acts. -/
theorem grabClause_text
    (k : Keyword)
    (param : Text)
    (route : RouteRule) :
    grabClause k.text param route = k.store param route := by
  have hIs : kwIs = Keyword.is.text := rfl
  have hStarts : kwStartsWith = Keyword.startsWith.text := rfl
  have hEnds : kwEndsWith = Keyword.endsWith.text := rfl
  have hContains : kwContains = Keyword.contains.text := rfl
  have hPort : kwPort = Keyword.port.text := rfl
  have hNetwork : kwNetwork = Keyword.network.text := rfl
  have hMap : kwMap = Keyword.map.text := rfl
  have hTo : kwTo = Keyword.to.text := rfl
  unfold grabClause
  rw [hIs, hStarts, hEnds, hContains, hPort, hNetwork, hMap,
    hTo]
  simp only [routeRuleGrabParam_text,
    routeRuleGrabNetv4_text, Keyword.text_inj]
  cases k <;> simp [Keyword.store]

/- A token that is no keyword is not handled. -/
theorem grabClause_of_ne
    {cmd : Text}
    (hNone : ∀ k : Keyword, cmd ≠ k.text)
    (param : Text)
    (route : RouteRule) :
    grabClause cmd param route = none := by
  have hIs : kwIs ≠ cmd := (hNone .is).symm
  have hStarts : kwStartsWith ≠ cmd := (hNone .startsWith).symm
  have hEnds : kwEndsWith ≠ cmd := (hNone .endsWith).symm
  have hContains : kwContains ≠ cmd := (hNone .contains).symm
  have hPort : cmd ≠ kwPort := hNone .port
  have hNetwork : cmd ≠ kwNetwork := hNone .network
  have hMap : cmd ≠ kwMap := hNone .map
  have hTo : cmd ≠ kwTo := hNone .to
  simp [grabClause, routeRuleGrabParam, routeRuleGrabNetv4,
    hIs, hStarts, hEnds, hContains, hPort, hNetwork, hMap,
    hTo]

/- A clause is accepted whatever the rule is so far. -/
theorem grabClause_isSome
    (cmd param : Text)
    (route route' : RouteRule) :
    (grabClause cmd param route).isSome =
      (grabClause cmd param route').isSome := by
  unfold grabClause
  by_cases hPort : cmd = kwPort
  · simp [hPort]
  · simp [hPort]

------------------------------------------------------------
-- Clauses
------------------------------------------------------------

/- A clause: `resolveDNS`, or a keyword and its argument. -/
inductive RuleClause where
| resolveDns
| arg (keyword : Keyword) (param : Text)
deriving DecidableEq, Repr

namespace RuleClause

def tokens : RuleClause → List Text
  | .resolveDns => [kwResolveDns]
  | .arg k param => [k.text, param]

/- The keyword, or nothing for `resolveDNS`. -/
def keyword : RuleClause → Option Keyword
  | .resolveDns => none
  | .arg k _ => some k

/- The argument is one that its keyword accepts. -/
def Valid : RuleClause → Prop
  | .resolveDns => True
  | .arg k param => k.Accepts param

/- Every argument is a single token. -/
def Spaceless : RuleClause → Prop
  | .resolveDns => True
  | .arg _ param => (32 : UInt8) ∉ param

def store
    (route : RouteRule) : RuleClause → Option RouteRule
  | .resolveDns => some { route with resolveDns := true }
  | .arg k param => k.store param route

theorem isSome_store
    (route : RouteRule)
    (c : RuleClause) :
    (c.store route).isSome ↔ c.Valid := by
  cases c with
  | resolveDns => exact iff_of_true rfl trivial
  | arg k param => exact k.isSome_store param route

/- The tokens of a clause are tokens. -/
theorem space_not_mem_tokens
    {c : RuleClause}
    (hSpaceless : c.Spaceless) :
    ∀ token ∈ c.tokens, (32 : UInt8) ∉ token := by
  intro token hToken
  cases c with
  | resolveDns =>
      rw [List.mem_singleton.mp hToken]
      decide
  | arg k param =>
      rcases List.mem_pair.mp hToken with rfl | rfl
      · exact k.space_not_mem_text
      · exact hSpaceless

end RuleClause

/- The clauses of a text, stored one after the other. -/
def storeAll :
    List RuleClause → RouteRule → Option RouteRule
  | [], route => some route
  | c :: cs, route => (c.store route).bind (storeAll cs)

theorem isSome_storeAll
    (cs : List RuleClause)
    (route : RouteRule) :
    (storeAll cs route).isSome ↔ ∀ c ∈ cs, c.Valid := by
  induction cs generalizing route with
  | nil => simp [storeAll]
  | cons c cs ih =>
      rw [storeAll, List.forall_mem_cons,
        ← c.isSome_store route]
      cases c.store route with
      | none => simp
      | some next =>
          rw [Option.bind_some, ih next]
          simp

/- The parser's turn at a clause. -/
theorem parseClauses_clause
    (c : RuleClause)
    (tokens : List Text)
    (route : RouteRule) :
    parseClauses (c.tokens ++ tokens) route =
      (c.store route).elim (.error .null)
        (parseClauses tokens) := by
  cases c with
  | resolveDns =>
      rw [RuleClause.tokens, List.singleton_append]
      unfold parseClauses
      rw [if_pos rfl]
      rfl
  | arg k param =>
      rw [RuleClause.tokens, List.cons_append,
        List.singleton_append, parseClauses,
        if_neg k.text_ne.1, if_neg k.text_ne.2,
        grabClause_text]
      dsimp only [RuleClause.store]
      cases k.store param route <;> rfl

theorem parseClauses_clauses
    (cs : List RuleClause)
    (tokens : List Text)
    (route : RouteRule) :
    parseClauses
        (cs.flatMap RuleClause.tokens ++ tokens) route =
      (storeAll cs route).elim (.error .null)
        (parseClauses tokens) := by
  induction cs generalizing route with
  | nil => rfl
  | cons c cs ih =>
      rw [List.flatMap_cons, List.append_assoc,
        parseClauses_clause, storeAll]
      cases c.store route with
      | none => rfl
      | some next => exact ih next

end SmartSOCKSProxy
