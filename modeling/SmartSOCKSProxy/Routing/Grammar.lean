import SmartSOCKSProxy.Routing.Clauses

/-
  The grammar of rule texts, and what the parser makes of
  other texts.

  The tokens of a text are what lies between its spaces.  The
  grammar is followed except by texts that end right behind a
  keyword whose argument is copied: its argument is NULL.

  Key definitions include:
    * `freshRule`, `parseTokens`
    * `RuleTokens`, `Truncated`, `FollowsGrammar`

  Key theorems include:
    * `parseVia_isOk_iff`
    * `parseTokens_ok`, `parseTokens_crash`,
      `parseTokens_null`
    * `parseRouteRuleSpec_grammar_iff`
-/

namespace SmartSOCKSProxy

------------------------------------------------------------
-- The Parser as a Function of Tokens
------------------------------------------------------------

/- The rule before its first clause. -/
def freshRule
    (junk : Vector (Option SshTunnel)
      routeRuleMaxSshTunnelsPerRule)
    (filename : Option Text)
    (lineNum : Int) : RouteRule :=
  { newRouteRule junk with
    fileName := CBuf.copy (filename.getD [])
    fileLineNumber := lineNum }

/- The pieces of the tokens behind `via`. -/
def viaNames
    (tokens : List Text) : List Text :=
  tokens.flatMap fun token => token.splitOn 44

/- Clauses first, then the names of tunnels. -/
def parseTokens
    (sshTunnelList : List SshTunnel)
    (tokens : List Text)
    (route : RouteRule) : Except ParseFailure RouteRule :=
  (parseClauses tokens route).bind fun parsed =>
    parseVia sshTunnelList (viaNames parsed.2) parsed.1

theorem parseRouteRuleSpec_eq
    (junk : Vector (Option SshTunnel)
      routeRuleMaxSshTunnelsPerRule)
    (strIn : Text)
    (filename : Option Text)
    (lineNum : Int)
    (sshTunnelList : List SshTunnel) :
    parseRouteRuleSpec junk strIn filename lineNum
        sshTunnelList =
      parseTokens sshTunnelList (strIn.splitOn 32)
        (freshRule junk filename lineNum) := by
  have hFresh :
      { newRouteRule junk with
        fileName := CBuf.copy (filename.getD [])
        fileLineNumber := lineNum } =
        freshRule junk filename lineNum := rfl
  unfold parseRouteRuleSpec parseTokens
  dsimp only
  rw [hFresh]
  cases parseClauses (strIn.splitOn 32)
      (freshRule junk filename lineNum) with
  | error failure => rfl
  | ok parsed => rfl

section Tokens

variable (sshTunnelList : List SshTunnel)

theorem parseTokens_nil
    (route : RouteRule) :
    parseTokens sshTunnelList [] route = .ok route := by
  unfold parseTokens parseClauses
  rfl

theorem parseTokens_via
    (tokens : List Text)
    (route : RouteRule) :
    parseTokens sshTunnelList (kwVia :: tokens) route =
      parseVia sshTunnelList (viaNames tokens) route := by
  have hNe : kwVia ≠ kwResolveDns := by decide
  unfold parseTokens parseClauses
  rw [if_neg hNe, if_pos rfl]
  rfl

theorem parseTokens_clauses
    (cs : List RuleClause)
    (tokens : List Text)
    (route : RouteRule) :
    parseTokens sshTunnelList
        (cs.flatMap RuleClause.tokens ++ tokens) route =
      (storeAll cs route).elim (.error .null)
        (parseTokens sshTunnelList tokens) := by
  unfold parseTokens
  rw [parseClauses_clauses]
  cases storeAll cs route <;> rfl

theorem parseTokens_clause
    (c : RuleClause)
    (tokens : List Text)
    (route : RouteRule) :
    parseTokens sshTunnelList (c.tokens ++ tokens) route =
      (c.store route).elim (.error .null)
        (parseTokens sshTunnelList tokens) := by
  unfold parseTokens
  rw [parseClauses_clause]
  cases c.store route <;> rfl

------------------------------------------------------------
-- Tunnel Names
------------------------------------------------------------

/- Every name is the name of a tunnel; some may be empty. -/
def NamesKnown
    (names : List Text) : Prop :=
  ∀ name ∈ names, name ≠ [] →
    ∃ ssh ∈ sshTunnelList, ssh.name.text = name

/- The tunnels of a list of known names are added. -/
theorem parseVia_isOk_iff
    (names : List Text)
    (route : RouteRule) :
    ((∃ r, parseVia sshTunnelList names route = .ok r) ↔
        NamesKnown sshTunnelList names) ∧
      (¬NamesKnown sshTunnelList names →
        parseVia sshTunnelList names route =
          .error .null) := by
  induction names generalizing route with
  | nil => simp [parseVia, NamesKnown]
  | cons name names ih =>
      unfold NamesKnown at ih ⊢
      rw [List.forall_mem_cons]
      unfold parseVia
      by_cases hEmpty : name = []
      · rw [if_pos hEmpty]
        simpa [hEmpty] using ih route
      rw [if_neg hEmpty]
      cases hFind : sshTunnelList.find?
          (fun ssh => ssh.name.text = name) with
      | none =>
          have hUnknown :
              ¬∃ ssh ∈ sshTunnelList,
                ssh.name.text = name := by
            rintro ⟨ssh, hMem, hName⟩
            have hNone := List.find?_eq_none.mp hFind ssh hMem
            exact hNone (decide_eq_true hName)
          simp [hEmpty, hUnknown]
      | some ssh =>
          have hName := List.find?_some hFind
          have hKnown :
              ∃ ssh ∈ sshTunnelList,
                ssh.name.text = name :=
            ⟨ssh, List.mem_of_find?_eq_some hFind,
              of_decide_eq_true hName⟩
          simpa [hEmpty, hKnown] using
            ih (addTunnel route ssh)

------------------------------------------------------------
-- The Grammar
------------------------------------------------------------

/-
  The tokens of a rule: clauses, and possibly `via` with
  names of tunnels.
-/
inductive RuleTokens : List Text → Prop
| done : RuleTokens []
| via
    {tokens : List Text}
    (hKnown : NamesKnown sshTunnelList (viaNames tokens)) :
    RuleTokens (kwVia :: tokens)
| clause
    {c : RuleClause}
    {tokens : List Text}
    (hValid : c.Valid)
    (hRest : RuleTokens tokens) :
    RuleTokens (c.tokens ++ tokens)

/-
  Clauses, and then a keyword whose argument would be copied
  but is missing.
-/
inductive Truncated : List Text → Prop
| bare
    {k : Keyword}
    (hText : k.IsText) :
    Truncated [k.text]
| clause
    {c : RuleClause}
    {tokens : List Text}
    (hValid : c.Valid)
    (hRest : Truncated tokens) :
    Truncated (c.tokens ++ tokens)

/- A text of the grammar gives a rule. -/
theorem parseTokens_ok
    {tokens : List Text}
    (hTokens : RuleTokens sshTunnelList tokens)
    (route : RouteRule) :
    ∃ r, parseTokens sshTunnelList tokens route = .ok r := by
  induction hTokens generalizing route with
  | done =>
      exact ⟨route, parseTokens_nil sshTunnelList route⟩
  | @via tokens hKnown =>
      rw [parseTokens_via]
      exact (parseVia_isOk_iff sshTunnelList
        (viaNames tokens) route).1.mpr hKnown
  | @clause c tokens hValid _ ih =>
      rw [parseTokens_clause]
      rcases Option.isSome_iff_exists.mp
          ((c.isSome_store route).mpr hValid) with
        ⟨next, hStore⟩
      rw [hStore]
      exact ih next

/- strncpy() is called with NULL. -/
theorem parseTokens_crash
    {tokens : List Text}
    (hTokens : Truncated tokens)
    (route : RouteRule) :
    parseTokens sshTunnelList tokens route =
      .error .crash := by
  induction hTokens generalizing route with
  | @bare k hText =>
      have hKeyword : isTextKeyword k.text = true :=
        (Keyword.isTextKeyword_iff k.text).mpr
          ⟨k, hText, rfl⟩
      unfold parseTokens parseClauses
      rw [if_neg k.text_ne.1, if_neg k.text_ne.2]
      dsimp only
      rw [if_pos hKeyword]
      rfl
  | @clause c tokens hValid _ ih =>
      rw [parseTokens_clause]
      rcases Option.isSome_iff_exists.mp
          ((c.isSome_store route).mpr hValid) with
        ⟨next, hStore⟩
      rw [hStore]
      exact ih next

/- A clause in front, when it is not to blame. -/
theorem parseTokens_null_clause
    {c : RuleClause}
    {tokens : List Text}
    (hGrammar :
      ¬RuleTokens sshTunnelList (c.tokens ++ tokens))
    (hWhole : ¬Truncated (c.tokens ++ tokens))
    (hRest :
      ∀ route, ¬RuleTokens sshTunnelList tokens →
        ¬Truncated tokens →
          parseTokens sshTunnelList tokens route =
            .error .null)
    (route : RouteRule) :
    parseTokens sshTunnelList (c.tokens ++ tokens) route =
      .error .null := by
  rw [parseTokens_clause]
  cases hStore : c.store route with
  | none => rfl
  | some next =>
      have hValid : c.Valid := by
        rw [← c.isSome_store route, hStore]
        rfl
      exact hRest next
        (fun hTokens => hGrammar (.clause hValid hTokens))
        (fun hTokens => hWhole (.clause hValid hTokens))

/- Any other text gives NULL. -/
theorem parseTokens_null
    (tokens : List Text)
    (hGrammar : ¬RuleTokens sshTunnelList tokens)
    (hWhole : ¬Truncated tokens)
    (route : RouteRule) :
    parseTokens sshTunnelList tokens route =
      .error .null := by
  induction tokens using List.twoStepInduction
    generalizing route with
  | nil => exact absurd .done hGrammar
  | singleton cmd =>
      by_cases hDns : cmd = kwResolveDns
      · subst hDns
        exact absurd
          (.clause (c := .resolveDns) trivial .done) hGrammar
      by_cases hVia : cmd = kwVia
      · subst hVia
        exact absurd (.via fun _ hMem => nomatch hMem)
          hGrammar
      have hKeyword : isTextKeyword cmd ≠ true := by
        intro hText
        rcases (Keyword.isTextKeyword_iff cmd).mp hText with
          ⟨k, hCopied, rfl⟩
        exact hWhole (.bare hCopied)
      unfold parseTokens parseClauses
      rw [if_neg hDns, if_neg hVia]
      simp [hKeyword, Except.bind]
  | cons_cons cmd param rest ih ihTail =>
      by_cases hDns : cmd = kwResolveDns
      · subst hDns
        exact parseTokens_null_clause sshTunnelList
          (c := .resolveDns) hGrammar hWhole
          (fun route hRest hEnd =>
            ihTail param hRest hEnd route) route
      by_cases hVia : cmd = kwVia
      · subst hVia
        rw [parseTokens_via]
        apply (parseVia_isOk_iff sshTunnelList _ route).2
        intro hKnown
        exact hGrammar (.via hKnown)
      by_cases hKeyword : ∃ k : Keyword, cmd = k.text
      · rcases hKeyword with ⟨k, rfl⟩
        exact parseTokens_null_clause sshTunnelList
          (c := .arg k param) hGrammar hWhole
          (fun route hRest hEnd => ih hRest hEnd route) route
      · rw [not_exists] at hKeyword
        unfold parseTokens parseClauses
        rw [if_neg hDns, if_neg hVia]
        simp only [grabClause_of_ne hKeyword]
        rfl

end Tokens

------------------------------------------------------------
-- Rule Texts
------------------------------------------------------------

/-
  A result as the grammar wants it: a rule for the texts of
  the grammar, NULL for all others, and nothing else.
-/
def FollowsGrammar
    (result : Except ParseFailure RouteRule)
    (inGrammar : Prop) : Prop :=
  result ≠ .error .crash ∧
    ((∃ route, result = .ok route) ↔ inGrammar) ∧
    (¬inGrammar → result = .error .null)

/-
  The parser follows its grammar except for texts that end
  behind `is`, `startsWith`, `endsWith` or `contains`.
-/
theorem parseRouteRuleSpec_grammar_iff
    (junk : Vector (Option SshTunnel)
      routeRuleMaxSshTunnelsPerRule)
    (strIn : Text)
    (filename : Option Text)
    (lineNum : Int)
    (sshTunnelList : List SshTunnel) :
    FollowsGrammar
        (parseRouteRuleSpec junk strIn filename lineNum
          sshTunnelList)
        (RuleTokens sshTunnelList (strIn.splitOn 32)) ↔
      ¬Truncated (strIn.splitOn 32) := by
  let route := freshRule junk filename lineNum
  unfold FollowsGrammar
  rw [parseRouteRuleSpec_eq]
  constructor
  · rintro ⟨hNoCrash, _⟩ hTokens
    exact hNoCrash
      (parseTokens_crash sshTunnelList hTokens route)
  · intro hWhole
    by_cases hGrammar :
        RuleTokens sshTunnelList (strIn.splitOn 32)
    · rcases parseTokens_ok sshTunnelList hGrammar route with
        ⟨r, hOk⟩
      rw [hOk]
      refine ⟨nofun, ?_, fun hNot => absurd hGrammar hNot⟩
      exact iff_of_true ⟨r, rfl⟩ hGrammar
    · rw [parseTokens_null sshTunnelList _ hGrammar hWhole
        route]
      refine ⟨nofun, ?_, fun _ => rfl⟩
      exact iff_of_false nofun hGrammar

/- The text `is` takes the process down. -/
theorem parseRouteRuleSpec_bareIs :
    ¬FollowsGrammar
      (parseRouteRuleSpec (Vector.replicate _ none) kwIs none
        1 [])
      (RuleTokens [] (kwIs.splitOn 32)) := by
  rintro ⟨hNoCrash, _⟩
  apply hNoCrash
  decide

end SmartSOCKSProxy
