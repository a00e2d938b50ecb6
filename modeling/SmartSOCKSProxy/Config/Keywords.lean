import SmartSOCKSProxy.Config.ConfigFile

/-
  Configuration lines are no routing rules.

  A line that includes a file or begins a section cannot be
  loaded as a rule, and names no route file.

  Key definitions include:
    * `NoRule`

  Key theorems include:
    * `noRule_of_include`, `noRule_of_header`
-/

namespace SmartSOCKSProxy

/- A line that ends the load of a route file. -/
def NoRule
    (line : Text) : Prop :=
  configSetString stringBufLen line (field "routeFile ") =
      .unset ∧
    ∀ junk filename lineNum sshTunnelList,
      parseRouteRuleSpec junk line filename lineNum
        sshTunnelList = .error .null

/- The words that a clause of a rule begins with. -/
def clauseWords : List Text :=
  [kwResolveDns, kwVia, kwIs, kwStartsWith, kwEndsWith,
    kwContains, kwPort, kwNetwork, kwMap, kwTo]

theorem grabClause_eq_none
    {cmd : Text}
    (hWord : cmd ∉ clauseWords)
    (param : Text)
    (route : RouteRule) :
    grabClause cmd param route = none := by
  simp only [clauseWords, List.mem_cons, List.not_mem_nil,
    or_false, not_or] at hWord
  rcases hWord with ⟨_, _, hIs, hStarts, hEnds, hContains,
    hPort, hNetwork, hMap, hTo⟩
  simp [grabClause, routeRuleGrabParam, routeRuleGrabNetv4,
    hPort, hNetwork, hMap, hTo, Ne.symm hIs, Ne.symm hStarts, Ne.symm hEnds,
    Ne.symm hContains]

/- A rule does not begin with another word. -/
theorem parseClauses_eq_null
    {cmd : Text}
    (hWord : cmd ∉ clauseWords)
    (tokens : List Text)
    (route : RouteRule) :
    parseClauses (cmd :: tokens) route = .error .null := by
  have hWords := hWord
  simp only [clauseWords, List.mem_cons, List.not_mem_nil,
    or_false, not_or] at hWords
  rcases hWords with ⟨hDns, hVia, hIs, hStarts, hEnds,
    hContains, _⟩
  unfold parseClauses
  rw [if_neg hDns, if_neg hVia]
  cases tokens with
  | nil =>
      simp [isTextKeyword, hIs, hStarts, hEnds, hContains]
  | cons param rest =>
      simp only [grabClause_eq_none hWord]

theorem parseRouteRuleSpec_eq_null
    {strIn cmd : Text}
    {tokens : List Text}
    (hTokens : strIn.splitOn 32 = cmd :: tokens)
    (hWord : cmd ∉ clauseWords)
    (junk : Vector (Option SshTunnel)
      routeRuleMaxSshTunnelsPerRule)
    (filename : Option Text)
    (lineNum : Int)
    (sshTunnelList : List SshTunnel) :
    parseRouteRuleSpec junk strIn filename lineNum
      sshTunnelList = .error .null := by
  unfold parseRouteRuleSpec
  simp only [hTokens, parseClauses_eq_null hWord]

/- A line starts with the field that it matches. -/
theorem eq_append_of_matchStart
    {line field value : Text}
    (hMatch : matchStart line field = some value) :
    line = field ++ value := by
  unfold matchStart at hMatch
  split_ifs at hMatch with hStarts
  rw [stringStartsWith_iff] at hStarts
  rcases hStarts with ⟨rest, rfl⟩
  rw [List.drop_left, Option.some_inj] at hMatch
  rw [hMatch]

theorem matchStart_eq_none
    {line field : Text}
    (hHead : field.head? ≠ none ∧ field.head? ≠ line.head?) :
    matchStart line field = none := by
  cases hMatch : matchStart line field with
  | none => rfl
  | some value =>
      exfalso
      rw [eq_append_of_matchStart hMatch] at hHead
      cases field with
      | nil => exact hHead.1 rfl
      | cons c cs => exact hHead.2 rfl

/- A line that begins with a word other than these. -/
theorem noRule_of_word
    {line cmd : Text}
    {tokens : List Text}
    (hTokens : line.splitOn 32 = cmd :: tokens)
    (hWord : cmd ∉ clauseWords)
    (hHead : line.head? ≠ some 114) :
    NoRule line := by
  refine ⟨?_, parseRouteRuleSpec_eq_null hTokens hWord⟩
  have hNone :
      matchStart line (field "routeFile ") = none := by
    apply matchStart_eq_none
    exact ⟨by decide, fun hEq => hHead hEq.symm⟩
  simp only [configSetString, hNone]

/- The same for a word that a space follows. -/
theorem noRule_of_matchStart
    (word : Text)
    {line value : Text}
    (hMatch : matchStart line (word ++ [32]) = some value)
    (hSpace : (32 : UInt8) ∉ word)
    (hWord : word ∉ clauseWords)
    (hHead : (word ++ [32]).head? ≠ some 114) :
    NoRule line := by
  have hLine := eq_append_of_matchStart hMatch
  rw [List.append_assoc, List.singleton_append] at hLine
  apply noRule_of_word _ hWord
  · rw [hLine]
    cases word with
    | nil => exact hHead
    | cons c cs => exact hHead
  · exact value.splitOn 32
  · rw [hLine]
    exact List.splitOn_append_cons_self_of_not_mem hSpace value

/- An `include` line, also one that overruns its buffer. -/
theorem noRule_of_include
    {line : Text}
    (hInclude :
      configSetString stringBufLen line (field "include ") ≠
        .unset) :
    NoRule line := by
  cases hMatch : matchStart line (field "include ") with
  | none =>
      exfalso
      apply hInclude
      simp only [configSetString, hMatch]
  | some value =>
      exact noRule_of_matchStart (field "include")
        hMatch (by decide) (by decide) (by decide)

/- A header with a name. -/
theorem matchStart_of_namedSection
    {line keyword : Text}
    {load : ConfigLoad}
    {fallback : Section}
    {find : Text → Option Section}
    {create : Text → Header}
    (hHeader :
      namedSection line keyword load fallback find create ≠
        .other) :
    ∃ name, matchStart line keyword = some name := by
  cases hMatch : matchStart line keyword with
  | none =>
      exfalso
      apply hHeader
      simp only [namedSection, hMatch]
  | some name => exact ⟨name, rfl⟩

theorem noRule_of_header
    {world : ConfigWorld}
    {line : Text}
    {load : ConfigLoad}
    (hHeader : sectionHeader world line load ≠ .other) :
    NoRule line := by
  unfold sectionHeader at hHeader
  by_cases hMain : line = field "main"
  · subst hMain
    have hTokens :
        (field "main").splitOn 32 = field "main" :: [] := by
      decide
    exact noRule_of_word hTokens (by decide) (by decide)
  rw [if_neg hMain] at hHeader
  by_cases hLog : logFileHeader line load = .other
  · rw [hLog] at hHeader
    dsimp only at hHeader
    by_cases hProxy : proxyInstanceHeader line load = .other
    · rw [hProxy] at hHeader
      rcases matchStart_of_namedSection hHeader with
        ⟨name, hMatch⟩
      exact noRule_of_matchStart (field "ssh") hMatch
        (by decide) (by decide) (by decide)
    · rcases matchStart_of_namedSection hProxy with
        ⟨name, hMatch⟩
      exact noRule_of_matchStart (field "proxy") hMatch
        (by decide) (by decide) (by decide)
  · rcases matchStart_of_namedSection hLog with
      ⟨name, hMatch⟩
    exact noRule_of_matchStart (field "logfile") hMatch
      (by decide) (by decide) (by decide)

end SmartSOCKSProxy
