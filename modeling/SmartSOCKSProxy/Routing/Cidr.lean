import SmartSOCKSProxy.Routing.Networks

/-
  Prefix lengths in rules.

  A mask may be written as the length of a prefix.  What the
  parser takes for a length is more than that, and it gets
  some lengths wrong.

  Key definitions include:
    * `IsPrefixLength`, `IsMaskText`, `SamePrefix`
    * `netText`, `MatchesPrefixes`, `MaskReadRight`

  Key theorems include:
    * `maskOf_prefixLength`, `maskOf_eq_none_iff`
    * `matchesPrefixes_iff`
-/

namespace SmartSOCKSProxy

------------------------------------------------------------
-- Texts of Masks
------------------------------------------------------------

/- The decimal text of a prefix length. -/
def IsPrefixLength
    (m : Text)
    (p : Nat) : Prop :=
  m.IsNumeral ∧ m.decimal = p ∧ p ≤ 32

/- A dotted quad or a prefix length. -/
def IsMaskText
    (m : Text) : Prop :=
  (inetPton4 m).isSome ∨ ∃ p, IsPrefixLength m p

/- The highest `p` bits are equal. -/
def SamePrefix
    (p : Nat)
    (addr addr' : UInt32) : Prop :=
  addr.toNat / 2 ^ (32 - p) = addr'.toNat / 2 ^ (32 - p)

/- The number that the parser reads for a numeral. -/
def readLength
    (m : Text) : Nat :=
  if m.head? = some 48 then m.octal else m.decimal

/- No numeral is a dotted quad. -/
theorem inetPton4_numeral
    {m : Text}
    (hNumeral : m.IsNumeral) :
    inetPton4 m = none := by
  have hDot : 46 ∉ m := by
    intro hMem
    exact absurd (hNumeral.2 46 hMem) Bool.false_ne_true
  unfold inetPton4
  rw [List.splitOn_eq_singleton hDot, List.map_singleton]
  cases parseOctet m <;> rfl

theorem readLength_le
    {m : Text}
    {p : Nat}
    (hLength : IsPrefixLength m p) :
    readLength m ≤ 32 := by
  rcases hLength with ⟨hNumeral, hValue, hLe⟩
  unfold readLength
  rcases Text.octal_cases hNumeral.2 with
      ⟨hSame, _⟩ | ⟨hLt, _⟩ <;>
    split <;> omega

/- The mask of a prefix length, as the parser reads it. -/
theorem maskOf_prefixLength
    {m : Text}
    {p : Nat}
    (hLength : IsPrefixLength m p) :
    maskOf m =
      some (netMask (if readLength m = 0 then 32
        else readLength m)).toUInt64 := by
  have hRead := readLength_le hLength
  rcases hLength with ⟨hNumeral, hValue, hLe⟩
  have hSlash : 47 ∉ m := by
    intro hMem
    exact absurd (hNumeral.2 47 hMem) Bool.false_ne_true
  rw [maskOf_of_not_mem hSlash]
  unfold convertStringToIpv4Ulong
  rw [inetPton4_numeral hNumeral,
    Text.scanInt_numeral hNumeral (by omega)]
  exact congrArg some (prefixMask_eq hRead)

/- Every text of a mask is taken for one. -/
theorem isSome_maskOf_of_isMaskText
    {m : Text}
    (hMask : IsMaskText m) :
    (maskOf m).isSome := by
  rcases hMask with hQuad | ⟨p, hLength⟩
  · rcases Option.isSome_iff_exists.mp hQuad with
      ⟨mask, hQuad⟩
    rw [maskOf_dottedQuad hQuad]
    rfl
  · rw [maskOf_prefixLength hLength]
    rfl

/-
  The mask of a prefix length is right when the length is not
  zero, and has no leading zero or is below eight.
-/
theorem readLength_iff
    {m : Text}
    {p : Nat}
    (hLength : IsPrefixLength m p) :
    (if readLength m = 0 then 32 else readLength m) = p ↔
      0 < p ∧ (m.head? = some 48 → p ≤ 7) := by
  rcases hLength with ⟨hNumeral, hValue, hLe⟩
  unfold readLength
  by_cases hHead : m.head? = some 48
  · rw [if_pos hHead]
    rcases Text.octal_cases hNumeral.2 with
      ⟨hSame, hSmall⟩ | ⟨hLt, hEight⟩
    · split <;> simp only [hHead, forall_const] <;> omega
    · have hPos : 10 ≤ p → 0 < m.octal := fun hTen =>
        Text.octal_pos hNumeral.2 (by omega) (by omega)
      split <;> simp only [hHead, forall_const] <;> omega
  · have hNoZero : m.head? = some 48 → p ≤ 7 :=
      fun hZero => absurd hZero hHead
    rw [if_neg hHead, hValue, and_iff_left hNoZero]
    split <;> omega

------------------------------------------------------------
-- One Network Clause
------------------------------------------------------------

/- The keywords that an address and a mask follow. -/
def Keyword.TakesNetwork : Keyword → Prop
  | .network => True
  | .map => True
  | .to => True
  | _ => False

theorem Keyword.accepts_iff_of_takesNetwork
    {k : Keyword}
    (hNet : k.TakesNetwork)
    (param : Text) :
    k.Accepts param ↔ (netv4Argument param).isSome := by
  cases k <;> first | exact hNet.elim | exact Iff.rfl

/- The text of a clause: the keyword, a space and `a/m`. -/
def netText
    (a m : Text)
    (k : Keyword) : Text :=
  ruleSpec [.arg k (a ++ 47 :: m)] none

/-
  What the clause should do: the texts of masks are accepted,
  a prefix length stands for the addresses with that prefix,
  and `to` keeps what is behind the prefix.
-/
structure MatchesPrefixes
    (result : Keyword → Except ParseFailure RouteRule)
    (addr : UInt32)
    (m : Text) : Prop where
  accepted :
    ∀ k : Keyword, k.TakesNetwork →
      ((∃ route, result k = .ok route) ↔ IsMaskText m)
  applies :
    ∀ k : Keyword, k = .network ∨ k = .map →
      ∀ p, IsPrefixLength m p →
        ∀ route, result k = .ok route →
          ∀ d dst, d.ipv4 = some dst →
            (thisRouteApplies route (DstCache.load d)
                d.port = true ↔
              SamePrefix p dst addr)
  keeps :
    ∀ p, IsPrefixLength m p →
      ∀ route, result .to = .ok route →
        ∀ st dst, st.Fresh →
          st.con.dstHost.ipv4 = some dst →
            ∃ new,
              (applyTo route st).con.dstHost.ipv4 =
                  some new ∧
                new.toNat % 2 ^ (32 - p) =
                  dst.toNat % 2 ^ (32 - p) ∧
                SamePrefix p new addr

/- The mask of a prefix compares what is in the prefix. -/
theorem samePrefix_iff
    (p : Nat)
    (addr addr' : UInt32) :
    SamePrefix p addr addr' ↔
      addr.toBitVec &&& (netMask p).toBitVec =
        addr'.toBitVec &&& (netMask p).toBitVec :=
  (BitVec.and_highMask_eq_iff (32 - p) addr.toBitVec
    addr'.toBitVec).symm

/-
  The texts for which the clause does what it should: dotted
  quads, lengths from 1 to 32 without a leading zero or below
  eight, and texts that start with neither a dotted quad nor
  an integer.
-/
def MaskReadRight
    (m : Text) : Prop :=
  (inetPton4 m).isSome ∨
    (∃ p, IsPrefixLength m p ∧ 0 < p ∧
      (m.head? = some 48 → p ≤ 7)) ∨
    (inetPton4 ((m.splitOn 47).headD []) = none ∧
      Text.scanInt ((m.splitOn 47).headD []) = none)

theorem maskOf_eq_none_iff
    (m : Text) :
    maskOf m = none ↔
      inetPton4 ((m.splitOn 47).headD []) = none ∧
        Text.scanInt ((m.splitOn 47).headD []) = none := by
  unfold maskOf convertStringToIpv4Ulong
  dsimp only
  cases inetPton4 ((m.splitOn 47).headD []) with
  | some mask => exact iff_of_false nofun nofun
  | none =>
      cases Text.scanInt ((m.splitOn 47).headD []) with
      | some len => exact iff_of_false nofun nofun
      | none => exact iff_of_true rfl ⟨rfl, rfl⟩

/- A text that is read right has the mask it spells. -/
theorem MaskReadRight.maskOf_prefixLength
    {m : Text}
    (hRight : MaskReadRight m)
    {p : Nat}
    (hLength : IsPrefixLength m p) :
    maskOf m = some (netMask p).toUInt64 := by
  have hMask := SmartSOCKSProxy.maskOf_prefixLength hLength
  rcases hRight with hQuad | ⟨q, hLength', hRead⟩ | hNone
  · rw [inetPton4_numeral hLength.1] at hQuad
    cases hQuad
  · have hSame : q = p :=
      hLength'.2.1.symm.trans hLength.2.1
    subst hSame
    rw [hMask, (readLength_iff hLength).mpr hRead]
  · rw [(maskOf_eq_none_iff m).mpr hNone] at hMask
    cases hMask

section Clause

variable {a m : Text}
variable {addr : UInt32}
variable (hAddr : inetPton4 a = some addr)
variable (hSpace : 32 ∉ m)
variable (junk : Vector (Option SshTunnel)
  routeRuleMaxSshTunnelsPerRule)
variable (filename : Option Text)
variable (lineNum : Int)
variable (sshTunnelList : List SshTunnel)

include hAddr hSpace

/- The rule is the one with the clause stored. -/
theorem parseRouteRuleSpec_netText
    (k : Keyword) :
    parseRouteRuleSpec junk (netText a m k) filename lineNum
        sshTunnelList =
      (k.store (a ++ 47 :: m)
        (freshRule junk filename lineNum)).elim
          (.error .null) .ok := by
  have hSpaceless :
      ∀ c ∈ [RuleClause.arg k (a ++ 47 :: m)],
        c.Spaceless := by
    intro c hMem
    rw [List.mem_singleton.mp hMem]
    exact space_not_mem_slash hAddr hSpace
  unfold netText
  rw [parseRouteRuleSpec_clauses (List.cons_ne_nil _ _)
    hSpaceless]
  change Option.elim ((k.store (a ++ 47 :: m)
    (freshRule junk filename lineNum)).bind some) _ _ = _
  rw [Option.bind_fun_some]

/- It exists when the mask is taken for one. -/
theorem netText_isOk_iff
    {k : Keyword}
    (hNet : k.TakesNetwork) :
    (∃ route,
        parseRouteRuleSpec junk (netText a m k) filename
          lineNum sshTunnelList = .ok route) ↔
      (maskOf m).isSome := by
  have hAccepts :
      k.Accepts (a ++ 47 :: m) ↔ (maskOf m).isSome := by
    rw [Keyword.accepts_iff_of_takesNetwork hNet,
      netv4Argument_slash hAddr, Option.isSome_map]
  rw [parseRouteRuleSpec_netText hAddr hSpace, ← hAccepts,
    ← k.isSome_store _ (freshRule junk filename lineNum)]
  cases k.store (a ++ 47 :: m)
      (freshRule junk filename lineNum) with
  | none => exact iff_of_false nofun nofun
  | some route => exact iff_of_true ⟨route, rfl⟩ rfl

/- A rule with one network applies to its addresses. -/
theorem netText_applies_iff
    {mask : UInt32}
    (hMask : maskOf m = some mask.toUInt64)
    {k : Keyword}
    (hKeyword : k = .network ∨ k = .map)
    {route : RouteRule}
    (hParse :
      parseRouteRuleSpec junk (netText a m k) filename
        lineNum sshTunnelList = .ok route)
    {d : HostId}
    {dst : UInt32}
    (hDst : d.ipv4 = some dst) :
    thisRouteApplies route (DstCache.load d) d.port = true ↔
      dst.toBitVec &&& mask.toBitVec =
        addr.toBitVec &&& mask.toBitVec := by
  have hArgument := netv4Argument_slash hAddr m
  rw [hMask, Option.map_some] at hArgument
  have hInside :
      d.InNetwork addr.toUInt64 mask.toUInt64 ↔
        dst &&& mask = addr &&& mask := by
    rw [inNetwork_iff, hDst]
    simp
  rw [parseRouteRuleSpec_netText hAddr hSpace] at hParse
  rw [thisRouteApplies_iff, ← and_eq_and_iff, ← hInside]
  rcases hKeyword with rfl | rfl
  · rw [Keyword.store, hArgument] at hParse
    cases hParse
    constructor
    · intro hMatches
      exact hMatches.network rfl
    · intro hHere
      exact ⟨.inl rfl, .inl rfl, .inl rfl, .inl rfl, .inl rfl,
        fun _ => hHere, fun hOff => Bool.noConfusion hOff⟩
  · rw [Keyword.store, hArgument] at hParse
    cases hParse
    constructor
    · intro hMatches
      exact hMatches.map rfl
    · intro hHere
      exact ⟨.inl rfl, .inl rfl, .inl rfl, .inl rfl, .inl rfl,
        fun hOff => Bool.noConfusion hOff, fun _ => hHere⟩

/- `to` blends the address with the one of the rule. -/
theorem netText_to
    {mask : UInt32}
    (hMask : maskOf m = some mask.toUInt64)
    {route : RouteRule}
    (hParse :
      parseRouteRuleSpec junk (netText a m .to) filename
        lineNum sshTunnelList = .ok route)
    {st : EngineState}
    (hFresh : st.Fresh)
    {dst : UInt32}
    (hDst : st.con.dstHost.ipv4 = some dst) :
    ∃ new,
      (applyTo route st).con.dstHost.ipv4 = some new ∧
        new.toBitVec =
          BitVec.blend mask.toBitVec dst.toBitVec
            addr.toBitVec := by
  have hArgument := netv4Argument_slash hAddr m
  rw [hMask, Option.map_some] at hArgument
  rw [parseRouteRuleSpec_netText hAddr hSpace,
    Keyword.store, hArgument] at hParse
  have hFields :
      route.haveToIpv4 = true ∧
        route.toIpv4Addr = addr.toUInt64 ∧
        route.toIpv4Mask = mask.toUInt64 := by
    cases hParse
    exact ⟨rfl, rfl, rfl⟩
  rcases hFields with ⟨hTo, hNet, hToMask⟩
  refine ⟨route.toAddr dst, ?_,
    toAddr_eq_blend hNet hToMask dst⟩
  have hHost :=
    congrArg Located.host (applyTo_refines route hFresh).2.1
  exact (congrArg HostId.ipv4 hHost).trans
    (rewriteTo_of_ipv4 hTo hDst).1

/- Only the right mask compares what is in the prefix. -/
theorem MatchesPrefixes.length_eq
    {p q : Nat}
    (hLength : IsPrefixLength m p)
    (hLe : q ≤ 32)
    (hMask : maskOf m = some (netMask q).toUInt64)
    (hRules :
      MatchesPrefixes
        (fun k =>
          parseRouteRuleSpec junk (netText a m k) filename
            lineNum sshTunnelList)
        addr m) :
    q = p := by
  rcases (netText_isOk_iff hAddr hSpace junk filename lineNum
      sshTunnelList (k := .network) trivial).mpr
      (isSome_maskOf_of_isMaskText (.inr ⟨p, hLength⟩)) with
    ⟨route, hParse⟩
  have hSame :
      ∀ dst : BitVec 32,
        dst &&& (netMask q).toBitVec =
            addr.toBitVec &&& (netMask q).toBitVec ↔
          dst &&& (netMask p).toBitVec =
            addr.toBitVec &&& (netMask p).toBitVec := by
    intro dst
    have hApplies := hRules.applies .network (.inl rfl) p
      hLength route hParse
      ⟨CBuf.empty, .inet 0 (.ofBitVec dst), 0⟩ _ rfl
    rw [netText_applies_iff hAddr hSpace junk filename
      lineNum sshTunnelList hMask (.inl rfl) hParse rfl,
      samePrefix_iff] at hApplies
    exact hApplies
  have hPrefix := BitVec.highMask_inj (Nat.sub_le 32 q)
    (Nat.sub_le 32 p) (BitVec.mask_ext hSame)
  have hLe' := hLength.2.2
  omega

/-
  The clause does what it should for the texts that are read
  right, and for no others.
-/
theorem matchesPrefixes_iff :
    MatchesPrefixes
        (fun k =>
          parseRouteRuleSpec junk (netText a m k) filename
            lineNum sshTunnelList)
        addr m ↔
      MaskReadRight m := by
  have hOk := fun k hNet => netText_isOk_iff hAddr hSpace
    junk filename lineNum sshTunnelList (k := k) hNet
  constructor
  · intro hRules
    by_cases hText : IsMaskText m
    · rcases hText with hQuad | ⟨p, hLength⟩
      · exact .inl hQuad
      have hRead := readLength_le hLength
      have hLengths :=
        hRules.length_eq hAddr hSpace junk filename lineNum
          sshTunnelList hLength (by split <;> omega)
          (maskOf_prefixLength hLength)
      exact .inr (.inl ⟨p, hLength,
        (readLength_iff hLength).mp hLengths⟩)
    · refine .inr (.inr ((maskOf_eq_none_iff m).mp ?_))
      rw [← Option.not_isSome_iff_eq_none,
        ← hOk .network trivial,
        hRules.accepted .network trivial]
      exact hText
  · intro hRight
    refine ⟨?_, ?_, ?_⟩
    · intro k hNet
      rw [hOk k hNet]
      refine ⟨?_, isSome_maskOf_of_isMaskText⟩
      intro hSome
      rcases hRight with hQuad | ⟨p, hLength, _⟩ | hNone
      · exact .inl hQuad
      · exact .inr ⟨p, hLength⟩
      · rw [(maskOf_eq_none_iff m).mpr hNone] at hSome
        cases hSome
    · intro k hKeyword p hLength route hParse d dst hDst
      rw [netText_applies_iff hAddr hSpace junk filename
        lineNum sshTunnelList
        (hRight.maskOf_prefixLength hLength) hKeyword hParse
        hDst, samePrefix_iff]
    · intro p hLength route hParse st dst hFresh hDst
      rcases netText_to hAddr hSpace junk filename lineNum
          sshTunnelList (hRight.maskOf_prefixLength hLength)
          hParse hFresh hDst with ⟨new, hNew, hBlend⟩
      refine ⟨new, hNew, ?_, ?_⟩
      · have hBeside :=
          BitVec.blend_and_not (netMask p).toBitVec
            dst.toBitVec addr.toBitVec
        rw [← hBlend] at hBeside
        exact (BitVec.and_not_highMask_eq_iff (32 - p)
          new.toBitVec dst.toBitVec).mp hBeside
      · have hUnder :=
          BitVec.blend_and_mask (netMask p).toBitVec
            dst.toBitVec addr.toBitVec
        rw [← hBlend] at hUnder
        exact (samePrefix_iff p new addr).mpr hUnder

end Clause

/- `10.0.0.0` -/
def netTen : Text :=
  Text.ascii ['1', '0', '.', '0', '.', '0', '.', '0']

theorem inetPton4_netTen :
    inetPton4 netTen = some 0x0a000000 := by
  decide +kernel

theorem isPrefixLength_zero :
    IsPrefixLength [48] 0 := by
  refine ⟨⟨List.cons_ne_nil _ _, ?_⟩, rfl, Nat.zero_le 32⟩
  intro b hMem
  rw [List.mem_singleton.mp hMem]
  rfl

/- The network `10.0.0.0/8`. -/
theorem matchesPrefixes_ten :
    MatchesPrefixes
      (fun k =>
        parseRouteRuleSpec (Vector.replicate _ none)
          (netText netTen [56] k) none 1 [])
      0x0a000000 [56] := by
  have hSpace : (32 : UInt8) ∉ ([56] : Text) := by decide
  have hLength : IsPrefixLength [56] 8 := by
    refine ⟨⟨List.cons_ne_nil _ _, ?_⟩, rfl, by decide⟩
    intro b hMem
    rw [List.mem_singleton.mp hMem]
    rfl
  apply (matchesPrefixes_iff inetPton4_netTen hSpace _ none 1
    []).mpr
  exact .inr (.inl ⟨8, hLength, Nat.succ_pos 7, nofun⟩)

/- The network `10.0.0.0/0` holds a single address. -/
theorem matchesPrefixes_zero_fails :
    ¬MatchesPrefixes
      (fun k =>
        parseRouteRuleSpec (Vector.replicate _ none)
          (netText netTen [48] k) none 1 [])
      0x0a000000 [48] := by
  intro hRules
  have hSpace : (32 : UInt8) ∉ ([48] : Text) := by decide
  have hMask :
      maskOf [48] = some (netMask 32).toUInt64 := by
    decide
  have hLengths :=
    hRules.length_eq inetPton4_netTen hSpace _ none 1 []
      isPrefixLength_zero le_rfl hMask
  cases hLengths

end SmartSOCKSProxy
