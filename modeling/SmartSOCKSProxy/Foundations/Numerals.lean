import SmartSOCKSProxy.Foundations.Network

/-
  Numerals, and what sscanf() makes of them.

  The conversion `%i` takes a leading zero for the start of an
  octal number, and stops at the first digit that is none.

  Key definitions include:
    * `Text.IsNumeral`, `Text.decimal`, `Text.octal`
    * `Text.StartsInteger`

  Key theorems include:
    * `Text.octal_cases`, `Text.octal_pos`
    * `Text.scanInt_numeral`, `Text.scanInt_eq_decimal_iff`
    * `Text.isSome_scanInt_iff`
    * `mem_of_inetPton4`
-/

namespace Text

------------------------------------------------------------
-- Digits
------------------------------------------------------------

/- One or more decimal digits. -/
def IsNumeral
    (t : Text) : Prop :=
  t ≠ [] ∧ ∀ b ∈ t, isDigit 10 b = true

/- The number that a numeral denotes. -/
def decimal
    (t : Text) : Nat :=
  digitsValue 10 t

/- The number that its octal digits denote. -/
def octal
    (t : Text) : Nat :=
  digitsValue 8 (t.takeWhile (isDigit 8))

/- The value of a digit decides whether it is octal. -/
theorem isDigit_ten
    {b : UInt8}
    (hDigit : isDigit 10 b = true) :
    ∃ d < 10, digitValue b = some d ∧
      isDigit 8 b = decide (d < 8) := by
  unfold isDigit at hDigit ⊢
  cases hValue : digitValue b with
  | none =>
      rw [hValue] at hDigit
      cases hDigit
  | some d =>
      rw [hValue] at hDigit
      exact ⟨d, of_decide_eq_true hDigit, rfl, rfl⟩

theorem ten_pos : 0 < 10 := Nat.succ_pos 9

/- Digits that follow a number. -/
def digitsFrom
    (base acc : Nat)
    (digits : Text) : Nat :=
  digits.foldl
    (fun acc b => acc * base + (digitValue b).getD 0) acc

theorem le_digitsFrom
    {base : Nat}
    (hBase : 0 < base)
    (acc : Nat)
    (digits : Text) :
    acc ≤ digitsFrom base acc digits := by
  induction digits generalizing acc with
  | nil => exact le_rfl
  | cons b digits ih =>
      have hStep :
          acc ≤ acc * base + (digitValue b).getD 0 :=
        (Nat.le_mul_of_pos_right acc hBase).trans
          (Nat.le_add_right _ _)
      exact hStep.trans (ih _)

/- A digit more makes the number larger. -/
theorem mul_le_digitsFrom
    {base : Nat}
    (hBase : 0 < base)
    (acc : Nat)
    (b : UInt8)
    (digits : Text) :
    acc * base ≤ digitsFrom base acc (b :: digits) :=
  (Nat.le_add_right _ ((digitValue b).getD 0)).trans
    (le_digitsFrom hBase _ digits)

/- From a smaller number, octal digits stay behind. -/
theorem digitsFrom_lt
    {t : Text}
    (hDigits : ∀ b ∈ t, isDigit 10 b = true)
    {acc acc' : Nat}
    (hLt : acc < acc') :
    digitsFrom 8 acc (t.takeWhile (isDigit 8)) <
      digitsFrom 10 acc' t := by
  induction t generalizing acc acc' with
  | nil => exact hLt
  | cons b t ih =>
      rw [List.forall_mem_cons] at hDigits
      rw [List.takeWhile_cons]
      cases isDigit 8 b with
      | false =>
          exact hLt.trans_le
            (le_digitsFrom ten_pos acc' (b :: t))
      | true =>
          apply ih hDigits.2
          dsimp only
          omega

/- From the same number, the next digit decides. -/
theorem digitsFrom_lt_self
    {b : UInt8}
    {t : Text}
    (hDigits : ∀ c ∈ b :: t, isDigit 10 c = true)
    {acc : Nat}
    (hPos : 0 < acc) :
    digitsFrom 8 acc ((b :: t).takeWhile (isDigit 8)) <
      digitsFrom 10 acc (b :: t) := by
  rw [List.forall_mem_cons] at hDigits
  rw [List.takeWhile_cons]
  cases isDigit 8 b with
  | false =>
      have hGrows :=
        mul_le_digitsFrom ten_pos acc b t
      change acc < digitsFrom 10 acc (b :: t)
      omega
  | true =>
      apply digitsFrom_lt hDigits.2
      dsimp only
      omega

------------------------------------------------------------
-- Octal Readings of Decimal Numerals
------------------------------------------------------------

/- The first digit of a numeral, read both ways. -/
theorem numeral_cons
    {b : UInt8}
    {t : Text}
    (hDigit : isDigit 10 b = true) :
    ∃ d < 10,
      decimal (b :: t) = digitsFrom 10 d t ∧
        octal (b :: t) =
          if d < 8 then
            digitsFrom 8 d (t.takeWhile (isDigit 8))
          else 0 := by
  rcases isDigit_ten hDigit with ⟨d, hTen, hValue, hOctal⟩
  refine ⟨d, hTen, ?_, ?_⟩
  · unfold decimal digitsValue digitsFrom
    rw [List.foldl_cons, hValue, Nat.zero_mul, Nat.zero_add,
      Option.getD_some]
  · unfold octal
    rw [List.takeWhile_cons, hOctal]
    by_cases hSmall : d < 8
    · rw [if_pos hSmall, decide_eq_true hSmall, if_pos rfl]
      unfold digitsValue digitsFrom
      rw [List.foldl_cons, hValue, Nat.zero_mul,
        Nat.zero_add, Option.getD_some]
    · rw [if_neg hSmall, decide_eq_false hSmall]
      rfl

/-
  An octal reading is right for numbers below eight, and too
  small for all others.
-/
theorem octal_cases
    {t : Text}
    (hDigits : ∀ b ∈ t, isDigit 10 b = true) :
    octal t = decimal t ∧ decimal t ≤ 7 ∨
      octal t < decimal t ∧ 8 ≤ decimal t := by
  induction t with
  | nil => exact .inl ⟨rfl, Nat.zero_le 7⟩
  | cons b t ih =>
      rw [List.forall_mem_cons] at hDigits
      rcases numeral_cons (t := t) hDigits.1 with
        ⟨d, hTen, hDecimal, hOctal⟩
      rw [hDecimal, hOctal]
      rcases Nat.eq_zero_or_pos d with rfl | hPos
      · exact ih hDigits.2
      cases t with
      | nil =>
          change (if d < 8 then d else 0) = d ∧ d ≤ 7 ∨
            (if d < 8 then d else 0) < d ∧ 8 ≤ d
          split <;> omega
      | cons c t =>
          have hGrows :=
            mul_le_digitsFrom ten_pos d c t
          have hLt := digitsFrom_lt_self hDigits.2 hPos
          right
          split <;> omega

/- Only the digits 8 and 9 hide a number below eighty. -/
theorem octal_pos
    {t : Text}
    (hDigits : ∀ b ∈ t, isDigit 10 b = true)
    (hTen : 10 ≤ decimal t)
    (hEighty : decimal t < 80) :
    0 < octal t := by
  induction t with
  | nil => exact absurd hTen (Nat.not_succ_le_zero 9)
  | cons b t ih =>
      rw [List.forall_mem_cons] at hDigits
      rcases numeral_cons (t := t) hDigits.1 with
        ⟨d, hDigit, hDecimal, hOctal⟩
      rw [hDecimal] at hTen hEighty
      rw [hOctal]
      rcases Nat.eq_zero_or_pos d with rfl | hPos
      · exact ih hDigits.2 hTen hEighty
      by_cases hSmall : d < 8
      · rw [if_pos hSmall]
        exact hPos.trans_le (le_digitsFrom (Nat.succ_pos 7) d _)
      · cases t with
        | nil => exact absurd hTen (Nat.not_le.mpr hDigit)
        | cons c t =>
            have hGrows := mul_le_digitsFrom ten_pos d c t
            rw [← hDecimal] at hGrows
            omega

------------------------------------------------------------
-- Conversion
------------------------------------------------------------

/- No decimal digit is a space, a sign or an `x`. -/
theorem isDigit_ten_plain
    {b : UInt8}
    (hDigit : isDigit 10 b = true) :
    isSpace b = false ∧ b ≠ 45 ∧ b ≠ 43 ∧ b ≠ 120 ∧
      b ≠ 88 ∧ b ≠ 46 ∧ b ≠ 47 ∧ b ≠ 32 := by
  have hAll :
      ∀ b : Fin 256, isDigit 10 (UInt8.ofNat b) = true →
        isSpace (UInt8.ofNat b) = false ∧
          UInt8.ofNat b ≠ 45 ∧ UInt8.ofNat b ≠ 43 ∧
          UInt8.ofNat b ≠ 120 ∧ UInt8.ofNat b ≠ 88 ∧
          UInt8.ofNat b ≠ 46 ∧ UInt8.ofNat b ≠ 47 ∧
          UInt8.ofNat b ≠ 32 := by
    decide +kernel
  have hHere := hAll ⟨b.toNat, b.toNat_lt⟩
  rw [UInt8.ofNat_toNat] at hHere
  exact hHere hDigit

/- A number that fits an `int` is stored as it is. -/
theorem toCInt_min
    {n : Nat}
    (hSmall : n < 2 ^ 31) :
    toCInt (min (n : Int) (2 ^ 63 - 1)) = n := by
  have hMin : min (n : Int) (2 ^ 63 - 1) = n := by
    apply min_eq_left
    omega
  rw [hMin]
  unfold toCInt
  apply Int.bmod_eq_of_le <;> omega

/- The base of a numeral depends on its first digit. -/
theorem scanBase_numeral
    {t : Text}
    (hNumeral : IsNumeral t) :
    scanBase t = (if t.head? = some 48 then 8 else 10, t) := by
  rcases hNumeral with ⟨hSome, hDigits⟩
  unfold scanBase
  split
  · rename_i x h rest
    have hPlain := isDigit_ten_plain (hDigits x (by simp))
    rw [if_neg (fun hHex => hHex.1.elim hPlain.2.2.2.1
      hPlain.2.2.2.2.1)]
    rfl
  · rfl
  · rename_i hFirst hSecond
    rw [if_neg]
    intro hHead
    cases t with
    | nil => exact hSome rfl
    | cons b t =>
        rw [List.head?_cons, Option.some_inj] at hHead
        exact hSecond t (congrArg (· :: t) hHead)

/-
  `%i` reads a numeral as it is, and one that starts with a
  zero by its octal digits.
-/
theorem scanInt_numeral
    {t : Text}
    (hNumeral : IsNumeral t)
    (hSmall : decimal t < 2 ^ 31) :
    scanInt t =
      some (if t.head? = some 48 then octal t
        else decimal t : Nat) := by
  have hSome := hNumeral.1
  have hDigits := hNumeral.2
  have hSpaces : t.dropWhile isSpace = t := by
    cases t with
    | nil => rfl
    | cons b t =>
        rw [List.dropWhile_cons_of_neg]
        rw [(isDigit_ten_plain
          (hDigits b List.mem_cons_self)).1]
        exact Bool.false_ne_true
  have hSign : scanSign t = (false, t) := by
    unfold scanSign
    split
    · rename_i rest
      exact absurd rfl (isDigit_ten_plain
        (hDigits 45 List.mem_cons_self)).2.1
    · rename_i rest
      exact absurd rfl (isDigit_ten_plain
        (hDigits 43 List.mem_cons_self)).2.2.1
    · rfl
  have hOctal : octal t < 2 ^ 31 := by
    rcases octal_cases hDigits with ⟨hSame, _⟩ | ⟨hLt, _⟩ <;>
      omega
  unfold scanInt
  rw [hSpaces, hSign]
  dsimp only
  rw [scanBase_numeral hNumeral]
  dsimp only
  by_cases hHead : t.head? = some 48
  · rw [if_pos hHead, if_pos hHead, if_neg, if_neg nofun]
    · exact congrArg some (toCInt_min hOctal)
    · cases t with
      | nil => exact fun _ => hSome rfl
      | cons b t =>
          rw [List.head?_cons, Option.some_inj] at hHead
          subst hHead
          exact nofun
  · have hAll : t.takeWhile (isDigit 10) = t :=
      List.takeWhile_eq_self_iff.mpr hDigits
    rw [if_neg hHead, if_neg hHead, hAll, if_neg hSome,
      if_neg nofun]
    exact congrArg some (toCInt_min hSmall)

/-
  It reads a numeral by its decimal digits exactly if there is
  no leading zero, or the number is below eight.
-/
theorem scanInt_eq_decimal_iff
    {t : Text}
    (hNumeral : IsNumeral t)
    (hSmall : decimal t < 2 ^ 31) :
    scanInt t = some (decimal t : Int) ↔
      (t.head? = some 48 → decimal t ≤ 7) := by
  have hOctal := octal_cases hNumeral.2
  rw [scanInt_numeral hNumeral hSmall]
  change some
      ((if t.head? = some 48 then octal t
        else decimal t : Nat) : Int) = _ ↔ _
  rw [Option.some_inj, Nat.cast_inj]
  by_cases hHead : t.head? = some 48
  · simp only [hHead, if_true, true_implies]
    omega
  · simp [hHead]

/- Behind spaces and a sign there is a digit. -/
def StartsInteger
    (t : Text) : Prop :=
  ∃ b ∈ (scanSign (t.dropWhile isSpace)).2.head?,
    isDigit 10 b = true

theorem takeWhile_ne_nil_iff
    {p : UInt8 → Bool}
    {t : Text} :
    t.takeWhile p ≠ [] ↔ ∃ b ∈ t.head?, p b = true := by
  cases t with
  | nil => simp
  | cons b t =>
      rw [List.takeWhile_cons, List.head?_cons]
      by_cases hHolds : p b = true
      · simp [hHolds]
      · simp [hHolds]

/- Digits of some base follow if a decimal digit does. -/
theorem scanBase_digits_iff
    (t : Text) :
    (scanBase t).2.takeWhile (isDigit (scanBase t).1) ≠ [] ↔
      ∃ b ∈ t.head?, isDigit 10 b = true := by
  rw [takeWhile_ne_nil_iff]
  unfold scanBase
  split
  · split
    · rename_i hHex
      simp only [List.head?_cons, Option.mem_some_iff,
        exists_eq_left', hHex.2, true_iff]
      decide
    · simp only [List.head?_cons, Option.mem_some_iff,
        exists_eq_left']
      decide
  · simp only [List.head?_cons, Option.mem_some_iff,
      exists_eq_left']
    decide
  · rfl

/- The conversion fails for all other texts. -/
theorem isSome_scanInt_iff
    (t : Text) :
    (scanInt t).isSome ↔ StartsInteger t := by
  unfold StartsInteger
  rw [← scanBase_digits_iff]
  unfold scanInt
  rcases scanSign (t.dropWhile isSpace) with
    ⟨negative, unsigned⟩
  dsimp only
  rcases scanBase unsigned with ⟨base, rest⟩
  dsimp only
  by_cases hNone : rest.takeWhile (isDigit base) = []
  · simp [hNone]
  · rw [if_neg hNone]
    cases negative <;> simp [hNone]

end Text

------------------------------------------------------------
-- Characters of Dotted Quads
------------------------------------------------------------

/- A character that is no separator is in one of the pieces. -/
theorem mem_splitOn
    {sep b : UInt8}
    (hNe : b ≠ sep)
    {t : Text}
    (hMem : b ∈ t) :
    ∃ token ∈ t.splitOn sep, b ∈ token := by
  induction t with
  | nil => cases hMem
  | cons x t ih =>
      rw [List.splitOn_cons_eq_if_modifyHead]
      by_cases hSep : x = sep
      · have hRest : b ∈ t :=
          (List.mem_cons.mp hMem).resolve_left
            (fun hSame => hNe (hSame.trans hSep))
        rcases ih hRest with ⟨token, hToken, hHere⟩
        rw [if_pos (beq_iff_eq.mpr hSep)]
        exact ⟨token, List.mem_cons_of_mem _ hToken, hHere⟩
      rw [if_neg (fun hSame => hSep (beq_iff_eq.mp hSame))]
      cases hPieces : t.splitOn sep with
      | nil => exact absurd hPieces (List.splitOn_ne_nil sep t)
      | cons piece pieces =>
          rw [List.modifyHead_cons]
          rcases List.mem_cons.mp hMem with rfl | hRest
          · exact ⟨b :: piece, List.mem_cons_self,
              List.mem_cons_self⟩
          rcases ih hRest with ⟨token, hToken, hHere⟩
          rw [hPieces] at hToken
          rcases List.mem_cons.mp hToken with rfl | hToken
          · exact ⟨x :: token, List.mem_cons_self,
              List.mem_cons_of_mem x hHere⟩
          · exact ⟨token, List.mem_cons_of_mem _ hToken,
              hHere⟩

theorem length_splitOn
    (sep : UInt8)
    (t : Text) :
    (t.splitOn sep).length = t.count sep + 1 := by
  induction t with
  | nil => rfl
  | cons b t ih =>
      rw [List.splitOn_cons_eq_if_modifyHead]
      by_cases hSep : b = sep
      · subst hSep
        rw [if_pos (beq_self_eq_true b), List.length_cons, ih,
          List.count_cons_self]
      · rw [if_neg (fun hSame => hSep (beq_iff_eq.mp hSame)),
          List.length_modifyHead, ih,
          List.count_cons_of_ne hSep]

/- A dotted quad consists of digits and dots. -/
theorem mem_of_inetPton4
    {t : Text}
    {addr : UInt32}
    (hAddr : inetPton4 t = some addr)
    {b : UInt8}
    (hMem : b ∈ t) :
    b = 46 ∨ Text.isDigit 10 b = true := by
  by_cases hDot : b = 46
  · exact .inl hDot
  rcases mem_splitOn hDot hMem with ⟨token, hToken, hHere⟩
  have hOctets :
      ∀ octet ∈ (t.splitOn 46).map parseOctet,
        octet.isSome := by
    unfold inetPton4 at hAddr
    split at hAddr
    · rename_i a b c d hPieces
      rw [hPieces]
      simp
    · cases hAddr
  have hOctet := hOctets _ (List.mem_map_of_mem hToken)
  unfold parseOctet at hOctet
  dsimp only at hOctet
  split at hOctet
  · rename_i hDigits
    exact .inr (List.all_eq_true.mp hDigits.2.1 b hHere)
  · cases hOctet

/- It has no slash and no space. -/
theorem not_mem_of_inetPton4
    {t : Text}
    {addr : UInt32}
    (hAddr : inetPton4 t = some addr) :
    47 ∉ t ∧ 32 ∉ t := by
  constructor
  · intro hMem
    rcases mem_of_inetPton4 hAddr hMem with hDot | hDigit
    · cases hDot
    · exact absurd hDigit Bool.false_ne_true
  · intro hMem
    rcases mem_of_inetPton4 hAddr hMem with hDot | hDigit
    · cases hDot
    · exact absurd hDigit Bool.false_ne_true
