import SmartSOCKSProxy.Foundations.Decimal
import SmartSOCKSProxy.Foundations.Numerals

/-
  Numbers that are read as they were written.

  printf() writes no leading zero, so that `%i` takes a number
  for a decimal one.  A zero on its own is octal, which makes
  no difference.

  Key theorems include:
    * `Text.decimal_ofNat`
    * `Text.scanned_ofNat`, `Text.scanSign_ofInt`
    * `Text.scanInt_ofInt`
-/

namespace Text

/- The digit of a value is read as this value. -/
theorem digitValue_digit
    {d : Nat}
    (hLt : d < 10) :
    digitValue (UInt8.ofNat (48 + d)) = some d := by
  have hAll : ∀ d : Fin 10,
      digitValue (UInt8.ofNat (48 + d)) = some d.val := by
    decide
  exact hAll ⟨d, hLt⟩

theorem isNumeral_ofNat
    (n : Nat) :
    IsNumeral (ofNat n) := by
  refine ⟨(isDigits_ofNat n).1, ?_⟩
  intro b hMem
  rcases (isDigits_ofNat n).2 b hMem with ⟨hLow, hHigh⟩
  have hValue : digitValue b = some (b.toNat - 48) :=
    if_pos ⟨hLow, hHigh⟩
  have hLt : b.toNat - 48 < 10 := by
    have hNat : b.toNat ≤ 57 := hHigh
    omega
  rw [isDigit, hValue]
  exact decide_eq_true hLt

/- The digits of a number, the least significant one first. -/
theorem foldr_digits
    (digits : List Nat)
    (hDigits : ∀ d ∈ digits, d < 10) :
    digits.foldr
        (fun d acc =>
          acc * 10 +
            (digitValue (UInt8.ofNat (48 + d))).getD 0) 0 =
      Nat.ofDigits 10 digits := by
  induction digits with
  | nil => rfl
  | cons d digits ih =>
      rw [List.forall_mem_cons] at hDigits
      rw [List.foldr_cons, ih hDigits.2,
        digitValue_digit hDigits.1, Nat.ofDigits_cons,
        Option.getD_some, Nat.mul_comm, Nat.add_comm]

theorem decimal_ofNat
    (n : Nat) :
    decimal (ofNat n) = n := by
  unfold decimal digitsValue ofNat
  split_ifs with hZero
  · exact hZero.symm
  · rw [List.foldl_map, List.foldl_reverse, foldr_digits,
      Nat.ofDigits_digits]
    exact fun d hMem => Nat.digits_lt_base (by decide) hMem

/- What a conversion reads of a number without a sign. -/
theorem scanned_ofNat
    (n : Nat) :
    (scanBase (ofNat n)).2.takeWhile
          (isDigit (scanBase (ofNat n)).1) ≠ [] ∧
      digitsValue (scanBase (ofNat n)).1
          ((scanBase (ofNat n)).2.takeWhile
            (isDigit (scanBase (ofNat n)).1)) = n := by
  by_cases hZero : n = 0
  · subst hZero
    decide
  · have hHead : (ofNat n).head? ≠ some 48 := by
      intro hHead
      rcases List.length_eq_one_iff.mp
        ((isIntPart_ofNat n).2 hHead) with ⟨b, hOne⟩
      have hValue := decimal_ofNat n
      rw [hOne, List.head?_cons, Option.some_inj] at hHead
      rw [hOne, hHead] at hValue
      exact hZero hValue.symm
    have hAll : (ofNat n).takeWhile (isDigit 10) = ofNat n :=
      List.takeWhile_eq_self_iff.mpr (isNumeral_ofNat n).2
    rw [scanBase_numeral (isNumeral_ofNat n), if_neg hHead]
    dsimp only
    rw [hAll]
    exact ⟨(isNumeral_ofNat n).1, decimal_ofNat n⟩

/- The sign of a number, and the rest of it. -/
theorem scanSign_ofInt
    (n : Int) :
    scanSign ((ofInt n).dropWhile isSpace) =
      (decide (n < 0), ofNat n.natAbs) := by
  cases n with
  | negSucc n =>
      have hSpace : isSpace 45 = false := by decide
      rw [decide_eq_true (Int.negSucc_lt_zero n), ofInt,
        List.dropWhile_cons_of_neg
          (by rw [hSpace]; exact Bool.false_ne_true)]
      rfl
  | ofNat n =>
      have hDigits := (isNumeral_ofNat n).2
      have hSign : decide (Int.ofNat n < 0) = false :=
        decide_eq_false
          (Int.not_lt.mpr (Int.natCast_nonneg n))
      rw [hSign]
      change scanSign ((ofNat n).dropWhile isSpace) =
        (false, ofNat n)
      cases hText : ofNat n with
      | nil => exact absurd hText (isNumeral_ofNat n).1
      | cons b t =>
          rw [hText] at hDigits
          rcases isDigit_ten_plain
            (hDigits b List.mem_cons_self) with
            ⟨hSpace, hMinus, hPlus, _⟩
          rw [List.dropWhile_cons_of_neg
            (by rw [hSpace]; exact Bool.false_ne_true)]
          unfold scanSign
          split
          · rename_i hSame
            exact absurd (List.cons.inj hSame).1 hMinus
          · rename_i hSame
            exact absurd (List.cons.inj hSame).1 hPlus
          · rfl

theorem scanInt_ofInt
    {n : Int}
    (hLow : -2 ^ 31 ≤ n)
    (hHigh : n < 2 ^ 31) :
    scanInt (ofInt n) = some n := by
  rcases scanned_ofNat n.natAbs with ⟨hSome, hValue⟩
  unfold scanInt
  rw [scanSign_ofInt]
  dsimp only
  rw [if_neg hSome, hValue]
  by_cases hNegative : n < 0
  · have hAbs : max (-(n.natAbs : Int)) (-(2 ^ 63)) = n := by
      omega
    rw [if_pos (decide_eq_true hNegative), hAbs]
    exact congrArg some
      (Int.bmod_eq_of_le (by omega) (by omega))
  · have hAbs : min (n.natAbs : Int) (2 ^ 63 - 1) = n := by
      omega
    rw [decide_eq_false hNegative, if_neg Bool.false_ne_true,
      hAbs]
    exact congrArg some
      (Int.bmod_eq_of_le (by omega) (by omega))

end Text
