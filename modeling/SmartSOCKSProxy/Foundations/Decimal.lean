import Mathlib.Data.Nat.Digits.Lemmas
import SmartSOCKSProxy.Foundations.Json

/-
  Numbers as printf() writes them.

  Key definitions include:
    * `Text.ofNat`, `Text.ofInt`

  Key theorems include:
    * `isNumber_ofInt`, `plainString_ofNat`
-/

namespace Text

/- `%llu` -/
def ofNat
    (n : Nat) : Text :=
  if n = 0 then [48]
  else
    (Nat.digits 10 n).reverse.map fun d => UInt8.ofNat (48 + d)

/- `%lli` -/
def ofInt : Int → Text
  | .ofNat n => ofNat n
  | .negSucc n => 45 :: ofNat (n + 1)

example : ofInt (-1070) = ascii ['-', '1', '0', '7', '0'] := by
  decide

/- A digit, and the one that is not a zero. -/
theorem ofNat_digit
    {d : Nat}
    (hLt : d < 10) :
    48 ≤ UInt8.ofNat (48 + d) ∧ UInt8.ofNat (48 + d) ≤ 57 ∧
      (UInt8.ofNat (48 + d) = 48 → d = 0) := by
  have hAll :
      ∀ d : Fin 10, 48 ≤ UInt8.ofNat (48 + d) ∧
        UInt8.ofNat (48 + d) ≤ 57 ∧
          (UInt8.ofNat (48 + d) = 48 → d.val = 0) := by
    decide
  exact hAll ⟨d, hLt⟩

theorem isDigits_ofNat
    (n : Nat) :
    IsDigits (ofNat n) := by
  unfold ofNat IsDigits
  split_ifs with hZero
  · simp
  · refine ⟨?_, ?_⟩
    · have hNe : Nat.digits 10 n ≠ [] :=
        Nat.digits_ne_nil_iff_ne_zero.mpr hZero
      simpa using hNe
    · intro b hb
      rcases List.mem_map.mp hb with ⟨d, hd, rfl⟩
      have hLt : d < 10 :=
        Nat.digits_lt_base (by norm_num) (List.mem_reverse.mp hd)
      have hDigit := ofNat_digit hLt
      exact ⟨hDigit.1, hDigit.2.1⟩

/- No leading zeros are written. -/
theorem isIntPart_ofNat
    (n : Nat) :
    IsIntPart (ofNat n) := by
  refine ⟨isDigits_ofNat n, ?_⟩
  unfold ofNat
  split_ifs with hZero
  · simp
  · intro hHead
    exfalso
    have hNe : Nat.digits 10 n ≠ [] :=
      Nat.digits_ne_nil_iff_ne_zero.mpr hZero
    rw [List.head?_map, List.head?_reverse,
      List.getLast?_eq_some_getLast hNe, Option.map_some] at hHead
    have hLt : (Nat.digits 10 n).getLast hNe < 10 :=
      Nat.digits_lt_base (by norm_num) (List.getLast_mem hNe)
    exact Nat.getLast_digit_ne_zero 10 hZero
      ((ofNat_digit hLt).2.2 (Option.some.inj hHead))

theorem isNumber_ofNat
    (n : Nat) :
    IsNumber (ofNat n) :=
  ⟨[], ofNat n, [], [], by simp, .inl rfl, isIntPart_ofNat n,
    .inl rfl, .inl rfl⟩

theorem isNumber_ofInt
    (n : Int) :
    IsNumber (ofInt n) := by
  cases n with
  | ofNat n => exact isNumber_ofNat n
  | negSucc n =>
      exact ⟨[45], ofNat (n + 1), [], [], by simp [ofInt],
        .inr rfl, isIntPart_ofNat (n + 1), .inl rfl, .inl rfl⟩

/- A number needs no escapes. -/
theorem plainString_ofNat
    (n : Nat) :
    PlainString (ofNat n) := by
  apply plainString_of_ascii
  intro b hb
  have hDigit := (isDigits_ofNat n).2 b hb
  have hAll :
      ∀ b : Fin 256, 48 ≤ UInt8.ofNat b →
        UInt8.ofNat b ≤ 57 →
          asciiPlain (UInt8.ofNat b) = true := by
    decide +kernel
  have hHere := hAll ⟨b.toNat, b.toNat_lt⟩
  simp only [UInt8.ofNat_toNat] at hHere
  exact hHere hDigit.1 hDigit.2

end Text
