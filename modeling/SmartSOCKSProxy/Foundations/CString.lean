import Mathlib.Tactic
import Mathlib.Data.List.Infix
import Mathlib.Data.List.TakeWhile

/-
  Byte strings as the C library reads and writes them.

  A string is the list of its bytes before the terminator.
  A `CBuf` is the content of a `char[size]` field that holds
  a terminated string.

  Key definitions include:
    * `Text`, `Text.cstr`, `Text.lower`
    * `Text.strcasestr`
    * `Text.scanInt`
    * `CBuf`, `CBuf.copy`
-/

------------------------------------------------------------
-- Byte Strings
------------------------------------------------------------

/- The bytes of a string, without the terminator. -/
abbrev Text := List UInt8

namespace Text

/- The byte string of a list of ASCII characters. -/
def ascii
    (chars : List Char) : Text :=
  chars.map fun c => UInt8.ofNat c.toNat

/- The string that starts at the beginning of a buffer. -/
def cstr
    (buf : Text) : Text :=
  buf.takeWhile (· ≠ 0)

theorem zero_not_mem_cstr
    (buf : Text) :
    (0 : UInt8) ∉ cstr buf := by
  intro hMem
  have hNe := List.mem_takeWhile_imp hMem
  simp at hNe

/- A list without a zero byte is its own string. -/
theorem cstr_eq_self
    {buf : Text}
    (hNoNul : (0 : UInt8) ∉ buf) :
    cstr buf = buf := by
  apply List.takeWhile_eq_self_iff.mpr
  intro b hb
  have hNe : b ≠ 0 := by
    rintro rfl
    exact hNoNul hb
  simpa using hNe

/- The string goes on behind a part without a zero byte. -/
theorem cstr_append
    {front : Text}
    (hNoNul : (0 : UInt8) ∉ front)
    (back : Text) :
    cstr (front ++ back) = front ++ cstr back := by
  apply List.takeWhile_append_of_pos
  rintro b hMem
  rw [decide_eq_true_eq]
  rintro rfl
  exact hNoNul hMem

theorem length_cstr_le
    (buf : Text) :
    (cstr buf).length ≤ buf.length :=
  (List.takeWhile_prefix _).length_le

------------------------------------------------------------
-- Case Folding
------------------------------------------------------------

/- `tolower()` in the C locale. -/
def toLower
    (b : UInt8) : UInt8 :=
  if 65 ≤ b ∧ b ≤ 90 then b + 32 else b

/- The lower-case copy of a string. -/
def lower
    (t : Text) : Text :=
  t.map toLower

/-
  `strcasestr()`: whether some position of `hay` starts with
  `needle`, letter case ignored.
-/
def strcasestr
    (hay needle : Text) : Bool :=
  hay.tails.any fun rest =>
    (lower needle).isPrefixOf (lower rest)

/- The search finds exactly the case-folded infixes. -/
theorem strcasestr_iff
    (hay needle : Text) :
    strcasestr hay needle = true ↔
      lower needle <:+: lower hay := by
  simp only [strcasestr, List.any_eq_true, List.mem_tails,
    List.isPrefixOf_iff_prefix]
  constructor
  · rintro ⟨rest, ⟨front, rfl⟩, hPrefix⟩
    apply hPrefix.isInfix.trans
    exact ⟨lower front, [], by simp [lower]⟩
  · rintro ⟨front, back, hEq⟩
    refine ⟨hay.drop front.length,
      List.drop_suffix _ _, ?_⟩
    have hDrop :
        lower (hay.drop front.length) =
          lower needle ++ back := by
      unfold lower at hEq ⊢
      rw [List.map_drop, ← hEq, List.append_assoc,
        List.drop_left]
    rw [hDrop]
    exact List.prefix_append _ _

end Text

------------------------------------------------------------
-- Integer Conversion
------------------------------------------------------------

namespace Text

/- `isspace()` in the C locale. -/
def isSpace
    (b : UInt8) : Bool :=
  b = 32 ∨ (9 ≤ b ∧ b ≤ 13)

/- The value of a digit, in bases up to sixteen. -/
def digitValue
    (b : UInt8) : Option Nat :=
  if 48 ≤ b ∧ b ≤ 57 then some (b.toNat - 48)
  else if 97 ≤ b ∧ b ≤ 102 then some (b.toNat - 87)
  else if 65 ≤ b ∧ b ≤ 70 then some (b.toNat - 55)
  else none

/- Whether a byte is a digit of the base. -/
def isDigit
    (base : Nat)
    (b : UInt8) : Bool :=
  match digitValue b with
  | some d => d < base
  | none => false

/- The number that a list of digits denotes. -/
def digitsValue
    (base : Nat)
    (digits : Text) : Nat :=
  digits.foldl
    (fun acc b => acc * base + (digitValue b).getD 0) 0

/-
  The base that an unsigned `%i` token announces, with the
  text that holds its digits: `0x` is only a prefix when a
  hexadecimal digit follows.
-/
def scanBase : Text → Nat × Text
  | 48 :: x :: h :: rest =>
      if (x = 120 ∨ x = 88) ∧ isDigit 16 h then
        (16, h :: rest)
      else (8, 48 :: x :: h :: rest)
  | 48 :: rest => (8, 48 :: rest)
  | t => (10, t)

/- The optional sign of a number. -/
def scanSign : Text → Bool × Text
  | 45 :: rest => (true, rest)
  | 43 :: rest => (false, rest)
  | t => (false, t)

/- The low 32 bits of a number, as a signed `int`. -/
def toCInt
    (v : Int) : Int :=
  Int.bmod v (2 ^ 32)

/-
  `sscanf(t, "%i", &v)`: the value stored when the call
  returns 1.  The conversion saturates at the range of
  `intmax_t` and the store keeps the low 32 bits.
-/
def scanInt
    (t : Text) : Option Int :=
  let (negative, unsigned) := scanSign (t.dropWhile isSpace)
  let (base, rest) := scanBase unsigned
  let digits := rest.takeWhile (isDigit base)
  if digits = [] then none
  else
    let v : Int := digitsValue base digits
    if negative then some (toCInt (max (-v) (-(2 ^ 63))))
    else some (toCInt (min v (2 ^ 63 - 1)))

example :
    scanInt (ascii [' ', '7', '0', '0', '0', '0', 'z']) =
      some 70000 := by decide

end Text

------------------------------------------------------------
-- Fixed-Size String Fields
------------------------------------------------------------

/-
  The content of a `char[size]` field: a string that fits
  with its terminator.
-/
@[ext] structure CBuf
    (size : Nat) where
  text : Text
  noNul : (0 : UInt8) ∉ text
  fits : text.length ≤ size - 1
deriving DecidableEq

namespace CBuf

variable {size : Nat}

/- The empty string. -/
def empty : CBuf size where
  text := []
  noNul := by simp
  fits := Nat.zero_le _

instance : Inhabited (CBuf size) :=
  ⟨empty⟩

/-
  `strncpy(dst, src, size)` and `dst[size-1] = 0`: the
  longest part of the source string that fits.
-/
def copy
    (src : Text) : CBuf size where
  text := (Text.cstr src).take (size - 1)
  noNul := fun hMem =>
    Text.zero_not_mem_cstr src (List.mem_of_mem_take hMem)
  fits := List.length_take_le (size - 1) (Text.cstr src)

@[simp] theorem text_empty :
    (empty : CBuf size).text = [] := rfl

@[simp] theorem text_copy
    (src : Text) :
    (copy src : CBuf size).text =
      (Text.cstr src).take (size - 1) := rfl

@[simp] theorem copy_nil :
    (copy [] : CBuf size) = empty :=
  CBuf.ext (by simp [Text.cstr])

/- A source that fits is copied whole. -/
theorem text_copy_of_fits
    {src : Text}
    (hNoNul : (0 : UInt8) ∉ src)
    (hFits : src.length ≤ size - 1) :
    (copy src : CBuf size).text = src := by
  rw [text_copy, Text.cstr_eq_self hNoNul]
  exact List.take_of_length_le hFits

/- Copying a field into one of the same size is exact. -/
theorem copy_text
    (buf : CBuf size) :
    (copy buf.text : CBuf size) = buf :=
  CBuf.ext (text_copy_of_fits buf.noNul buf.fits)

end CBuf
