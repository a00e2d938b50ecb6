import Mathlib.Tactic

/-
  Words and masks.

  A mask splits a word into the part under the mask and the
  part beside it.  The masks of network prefixes have all
  their ones at the high end.

  Key definitions include:
    * `BitVec.blend`, `BitVec.highMask`

  Key theorems include:
    * `BitVec.blend_and_mask`, `BitVec.blend_and_not`
    * `BitVec.blend_blend`, `BitVec.blend_of_and_eq`
    * `BitVec.mask_ext`
    * `BitVec.and_highMask_eq_iff`
-/

namespace BitVec

variable {w : Nat}

------------------------------------------------------------
-- Blending
------------------------------------------------------------

/- The part of `y` under the mask, that of `x` beside it. -/
def blend
    (m x y : BitVec w) : BitVec w :=
  (x &&& ~~~m) ||| (y &&& m)

/- The mask selects bit by bit. -/
theorem getElem_blend
    (m x y : BitVec w)
    {i : Nat}
    (hi : i < w) :
    (blend m x y)[i] = if m[i] then y[i] else x[i] := by
  unfold blend
  rw [getElem_or, getElem_and, getElem_and, getElem_not]
  cases m[i] <;> simp

/- Equality under a mask is equality of the masked bits. -/
theorem and_mask_eq_iff
    (m x y : BitVec w) :
    x &&& m = y &&& m ↔
      ∀ i (hi : i < w), m[i] = true → x[i] = y[i] := by
  constructor
  · intro hSame i hi hMask
    have hBit : (x &&& m)[i] = (y &&& m)[i] :=
      congrArg (fun v : BitVec w => v[i]) hSame
    rw [getElem_and, getElem_and, hMask, Bool.and_true,
      Bool.and_true] at hBit
    exact hBit
  · intro hSame
    ext i hi
    rw [getElem_and, getElem_and]
    cases hMask : m[i] with
    | false => rw [Bool.and_false, Bool.and_false]
    | true => rw [hSame i hi hMask]

/- Under the mask there is the second word. -/
theorem blend_and_mask
    (m x y : BitVec w) :
    blend m x y &&& m = y &&& m := by
  rw [and_mask_eq_iff]
  intro i hi hMask
  rw [getElem_blend, if_pos hMask]

/- Beside the mask there is the first word. -/
theorem blend_and_not
    (m x y : BitVec w) :
    blend m x y &&& ~~~m = x &&& ~~~m := by
  rw [and_mask_eq_iff]
  intro i hi hMask
  rw [getElem_not, Bool.not_eq_true'] at hMask
  rw [getElem_blend, hMask]
  rfl

/- The last blend decides. -/
theorem blend_blend
    (m x y z : BitVec w) :
    blend m (blend m x y) z = blend m x z := by
  ext i hi
  rw [getElem_blend, getElem_blend, getElem_blend]
  cases m[i] <;> rfl

/- A word that agrees under the mask is not changed. -/
theorem blend_of_and_eq
    {m x y : BitVec w}
    (hSame : x &&& m = y &&& m) :
    blend m x y = x := by
  ext i hi
  rw [getElem_blend]
  cases hMask : m[i] with
  | false => rfl
  | true => exact ((and_mask_eq_iff m x y).mp hSame i hi hMask).symm

/- A mask that is weaker than another is part of it. -/
theorem mask_le_of_and_eq
    {m m' a : BitVec w}
    (hWeaker :
      ∀ x, x &&& m = a &&& m → x &&& m' = a &&& m')
    {i : Nat}
    (hi : i < w)
    (hMask' : m'[i] = true) :
    m[i] = true := by
  by_contra hMask
  -- The word that differs from `a` just beside the mask.
  have hBeside : blend m (~~~a) a &&& m' = a &&& m' :=
    hWeaker _ (blend_and_mask m _ a)
  have hBit :=
    (and_mask_eq_iff m' _ a).mp hBeside i hi hMask'
  rw [getElem_blend, if_neg hMask, getElem_not] at hBit
  exact Bool.not_ne_self a[i] hBit

/- A mask is determined by the words that it does not tell
   from a given one. -/
theorem mask_ext
    {m m' a : BitVec w}
    (hSame :
      ∀ x, x &&& m = a &&& m ↔ x &&& m' = a &&& m') :
    m = m' := by
  ext i hi
  rw [Bool.eq_iff_iff]
  constructor
  · exact mask_le_of_and_eq (fun x => (hSame x).mpr) hi
  · exact mask_le_of_and_eq (fun x => (hSame x).mp) hi

------------------------------------------------------------
-- Prefixes
------------------------------------------------------------

/- All bits but the lowest `k`. -/
def highMask
    (k : Nat) : BitVec w :=
  allOnes w <<< k

theorem getElem_highMask
    (k : Nat)
    {i : Nat}
    (hi : i < w) :
    (highMask k : BitVec w)[i] = decide (k ≤ i) := by
  unfold highMask
  rw [getElem_shiftLeft]
  by_cases hLow : i < k
  · simp [hLow]
  · simp [hLow]
    omega

/- The bits of a word are those of its number. -/
theorem testBit_eq_of_forall
    {x y : BitVec w}
    {p : Nat → Prop}
    (hSame : ∀ i (hi : i < w), p i → x[i] = y[i])
    {i : Nat}
    (hi : p i) :
    x.toNat.testBit i = y.toNat.testBit i := by
  rw [testBit_toNat, testBit_toNat]
  by_cases hInside : i < w
  · rw [getLsbD_eq_getElem hInside,
      getLsbD_eq_getElem hInside]
    exact hSame i hInside hi
  · rw [getLsbD_of_ge x i (not_lt.mp hInside),
      getLsbD_of_ge y i (not_lt.mp hInside)]

theorem getElem_eq_of_testBit_eq
    {x y : BitVec w}
    {i : Nat}
    (hi : i < w)
    (hSame : x.toNat.testBit i = y.toNat.testBit i) :
    x[i] = y[i] := by
  rw [testBit_toNat, testBit_toNat, getLsbD_eq_getElem hi,
    getLsbD_eq_getElem hi] at hSame
  exact hSame

/- Words that agree above a position. -/
theorem and_highMask_eq_iff
    (k : Nat)
    (x y : BitVec w) :
    x &&& highMask k = y &&& highMask k ↔
      x.toNat / 2 ^ k = y.toNat / 2 ^ k := by
  rw [and_mask_eq_iff]
  simp only [getElem_highMask, decide_eq_true_iff]
  constructor
  · intro hSame
    apply Nat.eq_of_testBit_eq
    intro j
    rw [Nat.testBit_div_two_pow, Nat.testBit_div_two_pow]
    exact testBit_eq_of_forall hSame (Nat.le_add_left k j)
  · intro hSame i hi hHigh
    apply getElem_eq_of_testBit_eq hi
    have hBit :=
      congrArg (fun n => n.testBit (i - k)) hSame
    rwa [Nat.testBit_div_two_pow, Nat.testBit_div_two_pow,
      Nat.sub_add_cancel hHigh] at hBit

/- Words that agree below a position. -/
theorem and_not_highMask_eq_iff
    (k : Nat)
    (x y : BitVec w) :
    x &&& ~~~highMask k = y &&& ~~~highMask k ↔
      x.toNat % 2 ^ k = y.toNat % 2 ^ k := by
  rw [and_mask_eq_iff]
  simp only [getElem_not, getElem_highMask,
    Bool.not_eq_true', decide_eq_false_iff_not, not_le]
  constructor
  · intro hSame
    apply Nat.eq_of_testBit_eq
    intro j
    rw [Nat.testBit_mod_two_pow, Nat.testBit_mod_two_pow]
    by_cases hLow : j < k
    · rw [testBit_eq_of_forall hSame hLow]
    · rw [decide_eq_false hLow, Bool.false_and,
        Bool.false_and]
  · intro hSame i hi hLow
    apply getElem_eq_of_testBit_eq hi
    have hBit := congrArg (fun n => n.testBit i) hSame
    rwa [Nat.testBit_mod_two_pow, Nat.testBit_mod_two_pow,
      decide_eq_true hLow, Bool.true_and,
      Bool.true_and] at hBit

/- Different positions give different masks. -/
theorem highMask_inj
    {k k' : Nat}
    (hk : k ≤ w)
    (hk' : k' ≤ w)
    (hSame : (highMask k : BitVec w) = highMask k') :
    k = k' := by
  have hBit :
      ∀ i (hi : i < w), (k ≤ i ↔ k' ≤ i) := by
    intro i hi
    have hHere :=
      congrArg (fun m : BitVec w => m[i]) hSame
    rw [getElem_highMask, getElem_highMask,
      decide_eq_decide] at hHere
    exact hHere
  rcases Nat.lt_trichotomy k k' with hLt | rfl | hLt
  · have hAt := (hBit k (by omega)).mp le_rfl
    omega
  · rfl
  · have hAt := (hBit k' (by omega)).mpr le_rfl
    omega

end BitVec
