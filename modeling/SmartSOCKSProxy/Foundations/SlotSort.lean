import Mathlib.Tactic
import Mathlib.Data.List.Sort

/-
  Sorting by selection from slots.

  The values stand in numbered slots.  Again and again the
  lowest value is taken, and its slot is marked as taken by a
  blank.

  Key definitions include:
    * `lowestSlot`, `clearSlot`, `slotContents`
    * `ascending`, `Selecting`

  Key theorems include:
    * `lowestSlot_spec`
    * `Selecting.step`, `Selecting.finish`
-/

------------------------------------------------------------
-- Slots
------------------------------------------------------------

section Contents

variable {α : Type} [DecidableEq α]
variable (blank : α)
variable (slots : Nat → α)

def clearSlot
    (slots : Nat → α)
    (lowest : Option Nat) : Nat → α :=
  lowest.elim slots fun l => Function.update slots l blank

/- The values that are left. -/
def slotContents
    (count : Nat) : List α :=
  ((List.range count).map slots).filter fun a => a ≠ blank

theorem slotContents_succ
    (count : Nat) :
    slotContents blank slots (count + 1) =
      slotContents blank slots count ++
        if slots count = blank then [] else [slots count] := by
  unfold slotContents
  rw [List.range_succ, List.map_append, List.filter_append]
  by_cases hBlank : slots count = blank
  · simp [hBlank]
  · simp [hBlank]

theorem mem_slotContents
    {count : Nat}
    {a : α} :
    a ∈ slotContents blank slots count ↔
      a ≠ blank ∧ ∃ j < count, slots j = a := by
  simp [slotContents, and_comm]

/- The value of a slot, and those that are left behind it. -/
theorem slotContents_clearSlot
    {count l : Nat}
    (hLt : l < count)
    (hSome : slots l ≠ blank) :
    (slotContents blank slots count).Perm
      (slots l ::
        slotContents blank (clearSlot blank slots (some l))
          count) := by
  induction count with
  | zero => omega
  | succ count ih =>
      rw [slotContents_succ, slotContents_succ]
      by_cases hLast : count = l
      · subst hLast
        have hSame :
            slotContents blank
                (clearSlot blank slots (some count)) count =
              slotContents blank slots count := by
          unfold slotContents
          congr 1
          apply List.map_congr_left
          intro j hj
          exact Function.update_of_ne
            (Nat.ne_of_lt (List.mem_range.mp hj)) _ _
        have hCleared :
            clearSlot blank slots (some count) count = blank :=
          Function.update_self _ _ _
        rw [if_neg hSome, if_pos hCleared, hSame,
          List.append_nil]
        exact List.perm_append_singleton _ _
      · have hKept :
            clearSlot blank slots (some l) count =
              slots count :=
          Function.update_of_ne hLast _ _
        rw [hKept, ← List.cons_append]
        exact (ih (by omega)).append_right _

end Contents

------------------------------------------------------------
-- Lowest Slot
------------------------------------------------------------

/- Values in ascending order. -/
def ascending
    {α : Type} [LT α] [DecidableLT α]
    (values : List α) : List α :=
  values.insertionSort fun a b => ¬ b < a

section Slots

variable {α : Type} [LT α] [DecidableLT α] [DecidableEq α]
variable (blank : α)
variable (slots : Nat → α)

/- The lower one of a slot, if there is any, and slot `jj`. -/
def lowerSlot
    (lowest : Option Nat)
    (jj : Nat) : Option Nat :=
  if slots jj = blank then lowest
  else
    match lowest with
    | none => some jj
    | some l => if slots jj < slots l then some jj else some l

/- The first lowest one of the slots that are not blank. -/
def lowestSlot
    (count : Nat) : Option Nat :=
  (List.range count).foldl (lowerSlot blank slots) none

theorem lowestSlot_succ
    (count : Nat) :
    lowestSlot blank slots (count + 1) =
      lowerSlot blank slots (lowestSlot blank slots count)
        count := by
  simp [lowestSlot, List.range_succ]

/- All slots are blank. -/
theorem lowestSlot_eq_none_iff
    (count : Nat) :
    lowestSlot blank slots count = none ↔
      ∀ j < count, slots j = blank := by
  induction count with
  | zero => simp [lowestSlot]
  | succ count ih =>
      rw [lowestSlot_succ]
      unfold lowerSlot
      by_cases hBlank : slots count = blank
      · rw [if_pos hBlank, ih]
        constructor
        · intro hAll j hj
          rcases Nat.lt_succ_iff_lt_or_eq.mp hj with hj | rfl
          · exact hAll j hj
          · exact hBlank
        · intro hAll j hj
          exact hAll j (Nat.lt_succ_of_lt hj)
      · rw [if_neg hBlank]
        constructor
        · intro hNone
          split at hNone
          · cases hNone
          · split_ifs at hNone
        · intro hAll
          exact absurd (hAll count (Nat.lt_succ_self _)) hBlank

variable [IsStrictTotalOrder α (· < ·)]

/- No value is below that of the lowest slot. -/
theorem lowestSlot_spec
    {count l : Nat}
    (hLowest : lowestSlot blank slots count = some l) :
    l < count ∧ slots l ≠ blank ∧
      ∀ j < count, slots j ≠ blank → ¬ slots j < slots l := by
  induction count generalizing l with
  | zero => cases hLowest
  | succ count ih =>
      rw [lowestSlot_succ] at hLowest
      unfold lowerSlot at hLowest
      by_cases hBlank : slots count = blank
      · rw [if_pos hBlank] at hLowest
        rcases ih hLowest with ⟨hLt, hSome, hMin⟩
        refine ⟨Nat.lt_succ_of_lt hLt, hSome, ?_⟩
        intro j hj hSlot
        rcases Nat.lt_succ_iff_lt_or_eq.mp hj with hj | rfl
        · exact hMin j hj hSlot
        · exact absurd hBlank hSlot
      · rw [if_neg hBlank] at hLowest
        cases hBefore : lowestSlot blank slots count with
        | none =>
            have hAll :=
              (lowestSlot_eq_none_iff blank slots count).mp
                hBefore
            rw [hBefore] at hLowest
            cases hLowest
            refine ⟨Nat.lt_succ_self _, hBlank, ?_⟩
            intro j hj hSlot
            rcases Nat.lt_succ_iff_lt_or_eq.mp hj with hj | rfl
            · exact absurd (hAll j hj) hSlot
            · exact irrefl _
        | some k =>
            rcases ih hBefore with ⟨hLt, hSome, hMin⟩
            rw [hBefore] at hLowest
            by_cases hLower : slots count < slots k
            · simp only [if_pos hLower,
                Option.some.injEq] at hLowest
              subst hLowest
              refine ⟨Nat.lt_succ_self _, hBlank, ?_⟩
              intro j hj hSlot hLess
              rcases Nat.lt_succ_iff_lt_or_eq.mp hj with
                hj | rfl
              · exact hMin j hj hSlot
                  (IsTrans.trans _ _ _ hLess hLower)
              · exact irrefl _ hLess
            · simp only [if_neg hLower,
                Option.some.injEq] at hLowest
              subst hLowest
              refine ⟨Nat.lt_succ_of_lt hLt, hSome, ?_⟩
              intro j hj hSlot
              rcases Nat.lt_succ_iff_lt_or_eq.mp hj with
                hj | rfl
              · exact hMin j hj hSlot
              · exact hLower

------------------------------------------------------------
-- Selection
------------------------------------------------------------

/- The values taken so far, and the slots with the others. -/
structure Selecting
    (count : Nat)
    (values out : List α) : Prop where
  perm : (out ++ slotContents blank slots count).Perm values
  sorted : out.Pairwise fun a b => ¬ b < a
  below :
    ∀ a ∈ out, ∀ b ∈ slotContents blank slots count, ¬ b < a

variable {blank slots}

/- One more value is taken. -/
theorem Selecting.step
    {count l : Nat}
    {values out : List α}
    (hSelecting : Selecting blank slots count values out)
    (hLowest : lowestSlot blank slots count = some l) :
    Selecting blank (clearSlot blank slots (some l)) count
      values (out ++ [slots l]) := by
  rcases lowestSlot_spec blank slots hLowest with
    ⟨hLt, hSome, hMin⟩
  have hLeft := slotContents_clearSlot blank slots hLt hSome
  have hHere :
      slots l ∈ slotContents blank slots count :=
    (mem_slotContents blank slots).mpr ⟨hSome, l, hLt, rfl⟩
  refine ⟨?_, ?_, ?_⟩
  · rw [List.append_assoc]
    exact (hLeft.symm.append_left out).trans hSelecting.perm
  · rw [List.pairwise_append]
    refine ⟨hSelecting.sorted, List.pairwise_singleton _ _, ?_⟩
    intro a ha b hb
    rw [List.mem_singleton.mp hb]
    exact hSelecting.below a ha _ hHere
  · intro a ha b hb
    have hBefore : b ∈ slotContents blank slots count :=
      hLeft.symm.subset (List.mem_cons_of_mem _ hb)
    rcases List.mem_append.mp ha with ha | ha
    · exact hSelecting.below a ha b hBefore
    · rcases (mem_slotContents blank slots).mp hBefore with
        ⟨hNe, j, hj, rfl⟩
      rw [List.mem_singleton.mp ha]
      exact hMin j hj hNe

/- There is a lowest slot as long as values are missing. -/
theorem Selecting.exists_lowest
    {count : Nat}
    {values out : List α}
    (hSelecting : Selecting blank slots count values out)
    (hMissing : out.length < values.length) :
    ∃ l < count, lowestSlot blank slots count = some l := by
  cases hLowest : lowestSlot blank slots count with
  | some l =>
      exact ⟨l, (lowestSlot_spec blank slots hLowest).1, rfl⟩
  | none =>
      have hAll :=
        (lowestSlot_eq_none_iff blank slots count).mp hLowest
      have hNone : slotContents blank slots count = [] := by
        apply List.eq_nil_iff_forall_not_mem.mpr
        intro a ha
        rcases (mem_slotContents blank slots).mp ha with
          ⟨hNe, j, hj, rfl⟩
        exact hNe (hAll j hj)
      have hLength := hSelecting.perm.length_eq
      rw [hNone, List.append_nil] at hLength
      omega

------------------------------------------------------------
-- Ascending Values
------------------------------------------------------------

omit [DecidableEq α] [IsStrictTotalOrder α (· < ·)] in
theorem ascending_perm
    (values : List α) :
    (ascending values).Perm values :=
  List.perm_insertionSort _ values

omit [DecidableEq α] in
theorem ascending_sorted
    (values : List α) :
    (ascending values).Pairwise fun a b => ¬ b < a := by
  have hTotal : Std.Total fun a b : α => ¬ b < a :=
    ⟨fun a b => by
      by_cases hLess : b < a
      · exact Or.inr (asymm hLess)
      · exact Or.inl hLess⟩
  have hTrans : IsTrans α fun a b => ¬ b < a :=
    ⟨fun a b c hab hbc hca => by
      rcases trichotomous_of (· < ·) a b with h | h | h
      · exact hbc (IsTrans.trans _ _ _ hca h)
      · exact hbc (h ▸ hca)
      · exact hab h⟩
  exact List.pairwise_insertionSort _ values

omit [DecidableEq α] in
/- Ascending values are in their only order. -/
theorem eq_ascending
    {values out : List α}
    (hPerm : out.Perm values)
    (hSorted : out.Pairwise fun a b => ¬ b < a) :
    out = ascending values := by
  refine List.Perm.eq_of_pairwise ?_ hSorted
    (ascending_sorted values)
    (hPerm.trans (ascending_perm values).symm)
  intro a b _ _ hab hba
  rcases trichotomous_of (· < ·) a b with h | h | h
  · exact absurd h hba
  · exact h
  · exact absurd h hab

/- When all values are taken, they are in order. -/
theorem Selecting.finish
    {count : Nat}
    {values out : List α}
    (hSelecting : Selecting blank slots count values out)
    (hLength : out.length = values.length) :
    out = ascending values := by
  have hAll := hSelecting.perm.length_eq
  rw [List.length_append] at hAll
  have hNone : slotContents blank slots count = [] :=
    List.eq_nil_of_length_eq_zero (by omega)
  have hPerm := hSelecting.perm
  rw [hNone, List.append_nil] at hPerm
  exact eq_ascending hPerm hSelecting.sorted

end Slots
