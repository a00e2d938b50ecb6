import Mathlib.Tactic

/-
  Numbered generations of a thing, the newest at 0.

  A shelf has a place for each generation.  An older place is
  filled by moving the next younger generation there.

  Key definitions include:
    * `generations`, `shift`

  Key theorems include:
    * `generations_shift`
    * `generations_of_free`
    * `generations_push`
-/

variable {α : Type}

/- The generations up to `n`, the oldest first. -/
def generations
    (shelf : Nat → Option α) : Nat → List α
  | 0 => (shelf 0).toList
  | n + 1 => (shelf (n + 1)).toList ++ generations shelf n

/- Move generation `i`, if there is one, to the next place. -/
def shift
    (shelf : Nat → Option α)
    (i : Nat) : Nat → Option α :=
  match shelf i with
  | none => shelf
  | some x =>
      Function.update
        (Function.update shelf (i + 1) (some x)) i none

theorem shift_of_none
    {shelf : Nat → Option α}
    {i : Nat}
    (hNone : shelf i = none) :
    shift shelf i = shelf := by
  simp [shift, hNone]

/- The place that was moved from is free. -/
theorem shift_self
    (shelf : Nat → Option α)
    (i : Nat) :
    shift shelf i i = none := by
  cases hHere : shelf i with
  | none => rw [shift_of_none hHere, hHere]
  | some x => simp [shift, hHere]

theorem shift_succ
    {shelf : Nat → Option α}
    {i : Nat}
    {x : α}
    (hSome : shelf i = some x) :
    shift shelf i (i + 1) = some x := by
  simp [shift, hSome]

theorem shift_of_ne
    (shelf : Nat → Option α)
    {i j : Nat}
    (hHere : j ≠ i)
    (hNext : j ≠ i + 1) :
    shift shelf i j = shelf j := by
  cases hShelf : shelf i with
  | none => rw [shift_of_none hShelf]
  | some x => simp [shift, hShelf, hHere, hNext]

theorem generations_congr
    {shelf shelf' : Nat → Option α}
    {n : Nat}
    (hSame : ∀ i ≤ n, shelf i = shelf' i) :
    generations shelf n = generations shelf' n := by
  induction n with
  | zero => simp [generations, hSame 0 (le_refl 0)]
  | succ n ih =>
      rw [generations, generations,
        hSame (n + 1) (le_refl _),
        ih (fun i hi => hSame i (by omega))]

/- The places of a move, and those below them. -/
theorem generations_shift_self
    (shelf : Nat → Option α)
    {i : Nat}
    {x : α}
    (hSome : shelf i = some x) :
    generations (shift shelf i) (i + 1) =
      generations shelf i := by
  rw [generations, shift_succ hSome]
  cases i with
  | zero =>
      rw [generations, generations, shift_self, hSome]
      rfl
  | succ i =>
      have hBelow :
          generations (shift shelf (i + 1)) i =
            generations shelf i :=
        generations_congr fun j hj =>
          shift_of_ne shelf (by omega) (by omega)
      rw [generations, generations, hBelow, shift_self,
        hSome]
      rfl

/-
  A move keeps the order of the generations.  It only drops
  what it moves over, which is the oldest one when all places
  between were free.
-/
theorem generations_shift
    {shelf : Nat → Option α}
    {i n : Nat}
    (hi : i < n)
    (hFree : i + 1 < n → shelf (i + 1) = none) :
    ∃ dropped,
      generations shelf n =
          dropped ++ generations (shift shelf i) n ∧
        (generations (shift shelf i) n = [] →
          generations shelf n = []) := by
  cases hShelf : shelf i with
  | none =>
      rw [shift_of_none hShelf]
      exact ⟨[], rfl, id⟩
  | some x =>
      have hSelf := generations_shift_self shelf hShelf
      rcases Nat.lt_or_ge (i + 1) n with hMore | hLast
      · have hNone := hFree hMore
        have hEqual :
            ∀ m, i + 1 ≤ m →
              generations (shift shelf i) m =
                generations shelf m := by
          intro m hm
          induction m with
          | zero => omega
          | succ m ih =>
              rcases Nat.lt_or_ge i m with hLt | hGe
              · rw [generations, generations, ih hLt,
                  shift_of_ne shelf (by omega) (by omega)]
              · have hSame : m = i := by omega
                subst hSame
                rw [hSelf, generations, hNone]
                rfl
        rw [hEqual n (by omega)]
        exact ⟨[], rfl, id⟩
      · have hSame : n = i + 1 := by omega
        subst hSame
        rw [hSelf]
        refine ⟨(shelf (i + 1)).toList, rfl, ?_⟩
        intro hNil
        have hHere : x ∈ generations shelf i := by
          cases i with
          | zero => simp [generations, hShelf]
          | succ i => simp [generations, hShelf]
        rw [hNil] at hHere
        contradiction

/- Places that are free do not matter. -/
theorem generations_of_free
    {shelf : Nat → Option α}
    {m n : Nat}
    (hLe : m ≤ n)
    (hFree : ∀ i, m < i → shelf i = none) :
    generations shelf n = generations shelf m := by
  induction n, hLe using Nat.le_induction with
  | base => rfl
  | succ n hLe ih =>
      rw [generations, hFree (n + 1) (by omega), ih]
      rfl

/- A new generation 0 comes last. -/
theorem generations_push
    {shelf : Nat → Option α}
    (hFree : shelf 0 = none)
    (x : α)
    (n : Nat) :
    generations (Function.update shelf 0 (some x)) n =
      generations shelf n ++ [x] := by
  induction n with
  | zero => simp [generations, hFree]
  | succ n ih =>
      rw [generations, generations, ih]
      simp
