import Mathlib.Tactic

/-
  Counters in objects that are reached through pointers.

  A table gives the object at every address.  Amounts act on
  objects; a loop that adds some amount in every round adds
  their sum.

  Key definitions include:
    * `applyAt`, `AddsUp`

  Key theorems include:
    * `foldl_applyAt_of_mem`
    * `AddsUp.foldlM`
-/

variable {κ α δ ι : Type}

------------------------------------------------------------
-- Objects
------------------------------------------------------------

/- The object at one address is changed. -/
def applyAt
    [DecidableEq κ]
    (change : α → α)
    (table : κ → α)
    (key : κ) : κ → α :=
  Function.update table key (change (table key))

section Reset

variable [DecidableEq κ]
variable {change : α → α}

/- An object that is changed already stays so. -/
theorem foldl_applyAt_changed
    (hTwice : ∀ a, change (change a) = change a)
    (keys : List κ)
    {table : κ → α}
    {key : κ}
    {a : α}
    (hChanged : table key = change a) :
    keys.foldl (applyAt change) table key = change a := by
  induction keys generalizing table with
  | nil => exact hChanged
  | cons first keys ih =>
      apply ih
      unfold applyAt
      by_cases hKey : key = first
      · rw [← hKey, Function.update_self, hChanged, hTwice]
      · rw [Function.update_of_ne hKey, hChanged]

/- Changing all objects of a list once more does nothing. -/
theorem foldl_applyAt_of_mem
    (hTwice : ∀ a, change (change a) = change a)
    {keys : List κ}
    {key : κ}
    (hMem : key ∈ keys)
    (table : κ → α) :
    keys.foldl (applyAt change) table key =
      change (table key) := by
  induction keys generalizing table with
  | nil => cases hMem
  | cons first keys ih =>
      rw [List.foldl_cons]
      by_cases hKey : key = first
      · apply foldl_applyAt_changed hTwice
        rw [hKey, applyAt, Function.update_self]
      · have hRest : key ∈ keys :=
          List.mem_of_ne_of_mem hKey hMem
        rw [ih hRest, applyAt, Function.update_of_ne hKey]

end Reset

------------------------------------------------------------
-- Amounts
------------------------------------------------------------

variable [AddCommMonoid δ] [AddAction δ α]

/- Every object got its amount. -/
def AddsUp
    (amount : κ → δ)
    (table table' : κ → α) : Prop :=
  ∀ key, table' key = amount key +ᵥ table key

namespace AddsUp

theorem refl
    (table : κ → α) :
    AddsUp (fun _ => (0 : δ)) table table :=
  fun key => (zero_vadd δ (table key)).symm

theorem trans
    {amount amount' : κ → δ}
    {table table₁ table₂ : κ → α}
    (h : AddsUp amount table table₁)
    (h' : AddsUp amount' table₁ table₂) :
    AddsUp (fun key => amount key + amount' key) table
      table₂ := by
  intro key
  rw [h' key, h key, vadd_vadd, add_comm]

/- The amounts may be written in another way. -/
theorem congr
    {amount amount' : κ → δ}
    {table table' : κ → α}
    (h : AddsUp amount table table')
    (hSame : ∀ key, amount key = amount' key) :
    AddsUp amount' table table' :=
  fun key => hSame key ▸ h key

/- Something is added to one object. -/
theorem of_applyAt
    [DecidableEq κ]
    (amount : δ)
    (table : κ → α)
    (key : κ) :
    AddsUp (fun k => if key = k then amount else 0) table
      (applyAt (amount +ᵥ ·) table key) := by
  intro k
  unfold applyAt
  dsimp only
  by_cases hKey : key = k
  · subst hKey
    rw [Function.update_self, if_pos rfl]
  · rw [Function.update_of_ne (Ne.symm hKey), if_neg hKey,
      zero_vadd]

/- A loop that never fails adds the sum of its rounds. -/
theorem foldlM
    {step : (κ → α) → ι → Option (κ → α)}
    {amount : ι → κ → δ}
    {items : List ι}
    (hStep : ∀ item ∈ items, ∀ table, ∃ table',
      step table item = some table' ∧
        AddsUp (amount item) table table')
    (table : κ → α) :
    ∃ table',
      items.foldlM step table = some table' ∧
        AddsUp
          (fun key => (items.map (amount · key)).sum)
          table table' := by
  induction items generalizing table with
  | nil => exact ⟨table, rfl, AddsUp.refl table⟩
  | cons item items ih =>
      rcases hStep item List.mem_cons_self table with
        ⟨table₁, hFirst, hAdds⟩
      rcases ih (fun item' hMem =>
          hStep item' (List.mem_cons_of_mem _ hMem)) table₁
        with ⟨table₂, hRest, hAdds'⟩
      refine ⟨table₂, ?_, ?_⟩
      · rw [List.foldlM_cons, hFirst]
        exact hRest
      · apply (hAdds.trans hAdds').congr
        intro key
        rw [List.map_cons, List.sum_cons]

end AddsUp
