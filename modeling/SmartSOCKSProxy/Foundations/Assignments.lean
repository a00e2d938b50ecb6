import Mathlib.Tactic
import Mathlib.Data.List.Sigma

/-
  Assignments to fields.

  Of several assignments to one field the last one counts.
  A list of assignments begins with the last one, so that a
  lookup finds the one that counts.

  Key definitions include:
    * `lastAssigned`

  Key theorems include:
    * `lastAssigned_append`
    * `lastAssigned_eq_iff`
    * `map_eq_self_iff`
-/

section Assignments

variable {κ : Type} [DecidableEq κ]
variable {V : κ → Type}

/- What a field holds after the assignments. -/
def lastAssigned
    (assigns : List (Sigma V))
    (field : κ)
    (before : V field) : V field :=
  (assigns.dlookup field).getD before

@[simp]
theorem lastAssigned_nil
    (field : κ)
    (before : V field) :
    lastAssigned [] field before = before := rfl

@[simp]
theorem lastAssigned_self
    (field : κ)
    (value before : V field) :
    lastAssigned [⟨field, value⟩] field before = value := by
  simp [lastAssigned]

/- The other fields are as they were. -/
theorem lastAssigned_of_ne
    {field other : κ}
    (hNe : field ≠ other)
    (value : V other)
    (before : V field) :
    lastAssigned [⟨other, value⟩] field before = before := by
  unfold lastAssigned
  rw [List.dlookup_cons_ne _ ⟨other, value⟩ hNe]
  rfl

/- Assignments after others. -/
theorem lastAssigned_append
    (later earlier : List (Sigma V))
    (field : κ)
    (before : V field) :
    lastAssigned (later ++ earlier) field before =
      lastAssigned later field
        (lastAssigned earlier field before) := by
  unfold lastAssigned
  rw [List.dlookup_append]
  cases later.dlookup field <;> rfl

/- A field is as before when it held its last value already. -/
theorem lastAssigned_eq_iff
    (assigns : List (Sigma V))
    (field : κ)
    (before : V field) :
    lastAssigned assigns field before = before ↔
      ∀ value ∈ assigns.dlookup field, before = value := by
  unfold lastAssigned
  cases assigns.dlookup field with
  | none => simp
  | some value => simp [eq_comm]

end Assignments

/- All elements stay exactly when the list does. -/
theorem map_eq_self_iff
    {α : Type}
    {f : α → α}
    {l : List α} :
    l.map f = l ↔ ∀ a ∈ l, f a = a := by
  have hMap := List.map_inj_left (f := f) (g := id) (l := l)
  rw [List.map_id] at hMap
  exact hMap
