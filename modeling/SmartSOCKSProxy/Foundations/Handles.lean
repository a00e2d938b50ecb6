import Mathlib.Tactic

/-
  Handles that are acquired and released.

  Key definitions include:
    * `Use`, `Use.held`, `Use.turns`

  Key theorems include:
    * `Use.held_turns_append`, `Use.held_of_prefix`
    * `Use.count_release_turns`
-/

/- A handle is acquired, or released again. -/
inductive Use (α : Type) where
| acquire (handle : α)
| release (handle : α)
deriving DecidableEq, Repr

namespace Use

------------------------------------------------------------
-- Handles in Turn
------------------------------------------------------------

/- Each handle is released before the next is acquired. -/
def turns
    {α : Type}
    (handles : List α) : List (Use α) :=
  handles.flatMap fun a => [.acquire a, .release a]

@[simp] theorem turns_nil
    {α : Type} :
    turns ([] : List α) = [] := rfl

@[simp] theorem turns_cons
    {α : Type}
    (a : α)
    (handles : List α) :
    turns (a :: handles) =
      .acquire a :: .release a :: turns handles := rfl

@[simp] theorem turns_append
    {α : Type}
    (front back : List α) :
    turns (front ++ back) = turns front ++ turns back :=
  List.flatMap_append

theorem acquire_mem_turns
    {α : Type}
    {a : α}
    {handles : List α} :
    .acquire a ∈ turns handles ↔ a ∈ handles := by
  induction handles with
  | nil => simp
  | cons b handles ih => simp [ih]

variable {α : Type} [DecidableEq α]

/- A handle is released as often as it has its turn. -/
theorem count_release_turns
    (a : α)
    (handles : List α) :
    (turns handles).count (.release a) =
      handles.count a := by
  induction handles with
  | nil => rfl
  | cons b handles ih =>
      rw [turns_cons,
        List.count_cons_of_ne (fun hSame => by cases hSame),
        List.count_cons, List.count_cons, ih]
      simp

------------------------------------------------------------
-- Handles That Are Held
------------------------------------------------------------

/- What is held after one more use. -/
def apply
    (held : List α) : Use α → List α
  | .acquire a => a :: held
  | .release a => held.erase a

/- The handles that are held after the uses. -/
def held
    (uses : List (Use α)) : List α :=
  uses.foldl apply []

@[simp] theorem held_nil :
    held ([] : List (Use α)) = [] := rfl

/- A turn leaves behind what was held. -/
@[simp] theorem held_turn
    (a : α)
    (uses : List (Use α)) :
    held (.acquire a :: .release a :: uses) = held uses := by
  simp [held, apply]

@[simp] theorem held_turns_append
    (handles : List α)
    (uses : List (Use α)) :
    held (turns handles ++ uses) = held uses := by
  induction handles with
  | nil => rfl
  | cons a handles ih =>
      rw [turns_cons, List.cons_append, List.cons_append,
        held_turn, ih]

/- At no time is more than one handle held. -/
theorem held_of_prefix
    {handles : List α}
    {last : Option α}
    {front : List (Use α)}
    (hFront :
      front <+: turns handles ++ last.toList.map .acquire) :
    (held front).length ≤ 1 := by
  induction handles generalizing front with
  | nil =>
      have hLength := hFront.length_le
      rcases front with _ | ⟨use, _ | ⟨_, _⟩⟩
      · exact Nat.zero_le 1
      · cases use with
        | acquire a => exact Nat.le_refl 1
        | release a => exact Nat.zero_le 1
      · cases last with
        | none => simp at hLength
        | some a => simp at hLength
  | cons a handles ih =>
      rw [turns_cons, List.cons_append, List.cons_append]
        at hFront
      rcases List.prefix_cons_iff.mp hFront with
        rfl | ⟨front₁, rfl, hFront₁⟩
      · exact Nat.zero_le 1
      · rcases List.prefix_cons_iff.mp hFront₁ with
          rfl | ⟨front₂, rfl, hFront₂⟩
        · exact Nat.le_refl 1
        · rw [held_turn]
          exact ih hFront₂

end Use
