import Mathlib.Tactic

/-
  Files that include other files.

  A file is the list of what its lines are: items, files that
  are included in their places, and at most one line that ends
  the reading.  A file that cannot be opened is a file whose
  first line is bad.

  Key definitions include:
    * `IncludeTree`, `IncludeTree.complete`
    * `IncludeTree.refused`, `IncludeTree.accepted`
    * `IncludeTree.loaded`, `IncludeTree.reachesEnd`

  Key theorems include:
    * `IncludeTree.refused_of_accepted`
    * `IncludeTree.accepted_of_complete`
-/

/-
  `bad` is a line that is rejected, and `lost` one after which
  nothing is known.
-/
inductive IncludeTree
    (α : Type) where
| done
| bad
| lost
| item (a : α) (rest : IncludeTree α)
| nested (inner rest : IncludeTree α)

namespace IncludeTree

variable {α : Type}

------------------------------------------------------------
-- The Whole File
------------------------------------------------------------

/- All items in order, when every line is good. -/
def complete : IncludeTree α → Option (List α)
  | done => some []
  | bad => none
  | lost => none
  | item a rest => rest.complete.map (a :: ·)
  | nested inner rest =>
      inner.complete.bind fun front =>
        rest.complete.map (front ++ ·)

------------------------------------------------------------
-- A Reader That Stops Early
------------------------------------------------------------

mutual

/-
  The reader ends at a line of the file itself: every file
  that is included before that line is read to its end.
-/
def refused : IncludeTree α → Bool
  | done => false
  | bad => true
  | lost => false
  | item _ rest => rest.refused
  | nested inner rest => inner.accepted && rest.refused

/-
  The reader gets to the end, or to an included file that is
  refused, which it takes for the end.
-/
def accepted : IncludeTree α → Bool
  | done => true
  | bad => false
  | lost => false
  | item _ rest => rest.accepted
  | nested inner rest =>
      inner.refused || (inner.accepted && rest.accepted)

end

/- The items up to where the reader ends. -/
def loaded : IncludeTree α → List α
  | done => []
  | bad => []
  | lost => []
  | item a rest => a :: rest.loaded
  | nested inner rest =>
      inner.loaded ++
        if inner.accepted then rest.loaded else []

/- No included file is refused before the end is reached. -/
def reachesEnd : IncludeTree α → Bool
  | done => true
  | bad => false
  | lost => false
  | item _ rest => rest.reachesEnd
  | nested inner rest => inner.accepted && rest.reachesEnd

------------------------------------------------------------
-- Laws
------------------------------------------------------------

/- A file is not both refused and accepted. -/
theorem refused_of_accepted
    (t : IncludeTree α)
    (hAccepted : t.accepted = true) :
    t.refused = false := by
  induction t with
  | done => rfl
  | bad => simp [accepted] at hAccepted
  | lost => rfl
  | item a rest ih =>
      simp only [accepted] at hAccepted
      simp only [refused]
      exact ih hAccepted
  | nested inner rest ihInner ihRest =>
      simp only [accepted, Bool.or_eq_true,
        Bool.and_eq_true] at hAccepted
      simp only [refused, Bool.and_eq_false_iff]
      rcases hAccepted with hRefused | ⟨_, hRest⟩
      · left
        by_contra hInner
        rw [ihInner (by simpa using hInner)] at hRefused
        cases hRefused
      · exact .inr (ihRest hRest)

theorem accepted_of_refused
    (t : IncludeTree α)
    (hRefused : t.refused = true) :
    t.accepted = false := by
  by_contra hAccepted
  have hFalse :=
    t.refused_of_accepted (by simpa using hAccepted)
  rw [hRefused] at hFalse
  cases hFalse

/- A whole file is read to its end. -/
theorem accepted_of_complete
    (t : IncludeTree α)
    {items : List α}
    (hComplete : t.complete = some items) :
    t.accepted = true ∧ t.loaded = items := by
  induction t generalizing items with
  | done =>
      simp only [complete, Option.some.injEq] at hComplete
      exact ⟨rfl, hComplete⟩
  | bad => simp [complete] at hComplete
  | lost => simp [complete] at hComplete
  | item a rest ih =>
      simp only [complete, Option.map_eq_some_iff] at hComplete
      rcases hComplete with ⟨behind, hRest, rfl⟩
      simp [accepted, loaded, ih hRest]
  | nested inner rest ihInner ihRest =>
      simp only [complete, Option.bind_eq_some_iff,
        Option.map_eq_some_iff] at hComplete
      rcases hComplete with ⟨front, hInner, behind, hRest, rfl⟩
      simp [accepted, loaded, ihInner hInner, ihRest hRest]

end IncludeTree
