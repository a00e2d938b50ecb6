import Mathlib.Tactic

/-
  Transition systems and their reachable states.

  A label names everything that a step leaves open: the party
  that moves, and what its system calls return.

  Key definitions include:
    * `Transition`, `Transition.Reachable`
    * `Transition.only`
    * `Transition.moving`, `Along`

  Key theorems include:
    * `Transition.Reachable.invariant`
    * `Transition.Reachable.of_only`
    * `Transition.Reachable.run`
-/

/- Where a system starts, and how it moves. -/
structure Transition
    (σ ι : Type) where
  start : σ → Prop
  step : σ → ι → σ → Prop

namespace Transition

variable {σ ι : Type}

/- The states of all runs. -/
inductive Reachable
    (t : Transition σ ι) : σ → Prop
| start
    {s : σ}
    (hStart : t.start s) :
    Reachable t s
| step
    {s s' : σ}
    {i : ι}
    (hReach : Reachable t s)
    (hStep : t.step s i s') :
    Reachable t s'

/- A system restricted to the steps that are allowed. -/
def only
    (t : Transition σ ι)
    (allowed : σ → ι → Prop) : Transition σ ι where
  start := t.start
  step := fun s i s' => allowed s i ∧ t.step s i s'

variable {t : Transition σ ι}

/-
  What holds at the start and is preserved by the steps from
  reachable states holds in all reachable states.
-/
theorem Reachable.invariant
    {P : σ → Prop}
    (hStart : ∀ s, t.start s → P s)
    (hStep : ∀ s i s',
      t.Reachable s → P s → t.step s i s' → P s')
    {s : σ}
    (hReach : t.Reachable s) :
    P s := by
  induction hReach with
  | start hInit => exact hStart _ hInit
  | step hReach hMove ih =>
      exact hStep _ _ _ hReach ih hMove

/- Restricted runs are runs. -/
theorem Reachable.of_only
    {allowed : σ → ι → Prop}
    {s : σ}
    (hReach : (t.only allowed).Reachable s) :
    t.Reachable s := by
  induction hReach with
  | start hStart => exact .start hStart
  | step _ hStep ih => exact .step ih hStep.2

/- A system in which a label determines the next state. -/
def moving
    (start : σ → Prop)
    (move : σ → ι → σ) : Transition σ ι where
  start := start
  step := fun s i s' => s' = move s i

end Transition

variable {σ ι : Type}

/- Every step of a run of moves meets a condition. -/
def Along
    (allowed : σ → ι → Prop)
    (move : σ → ι → σ) : σ → List ι → Prop
  | _, [] => True
  | s, i :: labels =>
      allowed s i ∧ Along allowed move (move s i) labels

variable {start : σ → Prop}
variable {allowed : σ → ι → Prop}
variable {move : σ → ι → σ}

instance instDecidableAlong
    [∀ s i, Decidable (allowed s i)] :
    ∀ (s : σ) (labels : List ι),
      Decidable (Along allowed move s labels)
  | _, [] => inferInstanceAs (Decidable True)
  | s, i :: labels =>
      have : Decidable
          (Along allowed move (move s i) labels) :=
        instDecidableAlong (move s i) labels
      inferInstanceAs (Decidable (_ ∧ _))

namespace Transition

/- A run of moves leads to a reachable state. -/
theorem Reachable.run
    {s : σ}
    (hReach : (moving start move).Reachable s)
    (labels : List ι) :
    (moving start move).Reachable (labels.foldl move s) := by
  induction labels generalizing s with
  | nil => exact hReach
  | cons i labels ih => exact ih (hReach.step rfl)

/- A run of allowed moves. -/
theorem Reachable.run_only
    {s : σ}
    (hReach : ((moving start move).only allowed).Reachable s)
    {labels : List ι}
    (hAlong : Along allowed move s labels) :
    ((moving start move).only allowed).Reachable
      (labels.foldl move s) := by
  induction labels generalizing s with
  | nil => exact hReach
  | cons i labels ih =>
      exact ih (hReach.step ⟨hAlong.1, rfl⟩) hAlong.2

end Transition
