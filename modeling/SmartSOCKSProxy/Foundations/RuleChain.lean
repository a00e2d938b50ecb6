import Mathlib.Tactic

/-
  Ordered rules that rewrite a state until one of them is
  final.

  A `RuleChain` says when a rule applies, how an applied rule
  rewrites the state, and which rules end the search.  The
  search `run` is compared with the sequence of states that
  every rule in turn would produce.

  Key definitions include:
    * `RuleChain`, `RuleChain.run`
    * `RuleChain.state`, `RuleChain.Selects`
    * `RuleChain.Applied`, `RuleChain.Refines`
    * `RuleChain.SameRule`

  Key theorems include:
    * `RuleChain.run_of_least`
    * `RuleChain.run_of_none`
    * `RuleChain.run_invariant`
    * `RuleChain.Refines.run`, `RuleChain.Refines.applied`
    * `RuleChain.run_sameRules`
-/

/- When rules apply, what they do, and which are final. -/
structure RuleChain
    (ρ σ : Type) where
  applies : ρ → σ → Bool
  act : ρ → σ → σ
  final : ρ → Bool

namespace RuleChain

variable {ρ σ : Type}

/- A rule rewrites the state exactly when it applies. -/
def step
    (c : RuleChain ρ σ)
    (r : ρ)
    (s : σ) : σ :=
  if c.applies r s then c.act r s else s

/-
  Search from position `i`: the position and the rule that
  ended the search, if any, and the state that is left.
-/
def run
    (c : RuleChain ρ σ)
    (i : Nat) :
    List ρ → σ → Option (Nat × ρ) × σ
  | [], s => (none, s)
  | r :: rules, s =>
      if c.applies r s ∧ c.final r then
        (some (i, r), c.act r s)
      else c.run (i + 1) rules (c.step r s)

/- The state before the `i`th rule, no rule being final. -/
def state
    (c : RuleChain ρ σ)
    (rules : List ρ)
    (s : σ) : Nat → σ
  | 0 => s
  | i + 1 =>
      match rules[i]? with
      | some r => c.step r (c.state rules s i)
      | none => c.state rules s i

/- The rule at position `k` is final and applies. -/
def Selects
    (c : RuleChain ρ σ)
    (rules : List ρ)
    (s : σ)
    (k : Nat) : Prop :=
  ∃ h : k < rules.length,
    c.applies rules[k] (c.state rules s k) ∧
      c.final rules[k]

------------------------------------------------------------
-- Intermediate States
------------------------------------------------------------

@[simp] theorem state_zero
    (c : RuleChain ρ σ)
    (rules : List ρ)
    (s : σ) :
    c.state rules s 0 = s := rfl

theorem state_succ
    (c : RuleChain ρ σ)
    {rules : List ρ}
    (s : σ)
    {i : Nat}
    (hi : i < rules.length) :
    c.state rules s (i + 1) =
      c.step rules[i] (c.state rules s i) := by
  simp [state, List.getElem?_eq_getElem hi]

/- The states of the tail start after the first rule. -/
theorem state_cons_succ
    (c : RuleChain ρ σ)
    (r : ρ)
    (rules : List ρ)
    (s : σ)
    (i : Nat) :
    c.state (r :: rules) s (i + 1) =
      c.state rules (c.step r s) i := by
  induction i with
  | zero => simp [state]
  | succ i ih =>
      rw [state, ih]
      simp [state]

/- The states up to `k` depend on the first `k` rules only. -/
theorem state_eq_of_take
    (c : RuleChain ρ σ)
    {rules rules' : List ρ}
    (s : σ)
    {k : Nat}
    (hTake : rules.take k = rules'.take k) :
    ∀ i ≤ k, c.state rules s i = c.state rules' s i := by
  intro i hi
  induction i with
  | zero => rfl
  | succ i ih =>
      have hGet : rules[i]? = rules'[i]? := by
        have hLt : i < k := hi
        rw [← List.getElem?_take_of_lt hLt, hTake,
          List.getElem?_take_of_lt hLt]
      simp only [state, hGet, ih (by omega)]

theorem selects_cons_succ
    (c : RuleChain ρ σ)
    (r : ρ)
    (rules : List ρ)
    (s : σ)
    (k : Nat) :
    c.Selects (r :: rules) s (k + 1) ↔
      c.Selects rules (c.step r s) k := by
  simp [Selects, state_cons_succ]

------------------------------------------------------------
-- The Search
------------------------------------------------------------

/-
  The search ends at the least selected position, right
  after the rule there has rewritten the state.
-/
theorem run_of_least
    (c : RuleChain ρ σ)
    {rules : List ρ}
    {s : σ}
    {k : Nat}
    (i : Nat)
    (hSelects : c.Selects rules s k)
    (hLeast : ∀ j < k, ¬ c.Selects rules s j) :
    c.run i rules s =
      (some (i + k, rules.get ⟨k, hSelects.1⟩),
        c.state rules s (k + 1)) := by
  induction rules generalizing s k i with
  | nil => exact absurd hSelects.1 (Nat.not_lt_zero k)
  | cons r rules ih =>
      cases k with
      | zero =>
          rcases hSelects with ⟨_, hApplies, hFinal⟩
          simp only [List.getElem_cons_zero,
            state_zero] at hApplies hFinal
          simp [run, state, step, hApplies, hFinal]
      | succ k =>
          have hFirst :
              ¬ (c.applies r s = true ∧
                c.final r = true) := by
            intro hBoth
            apply hLeast 0 (Nat.succ_pos k)
            exact ⟨Nat.succ_pos _, by simpa using hBoth⟩
          have hTail := (c.selects_cons_succ r rules s k).mp
            hSelects
          have hTailLeast :
              ∀ j < k,
                ¬ c.Selects rules (c.step r s) j := by
            intro j hj hSel
            exact hLeast (j + 1) (Nat.succ_lt_succ hj)
              ((c.selects_cons_succ r rules s j).mpr hSel)
          rw [run, if_neg hFirst,
            ih (i + 1) hTail hTailLeast, state_cons_succ]
          simp [Nat.add_assoc, Nat.add_comm 1 k]

/- Without a selected rule, every rule takes its turn. -/
theorem run_of_none
    (c : RuleChain ρ σ)
    {rules : List ρ}
    {s : σ}
    (i : Nat)
    (hNone : ∀ k, ¬ c.Selects rules s k) :
    c.run i rules s =
      (none, c.state rules s rules.length) := by
  induction rules generalizing s i with
  | nil => rfl
  | cons r rules ih =>
      have hFirst :
          ¬ (c.applies r s = true ∧ c.final r = true) := by
        intro hBoth
        exact hNone 0
          ⟨Nat.succ_pos _, by simpa using hBoth⟩
      have hTail :
          ∀ k, ¬ c.Selects rules (c.step r s) k := by
        intro k hSel
        exact hNone (k + 1)
          ((c.selects_cons_succ r rules s k).mpr hSel)
      rw [run, if_neg hFirst, ih (i + 1) hTail,
        List.length_cons, state_cons_succ]

/- What is found is the rule at that position. -/
theorem getElem?_of_run
    (c : RuleChain ρ σ)
    {rules : List ρ}
    {s : σ}
    {i k : Nat}
    {r : ρ}
    (hRun : (c.run i rules s).1 = some (k, r)) :
    ∃ j, k = i + j ∧ rules[j]? = some r := by
  induction rules generalizing i s with
  | nil => cases hRun
  | cons head rules ih =>
      unfold run at hRun
      split at hRun
      · cases hRun
        exact ⟨0, rfl, rfl⟩
      · rcases ih hRun with ⟨j, hIndex, hRule⟩
        refine ⟨j + 1, ?_, hRule⟩
        rw [hIndex, Nat.add_assoc, Nat.add_comm 1 j]

------------------------------------------------------------
-- Applied Rules
------------------------------------------------------------

/-
  The rule at position `i` is reached and applies: no
  earlier rule ended the search.
-/
structure Applied
    (c : RuleChain ρ σ)
    (rules : List ρ)
    (s : σ)
    (i : Nat)
    (r : ρ) : Prop where
  rule : rules[i]? = some r
  applies : c.applies r (c.state rules s i)
  reached : ∀ j < i, ¬ c.Selects rules s j

/- A rule of the tail is applied once the head has passed. -/
theorem applied_cons_succ
    (c : RuleChain ρ σ)
    {r r' : ρ}
    {rules : List ρ}
    {s : σ}
    {k : Nat}
    (hFirst : ¬ (c.applies r s = true ∧ c.final r = true))
    (hApplied : c.Applied rules (c.step r s) k r') :
    c.Applied (r :: rules) s (k + 1) r' where
  rule := by simpa using hApplied.rule
  applies := by
    rw [c.state_cons_succ]
    exact hApplied.applies
  reached := by
    intro j hj hSel
    cases j with
    | zero =>
        rcases hSel with ⟨_, hBoth⟩
        exact hFirst (by simpa using hBoth)
    | succ j =>
        exact hApplied.reached j (by omega)
          ((c.selects_cons_succ r rules s j).mp hSel)

/-
  What every applied rule preserves holds of the state that
  the search leaves.
-/
theorem run_invariant
    (c : RuleChain ρ σ)
    (P : σ → Prop)
    {rules : List ρ}
    {s : σ}
    (i : Nat)
    (hInit : P s)
    (hStep : ∀ k r, c.Applied rules s k r →
      P (c.state rules s k) →
      P (c.act r (c.state rules s k))) :
    P (c.run i rules s).2 := by
  induction rules generalizing s i with
  | nil => exact hInit
  | cons r rules ih =>
      have hZero :
          c.applies r s = true → P (c.act r s) := by
        intro hApplies
        exact hStep 0 r ⟨rfl, hApplies, by simp⟩ hInit
      rw [run]
      by_cases hFirst :
          c.applies r s = true ∧ c.final r = true
      · rw [if_pos hFirst]
        exact hZero hFirst.1
      · rw [if_neg hFirst]
        apply ih
        · unfold step
          split
          · exact hZero ‹_›
          · exact hInit
        · intro k r' hApplied
          rw [← c.state_cons_succ r rules s k]
          exact hStep (k + 1) r'
            (c.applied_cons_succ hFirst hApplied)

------------------------------------------------------------
-- Refinement
------------------------------------------------------------

/-
  One chain computes another: its states stand for those of
  the other chain as long as they satisfy an invariant.
-/
structure Refines
    {τ : Type}
    (c : RuleChain ρ σ)
    (a : RuleChain ρ τ)
    (abs : σ → τ)
    (Inv : σ → Prop) : Prop where
  applies :
    ∀ r s, Inv s → c.applies r s = a.applies r (abs s)
  final : ∀ r, c.final r = a.final r
  act : ∀ r s, Inv s → abs (c.act r s) = a.act r (abs s)
  inv : ∀ r s, Inv s → Inv (c.act r s)

namespace Refines

variable {τ : Type}
variable {c : RuleChain ρ σ}
variable {a : RuleChain ρ τ}
variable {abs : σ → τ}
variable {Inv : σ → Prop}
variable {s : σ}

theorem step
    (h : c.Refines a abs Inv)
    (r : ρ)
    (hInv : Inv s) :
    Inv (c.step r s) ∧
      abs (c.step r s) = a.step r (abs s) := by
  unfold RuleChain.step
  rw [h.applies r s hInv]
  split
  · exact ⟨h.inv r s hInv, h.act r s hInv⟩
  · exact ⟨hInv, rfl⟩

theorem state
    (h : c.Refines a abs Inv)
    (rules : List ρ)
    (hInv : Inv s)
    (i : Nat) :
    Inv (c.state rules s i) ∧
      abs (c.state rules s i) =
        a.state rules (abs s) i := by
  induction i with
  | zero => exact ⟨hInv, rfl⟩
  | succ i ih =>
      unfold RuleChain.state
      cases rules[i]? with
      | none => exact ih
      | some r =>
          have hStep := h.step r ih.1
          rw [ih.2] at hStep
          exact hStep

/- Both searches end at the same rule. -/
theorem run
    (h : c.Refines a abs Inv)
    (i : Nat)
    (rules : List ρ)
    (hInv : Inv s) :
    (c.run i rules s).1 = (a.run i rules (abs s)).1 ∧
      abs (c.run i rules s).2 =
        (a.run i rules (abs s)).2 := by
  induction rules generalizing s i with
  | nil => exact ⟨rfl, rfl⟩
  | cons r rules ih =>
      unfold RuleChain.run
      rw [h.applies r s hInv, h.final r]
      split
      · exact ⟨rfl, h.act r s hInv⟩
      · have hStep := h.step r hInv
        rw [← hStep.2]
        exact ih (i + 1) hStep.1

theorem selects
    (h : c.Refines a abs Inv)
    (rules : List ρ)
    (hInv : Inv s)
    (k : Nat) :
    c.Selects rules s k ↔ a.Selects rules (abs s) k := by
  have hState := h.state rules hInv k
  unfold Selects
  apply exists_congr
  intro hk
  rw [h.applies _ _ hState.1, h.final, hState.2]

/- Both searches apply the same rules. -/
theorem applied
    (h : c.Refines a abs Inv)
    {rules : List ρ}
    (hInv : Inv s)
    {k : Nat}
    {r : ρ}
    (hApplied : c.Applied rules s k r) :
    a.Applied rules (abs s) k r where
  rule := hApplied.rule
  applies := by
    have hState := h.state rules hInv k
    rw [← hState.2, ← h.applies _ _ hState.1]
    exact hApplied.applies
  reached := fun j hj hSel =>
    hApplied.reached j hj
      ((h.selects rules hInv j).mpr hSel)

end Refines

------------------------------------------------------------
-- Rules of Two Kinds
------------------------------------------------------------

/- Two rules that say the same in their own ways. -/
structure SameRule
    {ρ' : Type}
    (c : RuleChain ρ σ)
    (c' : RuleChain ρ' σ)
    (r : ρ)
    (r' : ρ') : Prop where
  applies : ∀ s, c.applies r s = c'.applies r' s
  act : ∀ s, c.act r s = c'.act r' s
  final : c.final r = c'.final r'

/-
  Lists of such rules are searched alike: both searches end
  at the same position, with rules that correspond, and leave
  the same state.
-/
theorem run_sameRules
    {ρ' : Type}
    {c : RuleChain ρ σ}
    {c' : RuleChain ρ' σ}
    {Same : ρ → ρ' → Prop}
    (hSame : ∀ r r', Same r r' → c.SameRule c' r r')
    {rules : List ρ}
    {rules' : List ρ'}
    (hRules : List.Forall₂ Same rules rules')
    (i : Nat)
    (s : σ) :
    Option.Rel
        (fun found found' =>
          found.1 = found'.1 ∧ Same found.2 found'.2)
        (c.run i rules s).1 (c'.run i rules' s).1 ∧
      (c.run i rules s).2 = (c'.run i rules' s).2 := by
  induction hRules generalizing i s with
  | nil => exact ⟨.none, rfl⟩
  | @cons r r' rules rules' hHead _ ih =>
      have hRule := hSame r r' hHead
      unfold run step
      rw [hRule.applies, hRule.act, hRule.final]
      split
      · exact ⟨.some ⟨rfl, hHead⟩, rfl⟩
      · exact ih (i + 1) _

end RuleChain
