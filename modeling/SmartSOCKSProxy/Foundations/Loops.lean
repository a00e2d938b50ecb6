import Mathlib.Tactic

/-
  Loops that may go on forever.

  A round of a loop leads to a next state, or ends the loop
  with a result.  What a round does is a function of the
  state, and so a loop either returns one result or goes on
  forever.

  Key definitions include:
    * `Returns`, `Leads`, `Forever`

  Key theorems include:
    * `Leads.invariant`, `Returns.rule`
    * `returns_or_forever`, `Forever.of_invariant`
    * `Forever.settles`
-/

section Loops

variable {σ ρ : Type}

/- From a state, the loop ends with a result. -/
inductive Returns
    (round : σ → σ ⊕ ρ) : σ → ρ → Prop
| stop
    {s : σ}
    {r : ρ}
    (hStop : round s = .inr r) :
    Returns round s r
| next
    {s s' : σ}
    {r : ρ}
    (hNext : round s = .inl s')
    (hRest : Returns round s' r) :
    Returns round s r

/- So many rounds lead from a state to another one. -/
inductive Leads
    (round : σ → σ ⊕ ρ)
    (s : σ) : Nat → σ → Prop
| start :
    Leads round s 0 s
| next
    {n : Nat}
    {s₁ s₂ : σ}
    (hLeads : Leads round s n s₁)
    (hNext : round s₁ = .inl s₂) :
    Leads round s (n + 1) s₂

/- Every round is followed by another one. -/
def Forever
    (round : σ → σ ⊕ ρ)
    (s : σ) : Prop :=
  ∀ n, ∃ s', Leads round s n s'

variable {round : σ → σ ⊕ ρ}
variable {s s' : σ}
variable {r r' : ρ}

------------------------------------------------------------
-- Results
------------------------------------------------------------

theorem returns_of_stop
    (hStop : round s = .inr r) :
    Returns round s r' ↔ r' = r := by
  constructor
  · intro hReturns
    cases hReturns with
    | stop hStop' =>
        exact Sum.inr.inj (hStop'.symm.trans hStop)
    | next hNext _ => exact nomatch hNext.symm.trans hStop
  · rintro rfl
    exact .stop hStop

theorem returns_of_next
    (hNext : round s = .inl s') :
    Returns round s r ↔ Returns round s' r := by
  constructor
  · intro hReturns
    cases hReturns with
    | stop hStop => exact nomatch hStop.symm.trans hNext
    | next hNext' hRest =>
        rwa [Sum.inl.inj (hNext.symm.trans hNext')]
  · exact .next hNext

/- There is one result at most. -/
theorem Returns.unique
    (hLeft : Returns round s r)
    (hRight : Returns round s r') :
    r = r' := by
  induction hLeft with
  | stop hStop =>
      exact ((returns_of_stop hStop).mp hRight).symm
  | next hNext _ ih =>
      exact ih ((returns_of_next hNext).mp hRight)

/- The result is that of every state on the way. -/
theorem Leads.returns_iff
    {n : Nat}
    (hLeads : Leads round s n s') :
    Returns round s r ↔ Returns round s' r := by
  induction hLeads with
  | start => exact Iff.rfl
  | next _ hNext ih => exact ih.trans (returns_of_next hNext)

/- So many rounds lead to one state. -/
theorem Leads.unique
    {n : Nat}
    {s'' : σ}
    (hLeft : Leads round s n s')
    (hRight : Leads round s n s'') :
    s' = s'' := by
  induction hLeft generalizing s'' with
  | start =>
      cases hRight
      rfl
  | next _ hNext ih =>
      cases hRight with
      | next hRight hNext' =>
          rw [ih hRight] at hNext
          exact Sum.inl.inj (hNext.symm.trans hNext')

theorem Leads.trans
    {n m : Nat}
    {s'' : σ}
    (hLeads : Leads round s n s')
    (hMore : Leads round s' m s'') :
    Leads round s (n + m) s'' := by
  induction hMore with
  | start => exact hLeads
  | next _ hNext ih => exact ih.next hNext

/- The last round leads nowhere. -/
theorem Leads.of_stop
    {n : Nat}
    (hLeads : Leads round s n s')
    (hStop : round s = .inr r) :
    n = 0 ∧ s' = s := by
  induction hLeads with
  | start => exact ⟨rfl, rfl⟩
  | next _ hNext ih =>
      rw [ih.2] at hNext
      exact nomatch hNext.symm.trans hStop

/- The first round, and those that follow it. -/
theorem leads_of_next
    {n : Nat}
    {s'' : σ}
    (hNext : round s = .inl s') :
    Leads round s (n + 1) s'' ↔ Leads round s' n s'' := by
  constructor
  · intro hLeads
    induction n generalizing s'' with
    | zero =>
        cases hLeads with
        | next hLeads hRound =>
            cases hLeads
            rw [Sum.inl.inj (hRound.symm.trans hNext)]
            exact .start
    | succ n ih =>
        cases hLeads with
        | next hLeads hRound => exact (ih hLeads).next hRound
  · intro hLeads
    induction hLeads with
    | start => exact Leads.start.next hNext
    | next _ hRound ih => exact ih.next hRound

/- What a round leads to is reached through it. -/
theorem exists_leads_of_next
    {P : σ → Prop}
    (hNext : round s = .inl s')
    (hLeads : ∃ n s'', Leads round s' n s'' ∧ P s'') :
    ∃ n s'', Leads round s n s'' ∧ P s'' := by
  rcases hLeads with ⟨n, s'', hLeads, hThere⟩
  exact ⟨n + 1, s'', (leads_of_next hNext).mpr hLeads, hThere⟩

theorem exists_returns_of_next
    {P : ρ → Prop}
    (hNext : round s = .inl s')
    (hReturns : ∃ r, Returns round s' r ∧ P r) :
    ∃ r, Returns round s r ∧ P r := by
  rcases hReturns with ⟨r, hReturns, hEnd⟩
  exact ⟨r, .next hNext hReturns, hEnd⟩

------------------------------------------------------------
-- Invariants
------------------------------------------------------------

/- What every round preserves holds in all states. -/
theorem Leads.invariant
    {P : Nat → σ → Prop}
    {n : Nat}
    (hLeads : Leads round s n s')
    (hStart : P 0 s)
    (hStep : ∀ n s s', P n s → round s = .inl s' →
      P (n + 1) s') :
    P n s' := by
  induction hLeads with
  | start => exact hStart
  | next _ hNext ih => exact hStep _ _ _ ih hNext

/- The last round, before which the invariant holds. -/
theorem Returns.rule
    {P : σ → Prop}
    (hReturns : Returns round s r)
    (hStart : P s)
    (hStep : ∀ s s', P s → round s = .inl s' → P s') :
    ∃ s', P s' ∧ round s' = .inr r := by
  induction hReturns with
  | stop hStop => exact ⟨_, hStart, hStop⟩
  | next hNext _ ih => exact ih (hStep _ _ hStart hNext)

------------------------------------------------------------
-- Termination
------------------------------------------------------------

/- A loop that returns takes so many rounds and no more. -/
theorem Returns.not_forever
    (hReturns : Returns round s r) :
    ¬Forever round s := by
  induction hReturns with
  | stop hStop =>
      intro hForever
      rcases hForever 1 with ⟨s', hLeads⟩
      exact absurd (hLeads.of_stop hStop).1 one_ne_zero
  | next hNext _ ih =>
      intro hForever
      apply ih
      intro n
      rcases hForever (n + 1) with ⟨s', hLeads⟩
      exact ⟨s', (leads_of_next hNext).mp hLeads⟩

theorem returns_or_forever
    (round : σ → σ ⊕ ρ)
    (s : σ) :
    (∃ r, Returns round s r) ∨ Forever round s := by
  by_cases hReturns : ∃ r, Returns round s r
  · exact .inl hReturns
  right
  intro n
  induction n with
  | zero => exact ⟨s, .start⟩
  | succ n ih =>
      rcases ih with ⟨s', hLeads⟩
      cases hRound : round s' with
      | inl s'' => exact ⟨s'', hLeads.next hRound⟩
      | inr r =>
          have hHere := hLeads.returns_iff.mpr (.stop hRound)
          exact absurd ⟨r, hHere⟩ hReturns

/- It returns exactly when it does not go on forever. -/
theorem exists_returns_iff :
    (∃ r, Returns round s r) ↔ ¬Forever round s := by
  constructor
  · rintro ⟨r, hReturns⟩
    exact hReturns.not_forever
  · exact (returns_or_forever round s).resolve_right

theorem Leads.forever_iff
    {n : Nat}
    (hLeads : Leads round s n s') :
    Forever round s ↔ Forever round s' := by
  rw [← not_iff_not, ← exists_returns_iff,
    ← exists_returns_iff]
  simp only [hLeads.returns_iff]

/- The states of a loop that goes on forever. -/
theorem Forever.states
    (hForever : Forever round s) :
    ∃ states : Nat → σ, states 0 = s ∧
      (∀ i, Leads round s i (states i)) ∧
      ∀ i, round (states i) = .inl (states (i + 1)) := by
  choose states hLeads using hForever
  refine ⟨states, (hLeads 0).unique .start, hLeads, ?_⟩
  intro i
  cases hLeads (i + 1) with
  | next hHere hNext => rwa [(hLeads i).unique hHere]

/-
  A quantity that never grows stays the same from some time
  on.
-/
theorem Forever.settles
    {P : σ → Prop}
    (variant : σ → Nat)
    (hStep : ∀ s s', P s → round s = .inl s' →
      P s' ∧ variant s' ≤ variant s)
    (hStart : P s)
    (hForever : Forever round s) :
    ∃ s', P s' ∧ Forever round s' ∧
      ∀ n s'', Leads round s' n s'' →
        variant s'' = variant s' := by
  induction hVariant : variant s using Nat.strong_induction_on
    generalizing s with
  | _ m ih =>
      have hKept : ∀ n s', Leads round s n s' →
          P s' ∧ variant s' ≤ m := by
        intro n s' hLeads
        refine hLeads.invariant
          (P := fun _ s' => P s' ∧ variant s' ≤ m)
          ⟨hStart, hVariant.le⟩ ?_
        rintro _ s₁ s₂ ⟨hHere, hLe⟩ hNext
        rcases hStep s₁ s₂ hHere hNext with ⟨hThere, hLess⟩
        exact ⟨hThere, hLess.trans hLe⟩
      by_cases hSame : ∀ n s', Leads round s n s' →
          variant s' = m
      · exact ⟨s, hStart, hForever, hVariant ▸ hSame⟩
      · push Not at hSame
        rcases hSame with ⟨n, s', hLeads, hOther⟩
        rcases hKept n s' hLeads with ⟨hThere, hLe⟩
        exact ih _ (lt_of_le_of_ne hLe hOther) hThere
          (hLeads.forever_iff.mp hForever) rfl

/- A state from which no round gets out of a condition. -/
theorem Forever.of_invariant
    {P : σ → Prop}
    (hStart : P s)
    (hStep : ∀ s, P s → ∃ s', round s = .inl s' ∧ P s') :
    Forever round s := by
  intro n
  have hStates : ∃ s', Leads round s n s' ∧ P s' := by
    induction n with
    | zero => exact ⟨s, .start, hStart⟩
    | succ n ih =>
        rcases ih with ⟨s', hLeads, hHere⟩
        rcases hStep s' hHere with ⟨s'', hNext, hThere⟩
        exact ⟨s'', hLeads.next hNext, hThere⟩
  rcases hStates with ⟨s', hLeads, _⟩
  exact ⟨s', hLeads⟩

end Loops
