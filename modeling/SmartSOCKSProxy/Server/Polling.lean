import SmartSOCKSProxy.Foundations.Loops
import SmartSOCKSProxy.Foundations.SystemCalls

/-
  The poll() of the main loop.

  The call is repeated while errno is EAGAIN, whatever the
  call returned.  A call that succeeds leaves errno as it was,
  and so an old error number keeps the loop going.

  Key definitions include:
    * `pollRound`, `PollDone.outcome`
    * `IsFirstOther`, `LeftAtFirst`

  Key theorems include:
    * `pollRound_wedged_iff`
    * `LeftAtFirst.handles`
    * `pollRound_leftAtFirst_iff`
    * `pollRound_afterFork`
-/

namespace SmartSOCKSProxy

/- `EAGAIN` -/
def EAGAIN : Int := 35

------------------------------------------------------------
-- The Loop
------------------------------------------------------------

/- What each call of poll() returns, or its error number. -/
abbrev PollResults :=
  Nat → Except Int Nat

/- The calls that were made, and errno. -/
structure PollVars where
  calls : Nat
  errno : Int
deriving DecidableEq, Repr

structure PollDone where
  calls : Nat
  rc : Int
  errno : Int
deriving DecidableEq, Repr

/- `rc = poll(..)` -/
def pollRc : Except Int Nat → Int
  | .ok ready => ready
  | .error _ => -1

/- `do { rc = poll(..); } while (errno == EAGAIN);` -/
def pollRound
    (polls : PollResults)
    (v : PollVars) : PollVars ⊕ PollDone :=
  let result := polls v.calls
  let errno := errnoAfter v.errno result
  if errno = EAGAIN then .inl ⟨v.calls + 1, errno⟩
  else .inr ⟨v.calls + 1, pollRc result, errno⟩

inductive PollOutcome where
| exits (returnCode : Int)
| handles (rc : Int)
deriving DecidableEq, Repr

/- What server() does with the result of the loop. -/
def PollDone.outcome
    (d : PollDone) : PollOutcome :=
  if d.rc < 0 ∧ d.errno ≠ EINTR then .exits 87
  else .handles d.rc

------------------------------------------------------------
-- The First Other Call
------------------------------------------------------------

/- The first call that does not itself fail with EAGAIN. -/
structure IsFirstOther
    (polls : PollResults)
    (n : Nat) : Prop where
  before : ∀ i < n, polls i = .error EAGAIN
  here : polls n ≠ .error EAGAIN

/-
  The loop is left right after that call, and with what it
  returned.
-/
def LeftAtFirst
    (polls : PollResults)
    (errno : Int) : Prop :=
  ∀ n, IsFirstOther polls n →
    ∃ d, Returns (pollRound polls) ⟨0, errno⟩ d ∧
      d.calls = n + 1 ∧ d.rc = pollRc (polls n)

variable {polls : PollResults}
variable {errno : Int}
variable {n : Nat}

------------------------------------------------------------
-- Rounds
------------------------------------------------------------

theorem pollRound_again
    {v : PollVars}
    (hAgain : errnoAfter v.errno (polls v.calls) = EAGAIN) :
    pollRound polls v = .inl ⟨v.calls + 1, EAGAIN⟩ := by
  unfold pollRound
  rw [if_pos hAgain, hAgain]

theorem pollRound_other
    {v : PollVars}
    (hOther : errnoAfter v.errno (polls v.calls) ≠ EAGAIN) :
    pollRound polls v =
      .inr ⟨v.calls + 1, pollRc (polls v.calls),
        errnoAfter v.errno (polls v.calls)⟩ :=
  if_neg hOther

/- Every round makes one call. -/
theorem pollRound_cases
    (polls : PollResults)
    (v : PollVars) :
    errnoAfter v.errno (polls v.calls) = EAGAIN ∧
        pollRound polls v = .inl ⟨v.calls + 1, EAGAIN⟩ ∨
      errnoAfter v.errno (polls v.calls) ≠ EAGAIN ∧
        pollRound polls v =
          .inr ⟨v.calls + 1, pollRc (polls v.calls),
            errnoAfter v.errno (polls v.calls)⟩ := by
  by_cases hAgain :
      errnoAfter v.errno (polls v.calls) = EAGAIN
  · exact Or.inl ⟨hAgain, pollRound_again hAgain⟩
  · exact Or.inr ⟨hAgain, pollRound_other hAgain⟩

theorem calls_of_leads
    {v v' : PollVars}
    (hLeads : Leads (pollRound polls) v n v') :
    v'.calls = v.calls + n ∧
      (v.errno = EAGAIN → v'.errno = EAGAIN) := by
  refine hLeads.invariant
    (P := fun n v' => v'.calls = v.calls + n ∧
      (v.errno = EAGAIN → v'.errno = EAGAIN))
    ⟨rfl, id⟩ ?_
  rintro n v₁ v₂ ⟨hCalls, _⟩ hRound
  rcases pollRound_cases polls v₁ with
    ⟨_, hNext⟩ | ⟨_, hStop⟩
  · cases hNext.symm.trans hRound
    exact ⟨by simp [hCalls, Nat.add_assoc], fun _ => rfl⟩
  · exact nomatch hStop.symm.trans hRound

theorem calls_lt_of_returns
    {v : PollVars}
    {d : PollDone}
    (hReturns : Returns (pollRound polls) v d) :
    v.calls < d.calls := by
  induction hReturns with
  | @stop v d hStop =>
      rcases pollRound_cases polls v with
        ⟨_, hNext⟩ | ⟨_, hEnd⟩
      · exact nomatch hNext.symm.trans hStop
      · cases hEnd.symm.trans hStop
        exact Nat.lt_succ_self _
  | @next v v' d hNext _ ih =>
      rcases pollRound_cases polls v with
        ⟨_, hAgain⟩ | ⟨_, hStop⟩
      · cases hAgain.symm.trans hNext
        exact (Nat.lt_succ_self _).trans ih
      · exact nomatch hStop.symm.trans hNext

/- The loop is left right after the next call, or not. -/
theorem returns_here_iff
    (v : PollVars) :
    (∃ d, Returns (pollRound polls) v d ∧
        d.calls = v.calls + 1 ∧
        d.rc = pollRc (polls v.calls)) ↔
      errnoAfter v.errno (polls v.calls) ≠ EAGAIN := by
  constructor
  · rintro ⟨d, hReturns, hCalls, _⟩ hAgain
    have hLater := calls_lt_of_returns
      ((returns_of_next (pollRound_again hAgain)).mp hReturns)
    dsimp only at hLater
    omega
  · intro hOther
    exact ⟨_, .stop (pollRound_other hOther), rfl, rfl⟩

------------------------------------------------------------
-- Old Error Numbers
------------------------------------------------------------

/-
  With EAGAIN from before, the loop is never left while every
  call succeeds, or fails with EAGAIN itself.
-/
theorem pollRound_wedged_iff :
    Forever (pollRound polls) ⟨n, EAGAIN⟩ ↔
      ∀ i, n ≤ i → ∀ e, polls i = .error e → e = EAGAIN := by
  constructor
  · intro hForever i hi e hError
    rcases hForever (i - n + 1) with ⟨v', hLeads⟩
    cases hLeads with
    | @next _ v _ hLeads hRound =>
        have hCalls : v.calls = i := by
          rw [(calls_of_leads hLeads).1]
          exact Nat.add_sub_cancel' hi
        rcases pollRound_cases polls v with
          ⟨hAgain, _⟩ | ⟨_, hStop⟩
        · rwa [hCalls, hError] at hAgain
        · exact nomatch hStop.symm.trans hRound
  · intro hCalls
    apply Forever.of_invariant
      (P := fun v => n ≤ v.calls ∧ v.errno = EAGAIN)
      ⟨le_rfl, rfl⟩
    rintro v ⟨hLater, hStale⟩
    refine ⟨_, pollRound_again ?_, hLater.trans (Nat.le_succ _),
      rfl⟩
    rw [errnoAfter_eq_iff]
    cases hCall : polls v.calls with
    | ok ready => exact Or.inr ⟨hStale, ready, rfl⟩
    | error e =>
        rw [hCalls v.calls hLater e hCall]
        exact Or.inl rfl

------------------------------------------------------------
-- The First Other Call
------------------------------------------------------------

/- The calls before it repeat the loop. -/
theorem IsFirstOther.leads
    (hFirst : IsFirstOther polls n)
    (errno : Int) :
    Leads (pollRound polls) ⟨0, errno⟩ n
      ⟨n, if n = 0 then errno else EAGAIN⟩ := by
  have hLeads :
      ∀ i ≤ n, Leads (pollRound polls) ⟨0, errno⟩ i
        ⟨i, if i = 0 then errno else EAGAIN⟩ := by
    intro i hi
    induction i with
    | zero => exact .start
    | succ i ih =>
        apply (ih (by omega)).next
        apply pollRound_again
        dsimp only
        rw [hFirst.before i (by omega)]
        rfl
  exact hLeads n le_rfl

/- Then the events of a call that succeeds are handled. -/
theorem LeftAtFirst.handles
    {ready : Nat}
    (hLeft : LeftAtFirst polls errno)
    (hFirst : IsFirstOther polls n)
    (hCall : polls n = .ok ready) :
    ∃ d, Returns (pollRound polls) ⟨0, errno⟩ d ∧
      d.calls = n + 1 ∧ d.outcome = .handles ready := by
  rcases hLeft n hFirst with ⟨d, hReturns, hCalls, hRc⟩
  rw [hCall] at hRc
  have hReady : d.rc = ready := hRc
  refine ⟨d, hReturns, hCalls, ?_⟩
  unfold PollDone.outcome
  rw [hReady, if_neg (by omega)]

/-
  The loop is left right after the first call that does not
  fail with EAGAIN, exactly when that call fails, or when it
  is the first of all and errno was not EAGAIN before.
-/
theorem pollRound_leftAtFirst_iff
    (polls : PollResults)
    (errno : Int) :
    LeftAtFirst polls errno ↔
      ∀ n, IsFirstOther polls n →
        (∃ e, polls n = .error e) ∨
          n = 0 ∧ errno ≠ EAGAIN := by
  apply forall₂_congr
  intro n hFirst
  simp only [(hFirst.leads errno).returns_iff]
  refine (returns_here_iff _).trans ?_
  rw [Ne, errnoAfter_eq_iff]
  have hHere := hFirst.here
  cases hCall : polls n with
  | ok ready =>
      by_cases hZero : n = 0
      · simp [hZero]
      · simp [hZero]
  | error e =>
      rw [hCall] at hHere
      simpa using hHere

/-
  fork() has failed with EAGAIN in the iteration before, and
  poll() finds one connection.
-/
theorem pollRound_afterFork :
    ¬LeftAtFirst (fun _ => .ok 1) EAGAIN := by
  intro hLeft
  rcases hLeft 0 ⟨nofun, nofun⟩ with ⟨d, hReturns, _⟩
  have hForever :
      Forever (pollRound fun _ => .ok 1) ⟨0, EAGAIN⟩ :=
    pollRound_wedged_iff.mpr nofun
  exact hReturns.not_forever hForever

end SmartSOCKSProxy
