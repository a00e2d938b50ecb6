import Mathlib.Tactic

/-
  Byte streams behind file descriptors.

  A `Source` is what read(2) can still deliver, together
  with the way the kernel will split it: the schedule says
  how many bytes the next calls return at most and which of
  them fail.  A `Sink` is the same for write(2).  Once a
  schedule is used up, every call is served in full, so that
  any finite behaviour of a descriptor is described by some
  schedule.

  Key definitions include:
    * `Source`, `Source.read`, `Source.Reliable`
    * `Sink`, `Sink.write`, `Sink.Reliable`

  Key theorems include:
    * `Source.read_cases`
    * `Sink.write_cases`
-/

/- The error number of an interrupted system call. -/
def EINTR : Int := 4

------------------------------------------------------------
-- Sources
------------------------------------------------------------

/-
  The outcome of one read(2): it delivers at most `extra+1`
  bytes, or fails with an error number.
-/
inductive ReadEvent where
| deliver (extra : Nat)
| fail (errno : Int)
deriving DecidableEq, Repr

/- An outcome other than a failure, or an interruption. -/
def ReadEvent.Benign : ReadEvent → Prop
  | .deliver _ => True
  | .fail e => e = EINTR

instance : DecidablePred ReadEvent.Benign := by
  intro event
  cases event <;> unfold ReadEvent.Benign <;> infer_instance

/- The bytes before the end of the stream, and a schedule. -/
structure Source where
  pending : List UInt8
  reads : List ReadEvent
deriving DecidableEq, Inhabited, Repr

namespace Source

/-
  read(2) with room for `n` bytes.  An empty chunk is the
  end of the stream, or an answer to `n = 0`.
-/
def read
    (s : Source)
    (n : Nat) : Except Int (List UInt8) × Source :=
  match s.reads with
  | [] =>
      (.ok (s.pending.take n),
        { s with pending := s.pending.drop n })
  | .deliver extra :: rest =>
      let m := min n (extra + 1)
      (.ok (s.pending.take m),
        { pending := s.pending.drop m, reads := rest })
  | .fail e :: rest =>
      (.error e, { s with reads := rest })

/- Reads never fail, except that they may be interrupted. -/
def Reliable
    (s : Source) : Prop :=
  ∀ event ∈ s.reads, event.Benign

instance
    (s : Source) :
    Decidable s.Reliable := by
  unfold Reliable
  infer_instance

/-
  A bound on the number of reads before the end of the
  stream is reported or the requested bytes are complete.
-/
def budget
    (s : Source) : Nat :=
  s.reads.length + if s.pending = [] then 1 else 2

theorem budget_pos
    (s : Source) :
    0 < s.budget := by
  unfold budget
  split <;> omega

/- What a successful read did to the source. -/
structure Delivers
    (s : Source)
    (n : Nat)
    (chunk : List UInt8)
    (s' : Source) : Prop where
  pending : s.pending = chunk ++ s'.pending
  length_le : chunk.length ≤ n
  ended : chunk = [] → n = 0 ∨ s.pending = []
  suffix : s'.reads <:+ s.reads
  budget_lt :
    chunk ≠ [] → chunk.length < n → s'.budget < s.budget

/- What a failed read did to the source. -/
structure Fails
    (s : Source)
    (e : Int)
    (s' : Source) : Prop where
  pending : s'.pending = s.pending
  scheduled : .fail e ∈ s.reads
  suffix : s'.reads <:+ s.reads
  budget_lt : s'.budget < s.budget

/- Taking from the front shortens the work that is left. -/
theorem budget_lt_of_take
    {pending : List UInt8}
    {event : ReadEvent}
    {rest : List ReadEvent}
    {m : Nat} :
    budget ⟨pending.drop m, rest⟩ <
      budget ⟨pending, event :: rest⟩ := by
  unfold budget
  by_cases hPending : pending = []
  · simp [hPending]
  · simp only [List.length_cons, if_neg hPending]
    split <;> omega

/- One read either delivers a front part or fails. -/
theorem read_cases
    (s : Source)
    (n : Nat) :
    (∃ chunk s', s.read n = (.ok chunk, s') ∧
      s.Delivers n chunk s') ∨
    (∃ e s', s.read n = (.error e, s') ∧
      s.Fails e s') := by
  rcases s with ⟨pending, reads⟩
  cases reads with
  | nil =>
      left
      refine ⟨_, _, rfl, ?_, ?_, ?_, ?_, ?_⟩
      · exact (List.take_append_drop n pending).symm
      · exact List.length_take_le n pending
      · intro hNil
        exact (List.take_eq_nil_iff.mp hNil)
      · exact List.suffix_rfl
      · intro hNe hLt
        have hShort : pending.length ≤ n := by
          simp only [List.length_take] at hLt
          omega
        have hSome : pending ≠ [] := by
          rintro rfl
          exact hNe (by simp)
        simp [budget, List.drop_eq_nil_of_le hShort, hSome]
  | cons event rest =>
      cases event with
      | deliver extra =>
          left
          refine ⟨_, _, rfl, ?_, ?_, ?_, ?_, ?_⟩
          · exact (List.take_append_drop _ pending).symm
          · exact (List.length_take_le _ pending).trans
              (Nat.min_le_left _ _)
          · intro hNil
            rcases List.take_eq_nil_iff.mp hNil with
              hZero | hEmpty
            · left
              omega
            · exact Or.inr hEmpty
          · exact List.suffix_cons _ _
          · intro _ _
            exact budget_lt_of_take
      | fail e =>
          right
          refine ⟨e, _, rfl, rfl, ?_, ?_, ?_⟩
          · simp
          · exact List.suffix_cons _ _
          · simp [budget]

theorem delivers_of_read
    {s s' : Source}
    {n : Nat}
    {chunk : List UInt8}
    (hRead : s.read n = (.ok chunk, s')) :
    s.Delivers n chunk s' := by
  rcases s.read_cases n with
    ⟨_, _, hRead', hDelivers⟩ | ⟨_, _, hRead', _⟩
  · cases hRead.symm.trans hRead'
    exact hDelivers
  · exact nomatch hRead.symm.trans hRead'

theorem fails_of_read
    {s s' : Source}
    {n : Nat}
    {e : Int}
    (hRead : s.read n = (.error e, s')) :
    s.Fails e s' := by
  rcases s.read_cases n with
    ⟨_, _, hRead', _⟩ | ⟨_, _, hRead', hFails⟩
  · exact nomatch hRead.symm.trans hRead'
  · cases hRead.symm.trans hRead'
    exact hFails

/- A reliable source stays reliable. -/
theorem Reliable.of_suffix
    {s s' : Source}
    (hReliable : s.Reliable)
    (hSuffix : s'.reads <:+ s.reads) :
    s'.Reliable :=
  fun event hEvent => hReliable event (hSuffix.mem hEvent)

/- A call is to fail for another reason than interruption. -/
def MayFail
    (s : Source) : Prop :=
  ∃ event ∈ s.reads, ¬ event.Benign

theorem Reliable.not_mayFail
    {s : Source}
    (hReliable : s.Reliable) :
    ¬ s.MayFail := by
  rintro ⟨event, hMem, hNot⟩
  exact hNot (hReliable event hMem)

theorem MayFail.of_suffix
    {s s' : Source}
    (hFail : s'.MayFail)
    (hSuffix : s'.reads <:+ s.reads) :
    s.MayFail := by
  rcases hFail with ⟨event, hMem, hNot⟩
  exact ⟨event, hSuffix.mem hMem, hNot⟩

end Source

------------------------------------------------------------
-- Sinks
------------------------------------------------------------

/-
  The outcome of one write(2): it accepts at most `limit`
  bytes, or fails with an error number.
-/
inductive WriteEvent where
| accept (limit : Nat)
| fail (errno : Int)
deriving DecidableEq, Repr

/- An outcome other than a failure, or an interruption. -/
def WriteEvent.Benign : WriteEvent → Prop
  | .accept _ => True
  | .fail e => e = EINTR

instance : DecidablePred WriteEvent.Benign := by
  intro event
  cases event <;> unfold WriteEvent.Benign <;> infer_instance

/- The schedule of a descriptor's writes. -/
structure Sink where
  writes : List WriteEvent
deriving DecidableEq, Inhabited, Repr

namespace Sink

/- write(2) of `data`: how many bytes were accepted. -/
def write
    (s : Sink)
    (data : List UInt8) : Except Int Nat × Sink :=
  match s.writes with
  | [] => (.ok data.length, s)
  | .accept limit :: rest =>
      (.ok (min limit data.length), ⟨rest⟩)
  | .fail e :: rest => (.error e, ⟨rest⟩)

/- Writes never fail, except that they may be interrupted. -/
def Reliable
    (s : Sink) : Prop :=
  ∀ event ∈ s.writes, event.Benign

instance
    (s : Sink) :
    Decidable s.Reliable := by
  unfold Reliable
  infer_instance

/-
  One write accepts a front part of the data or fails; a
  write that is cut short uses up a scheduled event.
-/
theorem write_cases
    (s : Sink)
    (data : List UInt8) :
    (∃ k s', s.write data = (.ok k, s') ∧
      k ≤ data.length ∧ s'.writes <:+ s.writes ∧
      (k < data.length →
        s'.writes.length < s.writes.length)) ∨
    (∃ e s', s.write data = (.error e, s') ∧
      .fail e ∈ s.writes ∧ s'.writes <:+ s.writes ∧
      s'.writes.length < s.writes.length) := by
  rcases s with ⟨writes⟩
  cases writes with
  | nil =>
      left
      exact ⟨_, _, rfl, le_refl _, List.suffix_rfl,
        fun hLt => absurd hLt (lt_irrefl _)⟩
  | cons event rest =>
      cases event with
      | accept limit =>
          left
          exact ⟨_, _, rfl, Nat.min_le_right _ _,
            List.suffix_cons _ _, fun _ => by simp⟩
      | fail e =>
          right
          exact ⟨e, _, rfl, by simp,
            List.suffix_cons _ _, by simp⟩

/- A failure uses up an event, and so does a partial write. -/
theorem shorter_of_error
    {s s' : Sink}
    {data : List UInt8}
    {e : Int}
    (hWrite : s.write data = (.error e, s')) :
    s'.writes.length < s.writes.length := by
  rcases s.write_cases data with
    ⟨_, _, hWrite', _⟩ | ⟨_, _, hWrite', _, _, hLess⟩
  · cases hWrite.symm.trans hWrite'
  · cases hWrite.symm.trans hWrite'
    exact hLess

theorem shorter_of_partial
    {s s' : Sink}
    {data : List UInt8}
    {k : Nat}
    (hWrite : s.write data = (.ok k, s'))
    (hShort : k < data.length) :
    s'.writes.length < s.writes.length := by
  rcases s.write_cases data with
    ⟨_, _, hWrite', _, _, hLess⟩ | ⟨_, _, hWrite', _⟩
  · cases hWrite.symm.trans hWrite'
    exact hLess hShort
  · cases hWrite.symm.trans hWrite'

theorem Reliable.of_suffix
    {s s' : Sink}
    (hReliable : s.Reliable)
    (hSuffix : s'.writes <:+ s.writes) :
    s'.Reliable :=
  fun event hEvent => hReliable event (hSuffix.mem hEvent)

/- A call is to fail for another reason than interruption. -/
def MayFail
    (s : Sink) : Prop :=
  ∃ event ∈ s.writes, ¬ event.Benign

theorem Reliable.not_mayFail
    {s : Sink}
    (hReliable : s.Reliable) :
    ¬ s.MayFail := by
  rintro ⟨event, hMem, hNot⟩
  exact hNot (hReliable event hMem)

theorem MayFail.of_suffix
    {s s' : Sink}
    (hFail : s'.MayFail)
    (hSuffix : s'.writes <:+ s.writes) :
    s.MayFail := by
  rcases hFail with ⟨event, hMem, hNot⟩
  exact ⟨event, hSuffix.mem hMem, hNot⟩

end Sink
