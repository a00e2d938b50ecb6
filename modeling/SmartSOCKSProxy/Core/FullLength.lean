import SmartSOCKSProxy.Core.ReadWrite
import SmartSOCKSProxy.Foundations.CString
import SmartSOCKSProxy.Foundations.Loops
import SmartSOCKSProxy.Foundations.Stores
import SmartSOCKSProxy.Foundations.SystemCalls

/-
  Reads and writes of a full length, on any descriptor.

  The results of the system calls are ints, as in the source,
  and so are the return values.  For lengths that an int can
  hold, the loops return as soon as all bytes are transferred,
  at the end of the stream or at an error, and they go on only
  while the descriptor stalls.

  Key definitions include:
    * `readRound`, `writeRound`
    * `ReadsInFull`, `WritesInFull`

  Key theorems include:
    * `readRound_cases`, `writeRound_cases`
    * `readRound_forever_iff`, `writeRound_forever_iff`
    * `fullLength_exact`
    * `sbReadLen_returns`, `sbWriteLen_returns`
-/

namespace SmartSOCKSProxy

------------------------------------------------------------
-- The Loop of Reads
------------------------------------------------------------

/- The variables of sb_read_len(), and the descriptor. -/
structure ReadVars
    (σ : Type) where
  s : σ
  index : Nat
  remain : Nat
  errno : Int
  buf : Buffer

structure ReadDone
    (σ : Type) where
  rc : Int
  s : σ
  buf : Buffer

/- The bytes that a read stores into the buffer. -/
def readChunk : Except Int (List UInt8) → List UInt8
  | .ok chunk => chunk
  | .error _ => []

/- `rc=read(..)` -/
def readRc : Except Int (List UInt8) → Int
  | .ok chunk => Text.toCInt chunk.length
  | .error _ => -1

/- One round of the loop of sb_read_len(). -/
def readRound
    {σ : Type}
    (d : Readable σ)
    (v : ReadVars σ) : ReadVars σ ⊕ ReadDone σ :=
  let (result, s) := d.read v.s v.remain
  let rc := readRc result
  let errno := errnoAfter v.errno result
  let buf := v.buf.store v.index (readChunk result)
  let count := rc.toNat
  let remain := v.remain - count
  let index := v.index + count
  if (0 < rc ∧ 0 < remain) ∨ (rc < 0 ∧ errno = EINTR) then
    .inl ⟨s, index, remain, errno, buf⟩
  else
    .inr ⟨if 0 < rc then Text.toCInt index else rc, s, buf⟩

/- The variables at the start of sb_read_len(). -/
def readStart
    {σ : Type}
    (s : σ)
    (errno : Int)
    (buf : Buffer)
    (buflen : Nat) : ReadVars σ :=
  ⟨s, 0, buflen, errno, buf⟩

/-
  A call for `n` bytes returns, and it returns `n` exactly
  when the reads deliver as many; then these are in the
  buffer, and nothing behind them was taken.  It returns no
  other positive number.
-/
def ReadsInFull
    {σ : Type}
    (d : Readable σ)
    (s : σ)
    (errno : Int)
    (buf : Buffer)
    (n : Nat) : Prop :=
  ∃ r, Returns (readRound d) (readStart s errno buf n) r ∧
    (r.rc = n ↔ ∃ bytes s', d.Reads s n bytes s' 0) ∧
    (∀ bytes s', d.Reads s n bytes s' 0 →
      r.buf.load n = bytes ∧ r.s = s') ∧
    (r.rc ≠ n → r.rc ≤ 0)

section Reads

variable {σ : Type}
variable {d : Readable σ}

theorem toCInt_of_lt
    {n : Nat}
    (hInt : n < 2 ^ 31) :
    Text.toCInt n = n := by
  unfold Text.toCInt
  apply Int.bmod_eq_of_le <;> omega

/-
  What a round does, when an int can hold the whole length:
  the ways in which a call fails, ends or delivers.
-/
inductive ReadRoundCases
    (d : Readable σ)
    (v : ReadVars σ) : Prop where
| interrupted
    {s' : σ}
    (hRead : d.read v.s v.remain = (.error EINTR, s'))
    (hRound : readRound d v =
      .inl ⟨s', v.index, v.remain, EINTR, v.buf⟩)
| failed
    {e : Int}
    {s' : σ}
    (hRead : d.read v.s v.remain = (.error e, s'))
    (hOther : e ≠ EINTR)
    (hRound : readRound d v = .inr ⟨-1, s', v.buf⟩)
| ended
    {s' : σ}
    (hRead : d.read v.s v.remain = (.ok [], s'))
    (hRound : readRound d v = .inr ⟨0, s', v.buf⟩)
| delivered
    {chunk : List UInt8}
    {s' : σ}
    (hRead : d.read v.s v.remain = (.ok chunk, s'))
    (hSome : chunk ≠ [])
    (hLess : chunk.length < v.remain)
    (hRound : readRound d v =
      .inl ⟨s', v.index + chunk.length,
        v.remain - chunk.length, v.errno,
        v.buf.store v.index chunk⟩)
| complete
    {chunk : List UInt8}
    {s' : σ}
    (hRead : d.read v.s v.remain = (.ok chunk, s'))
    (hSome : chunk ≠ [])
    (hFull : chunk.length = v.remain)
    (hRound : readRound d v =
      .inr ⟨(v.index + v.remain : Nat), s',
        v.buf.store v.index chunk⟩)

theorem readRound_cases
    {v : ReadVars σ}
    (hMissing : 0 < v.remain)
    (hInt : v.index + v.remain < 2 ^ 31) :
    ReadRoundCases d v := by
  rcases hRead : d.read v.s v.remain with ⟨result, s'⟩
  cases result with
  | error e =>
      have hRound :
          readRound d v =
            if e = EINTR then
              .inl ⟨s', v.index, v.remain, e, v.buf⟩
            else .inr ⟨-1, s', v.buf⟩ := by
        unfold readRound
        rw [hRead]
        simp [readRc, readChunk, errnoAfter]
      by_cases hIntr : e = EINTR
      · subst hIntr
        rw [if_pos rfl] at hRound
        exact .interrupted hRead hRound
      · rw [if_neg hIntr] at hRound
        exact .failed hRead hIntr hRound
  | ok chunk =>
      have hFits := d.fits hRead
      have hRc : readRc (.ok chunk) = chunk.length :=
        toCInt_of_lt (by omega)
      have hIndex :
          Text.toCInt ((v.index + chunk.length : Nat) : Int) =
            (v.index + chunk.length : Nat) :=
        toCInt_of_lt (by omega)
      by_cases hNil : chunk = []
      · subst hNil
        refine .ended hRead ?_
        unfold readRound
        rw [hRead]
        simp [hRc, readChunk]
      have hPos := List.length_pos_iff.mpr hNil
      have hRound :
          readRound d v =
            if chunk.length < v.remain then
              .inl ⟨s', v.index + chunk.length,
                v.remain - chunk.length, v.errno,
                v.buf.store v.index chunk⟩
            else
              .inr ⟨(v.index + chunk.length : Nat), s',
                v.buf.store v.index chunk⟩ := by
        unfold readRound
        rw [hRead]
        dsimp only
        rw [hRc, Int.toNat_natCast, hIndex]
        by_cases hLess : chunk.length < v.remain
        · rw [if_pos hLess, if_pos (by omega)]
          rfl
        · rw [if_neg hLess, if_neg (by omega),
            if_pos (by omega)]
          rfl
      by_cases hLess : chunk.length < v.remain
      · rw [if_pos hLess] at hRound
        exact .delivered hRead hNil hLess hRound
      · rw [if_neg hLess] at hRound
        have hFull : chunk.length = v.remain := by omega
        rw [hFull] at hRound
        exact .complete hRead hNil hFull hRound

/-
  What holds before every round of a call for `n` bytes: the
  bytes that were delivered are in the buffer.
-/
structure ReadSoFar
    (d : Readable σ)
    (s : σ)
    (n : Nat)
    (v : ReadVars σ) : Prop where
  missing : 0 < v.remain
  total : v.index + v.remain = n
  reads : d.Reads s n (v.buf.load v.index) v.s v.remain

theorem ReadSoFar.start
    (s : σ)
    (errno : Int)
    (buf : Buffer)
    {n : Nat}
    (hPos : 0 < n) :
    ReadSoFar d s n (readStart s errno buf n) :=
  ⟨hPos, Nat.zero_add n, .done s n⟩

variable {s : σ}
variable {n : Nat}
variable {v v' : ReadVars σ}
variable {r : ReadDone σ}

/- A round that goes on keeps it. -/
theorem ReadSoFar.next
    (hSoFar : ReadSoFar d s n v)
    (hInt : n < 2 ^ 31)
    (hNext : readRound d v = .inl v') :
    ReadSoFar d s n v' := by
  have hTotal := hSoFar.total
  cases readRound_cases (d := d) hSoFar.missing
      (by omega) with
  | interrupted hRead hRound =>
      cases hRound.symm.trans hNext
      refine ⟨hSoFar.missing, hTotal, ?_⟩
      have hHere := hSoFar.reads.trans
        (.interrupted hSoFar.missing hRead (.done _ _))
      simpa using hHere
  | delivered hRead hSome hLess hRound =>
      cases hRound.symm.trans hNext
      refine ⟨by simp; omega, by simp; omega, ?_⟩
      have hHere := hSoFar.reads.trans
        (.delivered hRead hSome (.done _ _))
      rw [List.append_nil] at hHere
      rw [Buffer.load_store]
      exact hHere
  | failed _ _ hRound => exact nomatch hRound.symm.trans hNext
  | ended _ hRound => exact nomatch hRound.symm.trans hNext
  | complete _ _ _ hRound =>
      exact nomatch hRound.symm.trans hNext

/- How a call ends: complete, or with another result. -/
theorem ReadSoFar.stop
    (hSoFar : ReadSoFar d s n v)
    (hInt : n < 2 ^ 31)
    (hStop : readRound d v = .inr r) :
    r.rc = n ∧ d.Reads s n (r.buf.load n) r.s 0 ∨
      r.rc ≤ 0 := by
  have hTotal := hSoFar.total
  cases readRound_cases (d := d) hSoFar.missing
      (by omega) with
  | complete hRead hSome hFull hRound =>
      cases hRound.symm.trans hStop
      left
      rw [hTotal]
      refine ⟨rfl, ?_⟩
      have hHere := hSoFar.reads.trans
        (.delivered hRead hSome (.done _ _))
      rw [List.append_nil, ← Buffer.load_store, hFull, hTotal,
        Nat.sub_self] at hHere
      exact hHere
  | failed _ _ hRound =>
      cases hRound.symm.trans hStop
      right
      simp
  | ended _ hRound =>
      cases hRound.symm.trans hStop
      right
      simp
  | interrupted _ hRound =>
      exact nomatch hRound.symm.trans hStop
  | delivered _ _ _ hRound =>
      exact nomatch hRound.symm.trans hStop

/-
  The loop makes these reads: it comes to the state in which
  they leave the descriptor, or ends when nothing is missing.
-/
theorem follows_reads
    {m k : Nat}
    {s' : σ}
    {bytes : List UInt8}
    (hReads : d.Reads s m bytes s' k)
    (hPos : 0 < m)
    (v : ReadVars σ)
    (hHere : v.s = s ∧ v.remain = m)
    (hInt : v.index + m < 2 ^ 31) :
    (0 < k →
      ∃ j v', Leads (readRound d) v j v' ∧
        v'.s = s' ∧ v'.remain = k ∧
        v'.index + k = v.index + m) ∧
    (k = 0 →
      ∃ r, Returns (readRound d) v r ∧
        r.rc = (v.index + m : Nat) ∧ r.s = s' ∧
        r.buf.load (v.index + m) =
          v.buf.load v.index ++ bytes) := by
  induction hReads generalizing v with
  | done s m =>
      refine ⟨fun _ => ⟨0, v, .start, hHere.1, hHere.2, rfl⟩,
        ?_⟩
      intro hNone
      omega
  | @interrupted s s₁ s' m k bytes hMissing hRead _ ih =>
      rcases hHere with ⟨rfl, rfl⟩
      cases readRound_cases (d := d) hPos hInt with
      | interrupted hRead' hRound =>
          cases hRead.symm.trans hRead'
          rcases ih hPos
              ⟨s₁, v.index, v.remain, EINTR, v.buf⟩ ⟨rfl, rfl⟩
              hInt with
            ⟨hLeads, hReturns⟩
          constructor
          · intro hMore
            exact exists_leads_of_next hRound (hLeads hMore)
          · intro hNone
            exact exists_returns_of_next hRound (hReturns hNone)
      | failed hRead' hOther _ =>
          cases hRead.symm.trans hRead'
          exact absurd rfl hOther
      | ended hRead' _ => exact nomatch hRead.symm.trans hRead'
      | delivered hRead' _ _ _ =>
          exact nomatch hRead.symm.trans hRead'
      | complete hRead' _ _ _ =>
          exact nomatch hRead.symm.trans hRead'
  | @delivered s s₁ s' m k chunk bytes hRead hSome hRest ih =>
      rcases hHere with ⟨rfl, rfl⟩
      have hFits := d.fits hRead
      cases readRound_cases (d := d) hPos hInt with
      | delivered hRead' _ hLess hRound =>
          cases hRead.symm.trans hRead'
          have hIndex :
              v.index + chunk.length +
                  (v.remain - chunk.length) =
                v.index + v.remain := by
            omega
          rcases ih (by omega)
              ⟨s₁, v.index + chunk.length,
                v.remain - chunk.length, v.errno,
                v.buf.store v.index chunk⟩
              ⟨rfl, rfl⟩ (by dsimp only; omega) with
            ⟨hLeads, hReturns⟩
          dsimp only at hLeads hReturns
          rw [hIndex] at hLeads hReturns
          constructor
          · intro hMore
            exact exists_leads_of_next hRound (hLeads hMore)
          · intro hNone
            rcases hReturns hNone with
              ⟨r, hRest, hRc, hS, hBuf⟩
            refine ⟨r, .next hRound hRest, hRc, hS, ?_⟩
            rw [hBuf, Buffer.load_store, List.append_assoc]
      | complete hRead' _ hFull hRound =>
          cases hRead.symm.trans hRead'
          have hLength := hRest.length
          rw [hFull, Nat.sub_self] at hRest
          rcases hRest.of_zero with ⟨rfl, rfl⟩
          refine ⟨fun hMore => by simp at hLength; omega, ?_⟩
          intro _
          refine ⟨_, .stop hRound, rfl, rfl, ?_⟩
          rw [List.append_nil, ← hFull, Buffer.load_store]
      | interrupted hRead' _ =>
          exact nomatch hRead.symm.trans hRead'
      | failed hRead' _ _ =>
          exact nomatch hRead.symm.trans hRead'
      | ended hRead' _ =>
          cases hRead.symm.trans hRead'
          exact absurd rfl hSome

/- A round that goes on leaves no more to read. -/
theorem remain_le_of_next
    (hSoFar : ReadSoFar d s n v)
    (hInt : n < 2 ^ 31)
    (hNext : readRound d v = .inl v') :
    v'.remain ≤ v.remain ∧
      (v'.remain = v.remain →
        d.read v.s v.remain = (.error EINTR, v'.s)) := by
  have hTotal := hSoFar.total
  cases readRound_cases (d := d) hSoFar.missing
      (by omega) with
  | interrupted hRead hRound =>
      cases hRound.symm.trans hNext
      exact ⟨le_rfl, fun _ => hRead⟩
  | delivered hRead hSome hLess hRound =>
      cases hRound.symm.trans hNext
      have hPos := List.length_pos_iff.mpr hSome
      dsimp only
      refine ⟨Nat.sub_le _ _, fun hSame => ?_⟩
      omega
  | failed _ _ hRound => exact nomatch hRound.symm.trans hNext
  | ended _ hRound => exact nomatch hRound.symm.trans hNext
  | complete _ _ _ hRound =>
      exact nomatch hRound.symm.trans hNext

/- The loop goes on forever when the descriptor stalls. -/
theorem readRound_forever_iff
    (s : σ)
    (errno : Int)
    (buf : Buffer)
    (hPos : 0 < n)
    (hInt : n < 2 ^ 31) :
    Forever (readRound d) (readStart s errno buf n) ↔
      d.Stalls s n := by
  constructor
  · intro hForever
    have hStart : ReadSoFar d s n (readStart s errno buf n) :=
      .start s errno buf hPos
    have hSettles := Forever.settles
      (P := fun v => ReadSoFar d s n v)
      (fun v : ReadVars σ => v.remain)
      (fun v v' hHere hNext =>
        ⟨hHere.next hInt hNext,
          (remain_le_of_next hHere hInt hNext).1⟩)
      hStart hForever
    rcases hSettles with ⟨v, hSoFar, hOn, hSame⟩
    rcases hOn.states with ⟨states, hFirst, hLeads, hNext⟩
    refine ⟨_, v.s, v.remain, hSoFar.reads, hSoFar.missing,
      fun i => (states i).s, by simp [hFirst], fun i => ?_⟩
    have hHere : ReadSoFar d s n (states i) :=
      (hLeads i).invariant
        (P := fun _ v => ReadSoFar d s n v) hSoFar
        (fun _ v v' hHere hNext => hHere.next hInt hNext)
    have hRemain := hSame i (states i) (hLeads i)
    have hRemain' := hSame (i + 1) _ (hLeads (i + 1))
    have hRead := (remain_le_of_next hHere hInt (hNext i)).2
      (hRemain'.trans hRemain.symm)
    rwa [hRemain] at hRead
  · rintro ⟨bytes, s', m, hReads, hMore, states, hFirst,
      hStall⟩
    rcases (follows_reads hReads hPos
        (readStart s errno buf n) ⟨rfl, rfl⟩
        (by simpa [readStart] using hInt)).1 hMore with
      ⟨j, v, hLeads, hS, hRemain, hTotal⟩
    rw [hLeads.forever_iff]
    have hInt' : v.index + m < 2 ^ 31 := by
      rw [hTotal]
      simpa [readStart] using hInt
    apply Forever.of_invariant
      (P := fun v => (∃ i, v.s = states i) ∧ v.remain = m ∧
        v.index + m < 2 ^ 31)
      ⟨⟨0, by rw [hS, hFirst]⟩, hRemain, hInt'⟩
    rintro v ⟨⟨i, hS⟩, hRemain, hInt⟩
    have hRead := hStall i
    rw [← hS, ← hRemain] at hRead
    cases readRound_cases (d := d) (v := v) (by omega)
        (by omega) with
    | interrupted hRead' hRound =>
        cases hRead.symm.trans hRead'
        exact ⟨_, hRound, ⟨i + 1, rfl⟩, hRemain, hInt⟩
    | failed hRead' hOther _ =>
        cases hRead.symm.trans hRead'
        exact absurd rfl hOther
    | ended hRead' _ => exact nomatch hRead.symm.trans hRead'
    | delivered hRead' _ _ _ =>
        exact nomatch hRead.symm.trans hRead'
    | complete hRead' _ _ _ =>
        exact nomatch hRead.symm.trans hRead'

/-
  A call for a length that an int can hold is right, on every
  descriptor that does not stall.
-/
theorem readsInFull_of_not_stalls
    (s : σ)
    (errno : Int)
    (buf : Buffer)
    (hPos : 0 < n)
    (hInt : n < 2 ^ 31)
    (hGoesOn : ¬d.Stalls s n) :
    ReadsInFull d s errno buf n := by
  have hEnds := exists_returns_iff.mpr
    (mt (readRound_forever_iff s errno buf hPos hInt).mp
      hGoesOn)
  rcases hEnds with ⟨r, hReturns⟩
  have hDelivers :
      ∀ bytes s', d.Reads s n bytes s' 0 →
        r.rc = n ∧ r.buf.load n = bytes ∧ r.s = s' := by
    intro bytes s' hReads
    rcases (follows_reads hReads hPos
        (readStart s errno buf n) ⟨rfl, rfl⟩
        (by simpa [readStart] using hInt)).2 rfl with
      ⟨r', hReturns', hRc, hS, hBuf⟩
    cases hReturns.unique hReturns'
    simp only [readStart, Nat.zero_add, Buffer.load_zero,
      List.nil_append] at hRc hBuf
    exact ⟨hRc, hBuf, hS⟩
  rcases hReturns.rule
      (ReadSoFar.start s errno buf hPos)
      (fun v v' hHere hNext => hHere.next hInt hNext) with
    ⟨v, hSoFar, hStop⟩
  have hEnd := hSoFar.stop hInt hStop
  refine ⟨r, hReturns, ⟨?_, ?_⟩,
    fun bytes s' hReads => (hDelivers bytes s' hReads).2, ?_⟩
  · intro hRc
    rcases hEnd with ⟨_, hReads⟩ | hLe
    · exact ⟨_, _, hReads⟩
    · omega
  · rintro ⟨bytes, s', hReads⟩
    exact (hDelivers bytes s' hReads).1
  · intro hOther
    exact hEnd.resolve_left fun hThere => hOther hThere.1

end Reads

------------------------------------------------------------
-- The Loop of Writes
------------------------------------------------------------

/-
  The variables of sb_write_len(), the descriptor, and the
  bytes that it accepted.
-/
structure WriteVars
    (σ : Type) where
  s : σ
  index : Nat
  remain : Nat
  errno : Int
  accepted : List UInt8

structure WriteDone
    (σ : Type) where
  rc : Int
  s : σ
  accepted : List UInt8

/- The bytes that a write takes of those it is passed. -/
def taken
    (passed : List UInt8) : Except Int Nat → List UInt8
  | .ok k => passed.take k
  | .error _ => []

/- `rc=write(..)` -/
def writeRc : Except Int Nat → Int
  | .ok k => Text.toCInt k
  | .error _ => -1

/- One round of the loop of sb_write_len(). -/
def writeRound
    {σ : Type}
    (d : Writable σ)
    (data : List UInt8)
    (v : WriteVars σ) : WriteVars σ ⊕ WriteDone σ :=
  let passed := (data.drop v.index).take v.remain
  let (result, s) := d.write v.s passed
  let rc := writeRc result
  let errno := errnoAfter v.errno result
  let accepted := v.accepted ++ taken passed result
  let count := rc.toNat
  let remain := v.remain - count
  let index := v.index + count
  if (0 ≤ rc ∧ 0 < remain) ∨ (rc < 0 ∧ errno = EINTR) then
    .inl ⟨s, index, remain, errno, accepted⟩
  else
    .inr ⟨if 0 < rc then Text.toCInt index else rc, s,
      accepted⟩

/- The variables at the start of sb_write_len(). -/
def writeStart
    {σ : Type}
    (s : σ)
    (errno : Int)
    (buflen : Nat) : WriteVars σ :=
  ⟨s, 0, buflen, errno, []⟩

/-
  A call for some data returns, and it returns their number
  exactly when the writes accept them all; then these were
  accepted in order, each once.  Otherwise it returns a
  negative number.
-/
def WritesInFull
    {σ : Type}
    (d : Writable σ)
    (s : σ)
    (errno : Int)
    (data : List UInt8) : Prop :=
  ∃ r, Returns (writeRound d data)
      (writeStart s errno data.length) r ∧
    (r.rc = data.length ↔ ∃ s', d.Writes s data s' []) ∧
    (∀ s', d.Writes s data s' [] →
      r.accepted = data ∧ r.s = s') ∧
    (r.rc ≠ data.length → r.rc < 0)

section Writes

variable {σ : Type}
variable {d : Writable σ}
variable {data : List UInt8}

/- What a round does, when an int can hold the length. -/
inductive WriteRoundCases
    (d : Writable σ)
    (data : List UInt8)
    (v : WriteVars σ) : Prop where
| interrupted
    {s' : σ}
    (hWrite :
      d.write v.s (data.drop v.index) = (.error EINTR, s'))
    (hRound : writeRound d data v =
      .inl ⟨s', v.index, v.remain, EINTR, v.accepted⟩)
| failed
    {e : Int}
    {s' : σ}
    (hWrite :
      d.write v.s (data.drop v.index) = (.error e, s'))
    (hOther : e ≠ EINTR)
    (hRound : writeRound d data v =
      .inr ⟨-1, s', v.accepted⟩)
| accepted
    {k : Nat}
    {s' : σ}
    (hWrite : d.write v.s (data.drop v.index) = (.ok k, s'))
    (hLess : k < v.remain)
    (hRound : writeRound d data v =
      .inl ⟨s', v.index + k, v.remain - k, v.errno,
        v.accepted ++ (data.drop v.index).take k⟩)
| complete
    {s' : σ}
    (hWrite :
      d.write v.s (data.drop v.index) = (.ok v.remain, s'))
    (hRound : writeRound d data v =
      .inr ⟨data.length, s',
        v.accepted ++ data.drop v.index⟩)

theorem writeRound_cases
    {v : WriteVars σ}
    (hMissing : 0 < v.remain)
    (hTotal : v.index + v.remain = data.length)
    (hInt : data.length < 2 ^ 31) :
    WriteRoundCases d data v := by
  have hLength : (data.drop v.index).length = v.remain := by
    rw [List.length_drop]
    omega
  have hPassed :
      (data.drop v.index).take v.remain =
        data.drop v.index :=
    List.take_of_length_le hLength.le
  rcases hWrite : d.write v.s (data.drop v.index) with
    ⟨result, s'⟩
  cases result with
  | error e =>
      have hRound :
          writeRound d data v =
            if e = EINTR then
              .inl ⟨s', v.index, v.remain, e, v.accepted⟩
            else .inr ⟨-1, s', v.accepted⟩ := by
        unfold writeRound
        simp only [hPassed, hWrite]
        simp [writeRc, taken, errnoAfter]
      by_cases hIntr : e = EINTR
      · subst hIntr
        rw [if_pos rfl] at hRound
        exact .interrupted hWrite hRound
      · rw [if_neg hIntr] at hRound
        exact .failed hWrite hIntr hRound
  | ok k =>
      have hFits := d.fits hWrite
      have hRc : writeRc (.ok k) = k :=
        toCInt_of_lt (by omega)
      have hIndex :
          Text.toCInt ((v.index + k : Nat) : Int) =
            (v.index + k : Nat) :=
        toCInt_of_lt (by omega)
      have hRound :
          writeRound d data v =
            if k < v.remain then
              .inl ⟨s', v.index + k, v.remain - k, v.errno,
                v.accepted ++ (data.drop v.index).take k⟩
            else
              .inr ⟨(v.index + k : Nat), s',
                v.accepted ++ (data.drop v.index).take k⟩ := by
        unfold writeRound
        simp only [hPassed, hWrite]
        rw [hRc, Int.toNat_natCast, hIndex]
        by_cases hLess : k < v.remain
        · rw [if_pos hLess, if_pos (by omega)]
          rfl
        · rw [if_neg hLess, if_neg (by omega),
            if_pos (by omega)]
          rfl
      by_cases hLess : k < v.remain
      · rw [if_pos hLess] at hRound
        exact .accepted hWrite hLess hRound
      · rw [if_neg hLess] at hRound
        have hFull : k = v.remain := by omega
        subst hFull
        rw [hTotal, hPassed] at hRound
        exact .complete hWrite hRound

/-
  What holds before every round of a call for some data: the
  bytes in front of the index were accepted.
-/
structure WrittenSoFar
    (d : Writable σ)
    (s : σ)
    (data : List UInt8)
    (v : WriteVars σ) : Prop where
  missing : 0 < v.remain
  total : v.index + v.remain = data.length
  accepted : v.accepted = data.take v.index
  writes : d.Writes s data v.s (data.drop v.index)

variable {s : σ}
variable {v v' : WriteVars σ}
variable {r : WriteDone σ}

theorem WrittenSoFar.start
    (s : σ)
    (errno : Int)
    (hSome : data ≠ []) :
    WrittenSoFar d s data (writeStart s errno data.length) :=
  ⟨List.length_pos_iff.mpr hSome, Nat.zero_add _, rfl,
    .done s data⟩

theorem WrittenSoFar.left
    (hSoFar : WrittenSoFar d s data v) :
    data.drop v.index ≠ [] := by
  have hMissing := hSoFar.missing
  have hTotal := hSoFar.total
  rw [Ne, List.drop_eq_nil_iff]
  omega

/- What it was before the first round is of no concern. -/
theorem WrittenSoFar.cases
    (hSoFar : WrittenSoFar d s data v)
    (hInt : data.length < 2 ^ 31) :
    WriteRoundCases d data v :=
  writeRound_cases hSoFar.missing hSoFar.total hInt

/- A round that goes on keeps it. -/
theorem WrittenSoFar.next
    (hSoFar : WrittenSoFar d s data v)
    (hInt : data.length < 2 ^ 31)
    (hNext : writeRound d data v = .inl v') :
    WrittenSoFar d s data v' := by
  have hTotal := hSoFar.total
  cases hSoFar.cases hInt with
  | interrupted hWrite hRound =>
      cases hRound.symm.trans hNext
      exact ⟨hSoFar.missing, hTotal, hSoFar.accepted,
        hSoFar.writes.trans
          (.interrupted hSoFar.left hWrite (.done _ _))⟩
  | accepted hWrite hLess hRound =>
      cases hRound.symm.trans hNext
      refine ⟨by simp; omega, by simp; omega, ?_, ?_⟩
      · simp only [hSoFar.accepted, List.take_add]
      · have hHere := hSoFar.writes.trans
          (.accepted hSoFar.left hWrite (.done _ _))
        rwa [List.drop_drop] at hHere
  | failed _ _ hRound => exact nomatch hRound.symm.trans hNext
  | complete _ hRound => exact nomatch hRound.symm.trans hNext

/- How a call ends: complete, or with a failure. -/
theorem WrittenSoFar.stop
    (hSoFar : WrittenSoFar d s data v)
    (hInt : data.length < 2 ^ 31)
    (hStop : writeRound d data v = .inr r) :
    r.rc = data.length ∧ r.accepted = data ∧
        d.Writes s data r.s [] ∨
      r.rc < 0 := by
  have hTotal := hSoFar.total
  cases hSoFar.cases hInt with
  | complete hWrite hRound =>
      cases hRound.symm.trans hStop
      left
      refine ⟨rfl, ?_, ?_⟩
      · simp only [hSoFar.accepted, List.take_append_drop]
      · have hHere := hSoFar.writes.trans
          (.accepted hSoFar.left hWrite (.done _ _))
        rwa [List.drop_drop, hTotal, List.drop_length]
          at hHere
  | failed _ _ hRound =>
      cases hRound.symm.trans hStop
      right
      simp
  | interrupted _ hRound =>
      exact nomatch hRound.symm.trans hStop
  | accepted _ _ hRound =>
      exact nomatch hRound.symm.trans hStop

/-
  The loop makes these writes: it comes to the state in which
  they leave the descriptor, or ends when nothing is left.
-/
theorem follows_writes
    {s' : σ}
    {left rest : List UInt8}
    (hWrites : d.Writes s left s' rest)
    (hInt : data.length < 2 ^ 31)
    {s₀ : σ}
    (v : WriteVars σ)
    (hSoFar : WrittenSoFar d s₀ data v)
    (hHere : v.s = s ∧ data.drop v.index = left) :
    (rest ≠ [] →
      ∃ j v', Leads (writeRound d data) v j v' ∧
        v'.s = s' ∧ data.drop v'.index = rest) ∧
    (rest = [] →
      ∃ r, Returns (writeRound d data) v r ∧
        r.rc = data.length ∧ r.s = s') := by
  induction hWrites generalizing v with
  | done s left =>
      refine ⟨fun _ => ⟨0, v, .start, hHere⟩, ?_⟩
      intro hNil
      exact absurd (hHere.2.trans hNil) hSoFar.left
  | @interrupted s s₁ s' left rest _ hWrite _ ih =>
      rcases hHere with ⟨rfl, rfl⟩
      cases hSoFar.cases hInt with
      | interrupted hWrite' hRound =>
          cases hWrite.symm.trans hWrite'
          rcases ih _ (hSoFar.next hInt hRound) ⟨rfl, rfl⟩ with
            ⟨hLeads, hReturns⟩
          constructor
          · intro hMore
            exact exists_leads_of_next hRound (hLeads hMore)
          · intro hNone
            exact exists_returns_of_next hRound (hReturns hNone)
      | failed hWrite' hOther _ =>
          cases hWrite.symm.trans hWrite'
          exact absurd rfl hOther
      | accepted hWrite' _ _ =>
          exact nomatch hWrite.symm.trans hWrite'
      | complete hWrite' _ =>
          exact nomatch hWrite.symm.trans hWrite'
  | @accepted s s₁ s' left rest k _ hWrite hRest ih =>
      rcases hHere with ⟨rfl, rfl⟩
      cases hSoFar.cases hInt with
      | accepted hWrite' hLess hRound =>
          cases hWrite.symm.trans hWrite'
          rcases ih _ (hSoFar.next hInt hRound)
              ⟨rfl, List.drop_drop.symm⟩ with
            ⟨hLeads, hReturns⟩
          constructor
          · intro hMore
            exact exists_leads_of_next hRound (hLeads hMore)
          · intro hNone
            exact exists_returns_of_next hRound (hReturns hNone)
      | complete hWrite' hRound =>
          cases hWrite.symm.trans hWrite'
          rw [List.drop_drop, hSoFar.total, List.drop_length]
            at hRest
          rcases hRest.of_nil with ⟨rfl, rfl⟩
          exact ⟨fun hMore => absurd rfl hMore,
            fun _ => ⟨_, .stop hRound, rfl, rfl⟩⟩
      | interrupted hWrite' _ =>
          exact nomatch hWrite.symm.trans hWrite'
      | failed hWrite' _ _ =>
          exact nomatch hWrite.symm.trans hWrite'

/- A round that goes on leaves no more to write. -/
theorem left_le_of_next
    (hSoFar : WrittenSoFar d s data v)
    (hInt : data.length < 2 ^ 31)
    (hNext : writeRound d data v = .inl v') :
    v'.remain ≤ v.remain ∧
      (v'.remain = v.remain →
        v'.index = v.index ∧
          (d.write v.s (data.drop v.index) =
              (.error EINTR, v'.s) ∨
            d.write v.s (data.drop v.index) =
              (.ok 0, v'.s))) := by
  cases hSoFar.cases hInt with
  | interrupted hWrite hRound =>
      cases hRound.symm.trans hNext
      exact ⟨le_rfl, fun _ => ⟨rfl, .inl hWrite⟩⟩
  | @accepted k s' hWrite hLess hRound =>
      cases hRound.symm.trans hNext
      dsimp only
      refine ⟨Nat.sub_le _ _, fun hSame => ?_⟩
      have hNone : k = 0 := by omega
      subst hNone
      exact ⟨rfl, .inr hWrite⟩
  | failed _ _ hRound => exact nomatch hRound.symm.trans hNext
  | complete _ hRound => exact nomatch hRound.symm.trans hNext

/- The loop goes on forever when the descriptor stalls. -/
theorem writeRound_forever_iff
    (s : σ)
    (errno : Int)
    (hSome : data ≠ [])
    (hInt : data.length < 2 ^ 31) :
    Forever (writeRound d data)
        (writeStart s errno data.length) ↔
      d.Stalls s data := by
  have hStart := WrittenSoFar.start (d := d) s errno hSome
  constructor
  · intro hForever
    have hSettles := Forever.settles
      (P := fun v => WrittenSoFar d s data v)
      (fun v : WriteVars σ => v.remain)
      (fun v v' hHere hNext =>
        ⟨hHere.next hInt hNext,
          (left_le_of_next hHere hInt hNext).1⟩)
      hStart hForever
    rcases hSettles with ⟨v, hSoFar, hOn, hSame⟩
    rcases hOn.states with ⟨states, hFirst, hLeads, hNext⟩
    refine ⟨v.s, data.drop v.index, hSoFar.writes,
      hSoFar.left, fun i => (states i).s, by simp [hFirst],
      fun i => ?_⟩
    have hKept : ∀ i, WrittenSoFar d s data (states i) :=
      fun i => (hLeads i).invariant
        (P := fun _ v => WrittenSoFar d s data v) hSoFar
        (fun _ v v' hHere hNext => hHere.next hInt hNext)
    have hHere := hKept i
    have hRemain := hSame i (states i) (hLeads i)
    have hRemain' := hSame (i + 1) _ (hLeads (i + 1))
    have hWrite := ((left_le_of_next hHere hInt (hNext i)).2
      (hRemain'.trans hRemain.symm)).2
    have hIndex : (states i).index = v.index := by
      have hTotal := hHere.total
      have hTotal' := hSoFar.total
      omega
    rwa [hIndex] at hWrite
  · rintro ⟨s', rest, hWrites, hMore, states, hFirst, hStall⟩
    rcases (follows_writes hWrites hInt _ hStart
        ⟨rfl, rfl⟩).1 hMore with
      ⟨j, v, hLeads, hS, hRest⟩
    rw [hLeads.forever_iff]
    have hSoFar : WrittenSoFar d s data v :=
      hLeads.invariant
        (P := fun _ v => WrittenSoFar d s data v) hStart
        (fun _ v v' hHere hNext => hHere.next hInt hNext)
    apply Forever.of_invariant
      (P := fun v => (∃ i, v.s = states i) ∧
        data.drop v.index = rest ∧ WrittenSoFar d s data v)
      ⟨⟨0, by rw [hS, hFirst]⟩, hRest, hSoFar⟩
    rintro v ⟨⟨i, hS⟩, hRest, hSoFar⟩
    have hWrite := hStall i
    rw [← hS, ← hRest] at hWrite
    cases hSoFar.cases hInt with
    | interrupted hWrite' hRound =>
        rcases hWrite with hWrite | hWrite
        · cases hWrite.symm.trans hWrite'
          exact ⟨_, hRound, ⟨i + 1, rfl⟩, hRest,
            hSoFar.next hInt hRound⟩
        · exact nomatch hWrite.symm.trans hWrite'
    | failed hWrite' hOther _ =>
        rcases hWrite with hWrite | hWrite
        · cases hWrite.symm.trans hWrite'
          exact absurd rfl hOther
        · exact nomatch hWrite.symm.trans hWrite'
    | accepted hWrite' hLess hRound =>
        rcases hWrite with hWrite | hWrite
        · exact nomatch hWrite.symm.trans hWrite'
        · cases hWrite.symm.trans hWrite'
          exact ⟨_, hRound, ⟨i + 1, rfl⟩, hRest,
            hSoFar.next hInt hRound⟩
    | complete hWrite' hRound =>
        have hMissing := hSoFar.missing
        rcases hWrite with hWrite | hWrite
        · exact nomatch hWrite.symm.trans hWrite'
        · have hSame := hWrite.symm.trans hWrite'
          simp only [Prod.mk.injEq, Except.ok.injEq] at hSame
          omega

/-
  A call for data whose length an int can hold is right, on
  every descriptor that does not stall.
-/
theorem writesInFull_of_not_stalls
    (s : σ)
    (errno : Int)
    (hSome : data ≠ [])
    (hInt : data.length < 2 ^ 31)
    (hGoesOn : ¬d.Stalls s data) :
    WritesInFull d s errno data := by
  have hStart := WrittenSoFar.start (d := d) s errno hSome
  have hEnds := exists_returns_iff.mpr
    (mt (writeRound_forever_iff s errno hSome hInt).mp
      hGoesOn)
  rcases hEnds with ⟨r, hReturns⟩
  have hAccepts :
      ∀ s', d.Writes s data s' [] →
        r.rc = data.length ∧ r.s = s' := by
    intro s' hWrites
    rcases (follows_writes hWrites hInt _ hStart
        ⟨rfl, rfl⟩).2 rfl with
      ⟨r', hReturns', hRc, hS⟩
    cases hReturns.unique hReturns'
    exact ⟨hRc, hS⟩
  rcases hReturns.rule hStart
      (fun v v' hHere hNext => hHere.next hInt hNext) with
    ⟨v, hSoFar, hStop⟩
  have hEnd := hSoFar.stop hInt hStop
  refine ⟨r, hReturns, ⟨?_, ?_⟩, ?_, ?_⟩
  · intro hRc
    rcases hEnd with ⟨_, _, hWrites⟩ | hLess
    · exact ⟨_, hWrites⟩
    · omega
  · rintro ⟨s', hWrites⟩
    exact (hAccepts s' hWrites).1
  · intro s' hWrites
    rcases hAccepts s' hWrites with ⟨hRc, hS⟩
    rcases hEnd with ⟨_, hAll, _⟩ | hLess
    · exact ⟨hAll, hS⟩
    · omega
  · intro hOther
    exact hEnd.resolve_left fun hThere => hOther hThere.1

end Writes

------------------------------------------------------------
-- Exactness
------------------------------------------------------------

/-
  For lengths that an int can hold, the calls are right
  exactly on the descriptors that do not stall.
-/
theorem fullLength_exact
    {σ : Type}
    (s : σ)
    (errno : Int) :
    (∀ (d : Readable σ) (buf : Buffer) (n : Nat),
      0 < n → n < 2 ^ 31 →
        (ReadsInFull d s errno buf n ↔ ¬d.Stalls s n)) ∧
    (∀ (d : Writable σ) (data : List UInt8),
      data ≠ [] → data.length < 2 ^ 31 →
        (WritesInFull d s errno data ↔
          ¬d.Stalls s data)) := by
  constructor
  · intro d buf n hPos hInt
    constructor
    · rintro ⟨r, hReturns, _⟩ hStalls
      exact hReturns.not_forever
        ((readRound_forever_iff s errno buf hPos hInt).mpr
          hStalls)
    · exact readsInFull_of_not_stalls s errno buf hPos hInt
  · intro d data hSome hInt
    constructor
    · rintro ⟨r, hReturns, _⟩ hStalls
      exact hReturns.not_forever
        ((writeRound_forever_iff s errno hSome hInt).mpr
          hStalls)
    · exact writesInFull_of_not_stalls s errno hSome hInt

/- A descriptor that fills every request with zeros. -/
def zeroReads : Readable Unit where
  read _ n := (.ok (List.replicate n 0), ())
  fits := by
    rintro _ _ n _ hRead
    cases hRead
    simp

/- It takes all that it is passed. -/
def nullWrites : Writable Unit where
  write _ data := (.ok data.length, ())
  fits := by
    rintro _ _ _ _ hWrite
    cases hWrite
    exact le_rfl

/- A request for five bytes, and one to write three. -/
theorem fullLength_exact_zeros :
    ReadsInFull zeroReads () 0 (fun _ => 1) 5 ∧
      WritesInFull nullWrites () 0 [1, 2, 3] := by
  rcases fullLength_exact () 0 with ⟨hReads, hWrites⟩
  constructor
  · apply (hReads zeroReads _ 5 (by decide) (by decide)).mpr
    rintro ⟨_, _, _, _, _, states, _, hStall⟩
    exact nomatch hStall 0
  · apply (hWrites nullWrites [1, 2, 3] (by decide)
      (by decide)).mpr
    rintro ⟨_, rest, _, hLeft, states, _, hStall⟩
    rcases hStall 0 with hIntr | hNone
    · exact nomatch hIntr
    · have hEmpty := congrArg Prod.fst hNone
      exact hLeft
        (List.length_eq_zero_iff.mp (Except.ok.inj hEmpty))

/- A descriptor whose reads are always interrupted. -/
def interruptedReads : Readable Unit where
  read _ _ := (.error EINTR, ())
  fits := fun hRead => nomatch hRead

/- It delivers up to `limit` zeros at a time. -/
def partialReads
    (limit : Nat) : Readable Unit where
  read _ n := (.ok (List.replicate (min n limit) 0), ())
  fits := by
    rintro _ _ n _ hRead
    cases hRead
    simp

/- It accepts nothing. -/
def refusedWrites : Writable Unit where
  write _ _ := (.ok 0, ())
  fits := by
    rintro _ _ _ _ hWrite
    cases hWrite
    exact Nat.zero_le _

/- The second half of a length that no int can hold. -/
theorem not_readsInFull_halves
    {half : Nat}
    (hHalf : half + half = 2 ^ 31) :
    ¬ReadsInFull (partialReads half) () 0 (fun _ => 0)
      (half + half) := by
  have hSome : List.replicate half (0 : UInt8) ≠ [] := by
    rw [← List.length_pos_iff, List.length_replicate]
    omega
  have hRead : ∀ n, half ≤ n →
      (partialReads half).read () n =
        (.ok (List.replicate half 0), ()) := by
    intro n hLe
    simp [partialReads, Nat.min_eq_right hLe]
  have hRc :
      readRc (.ok (List.replicate half 0)) = half := by
    rw [readRc, List.length_replicate]
    exact toCInt_of_lt (by omega)
  have hFirst :
      readRound (partialReads half)
          (readStart () 0 (fun _ => 0) (half + half)) =
        .inl ⟨(), half, half, 0,
          Buffer.store (fun _ => 0) 0
            (List.replicate half 0)⟩ := by
    unfold readRound readStart
    simp only [hRead (half + half) (by omega), hRc]
    rw [if_pos (by omega)]
    simp [readChunk, errnoAfter]
  have hSecond (buf : Buffer) :
      readRound (partialReads half)
          ⟨(), half, half, 0, buf⟩ =
        .inr ⟨-2 ^ 31, (),
          buf.store half (List.replicate half 0)⟩ := by
    unfold readRound
    simp only [hRead half le_rfl, hRc, Int.toNat_natCast,
      hHalf]
    rw [if_neg (by simp), if_pos (by omega)]
    rfl
  rintro ⟨r, hReturns, hIff, _⟩
  have hReads :
      (partialReads half).Reads () (half + half)
        (List.replicate half 0 ++
          (List.replicate half 0 ++ [])) () 0 := by
    refine .delivered (hRead _ (by omega)) hSome
      (.delivered (hRead _ ?_) hSome ?_)
    · rw [List.length_replicate]
      omega
    · simp only [List.length_replicate, Nat.add_sub_cancel,
        Nat.sub_self]
      exact .done () 0
  have hFull := hIff.mpr ⟨_, _, hReads⟩
  have hEnd := hReturns.unique (.next hFirst (.stop (hSecond _)))
  rw [hEnd] at hFull
  dsimp only at hFull
  omega

/-
  A call never returns while it is interrupted or nothing is
  accepted.  A length of 2^31, of which two reads deliver one
  half each, is returned as a negative number.
-/
theorem not_fullLength :
    ¬ReadsInFull interruptedReads () 0 (fun _ => 0) 1 ∧
      ¬WritesInFull refusedWrites () 0 [0] ∧
      ¬ReadsInFull (partialReads (2 ^ 30)) () 0
        (fun _ => 0) (2 ^ 30 + 2 ^ 30) := by
  refine ⟨?_, ?_, not_readsInFull_halves (by decide)⟩
  · rintro ⟨r, hReturns, _⟩
    apply hReturns.not_forever
    apply (readRound_forever_iff () 0 _ (by decide)
      (by decide)).mpr
    exact ⟨[], (), 1, .done () 1, by decide, fun _ => (), rfl,
      fun _ => rfl⟩
  · rintro ⟨r, hReturns, _⟩
    apply hReturns.not_forever
    apply (writeRound_forever_iff () 0 (by decide)
      (by decide)).mpr
    exact ⟨(), [0], .done () [0], by decide, fun _ => (), rfl,
      fun _ => .inr rfl⟩

------------------------------------------------------------
-- Descriptors with a Schedule
------------------------------------------------------------

/- Reading from a source. -/
def scheduledReads : Readable Source where
  read := Source.read
  fits := fun hRead => (Source.delivers_of_read hRead).length_le

/- Writing to a sink. -/
def scheduledWrites : Writable Sink where
  write := Sink.write
  fits := by
    intro s s' data k hWrite
    rcases s.write_cases data with
      ⟨k', s'', hWrite', hLe, _⟩ | ⟨_, _, hWrite', _⟩
    · cases hWrite.symm.trans hWrite'
      exact hLe
    · exact nomatch hWrite.symm.trans hWrite'

/-
  The loop of reads from a source returns what the run of the
  source records.
-/
theorem sbReadLenLoop_returns
    (fuel : Nat)
    (v : ReadVars Source)
    (hFuel : v.s.budget ≤ fuel)
    (hMissing : 0 < v.remain)
    (hInt : v.index + v.remain < 2 ^ 31) :
    Returns (readRound scheduledReads) v
      ⟨(sbReadLenLoop fuel v.s v.index v.remain).rc,
        (sbReadLenLoop fuel v.s v.index v.remain).source,
        v.buf.store v.index
          (sbReadLenLoop fuel v.s v.index v.remain).data⟩ := by
  induction fuel generalizing v with
  | zero =>
      have hPos := v.s.budget_pos
      omega
  | succ fuel ih =>
      rw [sbReadLenLoop]
      cases readRound_cases (d := scheduledReads) hMissing
          hInt with
      | @interrupted s' hRead hRound =>
          have hFails := Source.fails_of_read hRead
          have hRead : v.s.read v.remain = (.error EINTR, s') :=
            hRead
          have hBudget := hFails.budget_lt
          simp only [hRead, if_pos]
          exact .next hRound
            (ih ⟨s', v.index, v.remain, EINTR, v.buf⟩
              (by dsimp only; omega) hMissing hInt)
      | @failed e s' hRead hOther hRound =>
          have hRead : v.s.read v.remain = (.error e, s') :=
            hRead
          simp only [hRead, if_neg hOther, ReadRun.data,
            List.flatten_nil, Buffer.store_nil]
          exact .stop hRound
      | @ended s' hRead hRound =>
          have hRead : v.s.read v.remain = (.ok [], s') :=
            hRead
          simp only [hRead, List.length_nil, lt_self_iff_false,
            false_and, if_false, ReadRun.data,
            List.flatten_singleton, Buffer.store_nil]
          exact .stop hRound
      | @delivered chunk s' hRead hSome hLess hRound =>
          have hDelivers := Source.delivers_of_read hRead
          have hRead : v.s.read v.remain = (.ok chunk, s') :=
            hRead
          have hPos := List.length_pos_iff.mpr hSome
          have hBudget := hDelivers.budget_lt hSome hLess
          have hRest := ih
            ⟨s', v.index + chunk.length,
              v.remain - chunk.length, v.errno,
              v.buf.store v.index chunk⟩
            (by dsimp only; omega) (by dsimp only; omega)
            (by dsimp only; omega)
          simp only [hRead]
          rw [if_pos ⟨hPos, by omega⟩]
          simp only [ReadRun.data_push, ← Buffer.store_append]
          exact .next hRound hRest
      | @complete chunk s' hRead hSome hFull hRound =>
          have hRead : v.s.read v.remain = (.ok chunk, s') :=
            hRead
          have hPos := List.length_pos_iff.mpr hSome
          simp only [hRead]
          rw [if_neg (by omega), if_pos hPos]
          simp only [ReadRun.data, List.flatten_singleton,
            hFull]
          exact .stop hRound

theorem sbReadLen_returns
    (s : Source)
    (errno : Int)
    (buf : Buffer)
    {n : Nat}
    (hPos : 0 < n)
    (hInt : n < 2 ^ 31) :
    Returns (readRound scheduledReads)
      (readStart s errno buf n)
      ⟨(sbReadLen s n).rc, (sbReadLen s n).source,
        buf.store 0 (sbReadLen s n).data⟩ :=
  sbReadLenLoop_returns _ (readStart s errno buf n) le_rfl
    hPos (by simpa [readStart] using hInt)

/-
  The loop of writes to a sink returns what the run of the
  sink records.
-/
theorem sbWriteLenLoop_returns
    {data : List UInt8}
    (fuel : Nat)
    (v : WriteVars Sink)
    (hFuel : v.s.writes.length < fuel)
    (hMissing : 0 < v.remain)
    (hTotal : v.index + v.remain = data.length)
    (hInt : data.length < 2 ^ 31) :
    Returns (writeRound scheduledWrites data) v
      ⟨(sbWriteLenLoop fuel v.s v.index
          (data.drop v.index)).rc,
        (sbWriteLenLoop fuel v.s v.index
          (data.drop v.index)).sink,
        v.accepted ++
          (sbWriteLenLoop fuel v.s v.index
            (data.drop v.index)).data⟩ := by
  induction fuel generalizing v with
  | zero => omega
  | succ fuel ih =>
      have hLength : (data.drop v.index).length = v.remain := by
        rw [List.length_drop]
        omega
      rw [sbWriteLenLoop]
      cases writeRound_cases (d := scheduledWrites) hMissing
          hTotal hInt with
      | @interrupted s' hWrite hRound =>
          have hWrite :
              v.s.write (data.drop v.index) =
                (.error EINTR, s') := hWrite
          have hLess := Sink.shorter_of_error hWrite
          simp only [hWrite, if_pos]
          exact .next hRound
            (ih ⟨s', v.index, v.remain, EINTR, v.accepted⟩
              (by dsimp only; omega) hMissing hTotal)
      | @failed e s' hWrite hOther hRound =>
          have hWrite :
              v.s.write (data.drop v.index) =
                (.error e, s') := hWrite
          simp only [hWrite, if_neg hOther, WriteRun.data,
            List.flatten_nil, List.append_nil]
          exact .stop hRound
      | @accepted k s' hWrite hShort hRound =>
          have hWrite :
              v.s.write (data.drop v.index) = (.ok k, s') :=
            hWrite
          have hLess := Sink.shorter_of_partial hWrite
            (hLength ▸ hShort)
          have hRest := ih
            ⟨s', v.index + k, v.remain - k, v.errno,
              v.accepted ++ (data.drop v.index).take k⟩
            (by dsimp only; omega) (by dsimp only; omega)
            (by dsimp only; omega)
          simp only [hWrite, hLength]
          rw [if_pos (by omega)]
          rw [WriteRun.data_push, List.drop_drop,
            ← List.append_assoc]
          exact .next hRound hRest
      | @complete s' hWrite hRound =>
          have hWrite :
              v.s.write (data.drop v.index) =
                (.ok v.remain, s') := hWrite
          simp only [hWrite, hLength, Nat.sub_self,
            lt_self_iff_false, if_false, if_pos hMissing,
            hTotal, WriteRun.data, List.flatten_singleton]
          rw [List.take_of_length_le hLength.le]
          exact .stop hRound

theorem sbWriteLen_returns
    (s : Sink)
    (errno : Int)
    {data : List UInt8}
    (hSome : data ≠ [])
    (hInt : data.length < 2 ^ 31) :
    Returns (writeRound scheduledWrites data)
      (writeStart s errno data.length)
      ⟨(sbWriteLen s data).rc, (sbWriteLen s data).sink,
        (sbWriteLen s data).data⟩ := by
  have hStart : 0 < data.length :=
    List.length_pos_iff.mpr hSome
  exact sbWriteLenLoop_returns (s.writes.length + 1)
    (writeStart s errno data.length) (Nat.lt_succ_self _)
    hStart (Nat.zero_add _) hInt

end SmartSOCKSProxy
