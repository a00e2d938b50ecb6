import SmartSOCKSProxy.Foundations.Stream

/-
  Blocking reads and writes that retry.

  A run records what the successive system calls transferred,
  the last error number they set, and the descriptor that is
  left.  The loops are given enough fuel for the schedule of
  the descriptor.

  Key definitions include:
    * `sbRead`, `sbReadLen`, `sbWriteLen`

  Key theorems include:
    * `sbReadLen_outcome`
    * `sbWriteLen_outcome`
-/

namespace SmartSOCKSProxy

------------------------------------------------------------
-- Reads
------------------------------------------------------------

structure ReadRun where
  rc : Int
  chunks : List (List UInt8)
  errno : Option Int
  source : Source

namespace ReadRun

/- All bytes delivered. -/
def data
    (run : ReadRun) : List UInt8 :=
  run.chunks.flatten

/- The run, preceded by a read that delivered `chunk`. -/
def push
    (chunk : List UInt8)
    (run : ReadRun) : ReadRun :=
  { run with chunks := chunk :: run.chunks }

/- The run, preceded by a read that set `errno`. -/
def retry
    (e : Int)
    (run : ReadRun) : ReadRun :=
  { run with errno := some (run.errno.getD e) }

@[simp] theorem data_push
    (chunk : List UInt8)
    (run : ReadRun) :
    (run.push chunk).data = chunk ++ run.data := rfl

@[simp] theorem data_retry
    (e : Int)
    (run : ReadRun) :
    (run.retry e).data = run.data := rfl

end ReadRun

/- One read, retried while it is interrupted. -/
def sbReadLoop : Nat → Source → Nat → ReadRun
  | 0, s, _ => ⟨-1, [], none, s⟩
  | fuel + 1, s, buflen =>
      match s.read buflen with
      | (.ok chunk, s') =>
          ⟨chunk.length, [chunk], none, s'⟩
      | (.error e, s') =>
          if e = EINTR then
            (sbReadLoop fuel s' buflen).retry e
          else ⟨-1, [], some e, s'⟩

def sbRead
    (s : Source)
    (buflen : Nat) : ReadRun :=
  sbReadLoop s.budget s buflen

/- Reads until `remain` more bytes have been delivered. -/
def sbReadLenLoop :
    Nat → Source → Nat → Nat → ReadRun
  | 0, s, _, _ => ⟨-1, [], none, s⟩
  | fuel + 1, s, index, remain =>
      match s.read remain with
      | (.ok chunk, s') =>
          if 0 < chunk.length ∧
              0 < remain - chunk.length then
            (sbReadLenLoop fuel s' (index + chunk.length)
              (remain - chunk.length)).push chunk
          else
            ⟨if 0 < chunk.length then
                (index + chunk.length : Nat)
              else 0,
              [chunk], none, s'⟩
      | (.error e, s') =>
          if e = EINTR then
            (sbReadLenLoop fuel s' index remain).retry e
          else ⟨-1, [], some e, s'⟩

def sbReadLen
    (s : Source)
    (buflen : Nat) : ReadRun :=
  sbReadLenLoop s.budget s 0 buflen

------------------------------------------------------------
-- Read Outcomes
------------------------------------------------------------

/-
  What a run took from its source: a front part of at most
  `room` bytes.
-/
structure ReadRun.Takes
    (run : ReadRun)
    (s : Source)
    (room : Nat) : Prop where
  pending : s.pending = run.data ++ run.source.pending
  length_le : run.data.length ≤ room
  suffix : run.source.reads <:+ s.reads

/-
  The three ways in which a full-length read ends: complete,
  cut short by the end of the stream, or failed.
-/
inductive ReadLenOutcome
    (s : Source)
    (index remain : Nat)
    (run : ReadRun) : Prop where
| complete
    (hPos : 0 < remain)
    (hRc : run.rc = (index + remain : Nat))
    (hData : run.data.length = remain)
| ended
    (hRc : run.rc = 0)
    (hEnd : remain = 0 ∨
      run.data.length < remain ∧ run.source.pending = [])
| failed
    (hRc : run.rc = -1)
    (hFail : s.MayFail)

------------------------------------------------------------
-- One Read of a Run
------------------------------------------------------------

/- A read that delivers goes before the rest of the run. -/
theorem ReadRun.Takes.push
    {s s' : Source}
    {n room : Nat}
    {chunk : List UInt8}
    {run : ReadRun}
    (hTakes : run.Takes s' room)
    (hDelivers : s.Delivers n chunk s')
    (hRoom : chunk.length + room ≤ n) :
    (run.push chunk).Takes s n := by
  refine ⟨?_, ?_, hTakes.suffix.trans hDelivers.suffix⟩
  · rw [hDelivers.pending, hTakes.pending,
      ReadRun.data_push, List.append_assoc]
    rfl
  · have hLe := hTakes.length_le
    rw [ReadRun.data_push, List.length_append]
    omega

/- So does one that is interrupted. -/
theorem ReadRun.Takes.retry
    {s s' : Source}
    {e : Int}
    {n : Nat}
    {run : ReadRun}
    (hTakes : run.Takes s' n)
    (hFails : s.Fails e s') :
    (run.retry e).Takes s n := by
  refine ⟨?_, hTakes.length_le,
    hTakes.suffix.trans hFails.suffix⟩
  rw [← hFails.pending, hTakes.pending]
  rfl

/- A run can end with what one read delivers. -/
theorem takes_of_delivers
    {s s' : Source}
    {n : Nat}
    {chunk : List UInt8}
    (hDelivers : s.Delivers n chunk s')
    (rc : Int) :
    (ReadRun.mk rc [chunk] none s').Takes s n := by
  have hData :
      (ReadRun.mk rc [chunk] none s').data = chunk := by
    simp [ReadRun.data]
  refine ⟨?_, ?_, hDelivers.suffix⟩
  · rw [hData]
    exact hDelivers.pending
  · rw [hData]
    exact hDelivers.length_le

/- And it can end with a failure. -/
theorem takes_of_fails
    {s s' : Source}
    {e : Int}
    (hFails : s.Fails e s')
    (n : Nat) :
    (ReadRun.mk (-1) [] (some e) s').Takes s n := by
  refine ⟨?_, ?_, hFails.suffix⟩
  · simp [ReadRun.data, hFails.pending]
  · simp [ReadRun.data]

theorem ReadLenOutcome.push
    {s s' : Source}
    {n index : Nat}
    {chunk : List UInt8}
    {run : ReadRun}
    (hOutcome :
      ReadLenOutcome s' (index + chunk.length)
        (n - chunk.length) run)
    (hDelivers : s.Delivers n chunk s')
    (hMore : 0 < n - chunk.length) :
    ReadLenOutcome s index n (run.push chunk) := by
  cases hOutcome with
  | complete hPos hRc hData =>
      apply ReadLenOutcome.complete (by omega)
      · exact hRc.trans (by congr 1; omega)
      · rw [ReadRun.data_push, List.length_append]
        omega
  | ended hRc hEnd =>
      refine ReadLenOutcome.ended hRc (Or.inr ?_)
      rcases hEnd with hZero | ⟨hLt, hNil⟩
      · omega
      · refine ⟨?_, hNil⟩
        rw [ReadRun.data_push, List.length_append]
        omega
  | failed hRc hFail =>
      exact ReadLenOutcome.failed hRc
        (hFail.of_suffix hDelivers.suffix)

theorem ReadLenOutcome.retry
    {s s' : Source}
    {e : Int}
    {n index : Nat}
    {run : ReadRun}
    (hOutcome : ReadLenOutcome s' index n run)
    (hFails : s.Fails e s') :
    ReadLenOutcome s index n (run.retry e) := by
  cases hOutcome with
  | complete hPos hRc hData =>
      exact ReadLenOutcome.complete hPos hRc hData
  | ended hRc hEnd => exact ReadLenOutcome.ended hRc hEnd
  | failed hRc hFail =>
      exact ReadLenOutcome.failed hRc
        (hFail.of_suffix hFails.suffix)

/- The read that ends the loop: all bytes, or the end. -/
theorem readLenOutcome_of_delivers
    {s s' : Source}
    {n : Nat}
    {chunk : List UInt8}
    (hDelivers : s.Delivers n chunk s')
    (hLast : ¬ (0 < chunk.length ∧ 0 < n - chunk.length))
    (index : Nat) :
    ReadLenOutcome s index n
      ⟨if 0 < chunk.length then
          (index + chunk.length : Nat)
        else 0,
        [chunk], none, s'⟩ := by
  have hLen := hDelivers.length_le
  by_cases hChunk : chunk = []
  · apply ReadLenOutcome.ended
    · simp [hChunk]
    · rcases hDelivers.ended hChunk with hZero | hNil
      · exact Or.inl hZero
      · by_cases hRemain : n = 0
        · exact Or.inl hRemain
        · have hPending := hDelivers.pending
          rw [hNil] at hPending
          refine Or.inr ⟨?_, (List.append_eq_nil_iff.mp
            hPending.symm).2⟩
          simp only [ReadRun.data, hChunk,
            List.flatten_cons, List.flatten_nil,
            List.append_nil, List.length_nil]
          exact Nat.pos_of_ne_zero hRemain
  · have hPos := List.length_pos_iff.mpr hChunk
    have hFull : chunk.length = n := by omega
    apply ReadLenOutcome.complete (by omega)
    · rw [if_pos hPos, hFull]
    · simp [ReadRun.data, hFull]

theorem sbReadLenLoop_outcome
    (fuel : Nat)
    (s : Source)
    (index remain : Nat)
    (hFuel : s.budget ≤ fuel) :
    (sbReadLenLoop fuel s index remain).Takes s remain ∧
      ReadLenOutcome s index remain
        (sbReadLenLoop fuel s index remain) := by
  induction fuel generalizing s index remain with
  | zero =>
      have hPos := s.budget_pos
      omega
  | succ fuel ih =>
      rw [sbReadLenLoop]
      rcases s.read_cases remain with
        ⟨chunk, s', hRead, hDelivers⟩ |
        ⟨e, s', hRead, hFails⟩
      · simp only [hRead]
        by_cases hMore :
            0 < chunk.length ∧ 0 < remain - chunk.length
        · rw [if_pos hMore]
          have hNe : chunk ≠ [] :=
            List.length_pos_iff.mp hMore.1
          have hBudget := hDelivers.budget_lt hNe (by omega)
          rcases ih s' (index + chunk.length)
              (remain - chunk.length) (by omega) with
            ⟨hTakes, hOutcome⟩
          exact ⟨hTakes.push hDelivers (by omega),
            hOutcome.push hDelivers hMore.2⟩
        · rw [if_neg hMore]
          exact ⟨takes_of_delivers hDelivers _,
            readLenOutcome_of_delivers hDelivers hMore index⟩
      · simp only [hRead]
        by_cases hIntr : e = EINTR
        · rw [if_pos hIntr]
          have hBudget := hFails.budget_lt
          rcases ih s' index remain (by omega) with
            ⟨hTakes, hOutcome⟩
          exact ⟨hTakes.retry hFails, hOutcome.retry hFails⟩
        · rw [if_neg hIntr]
          exact ⟨takes_of_fails hFails remain,
            ReadLenOutcome.failed rfl
              ⟨_, hFails.scheduled, hIntr⟩⟩

theorem sbReadLen_takes
    (s : Source)
    (n : Nat) :
    (sbReadLen s n).Takes s n :=
  (sbReadLenLoop_outcome _ s 0 n (le_refl _)).1

theorem sbReadLen_outcome
    (s : Source)
    (n : Nat) :
    ReadLenOutcome s 0 n (sbReadLen s n) :=
  (sbReadLenLoop_outcome _ s 0 n (le_refl _)).2

/- The requested length is returned for full reads only. -/
theorem sbReadLen_length
    {s : Source}
    {n : Nat}
    (hRc : (sbReadLen s n).rc = n) :
    (sbReadLen s n).data.length = n := by
  have hLe := (sbReadLen_takes s n).length_le
  cases sbReadLen_outcome s n with
  | complete hPos hRun hData => exact hData
  | ended hRun hEnd => omega
  | failed hRun hFail => omega

/- A reliable source that holds enough is read in full. -/
theorem sbReadLen_of_le
    {s : Source}
    {n : Nat}
    (hReliable : s.Reliable)
    (hLe : n ≤ s.pending.length) :
    (sbReadLen s n).rc = n ∧
      (sbReadLen s n).data = s.pending.take n ∧
      (sbReadLen s n).source.pending =
        s.pending.drop n := by
  have hTakes := sbReadLen_takes s n
  have hTotal := congrArg List.length hTakes.pending
  rw [List.length_append] at hTotal
  have hFull :
      (sbReadLen s n).rc = n ∧
        (sbReadLen s n).data.length = n := by
    have hRoom := hTakes.length_le
    cases sbReadLen_outcome s n with
    | complete hPos hRun hData =>
        exact ⟨by simpa using hRun, hData⟩
    | ended hRun hEnd =>
        rcases hEnd with hZero | ⟨hLt, hNil⟩
        · constructor <;> omega
        · rw [hNil, List.length_nil] at hTotal
          omega
    | failed hRun hFail =>
        exact absurd hFail hReliable.not_mayFail
  refine ⟨hFull.1, ?_, ?_⟩
  · rw [hTakes.pending, List.take_left' hFull.2]
  · rw [hTakes.pending, List.drop_left' hFull.2]

/- A reliable source that holds less is used up. -/
theorem sbReadLen_of_lt
    {s : Source}
    {n : Nat}
    (hReliable : s.Reliable)
    (hLt : s.pending.length < n) :
    (sbReadLen s n).rc = 0 ∧
      (sbReadLen s n).data = s.pending ∧
      (sbReadLen s n).source.pending = [] := by
  have hTakes := sbReadLen_takes s n
  have hTotal := congrArg List.length hTakes.pending
  rw [List.length_append] at hTotal
  cases sbReadLen_outcome s n with
  | complete hPos hRun hData => omega
  | ended hRun hEnd =>
      rcases hEnd with hZero | ⟨_, hNil⟩
      · omega
      · have hPending := hTakes.pending
        rw [hNil, List.append_nil] at hPending
        exact ⟨hRun, hPending.symm, hNil⟩
  | failed hRun hFail =>
      exact absurd hFail hReliable.not_mayFail

/- One retried read: what it delivers, or that it failed. -/
theorem sbReadLoop_outcome
    (fuel : Nat)
    (s : Source)
    (n : Nat)
    (hFuel : s.budget ≤ fuel) :
    (sbReadLoop fuel s n).Takes s n ∧
      ((sbReadLoop fuel s n).rc =
          (sbReadLoop fuel s n).data.length ∨
        (sbReadLoop fuel s n).rc = -1 ∧
          (sbReadLoop fuel s n).data = [] ∧ s.MayFail) := by
  induction fuel generalizing s with
  | zero =>
      have hPos := s.budget_pos
      omega
  | succ fuel ih =>
      rw [sbReadLoop]
      rcases s.read_cases n with
        ⟨chunk, s', hRead, hDelivers⟩ |
        ⟨e, s', hRead, hFails⟩
      · simp only [hRead]
        exact ⟨takes_of_delivers hDelivers _,
          Or.inl (by simp [ReadRun.data])⟩
      · simp only [hRead]
        by_cases hIntr : e = EINTR
        · rw [if_pos hIntr]
          have hBudget := hFails.budget_lt
          rcases ih s' (by omega) with ⟨hTakes, hOutcome⟩
          refine ⟨hTakes.retry hFails, ?_⟩
          rcases hOutcome with hRc | ⟨hRc, hNil, hFail⟩
          · exact Or.inl hRc
          · exact Or.inr
              ⟨hRc, hNil, hFail.of_suffix hFails.suffix⟩
        · rw [if_neg hIntr]
          exact ⟨takes_of_fails hFails n, Or.inr
            ⟨rfl, rfl, _, hFails.scheduled, hIntr⟩⟩

theorem sbRead_takes
    (s : Source)
    (n : Nat) :
    (sbRead s n).Takes s n :=
  (sbReadLoop_outcome _ s n (le_refl _)).1

theorem sbRead_outcome
    (s : Source)
    (n : Nat) :
    (sbRead s n).rc = (sbRead s n).data.length ∨
      (sbRead s n).rc = -1 ∧ (sbRead s n).data = [] ∧
        s.MayFail :=
  (sbReadLoop_outcome _ s n (le_refl _)).2

/- An empty answer tells the end of the stream. -/
theorem sbReadLoop_ended
    (fuel : Nat)
    (s : Source)
    {n : Nat}
    (hPos : 0 < n)
    (hRc : (sbReadLoop fuel s n).rc = 0) :
    s.pending = [] := by
  induction fuel generalizing s with
  | zero => simp [sbReadLoop] at hRc
  | succ fuel ih =>
      rw [sbReadLoop] at hRc
      rcases s.read_cases n with
        ⟨chunk, s', hRead, hDelivers⟩ |
        ⟨e, s', hRead, hFails⟩
      · simp only [hRead] at hRc
        have hChunk : chunk = [] := by
          simpa using hRc
        rcases hDelivers.ended hChunk with hZero | hNil
        · omega
        · exact hNil
      · simp only [hRead] at hRc
        by_cases hIntr : e = EINTR
        · rw [if_pos hIntr] at hRc
          rw [← hFails.pending]
          exact ih s' hRc
        · rw [if_neg hIntr] at hRc
          simp at hRc

/- Zero is returned at the end of the stream only. -/
theorem sbRead_eq_zero_iff
    {s : Source}
    {n : Nat}
    (hPos : 0 < n)
    (hRc : 0 ≤ (sbRead s n).rc) :
    (sbRead s n).rc = 0 ↔ s.pending = [] := by
  constructor
  · exact sbReadLoop_ended _ s hPos
  · intro hNil
    have hPending := (sbRead_takes s n).pending
    rw [hNil] at hPending
    have hData := (List.append_eq_nil_iff.mp hPending.symm).1
    rcases sbRead_outcome s n with hLen | ⟨hFail, _⟩
    · rw [hLen, hData]
      rfl
    · omega

------------------------------------------------------------
-- Writes
------------------------------------------------------------

structure WriteRun where
  rc : Int
  chunks : List (List UInt8)
  errno : Option Int
  sink : Sink

namespace WriteRun

/- All bytes accepted. -/
def data
    (run : WriteRun) : List UInt8 :=
  run.chunks.flatten

def push
    (chunk : List UInt8)
    (run : WriteRun) : WriteRun :=
  { run with chunks := chunk :: run.chunks }

def retry
    (e : Int)
    (run : WriteRun) : WriteRun :=
  { run with errno := some (run.errno.getD e) }

@[simp] theorem data_push
    (chunk : List UInt8)
    (run : WriteRun) :
    (run.push chunk).data = chunk ++ run.data := rfl

@[simp] theorem data_retry
    (e : Int)
    (run : WriteRun) :
    (run.retry e).data = run.data := rfl

end WriteRun

/- Writes until all of the remaining data is accepted. -/
def sbWriteLenLoop :
    Nat → Sink → Nat → List UInt8 → WriteRun
  | 0, s, _, _ => ⟨-1, [], none, s⟩
  | fuel + 1, s, index, remain =>
      match s.write remain with
      | (.ok k, s') =>
          if 0 < remain.length - k then
            (sbWriteLenLoop fuel s' (index + k)
              (remain.drop k)).push (remain.take k)
          else
            ⟨if 0 < k then (index + k : Nat) else 0,
              [remain.take k], none, s'⟩
      | (.error e, s') =>
          if e = EINTR then
            (sbWriteLenLoop fuel s' index remain).retry e
          else ⟨-1, [], some e, s'⟩

def sbWriteLen
    (s : Sink)
    (data : List UInt8) : WriteRun :=
  sbWriteLenLoop (s.writes.length + 1) s 0 data

/-
  A write either completes or fails after a front part; the
  schedule that is left is a part of the given one.
-/
theorem sbWriteLenLoop_outcome
    (fuel : Nat)
    (s : Sink)
    (index : Nat)
    (remain : List UInt8)
    (hFuel : s.writes.length < fuel) :
    (sbWriteLenLoop fuel s index remain).sink.writes <:+
        s.writes ∧
      ((sbWriteLenLoop fuel s index remain).data = remain ∧
          (sbWriteLenLoop fuel s index remain).rc =
            (if remain = [] then 0
              else index + remain.length : Nat) ∨
        (sbWriteLenLoop fuel s index remain).data <+:
            remain ∧
          (sbWriteLenLoop fuel s index remain).rc = -1 ∧
          s.MayFail) := by
  induction fuel generalizing s index remain with
  | zero => omega
  | succ fuel ih =>
      rw [sbWriteLenLoop]
      rcases s.write_cases remain with
        ⟨k, s', hWrite, hLe, hSuffix, hShort⟩ |
        ⟨e, s', hWrite, hMem, hSuffix, hShort⟩
      · simp only [hWrite]
        by_cases hMore : 0 < remain.length - k
        · rw [if_pos hMore]
          have hLess := hShort (by omega)
          have hRest := ih s' (index + k) (remain.drop k)
            (by omega)
          rcases hRest with ⟨hLeft, hOutcome⟩
          have hDrop : remain.drop k ≠ [] := by
            rw [Ne, List.drop_eq_nil_iff]
            omega
          have hNe : remain ≠ [] := by
            rintro rfl
            simp at hMore
          refine ⟨hLeft.trans hSuffix, ?_⟩
          rcases hOutcome with
            ⟨hData, hRc⟩ | ⟨hData, hRc, hFail⟩
          · left
            rw [if_neg hDrop, List.length_drop] at hRc
            rw [if_neg hNe]
            refine ⟨?_, hRc.trans (by congr 1; omega)⟩
            rw [WriteRun.data_push, hData,
              List.take_append_drop]
          · right
            refine ⟨?_, hRc, hFail.of_suffix hSuffix⟩
            rw [WriteRun.data_push]
            rcases hData with ⟨unsent, hUnsent⟩
            refine ⟨unsent, ?_⟩
            rw [List.append_assoc, hUnsent,
              List.take_append_drop]
        · rw [if_neg hMore]
          have hAll : k = remain.length := by omega
          refine ⟨hSuffix, Or.inl ⟨?_, ?_⟩⟩
          · simp [WriteRun.data, hAll]
          · by_cases hNil : remain = []
            · simp [hAll, hNil]
            · have hPos := List.length_pos_iff.mpr hNil
              rw [if_neg hNil, hAll, if_pos hPos]
      · simp only [hWrite]
        by_cases hIntr : e = EINTR
        · rw [if_pos hIntr]
          have hRest := ih s' index remain (by omega)
          rcases hRest with ⟨hLeft, hOutcome⟩
          refine ⟨hLeft.trans hSuffix, ?_⟩
          rcases hOutcome with hDone |
            ⟨hData, hRc, hFail⟩
          · exact Or.inl hDone
          · exact Or.inr
              ⟨hData, hRc, hFail.of_suffix hSuffix⟩
        · rw [if_neg hIntr]
          refine ⟨hSuffix, Or.inr ⟨?_, rfl, ?_⟩⟩
          · exact List.nil_prefix
          · exact ⟨_, hMem, hIntr⟩

/- All of the data is accepted, or the write fails. -/
theorem sbWriteLen_outcome
    (s : Sink)
    (data : List UInt8) :
    (sbWriteLen s data).data = data ∧
        (sbWriteLen s data).rc = data.length ∨
      (sbWriteLen s data).data <+: data ∧
        (sbWriteLen s data).rc = -1 ∧ s.MayFail := by
  have hOutcome :=
    (sbWriteLenLoop_outcome _ s 0 data
      (Nat.lt_succ_self _)).2
  rcases hOutcome with ⟨hData, hRc⟩ | hFailed
  · left
    refine ⟨hData, hRc.trans ?_⟩
    by_cases hNil : data = []
    · simp [hNil]
    · simp [hNil]
  · exact Or.inr hFailed

/- A reliable sink accepts everything. -/
theorem sbWriteLen_of_reliable
    {s : Sink}
    (data : List UInt8)
    (hReliable : s.Reliable) :
    (sbWriteLen s data).data = data ∧
      (sbWriteLen s data).rc = data.length := by
  rcases sbWriteLen_outcome s data with
    hDone | ⟨_, _, hFail⟩
  · exact hDone
  · exact absurd hFail hReliable.not_mayFail

end SmartSOCKSProxy
