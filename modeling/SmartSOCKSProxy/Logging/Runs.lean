import SmartSOCKSProxy.Logging.Rotation

/-
  Runs of a log file on any disk, with calls that fail.

  The file may be there from an earlier process, and rotation
  may be set to rename nothing.  open() may fail, write() may
  end early, and the process ends when close() fails.

  Key definitions include:
    * `LogEvent`, `LogMove`, `logRuns`
    * `Disk.IsLog`, `RotatePc.released`, `Descriptors`

  Key theorems include:
    * `LogMove.locking`
    * `LogMove.descriptors`, `logRuns_descriptors`
-/

namespace SmartSOCKSProxy

------------------------------------------------------------
-- Calls That Fail
------------------------------------------------------------

namespace LogState

/- The file is not open, and the message is dropped. -/
def writerDrop
    (s : LogState)
    (t : Nat) : LogState :=
  { s.setWriter t .idle with mutex := none }

/- write() ends after so many bytes, or fails at once. -/
def writerWritePart
    (s : LogState)
    (t : Nat)
    (buf : List UInt8)
    (fd : Int)
    (count : Nat) : LogState :=
  (s.writerWrite t (buf.take count) fd).setWriter t
    (.written buf)

end LogState

/- A step as planned, or one in which a call fails. -/
inductive LogEvent where
| step (party : LogParty)
| openFails (t : Nat)
| writeFails (t count : Nat)
deriving DecidableEq, Repr

/-
  A failed open() leaves the file closed; after a failed
  write() the whole message is counted.  When close() fails
  the process exits, so the main thread makes no step then.
-/
inductive LogMove :
    LogState → LogEvent → LogState → Prop
| step
    {s s' : LogState}
    {party : LogParty}
    (hAlive :
      ∀ fd, party = .main → s.main = .closing fd →
        s.disk.fds fd ≠ none)
    (hStep : LogStep s party s') :
    LogMove s (.step party) s'
| openFails
    {s : LogState}
    {t : Nat}
    {buf : List UInt8}
    (hLocked : s.writers t = .locked buf)
    (hClosed : s.log.fd < 0) :
    LogMove s (.openFails t) (s.writerDrop t)
| writeFails
    {s : LogState}
    {t count : Nat}
    {buf : List UInt8}
    {fd : Int}
    (hReady : s.writers t = .ready buf fd)
    (hShort : count < buf.length) :
    LogMove s (.writeFails t count)
      (s.writerWritePart t buf fd count)

/-
  All runs with the limits of a configuration, from any files.
  No descriptor below 0 is open.
-/
def logRuns
    (byteCountMax fileRotateCount : Int) :
    Transition LogState LogEvent where
  start := fun s => ∃ disk : Disk,
    (∀ fd < 0, disk.fds fd = none) ∧
      s = newLogState byteCountMax fileRotateCount disk
  step := LogMove

------------------------------------------------------------
-- The Lock
------------------------------------------------------------

/- A write moves its thread on, and leaves the others. -/
theorem writerWritePart_frame
    (s : LogState)
    (t : Nat)
    (buf : List UInt8)
    (fd : Int)
    (count : Nat) :
    (s.writerWritePart t buf fd count).mutex = s.mutex ∧
      (s.writerWritePart t buf fd count).writers =
        (s.setWriter t (.written buf)).writers ∧
      (s.writerWritePart t buf fd count).main = s.main := by
  unfold LogState.writerWritePart LogState.writerWrite
  cases s.disk.write fd (buf.take count) <;>
    simp [LogState.setWriter]

theorem LogMove.locking
    {s s' : LogState}
    {event : LogEvent}
    (hLocking : Locking s)
    (hMove : LogMove s event s') :
    Locking s' := by
  cases hMove with
  | step hAlive hStep => exact hStep.locking hLocking
  | openFails hLocked hClosed =>
      exact hLocking.release
        (hLocking.held hLocked (by simp))
  | @writeFails t count buf fd hReady hShort =>
      have hHeld := hLocking.held hReady (by simp)
      have hNext := hLocking.setWriter hHeld
        (show WriterPc.written buf ≠ .idle by simp)
      rcases writerWritePart_frame s t buf fd count with
        ⟨hMutex, hWriters, hMain⟩
      exact hNext.moveMain hMutex hWriters (by rw [hMain]; rfl)

------------------------------------------------------------
-- The Descriptor
------------------------------------------------------------

/- A descriptor that is open on a log file. -/
def Disk.IsLog
    (disk : Disk)
    (fd : Int) : Prop :=
  ∃ inode, disk.fds fd = some (.log inode)

/- The descriptor that the main thread has taken away. -/
def RotatePc.released : RotatePc → Option Int
  | .swapped fd => some fd
  | .closing fd => some fd
  | _ => none

/-
  The descriptor of the log is open on a log file, and so is
  the one that the main thread is about to close, which is
  another one.  A writer uses that of the log.
-/
structure Descriptors
    (s : LogState) : Prop where
  locking : Locking s
  current : 0 ≤ s.log.fd → s.disk.IsLog s.log.fd
  released : ∀ fd, s.main.released = some fd → 0 ≤ fd →
    fd ≠ s.log.fd ∧ s.disk.IsLog fd
  writer : ∀ t, (s.writers t).Fits s.log

/- The content of a file that is opened now. -/
def Disk.logContent
    (disk : Disk) : List UInt8 :=
  (disk.dir 0).elim [] disk.content

/- What open() does to the descriptors and the files. -/
theorem openLog_spec
    (disk : Disk)
    (fd : Int) :
    ∃ inode,
      (disk.openLog fd).fds =
          Function.update disk.fds fd (some (.log inode)) ∧
        (disk.openLog fd).content inode =
          disk.logContent := by
  unfold Disk.openLog Disk.logContent
  cases disk.dir 0 with
  | none => exact ⟨disk.inodes, rfl, by simp⟩
  | some inode => exact ⟨inode, rfl, rfl⟩

/- What write() does to the file of its descriptor. -/
theorem writerWritePart_spec
    {s : LogState}
    {t : Nat}
    {fd : Int}
    {inode : Nat}
    (hFd : s.disk.fds fd = some (.log inode))
    {buf : List UInt8}
    {count : Nat} :
    s.writerWritePart t buf fd count =
      { s.setWriter t (.written buf) with
        disk :=
          { s.disk with
            content :=
              Function.update s.disk.content inode
                (s.disk.content inode ++ buf.take count) }
        written := s.written ++ [buf.take count] } := by
  unfold LogState.writerWritePart LogState.writerWrite
    Disk.write
  rw [hFd]
  simp [LogState.setWriter]

/- A whole message is a part, too. -/
theorem writerWritePart_length
    {s : LogState}
    {t : Nat}
    {buf : List UInt8}
    {fd : Int} :
    s.writerWritePart t buf fd buf.length =
      s.writerWrite t buf fd := by
  unfold LogState.writerWritePart LogState.writerWrite
  rw [List.take_length]
  cases s.disk.write fd buf <;> simp [LogState.setWriter]

namespace Descriptors

variable {s s' : LogState}
variable {t : Nat}
variable {buf : List UInt8}
variable {fd : Int}

/- The descriptor that a writer is about to use. -/
theorem ready
    (hKept : Descriptors s)
    (hReady : s.writers t = .ready buf fd) :
    fd = s.log.fd ∧ s.disk.IsLog s.log.fd := by
  have hFits := hKept.writer t
  rw [hReady] at hFits
  exact ⟨hFits.1, hKept.current hFits.2⟩

/- Only the places of the threads change. -/
theorem congr
    (hKept : Descriptors s)
    (hLocking : Locking s')
    (hFd : s'.log.fd = s.log.fd)
    (hFds : s'.disk.fds = s.disk.fds)
    (hReleased :
      s'.main.released = none ∨
        s'.main.released = s.main.released)
    (hWriter : ∀ t, (s'.writers t).Fits s.log) :
    Descriptors s' where
  locking := hLocking
  current := by
    unfold Disk.IsLog
    rw [hFd, hFds]
    exact hKept.current
  released := by
    unfold Disk.IsLog
    intro fd hSome
    rw [hFd, hFds]
    rcases hReleased with hNone | hSame
    · rw [hNone] at hSome
      contradiction
    · exact hKept.released fd (hSame ▸ hSome)
  writer := by
    intro t
    have hFits := hWriter t
    cases hPc : s'.writers t with
    | idle => trivial
    | locked buf => trivial
    | ready buf fd =>
        rw [hPc] at hFits
        unfold WriterPc.Fits
        rw [hFd]
        exact hFits
    | written buf =>
        rw [hPc] at hFits
        unfold WriterPc.Fits
        rw [hFd]
        exact hFits

/- The main thread moves, and the writers do not. -/
theorem moveMain
    (hKept : Descriptors s)
    (hLocking : Locking s')
    (hFd : s'.log.fd = s.log.fd)
    (hFds : s'.disk.fds = s.disk.fds)
    (hWriters : s'.writers = s.writers)
    (hReleased :
      s'.main.released = none ∨
        s'.main.released = s.main.released) :
    Descriptors s' :=
  hKept.congr hLocking hFd hFds hReleased
    fun t => by rw [hWriters]; exact hKept.writer t

/- A descriptor with another meaning is opened or closed. -/
theorem setFd
    (hKept : Descriptors s)
    (hOther : ¬s.disk.IsLog fd)
    (file : Option OpenFile) :
    Descriptors { s with disk := s.disk.setFd fd file } := by
  have hLog :
      ∀ fd', s.disk.IsLog fd' →
        (s.disk.setFd fd file).IsLog fd' := by
    rintro fd' ⟨inode, hFd'⟩
    have hNe : fd' ≠ fd := by
      rintro rfl
      exact hOther ⟨inode, hFd'⟩
    exact ⟨inode,
      (Function.update_of_ne hNe _ _).trans hFd'⟩
  refine ⟨hKept.locking.moveMain rfl rfl rfl, ?_, ?_,
    hKept.writer⟩
  · exact fun hOpen => hLog _ (hKept.current hOpen)
  · intro fd' hSome hFd'
    rcases hKept.released fd' hSome hFd' with ⟨hNe, hOpen⟩
    exact ⟨hNe, hLog fd' hOpen⟩

/- A writer that is inside is the only one. -/
theorem others
    (hKept : Descriptors s)
    (hInside : s.writers t ≠ .idle)
    {t' : Nat}
    (hNe : t' ≠ t) :
    s.writers t' = .idle := by
  apply hKept.locking.idle
  rw [(hKept.locking.writer t).mpr hInside]
  simp [Ne.symm hNe]

theorem writerOpen
    (hKept : Descriptors s)
    (hLocked : s.writers t = .locked buf)
    (hFresh :
      s.log.fd < 0 → 0 ≤ fd ∧ s.disk.fds fd = none) :
    Descriptors (s.writerOpen t buf fd) := by
  have hLocking :=
    LogStep.locking hKept.locking (.openFile hLocked hFresh)
  rcases lt_or_ge s.log.fd 0 with hClosed | hOpen
  · rcases hFresh hClosed with ⟨hFd, hNone⟩
    rcases openLog_spec s.disk fd with ⟨inode, hFds, _⟩
    have hOpened :
        logFileOpen s.log s.disk fd =
          ({ s.log with fd := fd, byteCount := 0 },
            s.disk.openLog fd) :=
      if_neg (not_le.mpr hClosed)
    unfold LogState.writerOpen at hLocking ⊢
    rw [hOpened] at hLocking ⊢
    refine ⟨hLocking, ?_, ?_, ?_⟩
    · intro _
      exact ⟨inode, by simp [hFds]⟩
    · intro fd' hSome hFd'
      rcases hKept.released fd' hSome hFd' with
        ⟨_, inode', hLog⟩
      have hNe : fd' ≠ fd := by
        rintro rfl
        rw [hNone] at hLog
        contradiction
      refine ⟨hNe, inode', ?_⟩
      dsimp only
      rw [hFds, Function.update_of_ne hNe]
      exact hLog
    · apply WellLogged.writer_update
      · intro t' hNe
        rw [hKept.others (by simp [hLocked]) hNe]
        trivial
      · exact ⟨rfl, hFd⟩
  · have hSame :
        logFileOpen s.log s.disk fd = (s.log, s.disk) :=
      if_pos hOpen
    unfold LogState.writerOpen at hLocking ⊢
    rw [hSame] at hLocking ⊢
    exact hKept.congr hLocking rfl rfl (.inr rfl)
      (WellLogged.writer_update
        (fun t' _ => hKept.writer t') ⟨rfl, hOpen⟩)

/- A message of which some or all is written. -/
theorem writerWritePart
    (hKept : Descriptors s)
    (hReady : s.writers t = .ready buf fd)
    (count : Nat) :
    Descriptors (s.writerWritePart t buf fd count) := by
  have hHeld :=
    hKept.locking.held hReady (by simp)
  have hOpen := (hKept.writer t)
  rw [hReady] at hOpen
  rcases hKept.ready hReady with ⟨rfl, inode, hFd⟩
  have hNext := hKept.locking.setWriter hHeld
    (show WriterPc.written buf ≠ .idle by simp)
  rw [writerWritePart_spec hFd]
  exact hKept.congr ⟨hNext.main, hNext.writer⟩ rfl rfl
    (.inr rfl)
    (WellLogged.writer_update
      (fun t' _ => hKept.writer t') hOpen.2)

/- A writer leaves, and nobody else is inside. -/
theorem leave
    (hKept : Descriptors s)
    (hInside : s.writers t ≠ .idle)
    (hLocking : Locking s')
    (hFd : s'.log.fd = s.log.fd)
    (hFds : s'.disk.fds = s.disk.fds)
    (hMain : s'.main = s.main)
    (hWriters :
      s'.writers = Function.update s.writers t .idle) :
    Descriptors s' := by
  apply hKept.congr hLocking hFd hFds (.inr (by rw [hMain]))
  intro t'
  rw [hWriters]
  by_cases hSame : t' = t
  · subst hSame
    rw [Function.update_self]
    trivial
  · rw [Function.update_of_ne hSame,
      hKept.others hInside hSame]
    trivial

/- The main thread takes the descriptor away. -/
theorem rotateSwap
    (hKept : Descriptors s)
    (hPc : s.main = .swapping) :
    Descriptors s.rotateSwap := by
  have hHeld : s.mutex = some .main :=
    hKept.locking.main.mpr (by rw [hPc]; rfl)
  have hClosed : s.rotateSwap.log.fd = -1 := rfl
  refine ⟨hKept.locking.moveMain rfl rfl (by rw [hPc]; rfl),
    ?_, ?_, ?_⟩
  · intro hOpen
    rw [hClosed] at hOpen
    omega
  · intro fd hSome hFd
    have hSame : fd = s.log.fd :=
      (Option.some.inj hSome).symm
    subst hSame
    rw [hClosed]
    exact ⟨by omega, hKept.current hFd⟩
  · intro t'
    have hIdle : s.writers t' = .idle :=
      hKept.locking.idle (by simp [hHeld])
    simp only [LogState.rotateSwap, hIdle]
    trivial

/- The main thread closes it. -/
theorem close
    (hKept : Descriptors s)
    (hPc : s.main = .closing fd) :
    Descriptors
      { s with
        disk := s.disk.setFd fd none
        main := .idle } := by
  refine ⟨hKept.locking.moveMain rfl rfl (by rw [hPc]; rfl),
    ?_, by simp [RotatePc.released], hKept.writer⟩
  intro hOpen
  rcases hKept.current hOpen with ⟨inode, hFd⟩
  have hNe : s.log.fd ≠ fd := by
    rintro rfl
    have hReleased := hKept.released s.log.fd
      (by rw [hPc]; rfl) hOpen
    exact hReleased.1 rfl
  exact ⟨inode, (Function.update_of_ne hNe _ _).trans hFd⟩

end Descriptors

theorem LogStep.descriptors
    {s s' : LogState}
    {party : LogParty}
    (hKept : Descriptors s)
    (hStep : LogStep s party s') :
    Descriptors s' := by
  have hLocking := LogStep.locking hKept.locking hStep
  cases hStep with
  | lock hIdle hFree =>
      exact hKept.congr hLocking rfl rfl (.inr rfl)
        (WellLogged.writer_update
          (fun t' _ => hKept.writer t') trivial)
  | openFile hLocked hFresh =>
      exact hKept.writerOpen hLocked hFresh
  | @write t buf fd hReady =>
      rw [← writerWritePart_length]
      exact hKept.writerWritePart hReady buf.length
  | unlock hWritten =>
      exact hKept.leave (by simp [hWritten]) hLocking rfl rfl
        rfl rfl
  | rotateLock hPc hFree =>
      exact hKept.moveMain hLocking rfl rfl rfl (.inl rfl)
  | rotateRead hPc =>
      exact hKept.moveMain hLocking rfl rfl rfl (.inl rfl)
  | rotateUnlock hPc =>
      exact hKept.moveMain hLocking rfl rfl rfl (.inl rfl)
  | keep hPc hSmall =>
      exact hKept.moveMain hLocking rfl rfl rfl (.inl rfl)
  | rotate hPc hLarge =>
      exact hKept.moveMain hLocking rfl rfl rfl (.inl rfl)
  | rename hPc =>
      exact hKept.moveMain hLocking rfl rfl rfl (.inl rfl)
  | swapLock hPc hFree =>
      exact hKept.moveMain hLocking rfl rfl rfl (.inl rfl)
  | swap hPc => exact hKept.rotateSwap hPc
  | swapUnlock hPc =>
      exact hKept.moveMain hLocking rfl rfl rfl
        (.inr (by rw [hPc]; rfl))
  | close hPc => exact hKept.close hPc
  | foreignOpen hFd hFresh =>
      exact hKept.setFd (by simp [Disk.IsLog, hFresh]) _
  | foreignClose hForeign =>
      exact hKept.setFd (by simp [Disk.IsLog, hForeign]) _

theorem LogMove.descriptors
    {s s' : LogState}
    {event : LogEvent}
    (hKept : Descriptors s)
    (hMove : LogMove s event s') :
    Descriptors s' := by
  have hLocking := hMove.locking hKept.locking
  cases hMove with
  | step hAlive hStep => exact hStep.descriptors hKept
  | openFails hLocked hClosed =>
      exact hKept.leave (by simp [hLocked]) hLocking rfl rfl
        rfl rfl
  | writeFails hReady hShort =>
      exact hKept.writerWritePart hReady _

theorem newLogState_descriptors
    (byteCountMax fileRotateCount : Int)
    (disk : Disk) :
    Descriptors
      (newLogState byteCountMax fileRotateCount disk) := by
  refine ⟨newLogState_locking _ _ _, ?_, ?_,
    fun _ => trivial⟩
  · intro hOpen
    exact absurd hOpen (by simp [newLogState])
  · intro fd hSome
    exact absurd hSome (by
      simp [newLogState, RotatePc.released])

/- In every run, whatever the limits and the files are. -/
theorem logRuns_descriptors
    {byteCountMax fileRotateCount : Int}
    {s : LogState}
    (hReach :
      (logRuns byteCountMax fileRotateCount).Reachable s) :
    Descriptors s := by
  apply hReach.invariant
  · rintro _ ⟨disk, _, rfl⟩
    exact newLogState_descriptors _ _ disk
  · intro s event s' _ hHere hMove
    exact hMove.descriptors hHere

end SmartSOCKSProxy
