import SmartSOCKSProxy.Logging.Runs

/-
  What byte_count says about the file.

  It counts what was written since the file was opened, and
  the offset of a file that was just opened is 0.  So it is
  the size of the file as long as no file with content is
  opened: neither one that was there before, nor one that a
  rotation did not rename.

  Key definitions include:
    * `LogState.uncounted`, `CountTracksFile`
    * `WritesComplete`, `OpensEmpty`

  Key theorems include:
    * `LogStep.countTracksFile`
    * `logRuns_countTracksFile_iff`
    * `logging_countTracksFile`, `logRuns_existingFile`
-/

namespace SmartSOCKSProxy

------------------------------------------------------------
-- The Count and the File
------------------------------------------------------------

def WriterPc.uncounted : WriterPc → Nat
  | .written buf => buf.length
  | _ => 0

/- The bytes that were written and are not counted yet. -/
def LogState.uncounted
    (s : LogState) : Nat :=
  match s.mutex with
  | some (.writer t) => (s.writers t).uncounted
  | _ => 0

/-
  The count of an open log is the size of its file, up to the
  message that the thread with the lock is about to count.
-/
def CountTracksFile
    (s : LogState) : Prop :=
  0 ≤ s.log.fd → ∃ inode,
    s.disk.fds s.log.fd = some (.log inode) ∧
      s.log.byteCount + s.uncounted =
        (s.disk.content inode).length

/- No write() ends early. -/
def WritesComplete
    (_ : LogState)
    (event : LogEvent) : Prop :=
  ∀ t count, event ≠ .writeFails t count

/- A file that is opened is new, or has no content. -/
def OpensEmpty
    (s : LogState)
    (event : LogEvent) : Prop :=
  ∀ t buf, event = .step (.writer t) →
    s.writers t = .locked buf → s.log.fd < 0 →
      s.disk.logContent = []

variable {s s' : LogState}
variable {t : Nat}
variable {buf : List UInt8}
variable {fd : Int}

theorem uncounted_of_writer
    (hHeld : s.mutex = some (.writer t)) :
    s.uncounted = (s.writers t).uncounted := by
  unfold LogState.uncounted
  rw [hHeld]

theorem uncounted_of_others
    (hOthers : s.mutex = none ∨ s.mutex = some .main) :
    s.uncounted = 0 := by
  unfold LogState.uncounted
  rcases hOthers with hFree | hHeld
  · rw [hFree]
  · rw [hHeld]

------------------------------------------------------------
-- Steps
------------------------------------------------------------

/- The log, its descriptor and the files stay as they are. -/
theorem CountTracksFile.congr
    (hTracks : CountTracksFile s)
    (hLog : s'.log = s.log)
    (hFds :
      s'.disk.fds s.log.fd = s.disk.fds s.log.fd)
    (hContent : s'.disk.content = s.disk.content)
    (hUncounted : s'.uncounted = s.uncounted) :
    CountTracksFile s' := by
  unfold CountTracksFile
  rw [hLog, hFds, hContent, hUncounted]
  exact hTracks

/- A closed log has no file that it must agree with. -/
theorem countTracksFile_of_closed
    (hClosed : s.log.fd < 0) :
    CountTracksFile s :=
  fun hOpen => absurd hOpen (not_le.mpr hClosed)

/- A file that is opened is to be empty, and needs to be. -/
theorem writerOpen_countTracksFile_iff
    (hKept : Descriptors s)
    (hLocked : s.writers t = .locked buf)
    (hClosed : s.log.fd < 0)
    (hFd : 0 ≤ fd) :
    CountTracksFile (s.writerOpen t buf fd) ↔
      s.disk.logContent = [] := by
  have hHeld := hKept.locking.held hLocked (by simp)
  rcases openLog_spec s.disk fd with
    ⟨inode, hFds, hContent⟩
  have hHere :
      (s.disk.openLog fd).fds fd = some (.log inode) := by
    rw [hFds, Function.update_self]
  have hUncounted :
      (s.writerOpen t buf fd).uncounted = 0 := by
    have hMutex :
        (s.writerOpen t buf fd).mutex = some (.writer t) :=
      hHeld
    rw [uncounted_of_writer hMutex]
    simp [LogState.writerOpen, LogState.setWriter,
      WriterPc.uncounted]
  have hOpened :
      logFileOpen s.log s.disk fd =
        ({ s.log with fd := fd, byteCount := 0 },
          s.disk.openLog fd) :=
    if_neg (not_le.mpr hClosed)
  have hLog :
      (s.writerOpen t buf fd).log =
        { s.log with fd := fd, byteCount := 0 } := by
    unfold LogState.writerOpen
    rw [hOpened]
  have hDisk :
      (s.writerOpen t buf fd).disk = s.disk.openLog fd := by
    unfold LogState.writerOpen
    rw [hOpened]
  unfold CountTracksFile
  rw [hLog, hDisk, hUncounted, hHere]
  constructor
  · intro hTracks
    rcases hTracks hFd with ⟨inode', hSame, hSize⟩
    cases hSame
    rw [hContent] at hSize
    simpa using hSize.symm
  · intro hEmpty _
    refine ⟨inode, rfl, ?_⟩
    rw [hContent, hEmpty]
    rfl

namespace CountTracksFile

theorem writerWrite
    (hTracks : CountTracksFile s)
    (hKept : Descriptors s)
    (hReady : s.writers t = .ready buf fd) :
    CountTracksFile (s.writerWrite t buf fd) := by
  have hHeld := hKept.locking.held hReady (by simp)
  rcases hKept.ready hReady with ⟨rfl, inode, hFd⟩
  rw [← writerWritePart_length, writerWritePart_spec hFd]
  intro hOpen
  rcases hTracks hOpen with ⟨inode', hFd', hSize⟩
  have hSame : inode' = inode := by
    rw [hFd] at hFd'
    cases hFd'
    rfl
  subst hSame
  refine ⟨inode', hFd, ?_⟩
  rw [uncounted_of_writer hHeld, hReady] at hSize
  simp only [WriterPc.uncounted] at hSize
  simp [LogState.uncounted, LogState.setWriter, hHeld,
    WriterPc.uncounted, ← hSize]

theorem writerUnlock
    (hTracks : CountTracksFile s)
    (hKept : Descriptors s)
    (hWritten : s.writers t = .written buf) :
    CountTracksFile (s.writerUnlock t buf) := by
  have hHeld := hKept.locking.held hWritten (by simp)
  intro hOpen
  rcases hTracks hOpen with ⟨inode, hFd, hSize⟩
  refine ⟨inode, hFd, ?_⟩
  rw [uncounted_of_writer hHeld, hWritten] at hSize
  rw [uncounted_of_others (Or.inl rfl)]
  simpa [LogState.writerUnlock, LogState.setWriter,
    WriterPc.uncounted] using hSize

/- Another descriptor gets another meaning. -/
theorem setFd
    (hTracks : CountTracksFile s)
    (hOther : 0 ≤ s.log.fd → fd ≠ s.log.fd)
    (file : Option OpenFile)
    (pc : RotatePc) :
    CountTracksFile
      { s with disk := s.disk.setFd fd file, main := pc } := by
  intro hOpen
  rcases hTracks hOpen with ⟨inode, hFd, hSize⟩
  refine ⟨inode, ?_, hSize⟩
  rw [← hFd]
  exact Function.update_of_ne (hOther hOpen).symm _ _

end CountTracksFile

/- Every step but the opening of a file with content. -/
theorem LogStep.countTracksFile
    {party : LogParty}
    (hKept : Descriptors s)
    (hTracks : CountTracksFile s)
    (hOpens : OpensEmpty s (.step party))
    (hStep : LogStep s party s') :
    CountTracksFile s' := by
  have hOthers :
      ∀ fd, ¬s.disk.IsLog fd → 0 ≤ s.log.fd →
        fd ≠ s.log.fd := by
    rintro fd hNot hOpen rfl
    exact hNot (hKept.current hOpen)
  cases hStep with
  | lock hIdle hFree =>
      refine hTracks.congr rfl rfl rfl ?_
      rw [uncounted_of_others (Or.inl hFree)]
      simp [LogState.writerLock, LogState.uncounted,
        LogState.setWriter, WriterPc.uncounted]
  | @openFile t buf fd hLocked hFresh =>
      rcases lt_or_ge s.log.fd 0 with hClosed | hOpen
      · exact (writerOpen_countTracksFile_iff hKept hLocked
          hClosed (hFresh hClosed).1).mpr
          (hOpens t buf rfl hLocked hClosed)
      · have hHeld := hKept.locking.held hLocked (by simp)
        have hSame :
            logFileOpen s.log s.disk fd = (s.log, s.disk) :=
          if_pos hOpen
        unfold LogState.writerOpen
        rw [hSame]
        refine hTracks.congr rfl rfl rfl ?_
        rw [uncounted_of_writer hHeld, hLocked]
        simp [LogState.uncounted, LogState.setWriter,
          WriterPc.uncounted, hHeld]
  | write hReady => exact hTracks.writerWrite hKept hReady
  | unlock hWritten =>
      exact hTracks.writerUnlock hKept hWritten
  | rotateLock hPc hFree =>
      refine hTracks.congr rfl rfl rfl ?_
      rw [uncounted_of_others (Or.inl hFree)]
      rfl
  | rotateRead hPc => exact hTracks.congr rfl rfl rfl rfl
  | rotateUnlock hPc =>
      have hHeld := hKept.locking.main.mpr (by rw [hPc]; rfl)
      refine hTracks.congr rfl rfl rfl ?_
      rw [uncounted_of_others (Or.inr hHeld)]
      rfl
  | keep hPc hSmall => exact hTracks.congr rfl rfl rfl rfl
  | rotate hPc hLarge => exact hTracks.congr rfl rfl rfl rfl
  | rename hPc => exact hTracks.congr rfl rfl rfl rfl
  | swapLock hPc hFree =>
      refine hTracks.congr rfl rfl rfl ?_
      rw [uncounted_of_others (Or.inl hFree)]
      rfl
  | swap hPc =>
      apply countTracksFile_of_closed
      simp [LogState.rotateSwap]
  | swapUnlock hPc =>
      have hHeld := hKept.locking.main.mpr (by rw [hPc]; rfl)
      refine hTracks.congr rfl rfl rfl ?_
      rw [uncounted_of_others (Or.inr hHeld)]
      rfl
  | @close fd hPc =>
      apply hTracks.setFd
      rintro hOpen rfl
      have hReleased := hKept.released s.log.fd
        (by rw [hPc]; rfl) hOpen
      exact hReleased.1 rfl
  | foreignOpen hFd hFresh =>
      exact hTracks.setFd
        (hOthers _ (by simp [Disk.IsLog, hFresh])) _ s.main
  | foreignClose hForeign =>
      exact hTracks.setFd
        (hOthers _ (by simp [Disk.IsLog, hForeign])) _ s.main

/- So it is with an open() that fails. -/
theorem LogMove.countTracksFile
    {event : LogEvent}
    (hKept : Descriptors s)
    (hTracks : CountTracksFile s)
    (hComplete : WritesComplete s event)
    (hOpens : OpensEmpty s event)
    (hMove : LogMove s event s') :
    CountTracksFile s' := by
  cases hMove with
  | step hAlive hStep =>
      exact hStep.countTracksFile hKept hTracks hOpens
  | openFails hLocked hClosed =>
      exact countTracksFile_of_closed hClosed
  | @writeFails t count => exact absurd rfl (hComplete t count)

/- And a file with content that is opened is miscounted. -/
theorem LogMove.opensEmpty
    {event : LogEvent}
    (hKept : Descriptors s)
    (hTracks' : CountTracksFile s')
    (hMove : LogMove s event s') :
    OpensEmpty s event := by
  rintro t buf rfl hLocked hClosed
  cases hMove with
  | step hAlive hStep =>
      cases hStep with
      | lock hIdle hFree =>
          rw [hLocked] at hIdle
          contradiction
      | openFile hLocked' hFresh =>
          exact (writerOpen_countTracksFile_iff hKept hLocked'
            hClosed (hFresh hClosed).1).mp hTracks'
      | write hReady =>
          rw [hLocked] at hReady
          contradiction
      | unlock hWritten =>
          rw [hLocked] at hWritten
          contradiction

------------------------------------------------------------
-- Runs
------------------------------------------------------------

/-
  In every run in which no file with content is opened, the
  count is the size of the file.  The opening of a file with
  content is the one step after which it is not.
-/
theorem logRuns_countTracksFile_iff
    {byteCountMax fileRotateCount : Int}
    {s : LogState}
    (hReach :
      (((logRuns byteCountMax fileRotateCount).only
        WritesComplete).only OpensEmpty).Reachable s) :
    CountTracksFile s ∧
      ∀ event s',
        ((logRuns byteCountMax fileRotateCount).only
          WritesComplete).step s event s' →
        (CountTracksFile s' ↔ OpensEmpty s event) := by
  have hRuns : Descriptors s :=
    logRuns_descriptors hReach.of_only.of_only
  have hTracks : CountTracksFile s := by
    apply hReach.invariant
    · rintro _ ⟨disk, _, rfl⟩
      exact countTracksFile_of_closed (by simp [newLogState])
    · rintro s event s' hHere hTracks
        ⟨hOpens, hComplete, hMove⟩
      exact hMove.countTracksFile
        (logRuns_descriptors hHere.of_only.of_only)
        hTracks hComplete hOpens
  refine ⟨hTracks, ?_⟩
  rintro event s' ⟨hComplete, hMove⟩
  constructor
  · intro hTracks'
    exact hMove.opensEmpty hRuns hTracks'
  · intro hOpens
    exact hMove.countTracksFile hRuns hTracks hComplete hOpens

/- A message in a new file. -/
theorem logRuns_countTracksFile_new :
    ∃ s : LogState,
      s.log.fd = 3 ∧ s.log.byteCount = 1 ∧
        CountTracksFile s := by
  let disk : Disk :=
    ⟨fun _ => none, fun _ => [], 0, fun _ => none⟩
  let runs :=
    ((logRuns 100 4).only WritesComplete).only OpensEmpty
  let s₀ := newLogState 100 4 disk
  let s₁ := s₀.writerLock 0 [97]
  let s₂ := s₁.writerOpen 0 [97] 3
  let s₃ := s₂.writerWrite 0 [97] 3
  have h₀ : runs.Reachable s₀ :=
    .start ⟨disk, fun _ _ => rfl, rfl⟩
  have h₁ : runs.Reachable s₁ :=
    h₀.step (i := .step (.writer 0))
      ⟨nofun, nofun, .step nofun (.lock rfl rfl)⟩
  have h₂ : runs.Reachable s₂ :=
    h₁.step (i := .step (.writer 0))
      ⟨fun _ _ _ _ _ => rfl, nofun, .step nofun
        (.openFile rfl fun _ => ⟨by decide, rfl⟩)⟩
  have h₃ : runs.Reachable s₃ :=
    h₂.step (i := .step (.writer 0))
      ⟨nofun, nofun, .step nofun (.write rfl)⟩
  have h₄ : runs.Reachable (s₃.writerUnlock 0 [97]) :=
    h₃.step (i := .step (.writer 0))
      ⟨nofun, nofun, .step nofun (.unlock rfl)⟩
  exact ⟨_, rfl, rfl, (logRuns_countTracksFile_iff h₄).1⟩

/-
  A log that starts without files, and whose rotation renames
  the file, never opens one with content.
-/
theorem logging_countTracksFile
    {byteCountMax fileRotateCount : Int}
    (hMax : 1 ≤ byteCountMax)
    (hRenames : renameCount fileRotateCount ≠ 0)
    {s : LogState}
    (hReach :
      (logging byteCountMax fileRotateCount).Reachable s) :
    CountTracksFile s := by
  have hAll :
      WellLogged byteCountMax (renameCount fileRotateCount)
          s ∧
        Descriptors s ∧ CountTracksFile s := by
    apply hReach.invariant
    · rintro _ ⟨disk, hNone, rfl⟩
      exact ⟨newLogState_wellLogged _ _ hNone,
        newLogState_descriptors _ _ disk,
        countTracksFile_of_closed (by simp [newLogState])⟩
    · rintro s party s' _ ⟨hWell, hKept, hTracks⟩ hStep
      refine ⟨hStep.wellLogged hMax hWell,
        hStep.descriptors hKept,
        hStep.countTracksFile hKept hTracks ?_⟩
      intro t buf _ _ hClosed
      have hFree : s.disk.dir 0 = none :=
        (hWell.files.closed hClosed).1.resolve_right hRenames
      simp [Disk.logContent, hFree]
  exact hAll.2.2

/-
  One byte is in the file when the process starts, and none is
  counted.
-/
theorem logRuns_existingFile :
    ¬ ∀ (byteCountMax fileRotateCount : Int) (s : LogState),
      ((logRuns byteCountMax fileRotateCount).only
        WritesComplete).Reachable s → CountTracksFile s := by
  intro hAll
  let disk : Disk :=
    ⟨fun _ => some 0, fun _ => [97], 1, fun _ => none⟩
  let runs := (logRuns 100 4).only WritesComplete
  let s₀ := newLogState 100 4 disk
  let s₁ := s₀.writerLock 0 [98]
  have h₀ : runs.Reachable s₀ :=
    .start ⟨disk, fun _ _ => rfl, rfl⟩
  have h₁ : runs.Reachable s₁ :=
    h₀.step (i := .step (.writer 0))
      ⟨nofun, .step nofun (.lock rfl rfl)⟩
  have h₂ : runs.Reachable (s₁.writerOpen 0 [98] 3) :=
    h₁.step (i := .step (.writer 0)) ⟨nofun, .step nofun
      (.openFile rfl fun _ => ⟨by decide, rfl⟩)⟩
  rcases hAll 100 4 _ h₂ (by decide) with
    ⟨inode, hFd, hSize⟩
  cases hFd
  exact absurd hSize (by decide)

end SmartSOCKSProxy
