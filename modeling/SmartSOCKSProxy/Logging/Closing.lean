import SmartSOCKSProxy.Config.Settings
import SmartSOCKSProxy.Logging.Runs

/-
  Rotation closes what is open.

  A file that is closed has a count of 0, so a rotation begins
  with an open file when the limit is positive.  With a limit
  of 0 or less the first rotation takes place before the file
  is opened, and close(-1) ends the process.

  Key definitions include:
    * `ClosesOpen`
    * `RotatePc.Open`, `Rotating`

  Key theorems include:
    * `LogStep.rotating`
    * `logRuns_closesOpen_iff`
    * `logRuns_limitZero`
-/

namespace SmartSOCKSProxy

------------------------------------------------------------
-- Open Files
------------------------------------------------------------

/- What is about to be closed is open. -/
def ClosesOpen
    (s : LogState) : Prop :=
  ∀ fd, s.main = .closing fd → s.disk.fds fd ≠ none

/- A file that was counted is open until it is taken away. -/
def RotatePc.Open
    (log : LogFile) : RotatePc → Prop
  | .sized size => 0 < size → 0 ≤ log.fd
  | .compare size => 0 < size → 0 ≤ log.fd
  | .renames _ => 0 ≤ log.fd
  | .swapping => 0 ≤ log.fd
  | .swapped fd => 0 ≤ fd
  | .closing fd => 0 ≤ fd
  | _ => True

structure Rotating
    (byteCountMax : Int)
    (s : LogState) : Prop where
  limit : s.log.byteCountMax = byteCountMax
  closed : s.log.fd < 0 → s.log.byteCount = 0
  main : s.main.Open s.log

namespace Rotating

variable {byteCountMax : Int}
variable {s s' : LogState}

/- A writer moves, and leaves an open file open. -/
theorem writer
    (hRotating : Rotating byteCountMax s)
    (hLimit : s'.log.byteCountMax = s.log.byteCountMax)
    (hMain : s'.main = s.main)
    (hOpen : 0 ≤ s.log.fd → 0 ≤ s'.log.fd)
    (hClosed : s'.log.fd < 0 → s'.log.byteCount = 0) :
    Rotating byteCountMax s' := by
  refine ⟨hLimit.trans hRotating.limit, hClosed, ?_⟩
  have hHere := hRotating.main
  rw [hMain]
  cases hPc : s.main with
  | idle => trivial
  | sizing => trivial
  | sized size =>
      rw [hPc] at hHere
      exact fun hCounted => hOpen (hHere hCounted)
  | compare size =>
      rw [hPc] at hHere
      exact fun hCounted => hOpen (hHere hCounted)
  | renames left =>
      rw [hPc] at hHere
      exact hOpen hHere
  | swapping =>
      rw [hPc] at hHere
      exact hOpen hHere
  | swapped fd =>
      rw [hPc] at hHere
      exact hHere
  | closing fd =>
      rw [hPc] at hHere
      exact hHere

/- The log stays as it is. -/
theorem congr
    (hRotating : Rotating byteCountMax s)
    (hLog : s'.log = s.log)
    (hMain : s'.main.Open s.log) :
    Rotating byteCountMax s' where
  limit := by rw [hLog]; exact hRotating.limit
  closed := by rw [hLog]; exact hRotating.closed
  main := by rw [hLog]; exact hMain

/- The descriptor that is about to be closed is open. -/
theorem closesOpen
    (hRotating : Rotating byteCountMax s)
    (hKept : Descriptors s) :
    ClosesOpen s := by
  intro fd hPc
  have hOpen := hRotating.main
  rw [hPc] at hOpen
  have hReleased :=
    hKept.released fd (by rw [hPc]; rfl) hOpen
  rcases hReleased.2 with ⟨inode, hFd⟩
  rw [hFd]
  simp

end Rotating

------------------------------------------------------------
-- Steps
------------------------------------------------------------

/- An open() leaves the log open. -/
theorem logFileOpen_open
    {log : LogFile}
    {disk : Disk}
    {fd : Int}
    (hFresh : log.fd < 0 → 0 ≤ fd) :
    0 ≤ (logFileOpen log disk fd).1.fd := by
  unfold logFileOpen
  split_ifs with hOpen
  · exact hOpen
  · exact hFresh (not_le.mp hOpen)

theorem LogStep.rotating
    {byteCountMax : Int}
    (hMax : 1 ≤ byteCountMax)
    {s s' : LogState}
    {party : LogParty}
    (hKept : Descriptors s)
    (hRotating : Rotating byteCountMax s)
    (hStep : LogStep s party s') :
    Rotating byteCountMax s' := by
  have hMain := hRotating.main
  cases hStep with
  | lock hIdle hFree => exact hRotating.congr rfl hMain
  | @openFile t buf fd hLocked hFresh =>
      have hOpen : 0 ≤ (s.writerOpen t buf fd).log.fd :=
        logFileOpen_open fun hClosed => (hFresh hClosed).1
      refine hRotating.writer ?_ rfl (fun _ => hOpen)
        (fun hClosed => absurd hOpen (not_le.mpr hClosed))
      unfold LogState.writerOpen logFileOpen
      split_ifs <;> rfl
  | @write t buf fd hReady =>
      rcases hKept.ready hReady with ⟨rfl, inode, hFd⟩
      rw [← writerWritePart_length, writerWritePart_spec hFd]
      exact hRotating.congr rfl hMain
  | @unlock t buf hWritten =>
      have hOpen := hKept.writer t
      rw [hWritten] at hOpen
      exact hRotating.writer rfl rfl id
        fun hClosed => absurd hOpen (not_le.mpr hClosed)
  | rotateLock hPc hFree =>
      exact hRotating.congr rfl trivial
  | rotateRead hPc =>
      refine hRotating.congr rfl ?_
      intro hCounted
      by_contra hClosed
      have hZero := hRotating.closed (not_le.mp hClosed)
      omega
  | rotateUnlock hPc =>
      rw [hPc] at hMain
      exact hRotating.congr rfl hMain
  | keep hPc hSmall => exact hRotating.congr rfl trivial
  | rotate hPc hLarge =>
      rw [hPc] at hMain
      rw [hRotating.limit] at hLarge
      exact hRotating.congr rfl (hMain (by omega))
  | rename hPc =>
      rw [hPc] at hMain
      exact hRotating.congr rfl hMain
  | swapLock hPc hFree =>
      rw [hPc] at hMain
      exact hRotating.congr rfl hMain
  | swap hPc =>
      rw [hPc] at hMain
      exact ⟨hRotating.limit, fun _ => rfl, hMain⟩
  | swapUnlock hPc =>
      rw [hPc] at hMain
      exact hRotating.congr rfl hMain
  | close hPc => exact hRotating.congr rfl trivial
  | foreignOpen hFd hFresh =>
      exact hRotating.congr rfl hMain
  | foreignClose hForeign =>
      exact hRotating.congr rfl hMain

theorem LogMove.rotating
    {byteCountMax : Int}
    (hMax : 1 ≤ byteCountMax)
    {s s' : LogState}
    {event : LogEvent}
    (hKept : Descriptors s)
    (hRotating : Rotating byteCountMax s)
    (hMove : LogMove s event s') :
    Rotating byteCountMax s' := by
  cases hMove with
  | step hAlive hStep =>
      exact hStep.rotating hMax hKept hRotating
  | openFails hLocked hClosed =>
      exact hRotating.congr rfl hRotating.main
  | writeFails hReady hShort =>
      rcases hKept.ready hReady with ⟨rfl, inode, hFd⟩
      rw [writerWritePart_spec hFd]
      exact hRotating.congr rfl hRotating.main

------------------------------------------------------------
-- Runs
------------------------------------------------------------

section Runs

variable {byteCountMax fileRotateCount : Int}

/- The main thread gets through its renames. -/
theorem reachable_renames
    {s : LogState}
    {left : Nat}
    (hReach :
      (logRuns byteCountMax fileRotateCount).Reachable
        { s with main := .renames left }) :
    ∃ disk : Disk, disk.fds = s.disk.fds ∧
      (logRuns byteCountMax fileRotateCount).Reachable
        { s with disk := disk, main := .renames 0 } := by
  induction left generalizing s with
  | zero => exact ⟨s.disk, rfl, hReach⟩
  | succ left ih =>
      let s' : LogState :=
        { s with disk := s.disk.rename left }
      have hRenamed :
          (logRuns byteCountMax fileRotateCount).Reachable
            { s' with main := .renames left } :=
        hReach.step (i := .step .main)
          (.step nofun (.rename rfl))
      rcases ih hRenamed with ⟨disk, hFds, hHere⟩
      exact ⟨disk, hFds, hHere⟩

/-
  Before anything is written, the count is not below the limit,
  and the descriptor -1 is closed.
-/
theorem reachable_closesClosed
    (hMax : byteCountMax ≤ 0) :
    ∃ s, (logRuns byteCountMax fileRotateCount).Reachable s ∧
      ¬ClosesOpen s := by
  let disk : Disk :=
    ⟨fun _ => none, fun _ => [], 0, fun _ => none⟩
  let runs := logRuns byteCountMax fileRotateCount
  let s := newLogState byteCountMax fileRotateCount disk
  have hStart : runs.Reachable s :=
    .start ⟨disk, fun _ _ => rfl, rfl⟩
  have hSizing : runs.Reachable
      { s with mutex := some .main, main := .sizing } :=
    hStart.step (i := .step .main)
      (.step nofun (.rotateLock rfl rfl))
  have hSized : runs.Reachable
      { s with mutex := some .main, main := .sized 0 } :=
    hSizing.step (i := .step .main)
      (.step nofun (.rotateRead rfl))
  have hCompare : runs.Reachable
      { s with main := .compare 0 } :=
    hSized.step (i := .step .main)
      (.step nofun (.rotateUnlock rfl))
  have hRotate : runs.Reachable
      { s with
        main := .renames (renameCount fileRotateCount) } :=
    hCompare.step (i := .step .main)
      (.step nofun (.rotate rfl hMax))
  rcases reachable_renames hRotate with
    ⟨disk', hFds, hRenamed⟩
  have hSwapping : runs.Reachable
      { s with
        disk := disk'
        mutex := some .main
        main := .swapping } :=
    hRenamed.step (i := .step .main)
      (.step nofun (.swapLock rfl rfl))
  have hSwapped : runs.Reachable
      { s with
        disk := disk'
        mutex := some .main
        main := .swapped (-1) } :=
    hSwapping.step (i := .step .main)
      (.step nofun (.swap rfl))
  have hClosing : runs.Reachable
      { s with disk := disk', main := .closing (-1) } :=
    hSwapped.step (i := .step .main)
      (.step nofun (.swapUnlock rfl))
  refine ⟨_, hClosing, ?_⟩
  intro hOpen
  exact hOpen (-1) rfl (congrFun hFds (-1))

end Runs

/-
  Whatever the files are and however the threads interleave,
  the process does not end in close(), exactly when the limit
  is positive.
-/
theorem logRuns_closesOpen_iff
    (byteCountMax fileRotateCount : Int) :
    (∀ s, (logRuns byteCountMax fileRotateCount).Reachable s →
      ClosesOpen s) ↔ 1 ≤ byteCountMax := by
  constructor
  · intro hAll
    by_contra hSmall
    have hMax : byteCountMax ≤ 0 := by omega
    rcases reachable_closesClosed hMax with
      ⟨s, hReach, hCloses⟩
    exact hCloses (hAll s hReach)
  · intro hMax s hReach
    have hRotating : Rotating byteCountMax s := by
      apply hReach.invariant
      · rintro _ ⟨disk, _, rfl⟩
        exact ⟨rfl, fun _ => rfl, trivial⟩
      · intro s event s' hHere hRotating hMove
        exact hMove.rotating hMax (logRuns_descriptors hHere)
          hRotating
    exact hRotating.closesOpen (logRuns_descriptors hReach)

/- A line of the configuration may set the limit to 0. -/
theorem logRuns_limitZero :
    ¬ ∀ (line : Text) (byteCountMax fileRotateCount : Int),
      configSetLong line (field "byteCountMax ") =
        .value byteCountMax →
      ∀ s,
        (logRuns byteCountMax fileRotateCount).Reachable s →
          ClosesOpen s := by
  intro hAll
  have hZero : (0 : Int) ≤ 0 := le_rfl
  rcases reachable_closesClosed hZero with
    ⟨s, hReach, hCloses⟩
  exact hCloses
    (hAll (field "byteCountMax 0") 0 4 (by decide) s hReach)

end SmartSOCKSProxy
