import SmartSOCKSProxy.Logging.LogFile

/-
  Rotation neither loses, splits nor reorders messages.

  The descriptor of the log file always refers to the newest
  generation, even while the generations are being renamed.
  So every message is appended to the end of what all
  generations hold together.

  Key definitions include:
    * `LogFiles`, `Locking`, `RotatePc.Fits`
    * `WellLogged`, `FaithfulLog`

  Key theorems include:
    * `LogFiles.writeLog`, `LogFiles.renameLog`
    * `LogStep.locking`, `LogStep.wellLogged`
    * `logging_faithful`
-/

namespace SmartSOCKSProxy

------------------------------------------------------------
-- The Files
------------------------------------------------------------

/-
  The generations hold the last messages in order, each file
  whole ones, and there are none behind the last one.  An open
  log file is the newest generation; a closed one has none at
  its name, unless nothing is ever renamed.
-/
structure LogFiles
    (n : Nat)
    (disk : Disk)
    (log : LogFile)
    (written : List (List UInt8)) : Prop where
  nodup : (generations disk.dir n).Nodup
  beyond : ∀ i, n < i → disk.dir i = none
  known :
    ∀ inode ∈ generations disk.dir n, inode < disk.inodes
  held : ∃ (messages : Nat → List (List UInt8))
      (dropped : List (List UInt8)),
    (∀ inode ∈ generations disk.dir n,
      disk.content inode = (messages inode).flatten) ∧
    written =
      dropped ++ (generations disk.dir n).flatMap messages
  current : 0 ≤ log.fd → ∃ inode,
    disk.fds log.fd = some (.log inode) ∧
      (generations disk.dir n).getLast? = some inode
  closed :
    log.fd < 0 →
      (disk.dir 0 = none ∨ n = 0) ∧ log.byteCount = 0

/- What is said about another inode does not matter. -/
theorem flatMap_update
    {inode : Nat}
    {inodes : List Nat}
    (messages : Nat → List (List UInt8))
    (hOther : inode ∉ inodes)
    {own : List (List UInt8)} :
    inodes.flatMap (Function.update messages inode own) =
      inodes.flatMap messages := by
  apply List.flatMap_congr
  intro inode' hMem
  apply Function.update_of_ne
  rintro rfl
  exact hOther hMem

namespace LogFiles

variable {n : Nat}
variable {disk : Disk}
variable {log : LogFile}
variable {written : List (List UInt8)}

/- What the files hold is the end of what was written. -/
theorem logBytes
    (hFiles : LogFiles n disk log written) :
    ∃ dropped kept, written = dropped ++ kept ∧
      disk.logBytes n = kept.flatten := by
  rcases hFiles.held with
    ⟨messages, dropped, hContent, hWritten⟩
  refine ⟨dropped, _, hWritten, ?_⟩
  unfold Disk.logBytes
  rw [List.flatMap_def, List.flatMap_def,
    List.map_congr_left hContent]
  generalize generations disk.dir n = inodes
  induction inodes with
  | nil => rfl
  | cons inode inodes ih => simp [ih]

/- Other descriptors do not matter. -/
theorem setFd
    (hFiles : LogFiles n disk log written)
    {fd : Int}
    (hNe : 0 ≤ log.fd → fd ≠ log.fd)
    (file : Option OpenFile) :
    LogFiles n (disk.setFd fd file) log written where
  nodup := hFiles.nodup
  beyond := hFiles.beyond
  known := hFiles.known
  held := hFiles.held
  current := by
    intro hOpen
    rcases hFiles.current hOpen with ⟨inode, hFd, hLast⟩
    refine ⟨inode, ?_, hLast⟩
    rw [← hFd]
    exact Function.update_of_ne (hNe hOpen).symm _ _
  closed := hFiles.closed

/- The count of an open file does not matter. -/
theorem setByteCount
    (hFiles : LogFiles n disk log written)
    (hOpen : 0 ≤ log.fd)
    (byteCount : Int) :
    LogFiles n disk { log with byteCount := byteCount }
      written :=
  ⟨hFiles.nodup, hFiles.beyond, hFiles.known, hFiles.held,
    hFiles.current,
    fun hClosed => absurd hOpen (not_le.mpr hClosed)⟩

/- A file without a name is opened as a new generation. -/
theorem openLog_of_none
    (hFiles : LogFiles n disk log written)
    (hNone : disk.dir 0 = none)
    {fd : Int}
    (hFd : 0 ≤ fd) :
    LogFiles n (disk.openLog fd)
      { log with fd := fd, byteCount := 0 } written := by
  rcases hFiles with ⟨hNodup, hBeyond, hKnown,
    ⟨messages, dropped, hContent, hWritten⟩, _, _⟩
  have hPush :
      ∀ x, generations
          (Function.update disk.dir 0 (some x)) n =
        generations disk.dir n ++ [x] :=
    fun x => generations_push hNone x n
  have hNew :
      disk.inodes ∉ generations disk.dir n := by
    intro hMem
    exact absurd (hKnown _ hMem) (lt_irrefl _)
  have hOpened :
      disk.openLog fd =
        { dir :=
            Function.update disk.dir 0 (some disk.inodes)
          content :=
            Function.update disk.content disk.inodes []
          inodes := disk.inodes + 1
          fds :=
            Function.update disk.fds fd
              (some (.log disk.inodes)) } := by
    unfold Disk.openLog
    rw [hNone]
  rw [hOpened]
  constructor
  · simp only [hPush]
    exact hNodup.append (List.nodup_singleton _)
      (by simpa using hNew)
  · intro i hi
    exact (Function.update_of_ne (by omega) _ _).trans
      (hBeyond i hi)
  · intro inode hMem
    simp only [hPush, List.mem_append,
      List.mem_singleton] at hMem
    rcases hMem with hOld | rfl
    · exact Nat.lt_succ_of_lt (hKnown inode hOld)
    · exact Nat.lt_succ_self _
  · refine ⟨Function.update messages disk.inodes [],
      dropped, ?_, ?_⟩
    · intro inode hMem
      simp only [hPush, List.mem_append,
        List.mem_singleton] at hMem
      rcases hMem with hOld | rfl
      · have hNe : inode ≠ disk.inodes := by
          rintro rfl
          exact hNew hOld
        dsimp only
        rw [Function.update_of_ne hNe,
          Function.update_of_ne hNe]
        exact hContent inode hOld
      · simp
    · rw [hPush, List.flatMap_append,
        flatMap_update messages hNew, hWritten]
      simp
  · intro _
    exact ⟨disk.inodes, by simp, by simp [hPush]⟩
  · intro hNegative
    exact absurd hFd (not_le.mpr hNegative)

/- Without renames, the only file is opened again. -/
theorem openLog_of_some
    (hFiles : LogFiles 0 disk log written)
    {inode : Nat}
    (hSome : disk.dir 0 = some inode)
    {fd : Int}
    (hFd : 0 ≤ fd) :
    LogFiles 0 (disk.openLog fd)
      { log with fd := fd, byteCount := 0 } written := by
  have hOpened :
      disk.openLog fd = disk.setFd fd (some (.log inode)) := by
    unfold Disk.openLog
    rw [hSome]
  rw [hOpened]
  refine ⟨hFiles.nodup, hFiles.beyond, hFiles.known,
    hFiles.held, ?_, ?_⟩
  · intro _
    refine ⟨inode, Function.update_self _ _ _, ?_⟩
    change (generations disk.dir 0).getLast? = some inode
    rw [generations, hSome]
    rfl
  · intro hNegative
    exact absurd hFd (not_le.mpr hNegative)

/- A closed file is opened. -/
theorem openLog
    (hFiles : LogFiles n disk log written)
    (hClosed : log.fd < 0)
    {fd : Int}
    (hFd : 0 ≤ fd) :
    LogFiles n (disk.openLog fd)
      { log with fd := fd, byteCount := 0 } written := by
  rcases (hFiles.closed hClosed).1 with hNone | rfl
  · exact hFiles.openLog_of_none hNone hFd
  · cases hName : disk.dir 0 with
    | none => exact hFiles.openLog_of_none hName hFd
    | some inode => exact hFiles.openLog_of_some hName hFd

/- A message is appended to the newest generation. -/
theorem writeLog
    (hFiles : LogFiles n disk log written)
    (hOpen : 0 ≤ log.fd)
    (buf : List UInt8) :
    ∃ disk', disk.write log.fd buf = some disk' ∧
      disk'.dir = disk.dir ∧ disk'.fds = disk.fds ∧
      LogFiles n disk' log (written ++ [buf]) := by
  rcases hFiles with ⟨hNodup, hBeyond, hKnown,
    ⟨messages, dropped, hContent, hWritten⟩, hCurrent, _⟩
  rcases hCurrent hOpen with ⟨inode, hFd, hLast⟩
  rcases List.getLast?_eq_some_iff.mp hLast with
    ⟨older, hOrder⟩
  have hOlder : inode ∉ older := by
    rw [hOrder] at hNodup
    intro hMem
    exact (List.disjoint_of_nodup_append hNodup) hMem
      (List.mem_singleton_self inode)
  unfold Disk.write
  rw [hFd]
  refine ⟨_, rfl, rfl, rfl, hNodup, hBeyond, hKnown, ?_,
    fun _ => ⟨inode, hFd, hLast⟩, ?_⟩
  · refine ⟨Function.update messages inode
      (messages inode ++ [buf]), dropped, ?_, ?_⟩
    · intro inode' hMem
      dsimp only at hMem ⊢
      by_cases hSame : inode' = inode
      · subst hSame
        simp [hContent inode' hMem]
      · rw [Function.update_of_ne hSame,
          Function.update_of_ne hSame]
        exact hContent inode' hMem
    · dsimp only
      rw [hWritten, hOrder, List.flatMap_append,
        List.flatMap_append, flatMap_update messages hOlder]
      simp
  · intro hClosed
    exact absurd hOpen (not_le.mpr hClosed)

/- A rename keeps the order, and may drop the oldest. -/
theorem renameLog
    (hFiles : LogFiles n disk log written)
    (hOpen : 0 ≤ log.fd)
    {i : Nat}
    (hi : i < n)
    (hFree : i + 1 < n → disk.dir (i + 1) = none) :
    LogFiles n (disk.rename i) log written := by
  rcases hFiles with ⟨hNodup, hBeyond, hKnown,
    ⟨messages, dropped, hContent, hWritten⟩, hCurrent, _⟩
  rcases generations_shift hi hFree with
    ⟨oldest, hOrder, hEmpty⟩
  have hMem :
      ∀ inode ∈ generations (disk.rename i).dir n,
        inode ∈ generations disk.dir n := by
    intro inode hHere
    rw [hOrder]
    exact List.mem_append_right _ hHere
  constructor
  · rw [hOrder] at hNodup
    exact hNodup.of_append_right
  · intro j hj
    exact (shift_of_ne disk.dir (by omega) (by omega)).trans
      (hBeyond j hj)
  · exact fun inode hHere => hKnown inode (hMem inode hHere)
  · refine ⟨messages, dropped ++ oldest.flatMap messages,
      fun inode hHere => hContent inode (hMem inode hHere),
      ?_⟩
    rw [hWritten, hOrder, List.flatMap_append,
      List.append_assoc]
    rfl
  · intro _
    rcases hCurrent hOpen with ⟨inode, hFd, hLast⟩
    refine ⟨inode, hFd, ?_⟩
    have hSome : generations (disk.rename i).dir n ≠ [] := by
      intro hNil
      rw [hEmpty hNil] at hLast
      contradiction
    rw [hOrder] at hLast
    rw [← hLast]
    exact (List.getLast?_append_of_ne_nil _ hSome).symm
  · intro hClosed
    exact absurd hOpen (not_le.mpr hClosed)

/- The file is closed when all renames are done. -/
theorem swapLog
    (hFiles : LogFiles n disk log written)
    (hFree : disk.dir 0 = none ∨ n = 0) :
    LogFiles n disk { log with fd := -1, byteCount := 0 }
      written where
  nodup := hFiles.nodup
  beyond := hFiles.beyond
  known := hFiles.known
  held := hFiles.held
  current := by
    intro hOpen
    dsimp only at hOpen
    omega
  closed := fun _ => ⟨hFree, rfl⟩

end LogFiles

------------------------------------------------------------
-- The Threads
------------------------------------------------------------

def RotatePc.holdsLock : RotatePc → Bool
  | .sizing => true
  | .sized _ => true
  | .swapping => true
  | .swapped _ => true
  | _ => false

/- The lock is with the thread that is inside. -/
structure Locking
    (s : LogState) : Prop where
  main : s.mutex = some .main ↔ s.main.holdsLock = true
  writer : ∀ t,
    s.mutex = some (.writer t) ↔ s.writers t ≠ .idle

namespace Locking

variable {s : LogState}
variable {t : Nat}

/- A thread that is inside has the lock. -/
theorem held
    (hLocking : Locking s)
    {pc : WriterPc}
    (hPc : s.writers t = pc)
    (hInside : pc ≠ .idle) :
    s.mutex = some (.writer t) :=
  (hLocking.writer t).mpr (hPc ▸ hInside)

/- Without the lock, a thread is not inside. -/
theorem idle
    (hLocking : Locking s)
    (hOther : s.mutex ≠ some (.writer t)) :
    s.writers t = .idle := by
  by_contra hInside
  exact hOther ((hLocking.writer t).mpr hInside)

/- A writer with the lock moves on. -/
theorem setWriter
    (hLocking : Locking s)
    (hHeld : s.mutex = some (.writer t))
    {pc : WriterPc}
    (hInside : pc ≠ .idle) :
    Locking (s.setWriter t pc) where
  main := hLocking.main
  writer := by
    intro t'
    simp only [LogState.setWriter]
    by_cases hSame : t' = t
    · subst hSame
      simp [hHeld, hInside]
    · rw [Function.update_of_ne hSame]
      exact hLocking.writer t'

/- A writer takes a free lock. -/
theorem take
    (hLocking : Locking s)
    (hFree : s.mutex = none)
    {pc : WriterPc}
    (hInside : pc ≠ .idle) :
    Locking
      { s.setWriter t pc with
        mutex := some (.writer t) } where
  main := by
    have hMain := hLocking.main
    rw [hFree] at hMain
    simpa [LogState.setWriter] using hMain
  writer := by
    intro t'
    simp only [LogState.setWriter]
    by_cases hSame : t' = t
    · subst hSame
      simp [hInside]
    · have hIdle : s.writers t' = .idle :=
        hLocking.idle (by simp [hFree])
      rw [Function.update_of_ne hSame, hIdle]
      simp [Ne.symm hSame]

/- A writer releases the lock. -/
theorem release
    (hLocking : Locking s)
    (hHeld : s.mutex = some (.writer t)) :
    Locking
      { s.setWriter t .idle with mutex := none } where
  main := by
    have hMain := hLocking.main
    rw [hHeld] at hMain
    simpa [LogState.setWriter] using hMain
  writer := by
    intro t'
    simp only [LogState.setWriter]
    by_cases hSame : t' = t
    · subst hSame
      simp
    · have hIdle : s.writers t' = .idle := by
        apply hLocking.idle
        simp [hHeld, Ne.symm hSame]
      rw [Function.update_of_ne hSame, hIdle]
      simp

/- The main thread takes a free lock. -/
theorem takeMain
    (hLocking : Locking s)
    (hFree : s.mutex = none)
    {pc : RotatePc}
    (hInside : pc.holdsLock = true) :
    Locking { s with mutex := some .main, main := pc } where
  main := by simp [hInside]
  writer := by
    intro t'
    have hIdle : s.writers t' = .idle :=
      hLocking.idle (by simp [hFree])
    simp [hIdle]

/- The main thread releases the lock. -/
theorem releaseMain
    (hLocking : Locking s)
    (hHeld : s.main.holdsLock = true)
    {pc : RotatePc}
    (hOutside : pc.holdsLock = false) :
    Locking { s with mutex := none, main := pc } where
  main := by simp [hOutside]
  writer := by
    intro t'
    have hIdle : s.writers t' = .idle := by
      apply hLocking.idle
      simp [hLocking.main.mpr hHeld]
    simp [hIdle]

/- The main thread moves on, with the lock or without. -/
theorem moveMain
    (hLocking : Locking s)
    {s' : LogState}
    (hMutex : s'.mutex = s.mutex)
    (hWriters : s'.writers = s.writers)
    (hSame : s'.main.holdsLock = s.main.holdsLock) :
    Locking s' where
  main := by
    rw [hMutex, hSame]
    exact hLocking.main
  writer := by
    rw [hMutex, hWriters]
    exact hLocking.writer

end Locking

/- Every step keeps the lock with the thread inside. -/
theorem LogStep.locking
    {s s' : LogState}
    {party : LogParty}
    (hLocking : Locking s)
    (hStep : LogStep s party s') :
    Locking s' := by
  cases hStep with
  | @lock t buf hIdle hFree =>
      have hTaken := hLocking.take (t := t) hFree
        (show WriterPc.locked buf ≠ .idle by simp)
      exact ⟨hTaken.main, hTaken.writer⟩
  | @openFile t buf fd hLocked hFresh =>
      have hHeld := hLocking.held hLocked (by simp)
      have hNext := hLocking.setWriter hHeld
        (show WriterPc.ready buf
          (logFileOpen s.log s.disk fd).1.fd ≠ .idle by simp)
      exact ⟨hNext.main, hNext.writer⟩
  | @write t buf fd hReady =>
      have hHeld := hLocking.held hReady (by simp)
      have hNext := hLocking.setWriter hHeld
        (show WriterPc.written buf ≠ .idle by simp)
      unfold LogState.writerWrite
      cases s.disk.write fd buf <;>
        exact ⟨hNext.main, hNext.writer⟩
  | unlock hWritten =>
      have hHeld := hLocking.held hWritten (by simp)
      have hReleased := hLocking.release hHeld
      exact ⟨hReleased.main, hReleased.writer⟩
  | rotateLock hPc hFree => exact hLocking.takeMain hFree rfl
  | rotateRead hPc =>
      exact hLocking.moveMain rfl rfl (by rw [hPc]; rfl)
  | rotateUnlock hPc =>
      exact hLocking.releaseMain (by rw [hPc]; rfl) rfl
  | keep hPc hSmall =>
      exact hLocking.moveMain rfl rfl (by rw [hPc]; rfl)
  | rotate hPc hLarge =>
      exact hLocking.moveMain rfl rfl (by rw [hPc]; rfl)
  | rename hPc =>
      exact hLocking.moveMain rfl rfl (by rw [hPc]; rfl)
  | swapLock hPc hFree => exact hLocking.takeMain hFree rfl
  | swap hPc =>
      exact hLocking.moveMain rfl rfl (by rw [hPc]; rfl)
  | swapUnlock hPc =>
      exact hLocking.releaseMain (by rw [hPc]; rfl) rfl
  | close hPc =>
      exact hLocking.moveMain rfl rfl (by rw [hPc]; rfl)
  | foreignOpen hFd hFresh =>
      exact hLocking.moveMain rfl rfl rfl
  | foreignClose hForeign =>
      exact hLocking.moveMain rfl rfl rfl

/-
  What the main thread relies on.  A size that was counted
  means that the file is open; while generations are renamed
  the next place is free; a descriptor to be closed is no
  longer that of the log file.
-/
def RotatePc.Fits
    (n : Nat)
    (log : LogFile)
    (disk : Disk) : RotatePc → Prop
  | .idle => True
  | .sizing => True
  | .sized size => 0 < size → 0 ≤ log.fd
  | .compare size => 0 < size → 0 ≤ log.fd
  | .renames left =>
      0 ≤ log.fd ∧ left ≤ n ∧
        (left < n → disk.dir left = none)
  | .swapping =>
      0 ≤ log.fd ∧ (disk.dir 0 = none ∨ n = 0)
  | .swapped fd =>
      fd ≠ log.fd ∧ ∃ inode,
        disk.fds fd = some (.log inode)
  | .closing fd =>
      fd ≠ log.fd ∧ ∃ inode,
        disk.fds fd = some (.log inode)

theorem RotatePc.Fits.congr
    {n : Nat}
    {log log' : LogFile}
    {disk disk' : Disk}
    {pc : RotatePc}
    (hFits : pc.Fits n log disk)
    (hFd : log'.fd = log.fd)
    (hDir : disk'.dir = disk.dir)
    (hFds : disk'.fds = disk.fds) :
    pc.Fits n log' disk' := by
  cases pc with
  | idle => exact hFits
  | sizing => exact hFits
  | _ => simpa only [Fits, hFd, hDir, hFds] using hFits

/- Another descriptor gets another meaning. -/
theorem RotatePc.Fits.setFd
    {n : Nat}
    {log : LogFile}
    {disk : Disk}
    {pc : RotatePc}
    (hFits : pc.Fits n log disk)
    {fd : Int}
    (hOther : ∀ inode, disk.fds fd ≠ some (.log inode))
    (file : Option OpenFile) :
    pc.Fits n log (disk.setFd fd file) := by
  have hKept :
      ∀ fd' inode, disk.fds fd' = some (.log inode) →
        (disk.setFd fd file).fds fd' =
          some (.log inode) := by
    intro fd' inode hFd
    rw [← hFd]
    apply Function.update_of_ne
    rintro rfl
    exact hOther inode hFd
  cases pc with
  | swapped fd' =>
      rcases hFits with ⟨hNe, inode, hFd⟩
      exact ⟨hNe, inode, hKept fd' inode hFd⟩
  | closing fd' =>
      rcases hFits with ⟨hNe, inode, hFd⟩
      exact ⟨hNe, inode, hKept fd' inode hFd⟩
  | _ => exact hFits

/- What a writer relies on: its descriptor is the file's. -/
def WriterPc.Fits
    (log : LogFile) : WriterPc → Prop
  | .idle => True
  | .locked _ => True
  | .ready _ fd => fd = log.fd ∧ 0 ≤ log.fd
  | .written _ => 0 ≤ log.fd

/- The message that a writer is about to write. -/
def WriterPc.pending : WriterPc → List (List UInt8)
  | .locked buf => [buf]
  | .ready buf _ => [buf]
  | _ => []

/- The message of the thread that has the lock. -/
def LogState.pending
    (s : LogState) : List (List UInt8) :=
  match s.mutex with
  | some (.writer t) => (s.writers t).pending
  | _ => []

/-
  The invariant of a log file and its threads, with so many
  renames in a rotation.
-/
structure WellLogged
    (byteCountMax : Int)
    (n : Nat)
    (s : LogState) : Prop where
  limit : s.log.byteCountMax = byteCountMax
  count : renameCount s.log.fileRotateCount = n
  files : LogFiles n s.disk s.log s.written
  locking : Locking s
  main : s.main.Fits n s.log s.disk
  writer : ∀ t, (s.writers t).Fits s.log
  order : s.lockOrder = s.written ++ s.pending
  strayed : s.strayed = []

------------------------------------------------------------
-- Steps
------------------------------------------------------------

namespace WellLogged

variable {byteCountMax : Int}
variable {n : Nat}
variable {s : LogState}
variable {t : Nat}
variable {buf : List UInt8}
variable {fd : Int}

/- A writer that moves on fits when its new place does. -/
theorem writer_update
    {log : LogFile}
    {pc : WriterPc}
    (hOthers : ∀ t' ≠ t, (s.writers t').Fits log)
    (hHere : pc.Fits log)
    (t' : Nat) :
    ((s.setWriter t pc).writers t').Fits log := by
  simp only [LogState.setWriter]
  by_cases hSame : t' = t
  · subst hSame
    rw [Function.update_self]
    exact hHere
  · rw [Function.update_of_ne hSame]
    exact hOthers t' hSame

theorem writerLock
    (hWell : WellLogged byteCountMax n s)
    (hLocking : Locking (s.writerLock t buf))
    (hFree : s.mutex = none) :
    WellLogged byteCountMax n (s.writerLock t buf) where
  limit := hWell.limit
  count := hWell.count
  files := hWell.files
  locking := hLocking
  main := hWell.main
  writer :=
    writer_update (fun t' _ => hWell.writer t') trivial
  order := by
    have hOrder := hWell.order
    simp only [LogState.pending, hFree, List.append_nil]
      at hOrder
    simp [LogState.writerLock, LogState.pending,
      LogState.setWriter, WriterPc.pending, hOrder]
  strayed := hWell.strayed

/- A file that is open is left alone. -/
theorem writerOpen_of_open
    (hWell : WellLogged byteCountMax n s)
    (hLocking : Locking (s.writerOpen t buf fd))
    (hLocked : s.writers t = .locked buf)
    (hOpen : 0 ≤ s.log.fd) :
    WellLogged byteCountMax n
      (s.writerOpen t buf fd) := by
  have hHeld := hWell.locking.held hLocked (by simp)
  have hOrder := hWell.order
  simp only [LogState.pending, hHeld, hLocked,
    WriterPc.pending] at hOrder
  unfold LogState.writerOpen logFileOpen at hLocking ⊢
  rw [if_pos hOpen] at hLocking ⊢
  refine ⟨hWell.limit, hWell.count, hWell.files, hLocking,
    hWell.main, ?_, ?_, hWell.strayed⟩
  · exact writer_update (fun t' _ => hWell.writer t')
      ⟨rfl, hOpen⟩
  · simp [LogState.pending, LogState.setWriter, hHeld,
      WriterPc.pending, hOrder]

/- open() gives the descriptor a meaning. -/
theorem openLog_fds
    (disk : Disk)
    (fd : Int) :
    ∃ inode, (disk.openLog fd).fds =
      Function.update disk.fds fd (some (.log inode)) := by
  unfold Disk.openLog
  cases disk.dir 0 with
  | none => exact ⟨disk.inodes, rfl⟩
  | some inode => exact ⟨inode, rfl⟩

/- A file that is closed is opened, by one thread only. -/
theorem writerOpen_of_closed
    (hWell : WellLogged byteCountMax n s)
    (hLocking : Locking (s.writerOpen t buf fd))
    (hLocked : s.writers t = .locked buf)
    (hClosed : s.log.fd < 0)
    (hFd : 0 ≤ fd)
    (hFresh : s.disk.fds fd = none) :
    WellLogged byteCountMax n
      (s.writerOpen t buf fd) := by
  have hHeld := hWell.locking.held hLocked (by simp)
  have hOrder := hWell.order
  simp only [LogState.pending, hHeld, hLocked,
    WriterPc.pending] at hOrder
  rcases openLog_fds s.disk fd with ⟨opened, hFds⟩
  unfold LogState.writerOpen logFileOpen at hLocking ⊢
  rw [if_neg (not_le.mpr hClosed)] at hLocking ⊢
  refine ⟨hWell.limit, hWell.count,
    hWell.files.openLog hClosed hFd, hLocking, ?_, ?_, ?_,
    hWell.strayed⟩
  · -- The main thread is not in the middle of a rotation.
    have hMain := hWell.main
    have hClosing :
        ∀ fd' inode, s.disk.fds fd' = some (.log inode) →
          fd' ≠ fd ∧
            (s.disk.openLog fd).fds fd' =
              some (.log inode) := by
      intro fd' inode hFd'
      have hNe : fd' ≠ fd := by
        rintro rfl
        rw [hFresh] at hFd'
        contradiction
      rw [hFds, Function.update_of_ne hNe]
      exact ⟨hNe, hFd'⟩
    revert hMain
    simp only [LogState.setWriter]
    cases s.main with
    | idle => exact id
    | sizing => exact id
    | sized size => exact fun _ _ => hFd
    | compare size => exact fun _ _ => hFd
    | renames left =>
        rintro ⟨hOpen, _⟩
        exact absurd hOpen (not_le.mpr hClosed)
    | swapping =>
        rintro ⟨hOpen, _⟩
        exact absurd hOpen (not_le.mpr hClosed)
    | swapped fd' =>
        rintro ⟨_, inode, hFd'⟩
        rcases hClosing fd' inode hFd' with ⟨hNe, hKept⟩
        exact ⟨hNe, inode, hKept⟩
    | closing fd' =>
        rintro ⟨_, inode, hFd'⟩
        rcases hClosing fd' inode hFd' with ⟨hNe, hKept⟩
        exact ⟨hNe, inode, hKept⟩
  · apply writer_update
    · intro t' hNe
      have hIdle : s.writers t' = .idle := by
        apply hWell.locking.idle
        simp [hHeld, Ne.symm hNe]
      rw [hIdle]
      trivial
    · exact ⟨rfl, hFd⟩
  · simp [LogState.pending, LogState.setWriter, hHeld,
      WriterPc.pending, hOrder]

theorem writerWrite
    (hWell : WellLogged byteCountMax n s)
    (hLocking : Locking (s.writerWrite t buf fd))
    (hReady : s.writers t = .ready buf fd) :
    WellLogged byteCountMax n
      (s.writerWrite t buf fd) := by
  have hHeld := hWell.locking.held hReady (by simp)
  have hOrder := hWell.order
  simp only [LogState.pending, hHeld, hReady,
    WriterPc.pending] at hOrder
  have hFits := hWell.writer t
  rw [hReady] at hFits
  rcases hFits with ⟨rfl, hOpen⟩
  rcases hWell.files.writeLog hOpen buf with
    ⟨disk, hWrite, hDir, hFds, hFiles⟩
  unfold LogState.writerWrite at hLocking ⊢
  rw [hWrite] at hLocking ⊢
  refine ⟨hWell.limit, hWell.count, hFiles, hLocking,
    hWell.main.congr rfl hDir hFds, ?_, ?_, hWell.strayed⟩
  · exact writer_update (fun t' _ => hWell.writer t') hOpen
  · simp [LogState.pending, LogState.setWriter, hHeld,
      WriterPc.pending, hOrder]

theorem writerUnlock
    (hWell : WellLogged byteCountMax n s)
    (hLocking : Locking (s.writerUnlock t buf))
    (hWritten : s.writers t = .written buf) :
    WellLogged byteCountMax n (s.writerUnlock t buf) := by
  have hHeld := hWell.locking.held hWritten (by simp)
  have hOrder := hWell.order
  simp only [LogState.pending, hHeld, hWritten,
    WriterPc.pending] at hOrder
  have hOpen := hWell.writer t
  rw [hWritten] at hOpen
  refine ⟨hWell.limit, hWell.count,
    hWell.files.setByteCount hOpen _, hLocking,
    hWell.main.congr rfl rfl rfl, ?_, ?_, hWell.strayed⟩
  · apply writer_update
    · intro t' hNe
      have hIdle : s.writers t' = .idle := by
        apply hWell.locking.idle
        simp [hHeld, Ne.symm hNe]
      rw [hIdle]
      trivial
    · trivial
  · simpa [LogState.writerUnlock, LogState.pending,
      LogState.setWriter] using hOrder

/- Steps of the main thread leave the messages alone. -/
theorem pending_of_main
    (hWell : WellLogged byteCountMax n s)
    (hMain : s.mutex = none ∨ s.mutex = some .main) :
    s.lockOrder = s.written := by
  have hOrder := hWell.order
  rcases hMain with hFree | hHeld
  · simpa [LogState.pending, hFree] using hOrder
  · simpa [LogState.pending, hHeld] using hOrder

theorem rotateSwap
    (hWell : WellLogged byteCountMax n s)
    (hLocking : Locking s.rotateSwap)
    (hMain : s.main = .swapping) :
    WellLogged byteCountMax n s.rotateSwap := by
  have hHeld : s.mutex = some .main :=
    hWell.locking.main.mpr (by rw [hMain]; rfl)
  have hFits := hWell.main
  rw [hMain] at hFits
  rcases hFits with ⟨hOpen, hFree⟩
  refine ⟨hWell.limit, hWell.count,
    hWell.files.swapLog hFree, hLocking, ?_, ?_, hWell.order,
    hWell.strayed⟩
  · rcases hWell.files.current hOpen with ⟨inode, hFd, _⟩
    have hClosed : s.rotateSwap.log.fd = -1 := rfl
    refine ⟨?_, inode, hFd⟩
    rw [hClosed]
    omega
  · intro t
    have hIdle : s.writers t = .idle :=
      hWell.locking.idle (by simp [hHeld])
    simp only [LogState.rotateSwap, hIdle]
    trivial

end WellLogged

/- Every step keeps the invariant. -/
theorem LogStep.wellLogged
    {byteCountMax : Int}
    {n : Nat}
    (hMax : 1 ≤ byteCountMax)
    {s s' : LogState}
    {party : LogParty}
    (hWell : WellLogged byteCountMax n s)
    (hStep : LogStep s party s') :
    WellLogged byteCountMax n s' := by
  have hMain := hWell.main
  have hLocking := LogStep.locking hWell.locking hStep
  cases hStep with
  | lock hIdle hFree => exact hWell.writerLock hLocking hFree
  | openFile hLocked hFresh =>
      rcases lt_or_ge s.log.fd 0 with hClosed | hOpen
      · rcases hFresh hClosed with ⟨hFd, hNone⟩
        exact hWell.writerOpen_of_closed hLocking hLocked
          hClosed hFd hNone
      · exact hWell.writerOpen_of_open hLocking hLocked hOpen
  | write hReady => exact hWell.writerWrite hLocking hReady
  | unlock hWritten =>
      exact hWell.writerUnlock hLocking hWritten
  | rotateLock hPc hFree =>
      have hOrder := hWell.pending_of_main (Or.inl hFree)
      exact ⟨hWell.limit, hWell.count, hWell.files, hLocking,
        trivial, hWell.writer,
        by simp [LogState.pending, hOrder], hWell.strayed⟩
  | rotateRead hPc =>
      refine ⟨hWell.limit, hWell.count, hWell.files, hLocking,
        ?_, hWell.writer, hWell.order, hWell.strayed⟩
      intro hCounted
      by_contra hClosed
      have hZero :=
        (hWell.files.closed (not_le.mp hClosed)).2
      omega
  | rotateUnlock hPc =>
      have hHeld : s.main.holdsLock = true := by
        rw [hPc]
        rfl
      have hOrder := hWell.pending_of_main
        (Or.inr (hWell.locking.main.mpr hHeld))
      rw [hPc] at hMain
      exact ⟨hWell.limit, hWell.count, hWell.files, hLocking,
        hMain, hWell.writer,
        by simp [LogState.pending, hOrder], hWell.strayed⟩
  | keep hPc hSmall =>
      exact ⟨hWell.limit, hWell.count, hWell.files, hLocking,
        trivial, hWell.writer, hWell.order, hWell.strayed⟩
  | rotate hPc hLarge =>
      rw [hPc] at hMain
      rw [hWell.limit] at hLarge
      refine ⟨hWell.limit, hWell.count, hWell.files, hLocking,
        ?_, hWell.writer, hWell.order, hWell.strayed⟩
      exact ⟨hMain (by omega), hWell.count.le,
        fun hLess => absurd hWell.count hLess.ne⟩
  | @rename i hPc =>
      rw [hPc] at hMain
      rcases hMain with ⟨hOpen, hLe, hFree⟩
      refine ⟨hWell.limit, hWell.count,
        hWell.files.renameLog hOpen hLe hFree, hLocking, ?_,
        hWell.writer, hWell.order, hWell.strayed⟩
      exact ⟨hOpen, by omega, fun _ => shift_self _ i⟩
  | swapLock hPc hFree =>
      rw [hPc] at hMain
      rcases hMain with ⟨hOpen, _, hName⟩
      have hOrder := hWell.pending_of_main (Or.inl hFree)
      have hFree : s.disk.dir 0 = none ∨ n = 0 := by
        rcases Nat.eq_zero_or_pos n with hZero | hPos
        · exact Or.inr hZero
        · exact Or.inl (hName hPos)
      exact ⟨hWell.limit, hWell.count, hWell.files, hLocking,
        ⟨hOpen, hFree⟩, hWell.writer,
        by simp [LogState.pending, hOrder], hWell.strayed⟩
  | swap hPc => exact hWell.rotateSwap hLocking hPc
  | swapUnlock hPc =>
      have hHeld : s.main.holdsLock = true := by
        rw [hPc]
        rfl
      have hOrder := hWell.pending_of_main
        (Or.inr (hWell.locking.main.mpr hHeld))
      rw [hPc] at hMain
      exact ⟨hWell.limit, hWell.count, hWell.files, hLocking,
        hMain, hWell.writer,
        by simp [LogState.pending, hOrder], hWell.strayed⟩
  | close hPc =>
      rw [hPc] at hMain
      exact ⟨hWell.limit, hWell.count,
        hWell.files.setFd (fun _ => hMain.1) none, hLocking,
        trivial, hWell.writer, hWell.order, hWell.strayed⟩
  | foreignOpen hFd hFresh =>
      refine ⟨hWell.limit, hWell.count,
        hWell.files.setFd ?_ _, hLocking,
        hMain.setFd (by simp [hFresh]) _, hWell.writer,
        hWell.order, hWell.strayed⟩
      rintro hOpen rfl
      rcases hWell.files.current hOpen with ⟨_, hLog, _⟩
      rw [hFresh] at hLog
      contradiction
  | foreignClose hForeign =>
      refine ⟨hWell.limit, hWell.count,
        hWell.files.setFd ?_ _, hLocking,
        hMain.setFd (by simp [hForeign]) _, hWell.writer,
        hWell.order, hWell.strayed⟩
      rintro hOpen rfl
      rcases hWell.files.current hOpen with ⟨_, hLog, _⟩
      rw [hForeign] at hLog
      exact nomatch Option.some.inj hLog

theorem newLogState_locking
    (byteCountMax fileRotateCount : Int)
    (disk : Disk) :
    Locking
      (newLogState byteCountMax fileRotateCount disk) where
  main := by simp [newLogState, RotatePc.holdsLock]
  writer := by simp [newLogState]

theorem newLogState_wellLogged
    (byteCountMax fileRotateCount : Int)
    {disk : Disk}
    (hNone : ∀ i, disk.dir i = none) :
    WellLogged byteCountMax (renameCount fileRotateCount)
      (newLogState byteCountMax fileRotateCount disk) := by
  have hEmpty : ∀ n, generations disk.dir n = [] := by
    intro n
    induction n with
    | zero => simp [generations, hNone]
    | succ n ih => simp [generations, hNone, ih]
  refine ⟨rfl, rfl, ?_, newLogState_locking _ _ _, trivial,
    fun _ => trivial, rfl, rfl⟩
  constructor
  · simp [newLogState, hEmpty]
  · exact fun i _ => hNone i
  · simp [newLogState, hEmpty]
  · exact ⟨fun _ => [], [], by simp [newLogState, hEmpty],
      by simp [newLogState, hEmpty]⟩
  · intro hOpen
    exact absurd hOpen (by simp [newLogState])
  · exact fun _ => ⟨Or.inl (hNone 0), rfl⟩

------------------------------------------------------------
-- Faithful Logs
------------------------------------------------------------

/-
  Every message was written once, whole and in the order of
  the lock, except for that of a thread that has the lock and
  has not written yet; none went astray.  The generations
  together hold the last of these messages.
-/
structure FaithfulLog
    (n : Nat)
    (s : LogState) : Prop where
  order : s.lockOrder = s.written ++ s.pending
  strayed : s.strayed = []
  held : ∃ dropped kept,
    s.written = dropped ++ kept ∧
      s.disk.logBytes n = kept.flatten

/- What is said of the generations that renames fill. -/
theorem WellLogged.faithful
    {byteCountMax : Int}
    {m n : Nat}
    {s : LogState}
    (hWell : WellLogged byteCountMax m s)
    (hLe : m ≤ n) :
    FaithfulLog n s := by
  have hSame : s.disk.logBytes n = s.disk.logBytes m := by
    unfold Disk.logBytes
    rw [generations_of_free hLe hWell.files.beyond]
  refine ⟨hWell.order, hWell.strayed, ?_⟩
  rw [hSame]
  exact hWell.files.logBytes

/-
  In every run, at every moment, for the generations up to
  the one with the highest number.
-/
theorem logging_faithful
    {byteCountMax fileRotateCount : Int}
    (hMax : 1 ≤ byteCountMax)
    (hCount : 1 ≤ fileRotateCount)
    {s : LogState}
    (hReach :
      (logging byteCountMax fileRotateCount).Reachable s) :
    FaithfulLog fileRotateCount.toNat s := by
  have hWell :
      WellLogged byteCountMax (renameCount fileRotateCount)
        s := by
    apply hReach.invariant
    · rintro _ ⟨disk, hNone, rfl⟩
      exact newLogState_wellLogged _ _ hNone
    · intro s party s' _ hHere hStep
      exact LogStep.wellLogged hMax hHere hStep
  exact hWell.faithful (renameCount_le hCount)

/-
  A thread writes to the file after it was renamed, and the
  main thread closes it when a new one is open.
-/
theorem logging_faithful_rotated :
    ∃ s : LogState,
      s.written = [[97], [98], [99]] ∧
        s.main = .idle ∧ s.disk.dir 1 = some 0 ∧
        FaithfulLog 1 s := by
  let disk : Disk :=
    ⟨fun _ => none, fun _ => [], 0, fun _ => none⟩
  let write (s : LogState) (t : Nat) (buf : List UInt8)
      (fd : Int) : LogState :=
    (((s.writerLock t buf).writerOpen t buf fd).writerWrite
      t buf fd).writerUnlock t buf
  let s₁ := write (newLogState 1 1 disk) 0 [97] 3
  let s₂ : LogState := { s₁ with main := .renames 1 }
  let s₃ : LogState :=
    { s₂ with
      disk := s₂.disk.rename 0
      main := .renames 0 }
  let s₄ := write s₃ 1 [98] 3
  let s₅ : LogState :=
    { s₄.rotateSwap with main := .closing 3 }
  let s₆ := write s₅ 0 [99] 4
  have hStart : (logging 1 1).Reachable
      (newLogState 1 1 disk) :=
    .start ⟨disk, fun _ => rfl, rfl⟩
  have h₁ : (logging 1 1).Reachable s₁ :=
    (((hStart.step (.lock rfl rfl)).step
      (.openFile rfl fun _ => ⟨by decide, rfl⟩)).step
        (.write rfl)).step (.unlock rfl)
  have h₂ : (logging 1 1).Reachable s₂ :=
    (((h₁.step (.rotateLock rfl rfl)).step
      (.rotateRead rfl)).step (.rotateUnlock rfl)).step
        (.rotate rfl (by decide))
  have h₃ : (logging 1 1).Reachable s₃ :=
    h₂.step (.rename rfl)
  have h₄ : (logging 1 1).Reachable s₄ :=
    (((h₃.step (.lock rfl rfl)).step
      (.openFile rfl nofun)).step
        (.write rfl)).step (.unlock rfl)
  have h₅ : (logging 1 1).Reachable s₅ :=
    ((h₄.step (.swapLock rfl rfl)).step
      (.swap rfl)).step (.swapUnlock rfl)
  have h₆ : (logging 1 1).Reachable s₆ :=
    (((h₅.step (.lock rfl rfl)).step
      (.openFile rfl fun _ => ⟨by decide, rfl⟩)).step
        (.write rfl)).step (.unlock rfl)
  exact ⟨_, rfl, rfl, rfl,
    logging_faithful (by decide) (by decide)
      (h₆.step (.close rfl))⟩

end SmartSOCKSProxy
