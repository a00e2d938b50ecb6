import SmartSOCKSProxy.Foundations.CString
import SmartSOCKSProxy.Foundations.Generations
import SmartSOCKSProxy.Foundations.Transition

/-
  One rotatable log file, and the threads that use it.

  Any number of threads write messages while the main thread
  rotates the file.  Generation 0 is the file itself, and
  generation i the file with the suffix `.i`.

  Key definitions include:
    * `Disk`, `Disk.openLog`, `Disk.rename`
    * `LogFile`, `logFileOpen`, `renameCount`
    * `WriterPc`, `RotatePc`, `LogState`
    * `LogStep`, `logging`
-/

namespace SmartSOCKSProxy

------------------------------------------------------------
-- Files and Descriptors
------------------------------------------------------------

/- What an open descriptor refers to. -/
inductive OpenFile where
| log (inode : Nat)
| foreign
deriving DecidableEq, Repr

/-
  The generations by their inodes, the content of the inodes,
  how many there were, and the open descriptors.
-/
structure Disk where
  dir : Nat → Option Nat
  content : Nat → List UInt8
  inodes : Nat
  fds : Int → Option OpenFile

namespace Disk

/- A descriptor gets another meaning. -/
def setFd
    (disk : Disk)
    (fd : Int)
    (file : Option OpenFile) : Disk :=
  { disk with fds := Function.update disk.fds fd file }

/- open() with O_CREAT and O_APPEND. -/
def openLog
    (disk : Disk)
    (fd : Int) : Disk :=
  match disk.dir 0 with
  | some inode => disk.setFd fd (some (.log inode))
  | none =>
      { dir :=
          Function.update disk.dir 0 (some disk.inodes)
        content :=
          Function.update disk.content disk.inodes []
        inodes := disk.inodes + 1
        fds :=
          Function.update disk.fds fd
            (some (.log disk.inodes)) }

/- write() of a whole buffer, if it gets to a log file. -/
def write
    (disk : Disk)
    (fd : Int)
    (buf : List UInt8) : Option Disk :=
  match disk.fds fd with
  | some (.log inode) =>
      some
        { disk with
          content :=
            Function.update disk.content inode
              (disk.content inode ++ buf) }
  | _ => none

/- rename() of a generation; ENOENT when there is none. -/
def rename
    (disk : Disk)
    (i : Nat) : Disk :=
  { disk with dir := shift disk.dir i }

/- The bytes of all generations, the oldest first. -/
def logBytes
    (disk : Disk)
    (fileRotateCount : Nat) : List UInt8 :=
  (generations disk.dir fileRotateCount).flatMap
    disk.content

end Disk

structure LogFile where
  fd : Int
  byteCount : Int
  byteCountMax : Int
  fileRotateCount : Int
deriving DecidableEq, Repr

/-
  A file that is closed is opened on a new descriptor.  The
  offset of a file that was just opened is 0.
-/
def logFileOpen
    (log : LogFile)
    (disk : Disk)
    (fd : Int) : LogFile × Disk :=
  if 0 ≤ log.fd then (log, disk)
  else
    ({ log with fd := fd, byteCount := 0 },
      disk.openLog fd)

/-
  The renames of one rotation:
  `for (i=log->file_rotate_count-1; i>=0; i--)`, where i is an
  int and the count a long.
-/
def renameCount
    (fileRotateCount : Int) : Nat :=
  (Text.toCInt (fileRotateCount - 1) + 1).toNat

/- The int is never above the long. -/
theorem renameCount_le
    {fileRotateCount : Int}
    (hCount : 1 ≤ fileRotateCount) :
    renameCount fileRotateCount ≤ fileRotateCount.toNat := by
  have hInt :
      Text.toCInt (fileRotateCount - 1) ≤
        fileRotateCount - 1 := by
    unfold Text.toCInt Int.bmod
    dsimp only
    split
    · omega
    · omega
  unfold renameCount
  omega

------------------------------------------------------------
-- Threads
------------------------------------------------------------

/-
  Where a thread is in log_file_write(): it has the lock, it
  has a descriptor for the message, the message is written.
-/
inductive WriterPc where
| idle
| locked (buf : List UInt8)
| ready (buf : List UInt8) (fd : Int)
| written (buf : List UInt8)
deriving DecidableEq, Repr

/-
  Where the main thread is in log_file_rotate().  It has the
  lock in `sizing` and `sized`, and later in `swapping` and
  `swapped`; `renames left` has so many renames ahead.
-/
inductive RotatePc where
| idle
| sizing
| sized (size : Int)
| compare (size : Int)
| renames (left : Nat)
| swapping
| swapped (fd : Int)
| closing (fd : Int)
deriving DecidableEq, Repr

inductive LogHolder where
| main
| writer (t : Nat)
deriving DecidableEq, Repr

/-
  The log file among its threads.  Besides what the program
  has, there are the messages in the order of the lock, the
  messages that were written, and those that went astray
  because the descriptor was not that of a log file.
-/
structure LogState where
  log : LogFile
  disk : Disk
  mutex : Option LogHolder
  writers : Nat → WriterPc
  main : RotatePc
  lockOrder : List (List UInt8)
  written : List (List UInt8)
  strayed : List (List UInt8)

namespace LogState

def setWriter
    (s : LogState)
    (t : Nat)
    (pc : WriterPc) : LogState :=
  { s with writers := Function.update s.writers t pc }

/- `log_file_lock()` at the start of log_file_write(). -/
def writerLock
    (s : LogState)
    (t : Nat)
    (buf : List UInt8) : LogState :=
  { s.setWriter t (.locked buf) with
    mutex := some (.writer t)
    lockOrder := s.lockOrder ++ [buf] }

/- `fd = log->fd`, after log_file_open() if need be. -/
def writerOpen
    (s : LogState)
    (t : Nat)
    (buf : List UInt8)
    (fd : Int) : LogState :=
  let (log, disk) := logFileOpen s.log s.disk fd
  { s.setWriter t (.ready buf log.fd) with
    log := log
    disk := disk }

/- `write(fd,buf,buflen)` -/
def writerWrite
    (s : LogState)
    (t : Nat)
    (buf : List UInt8)
    (fd : Int) : LogState :=
  match s.disk.write fd buf with
  | some disk =>
      { s.setWriter t (.written buf) with
        disk := disk
        written := s.written ++ [buf] }
  | none =>
      { s.setWriter t (.written buf) with
        strayed := s.strayed ++ [buf] }

/- `log->byte_count += buflen`, and the lock is released. -/
def writerUnlock
    (s : LogState)
    (t : Nat)
    (buf : List UInt8) : LogState :=
  { s.setWriter t .idle with
    log :=
      { s.log with
        byteCount := s.log.byteCount + buf.length }
    mutex := none }

/- The main thread breaks its ties with the file. -/
def rotateSwap
    (s : LogState) : LogState :=
  { s with
    log := { s.log with fd := -1, byteCount := 0 }
    main := .swapped s.log.fd }

end LogState

------------------------------------------------------------
-- Interleavings
------------------------------------------------------------

/- Who moves: a writer, the main thread, or other code. -/
inductive LogParty where
| writer (t : Nat)
| main
| others
deriving DecidableEq, Repr

/-
  Every access to the shared state is one step.  Debug output
  of the rotation itself is a writer like any other.
-/
inductive LogStep :
    LogState → LogParty → LogState → Prop
| lock
    {s : LogState}
    {t : Nat}
    {buf : List UInt8}
    (hIdle : s.writers t = .idle)
    (hFree : s.mutex = none) :
    LogStep s (.writer t) (s.writerLock t buf)
| openFile
    {s : LogState}
    {t : Nat}
    {buf : List UInt8}
    {fd : Int}
    (hLocked : s.writers t = .locked buf)
    (hFresh :
      s.log.fd < 0 → 0 ≤ fd ∧ s.disk.fds fd = none) :
    LogStep s (.writer t) (s.writerOpen t buf fd)
| write
    {s : LogState}
    {t : Nat}
    {buf : List UInt8}
    {fd : Int}
    (hReady : s.writers t = .ready buf fd) :
    LogStep s (.writer t) (s.writerWrite t buf fd)
| unlock
    {s : LogState}
    {t : Nat}
    {buf : List UInt8}
    (hWritten : s.writers t = .written buf) :
    LogStep s (.writer t) (s.writerUnlock t buf)
| rotateLock
    {s : LogState}
    (hMain : s.main = .idle)
    (hFree : s.mutex = none) :
    LogStep s .main
      { s with mutex := some .main, main := .sizing }
| rotateRead
    {s : LogState}
    (hMain : s.main = .sizing) :
    LogStep s .main
      { s with main := .sized s.log.byteCount }
| rotateUnlock
    {s : LogState}
    {size : Int}
    (hMain : s.main = .sized size) :
    LogStep s .main
      { s with mutex := none, main := .compare size }
| keep
    {s : LogState}
    {size : Int}
    (hMain : s.main = .compare size)
    (hSmall : size < s.log.byteCountMax) :
    LogStep s .main { s with main := .idle }
| rotate
    {s : LogState}
    {size : Int}
    (hMain : s.main = .compare size)
    (hLarge : s.log.byteCountMax ≤ size) :
    LogStep s .main
      { s with
        main := .renames (renameCount s.log.fileRotateCount) }
| rename
    {s : LogState}
    {i : Nat}
    (hMain : s.main = .renames (i + 1)) :
    LogStep s .main
      { s with
        disk := s.disk.rename i
        main := .renames i }
| swapLock
    {s : LogState}
    (hMain : s.main = .renames 0)
    (hFree : s.mutex = none) :
    LogStep s .main
      { s with mutex := some .main, main := .swapping }
| swap
    {s : LogState}
    (hMain : s.main = .swapping) :
    LogStep s .main s.rotateSwap
| swapUnlock
    {s : LogState}
    {fd : Int}
    (hMain : s.main = .swapped fd) :
    LogStep s .main
      { s with mutex := none, main := .closing fd }
| close
    {s : LogState}
    {fd : Int}
    (hMain : s.main = .closing fd) :
    LogStep s .main
      { s with
        disk := s.disk.setFd fd none
        main := .idle }
| foreignOpen
    {s : LogState}
    {fd : Int}
    (hFd : 0 ≤ fd)
    (hFresh : s.disk.fds fd = none) :
    LogStep s .others
      { s with disk := s.disk.setFd fd (some .foreign) }
| foreignClose
    {s : LogState}
    {fd : Int}
    (hForeign : s.disk.fds fd = some .foreign) :
    LogStep s .others
      { s with disk := s.disk.setFd fd none }

/- A new log file; none of its generations exists. -/
def newLogState
    (byteCountMax fileRotateCount : Int)
    (disk : Disk) : LogState where
  log := ⟨-1, 0, byteCountMax, fileRotateCount⟩
  disk := disk
  mutex := none
  writers := fun _ => .idle
  main := .idle
  lockOrder := []
  written := []
  strayed := []

/-
  All runs of the threads on a file with the given limits.
  Other files may be open from the beginning.
-/
def logging
    (byteCountMax fileRotateCount : Int) :
    Transition LogState LogParty where
  start := fun s => ∃ disk : Disk,
    (∀ i, disk.dir i = none) ∧
      s = newLogState byteCountMax fileRotateCount disk
  step := LogStep

end SmartSOCKSProxy
