import SmartSOCKSProxy.Core.ClientConnection
import SmartSOCKSProxy.Core.DnsUtil
import SmartSOCKSProxy.Core.ReadWrite
import SmartSOCKSProxy.Foundations.Memory

/-
  What a connection thread sees of the operating system.

  A thread talks to two peers, the client and the server it
  has dialed last.  The trace records every system call that
  a peer or an observer of the process can notice.

  Key definitions include:
    * `Peer`, `Event`, `World`
    * `World.sbRead`, `World.sbReadLen`, `World.sbWriteLen`
    * `receivedFrom`, `sentTo`
-/

namespace SmartSOCKSProxy

------------------------------------------------------------
-- Events
------------------------------------------------------------

/- The two ends that a connection thread talks to. -/
inductive Peer where
| client
| server
deriving DecidableEq, Repr

/- The other end. -/
def Peer.other : Peer → Peer
  | .client => .server
  | .server => .client

@[simp] theorem Peer.other_other
    (peer : Peer) :
    peer.other.other = peer := by
  cases peer <;> rfl

@[simp] theorem Peer.other_ne
    (peer : Peer) :
    peer.other ≠ peer := by
  cases peer <;> decide

@[simp] theorem Peer.ne_other
    (peer : Peer) :
    peer ≠ peer.other :=
  peer.other_ne.symm

theorem Peer.eq_or_eq_other
    (peer q : Peer) :
    q = peer ∨ q = peer.other := by
  cases peer <;> cases q <;> simp [Peer.other]

inductive Event where
| received (peer : Peer) (bytes : List UInt8)
| sent (peer : Peer) (bytes : List UInt8)
| opened (fd : Int)
| dialed (sinPort : UInt16) (sinAddr : UInt32)
| closed (fd : Int)
| threadMsg
deriving DecidableEq, Repr

/- The bytes that an event read from a peer. -/
def Event.receivedFrom
    (peer : Peer) : Event → List UInt8
  | .received p bytes => if p = peer then bytes else []
  | _ => []

/- The bytes that an event wrote to a peer. -/
def Event.sentTo
    (peer : Peer) : Event → List UInt8
  | .sent p bytes => if p = peer then bytes else []
  | _ => []

/- All bytes read from a peer, in order. -/
def receivedFrom
    (peer : Peer)
    (trace : List Event) : List UInt8 :=
  trace.flatMap (Event.receivedFrom peer)

/- All bytes written to a peer, in order. -/
def sentTo
    (peer : Peer)
    (trace : List Event) : List UInt8 :=
  trace.flatMap (Event.sentTo peer)

@[simp] theorem receivedFrom_nil
    (peer : Peer) :
    receivedFrom peer [] = [] := rfl

@[simp] theorem sentTo_nil
    (peer : Peer) :
    sentTo peer [] = [] := rfl

@[simp] theorem receivedFrom_append
    (peer : Peer)
    (front back : List Event) :
    receivedFrom peer (front ++ back) =
      receivedFrom peer front ++ receivedFrom peer back :=
  List.flatMap_append

@[simp] theorem sentTo_append
    (peer : Peer)
    (front back : List Event) :
    sentTo peer (front ++ back) =
      sentTo peer front ++ sentTo peer back :=
  List.flatMap_append

------------------------------------------------------------
-- Chunks as Events
------------------------------------------------------------

@[simp] theorem receivedFrom_received
    (peer q : Peer)
    (chunks : List (List UInt8)) :
    receivedFrom peer (chunks.map (.received q)) =
      if q = peer then chunks.flatten else [] := by
  induction chunks with
  | nil => simp
  | cons chunk chunks ih =>
      have hCons :
          receivedFrom peer
              ((chunk :: chunks).map (.received q)) =
            Event.receivedFrom peer (.received q chunk) ++
              receivedFrom peer
                (chunks.map (.received q)) := rfl
      rw [hCons, ih]
      by_cases hPeer : q = peer
      · simp [Event.receivedFrom, hPeer]
      · simp [Event.receivedFrom, hPeer]

@[simp] theorem sentTo_received
    (peer q : Peer)
    (chunks : List (List UInt8)) :
    sentTo peer (chunks.map (.received q)) = [] := by
  simp [sentTo, Event.sentTo]

@[simp] theorem sentTo_sent
    (peer q : Peer)
    (chunks : List (List UInt8)) :
    sentTo peer (chunks.map (.sent q)) =
      if q = peer then chunks.flatten else [] := by
  induction chunks with
  | nil => simp
  | cons chunk chunks ih =>
      have hCons :
          sentTo peer ((chunk :: chunks).map (.sent q)) =
            Event.sentTo peer (.sent q chunk) ++
              sentTo peer (chunks.map (.sent q)) := rfl
      rw [hCons, ih]
      by_cases hPeer : q = peer
      · simp [Event.sentTo, hPeer]
      · simp [Event.sentTo, hPeer]

@[simp] theorem receivedFrom_sent
    (peer q : Peer)
    (chunks : List (List UInt8)) :
    receivedFrom peer (chunks.map (.sent q)) = [] := by
  simp [receivedFrom, Event.receivedFrom]

@[simp] theorem sentTo_closed
    (peer : Peer)
    (fds : List Int) :
    sentTo peer (fds.map .closed) = [] := by
  simp [sentTo, Event.sentTo]

@[simp] theorem receivedFrom_closed
    (peer : Peer)
    (fds : List Int) :
    receivedFrom peer (fds.map .closed) = [] := by
  simp [receivedFrom, Event.receivedFrom]

------------------------------------------------------------
-- The World
------------------------------------------------------------

/- The two directions of a connected socket. -/
structure Sock where
  source : Source
  sink : Sink
deriving DecidableEq, Inhabited, Repr

/-
  What the attempt to dial a server will meet: the descriptor
  or the error number of socket(), the error numbers of the
  failing calls of connect(), the connected socket, and what
  the local buffers of the attempt hold at first.
-/
structure Dial where
  socket : Except Int Nat
  connects : List Int
  sock : Sock
  stack : Buffer
deriving Inhabited

structure World where
  socks : Peer → Sock
  trace : List Event
  errno : Int
  dns : Resolver
  dials : Nat → Dial
  dialed : Nat
  strerror : Int → Text
  now : Int
deriving Inhabited

namespace World

def source
    (w : World)
    (peer : Peer) : Source :=
  (w.socks peer).source

def sink
    (w : World)
    (peer : Peer) : Sink :=
  (w.socks peer).sink

/- Record an event. -/
def emit
    (w : World)
    (event : Event) : World :=
  { w with trace := w.trace ++ [event] }

/- The world after a run of reads from a peer. -/
def afterRead
    (w : World)
    (peer : Peer)
    (run : ReadRun) : World :=
  { w with
    socks := Function.update w.socks peer
      { w.socks peer with source := run.source }
    trace := w.trace ++ run.chunks.map (.received peer)
    errno := run.errno.getD w.errno }

/- The world after a run of writes to a peer. -/
def afterWrite
    (w : World)
    (peer : Peer)
    (run : WriteRun) : World :=
  { w with
    socks := Function.update w.socks peer
      { w.socks peer with sink := run.sink }
    trace := w.trace ++ run.chunks.map (.sent peer)
    errno := run.errno.getD w.errno }

/- `sb_read()` on the descriptor of a peer. -/
def sbRead
    (w : World)
    (peer : Peer)
    (buflen : Nat) : Int × List UInt8 × World :=
  let run := SmartSOCKSProxy.sbRead (w.source peer) buflen
  (run.rc, run.data, w.afterRead peer run)

/- `sb_read_len()` on the descriptor of a peer. -/
def sbReadLen
    (w : World)
    (peer : Peer)
    (buflen : Nat) : Int × List UInt8 × World :=
  let run := SmartSOCKSProxy.sbReadLen (w.source peer) buflen
  (run.rc, run.data, w.afterRead peer run)

/- `sb_write_len()` on the descriptor of a peer. -/
def sbWriteLen
    (w : World)
    (peer : Peer)
    (data : List UInt8) : Int × World :=
  let run := SmartSOCKSProxy.sbWriteLen (w.sink peer) data
  (run.rc, w.afterWrite peer run)

------------------------------------------------------------
-- What Reads and Writes Leave Alone
------------------------------------------------------------

section Frames

variable (w : World)
variable (peer q : Peer)
variable (readRun : ReadRun)
variable (writeRun : WriteRun)

theorem source_afterRead_self :
    (w.afterRead peer readRun).source peer =
      readRun.source := by
  simp [source, afterRead]

theorem source_afterRead_ne
    (hNe : q ≠ peer) :
    (w.afterRead peer readRun).source q = w.source q := by
  simp [source, afterRead, hNe]

@[simp] theorem sink_afterRead :
    (w.afterRead peer readRun).sink q = w.sink q := by
  by_cases hPeer : q = peer
  · subst hPeer
    simp [sink, afterRead]
  · simp [sink, afterRead, hPeer]

theorem sink_afterWrite_self :
    (w.afterWrite peer writeRun).sink peer =
      writeRun.sink := by
  simp [sink, afterWrite]

@[simp] theorem source_afterWrite :
    (w.afterWrite peer writeRun).source q =
      w.source q := by
  by_cases hPeer : q = peer
  · subst hPeer
    simp [source, afterWrite]
  · simp [source, afterWrite, hPeer]

@[simp] theorem trace_afterRead :
    (w.afterRead peer readRun).trace =
      w.trace ++ readRun.chunks.map (.received peer) := rfl

@[simp] theorem trace_afterWrite :
    (w.afterWrite peer writeRun).trace =
      w.trace ++ writeRun.chunks.map (.sent peer) := rfl

end Frames

------------------------------------------------------------
-- How Reads and Writes End
------------------------------------------------------------

/- A read of one buffer ends the stream, fails or delivers. -/
theorem sbRead_cases
    (w : World)
    (peer : Peer)
    {n : Nat}
    (hPos : 0 < n) :
    ∃ (chunks : List (List UInt8)) (w' : World),
      w'.trace = w.trace ++ chunks.map (.received peer) ∧
      (∀ q ≠ peer, w'.source q = w.source q) ∧
      (w.sbRead peer n = (0, [], w') ∧
          chunks.flatten = [] ∧
          (w.source peer).pending = [] ∨
        w.sbRead peer n = (-1, [], w') ∧
          chunks.flatten = [] ∨
        w.sbRead peer n =
            ((chunks.flatten.length : Int),
              chunks.flatten, w') ∧
          chunks.flatten ≠ [] ∧
          (w.source peer).pending ≠ []) := by
  rcases hRun : SmartSOCKSProxy.sbRead (w.source peer) n
    with ⟨rc, chunks, errno, left⟩
  have hRead :
      w.sbRead peer n =
        (rc, chunks.flatten,
          w.afterRead peer ⟨rc, chunks, errno, left⟩) := by
    rw [sbRead, hRun]
    rfl
  have hOutcome := sbRead_outcome (w.source peer) n
  have hEnded := sbRead_eq_zero_iff
    (s := w.source peer) hPos
  have hTakes := (sbRead_takes (w.source peer) n).pending
  rw [hRun] at hOutcome hEnded hTakes
  simp only [ReadRun.data] at hOutcome hEnded hTakes
  refine ⟨chunks,
    w.afterRead peer ⟨rc, chunks, errno, left⟩, rfl,
    fun q hNe => source_afterRead_ne w peer q _ hNe, ?_⟩
  rw [hRead]
  rcases hOutcome with hLen | ⟨rfl, hNil, _⟩
  · by_cases hNil : chunks.flatten = []
    · left
      have hZero : rc = 0 := by simp [hLen, hNil]
      exact ⟨by rw [hZero, hNil], hNil,
        (hEnded hZero.ge).mp hZero⟩
    · right
      right
      refine ⟨by rw [hLen], hNil, ?_⟩
      rw [hTakes]
      exact List.append_ne_nil_of_left_ne_nil hNil _
  · right
    left
    exact ⟨by rw [hNil], hNil⟩

/- A write is complete, or fails after a front part. -/
theorem sbWriteLen_cases
    (w : World)
    (peer : Peer)
    (data : List UInt8) :
    ∃ (chunks : List (List UInt8)) (w' : World),
      w'.trace = w.trace ++ chunks.map (.sent peer) ∧
      (∀ q, w'.source q = w.source q) ∧
      (w.sbWriteLen peer data =
            ((data.length : Int), w') ∧
          chunks.flatten = data ∨
        w.sbWriteLen peer data = (-1, w') ∧
          chunks.flatten <+: data) := by
  rcases hRun : SmartSOCKSProxy.sbWriteLen (w.sink peer) data
    with ⟨rc, chunks, errno, left⟩
  have hWrite :
      w.sbWriteLen peer data =
        (rc,
          w.afterWrite peer ⟨rc, chunks, errno, left⟩) := by
    rw [sbWriteLen, hRun]
  have hOutcome := sbWriteLen_outcome (w.sink peer) data
  rw [hRun] at hOutcome
  simp only [WriteRun.data] at hOutcome
  refine ⟨chunks,
    w.afterWrite peer ⟨rc, chunks, errno, left⟩, rfl,
    fun q => source_afterWrite w peer q _, ?_⟩
  rw [hWrite]
  rcases hOutcome with ⟨hData, rfl⟩ | ⟨hPrefix, rfl, _⟩
  · exact Or.inl ⟨rfl, hData⟩
  · exact Or.inr ⟨rfl, hPrefix⟩

end World

/- `ECONNRESET` -/
def econnreset : Int := 54

/- `ECONNREFUSED` -/
def econnrefused : Int := 61

/- The last error, reported as the connection's status. -/
def reportError
    (con : ClientConnection)
    (w : World) : ClientConnection :=
  setClientConnectionStatus con w.errno
    (some (Text.ascii "Error".toList))
    (some (w.strerror w.errno))

end SmartSOCKSProxy
