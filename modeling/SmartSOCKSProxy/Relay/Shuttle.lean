import SmartSOCKSProxy.Core.Exchange

/-
  The relay between a client and a server.

  The relay polls both descriptors.  A readable descriptor
  has one buffer of data moved to the other side, or merely
  drained when the other side cannot be written to.

  Key definitions include:
    * `shuttle`
    * `Relay`, `relayHalf`, `relayRound`
    * `shuttleDataBackAndForth`
    * `shuttleNullConnection`

  Key theorems include:
    * `shuttle_outcome`
    * `relayHalf_outcome`
-/

namespace SmartSOCKSProxy

------------------------------------------------------------
-- Moving One Buffer
------------------------------------------------------------

/-
  Read at most 10000 bytes and write them to the other side.
  A negative `fdWrite` drains the data.  The zero that the
  source stores behind the data is read by nobody; it is
  among the `shuttleStores`.
-/
def shuttle
    (con : ClientConnection)
    (w : World)
    (fdRead : Peer)
    (fdWrite : Int) : Int × ClientConnection × World :=
  let (readRc, data, w) := w.sbRead fdRead 10000
  if readRc = 0 then
    (readRc, con, w)
  else if readRc < 0 ∧ w.errno = econnreset then
    (readRc, reportError con w, w)
  else if readRc < 0 then
    (readRc, reportError con w, w)
  else if fdWrite < 0 then
    (readRc, con, w)
  else
    let (writeRc, w) := w.sbWriteLen fdRead.other data
    (writeRc, con, w)

------------------------------------------------------------
-- The Two Directions
------------------------------------------------------------

namespace ClientConnection

/- `fd_in` for the client and `fd_out` for the server. -/
def fd
    (con : ClientConnection) : Peer → Int
  | .client => con.fdIn
  | .server => con.fdOut

/- Forget a descriptor that was closed. -/
def forgetFd
    (con : ClientConnection) : Peer → ClientConnection
  | .client => { con with fdIn := -1 }
  | .server => { con with fdOut := -1 }

/- The bytes relayed so far from a peer. -/
def relayed
    (con : ClientConnection) : Peer → UInt64
  | .client => con.bytesTx
  | .server => con.bytesRx

/- Count bytes that came from a peer. -/
def count
    (con : ClientConnection)
    (rc : Int) : Peer → ClientConnection
  | .client =>
      { con with bytesTx := con.bytesTx + UInt64.ofInt rc }
  | .server =>
      { con with bytesRx := con.bytesRx + UInt64.ofInt rc }

end ClientConnection

/- The poll() flags that the relay looks at. -/
structure Revents where
  rdnorm : Bool
  hup : Bool
  err : Bool
  nval : Bool
deriving DecidableEq, Repr

namespace Revents

def none : Revents :=
  ⟨false, false, false, false⟩

/- poll() ignores negative descriptors. -/
def on
    (revents : Revents)
    (fd : Int) : Revents :=
  if fd < 0 then none else revents

end Revents

/-
  The result of one poll(): a failure, or the flags of the
  two descriptors.
-/
inductive PollEvent where
| failed (errno : Int)
| ready (revents : Peer → Revents)

/-
  The variables of the relay loop.  `canWrite .client` is
  `in_can_write` and `canWrite .server` is `out_can_write`.
-/
structure Relay where
  con : ClientConnection
  w : World
  canWrite : Peer → Bool
  continueLoop : Bool

/- The descriptor to write to for a peer, or -1. -/
def Relay.writeFd
    (st : Relay)
    (peer : Peer) : Int :=
  if st.canWrite peer then st.con.fd peer else -1

/-
  The half of an iteration that serves one descriptor, and
  whether the relay goes on without an error.
-/
def relayHalf
    (peer : Peer)
    (revents : Revents)
    (st : Relay) : Bool × Relay :=
  if revents.rdnorm then
    let (rc, con, w) :=
      shuttle st.con st.w peer (st.writeFd peer.other)
    if rc < 0 then
      (false, { st with con := con, w := w })
    else if rc = 0 then
      (true,
        { st with
          con := con.forgetFd peer
          w := w.emit (.closed (con.fd peer))
          continueLoop := false })
    else
      (true, { st with con := con.count rc peer, w := w })
  else (true, st)

/- Hang-ups that poll() reports stop the writing. -/
def noteHangups
    (revents : Peer → Revents)
    (st : Relay) : Relay :=
  { st with
    canWrite := fun peer =>
      st.canWrite peer && !(revents peer).hup }

/- The flags that poll() returns for the two descriptors. -/
def pollFlags
    (revents : Peer → Revents)
    (st : Relay) : Peer → Revents :=
  fun peer => (revents peer).on (st.con.fd peer)

/- Whether a peer may still be served by a next iteration. -/
def stillServed
    (revents : Peer → Revents)
    (st : Relay)
    (peer : Peer) : Bool :=
  st.canWrite peer || (revents peer).rdnorm

/-
  What an iteration does after poll().  A number is the
  return value of the relay.
-/
def relayRound
    (revents : Peer → Revents)
    (st : Relay) : Option Int × Relay :=
  let revents := pollFlags revents st
  let st := noteHangups revents st
  if (revents .client).err || (revents .client).nval then
    (some 0, st)
  else if
      (revents .server).err || (revents .server).nval then
    (some 0, st)
  else
    match relayHalf .client (revents .client) st with
    | (false, st) => (some 0, st)
    | (true, st) =>
        match relayHalf .server (revents .server) st with
        | (false, st) => (some 0, st)
        | (true, st) =>
            if st.continueLoop &&
                stillServed revents st .client &&
                stillServed revents st .server then
              (none, st)
            else (some 1, st)

/-
  The loop, over the results of the calls of poll().  While
  a call has not returned there is no return value.
-/
def relayLoop :
    List PollEvent → Relay → Option Int × Relay
  | [], st => (none, st)
  | .failed e :: polls, st =>
      let st := { st with w := { st.w with errno := e } }
      if e = EINTR then relayLoop polls st
      else (some 0, st)
  | .ready revents :: polls, st =>
      match relayRound revents st with
      | (some rc, st) => (some rc, st)
      | (none, st) => relayLoop polls st

/- The state in which the relay enters its loop. -/
def Relay.start
    (con : ClientConnection)
    (w : World) : Relay where
  con := con
  w := w
  canWrite := fun _ => true
  continueLoop := true

def shuttleDataBackAndForth
    (polls : List PollEvent)
    (con : ClientConnection)
    (w : World) : Option Int × Relay :=
  relayLoop polls (Relay.start con w)

------------------------------------------------------------
-- The Null Relay
------------------------------------------------------------

/-
  Discard what the client sends, one byte at a time.  The
  fuel bounds the number of bytes.
-/
def nullLoop :
    Nat → ClientConnection → World →
      Int × ClientConnection × World
  | 0, con, w => (0, con, w)
  | fuel + 1, con, w =>
      let (rc, _, w) := w.sbReadLen .client 1
      if rc = 1 then
        nullLoop fuel
          { con with bytesRx := con.bytesRx + 1 } w
      else (if rc = 0 then 1 else 0, reportError con w, w)

def shuttleNullConnection
    (con : ClientConnection)
    (w : World) : Int × ClientConnection × World :=
  nullLoop ((w.source .client).pending.length + 1) con w

/- Every byte needs one unit of fuel, and the end another. -/
theorem nullLoop_enough
    {fuel : Nat}
    (con : ClientConnection)
    {w : World}
    (hFuel : (w.source .client).pending.length < fuel) :
    nullLoop (fuel + 1) con w = nullLoop fuel con w := by
  induction fuel generalizing con w with
  | zero => omega
  | succ fuel ih =>
      rw [nullLoop, nullLoop]
      rcases hRead : w.sbReadLen .client 1 with
        ⟨rc, data, w₁⟩
      dsimp only
      by_cases hRc : rc = 1
      · rw [if_pos hRc, if_pos hRc]
        have hExpect :
            w.expect .client 1 = (some data, w₁) := by
          simp [World.expect, hRead, hRc]
        rcases World.expect_some hExpect with
          ⟨hLength, hTaken⟩
        apply ih
        rw [hTaken.pending, List.length_append] at hFuel
        omega
      · rw [if_neg hRc, if_neg hRc]

------------------------------------------------------------
-- What Moving One Buffer Does
------------------------------------------------------------

/- Only the status of a connection was changed. -/
def SameCounters
    (con con' : ClientConnection) : Prop :=
  con'.fd = con.fd ∧ con'.relayed = con.relayed

theorem reportError_sameCounters
    (con : ClientConnection)
    (w : World) :
    SameCounters con (reportError con w) := by
  constructor <;> funext peer <;> cases peer <;> rfl

/-
  The ways in which one call of `shuttle` ends: what it read
  and wrote, its return value, and the connection.
-/
inductive ShuttleOutcome
    (con : ClientConnection)
    (pending : List UInt8)
    (fdWrite : Int) :
    List UInt8 → List UInt8 →
      Int → ClientConnection → Prop where
| ended
    (hEnd : pending = []) :
    ShuttleOutcome con pending fdWrite [] [] 0 con
| readFailed
    {con' : ClientConnection}
    (hSame : SameCounters con con') :
    ShuttleOutcome con pending fdWrite [] [] (-1) con'
| drained
    {got : List UInt8}
    (hMore : pending ≠ [])
    (hNe : got ≠ [])
    (hWrite : fdWrite < 0) :
    ShuttleOutcome con pending fdWrite got []
      got.length con
| forwarded
    {got : List UInt8}
    (hMore : pending ≠ [])
    (hNe : got ≠ [])
    (hWrite : 0 ≤ fdWrite) :
    ShuttleOutcome con pending fdWrite got got
      got.length con
| writeFailed
    {got put : List UInt8}
    (hPrefix : put <+: got)
    (hWrite : 0 ≤ fdWrite) :
    ShuttleOutcome con pending fdWrite got put (-1) con

theorem shuttle_outcome
    (con : ClientConnection)
    (w : World)
    (fdRead : Peer)
    (fdWrite : Int) :
    let out := shuttle con w fdRead fdWrite
    ∃ got put : List (List UInt8),
      out.2.2.trace =
        w.trace ++ got.map (.received fdRead) ++
          put.map (.sent fdRead.other) ∧
      (∀ q ≠ fdRead, out.2.2.source q = w.source q) ∧
      ShuttleOutcome con (w.source fdRead).pending fdWrite
        got.flatten put.flatten out.1 out.2.1 := by
  intro out
  have hOut : out = shuttle con w fdRead fdWrite := rfl
  unfold shuttle at hOut
  rcases w.sbRead_cases fdRead (n := 10000) (by omega) with
    ⟨got, w₁, hTrace, hSource, hEnd | hFail | hData⟩
  · rcases hEnd with ⟨hRead, hNil, hEnd⟩
    simp only [hRead, if_true] at hOut
    rw [hOut]
    refine ⟨got, [], by simp [hTrace], hSource, ?_⟩
    rw [hNil]
    exact .ended hEnd
  · rcases hFail with ⟨hRead, hNil⟩
    have hFailed :
        out = (-1, reportError con w₁, w₁) := by
      rw [hOut, hRead]
      simp
    rw [hFailed]
    refine ⟨got, [], by simp [hTrace], hSource, ?_⟩
    rw [hNil]
    exact .readFailed (reportError_sameCounters con w₁)
  · rcases hData with ⟨hRead, hNe, hMore⟩
    have hPos := List.length_pos_iff.mpr hNe
    rw [hRead] at hOut
    dsimp only at hOut
    rw [if_neg (by omega), if_neg (by omega),
      if_neg (by omega)] at hOut
    by_cases hDrain : fdWrite < 0
    · rw [if_pos hDrain] at hOut
      rw [hOut]
      exact ⟨got, [], by simp [hTrace], hSource,
        .drained hMore hNe hDrain⟩
    · rw [if_neg hDrain] at hOut
      rcases w₁.sbWriteLen_cases fdRead.other got.flatten
        with ⟨put, w₂, hPut, hSource₂, hDone | hFail⟩
      · rcases hDone with ⟨hWrite, hAll⟩
        rw [hWrite] at hOut
        rw [hOut]
        refine ⟨got, put, ?_, ?_, ?_⟩
        · rw [hPut, hTrace]
        · intro q hq
          rw [hSource₂, hSource q hq]
        · rw [hAll]
          exact .forwarded hMore hNe (by omega)
      · rcases hFail with ⟨hWrite, hPrefix⟩
        rw [hWrite] at hOut
        rw [hOut]
        refine ⟨got, put, ?_, ?_, ?_⟩
        · rw [hPut, hTrace]
        · intro q hq
          rw [hSource₂, hSource q hq]
        · exact .writeFailed hPrefix (by omega)

------------------------------------------------------------
-- What Half an Iteration Does
------------------------------------------------------------

/-
  The ways in which half an iteration ends: what it read and
  wrote, whether the relay goes on without an error, and the
  connection and the loop flag that it leaves.
-/
inductive HalfOutcome
    (peer : Peer)
    (revents : Revents)
    (st : Relay) :
    List UInt8 → List UInt8 →
      Bool → ClientConnection → Bool → Prop where
| skipped
    (hIdle : revents.rdnorm = false) :
    HalfOutcome peer revents st [] []
      true st.con st.continueLoop
| ended
    (hReady : revents.rdnorm = true)
    (hEnd : (st.w.source peer).pending = []) :
    HalfOutcome peer revents st [] []
      true (st.con.forgetFd peer) false
| drained
    {got : List UInt8}
    (hReady : revents.rdnorm = true)
    (hMore : (st.w.source peer).pending ≠ [])
    (hNe : got ≠ [])
    (hWrite : st.writeFd peer.other < 0) :
    HalfOutcome peer revents st got []
      true (st.con.count got.length peer) st.continueLoop
| forwarded
    {got : List UInt8}
    (hMore : (st.w.source peer).pending ≠ [])
    (hWrite : 0 ≤ st.writeFd peer.other) :
    HalfOutcome peer revents st got got
      true (st.con.count got.length peer) st.continueLoop
| failed
    {got put : List UInt8}
    {con' : ClientConnection}
    (hPrefix : put <+: got)
    (hWrite : put = [] ∨ 0 ≤ st.writeFd peer.other) :
    HalfOutcome peer revents st got put
      false con' st.continueLoop

/- The events of half an iteration that serves `peer`. -/
def halfEvents
    (peer : Peer)
    (got put : List (List UInt8))
    (closing : List Int) : List Event :=
  got.map (.received peer) ++
    (put.map (.sent peer.other) ++ closing.map .closed)

theorem relayHalf_outcome
    (peer : Peer)
    (revents : Revents)
    (st : Relay) :
    let out := relayHalf peer revents st
    ∃ got put closing,
      out.2.w.trace =
        st.w.trace ++ halfEvents peer got put closing ∧
      (∀ q ≠ peer, out.2.w.source q = st.w.source q) ∧
      out.2.canWrite = st.canWrite ∧
      HalfOutcome peer revents st got.flatten put.flatten
        out.1 out.2.con out.2.continueLoop := by
  intro out
  have hOut : out = relayHalf peer revents st := rfl
  unfold relayHalf at hOut
  by_cases hReady : revents.rdnorm = true
  · rw [if_pos hReady] at hOut
    rcases shuttle_outcome st.con st.w peer
        (st.writeFd peer.other) with
      ⟨got, put, hTrace, hSource, hOutcome⟩
    rcases hShuttle :
        shuttle st.con st.w peer (st.writeFd peer.other)
      with ⟨rc, con', w'⟩
    rw [hShuttle] at hOut hTrace hSource hOutcome
    dsimp only at hOut hTrace hSource hOutcome
    have hEvents :
        w'.trace =
          st.w.trace ++ halfEvents peer got put [] := by
      rw [hTrace, List.append_assoc, halfEvents,
        List.map_nil, List.append_nil]
    generalize hGot : got.flatten = gotBytes at hOutcome
    generalize hPut : put.flatten = putBytes at hOutcome
    cases hOutcome with
    | ended hEnd =>
        rw [if_neg (by omega), if_pos rfl] at hOut
        rw [hOut]
        refine ⟨got, put, [st.con.fd peer], ?_, hSource,
          rfl, ?_⟩
        · simp [World.emit, hTrace, halfEvents]
        · rw [hGot, hPut]
          exact .ended hReady hEnd
    | readFailed hSame =>
        rw [if_pos (by omega)] at hOut
        rw [hOut]
        refine ⟨got, put, [], hEvents, hSource, rfl, ?_⟩
        rw [hGot, hPut]
        exact .failed List.nil_prefix (Or.inl rfl)
    | drained hMore hNe hWrite =>
        have hPos := List.length_pos_iff.mpr hNe
        rw [if_neg (by omega), if_neg (by omega)] at hOut
        rw [hOut]
        refine ⟨got, put, [], hEvents, hSource, rfl, ?_⟩
        rw [hGot, hPut]
        exact .drained hReady hMore hNe hWrite
    | forwarded hMore hNe hWrite =>
        have hPos := List.length_pos_iff.mpr hNe
        rw [if_neg (by omega), if_neg (by omega)] at hOut
        rw [hOut]
        refine ⟨got, put, [], hEvents, hSource, rfl, ?_⟩
        rw [hGot, hPut]
        exact .forwarded hMore hWrite
    | writeFailed hPrefix hWrite =>
        rw [if_pos (by omega)] at hOut
        rw [hOut]
        refine ⟨got, put, [], hEvents, hSource, rfl, ?_⟩
        rw [hGot, hPut]
        exact .failed hPrefix (Or.inr hWrite)
  · rw [if_neg hReady] at hOut
    rw [hOut]
    refine ⟨[], [], [], by simp [halfEvents], by simp,
      rfl, ?_⟩
    exact .skipped (by simpa using hReady)

------------------------------------------------------------
-- What an Iteration Does
------------------------------------------------------------

/-
  The ways in which an iteration ends: it stops at an error
  flag, at a failure while serving the client, or after it
  has served both.
-/
inductive RoundOutcome
    (revents : Peer → Revents)
    (st : Relay) : Option Int × Relay → Prop where
| flagged :
    RoundOutcome revents st
      (some 0, noteHangups (pollFlags revents st) st)
| clientFailed
    {st₁ : Relay}
    (hClient :
      relayHalf .client (pollFlags revents st .client)
          (noteHangups (pollFlags revents st) st) =
        (false, st₁)) :
    RoundOutcome revents st (some 0, st₁)
| serverFailed
    {st₁ st₂ : Relay}
    (hClient :
      relayHalf .client (pollFlags revents st .client)
          (noteHangups (pollFlags revents st) st) =
        (true, st₁))
    (hServer :
      relayHalf .server (pollFlags revents st .server)
          st₁ = (false, st₂)) :
    RoundOutcome revents st (some 0, st₂)
| served
    {st₁ st₂ : Relay}
    (hClient :
      relayHalf .client (pollFlags revents st .client)
          (noteHangups (pollFlags revents st) st) =
        (true, st₁))
    (hServer :
      relayHalf .server (pollFlags revents st .server)
          st₁ = (true, st₂)) :
    RoundOutcome revents st
      (if st₂.continueLoop ∧
          stillServed (pollFlags revents st) st₂ .client ∧
          stillServed (pollFlags revents st) st₂ .server
        then none else some 1, st₂)

theorem relayRound_outcome
    (revents : Peer → Revents)
    (st : Relay) :
    RoundOutcome revents st (relayRound revents st) := by
  unfold relayRound
  dsimp only
  split
  · exact .flagged
  split
  · exact .flagged
  rcases hClient :
      relayHalf .client (pollFlags revents st .client)
        (noteHangups (pollFlags revents st) st)
    with ⟨go₁, st₁⟩
  cases go₁ with
  | false => exact .clientFailed hClient
  | true =>
      dsimp only
      rcases hServer :
          relayHalf .server (pollFlags revents st .server)
            st₁ with ⟨go₂, st₂⟩
      cases go₂ with
      | false => exact .serverFailed hClient hServer
      | true =>
          have hServed :=
            RoundOutcome.served hClient hServer
          dsimp only
          split
          · rename_i hMore
            simp only [Bool.and_eq_true, and_assoc] at hMore
            rwa [if_pos hMore] at hServed
          · rename_i hDone
            simp only [Bool.and_eq_true, and_assoc] at hDone
            rwa [if_neg hDone] at hServed

end SmartSOCKSProxy
