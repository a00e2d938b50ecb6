import SmartSOCKSProxy.Socks.Dialing
import SmartSOCKSProxy.Socks.Outcome
import SmartSOCKSProxy.Socks.PortForward

/-
  What status a session leaves behind.

  A session that fails always leaves an error status.  One
  that ends well leaves the status of its last attempt, or
  the last error number when it used the null tunnel.

  Key definitions include:
    * `Session`, `Session.ending`
    * `World.DrainsClean`
    * `Session.StatusAgrees`, `Session.EndsClean`

  Key theorems include:
    * `attemptTunnel_status`, `relayLoop_status`
    * `nullLoop_errno_iff`
    * `Session.run_eq`
    * `Session.statusAgrees_iff`
-/

namespace SmartSOCKSProxy

------------------------------------------------------------
-- The Status After an Attempt
------------------------------------------------------------

/- Neither status nor tunnel were touched. -/
structure SameStatus
    (con con' : ClientConnection) : Prop where
  status : con'.status = con.status
  tunnel : con'.tunnel = con.tunnel

theorem resolveDestination_sameStatus
    (con : ClientConnection)
    (w : World) :
    SameStatus con (resolveDestination con w).1 := by
  rcases resolveDestination_eq con w with
    ⟨dstHost, dns, hRun, _⟩
  rw [hRun]
  exact ⟨rfl, rfl⟩

/- Direct connections never touch the status. -/
theorem connectDirect_sameStatus
    (st : Connecting) :
    SameStatus st.con (connectDirect st).2.con := by
  have hResolve :=
    resolveDestination_sameStatus st.con st.w
  unfold connectDirect
  rcases hDst : resolveDestination st.con st.w with
    ⟨con, w⟩
  rw [hDst] at hResolve
  dsimp only at hResolve ⊢
  rcases hResolve with ⟨hStatus, hTunnel⟩
  cases con.dstHost.addr with
  | unspec => exact ⟨hStatus, hTunnel⟩
  | inet6 _ _ => exact ⟨hStatus, hTunnel⟩
  | inet sinPort sinAddr =>
      rcases hDial : w.dialServer sinPort sinAddr with
        ⟨result, w'⟩
      simp only [hDial]
      cases result with
      | noSocket => exact ⟨hStatus, hTunnel⟩
      | connected fd => exact ⟨hStatus, hTunnel⟩
      | notConnected =>
          dsimp only
          split
          · exact ⟨hStatus, hTunnel⟩
          · exact ⟨hStatus, hTunnel⟩

/- Success through a tunnel's server resets the status. -/
theorem connectViaSshSocks5_status
    (con : ClientConnection)
    (w : World)
    (tun : SshTunnel)
    (hMade : (connectViaSshSocks5 con w tun).1 ≠ 0) :
    (connectViaSshSocks5 con w tun).2.1.status =
      ccStatusOkay := by
  revert hMade
  unfold connectViaSshSocks5
  dsimp only
  split
  · intro hMade
    exact absurd ‹_› hMade
  · split
    · intro hMade
      exact absurd ‹_› hMade
    · intro _
      rfl

/- The connection remembers the tunnel of an attempt. -/
theorem attemptTunnel_tunnel
    (tun : SshTunnel)
    (st : Connecting) :
    (attemptTunnel tun st).2.con.tunnel = some tun := by
  unfold attemptTunnel
  dsimp only
  split
  · exact (connectDirect_sameStatus _).tunnel
  · split
    · rfl
    · exact (connectViaSshSocks5_sameTarget _ _ _).1.tunnel

/-
  The status after an attempt that succeeded: reset by an
  attempt through a tunnel's server, and kept by the others.
-/
theorem attemptTunnel_status
    {tun : SshTunnel}
    {st : Connecting}
    (hMade : (attemptTunnel tun st).1 ≠ 0) :
    (attemptTunnel tun st).2.con.status =
      if tun.isDirect ∨ tun.isNull then st.con.status
      else ccStatusOkay := by
  revert hMade
  unfold attemptTunnel
  dsimp only
  by_cases hDirect : tun.isDirect = true
  · rw [if_pos hDirect, if_pos (Or.inl hDirect)]
    intro _
    exact (connectDirect_sameStatus _).status
  · rw [if_neg hDirect]
    by_cases hNull : tun.isNull = true
    · rw [if_pos hNull, if_pos (Or.inr hNull)]
      intro _
      rfl
    · rw [if_neg hNull,
        if_neg (not_or.mpr ⟨hDirect, hNull⟩)]
      exact connectViaSshSocks5_status _ _ tun

------------------------------------------------------------
-- The Status After the Relay
------------------------------------------------------------

/- Only a buffer that could not be moved sets the status. -/
theorem shuttle_status
    (con : ClientConnection)
    (w : World)
    (fdRead : Peer)
    (fdWrite : Int) :
    (shuttle con w fdRead fdWrite).1 < 0 ∨
      (shuttle con w fdRead fdWrite).2.1 = con := by
  unfold shuttle
  dsimp only
  split
  · exact Or.inr rfl
  · split
    · exact Or.inl (And.left ‹_›)
    · split
      · exact Or.inl ‹_›
      · split
        · exact Or.inr rfl
        · exact Or.inr rfl

theorem relayHalf_status
    {peer : Peer}
    {revents : Revents}
    {st st' : Relay}
    (hHalf : relayHalf peer revents st = (true, st')) :
    st'.con.status = st.con.status := by
  have hShuttle :=
    shuttle_status st.con st.w peer (st.writeFd peer.other)
  unfold relayHalf at hHalf
  rcases hRun :
      shuttle st.con st.w peer (st.writeFd peer.other)
    with ⟨rc, con, w⟩
  simp only [hRun] at hHalf hShuttle
  split at hHalf
  · split at hHalf
    · simp at hHalf
    · rename_i hRc
      rw [hShuttle.resolve_left hRc] at hHalf
      split at hHalf
      · cases hHalf
        cases peer <;> rfl
      · cases hHalf
        cases peer <;> rfl
  · cases hHalf
    rfl

theorem relayRound_status
    {revents : Peer → Revents}
    {st : Relay}
    (hOkay : (relayRound revents st).1 ≠ some 0) :
    (relayRound revents st).2.con.status =
      st.con.status := by
  have hOutcome := relayRound_outcome revents st
  generalize relayRound revents st = out at *
  cases hOutcome with
  | flagged => exact absurd rfl hOkay
  | clientFailed => exact absurd rfl hOkay
  | serverFailed => exact absurd rfl hOkay
  | served hClient hServer =>
      rw [relayHalf_status hServer,
        relayHalf_status hClient]
      rfl

/- A relay that ends well leaves the status alone. -/
theorem relayLoop_status
    {polls : List PollEvent}
    {st st' : Relay}
    (hRun : relayLoop polls st = (some 1, st')) :
    st'.con.status = st.con.status := by
  induction polls generalizing st with
  | nil => simp [relayLoop] at hRun
  | cons poll polls ih =>
      rw [relayLoop.eq_def] at hRun
      cases poll with
      | failed e =>
          dsimp only at hRun
          split at hRun
          · have hSame := ih hRun
            exact hSame
          · simp at hRun
      | ready revents =>
          dsimp only at hRun
          have hRound :
              (relayRound revents st).1 ≠ some 0 →
                (relayRound revents st).2.con.status =
                  st.con.status :=
            relayRound_status
          rcases hStep : relayRound revents st with
            ⟨_ | rc, st₁⟩
          · rw [hStep] at hRun hRound
            rw [ih hRun]
            exact hRound (by simp)
          · rw [hStep] at hRun hRound
            cases hRun
            exact hRound (by simp)

/- The null relay always sets the status. -/
theorem nullLoop_status
    (fuel : Nat)
    {con con' : ClientConnection}
    {w w' : World}
    (hRun : nullLoop fuel con w = (1, con', w')) :
    con'.status = w'.errno := by
  induction fuel generalizing con w with
  | zero => simp [nullLoop] at hRun
  | succ fuel ih =>
      rw [nullLoop] at hRun
      rcases hRead : w.sbReadLen .client 1 with
        ⟨rc, data, w₁⟩
      rw [hRead] at hRun
      dsimp only at hRun
      split at hRun
      · exact ih hRun
      · rcases Prod.mk.inj hRun with ⟨_, hLeft⟩
        cases hLeft
        rfl

------------------------------------------------------------
-- Error Numbers of the Null Relay
------------------------------------------------------------

/-
  The null relay starts without an error number, and none of
  its reads up to the end of the stream is interrupted.
-/
def World.DrainsClean
    (w : World) : Prop :=
  w.errno = 0 ∧
    ReadEvent.fail EINTR ∉
      (w.source .client).reads.take
        ((w.source .client).pending.length + 1)

/- A read that does not fail is at most interrupted. -/
theorem sbReadLenLoop_errno
    (fuel : Nat)
    (s : Source)
    (index remain : Nat) :
    (sbReadLenLoop fuel s index remain).rc = -1 ∨
      (sbReadLenLoop fuel s index remain).errno = none ∨
      (sbReadLenLoop fuel s index remain).errno =
        some EINTR := by
  induction fuel generalizing s index remain with
  | zero => exact Or.inl rfl
  | succ fuel ih =>
      rw [sbReadLenLoop]
      rcases s.read remain with ⟨e | chunk, s'⟩
      · dsimp only
        split
        · rename_i hIntr
          subst hIntr
          rcases ih s' index remain with
            hFailed | hNone | hIntr
          · exact Or.inl hFailed
          · right; right
            simp [ReadRun.retry, hNone]
          · right; right
            simp [ReadRun.retry, hIntr]
        · exact Or.inl rfl
      · dsimp only
        split
        · exact ih s' _ _
        · exact Or.inr (Or.inl rfl)

/- One byte, or the end, by a read that is not disturbed. -/
theorem sbReadLen_one_of_undisturbed
    {s : Source}
    (hHead : ∀ e, s.reads.head? ≠ some (.fail e)) :
    (sbReadLen s 1).rc = (s.pending.take 1).length ∧
      (sbReadLen s 1).errno = none ∧
      (sbReadLen s 1).source =
        ⟨s.pending.drop 1, s.reads.drop 1⟩ := by
  have hShort : (s.pending.take 1).length ≤ 1 :=
    List.length_take_le 1 s.pending
  have hRead :
      s.read 1 =
        (.ok (s.pending.take 1),
          ⟨s.pending.drop 1, s.reads.drop 1⟩) := by
    rcases s with ⟨pending, _ | ⟨extra | e, reads⟩⟩
    · rfl
    · have hOne : min 1 (extra + 1) = 1 := by omega
      simp only [Source.read, hOne]
      rfl
    · exact absurd rfl (hHead e)
  unfold sbReadLen
  rw [← Nat.succ_pred s.budget_pos.ne', sbReadLenLoop, hRead]
  dsimp only
  rw [if_neg (by omega)]
  refine ⟨?_, rfl, rfl⟩
  dsimp only
  split
  · rw [Nat.zero_add]
  · omega

/- A read that meets a failure fails, or is interrupted. -/
theorem sbReadLen_one_of_fail
    {s : Source}
    {e : Int}
    (hHead : s.reads.head? = some (.fail e)) :
    (sbReadLen s 1).rc = -1 ∨
      e = EINTR ∧ (sbReadLen s 1).errno = some EINTR := by
  rcases s with ⟨pending, _ | ⟨extra | e', reads⟩⟩
  · cases hHead
  · cases hHead
  · cases hHead
    unfold sbReadLen
    rw [← Nat.succ_pred (Source.budget_pos _).ne',
      sbReadLenLoop]
    dsimp only [Source.read]
    by_cases hIntr : e = EINTR
    · subst hIntr
      rw [if_pos rfl]
      generalize (Source.budget _).pred = fuel
      rcases sbReadLenLoop_errno fuel ⟨pending, reads⟩ 0 1
        with hFailed | hNone | hErrno
      · exact Or.inl hFailed
      · exact Or.inr ⟨rfl, by simp [ReadRun.retry, hNone]⟩
      · exact Or.inr ⟨rfl, by simp [ReadRun.retry, hErrno]⟩
    · rw [if_neg hIntr]
      exact Or.inl rfl

/- An interruption is never forgotten. -/
theorem nullLoop_interrupted
    (fuel : Nat)
    {con con' : ClientConnection}
    {w w' : World}
    (hErrno : w.errno = EINTR)
    (hRun : nullLoop fuel con w = (1, con', w')) :
    w'.errno = EINTR := by
  induction fuel generalizing con w with
  | zero => simp [nullLoop] at hRun
  | succ fuel ih =>
      rw [nullLoop] at hRun
      have hAfter :
          (w.sbReadLen .client 1).1 = -1 ∨
            (w.sbReadLen .client 1).2.2.errno = EINTR := by
        rcases sbReadLenLoop_errno
            (w.source .client).budget (w.source .client) 0 1
          with hFailed | hNone | hIntr
        · exact Or.inl hFailed
        · right
          simp [World.sbReadLen, World.afterRead, sbReadLen,
            hNone, hErrno]
        · right
          simp [World.sbReadLen, World.afterRead, sbReadLen,
            hIntr]
      rcases hRead : w.sbReadLen .client 1 with
        ⟨rc, data, w₁⟩
      rw [hRead] at hRun hAfter
      dsimp only at hRun hAfter
      split at hRun
      · exact ih (hAfter.resolve_left (by omega)) hRun
      · rcases Prod.mk.inj hRun with ⟨hOne, hLeft⟩
        cases hLeft
        refine hAfter.resolve_left ?_
        rintro rfl
        exact absurd hOne (by decide)

theorem not_interrupted_cons
    {reads : List ReadEvent}
    (hHead : ∀ e, reads.head? ≠ some (.fail e))
    (n : Nat) :
    ReadEvent.fail EINTR ∉ reads.take (n + 1) ↔
      ReadEvent.fail EINTR ∉ (reads.drop 1).take n := by
  cases reads with
  | nil => simp
  | cons event reads =>
      have hNe : ReadEvent.fail EINTR ≠ event := by
        rintro rfl
        exact hHead EINTR rfl
      simp [hNe]

theorem interrupted_mem_take
    {reads : List ReadEvent}
    (hHead : reads.head? = some (.fail EINTR))
    (n : Nat) :
    ReadEvent.fail EINTR ∈ reads.take (n + 1) := by
  cases reads with
  | nil => cases hHead
  | cons event reads =>
      cases hHead
      exact List.mem_cons_self

/- One step of a null relay that is not disturbed. -/
theorem World.drainsClean_afterRead
    {w : World}
    {byte : UInt8}
    {pending : List UInt8}
    (hPending : (w.source .client).pending = byte :: pending)
    (hHead :
      ∀ e, (w.source .client).reads.head? ≠ some (.fail e)) :
    (w.afterRead .client
        (SmartSOCKSProxy.sbReadLen
          (w.source .client) 1)).DrainsClean ↔
      w.DrainsClean := by
  rcases sbReadLen_one_of_undisturbed hHead with
    ⟨_, hErrno, hSource⟩
  unfold DrainsClean
  rw [source_afterRead_self, hSource, hPending]
  simp only [afterRead, hErrno, Option.getD_none,
    List.drop_one, List.tail_cons, List.length_cons]
  rw [not_interrupted_cons hHead, List.drop_one]

/-
  A null relay that ends well leaves no error number exactly
  if it started clean and was not interrupted.
-/
theorem nullLoop_errno_iff
    (fuel : Nat)
    {con con' : ClientConnection}
    {w w' : World}
    (hFuel : (w.source .client).pending.length < fuel)
    (hRun : nullLoop fuel con w = (1, con', w')) :
    w'.errno = 0 ↔ w.DrainsClean := by
  induction fuel generalizing con w with
  | zero => simp [nullLoop] at hRun
  | succ fuel ih =>
      rw [nullLoop] at hRun
      have hRead :
          w.sbReadLen .client 1 =
            ((sbReadLen (w.source .client) 1).rc,
              (sbReadLen (w.source .client) 1).data,
              w.afterRead .client
                (sbReadLen (w.source .client) 1)) := rfl
      rw [hRead] at hRun
      dsimp only at hRun
      by_cases hHead :
          ∀ e, (w.source .client).reads.head? ≠
            some (.fail e)
      · rcases sbReadLen_one_of_undisturbed hHead with
          ⟨hRc, hErrno, hSource⟩
        cases hPending : (w.source .client).pending with
        | nil =>
            -- The stream has ended.
            rw [hPending] at hRc
            rw [hRc, if_neg (by decide)] at hRun
            cases hRun
            unfold World.DrainsClean
            rw [hPending, not_interrupted_cons hHead]
            simp [World.afterRead, hErrno]
        | cons byte pending =>
            rw [hPending] at hRc hFuel
            have hOne :
                (sbReadLen (w.source .client) 1).rc = 1 := hRc
            rw [if_pos hOne] at hRun
            rw [← World.drainsClean_afterRead hPending hHead]
            apply ih _ hRun
            rw [World.source_afterRead_self, hSource, hPending]
            exact Nat.lt_of_succ_lt_succ hFuel
      · push Not at hHead
        rcases hHead with ⟨e, hHead⟩
        rcases sbReadLen_one_of_fail hHead with
          hFailed | ⟨rfl, hIntr⟩
        · rw [hFailed, if_neg (by decide)] at hRun
          exact absurd (Prod.mk.inj hRun).1 (by decide)
        · have hAfter :
              (w.afterRead .client
                (sbReadLen (w.source .client) 1)).errno =
                EINTR := by
            simp [World.afterRead, hIntr]
          have hLast : w'.errno = EINTR := by
            split at hRun
            · exact nullLoop_interrupted fuel hAfter hRun
            · cases (Prod.mk.inj hRun).2
              exact hAfter
          rw [hLast]
          apply iff_of_false (by decide)
          rintro ⟨_, hNone⟩
          exact hNone (interrupted_mem_take hHead _)

------------------------------------------------------------
-- The Value of `ok`
------------------------------------------------------------

theorem relayRound_binary
    (revents : Peer → Revents)
    (st : Relay)
    {rc : Int}
    (hRc : (relayRound revents st).1 = some rc) :
    rc = 0 ∨ rc = 1 := by
  have hOutcome := relayRound_outcome revents st
  generalize relayRound revents st = out at *
  cases hOutcome with
  | flagged => exact Or.inl (Option.some.inj hRc).symm
  | clientFailed => exact Or.inl (Option.some.inj hRc).symm
  | serverFailed => exact Or.inl (Option.some.inj hRc).symm
  | served =>
      dsimp only at hRc
      split at hRc
      · contradiction
      · exact Or.inr (Option.some.inj hRc).symm

theorem relayLoop_binary
    {polls : List PollEvent}
    {st : Relay}
    {rc : Int}
    (hRc : (relayLoop polls st).1 = some rc) :
    rc = 0 ∨ rc = 1 := by
  induction polls generalizing st with
  | nil => simp [relayLoop] at hRc
  | cons poll polls ih =>
      rw [relayLoop.eq_def] at hRc
      cases poll with
      | failed e =>
          dsimp only at hRc
          split at hRc
          · exact ih hRc
          · exact Or.inl (Option.some.inj hRc).symm
      | ready revents =>
          dsimp only at hRc
          have hRound :
              (relayRound revents st).1 = some rc →
                rc = 0 ∨ rc = 1 :=
            relayRound_binary revents st
          rcases hStep : relayRound revents st with
            ⟨_ | rc', st₁⟩
          · rw [hStep] at hRc
            exact ih hRc
          · rw [hStep] at hRc hRound
            exact hRound hRc

theorem nullLoop_binary
    (fuel : Nat)
    (con : ClientConnection)
    (w : World) :
    (nullLoop fuel con w).1 = 0 ∨
      (nullLoop fuel con w).1 = 1 := by
  induction fuel generalizing con w with
  | zero => exact Or.inl rfl
  | succ fuel ih =>
      rw [nullLoop]
      dsimp only
      split
      · exact ih _ _
      · dsimp only
        split
        · exact Or.inr rfl
        · exact Or.inl rfl

theorem socksConnectShuttle_binary
    {polls : List PollEvent}
    {con : ClientConnection}
    {w : World}
    {rc : Int}
    (hRc : (socksConnectShuttle polls con w).1 = some rc) :
    rc = 0 ∨ rc = 1 := by
  unfold socksConnectShuttle at hRc
  split at hRc
  · rw [← Option.some.inj hRc]
    exact nullLoop_binary _ con w
  · exact relayLoop_binary hRc

------------------------------------------------------------
-- Sessions
------------------------------------------------------------

/- A connection of one of the two services. -/
inductive Session where
| socks
    (rules : List RouteRule)
    (failureType fdIn : Int)
    (junk : ClientConnection)
    (w : World)
| portForward
    (fwd : ServicePortForward)
    (rules : List RouteRule)
    (failureType fdIn : Int)
    (junk : ClientConnection)
    (w : World)

/-
  The end of a connection handler: once `ok` is known, the
  connection is shut down.
-/
def finish :
    Option Int × ClientConnection × World →
      Bool × ClientConnection × World
  | (none, con, w) => (false, con, w)
  | (some ok, con, w) =>
      (true, serviceThreadShutdown con w ok)

namespace Session

/- The connection handler of the service. -/
def run
    (polls : List PollEvent) :
    Session → Bool × ClientConnection × World
  | .socks rules failureType fdIn junk w =>
      serviceSocksConnectionHandler rules failureType polls
        (newClientConnection fdIn junk) w
  | .portForward fwd rules failureType fdIn junk w =>
      servicePortForwardConnectionHandler fwd rules
        failureType polls (newClientConnection fdIn junk) w

/- The state in which socks_connect() is called. -/
def start : Session → Bool × Connecting
  | .socks rules failureType fdIn junk w =>
      startConnecting rules failureType
        (newClientConnection fdIn junk) w
  | .portForward fwd rules failureType fdIn junk w =>
      startForwarding fwd rules failureType
        (newClientConnection fdIn junk) w

/- The reply that is due before the relay, if any. -/
def reply
    (st : Connecting) : Session → Int × World
  | .socks .. => socksRespond st.con st.w st.failureType
  | .portForward .. => (1, st.w)

/-
  The value of `ok`, the connection and the world with which
  service_thread_shutdown() is called.  While the relay runs
  there is no value.
-/
def ending
    (polls : List PollEvent)
    (s : Session) :
    Option Int × ClientConnection × World :=
  match s.start with
  | (false, st) => (some 0, st.con, st.w)
  | (true, st) =>
      match socksConnect st with
      | (ok, st) =>
          if ok = 0 then (some 0, st.con, st.w)
          else
            match s.reply st with
            | (rc, w) =>
                if rc = 1 then
                  socksConnectShuttle polls st.con w
                else (some 0, st.con, w)

/- Every handler ends with the shutdown of its connection. -/
theorem run_eq
    (polls : List PollEvent)
    (s : Session) :
    s.run polls = finish (s.ending polls) := by
  cases s with
  | socks rules failureType fdIn junk w =>
      simp only [run, ending, start, reply]
      unfold serviceSocksConnectionHandler prepareRelay
      rcases startConnecting rules failureType
          (newClientConnection fdIn junk) w with
        ⟨_ | _, st⟩
      · rfl
      · dsimp only
        by_cases hOk : (socksConnect st).1 = 0
        · rw [if_pos hOk, if_pos hOk]
          rfl
        · rw [if_neg hOk, if_neg hOk]
          generalize (socksConnect st).2 = st'
          by_cases hRc :
              (socksRespond st'.con st'.w
                st'.failureType).1 = 1
          · simp only [hRc, if_true, decide_true]
            rcases socksConnectShuttle polls st'.con
                (socksRespond st'.con st'.w
                  st'.failureType).2 with
              ⟨_ | _, con, w'⟩
            · rfl
            · rfl
          · simp only [hRc, if_false, decide_false]
            rfl
  | portForward fwd rules failureType fdIn junk w =>
      simp only [run, ending, start, reply, if_true]
      unfold servicePortForwardConnectionHandler
      rcases startForwarding fwd rules failureType
          (newClientConnection fdIn junk) w with
        ⟨_ | _, st⟩
      · rfl
      · dsimp only
        by_cases hOk : (socksConnect st).1 = 0
        · rw [if_pos hOk, if_pos hOk]
          rfl
        · rw [if_neg hOk, if_neg hOk]
          rcases socksConnectShuttle polls
              (socksConnect st).2.con (socksConnect st).2.w
            with ⟨_ | _, con, w'⟩
          · rfl
          · rfl

------------------------------------------------------------
-- The Status After a Session
------------------------------------------------------------

/-
  After the shutdown, the status is OKAY if and only if the
  session ended with `ok = 1`.
-/
def StatusAgrees
    (polls : List PollEvent)
    (s : Session) : Prop :=
  ∀ ok con w, s.ending polls = (some ok, con, w) →
    (s.run polls).2.1.threadHasExited = true ∧
      ((s.run polls).2.1.status = ccStatusOkay ↔ ok = 1)

/-
  For an attempt that succeeds, in a session that ends with
  1: a direct attempt starts with the status OKAY, and the
  null relay, which starts after the reply, starts clean and
  is not interrupted.
-/
def EndsClean
    (polls : List PollEvent)
    (s : Session) : Prop :=
  ∀ first n st,
    s.start = (true, first) →
    AttemptStart first n st →
    let tun := tunnelOfAttempt (routeTunnels first.con) n
    let made := attemptTunnel tun st
    made.1 ≠ 0 →
    (s.ending polls).1 = some 1 →
    (tun.isDirect = true → st.con.status = ccStatusOkay) ∧
      (tun.isNull = true → (s.reply made.2).2.DrainsClean)

/- A session that ends with 1 has been through the relay. -/
theorem relayed_of_ending
    {polls : List PollEvent}
    {s : Session}
    {con : ClientConnection}
    {w : World}
    (hEnding : s.ending polls = (some 1, con, w)) :
    ∃ first ok st,
      s.start = (true, first) ∧
        socksConnect first = (ok, st) ∧ ok ≠ 0 ∧
        socksConnectShuttle polls st.con (s.reply st).2 =
          (some 1, con, w) := by
  unfold ending at hEnding
  rcases hStart : s.start with ⟨_ | _, first⟩
  · rw [hStart] at hEnding
    simp at hEnding
  · simp only [hStart] at hEnding
    rcases hConnect : socksConnect first with ⟨ok, st⟩
    simp only [hConnect] at hEnding
    by_cases hOk : ok = 0
    · simp [hOk] at hEnding
    · rw [if_neg hOk] at hEnding
      split at hEnding
      · exact ⟨first, ok, st, rfl, hConnect, hOk, hEnding⟩
      · simp at hEnding

/-
  A relay that ends well leaves the status OKAY, if that of
  the null tunnel was clean, or that of another one found it
  so.
-/
theorem socksConnectShuttle_status
    {polls : List PollEvent}
    {con con' : ClientConnection}
    {w w' : World}
    {tun : SshTunnel}
    (hTunnel : con.tunnel = some tun)
    (hRun :
      socksConnectShuttle polls con w =
        (some 1, con', w')) :
    con'.status = ccStatusOkay ↔
      if tun.isNull then w.DrainsClean
      else con.status = ccStatusOkay := by
  have hUses : usesNullTunnel con = tun.isNull := by
    simp [usesNullTunnel, hTunnel]
  unfold socksConnectShuttle at hRun
  rw [hUses] at hRun
  by_cases hNull : tun.isNull = true
  · rw [if_pos hNull] at hRun ⊢
    rcases hLoop : shuttleNullConnection con w with
      ⟨rc, con₁, w₁⟩
    rw [hLoop] at hRun
    cases hRun
    rw [nullLoop_status _ hLoop]
    exact nullLoop_errno_iff _ (Nat.lt_succ_self _) hLoop
  · rw [if_neg hNull] at hRun ⊢
    unfold shuttleDataBackAndForth at hRun
    rcases hLoop : relayLoop polls (Relay.start con w) with
      ⟨rc, st⟩
    rw [hLoop] at hRun
    cases hRun
    rw [relayLoop_status hLoop]
    exact Iff.rfl

/- A successful attempt is the last one. -/
theorem connectStep_of_made
    {tunnels : List SshTunnel}
    {n : Nat}
    {st : Connecting}
    (hMade :
      (attemptTunnel (tunnelOfAttempt tunnels n) st).1 ≠
        0) :
    connectStep tunnels n st =
      (some 1,
        (attemptTunnel (tunnelOfAttempt tunnels n)
          st).2) := by
  rcases connectStep_cases tunnels n st with
    ⟨_, hStep⟩ | ⟨hFails, _⟩
  · exact hStep
  · exact absurd hFails hMade

/- A loop that succeeds does so by one of its attempts. -/
theorem made_of_socksConnect
    {first st : Connecting}
    {ok : Int}
    (hRun : socksConnect first = (ok, st))
    (hOk : ok ≠ 0) :
    ∃ n st₁,
      AttemptStart first n st₁ ∧
        (attemptTunnel
          (tunnelOfAttempt (routeTunnels first.con) n)
          st₁).1 ≠ 0 := by
  have hTunnels : routeTunnels first.con ≠ [] := by
    intro hNone
    unfold socksConnect at hRun
    simp only [hNone, if_true] at hRun
    exact hOk (congrArg Prod.fst hRun).symm
  rcases socksConnect_ends hTunnels with
    ⟨n, st₁, rc, st₂, hStart, hStep, hEnd⟩
  rw [hRun] at hEnd
  cases hEnd
  refine ⟨n, st₁, hStart, ?_⟩
  intro hFailed
  rcases connectStep_cases (routeTunnels first.con) n st₁
    with
    ⟨hMade, _⟩ |
      ⟨_, ⟨_, hEnd⟩ | ⟨_, ⟨_, hEnd⟩ | ⟨_, hEnd⟩⟩⟩
  · exact hMade hFailed
  · rw [hStep] at hEnd
    exact hOk (Option.some.inj (Prod.mk.inj hEnd).1)
  · rw [hStep] at hEnd
    exact hOk (Option.some.inj (Prod.mk.inj hEnd).1)
  · rw [hStep] at hEnd
    exact nomatch congrArg Prod.fst hEnd

/- The status of a session that ends with 1. -/
theorem status_of_ending
    {polls : List PollEvent}
    {s : Session}
    {first st : Connecting}
    {n : Nat}
    {con : ClientConnection}
    {w : World}
    (hStart : s.start = (true, first))
    (hAttempt : AttemptStart first n st)
    (hMade :
      (attemptTunnel
        (tunnelOfAttempt (routeTunnels first.con) n)
        st).1 ≠ 0)
    {tun : SshTunnel}
    (hTun :
      tun = tunnelOfAttempt (routeTunnels first.con) n)
    (hEnding : s.ending polls = (some 1, con, w)) :
    con.status = ccStatusOkay ↔
      (tun.isDirect = true → st.con.status = ccStatusOkay) ∧
        (tun.isNull = true →
          (s.reply (attemptTunnel tun st).2).2.DrainsClean) := by
  rw [← hTun] at hMade
  rcases relayed_of_ending hEnding with
    ⟨first', ok, st', hStart', hConnect, _, hRelay⟩
  rw [hStart] at hStart'
  cases hStart'
  have hStep := connectStep_of_made (hTun ▸ hMade)
  rw [← hTun] at hStep
  rw [socksConnect_of_attempt hAttempt hStep] at hConnect
  cases hConnect
  rw [socksConnectShuttle_status
    (attemptTunnel_tunnel tun st) hRelay,
    attemptTunnel_status hMade]
  by_cases hNull : tun.isNull = true
  · have hDirect : tun.isDirect = false := by
      by_contra hDirect
      rw [SshTunnel.isNull_of_isDirect
        (Bool.eq_true_of_not_eq_false hDirect)] at hNull
      contradiction
    simp [hNull, hDirect]
  · by_cases hDirect : tun.isDirect = true
    · simp [hNull, hDirect]
    · simp [hNull, hDirect]

/- The shutdown makes sure that failures can be seen. -/
theorem serviceThreadShutdown_status
    (con : ClientConnection)
    (w : World)
    (ok : Int) :
    (serviceThreadShutdown con w ok).1.status =
      if ok = 0 ∧ con.status = ccStatusOkay then
        ccStatusError
      else con.status := by
  unfold serviceThreadShutdown
  dsimp only
  split
  · rfl
  · rfl

theorem ending_binary
    {polls : List PollEvent}
    {s : Session}
    {ok : Int}
    {con : ClientConnection}
    {w : World}
    (hEnding : s.ending polls = (some ok, con, w)) :
    ok = 0 ∨ ok = 1 := by
  have hRc := congrArg Prod.fst hEnding
  unfold ending at hRc
  rcases hStart : s.start with ⟨_ | _, first⟩
  · rw [hStart] at hRc
    exact Or.inl (Option.some.inj hRc).symm
  · rw [hStart] at hRc
    dsimp only at hRc
    split at hRc
    · exact Or.inl (Option.some.inj hRc).symm
    · split at hRc
      · exact socksConnectShuttle_binary hRc
      · exact Or.inl (Option.some.inj hRc).symm

/-
  The final status agrees with the outcome of a session if
  and only if it ends clean.
-/
theorem statusAgrees_iff
    (polls : List PollEvent)
    (s : Session) :
    s.StatusAgrees polls ↔ s.EndsClean polls := by
  constructor
  · intro hAgrees first n st hStart hAttempt tun made hMade
      hOne
    have hEnding :
        s.ending polls =
          (some 1, (s.ending polls).2.1,
            (s.ending polls).2.2) :=
      Prod.ext hOne rfl
    have hFinal := (hAgrees 1 _ _ hEnding).2.mpr rfl
    rw [run_eq, hEnding] at hFinal
    simp only [finish, serviceThreadShutdown_status]
      at hFinal
    rw [if_neg (by omega)] at hFinal
    exact (status_of_ending hStart hAttempt hMade
      (Eq.refl tun) hEnding).mp hFinal
  · intro hClean ok con w hEnding
    rw [run_eq, hEnding]
    refine ⟨rfl, ?_⟩
    simp only [finish, serviceThreadShutdown_status]
    rcases ending_binary hEnding with rfl | rfl
    · -- A failure never looks like a success.
      by_cases hStatus : con.status = ccStatusOkay
      · rw [if_pos ⟨rfl, hStatus⟩]
        decide
      · rw [if_neg (fun hBoth => hStatus hBoth.2)]
        simp [hStatus]
    · rw [if_neg (by omega)]
      rcases relayed_of_ending hEnding with
        ⟨first, rc, st', hStart, hConnect, hRc, _⟩
      rcases made_of_socksConnect hConnect hRc with
        ⟨n, st, hAttempt, hMade⟩
      have hClean' := hClean first n st hStart hAttempt
        hMade (congrArg Prod.fst hEnding)
      simp only [iff_true]
      exact (status_of_ending hStart hAttempt hMade rfl
        hEnding).mpr hClean'

/- An old error number ends up as the status of a success. -/
theorem statusAgrees_staleErrno :
    ¬ ∀ polls (s : Session), s.StatusAgrees polls := by
  intro hClaim
  let s : Session :=
    .socks nullRules 0 3 default
      { clientAsks with errno := 35 }
  have hEnding : s.ending [] = (some 1, (s.ending []).2) :=
    Prod.ext (by decide) rfl
  have hStatus := (hClaim [] s 1 _ _ hEnding).2.mpr rfl
  exact absurd hStatus (by decide)

end Session

end SmartSOCKSProxy
