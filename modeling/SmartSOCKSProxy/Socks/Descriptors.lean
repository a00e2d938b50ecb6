import SmartSOCKSProxy.Foundations.Handles
import SmartSOCKSProxy.Socks.Retries

/-
  The descriptors of a session's attempts.

  Every attempt closes the descriptor that it opened unless a
  connection is made.  The exception is descriptor 0, which
  the loop takes for no descriptor at all.

  Key definitions include:
    * `descriptorUses`, `World.Uses`
    * `Dial.ConnectsOn`, `FailsOnZero`
    * `LeavesNoHalfMade`

  Key theorems include:
    * `dialServer_uses`, `connectViaSshSocks5_uses`
    * `connectStep_uses`, `AttemptStart.uses`
    * `socksConnect_leavesNoHalfMade_iff`
-/

namespace SmartSOCKSProxy

open Use (turns held)

------------------------------------------------------------
-- Descriptors in a Trace
------------------------------------------------------------

/- What an event does with a descriptor. -/
def Event.use : Event → Option (Use Int)
  | .opened fd => some (.acquire fd)
  | .closed fd => some (.release fd)
  | _ => none

/- The descriptors opened and closed, in order. -/
def descriptorUses
    (trace : List Event) : List (Use Int) :=
  trace.filterMap Event.use

@[simp] theorem descriptorUses_append
    (front back : List Event) :
    descriptorUses (front ++ back) =
      descriptorUses front ++ descriptorUses back :=
  List.filterMap_append

@[simp] theorem descriptorUses_received
    (peer : Peer)
    (chunks : List (List UInt8)) :
    descriptorUses (chunks.map (.received peer)) = [] := by
  simp [descriptorUses, Event.use]

@[simp] theorem descriptorUses_sent
    (peer : Peer)
    (chunks : List (List UInt8)) :
    descriptorUses (chunks.map (.sent peer)) = [] := by
  simp [descriptorUses, Event.use]

/- From `w` to `w'`, descriptors are used like this. -/
def World.Uses
    (w : World)
    (uses : List (Use Int))
    (w' : World) : Prop :=
  ∃ events, w'.trace = w.trace ++ events ∧
    descriptorUses events = uses

namespace World.Uses

variable {w w₁ w₂ : World}
variable {uses uses' : List (Use Int)}

theorem of_trace
    (hTrace : w₁.trace = w.trace) :
    w.Uses [] w₁ :=
  ⟨[], by rw [hTrace, List.append_nil], rfl⟩

theorem refl
    (w : World) :
    w.Uses [] w :=
  of_trace rfl

theorem trans
    (h : w.Uses uses w₁)
    (h' : w₁.Uses uses' w₂) :
    w.Uses (uses ++ uses') w₂ := by
  rcases h with ⟨events, hTrace, rfl⟩
  rcases h' with ⟨events', hTrace', rfl⟩
  refine ⟨events ++ events', ?_, descriptorUses_append _ _⟩
  rw [hTrace', hTrace, List.append_assoc]

/- Nothing more was used. -/
theorem trans_nil
    (h : w.Uses uses w₁)
    (h' : w₁.Uses [] w₂) :
    w.Uses uses w₂ := by
  have hBoth := h.trans h'
  rwa [List.append_nil] at hBoth

theorem emit
    (w : World)
    (event : Event) :
    w.Uses (descriptorUses [event]) (w.emit event) :=
  ⟨[event], rfl, rfl⟩

theorem sbReadLen
    (w : World)
    (peer : Peer)
    (n : Nat) :
    w.Uses [] (w.sbReadLen peer n).2.2 :=
  ⟨_, rfl, descriptorUses_received _ _⟩

theorem sbWriteLen
    (w : World)
    (peer : Peer)
    (data : List UInt8) :
    w.Uses [] (w.sbWriteLen peer data).2 :=
  ⟨_, rfl, descriptorUses_sent _ _⟩

end World.Uses

------------------------------------------------------------
-- Talking to a Tunnel's Server
------------------------------------------------------------

theorem sock5ClientNegotiateAuth_uses
    (w : World)
    (buf : Buffer) :
    w.Uses [] (sock5ClientNegotiateAuth w buf).2 := by
  have hWrite := World.Uses.sbWriteLen w .server
    ((buf.store 0 [5, 1, 0]).load 3)
  have hBoth := hWrite.trans_nil
    (World.Uses.sbReadLen _ .server 2)
  unfold sock5ClientNegotiateAuth
  dsimp only
  split
  · exact hWrite
  · split
    · exact hBoth
    · split
      · exact hBoth
      · exact hBoth

theorem socks5ClientSendCommand_uses
    (con : ClientConnection)
    (w : World)
    (buf : Buffer) :
    w.Uses [] (socks5ClientSendCommand con w buf).2 := by
  unfold socks5ClientSendCommand
  cases commandMessage con buf with
  | none => exact World.Uses.refl w
  | some message =>
      dsimp only
      split
      · exact World.Uses.sbWriteLen w .server message
      · exact World.Uses.sbWriteLen w .server message

theorem readBoundAddress_uses
    (addrType : UInt8)
    (w : World)
    (buf : Buffer) :
    w.Uses [] (readBoundAddress addrType w buf).2 := by
  unfold readBoundAddress
  split
  · exact World.Uses.sbReadLen w .server 4
  · split
    · exact World.Uses.sbReadLen w .server 16
    · exact World.Uses.refl w

theorem readReplyTail_uses
    (w : World)
    (buf : Buffer) :
    w.Uses [] (readReplyTail w buf).2 := by
  have hBound := readBoundAddress_uses (buf 3) w buf
  unfold readReplyTail
  rcases hRun : readBoundAddress (buf 3) w buf with
    ⟨_ | ⟨buf₁, idx⟩, w₁⟩
  · rw [hRun] at hBound
    exact hBound
  · rw [hRun] at hBound
    have hBoth := hBound.trans_nil
      (World.Uses.sbReadLen w₁ .server 2)
    dsimp only
    split
    · exact hBoth
    · split
      · exact hBoth
      · exact hBoth

/- The response keeps the descriptor. -/
theorem socks5ClientGetCommandResponse_uses
    (con : ClientConnection)
    (w : World)
    (buf : Buffer)
    (failureType : Int) :
    (socks5ClientGetCommandResponse con w buf
        failureType).2.1.fdOut = con.fdOut ∧
      w.Uses []
        (socks5ClientGetCommandResponse con w buf
          failureType).2.2.1 := by
  have hRead := World.Uses.sbReadLen w .server 4
  unfold socks5ClientGetCommandResponse
  dsimp only
  split
  · exact ⟨rfl, hRead⟩
  · split
    · exact ⟨rfl, hRead⟩
    · exact ⟨rfl,
        hRead.trans_nil (readReplyTail_uses _ _)⟩

/- The request uses no descriptor but the connected one. -/
theorem requestConnection_uses
    (con : ClientConnection)
    (w : World)
    (buf : Buffer)
    (failureType : Int) :
    (requestConnection con w buf failureType).2.1.fdOut =
        con.fdOut ∧
      w.Uses []
        (requestConnection con w buf failureType).2.2.1 := by
  have hAuth := sock5ClientNegotiateAuth_uses w buf
  have hCommand := hAuth.trans_nil
    (socks5ClientSendCommand_uses con _ buf)
  unfold requestConnection
  dsimp only
  split
  · exact ⟨rfl, hAuth⟩
  · split
    · exact ⟨rfl, hCommand⟩
    · rcases socks5ClientGetCommandResponse_uses con
          (socks5ClientSendCommand con
            (sock5ClientNegotiateAuth w buf).2 buf).2
          buf failureType with
        ⟨hFd, hResponse⟩
      exact ⟨hFd, hCommand.trans_nil hResponse⟩

------------------------------------------------------------
-- Dialing
------------------------------------------------------------

/- There is a socket, and it gets connected. -/
def Dial.ConnectsOn
    (dial : Dial)
    (fd : Nat) : Prop :=
  dial.socket = .ok fd ∧ ∀ e ∈ dial.connects, e = EINTR

/- connect() fails with the first error but EINTR. -/
theorem connect_fails_iff
    (w : World)
    (connects : List Int) :
    (w.connect connects).1 < 0 ↔
      ¬ ∀ e ∈ connects, e = EINTR := by
  induction connects generalizing w with
  | nil => simp [World.connect]
  | cons e connects ih =>
      rw [World.connect]
      split
      · rename_i hInterrupted
        simp only [List.forall_mem_cons, hInterrupted,
          true_and]
        exact ih _
      · rename_i hError
        simp [hError]

/-
  A server is dialed: the socket stays open when it could be
  connected, and otherwise nothing is left open.
-/
theorem dialServer_uses
    (w : World)
    (sinPort : UInt16)
    (sinAddr : UInt32) :
    (∃ fd : Nat, w.dial.ConnectsOn fd ∧
      (w.dialServer sinPort sinAddr).1 = .connected fd ∧
      w.Uses [.acquire (fd : Int)]
        (w.dialServer sinPort sinAddr).2) ∨
    (∀ fd, ¬ w.dial.ConnectsOn fd) ∧
      (∀ fd, (w.dialServer sinPort sinAddr).1 ≠
        .connected fd) ∧
      ∃ fd : Option Int,
        w.Uses (turns fd.toList)
          (w.dialServer sinPort sinAddr).2 := by
  unfold Dial.ConnectsOn World.dialServer
  dsimp only
  cases w.dial.socket with
  | error e =>
      right
      refine ⟨by simp, by simp, none, ?_⟩
      exact World.Uses.of_trace rfl
  | ok fd =>
      dsimp only
      generalize hOpened :
        ((({ w with dialed := w.dialed + 1 } :
          World).emit (.opened fd)).emit
            (.dialed sinPort sinAddr)) = w₁
      have hOpen : w.Uses [.acquire (fd : Int)] w₁ := by
        refine ⟨[.opened fd, .dialed sinPort sinAddr], ?_,
          rfl⟩
        rw [← hOpened]
        simp [World.emit]
      have hConnect := (connect_keeps w₁ w.dial.connects).2
      have hUses := hOpen.trans_nil
        (World.Uses.of_trace hConnect)
      have hFails := connect_fails_iff w₁ w.dial.connects
      split
      · rename_i hNegative
        right
        have hNot := hFails.mp hNegative
        refine ⟨fun _ hAll => hNot hAll.2, by simp,
          some (fd : Int), ?_⟩
        exact hUses.trans (World.Uses.emit _ (.closed fd))
      · rename_i hOkay
        left
        have hAll := not_not.mp (mt hFails.mpr hOkay)
        refine ⟨fd, ⟨rfl, hAll⟩, rfl, ?_⟩
        exact hUses.trans_nil (World.Uses.of_trace rfl)

/- The dialed descriptor is kept in the connection. -/
theorem connectToSshSocks5Proxy_uses
    (con : ClientConnection)
    (w : World)
    (tun : SshTunnel) :
    (∃ fd : Nat, w.dial.ConnectsOn fd ∧
      (connectToSshSocks5Proxy con w tun).1 ≠ 0 ∧
      (connectToSshSocks5Proxy con w tun).2.1.fdOut = fd ∧
      w.Uses [.acquire (fd : Int)]
        (connectToSshSocks5Proxy con w tun).2.2) ∨
    (∀ fd, ¬ w.dial.ConnectsOn fd) ∧
      (connectToSshSocks5Proxy con w tun).1 = 0 ∧
      (connectToSshSocks5Proxy con w tun).2.1.fdOut = -1 ∧
      ∃ fd : Option Int,
        w.Uses (turns fd.toList)
          (connectToSshSocks5Proxy con w tun).2.2 := by
  have hDial := dialServer_uses w (htons tun.socksPort)
    0x7F000001
  unfold connectToSshSocks5Proxy
  rcases hRun :
      w.dialServer (htons tun.socksPort) 0x7F000001 with
    ⟨result, w'⟩
  rw [hRun] at hDial
  rcases hDial with
    ⟨fd, hOn, hResult, hUses⟩ | ⟨hOff, hResult, hUses⟩
  · dsimp only at hResult
    subst hResult
    exact Or.inl ⟨fd, hOn, Int.one_ne_zero, rfl, hUses⟩
  · refine Or.inr ⟨hOff, ?_⟩
    dsimp only
    cases result with
    | noSocket => exact ⟨rfl, rfl, hUses⟩
    | notConnected =>
        dsimp only
        split
        · exact ⟨rfl, rfl, hUses⟩
        · exact ⟨rfl, rfl, hUses⟩
    | connected fd => exact absurd rfl (hResult fd)

------------------------------------------------------------
-- Single Attempts
------------------------------------------------------------

/-
  A tunnel's server that was connected stays connected, also
  when it does not grant the request.
-/
theorem connectViaSshSocks5_uses
    (con : ClientConnection)
    (w : World)
    (tun : SshTunnel) :
    (∃ fd : Nat, w.dial.ConnectsOn fd ∧
      (connectViaSshSocks5 con w tun).2.1.fdOut = fd ∧
      w.Uses [.acquire (fd : Int)]
        (connectViaSshSocks5 con w tun).2.2.1) ∨
    (∀ fd, ¬ w.dial.ConnectsOn fd) ∧
      (connectViaSshSocks5 con w tun).1 = 0 ∧
      (connectViaSshSocks5 con w tun).2.1.fdOut = -1 ∧
      ∃ fd : Option Int,
        w.Uses (turns fd.toList)
          (connectViaSshSocks5 con w tun).2.2.1 := by
  unfold connectViaSshSocks5
  dsimp only
  generalize
    setClientConnectionStatus con ccStatusOkay
      (some (Text.ascii "Connecting".toList))
      (some (Text.ascii
        "Connecting to SSH SOCKS5 server".toList)) = con₁
  have hDial := connectToSshSocks5Proxy_uses con₁ w tun
  rcases hRun : connectToSshSocks5Proxy con₁ w tun with
    ⟨ok, con₂, w₂⟩
  rw [hRun] at hDial
  dsimp only at hDial ⊢
  rcases hDial with
    ⟨fd, hOn, hOk, hFd, hUses⟩ | ⟨hOff, hOk, hFd, hUses⟩
  · rw [if_neg hOk]
    generalize hCon₃ :
      setClientConnectionStatus con₂ ccStatusOkay
        (some (Text.ascii "Negotiating".toList))
        (some (Text.ascii
          ("Negotiating connection with SSH SOCKS5 " ++
            "server").toList)) = con₃
    have hSame : con₃.fdOut = fd := by
      rw [← hCon₃]
      exact hFd
    rcases requestConnection_uses con₃ w₂ w.dial.stack
        socks5ReplyServerFailure with
      ⟨hKept, hQuiet⟩
    have hKept' := hKept.trans hSame
    have hUses' := hUses.trans_nil hQuiet
    left
    refine ⟨fd, hOn, ?_⟩
    split
    · exact ⟨hKept', hUses'⟩
    · exact ⟨hKept', hUses'⟩
  · rw [if_pos hOk]
    exact Or.inr ⟨hOff, hOk, hFd, hUses⟩

/- A direct attempt that fails leaves nothing open. -/
theorem connectDirect_uses
    (st : Connecting) :
    ((connectDirect st).1 ≠ 0 ∧ ∃ fd : Nat,
      (connectDirect st).2.con.fdOut = fd ∧
      st.w.Uses [.acquire (fd : Int)]
        (connectDirect st).2.w) ∨
    (connectDirect st).1 = 0 ∧
      ((connectDirect st).2.con.fdOut = st.con.fdOut ∨
        (connectDirect st).2.con.fdOut = -1) ∧
      ∃ fd : Option Int,
        st.w.Uses (turns fd.toList)
          (connectDirect st).2.w := by
  rcases resolveDestination_eq st.con st.w with
    ⟨dstHost, dns, hDst, _⟩
  unfold connectDirect
  rw [hDst]
  have hSilent : st.w.Uses [] { st.w with dns := dns } :=
    World.Uses.of_trace rfl
  dsimp only
  cases dstHost.addr with
  | unspec =>
      exact Or.inr ⟨rfl, Or.inl rfl, none, hSilent⟩
  | inet6 _ _ =>
      exact Or.inr ⟨rfl, Or.inl rfl, none, hSilent⟩
  | inet sinPort sinAddr =>
      have hDial := dialServer_uses
        { st.w with dns := dns } sinPort sinAddr
      rcases hRun : World.dialServer
          { st.w with dns := dns } sinPort sinAddr with
        ⟨result, w'⟩
      rw [hRun] at hDial
      simp only [hRun]
      rcases hDial with
        ⟨fd, _, hResult, hUses⟩ | ⟨_, hResult, fd, hUses⟩
      · dsimp only at hResult
        subst hResult
        exact Or.inl ⟨Int.one_ne_zero, fd, rfl,
          hSilent.trans hUses⟩
      · right
        have hBoth := hSilent.trans hUses
        cases result with
        | noSocket => exact ⟨rfl, Or.inr rfl, fd, hBoth⟩
        | notConnected =>
            dsimp only
            split
            · exact ⟨rfl, Or.inr rfl, fd, hBoth⟩
            · exact ⟨rfl, Or.inr rfl, fd, hBoth⟩
        | connected fd => exact absurd rfl (hResult fd)

/-
  The attempt is made through a tunnel's server, which gets
  connected on descriptor 0, and fails.
-/
structure FailsOnZero
    (tunnels : List SshTunnel)
    (n : Nat)
    (st : Connecting) : Prop where
  notDirect : (tunnelOfAttempt tunnels n).isDirect = false
  notNull : (tunnelOfAttempt tunnels n).isNull = false
  connects : st.w.dial.ConnectsOn 0
  fails : Fails tunnels n st

/-
  What an attempt that starts without a descriptor leaves:
  nothing, or the descriptor of a server that was connected.
-/
inductive AttemptEnds
    (tunnels : List SshTunnel)
    (n : Nat)
    (st : Connecting) : Prop
| null
    (hNull : (tunnelOfAttempt tunnels n).isNull = true)
    (hMade : ¬ Fails tunnels n st)
    (hFd : (attemptAt tunnels n st).2.con.fdOut = -1)
    (hUses : st.w.Uses [] (attemptAt tunnels n st).2.w)
| failed
    (fd : Option Int)
    (hFails : Fails tunnels n st)
    (hClean : ¬ FailsOnZero tunnels n st)
    (hFd : (attemptAt tunnels n st).2.con.fdOut = -1)
    (hUses :
      st.w.Uses (turns fd.toList)
        (attemptAt tunnels n st).2.w)
| connected
    (fd : Nat)
    (hNull : (tunnelOfAttempt tunnels n).isNull = false)
    (hZero :
      Fails tunnels n st →
        (FailsOnZero tunnels n st ↔ fd = 0))
    (hFd : (attemptAt tunnels n st).2.con.fdOut = fd)
    (hUses :
      st.w.Uses [.acquire (fd : Int)]
        (attemptAt tunnels n st).2.w)

/- Direct attempts do not fail once they are connected. -/
theorem attemptEnds_of_direct
    {tunnels : List SshTunnel}
    {n : Nat}
    {st : Connecting}
    (hFd : st.con.fdOut = -1)
    (hDirect :
      (tunnelOfAttempt tunnels n).isDirect = true) :
    AttemptEnds tunnels n st := by
  have hUses := connectDirect_uses
    { st with
      con :=
        { st.con with
          tunnel := some (tunnelOfAttempt tunnels n) } }
  have hAttempt := attemptTunnel_direct hDirect st
  rw [← hAttempt] at hUses
  rcases hUses with
    ⟨hMade, fd, hFd', hUses⟩ | ⟨hFails, hFd', fd, hUses⟩
  · exact .connected fd
      (SshTunnel.isNull_of_isDirect hDirect)
      (fun hFails => absurd hFails hMade) hFd' hUses
  · refine .failed fd hFails ?_ ?_ hUses
    · intro hZero
      rw [hZero.notDirect] at hDirect
      contradiction
    · rcases hFd' with hSame | hNone
      · exact hSame.trans hFd
      · exact hNone

/- An attempt through a tunnel's server. -/
theorem attemptTunnel_ssh
    {tun : SshTunnel}
    (hDirect : tun.isDirect = false)
    (hNull : tun.isNull = false)
    (st : Connecting) :
    attemptTunnel tun st =
      let out := connectViaSshSocks5
        { st.con with tunnel := some tun } st.w tun
      (out.1, ⟨out.2.1, out.2.2.1, out.2.2.2⟩) := by
  unfold attemptTunnel
  simp only [hDirect, hNull, Bool.false_eq_true, if_false]

/- Only these attempts may fail with a server connected. -/
theorem attemptEnds_of_ssh
    {tunnels : List SshTunnel}
    {n : Nat}
    (hDirect :
      (tunnelOfAttempt tunnels n).isDirect = false)
    (hNull : (tunnelOfAttempt tunnels n).isNull = false)
    (st : Connecting) :
    AttemptEnds tunnels n st := by
  have hUses := connectViaSshSocks5_uses
    { st.con with
      tunnel := some (tunnelOfAttempt tunnels n) }
    st.w (tunnelOfAttempt tunnels n)
  have hAttempt := attemptTunnel_ssh hDirect hNull st
  rcases hUses with
    ⟨fd, hOn, hFd, hUses⟩ | ⟨hOff, hFails, hFd, fd, hUses⟩
  · refine .connected fd hNull ?_ ?_ ?_
    · intro hFails
      constructor
      · intro hZero
        have hSame := hOn.1.symm.trans hZero.connects.1
        exact Except.ok.inj hSame
      · rintro rfl
        exact ⟨hDirect, hNull, hOn, hFails⟩
    · unfold attemptAt
      rw [hAttempt]
      exact hFd
    · unfold attemptAt
      rw [hAttempt]
      exact hUses
  · refine .failed fd ?_ ?_ ?_ ?_
    · unfold Fails attemptAt
      rw [hAttempt]
      exact hFails
    · exact fun hZero => hOff 0 hZero.connects
    · unfold attemptAt
      rw [hAttempt]
      exact hFd
    · unfold attemptAt
      rw [hAttempt]
      exact hUses

theorem attemptEnds
    {st : Connecting}
    (hFd : st.con.fdOut = -1)
    (tunnels : List SshTunnel)
    (n : Nat) :
    AttemptEnds tunnels n st := by
  by_cases hDirect :
      (tunnelOfAttempt tunnels n).isDirect = true
  · exact attemptEnds_of_direct hFd hDirect
  · rw [Bool.not_eq_true] at hDirect
    by_cases hNull :
        (tunnelOfAttempt tunnels n).isNull = true
    · have hAttempt :
          attemptAt tunnels n st =
            (1, { st with
              con :=
                { st.con with
                  tunnel :=
                    some (tunnelOfAttempt tunnels n) } }) := by
        unfold attemptAt attemptTunnel
        simp only [hDirect, hNull, Bool.false_eq_true,
          if_false, if_true]
        rfl
      refine .null hNull ?_ ?_ ?_
      · unfold Fails
        rw [hAttempt]
        exact Int.one_ne_zero
      · rw [hAttempt]
        exact hFd
      · rw [hAttempt]
        exact World.Uses.refl _
    · rw [Bool.not_eq_true] at hNull
      exact attemptEnds_of_ssh hDirect hNull st

------------------------------------------------------------
-- Failed Attempts
------------------------------------------------------------

/- The descriptor is closed, unless it is 0. -/
theorem abandonAttempt_uses
    {st : Connecting}
    {fd : Nat}
    (hFd : st.con.fdOut = fd) :
    (fd ≠ 0 →
      (abandonAttempt st).con.fdOut = -1 ∧
        st.w.Uses [.release (fd : Int)]
          (abandonAttempt st).w) ∧
      (fd = 0 → st.w.Uses [] (abandonAttempt st).w) := by
  unfold abandonAttempt
  dsimp only
  rw [hFd]
  constructor
  · intro hPos
    rw [if_pos (by omega)]
    exact ⟨rfl, World.Uses.emit _ (.closed fd)⟩
  · rintro rfl
    exact World.Uses.refl _

/- Without a descriptor there is nothing to undo. -/
theorem abandonAttempt_of_none
    {st : Connecting}
    (hFd : st.con.fdOut = -1) :
    (abandonAttempt st).con.fdOut = -1 ∧
      (abandonAttempt st).w = st.w := by
  unfold abandonAttempt
  dsimp only
  rw [if_neg (by omega)]
  exact ⟨hFd, rfl⟩

theorem abandonAttempt_tunnel
    (st : Connecting) :
    (abandonAttempt st).con.tunnel = none := by
  unfold abandonAttempt
  dsimp only
  split
  · rfl
  · rfl

/- A failed attempt is undone, whatever comes next. -/
theorem connectStep_of_fails
    {tunnels : List SshTunnel}
    {n : Nat}
    {st : Connecting}
    (hFails : Fails tunnels n st) :
    ∃ st',
      st'.con.fdOut =
          (attemptAt tunnels n st).2.con.fdOut ∧
        st'.w = (attemptAt tunnels n st).2.w ∧
        (connectStep tunnels n st).2 =
          abandonAttempt st' := by
  rcases connectStep_cases tunnels n st with
    ⟨hMade, _⟩ |
      ⟨_, ⟨_, hStep⟩ | ⟨_, ⟨_, hStep⟩ | ⟨_, hStep⟩⟩⟩
  · exact absurd hFails hMade
  · rw [hStep]
    exact ⟨noteRefusal (attemptAt tunnels n st).2, rfl, rfl,
      rfl⟩
  · rw [hStep]
    exact ⟨_, rfl, rfl, rfl⟩
  · rw [hStep]
    exact ⟨_, rfl, rfl, rfl⟩

/- A failed attempt leaves no descriptor and no tunnel. -/
theorem connectStep_uses
    {tunnels : List SshTunnel}
    {n : Nat}
    {st : Connecting}
    (hFd : st.con.fdOut = -1)
    (hFails : Fails tunnels n st)
    (hClean : ¬ FailsOnZero tunnels n st) :
    (connectStep tunnels n st).2.con.tunnel = none ∧
      (connectStep tunnels n st).2.con.fdOut = -1 ∧
      ∃ fd : Option Int,
        st.w.Uses (turns fd.toList)
          (connectStep tunnels n st).2.w := by
  rcases connectStep_of_fails hFails with
    ⟨st', hFd', hWorld, hStep⟩
  rw [hStep]
  refine ⟨abandonAttempt_tunnel st', ?_⟩
  cases attemptEnds hFd tunnels n with
  | null _ hMade _ _ => exact absurd hFails hMade
  | failed fd _ _ hNone hUses =>
      rcases abandonAttempt_of_none (hFd'.trans hNone) with
        ⟨hLeft, hSame⟩
      refine ⟨hLeft, fd, ?_⟩
      rw [hSame, hWorld]
      exact hUses
  | connected fd _ hZero hSome hUses =>
      have hPos : fd ≠ 0 :=
        fun hFdZero => hClean ((hZero hFails).mpr hFdZero)
      rcases (abandonAttempt_uses (hFd'.trans hSome)).1 hPos
        with ⟨hLeft, hClosed⟩
      rw [hWorld] at hClosed
      exact ⟨hLeft, some (fd : Int), hUses.trans hClosed⟩

/- Descriptor 0 is left open. -/
theorem connectStep_uses_zero
    {tunnels : List SshTunnel}
    {n : Nat}
    {st : Connecting}
    (hFd : st.con.fdOut = -1)
    (hZero : FailsOnZero tunnels n st) :
    st.w.Uses [.acquire 0]
      (connectStep tunnels n st).2.w := by
  rcases connectStep_of_fails hZero.fails with
    ⟨st', hFd', hWorld, hStep⟩
  rw [hStep]
  cases attemptEnds hFd tunnels n with
  | null _ hMade _ _ => exact absurd hZero.fails hMade
  | failed _ _ hClean _ _ => exact absurd hZero hClean
  | connected fd _ hIff hSome hUses =>
      have hFdZero := (hIff hZero.fails).mp hZero
      have hOpen :=
        (abandonAttempt_uses (hFd'.trans hSome)).2 hFdZero
      rw [hWorld] at hOpen
      subst hFdZero
      exact hUses.trans_nil hOpen

/- An attempt starts with all earlier descriptors closed. -/
theorem AttemptStart.uses
    {st st₁ : Connecting}
    {n : Nat}
    (hStart : AttemptStart st n st₁)
    (hFd : st.con.fdOut = -1)
    (hClean : ∀ i st', i < n → AttemptStart st i st' →
      ¬ FailsOnZero (routeTunnels st.con) i st') :
    st₁.con.fdOut = -1 ∧
      ∃ fds, st.w.Uses (turns fds) st₁.w := by
  induction hStart with
  | first _ =>
      refine ⟨?_, [], ?_⟩
      · rw [notifyMainThread_con]
        exact hFd
      · unfold notifyMainThread
        split
        · exact World.Uses.emit _ .threadMsg
        · exact World.Uses.refl _
  | @retry n st₁ st₂ hBefore hFailed ih =>
      rcases ih fun i st' hLt =>
          hClean i st' (Nat.lt_succ_of_lt hLt) with
        ⟨hNone, fds, hUses⟩
      have hStep := connectStep_uses hNone
        (fails_of_connectStep hFailed)
        (hClean n st₁ (Nat.lt_succ_self n) hBefore)
      rw [hFailed] at hStep
      rcases hStep with ⟨_, hLeft, fd, hTurn⟩
      refine ⟨hLeft, fds ++ fd.toList, ?_⟩
      rw [Use.turns_append]
      exact hUses.trans hTurn

------------------------------------------------------------
-- Half-Made Connections
------------------------------------------------------------

/- What has happened since `w`. -/
def World.since
    (w w' : World) : List Event :=
  w'.trace.drop w.trace.length

theorem World.Uses.since
    {w w' : World}
    {uses : List (Use Int)}
    (hUses : w.Uses uses w') :
    w.trace <+: w'.trace ∧
      descriptorUses (w.since w') = uses := by
  rcases hUses with ⟨events, hTrace, rfl⟩
  unfold World.since
  rw [hTrace, List.drop_left]
  exact ⟨List.prefix_append _ _, rfl⟩

/-
  From `w` to `w'`, every descriptor that was opened is
  closed once, and no other is closed.
-/
def ClosesOnce
    (w w' : World) : Prop :=
  ∀ fd,
    (descriptorUses (w.since w')).count (.release fd) =
      if .acquire fd ∈ descriptorUses (w.since w') then 1
      else 0

/-
  The call keeps at most one descriptor open, and closes that
  of a failed attempt once before the next.  Afterwards the
  connection has a tunnel of its route with the one open
  descriptor, which only the null tunnel does without, or it
  has neither.
-/
structure LeavesNoHalfMade
    (st : Connecting) : Prop where
  grows : st.w.trace <+: (socksConnect st).2.w.trace
  oneOpen :
    ∀ front, front <+: st.w.since (socksConnect st).2.w →
      (held (descriptorUses front)).length ≤ 1
  closedOnce :
    ∀ n st₁, AttemptStart st n st₁ →
      Fails (routeTunnels st.con) n st₁ →
      ClosesOnce st₁.w
        (connectStep (routeTunnels st.con) n st₁).2.w
  failed :
    (socksConnect st).1 = 0 →
      (socksConnect st).2.con.tunnel = none ∧
      (socksConnect st).2.con.fdOut = -1 ∧
      held (descriptorUses
        (st.w.since (socksConnect st).2.w)) = []
  made :
    (socksConnect st).1 ≠ 0 →
      ∃ tun ∈ routeTunnels st.con,
        (socksConnect st).2.con.tunnel = some tun ∧
        ((socksConnect st).2.con.fdOut = -1 ↔
          tun.isNull = true) ∧
        held (descriptorUses
            (st.w.since (socksConnect st).2.w)) =
          if (socksConnect st).2.con.fdOut = -1 then []
          else [(socksConnect st).2.con.fdOut]

/- Descriptors in turn, and perhaps a last one. -/
theorem oneOpen_of_uses
    {w w' : World}
    {fds : List Int}
    {last : Option Int}
    (hUses :
      w.Uses (turns fds ++ last.toList.map .acquire) w')
    {front : List Event}
    (hFront : front <+: w.since w') :
    (held (descriptorUses front)).length ≤ 1 := by
  have hPrefix := hFront.filterMap Event.use
  have hSince := hUses.since.2
  unfold descriptorUses at hSince
  rw [hSince] at hPrefix
  exact Use.held_of_prefix hPrefix

/- A descriptor in its turn is closed once. -/
theorem closesOnce_of_uses
    {w w' : World}
    {fd : Option Int}
    (hUses : w.Uses (turns fd.toList) w') :
    ClosesOnce w w' := by
  intro fd'
  rw [hUses.since.2, Use.count_release_turns]
  simp only [Use.acquire_mem_turns]
  cases fd with
  | none => rfl
  | some fd => exact (List.nodup_singleton fd).count

/- Without tunnels there are no attempts. -/
theorem AttemptStart.tunnels
    {st st' : Connecting}
    {n : Nat}
    (hStart : AttemptStart st n st') :
    routeTunnels st.con ≠ [] := by
  induction hStart with
  | first hTunnels => exact hTunnels
  | retry _ _ ih => exact ih

theorem socksConnect_of_no_tunnels
    {st : Connecting}
    (hNone : routeTunnels st.con = []) :
    socksConnect st = (0, st) := by
  unfold socksConnect
  simp only [hNone, if_true]

/- The last attempt, when it made a connection. -/
theorem connectStep_made_uses
    {tunnels : List SshTunnel}
    {n : Nat}
    {st st' : Connecting}
    (hTunnels : tunnels ≠ [])
    (hFd : st.con.fdOut = -1)
    (hMade : ¬ Fails tunnels n st)
    (hStep : connectStep tunnels n st = (some 1, st')) :
    ∃ tun ∈ tunnels, st'.con.tunnel = some tun ∧
      (tun.isNull = true ∧ st'.con.fdOut = -1 ∧
          st.w.Uses [] st'.w ∨
        tun.isNull = false ∧ ∃ fd : Nat,
          st'.con.fdOut = fd ∧
          st.w.Uses [.acquire (fd : Int)] st'.w) := by
  have hSame : st' = (attemptAt tunnels n st).2 := by
    rcases connectStep_cases tunnels n st with
      ⟨_, hEnd⟩ | ⟨hFails, _⟩
    · rw [hStep] at hEnd
      exact (Prod.mk.inj hEnd).2
    · exact absurd hFails hMade
  have hTunnel :
      st'.con.tunnel = some (tunnelOfAttempt tunnels n) := by
    rw [hSame]
    exact attemptTunnel_tunnel _ st
  have hTurn := attemptAt_tunnel hTunnels n st
  rw [← hSame, hTunnel] at hTurn
  refine ⟨_, List.mem_of_getElem? hTurn.symm, hTunnel, ?_⟩
  rw [hSame]
  cases attemptEnds hFd tunnels n with
  | null hNull _ hNone hUses =>
      exact Or.inl ⟨hNull, hNone, hUses⟩
  | failed _ hFails _ _ _ => exact absurd hFails hMade
  | connected fd hNull _ hSome hUses =>
      exact Or.inr ⟨hNull, fd, hSome, hUses⟩

/-
  The descriptors of a whole call: those of failed attempts
  in turn, and then that of the connection.
-/
theorem socksConnect_uses
    {st : Connecting}
    (hTunnels : routeTunnels st.con ≠ [])
    (hFd : st.con.fdOut = -1)
    (hClean : ∀ n st', AttemptStart st n st' →
      ¬ FailsOnZero (routeTunnels st.con) n st') :
    ∃ fds last,
      st.w.Uses (turns fds ++ last.toList.map .acquire)
          (socksConnect st).2.w ∧
        ((socksConnect st).1 = 0 ∧
            (socksConnect st).2.con.tunnel = none ∧
            (socksConnect st).2.con.fdOut = -1 ∧
            last = none ∨
          (socksConnect st).1 = 1 ∧
            ∃ tun ∈ routeTunnels st.con,
              (socksConnect st).2.con.tunnel = some tun ∧
              (tun.isNull = true ∧
                  (socksConnect st).2.con.fdOut = -1 ∧
                  last = none ∨
                tun.isNull = false ∧ ∃ fd : Nat,
                  (socksConnect st).2.con.fdOut = fd ∧
                  last = some (fd : Int))) := by
  rcases socksConnect_ends hTunnels with
    ⟨n, st₁, rc, st', hLast, hStep, hRun⟩
  rcases hLast.uses hFd fun i st' _ => hClean i st' with
    ⟨hNone, fds, hUses⟩
  rw [hRun]
  rcases connectStep_ends hStep with
    ⟨rfl, hMade⟩ | ⟨rfl, hFails, _⟩
  · rcases connectStep_made_uses hTunnels hNone hMade hStep
      with ⟨tun, hMem, hTunnel, hEnd⟩
    rcases hEnd with
      ⟨hNull, hFd', hQuiet⟩ | ⟨hNull, fd, hFd', hOpen⟩
    · refine ⟨fds, none, hUses.trans hQuiet, ?_⟩
      exact Or.inr ⟨rfl, tun, hMem, hTunnel,
        Or.inl ⟨hNull, hFd', rfl⟩⟩
    · refine ⟨fds, some (fd : Int), hUses.trans hOpen, ?_⟩
      exact Or.inr ⟨rfl, tun, hMem, hTunnel,
        Or.inr ⟨hNull, fd, hFd', rfl⟩⟩
  · have hUndone :=
      connectStep_uses hNone hFails (hClean n st₁ hLast)
    rw [hStep] at hUndone
    rcases hUndone with ⟨hTunnel, hFd', fd, hTurn⟩
    refine ⟨fds ++ fd.toList, none, ?_,
      Or.inl ⟨rfl, hTunnel, hFd', rfl⟩⟩
    rw [Use.turns_append]
    exact (hUses.trans hTurn).trans (World.Uses.refl _)

/- Every failed attempt closes what it opened. -/
theorem AttemptStart.closesOnce
    {st st₁ : Connecting}
    {n : Nat}
    (hStart : AttemptStart st n st₁)
    (hFd : st.con.fdOut = -1)
    (hClean : ∀ n st', AttemptStart st n st' →
      ¬ FailsOnZero (routeTunnels st.con) n st')
    (hFails : Fails (routeTunnels st.con) n st₁) :
    ClosesOnce st₁.w
      (connectStep (routeTunnels st.con) n st₁).2.w := by
  have hNone :=
    (hStart.uses hFd fun i st' _ => hClean i st').1
  rcases connectStep_uses hNone hFails
      (hClean n st₁ hStart) with
    ⟨_, _, fd, hUses⟩
  exact closesOnce_of_uses hUses

theorem leavesNoHalfMade_of_clean
    {st : Connecting}
    (hFd : st.con.fdOut = -1)
    (hEntry : routeTunnels st.con = [] →
      st.con.tunnel = none)
    (hClean : ∀ n st', AttemptStart st n st' →
      ¬ FailsOnZero (routeTunnels st.con) n st') :
    LeavesNoHalfMade st := by
  by_cases hTunnels : routeTunnels st.con = []
  · have hRun := socksConnect_of_no_tunnels hTunnels
    have hUses :
        st.w.Uses
          (turns [] ++
            (none : Option Int).toList.map .acquire) st.w :=
      World.Uses.refl st.w
    refine ⟨?_, ?_, ?_, ?_, ?_⟩
    · rw [hRun]
    · rw [hRun]
      intro front hFront
      exact oneOpen_of_uses hUses hFront
    · intro n st₁ hStart
      exact absurd hTunnels hStart.tunnels
    · intro _
      rw [hRun, hUses.since.2]
      exact ⟨hEntry hTunnels, hFd, rfl⟩
    · intro hMade
      rw [hRun] at hMade
      exact absurd rfl hMade
  · rcases socksConnect_uses hTunnels hFd hClean with
      ⟨fds, last, hUses, hEnd⟩
    have hHeld :
        held (descriptorUses
            (st.w.since (socksConnect st).2.w)) =
          last.toList := by
      rw [hUses.since.2, Use.held_turns_append]
      cases last with
      | none => rfl
      | some fd => rfl
    refine ⟨hUses.since.1,
      fun _ hFront => oneOpen_of_uses hUses hFront,
      fun _ _ hStart => hStart.closesOnce hFd hClean,
      ?_, ?_⟩
    · intro hZero
      rcases hEnd with
        ⟨_, hTunnel, hFd', rfl⟩ | ⟨hOne, _⟩
      · exact ⟨hTunnel, hFd', hHeld⟩
      · rw [hZero] at hOne
        contradiction
    · intro hMade
      rcases hEnd with
        ⟨hZero, _⟩ | ⟨_, tun, hMem, hTunnel, hFds⟩
      · exact absurd hZero hMade
      · refine ⟨tun, hMem, hTunnel, ?_⟩
        rw [hHeld]
        rcases hFds with
          ⟨hNull, hFd', rfl⟩ | ⟨hNull, fd, hFd', rfl⟩
        · simp [hNull, hFd']
        · have hOpen : (fd : Int) ≠ -1 := by omega
          simp [hNull, hFd', hOpen]

/- A leak of descriptor 0 is a descriptor never closed. -/
theorem not_leavesNoHalfMade_of_zero
    {st st₁ : Connecting}
    {n : Nat}
    (hStart : AttemptStart st n st₁)
    (hFd : st₁.con.fdOut = -1)
    (hZero : FailsOnZero (routeTunnels st.con) n st₁) :
    ¬ LeavesNoHalfMade st := by
  intro hLeaves
  have hOnce :=
    hLeaves.closedOnce n st₁ hStart hZero.fails 0
  rw [(connectStep_uses_zero hFd hZero).since.2] at hOnce
  simp at hOnce

/-
  The call leaves no half-made connection exactly when no
  attempt through a tunnel's server fails after it was
  connected on descriptor 0.
-/
theorem socksConnect_leavesNoHalfMade_iff
    {st : Connecting}
    (hFd : st.con.fdOut = -1) :
    LeavesNoHalfMade st ↔
      (routeTunnels st.con = [] → st.con.tunnel = none) ∧
        ∀ n st₁, AttemptStart st n st₁ →
          ¬ FailsOnZero (routeTunnels st.con) n st₁ := by
  constructor
  · intro hLeaves
    constructor
    · intro hTunnels
      have hRun := socksConnect_of_no_tunnels hTunnels
      have hFailed := hLeaves.failed
      rw [hRun] at hFailed
      exact (hFailed rfl).1
    · -- The first such attempt starts without a descriptor.
      intro n
      induction n using Nat.strong_induction_on with
      | _ n ih =>
          intro st₁ hStart hZero
          have hNone :=
            (hStart.uses hFd fun i st' hLt =>
              ih i hLt st').1
          exact not_leavesNoHalfMade_of_zero hStart hNone
            hZero hLeaves
  · rintro ⟨hEntry, hClean⟩
    exact leavesNoHalfMade_of_clean hFd hEntry hClean

/-
  A process without a standard input: the first socket is
  descriptor 0, and its server closes the connection.
-/
def withoutStdin : World :=
  { (default : World) with
    dials := Function.update default 0
      { (default : Dial) with socket := .ok 0 } }

def zeroStart : Connecting :=
  (startForwarding largePortForward resolvingRules 0
    (newClientConnection 3 default) withoutStdin).2

/- Descriptor 0 is not closed. -/
theorem socksConnect_zero_leaks :
    ¬ ∀ st : Connecting, st.con.fdOut = -1 →
      st.con.tunnel = none → LeavesNoHalfMade st := by
  intro hClaim
  have hStart : AttemptStart zeroStart 0 _ :=
    AttemptStart.first (by decide)
  have hZero :
      FailsOnZero (routeTunnels zeroStart.con) 0
        (notifyMainThread (routeTunnels zeroStart.con)
          zeroStart) := by
    refine ⟨by decide, by decide, ⟨rfl, ?_⟩, ?_⟩
    · exact List.forall_mem_nil _
    · unfold Fails
      decide
  exact not_leavesNoHalfMade_of_zero hStart (by decide)
    hZero (hClaim zeroStart (by decide) (by decide))

theorem socksConnect_leavesNoHalfMade_zero :
    LeavesNoHalfMade zeroStart ↔
      (routeTunnels zeroStart.con = [] →
          zeroStart.con.tunnel = none) ∧
        ∀ n st₁, AttemptStart zeroStart n st₁ →
          ¬ FailsOnZero (routeTunnels zeroStart.con) n st₁ :=
  socksConnect_leavesNoHalfMade_iff (by decide)

end SmartSOCKSProxy
