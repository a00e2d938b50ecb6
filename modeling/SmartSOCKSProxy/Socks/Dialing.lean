import SmartSOCKSProxy.Socks.Attempts

/-
  The addresses that a session dials.

  A direct attempt dials at most once, and what it dials is
  known before it starts.  Attempts through a tunnel's server
  leave the destination and the resolver alone.

  Key definitions include:
    * `dialings`, `directTarget`, `SameTarget`

  Key theorems include:
    * `connectDirect_dialings`
    * `connectViaSshSocks5_sameTarget`
-/

namespace SmartSOCKSProxy

------------------------------------------------------------
-- Dialings
------------------------------------------------------------

/- The address that an event dials. -/
def Event.dialing : Event → Option (UInt16 × UInt32)
  | .dialed sinPort sinAddr => some (sinPort, sinAddr)
  | _ => none

/- All addresses dialed, in order. -/
def dialings
    (trace : List Event) : List (UInt16 × UInt32) :=
  trace.filterMap Event.dialing

@[simp] theorem dialings_append
    (front back : List Event) :
    dialings (front ++ back) =
      dialings front ++ dialings back :=
  List.filterMap_append

/- A server is dialed once there is a socket for it. -/
theorem dialServer_dialings
    (w : World)
    (sinPort : UInt16)
    (sinAddr : UInt32) :
    dialings (w.dialServer sinPort sinAddr).2.trace =
      dialings w.trace ++
        if w.dial.socket.isOk then [(sinPort, sinAddr)]
        else [] := by
  unfold World.dialServer
  dsimp only
  cases w.dial.socket with
  | error e => simp [Except.isOk, Except.toBool]
  | ok fd =>
      simp only [Except.isOk, Except.toBool, if_true]
      generalize hOpened :
        ((({ w with dialed := w.dialed + 1 } :
          World).emit (.opened fd)).emit
            (.dialed sinPort sinAddr)) = w₁
      have hTrace :
          dialings w₁.trace =
            dialings w.trace ++ [(sinPort, sinAddr)] := by
        rw [← hOpened]
        simp only [World.emit, dialings_append,
          List.append_assoc]
        rfl
      have hConnect := (connect_keeps w₁ w.dial.connects).2
      rcases hRun : w₁.connect w.dial.connects with ⟨rc, w₂⟩
      rw [hRun] at hConnect
      dsimp only at hConnect ⊢
      rw [← hTrace, ← hConnect]
      split
      · simp only [World.emit, dialings_append]
        exact List.append_nil _
      · rfl

/- Without a socket there is no connection. -/
theorem dialServer_made
    {w w' : World}
    {sinPort : UInt16}
    {sinAddr : UInt32}
    {fd : Nat}
    (hDial :
      w.dialServer sinPort sinAddr = (.connected fd, w')) :
    w.dial.socket.isOk = true := by
  unfold World.dialServer at hDial
  dsimp only at hDial
  cases hSocket : w.dial.socket with
  | error e =>
      rw [hSocket] at hDial
      exact nomatch congrArg Prod.fst hDial
  | ok fd => rfl

------------------------------------------------------------
-- Direct Attempts
------------------------------------------------------------

/-
  The address that a direct attempt is going to dial: the
  IPv4 address of its destination, when there is a socket.
-/
def directTarget
    (con : ClientConnection)
    (w : World) : Option (UInt16 × UInt32) :=
  match (resolveDestination con w).1.dstHost.addr with
  | .inet sinPort sinAddr =>
      if w.dial.socket.isOk then some (sinPort, sinAddr)
      else none
  | _ => none

/- Resolution uses no socket. -/
theorem resolveDestination_silent
    (con : ClientConnection)
    (w : World) :
    (resolveDestination con w).2.trace = w.trace ∧
      (resolveDestination con w).2.dial = w.dial := by
  rcases resolveDestination_eq con w with
    ⟨dstHost, dns, hRun, _⟩
  rw [hRun]
  exact ⟨rfl, rfl⟩

/- A direct attempt dials its target and nothing else. -/
theorem connectDirect_dialings
    (st : Connecting) :
    dialings (connectDirect st).2.w.trace =
      dialings st.w.trace ++
        (directTarget st.con st.w).toList := by
  rcases resolveDestination_silent st.con st.w with
    ⟨hTrace, hDial⟩
  unfold connectDirect directTarget
  rcases hDst : resolveDestination st.con st.w with
    ⟨con, w⟩
  rw [hDst] at hTrace hDial
  dsimp only at hTrace hDial ⊢
  cases con.dstHost.addr with
  | unspec => simp [hTrace]
  | inet6 _ _ => simp [hTrace]
  | inet sinPort sinAddr =>
      have hDialed := dialServer_dialings w sinPort sinAddr
      rw [hTrace, hDial] at hDialed
      rcases hRun : w.dialServer sinPort sinAddr with
        ⟨result, w'⟩
      rw [hRun] at hDialed
      have hTarget :
          dialings w'.trace =
            dialings st.w.trace ++
              (if w.dial.socket.isOk then
                some (sinPort, sinAddr)
              else none).toList := by
        rw [hDialed, hDial]
        split
        · rfl
        · rfl
      rw [hDial] at hTarget
      simp only [hRun]
      cases result with
      | noSocket => exact hTarget
      | connected fd => exact hTarget
      | notConnected =>
          dsimp only
          split
          · exact hTarget
          · exact hTarget

/- A connection is made only to a target that was dialed. -/
theorem connectDirect_made
    {st : Connecting}
    (hMade : (connectDirect st).1 ≠ 0) :
    directTarget st.con st.w ≠ none := by
  have hDial :=
    (resolveDestination_silent st.con st.w).2
  revert hMade
  unfold connectDirect directTarget
  rcases hDst : resolveDestination st.con st.w with
    ⟨con, w⟩
  rw [hDst] at hDial
  dsimp only at hDial ⊢
  cases con.dstHost.addr with
  | unspec => exact fun hMade => absurd rfl hMade
  | inet6 _ _ => exact fun hMade => absurd rfl hMade
  | inet sinPort sinAddr =>
      rcases hRun : w.dialServer sinPort sinAddr with
        ⟨result, w'⟩
      simp only [hRun]
      cases result with
      | noSocket => exact fun hMade => absurd rfl hMade
      | notConnected =>
          dsimp only
          split
          · exact fun hMade => absurd rfl hMade
          · exact fun hMade => absurd rfl hMade
      | connected fd =>
          have hSocket := dialServer_made hRun
          rw [hDial] at hSocket
          simp [hSocket]

/- The tunnel that a connection remembers does not matter. -/
theorem resolveDestination_tunnel
    (con : ClientConnection)
    (w : World)
    (tunnel : Option SshTunnel) :
    resolveDestination { con with tunnel := tunnel } w =
      ({ (resolveDestination con w).1 with
          tunnel := tunnel },
        (resolveDestination con w).2) := by
  unfold resolveDestination
  dsimp only
  split
  · cases inetPton4 con.dstHost.name.text with
    | some sinAddr => rfl
    | none => rfl
  · rfl

theorem directTarget_tunnel
    (con : ClientConnection)
    (w : World)
    (tunnel : Option SshTunnel) :
    directTarget { con with tunnel := tunnel } w =
      directTarget con w := by
  unfold directTarget
  rw [resolveDestination_tunnel]

/- An attempt through the direct tunnel. -/
theorem attemptTunnel_direct
    {tun : SshTunnel}
    (hDirect : tun.isDirect = true)
    (st : Connecting) :
    attemptTunnel tun st =
      connectDirect
        { st with
          con := { st.con with tunnel := some tun } } := by
  unfold attemptTunnel
  dsimp only
  rw [if_pos hDirect]

/- What such an attempt dials. -/
theorem attemptTunnel_dialings
    {tun : SshTunnel}
    (hDirect : tun.isDirect = true)
    (st : Connecting) :
    dialings (attemptTunnel tun st).2.w.trace =
      dialings st.w.trace ++
        (directTarget st.con st.w).toList := by
  rw [attemptTunnel_direct hDirect, connectDirect_dialings,
    directTarget_tunnel]

------------------------------------------------------------
-- Attempts Through a Tunnel's Server
------------------------------------------------------------

/- Tunnel and destination of a connection are as before. -/
structure SameTarget
    (con con' : ClientConnection) : Prop where
  tunnel : con'.tunnel = con.tunnel
  dstHost : con'.dstHost = con.dstHost

theorem connect_dns
    (w : World)
    (connects : List Int) :
    (w.connect connects).2.dns = w.dns := by
  induction connects generalizing w with
  | nil => rfl
  | cons e connects ih =>
      rw [World.connect]
      split
      · exact ih { w with errno := e }
      · rfl

theorem dialServer_dns
    (w : World)
    (sinPort : UInt16)
    (sinAddr : UInt32) :
    (w.dialServer sinPort sinAddr).2.dns = w.dns := by
  unfold World.dialServer
  dsimp only
  cases w.dial.socket with
  | error e => rfl
  | ok fd =>
      dsimp only
      split
      · exact connect_dns _ w.dial.connects
      · exact connect_dns _ w.dial.connects

theorem connectToSshSocks5Proxy_sameTarget
    (con : ClientConnection)
    (w : World)
    (tun : SshTunnel) :
    SameTarget con
        (connectToSshSocks5Proxy con w tun).2.1 ∧
      (connectToSshSocks5Proxy con w tun).2.2.dns =
        w.dns := by
  have hDns :=
    dialServer_dns w (htons tun.socksPort) 0x7F000001
  unfold connectToSshSocks5Proxy
  rcases hDial :
      w.dialServer (htons tun.socksPort) 0x7F000001 with
    ⟨result, w'⟩
  rw [hDial] at hDns
  simp only
  cases result with
  | noSocket => exact ⟨⟨rfl, rfl⟩, hDns⟩
  | connected fd => exact ⟨⟨rfl, rfl⟩, hDns⟩
  | notConnected =>
      dsimp only
      split
      · exact ⟨⟨rfl, rfl⟩, hDns⟩
      · exact ⟨⟨rfl, rfl⟩, hDns⟩

theorem requestConnection_sameTarget
    (con : ClientConnection)
    (w : World)
    (buf : Buffer)
    (failureType : Int) :
    SameTarget con
        (requestConnection con w buf failureType).2.1 ∧
      (requestConnection con w buf failureType).2.2.1.dns =
        w.dns := by
  constructor
  · unfold requestConnection
    dsimp only
    split
    · exact ⟨rfl, rfl⟩
    · split
      · exact ⟨rfl, rfl⟩
      · unfold socks5ClientGetCommandResponse
        dsimp only
        split
        · exact ⟨rfl, rfl⟩
        · split
          · exact ⟨rfl, rfl⟩
          · exact ⟨rfl, rfl⟩
  · rcases requestConnection_exchange con w buf failureType
      with ⟨_, _, _, _, _, _, hRun, hExchange, _⟩
    rw [hRun]
    exact hExchange.dns

theorem connectViaSshSocks5_sameTarget
    (con : ClientConnection)
    (w : World)
    (tun : SshTunnel) :
    SameTarget con (connectViaSshSocks5 con w tun).2.1 ∧
      (connectViaSshSocks5 con w tun).2.2.1.dns =
        w.dns := by
  unfold connectViaSshSocks5
  dsimp only
  generalize hCon₁ :
    setClientConnectionStatus con ccStatusOkay
      (some (Text.ascii "Connecting".toList))
      (some (Text.ascii
        "Connecting to SSH SOCKS5 server".toList)) = con₁
  have hFirst : SameTarget con con₁ :=
    hCon₁ ▸ ⟨rfl, rfl⟩
  have hDialed :=
    connectToSshSocks5Proxy_sameTarget con₁ w tun
  rcases hDial : connectToSshSocks5Proxy con₁ w tun with
    ⟨ok, con₂, w₂⟩
  rw [hDial] at hDialed
  dsimp only at hDialed ⊢
  rcases hDialed with ⟨hSame, hDns⟩
  have hTunnel := hSame.tunnel.trans hFirst.tunnel
  have hHost := hSame.dstHost.trans hFirst.dstHost
  split
  · exact ⟨⟨hTunnel, hHost⟩, hDns⟩
  · generalize hCon₃ :
      setClientConnectionStatus con₂ ccStatusOkay
        (some (Text.ascii "Negotiating".toList))
        (some (Text.ascii
          ("Negotiating connection with SSH SOCKS5 " ++
            "server").toList)) = con₃
    have hThird : SameTarget con₂ con₃ :=
      hCon₃ ▸ ⟨rfl, rfl⟩
    have hRequested :=
      requestConnection_sameTarget con₃ w₂ w.dial.stack
        socks5ReplyServerFailure
    rcases hRequest : requestConnection con₃ w₂ w.dial.stack
        socks5ReplyServerFailure with
      ⟨rc, con₄, w₄, failureType⟩
    rw [hRequest] at hRequested
    dsimp only at hRequested ⊢
    rcases hRequested with ⟨hLast, hDns'⟩
    have hTunnel' :=
      (hLast.tunnel.trans hThird.tunnel).trans hTunnel
    have hHost' :=
      (hLast.dstHost.trans hThird.dstHost).trans hHost
    split
    · exact ⟨⟨hTunnel', hHost'⟩, hDns'.trans hDns⟩
    · exact ⟨⟨hTunnel', hHost'⟩, hDns'.trans hDns⟩

/- Only direct attempts look for the destination. -/
theorem attemptTunnel_sameTarget
    {tun : SshTunnel}
    (hDirect : tun.isDirect = false)
    (st : Connecting) :
    (attemptTunnel tun st).2.con.dstHost = st.con.dstHost ∧
      (attemptTunnel tun st).2.w.dns = st.w.dns := by
  unfold attemptTunnel
  dsimp only
  rw [if_neg (by simp [hDirect])]
  split
  · exact ⟨rfl, rfl⟩
  · rcases connectViaSshSocks5_sameTarget
        { st.con with tunnel := some tun } st.w tun with
      ⟨hSame, hDns⟩
    exact ⟨hSame.dstHost, hDns⟩

end SmartSOCKSProxy
