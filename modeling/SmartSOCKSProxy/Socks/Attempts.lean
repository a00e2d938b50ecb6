import SmartSOCKSProxy.Socks.Connect
import SmartSOCKSProxy.Socks.Encoding

/-
  What the attempts to connect leave as it was, and what they
  tell the servers.

  Every attempt keeps the client out of it, and keeps the
  request that the connection carries.

  Key definitions include:
    * `KeepsRequest`, `Kept`

  Key theorems include:
    * `requestConnection_exchange`
    * `connectViaSshSocks5_sends`
    * `AttemptStart.kept`, `socksConnect_kept`
-/

namespace SmartSOCKSProxy

------------------------------------------------------------
-- Kept Requests
------------------------------------------------------------

/-
  The connection asks for what it asked for before; a name
  may have got an address.
-/
structure KeepsRequest
    (con con' : ClientConnection) : Prop where
  version : con'.socksVersion = con.socksVersion
  command : con'.socksCommand = con.socksCommand
  addressType :
    con'.socksAddressType = con.socksAddressType
  dstHost : Resolved con.dstHost con'.dstHost

namespace KeepsRequest

variable {con con₁ con₂ : ClientConnection}

theorem refl
    (con : ClientConnection) :
    KeepsRequest con con :=
  ⟨rfl, rfl, rfl, Resolved.refl _⟩

theorem trans
    (h : KeepsRequest con con₁)
    (h' : KeepsRequest con₁ con₂) :
    KeepsRequest con con₂ :=
  ⟨h'.version.trans h.version, h'.command.trans h.command,
    h'.addressType.trans h.addressType,
    h.dstHost.trans h'.dstHost⟩

/- Fields that are not part of the request do not matter. -/
theorem of_eq
    (hVersion : con₁.socksVersion = con.socksVersion)
    (hCommand : con₁.socksCommand = con.socksCommand)
    (hType : con₁.socksAddressType = con.socksAddressType)
    (hHost : con₁.dstHost = con.dstHost) :
    KeepsRequest con con₁ :=
  ⟨hVersion, hCommand, hType, hHost ▸ Resolved.refl _⟩

end KeepsRequest

/- The request is kept and the client is left alone. -/
structure Kept
    (st st' : Connecting) : Prop where
  request : KeepsRequest st.con st'.con
  client : st.w.Spares .client st'.w

namespace Kept

variable {st st₁ st₂ : Connecting}

theorem refl
    (st : Connecting) :
    Kept st st :=
  ⟨KeepsRequest.refl _, World.Spares.refl _ _⟩

theorem trans
    (h : Kept st st₁)
    (h' : Kept st₁ st₂) :
    Kept st st₂ :=
  ⟨h.request.trans h'.request, h.client.trans h'.client⟩

end Kept

------------------------------------------------------------
-- Talking to a Tunnel's Server
------------------------------------------------------------

/- The offer is sent whole when the negotiation succeeds. -/
theorem sock5ClientNegotiateAuth_exchange
    (w : World)
    (buf : Buffer) :
    ∃ rc got put w',
      sock5ClientNegotiateAuth w buf = (rc, w') ∧
      Exchange .server w got put w' ∧
      put <+: [5, 1, 0] ∧
      (rc ≠ 0 → put = [5, 1, 0]) := by
  have hOffer :
      (buf.store 0 [5, 1, 0]).load 3 = [5, 1, 0] := rfl
  rcases w.sbWriteLen_exchange .server [5, 1, 0] with
    ⟨rc, put, w₁, hWrite, hGiven, hOutcome⟩
  unfold sock5ClientNegotiateAuth
  simp only [hOffer, hWrite]
  rcases hOutcome with ⟨rfl, hRc⟩ | ⟨hPrefix, hRc, _⟩
  · rw [if_neg (by omega)]
    have hTaken := w₁.sbReadLen_exchange .server 2
    rcases hRead : w₁.sbReadLen .server 2 with
      ⟨rc₂, data, w₂⟩
    rw [hRead] at hTaken
    have hBoth := hGiven.trans hTaken
    simp only [List.append_nil] at hBoth
    dsimp only
    split
    · exact ⟨0, _, _, w₂, rfl, hBoth, List.prefix_rfl,
        fun _ => rfl⟩
    · split
      · exact ⟨0, _, _, w₂, rfl, hBoth, List.prefix_rfl,
          fun _ => rfl⟩
      · exact ⟨1, _, _, w₂, rfl, hBoth, List.prefix_rfl,
          fun _ => rfl⟩
  · rw [if_pos (by omega)]
    exact ⟨0, _, put, w₁, rfl, hGiven, hPrefix,
      fun hNe => absurd rfl hNe⟩

/- The command depends on the request alone. -/
theorem commandMessage_congr
    {con con' : ClientConnection}
    (hKeeps : KeepsRequest con con')
    (hHost : con'.dstHost = con.dstHost)
    (buf : Buffer) :
    commandMessage con' buf = commandMessage con buf := by
  unfold commandMessage storeAddress
  rw [hKeeps.command, hKeeps.addressType, hHost]

/- An address type without a command sends nothing. -/
theorem socks5ClientSendCommand_none
    {con : ClientConnection}
    {buf : Buffer}
    (hMessage : commandMessage con buf = none)
    (w : World) :
    socks5ClientSendCommand con w buf = (0, w) := by
  simp [socks5ClientSendCommand, hMessage]

/- Bytes stored behind the first four leave these alone. -/
theorem head_of_stored
    {rc : Int}
    {buf buf' : Buffer}
    {start idx idx' : Nat}
    {data : List UInt8}
    (hStart : 4 ≤ start)
    (hIdx : 4 ≤ idx)
    (hStored :
      (if rc < 0 then none
        else some (buf.store start data, idx)) =
        some (buf', idx')) :
    4 ≤ idx' ∧ ∀ i < 4, buf' i = buf i := by
  split at hStored
  · contradiction
  · cases hStored
    exact ⟨hIdx, fun i hi =>
      Buffer.store_of_lt _ _ (by omega)⟩

/- The bound address is stored behind the reply's head. -/
theorem readBoundAddress_exchange
    (addrType : UInt8)
    (w : World)
    (buf : Buffer) :
    ∃ bound got w',
      readBoundAddress addrType w buf = (bound, w') ∧
      Exchange .server w got [] w' ∧
      ∀ buf' idx, bound = some (buf', idx) →
        4 ≤ idx ∧ ∀ i < 4, buf' i = buf i := by
  unfold readBoundAddress
  split
  · exact ⟨_, _, _, rfl, w.sbReadLen_exchange .server 4,
      fun _ _ => head_of_stored (by omega) (by omega)⟩
  · split
    · exact ⟨_, _, _, rfl, w.sbReadLen_exchange .server 16,
        fun _ _ => head_of_stored (by omega) (by omega)⟩
    · -- The third test repeats the first.
      exact ⟨none, [], w, rfl, Exchange.refl _ _,
        fun _ _ hNone => by contradiction⟩

/- A reply is granted only with a zero status byte. -/
theorem readReplyTail_exchange
    (w : World)
    (buf : Buffer) :
    ∃ rc got w',
      readReplyTail w buf = (rc, w') ∧
      Exchange .server w got [] w' ∧
      (rc ≠ 0 → buf 1 = 0) := by
  unfold readReplyTail
  rcases readBoundAddress_exchange (buf 3) w buf with
    ⟨bound, got₁, w₁, hBound, hTaken₁, hHead⟩
  rw [hBound]
  rcases bound with _ | ⟨buf₁, idx⟩
  · exact ⟨0, got₁, w₁, rfl, hTaken₁,
      fun hNe => absurd rfl hNe⟩
  · rcases hHead buf₁ idx rfl with ⟨hIdx, hSame⟩
    have hTaken₂ := w₁.sbReadLen_exchange .server 2
    rcases hRead : w₁.sbReadLen .server 2 with
      ⟨rc, data, w₂⟩
    rw [hRead] at hTaken₂
    have hBoth := hTaken₁.trans hTaken₂
    simp only [hRead]
    split
    · exact ⟨0, _, w₂, rfl, hBoth,
        fun hNe => absurd rfl hNe⟩
    · split
      · exact ⟨0, _, w₂, rfl, hBoth,
          fun hNe => absurd rfl hNe⟩
      · rename_i hStatus
        refine ⟨1, _, w₂, rfl, hBoth, fun _ => ?_⟩
        rw [not_not, Buffer.store_of_lt _ _ (by omega),
          hSame 1 (by omega)] at hStatus
        exact hStatus

/- A granted request leaves the failure type of success. -/
theorem socks5ClientGetCommandResponse_exchange
    (con : ClientConnection)
    (w : World)
    (buf : Buffer)
    (failureType : Int) :
    ∃ rc con' got w' failureType',
      socks5ClientGetCommandResponse con w buf failureType =
        (rc, con', w', failureType') ∧
      Exchange .server w got [] w' ∧
      KeepsRequest con con' ∧
      (rc ≠ 0 → failureType' = socks5ReplySucceed) := by
  unfold socks5ClientGetCommandResponse
  have hTaken₁ := w.sbReadLen_exchange .server 4
  rcases hRead : w.sbReadLen .server 4 with ⟨rc, data, w₁⟩
  rw [hRead] at hTaken₁
  dsimp only
  split
  · exact ⟨0, con, _, w₁, _, rfl, hTaken₁,
      KeepsRequest.refl con, fun hNe => absurd rfl hNe⟩
  · split
    · exact ⟨0, _, _, w₁, _, rfl, hTaken₁,
        KeepsRequest.of_eq rfl rfl rfl rfl,
        fun hNe => absurd rfl hNe⟩
    · rcases readReplyTail_exchange w₁ (buf.store 0 data)
        with ⟨ok, got, w₂, hTail, hTaken₂, hStatus⟩
      rw [hTail]
      refine ⟨ok, con, _, w₂, _, rfl,
        hTaken₁.trans hTaken₂, KeepsRequest.refl con,
        fun hNe => ?_⟩
      rw [hStatus hNe]
      rfl

/-
  The server is sent the offer and then the command, all of
  both when the request is granted.
-/
theorem requestConnection_exchange
    (con : ClientConnection)
    (w : World)
    (buf : Buffer)
    (failureType : Int) :
    ∃ rc con' got put w' failureType',
      requestConnection con w buf failureType =
        (rc, con', w', failureType') ∧
      Exchange .server w got put w' ∧
      KeepsRequest con con' ∧
      (rc ≠ 0 → failureType' = socks5ReplySucceed) ∧
      ∀ message, commandMessage con buf = some message →
        put <+: [5, 1, 0] ++ message ∧
          (rc ≠ 0 → put = [5, 1, 0] ++ message) := by
  unfold requestConnection
  rcases sock5ClientNegotiateAuth_exchange w buf with
    ⟨ok, got₁, put₁, w₁, hAuth, hExchange₁, hOffer,
      hOffered⟩
  simp only [hAuth]
  by_cases hOk : ok = 0
  · rw [if_pos hOk]
    refine ⟨ok, con, got₁, put₁, w₁, failureType, rfl,
      hExchange₁, KeepsRequest.refl con,
      fun hNe => absurd hOk hNe, fun message _ => ?_⟩
    exact ⟨hOffer.trans (List.prefix_append _ _),
      fun hNe => absurd hOk hNe⟩
  · rw [if_neg hOk]
    have hPut₁ := hOffered hOk
    subst hPut₁
    cases hMessage : commandMessage con buf with
    | none =>
        rw [socks5ClientSendCommand_none hMessage]
        exact ⟨0, con, got₁, _, w₁, failureType, rfl,
          hExchange₁, KeepsRequest.refl con,
          fun hNe => absurd rfl hNe,
          fun _ hSome => by contradiction⟩
    | some message =>
        rcases socks5ClientSendCommand_exchange hMessage w₁
          with ⟨rc, put₂, w₂, hSend, hExchange₂, hPrefix,
            hSent, _⟩
        simp only [hSend]
        have hBoth := hExchange₁.trans hExchange₂
        have hFront :
            [5, 1, 0] ++ put₂ <+: [5, 1, 0] ++ message :=
          (List.prefix_append_right_inj _).mpr hPrefix
        by_cases hRc : rc = 0
        · rw [if_pos hRc]
          refine ⟨rc, con, _, _, w₂, failureType, rfl,
            hBoth, KeepsRequest.refl con,
            fun hNe => absurd hRc hNe, ?_⟩
          rintro message' ⟨⟩
          exact ⟨hFront, fun hNe => absurd hRc hNe⟩
        · rw [if_neg hRc]
          rcases socks5ClientGetCommandResponse_exchange
              con w₂ buf failureType with
            ⟨rc', con', got₃, w₃, failureType', hResponse,
              hExchange₃, hKeeps, hSucceed⟩
          have hAll := hBoth.trans hExchange₃
          simp only [hSent hRc, List.append_nil] at hAll
          refine ⟨rc', con', _, _, w₃, failureType',
            hResponse, hAll, hKeeps, hSucceed, ?_⟩
          rintro message' ⟨⟩
          exact ⟨List.prefix_rfl, fun _ => rfl⟩

------------------------------------------------------------
-- Single Attempts
------------------------------------------------------------

/- connect() sets the error number only. -/
theorem connect_keeps
    (w : World)
    (connects : List Int) :
    (w.connect connects).2.socks = w.socks ∧
      (w.connect connects).2.trace = w.trace := by
  induction connects generalizing w with
  | nil => exact ⟨rfl, rfl⟩
  | cons e connects ih =>
      rw [World.connect]
      split
      · exact ih { w with errno := e }
      · exact ⟨rfl, rfl⟩

/- Dialing a server sends nothing, and spares the client. -/
theorem dialServer_keeps
    (w : World)
    (sinPort : UInt16)
    (sinAddr : UInt32) :
    (w.dialServer sinPort sinAddr).2.socks .client =
        w.socks .client ∧
      ∀ peer,
        sentTo peer (w.dialServer sinPort sinAddr).2.trace =
          sentTo peer w.trace := by
  unfold World.dialServer
  dsimp only
  cases w.dial.socket with
  | error e => exact ⟨rfl, fun _ => rfl⟩
  | ok fd =>
      dsimp only
      let w₁ : World :=
        { w with
          dialed := w.dialed + 1
          trace := w.trace ++ [.opened fd] ++
            [.dialed sinPort sinAddr] }
      have hConnect := connect_keeps w₁ w.dial.connects
      have hSilent :
          ∀ peer, sentTo peer w₁.trace =
            sentTo peer w.trace := by
        intro peer
        simp [w₁, sentTo, Event.sentTo]
      rcases hRun : w₁.connect w.dial.connects with ⟨rc, w₂⟩
      rw [hRun] at hConnect
      rcases hConnect with ⟨hSocks, hTrace⟩
      have hRun' :
          World.connect
              (((({ w with dialed := w.dialed + 1 } :
                World).emit (.opened fd)).emit
                  (.dialed sinPort sinAddr)))
              w.dial.connects =
            (rc, w₂) := hRun
      rw [hRun']
      dsimp only
      split
      · refine ⟨congrFun hSocks .client, fun peer => ?_⟩
        rw [← hSilent peer, ← hTrace]
        simp [World.emit, sentTo, Event.sentTo]
      · refine ⟨?_, fun peer => ?_⟩
        · simpa using congrFun hSocks .client
        · rw [← hSilent peer, ← hTrace]

/- Resolution changes the destination and the resolver. -/
theorem resolveDestination_eq
    (con : ClientConnection)
    (w : World) :
    ∃ dstHost dns,
      resolveDestination con w =
          ({ con with dstHost := dstHost },
            { w with dns := dns }) ∧
        Resolved con.dstHost dstHost := by
  unfold resolveDestination
  split
  · rename_i hUnresolved
    cases inetPton4 con.dstHost.name.text with
    | some sinAddr =>
        exact ⟨_, w.dns, rfl,
          Resolved.setAddrIn hUnresolved.1 sinAddr⟩
    | none =>
        exact ⟨_, _, rfl, resolveDnsForHostId_resolved _ _⟩
  · exact ⟨con.dstHost, w.dns, rfl, Resolved.refl _⟩

theorem resolveDestination_kept
    (con : ClientConnection)
    (w : World)
    (failureType failureType' : Int) :
    Kept ⟨con, w, failureType⟩
      ⟨(resolveDestination con w).1,
        (resolveDestination con w).2, failureType'⟩ := by
  rcases resolveDestination_eq con w with
    ⟨dstHost, dns, hRun, hResolved⟩
  rw [hRun]
  exact ⟨⟨rfl, rfl, rfl, hResolved⟩, ⟨rfl, rfl⟩⟩

/- A direct connection is made with the type of success. -/
theorem connectDirect_kept
    (st : Connecting) :
    Kept st (connectDirect st).2 ∧
      ((connectDirect st).1 ≠ 0 →
        (connectDirect st).2.failureType =
          socks5ReplySucceed) := by
  have hResolve := resolveDestination_kept st.con st.w
    st.failureType
  unfold connectDirect
  rcases hDst : resolveDestination st.con st.w with
    ⟨con, w⟩
  rw [hDst] at hResolve
  dsimp only at hResolve ⊢
  cases con.dstHost.addr with
  | unspec => exact ⟨hResolve _, fun hNe => absurd rfl hNe⟩
  | inet6 _ _ => exact ⟨hResolve _, fun hNe => absurd rfl hNe⟩
  | inet sinPort sinAddr =>
      rcases dialServer_keeps w sinPort sinAddr with
        ⟨hSock, hSent⟩
      rcases hDial : w.dialServer sinPort sinAddr with
        ⟨result, w'⟩
      rw [hDial] at hSock hSent
      have hKept :
          ∀ failureType,
            Kept st
              ⟨{ con with fdOut := result.fdOut }, w',
                failureType⟩ := by
        intro failureType
        apply (hResolve failureType).trans
        exact ⟨KeepsRequest.of_eq rfl rfl rfl rfl,
          ⟨hSock, hSent .client⟩⟩
      simp only [hDial]
      cases result with
      | noSocket =>
          exact ⟨hKept _, fun hNe => absurd rfl hNe⟩
      | connected fd => exact ⟨hKept _, fun _ => rfl⟩
      | notConnected =>
          dsimp only
          split
          · exact ⟨hKept _, fun hNe => absurd rfl hNe⟩
          · exact ⟨hKept _, fun hNe => absurd rfl hNe⟩

/- The tunnel's server is dialed, and nothing is sent yet. -/
theorem connectToSshSocks5Proxy_keeps
    (con : ClientConnection)
    (w : World)
    (tun : SshTunnel) :
    ∃ rc con' w',
      connectToSshSocks5Proxy con w tun = (rc, con', w') ∧
      KeepsRequest con con' ∧
      con'.dstHost = con.dstHost ∧
      w'.socks .client = w.socks .client ∧
      ∀ peer, sentTo peer w'.trace =
        sentTo peer w.trace := by
  have hDial := dialServer_keeps w (htons tun.socksPort)
    0x7F000001
  unfold connectToSshSocks5Proxy
  rcases hRun : w.dialServer (htons tun.socksPort)
      0x7F000001 with
    ⟨result, w'⟩
  rw [hRun] at hDial
  simp only
  cases result with
  | noSocket =>
      exact ⟨0, _, w', rfl,
        KeepsRequest.of_eq rfl rfl rfl rfl, rfl, hDial⟩
  | connected fd =>
      exact ⟨1, _, w', rfl,
        KeepsRequest.of_eq rfl rfl rfl rfl, rfl, hDial⟩
  | notConnected =>
      dsimp only
      split
      · exact ⟨0, _, w', rfl,
          KeepsRequest.of_eq rfl rfl rfl rfl, rfl, hDial⟩
      · exact ⟨0, _, w', rfl,
          KeepsRequest.of_eq rfl rfl rfl rfl, rfl, hDial⟩

/-
  An attempt through a tunnel's server sends the offer and
  the command, all of both when it succeeds.
-/
theorem connectViaSshSocks5_sends
    (con : ClientConnection)
    (w : World)
    (tun : SshTunnel)
    (failureType₀ : Int) :
    ∃ rc con' w' failureType put,
      connectViaSshSocks5 con w tun =
        (rc, con', w', failureType) ∧
      Kept ⟨con, w, failureType₀⟩ ⟨con', w', failureType⟩ ∧
      (rc ≠ 0 → failureType = socks5ReplySucceed) ∧
      sentTo .server w'.trace =
        sentTo .server w.trace ++ put ∧
      ∀ message,
        (∀ buf, commandMessage con buf = some message) →
        put <+: [5, 1, 0] ++ message ∧
          (rc ≠ 0 → put = [5, 1, 0] ++ message) := by
  unfold connectViaSshSocks5
  dsimp only
  generalize hCon₁ :
    setClientConnectionStatus con ccStatusOkay
      (some (Text.ascii "Connecting".toList))
      (some (Text.ascii
        "Connecting to SSH SOCKS5 server".toList)) = con₁
  have hKeeps₁ : KeepsRequest con con₁ :=
    hCon₁ ▸ KeepsRequest.of_eq rfl rfl rfl rfl
  rcases connectToSshSocks5Proxy_keeps con₁ w tun with
    ⟨ok, con₂, w₂, hDial, hKeeps₂, hHost₂, hSock, hSent⟩
  simp only [hDial]
  have hKept₂ :
      ∀ failureType,
        Kept ⟨con, w, failureType₀⟩
          ⟨con₂, w₂, failureType⟩ :=
    fun _ => ⟨hKeeps₁.trans hKeeps₂,
      ⟨hSock, hSent .client⟩⟩
  by_cases hOk : ok = 0
  · rw [if_pos hOk]
    exact ⟨ok, con₂, w₂, _, [], rfl, hKept₂ _,
      fun hNe => absurd hOk hNe,
      by rw [hSent, List.append_nil],
      fun message _ => ⟨List.nil_prefix,
        fun hNe => absurd hOk hNe⟩⟩
  · rw [if_neg hOk]
    generalize hCon₃ :
      setClientConnectionStatus con₂ ccStatusOkay
        (some (Text.ascii "Negotiating".toList))
        (some (Text.ascii
          ("Negotiating connection with SSH SOCKS5 " ++
            "server").toList)) = con₃
    have hKeeps₃ : KeepsRequest con₂ con₃ :=
      hCon₃ ▸ KeepsRequest.of_eq rfl rfl rfl rfl
    have hHost : con₃.dstHost = con.dstHost := by
      rw [← hCon₃]
      exact hHost₂.trans (hCon₁ ▸ rfl)
    rcases requestConnection_exchange con₃ w₂ w.dial.stack
        socks5ReplyServerFailure with
      ⟨rc, con₄, got, put, w₄, failureType, hRequest,
        hExchange, hKeeps₄, hSucceed, hPut⟩
    simp only [hRequest]
    have hKeeps₂₃ := (hKeeps₁.trans hKeeps₂).trans hKeeps₃
    have hSpares :=
      (hKept₂ 0).client.trans
        (World.Spares.of_exchange hExchange)
    have hServer :
        sentTo .server w₄.trace =
          sentTo .server w.trace ++ put := by
      rw [hExchange.sent, hSent]
    have hCommand :
        ∀ message,
          (∀ buf, commandMessage con buf = some message) →
          put <+: [5, 1, 0] ++ message ∧
            (rc ≠ 0 → put = [5, 1, 0] ++ message) := by
      intro message hMessage
      apply hPut message
      rw [commandMessage_congr hKeeps₂₃ hHost]
      exact hMessage _
    by_cases hRc : rc = 0
    · rw [if_pos hRc]
      exact ⟨rc, con₄, w₄, failureType, put, rfl,
        ⟨hKeeps₂₃.trans hKeeps₄, hSpares⟩, hSucceed,
        hServer, hCommand⟩
    · rw [if_neg hRc]
      exact ⟨rc, _, w₄, failureType, put, rfl,
        ⟨(hKeeps₂₃.trans hKeeps₄).trans
            (KeepsRequest.of_eq rfl rfl rfl rfl),
          hSpares⟩,
        hSucceed, hServer, hCommand⟩

/-
  Every attempt keeps the request, and only one through the
  null tunnel succeeds without setting the failure type.
-/
theorem attemptTunnel_kept
    (tun : SshTunnel)
    (st : Connecting) :
    Kept st (attemptTunnel tun st).2 ∧
      ((attemptTunnel tun st).1 ≠ 0 →
        (attemptTunnel tun st).2.failureType =
          if tun.isNull then st.failureType
          else socks5ReplySucceed) := by
  have hTunnel :
      Kept st
        { st with
          con := { st.con with tunnel := some tun } } :=
    ⟨KeepsRequest.of_eq rfl rfl rfl rfl,
      World.Spares.refl _ _⟩
  unfold attemptTunnel
  dsimp only
  by_cases hDirect : tun.isDirect = true
  · have hNull := SshTunnel.isNull_of_isDirect hDirect
    rw [if_pos hDirect, hNull]
    rcases connectDirect_kept
        { st with
          con := { st.con with tunnel := some tun } } with
      ⟨hKept, hSucceed⟩
    exact ⟨hTunnel.trans hKept, hSucceed⟩
  · rw [if_neg hDirect]
    by_cases hNull : tun.isNull = true
    · rw [if_pos hNull, if_pos hNull]
      exact ⟨hTunnel, fun _ => rfl⟩
    · rw [if_neg hNull, if_neg hNull]
      rcases connectViaSshSocks5_sends
          { st.con with tunnel := some tun } st.w tun
          st.failureType with
        ⟨rc, con', w', failureType, put, hRun, hKept,
          hSucceed, _⟩
      rw [hRun]
      exact ⟨hTunnel.trans hKept, hSucceed⟩

------------------------------------------------------------
-- All Attempts
------------------------------------------------------------

theorem abandonAttempt_kept
    (st : Connecting) :
    Kept st (abandonAttempt st) := by
  unfold abandonAttempt
  dsimp only
  split
  · exact ⟨KeepsRequest.of_eq rfl rfl rfl rfl,
      World.Spares.of_emit _ rfl⟩
  · exact ⟨KeepsRequest.of_eq rfl rfl rfl rfl,
      World.Spares.refl _ _⟩

theorem noteRefusal_kept
    (st : Connecting) :
    Kept st (noteRefusal st) :=
  ⟨KeepsRequest.of_eq rfl rfl rfl rfl,
    World.Spares.refl _ _⟩

/-
  One iteration.  The loop is left with success right after
  an attempt that succeeded.
-/
theorem connectStep_kept
    (tunnels : List SshTunnel)
    (connectAttempt : Nat)
    (st : Connecting) :
    Kept st (connectStep tunnels connectAttempt st).2 ∧
      ∀ rc,
        (connectStep tunnels connectAttempt st).1 =
            some rc →
          rc ≠ 0 →
            (connectStep tunnels connectAttempt
                st).2.failureType =
              if (tunnelOfAttempt tunnels
                  connectAttempt).isNull then
                st.failureType
              else socks5ReplySucceed := by
  rcases attemptTunnel_kept
      (tunnelOfAttempt tunnels connectAttempt) st with
    ⟨hKept, hSucceed⟩
  have hAbandoned := hKept.trans (abandonAttempt_kept _)
  rcases connectStep_cases tunnels connectAttempt st with
    ⟨hMade, hStep⟩ |
      ⟨_, ⟨_, hStep⟩ | ⟨_, ⟨_, hStep⟩ | ⟨_, hStep⟩⟩⟩
  · rw [hStep]
    exact ⟨hKept, fun _ _ _ => hSucceed hMade⟩
  · rw [hStep]
    refine ⟨(hKept.trans (noteRefusal_kept _)).trans
      (abandonAttempt_kept _), ?_⟩
    rintro rc ⟨⟩ hNe
    exact absurd rfl hNe
  · rw [hStep]
    refine ⟨hAbandoned, ?_⟩
    rintro rc ⟨⟩ hNe
    exact absurd rfl hNe
  · rw [hStep]
    exact ⟨hAbandoned, fun rc hNone => by contradiction⟩

/- What is kept until an attempt starts. -/
theorem AttemptStart.kept
    {st st' : Connecting}
    {connectAttempt : Nat}
    (hStart : AttemptStart st connectAttempt st') :
    Kept st st' := by
  induction hStart with
  | first _ =>
      unfold notifyMainThread
      split
      · exact ⟨KeepsRequest.refl _,
          World.Spares.of_emit _ rfl⟩
      · exact Kept.refl st
  | @retry n st₁ st₂ _ hFailed ih =>
      have hStep :=
        (connectStep_kept (routeTunnels st.con) n st₁).1
      rw [hFailed] at hStep
      exact ih.trans hStep

/- What is kept by all attempts together. -/
theorem socksConnect_kept
    (st : Connecting) :
    Kept st (socksConnect st).2 := by
  by_cases hTunnels : routeTunnels st.con = []
  · unfold socksConnect
    simp only [hTunnels, if_true]
    exact Kept.refl st
  · rcases socksConnect_ends hTunnels with
      ⟨n, st₁, rc, st₂, hStart, hStep, hRun⟩
    have hLast :=
      (connectStep_kept (routeTunnels st.con) n st₁).1
    rw [hStep] at hLast
    rw [hRun]
    exact hStart.kept.trans hLast

end SmartSOCKSProxy
