import SmartSOCKSProxy.Relay.Accounting
import SmartSOCKSProxy.Socks.Conversation
import SmartSOCKSProxy.Socks.PerformedCommand

/-
  Sessions are transparent.

  From the accepted connection to its shutdown, what follows
  the client's request is all that is relayed to the server,
  and the client gets its replies and after them what the
  server has sent, nothing added, left out or reordered.

  Key definitions include:
    * `Session.relayed`, `Session.Opens`
    * `Session.Transparent`

  Key theorems include:
    * `Session.opening_of_relayed`
    * `Session.relaying_of_relayed`
    * `Session.transparent`
-/

namespace SmartSOCKSProxy

------------------------------------------------------------
-- Shutdown
------------------------------------------------------------

/- The shutdown closes descriptors, and sends nothing. -/
theorem serviceThreadShutdown_closes
    (con : ClientConnection)
    (w : World)
    (ok : Int) :
    ∃ fds : List Int,
      (serviceThreadShutdown con w ok).2.trace =
        w.trace ++ fds.map .closed := by
  have hClose : ∀ (w : World) (fd : Int),
      ∃ fds : List Int,
        (safeClose w fd).trace =
          w.trace ++ fds.map .closed := by
    intro w fd
    unfold safeClose
    split
    · exact ⟨[fd], rfl⟩
    · exact ⟨[], (List.append_nil _).symm⟩
  unfold serviceThreadShutdown
  dsimp only
  generalize
    (if ok = 0 ∧ con.status = ccStatusOkay then
      setClientConnectionStatus con ccStatusError
        (some (Text.ascii "Error".toList))
        (some (Text.ascii
          "Unknown error; closing connction.".toList))
    else con) = con'
  rcases hClose w con'.fdIn with ⟨fds, hIn⟩
  rcases hClose (safeClose w con'.fdIn) con'.fdOut with
    ⟨fds', hOut⟩
  refine ⟨fds ++ fds', ?_⟩
  rw [hOut, hIn, List.map_append, List.append_assoc]

/- Closing adds nothing to what was sent before. -/
theorem sentTo_of_prefix_closed
    {t p : List Event}
    {fds : List Int}
    (hPrefix : p <+: t ++ fds.map .closed) :
    ∃ q, q <+: t ∧
      ∀ peer, sentTo peer p = sentTo peer q := by
  rcases List.prefix_or_prefix_of_prefix hPrefix
      (List.prefix_append t (fds.map .closed)) with
    hEarly | ⟨r, rfl⟩
  · exact ⟨p, hEarly, fun _ => rfl⟩
  · refine ⟨t, List.prefix_rfl, fun peer => ?_⟩
    have hMono := sentTo_mono peer
      ((List.prefix_append_right_inj t).mp hPrefix)
    rw [sentTo_closed] at hMono
    rw [sentTo_append, List.prefix_nil.mp hMono,
      List.append_nil]

namespace Session

variable {s : Session}
variable {con : ClientConnection}
variable {w : World}

/- The world in which the connection was accepted. -/
def world : Session → World
  | .socks _ _ _ _ w => w
  | .portForward _ _ _ _ _ w => w

/-
  The connection and the world with which the relay of a
  session is started, if it gets there.
-/
def relayed
    (s : Session) : Option (ClientConnection × World) :=
  match s.start with
  | (false, _) => none
  | (true, st) =>
      match socksConnect st with
      | (ok, st) =>
          if ok = 0 then none
          else
            match s.reply st with
            | (rc, w) =>
                if rc = 1 then some (st.con, w) else none

/- A session with a relay was started, and got connected. -/
theorem steps_of_relayed
    (hRelayed : s.relayed = some (con, w)) :
    ∃ first ok st rc,
      s.start = (true, first) ∧
        socksConnect first = (ok, st) ∧ ok ≠ 0 ∧
        s.reply st = (rc, w) ∧ rc = 1 ∧ con = st.con := by
  unfold relayed at hRelayed
  rcases hStart : s.start with ⟨_ | _, first⟩
  · simp [hStart] at hRelayed
  rw [hStart] at hRelayed
  rcases hConnect : socksConnect first with ⟨ok, st⟩
  simp only [hConnect] at hRelayed
  split at hRelayed
  · contradiction
  rename_i hOk
  rcases hReply : s.reply st with ⟨rc, w₁⟩
  simp only [hReply] at hRelayed
  split at hRelayed
  · rename_i hRc
    cases Option.some.inj hRelayed
    exact ⟨first, ok, st, rc, rfl, hConnect, hOk, hReply,
      hRc, rfl⟩
  · contradiction

theorem ending_of_relayed
    (hRelayed : s.relayed = some (con, w))
    (polls : List PollEvent) :
    s.ending polls = socksConnectShuttle polls con w := by
  rcases steps_of_relayed hRelayed with
    ⟨first, ok, st, rc, hStart, hConnect, hOk, hReply, hRc,
      rfl⟩
  simp only [ending, hStart, hConnect, if_neg hOk, hReply,
    if_pos hRc]

------------------------------------------------------------
-- Before the Relay
------------------------------------------------------------

/-
  What is read from the client and written to it before the
  relay, when the attempts leave this failure type.
-/
def Opens
    (asked told : List UInt8)
    (failureType : Int) : Session → Prop
  | .socks .. =>
      ∃ req : ClientRequest, asked = req.wire ∧
        told =
          req.authReply ++
            socksReply req.version failureType
  | .portForward .. => asked = [] ∧ told = []

/- The client's side of a session at the start of the relay. -/
theorem opens_of_relayed
    {first st : Connecting}
    {ok rc : Int}
    (hStart : s.start = (true, first))
    (hConnect : socksConnect first = (ok, st))
    (hReply : s.reply st = (rc, w))
    (hRc : rc = 1) :
    ∃ asked told, s.Opens asked told st.failureType ∧
      (s.world.source .client).pending =
        asked ++ (w.source .client).pending ∧
      sentTo .client w.trace =
        sentTo .client s.world.trace ++ told := by
  have hKept := socksConnect_kept first
  rw [hConnect] at hKept
  cases s with
  | portForward fwd rules failureType fdIn junk w₀ =>
      rw [← show st.w = w from congrArg Prod.snd hReply]
      have hSame : w₀.Spares .client first.w := by
        have hFirst : first =
            (startForwarding fwd rules failureType
              (newClientConnection fdIn junk) w₀).2 :=
          (congrArg Prod.snd hStart).symm
        rw [hFirst]
        exact ⟨rfl, rfl⟩
      have hSpares := hSame.trans hKept.client
      refine ⟨[], [], ⟨rfl, rfl⟩, ?_, ?_⟩
      · unfold World.source
        rw [hSpares.sock]
        rfl
      · rw [List.append_nil]
        exact hSpares.sent
  | socks rules failureType fdIn junk w₀ =>
      rcases accepted_of_startConnecting hStart with
        ⟨con₁, w₁, hAccepted, _⟩
      rcases handshake_sound (resetRequest_blank fdIn junk)
          hAccepted with
        ⟨req, hRecords, hTaken⟩
      rcases startConnecting_of_accepted hAccepted rules
          failureType with
        ⟨hVersion, hBefore⟩
      rw [show startConnecting rules failureType
        (newClientConnection fdIn junk) w₀ = (true, first)
        from hStart] at hVersion hBefore
      have hSpares := hBefore.trans hKept.client
      rcases socksRespond_exchange st.con st.w
          st.failureType with
        ⟨rc', put, w₂, hRespond, hGiven, hPut, _⟩
      have hSame : (rc', w₂) = (rc, w) :=
        hRespond.symm.trans hReply
      cases hSame
      have hVersions :
          st.con.socksVersion = req.version := by
        rw [hKept.request.version, hVersion,
          hRecords.version]
      refine ⟨req.wire,
        req.authReply ++
          socksReply req.version st.failureType,
        ⟨req, rfl, rfl⟩, ?_, ?_⟩
      · have hSource :
            (w₁.source .client).pending =
              (st.w.source .client).pending := by
          unfold World.source
          rw [hSpares.sock]
        calc (w₀.source .client).pending
            = req.wire ++ (w₁.source .client).pending :=
              hTaken.pending
          _ = req.wire ++ (w.source .client).pending := by
              rw [hSource, hGiven.pending]
              rfl
      · calc sentTo .client w.trace
            = sentTo .client st.w.trace ++ put :=
              hGiven.sent
          _ = sentTo .client w₁.trace ++ put := by
              rw [hSpares.sent]
          _ = sentTo .client w₀.trace ++
                (req.authReply ++
                  socksReply req.version
                    st.failureType) := by
              rw [hTaken.sent, hPut hRc, hVersions,
                List.append_assoc]

/- A reply to the client leaves the server alone. -/
theorem greeted_of_reply
    {tun : SshTunnel}
    {st : Connecting}
    {rc : Int}
    (hGreeted : Greeted tun st.con st.w)
    (hReply : s.reply st = (rc, w)) :
    Greeted tun st.con w := by
  have hWrite : w = st.w ∨ ∃ data,
      w = (st.w.sbWriteLen .client data).2 := by
    have hWorld : (s.reply st).2 = w :=
      congrArg Prod.snd hReply
    rw [← hWorld]
    cases s with
    | portForward => exact Or.inl rfl
    | socks =>
        right
        simp only [reply]
        unfold socksRespond socks4Respond socks5Respond
        dsimp only
        split
        · refine ⟨socks4Reply st.failureType, ?_⟩
          split
          · rfl
          · rfl
        · refine ⟨socks5Reply st.failureType, ?_⟩
          split
          · rfl
          · rfl
  rcases hWrite with rfl | ⟨data, rfl⟩
  · exact hGreeted
  · rcases hGreeted with ⟨got, put, hConversation, hTunnel⟩
    refine ⟨got, put, hConversation.client_write data, ?_⟩
    have hSource :
        (st.w.sbWriteLen .client data).2.source .server =
          st.w.source .server :=
      World.source_afterWrite st.w .client .server _
    rwa [hSource]

------------------------------------------------------------
-- Whole Sessions
------------------------------------------------------------

/-
  A session whose relay starts with `con` and `w` has taken
  exactly the client's request off its stream, has told the
  client what is due, and has greeted the server.  At every
  moment from then to the end, what it has relayed to either
  side is a front part of what the other side had left to
  say; and through the null tunnel it is nothing.
-/
def Transparent
    (polls : List PollEvent)
    (con : ClientConnection)
    (w : World)
    (s : Session) : Prop :=
  ∃ asked told failureType tun t,
    s.Opens asked told failureType ∧
    (s.world.source .client).pending =
      asked ++ (w.source .client).pending ∧
    sentTo .client w.trace =
      sentTo .client s.world.trace ++ told ∧
    con.tunnel = some tun ∧
    (tun.isNull = false →
      failureType = socks5ReplySucceed ∧
        Greeted tun con w) ∧
    (s.run polls).2.2.trace = w.trace ++ t ∧
    dialings t = [] ∧
    ∀ p, p <+: t →
      sentTo .server p <+: (w.source .client).pending ∧
      sentTo .client p <+: (w.source .server).pending ∧
      (tun.isNull = true →
        sentTo .server p = [] ∧ sentTo .client p = [])

/- What both sides have heard when the relay starts. -/
theorem opening_of_relayed
    (hRelayed : s.relayed = some (con, w)) :
    ∃ asked told failureType tun,
      s.Opens asked told failureType ∧
      (s.world.source .client).pending =
        asked ++ (w.source .client).pending ∧
      sentTo .client w.trace =
        sentTo .client s.world.trace ++ told ∧
      con.tunnel = some tun ∧
      (tun.isNull = false →
        failureType = socks5ReplySucceed ∧
          Greeted tun con w) := by
  rcases steps_of_relayed hRelayed with
    ⟨first, ok, st, rc, hStart, hConnect, hOk, hReply, hRc,
      rfl⟩
  rcases opens_of_relayed hStart hConnect hReply hRc with
    ⟨asked, told, hOpens, hPending, hTold⟩
  rcases socksConnect_greets hConnect hOk with
    ⟨tun, _, hTunnel, hGreets⟩
  refine ⟨asked, told, st.failureType, tun, hOpens,
    hPending, hTold, hTunnel, fun hNull => ?_⟩
  rcases hGreets hNull with ⟨hType, hGreeted⟩
  exact ⟨hType, greeted_of_reply hGreeted hReply⟩

/- The relay of a session, and the shutdown behind it. -/
theorem relaying_of_relayed
    (polls : List PollEvent)
    (hRelayed : s.relayed = some (con, w)) :
    ∃ t,
      (s.run polls).2.2.trace = w.trace ++ t ∧
      dialings t = [] ∧
      ∀ p, p <+: t →
        sentTo .server p <+: (w.source .client).pending ∧
        sentTo .client p <+: (w.source .server).pending ∧
        (usesNullTunnel con = true →
          sentTo .server p = [] ∧ sentTo .client p = []) := by
  rcases socksConnectShuttle_transparent polls con w with
    ⟨t, hTrace, hDialings, hRelay⟩
  have hEnd :
      ∃ fds : List Int,
        (s.run polls).2.2.trace =
          w.trace ++ (t ++ fds.map .closed) := by
    rw [run_eq, ending_of_relayed hRelayed]
    rcases hShuttle : socksConnectShuttle polls con w
      with ⟨_ | rc, con', w'⟩
    · rw [hShuttle] at hTrace
      refine ⟨[], ?_⟩
      rw [List.map_nil, List.append_nil]
      exact hTrace
    · rcases serviceThreadShutdown_closes con' w' rc with
        ⟨fds, hClosed⟩
      rw [hShuttle] at hTrace
      refine ⟨fds, ?_⟩
      rw [← List.append_assoc, ← hTrace]
      exact hClosed
  rcases hEnd with ⟨fds, hEnd⟩
  refine ⟨_, hEnd, ?_, fun p hp => ?_⟩
  · rw [dialings_append, hDialings]
    simp [dialings, Event.dialing]
  · rcases sentTo_of_prefix_closed hp with ⟨q, hq, hSame⟩
    rw [hSame, hSame]
    exact hRelay q hq

/- Sessions of both services are transparent. -/
theorem transparent
    (polls : List PollEvent)
    (hRelayed : s.relayed = some (con, w)) :
    s.Transparent polls con w := by
  rcases opening_of_relayed hRelayed with
    ⟨asked, told, failureType, tun, hOpens, hPending, hTold,
      hTunnel, hGreets⟩
  rcases relaying_of_relayed polls hRelayed with
    ⟨t, hTrace, hDialings, hRelay⟩
  have hUses : usesNullTunnel con = tun.isNull := by
    simp [usesNullTunnel, hTunnel]
  rw [hUses] at hRelay
  exact ⟨asked, told, failureType, tun, t, hOpens, hPending,
    hTold, hTunnel, hGreets, hTrace, hDialings, hRelay⟩

/- The relay of a session that is connected directly. -/
theorem transparent_direct :
    ∃ con w,
      (Session.socks directRules 0 3 default
        clientBinds).Transparent [bothReadable] con w :=
  ⟨_, _, transparent [bothReadable]
    (Option.some_get (by decide)).symm⟩

end Session

end SmartSOCKSProxy
