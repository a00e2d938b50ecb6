import SmartSOCKSProxy.Routing.Meaning
import SmartSOCKSProxy.Socks.Attempts
import SmartSOCKSProxy.Socks.Decoding
import SmartSOCKSProxy.Socks.Handler

/-
  What the client is told about the outcome of its request.

  A session that gets to the relay has replied once, with the
  failure type that the last attempt left.  A session that
  does not get there has not replied at all.

  Key definitions include:
    * `successReply`, `RefusalReply`
    * `RepliesBeforeRelay`, `NullStartsClean`
    * `AnsweredWithRefusal`

  Key theorems include:
    * `prepareRelay_cases`
    * `serviceSocksConnectionHandler_replies_iff`
    * `serviceSocksConnectionHandler_unanswered`
-/

namespace SmartSOCKSProxy

------------------------------------------------------------
-- Replies
------------------------------------------------------------

/- The reply that grants a request, by protocol version. -/
def successReply
    (version : Int) : List UInt8 :=
  if version = 4 then [0, 90, 0, 0, 0, 0, 0, 0]
  else [5, 0, 0, 1, 0, 0, 0, 0, 0, 0]

/- A reply that refuses a request, by protocol version. -/
def RefusalReply
    (version : Int)
    (reply : List UInt8) : Prop :=
  version = 4 ∧
      (∃ rest, rest.length = 6 ∧ reply = 0 :: 91 :: rest) ∨
    version = 5 ∧
      ∃ status rest, status ≠ 0 ∧ reply = 5 :: status :: rest

theorem RefusalReply.ne_nil
    {version : Int}
    {reply : List UInt8}
    (hRefusal : RefusalReply version reply) :
    reply ≠ [] := by
  rcases hRefusal with
    ⟨_, rest, _, rfl⟩ | ⟨_, status, rest, _, rfl⟩
  · simp
  · simp

/- The reply for a failure type. -/
def socksReply
    (version failureType : Int) : List UInt8 :=
  if version = 4 then socks4Reply failureType
  else socks5Reply failureType

theorem socksReply_succeed
    (version : Int) :
    socksReply version socks5ReplySucceed =
      successReply version := by
  unfold socksReply successReply
  split
  · rfl
  · rfl

/- One reply is written, all of it when the call succeeds. -/
theorem socksRespond_exchange
    (con : ClientConnection)
    (w : World)
    (failureType : Int) :
    ∃ rc put w',
      socksRespond con w failureType = (rc, w') ∧
      Exchange .client w [] put w' ∧
      (rc = 1 →
        put = socksReply con.socksVersion failureType) ∧
      ((w.sink .client).Reliable → rc = 1) := by
  have hWrite :
      ∀ (reply : List UInt8) (n : Int), reply.length = n →
        ∃ rc put w',
          (if (w.sbWriteLen .client reply).1 ≠ n then
              ((0 : Int), (w.sbWriteLen .client reply).2)
            else (1, (w.sbWriteLen .client reply).2)) =
              (rc, w') ∧
            Exchange .client w [] put w' ∧
            (rc = 1 → put = reply) ∧
            ((w.sink .client).Reliable → rc = 1) := by
    intro reply n hLength
    rcases w.sbWriteLen_exchange .client reply with
      ⟨rc, put, w', hRun, hGiven, hOutcome⟩
    simp only [hRun]
    rcases hOutcome with ⟨hPut, hRc⟩ | ⟨_, hRc, hFail⟩
    · rw [if_neg (by omega)]
      exact ⟨1, put, w', rfl, hGiven, fun _ => hPut,
        fun _ => rfl⟩
    · rw [if_pos (by omega)]
      exact ⟨0, put, w', rfl, hGiven,
        fun hOne => absurd hOne (by decide),
        fun hReliable =>
          absurd hFail hReliable.not_mayFail⟩
  unfold socksRespond socksReply
  split
  · exact hWrite (socks4Reply failureType) 8 rfl
  · exact hWrite (socks5Reply failureType) 10 rfl

------------------------------------------------------------
-- The Way to the Relay
------------------------------------------------------------

/- Everything that can happen before the relay. -/
theorem prepareRelay_cases
    (rules : List RouteRule)
    (failureType : Int)
    (con : ClientConnection)
    (w : World) :
    ∃ st,
      startConnecting rules failureType con w =
            (false, st) ∧
          prepareRelay rules failureType con w =
            (false, st.con, st.w) ∨
        startConnecting rules failureType con w =
            (true, st) ∧
          ∃ ok st', socksConnect st = (ok, st') ∧
            (ok = 0 ∧
                prepareRelay rules failureType con w =
                  (false, st'.con, st'.w) ∨
              ok ≠ 0 ∧ ∃ rc w',
                socksRespond st'.con st'.w
                    st'.failureType =
                  (rc, w') ∧
                prepareRelay rules failureType con w =
                  (decide (rc = 1), st'.con, w')) := by
  rcases hStart :
      startConnecting rules failureType con w with
    ⟨_ | _, st⟩
  · refine ⟨st, Or.inl ⟨rfl, ?_⟩⟩
    simp [prepareRelay, hStart]
  · refine ⟨st, Or.inr ⟨rfl, ?_⟩⟩
    rcases hConnect : socksConnect st with ⟨ok, st'⟩
    refine ⟨ok, st', rfl, ?_⟩
    by_cases hOk : ok = 0
    · refine Or.inl ⟨hOk, ?_⟩
      simp [prepareRelay, hStart, hConnect, hOk]
    · rcases hRespond :
          socksRespond st'.con st'.w st'.failureType with
        ⟨rc, w'⟩
      refine Or.inr ⟨hOk, rc, w', rfl, ?_⟩
      simp [prepareRelay, hStart, hConnect, hOk, hRespond]

/- Neither rules nor attempts have to do with the client. -/
theorem startConnecting_of_accepted
    {con con₁ : ClientConnection}
    {w w₁ : World}
    (hAccepted :
      handshake (resetRequest con) w = (true, con₁, w₁))
    (rules : List RouteRule)
    (failureType : Int) :
    let st := (startConnecting rules failureType con w).2
    st.con.socksVersion = con₁.socksVersion ∧
      w₁.Spares .client st.w := by
  have hSame :
      (decideApplicableRule rules con₁ w₁.dns).2.1 = _ :=
    (decideApplicableRule_eq_run rules con₁ w₁.dns).2.2.2.2
  unfold startConnecting
  rw [hAccepted]
  refine ⟨?_, rfl, rfl⟩
  dsimp only
  rw [hSame]

------------------------------------------------------------
-- Replies Before the Relay
------------------------------------------------------------

/-
  A session that gets to the relay has told the client that
  its request is granted, in the version of the request and
  once; and a connection that was made has the failure type
  of success.
-/
structure RepliesBeforeRelay
    (rules : List RouteRule)
    (failureType : Int)
    (con : ClientConnection)
    (w : World) : Prop where
  reply :
    (prepareRelay rules failureType con w).1 = true →
      ∃ (req : ClientRequest) (rest : List UInt8),
        (w.source .client).pending = req.wire ++ rest ∧
          sentTo .client
              (prepareRelay rules failureType con
                w).2.2.trace =
            sentTo .client w.trace ++ req.authReply ++
              successReply req.version
  failureType : ∀ st rc st',
    startConnecting rules failureType con w = (true, st) →
    socksConnect st = (rc, st') →
    rc ≠ 0 →
    st'.failureType = socks5ReplySucceed

/-
  Attempts through the null tunnel start with the failure
  type of success, which they do not set.
-/
def NullStartsClean
    (rules : List RouteRule)
    (failureType : Int)
    (con : ClientConnection)
    (w : World) : Prop :=
  ∀ st n st',
    startConnecting rules failureType con w = (true, st) →
    AttemptStart st n st' →
    (tunnelOfAttempt (routeTunnels st.con) n).isNull =
      true →
    st'.failureType = socks5ReplySucceed

/- The failure type of a connection that was made. -/
theorem failureType_of_socksConnect
    {st st' : Connecting}
    {rc : Int}
    (hRun : socksConnect st = (rc, st'))
    (hMade : rc ≠ 0) :
    ∃ n st₁, AttemptStart st n st₁ ∧
      st'.failureType =
        if (tunnelOfAttempt (routeTunnels st.con) n).isNull
        then st₁.failureType
        else socks5ReplySucceed := by
  have hTunnels : routeTunnels st.con ≠ [] := by
    intro hNone
    unfold socksConnect at hRun
    simp only [hNone, if_true] at hRun
    exact hMade (congrArg Prod.fst hRun).symm
  rcases socksConnect_ends hTunnels with
    ⟨n, st₁, rc', st₂, hStart, hStep, hEnd⟩
  rw [hRun] at hEnd
  cases hEnd
  have hLast := (connectStep_kept
    (routeTunnels st.con) n st₁).2 rc
  rw [hStep] at hLast
  exact ⟨n, st₁, hStart, hLast rfl hMade⟩

/- A null tunnel takes over whatever type it finds. -/
theorem socksConnect_of_null
    {st st₁ : Connecting}
    {n : Nat}
    (hStart : AttemptStart st n st₁)
    (hNull :
      (tunnelOfAttempt (routeTunnels st.con) n).isNull =
        true) :
    ∃ st₂, socksConnect st = (1, st₂) ∧
      st₂.failureType = st₁.failureType := by
  have hDirect :
      (tunnelOfAttempt (routeTunnels st.con) n).isDirect =
        false := by
    by_contra hDirect
    rw [Bool.not_eq_false] at hDirect
    rw [SshTunnel.isNull_of_isDirect hDirect] at hNull
    contradiction
  have hStep :
      ∃ st₂,
        connectStep (routeTunnels st.con) n st₁ =
            (some 1, st₂) ∧
          st₂.failureType = st₁.failureType := by
    unfold connectStep attemptTunnel connectNull
    simp only [hDirect, hNull, Bool.false_eq_true, if_false,
      if_true]
    exact ⟨_, rfl, rfl⟩
  rcases hStep with ⟨st₂, hStep, hType⟩
  exact ⟨st₂, socksConnect_of_attempt hStart hStep, hType⟩

/-
  Sessions reply with success before the relay if and only if
  every attempt through the null tunnel finds the failure
  type of success.
-/
theorem serviceSocksConnectionHandler_replies_iff
    (rules : List RouteRule)
    (failureType : Int)
    (fdIn : Int)
    (junk : ClientConnection)
    (w : World) :
    RepliesBeforeRelay rules failureType
        (newClientConnection fdIn junk) w ↔
      NullStartsClean rules failureType
        (newClientConnection fdIn junk) w := by
  constructor
  · intro hReplies st n st₁ hStarted hAttempt hNull
    rcases socksConnect_of_null hAttempt hNull with
      ⟨st₂, hRun, hType⟩
    rw [← hType]
    exact hReplies.failureType st 1 st₂ hStarted hRun
      (by decide)
  · intro hClean
    have hSucceed :
        ∀ st rc st',
          startConnecting rules failureType
              (newClientConnection fdIn junk) w =
            (true, st) →
          socksConnect st = (rc, st') → rc ≠ 0 →
          st'.failureType = socks5ReplySucceed := by
      intro st rc st' hStarted hRun hMade
      rcases failureType_of_socksConnect hRun hMade with
        ⟨n, st₁, hAttempt, hType⟩
      rw [hType]
      split
      · exact hClean st n st₁ hStarted hAttempt ‹_›
      · rfl
    refine ⟨?_, hSucceed⟩
    intro hRelay
    rcases prepareRelay_cases rules failureType
        (newClientConnection fdIn junk) w with
      ⟨st, ⟨_, hPrepare⟩ |
        ⟨hStarted, ok, st', hRun, ⟨_, hPrepare⟩ |
          ⟨hOk, rc, w', hRespond, hPrepare⟩⟩⟩
    · rw [hPrepare] at hRelay
      contradiction
    · rw [hPrepare] at hRelay
      contradiction
    · have hType := hSucceed st ok st' hStarted hRun hOk
      rw [hPrepare, decide_eq_true_eq] at hRelay
      rcases accepted_of_startConnecting hStarted with
        ⟨con₁, w₁, hAccepted, _⟩
      rcases handshake_sound
          (resetRequest_blank fdIn junk) hAccepted with
        ⟨req, hRecords, hTaken⟩
      rcases startConnecting_of_accepted hAccepted rules
          failureType with
        ⟨hVersion, hBefore⟩
      rw [hStarted] at hVersion hBefore
      have hKept := socksConnect_kept st
      rw [hRun] at hKept
      rcases socksRespond_exchange st'.con st'.w
          st'.failureType with
        ⟨rc', put, w₂, hRespond', hGiven, hPut, _⟩
      rw [hRespond] at hRespond'
      cases hRespond'
      refine ⟨req, _, hTaken.pending, ?_⟩
      have hVersions :
          st'.con.socksVersion = req.version := by
        rw [hKept.request.version, hVersion,
          hRecords.version]
      rw [hPrepare]
      calc sentTo .client w'.trace
          = sentTo .client st'.w.trace ++ put :=
            hGiven.sent
        _ = sentTo .client w₁.trace ++ put := by
            rw [(hBefore.trans hKept.client).sent]
        _ = sentTo .client w.trace ++ req.authReply ++
              put := by
            rw [hTaken.sent]
        _ = sentTo .client w.trace ++ req.authReply ++
              successReply req.version := by
            rw [hPut hRelay, hType, hVersions,
              socksReply_succeed]

/- One rule, whose only tunnel is the null tunnel. -/
def nullRules : List RouteRule :=
  let blank := newRouteRule
    (Vector.replicate routeRuleMaxSshTunnelsPerRule none)
  [{ blank with
      tunnel :=
        blank.tunnel.set 0 (some sshTunnelNull)
          firstTunnel }]

/- A version 5 request for port 80 of a name. -/
def clientAsks : World :=
  { (default : World) with
    socks := fun _ =>
      { source :=
          { pending := [5, 1, 0, 5, 1, 0, 3, 1, 97, 0, 80]
            reads := [] }
        sink := ⟨[]⟩ } }

/- With a 5 on the stack, the client is told `refused`. -/
theorem prepareRelay_null_refused :
    ¬ ∀ rules failureType fdIn junk w,
      RepliesBeforeRelay rules failureType
        (newClientConnection fdIn junk) w := by
  intro hClaim
  let start := startConnecting nullRules 5
    (newClientConnection 3 default) clientAsks
  have hStarted : start = (true, start.2) :=
    Prod.ext (by decide) rfl
  have hReplies := hClaim nullRules 5 3 default clientAsks
  have hType := hReplies.failureType start.2
    (socksConnect start.2).1 (socksConnect start.2).2
    hStarted rfl (by decide)
  exact absurd hType (by decide)

------------------------------------------------------------
-- Sessions Without a Relay
------------------------------------------------------------

/-
  After its request was accepted, the client got exactly one
  reply from the session, and this refuses the request.
-/
def AnsweredWithRefusal
    (rules : List RouteRule)
    (failureType : Int)
    (polls : List PollEvent)
    (con : ClientConnection)
    (w : World) : Prop :=
  let accepted := handshake (resetRequest con) w
  ∃ reply, RefusalReply accepted.2.1.socksVersion reply ∧
    sentTo .client
        (serviceSocksConnectionHandler rules failureType
          polls con w).2.2.trace =
      sentTo .client accepted.2.2.trace ++ reply

theorem safeClose_sent
    (peer : Peer)
    (w : World)
    (fd : Int) :
    sentTo peer (safeClose w fd).trace =
      sentTo peer w.trace := by
  unfold safeClose
  split
  · exact (World.Spares.of_emit w rfl).sent
  · rfl

theorem serviceThreadShutdown_sent
    (peer : Peer)
    (con : ClientConnection)
    (w : World)
    (ok : Int) :
    sentTo peer (serviceThreadShutdown con w ok).2.trace =
      sentTo peer w.trace := by
  unfold serviceThreadShutdown
  dsimp only
  rw [safeClose_sent, safeClose_sent]

/- Without a relay, nothing follows the accepted request. -/
theorem serviceSocksConnectionHandler_silent
    {rules : List RouteRule}
    {failureType : Int}
    (polls : List PollEvent)
    {fdIn : Int}
    {junk con₁ : ClientConnection}
    {w w₁ : World}
    (hAccepted :
      handshake
          (resetRequest (newClientConnection fdIn junk)) w =
        (true, con₁, w₁))
    (hWrites : (w.sink .client).Reliable)
    (hNoRelay :
      (prepareRelay rules failureType
        (newClientConnection fdIn junk) w).1 = false) :
    sentTo .client
        (serviceSocksConnectionHandler rules failureType
          polls (newClientConnection fdIn junk)
          w).2.2.trace =
      sentTo .client w₁.trace := by
  have hEnd :
      sentTo .client
          (serviceSocksConnectionHandler rules failureType
            polls (newClientConnection fdIn junk)
            w).2.2.trace =
        sentTo .client
          (prepareRelay rules failureType
            (newClientConnection fdIn junk)
            w).2.2.trace := by
    unfold serviceSocksConnectionHandler
    rcases hPrepare : prepareRelay rules failureType
        (newClientConnection fdIn junk) w with
      ⟨_ | _, con, w'⟩
    · exact serviceThreadShutdown_sent .client con w' 0
    · rw [hPrepare] at hNoRelay
      contradiction
  rw [hEnd]
  rcases startConnecting_of_accepted hAccepted rules
      failureType with
    ⟨_, hBefore⟩
  rcases prepareRelay_cases rules failureType
      (newClientConnection fdIn junk) w with
    ⟨st, ⟨hStarted, hPrepare⟩ |
      ⟨hStarted, ok, st', hRun, ⟨_, hPrepare⟩ |
        ⟨_, rc, w', hRespond, hPrepare⟩⟩⟩
  · rw [hStarted] at hBefore
    rw [hPrepare]
    exact hBefore.sent
  · have hKept := socksConnect_kept st
    rw [hStarted] at hBefore
    rw [hRun] at hKept
    rw [hPrepare]
    exact (hBefore.trans hKept.client).sent
  · -- A reply that is written leads to the relay.
    rcases handshake_sound (resetRequest_blank fdIn junk)
        hAccepted with
      ⟨_, _, hTaken⟩
    have hKept := socksConnect_kept st
    rw [hStarted] at hBefore
    rw [hRun] at hKept
    have hSock := (hBefore.trans hKept.client).sock
    have hReliable : (st'.w.sink .client).Reliable := by
      have hAfter := hTaken.sink_reliable hWrites
      unfold World.sink at hAfter ⊢
      rwa [hSock]
    rcases socksRespond_exchange st'.con st'.w
        st'.failureType with
      ⟨rc', put, w₂, hRespond', _, _, hDone⟩
    rw [hRespond] at hRespond'
    cases hRespond'
    rw [hPrepare, decide_eq_false_iff_not] at hNoRelay
    exact absurd (hDone hReliable) hNoRelay

/-
  No accepted request that is not relayed is ever answered,
  whatever the reason.
-/
theorem serviceSocksConnectionHandler_unanswered
    (rules : List RouteRule)
    (failureType : Int)
    (polls : List PollEvent)
    (fdIn : Int)
    (junk : ClientConnection)
    (w : World)
    (hAccepted :
      (handshake
        (resetRequest (newClientConnection fdIn junk))
        w).1 = true)
    (hWrites : (w.sink .client).Reliable)
    (hNoRelay :
      (prepareRelay rules failureType
        (newClientConnection fdIn junk) w).1 = false) :
    ¬ AnsweredWithRefusal rules failureType polls
      (newClientConnection fdIn junk) w := by
  rintro ⟨reply, hRefusal, hSent⟩
  have hSilent :=
    serviceSocksConnectionHandler_silent polls
      (Prod.ext hAccepted rfl) hWrites hNoRelay
  rw [hSilent] at hSent
  exact hRefusal.ne_nil (List.append_right_eq_self.mp
    hSent.symm)

/- A request for which there is no rule. -/
theorem serviceSocksConnectionHandler_unanswered_noRule :
    ¬ AnsweredWithRefusal [] 0 []
      (newClientConnection 3 default) clientAsks :=
  serviceSocksConnectionHandler_unanswered [] 0 [] 3 default
    clientAsks (by decide) (by decide) (by decide)

/- Not every request that is not relayed is answered. -/
theorem prepareRelay_noRule_unanswered :
    ¬ ∀ rules failureType polls fdIn junk w,
      (handshake
        (resetRequest (newClientConnection fdIn junk))
        w).1 = true →
      (w.sink .client).Reliable →
      (prepareRelay rules failureType
        (newClientConnection fdIn junk) w).1 = false →
      AnsweredWithRefusal rules failureType polls
        (newClientConnection fdIn junk) w := by
  intro hClaim
  rcases hClaim [] 0 [] 3 default clientAsks (by decide)
      (by decide) (by decide) with
    ⟨reply, hRefusal, hSent⟩
  have hAccepted :
      handshake
          (resetRequest (newClientConnection 3 default))
          clientAsks =
        (true, _, _) :=
    Prod.ext (by decide) rfl
  have hNoRelay :
      (prepareRelay [] 0 (newClientConnection 3 default)
        clientAsks).1 = false := by
    decide
  have hSilent :=
    serviceSocksConnectionHandler_silent [] hAccepted
      (by decide) hNoRelay
  rw [hSilent] at hSent
  exact hRefusal.ne_nil (List.append_right_eq_self.mp
    hSent.symm)

end SmartSOCKSProxy
