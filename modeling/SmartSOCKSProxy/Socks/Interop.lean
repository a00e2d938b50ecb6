import SmartSOCKSProxy.Socks.Transparency

/-
  The two ends of the SOCKS protocol understand each other.

  The client that talks to a tunnel's server is wired to a
  session of the SOCKS service: what the one end writes is
  what the other end reads.  They then agree on the command
  and on its outcome, and on where the relayed data starts.

  Key definitions include:
    * `ClientEnd`, `ServerEnd`
    * `Wired`, `Agreement`

  Key theorems include:
    * `requestConnection_offers`
    * `prepareRelay_told`
    * `Wired.agree`
-/

namespace SmartSOCKSProxy

------------------------------------------------------------
-- The Client's End
------------------------------------------------------------

section ClientSide

variable {con : ClientConnection}
variable {w : World}
variable {buf : Buffer}
variable {rest : List UInt8}

/- The offer is sent whatever is answered. -/
theorem sock5ClientNegotiateAuth_offers
    (buf : Buffer)
    (hWrites : (w.sink .server).Reliable) :
    ∃ rc got w', sock5ClientNegotiateAuth w buf = (rc, w') ∧
      Exchange .server w got [5, 1, 0] w' := by
  have hOffer :
      (buf.store 0 [5, 1, 0]).load 3 = [5, 1, 0] := rfl
  rcases World.sbWriteLen_of_reliable [5, 1, 0] hWrites with
    ⟨w₁, hWrite, hGiven⟩
  have hBoth := hGiven.trans
    (w₁.sbReadLen_exchange .server 2)
  rw [List.append_nil] at hBoth
  unfold sock5ClientNegotiateAuth
  simp only [hOffer, hWrite]
  rw [if_neg (by omega)]
  split
  · exact ⟨_, _, _, rfl, hBoth⟩
  split
  · exact ⟨_, _, _, rfl, hBoth⟩
  · exact ⟨_, _, _, rfl, hBoth⟩

/-
  The offer is what the server is told first.  A server that
  chooses no authentication is told the command, and nothing
  before its reply.
-/
theorem requestConnection_offers
    {message : List UInt8}
    (hMessage : commandMessage con buf = some message)
    (failureType : Int)
    (hReads : (w.source .server).Reliable)
    (hWrites : (w.sink .server).Reliable) :
    let out := requestConnection con w buf failureType
    ∃ put,
      sentTo .server out.2.2.1.trace =
        sentTo .server w.trace ++ put ∧
      [5, 1, 0] <+: put ∧
      ∀ rest,
        (w.source .server).pending = [5, 0] ++ rest →
        put = [5, 1, 0] ++ message ∧
          ∃ w₂,
            out =
              socks5ClientGetCommandResponse con w₂ buf
                failureType ∧
            (w₂.source .server).pending = rest ∧
            (w₂.source .server).Reliable := by
  intro out
  rcases sock5ClientNegotiateAuth_offers buf hWrites with
    ⟨ok, got, w₁, hAuth, hOffered⟩
  have hReads₁ := hOffered.source_reliable hReads
  have hWrites₁ := hOffered.sink_reliable hWrites
  have hChosen : ok = 1 ∧
        (w.source .server).pending =
          [5, 0] ++ (w₁.source .server).pending ∨
      ok = 0 ∧ ∀ rest,
        (w.source .server).pending ≠ [5, 0] ++ rest := by
    rcases sock5ClientNegotiateAuth_of_reliable buf hReads
        hWrites with
      ⟨_, _, hSame, _, _, hChoice⟩
    rw [hAuth] at hSame
    cases hSame
    exact hChoice
  rcases hChosen with ⟨rfl, hPending⟩ | ⟨rfl, hOther⟩
  · rcases socks5ClientSendCommand_exchange hMessage w₁ with
      ⟨sent, put, w₂, hSend, hGiven, _, hAll, hDone⟩
    have hSent : sent = 1 := hDone hWrites₁
    subst hSent
    rw [hAll (by decide)] at hGiven
    have hOut :
        out =
          socks5ClientGetCommandResponse con w₂ buf
            failureType := by
      simp [out, requestConnection, hAuth, hSend]
    rcases socks5ClientGetCommandResponse_exchange con w₂
        buf failureType with
      ⟨_, _, got₃, w₃, _, hResponse, hTaken, _⟩
    refine ⟨[5, 1, 0] ++ message, ?_,
      List.prefix_append _ _, ?_⟩
    · have hWorld : out.2.2.1 = w₃ := by
        rw [hOut, hResponse]
      rw [hWorld, hTaken.sent, hGiven.sent, hOffered.sent]
      simp
    · intro rest hRest
      refine ⟨rfl, w₂, hOut, ?_,
        hGiven.source_reliable hReads₁⟩
      rw [hPending] at hRest
      have hLeft := hGiven.pending
      rw [List.nil_append] at hLeft
      rw [← hLeft]
      exact List.append_cancel_left hRest
  · refine ⟨[5, 1, 0], ?_, List.prefix_rfl, ?_⟩
    · have hWorld : out.2.2.1 = w₁ := by
        simp [out, requestConnection, hAuth]
      rw [hWorld, hOffered.sent]
    · intro rest hRest
      exact absurd hRest (hOther rest)

/- How the replies of the SOCKS service are understood. -/
theorem socks5ClientGetCommandResponse_of_reply
    {status : Int}
    (con : ClientConnection)
    (buf : Buffer)
    (failureType : Int)
    (hReads : (w.source .server).Reliable)
    (hPending :
      (w.source .server).pending =
        socks5Reply status ++ rest) :
    let out := socks5ClientGetCommandResponse con w buf
      failureType
    (out.1 = 1 ↔ UInt8.ofInt status = 0) ∧
      (out.2.2.1.source .server).pending = rest := by
  intro out
  have hSplit :
      (w.source .server).pending =
        [5, UInt8.ofInt status, 0, 1] ++
          ([0, 0, 0, 0, 0, 0] ++ rest) := by
    rw [hPending]
    rfl
  rcases World.sbReadLen_of_reliable 4 hReads with
    ⟨rc, w₁, hRead, _, hFull, hLeft, hTaken⟩
  have hFour : rc = 4 := by
    apply hFull.mpr
    rw [hSplit]
    simp
  rw [hSplit] at hRead hLeft
  have hHead :
      ([5, UInt8.ofInt status, 0, 1] ++
        ([0, 0, 0, 0, 0, 0] ++ rest)).take 4 =
          [5, UInt8.ofInt status, 0, 1] := rfl
  rw [hHead] at hRead
  let buf₁ := buf.store 0 [5, UInt8.ofInt status, 0, 1]
  have hFive :
      buf.store 0 [5, UInt8.ofInt status, 0, 1] 0 = 5 := rfl
  have hLength : boundLength (buf₁ 3) = some 4 := rfl
  rcases readReplyTail_of_bound
      (hTaken.source_reliable hReads) hLength with
    ⟨w₂, hTail, hRest⟩
  have hStatus : buf₁ 1 = UInt8.ofInt status := rfl
  have hOut :
      out =
        (if UInt8.ofInt status = 0 then 1 else 0, con, w₂,
          ((UInt8.ofInt status).toNat : Int)) := by
    simp only [out, socks5ClientGetCommandResponse, hRead,
      hFour]
    rw [if_neg (by decide), if_neg (not_not.mpr hFive)]
    simp only [buf₁] at hTail
    rw [hTail]
    rfl
  rw [hOut]
  constructor
  · by_cases hZero : UInt8.ofInt status = 0
    · simp [hZero]
    · simp [hZero]
  · dsimp only
    rw [hRest, hLeft]
    rfl

/- A server that hangs up instead has refused. -/
theorem socks5ClientGetCommandResponse_of_ended
    (con : ClientConnection)
    (buf : Buffer)
    (failureType : Int)
    (hReads : (w.source .server).Reliable)
    (hEnd : (w.source .server).pending = []) :
    let out := socks5ClientGetCommandResponse con w buf
      failureType
    out.1 = 0 ∧
      out.2.2.2 = socks5ReplyConnectionRefused := by
  intro out
  have hShort : (w.source .server).pending.length < 4 := by
    rw [hEnd]
    simp
  have hRead : (w.sbReadLen .server 4).1 = 0 :=
    (sbReadLen_of_lt hReads hShort).1
  have hOut :
      out =
        (0, con, (w.sbReadLen .server 4).2.2,
          socks5ReplyConnectionRefused) := by
    simp only [out, socks5ClientGetCommandResponse, hRead,
      if_true]
    rw [if_pos (by decide)]
  rw [hOut]
  exact ⟨rfl, rfl⟩

end ClientSide

------------------------------------------------------------
-- The Server's End
------------------------------------------------------------

section ServerSide

variable {con : ClientConnection}
variable {w : World}

theorem World.expect_exchange
    (w : World)
    (peer : Peer)
    (n : Nat) :
    ∃ got, Exchange peer w got [] (w.expect peer n).2 :=
  ⟨_, w.sbReadLen_exchange peer n⟩

theorem socks5GetAddress_reads
    (addressType : Int)
    (w : World) :
    ∃ got, Exchange .client w got []
      (socks5GetAddress addressType w).2 := by
  unfold socks5GetAddress
  split
  · exact w.expect_exchange .client 4
  split
  · exact w.expect_exchange .client 16
  split
  · rcases w.expect_exchange .client 1 with ⟨got, hTaken⟩
    rcases hRead : w.expect .client 1 with ⟨_ | bytes, w₁⟩
    · rw [hRead] at hTaken
      exact ⟨got, hTaken⟩
    · rw [hRead] at hTaken
      rcases w₁.expect_exchange .client
          (bytes.getD 0 0).toNat with
        ⟨got', hTaken'⟩
      exact ⟨_, hTaken.trans hTaken'⟩
  · exact ⟨[], Exchange.refl _ _⟩

/- A command is read without a word. -/
theorem socks5GetCommand_reads
    (con : ClientConnection)
    (w : World) :
    ∃ got, Exchange .client w got []
      (socks5GetCommand con w).2.2 := by
  unfold socks5GetCommand
  rcases w.expect_exchange .client 4 with ⟨got₁, hTaken₁⟩
  rcases hRead : w.expect .client 4 with ⟨_ | buf, w₁⟩
  · rw [hRead] at hTaken₁
    exact ⟨got₁, hTaken₁⟩
  rw [hRead] at hTaken₁
  dsimp only
  split
  · exact ⟨got₁, hTaken₁⟩
  split
  · exact ⟨got₁, hTaken₁⟩
  rcases socks5GetAddress_reads (buf.getD 3 0).toNat w₁ with
    ⟨got₂, hTaken₂⟩
  have hBoth := hTaken₁.trans hTaken₂
  rcases hAddr : socks5GetAddress (buf.getD 3 0).toNat w₁
    with ⟨_ | addr, w₂⟩
  · rw [hAddr] at hBoth
    exact ⟨_, hBoth⟩
  rw [hAddr] at hBoth
  rcases w₂.expect_exchange .client 2 with ⟨got₃, hTaken₃⟩
  have hAll := hBoth.trans hTaken₃
  dsimp only
  rcases hPort : w₂.expect .client 2 with ⟨_ | port, w₃⟩
  · rw [hPort] at hAll
    exact ⟨_, hAll⟩
  rw [hPort] at hAll
  dsimp only
  split
  · exact ⟨_, hAll⟩
  split
  · exact ⟨_, hAll⟩
  split
  · exact ⟨_, hAll⟩
  · exact ⟨_, hAll⟩

/-
  The offer of no authentication is accepted before anything
  else is known of the client.
-/
theorem handshake_opens
    {rest : List UInt8}
    (con : ClientConnection)
    (hReads : (w.source .client).Reliable)
    (hWrites : (w.sink .client).Reliable)
    (hPending :
      (w.source .client).pending = [5, 1, 0] ++ rest) :
    ∃ got, Exchange .client w got [5, 0]
      (handshake con w).2.2 := by
  have hFirst :
      (w.source .client).pending =
        [5] ++ ([1, 0] ++ rest) := hPending
  rcases socksGetClientVersion_complete hReads hFirst
      (Or.inr rfl) with
    ⟨w₁, hVersion, hTaken₁⟩
  have hSecond :
      (w₁.source .client).pending =
        UInt8.ofNat [(0 : UInt8)].length :: [0] ++ rest :=
    hTaken₁.pending_eq hFirst
  rcases socks5NegotiateAuth_complete
      (hTaken₁.source_reliable hReads)
      (hTaken₁.sink_reliable hWrites) (by simp) hSecond with
    ⟨w₂, hAuth, hTaken₂⟩
  rcases hCommand : socks5GetCommand
      { con with socksVersion := 5 } w₂ with
    ⟨commandType, con₃, w₃⟩
  rcases socks5GetCommand_reads
      { con with socksVersion := 5 } w₂ with
    ⟨got, hTaken₃⟩
  rw [hCommand] at hTaken₃
  have hFive : (((5 : UInt8).toNat : Nat) : Int) = 5 := rfl
  rw [hFive] at hVersion
  rw [handshake_of_v5 hVersion hAuth hCommand]
  have hAll := (hTaken₁.trans hTaken₂).trans hTaken₃
  rw [List.append_nil, List.nil_append] at hAll
  exact ⟨_, hAll⟩

/-
  What a session adds to its handshake before the relay: one
  reply if it gets there, and nothing otherwise.
-/
theorem prepareRelay_told
    {con₁ : ClientConnection}
    {w₁ : World}
    {accepted : Bool}
    (hRun :
      handshake (resetRequest con) w = (accepted, con₁, w₁))
    (rules : List RouteRule)
    (failureType : Int)
    (hWrites : (w₁.sink .client).Reliable) :
    let out := prepareRelay rules failureType con w
    out.1 = false ∧
        sentTo .client out.2.2.trace =
          sentTo .client w₁.trace ∨
      out.1 = true ∧ accepted = true ∧ ∃ status,
        sentTo .client out.2.2.trace =
          sentTo .client w₁.trace ++
            socksReply con₁.socksVersion status ∧
        (out.2.2.source .client).pending =
          (w₁.source .client).pending ∧
        (usesNullTunnel out.2.1 = false →
          status = socks5ReplySucceed) := by
  intro out
  cases accepted with
  | false =>
      have hOut : out = (false, con₁, w₁) := by
        simp [out, prepareRelay, startConnecting, hRun]
      rw [hOut]
      exact Or.inl ⟨rfl, rfl⟩
  | true =>
      rcases startConnecting_of_accepted hRun rules
          failureType with
        ⟨hVersion, hBefore⟩
      rcases prepareRelay_cases rules failureType con w with
        ⟨st, ⟨hStart, hOut⟩ |
          ⟨hStart, ok, st', hConnect, ⟨_, hOut⟩ |
            ⟨hOk, rc, w', hRespond, hOut⟩⟩⟩
      · rw [hStart] at hBefore
        left
        rw [show out = _ from hOut]
        exact ⟨rfl, hBefore.sent⟩
      · have hKept := socksConnect_kept st
        rw [hStart] at hBefore
        rw [hConnect] at hKept
        left
        rw [show out = _ from hOut]
        exact ⟨rfl, (hBefore.trans hKept.client).sent⟩
      · have hKept := socksConnect_kept st
        rw [hStart] at hVersion hBefore
        rw [hConnect] at hKept
        have hSpares := hBefore.trans hKept.client
        have hSink :
            (st'.w.sink .client).Reliable := by
          unfold World.sink at hWrites ⊢
          rwa [hSpares.sock]
        rcases socksRespond_exchange st'.con st'.w
            st'.failureType with
          ⟨rc', put, w₂, hRespond', hGiven, hPut, hDone⟩
        have hSame : (rc', w₂) = (rc, w') :=
          hRespond'.symm.trans hRespond
        cases hSame
        have hRc := hDone hSink
        right
        rw [show out = _ from hOut]
        refine ⟨decide_eq_true hRc, rfl, st'.failureType,
          ?_, ?_, ?_⟩
        · rw [hGiven.sent, hSpares.sent, hPut hRc,
            hKept.request.version, hVersion]
        · have hSource := hGiven.pending
          rw [List.nil_append] at hSource
          rw [← hSource]
          unfold World.source
          rw [hSpares.sock]
        · intro hNotNull
          rcases socksConnect_greets hConnect hOk with
            ⟨tun, _, hTunnel, hGreets⟩
          refine (hGreets ?_).1
          simpa [usesNullTunnel, hTunnel] using hNotNull

end ServerSide

------------------------------------------------------------
-- Both Ends
------------------------------------------------------------

/- A server is connected, and is about to be asked. -/
structure ClientEnd where
  con : ClientConnection
  w : World
  buf : Buffer
  failureType : Int

def ClientEnd.run
    (a : ClientEnd) :
    Int × ClientConnection × World × Int :=
  requestConnection a.con a.w a.buf a.failureType

/- A client was accepted, and is about to ask. -/
structure ServerEnd where
  rules : List RouteRule
  failureType : Int
  fdIn : Int
  junk : ClientConnection
  w : World

namespace ServerEnd

def con
    (b : ServerEnd) : ClientConnection :=
  newClientConnection b.fdIn b.junk

def accepted
    (b : ServerEnd) : Bool × ClientConnection × World :=
  handshake (resetRequest b.con) b.w

def run
    (b : ServerEnd) : Bool × ClientConnection × World :=
  prepareRelay b.rules b.failureType b.con b.w

end ServerEnd

/-
  What either end can read is what the other end writes, and
  behind it what the other end relays.  An end that gives up
  writes nothing more.
-/
structure Wired
    (a : ClientEnd)
    (b : ServerEnd) : Prop where
  clientReads : (a.w.source .server).Reliable
  clientWrites : (a.w.sink .server).Reliable
  serverReads : (b.w.source .client).Reliable
  serverWrites : (b.w.sink .client).Reliable
  up : ∃ put,
    sentTo .server a.run.2.2.1.trace =
        sentTo .server a.w.trace ++ put ∧
      put <+: (b.w.source .client).pending ∧
      (a.run.1 = 0 → (b.w.source .client).pending = put)
  down : ∃ put,
    sentTo .client b.run.2.2.trace =
        sentTo .client b.w.trace ++ put ∧
      put <+: (a.w.source .server).pending ∧
      (b.run.1 = false →
        (a.w.source .server).pending = put)

/-
  The server's end has understood the command.  If it does
  not get to its relay, the client's end takes this for a
  refusal.  If it does, the client's end gets the status of
  its reply, and both ends have taken each other's messages
  off their streams, and nothing else.
-/
structure Agreement
    (a : ClientEnd)
    (b : ServerEnd)
    (c : Command) : Prop where
  accepted : b.accepted.1 = true
  records : Records b.accepted.2.1 5 c
  refused : b.run.1 = false →
    a.run.1 = 0 ∧
      a.run.2.2.2 = socks5ReplyConnectionRefused
  replied : b.run.1 = true → ∃ status,
    (usesNullTunnel b.run.2.1 = false →
      status = socks5ReplySucceed) ∧
    (a.run.1 = 1 ↔ UInt8.ofInt status = 0) ∧
    (b.w.source .client).pending =
      [5, 1, 0] ++ c.wire ++
        (b.run.2.2.source .client).pending ∧
    (a.w.source .server).pending =
      [5, 0] ++ socks5Reply status ++
        (a.run.2.2.1.source .server).pending

namespace Wired

variable {a : ClientEnd}
variable {b : ServerEnd}

/- The first words on either stream. -/
theorem opens
    (hWired : Wired a b)
    {message : List UInt8}
    (hMessage :
      commandMessage a.con a.buf = some message) :
    ∃ rest, (a.w.source .server).pending =
        [5, 0] ++ rest ∧
      ∃ rest, (b.w.source .client).pending =
        [5, 1, 0] ++ rest := by
  rcases requestConnection_offers hMessage a.failureType
      hWired.clientReads hWired.clientWrites with
    ⟨put, hSent, hOffer, _⟩
  rcases hWired.up with ⟨put', hSent', hUp, _⟩
  have hSame : put' = put :=
    List.append_cancel_left (hSent'.symm.trans hSent)
  subst hSame
  rcases hOffer.trans hUp with ⟨rest, hPending⟩
  rcases handshake_opens (resetRequest b.con)
      hWired.serverReads hWired.serverWrites
      hPending.symm with
    ⟨got, hOpened⟩
  rcases hRun : handshake (resetRequest b.con) b.w with
    ⟨accepted, con₁, w₁⟩
  rw [hRun] at hOpened
  have hTold := prepareRelay_told hRun b.rules b.failureType
    (hOpened.sink_reliable hWired.serverWrites)
  rcases hWired.down with ⟨back, hBack, hDown, _⟩
  have hFirst : [5, 0] <+: back := by
    have hGrows :
        ∃ more, sentTo .client b.run.2.2.trace =
          sentTo .client w₁.trace ++ more := by
      rcases hTold with
        ⟨_, hSilent⟩ | ⟨_, _, status, hReply, _⟩
      · exact ⟨[], by rw [List.append_nil]; exact hSilent⟩
      · exact ⟨_, hReply⟩
    rcases hGrows with ⟨more, hMore⟩
    rw [hOpened.sent, hBack, List.append_assoc] at hMore
    rw [List.append_cancel_left hMore]
    exact List.prefix_append _ _
  rcases hFirst.trans hDown with ⟨rest', hPending'⟩
  exact ⟨rest', hPending'.symm, rest, hPending.symm⟩

/-
  Whatever the rules of the server's end are, and however
  both streams are cut into reads and writes, the two ends
  agree on the command that the client's end carries.
-/
theorem agreement
    (hWired : Wired a b)
    {c : Command}
    (hCarries : Carries a.con c) :
    Agreement a b c.cut := by
  have hMessage := commandMessage_of_carries hCarries a.buf
  rcases hWired.opens hMessage with ⟨rest, hAnswer, _⟩
  rcases requestConnection_offers hMessage a.failureType
      hWired.clientReads hWired.clientWrites with
    ⟨put, hSent, _, hCommand⟩
  rcases hCommand rest hAnswer with
    ⟨hPut, w₂, hOut, hLeft, hReads₂⟩
  change a.run = _ at hOut
  rcases hWired.up with ⟨put', hSent', hUp, _⟩
  have hSame : put' = put :=
    List.append_cancel_left (hSent'.symm.trans hSent)
  subst hSame
  rw [hPut] at hUp
  rcases hUp with ⟨payload, hPending⟩
  let req : ClientRequest :=
    .v5 [0] (by decide) c.cut
  have hWire :
      (b.w.source .client).pending = req.wire ++ payload :=
    hPending.symm
  rcases handshake_complete (resetRequest_blank b.fdIn b.junk)
      hWired.serverReads hWired.serverWrites hWire with
    ⟨con₁, w₁, hRun, hRecords, hTaken⟩
  have hAccepted : b.accepted = (true, con₁, w₁) := hRun
  have hTold := prepareRelay_told hAccepted b.rules
    b.failureType
    (hTaken.sink_reliable hWired.serverWrites)
  change b.run.1 = false ∧ _ ∨ b.run.1 = true ∧ _ at hTold
  have hVersion : con₁.socksVersion = 5 := hRecords.version
  rcases hWired.down with ⟨back, hBack, hDown, hGone⟩
  have hOpened :
      sentTo .client w₁.trace =
        sentTo .client b.w.trace ++ [5, 0] := hTaken.sent
  refine ⟨by rw [hAccepted], by rw [hAccepted]; exact hRecords,
    fun hNoRelay => ?_, fun hRelay => ?_⟩
  · rcases hTold with ⟨_, hSilent⟩ | ⟨hYes, _⟩
    · have hOnly : back = [5, 0] := by
        rw [show sentTo .client b.run.2.2.trace = _ from
          hSilent, hOpened] at hBack
        exact (List.append_cancel_left hBack).symm
      have hEnd : rest = [] := by
        have hAll := hGone hNoRelay
        rw [hOnly, hAnswer] at hAll
        exact List.append_right_eq_self.mp hAll
      rw [hOut]
      exact socks5ClientGetCommandResponse_of_ended a.con
        a.buf a.failureType hReads₂ (hLeft.trans hEnd)
    · rw [hNoRelay] at hYes
      contradiction
  · rcases hTold with
      ⟨hNo, _⟩ | ⟨_, _, status, hReply, hKept, hStatus⟩
    · rw [hNo] at hRelay
      contradiction
    · have hFive :
          socksReply con₁.socksVersion status =
            socks5Reply status := by
        rw [hVersion]
        rfl
      have hAll : back = [5, 0] ++ socks5Reply status := by
        rw [show sentTo .client b.run.2.2.trace = _ from
          hReply, hOpened, hFive, List.append_assoc] at hBack
        exact (List.append_cancel_left hBack).symm
      rw [hAll] at hDown
      rcases hDown with ⟨later, hLater⟩
      have hRest : rest = socks5Reply status ++ later := by
        rw [hAnswer, List.append_assoc] at hLater
        exact (List.append_cancel_left hLater).symm
      rcases socks5ClientGetCommandResponse_of_reply a.con
          a.buf a.failureType hReads₂ (hLeft.trans hRest)
        with
        ⟨hGranted, hAfter⟩
      rw [← hOut] at hGranted hAfter
      refine ⟨status, hStatus, hGranted, ?_, ?_⟩
      · rw [show (b.run.2.2.source .client).pending = _ from
          hKept, hTaken.pending_eq hWire, hWire]
        rfl
      · rw [hAfter, ← hLater]

/-
  A session's request, when its name and port fit the wire,
  is the same on both ends of any wired connection.
-/
theorem agree
    (hWired : Wired a b)
    (hBuilt : Built a.con)
    (hFits : FitsWire a.con) :
    ∃ c, Agreement a b c ∧
      SameCommand a.con b.accepted.2.1 := by
  rcases carries_of_fitsWire hBuilt.encodable hFits with
    ⟨c, hCarries, hCut⟩
  have hAgreement := hWired.agreement hCarries
  rw [hCut] at hAgreement
  exact ⟨c, hAgreement,
    sameCommand_of_carries hCarries
      hAgreement.records.carries⟩

/- A request through a tunnel for port 80 of a name. -/
def nameEnd : ClientEnd where
  con :=
    (notifyMainThread
      (routeTunnels
        (startConnecting resolvingRules 0
          (newClientConnection 3 default) clientAsks).2.con)
      (startConnecting resolvingRules 0
        (newClientConnection 3 default) clientAsks).2).con
  w :=
    { (default : World) with
      socks := fun _ =>
        ⟨⟨[5, 0, 5, 0, 0, 1, 0, 0, 0, 0, 0, 0], []⟩, ⟨[]⟩⟩ }
  buf := fun _ => 0
  failureType := 1

/- It is wired to a server that routes all to null. -/
theorem agree_null :
    ∃ c,
      Agreement nameEnd ⟨nullRules, 0, 3, default, clientAsks⟩
          c ∧
        SameCommand nameEnd.con
          (ServerEnd.accepted
            ⟨nullRules, 0, 3, default, clientAsks⟩).2.1 := by
  apply agree
  · exact
      { clientReads := by decide
        clientWrites := by decide
        serverReads := by decide
        serverWrites := by decide
        up := ⟨[5, 1, 0, 5, 1, 0, 3, 1, 97, 0, 80],
          by decide, by decide, by decide⟩
        down := ⟨[5, 0, 5, 0, 0, 1, 0, 0, 0, 0, 0, 0],
          by decide, by decide, by decide⟩ }
  · exact Built.socks (Prod.ext (by decide) rfl)
      (AttemptStart.first (by decide))
  · exact fitsWire_of_socks (Prod.ext (by decide) rfl)
      (AttemptStart.first (by decide))

end Wired

end SmartSOCKSProxy
