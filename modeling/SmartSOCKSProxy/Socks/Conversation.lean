import SmartSOCKSProxy.Relay.Passage
import SmartSOCKSProxy.Socks.Descriptors
import SmartSOCKSProxy.Socks.Replies

/-
  What was said between a session and the server it dialed
  last.

  A conversation starts when a server is connected, and lists
  what was read from it and written to it since.  A session
  that gets to the relay has had the shortest conversation
  possible: none at all with a destination, and with a
  tunnel's server one offer, one command and one reply.

  Key definitions include:
    * `toldServer`, `Conversation`, `Greeted`

  Key theorems include:
    * `requestConnection_greets`
    * `attemptTunnel_greets`, `socksConnect_greets`
-/

namespace SmartSOCKSProxy

------------------------------------------------------------
-- Conversations
------------------------------------------------------------

/- The bytes written to the server since a last dialing. -/
def toldServer
    (trace : List Event) : List UInt8 :=
  trace.foldl
    (fun told event =>
      if event.dialing.isSome then []
      else told ++ event.sentTo .server)
    []

/- Whoever is dialed was told nothing yet. -/
theorem toldServer_dialed
    (trace : List Event)
    (sinPort : UInt16)
    (sinAddr : UInt32) :
    toldServer (trace ++ [.dialed sinPort sinAddr]) = [] := by
  simp [toldServer, Event.dialing]

/- Events that dial nobody add what they write. -/
theorem toldServer_append
    (trace : List Event)
    {events : List Event}
    (hDialings : dialings events = []) :
    toldServer (trace ++ events) =
      toldServer trace ++ sentTo .server events := by
  induction events generalizing trace with
  | nil => simp
  | cons event events ih =>
      rw [dialings, List.filterMap_eq_nil_iff] at hDialings
      have hHead : event.dialing = none :=
        hDialings event List.mem_cons_self
      have hTail : dialings events = [] :=
        List.filterMap_eq_nil_iff.mpr fun e hMem =>
          hDialings e (List.mem_cons_of_mem _ hMem)
      have hOne :
          toldServer (trace ++ [event]) =
            toldServer trace ++ event.sentTo .server := by
        simp [toldServer, hHead]
      rw [List.append_cons, ih _ hTail, hOne,
        List.append_assoc]
      rfl

/-
  Since the server was dialed last, `got` was read from it
  and `put` was written to it.
-/
structure Conversation
    (w : World)
    (got put : List UInt8) : Prop where
  told : toldServer w.trace = put
  heard :
    (w.dials (w.dialed - 1)).sock.source.pending =
      got ++ (w.source .server).pending

namespace Conversation

variable {w : World}
variable {got put : List UInt8}

/- A full-length read from the server. -/
theorem sbReadLen
    (h : Conversation w got put)
    (n : Nat) :
    Conversation (w.sbReadLen .server n).2.2
      (got ++ (w.sbReadLen .server n).2.1) put where
  told := by
    change toldServer (w.trace ++ _) = put
    rw [toldServer_append _ (dialings_received _ _),
      sentTo_received, List.append_nil]
    exact h.told
  heard := by
    have hTaken := (w.sbReadLen_exchange .server n).pending
    rw [List.append_assoc, ← hTaken]
    exact h.heard

/- A write to the server, complete when it succeeds. -/
theorem sbWriteLen
    (h : Conversation w got put)
    {rc : Int}
    {w' : World}
    {data : List UInt8}
    (hWrite : w.sbWriteLen .server data = (rc, w'))
    (hRc : 0 ≤ rc) :
    Conversation w' got (put ++ data) := by
  rcases hRun : SmartSOCKSProxy.sbWriteLen (w.sink .server)
      data with
    ⟨rc', chunks, errno, left⟩
  have hOutcome := sbWriteLen_outcome (w.sink .server) data
  unfold World.sbWriteLen at hWrite
  rw [hRun] at hWrite hOutcome
  rcases Prod.mk.inj hWrite with ⟨hRc', hLeft⟩
  change rc' = rc at hRc'
  have hAll : chunks.flatten = data := by
    rcases hOutcome with ⟨hData, _⟩ | ⟨_, hFailed, _⟩
    · exact hData
    · change rc' = -1 at hFailed
      omega
  subst hLeft
  constructor
  · change toldServer (w.trace ++ chunks.map _) = _
    rw [toldServer_append _ (dialings_sent _ _),
      sentTo_sent, if_pos rfl, hAll, h.told]
  · rw [World.source_afterWrite]
    exact h.heard

/- What is written to the client is not part of it. -/
theorem client_write
    (h : Conversation w got put)
    (data : List UInt8) :
    Conversation (w.sbWriteLen .client data).2 got put where
  told := by
    change toldServer (w.trace ++ _) = put
    rw [toldServer_append _ (dialings_sent _ _),
      sentTo_sent, if_neg (by decide), List.append_nil]
    exact h.told
  heard := by
    unfold World.sbWriteLen
    rw [World.source_afterWrite]
    exact h.heard

end Conversation

------------------------------------------------------------
-- Reads That May Be Cut Short
------------------------------------------------------------

/- A read that does not fail is complete, or has met the end. -/
theorem World.sbReadLen_complete_or_ended
    (w : World)
    (peer : Peer)
    {n : Nat}
    (hPos : 0 < n)
    (hRc : 0 ≤ (w.sbReadLen peer n).1) :
    (w.sbReadLen peer n).2.1.length = n ∨
      ((w.sbReadLen peer n).2.2.source peer).pending =
        [] := by
  have hSource :
      (w.sbReadLen peer n).2.2.source peer =
        (SmartSOCKSProxy.sbReadLen (w.source peer)
          n).source :=
    World.source_afterRead_self w peer _
  rw [hSource]
  change 0 ≤
    (SmartSOCKSProxy.sbReadLen (w.source peer) n).rc at hRc
  cases sbReadLen_outcome (w.source peer) n with
  | complete _ _ hData => exact Or.inl hData
  | ended _ hEnd =>
      rcases hEnd with hZero | ⟨_, hEmpty⟩
      · omega
      · exact Or.inr hEmpty
  | failed hFailed _ => omega

/- At most as many bytes as asked for are read. -/
theorem World.sbReadLen_length_le
    (w : World)
    (peer : Peer)
    (n : Nat) :
    (w.sbReadLen peer n).2.1.length ≤ n :=
  (sbReadLen_takes (w.source peer) n).length_le

/- Nothing comes behind the end of a stream. -/
theorem World.sbReadLen_of_ended
    {w : World}
    {peer : Peer}
    (n : Nat)
    (hEnd : (w.source peer).pending = []) :
    ((w.sbReadLen peer n).2.2.source peer).pending = [] := by
  have hTaken := (w.sbReadLen_exchange peer n).pending
  rw [hEnd] at hTaken
  exact (List.append_eq_nil_iff.mp hTaken.symm).2

------------------------------------------------------------
-- Talking to a Tunnel's Server
------------------------------------------------------------

section Greeting

variable {con con' : ClientConnection}
variable {w w' : World}
variable {got put : List UInt8}
variable {rc : Int}

/- The offer is complete, and no method was chosen. -/
theorem sock5ClientNegotiateAuth_greets
    {buf : Buffer}
    (h : Conversation w got put)
    (hRun : sock5ClientNegotiateAuth w buf = (rc, w'))
    (hOk : rc ≠ 0) :
    Conversation w' (got ++ [5, 0]) (put ++ [5, 1, 0]) := by
  unfold sock5ClientNegotiateAuth at hRun
  have hOffer :
      (buf.store 0 [5, 1, 0]).load 3 = [5, 1, 0] := rfl
  dsimp only at hRun
  rw [hOffer] at hRun
  rcases hWrite : w.sbWriteLen .server [5, 1, 0] with
    ⟨wrote, w₁⟩
  rw [hWrite] at hRun
  dsimp only at hRun
  split at hRun
  · exact absurd (congrArg Prod.fst hRun).symm hOk
  rename_i hWrote
  have hTold := (h.sbWriteLen hWrite (by omega)).sbReadLen 2
  have hLength := w₁.sbReadLen_length_le .server 2
  split at hRun
  · exact absurd (congrArg Prod.fst hRun).symm hOk
  split at hRun
  · exact absurd (congrArg Prod.fst hRun).symm hOk
  rename_i hChoice
  rw [← show _ = w' from congrArg Prod.snd hRun]
  -- A choice that is cut short leaves a byte of the offer.
  match hData : (w₁.sbReadLen .server 2).2.1 with
  | [] =>
      rw [hData] at hChoice
      exact absurd (Or.inr (by decide : (1 : UInt8) ≠ 0))
        hChoice
  | [a] =>
      rw [hData] at hChoice
      exact absurd (Or.inr (by decide : (1 : UInt8) ≠ 0))
        hChoice
  | [a, b] =>
      rw [hData] at hChoice hTold
      rcases not_or.mp hChoice with ⟨hFive, hZero⟩
      have hA : a = 5 := not_not.mp hFive
      have hB : b = 0 := not_not.mp hZero
      rwa [hA, hB] at hTold
  | a :: b :: c :: rest =>
      rw [hData] at hLength
      simp at hLength

/- The command is sent whole. -/
theorem socks5ClientSendCommand_greets
    {buf : Buffer}
    (h : Conversation w got put)
    (hRun :
      socks5ClientSendCommand con w buf = (rc, w'))
    (hOk : rc ≠ 0) :
    ∃ message, commandMessage con buf = some message ∧
      Conversation w' got (put ++ message) := by
  unfold socks5ClientSendCommand at hRun
  cases hMessage : commandMessage con buf with
  | none =>
      rw [hMessage] at hRun
      exact absurd (congrArg Prod.fst hRun).symm hOk
  | some message =>
      rw [hMessage] at hRun
      rcases hWrite : w.sbWriteLen .server message with
        ⟨wrote, w₁⟩
      simp only [hWrite] at hRun
      split at hRun
      · exact absurd (congrArg Prod.fst hRun).symm hOk
      · rename_i hWrote
        rw [← show w₁ = w' from congrArg Prod.snd hRun]
        exact ⟨message, rfl,
          h.sbWriteLen hWrite (by omega)⟩

/-
  A bound address that is skipped is complete, unless the
  stream has ended.
-/
theorem readBoundAddress_greets
    {addrType : UInt8}
    {buf buf' : Buffer}
    {idx : Nat}
    (h : Conversation w got put)
    (hRun :
      readBoundAddress addrType w buf =
        (some (buf', idx), w')) :
    ∃ len bytes, boundLength addrType = some len ∧
      Conversation w' (got ++ bytes) put ∧
      (bytes.length = len ∨
        (w'.source .server).pending = []) := by
  have hRead : ∀ len start stop, 0 < len →
      (if (w.sbReadLen .server len).1 < 0 then none
        else some
          (buf.store start (w.sbReadLen .server len).2.1,
            stop),
        (w.sbReadLen .server len).2.2) =
          (some (buf', idx), w') →
      ∃ bytes, Conversation w' (got ++ bytes) put ∧
        (bytes.length = len ∨
          (w'.source .server).pending = []) := by
    intro len start stop hPos hEq
    rcases Prod.mk.inj hEq with ⟨hSome, hLeft⟩
    subst hLeft
    split at hSome
    · contradiction
    · exact ⟨_, h.sbReadLen len,
        w.sbReadLen_complete_or_ended .server hPos
          (by omega)⟩
  unfold readBoundAddress at hRun
  unfold boundLength
  split at hRun
  · rename_i hIpv4
    rw [if_pos hIpv4]
    rcases hRead 4 4 8 (by omega) hRun with
      ⟨bytes, hHeard, hLength⟩
    exact ⟨4, bytes, rfl, hHeard, hLength⟩
  · rename_i hIpv4
    rw [if_neg hIpv4]
    split at hRun
    · rename_i hIpv6
      rw [if_pos hIpv6]
      rcases hRead 16 4 20 (by omega) hRun with
        ⟨bytes, hHeard, hLength⟩
      exact ⟨16, bytes, rfl, hHeard, hLength⟩
    · exact absurd (congrArg Prod.fst hRun).symm (by simp)

/- What follows the head of a reply that grants a request. -/
theorem readReplyTail_greets
    {buf : Buffer}
    (h : Conversation w got put)
    (hRun : readReplyTail w buf = (rc, w'))
    (hOk : rc ≠ 0) :
    ∃ len bytes, boundLength (buf 3) = some len ∧
      Conversation w' (got ++ bytes) put ∧
      (bytes.length = len + 2 ∨
        (w'.source .server).pending = []) := by
  unfold readReplyTail at hRun
  rcases hBound : readBoundAddress (buf 3) w buf with
    ⟨_ | ⟨buf₁, idx⟩, w₁⟩
  · rw [hBound] at hRun
    exact absurd (congrArg Prod.fst hRun).symm hOk
  · rw [hBound] at hRun
    rcases readBoundAddress_greets h hBound with
      ⟨len, bytes, hLength, hHeard, hWhole⟩
    dsimp only at hRun
    split at hRun
    · exact absurd (congrArg Prod.fst hRun).symm hOk
    rename_i hRead
    split at hRun
    · exact absurd (congrArg Prod.fst hRun).symm hOk
    have hHeard' := hHeard.sbReadLen 2
    rw [List.append_assoc] at hHeard'
    have hPort := w₁.sbReadLen_complete_or_ended .server
      (n := 2) (by omega) (by omega)
    rw [← show (w₁.sbReadLen .server 2).2.2 = w' from
      congrArg Prod.snd hRun]
    refine ⟨len, _, hLength, hHeard', ?_⟩
    rcases hWhole with hWhole | hEnded
    · refine hPort.imp (fun hTwo => ?_) id
      rw [List.length_append, hWhole, hTwo]
    · exact Or.inr (World.sbReadLen_of_ended 2 hEnded)

/-
  The reply that grants a request: all of it was read, unless
  the stream has ended within it.
-/
theorem socks5ClientGetCommandResponse_greets
    {buf : Buffer}
    {failureType failureType' : Int}
    (h : Conversation w got put)
    (hRun :
      socks5ClientGetCommandResponse con w buf failureType =
        (rc, con', w', failureType'))
    (hOk : rc ≠ 0) :
    ∃ rsv addrType len bytes,
      boundLength addrType = some len ∧
      Conversation w'
        (got ++ ([5, 0, rsv, addrType] ++ bytes)) put ∧
      (bytes.length = len + 2 ∨
        (w'.source .server).pending = []) := by
  rcases socks5ClientGetCommandResponse_exchange con w buf
      failureType with
    ⟨_, _, _, _, _, hSame, _, _, hSucceed⟩
  rw [hRun] at hSame
  cases hSame
  have hGranted := hSucceed hOk
  unfold socks5ClientGetCommandResponse at hRun
  have hHead := h.sbReadLen 4
  rcases hRead : w.sbReadLen .server 4 with ⟨n, data, w₁⟩
  rw [hRead] at hRun hHead
  dsimp only at hRun hHead
  split at hRun
  · exact absurd (congrArg Prod.fst hRun).symm hOk
  rename_i hFour
  split at hRun
  · exact absurd (congrArg Prod.fst hRun).symm hOk
  rename_i hFive
  have hLength : data.length = 4 := by
    have hExpect :
        w.expect .server 4 = (some data, w₁) := by
      unfold World.expect
      rw [hRead]
      exact congrArg (·, w₁) (if_pos (not_not.mp hFour))
    exact (World.expect_some hExpect).1
  rcases hTail : readReplyTail w₁ (buf.store 0 data) with
    ⟨ok, w₂⟩
  rw [hTail] at hRun
  match data, hLength with
  | [a, b, rsv, addrType], _ =>
      have hA : a = 5 := not_not.mp hFive
      have hB : b = 0 := by
        have hType : ((b.toNat : Nat) : Int) = failureType' :=
          congrArg (fun out => out.2.2.2) hRun
        rw [hGranted] at hType
        exact UInt8.toNat_inj.mp (Int.natCast_eq_zero.mp hType)
      have hOk₂ : ok ≠ 0 := by
        rwa [show ok = rc from congrArg Prod.fst hRun]
      rcases readReplyTail_greets hHead hTail hOk₂ with
        ⟨len, bytes, hBound, hHeard, hWhole⟩
      rw [← show w₂ = w' from
        congrArg (fun out => out.2.2.1) hRun]
      refine ⟨rsv, addrType, len, bytes, hBound, ?_, hWhole⟩
      rwa [hA, hB, List.append_assoc] at hHeard

/-
  A granted request has told the server the offer and the
  command, and has taken one reply off the stream, or all of
  a stream that has ended within the reply.
-/
theorem requestConnection_greets
    {buf : Buffer}
    {failureType failureType' : Int}
    (h : Conversation w [] [])
    (hRun :
      requestConnection con w buf failureType =
        (rc, con', w', failureType'))
    (hOk : rc ≠ 0) :
    ∃ message got, commandMessage con buf = some message ∧
      Conversation w' got ([5, 1, 0] ++ message) ∧
      ((∃ r : ServerReply, got = r.wire) ∨
        (w'.source .server).pending = []) := by
  unfold requestConnection at hRun
  rcases hAuth : sock5ClientNegotiateAuth w buf with
    ⟨ok₁, w₁⟩
  rw [hAuth] at hRun
  dsimp only at hRun
  split at hRun
  · exact absurd (congrArg Prod.fst hRun)
      (by rw [‹ok₁ = 0›]; exact hOk.symm)
  rename_i hOk₁
  have hOffered :=
    sock5ClientNegotiateAuth_greets h hAuth hOk₁
  rcases hSend : socks5ClientSendCommand con w₁ buf with
    ⟨ok₂, w₂⟩
  rw [hSend] at hRun
  dsimp only at hRun
  split at hRun
  · exact absurd (congrArg Prod.fst hRun)
      (by rw [‹ok₂ = 0›]; exact hOk.symm)
  rename_i hOk₂
  rcases socks5ClientSendCommand_greets hOffered hSend hOk₂
    with ⟨message, hMessage, hAsked⟩
  rcases socks5ClientGetCommandResponse_greets hAsked hRun
      hOk with
    ⟨rsv, addrType, len, bytes, hBound, hHeard, hWhole⟩
  refine ⟨message, _, hMessage, hHeard, ?_⟩
  refine hWhole.imp (fun hLength => ?_) id
  rcases ServerReply.of_head rsv hBound hLength.ge with
    ⟨r, hReply⟩
  refine ⟨r, ?_⟩
  rw [← hLength, List.drop_length,
    List.append_nil] at hReply
  rw [← hReply]
  rfl

end Greeting

------------------------------------------------------------
-- Dialing
------------------------------------------------------------

/- connect() changes the error number, and nothing else. -/
theorem connect_errno
    (w : World)
    (connects : List Int) :
    ∃ errno,
      (w.connect connects).2 = { w with errno := errno } := by
  induction connects generalizing w with
  | nil => exact ⟨w.errno, rfl⟩
  | cons e connects ih =>
      rw [World.connect]
      split
      · exact ih { w with errno := e }
      · exact ⟨e, rfl⟩

/- A server that was just connected was told nothing yet. -/
theorem dialServer_converses
    {w w' : World}
    {sinPort : UInt16}
    {sinAddr : UInt32}
    {fd : Nat}
    (hDial :
      w.dialServer sinPort sinAddr = (.connected fd, w')) :
    Conversation w' [] [] := by
  unfold World.dialServer at hDial
  dsimp only at hDial
  cases hSocket : w.dial.socket with
  | error e =>
      rw [hSocket] at hDial
      exact nomatch congrArg Prod.fst hDial
  | ok socket =>
      rw [hSocket] at hDial
      dsimp only at hDial
      generalize hOpened :
        ((({ w with dialed := w.dialed + 1 } :
          World).emit (.opened socket)).emit
            (.dialed sinPort sinAddr)) = w₁ at hDial
      rcases connect_errno w₁ w.dial.connects with
        ⟨errno, hConnect⟩
      rw [hConnect] at hDial
      split at hDial
      · exact nomatch congrArg Prod.fst hDial
      · rw [← show _ = w' from congrArg Prod.snd hDial,
          ← hOpened]
        refine ⟨toldServer_dialed _ _ _, ?_⟩
        simp only [World.source, Function.update_self]
        rfl

/-
  What was said to a server that a session is connected to
  through a tunnel: nothing to a destination itself, and to a
  tunnel's server the offer and the command.
-/
def Greeted
    (tun : SshTunnel)
    (con : ClientConnection)
    (w : World) : Prop :=
  ∃ got put, Conversation w got put ∧
    (tun.isDirect = true ∧ got = [] ∧ put = [] ∨
      tun.isDirect = false ∧
        ∃ buf message,
          commandMessage con buf = some message ∧
          put = [5, 1, 0] ++ message ∧
          ((∃ r : ServerReply, got = r.wire) ∨
            (w.source .server).pending = []))

theorem connectDirect_converses
    {st : Connecting}
    (hMade : (connectDirect st).1 ≠ 0) :
    Conversation (connectDirect st).2.w [] [] := by
  revert hMade
  unfold connectDirect
  rcases resolveDestination st.con st.w with ⟨con, w⟩
  dsimp only
  cases con.dstHost.addr with
  | unspec => exact fun hMade => absurd rfl hMade
  | inet6 _ _ => exact fun hMade => absurd rfl hMade
  | inet sinPort sinAddr =>
      rcases hRun : w.dialServer sinPort sinAddr with
        ⟨result, w'⟩
      simp only [hRun]
      cases result with
      | noSocket => exact fun hMade => absurd rfl hMade
      | notConnected =>
          dsimp only
          split
          · exact fun hMade => absurd rfl hMade
          · exact fun hMade => absurd rfl hMade
      | connected fd =>
          exact fun _ => dialServer_converses hRun

theorem connectToSshSocks5Proxy_converses
    {con con' : ClientConnection}
    {w w' : World}
    {tun : SshTunnel}
    {rc : Int}
    (hRun :
      connectToSshSocks5Proxy con w tun = (rc, con', w'))
    (hOk : rc ≠ 0) :
    Conversation w' [] [] := by
  unfold connectToSshSocks5Proxy at hRun
  rcases hDial :
      w.dialServer (htons tun.socksPort) 0x7F000001 with
    ⟨result, w₁⟩
  rw [hDial] at hRun
  dsimp only at hRun
  cases result with
  | noSocket =>
      exact absurd (congrArg Prod.fst hRun).symm hOk
  | notConnected =>
      dsimp only at hRun
      split at hRun
      · exact absurd (congrArg Prod.fst hRun).symm hOk
      · exact absurd (congrArg Prod.fst hRun).symm hOk
  | connected fd =>
      rw [← show w₁ = w' from
        congrArg (fun out => out.2.2) hRun]
      exact dialServer_converses hDial

/- A session's command was sent after the offer. -/
theorem connectViaSshSocks5_greets
    {con con' : ClientConnection}
    {w w' : World}
    {tun : SshTunnel}
    {rc failureType : Int}
    (hRun :
      connectViaSshSocks5 con w tun =
        (rc, con', w', failureType))
    (hOk : rc ≠ 0) :
    ∃ buf message got,
      commandMessage con' buf = some message ∧
      Conversation w' got ([5, 1, 0] ++ message) ∧
      ((∃ r : ServerReply, got = r.wire) ∨
        (w'.source .server).pending = []) := by
  have hSame :=
    (connectViaSshSocks5_sameTarget con w tun).1.dstHost
  rcases connectViaSshSocks5_sends con w tun 0 with
    ⟨_, _, _, _, _, hRun', hKept, _⟩
  rw [hRun] at hSame hRun'
  cases hRun'
  have hRequest := hKept.request
  unfold connectViaSshSocks5 at hRun
  dsimp only at hRun
  generalize hCon₁ :
    setClientConnectionStatus con ccStatusOkay
      (some (Text.ascii "Connecting".toList))
      (some (Text.ascii
        "Connecting to SSH SOCKS5 server".toList)) =
    con₁ at hRun
  have hDialed :=
    (connectToSshSocks5Proxy_sameTarget con₁ w tun).1
  rcases connectToSshSocks5Proxy_keeps con₁ w tun with
    ⟨ok, con₂, w₂, hDial, hKeeps, hHost, _⟩
  rw [hDial] at hRun
  dsimp only at hRun
  split at hRun
  · exact absurd (congrArg Prod.fst hRun)
      (by rw [‹ok = 0›]; exact hOk.symm)
  rename_i hConnected
  have hFresh :=
    connectToSshSocks5Proxy_converses hDial hConnected
  generalize hCon₃ :
    setClientConnectionStatus con₂ ccStatusOkay
      (some (Text.ascii "Negotiating".toList))
      (some (Text.ascii
        ("Negotiating connection with SSH SOCKS5 " ++
          "server").toList)) = con₃ at hRun
  have hKeeps₃ : KeepsRequest con con₃ := by
    have hFirst : KeepsRequest con con₁ :=
      hCon₁ ▸ KeepsRequest.of_eq rfl rfl rfl rfl
    have hLast : KeepsRequest con₂ con₃ :=
      hCon₃ ▸ KeepsRequest.of_eq rfl rfl rfl rfl
    exact (hFirst.trans hKeeps).trans hLast
  have hHost₃ : con₃.dstHost = con.dstHost := by
    rw [← hCon₃]
    exact hHost.trans (hCon₁ ▸ rfl)
  rcases hRequest' : requestConnection con₃ w₂ w.dial.stack
      socks5ReplyServerFailure with
    ⟨ok', con₄, w₄, failureType'⟩
  rw [hRequest'] at hRun
  dsimp only at hRun
  split at hRun
  · exact absurd (congrArg Prod.fst hRun)
      (by rw [‹ok' = 0›]; exact hOk.symm)
  rename_i hGranted
  rcases requestConnection_greets hFresh hRequest' hGranted
    with ⟨message, got, hMessage, hConversation, hWhole⟩
  rw [← show w₄ = w' from
    congrArg (fun out => out.2.2.1) hRun]
  refine ⟨w.dial.stack, message, got, ?_, hConversation,
    hWhole⟩
  rw [commandMessage_congr hRequest hSame,
    ← commandMessage_congr hKeeps₃ hHost₃]
  exact hMessage

/- Whoever an attempt has connected was greeted. -/
theorem attemptTunnel_greets
    {tun : SshTunnel}
    {st : Connecting}
    (hMade : (attemptTunnel tun st).1 ≠ 0)
    (hNull : tun.isNull = false) :
    Greeted tun (attemptTunnel tun st).2.con
      (attemptTunnel tun st).2.w := by
  revert hMade
  unfold attemptTunnel
  dsimp only
  by_cases hDirect : tun.isDirect = true
  · rw [if_pos hDirect]
    exact fun hMade => ⟨[], [],
      connectDirect_converses hMade,
      Or.inl ⟨hDirect, rfl, rfl⟩⟩
  · rw [if_neg hDirect, if_neg (by simp [hNull])]
    rcases hRun : connectViaSshSocks5
        { st.con with tunnel := some tun } st.w tun with
      ⟨rc, con, w, failureType⟩
    intro hMade
    rcases connectViaSshSocks5_greets hRun hMade with
      ⟨buf, message, got, hMessage, hConversation, hWhole⟩
    exact ⟨got, _, hConversation,
      Or.inr ⟨by simpa using hDirect, buf, message, hMessage,
        rfl, hWhole⟩⟩

/-
  A session that got connected did so through a tunnel of its
  route, and has greeted whom it is connected to.
-/
theorem socksConnect_greets
    {first st : Connecting}
    {ok : Int}
    (hRun : socksConnect first = (ok, st))
    (hOk : ok ≠ 0) :
    ∃ tun, tun ∈ routeTunnels first.con ∧
      st.con.tunnel = some tun ∧
      (tun.isNull = false →
        st.failureType = socks5ReplySucceed ∧
          Greeted tun st.con st.w) := by
  rcases Session.made_of_socksConnect hRun hOk with
    ⟨n, st₁, hAttempt, hMade⟩
  have hStep := Session.connectStep_of_made hMade
  rw [socksConnect_of_attempt hAttempt hStep] at hRun
  rw [← show _ = st from congrArg Prod.snd hRun]
  refine ⟨_, ?_, attemptTunnel_tunnel _ _, fun hNull =>
    ⟨?_, attemptTunnel_greets hMade hNull⟩⟩
  · have hTurn := attemptAt_tunnel hAttempt.tunnels n st₁
    unfold attemptAt at hTurn
    rw [attemptTunnel_tunnel] at hTurn
    exact List.mem_of_getElem? hTurn.symm
  · have hType := (attemptTunnel_kept
      (tunnelOfAttempt (routeTunnels first.con) n)
      st₁).2 hMade
    rw [hType, hNull]
    rfl

end SmartSOCKSProxy
