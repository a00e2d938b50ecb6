import SmartSOCKSProxy.Socks.Interop

/-
  Two proxies in a row.

  A session whose tunnel leads to the SOCKS service of a
  second proxy, and the session that serves it there, are
  together as transparent as one: what the last server is
  told is what the first client said, and what the first
  client is told is what the last server said.

  Key definitions include:
    * `Chained`, `Session.Fits`

  Key theorems include:
    * `ClientRequest.rest_unique`
    * `Session.encodable_of_relayed`
    * `Session.fitsWire_of_relayed`
    * `Chained.relays_end_to_end`
-/

namespace SmartSOCKSProxy

------------------------------------------------------------
-- Messages and What Follows Them
------------------------------------------------------------

/- Requests of version 4 do not begin like those of 5. -/
theorem ClientRequest.authReply_of_wire
    {req : ClientRequest}
    {methods : List UInt8}
    {hMethods : methods.length ≤ 255}
    {c : Command}
    (hWire :
      req.wire = (ClientRequest.v5 methods hMethods c).wire) :
    req.authReply = [5, 0] ∧ req.version = 5 := by
  cases req with
  | v4 =>
      simp [wire] at hWire
  | v5 => exact ⟨rfl, rfl⟩

/- What follows a reply of the SOCKS service. -/
theorem ServerReply.rest_of_socks5Reply
    {r : ServerReply}
    {status : Int}
    {rest rest' : List UInt8}
    (hSame :
      [5, 0] ++ socks5Reply status ++ rest =
        r.wire ++ rest') :
    rest = rest' := by
  have hGranted : UInt8.ofInt status = 0 := by
    simp only [socks5Reply, ServerReply.wire,
      List.cons_append, List.nil_append, List.cons.injEq,
      true_and] at hSame
    exact hSame.1
  have hHead :
      [5, 0, 5, 0, 0, 1] ++ ([0, 0, 0, 0, 0, 0] ++ rest) =
        r.wire ++ rest' := by
    rw [← hSame, socks5Reply, hGranted]
    rfl
  have hLength : boundLength 1 = some 4 := rfl
  exact (ServerReply.eq_of_head hLength hHead).2

/- A stream begins with at most one request. -/
theorem ClientRequest.rest_unique
    {req req' : ClientRequest}
    {rest rest' : List UInt8}
    (hSame : req.wire ++ rest = req'.wire ++ rest') :
    rest = rest' := by
  let w : World :=
    { (default : World) with
      socks := fun _ => ⟨⟨req.wire ++ rest, []⟩, ⟨[]⟩⟩ }
  have hReads : (w.source .client).Reliable := by
    intro event hMem
    simp [w, World.source] at hMem
  have hWrites : (w.sink .client).Reliable := by
    intro event hMem
    simp [w, World.sink] at hMem
  have hExact :=
    (handshake_exact 0 default w hReads hWrites).2
  rw [← (hExact req rest rfl).1]
  exact (hExact req' rest' hSame).1

------------------------------------------------------------
-- Commands of Relayed Sessions
------------------------------------------------------------

namespace Session

/- A session that is relayed has a command that is known. -/
theorem encodable_of_relayed
    {s : Session}
    {con : ClientConnection}
    {w : World}
    (hRelayed : s.relayed = some (con, w)) :
    Encodable con := by
  rcases steps_of_relayed hRelayed with
    ⟨first, ok, st, rc, hStart, hConnect, _, _, _, rfl⟩
  have hKept := socksConnect_kept first
  rw [hConnect] at hKept
  apply Encodable.of_keeps _ hKept.request
  cases s with
  | socks rules failureType fdIn junk w₀ =>
      rcases accepted_of_startConnecting hStart with
        ⟨con, w₁, hRun, hCon⟩
      rcases handshake_sound (resetRequest_blank fdIn junk)
          hRun with
        ⟨req, hRecords, _⟩
      rw [hCon]
      exact decideApplicableRule_preserves
        (fun _ _ hKeeps hHere => hHere.of_keeps hKeeps)
        (fun r _ => applyTo_encodable r) rules w₁.dns
        hRecords.carries.encodable
  | portForward fwd rules failureType fdIn junk w₀ =>
      rw [← show _ = first from congrArg Prod.snd hStart]
      exact decideApplicableRule_preserves
        (fun _ _ hKeeps hHere =>
          Encodable.of_keeps hHere hKeeps)
        (fun r _ => applyTo_encodable r) rules w₀.dns
        (portForwardRequest_encodable fwd
          (newClientConnection fdIn junk))

/-
  What the session asks a tunnel's server for fits the wire.
  The request of a SOCKS client always does; the host of a
  port forward can be longer than 255 bytes.
-/
def Fits
    (s : Session)
    (con : ClientConnection) : Prop :=
  match s with
  | .socks _ _ _ _ _ => True
  | .portForward _ _ _ _ _ _ => FitsWire con

theorem fitsWire_of_relayed
    {s : Session}
    {con : ClientConnection}
    {w : World}
    (hRelayed : s.relayed = some (con, w))
    (hFits : s.Fits con) :
    FitsWire con := by
  cases s with
  | portForward => exact hFits
  | socks rules failureType fdIn junk w₀ =>
      rcases steps_of_relayed hRelayed with
        ⟨first, ok, st, rc, hStart, hConnect, _, _, _, rfl⟩
      have hKept := socksConnect_kept first
      rw [hConnect] at hKept
      rcases accepted_of_startConnecting hStart with
        ⟨con, w₁, hRun, hCon⟩
      rcases handshake_sound (resetRequest_blank fdIn junk)
          hRun with
        ⟨req, hRecords, _⟩
      apply FitsWire.of_keeps _ hKept.request
      rw [hCon]
      exact decideApplicableRule_preserves
        (fun _ _ hKeeps hHere => hHere.of_keeps hKeeps)
        (fun r _ => applyTo_fitsWire r) rules w₁.dns
        hRecords.carries.fitsWire

end Session

------------------------------------------------------------
-- The Chain
------------------------------------------------------------

/-
  The server that the session `a` is connected to through a
  tunnel is the session `b`, which is relayed as well.  In
  whole runs, either of them reads what the other has
  written to it.
-/
structure Chained
    (a b : Session)
    (pollsA pollsB : List PollEvent)
    (conA conB : ClientConnection)
    (wA wB : World) : Prop where
  service : ∃ rules failureType fdIn junk w,
    b = .socks rules failureType fdIn junk w
  relayedA : a.relayed = some (conA, wA)
  relayedB : b.relayed = some (conB, wB)
  tunnel : ∃ tun, conA.tunnel = some tun ∧
    tun.isDirect = false ∧ tun.isNull = false
  up :
    (b.world.source .client).pending =
      toldServer (a.run pollsA).2.2.trace
  down :
    sentTo .client (b.run pollsB).2.2.trace =
      sentTo .client b.world.trace ++
        (wA.dials (wA.dialed - 1)).sock.source.pending

namespace Chained

variable {a b : Session}
variable {pollsA pollsB : List PollEvent}
variable {conA conB : ClientConnection}
variable {wA wB : World}

/-
  At every moment, what the second session has relayed to its
  server is a front part of what the client of the first one
  had left to say; and what the first session has relayed to
  its client is a front part of what the server of the second
  one had left to say.  The length byte of a longer host is
  cut, and the rest of the host would be taken for data.
-/
theorem relays_end_to_end
    (hChained : Chained a b pollsA pollsB conA conB wA wB)
    (hFits : a.Fits conA) :
    ∃ tA tB,
      (a.run pollsA).2.2.trace = wA.trace ++ tA ∧
      (b.run pollsB).2.2.trace = wB.trace ++ tB ∧
      (∀ p, p <+: tB →
        sentTo .server p <+:
          (wA.source .client).pending) ∧
      ∀ p, p <+: tA →
        sentTo .client p <+:
          (wB.source .server).pending := by
  rcases hChained.service with
    ⟨rules, failureType, fdIn, junk, w₀, rfl⟩
  rcases hChained.tunnel with ⟨tun, hTunnel, hDirect, hNull⟩
  rcases Session.opening_of_relayed hChained.relayedA with
    ⟨_, _, _, tun', _, _, _, hTunnel', hGreets⟩
  rcases Session.relaying_of_relayed pollsA
      hChained.relayedA with
    ⟨tA, hTraceA, hDialsA, hRelayA⟩
  rcases Session.opening_of_relayed hChained.relayedB with
    ⟨_, _, status, _, ⟨req, rfl, rfl⟩, hAsked, hTold, _, _⟩
  rcases Session.relaying_of_relayed pollsB
      hChained.relayedB with
    ⟨tB, hTraceB, _, hRelayB⟩
  have hTuns : tun' = tun :=
    Option.some.inj (hTunnel'.symm.trans hTunnel)
  subst hTuns
  rcases carries_of_fitsWire
      (Session.encodable_of_relayed hChained.relayedA)
      (Session.fitsWire_of_relayed hChained.relayedA hFits)
    with
    ⟨c, hCarries, hCut⟩
  rcases hGreets hNull with
    ⟨_, got, put, hConversation,
      ⟨hYes, _⟩ | ⟨_, buf, message, hMessage, rfl, hReply⟩⟩
  · rw [hDirect] at hYes
    contradiction
  rw [commandMessage_of_carries hCarries, hCut] at hMessage
  cases hMessage
  -- Both ends of the request.
  have hUp :
      req.wire ++ (wB.source .client).pending =
        (ClientRequest.v5 [0] (by decide) c).wire ++
          sentTo .server tA := by
    rw [← hAsked, hChained.up, hTraceA,
      toldServer_append _ hDialsA, hConversation.told]
    rfl
  have hPayload := ClientRequest.rest_unique hUp
  have hWire :
      req.wire =
        (ClientRequest.v5 [0] (by decide) c).wire := by
    rw [hPayload] at hUp
    exact List.append_cancel_right hUp
  refine ⟨tA, tB, hTraceA, hTraceB, fun p hp => ?_,
    fun p hp => ?_⟩
  · have hServer := (hRelayB p hp).1
    rw [hPayload] at hServer
    exact hServer.trans (hRelayA tA List.prefix_rfl).1
  · -- Both ends of the reply.
    have hClient := (hRelayA p hp).2.1
    rcases hReply with ⟨r, rfl⟩ | hEnded
    · rcases ClientRequest.authReply_of_wire hWire with
        ⟨hAuth, hVersion⟩
      have hDown := hChained.down
      rw [hTraceB, sentTo_append, hTold, List.append_assoc,
        hAuth, hVersion, hConversation.heard] at hDown
      have hLast :=
        ServerReply.rest_of_socks5Reply
          (List.append_cancel_left hDown)
      rw [← hLast] at hClient
      exact hClient.trans (hRelayB tB List.prefix_rfl).2.1
    · rw [hEnded] at hClient
      exact hClient.trans List.nil_prefix

/- A client that asks for 10.0.0.1 and sends a byte. -/
def firstSession : Session :=
  .socks resolvingRules 0 3 default
    { (default : World) with
      socks := fun _ =>
        { source :=
            { pending :=
                [5, 1, 0, 5, 1, 0, 1, 10, 0, 0, 1, 0, 80, 65]
              reads := [] }
          sink := ⟨[]⟩ }
      dials := fun _ =>
        { (default : Dial) with
          socket := .ok 4
          sock :=
            { source :=
                { pending :=
                    [5, 0, 5, 0, 0, 1, 0, 0, 0, 0, 0, 0, 66]
                  reads := [] }
              sink := ⟨[]⟩ } } }

/- The session that serves it, for a server with a byte. -/
def secondSession : Session :=
  .socks directRules 0 3 default
    { (default : World) with
      socks := fun _ =>
        { source :=
            { pending :=
                [5, 1, 0, 5, 1, 0, 1, 10, 0, 0, 1, 0, 80, 65]
              reads := [] }
          sink := ⟨[]⟩ }
      dials := fun _ =>
        { (default : Dial) with
          socket := .ok 4
          sock := ⟨⟨[66], []⟩, ⟨[]⟩⟩ } }

theorem relays_end_to_end_twoBytes :
    let wA := (firstSession.relayed.get (by decide)).2
    let wB := (secondSession.relayed.get (by decide)).2
    ∃ tA tB,
      (firstSession.run [bothReadable]).2.2.trace =
        wA.trace ++ tA ∧
      (secondSession.run [bothReadable]).2.2.trace =
        wB.trace ++ tB ∧
      (∀ p, p <+: tB →
        sentTo .server p <+:
          (wA.source .client).pending) ∧
      ∀ p, p <+: tA →
        sentTo .client p <+:
          (wB.source .server).pending := by
  intro wA wB
  let conA := (firstSession.relayed.get (by decide)).1
  let conB := (secondSession.relayed.get (by decide)).1
  refine @relays_end_to_end firstSession secondSession
    [bothReadable] [bothReadable] conA conB wA wB ?_ ?_
  · exact
      { service := ⟨_, _, _, _, _, rfl⟩
        relayedA := (Option.some_get (by decide)).symm
        relayedB := (Option.some_get (by decide)).symm
        tunnel := ⟨default, by decide, by decide, by decide⟩
        up := by decide
        down := by decide }
  · trivial

end Chained

end SmartSOCKSProxy
