import SmartSOCKSProxy.Relay.Integrity
import SmartSOCKSProxy.Socks.Dialing
import SmartSOCKSProxy.Socks.Handler

/-
  The relay loses no byte that it reads.

  A passage lists the events between two worlds; nobody is
  dialed, and the events account for every byte that a source
  has lost.  Passages compose, so that what a whole run reads
  from a peer is the front part of what the peer had sent.

  Key definitions include:
    * `Passage`

  Key theorems include:
    * `relayLoop_passage`, `nullLoop_passage`
    * `socksConnectShuttle_transparent`
-/

namespace SmartSOCKSProxy

------------------------------------------------------------
-- Passages
------------------------------------------------------------

@[simp] theorem dialings_received
    (peer : Peer)
    (chunks : List (List UInt8)) :
    dialings (chunks.map (.received peer)) = [] := by
  simp [dialings, Event.dialing]

@[simp] theorem dialings_sent
    (peer : Peer)
    (chunks : List (List UInt8)) :
    dialings (chunks.map (.sent peer)) = [] := by
  simp [dialings, Event.dialing]

/-
  From `w` to `w'` the events `t` happened, none of which
  dials, and every byte that was taken from a source is in
  one of them.
-/
structure Passage
    (w : World)
    (t : List Event)
    (w' : World) : Prop where
  trace : w'.trace = w.trace ++ t
  dialings : dialings t = []
  pending : ∀ peer,
    (w.source peer).pending =
      receivedFrom peer t ++ (w'.source peer).pending

namespace Passage

variable {w w₁ w₂ : World}
variable {t u : List Event}

theorem refl
    (w : World) :
    Passage w [] w :=
  ⟨(List.append_nil _).symm, rfl, fun _ => rfl⟩

theorem trans
    (h : Passage w t w₁)
    (h' : Passage w₁ u w₂) :
    Passage w (t ++ u) w₂ where
  trace := by
    rw [h'.trace, h.trace, List.append_assoc]
  dialings := by
    rw [dialings_append, h.dialings, h'.dialings]
    rfl
  pending := by
    intro peer
    rw [h.pending, h'.pending, receivedFrom_append,
      List.append_assoc]

/- What was read starts what had been sent. -/
theorem received_prefix
    (h : Passage w t w₁)
    (peer : Peer) :
    receivedFrom peer t <+: (w.source peer).pending := by
  rw [h.pending]
  exact List.prefix_append _ _

/- Events that neither dial nor read. -/
theorem emit
    (w : World)
    {event : Event}
    (hDials : event.dialing = none)
    (hSilent : ∀ peer, event.receivedFrom peer = []) :
    Passage w [event] (w.emit event) where
  trace := rfl
  dialings := by
    simp [SmartSOCKSProxy.dialings, hDials]
  pending := by
    intro peer
    simp only [receivedFrom, List.flatMap_singleton,
      hSilent, List.nil_append]
    rfl

/- A run of reads from one peer. -/
theorem afterRead
    {peer : Peer}
    {run : ReadRun}
    {n : Nat}
    (hTakes : run.Takes (w.source peer) n) :
    Passage w (run.chunks.map (.received peer))
      (w.afterRead peer run) where
  trace := rfl
  dialings := dialings_received peer run.chunks
  pending := by
    intro q
    by_cases hPeer : q = peer
    · subst hPeer
      rw [World.source_afterRead_self,
        receivedFrom_received, if_pos rfl]
      exact hTakes.pending
    · rw [World.source_afterRead_ne w peer q run hPeer,
        receivedFrom_received, if_neg (Ne.symm hPeer),
        List.nil_append]

theorem sbRead
    (w : World)
    (peer : Peer)
    (n : Nat) :
    ∃ t, Passage w t (w.sbRead peer n).2.2 ∧
      ∀ q, sentTo q t = [] :=
  ⟨_, afterRead (sbRead_takes _ n),
    fun _ => sentTo_received _ _ _⟩

theorem sbReadLen
    (w : World)
    (peer : Peer)
    (n : Nat) :
    ∃ t, Passage w t (w.sbReadLen peer n).2.2 ∧
      ∀ q, sentTo q t = [] :=
  ⟨_, afterRead (sbReadLen_takes _ n),
    fun _ => sentTo_received _ _ _⟩

theorem sbWriteLen
    (w : World)
    (peer : Peer)
    (data : List UInt8) :
    ∃ t, Passage w t (w.sbWriteLen peer data).2 := by
  refine ⟨_, rfl, dialings_sent _ _, fun q => ?_⟩
  rw [receivedFrom_sent, List.nil_append]
  exact congrArg Source.pending
    (World.source_afterWrite w peer q _).symm

end Passage

------------------------------------------------------------
-- The Relay
------------------------------------------------------------

theorem shuttle_passage
    (con : ClientConnection)
    (w : World)
    (fdRead : Peer)
    (fdWrite : Int) :
    ∃ t, Passage w t
      (shuttle con w fdRead fdWrite).2.2 := by
  rcases Passage.sbRead w fdRead 10000 with ⟨t, hRead, _⟩
  unfold shuttle
  dsimp only
  split
  · exact ⟨t, hRead⟩
  split
  · exact ⟨t, hRead⟩
  split
  · exact ⟨t, hRead⟩
  split
  · exact ⟨t, hRead⟩
  · rcases Passage.sbWriteLen (w.sbRead fdRead 10000).2.2
        fdRead.other (w.sbRead fdRead 10000).2.1 with
      ⟨u, hWrite⟩
    exact ⟨t ++ u, hRead.trans hWrite⟩

theorem relayHalf_passage
    (peer : Peer)
    (revents : Revents)
    (st : Relay) :
    ∃ t, Passage st.w t (relayHalf peer revents st).2.w := by
  rcases shuttle_passage st.con st.w peer
      (st.writeFd peer.other) with ⟨t, hShuttle⟩
  unfold relayHalf
  dsimp only
  split
  · split
    · exact ⟨t, hShuttle⟩
    · split
      · exact ⟨_, hShuttle.trans
          (Passage.emit _ rfl fun _ => rfl)⟩
      · exact ⟨t, hShuttle⟩
  · exact ⟨[], Passage.refl _⟩

theorem relayRound_passage
    (revents : Peer → Revents)
    (st : Relay) :
    ∃ t, Passage st.w t (relayRound revents st).2.w := by
  have hOutcome := relayRound_outcome revents st
  generalize relayRound revents st = out at hOutcome
  rcases relayHalf_passage .client
      (pollFlags revents st .client)
      (noteHangups (pollFlags revents st) st) with
    ⟨t, hFirst⟩
  cases hOutcome with
  | flagged => exact ⟨[], Passage.refl _⟩
  | clientFailed hClient =>
      rw [hClient] at hFirst
      exact ⟨t, hFirst⟩
  | @serverFailed st₁ st₂ hClient hServer =>
      rcases relayHalf_passage .server
          (pollFlags revents st .server) st₁ with
        ⟨u, hSecond⟩
      rw [hClient] at hFirst
      rw [hServer] at hSecond
      exact ⟨t ++ u, hFirst.trans hSecond⟩
  | @served st₁ st₂ hClient hServer =>
      rcases relayHalf_passage .server
          (pollFlags revents st .server) st₁ with
        ⟨u, hSecond⟩
      rw [hClient] at hFirst
      rw [hServer] at hSecond
      exact ⟨t ++ u, hFirst.trans hSecond⟩

/- Every run of the relay is a passage. -/
theorem relayLoop_passage
    (polls : List PollEvent)
    (st : Relay) :
    ∃ t, Passage st.w t (relayLoop polls st).2.w := by
  induction polls generalizing st with
  | nil => exact ⟨[], Passage.refl _⟩
  | cons poll polls ih =>
      cases poll with
      | failed e =>
          rw [relayLoop]
          split
          · rcases ih
                { st with w := { st.w with errno := e } } with
              ⟨t, hRest⟩
            exact ⟨t, hRest.trace, hRest.dialings,
              hRest.pending⟩
          · have hSame := Passage.refl st.w
            exact ⟨[], hSame.trace, rfl, hSame.pending⟩
      | ready revents =>
          rcases relayRound_passage revents st with
            ⟨t, hRound⟩
          rcases hRun : relayRound revents st with ⟨rc, st'⟩
          rw [hRun] at hRound
          rw [relayLoop, hRun]
          cases rc with
          | some rc => exact ⟨t, hRound⟩
          | none =>
              rcases ih st' with ⟨u, hRest⟩
              exact ⟨t ++ u, hRound.trans hRest⟩

/- The null relay reads and never writes. -/
theorem nullLoop_passage
    (fuel : Nat)
    (con : ClientConnection)
    (w : World) :
    ∃ t, Passage w t (nullLoop fuel con w).2.2 ∧
      ∀ q, sentTo q t = [] := by
  induction fuel generalizing con w with
  | zero => exact ⟨[], Passage.refl _, fun _ => rfl⟩
  | succ fuel ih =>
      rcases Passage.sbReadLen w .client 1 with
        ⟨t, hRead, hSilent⟩
      rw [nullLoop]
      dsimp only
      split
      · rcases ih
            { con with bytesRx := con.bytesRx + 1 }
            (w.sbReadLen .client 1).2.2 with
          ⟨u, hRest, hSilent'⟩
        refine ⟨t ++ u, hRead.trans hRest, fun q => ?_⟩
        rw [sentTo_append, hSilent, hSilent',
          List.append_nil]
      · exact ⟨t, hRead, hSilent⟩

------------------------------------------------------------
-- Either Relay
------------------------------------------------------------

/-
  At every moment of a relay, each side was written a front
  part of what the other side had sent, and nothing when the
  connection uses the null tunnel.
-/
theorem socksConnectShuttle_transparent
    (polls : List PollEvent)
    (con : ClientConnection)
    (w : World) :
    ∃ t,
      (socksConnectShuttle polls con w).2.2.trace =
        w.trace ++ t ∧
      dialings t = [] ∧
      ∀ p, p <+: t →
        sentTo .server p <+: (w.source .client).pending ∧
        sentTo .client p <+: (w.source .server).pending ∧
        (usesNullTunnel con = true →
          sentTo .server p = [] ∧
            sentTo .client p = []) := by
  unfold socksConnectShuttle
  dsimp only
  split
  · rcases nullLoop_passage
        ((w.source .client).pending.length + 1) con w with
      ⟨t, hPassage, hSilent⟩
    refine ⟨t, hPassage.trace, hPassage.dialings,
      fun p hp => ?_⟩
    have hNone : ∀ q, sentTo q p = [] := by
      intro q
      have hMono := sentTo_mono q hp
      rw [hSilent] at hMono
      exact List.prefix_nil.mp hMono
    rw [hNone, hNone]
    exact ⟨List.nil_prefix, List.nil_prefix,
      fun _ => ⟨rfl, rfl⟩⟩
  · rename_i hOther
    rcases shuttleDataBackAndForth_faithful polls con w with
      ⟨t, hTrace, hFaithful⟩
    rcases relayLoop_passage polls (Relay.start con w) with
      ⟨u, hPassage⟩
    have hSame : u = t :=
      List.append_cancel_left
        (hPassage.trace.symm.trans hTrace)
    subst hSame
    refine ⟨u, hTrace, hPassage.dialings, fun p hp => ?_⟩
    rcases hFaithful p hp with ⟨hServer, hClient⟩
    have hRead : ∀ peer,
        receivedFrom peer p <+: (w.source peer).pending :=
      fun peer => (receivedFrom_mono peer hp).trans
        (hPassage.received_prefix peer)
    exact ⟨hServer.trans (hRead .client),
      hClient.trans (hRead .server),
      fun hNull => absurd hNull hOther⟩

end SmartSOCKSProxy
