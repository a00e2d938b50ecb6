import SmartSOCKSProxy.Relay.Shuttle

/-
  The relay never reorders, duplicates, alters or skips.

  A direction is in step, when everything read was written,
  or it is blocked and will not be written to again.  Each
  half of an iteration keeps this, so that at every moment
  the bytes written are a prefix of the bytes read.

  Key definitions include:
    * `Faithful`, `Intact`

  Key theorems include:
    * `relayHalf_intact`
    * `relayLoop_faithful`
    * `shuttleDataBackAndForth_faithful`
-/

namespace SmartSOCKSProxy

------------------------------------------------------------
-- Faithful Traces
------------------------------------------------------------

/- At every moment the bytes written start the bytes read. -/
def Faithful
    (src : Peer)
    (t : List Event) : Prop :=
  ∀ p, p <+: t →
    sentTo src.other p <+: receivedFrom src p

theorem faithful_nil
    (src : Peer) :
    Faithful src [] := by
  intro p hp
  rw [List.prefix_nil.mp hp]
  exact List.nil_prefix

theorem sentTo_mono
    (peer : Peer)
    {p t : List Event}
    (hPrefix : p <+: t) :
    sentTo peer p <+: sentTo peer t := by
  rcases hPrefix with ⟨rest, rfl⟩
  rw [sentTo_append]
  exact List.prefix_append _ _

theorem receivedFrom_mono
    (peer : Peer)
    {p t : List Event}
    (hPrefix : p <+: t) :
    receivedFrom peer p <+: receivedFrom peer t := by
  rcases hPrefix with ⟨rest, rfl⟩
  rw [receivedFrom_append]
  exact List.prefix_append _ _

/- Writing what was read before keeps a trace faithful. -/
theorem Faithful.append
    {src : Peer}
    {t u : List Event}
    (hFaithful : Faithful src t)
    (hSent :
      sentTo src.other (t ++ u) <+: receivedFrom src t) :
    Faithful src (t ++ u) := by
  intro p hp
  rcases List.prefix_or_prefix_of_prefix hp
      (List.prefix_append t u) with hOld | hNew
  · exact hFaithful p hOld
  · exact (sentTo_mono _ hp).trans
      (hSent.trans (receivedFrom_mono _ hNew))

------------------------------------------------------------
-- Half an Iteration
------------------------------------------------------------

@[simp] theorem receivedFrom_halfEvents
    (peer q : Peer)
    (got put : List (List UInt8))
    (closing : List Int) :
    receivedFrom q (halfEvents peer got put closing) =
      if peer = q then got.flatten else [] := by
  simp [halfEvents]

@[simp] theorem sentTo_halfEvents
    (peer q : Peer)
    (got put : List (List UInt8))
    (closing : List Int) :
    sentTo q (halfEvents peer got put closing) =
      if peer.other = q then put.flatten else [] := by
  simp [halfEvents]

/- Half an iteration writes no more than it has read. -/
theorem Faithful.append_halfEvents
    {src peer : Peer}
    {t : List Event}
    {got put : List (List UInt8)}
    (hFaithful : Faithful src t)
    (hPut : put.flatten <+: got.flatten)
    (hInStep : put.flatten = [] ∨
      sentTo peer.other t = receivedFrom peer t)
    (closing : List Int) :
    Faithful src (t ++ halfEvents peer got put closing) := by
  have hRead :
      Faithful src (t ++ got.map (.received peer)) := by
    apply hFaithful.append
    rw [sentTo_append, sentTo_received, List.append_nil]
    exact hFaithful t List.prefix_rfl
  rw [halfEvents, ← List.append_assoc]
  apply hRead.append
  simp only [sentTo_append, receivedFrom_append,
    sentTo_received, receivedFrom_received, sentTo_sent,
    sentTo_closed, List.append_nil]
  have hOld := hFaithful t List.prefix_rfl
  rcases Peer.eq_or_eq_other peer src with rfl | rfl
  · rw [if_pos rfl, if_pos rfl]
    rcases hInStep with hNil | hEq
    · rw [hNil, List.append_nil]
      exact hOld.trans (List.prefix_append _ _)
    · rw [hEq]
      exact (List.prefix_append_right_inj _).mpr hPut
  · simpa using hOld

/-
  Every direction is faithful, and in step unless it is
  blocked.
-/
structure Intact
    (t : List Event)
    (st : Relay) : Prop where
  faithful : ∀ src, Faithful src t
  inStep : ∀ src,
    sentTo src.other t = receivedFrom src t ∨
      st.writeFd src.other < 0

theorem Relay.writeFd_congr
    {st st' : Relay}
    (hCanWrite : st'.canWrite = st.canWrite)
    {peer : Peer}
    (hFd : st'.con.fd peer = st.con.fd peer) :
    st'.writeFd peer = st.writeFd peer := by
  unfold Relay.writeFd
  rw [hCanWrite, hFd]

@[simp] theorem fd_count
    (con : ClientConnection)
    (rc : Int)
    (peer : Peer) :
    (con.count rc peer).fd = con.fd := by
  funext q
  cases peer <;> cases q <;> rfl

theorem fd_forgetFd
    (con : ClientConnection)
    (peer q : Peer) :
    (con.forgetFd peer).fd q =
      if q = peer then -1 else con.fd q := by
  cases peer <;> cases q <;> rfl

/- A closed descriptor is not written to. -/
theorem Relay.writeFd_forgetFd
    {st st' : Relay}
    {peer : Peer}
    (hCanWrite : st'.canWrite = st.canWrite)
    (hCon : st'.con = st.con.forgetFd peer)
    (q : Peer) :
    st'.writeFd q =
      if q = peer then -1 else st.writeFd q := by
  unfold Relay.writeFd
  rw [hCanWrite, hCon, fd_forgetFd]
  by_cases hPeer : q = peer <;> simp [hPeer]

/- Half an iteration keeps the relay intact. -/
theorem relayHalf_intact
    (peer : Peer)
    (revents : Revents)
    {st : Relay}
    {t : List Event}
    (hIntact : Intact t st) :
    let out := relayHalf peer revents st
    ∃ u, out.2.w.trace = st.w.trace ++ u ∧
      (∀ src, Faithful src (t ++ u)) ∧
      (out.1 = true → Intact (t ++ u) out.2) := by
  intro out
  rcases relayHalf_outcome peer revents st with
    ⟨got, put, closing, hTrace, _, hCanWrite, hOutcome⟩
  change HalfOutcome peer revents st _ _
    out.1 out.2.con out.2.continueLoop at hOutcome
  change out.2.canWrite = st.canWrite at hCanWrite
  refine ⟨halfEvents peer got put closing, hTrace, ?_⟩
  have hInStep := hIntact.inStep
  generalize hGo : out.1 = go at hOutcome ⊢
  generalize hCon : out.2.con = con' at hOutcome
  generalize out.2.continueLoop = flag at hOutcome
  generalize hGot : got.flatten = gotBytes at hOutcome
  generalize hPut : put.flatten = putBytes at hOutcome
  have hEvents :
      put.flatten <+: got.flatten →
      (put.flatten = [] ∨
        sentTo peer.other t = receivedFrom peer t) →
      ∀ src, Faithful src
        (t ++ halfEvents peer got put closing) :=
    fun hSub hOr src =>
      (hIntact.faithful src).append_halfEvents hSub hOr
        closing
  cases hOutcome with
  | skipped hIdle =>
      have hFaithful := hEvents (by rw [hPut, hGot])
        (Or.inl hPut)
      refine ⟨hFaithful, fun _ => ⟨hFaithful, ?_⟩⟩
      intro src
      rw [Relay.writeFd_congr hCanWrite (by rw [hCon])]
      simpa [hGot, hPut] using hInStep src
  | ended hReady hEnd =>
      have hFaithful := hEvents (by rw [hPut, hGot])
        (Or.inl hPut)
      refine ⟨hFaithful, fun _ => ⟨hFaithful, ?_⟩⟩
      intro src
      rw [Relay.writeFd_forgetFd hCanWrite hCon]
      by_cases hPeer : src.other = peer
      · right
        simp [hPeer]
      · simpa [hGot, hPut, hPeer] using hInStep src
  | drained hReady hMore hNe hWrite =>
      have hFaithful := hEvents
        (by rw [hPut]; exact List.nil_prefix) (Or.inl hPut)
      refine ⟨hFaithful, fun _ => ⟨hFaithful, ?_⟩⟩
      intro src
      rw [Relay.writeFd_congr hCanWrite
        (by rw [hCon, fd_count])]
      rcases Peer.eq_or_eq_other peer src with rfl | rfl
      · exact Or.inr hWrite
      · simpa [hGot, hPut] using hInStep peer.other
  | forwarded hMore hWrite =>
      have hSync :
          sentTo peer.other t = receivedFrom peer t := by
        rcases hInStep peer with hSync | hBlocked
        · exact hSync
        · omega
      have hFaithful := hEvents (by rw [hPut, hGot])
        (Or.inr hSync)
      refine ⟨hFaithful, fun _ => ⟨hFaithful, ?_⟩⟩
      intro src
      rw [Relay.writeFd_congr hCanWrite
        (by rw [hCon, fd_count])]
      rcases Peer.eq_or_eq_other peer src with rfl | rfl
      · left
        simp [hGot, hPut, hSync]
      · simpa [hGot, hPut] using hInStep peer.other
  | failed hPrefix hWrite =>
      refine ⟨hEvents (by rw [hPut, hGot]; exact hPrefix)
        ?_, fun hTrue => absurd hTrue (by decide)⟩
      rcases hWrite with hNil | hWrite
      · exact Or.inl (hPut.trans hNil)
      · rcases hInStep peer with hSync | hBlocked
        · exact Or.inr hSync
        · omega

------------------------------------------------------------
-- Whole Runs
------------------------------------------------------------

/- A peer that hung up is not written to. -/
theorem Relay.writeFd_noteHangups
    (revents : Peer → Revents)
    (st : Relay)
    (peer : Peer) :
    (noteHangups revents st).writeFd peer =
      if (revents peer).hup then -1 else st.writeFd peer := by
  unfold Relay.writeFd noteHangups
  cases hHup : (revents peer).hup <;> simp [hHup]

/- Hang-ups only block directions. -/
theorem Intact.noteHangups
    {t : List Event}
    {st : Relay}
    (hIntact : Intact t st)
    (revents : Peer → Revents) :
    Intact t (noteHangups revents st) := by
  refine ⟨hIntact.faithful, fun src => ?_⟩
  rw [Relay.writeFd_noteHangups]
  cases (revents src.other).hup with
  | false => simpa using hIntact.inStep src
  | true => exact Or.inr (by simp)

/- An iteration keeps the relay intact. -/
theorem relayRound_intact
    (revents : Peer → Revents)
    {st : Relay}
    {t : List Event}
    (hIntact : Intact t st) :
    let out := relayRound revents st
    ∃ u, out.2.w.trace = st.w.trace ++ u ∧
      (∀ src, Faithful src (t ++ u)) ∧
      (out.1 = none → Intact (t ++ u) out.2) := by
  intro out
  have hIntact₀ := hIntact.noteHangups
    (pollFlags revents st)
  have hClientHalf := relayHalf_intact .client
    (pollFlags revents st .client) hIntact₀
  have hOutcome : RoundOutcome revents st out :=
    relayRound_outcome revents st
  clear_value out
  cases hOutcome with
  | flagged =>
      exact ⟨[], by simp [noteHangups],
        by simpa using hIntact.faithful, by simp⟩
  | clientFailed hClient =>
      rw [hClient] at hClientHalf
      rcases hClientHalf with ⟨u, hTrace, hFaithful, _⟩
      exact ⟨u, hTrace, hFaithful, by simp⟩
  | serverFailed hClient hServer =>
      rw [hClient] at hClientHalf
      rcases hClientHalf with ⟨u, hTrace, _, hGo⟩
      have hServerHalf := relayHalf_intact .server
        (pollFlags revents st .server) (hGo rfl)
      rw [hServer] at hServerHalf
      rcases hServerHalf with ⟨v, hTrace', hFaithful, _⟩
      refine ⟨u ++ v, ?_, ?_, by simp⟩
      · rw [← List.append_assoc]
        exact hTrace'.trans (by rw [hTrace]; rfl)
      · simpa using hFaithful
  | served hClient hServer =>
      rw [hClient] at hClientHalf
      rcases hClientHalf with ⟨u, hTrace, _, hGo⟩
      have hServerHalf := relayHalf_intact .server
        (pollFlags revents st .server) (hGo rfl)
      rw [hServer] at hServerHalf
      rcases hServerHalf with
        ⟨v, hTrace', hFaithful, hGo'⟩
      rw [List.append_assoc] at hGo'
      refine ⟨u ++ v, ?_, ?_, fun _ => hGo' rfl⟩
      · rw [← List.append_assoc]
        exact hTrace'.trans (by rw [hTrace]; rfl)
      · simpa using hFaithful

/- Every run of the loop is faithful. -/
theorem relayLoop_faithful
    (polls : List PollEvent)
    {st : Relay}
    {t : List Event}
    (hIntact : Intact t st) :
    ∃ u,
      (relayLoop polls st).2.w.trace = st.w.trace ++ u ∧
      ∀ src, Faithful src (t ++ u) := by
  induction polls generalizing st t with
  | nil =>
      exact ⟨[], by simp [relayLoop],
        by simpa using hIntact.faithful⟩
  | cons poll polls ih =>
      cases poll with
      | failed e =>
          rw [relayLoop]
          by_cases hIntr : e = EINTR
          · simp only [hIntr, if_true]
            have hSame :
                Intact t
                  { st with
                    w := { st.w with errno := EINTR } } :=
              ⟨hIntact.faithful, hIntact.inStep⟩
            exact ih hSame
          · simp only [hIntr, if_false]
            exact ⟨[], by simp,
              by simpa using hIntact.faithful⟩
      | ready revents =>
          rcases relayRound_intact revents hIntact with
            ⟨u, hTrace, hFaithful, hGo⟩
          rcases hRound : relayRound revents st with
            ⟨rc, st'⟩
          rw [hRound] at hTrace hGo
          rw [relayLoop, hRound]
          cases rc with
          | some rc => exact ⟨u, hTrace, hFaithful⟩
          | none =>
              rcases ih (hGo rfl) with
                ⟨v, hRest, hFaithfulRest⟩
              refine ⟨u ++ v, ?_, ?_⟩
              · rw [← List.append_assoc, ← hTrace]
                exact hRest
              · simpa using hFaithfulRest

/-
  For every sequence of poll results and every behaviour of
  the two descriptors, at every moment of the relay the
  bytes written to one side are a prefix of the bytes read
  from the other.
-/
theorem shuttleDataBackAndForth_faithful
    (polls : List PollEvent)
    (con : ClientConnection)
    (w : World) :
    ∃ t,
      (shuttleDataBackAndForth polls con w).2.w.trace =
        w.trace ++ t ∧
      ∀ p, p <+: t →
        sentTo .server p <+: receivedFrom .client p ∧
          sentTo .client p <+: receivedFrom .server p := by
  have hStart : Intact [] (Relay.start con w) :=
    ⟨faithful_nil, fun _ => Or.inl rfl⟩
  rcases relayLoop_faithful polls hStart with
    ⟨t, hTrace, hFaithful⟩
  exact ⟨t, hTrace, fun p hp =>
    ⟨hFaithful .client p hp, hFaithful .server p hp⟩⟩

end SmartSOCKSProxy
