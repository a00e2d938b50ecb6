import SmartSOCKSProxy.Relay.Accounting
import SmartSOCKSProxy.Relay.Passage

/-
  How a relay comes to its end.

  The relay closes the descriptor of a peer only when the
  stream of the peer has ended, and by then it has delivered
  all of this stream, unless the other side has hung up.  It
  ends after at most as many iterations as there are bytes to
  read, and one more.

  Key definitions include:
    * `HungUp`, `DeliveredOn`, `StreamsSettled`
    * `PollEvent.interrupted`, `Relay.backlog`

  Key theorems include:
    * `relayHalf_settles`, `relayLoop_settles`
    * `shuttleDataBackAndForth_delivers`
    * `relayRound_progress`
    * `shuttleDataBackAndForth_returns`
-/

namespace SmartSOCKSProxy

------------------------------------------------------------
-- Hang-ups
------------------------------------------------------------

/- Some poll() reports that a peer has hung up. -/
def HungUp
    (polls : List PollEvent)
    (peer : Peer) : Prop :=
  ∃ revents, .ready revents ∈ polls ∧
    (revents peer).hup = true

theorem HungUp.cons
    {polls : List PollEvent}
    {peer : Peer}
    (hHungUp : HungUp polls peer)
    (poll : PollEvent) :
    HungUp (poll :: polls) peer := by
  rcases hHungUp with ⟨revents, hMem, hHup⟩
  exact ⟨revents, List.mem_cons_of_mem _ hMem, hHup⟩

/- What poll() masks is not reported. -/
theorem hup_of_pollFlags
    {revents : Peer → Revents}
    {st : Relay}
    {peer : Peer}
    (hHup : (pollFlags revents st peer).hup = true) :
    (revents peer).hup = true := by
  unfold pollFlags Revents.on at hHup
  split at hHup
  · contradiction
  · exact hHup

/- A round changes the writing flags for hang-ups only. -/
theorem relayRound_canWrite
    (revents : Peer → Revents)
    (st : Relay) :
    (relayRound revents st).2.canWrite =
      (noteHangups (pollFlags revents st) st).canWrite := by
  have hHalf : ∀ peer flags st₀,
      (relayHalf peer flags st₀).2.canWrite =
        st₀.canWrite := by
    intro peer flags st₀
    rcases relayHalf_outcome peer flags st₀ with
      ⟨_, _, _, _, _, hCanWrite, _⟩
    exact hCanWrite
  have hOutcome := relayRound_outcome revents st
  generalize relayRound revents st = out at hOutcome
  have hFirst := hHalf .client (pollFlags revents st .client)
    (noteHangups (pollFlags revents st) st)
  cases hOutcome with
  | flagged => rfl
  | clientFailed hClient =>
      rw [hClient] at hFirst
      exact hFirst
  | @serverFailed st₁ st₂ hClient hServer =>
      have hSecond :=
        hHalf .server (pollFlags revents st .server) st₁
      rw [hClient] at hFirst
      rw [hServer] at hSecond
      exact hSecond.trans hFirst
  | @served st₁ st₂ hClient hServer =>
      have hSecond :=
        hHalf .server (pollFlags revents st .server) st₁
      rw [hClient] at hFirst
      rw [hServer] at hSecond
      exact hSecond.trans hFirst

/- Only a peer that has hung up is not written to. -/
theorem relayLoop_hungUp
    {polls : List PollEvent}
    {st : Relay}
    {peer : Peer}
    (hBlocked :
      (relayLoop polls st).2.canWrite peer = false) :
    st.canWrite peer = false ∨ HungUp polls peer := by
  induction polls generalizing st with
  | nil => exact Or.inl hBlocked
  | cons poll polls ih =>
      cases poll with
      | failed e =>
          rw [relayLoop] at hBlocked
          split at hBlocked
          · exact (ih hBlocked).imp id
              (fun hLater => hLater.cons _)
          · exact Or.inl hBlocked
      | ready revents =>
          have hRound := relayRound_canWrite revents st
          have hHead :
              (relayRound revents st).2.canWrite peer =
                  false →
                st.canWrite peer = false ∨
                  HungUp (.ready revents :: polls) peer := by
            intro hFalse
            rw [hRound] at hFalse
            change (st.canWrite peer &&
              !(pollFlags revents st peer).hup) =
                false at hFalse
            rw [Bool.and_eq_false_iff] at hFalse
            refine hFalse.imp id fun hHup => ?_
            exact ⟨revents, List.mem_cons_self,
              hup_of_pollFlags (by simpa using hHup)⟩
          rcases hRun : relayRound revents st with ⟨rc, st'⟩
          rw [hRun] at hHead
          rw [relayLoop, hRun] at hBlocked
          cases rc with
          | some rc => exact hHead hBlocked
          | none =>
              rcases ih hBlocked with hEarlier | hLater
              · exact hHead hEarlier
              · exact Or.inr (hLater.cons _)

------------------------------------------------------------
-- Streams That Have Ended
------------------------------------------------------------

/-
  All that was read from `src` was written to the other side,
  which otherwise has hung up.
-/
def DeliveredOn
    (t : List Event)
    (st : Relay)
    (src : Peer) : Prop :=
  sentTo src.other t = receivedFrom src t ∨
    st.canWrite src.other = false

/-
  A descriptor that was closed belongs to a peer whose stream
  has ended, and has been delivered.
-/
def StreamsSettled
    (t : List Event)
    (st : Relay) : Prop :=
  ∀ src, st.con.fd src < 0 →
    (st.w.source src).pending = [] ∧ DeliveredOn t st src

/- Errors do not close descriptors. -/
theorem relayHalf_of_failed
    {peer : Peer}
    {revents : Revents}
    {st st' : Relay}
    (hFailed : relayHalf peer revents st = (false, st')) :
    revents.rdnorm = true ∧ st'.con.fd = st.con.fd := by
  have hShuttle : ∀ fdWrite,
      (shuttle st.con st.w peer fdWrite).2.1.fd =
        st.con.fd := by
    intro fdWrite
    unfold shuttle
    dsimp only
    split
    · rfl
    split
    · exact (reportError_sameCounters _ _).1
    split
    · exact (reportError_sameCounters _ _).1
    split
    · rfl
    · rfl
  unfold relayHalf at hFailed
  dsimp only at hFailed
  split at hFailed
  · rename_i hReady
    split at hFailed
    · rw [← show _ = st' from congrArg Prod.snd hFailed]
      exact ⟨hReady, hShuttle _⟩
    · split at hFailed
      · exact nomatch congrArg Prod.fst hFailed
      · exact nomatch congrArg Prod.fst hFailed
  · exact nomatch congrArg Prod.fst hFailed

theorem Relay.canWrite_of_writeFd
    {st : Relay}
    {peer : Peer}
    (hBlocked : st.writeFd peer < 0)
    (hOpen : 0 ≤ st.con.fd peer) :
    st.canWrite peer = false := by
  unfold Relay.writeFd at hBlocked
  by_contra hCan
  rw [Bool.not_eq_false] at hCan
  rw [if_pos hCan] at hBlocked
  omega

/- Events that move as much as they read from `src`. -/
theorem DeliveredOn.append
    {t u : List Event}
    {st st' : Relay}
    {src : Peer}
    (hDelivered : DeliveredOn t st src)
    (hCanWrite : st'.canWrite = st.canWrite)
    (hMoved : sentTo src.other u = receivedFrom src u) :
    DeliveredOn (t ++ u) st' src := by
  unfold DeliveredOn at hDelivered ⊢
  rw [hCanWrite]
  refine hDelivered.imp (fun hEq => ?_) id
  rw [sentTo_append, receivedFrom_append, hEq, hMoved]

/-
  Half an iteration settles the stream that it ends, and all
  is delivered on as long as the other side is open.
-/
theorem relayHalf_settles
    (peer : Peer)
    (revents : Revents)
    {st : Relay}
    {t : List Event}
    (hSettled : StreamsSettled t st)
    (hDelivered : ∀ src, DeliveredOn t st src)
    (hOpen : revents.rdnorm = true → 0 ≤ st.con.fd peer) :
    let out := relayHalf peer revents st
    ∃ u, Passage st.w u out.2.w ∧
      StreamsSettled (t ++ u) out.2 ∧
      (out.1 = true → 0 ≤ st.con.fd peer.other →
        ∀ src, DeliveredOn (t ++ u) out.2 src) := by
  intro out
  rcases relayHalf_outcome peer revents st with
    ⟨got, put, closing, hTrace, _, hCanWrite, hOutcome⟩
  rcases relayHalf_passage peer revents st with
    ⟨u, hPassage⟩
  have hEvents : u = halfEvents peer got put closing :=
    List.append_cancel_left
      (hPassage.trace.symm.trans hTrace)
  change HalfOutcome peer revents st _ _
    out.1 out.2.con out.2.continueLoop at hOutcome
  change out.2.canWrite = st.canWrite at hCanWrite
  change Passage st.w u out.2.w at hPassage
  have hFailed : out.1 = false →
      revents.rdnorm = true ∧ out.2.con.fd = st.con.fd :=
    fun hFalse => relayHalf_of_failed (Prod.ext hFalse rfl)
  have hSent : sentTo peer.other u = put.flatten := by
    simp [hEvents]
  have hGotten : receivedFrom peer u = got.flatten := by
    simp [hEvents]
  have hOther : DeliveredOn (t ++ u) out.2 peer.other :=
    (hDelivered peer.other).append hCanWrite
      (by simp [hEvents])
  have hEmptied : ∀ q, (st.w.source q).pending = [] →
      (out.2.w.source q).pending = [] := by
    intro q hEnd
    have hPending := hPassage.pending q
    rw [hEnd] at hPending
    exact (List.append_eq_nil_iff.mp hPending.symm).2
  clear_value out
  -- The side that is not served stays as it is.
  have hSettles :
      out.2.con.fd peer.other = st.con.fd peer.other →
      (out.2.con.fd peer < 0 →
        (st.w.source peer).pending = [] ∧
          DeliveredOn (t ++ u) out.2 peer) →
      StreamsSettled (t ++ u) out.2 := by
    intro hFd hServed src hClosed
    rcases Peer.eq_or_eq_other peer src with rfl | rfl
    · exact (hServed hClosed).imp_left (hEmptied _)
    · rw [hFd] at hClosed
      exact ⟨hEmptied _ (hSettled _ hClosed).1, hOther⟩
  have hBoth :
      DeliveredOn (t ++ u) out.2 peer →
        ∀ src, DeliveredOn (t ++ u) out.2 src := by
    intro hServed src
    rcases Peer.eq_or_eq_other peer src with rfl | rfl
    · exact hServed
    · exact hOther
  have hStill : put.flatten = got.flatten →
      DeliveredOn (t ++ u) out.2 peer :=
    fun hMoved => (hDelivered peer).append hCanWrite
      (by rw [hSent, hGotten, hMoved])
  have hNotClosed : (st.w.source peer).pending ≠ [] →
      ¬ st.con.fd peer < 0 :=
    fun hMore hClosed => hMore (hSettled peer hClosed).1
  refine ⟨u, hPassage, ?_⟩
  clear hEvents hTrace
  generalize hGo : out.1 = go at *
  generalize hCon : out.2.con = con' at *
  generalize hFlag : out.2.continueLoop = flag at *
  generalize hGot : got.flatten = gotBytes at *
  generalize hPut : put.flatten = putBytes at *
  cases hOutcome with
  | skipped hIdle =>
      exact ⟨hSettles rfl fun hClosed =>
          ⟨(hSettled peer hClosed).1, hStill rfl⟩,
        fun _ _ => hBoth (hStill rfl)⟩
  | ended hReady hEnd =>
      refine ⟨hSettles ?_ fun _ => ⟨hEnd, hStill rfl⟩,
        fun _ _ => hBoth (hStill rfl)⟩
      rw [fd_forgetFd, if_neg peer.other_ne]
  | drained hReady hMore hNe hWrite =>
      refine ⟨hSettles (by rw [fd_count]) fun hClosed => ?_,
        fun _ hOpenOther => hBoth (Or.inr ?_)⟩
      · rw [fd_count] at hClosed
        exact absurd hClosed (hNotClosed hMore)
      · rw [hCanWrite]
        exact Relay.canWrite_of_writeFd hWrite hOpenOther
  | forwarded hMore hWrite =>
      refine ⟨hSettles (by rw [fd_count]) fun hClosed => ?_,
        fun _ _ => hBoth (hStill rfl)⟩
      rw [fd_count] at hClosed
      exact absurd hClosed (hNotClosed hMore)
  | failed hPrefix hWrite =>
      rcases hFailed rfl with ⟨hReady, hFds⟩
      refine ⟨hSettles (congrFun hFds _) fun hClosed => ?_,
        fun hTrue => absurd hTrue (by decide)⟩
      rw [hFds] at hClosed
      have hFd := hOpen hReady
      omega

/-
  Only the descriptor that is served can be closed, and then
  the loop is to end.
-/
theorem relayHalf_fd
    (peer : Peer)
    (revents : Revents)
    (st : Relay) :
    let out := relayHalf peer revents st
    (∀ q ≠ peer, out.2.con.fd q = st.con.fd q) ∧
      (out.1 = true → out.2.continueLoop = true →
        out.2.con.fd = st.con.fd) ∧
      (out.2.continueLoop = false →
        st.continueLoop = false ∨ out.2.con.fd peer < 0) := by
  intro out
  rcases relayHalf_outcome peer revents st with
    ⟨got, put, _, _, _, _, hOutcome⟩
  change HalfOutcome peer revents st _ _
    out.1 out.2.con out.2.continueLoop at hOutcome
  have hFailed : out.1 = false →
      out.2.con.fd = st.con.fd :=
    fun hFalse => (relayHalf_of_failed
      (Prod.ext hFalse rfl)).2
  clear_value out
  generalize out.1 = go at *
  generalize out.2.con = con' at *
  generalize out.2.continueLoop = flag at *
  generalize got.flatten = gotBytes at *
  generalize put.flatten = putBytes at *
  cases hOutcome with
  | skipped => exact ⟨by simp, by simp, Or.inl⟩
  | ended hReady hEnd =>
      refine ⟨fun q hNe => ?_, by simp, fun _ => Or.inr ?_⟩
      · rw [fd_forgetFd, if_neg hNe]
      · rw [fd_forgetFd, if_pos rfl]
        decide
  | drained => exact ⟨by simp, by simp, Or.inl⟩
  | forwarded => exact ⟨by simp, by simp, Or.inl⟩
  | failed =>
      exact ⟨fun q _ => congrFun (hFailed rfl) q, by simp,
        Or.inl⟩

------------------------------------------------------------
-- Whole Runs
------------------------------------------------------------

/- What the start of an iteration can rely on. -/
structure Running
    (t : List Event)
    (st : Relay) : Prop where
  openFd : ∀ peer, 0 ≤ st.con.fd peer
  delivered : ∀ src, DeliveredOn t st src
  continues : st.continueLoop = true

theorem Running.settled
    {t : List Event}
    {st : Relay}
    (hRunning : Running t st) :
    StreamsSettled t st := by
  intro src hClosed
  have hFd := hRunning.openFd src
  omega

/- Hang-ups are noted before anything is read. -/
theorem Running.noteHangups
    {t : List Event}
    {st : Relay}
    (hRunning : Running t st)
    (revents : Peer → Revents) :
    Running t (noteHangups revents st) := by
  refine ⟨hRunning.openFd, fun src => ?_,
    hRunning.continues⟩
  refine (hRunning.delivered src).imp id fun hBlocked => ?_
  change (st.canWrite src.other && _) = false
  rw [hBlocked, Bool.false_and]

/-
  An iteration settles what it ends, and one after which the
  loop goes on ends nothing.
-/
theorem relayRound_settles
    (revents : Peer → Revents)
    {st : Relay}
    {t : List Event}
    (hRunning : Running t st) :
    let out := relayRound revents st
    ∃ u, Passage st.w u out.2.w ∧
      StreamsSettled (t ++ u) out.2 ∧
      (out.1 = none → Running (t ++ u) out.2) ∧
      (out.1 = some 1 →
        ∃ src, out.2.con.fd src < 0 ∨
          out.2.canWrite src = false) := by
  intro out
  have hOutcome : RoundOutcome revents st out :=
    relayRound_outcome revents st
  clear_value out
  have hStart := hRunning.noteHangups (pollFlags revents st)
  have hClientHalf := relayHalf_settles .client
    (pollFlags revents st .client)
    hStart.settled hStart.delivered
    (fun _ => hStart.openFd .client)
  have hClientFd := relayHalf_fd .client
    (pollFlags revents st .client)
    (noteHangups (pollFlags revents st) st)
  have hServerOpen := hStart.openFd .server
  cases hOutcome with
  | flagged =>
      refine ⟨[], Passage.refl _, ?_, by simp, by simp⟩
      rw [List.append_nil]
      exact hStart.settled
  | clientFailed hClient =>
      rw [hClient] at hClientHalf
      rcases hClientHalf with ⟨u, hPassage, hSettled, _⟩
      exact ⟨u, hPassage, hSettled, by simp, by simp⟩
  | @serverFailed st₁ st₂ hClient hServer =>
      rw [hClient] at hClientHalf hClientFd
      rcases hClientHalf with ⟨u, hPassage, hSettled, hOn⟩
      have hOpen : 0 ≤ st₁.con.fd .server := by
        rw [hClientFd.1 .server (by decide)]
        exact hServerOpen
      have hServerHalf := relayHalf_settles .server
        (pollFlags revents st .server)
        hSettled (hOn rfl hServerOpen) (fun _ => hOpen)
      rw [hServer] at hServerHalf
      rcases hServerHalf with ⟨v, hPassage', hSettled', _⟩
      rw [List.append_assoc] at hSettled'
      exact ⟨u ++ v, hPassage.trans hPassage', hSettled',
        by simp, by simp⟩
  | @served st₁ st₂ hClient hServer =>
      rw [hClient] at hClientHalf hClientFd
      rcases hClientHalf with ⟨u, hPassage, hSettled, hOn⟩
      have hOpen : 0 ≤ st₁.con.fd .server := by
        rw [hClientFd.1 .server (by decide)]
        exact hServerOpen
      have hServerHalf := relayHalf_settles .server
        (pollFlags revents st .server)
        hSettled (hOn rfl hServerOpen) (fun _ => hOpen)
      have hServerFd := relayHalf_fd .server
        (pollFlags revents st .server) st₁
      rw [hServer] at hServerHalf hServerFd
      rcases hServerHalf with
        ⟨v, hPassage', hSettled', hOn'⟩
      rw [List.append_assoc] at hSettled' hOn'
      refine ⟨u ++ v, hPassage.trans hPassage', hSettled',
        ?_, ?_⟩
      · intro hNone
        have hMore : st₂.continueLoop = true := by
          by_contra hStop
          simp [hStop] at hNone
        have hMore₁ : st₁.continueLoop = true := by
          by_contra hStop
          rw [Bool.not_eq_true] at hStop
          have hDone := relayHalf_continueLoop hServer hStop
          rw [hMore] at hDone
          contradiction
        have hFd₁ := hClientFd.2.1 rfl hMore₁
        have hFd₂ := hServerFd.2.1 rfl hMore
        have hOpen₁ : 0 ≤ st₁.con.fd .client := by
          rw [hFd₁]
          exact hStart.openFd .client
        refine ⟨fun peer => ?_, hOn' rfl hOpen₁, hMore⟩
        rw [hFd₂, hFd₁]
        exact hStart.openFd peer
      · intro hOne
        by_cases hStop : st₂.continueLoop = false
        · rcases hServerFd.2.2 hStop with hEarlier | hClosed
          · rcases hClientFd.2.2 hEarlier with
              hNever | hClosed
            · have hGoes := hStart.continues
              rw [hNever] at hGoes
              contradiction
            · refine ⟨.client, Or.inl ?_⟩
              rw [hServerFd.1 .client (by decide)]
              exact hClosed
          · exact ⟨.server, Or.inl hClosed⟩
        · -- Then a peer is not served any more.
          by_contra hNobody
          have hCan : ∀ peer, st₂.canWrite peer = true := by
            intro peer
            by_contra hCannot
            rw [Bool.not_eq_true] at hCannot
            exact hNobody ⟨peer, Or.inr hCannot⟩
          rw [Bool.not_eq_false] at hStop
          simp [hStop, stillServed, hCan] at hOne

/- Every run settles the streams that it ends. -/
theorem relayLoop_settles
    (polls : List PollEvent)
    {st : Relay}
    {t : List Event}
    (hRunning : Running t st) :
    let out := relayLoop polls st
    ∃ u, Passage st.w u out.2.w ∧
      StreamsSettled (t ++ u) out.2 ∧
      (out.1 = some 1 →
        ∃ src, out.2.con.fd src < 0 ∨
          out.2.canWrite src = false) := by
  induction polls generalizing st t with
  | nil =>
      refine ⟨[], Passage.refl _, ?_, by simp [relayLoop]⟩
      rw [List.append_nil]
      exact hRunning.settled
  | cons poll polls ih =>
      cases poll with
      | failed e =>
          have hSame :
              Running t
                { st with w := { st.w with errno := e } } :=
            ⟨hRunning.openFd, hRunning.delivered,
              hRunning.continues⟩
          rw [relayLoop]
          split
          · rcases ih hSame with ⟨u, hPassage, hRest⟩
            exact ⟨u, ⟨hPassage.trace, hPassage.dialings,
              hPassage.pending⟩, hRest⟩
          · have hPassage := Passage.refl st.w
            refine ⟨[], ⟨hPassage.trace, rfl,
              hPassage.pending⟩, ?_, by simp⟩
            rw [List.append_nil]
            exact hSame.settled
      | ready revents =>
          rcases relayRound_settles revents hRunning with
            ⟨u, hPassage, hSettled, hGoes, hEnd⟩
          rcases hRound : relayRound revents st with
            ⟨rc, st'⟩
          rw [hRound] at hPassage hSettled hGoes hEnd
          rw [relayLoop, hRound]
          cases rc with
          | some rc => exact ⟨u, hPassage, hSettled, hEnd⟩
          | none =>
              rcases ih (hGoes rfl) with
                ⟨v, hPassage', hSettled', hEnd'⟩
              rw [List.append_assoc] at hSettled'
              exact ⟨u ++ v, hPassage.trans hPassage',
                hSettled', hEnd'⟩

/-
  Whatever poll() reports and however reads and writes go, a
  descriptor that the relay has closed is that of a peer
  whose whole stream was read, and was written to the other
  side unless this has hung up.  A relay that ends without an
  error has closed a descriptor or has met a hang-up.
-/
theorem shuttleDataBackAndForth_delivers
    (polls : List PollEvent)
    (con : ClientConnection)
    (w : World)
    (hOpen : ∀ peer, 0 ≤ con.fd peer) :
    let out := shuttleDataBackAndForth polls con w
    ∃ t, out.2.w.trace = w.trace ++ t ∧
      (∀ src, out.2.con.fd src < 0 →
        receivedFrom src t = (w.source src).pending ∧
          (sentTo src.other t = (w.source src).pending ∨
            HungUp polls src.other)) ∧
      (out.1 = some 1 →
        ∃ src, out.2.con.fd src < 0 ∨ HungUp polls src) := by
  intro out
  have hHungUp : ∀ src, out.2.canWrite src = false →
      HungUp polls src :=
    fun src hBlocked =>
      (relayLoop_hungUp hBlocked).resolve_left
        (by simp [Relay.start])
  have hRunning : Running [] (Relay.start con w) :=
    ⟨hOpen, fun _ => Or.inl rfl, rfl⟩
  rcases relayLoop_settles polls hRunning with
    ⟨t, hPassage, hSettled, hEnd⟩
  refine ⟨t, hPassage.trace, fun src hClosed => ?_,
    fun hOne => ?_⟩
  · rcases hSettled src hClosed with ⟨hEmpty, hDelivered⟩
    have hAll := hPassage.pending src
    rw [hEmpty, List.append_nil] at hAll
    refine ⟨hAll.symm, ?_⟩
    refine hDelivered.imp (fun hMoved => ?_) (hHungUp _)
    exact hMoved.trans hAll.symm
  · rcases hEnd hOne with ⟨src, hClosed | hBlocked⟩
    · exact ⟨src, Or.inl hClosed⟩
    · exact ⟨src, Or.inr (hHungUp src hBlocked)⟩

/- A client that has finished without sending anything. -/
theorem shuttleDataBackAndForth_delivers_clientDone :
    let out := shuttleDataBackAndForth [bothReadable]
      openConnection clientDone
    ∃ t, out.2.w.trace = clientDone.trace ++ t ∧
      (∀ src, out.2.con.fd src < 0 →
        receivedFrom src t =
            (clientDone.source src).pending ∧
          (sentTo src.other t =
              (clientDone.source src).pending ∨
            HungUp [bothReadable] src.other)) ∧
      (out.1 = some 1 →
        ∃ src, out.2.con.fd src < 0 ∨
          HungUp [bothReadable] src) := by
  refine shuttleDataBackAndForth_delivers [bothReadable]
    openConnection clientDone ?_
  intro peer
  cases peer <;> decide

------------------------------------------------------------
-- The Number of Iterations
------------------------------------------------------------

/- What the two peers have sent and nobody has read. -/
def Relay.backlog
    (st : Relay) : Nat :=
  (st.w.source .client).pending.length +
    (st.w.source .server).pending.length

theorem Revents.eq_none
    {revents : Revents}
    (hIdle : revents.rdnorm = false)
    (hHup : revents.hup = false)
    (hErr : revents.err = false)
    (hNval : revents.nval = false) :
    revents = Revents.none := by
  unfold Revents.none
  cases revents
  simp only [Revents.mk.injEq]
  exact ⟨hIdle, hHup, hErr, hNval⟩

/- A call of poll() that is made again. -/
def PollEvent.interrupted : PollEvent → Bool
  | .failed e => e = EINTR
  | .ready _ => false

/- Without a timeout, poll() returns to report something. -/
def Flagged
    (polls : List PollEvent) : Prop :=
  ∀ revents, .ready revents ∈ polls →
    ∃ peer, revents peer ≠ Revents.none

theorem Passage.pending_length_le
    {w w' : World}
    {t : List Event}
    (hPassage : Passage w t w')
    (peer : Peer) :
    (w'.source peer).pending.length ≤
      (w.source peer).pending.length := by
  rw [hPassage.pending peer, List.length_append]
  exact Nat.le_add_left _ _

/- A positive return value stands for bytes that were read. -/
theorem shuttle_takes
    {con con' : ClientConnection}
    {w w' : World}
    {fdRead : Peer}
    {fdWrite rc : Int}
    (hRun : shuttle con w fdRead fdWrite = (rc, con', w'))
    (hPos : 0 < rc) :
    (w'.source fdRead).pending.length <
      (w.source fdRead).pending.length := by
  rcases shuttle_outcome con w fdRead fdWrite with
    ⟨got, put, hTrace, _, hOutcome⟩
  rcases shuttle_passage con w fdRead fdWrite with
    ⟨t, hPassage⟩
  rw [hRun] at hTrace hOutcome hPassage
  dsimp only at hTrace hOutcome hPassage
  have hEvents :
      t = got.map (.received fdRead) ++
        put.map (.sent fdRead.other) := by
    rw [List.append_assoc] at hTrace
    exact List.append_cancel_left
      (hPassage.trace.symm.trans hTrace)
  have hGotten : receivedFrom fdRead t = got.flatten := by
    simp [hEvents]
  have hPending := hPassage.pending fdRead
  rw [hGotten] at hPending
  have hNe : got.flatten ≠ [] := by
    generalize got.flatten = gotBytes at *
    generalize put.flatten = putBytes at *
    cases hOutcome with
    | ended => omega
    | readFailed => omega
    | drained _ hNe _ => exact hNe
    | forwarded _ hNe _ => exact hNe
    | writeFailed => omega
  have hLength := List.length_pos_iff.mpr hNe
  rw [hPending, List.length_append]
  omega

/- A side that was served without an end has sent less. -/
theorem relayHalf_progress
    {peer : Peer}
    {revents : Revents}
    {st st' : Relay}
    (hHalf : relayHalf peer revents st = (true, st'))
    (hReady : revents.rdnorm = true)
    (hGoes : st'.continueLoop = true) :
    (st'.w.source peer).pending.length <
      (st.w.source peer).pending.length := by
  rcases hRun : shuttle st.con st.w peer
      (st.writeFd peer.other) with
    ⟨rc, con', w'⟩
  unfold relayHalf at hHalf
  rw [if_pos hReady, hRun] at hHalf
  dsimp only at hHalf
  split at hHalf
  · exact nomatch congrArg Prod.fst hHalf
  split at hHalf
  · rw [← show _ = st' from congrArg Prod.snd hHalf] at hGoes
    contradiction
  · rw [← show _ = st' from congrArg Prod.snd hHalf]
    exact shuttle_takes hRun (by omega)

/- An iteration goes on without an error flag only. -/
theorem relayRound_unflagged
    {revents : Peer → Revents}
    {st : Relay}
    (hNone : (relayRound revents st).1 = none)
    (peer : Peer) :
    (pollFlags revents st peer).err = false ∧
      (pollFlags revents st peer).nval = false := by
  unfold relayRound at hNone
  dsimp only at hNone
  split at hNone
  · contradiction
  split at hNone
  · contradiction
  · rename_i hClient hServer
    simp only [Bool.or_eq_true, not_or,
      Bool.not_eq_true] at hClient hServer
    cases peer with
    | client => exact hClient
    | server => exact hServer

/-
  An iteration after which the loop goes on has read
  something from each peer that poll() has reported.
-/
theorem relayRound_progress
    {revents : Peer → Revents}
    {st st' : Relay}
    (hOpen : ∀ peer, 0 ≤ st.con.fd peer)
    (hFlagged : ∃ peer, revents peer ≠ Revents.none)
    (hRound : relayRound revents st = (none, st')) :
    st'.backlog < st.backlog := by
  have hUnflagged := relayRound_unflagged
    (congrArg Prod.fst hRound)
  have hCanWrite := relayRound_canWrite revents st
  rw [hRound] at hCanWrite
  have hFlags : pollFlags revents st = revents := by
    funext peer
    have hFd := hOpen peer
    unfold pollFlags Revents.on
    rw [if_neg (by omega)]
  have hOutcome := relayRound_outcome revents st
  rw [hRound] at hOutcome
  generalize hOut : (none, st') = out at hOutcome
  cases hOutcome with
  | flagged => exact nomatch congrArg Prod.fst hOut
  | clientFailed => exact nomatch congrArg Prod.fst hOut
  | serverFailed => exact nomatch congrArg Prod.fst hOut
  | @served st₁ st₂ hClient hServer =>
      have hLast : st' = st₂ := congrArg Prod.snd hOut
      subst hLast
      have hServed :
          st'.continueLoop = true ∧
            ∀ peer, stillServed revents st' peer := by
        have hGoes := congrArg Prod.fst hOut
        rw [hFlags] at hGoes
        dsimp only at hGoes
        split at hGoes
        · rename_i hAll
          refine ⟨hAll.1, fun peer => ?_⟩
          cases peer with
          | client => exact hAll.2.1
          | server => exact hAll.2.2
        · contradiction
      have hGoes₁ : st₁.continueLoop = true := by
        by_contra hStop
        rw [Bool.not_eq_true] at hStop
        have hDone := relayHalf_continueLoop hServer hStop
        rw [hServed.1] at hDone
        contradiction
      rw [hFlags] at hClient hServer hUnflagged hCanWrite
      rcases hFlagged with ⟨peer, hNe⟩
      -- Whoever is reported and still served is readable.
      have hReady : (revents peer).rdnorm = true := by
        by_contra hIdle
        rw [Bool.not_eq_true] at hIdle
        have hStill := hServed.2 peer
        unfold stillServed at hStill
        rw [hIdle, Bool.or_false, hCanWrite] at hStill
        change (st.canWrite peer && !(revents peer).hup) =
          true at hStill
        rw [Bool.and_eq_true, Bool.not_eq_true'] at hStill
        rcases hUnflagged peer with ⟨hErr, hNval⟩
        exact hNe (Revents.eq_none hIdle hStill.2 hErr hNval)
      rcases relayHalf_passage .client (revents .client)
          (noteHangups revents st) with
        ⟨t, hFirst⟩
      rcases relayHalf_passage .server (revents .server) st₁
        with ⟨u, hSecond⟩
      rw [hClient] at hFirst
      rw [hServer] at hSecond
      have hLe₁ := fun q => hFirst.pending_length_le q
      have hLe₂ := fun q => hSecond.pending_length_le q
      change ∀ q, (st₁.w.source q).pending.length ≤
        (st.w.source q).pending.length at hLe₁
      change ∀ q, (st'.w.source q).pending.length ≤
        (st₁.w.source q).pending.length at hLe₂
      have hClientLe := hLe₁ .client
      have hServerLe := hLe₁ .server
      have hClientLe' := hLe₂ .client
      have hServerLe' := hLe₂ .server
      unfold Relay.backlog
      cases peer with
      | client =>
          have hLess :=
            relayHalf_progress hClient hReady hGoes₁
          change _ < (st.w.source .client).pending.length
            at hLess
          omega
      | server =>
          have hLess :=
            relayHalf_progress hServer hReady hServed.1
          omega

/-
  The loop returns within as many calls of poll() as there
  are bytes to read, and one more, not counting those that
  were interrupted.
-/
theorem relayLoop_returns
    {polls : List PollEvent}
    {st : Relay}
    {t : List Event}
    (hRunning : Running t st)
    (hFlagged : Flagged polls)
    (hLong :
      st.backlog <
        (polls.filter (!·.interrupted)).length) :
    ∃ rc, (relayLoop polls st).1 = some rc := by
  induction polls generalizing st t with
  | nil => simp at hLong
  | cons poll polls ih =>
      have hFlagged' : Flagged polls := fun revents hMem =>
        hFlagged revents (List.mem_cons_of_mem _ hMem)
      cases poll with
      | failed e =>
          rw [relayLoop]
          by_cases hIntr : e = EINTR
          · rw [if_pos hIntr]
            have hSame :
                Running t
                  { st with w := { st.w with errno := e } } :=
              ⟨hRunning.openFd, hRunning.delivered,
                hRunning.continues⟩
            apply ih hSame hFlagged'
            have hCall :
                (!(PollEvent.failed e).interrupted) =
                  false := by
              simp [PollEvent.interrupted, hIntr]
            rw [List.filter_cons, hCall] at hLong
            exact hLong
          · rw [if_neg hIntr]
            exact ⟨0, rfl⟩
      | ready revents =>
          rw [relayLoop]
          rcases hRound : relayRound revents st with
            ⟨rc, st'⟩
          cases rc with
          | some rc => exact ⟨rc, rfl⟩
          | none =>
              have hLess := relayRound_progress
                hRunning.openFd
                (hFlagged revents List.mem_cons_self) hRound
              rcases relayRound_settles revents hRunning with
                ⟨u, _, _, hGoes, _⟩
              rw [hRound] at hGoes
              apply ih (hGoes rfl) hFlagged'
              have hCall :
                  (!(PollEvent.ready revents).interrupted) =
                    true := rfl
              rw [List.filter_cons, hCall, if_pos rfl,
                List.length_cons] at hLong
              change st'.backlog < st.backlog at hLess
              change st'.backlog < _
              omega

/-
  As long as every call of poll() that succeeds reports one
  of the two descriptors, the relay does not outlast what is
  there to be read: it returns within as many calls as there
  are unread bytes, and one more.
-/
theorem shuttleDataBackAndForth_returns
    (polls : List PollEvent)
    (con : ClientConnection)
    (w : World)
    (hOpen : ∀ peer, 0 ≤ con.fd peer)
    (hFlagged : Flagged polls)
    (hLong :
      (w.source .client).pending.length +
          (w.source .server).pending.length <
        (polls.filter (!·.interrupted)).length) :
    ∃ rc,
      (shuttleDataBackAndForth polls con w).1 = some rc :=
  relayLoop_returns
    (t := [])
    ⟨hOpen, fun _ => Or.inl rfl, rfl⟩ hFlagged hLong

/- One byte takes at most two calls. -/
theorem shuttleDataBackAndForth_returns_clientDone :
    ∃ rc,
      (shuttleDataBackAndForth [bothReadable, bothReadable]
          openConnection clientDone).1 = some rc := by
  refine shuttleDataBackAndForth_returns
    [bothReadable, bothReadable] openConnection clientDone
    ?_ ?_ (by decide)
  · intro peer
    cases peer <;> decide
  · intro revents hMem
    simp only [bothReadable, List.mem_cons,
      PollEvent.ready.injEq, List.not_mem_nil,
      or_false, or_self] at hMem
    exact ⟨.client, by rw [hMem]; decide⟩

end SmartSOCKSProxy
