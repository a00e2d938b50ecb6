import SmartSOCKSProxy.Relay.Integrity

/-
  When a clean relay loses nothing.

  A run without hang-ups and errors keeps a balance: all that
  was read was written, and the counters tell how much.  The
  balance is lost by an iteration that ends the client's
  stream and then drains data of the server, and by no other.

  Key definitions include:
    * `Balanced`, `Loses`, `iterations`

  Key theorems include:
    * `relayHalf_balanced`, `relayHalf_drains`
    * `relayRound_balanced`
    * `shuttleDataBackAndForth_balanced_iff`
-/

namespace SmartSOCKSProxy

------------------------------------------------------------
-- Balance
------------------------------------------------------------

/-
  All that was read was written, and the counters have grown
  by what was written.
-/
structure Balanced
    (start : ClientConnection)
    (t : List Event)
    (con : ClientConnection) : Prop where
  moved : ∀ src, sentTo src.other t = receivedFrom src t
  counted : ∀ src,
    con.relayed src =
      start.relayed src +
        UInt64.ofNat (sentTo src.other t).length

/- Neither poll flag that ends or blocks a relay. -/
def Revents.Clean
    (revents : Revents) : Prop :=
  revents.hup = false ∧ revents.err = false ∧
    revents.nval = false

/- Both peers can be written to. -/
def Relay.Open
    (st : Relay) : Prop :=
  ∀ peer, 0 ≤ st.writeFd peer

/-
  Both descriptors are readable, the client has nothing more
  to say, and the server has.
-/
def Loses
    (revents : Peer → Revents)
    (st : Relay) : Prop :=
  (∀ peer, (revents peer).rdnorm = true) ∧
    (st.w.source .client).pending = [] ∧
    (st.w.source .server).pending ≠ []

/- The flags and the state at the start of each iteration. -/
def iterations :
    List PollEvent → Relay →
      List ((Peer → Revents) × Relay)
  | [], _ => []
  | .failed e :: polls, st =>
      if e = EINTR then
        iterations polls
          { st with w := { st.w with errno := e } }
      else []
  | .ready revents :: polls, st =>
      (revents, st) ::
        match relayRound revents st with
        | (some _, _) => []
        | (none, st) => iterations polls st

------------------------------------------------------------
-- Half an Iteration
------------------------------------------------------------

theorem relayed_forgetFd
    (con : ClientConnection)
    (peer : Peer) :
    (con.forgetFd peer).relayed = con.relayed := by
  funext q
  cases peer <;> cases q <;> rfl

theorem relayed_count
    (con : ClientConnection)
    (n : Nat)
    (peer q : Peer) :
    (con.count n peer).relayed q =
      con.relayed q +
        if peer = q then UInt64.ofNat n else 0 := by
  have hOf : UInt64.ofInt (n : Int) = UInt64.ofNat n := by
    apply UInt64.toNat_inj.mp
    rw [UInt64.ofInt, UInt64.toNat_ofNat',
      UInt64.toNat_ofNat']
    omega
  cases peer <;> cases q <;>
    simp [ClientConnection.count,
      ClientConnection.relayed, hOf]

/- Moving all of what was read keeps the balance. -/
theorem Balanced.append_halfEvents
    {start con con' : ClientConnection}
    {t : List Event}
    {peer : Peer}
    {got put : List (List UInt8)}
    (hBalanced : Balanced start t con)
    (hPut : put.flatten = got.flatten)
    (hCounted : ∀ q,
      con'.relayed q =
        con.relayed q +
          if peer = q then UInt64.ofNat got.flatten.length
          else 0)
    (closing : List Int) :
    Balanced start
      (t ++ halfEvents peer got put closing) con' := by
  constructor
  · intro src
    rw [sentTo_append, receivedFrom_append,
      sentTo_halfEvents, receivedFrom_halfEvents,
      hBalanced.moved src, hPut]
    rcases Peer.eq_or_eq_other peer src with rfl | rfl
    · simp
    · simp
  · intro src
    rw [hCounted, hBalanced.counted src, sentTo_append,
      sentTo_halfEvents, hPut, List.length_append,
      UInt64.ofNat_add, UInt64.add_assoc]
    congr 2
    rcases Peer.eq_or_eq_other peer src with rfl | rfl
    · simp
    · simp

/-
  Half an iteration keeps the balance, unless it has data to
  drain.  The descriptors stay, unless a stream has ended.
-/
theorem relayHalf_balanced
    {start : ClientConnection}
    {t : List Event}
    {peer : Peer}
    {revents : Revents}
    {st st' : Relay}
    (hHalf : relayHalf peer revents st = (true, st'))
    (hBalanced : Balanced start t st.con)
    (hKeeps :
      0 ≤ st.writeFd peer.other ∨
        revents.rdnorm = false ∨
        (st.w.source peer).pending = []) :
    (∃ u, st'.w.trace = st.w.trace ++ u ∧
      Balanced start (t ++ u) st'.con) ∧
    (∀ q ≠ peer, st'.w.source q = st.w.source q) ∧
    ((∀ q, st'.writeFd q = st.writeFd q) ∧
        st'.continueLoop = st.continueLoop ∧
        (revents.rdnorm = false ∨
          (st.w.source peer).pending ≠ []) ∨
      (∀ q, st'.writeFd q =
          if q = peer then -1 else st.writeFd q) ∧
        st'.continueLoop = false ∧
        revents.rdnorm = true ∧
        (st.w.source peer).pending = []) := by
  rcases relayHalf_outcome peer revents st with
    ⟨got, put, closing, hTrace, hSource, hCanWrite,
      hOutcome⟩
  rw [hHalf] at hTrace hSource hCanWrite hOutcome
  dsimp only at hTrace hSource hCanWrite hOutcome
  have hFds :
      st'.con.fd = st.con.fd →
        ∀ q, st'.writeFd q = st.writeFd q :=
    fun hFd q => Relay.writeFd_congr hCanWrite
      (congrFun hFd q)
  have hMoved :
      put.flatten = got.flatten →
      (∀ q, st'.con.relayed q =
        st.con.relayed q +
          if peer = q then UInt64.ofNat got.flatten.length
          else 0) →
      ∃ u, st'.w.trace = st.w.trace ++ u ∧
        Balanced start (t ++ u) st'.con :=
    fun hPut hCounted => ⟨_, hTrace,
      hBalanced.append_halfEvents hPut hCounted closing⟩
  generalize hCon : st'.con = con' at *
  generalize hFlag : st'.continueLoop = flag at *
  generalize hGot : got.flatten = gotBytes at *
  generalize hPut : put.flatten = putBytes at *
  cases hOutcome with
  | skipped hIdle =>
      exact ⟨hMoved rfl (by simp), hSource,
        Or.inl ⟨hFds rfl, rfl, Or.inl hIdle⟩⟩
  | ended hReady hEnd =>
      refine ⟨hMoved rfl ?_, hSource, Or.inr
        ⟨Relay.writeFd_forgetFd hCanWrite hCon, rfl,
          hReady, hEnd⟩⟩
      intro q
      simp [relayed_forgetFd]
  | drained hReady hMore hNe hWrite =>
      rcases hKeeps with hOpen | hIdle | hEnd
      · omega
      · rw [hReady] at hIdle
        contradiction
      · exact absurd hEnd hMore
  | forwarded hMore hWrite =>
      exact ⟨hMoved rfl (relayed_count _ _ _), hSource,
        Or.inl ⟨hFds (fd_count _ _ _), rfl,
          Or.inr hMore⟩⟩

/- Data that is drained is lost for good. -/
theorem relayHalf_drains
    {start : ClientConnection}
    {t : List Event}
    {peer : Peer}
    {revents : Revents}
    {st st' : Relay}
    (hHalf : relayHalf peer revents st = (true, st'))
    (hBalanced : Balanced start t st.con)
    (hBlocked : st.writeFd peer.other < 0)
    (hReady : revents.rdnorm = true)
    (hMore : (st.w.source peer).pending ≠ []) :
    ∃ u, st'.w.trace = st.w.trace ++ u ∧
      sentTo peer.other (t ++ u) ≠
        receivedFrom peer (t ++ u) := by
  rcases relayHalf_outcome peer revents st with
    ⟨got, put, closing, hTrace, _, _, hOutcome⟩
  rw [hHalf] at hTrace hOutcome
  dsimp only at hTrace hOutcome
  refine ⟨_, hTrace, ?_⟩
  rw [sentTo_append, receivedFrom_append,
    sentTo_halfEvents, receivedFrom_halfEvents,
    hBalanced.moved peer]
  generalize hCon : st'.con = con' at *
  generalize hFlag : st'.continueLoop = flag at *
  generalize hGot : got.flatten = gotBytes at *
  generalize hPut : put.flatten = putBytes at *
  cases hOutcome with
  | skipped hIdle =>
      rw [hReady] at hIdle
      contradiction
  | ended _ hEnd => exact absurd hEnd hMore
  | drained _ _ hNe _ => simpa using hNe.symm
  | forwarded _ hWrite => omega

/- Once the loop is to end, it stays so. -/
theorem relayHalf_continueLoop
    {peer : Peer}
    {revents : Revents}
    {st : Relay}
    {out : Bool × Relay}
    (hHalf : relayHalf peer revents st = out)
    (hDone : st.continueLoop = false) :
    out.2.continueLoop = false := by
  rcases relayHalf_outcome peer revents st with
    ⟨got, put, _, _, _, _, hOutcome⟩
  rw [hHalf] at hOutcome
  generalize out.2.continueLoop = flag at *
  generalize out.2.con = con' at *
  generalize out.1 = go at *
  generalize got.flatten = gotBytes at *
  generalize put.flatten = putBytes at *
  cases hOutcome with
  | ended => rfl
  | skipped => exact hDone
  | drained => exact hDone
  | forwarded => exact hDone
  | failed => exact hDone

------------------------------------------------------------
-- One Iteration
------------------------------------------------------------

theorem pollFlags_of_open
    {revents : Peer → Revents}
    {st : Relay}
    (hOpen : st.Open) :
    pollFlags revents st = revents := by
  funext peer
  have hWrite := hOpen peer
  unfold Relay.writeFd at hWrite
  unfold pollFlags Revents.on
  split at hWrite
  · rw [if_neg (by omega)]
  · omega

theorem Relay.Open.noteHangups
    {revents : Peer → Revents}
    {st : Relay}
    (hOpen : st.Open)
    (hClean : ∀ peer, (revents peer).Clean) :
    (noteHangups revents st).Open := by
  intro peer
  rw [Relay.writeFd_noteHangups, (hClean peer).1]
  exact hOpen peer

/-
  A clean iteration whose client side is served: the balance
  holds, and the client's stream has ended or nothing changed.
-/
structure ClientServed
    (start : ClientConnection)
    (t : List Event)
    (revents : Peer → Revents)
    (st st₁ : Relay)
    (u : List Event) : Prop where
  trace : st₁.w.trace = st.w.trace ++ u
  balanced : Balanced start (t ++ u) st₁.con
  source : st₁.w.source .server = st.w.source .server
  outcome :
    (st₁.Open ∧
        ((revents .client).rdnorm = false ∨
          (st.w.source .client).pending ≠ [])) ∨
      (st₁.writeFd .client < 0 ∧
        st₁.continueLoop = false ∧
        (revents .client).rdnorm = true ∧
        (st.w.source .client).pending = [])

theorem clientServed_of_relayHalf
    {start : ClientConnection}
    {t : List Event}
    {revents : Peer → Revents}
    {st st₁ : Relay}
    (hBalanced : Balanced start t st.con)
    (hOpen : st.Open)
    (hClean : ∀ peer, (revents peer).Clean)
    (hClient :
      relayHalf .client (revents .client)
          (noteHangups revents st) =
        (true, st₁)) :
    ∃ u, ClientServed start t revents st st₁ u := by
  have hOpen₀ := hOpen.noteHangups hClean
  have hNoted :
      Balanced start t (noteHangups revents st).con :=
    hBalanced
  rcases relayHalf_balanced hClient hNoted
      (Or.inl (hOpen₀ Peer.client.other)) with
    ⟨⟨u, hTrace, hBalanced₁⟩, hSource, hFds⟩
  refine ⟨u, hTrace, hBalanced₁,
    hSource .server (by decide), ?_⟩
  rcases hFds with ⟨hSame, _, hQuiet⟩ |
    ⟨hClosed, hFlag, hReady, hEnd⟩
  · refine Or.inl ⟨fun peer => ?_, hQuiet⟩
    rw [hSame]
    exact hOpen₀ peer
  · refine Or.inr ⟨?_, hFlag, hReady, hEnd⟩
    have hNow := hClosed Peer.client
    rw [if_pos rfl] at hNow
    exact lt_of_eq_of_lt hNow (by decide)

/- Unless data is lost, serving the server keeps the balance. -/
theorem ClientServed.keeps
    {start : ClientConnection}
    {t u : List Event}
    {revents : Peer → Revents}
    {st st₁ st₂ : Relay}
    (hServed : ClientServed start t revents st st₁ u)
    (hServer :
      relayHalf .server (revents .server) st₁ = (true, st₂))
    (hKept : ¬ Loses revents st) :
    ∃ v, st₂.w.trace = st₁.w.trace ++ v ∧
      Balanced start (t ++ u ++ v) st₂.con ∧
      (st₂.continueLoop = true → st₂.Open) := by
  have hKeeps :
      0 ≤ st₁.writeFd Peer.server.other ∨
        (revents .server).rdnorm = false ∨
        (st₁.w.source .server).pending = [] := by
    rcases hServed.outcome with ⟨hOpen₁, _⟩ |
      ⟨_, _, hReady, hEnd⟩
    · exact Or.inl (hOpen₁ _)
    · right
      rw [hServed.source]
      by_contra hBoth
      rw [not_or, Bool.not_eq_false] at hBoth
      refine hKept ⟨?_, hEnd, hBoth.2⟩
      intro peer
      cases peer with
      | client => exact hReady
      | server => exact hBoth.1
  rcases relayHalf_balanced hServer hServed.balanced
      hKeeps with
    ⟨⟨v, hTrace, hBalanced₂⟩, _, hFds⟩
  refine ⟨v, hTrace, hBalanced₂, fun hMore => ?_⟩
  rcases hFds with ⟨hSame, hFlag', _⟩ | ⟨_, hFlag', _⟩
  · rcases hServed.outcome with ⟨hOpen₁, _⟩ | ⟨_, hFlag, _⟩
    · intro peer
      rw [hSame]
      exact hOpen₁ peer
    · rw [hFlag', hFlag] at hMore
      contradiction
  · rw [hFlag'] at hMore
    contradiction

/- Data of the server behind the client's end is drained. -/
theorem ClientServed.drains
    {start : ClientConnection}
    {t u : List Event}
    {revents : Peer → Revents}
    {st st₁ st₂ : Relay}
    (hServed : ClientServed start t revents st st₁ u)
    (hServer :
      relayHalf .server (revents .server) st₁ = (true, st₂))
    (hLoses : Loses revents st) :
    st₂.continueLoop = false ∧
      ∃ v, st₂.w.trace = st₁.w.trace ++ v ∧
        sentTo .client (t ++ u ++ v) ≠
          receivedFrom .server (t ++ u ++ v) := by
  rcases hLoses with ⟨hReady, hEnd, hMore⟩
  rcases hServed.outcome with ⟨_, hIdle | hNotEnd⟩ |
    ⟨hBlocked, hFlag, _⟩
  · rw [hReady] at hIdle
    contradiction
  · exact absurd hEnd hNotEnd
  · exact ⟨relayHalf_continueLoop hServer hFlag,
      relayHalf_drains hServer hServed.balanced hBlocked
        (hReady .server) (by rw [hServed.source]; exact hMore)⟩

/-
  A clean iteration that does not fail keeps the balance and
  the descriptors that a next iteration needs, unless it is
  one that loses data, which is the last one.
-/
theorem relayRound_balanced
    {start : ClientConnection}
    {t : List Event}
    {revents : Peer → Revents}
    {st : Relay}
    (hBalanced : Balanced start t st.con)
    (hOpen : st.Open)
    (hClean : ∀ peer, (revents peer).Clean)
    (hOkay : (relayRound revents st).1 ≠ some 0) :
    (¬ Loses revents st →
      ∃ u,
        (relayRound revents st).2.w.trace =
          st.w.trace ++ u ∧
        Balanced start (t ++ u)
          (relayRound revents st).2.con ∧
        ((relayRound revents st).1 = none →
          (relayRound revents st).2.Open)) ∧
    (Loses revents st →
      (relayRound revents st).1 = some 1 ∧
      ∃ u,
        (relayRound revents st).2.w.trace =
          st.w.trace ++ u ∧
        sentTo .client (t ++ u) ≠
          receivedFrom .server (t ++ u)) := by
  have hFlags : pollFlags revents st = revents :=
    pollFlags_of_open hOpen
  have hOutcome := relayRound_outcome revents st
  generalize relayRound revents st = out at *
  cases hOutcome with
  | flagged => exact absurd rfl hOkay
  | clientFailed => exact absurd rfl hOkay
  | serverFailed => exact absurd rfl hOkay
  | @served st₁ st₂ hClient hServer =>
      rw [hFlags] at hClient hServer ⊢
      rcases clientServed_of_relayHalf hBalanced hOpen hClean
          hClient with ⟨u, hServed⟩
      have hChain :
          ∀ v, st₂.w.trace = st₁.w.trace ++ v →
            st₂.w.trace = st.w.trace ++ (u ++ v) := by
        intro v hTrace
        rw [hTrace, hServed.trace, List.append_assoc]
      constructor
      · intro hKept
        rcases hServed.keeps hServer hKept with
          ⟨v, hTrace, hBalanced₂, hOpen₂⟩
        rw [List.append_assoc] at hBalanced₂
        refine ⟨u ++ v, hChain v hTrace, hBalanced₂, ?_⟩
        intro hNone
        apply hOpen₂
        by_contra hDone
        simp [hDone] at hNone
      · intro hLoses
        rcases hServed.drains hServer hLoses with
          ⟨hFlag, v, hTrace, hLost⟩
        rw [List.append_assoc] at hLost
        exact ⟨by simp [hFlag], u ++ v, hChain v hTrace,
          hLost⟩

------------------------------------------------------------
-- Whole Runs
------------------------------------------------------------

/-
  A clean run that returns 1 keeps the balance when none of
  its iterations loses data; one that does has lost data.
-/
theorem relayLoop_balanced
    {start : ClientConnection}
    (polls : List PollEvent)
    {t : List Event}
    {st : Relay}
    (hBalanced : Balanced start t st.con)
    (hOpen : st.Open)
    (hClean : ∀ revents, .ready revents ∈ polls →
      ∀ peer, (revents peer).Clean)
    (hReturns : (relayLoop polls st).1 = some 1) :
    ((∀ it ∈ iterations polls st, ¬ Loses it.1 it.2) →
      ∃ u,
        (relayLoop polls st).2.w.trace =
          st.w.trace ++ u ∧
        Balanced start (t ++ u)
          (relayLoop polls st).2.con) ∧
    ((∃ it ∈ iterations polls st, Loses it.1 it.2) →
      ∃ u,
        (relayLoop polls st).2.w.trace =
          st.w.trace ++ u ∧
        sentTo .client (t ++ u) ≠
          receivedFrom .server (t ++ u)) := by
  induction polls generalizing t st with
  | nil => simp [relayLoop] at hReturns
  | cons poll polls ih =>
      have hCleanRest :
          ∀ revents, .ready revents ∈ polls →
            ∀ peer, (revents peer).Clean :=
        fun revents hMem =>
          hClean revents (List.mem_cons_of_mem _ hMem)
      cases poll with
      | failed e =>
          rw [relayLoop] at hReturns ⊢
          rw [iterations]
          by_cases hIntr : e = EINTR
          · simp only [hIntr, if_true] at hReturns ⊢
            exact ih hBalanced hOpen hCleanRest hReturns
          · simp [hIntr] at hReturns
      | ready revents =>
          rw [relayLoop] at hReturns ⊢
          rw [iterations]
          have hRound := relayRound_balanced hBalanced
            hOpen (hClean revents List.mem_cons_self)
          rcases hOut : relayRound revents st with
            ⟨rc, st'⟩
          rw [hOut] at hRound hReturns
          dsimp only at hRound ⊢
          cases rc with
          | some rc =>
              have hOne : rc = 1 := by
                simpa using hReturns
              subst hOne
              have hCases := hRound (by decide)
              simp only [List.mem_singleton, forall_eq,
                exists_eq_left]
              constructor
              · intro hKept
                rcases hCases.1 hKept with
                  ⟨u, hTrace, hDone, _⟩
                exact ⟨u, hTrace, hDone⟩
              · intro hLoses
                exact (hCases.2 hLoses).2
          | none =>
              have hCases := hRound (by decide)
              have hKept : ¬ Loses revents st := by
                intro hLoses
                have hOne := (hCases.2 hLoses).1
                simp at hOne
              rcases hCases.1 hKept with
                ⟨u, hTrace, hBalanced', hOpen'⟩
              have hRest := ih hBalanced' (hOpen' rfl)
                hCleanRest hReturns
              simp only [List.forall_mem_cons,
                List.exists_mem_cons_iff, hKept,
                not_false_eq_true, true_and, false_or]
              refine ⟨fun hAll => ?_, fun hSome => ?_⟩
              · rcases hRest.1 hAll with
                  ⟨v, hTrace', hDone⟩
                refine ⟨u ++ v, ?_, ?_⟩
                · rw [hTrace', hTrace, List.append_assoc]
                · rwa [← List.append_assoc]
              · rcases hRest.2 hSome with
                  ⟨v, hTrace', hLost⟩
                refine ⟨u ++ v, ?_, ?_⟩
                · rw [hTrace', hTrace, List.append_assoc]
                · rwa [← List.append_assoc]

/-
  In a clean run that returns 1, everything read from either
  side was written to the other and counted, if and only if
  no iteration ends the client's stream while the server's
  data is waiting.
-/
theorem shuttleDataBackAndForth_balanced_iff
    (polls : List PollEvent)
    (con : ClientConnection)
    (w : World)
    (hOpen : 0 ≤ con.fdIn ∧ 0 ≤ con.fdOut)
    (hClean : ∀ revents, .ready revents ∈ polls →
      ∀ peer, (revents peer).Clean)
    (hReturns :
      (shuttleDataBackAndForth polls con w).1 = some 1) :
    (∃ t,
      (shuttleDataBackAndForth polls con w).2.w.trace =
          w.trace ++ t ∧
        sentTo .server t = receivedFrom .client t ∧
        sentTo .client t = receivedFrom .server t ∧
        (shuttleDataBackAndForth polls con
            w).2.con.bytesTx =
          con.bytesTx +
            UInt64.ofNat (sentTo .server t).length ∧
        (shuttleDataBackAndForth polls con
            w).2.con.bytesRx =
          con.bytesRx +
            UInt64.ofNat (sentTo .client t).length) ↔
      ∀ it ∈ iterations polls (Relay.start con w),
        ¬ Loses it.1 it.2 := by
  have hStart :
      Balanced con [] (Relay.start con w).con := by
    constructor
    · intro src
      rfl
    · intro src
      simp [Relay.start]
  have hOpenStart : (Relay.start con w).Open := by
    intro peer
    cases peer with
    | client => exact hOpen.1
    | server => exact hOpen.2
  have hRun := relayLoop_balanced polls hStart hOpenStart
    hClean hReturns
  have hTraces :
      ∀ u v,
        (shuttleDataBackAndForth polls con w).2.w.trace =
          w.trace ++ u →
        (shuttleDataBackAndForth polls con w).2.w.trace =
          w.trace ++ v → u = v :=
    fun u v hu hv =>
      List.append_cancel_left (hu.symm.trans hv)
  constructor
  · rintro ⟨t, hTrace, _, hBack, _⟩ it hMem hLoses
    rcases hRun.2 ⟨it, hMem, hLoses⟩ with
      ⟨u, hTrace', hLost⟩
    rw [List.nil_append,
      ← hTraces t u hTrace hTrace'] at hLost
    exact hLost hBack
  · intro hKept
    rcases hRun.1 hKept with ⟨u, hTrace, hDone⟩
    rw [List.nil_append] at hDone
    exact ⟨u, hTrace, hDone.moved .client,
      hDone.moved .server, hDone.counted .client,
      hDone.counted .server⟩

------------------------------------------------------------
-- A Relay That Loses Data
------------------------------------------------------------

/- Both descriptors are readable. -/
def bothReadable : PollEvent :=
  .ready fun _ => ⟨true, false, false, false⟩

/- A connection whose relay is about to start. -/
def openConnection : ClientConnection :=
  { (default : ClientConnection) with
    fdIn := 3
    fdOut := 4 }

/- The client has finished, the server still has a byte. -/
def clientDone : World :=
  { (default : World) with
    socks := fun peer =>
      match peer with
      | .client => ⟨⟨[], []⟩, ⟨[]⟩⟩
      | .server => ⟨⟨[65], []⟩, ⟨[]⟩⟩ }

/- The clean run that drops this byte. -/
theorem shuttleDataBackAndForth_clientDone :
    ¬ ∀ polls con w,
      0 ≤ con.fdIn ∧ 0 ≤ con.fdOut →
      (∀ revents, .ready revents ∈ polls →
        ∀ peer, (revents peer).Clean) →
      (shuttleDataBackAndForth polls con w).1 = some 1 →
      ∃ t,
        (shuttleDataBackAndForth polls con w).2.w.trace =
            w.trace ++ t ∧
          sentTo .server t = receivedFrom .client t ∧
          sentTo .client t = receivedFrom .server t ∧
          (shuttleDataBackAndForth polls con
              w).2.con.bytesTx =
            con.bytesTx +
              UInt64.ofNat (sentTo .server t).length ∧
          (shuttleDataBackAndForth polls con
              w).2.con.bytesRx =
            con.bytesRx +
              UInt64.ofNat (sentTo .client t).length := by
  intro hClaim
  have hClean :
      ∀ revents, .ready revents ∈ [bothReadable] →
        ∀ peer, (revents peer).Clean := by
    intro revents hMem peer
    cases List.mem_singleton.mp hMem
    exact ⟨rfl, rfl, rfl⟩
  rcases hClaim [bothReadable] openConnection clientDone
      (by decide) hClean (by decide) with
    ⟨t, hTrace, _, hBack, _⟩
  have hEvents :
      (shuttleDataBackAndForth [bothReadable]
          openConnection clientDone).2.w.trace =
        [.received .client [], .closed 3,
          .received .server [65]] := by
    decide
  rw [hEvents] at hTrace
  have hT : t = _ := hTrace.symm
  subst hT
  revert hBack
  decide

/- The balance of a run in which the server has finished. -/
theorem shuttleDataBackAndForth_balanced_serverDone :
    let w : World :=
      { (default : World) with
        socks := fun peer =>
          match peer with
          | .client => ⟨⟨[65], []⟩, ⟨[]⟩⟩
          | .server => ⟨⟨[], []⟩, ⟨[]⟩⟩ }
    (∃ t,
      (shuttleDataBackAndForth [bothReadable]
          openConnection w).2.w.trace = w.trace ++ t ∧
        sentTo .server t = receivedFrom .client t ∧
        sentTo .client t = receivedFrom .server t ∧
        (shuttleDataBackAndForth [bothReadable]
            openConnection w).2.con.bytesTx =
          openConnection.bytesTx +
            UInt64.ofNat (sentTo .server t).length ∧
        (shuttleDataBackAndForth [bothReadable]
            openConnection w).2.con.bytesRx =
          openConnection.bytesRx +
            UInt64.ofNat (sentTo .client t).length) ↔
      ∀ it ∈ iterations [bothReadable]
          (Relay.start openConnection w),
        ¬ Loses it.1 it.2 := by
  intro w
  refine shuttleDataBackAndForth_balanced_iff
    [bothReadable] openConnection w (by decide) ?_
    (by decide)
  intro revents hMem peer
  cases List.mem_singleton.mp hMem
  exact ⟨rfl, rfl, rfl⟩

end SmartSOCKSProxy
