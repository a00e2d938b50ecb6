import SmartSOCKSProxy.Foundations.Stores
import SmartSOCKSProxy.Relay.Shuttle

/-
  The stores of the relay into its buffer.

  A read fills the buffer from its start, and a zero is stored
  behind the data that is to be forwarded.  A read that fills
  the whole buffer leaves no room for the zero.

  Key definitions include:
    * `Fills`
    * `shuttleStores`, `relayStores`
    * `CallReached`

  Key theorems include:
    * `sbRead_fills_iff`
    * `shuttleStores_inside_iff`
    * `relayStores_inside_iff`
    * `relayStores_full`
-/

namespace SmartSOCKSProxy

------------------------------------------------------------
-- Full Reads
------------------------------------------------------------

/-
  The first read that is not interrupted delivers `n` bytes:
  as many are there, and the kernel returns them at once.
-/
def Fills
    (n : Nat)
    (pending : List UInt8) : List ReadEvent → Prop
  | [] => n ≤ pending.length
  | .deliver extra :: _ => n ≤ extra + 1 ∧ n ≤ pending.length
  | .fail e :: reads => e = EINTR ∧ Fills n pending reads

theorem sbReadLoop_fills_iff
    (fuel : Nat)
    (s : Source)
    {n : Nat}
    (hPos : 0 < n)
    (hFuel : s.reads.length < fuel) :
    (sbReadLoop fuel s n).data.length = n ↔
      Fills n s.pending s.reads := by
  induction fuel generalizing s with
  | zero => omega
  | succ fuel ih =>
      rcases s with ⟨pending, reads⟩
      rw [sbReadLoop]
      cases reads with
      | nil =>
          simp [Source.read, ReadRun.data, Fills]
      | cons event reads =>
          cases event with
          | deliver extra =>
              simp only [Source.read, ReadRun.data, Fills,
                List.flatten_singleton, List.length_take]
              omega
          | fail e =>
              simp only [Source.read, Fills]
              by_cases hIntr : e = EINTR
              · have hRest := ih ⟨pending, reads⟩
                  (by simpa using hFuel)
                simpa [hIntr] using hRest
              · simp only [if_neg hIntr, ReadRun.data,
                  List.flatten_nil, List.length_nil]
                constructor
                · omega
                · exact fun hFills => absurd hFills.1 hIntr

theorem sbRead_fills_iff
    (s : Source)
    {n : Nat}
    (hPos : 0 < n) :
    (sbRead s n).data.length = n ↔
      Fills n s.pending s.reads := by
  apply sbReadLoop_fills_iff _ s hPos
  unfold Source.budget
  split <;> omega

------------------------------------------------------------
-- One Call
------------------------------------------------------------

/-
  The stores of one call of shuttle() into `buf[10000]`: the
  data, and the zero behind it.
-/
def shuttleStores
    (w : World)
    (fdRead : Peer)
    (fdWrite : Int) : List Store :=
  let (readRc, data, _) := w.sbRead fdRead 10000
  storesAt 0 data ++
    if readRc ≤ 0 then []
    else if fdWrite < 0 then []
    else [(readRc.toNat, 0)]

/- They are inside, but for a full buffer to be forwarded. -/
theorem shuttleStores_inside_iff
    (w : World)
    (fdRead : Peer)
    (fdWrite : Int) :
    Inside 10000 (shuttleStores w fdRead fdWrite) ↔
      (0 ≤ fdWrite →
        ¬Fills 10000 (w.source fdRead).pending
          (w.source fdRead).reads) := by
  have hFills := sbRead_fills_iff (w.source fdRead)
    (n := 10000) (by decide)
  have hRoom :=
    (sbRead_takes (w.source fdRead) 10000).length_le
  have hOutcome := sbRead_outcome (w.source fdRead) 10000
  rw [← hFills]
  unfold shuttleStores World.sbRead
  generalize sbRead (w.source fdRead) 10000 = run
    at hRoom hOutcome ⊢
  dsimp only
  have hData : Inside 10000 (storesAt 0 run.data) :=
    (inside_storesAt_iff 0 run.data).mpr (by omega)
  rw [inside_append]
  rcases hOutcome with hRc | ⟨hRc, hNone, _⟩
  · by_cases hNil : run.rc ≤ 0
    · rw [if_pos hNil]
      simp only [hData, inside_nil, true_and, true_iff]
      omega
    · rw [if_neg hNil]
      by_cases hDrain : fdWrite < 0
      · rw [if_pos hDrain]
        simp only [hData, inside_nil, true_and, true_iff]
        omega
      · rw [if_neg hDrain]
        simp only [hData, inside_cons, inside_nil, true_and,
          and_true]
        omega
  · have hLength : run.data.length = 0 := by
      rw [hNone]
      rfl
    rw [if_pos (by omega)]
    simp only [hData, inside_nil, true_and, true_iff]
    omega

------------------------------------------------------------
-- Runs of the Relay
------------------------------------------------------------

/- The stores of half an iteration. -/
def halfStores
    (peer : Peer)
    (revents : Revents)
    (st : Relay) : List Store :=
  if revents.rdnorm then
    shuttleStores st.w peer (st.writeFd peer.other)
  else []

/- A descriptor in error ends the relay. -/
def inError
    (revents : Revents) : Bool :=
  revents.err || revents.nval

/- The stores of one iteration. -/
def roundStores
    (revents : Peer → Revents)
    (st : Relay) : List Store :=
  let revents := pollFlags revents st
  let st := noteHangups revents st
  if inError (revents .client) then []
  else if inError (revents .server) then []
  else
    halfStores .client (revents .client) st ++
      match relayHalf .client (revents .client) st with
      | (false, _) => []
      | (true, st) => halfStores .server (revents .server) st

/- The stores of all iterations. -/
def relayStores :
    List PollEvent → Relay → List Store
  | [], _ => []
  | .failed e :: polls, st =>
      let st := { st with w := { st.w with errno := e } }
      if e = EINTR then relayStores polls st else []
  | .ready revents :: polls, st =>
      roundStores revents st ++
        match relayRound revents st with
        | (some _, _) => []
        | (none, st) => relayStores polls st

/- An iteration calls shuttle() for a peer in a state. -/
inductive CallIn
    (revents : Peer → Revents)
    (st : Relay) : Peer → Relay → Prop
| client
    (hFine :
      ∀ peer, inError (pollFlags revents st peer) = false)
    (hReady : (pollFlags revents st .client).rdnorm = true) :
    CallIn revents st .client
      (noteHangups (pollFlags revents st) st)
| server
    {st' : Relay}
    (hFine :
      ∀ peer, inError (pollFlags revents st peer) = false)
    (hClient :
      relayHalf .client (pollFlags revents st .client)
        (noteHangups (pollFlags revents st) st) = (true, st'))
    (hReady : (pollFlags revents st .server).rdnorm = true) :
    CallIn revents st .server st'

/- A run calls shuttle() for a peer in a state. -/
inductive CallReached :
    List PollEvent → Relay → Peer → Relay → Prop
| here
    {revents : Peer → Revents}
    {polls : List PollEvent}
    {st st' : Relay}
    {peer : Peer}
    (hCall : CallIn revents st peer st') :
    CallReached (.ready revents :: polls) st peer st'
| interrupted
    {polls : List PollEvent}
    {st st' : Relay}
    {peer : Peer}
    (hCall : CallReached polls
      { st with w := { st.w with errno := EINTR } } peer st') :
    CallReached (.failed EINTR :: polls) st peer st'
| next
    {revents : Peer → Revents}
    {polls : List PollEvent}
    {st st₁ st' : Relay}
    {peer : Peer}
    (hRound : relayRound revents st = (none, st₁))
    (hCall : CallReached polls st₁ peer st') :
    CallReached (.ready revents :: polls) st peer st'

/- A call that is to forward meets a read of 10000 bytes. -/
def Overfills
    (peer : Peer)
    (st : Relay) : Prop :=
  0 ≤ st.writeFd peer.other ∧
    Fills 10000 (st.w.source peer).pending
      (st.w.source peer).reads

theorem halfStores_inside_iff
    (peer : Peer)
    (revents : Revents)
    (st : Relay) :
    Inside 10000 (halfStores peer revents st) ↔
      (revents.rdnorm = true → ¬Overfills peer st) := by
  unfold halfStores Overfills
  by_cases hReady : revents.rdnorm = true
  · simp [hReady, shuttleStores_inside_iff]
  · simp [hReady]

theorem roundStores_inside_iff
    (revents : Peer → Revents)
    (st : Relay) :
    Inside 10000 (roundStores revents st) ↔
      ∀ peer st', CallIn revents st peer st' →
        ¬Overfills peer st' := by
  unfold roundStores
  dsimp only
  by_cases hFine :
      ∀ peer, inError (pollFlags revents st peer) = false
  · simp only [hFine, Bool.false_eq_true, if_false,
      inside_append, halfStores_inside_iff]
    constructor
    · rintro ⟨hClient, hServer⟩ peer st' hCall
      cases hCall with
      | client _ hReady => exact hClient hReady
      | server _ hHalf hReady =>
          rw [hHalf] at hServer
          exact (halfStores_inside_iff _ _ _).mp hServer hReady
    · intro hCalls
      refine ⟨fun hReady => hCalls _ _ (.client hFine hReady),
        ?_⟩
      rcases hHalf :
          relayHalf .client (pollFlags revents st .client)
            (noteHangups (pollFlags revents st) st) with
        ⟨_ | _, st'⟩
      · exact inside_nil
      · exact (halfStores_inside_iff _ _ _).mpr fun hReady =>
          hCalls _ _ (.server hFine hHalf hReady)
  · have hNone :
        ∀ peer st', ¬CallIn revents st peer st' := by
      intro peer st' hCall
      cases hCall with
      | client hFine' _ => exact hFine hFine'
      | server hFine' _ _ => exact hFine hFine'
    have hError :
        inError (pollFlags revents st .client) = true ∨
          inError (pollFlags revents st .server) = true := by
      by_contra hNot
      apply hFine
      intro peer
      cases peer <;> simp_all
    constructor
    · intro _ peer st' hCall
      exact absurd hCall (hNone peer st')
    · intro _
      rcases hError with hClient | hServer
      · simp [hClient]
      · by_cases hClient :
            inError (pollFlags revents st .client) = true
        · simp [hClient]
        · simp [hClient, hServer]

/-
  A run stays inside the buffer exactly when none of its calls
  forwards a full one.
-/
theorem relayStores_inside_iff
    (polls : List PollEvent)
    (st : Relay) :
    Inside 10000 (relayStores polls st) ↔
      ∀ peer st', CallReached polls st peer st' →
        ¬Overfills peer st' := by
  induction polls generalizing st with
  | nil =>
      constructor
      · intro _ peer st' hCall
        exact nomatch hCall
      · exact fun _ => inside_nil
  | cons event polls ih =>
      cases event with
      | failed e =>
          rw [relayStores]
          dsimp only
          by_cases hIntr : e = EINTR
          · subst hIntr
            rw [if_pos rfl, ih]
            constructor
            · intro hCalls peer st' hCall
              cases hCall with
              | interrupted hCall => exact hCalls peer st' hCall
            · intro hCalls peer st' hCall
              exact hCalls peer st' (.interrupted hCall)
          · rw [if_neg hIntr]
            constructor
            · intro _ peer st' hCall
              cases hCall with
              | interrupted _ => exact absurd rfl hIntr
            · exact fun _ => inside_nil
      | ready revents =>
          rw [relayStores, inside_append,
            roundStores_inside_iff]
          constructor
          · rintro ⟨hHere, hLater⟩ peer st' hCall
            cases hCall with
            | here hCall => exact hHere peer st' hCall
            | next hRound hCall =>
                rw [hRound] at hLater
                exact (ih _).mp hLater peer st' hCall
          · intro hCalls
            refine ⟨fun peer st' hCall =>
              hCalls peer st' (.here hCall), ?_⟩
            rcases hRound : relayRound revents st with
              ⟨_ | rc, st₁⟩
            · exact (ih st₁).mpr fun peer st' hCall =>
                hCalls peer st' (.next hRound hCall)
            · exact inside_nil

/- The client has sent 10000 bytes when poll() returns. -/
theorem relayStores_full :
    ¬Inside 10000
      (relayStores
        [.ready fun _ => ⟨true, false, false, false⟩]
        (Relay.start
          { (default : ClientConnection) with
            fdIn := 3, fdOut := 4 }
          { (default : World) with
            socks := fun _ =>
              ⟨⟨List.replicate 10000 120, []⟩, default⟩ })) := by
  intro hInside
  rw [relayStores, inside_append] at hInside
  have hCalls := (roundStores_inside_iff _ _).mp hInside.1
  refine hCalls .client _ (.client (fun peer => ?_) rfl)
    ⟨?_, ?_⟩
  · cases peer <;> rfl
  · decide
  · exact (List.length_replicate).ge

end SmartSOCKSProxy
