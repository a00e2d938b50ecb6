import SmartSOCKSProxy.Core.World

/-
  What a piece of code exchanged with one peer.

  An exchange lists the bytes taken from a peer and the bytes
  given to it; everything else is as before.  Exchanges
  compose, so that a protocol step is described by the sum of
  its reads and writes.

  Key definitions include:
    * `Exchange`, `World.Spares`
    * `World.expect`

  Key theorems include:
    * `Exchange.trans`
    * `World.expect_some`, `World.expect_of_pending`
    * `World.sbWriteLen_exchange`
-/

namespace SmartSOCKSProxy

------------------------------------------------------------
-- Exchanges
------------------------------------------------------------

/-
  From `w` to `w'`, exactly `got` was read from the peer and
  `put` was written to it.
-/
structure Exchange
    (peer : Peer)
    (w : World)
    (got put : List UInt8)
    (w' : World) : Prop where
  pending :
    (w.source peer).pending =
      got ++ (w'.source peer).pending
  reads :
    (w'.source peer).reads <:+ (w.source peer).reads
  writes : (w'.sink peer).writes <:+ (w.sink peer).writes
  sent : sentTo peer w'.trace = sentTo peer w.trace ++ put
  otherSock : w'.socks peer.other = w.socks peer.other
  otherSent :
    sentTo peer.other w'.trace = sentTo peer.other w.trace
  dns : w'.dns = w.dns

namespace Exchange

variable {peer : Peer}
variable {w w₁ w₂ : World}
variable {got got' put put' : List UInt8}

theorem refl
    (peer : Peer)
    (w : World) :
    Exchange peer w [] [] w :=
  ⟨rfl, List.suffix_rfl, List.suffix_rfl, by simp, rfl, rfl,
    rfl⟩

theorem trans
    (h : Exchange peer w got put w₁)
    (h' : Exchange peer w₁ got' put' w₂) :
    Exchange peer w (got ++ got') (put ++ put') w₂ where
  pending := by
    rw [h.pending, h'.pending, List.append_assoc]
  reads := h'.reads.trans h.reads
  writes := h'.writes.trans h.writes
  sent := by rw [h'.sent, h.sent, List.append_assoc]
  otherSock := h'.otherSock.trans h.otherSock
  otherSent := h'.otherSent.trans h.otherSent
  dns := h'.dns.trans h.dns

/- What is left of a reliable source is reliable. -/
theorem source_reliable
    (h : Exchange peer w got put w₁)
    (hReliable : (w.source peer).Reliable) :
    (w₁.source peer).Reliable :=
  hReliable.of_suffix h.reads

/- What is left of a reliable sink is reliable. -/
theorem sink_reliable
    (h : Exchange peer w got put w₁)
    (hReliable : (w.sink peer).Reliable) :
    (w₁.sink peer).Reliable :=
  hReliable.of_suffix h.writes

/- What follows the bytes taken is what is left. -/
theorem pending_eq
    (h : Exchange peer w got put w₁)
    {rest : List UInt8}
    (hPending : (w.source peer).pending = got ++ rest) :
    (w₁.source peer).pending = rest :=
  List.append_cancel_left (h.pending.symm.trans hPending)

end Exchange

------------------------------------------------------------
-- Peers Left Alone
------------------------------------------------------------

/- Nothing was read from the peer or written to it. -/
structure World.Spares
    (peer : Peer)
    (w w' : World) : Prop where
  sock : w'.socks peer = w.socks peer
  sent : sentTo peer w'.trace = sentTo peer w.trace

namespace World.Spares

variable {peer : Peer}
variable {w w₁ w₂ : World}

theorem refl
    (peer : Peer)
    (w : World) :
    w.Spares peer w :=
  ⟨rfl, rfl⟩

theorem trans
    (h : w.Spares peer w₁)
    (h' : w₁.Spares peer w₂) :
    w.Spares peer w₂ :=
  ⟨h'.sock.trans h.sock, h'.sent.trans h.sent⟩

/- An exchange with the one end spares the other. -/
theorem of_exchange
    {got put : List UInt8}
    (h : Exchange peer w got put w₁) :
    w.Spares peer.other w₁ :=
  ⟨h.otherSock, h.otherSent⟩

/- Events other than writes send nothing. -/
theorem of_emit
    (w : World)
    {event : Event}
    (hSilent : event.sentTo peer = []) :
    w.Spares peer (w.emit event) where
  sock := rfl
  sent := by
    simp [emit, sentTo, hSilent]

end World.Spares

namespace World

------------------------------------------------------------
-- Reads of an Exact Length
------------------------------------------------------------

theorem sbReadLen_exchange
    (w : World)
    (peer : Peer)
    (n : Nat) :
    Exchange peer w (w.sbReadLen peer n).2.1 []
      (w.sbReadLen peer n).2.2 where
  pending := by
    have hTakes :=
      (sbReadLen_takes (w.source peer) n).pending
    rw [hTakes]
    simp [sbReadLen, source_afterRead_self]
  reads := by
    have hTakes :=
      (sbReadLen_takes (w.source peer) n).suffix
    simpa [sbReadLen, source_afterRead_self] using hTakes
  writes := by
    rw [sbReadLen, sink_afterRead]
  sent := by
    simp [sbReadLen]
  otherSock := by
    simp [sbReadLen, afterRead]
  otherSent := by
    simp [sbReadLen]
  dns := rfl

/-
  A reliable source delivers its first bytes.  All of the
  bytes asked for are there exactly when the return code
  says so, and it is never negative.
-/
theorem sbReadLen_of_reliable
    {w : World}
    {peer : Peer}
    (n : Nat)
    (hReliable : (w.source peer).Reliable) :
    ∃ (rc : Int) (w' : World),
      w.sbReadLen peer n =
        (rc, (w.source peer).pending.take n, w') ∧
      0 ≤ rc ∧
      (rc = n ↔ n ≤ (w.source peer).pending.length) ∧
      (w'.source peer).pending =
        (w.source peer).pending.drop n ∧
      Exchange peer w ((w.source peer).pending.take n) []
        w' := by
  have hRun : ∃ rc : Int,
      (SmartSOCKSProxy.sbReadLen (w.source peer) n).rc =
          rc ∧
        (SmartSOCKSProxy.sbReadLen
            (w.source peer) n).data =
          (w.source peer).pending.take n ∧
        0 ≤ rc ∧
        (rc = n ↔
          n ≤ (w.source peer).pending.length) := by
    by_cases hLe : n ≤ (w.source peer).pending.length
    · rcases sbReadLen_of_le hReliable hLe with
        ⟨hRc, hData, _⟩
      exact ⟨n, hRc, hData, by omega, by simp [hLe]⟩
    · rcases sbReadLen_of_lt hReliable
          (Nat.not_le.mp hLe) with
        ⟨hRc, hData, _⟩
      refine ⟨0, hRc, ?_, le_refl 0, ?_⟩
      · rw [hData, List.take_of_length_le (by omega)]
      · constructor
        · intro hZero
          omega
        · intro hEnough
          exact absurd hEnough hLe
  rcases hRun with ⟨rc, hRc, hData, hNonneg, hFull⟩
  have hRead :
      w.sbReadLen peer n =
        (rc, (w.source peer).pending.take n,
          (w.sbReadLen peer n).2.2) := by
    rw [← hRc, ← hData]
    rfl
  have hExchange := w.sbReadLen_exchange peer n
  rw [hRead] at hExchange
  exact ⟨rc, _, hRead, hNonneg, hFull,
    hExchange.pending_eq (List.take_append_drop _ _).symm,
    hExchange⟩

/-
  `rc=sb_read_len(fd,buf,n); if (rc != n) ...`: the bytes
  that were read, if all of them were.
-/
def expect
    (w : World)
    (peer : Peer)
    (n : Nat) : Option (List UInt8) × World :=
  let (rc, data, w) := w.sbReadLen peer n
  (if rc = n then some data else none, w)

/- A successful read takes as many bytes as asked for. -/
theorem expect_some
    {w w' : World}
    {peer : Peer}
    {n : Nat}
    {data : List UInt8}
    (hExpect : w.expect peer n = (some data, w')) :
    data.length = n ∧ Exchange peer w data [] w' := by
  have hExchange := w.sbReadLen_exchange peer n
  unfold expect at hExpect
  rcases hRead : w.sbReadLen peer n with ⟨rc, bytes, w₁⟩
  rw [hRead] at hExpect hExchange
  by_cases hRc : rc = n
  · simp only [hRc, if_true, Prod.mk.injEq,
      Option.some.injEq] at hExpect
    rcases hExpect with ⟨rfl, rfl⟩
    refine ⟨?_, hExchange⟩
    have hRun : w.sbReadLen peer n =
        ((SmartSOCKSProxy.sbReadLen (w.source peer) n).rc,
          (SmartSOCKSProxy.sbReadLen
            (w.source peer) n).data,
          w.afterRead peer
            (SmartSOCKSProxy.sbReadLen
              (w.source peer) n)) := rfl
    rw [hRead] at hRun
    cases hRun
    exact sbReadLen_length hRc
  · simp [hRc] at hExpect

/- A reliable source delivers what it holds. -/
theorem expect_of_pending
    {w : World}
    {peer : Peer}
    {n : Nat}
    (data : List UInt8)
    {rest : List UInt8}
    (hReliable : (w.source peer).Reliable)
    (hPending : (w.source peer).pending = data ++ rest)
    (hLength : data.length = n) :
    ∃ w', w.expect peer n = (some data, w') ∧
      Exchange peer w data [] w' := by
  have hRun := sbReadLen_of_le (n := n) hReliable
    (by rw [hPending, List.length_append]; omega)
  rw [hPending, List.take_left' hLength] at hRun
  have hExpect :
      w.expect peer n =
        (some data, (w.sbReadLen peer n).2.2) := by
    unfold expect sbReadLen
    dsimp only
    rw [if_pos hRun.1, hRun.2.1]
  exact ⟨_, hExpect, (expect_some hExpect).2⟩

------------------------------------------------------------
-- Writes
------------------------------------------------------------

/-
  A write gives all of the data and returns its length, or
  gives a front part and fails.
-/
theorem sbWriteLen_exchange
    (w : World)
    (peer : Peer)
    (data : List UInt8) :
    ∃ rc put w', w.sbWriteLen peer data = (rc, w') ∧
      Exchange peer w [] put w' ∧
      (put = data ∧ rc = data.length ∨
        put <+: data ∧ rc = -1 ∧
          (w.sink peer).MayFail) := by
  let run := SmartSOCKSProxy.sbWriteLen (w.sink peer) data
  refine ⟨run.rc, run.data, w.afterWrite peer run, rfl, ?_,
    sbWriteLen_outcome (w.sink peer) data⟩
  constructor
  · simp
  · simp
  · rw [sink_afterWrite_self]
    exact (sbWriteLenLoop_outcome _ (w.sink peer) 0 data
      (Nat.lt_succ_self _)).1
  · simp [WriteRun.data]
  · simp [afterWrite]
  · simp
  · rfl

/- A reliable sink is given all of the data. -/
theorem sbWriteLen_of_reliable
    {w : World}
    {peer : Peer}
    (data : List UInt8)
    (hReliable : (w.sink peer).Reliable) :
    ∃ w', w.sbWriteLen peer data =
        ((data.length : Int), w') ∧
      Exchange peer w [] data w' := by
  rcases w.sbWriteLen_exchange peer data with
    ⟨rc, put, w', hWrite, hExchange, hDone | hFail⟩
  · rcases hDone with ⟨rfl, rfl⟩
    exact ⟨w', hWrite, hExchange⟩
  · exact absurd hFail.2.2 hReliable.not_mayFail

end World

end SmartSOCKSProxy
