import SmartSOCKSProxy.Core.Exchange
import SmartSOCKSProxy.Foundations.StreamLines

/-
  The first line of a request.

  Key definitions include:
    * `readOneLineLoop`, `readOneLineSafely`

  Key theorems include:
    * `sbReadLen_one`
    * `readOneLineSafely_spec`
-/

namespace SmartSOCKSProxy

------------------------------------------------------------
-- The Loop
------------------------------------------------------------

/-
  The loop of read_one_line_safely(), with the last return
  code and the bytes before the end of the line.
-/
def readOneLineLoop :
    Nat → World → Int × Text × World
  | 0, w => (1, [], w)
  | room + 1, w =>
      let (rc, data, w) := w.sbReadLen .client 1
      if 0 < rc then
        let chr := data.headD 0
        if isLineEnd chr then (rc, [], w)
        else
          let (rc, line, w) := readOneLineLoop room w
          (rc, chr :: line, w)
      else (rc, [], w)

/- Read `buflen` bytes or a line, whichever comes first. -/
def readOneLineSafely
    (w : World)
    (buflen : Nat) : Int × Text × World :=
  if buflen < 1 then (0, [], w)
  else
    let (rc, line, w) := readOneLineLoop buflen w
    (if 0 < rc then line.length else rc, line, w)

------------------------------------------------------------
-- One Byte
------------------------------------------------------------

/- A read of one byte delivers it, or nothing. -/
inductive OneByte
    (s : Source)
    (run : ReadRun) : Prop where
| read
    (chr : UInt8)
    (hRc : run.rc = 1)
    (hData : run.data = [chr])
    (hAdvances : s.Advances chr run.source) :
    OneByte s run
| none
    (hRc : run.rc ≤ 0)
    (hServes : ∀ n, ¬s.Serves (n + 1)) :
    OneByte s run

/- The read that ends the loop. -/
theorem oneByte_of_delivers
    (s : Source)
    (reads : List ReadEvent)
    (hDelivers : ∀ chr pending, s.pending = chr :: pending →
      s.Advances chr ⟨pending, reads⟩) :
    OneByte s
      ⟨if 0 < (s.pending.take 1).length then
          (0 + (s.pending.take 1).length : Nat)
        else 0,
        [s.pending.take 1], none,
        ⟨s.pending.drop 1, reads⟩⟩ := by
  cases hPending : s.pending with
  | nil =>
      apply OneByte.none
      · simp
      · intro n hServes
        have hLength := hServes.1
        rw [hPending, List.length_nil] at hLength
        omega
  | cons chr pending =>
      have hAdvances := hDelivers chr pending hPending
      exact OneByte.read chr rfl rfl hAdvances

theorem sbReadLenLoop_one
    (pending : List UInt8)
    (reads : List ReadEvent)
    {fuel : Nat}
    (hFuel : reads.length < fuel) :
    OneByte ⟨pending, reads⟩
      (sbReadLenLoop fuel ⟨pending, reads⟩ 0 1) := by
  have hShort : (pending.take 1).length ≤ 1 :=
    List.length_take_le 1 pending
  induction reads generalizing fuel with
  | nil =>
      cases fuel with
      | zero => simp at hFuel
      | succ fuel =>
          have hDelivers := oneByte_of_delivers
            ⟨pending, []⟩ []
            (by
              rintro chr pending rfl
              exact Source.advances_of_schedule_nil chr pending)
          rw [sbReadLenLoop]
          simp only [Source.read]
          rw [if_neg (by omega)]
          exact hDelivers
  | cons event reads ih =>
      cases fuel with
      | zero => simp at hFuel
      | succ fuel =>
          rw [sbReadLenLoop]
          cases event with
          | deliver extra =>
              have hDelivers := oneByte_of_delivers
                ⟨pending, .deliver extra :: reads⟩ reads
                (by
                  rintro chr pending rfl
                  exact Source.advances_of_deliver chr pending
                    extra reads)
              have hOne : min 1 (extra + 1) = 1 := by omega
              simp only [Source.read, hOne]
              rw [if_neg (by omega)]
              exact hDelivers
          | fail e =>
              simp only [Source.read]
              by_cases hIntr : e = EINTR
              · subst hIntr
                rw [if_pos rfl]
                have hRest :
                    OneByte ⟨pending, reads⟩
                      (sbReadLenLoop fuel ⟨pending, reads⟩
                        0 1) :=
                  ih (by simpa using hFuel)
                cases hRest with
                | read chr hRc hData hAdvances =>
                    refine OneByte.read chr hRc hData
                      ⟨hAdvances.pending, fun n => ?_⟩
                    rw [Source.serves_interrupted_iff]
                    exact hAdvances.serves n
                | none hRc hServes =>
                    refine OneByte.none hRc fun n => ?_
                    rw [Source.serves_interrupted_iff]
                    exact hServes n
              · rw [if_neg hIntr]
                exact OneByte.none (by simp)
                  (Source.not_serves_fail hIntr pending reads)

theorem sbReadLen_one
    (s : Source) :
    OneByte s (sbReadLen s 1) := by
  apply sbReadLenLoop_one
  unfold Source.budget
  split <;> omega

------------------------------------------------------------
-- Lines
------------------------------------------------------------

/-
  The loop ends with a line exactly when the reads deliver it,
  and nothing is written.
-/
theorem readOneLineLoop_spec
    (room : Nat)
    (w : World) :
    ∃ rc line got w',
      readOneLineLoop room w = (rc, line, w') ∧
        Exchange .client w got [] w' ∧
        (0 < rc ∧ (∀ line',
            (w.source .client).HasLine room line' ↔
              line' = line) ∨
          rc ≤ 0 ∧ ∀ line',
            ¬(w.source .client).HasLine room line') := by
  induction room generalizing w with
  | zero =>
      exact ⟨1, [], [], w, rfl, Exchange.refl _ w,
        Or.inl ⟨by decide, fun _ => Source.hasLine_zero_iff⟩⟩
  | succ room ih =>
      have hExchange := w.sbReadLen_exchange .client 1
      have hRead :
          w.sbReadLen .client 1 =
            ((sbReadLen (w.source .client) 1).rc,
              (sbReadLen (w.source .client) 1).data,
              w.afterRead .client
                (sbReadLen (w.source .client) 1)) := rfl
      rw [hRead] at hExchange
      rw [readOneLineLoop, hRead]
      cases sbReadLen_one (w.source .client) with
      | read chr hRc hData hAdvances =>
          rw [← World.source_afterRead_self w .client]
            at hAdvances
          simp only [hRc, hData, List.headD_cons,
            zero_lt_one, if_true] at hExchange ⊢
          by_cases hEnd : isLineEnd chr
          · rw [if_pos hEnd]
            exact ⟨1, [], [chr], _, rfl, hExchange,
              Or.inl ⟨by decide, fun _ =>
                hAdvances.hasLine_end_iff hEnd⟩⟩
          · rw [if_neg hEnd]
            rcases ih (w.afterRead .client
                (sbReadLen (w.source .client) 1)) with
              ⟨rc, line, got, w', hLoop, hRest, hLines⟩
            rw [hLoop]
            refine ⟨rc, chr :: line, [chr] ++ got, w', rfl,
              hExchange.trans hRest, ?_⟩
            rcases hLines with ⟨hPos, hLine⟩ | ⟨hNeg, hNone⟩
            · refine Or.inl ⟨hPos, fun line' => ?_⟩
              rw [hAdvances.hasLine_iff hEnd]
              simp [hLine]
            · refine Or.inr ⟨hNeg, fun line' => ?_⟩
              rw [hAdvances.hasLine_iff hEnd]
              simp [hNone]
      | none hRc hServes =>
          dsimp only
          rw [if_neg (not_lt.mpr hRc)]
          exact ⟨_, [], _, _, rfl, hExchange, Or.inr
            ⟨hRc, fun _ => Source.not_hasLine hServes⟩⟩

/-
  The length of the line is returned if the reads deliver one,
  and a negative number or 0 if not.
-/
theorem readOneLineSafely_spec
    {room : Nat}
    (hRoom : 1 ≤ room)
    (w : World) :
    ∃ rc line got w',
      readOneLineSafely w room = (rc, line, w') ∧
        Exchange .client w got [] w' ∧
        (rc = line.length ∧ (∀ line',
            (w.source .client).HasLine room line' ↔
              line' = line) ∨
          rc ≤ 0 ∧ ∀ line',
            ¬(w.source .client).HasLine room line') := by
  rcases readOneLineLoop_spec room w with
    ⟨rc, line, got, w', hLoop, hExchange, hLines⟩
  unfold readOneLineSafely
  rw [if_neg (not_lt.mpr hRoom), hLoop]
  rcases hLines with ⟨hPos, hLine⟩ | ⟨hNeg, hNone⟩
  · exact ⟨line.length, line, got, w', by simp [hPos],
      hExchange, Or.inl ⟨rfl, hLine⟩⟩
  · exact ⟨rc, line, got, w', by simp [not_lt.mpr hNeg],
      hExchange, Or.inr ⟨hNeg, hNone⟩⟩

/- No line is longer than what was asked for. -/
theorem length_readOneLineLoop_le
    (room : Nat)
    (w : World) :
    (readOneLineLoop room w).2.1.length ≤ room := by
  induction room generalizing w with
  | zero => exact le_rfl
  | succ room ih =>
      rw [readOneLineLoop]
      rcases w.sbReadLen .client 1 with ⟨rc, data, w'⟩
      dsimp only
      by_cases hRead : 0 < rc
      · rw [if_pos hRead]
        split
        · exact Nat.zero_le _
        · exact Nat.succ_le_succ (ih w')
      · rw [if_neg hRead]
        exact Nat.zero_le _

theorem length_readOneLineSafely_le
    (w : World)
    (buflen : Nat) :
    (readOneLineSafely w buflen).2.1.length ≤ buflen := by
  unfold readOneLineSafely
  split
  · exact Nat.zero_le _
  · exact length_readOneLineLoop_le buflen w

end SmartSOCKSProxy
