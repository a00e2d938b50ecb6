import SmartSOCKSProxy.Core.FullLength
import SmartSOCKSProxy.Server.HttpResponse

/-
  Sending a file.

  The loop sends what each read delivers.  It goes on after a
  read that delivers or is interrupted, but also after the end
  of the file, when errno still tells of an interruption.

  Key definitions include:
    * `fileRound`, `FileReads`, `EndsAt`
    * `Smoothly`, `ServesFile`

  Key theorems include:
    * `sbWriteLen_smoothness`
    * `FileReads.sends`
    * `servesFile_iff`
    * `fileRound_stale`, `sendFileLoop_returns_iff`
    * `returnFileContents_serves`
-/

namespace SmartSOCKSProxy

------------------------------------------------------------
-- The Loop
------------------------------------------------------------

/- The variables of the loop in return_file_contents(). -/
structure FileVars
    (σ : Type) where
  file : σ
  ok : Bool
  w : World

/- One round: a read, and a write of what it delivered. -/
def fileRound
    {σ : Type}
    (d : Readable σ)
    (v : FileVars σ) : FileVars σ ⊕ World :=
  match d.read v.file (1000 - 1) with
  | (.ok chunk, file) =>
      if 0 < chunk.length then
        let (rc, w) := v.w.sbWriteLen .client chunk
        if v.ok = true ∧ rc = chunk.length then
          .inl ⟨file, true, w⟩
        else .inr w
      else if v.ok = true ∧ v.w.errno = EINTR then
        .inl ⟨file, v.ok, v.w⟩
      else .inr v.w
  | (.error e, file) =>
      if v.ok = true ∧ e = EINTR then
        .inl ⟨file, v.ok, { v.w with errno := e }⟩
      else .inr { v.w with errno := e }

section Reads

variable {σ : Type}

/-
  So many reads of a file, of which none returns 0 or fails
  for another reason than interruption; the bytes they
  deliver, and where the file is then.
-/
inductive FileReads
    (d : Readable σ)
    (file : σ) : Nat → List UInt8 → σ → Prop
| start :
    FileReads d file 0 [] file
| delivered
    {n : Nat}
    {bytes chunk : List UInt8}
    {file₁ file₂ : σ}
    (hReads : FileReads d file n bytes file₁)
    (hRead : d.read file₁ (1000 - 1) = (.ok chunk, file₂))
    (hSome : chunk ≠ []) :
    FileReads d file (n + 1) (bytes ++ chunk) file₂
| interrupted
    {n : Nat}
    {bytes : List UInt8}
    {file₁ file₂ : σ}
    (hReads : FileReads d file n bytes file₁)
    (hRead : d.read file₁ (1000 - 1) = (.error EINTR, file₂)) :
    FileReads d file (n + 1) bytes file₂

/- The next read returns 0. -/
def EndsAt
    (d : Readable σ)
    (file : σ) : Prop :=
  (d.read file (1000 - 1)).1 = .ok []

/- It fails for another reason than interruption. -/
def FailsAt
    (d : Readable σ)
    (file : σ) : Prop :=
  ∃ e ≠ EINTR, (d.read file (1000 - 1)).1 = .error e

/-
  What the reads deliver is sent, and the loop is left right
  after the first read that returns 0 or fails.
-/
def ServesFile
    (d : Readable σ)
    (file : σ)
    (w : World) : Prop :=
  ∀ n bytes file', FileReads d file n bytes file' →
    ∃ v, Leads (fileRound d) ⟨file, true, w⟩ n v ∧
      v.file = file' ∧ bytesSent w v.w = bytes ∧
      (EndsAt d file' ∨ FailsAt d file' →
        ∃ w', fileRound d v = .inr w' ∧
          bytesSent w w' = bytes)

end Reads

------------------------------------------------------------
-- Interruptions
------------------------------------------------------------

/- The sink takes the data, and no write fails. -/
inductive TakesAll :
    Sink → List UInt8 → Sink → Prop
| done
    (s : Sink) :
    TakesAll s [] s
| accepted
    {s s' s'' : Sink}
    {data : List UInt8}
    {k : Nat}
    (hSome : data ≠ [])
    (hWrite : s.write data = (.ok k, s'))
    (hRest : TakesAll s' (data.drop k) s'') :
    TakesAll s data s''

/-
  So many reads of a file and the writes of what they deliver,
  none of them interrupted.
-/
inductive Smoothly
    {σ : Type}
    (d : Readable σ)
    (file : σ)
    (sink : Sink) : Nat → σ → Sink → Prop
| start :
    Smoothly d file sink 0 file sink
| delivered
    {n : Nat}
    {chunk : List UInt8}
    {file₁ file₂ : σ}
    {sink₁ sink₂ : Sink}
    (hReads : Smoothly d file sink n file₁ sink₁)
    (hRead : d.read file₁ (1000 - 1) = (.ok chunk, file₂))
    (hSome : chunk ≠ [])
    (hTakes : TakesAll sink₁ chunk sink₂) :
    Smoothly d file sink (n + 1) file₂ sink₂

theorem takesAll_iff
    {s s' s'' : Sink}
    {data : List UInt8}
    {k : Nat}
    (hSome : data ≠ [])
    (hWrite : s.write data = (.ok k, s')) :
    TakesAll s data s'' ↔ TakesAll s' (data.drop k) s'' := by
  constructor
  · intro hTakes
    cases hTakes with
    | done => exact absurd rfl hSome
    | accepted _ hWrite' hRest =>
        cases hWrite.symm.trans hWrite'
        exact hRest
  · exact .accepted hSome hWrite

theorem not_takesAll
    {s s' s'' : Sink}
    {data : List UInt8}
    {e : Int}
    (hSome : data ≠ [])
    (hWrite : s.write data = (.error e, s')) :
    ¬TakesAll s data s'' := by
  intro hTakes
  cases hTakes with
  | done => exact hSome rfl
  | accepted _ hWrite' _ =>
      exact nomatch hWrite.symm.trans hWrite'

/- A full write sets errno when it is interrupted. -/
inductive WriteSmoothness
    (s : Sink)
    (data : List UInt8)
    (run : WriteRun) : Prop where
| smooth
    (hErrno : run.errno = none)
    (hTakes : TakesAll s data run.sink)
| interrupted
    (hErrno : run.errno = some EINTR)
    (hNot : ∀ s', ¬TakesAll s data s')

theorem sbWriteLenLoop_smoothness
    (fuel : Nat)
    {s : Sink}
    (index : Nat)
    (remain : List UInt8)
    (hFuel : s.writes.length < fuel)
    (hReliable : s.Reliable)
    (hSome : remain ≠ []) :
    WriteSmoothness s remain
      (sbWriteLenLoop fuel s index remain) := by
  induction fuel generalizing s index remain with
  | zero => omega
  | succ fuel ih =>
      rw [sbWriteLenLoop]
      rcases s.write_cases remain with
        ⟨k, s', hWrite, hLe, hSuffix, hShort⟩ |
        ⟨e, s', hWrite, hMem, hSuffix, hShort⟩
      · simp only [hWrite]
        by_cases hMore : 0 < remain.length - k
        · rw [if_pos hMore]
          have hLess := hShort (by omega)
          have hDrop : remain.drop k ≠ [] := by
            rw [Ne, List.drop_eq_nil_iff]
            omega
          have hRest := ih (index + k) (remain.drop k)
            (by omega) (hReliable.of_suffix hSuffix) hDrop
          cases hRest with
          | smooth hErrno hTakes =>
              exact .smooth hErrno
                (.accepted hSome hWrite hTakes)
          | interrupted hErrno hNot =>
              refine .interrupted hErrno fun s'' hTakes => ?_
              exact hNot s''
                ((takesAll_iff hSome hWrite).mp hTakes)
        · rw [if_neg hMore]
          have hDrop : remain.drop k = [] := by
            rw [List.drop_eq_nil_iff]
            omega
          refine .smooth rfl (.accepted hSome hWrite ?_)
          rw [hDrop]
          exact .done s'
      · simp only [hWrite]
        have hIntr : e = EINTR := hReliable _ hMem
        have hNot : ∀ s'', ¬TakesAll s remain s'' :=
          fun _ => not_takesAll hSome hWrite
        rw [if_pos hIntr]
        have hRest := ih index remain (by omega)
          (hReliable.of_suffix hSuffix) hSome
        refine .interrupted ?_ hNot
        cases hRest with
        | smooth hErrno _ => simp [WriteRun.retry, hErrno, hIntr]
        | interrupted hErrno _ =>
            simp [WriteRun.retry, hErrno]

theorem sbWriteLen_smoothness
    {s : Sink}
    {data : List UInt8}
    (hReliable : s.Reliable)
    (hSome : data ≠ []) :
    WriteSmoothness s data (sbWriteLen s data) :=
  sbWriteLenLoop_smoothness _ 0 data (Nat.lt_succ_self _)
    hReliable hSome

------------------------------------------------------------
-- Runs
------------------------------------------------------------

section Runs

variable {σ : Type}
variable {d : Readable σ}
variable {file file' file'' : σ}
variable {w : World}
variable {n : Nat}
variable {bytes : List UInt8}

theorem TakesAll.unique
    {s s' s'' : Sink}
    {data : List UInt8}
    (hLeft : TakesAll s data s')
    (hRight : TakesAll s data s'') :
    s' = s'' := by
  induction hLeft with
  | done s =>
      cases hRight with
      | done => rfl
      | accepted hSome _ _ => exact absurd rfl hSome
  | accepted hSome hWrite _ ih =>
      exact ih ((takesAll_iff hSome hWrite).mp hRight)

theorem Smoothly.unique
    {sink sink₁ sink₂ : Sink}
    {file₁ file₂ : σ}
    (hLeft : Smoothly d file sink n file₁ sink₁)
    (hRight : Smoothly d file sink n file₂ sink₂) :
    file₁ = file₂ ∧ sink₁ = sink₂ := by
  induction hLeft generalizing file₂ sink₂ with
  | start =>
      cases hRight
      exact ⟨rfl, rfl⟩
  | delivered _ hRead _ hTakes ih =>
      cases hRight with
      | delivered hRight hRead' _ hTakes' =>
          rcases ih hRight with ⟨rfl, rfl⟩
          cases hRead.symm.trans hRead'
          exact ⟨rfl, hTakes.unique hTakes'⟩

/-
  What holds after so many rounds: the bytes were sent, and
  errno tells whether there was an interruption.
-/
structure SentSoFar
    (d : Readable σ)
    (file : σ)
    (w : World)
    (n : Nat)
    (bytes : List UInt8)
    (v : FileVars σ) : Prop where
  ok : v.ok = true
  exchange : Exchange .client w [] bytes v.w
  smooth : v.w.errno ≠ EINTR →
    w.errno ≠ EINTR ∧
      Smoothly d file (w.sink .client) n v.file
        (v.w.sink .client)
  interrupted : v.w.errno = EINTR →
    w.errno ≠ EINTR →
      ∀ file' sink',
        ¬Smoothly d file (w.sink .client) n file' sink'

theorem SentSoFar.start
    (d : Readable σ)
    (file : σ)
    (w : World) :
    SentSoFar d file w 0 [] ⟨file, true, w⟩ :=
  ⟨rfl, Exchange.refl _ w, fun hErrno => ⟨hErrno, .start⟩,
    fun hIntr hErrno => absurd hIntr hErrno⟩

/- A read that delivers is followed by a full write. -/
theorem SentSoFar.delivered
    {v : FileVars σ}
    {chunk : List UInt8}
    (hSoFar : SentSoFar d file w n bytes v)
    (hReliable : (w.sink .client).Reliable)
    (hRead : d.read v.file (1000 - 1) = (.ok chunk, file'))
    (hSome : chunk ≠ []) :
    ∃ w', fileRound d v = .inl ⟨file', true, w'⟩ ∧
      SentSoFar d file w (n + 1) (bytes ++ chunk)
        ⟨file', true, w'⟩ := by
  have hReliable' := hSoFar.exchange.sink_reliable hReliable
  rcases World.sbWriteLen_of_reliable chunk hReliable' with
    ⟨w', hWrite, hExchange⟩
  have hWorld :
      w' = v.w.afterWrite .client
        (sbWriteLen (v.w.sink .client) chunk) :=
    (congrArg Prod.snd hWrite).symm
  have hRound :
      fileRound d v = .inl ⟨file', true, w'⟩ := by
    unfold fileRound
    rw [hRead]
    dsimp only
    rw [if_pos (List.length_pos_iff.mpr hSome), hWrite]
    exact if_pos ⟨hSoFar.ok, rfl⟩
  have hSink :
      w'.sink .client =
        (sbWriteLen (v.w.sink .client) chunk).sink := by
    rw [hWorld, World.sink_afterWrite_self]
  have hErrno :
      w'.errno =
        (sbWriteLen (v.w.sink .client) chunk).errno.getD
          v.w.errno := by
    rw [hWorld]
    rfl
  refine ⟨w', hRound, rfl, hSoFar.exchange.trans hExchange,
    ?_, ?_⟩
  · intro hNot
    cases sbWriteLen_smoothness hReliable' hSome with
    | smooth hNone hTakes =>
        rw [hErrno, hNone] at hNot
        rcases hSoFar.smooth hNot with ⟨hStart, hSmooth⟩
        refine ⟨hStart, ?_⟩
        rw [hSink]
        exact hSmooth.delivered hRead hSome hTakes
    | interrupted hIntr _ =>
        rw [hErrno, hIntr] at hNot
        exact absurd rfl hNot
  · intro hIntr hStart file₂ sink₂ hSmoothly
    cases hSmoothly with
    | delivered hSmooth hRead' _ hTakes' =>
        by_cases hBefore : v.w.errno = EINTR
        · exact hSoFar.interrupted hBefore hStart _ _ hSmooth
        · have hHere := (hSoFar.smooth hBefore).2
          rcases hHere.unique hSmooth with ⟨rfl, rfl⟩
          cases hRead.symm.trans hRead'
          cases sbWriteLen_smoothness hReliable' hSome with
          | smooth hNone _ =>
              rw [hErrno, hNone] at hIntr
              exact hBefore hIntr
          | interrupted _ hNot => exact hNot _ hTakes'

/- A read that is interrupted sets errno. -/
theorem SentSoFar.interruptedRead
    {v : FileVars σ}
    (hSoFar : SentSoFar d file w n bytes v)
    (hRead : d.read v.file (1000 - 1) =
      (.error EINTR, file')) :
    ∃ w', fileRound d v = .inl ⟨file', true, w'⟩ ∧
      SentSoFar d file w (n + 1) bytes ⟨file', true, w'⟩ := by
  refine ⟨{ v.w with errno := EINTR }, ?_, rfl, ?_,
    fun hNot => absurd rfl hNot, ?_⟩
  · unfold fileRound
    rw [hRead]
    simp [hSoFar.ok]
  · simpa using
      hSoFar.exchange.trans (exchange_errno v.w EINTR)
  · intro _ hStart file₂ sink₂ hSmoothly
    cases hSmoothly with
    | delivered hSmooth hRead' _ _ =>
        by_cases hBefore : v.w.errno = EINTR
        · exact hSoFar.interrupted hBefore hStart _ _ hSmooth
        · have hHere := (hSoFar.smooth hBefore).2
          rcases hHere.unique hSmooth with ⟨rfl, _⟩
          exact nomatch hRead.symm.trans hRead'

/- Reads that go on are as many rounds. -/
theorem FileReads.sends
    (hReads : FileReads d file n bytes file')
    (hReliable : (w.sink .client).Reliable) :
    ∃ v, Leads (fileRound d) ⟨file, true, w⟩ n v ∧
      v.file = file' ∧ SentSoFar d file w n bytes v := by
  induction hReads with
  | start =>
      exact ⟨_, .start, rfl, SentSoFar.start d file w⟩
  | delivered _ hRead hSome ih =>
      rcases ih with ⟨v, hLeads, rfl, hSoFar⟩
      rcases hSoFar.delivered hReliable hRead hSome with
        ⟨w', hRound, hNext⟩
      exact ⟨_, hLeads.next hRound, rfl, hNext⟩
  | interrupted _ hRead ih =>
      rcases ih with ⟨v, hLeads, rfl, hSoFar⟩
      rcases hSoFar.interruptedRead hRead with
        ⟨w', hRound, hNext⟩
      exact ⟨_, hLeads.next hRound, rfl, hNext⟩

/- After the last byte, errno decides. -/
theorem fileRound_endsAt
    {v : FileVars σ}
    (hEnds : EndsAt d v.file)
    (hOk : v.ok = true) :
    fileRound d v =
      if v.w.errno = EINTR then
        .inl ⟨(d.read v.file (1000 - 1)).2, true, v.w⟩
      else .inr v.w := by
  rcases hRead : d.read v.file (1000 - 1) with ⟨result, file'⟩
  unfold EndsAt at hEnds
  rw [hRead] at hEnds
  subst hEnds
  unfold fileRound
  simp [hRead, hOk]

theorem fileRound_failsAt
    {v : FileVars σ}
    (hFails : FailsAt d v.file) :
    ∃ e, fileRound d v = .inr { v.w with errno := e } := by
  rcases hFails with ⟨e, hOther, hError⟩
  rcases hRead : d.read v.file (1000 - 1) with ⟨result, file'⟩
  rw [hRead] at hError
  subst hError
  refine ⟨e, ?_⟩
  unfold fileRound
  simp [hRead, hOther]

/-
  The file is served exactly when its end, if the reads come
  to it, is not preceded by an interruption: errno was another
  one at the start, and no read and no write was interrupted.
-/
theorem servesFile_iff
    (hReliable : (w.sink .client).Reliable) :
    ServesFile d file w ↔
      ∀ n bytes file', FileReads d file n bytes file' →
        EndsAt d file' →
          w.errno ≠ EINTR ∧ ∃ sink',
            Smoothly d file (w.sink .client) n file' sink' := by
  constructor
  · intro hServes n bytes file' hReads hEnds
    rcases hServes n bytes file' hReads with
      ⟨v, hLeads, rfl, _, hLast⟩
    rcases hReads.sends hReliable with
      ⟨v', hLeads', _, hSoFar⟩
    cases hLeads.unique hLeads'
    rcases hLast (Or.inl hEnds) with ⟨w', hRound, _⟩
    rw [fileRound_endsAt hEnds hSoFar.ok] at hRound
    have hErrno : v.w.errno ≠ EINTR := by
      intro hStale
      rw [if_pos hStale] at hRound
      exact nomatch hRound
    rcases hSoFar.smooth hErrno with ⟨hStart, hSmooth⟩
    exact ⟨hStart, _, hSmooth⟩
  · intro hSmoothly n bytes file' hReads
    rcases hReads.sends hReliable with
      ⟨v, hLeads, rfl, hSoFar⟩
    refine ⟨v, hLeads, rfl,
      bytesSent_of_exchange hSoFar.exchange, ?_⟩
    rintro (hEnds | hFails)
    · rcases hSmoothly n bytes v.file hReads hEnds with
        ⟨hStart, sink', hSmooth⟩
      have hErrno : v.w.errno ≠ EINTR := fun hStale =>
        hSoFar.interrupted hStale hStart _ _ hSmooth
      rw [fileRound_endsAt hEnds hSoFar.ok, if_neg hErrno]
      exact ⟨v.w, rfl,
        bytesSent_of_exchange hSoFar.exchange⟩
    · rcases fileRound_failsAt hFails with ⟨e, hRound⟩
      have hExchange :=
        hSoFar.exchange.trans (exchange_errno v.w e)
      simp only [List.append_nil] at hExchange
      exact ⟨_, hRound, bytesSent_of_exchange hExchange⟩

/- An old interruption keeps the loop at the end forever. -/
theorem fileRound_stale
    (hEnd : d.read file (1000 - 1) = (.ok [], file))
    (hStale : w.errno = EINTR) :
    Forever (fileRound d) ⟨file, true, w⟩ := by
  have hEnds : EndsAt d file := by
    unfold EndsAt
    rw [hEnd]
  have hRound :
      fileRound d ⟨file, true, w⟩ = .inl ⟨file, true, w⟩ := by
    rw [fileRound_endsAt hEnds rfl, if_pos hStale, hEnd]
  refine Forever.of_invariant
    (P := fun v => v = ⟨file, true, w⟩) rfl ?_
  rintro v rfl
  exact ⟨_, hRound, rfl⟩

end Runs

/- A file of one letter. -/
theorem servesFile_letter :
    ServesFile scheduledReads ⟨[97], []⟩ default := by
  have hReliable :
      ((default : World).sink .client).Reliable := nofun
  apply (servesFile_iff hReliable).mpr
  intro n bytes file' hReads hEnds
  have hWhere :
      n = 0 ∧ file' = ⟨[97], []⟩ ∨
        n = 1 ∧ file' = ⟨[], []⟩ := by
    clear hEnds
    induction hReads with
    | start => exact Or.inl ⟨rfl, rfl⟩
    | delivered _ hRead hSome ih =>
        rcases ih with ⟨rfl, rfl⟩ | ⟨rfl, rfl⟩
        · cases hRead
          exact Or.inr ⟨rfl, rfl⟩
        · cases hRead
          exact absurd rfl hSome
    | interrupted _ hRead ih =>
        rcases ih with ⟨rfl, rfl⟩ | ⟨rfl, rfl⟩
        · exact nomatch hRead
        · exact nomatch hRead
  refine ⟨by decide, ?_⟩
  rcases hWhere with ⟨rfl, rfl⟩ | ⟨rfl, rfl⟩
  · exact nomatch hEnds
  · have hLetter : [(97 : UInt8)] ≠ [] := List.cons_ne_nil _ _
    exact ⟨_, .delivered .start rfl hLetter
      (.accepted hLetter rfl (.done _))⟩

/-
  An empty file, after a write of the head was interrupted: the
  end is read again and again.
-/
theorem servesFile_interrupted :
    ¬ServesFile scheduledReads ⟨[], []⟩
        { (default : World) with errno := EINTR } ∧
      Forever (fileRound scheduledReads)
        ⟨⟨[], []⟩, true,
          { (default : World) with errno := EINTR }⟩ := by
  refine ⟨fun hServes => ?_, fileRound_stale rfl rfl⟩
  rcases hServes 0 [] _ .start with ⟨v, hLeads, _, _, hLast⟩
  cases hLeads
  rcases hLast (Or.inl rfl) with ⟨w', hRound, _⟩
  exact nomatch hRound

------------------------------------------------------------
-- The Function
------------------------------------------------------------

/- The counted loop takes the same rounds. -/
theorem sendFileLoop_succ
    (fuel : Nat)
    (v : FileVars Source) :
    sendFileLoop (fuel + 1) v.ok v.file v.w =
      match fileRound scheduledReads v with
      | .inl v' => sendFileLoop fuel v'.ok v'.file v'.w
      | .inr w' => (true, w') := by
  have hSame :
      scheduledReads.read v.file (1000 - 1) =
        v.file.read (1000 - 1) := rfl
  rw [sendFileLoop]
  unfold fileRound
  rw [hSame]
  rcases v.file.read (1000 - 1) with ⟨_ | chunk, file'⟩
  · dsimp only
    split <;> rfl
  · dsimp only
    by_cases hSome : 0 < chunk.length
    · simp only [if_pos hSome]
      split <;> rfl
    · simp only [if_neg hSome]
      split <;> rfl

theorem sendFileLoop_returns_iff
    (v : FileVars Source)
    (w' : World) :
    (∃ fuel, sendFileLoop fuel v.ok v.file v.w = (true, w')) ↔
      Returns (fileRound scheduledReads) v w' := by
  constructor
  · rintro ⟨fuel, hLoop⟩
    induction fuel generalizing v with
    | zero => exact nomatch congrArg Prod.fst hLoop
    | succ fuel ih =>
        rw [sendFileLoop_succ] at hLoop
        cases hRound : fileRound scheduledReads v with
        | inl v' =>
            rw [hRound] at hLoop
            exact .next hRound (ih v' hLoop)
        | inr w'' =>
            rw [hRound] at hLoop
            cases hLoop
            exact .stop hRound
  · intro hReturns
    induction hReturns with
    | stop hStop =>
        refine ⟨1, ?_⟩
        rw [sendFileLoop_succ, hStop]
    | next hNext _ ih =>
        rcases ih with ⟨fuel, hLoop⟩
        refine ⟨fuel + 1, ?_⟩
        rw [sendFileLoop_succ, hNext]
        exact hLoop

/-
  return_file_contents() sends a head, runs the loop, and
  closes the file when the loop is left.
-/
theorem returnFileContents_serves
    {files : FileSystem}
    {baseDir : CBuf 4096}
    {request : Text}
    {fd : Nat}
    {file : Source}
    {w : World}
    (con : HttpConnection)
    (hAccess :
      files.access (httpFilename baseDir
        (requestedFilename request)) = .ok ())
    (hOpen :
      files.openRdonly (httpFilename baseDir
        (requestedFilename request)) = .ok (fd, file))
    (hReliable : (w.sink .client).Reliable) :
    ∃ w₁,
      bytesSent w w₁ =
        responseHead "200 OK"
          (contentTypeOf (requestedFilename request)) ∧
      (w₁.sink .client).Reliable ∧
      ∀ w', Returns (fileRound scheduledReads)
          ⟨file, true, w₁⟩ w' →
        ∃ fuel,
          let answer := returnFileContents files baseDir fuel
            request con w
          answer.1 = some "200 OK" ∧
            answer.2.2 = w'.emit (.closed fd) := by
  have hOpened :
      Exchange .client w [] [] (w.emit (.opened fd)) :=
    exchange_emit w fun _ => rfl
  rcases sendBasicResponse_of_reliable "200 OK"
      (contentTypeOf (requestedFilename request))
      (hOpened.sink_reliable hReliable) with
    ⟨w₁, hSend, hHead⟩
  have hHeaded := hOpened.trans hHead
  refine ⟨w₁, bytesSent_of_exchange hHeaded,
    hHeaded.sink_reliable hReliable, ?_⟩
  intro w' hReturns
  rcases (sendFileLoop_returns_iff _ w').mpr hReturns with
    ⟨fuel, hLoop⟩
  dsimp only at hLoop
  refine ⟨fuel, ?_⟩
  unfold returnFileContents
  simp only [hAccess, hOpen, hSend, hLoop, and_self]

end SmartSOCKSProxy
