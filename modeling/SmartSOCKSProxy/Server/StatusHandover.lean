import SmartSOCKSProxy.Server.StatusRequest

/-
  The document changes hands.

  The main thread stores at most one string in a connection.
  It is freed once, unless it is stored after the HTTP thread
  has looked for the last time.

  Key definitions include:
    * `HandedOver`, `Timely`
    * `Answering`, `Collecting`, `Responding`

  Key theorems include:
    * `Handover.sound`, `Handover.timely`
    * `statusHandover_handedOver`
-/

namespace SmartSOCKSProxy

------------------------------------------------------------
-- The Hand-Over
------------------------------------------------------------

/- The status lines among what was sent. -/
def statusLines
    (sent : List Sent) : List String :=
  sent.filterMap fun
    | .status responseStr => some responseStr
    | _ => none

/- Whether the connection object has been freed. -/
def Handover.conFreed
    (s : Handover) : Prop :=
  s.main = .away

instance
    (s : Handover) :
    Decidable s.conFreed :=
  inferInstanceAs (Decidable (_ = _))

/-
  Every document follows the status line 200, and no other.
-/
def BodiesFollowOk
    (sent : List Sent) : Prop :=
  ∀ before str after,
    sent = before ++ .json str :: after →
      statusLines before = ["200 OK"]

/-
  A document is sent only after the status line 200; a string
  is not freed twice, and every string that was stored has been
  freed when the connection is freed.
-/
structure HandedOver
    (s : Handover) : Prop where
  body : BodiesFollowOk s.sent
  once : ∀ str, s.freed.count str ≤ 1
  freed :
    s.conFreed → ∀ str ∈ s.stored, s.freed.count str = 1

/- The thread will look at the string again. -/
def HttpPc.looksAgain : HttpPc → Bool
  | .endTime => false
  | .exit => false
  | .gone => false
  | _ => true

/- The main thread is about to store a document. -/
def MainPc.stores : MainPc → Bool
  | .fillStr (some _) => true
  | _ => false

/-
  The answer is not found between a status line 503 and the
  test before the body, and no string is stored after the
  thread has looked for the last time.
-/
def Timely
    (s : Handover) : HandoverMove → Prop
  | .http _ _ =>
      s.pc = .testReady ∧ s.ok = true ∧
        s.responseStr = "503 Service Unavailable" ∧
          s.con.jsonStatusReady = true →
        s.con.jsonStatusStr = none
  | .main view =>
      s.main.stores = true ∧ view.copied = true →
        s.pc.looksAgain = true

instance
    (s : Handover) :
    ∀ move, Decidable (Timely s move)
  | .http _ _ => inferInstanceAs (Decidable (_ → _))
  | .main _ => inferInstanceAs (Decidable (_ → _))

------------------------------------------------------------
-- What the Main Thread Does
------------------------------------------------------------

/- The main thread found a request and has not answered. -/
def MainPc.filling : MainPc → Bool
  | .fillStr _ => true
  | .fillLen _ => true
  | .fillDone => true
  | _ => false

/- The string has been stored. -/
def MainPc.answered : MainPc → Bool
  | .fillLen _ => true
  | .fillDone => true
  | _ => false

/- The connection has been found to have exited. -/
def MainPc.reaping : MainPc → Bool
  | .loiter => true
  | .free => true
  | .away => true
  | _ => false

/- A request is answered once. -/
structure Answering
    (s : Handover) : Prop where
  waiting :
    s.main.filling = true → s.con.jsonStatusReady = false
  unanswered :
    s.con.jsonStatusReady = false →
      s.main.answered = false → s.stored = []
  one : s.stored.length ≤ 1
  reaping :
    s.main.reaping = true → s.con.threadHasExited = true

/- Sending changes nothing but what was sent. -/
theorem send_frame
    (s : Handover)
    (pieces : List Sent)
    (n : Nat) :
    (s.send pieces n).main = s.main ∧
      (s.send pieces n).con = s.con ∧
      (s.send pieces n).stored = s.stored ∧
      (s.send pieces n).freed = s.freed ∧
      (s.send pieces n).responseStr = s.responseStr := by
  unfold Handover.send
  split_ifs <;> exact ⟨rfl, rfl, rfl, rfl, rfl⟩

theorem sendDocument_frame
    (s : Handover)
    (n : Nat) :
    (s.sendDocument n).main = s.main ∧
      (s.sendDocument n).con = s.con ∧
      (s.sendDocument n).stored = s.stored ∧
      (s.sendDocument n).freed = s.freed ∧
      (s.sendDocument n).responseStr = s.responseStr := by
  unfold Handover.sendDocument
  split
  · split_ifs <;> exact ⟨rfl, rfl, rfl, rfl, rfl⟩
  · exact ⟨rfl, rfl, rfl, rfl, rfl⟩

/- The main thread leaves what belongs to the other one. -/
theorem mainMove_frame
    (s : Handover)
    (view : MainView) :
    (mainMove s view).pc = s.pc ∧
      (mainMove s view).ok = s.ok ∧
      (mainMove s view).responseStr = s.responseStr ∧
      (mainMove s view).freed = s.freed ∧
      (mainMove s view).sent = s.sent ∧
      (mainMove s view).con.threadHasExited =
        s.con.threadHasExited := by
  unfold mainMove Handover.fillStr Handover.clearStr
  split <;> try split_ifs
  all_goals exact ⟨rfl, rfl, rfl, rfl, rfl, rfl⟩

/- And the other one leaves what belongs to it. -/
theorem httpMove_frame
    (s : Handover)
    (n : Nat)
    (now : Int) :
    (httpMove s n now).main = s.main ∧
      (httpMove s n now).stored = s.stored ∧
      (httpMove s n now).con.jsonStatusReady =
        s.con.jsonStatusReady ∧
      (s.con.threadHasExited = true →
        (httpMove s n now).con.threadHasExited = true) := by
  have hSend := send_frame s
  have hDocument := sendDocument_frame s n
  unfold httpMove Handover.freeStr Handover.clearStr
  split <;> try split_ifs
  all_goals simp [hSend, hDocument]

namespace Answering

variable {s : Handover}

theorem httpMove
    (hAnswer : Answering s)
    (n : Nat)
    (now : Int) :
    Answering (httpMove s n now) := by
  rcases httpMove_frame s n now with
    ⟨hMain, hStored, hReady, hExited⟩
  constructor
  · rw [hMain, hReady]
    exact hAnswer.waiting
  · rw [hMain, hReady, hStored]
    exact hAnswer.unanswered
  · rw [hStored]
    exact hAnswer.one
  · rw [hMain]
    exact fun hReaping => hExited (hAnswer.reaping hReaping)

/-
  A step of the main thread between other places than those
  where it answers.
-/
theorem move
    (hAnswer : Answering s)
    {main : MainPc}
    (hFilling :
      main.filling = true → s.con.jsonStatusReady = false)
    (hAnswered : main.answered = s.main.answered)
    (hReaping :
      main.reaping = true → s.con.threadHasExited = true) :
    Answering { s with main := main } where
  waiting := hFilling
  unanswered := by
    rw [hAnswered]
    exact hAnswer.unanswered
  one := hAnswer.one
  reaping := hReaping

theorem fillStr
    (hAnswer : Answering s)
    {json : Option Int}
    (hMain : s.main = .fillStr json)
    (copied : Bool) :
    Answering
      { s.fillStr json copied with main := .fillLen json } := by
  have hReady : s.con.jsonStatusReady = false := by
    apply hAnswer.waiting
    rw [hMain]
    rfl
  have hNone : s.stored = [] := by
    apply hAnswer.unanswered hReady
    rw [hMain]
    rfl
  unfold Handover.fillStr
  split_ifs
  · exact ⟨fun _ => hReady, nofun, by simp [hNone], nofun⟩
  · exact ⟨fun _ => hReady, nofun, hAnswer.one, nofun⟩

theorem mainMove
    (hAnswer : Answering s)
    (view : MainView) :
    Answering (mainMove s view) := by
  have hWaiting := hAnswer.waiting
  have hReaping := hAnswer.reaping
  unfold SmartSOCKSProxy.mainMove
  cases hMain : s.main <;> rw [hMain] at hWaiting hReaping
  case cleanup =>
    dsimp only
    split_ifs with hExited
    · exact hAnswer.move nofun (by rw [hMain]; rfl)
        (fun _ => hExited)
    · exact hAnswer.move nofun (by rw [hMain]; rfl) nofun
  case loiter =>
    dsimp only
    split_ifs
    · exact hAnswer.move nofun (by rw [hMain]; rfl) hReaping
    · exact hAnswer.move nofun (by rw [hMain]; rfl) nofun
  case free =>
    exact hAnswer.move nofun (by rw [hMain]; rfl) hReaping
  case needRequested =>
    dsimp only
    split_ifs
    all_goals
      exact hAnswer.move nofun (by rw [hMain]; rfl) nofun
  case needReady =>
    dsimp only
    split_ifs
    all_goals
      exact hAnswer.move nofun (by rw [hMain]; rfl) nofun
  case build =>
    exact hAnswer.move nofun (by rw [hMain]; rfl) nofun
  case fillRequested json =>
    dsimp only
    split_ifs
    all_goals
      exact hAnswer.move nofun (by rw [hMain]; rfl) nofun
  case fillReady json =>
    dsimp only
    split_ifs with hReady
    · exact hAnswer.move nofun (by rw [hMain]; rfl) nofun
    · exact hAnswer.move (fun _ => by simpa using hReady)
        (by rw [hMain]; rfl) nofun
  case fillStr json => exact hAnswer.fillStr hMain _
  case fillLen json =>
    exact ⟨hWaiting, nofun, hAnswer.one, nofun⟩
  case fillDone => exact ⟨nofun, nofun, hAnswer.one, nofun⟩
  case away =>
    dsimp only
    exact hAnswer

end Answering

------------------------------------------------------------
-- What Becomes of the String
------------------------------------------------------------

/- The string that is stored has been freed already. -/
def HttpPc.clearing : HttpPc → Bool
  | .clearLeft => true
  | .clearFinal => true
  | _ => false

/- The thread has found a string. -/
def HttpPc.freeing : HttpPc → Bool
  | .freeLeft => true
  | .freeFinal => true
  | .clearLeft => true
  | .clearFinal => true
  | _ => false

/- What was stored is in the connection, or was freed. -/
structure Collecting
    (s : Handover) : Prop where
  holds :
    s.pc.freeing = true → s.con.jsonStatusStr ≠ none
  account :
    s.stored =
      if s.pc.clearing then s.freed
      else s.freed ++ s.con.jsonStatusStr.toList
  clearing :
    s.pc.clearing = true →
      s.freed = s.con.jsonStatusStr.toList
  exited : s.con.threadHasExited = true ↔ s.pc = .gone

namespace Collecting

variable {s : Handover}

/- The thread moves between other places. -/
theorem move
    (hCollect : Collecting s)
    (hAwake : s.pc ≠ .gone)
    (hHere : s.pc.clearing = false)
    {s' : Handover}
    (hStored : s'.stored = s.stored)
    (hFreed : s'.freed = s.freed)
    (hStr : s'.con.jsonStatusStr = s.con.jsonStatusStr)
    (hExited :
      s'.con.threadHasExited = true ↔
        s.con.threadHasExited = true ∨ s'.pc = .gone)
    (hThere : s'.pc.clearing = false)
    (hHolds :
      s'.pc.freeing = true → s.con.jsonStatusStr ≠ none) :
    Collecting s' where
  holds := by
    rw [hStr]
    exact hHolds
  account := by
    have hAccount := hCollect.account
    rw [hHere] at hAccount
    rw [hStored, hFreed, hStr, hThere, hAccount]
  clearing := by
    rw [hThere]
    nofun
  exited := by
    rw [hExited, hCollect.exited]
    simp [hAwake]

/- The thread looks whether there is a string. -/
theorem look
    (hCollect : Collecting s)
    (hAwake : s.pc ≠ .gone)
    (hHere : s.pc.clearing = false)
    {pc : HttpPc}
    (hThere : pc.clearing = false)
    (hStays : pc ≠ .gone)
    (hHolds :
      pc.freeing = true → s.con.jsonStatusStr ≠ none) :
    Collecting { s with pc := pc } := by
  apply hCollect.move hAwake hHere
  all_goals simp_all

/- Before a string is stored there is none to free. -/
theorem nothing
    (hCollect : Collecting s)
    (hNone : s.stored = []) :
    s.freed = [] ∧ s.con.jsonStatusStr = none ∧
      s.pc.freeing = false := by
  have hAccount := hCollect.account
  rw [hNone] at hAccount
  have hStr : s.con.jsonStatusStr = none := by
    cases hClear : s.pc.clearing with
    | true =>
        rw [hClear, if_pos rfl,
          hCollect.clearing hClear] at hAccount
        simpa using hAccount.symm
    | false =>
        rw [hClear, if_neg nofun] at hAccount
        have hBoth := List.append_eq_nil_iff.mp hAccount.symm
        simpa using hBoth.2
  refine ⟨?_, hStr, ?_⟩
  · rw [hStr] at hAccount
    split_ifs at hAccount
    · exact hAccount.symm
    · simpa using hAccount.symm
  · by_contra hFreeing
    exact hCollect.holds (by simpa using hFreeing) hStr

/- A string is stored. -/
theorem fillStr
    (hCollect : Collecting s)
    (hAnswer : Answering s)
    {json : Option Int}
    (hMain : s.main = .fillStr json)
    (copied : Bool) :
    Collecting
      { s.fillStr json copied with main := .fillLen json } := by
  have hNone : s.stored = [] := by
    apply hAnswer.unanswered
    · apply hAnswer.waiting
      rw [hMain]
      rfl
    · rw [hMain]
      rfl
  rcases hCollect.nothing hNone with ⟨hFreed, hStr, hPc⟩
  have hClear : s.pc.clearing = false := by
    revert hPc
    cases s.pc <;> simp [HttpPc.freeing, HttpPc.clearing]
  unfold Handover.fillStr Handover.clearStr
  split_ifs
  · refine ⟨by simp, ?_, ?_, hCollect.exited⟩
    · simp [hClear, hFreed, hNone]
    · simp [hClear]
  · refine ⟨by simp [hPc], ?_, ?_, hCollect.exited⟩
    · simp [hClear, hFreed, hNone]
    · simp [hClear]

theorem mainMove
    (hCollect : Collecting s)
    (hAnswer : Answering s)
    (view : MainView) :
    Collecting (mainMove s view) := by
  have hSame :
      ∀ main, Collecting { s with main := main } :=
    fun _ => ⟨hCollect.holds, hCollect.account,
      hCollect.clearing, hCollect.exited⟩
  unfold SmartSOCKSProxy.mainMove
  cases hMain : s.main
  case fillStr json =>
    exact hCollect.fillStr hAnswer hMain _
  case fillLen json =>
    exact ⟨hCollect.holds, hCollect.account,
      hCollect.clearing, hCollect.exited⟩
  case fillDone =>
    exact ⟨hCollect.holds, hCollect.account,
      hCollect.clearing, hCollect.exited⟩
  case away =>
    dsimp only
    exact hCollect
  all_goals
    dsimp only
    try split_ifs
  all_goals exact hSame _

/- The string is freed where it was found. -/
theorem freeStr
    (hCollect : Collecting s)
    (hAnswer : Answering s)
    {pc : HttpPc}
    (hFreeing : s.pc.freeing = true)
    (hHere : s.pc.clearing = false)
    (hThere : pc.clearing = true)
    (hAwake : s.pc ≠ .gone)
    (hStays : pc ≠ .gone) :
    Collecting { s.freeStr with pc := pc } := by
  have hAccount := hCollect.account
  rw [hHere] at hAccount
  have hOne := hAnswer.one
  rw [hAccount] at hOne
  have hFreed : s.freed = [] := by
    cases hStr : s.con.jsonStatusStr with
    | none => exact absurd hStr (hCollect.holds hFreeing)
    | some str =>
        rw [hStr] at hOne
        apply List.length_eq_zero_iff.mp
        simpa using hOne
  refine ⟨fun _ => hCollect.holds hFreeing, ?_, ?_, ?_⟩
  · simp [hThere, Handover.freeStr, hAccount]
  · intro _
    simp [Handover.freeStr, hFreed]
  · have hExited := hCollect.exited
    simp only [hAwake, iff_false] at hExited
    simp [Handover.freeStr, hExited, hStays]

/- And is forgotten then. -/
theorem clearStr
    (hCollect : Collecting s)
    {pc : HttpPc}
    (hHere : s.pc.clearing = true)
    (hAwake : s.pc ≠ .gone)
    (hFreeing : pc.freeing = false)
    (hThere : pc.clearing = false)
    (hStays : pc ≠ .gone) :
    Collecting { s.clearStr with pc := pc } := by
  have hAccount := hCollect.account
  rw [hHere] at hAccount
  refine ⟨by simp [hFreeing], ?_, by simp [hThere], ?_⟩
  · simpa [hThere, Handover.clearStr] using hAccount
  · have hExited := hCollect.exited
    simp only [hAwake, iff_false] at hExited
    simp [Handover.clearStr, hExited, hStays]

theorem httpMove
    (hCollect : Collecting s)
    (hAnswer : Answering s)
    (n : Nat)
    (now : Int) :
    Collecting (httpMove s n now) := by
  have hSend := send_frame s
  have hDocument := sendDocument_frame s n
  unfold SmartSOCKSProxy.httpMove
  cases hPc : s.pc
  case freeLeft =>
    exact hCollect.freeStr hAnswer (by rw [hPc]; rfl)
      (by rw [hPc]; rfl) rfl (by simp [hPc]) nofun
  case freeFinal =>
    exact hCollect.freeStr hAnswer (by rw [hPc]; rfl)
      (by rw [hPc]; rfl) rfl (by simp [hPc]) nofun
  case clearLeft =>
    exact hCollect.clearStr (by rw [hPc]; rfl)
      (by simp [hPc]) rfl rfl nofun
  case clearFinal =>
    exact hCollect.clearStr (by rw [hPc]; rfl)
      (by simp [hPc]) rfl rfl nofun
  case gone =>
    dsimp only
    exact hCollect
  case testLeft =>
    dsimp only
    split_ifs with hSome
    · exact hCollect.look (by simp [hPc])
        (by rw [hPc]; rfl) rfl nofun
        (fun _ => Option.isSome_iff_ne_none.mp hSome)
    · exact hCollect.look (by simp [hPc])
        (by rw [hPc]; rfl) rfl nofun nofun
  case testFinal =>
    dsimp only
    split_ifs with hSome
    · exact hCollect.look (by simp [hPc])
        (by rw [hPc]; rfl) rfl nofun
        (fun _ => Option.isSome_iff_ne_none.mp hSome)
    · exact hCollect.look (by simp [hPc])
        (by rw [hPc]; rfl) rfl nofun nofun
  all_goals
    have hAwake : s.pc ≠ .gone := by simp [hPc]
    have hHere : s.pc.clearing = false := by
      rw [hPc]
      rfl
    dsimp only
    try split_ifs with hIf
  all_goals
    apply hCollect.move hAwake hHere
  all_goals
    simp_all [HttpPc.clearing, HttpPc.freeing]

end Collecting

------------------------------------------------------------
-- What Is Sent
------------------------------------------------------------

/- No document has been sent yet. -/
def NoBodies
    (sent : List Sent) : Prop :=
  ∀ str, .json str ∉ sent

theorem NoBodies.followOk
    {sent : List Sent}
    (hNone : NoBodies sent) :
    BodiesFollowOk sent := by
  rintro before str after rfl
  exact absurd (by simp) (hNone str)

theorem NoBodies.append
    {sent pieces : List Sent}
    (hNone : NoBodies sent)
    (hPieces : NoBodies pieces) :
    NoBodies (sent ++ pieces) := by
  intro str hMem
  rcases List.mem_append.mp hMem with hOld | hNew
  · exact hNone str hOld
  · exact hPieces str hNew

theorem NoBodies.take
    {pieces : List Sent}
    (hPieces : NoBodies pieces)
    (n : Nat) :
    NoBodies (pieces.take n) :=
  fun str hMem => hPieces str (List.mem_of_mem_take hMem)

/- The first document follows what was sent before it. -/
theorem NoBodies.send
    {sent : List Sent}
    (hNone : NoBodies sent)
    (hStatus : statusLines sent = ["200 OK"])
    (str : Nat) :
    BodiesFollowOk (sent ++ [.json str]) := by
  intro before str' after hSplit
  rcases List.append_eq_append_iff.mp hSplit with
    ⟨rest, hBefore, hRest⟩ | ⟨rest, hSent, hRest⟩
  · cases rest with
    | nil =>
        rw [List.append_nil] at hBefore
        rw [hBefore]
        exact hStatus
    | cons piece rest => simp at hRest
  · cases rest with
    | nil =>
        rw [List.append_nil] at hSent
        rw [← hSent]
        exact hStatus
    | cons piece rest =>
        rw [List.cons_append] at hRest
        injection hRest with hPiece
        apply absurd _ (hNone str')
        rw [hSent, ← hPiece]
        simp

theorem basicResponse_noBodies
    (responseStr : String)
    (contentType : Option String) :
    NoBodies (basicResponse responseStr contentType) := by
  intro str
  cases contentType <;> simp [basicResponse]

theorem statusLines_basicResponse
    (responseStr : String)
    (contentType : Option String) :
    statusLines (basicResponse responseStr contentType) =
      [responseStr] := by
  cases contentType <;> rfl

/- The answers of return_connection_state_json(). -/
def StatusChosen
    (responseStr : String) : Prop :=
  responseStr = "200 OK" ∨
    responseStr = "503 Service Unavailable"

/- What was sent when the thread is at `s.pc`. -/
def Responding
    (s : Handover) : Prop :=
  match s.pc with
  | .request => NoBodies s.sent ∧ statusLines s.sent = []
  | .wake => NoBodies s.sent ∧ statusLines s.sent = []
  | .poll _ => NoBodies s.sent ∧ statusLines s.sent = []
  | .sleep _ => NoBodies s.sent ∧ statusLines s.sent = []
  | .version => NoBodies s.sent ∧ statusLines s.sent = []
  | .readStatus => NoBodies s.sent ∧ statusLines s.sent = []
  | .respond _ =>
      NoBodies s.sent ∧ statusLines s.sent = [] ∧
        StatusChosen s.responseStr
  | .testReady =>
      NoBodies s.sent ∧
        (s.ok = true → statusLines s.sent = [s.responseStr]) ∧
        StatusChosen s.responseStr
  | .testStr =>
      NoBodies s.sent ∧ s.con.jsonStatusReady = true ∧
        (s.ok = true → s.con.jsonStatusStr ≠ none →
          statusLines s.sent = ["200 OK"])
  | .sendJson =>
      NoBodies s.sent ∧
        (s.ok = true → statusLines s.sent = ["200 OK"])
  | _ => BodiesFollowOk s.sent

/- The pieces that are sent go behind what was sent. -/
theorem send_noBodies
    {s : Handover}
    (hNone : NoBodies s.sent)
    {pieces : List Sent}
    (hPieces : NoBodies pieces)
    (n : Nat) :
    NoBodies (s.send pieces n).sent := by
  unfold Handover.send
  split_ifs
  · exact hNone.append (hPieces.take n)
  · exact hNone

/- When all were sent, all status lines were. -/
theorem statusLines_send
    {s : Handover}
    {pieces : List Sent}
    {n : Nat}
    (hOk : (s.send pieces n).ok = true) :
    statusLines (s.send pieces n).sent =
      statusLines s.sent ++ statusLines pieces := by
  unfold Handover.send at hOk ⊢
  split_ifs at hOk with hHere
  · rw [if_pos hHere]
    have hAll : pieces.take n = pieces :=
      List.take_of_length_le (by simpa using hOk)
    simp [hAll, statusLines]
  · exact absurd hOk hHere

/- A text is not a status line. -/
theorem statusLines_send_text
    (s : Handover)
    (str : String)
    (n : Nat) :
    statusLines (s.send [.text str] n).sent =
      statusLines s.sent := by
  unfold Handover.send
  split_ifs
  · cases n <;> simp [statusLines]
  · rfl

/- A document is sent while the socket works. -/
theorem sendDocument_followOk
    {s : Handover}
    (hNone : NoBodies s.sent)
    (hStatus :
      s.ok = true → statusLines s.sent = ["200 OK"])
    (n : Nat) :
    BodiesFollowOk (s.sendDocument n).sent := by
  unfold Handover.sendDocument
  split
  · split_ifs with hOk
    · exact hNone.send (hStatus hOk) _
    · exact hNone.followOk
  · exact hNone.followOk

/-
  Once the answer is ready, the main thread does not touch
  the string.
-/
theorem mainMove_ready
    {s : Handover}
    (hAnswer : Answering s)
    (hReady : s.con.jsonStatusReady = true)
    (view : MainView) :
    (mainMove s view).con.jsonStatusReady = true ∧
      (mainMove s view).con.jsonStatusStr =
        s.con.jsonStatusStr := by
  have hWaiting := hAnswer.waiting
  rw [hReady] at hWaiting
  unfold mainMove
  cases hMain : s.main <;> rw [hMain] at hWaiting
  case fillStr json => exact absurd (hWaiting rfl) nofun
  case fillLen json => exact absurd (hWaiting rfl) nofun
  case fillDone => exact absurd (hWaiting rfl) nofun
  all_goals
    dsimp only
    try split_ifs
  all_goals exact ⟨hReady, rfl⟩

theorem Responding.mainMove
    {s : Handover}
    (hRespond : Responding s)
    (hAnswer : Answering s)
    (view : MainView) :
    Responding (mainMove s view) := by
  rcases mainMove_frame s view with
    ⟨hPc, hOk, hStr, _, hSent, _⟩
  have hReady := mainMove_ready hAnswer
  unfold Responding at hRespond ⊢
  rw [hPc, hOk, hStr, hSent]
  cases hHere : s.pc <;> rw [hHere] at hRespond
  case testStr =>
    rcases hRespond with ⟨hNone, hThere, hStatus⟩
    rcases hReady hThere view with ⟨hStill, hSame⟩
    exact ⟨hNone, hStill, hSame ▸ hStatus⟩
  all_goals exact hRespond

theorem Responding.httpMove
    {s : Handover}
    (hRespond : Responding s)
    (n : Nat)
    (now : Int)
    (hTimely : Timely s (.http n now)) :
    Responding (httpMove s n now) := by
  unfold Responding at hRespond
  unfold SmartSOCKSProxy.httpMove
  cases hPc : s.pc <;> rw [hPc] at hRespond
  case poll i =>
    dsimp only
    split_ifs <;> exact hRespond
  case version =>
    refine ⟨send_noBodies hRespond.1 ?_ n, ?_⟩
    · intro str
      simp
    · exact (statusLines_send_text s _ n).trans hRespond.2
  case readStatus =>
    dsimp only
    split_ifs
    · exact ⟨hRespond.1, hRespond.2, .inl rfl⟩
    · exact ⟨hRespond.1, hRespond.2, .inr rfl⟩
  case respond contentType =>
    rcases hRespond with ⟨hNone, hStatus, hChosen⟩
    have hSame :
        (s.send (basicResponse s.responseStr contentType)
          n).responseStr = s.responseStr :=
      (send_frame s _ n).2.2.2.2
    refine ⟨send_noBodies hNone
      (basicResponse_noBodies _ _) n, ?_, ?_⟩
    · intro hOk
      dsimp only at hOk ⊢
      rw [statusLines_send hOk, hStatus,
        statusLines_basicResponse, hSame]
      rfl
    · dsimp only
      rw [hSame]
      exact hChosen
  case testReady =>
    rcases hRespond with ⟨hNone, hStatus, hChosen⟩
    dsimp only
    split_ifs with hReady
    · refine ⟨hNone, hReady, ?_⟩
      intro hOk hSome
      rcases hChosen with h200 | h503
      · exact (hStatus hOk).trans (by rw [h200])
      · exact absurd (hTimely ⟨hPc, hOk, h503, hReady⟩) hSome
    · exact hNone.followOk
  case testStr =>
    rcases hRespond with ⟨hNone, _, hStatus⟩
    dsimp only
    split_ifs with hSome
    · refine ⟨hNone, fun hOk => hStatus hOk ?_⟩
      exact Option.isSome_iff_ne_none.mp hSome
    · exact hNone.followOk
  case sendJson =>
    exact sendDocument_followOk hRespond.1 hRespond.2 n
  case testLeft =>
    dsimp only
    split_ifs <;> exact hRespond
  case testFinal =>
    dsimp only
    split_ifs <;> exact hRespond
  case gone =>
    dsimp only
    unfold Responding
    rw [hPc]
    exact hRespond
  all_goals exact hRespond

------------------------------------------------------------
-- Timely Answers
------------------------------------------------------------

/- Nothing is left behind. -/
def Settled
    (s : Handover) : Prop :=
  s.pc.looksAgain = false → s.con.jsonStatusStr = none

theorem Settled.mainMove
    {s : Handover}
    (hSettled : Settled s)
    {view : MainView}
    (hTimely : Timely s (.main view)) :
    Settled (mainMove s view) := by
  intro hPc
  rw [(mainMove_frame s view).1] at hPc
  have hNone := hSettled hPc
  unfold SmartSOCKSProxy.mainMove
  cases hMain : s.main
  case fillStr json =>
    have hLate : ¬ (json.isSome && view.copied) = true := by
      intro hStores
      rw [Bool.and_eq_true] at hStores
      rcases Option.isSome_iff_exists.mp hStores.1 with
        ⟨len, rfl⟩
      have hAgain := hTimely ⟨by rw [hMain]; rfl, hStores.2⟩
      rw [hPc] at hAgain
      contradiction
    unfold Handover.fillStr
    dsimp only
    rw [if_neg hLate]
    rfl
  all_goals
    dsimp only
    try split_ifs
  all_goals exact hNone

theorem Settled.httpMove
    {s : Handover}
    (hSettled : Settled s)
    (n : Nat)
    (now : Int) :
    Settled (httpMove s n now) := by
  unfold Settled at hSettled ⊢
  unfold SmartSOCKSProxy.httpMove
  cases hPc : s.pc <;> rw [hPc] at hSettled
  case testFinal =>
    dsimp only
    split_ifs with hSome
    · nofun
    · exact fun _ => Option.not_isSome_iff_eq_none.mp hSome
  case clearFinal => exact fun _ => rfl
  case endTime => exact hSettled
  case exit => exact hSettled
  case gone =>
    dsimp only
    exact fun _ => hSettled rfl
  all_goals
    dsimp only
    try split_ifs
  all_goals nofun

------------------------------------------------------------
-- All Runs
------------------------------------------------------------

namespace Handover

/- What holds in every run. -/
theorem sound
    {s : Handover}
    (hReach : statusHandover.Reachable s) :
    Answering s ∧ Collecting s := by
  apply hReach.invariant
  · rintro _ rfl
    exact ⟨⟨nofun, fun _ _ => rfl, by decide, nofun⟩,
      ⟨nofun, rfl, nofun, by decide⟩⟩
  · rintro s move _ _ ⟨hAnswer, hCollect⟩ rfl
    cases move with
    | http n now =>
        exact ⟨hAnswer.httpMove n now,
          hCollect.httpMove hAnswer n now⟩
    | main view =>
        exact ⟨hAnswer.mainMove view,
          hCollect.mainMove hAnswer view⟩

/- What holds in every run with timely answers. -/
theorem timely
    {s : Handover}
    (hReach : (statusHandover.only Timely).Reachable s) :
    Responding s ∧ Settled s := by
  apply hReach.invariant
  · rintro _ rfl
    refine ⟨⟨?_, rfl⟩, nofun⟩
    exact fun _ => List.not_mem_nil
  · rintro s move _ hBefore ⟨hRespond, hSettled⟩
      ⟨hTimely, rfl⟩
    have hAnswer := (sound hBefore.of_only).1
    cases move with
    | http n now =>
        exact ⟨hRespond.httpMove n now hTimely,
          hSettled.httpMove n now⟩
    | main view =>
        exact ⟨hRespond.mainMove hAnswer view,
          hSettled.mainMove hTimely⟩

end Handover

/- What is sent at any time follows the status line 200. -/
theorem Responding.body
    {s : Handover}
    (hRespond : Responding s) :
    BodiesFollowOk s.sent := by
  unfold Responding at hRespond
  split at hRespond
  all_goals
    first
    | exact hRespond
    | exact hRespond.1.followOk

/- No string is freed twice, in any run. -/
theorem Collecting.once
    {s : Handover}
    (hCollect : Collecting s)
    (hAnswer : Answering s)
    (str : Nat) :
    s.freed.count str ≤ 1 := by
  have hAccount := hCollect.account
  have hOne := hAnswer.one
  have hFreed : s.freed.length ≤ s.stored.length := by
    rw [hAccount]
    split_ifs <;> simp
  exact (List.count_le_length).trans (hFreed.trans hOne)

/-
  In every run whose steps are timely, the document is sent
  only after the status line 200, and every string is freed
  once before the connection is.
-/
theorem statusHandover_handedOver
    {s : Handover}
    (hReach : (statusHandover.only Timely).Reachable s) :
    HandedOver s := by
  rcases Handover.sound hReach.of_only with
    ⟨hAnswer, hCollect⟩
  rcases Handover.timely hReach with ⟨hRespond, hSettled⟩
  refine ⟨hRespond.body, hCollect.once hAnswer, ?_⟩
  intro hFreed str hStored
  have hGone : s.pc = .gone := by
    apply hCollect.exited.mp
    apply hAnswer.reaping
    rw [hFreed]
    rfl
  have hStr : s.con.jsonStatusStr = none := by
    apply hSettled
    rw [hGone]
    rfl
  have hAccount := hCollect.account
  rw [hGone, hStr] at hAccount
  have hSame : s.stored = s.freed := by
    simpa [HttpPc.clearing] using hAccount
  apply le_antisymm (hCollect.once hAnswer str)
  apply List.count_pos_iff.mpr
  rw [← hSame]
  exact hStored

/- A document that is ready before the thread looks. -/
theorem statusHandover_handedOver_answered :
    ∃ s : Handover,
      s.conFreed ∧ s.stored = [0] ∧ .json 0 ∈ s.sent ∧
        HandedOver s := by
  let http : HandoverMove := .http 99 1000
  let main : HandoverMove :=
    .main ⟨false, false, some 20, true, 1005⟩
  let moves : List HandoverMove :=
    [http] ++ List.replicate 9 main ++
      List.replicate 14 http ++ List.replicate 3 main
  have hStart :
      (statusHandover.only Timely).Reachable newHandover :=
    .start rfl
  refine ⟨moves.foldl handoverMove newHandover,
    ?_, ?_, ?_, ?_⟩
  · decide +kernel
  · decide +kernel
  · decide +kernel
  · apply statusHandover_handedOver
    apply Transition.Reachable.run_only hStart
    decide +kernel

/-
  The main thread answers between the status line 503 and the
  test before the body; and it answers when the thread has
  gone.
-/
theorem statusHandover_late :
    (∃ s : Handover, statusHandover.Reachable s ∧
      ¬ HandedOver s ∧
      s.sent.getLast? = some (.json 0) ∧
      "503 Service Unavailable" ∈ statusLines s.sent) ∧
    (∃ s : Handover, statusHandover.Reachable s ∧
      ¬ HandedOver s ∧
      s.conFreed ∧ s.stored = [0] ∧ s.freed = []) := by
  let http : HandoverMove := .http 99 1000
  let main : HandoverMove :=
    .main ⟨false, false, some 20, true, 1000⟩
  let later : HandoverMove :=
    .main ⟨false, false, some 20, true, 1005⟩
  let answer : List HandoverMove := List.replicate 9 main
  let first : List HandoverMove :=
    List.replicate 206 http ++ answer ++ List.replicate 3 http
  let second : List HandoverMove :=
    List.replicate 211 http ++ main :: answer ++
      List.replicate 3 later
  let unavailable := first.foldl handoverMove newHandover
  let leaked := second.foldl handoverMove newHandover
  have hStart : statusHandover.Reachable newHandover :=
    .start rfl
  refine ⟨⟨unavailable, hStart.run first, ?_, ?_, ?_⟩,
    ⟨leaked, hStart.run second, ?_, ?_, ?_, ?_⟩⟩
  · intro hHanded
    have hSplit :
        unavailable.sent =
          unavailable.sent.dropLast ++ .json 0 :: [] := by
      decide +kernel
    have hOk := hHanded.body _ _ _ hSplit
    revert hOk
    decide +kernel
  · decide +kernel
  · decide +kernel
  · intro hHanded
    have hOnce : leaked.freed.count 0 = 1 := by
      apply hHanded.freed
      · decide +kernel
      · decide +kernel
    revert hOnce
    decide +kernel
  · decide +kernel
  · decide +kernel
  · decide +kernel

end SmartSOCKSProxy
