import SmartSOCKSProxy.Server.Cleanup

/-
  Connections do not outlive the next clean-up.

  A connection whose thread has ended long enough ago is freed
  while the main thread cleans up, within a number of its
  moves that depends on the lengths of the lists, whatever the
  other threads do.

  Key definitions include:
    * `Server.cleaningCost`, `Ahead`, `Awaits`
    * `ServerMove.isMain`

  Key theorems include:
    * `Awaits.loopMove`, `Awaits.threadMove`
    * `mem_freed_serverMove`
    * `serving_reclaims`
-/

namespace SmartSOCKSProxy

------------------------------------------------------------
-- The Way to a Connection
------------------------------------------------------------

/- The moves that are left at a connection. -/
def CleanupPc.cost : CleanupPc → Nat
  | .testExited => 3
  | .testTime => 2
  | .free => 1

/- The moves it takes to clean up some proxies. -/
def Server.cleaningCost
    (s : Server)
    (proxies : List Nat) : Nat :=
  (proxies.map fun proxy =>
    3 * (s.listOf proxy).length + 1).sum

/-
  The main thread still comes to the connection: its proxy is
  one of those that are left, or it is in the part of the list
  that is left, and had expired when the list was begun.
-/
inductive Ahead
    (s : Server)
    (proxy con cost : Nat) : Prop
| cleaning
    {proxies : List Nat}
    (hMain : s.main = .cleaning proxies)
    (hProxy : proxy ∈ proxies)
    (hCost : s.cleaningCost proxies ≤ cost)
| visiting
    {pc : CleanupPc}
    {vars : CleanupVars}
    {proxies before after : List Nat}
    (hMain : s.main = .visiting pc vars proxies)
    (hList : s.listOf vars.proxy =
      before ++ vars.cur :: after)
    (hAhead : proxy ∈ proxies ∨
      con ∈ vars.cur :: after ∧
        Expired s.heap vars.now con = true)
    (hCost : pc.cost + 3 * after.length +
      s.cleaningCost proxies ≤ cost)

/- The connection waits to be freed. -/
structure Awaits
    (s : Server)
    (proxy con cost : Nat) : Prop where
  listed : con ∈ s.listOf proxy
  expired : Expired s.heap s.clock con = true
  ahead : Ahead s proxy con cost

variable {setup : ServerSetup}
variable {s s' : Server}
variable {proxy con cost : Nat}
variable {proxies : List Nat}
variable {vars : CleanupVars}

/- What has expired stays so when time goes on. -/
theorem expired_of_later
    {heap : ConHeap}
    {now now' : Int}
    (hExpired : Expired heap now con = true)
    (hLater : now ≤ now') :
    Expired heap now' con = true := by
  unfold Expired at hExpired ⊢
  split at hExpired
  · contradiction
  · unfold ConFields.expired at hExpired ⊢
    rw [Bool.and_eq_true, decide_eq_true_eq] at hExpired ⊢
    exact ⟨hExpired.1, by omega⟩

/- It depends on the connection's own fields. -/
theorem expired_of_fields
    {heap heap' : ConHeap}
    {now : Int}
    (hExpired : Expired heap now con = true)
    (hFields : heap'.fields con = heap.fields con) :
    Expired heap' now con = true := by
  unfold Expired at hExpired ⊢
  rwa [hFields]

theorem exists_of_expired
    {heap : ConHeap}
    {now : Int}
    (hExpired : Expired heap now con = true) :
    ∃ f, heap.fields con = some f ∧
      f.threadHasExited = true ∧ 4 < now - f.endTime := by
  unfold Expired at hExpired
  split at hExpired
  · contradiction
  · rename_i f hFields
    unfold ConFields.expired at hExpired
    rw [Bool.and_eq_true, decide_eq_true_eq] at hExpired
    exact ⟨f, hFields, hExpired⟩

/- Shorter lists are cleaned up sooner. -/
theorem cleaningCost_le
    (hLists : ∀ p,
      (s'.listOf p).length ≤ (s.listOf p).length)
    (proxies : List Nat) :
    s'.cleaningCost proxies ≤ s.cleaningCost proxies := by
  unfold Server.cleaningCost
  induction proxies with
  | nil => exact le_rfl
  | cons p proxies ih =>
      have hHere := hLists p
      rw [List.map_cons, List.map_cons, List.sum_cons,
        List.sum_cons]
      omega

------------------------------------------------------------
-- The Main Thread
------------------------------------------------------------

/- The loop goes on behind a connection. -/
theorem Ahead.cleanupNext
    (hNodes : ∀ c ∈ s.listOf vars.proxy,
      ∃ node, s.heap c = some node)
    {before after : List Nat}
    (hList : s.listOf vars.proxy = before ++ after)
    (hNext : vars.next = after.head?)
    (hAhead : proxy ∈ proxies ∨
      con ∈ after ∧ Expired s.heap vars.now con = true)
    (hCost :
      3 * after.length + s.cleaningCost proxies ≤ cost) :
    Ahead (s.cleanupNext vars proxies) proxy con cost := by
  unfold Server.cleanupNext
  rw [hNext]
  cases after with
  | nil =>
      refine .cleaning rfl (hAhead.resolve_right ?_) ?_
      · exact fun hHere => nomatch hHere.1
      · rw [List.length_nil, Nat.mul_zero, Nat.zero_add]
          at hCost
        exact hCost
  | cons cur after =>
      have hMem : cur ∈ s.listOf vars.proxy := by
        rw [hList]
        exact List.mem_append_right _ List.mem_cons_self
      rcases hNodes cur hMem with ⟨node, hNode⟩
      simp only [List.head?_cons, Server.withNode, hNode]
      refine .visiting rfl hList hAhead ?_
      rw [List.length_cons] at hCost
      change 3 + 3 * after.length + s.cleaningCost proxies ≤
        cost
      omega

/- Going on changes neither the lists nor the objects. -/
theorem cleanupNext_same
    (s : Server)
    (vars : CleanupVars)
    (proxies : List Nat) :
    (s.cleanupNext vars proxies).heap = s.heap ∧
      (s.cleanupNext vars proxies).clock = s.clock ∧
      (s.cleanupNext vars proxies).accepted = s.accepted ∧
      (s.cleanupNext vars proxies).freed = s.freed := by
  unfold Server.cleanupNext Server.withNode Server.setHead
  split
  · split
    · exact ⟨rfl, rfl, rfl, rfl⟩
    · exact ⟨rfl, rfl, rfl, rfl⟩
  · exact ⟨rfl, rfl, rfl, rfl⟩

theorem listOf_congr
    (hAccepted : s'.accepted = s.accepted)
    (hFreed : s'.freed = s.freed)
    (p : Nat) :
    s'.listOf p = s.listOf p := by
  unfold Server.listOf
  rw [hAccepted, hFreed]

theorem Awaits.of_same
    (hListed : con ∈ s.listOf proxy)
    (hExpired : Expired s.heap s.clock con = true)
    (hHeap : s'.heap = s.heap)
    (hClock : s'.clock = s.clock)
    (hAccepted : s'.accepted = s.accepted)
    (hFreed : s'.freed = s.freed)
    (hAhead : Ahead s' proxy con cost) :
    Awaits s' proxy con cost := by
  refine ⟨?_, ?_, hAhead⟩
  · rw [listOf_congr hAccepted hFreed]
    exact hListed
  · rw [hHeap, hClock]
    exact hExpired

/- A list is begun, or it is empty. -/
theorem Awaits.cleaningMove
    (setup : ServerSetup)
    (hKept : ServerKept s)
    (hAwaits : Awaits s proxy con cost)
    (hMain : s.main = .cleaning proxies)
    (hProxy : proxy ∈ proxies)
    (hCost : s.cleaningCost proxies ≤ cost)
    (view : LoopView) :
    ∃ m < cost,
      Awaits (loopMove setup s view) proxy con m := by
  have hHeads : s.head = s.heads :=
    Server.head_of_main (by simp [hMain])
  cases proxies with
  | nil => exact nomatch hProxy
  | cons p proxies =>
      have hChain := hKept.lists p
      rw [hHeads] at hChain
      have hSum : s.cleaningCost (p :: proxies) =
          3 * (s.listOf p).length + 1 +
            s.cleaningCost proxies := by
        unfold Server.cleaningCost
        rw [List.map_cons, List.sum_cons]
      unfold SmartSOCKSProxy.loopMove
      rw [hMain]
      dsimp only
      cases hPool : s.heads p with
      | none =>
          have hEmpty : s.listOf p = [] := by
            cases hList : s.listOf p with
            | nil => rfl
            | cons c cons =>
                rw [hList, hPool] at hChain
                exact nomatch hChain.1
          have hLater : proxy ∈ proxies := by
            rcases List.mem_cons.mp hProxy with rfl | hLater
            · have hListed := hAwaits.listed
              rw [hEmpty] at hListed
              exact nomatch hListed
            · exact hLater
          refine ⟨cost - 1, by omega,
            .of_same hAwaits.listed hAwaits.expired rfl rfl
              rfl rfl (.cleaning rfl hLater ?_)⟩
          change s.cleaningCost proxies ≤ cost - 1
          omega
      | some pool =>
          have hMem := hChain.head_mem hPool
          rcases hKept.node_of_listed hMem with
            ⟨node, hNode⟩
          simp only [Server.withNode, hNode]
          cases hList : s.listOf p with
          | nil =>
              rw [hList] at hMem
              exact nomatch hMem
          | cons c after =>
              rw [hList, hPool] at hChain
              cases hChain.1
              rw [hList, List.length_cons] at hSum
              have hAll :
                  s.listOf p = [] ++ pool :: after := hList
              refine ⟨cost - 1, by omega,
                .of_same hAwaits.listed hAwaits.expired rfl
                  rfl rfl rfl (.visiting rfl hAll ?_ ?_)⟩
              · rcases List.mem_cons.mp hProxy with
                  rfl | hLater
                · have hListed := hAwaits.listed
                  rw [hList] at hListed
                  exact Or.inr ⟨hListed, hAwaits.expired⟩
                · exact Or.inl hLater
              · change 3 + 3 * after.length +
                  s.cleaningCost proxies ≤ cost - 1
                omega

/- The connection that is looked at is kept. -/
theorem Awaits.keep
    (hKept : ServerKept s)
    (hAwaits : Awaits s proxy con cost)
    {pc : CleanupPc}
    (hMain : s.main = .visiting pc vars proxies)
    {before after : List Nat}
    (hList : s.listOf vars.proxy =
      before ++ vars.cur :: after)
    (hAhead : proxy ∈ proxies ∨
      con ∈ vars.cur :: after ∧
        Expired s.heap vars.now con = true)
    (hOther : Expired s.heap vars.now vars.cur = false) :
    Awaits (s.cleanupNext vars proxies) proxy con
      (3 * after.length + s.cleaningCost proxies) := by
  have hLoop := hKept.main
  unfold LoopFits at hLoop
  rw [hMain] at hLoop
  rcases hLoop with ⟨_, hNext, _, _⟩
  have hChain := hKept.lists vars.proxy
  rw [hList] at hChain
  rw [hChain.next_of_suffix] at hNext
  rcases cleanupNext_same s vars proxies with
    ⟨hHeap, hClock, hAccepted, hFreed⟩
  have hSplit : s.listOf vars.proxy =
      (before ++ [vars.cur]) ++ after := by
    rw [hList, List.append_assoc]
    rfl
  refine .of_same hAwaits.listed hAwaits.expired hHeap hClock
    hAccepted hFreed
    (Ahead.cleanupNext ?_ hSplit hNext ?_ le_rfl)
  · exact fun c hMem => hKept.node_of_listed hMem
  · apply hAhead.imp_right
    rintro ⟨hMem, hExpired⟩
    refine ⟨?_, hExpired⟩
    rcases List.mem_cons.mp hMem with rfl | hAfter
    · rw [hOther] at hExpired
      contradiction
    · exact hAfter

/- Another connection of the list is freed. -/
theorem Awaits.free
    (hKept : ServerKept s)
    (hAwaits : Awaits s proxy con cost)
    (hMain : s.main = .visiting .free vars proxies)
    {before after : List Nat}
    (hList : s.listOf vars.proxy =
      before ++ vars.cur :: after)
    (hAhead : proxy ∈ proxies ∨
      con ∈ vars.cur :: after ∧
        Expired s.heap vars.now con = true) :
    con ∈ (s.cleanupFree vars proxies).freed ∨
      Awaits (s.cleanupFree vars proxies) proxy con
        (3 * after.length + s.cleaningCost proxies) := by
  have hLoop := hKept.main
  unfold LoopFits at hLoop
  rw [hMain] at hLoop
  rcases hLoop with ⟨hMem, hNext, _, _⟩
  have hOwn := hKept.lists vars.proxy
  have hSelf := hOwn.next_ne_self hMem
  rcases freeClientConnection_spec (hKept.listed hMem)
    (fun n hn => ⟨hKept.listed (hOwn.next_mem hMem hn),
      fun hSame => hSelf (hSame ▸ hn)⟩)
    (fun p hp => hKept.listed (hOwn.prev_mem hMem hp)) with
    ⟨heap', hFree, hLinks, hFields⟩
  unfold Server.cleanupFree
  rw [hFree]
  simp only [Server.withHeap]
  have hStored := hKept.freeStored hMain hLinks hFields
    (fun p => rfl)
  generalize hAfterFree :
    { s with heap := heap', freed := vars.cur :: s.freed } =
      s₁ at hStored ⊢
  have hFreed₁ : s₁.freed = vars.cur :: s.freed :=
    hAfterFree ▸ rfl
  have hAccepted₁ : s₁.accepted = s.accepted :=
    hAfterFree ▸ rfl
  have hHeap₁ : s₁.heap = heap' := hAfterFree ▸ rfl
  have hClock₁ : s₁.clock = s.clock := hAfterFree ▸ rfl
  generalize hVars :
    { vars with
      pool :=
        if vars.pool = some vars.cur then vars.next
        else vars.pool } = vars₁
  have hNow : vars₁.now = vars.now := hVars ▸ rfl
  have hProxy₁ : vars₁.proxy = vars.proxy := hVars ▸ rfl
  have hNext₁ : vars₁.next = vars.next := hVars ▸ rfl
  rcases cleanupNext_same s₁ vars₁ proxies with
    ⟨hHeap, hClock, hAccepted, hFreed⟩
  by_cases hCon : con = vars.cur
  · left
    rw [hFreed, hFreed₁, hCon]
    exact List.mem_cons_self
  have hLists : ∀ p, s₁.listOf p =
      (s.listOf p).filter fun other => other ≠ vars.cur :=
    ServerKept.listOf_freed hAccepted₁ hFreed₁
  have hRest : s₁.listOf vars₁.proxy = before ++ after := by
    have hOnce := hOwn.nodup
    rw [hList, List.nodup_middle, List.nodup_cons] at hOnce
    rw [hLists, hProxy₁, hList, List.filter_append,
      List.filter_cons_of_neg (by simp),
      ← List.filter_append, ServerKept.filter_ne_self hOnce.1]
  have hSame : s₁.heap.fields con = s.heap.fields con := by
    rw [hHeap₁, hFields, Function.update_of_ne hCon]
  right
  refine .of_same ?_ ?_ hHeap hClock hAccepted hFreed
    (Ahead.cleanupNext ?_ hRest ?_ ?_ ?_)
  · rw [hLists, List.mem_filter]
    exact ⟨hAwaits.listed, by simpa using hCon⟩
  · rw [hClock₁]
    exact expired_of_fields hAwaits.expired hSame
  · exact fun c hMem => hStored.node_of_listed hMem
  · rw [hList] at hOwn
    rw [hNext₁, hNext, hOwn.next_of_suffix]
  · apply hAhead.imp_right
    rintro ⟨hHere, hExpired⟩
    rw [hNow]
    exact ⟨(List.mem_cons.mp hHere).resolve_left hCon,
      expired_of_fields hExpired hSame⟩
  · apply Nat.add_le_add_left
    apply cleaningCost_le
    intro p
    rw [hLists]
    exact List.length_filter_le _ _

/- One step at a connection. -/
theorem Awaits.cleanupMove
    (hKept : ServerKept s)
    (hAwaits : Awaits s proxy con cost)
    {pc : CleanupPc}
    (hMain : s.main = .visiting pc vars proxies)
    {before after : List Nat}
    (hList : s.listOf vars.proxy =
      before ++ vars.cur :: after)
    (hAhead : proxy ∈ proxies ∨
      con ∈ vars.cur :: after ∧
        Expired s.heap vars.now con = true)
    (hCost : pc.cost + 3 * after.length +
      s.cleaningCost proxies ≤ cost) :
    con ∈ (cleanupMove s vars proxies pc).freed ∨
      ∃ m < cost,
        Awaits (cleanupMove s vars proxies pc) proxy con
          m := by
  have hMem : vars.cur ∈ s.listOf vars.proxy := by
    rw [hList]
    exact List.mem_append_right _ List.mem_cons_self
  rcases hKept.node_of_listed hMem with ⟨node, hNode⟩
  have hExpired : Expired s.heap vars.now vars.cur =
      node.fields.expired vars.now := by
    unfold Expired ConHeap.fields
    rw [hNode]
    rfl
  have hKeep : node.fields.expired vars.now = false →
      ∃ m < cost,
        Awaits (s.cleanupNext vars proxies) proxy con m := by
    intro hNot
    refine ⟨_, ?_, hAwaits.keep hKept hMain hList hAhead
      (hExpired.trans hNot)⟩
    have hPos : 0 < pc.cost := by cases pc <;> decide
    omega
  have hVisit : ∀ pc', pc'.cost < pc.cost →
      ∃ m < cost,
        Awaits
          { s with main := .visiting pc' vars proxies }
          proxy con m := by
    intro pc' hLess
    refine ⟨cost - 1, by omega, .of_same hAwaits.listed
      hAwaits.expired rfl rfl rfl rfl
      (.visiting rfl hList hAhead ?_)⟩
    change pc'.cost + 3 * after.length +
      s.cleaningCost proxies ≤ cost - 1
    omega
  unfold SmartSOCKSProxy.cleanupMove
  cases pc with
  | testExited =>
      right
      simp only [Server.withNode, hNode]
      split
      · exact hVisit .testTime (by decide)
      · rename_i hRuns
        apply hKeep
        unfold ConFields.expired
        rw [Bool.eq_false_iff.mpr hRuns, Bool.false_and]
  | testTime =>
      right
      simp only [Server.withNode, hNode]
      split
      · exact hVisit .free (by decide)
      · rename_i hRecent
        apply hKeep
        unfold ConFields.expired
        rw [decide_eq_false hRecent, Bool.and_false]
  | free =>
      rcases hAwaits.free hKept hMain hList hAhead with
        hFreed | hNext
      · exact Or.inl hFreed
      · right
        have hPos : CleanupPc.cost .free = 1 := rfl
        exact ⟨_, by omega, hNext⟩

/- Every move of the main thread gets nearer. -/
theorem Awaits.loopMove
    (setup : ServerSetup)
    (hKept : ServerKept s)
    (hAwaits : Awaits s proxy con cost)
    (view : LoopView) :
    con ∈ (loopMove setup s view).freed ∨
      ∃ m < cost,
        Awaits (loopMove setup s view) proxy con m := by
  rcases hAwaits.ahead with
    ⟨hMain, hProxy, hCost⟩ | ⟨hMain, hList, hAhead, hCost⟩
  · right
    exact hAwaits.cleaningMove setup hKept hMain hProxy hCost
      view
  · have hMove := hAwaits.cleanupMove hKept hMain hList
      hAhead hCost
    unfold SmartSOCKSProxy.loopMove
    rw [hMain]
    exact hMove

------------------------------------------------------------
-- The Threads
------------------------------------------------------------

/- A thread leaves the main loop and the lists alone. -/
theorem threadMove_same
    (s : Server)
    (other : Nat)
    (act : ThreadAct) :
    (threadMove s other act).main = s.main ∧
      (threadMove s other act).clock = s.clock ∧
      (threadMove s other act).accepted = s.accepted ∧
      (threadMove s other act).freed = s.freed := by
  unfold SmartSOCKSProxy.threadMove Server.withNode
    Server.withHeap Server.setThread
  split
  · exact ⟨rfl, rfl, rfl, rfl⟩
  · split
    all_goals
      split
      · exact ⟨rfl, rfl, rfl, rfl⟩
      · exact ⟨rfl, rfl, rfl, rfl⟩
  · split
    · exact ⟨rfl, rfl, rfl, rfl⟩
    · exact ⟨rfl, rfl, rfl, rfl⟩
  · split
    · exact ⟨rfl, rfl, rfl, rfl⟩
    · exact ⟨rfl, rfl, rfl, rfl⟩
  · exact ⟨rfl, rfl, rfl, rfl⟩

theorem fields_withHeap
    {other : Nat}
    (hOther : con ≠ other)
    (change : ConFields → ConFields)
    {go : Server → Server}
    (hGo : ∀ t, (go t).heap = t.heap) :
    (s.withHeap (s.heap.setFields other change) go).heap.fields
        con =
      s.heap.fields con := by
  unfold Server.withHeap ConHeap.setFields ConHeap.write
  cases hNode : s.heap other with
  | none => rfl
  | some node =>
      simp only [Option.map_some, hGo, ConHeap.fields_set]
      exact Function.update_of_ne hOther _ _

/- It writes to its own connection, until it has exited. -/
theorem threadMove_fields
    (hKept : ServerKept s)
    {f : ConFields}
    (hFields : s.heap.fields con = some f)
    (hExited : f.threadHasExited = true)
    (other : Nat)
    (act : ThreadAct) :
    (threadMove s other act).heap.fields con =
      s.heap.fields con := by
  by_cases hOther : con = other
  · subst hOther
    unfold SmartSOCKSProxy.threadMove
    rcases (hKept.threads con).exited f hFields hExited with
      hAbsent | hDone
    · rw [hAbsent]
    · rw [hDone]
  · unfold SmartSOCKSProxy.threadMove
    split
    · rfl
    · split
      · unfold Server.withNode
        split
        · rfl
        · rfl
      · unfold Server.withNode Server.setThread
        split
        · rfl
        · rfl
      · exact fields_withHeap hOther _ fun _ => rfl
    · exact fields_withHeap hOther _ fun _ => rfl
    · exact fields_withHeap hOther _ fun _ => rfl
    · rfl

/- The way to a connection is not changed by others. -/
theorem Ahead.of_same
    (hAhead : Ahead s proxy con cost)
    (hMain : s'.main = s.main)
    (hAccepted : s'.accepted = s.accepted)
    (hFreed : s'.freed = s.freed)
    (hFields : s'.heap.fields con = s.heap.fields con) :
    Ahead s' proxy con cost := by
  have hLists := listOf_congr hAccepted hFreed
  have hSum : ∀ proxies,
      s'.cleaningCost proxies = s.cleaningCost proxies := by
    intro proxies
    unfold Server.cleaningCost
    simp only [hLists]
  rcases hAhead with
    ⟨hHere, hProxy, hCost⟩ | ⟨hHere, hList, hAhead, hCost⟩
  · exact .cleaning (hMain.trans hHere) hProxy
      ((hSum _).trans_le hCost)
  · refine .visiting (hMain.trans hHere)
      ((hLists _).trans hList) (hAhead.imp_right ?_) ?_
    · exact fun h => ⟨h.1, expired_of_fields h.2 hFields⟩
    · rw [hSum]
      exact hCost

theorem Awaits.threadMove
    (hKept : ServerKept s)
    (hAwaits : Awaits s proxy con cost)
    (other : Nat)
    (act : ThreadAct) :
    Awaits (threadMove s other act) proxy con cost := by
  rcases threadMove_same s other act with
    ⟨hMain, hClock, hAccepted, hFreed⟩
  rcases exists_of_expired hAwaits.expired with
    ⟨f, hSome, hExited, _⟩
  have hFields :=
    threadMove_fields hKept hSome hExited other act
  refine ⟨?_, ?_,
    hAwaits.ahead.of_same hMain hAccepted hFreed hFields⟩
  · rw [listOf_congr hAccepted hFreed]
    exact hAwaits.listed
  · rw [hClock]
    exact expired_of_fields hAwaits.expired hFields

theorem Awaits.tick
    (hAwaits : Awaits s proxy con cost)
    (seconds : Nat) :
    Awaits { s with clock := s.clock + seconds } proxy con
      cost :=
  ⟨hAwaits.listed,
    expired_of_later hAwaits.expired (by simp),
    hAwaits.ahead.of_same rfl rfl rfl rfl⟩

------------------------------------------------------------
-- All Runs
------------------------------------------------------------

theorem mem_freed_withHeap
    {heap : Option ConHeap}
    {go : Server → Server}
    (hGo : ∀ t : Server, t.freed = s.freed →
      con ∈ (go t).freed)
    (hFreed : con ∈ s.freed) :
    con ∈ (s.withHeap heap go).freed := by
  unfold Server.withHeap
  split
  · exact hGo _ rfl
  · exact hFreed

theorem mem_freed_withNode
    {other : Nat}
    {go : ConNode → Server}
    (hGo : ∀ node, con ∈ (go node).freed)
    (hFreed : con ∈ s.freed) :
    con ∈ (s.withNode other go).freed := by
  unfold Server.withNode
  split
  · exact hGo _
  · exact hFreed

theorem mem_freed_launchMove
    (hFreed : con ∈ s.freed)
    (rc : Int)
    (other : Nat)
    (services : List Nat)
    (pc : LaunchPc) :
    con ∈ (launchMove s rc other services pc).freed := by
  unfold SmartSOCKSProxy.launchMove
  cases pc with
  | attrInit =>
      dsimp only
      split
      · exact hFreed
      · exact hFreed
  | setDetachState =>
      dsimp only
      split
      · exact hFreed
      · exact hFreed
  | create =>
      dsimp only
      split
      · exact hFreed
      · exact hFreed
  | created value =>
      apply mem_freed_withHeap _ hFreed
      intro t hSame
      exact hSame ▸ hFreed
  | called value =>
      apply mem_freed_withHeap _ hFreed
      intro t hSame
      split
      · exact hSame ▸ hFreed
      · exact hSame ▸ hFreed
  | failed =>
      apply mem_freed_withHeap _ hFreed
      intro t hSame
      exact hSame ▸ hFreed

theorem mem_freed_cleanupMove
    (hFreed : con ∈ s.freed)
    (vars : CleanupVars)
    (proxies : List Nat)
    (pc : CleanupPc) :
    con ∈ (cleanupMove s vars proxies pc).freed := by
  have hNext : con ∈ (s.cleanupNext vars proxies).freed := by
    rw [(cleanupNext_same s vars proxies).2.2.2]
    exact hFreed
  unfold SmartSOCKSProxy.cleanupMove
  cases pc with
  | testExited =>
      apply mem_freed_withNode _ hFreed
      intro node
      split
      · exact hFreed
      · exact hNext
  | testTime =>
      apply mem_freed_withNode _ hFreed
      intro node
      split
      · exact hFreed
      · exact hNext
  | free =>
      unfold Server.cleanupFree
      apply mem_freed_withHeap _ hFreed
      intro t hSame
      rw [(cleanupNext_same _ _ _).2.2.2, hSame]
      exact List.mem_cons_of_mem _ hFreed

theorem mem_freed_loopMove
    (setup : ServerSetup)
    (hFreed : con ∈ s.freed)
    (view : LoopView) :
    con ∈ (loopMove setup s view).freed := by
  unfold SmartSOCKSProxy.loopMove
  split
  · exact hFreed
  · split
    · unfold Server.accept Server.setHead
      apply mem_freed_withHeap _ hFreed
      intro t hSame
      exact hSame ▸ hFreed
    · exact hFreed
  · exact mem_freed_launchMove hFreed _ _ _ _
  · exact hFreed
  · split
    · exact hFreed
    · exact mem_freed_withNode (fun _ => hFreed) hFreed
  · exact mem_freed_cleanupMove hFreed _ _ _
  · split
    · exact hFreed
    · split
      · exact hFreed
      · exact hFreed
  · apply mem_freed_withNode _ hFreed
    intro node
    split
    · exact hFreed
    · split
      · exact hFreed
      · exact hFreed

/- Nothing comes back. -/
theorem mem_freed_serverMove
    (setup : ServerSetup)
    (hFreed : con ∈ s.freed)
    (move : ServerMove) :
    con ∈ (serverMove setup s move).freed := by
  cases move with
  | main view => exact mem_freed_loopMove setup hFreed view
  | thread other act =>
      have hSame := (threadMove_same s other act).2.2.2
      exact hSame.symm ▸ hFreed
  | tick seconds => exact hFreed

def ServerMove.isMain : ServerMove → Bool
  | .main _ => true
  | _ => false

theorem ServerKept.serverMove
    (hKept : ServerKept s)
    (setup : ServerSetup)
    (move : ServerMove) :
    ServerKept (serverMove setup s move) := by
  cases move with
  | main view => exact hKept.loopMove setup view
  | thread other act => exact hKept.threadMove other act
  | tick seconds => exact hKept.tick seconds

/- It takes at least one move. -/
theorem Awaits.pos
    (hAwaits : Awaits s proxy con cost) :
    0 < cost := by
  rcases hAwaits.ahead with
    ⟨_, hProxy, hCost⟩ | @⟨pc, _, _, _, _, _, _, _, hCost⟩
  · refine lt_of_lt_of_le ?_ hCost
    rcases List.append_of_mem hProxy with ⟨before, after, rfl⟩
    unfold Server.cleaningCost
    rw [List.map_append, List.sum_append, List.map_cons,
      List.sum_cons]
    omega
  · have hPos : 0 < pc.cost := by cases pc <;> decide
    omega

/- So many moves of the main thread are enough. -/
theorem Awaits.freed
    {moves : List ServerMove}
    (hKept : ServerKept s)
    (hAwaits : con ∈ s.freed ∨ Awaits s proxy con cost)
    (hMoves : cost ≤ moves.countP ServerMove.isMain) :
    con ∈ (moves.foldl (serverMove setup) s).freed := by
  induction moves generalizing s cost with
  | nil =>
      rcases hAwaits with hFreed | hAwaits
      · exact hFreed
      · exact absurd hAwaits.pos (not_lt.mpr hMoves)
  | cons move moves ih =>
      have hNext := hKept.serverMove setup move
      rw [List.foldl_cons]
      rcases hAwaits with hFreed | hAwaits
      · exact ih hNext
          (Or.inl (mem_freed_serverMove setup hFreed move))
          (Nat.zero_le _)
      · cases move with
        | main view =>
            rw [List.countP_cons_of_pos rfl] at hMoves
            rcases hAwaits.loopMove setup hKept view with
              hFreed | ⟨m, hLess, hStill⟩
            · exact ih hNext (Or.inl hFreed) (Nat.zero_le _)
            · exact ih hNext (Or.inr hStill) (by omega)
        | thread other act =>
            rw [List.countP_cons_of_neg Bool.false_ne_true]
              at hMoves
            exact ih hNext
              (Or.inr (hAwaits.threadMove hKept other act))
              hMoves
        | tick seconds =>
            rw [List.countP_cons_of_neg Bool.false_ne_true]
              at hMoves
            exact ih hNext (Or.inr (hAwaits.tick seconds))
              hMoves

theorem serverKept_of_reachable
    (setup : ServerSetup)
    (hReach : (serving setup).Reachable s) :
    ServerKept s := by
  apply hReach.invariant
  · rintro _ ⟨clock, rfl⟩
    exact newServer_kept setup clock
  · rintro s move _ _ hKept rfl
    exact hKept.serverMove setup move

/-
  When the main thread begins to clean up, every connection of
  the proxies that has expired is freed within so many of its
  moves, whatever moves of the threads come between.
-/
theorem serving_reclaims
    (setup : ServerSetup)
    (hReach : (serving setup).Reachable s)
    (hMain : s.main = .cleaning proxies)
    (hProxy : proxy ∈ proxies)
    (hListed : con ∈ s.listOf proxy)
    (hExpired : Expired s.heap s.clock con = true)
    {moves : List ServerMove}
    (hMoves : s.cleaningCost proxies ≤
      moves.countP ServerMove.isMain) :
    con ∈ (moves.foldl (serverMove setup) s).freed :=
  Awaits.freed (serverKept_of_reachable setup hReach)
    (Or.inr ⟨hListed, hExpired,
      .cleaning hMain hProxy le_rfl⟩) hMoves

/- One of two threads has ended, and the other one runs. -/
theorem serving_reclaims_oneOfTwo :
    ∃ s : Server, s.threads 1 = .running ∧ 0 ∈ s.freed := by
  let setup : ServerSetup := ⟨[0], [0, 0]⟩
  let fine : ServerMove := .main ⟨true, 0, 0, none, false⟩
  let before : List ServerMove :=
    List.replicate 12 fine ++
      [.thread 0 .shutdown, .thread 0 .shutdown,
        .thread 0 .exit, .tick 5, fine]
  let moves : List ServerMove :=
    List.replicate 3 fine ++ .thread 1 .access ::
      List.replicate 4 fine
  let s := before.foldl (serverMove setup)
    (newServer setup 100)
  have hStart :
      (serving setup).Reachable (newServer setup 100) :=
    .start ⟨100, rfl⟩
  have hReach : (serving setup).Reachable s :=
    hStart.run before
  have hMain : s.main = .cleaning [0] := by decide +kernel
  have hFreed : 0 ∈ (moves.foldl (serverMove setup) s).freed :=
    serving_reclaims setup hReach hMain
      (List.mem_cons_self : 0 ∈ [0]) (by decide +kernel)
      (by decide +kernel) (by decide +kernel)
  exact ⟨_, by decide +kernel, hFreed⟩

end SmartSOCKSProxy
