import SmartSOCKSProxy.Foundations.Loops
import SmartSOCKSProxy.Server.Lifetime

/-
  Cleaning up a list of connections.

  The connections whose threads have exited long enough ago
  are taken out of the list and freed, while the loop goes on
  at the saved successor.

  Key definitions include:
    * `cleanupRound`, `CleanupReturns`
    * `Expired`
    * `CleanedUp`

  Key theorems include:
    * `CleanedUp.round`, `CleanedUp.returns`
    * `cleanupConnections_spec`
    * `loopMove_cleanupRound`
-/

namespace SmartSOCKSProxy

------------------------------------------------------------
-- The Loop
------------------------------------------------------------

/-
  The variables of the loop in cleanup_connections(), and the
  connections that were freed, the latest first.
-/
structure CleanVars where
  heap : ConHeap
  pool : Option Nat
  cur : Nat
  next : Option Nat
  freed : List Nat

/- A crash is an access to memory that is not allocated. -/
inductive CleanEnd where
| crashed
| returned (heap : ConHeap) (pool : Option Nat)
    (freed : List Nat)

/- `cur=next`, and the next one is read. -/
def cleanNext
    (heap : ConHeap)
    (pool : Option Nat)
    (next : Option Nat)
    (freed : List Nat) : CleanVars ⊕ CleanEnd :=
  match next with
  | none => .inr (.returned heap pool freed)
  | some cur =>
      match heap cur with
      | none => .inr .crashed
      | some node => .inl ⟨heap, pool, cur, node.next, freed⟩

/- The thread has exited, and more than 4 seconds ago. -/
def ConFields.expired
    (fields : ConFields)
    (now : Int) : Bool :=
  fields.threadHasExited && 4 < now - fields.endTime

/- One round of the loop of cleanup_connections(). -/
def cleanupRound
    (now : Int)
    (v : CleanVars) : CleanVars ⊕ CleanEnd :=
  match v.heap v.cur with
  | none => .inr .crashed
  | some node =>
      if node.fields.expired now then
        let pool := if v.pool = some v.cur then v.next else v.pool
        match freeClientConnection v.heap v.cur with
        | none => .inr .crashed
        | some heap =>
            cleanNext heap pool v.next (v.cur :: v.freed)
      else cleanNext v.heap v.pool v.next v.freed

/- How `cleanup_connections(pool)` ends. -/
inductive CleanupReturns
    (heap : ConHeap)
    (now : Int) :
    Option Nat → CleanEnd → Prop
| empty :
    CleanupReturns heap now none (.returned heap none [])
| wild
    {cur : Nat}
    (hNone : heap cur = none) :
    CleanupReturns heap now (some cur) .crashed
| loop
    {cur : Nat}
    {node : ConNode}
    {result : CleanEnd}
    (hNode : heap cur = some node)
    (hLoop : Returns (cleanupRound now)
      ⟨heap, some cur, cur, node.next, []⟩ result) :
    CleanupReturns heap now (some cur) result

------------------------------------------------------------
-- The Partly Cleaned List
------------------------------------------------------------

/- A connection that is to be freed. -/
def Expired
    (heap : ConHeap)
    (now : Int)
    (con : Nat) : Bool :=
  match heap.fields con with
  | none => false
  | some fields => fields.expired now

/-
  The loop is done with the connections in `done`, and still
  has to look at those in `rest`.
-/
structure CleanedUp
    (heap : ConHeap)
    (now : Int)
    (cons done rest : List Nat)
    (heap' : ConHeap)
    (pool : Option Nat)
    (freed : List Nat) : Prop where
  split : cons = done ++ rest
  chain :
    heap'.links.Chain none pool
      (done.filter (fun con => !Expired heap now con) ++ rest)
  released : freed = (done.filter (Expired heap now)).reverse
  fields :
    ∀ con, heap'.fields con =
      if con ∈ freed then none else heap.fields con

variable {heap heap' : ConHeap}
variable {now : Int}
variable {cons done rest : List Nat}
variable {cur : Nat}
variable {pool : Option Nat}
variable {freed : List Nat}

/- No connection behind was freed, and none will be twice. -/
theorem CleanedUp.fields_rest
    (hClean : CleanedUp heap now cons done rest heap' pool freed)
    (hNodup : cons.Nodup)
    {con : Nat}
    (hMem : con ∈ rest) :
    heap'.fields con = heap.fields con := by
  rw [hClean.fields, if_neg]
  intro hFreed
  rw [hClean.released, List.mem_reverse, List.mem_filter]
    at hFreed
  rw [hClean.split] at hNodup
  exact (List.disjoint_of_nodup_append hNodup) hFreed.1 hMem

/- All connections of the partly cleaned list are live. -/
theorem CleanedUp.live
    (hClean : CleanedUp heap now cons done rest heap' pool freed)
    (hNodup : cons.Nodup)
    (hLive : ∀ con ∈ cons, heap.fields con ≠ none)
    {con : Nat}
    (hMem : con ∈
      done.filter (fun con => !Expired heap now con) ++ rest) :
    heap'.fields con ≠ none := by
  rcases List.mem_append.mp hMem with hDone | hRest
  · rw [List.mem_filter] at hDone
    rw [hClean.fields, if_neg]
    · apply hLive
      rw [hClean.split]
      exact List.mem_append_left _ hDone.1
    · rw [hClean.released, List.mem_reverse, List.mem_filter]
      intro hFreed
      simp [hFreed.2] at hDone
  · rw [hClean.fields_rest hNodup hRest]
    apply hLive
    rw [hClean.split]
    exact List.mem_append_right _ hRest

/- What the loop reads of the connection it is at. -/
theorem CleanedUp.node
    (hClean : CleanedUp heap now cons done (cur :: rest) heap'
      pool freed)
    (hNodup : cons.Nodup)
    (hLive : ∀ con ∈ cons, heap.fields con ≠ none) :
    ∃ node, heap' cur = some node ∧
      heap'.fields cur = some node.fields ∧
      node.next = rest.head? := by
  have hMem :
      cur ∈ done.filter (fun con => !Expired heap now con) ++
        cur :: rest := by
    simp
  rcases Option.ne_none_iff_exists'.mp
      (hClean.live hNodup hLive hMem) with ⟨fields, hFields⟩
  rcases ConHeap.exists_of_fields hFields with
    ⟨node, hNode, hSame⟩
  refine ⟨node, hNode, hSame ▸ hFields, ?_⟩
  rw [← ConHeap.next_eq hNode]
  exact hClean.chain.next_of_suffix

/-
  A round: the connection is kept, or it is freed and the list
  is closed behind it.
-/
theorem CleanedUp.round
    (hClean : CleanedUp heap now cons done (cur :: rest) heap'
      pool freed)
    (hNodup : cons.Nodup)
    (hLive : ∀ con ∈ cons, heap.fields con ≠ none) :
    ∃ heap₁ pool₁ freed₁,
      CleanedUp heap now cons (done ++ [cur]) rest heap₁ pool₁
        freed₁ ∧
      cleanupRound now ⟨heap', pool, cur, rest.head?, freed⟩ =
        cleanNext heap₁ pool₁ rest.head? freed₁ := by
  have hSplit : cons = (done ++ [cur]) ++ rest := by
    rw [hClean.split, List.append_assoc]
    rfl
  have hKeep := hClean.fields_rest hNodup List.mem_cons_self
  have hChain := hClean.chain
  have hMem :
      cur ∈ done.filter (fun con => !Expired heap now con) ++
        cur :: rest := by
    simp
  rcases hClean.node hNodup hLive with
    ⟨node, hNode, hFields, _⟩
  have hExpired :
      Expired heap now cur = node.fields.expired now := by
    unfold Expired
    rw [← hKeep, hFields]
  by_cases hOld : node.fields.expired now = true
  · have hNextMem : ∀ n, heap'.links.next cur = some n →
        heap'.fields n ≠ none ∧ n ≠ cur := by
      intro n hNext
      refine ⟨hClean.live hNodup hLive
        (hChain.next_mem hMem hNext), ?_⟩
      rintro rfl
      exact hChain.next_ne_self hMem hNext
    have hPrevMem : ∀ p, heap'.links.prev cur = some p →
        heap'.fields p ≠ none := fun p hPrev =>
      hClean.live hNodup hLive (hChain.prev_mem hMem hPrev)
    rcases freeClientConnection_spec
        (hClean.live hNodup hLive hMem) hNextMem hPrevMem with
      ⟨heap₁, hFree, hLinks, hFields₁⟩
    refine ⟨heap₁, if pool = some cur then rest.head? else pool,
      cur :: freed, ⟨hSplit, ?_, ?_, ?_⟩, ?_⟩
    · have hUnlinked := hChain.unlink (by simp)
      rw [hChain.next_of_suffix] at hUnlinked
      rw [hLinks, List.filter_append]
      simpa [hExpired, hOld] using hUnlinked
    · rw [hClean.released, List.filter_append,
        List.reverse_append]
      simp [hExpired, hOld]
    · intro con
      rw [hFields₁]
      by_cases hCur : con = cur
      · subst hCur
        simp
      · simp [hCur, hClean.fields con]
    · unfold cleanupRound
      simp only [hNode, hOld, if_true, hFree]
  · rw [Bool.not_eq_true] at hOld
    refine ⟨heap', pool, freed,
      ⟨hSplit, ?_, ?_, hClean.fields⟩, ?_⟩
    · simpa [hExpired, hOld] using hChain
    · rw [hClean.released]
      simp [hExpired, hOld]
    · unfold cleanupRound
      simp only [hNode, hOld, Bool.false_eq_true, if_false]

/- From any round on, the loop comes to the end of the list. -/
theorem CleanedUp.returns
    (hClean : CleanedUp heap now cons done (cur :: rest) heap'
      pool freed)
    (hNodup : cons.Nodup)
    (hLive : ∀ con ∈ cons, heap.fields con ≠ none) :
    ∃ heap₁ pool₁ freed₁,
      CleanedUp heap now cons cons [] heap₁ pool₁ freed₁ ∧
      Returns (cleanupRound now)
        ⟨heap', pool, cur, rest.head?, freed⟩
        (.returned heap₁ pool₁ freed₁) := by
  induction rest generalizing done cur heap' pool freed with
  | nil =>
      rcases hClean.round hNodup hLive with
        ⟨heap₁, pool₁, freed₁, hEnd, hRound⟩
      have hAll : done ++ [cur] = cons := by
        rw [hEnd.split, List.append_nil]
      rw [hAll] at hEnd
      exact ⟨heap₁, pool₁, freed₁, hEnd, .stop hRound⟩
  | cons next rest ih =>
      rcases hClean.round hNodup hLive with
        ⟨heap₁, pool₁, freed₁, hNext, hRound⟩
      rcases hNext.node hNodup hLive with
        ⟨node, hNode, _, hRead⟩
      rcases ih hNext with
        ⟨heap₂, pool₂, freed₂, hEnd, hReturns⟩
      refine ⟨heap₂, pool₂, freed₂, hEnd, .next ?_ hReturns⟩
      rw [hRound]
      simp only [cleanNext, List.head?_cons, hNode, hRead]

/- There is one way in which it ends. -/
theorem CleanupReturns.unique
    {result result' : CleanEnd}
    (hLeft : CleanupReturns heap now pool result)
    (hRight : CleanupReturns heap now pool result') :
    result = result' := by
  cases hLeft with
  | empty =>
      cases hRight
      rfl
  | wild hNone =>
      cases hRight with
      | wild _ => rfl
      | loop hNode _ => exact nomatch hNone.symm.trans hNode
  | loop hNode hLoop =>
      cases hRight with
      | wild hNone => exact nomatch hNone.symm.trans hNode
      | loop hNode' hLoop' =>
          cases hNode.symm.trans hNode'
          exact hLoop.unique hLoop'

/-
  The connections that have expired are freed, each once and in
  order, and the others are the list that is returned.
-/
theorem cleanupConnections_spec
    (now : Int)
    (hList : heap.links.Chain none pool cons)
    (hLive : ∀ con ∈ cons, heap.fields con ≠ none) :
    ∃ heap' pool' freed,
      (∀ result, CleanupReturns heap now pool result ↔
        result = .returned heap' pool' freed) ∧
      freed.reverse = cons.filter (Expired heap now) ∧
      freed.Nodup ∧
      heap'.links.Chain none pool'
        (cons.filter fun con => !Expired heap now con) ∧
      ∀ con, heap'.fields con =
        if con ∈ freed then none else heap.fields con := by
  have hNodup := hList.nodup
  have hReturns :
      ∃ heap' pool' freed,
        CleanupReturns heap now pool
          (.returned heap' pool' freed) ∧
        CleanedUp heap now cons cons [] heap' pool' freed := by
    cases cons with
    | nil =>
        have hNone : pool = none := hList
        subst hNone
        exact ⟨heap, none, [], .empty, rfl, rfl, rfl,
          fun con => by simp⟩
    | cons cur rest =>
        have hHead : pool = some cur := hList.1
        have hStart :
            CleanedUp heap now (cur :: rest) [] (cur :: rest)
              heap pool [] :=
          ⟨rfl, hList, rfl, fun con => by simp⟩
        rcases hStart.node hNodup hLive with
          ⟨node, hNode, _, hRead⟩
        rcases hStart.returns hNodup hLive with
          ⟨heap', pool', freed, hEnd, hLoop⟩
        rw [← hRead] at hLoop
        subst hHead
        exact ⟨heap', pool', freed, .loop hNode hLoop, hEnd⟩
  rcases hReturns with ⟨heap', pool', freed, hEnd, hClean⟩
  refine ⟨heap', pool', freed, fun result => ⟨?_, ?_⟩, ?_, ?_,
    ?_, hClean.fields⟩
  · exact fun hResult => hResult.unique hEnd
  · rintro rfl
    exact hEnd
  · rw [hClean.released, List.reverse_reverse]
  · rw [hClean.released, List.nodup_reverse]
    exact hNodup.filter _
  · simpa using hClean.chain

/- Three connections, of which the first and last expired. -/
def threeCons : ConHeap
  | 0 => some ⟨some 1, none, ⟨true, true, 0, 3⟩⟩
  | 1 => some ⟨some 2, some 0, ⟨true, true, 0, 6⟩⟩
  | 2 => some ⟨none, some 1, ⟨true, true, 0, 5⟩⟩
  | _ => none

theorem cleanupConnections_spec_three :
    ∃ heap' pool' freed,
      (∀ result, CleanupReturns threeCons 10 (some 0) result ↔
        result = .returned heap' pool' freed) ∧
      freed.reverse = [0, 2] ∧
      heap'.links.Chain none pool' [1] := by
  have hList :
      threeCons.links.Chain none (some 0) [0, 1, 2] :=
    ⟨rfl, rfl, rfl, rfl, rfl, rfl, rfl⟩
  rcases cleanupConnections_spec 10 hList (by decide) with
    ⟨heap', pool', freed, hReturns, hFreed, _, hChain, _⟩
  exact ⟨heap', pool', freed, hReturns, hFreed, hChain⟩

------------------------------------------------------------
-- Steps of the Main Loop
------------------------------------------------------------

/- What a round of the loop leaves of the server. -/
def Server.afterRound
    (s : Server)
    (vars : CleanupVars)
    (proxies : List Nat) :
    CleanVars ⊕ CleanEnd → Server
  | .inl v =>
      { s with
        heap := v.heap
        freed := v.freed
        main :=
          .visiting .testExited
            ⟨vars.proxy, vars.now, v.pool, v.cur, v.next⟩
            proxies }
  | .inr (.returned heap pool freed) =>
      { s with
        heap := heap
        freed := freed
        heads := Function.update s.heads vars.proxy pool
        main := .cleaning proxies }
  | .inr .crashed => { s with crashed := true }

theorem cleanupNext_eq
    (s : Server)
    (vars : CleanupVars)
    (proxies : List Nat) :
    s.cleanupNext vars proxies =
      s.afterRound vars proxies
        (cleanNext s.heap vars.pool vars.next s.freed) := by
  unfold Server.cleanupNext cleanNext Server.withNode
  cases vars.next with
  | none => rfl
  | some cur =>
      dsimp only
      cases s.heap cur <;> rfl

/- What the steps before have changed is overwritten. -/
theorem afterRound_changed
    (s : Server)
    (vars : CleanupVars)
    (proxies : List Nat)
    (heap : ConHeap)
    (freed : List Nat)
    (main : LoopPc)
    {result : CleanVars ⊕ CleanEnd}
    (hFine : result ≠ .inr .crashed) :
    ({ s with heap := heap, freed := freed, main := main }
      : Server).afterRound vars proxies result =
        s.afterRound vars proxies result := by
  rcases result with v | _ | ⟨heap', pool, freed'⟩
  · rfl
  · exact absurd rfl hFine
  · rfl

/-
  The steps of the main loop at an element, without those of
  threads between them, are one round.
-/
theorem loopMove_cleanupRound
    (setup : ServerSetup)
    (s : Server)
    {vars : CleanupVars}
    {proxies : List Nat}
    (view : LoopView)
    (hMain : s.main = .visiting .testExited vars proxies)
    (hFine :
      cleanupRound vars.now
          ⟨s.heap, vars.pool, vars.cur, vars.next, s.freed⟩ ≠
        .inr .crashed) :
    ∃ k, (fun s => loopMove setup s view)^[k] s =
      s.afterRound vars proxies
        (cleanupRound vars.now
          ⟨s.heap, vars.pool, vars.cur, vars.next,
            s.freed⟩) := by
  have hMove : ∀ (s : Server) pc,
      s.main = .visiting pc vars proxies →
        loopMove setup s view = cleanupMove s vars proxies pc := by
    intro s pc hMain
    unfold loopMove
    rw [hMain]
  unfold cleanupRound at hFine ⊢
  dsimp only at hFine ⊢
  cases hNode : s.heap vars.cur with
  | none =>
      rw [hNode] at hFine
      exact absurd rfl hFine
  | some node =>
      simp only [hNode] at hFine ⊢
      let s₁ : Server :=
        { s with main := .visiting .testTime vars proxies }
      let s₂ : Server :=
        { s with main := .visiting .free vars proxies }
      have hFirst :
          loopMove setup s view =
            if node.fields.threadHasExited then s₁
            else s.cleanupNext vars proxies := by
        rw [hMove s _ hMain]
        simp only [cleanupMove, Server.withNode, hNode, s₁]
      have hSecond :
          loopMove setup s₁ view =
            if 4 < vars.now - node.fields.endTime then s₂
            else s₁.cleanupNext vars proxies := by
        rw [hMove s₁ _ rfl]
        simp only [cleanupMove, Server.withNode, s₁, hNode, s₂]
      unfold ConFields.expired at hFine ⊢
      cases hExited : node.fields.threadHasExited with
      | false =>
          refine ⟨1, ?_⟩
          rw [Function.iterate_one, hFirst, hExited]
          exact cleanupNext_eq s vars proxies
      | true =>
          rw [hExited] at hFirst
          by_cases hOld : 4 < vars.now - node.fields.endTime
          · rw [if_pos hOld] at hSecond
            simp only [hExited, hOld, decide_true,
              Bool.and_true, if_true] at hFine ⊢
            refine ⟨3, ?_⟩
            simp only [Function.iterate_succ,
              Function.iterate_zero, Function.comp_apply,
              id_eq, hFirst, if_true, hSecond]
            rw [hMove s₂ _ rfl]
            unfold cleanupMove Server.cleanupFree
              Server.withHeap
            cases hFree :
                freeClientConnection s.heap vars.cur with
            | none =>
                rw [hFree] at hFine
                exact absurd rfl hFine
            | some heap =>
                rw [hFree] at hFine
                simp only [s₂]
                rw [cleanupNext_eq]
                exact afterRound_changed s vars proxies _ _ _
                  hFine
          · rw [if_neg hOld] at hSecond
            simp only [hExited, hOld, decide_false,
              Bool.and_false, Bool.false_eq_true, if_false]
              at hFine ⊢
            refine ⟨2, ?_⟩
            simp only [Function.iterate_succ,
              Function.iterate_zero, Function.comp_apply,
              id_eq, hFirst, if_true, hSecond]
            rw [cleanupNext_eq]
            exact afterRound_changed s vars proxies _ _ _
              hFine

end SmartSOCKSProxy
