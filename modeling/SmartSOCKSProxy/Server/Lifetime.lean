import SmartSOCKSProxy.Server.Connections

/-
  The lifetime of connections.

  A connection belongs to its thread until the thread has set
  `thread_has_exited`, and to the main loop after that.

  Key definitions include:
    * `ConHeap.links`, `ConHeap.fields`
    * `Server.head`, `Server.listOf`
    * `ServerKept`, `Lifetime`

  Key theorems include:
    * `freeClientConnection_spec`
    * `ServerKept.threadMove`, `ServerKept.loopMove`
    * `serving_lifetime`
-/

namespace SmartSOCKSProxy

------------------------------------------------------------
-- Memory
------------------------------------------------------------

namespace ConHeap

def links
    (heap : ConHeap) : Links Nat where
  next := fun con => (heap con).bind ConNode.next
  prev := fun con => (heap con).bind ConNode.prev

def fields
    (heap : ConHeap)
    (con : Nat) : Option ConFields :=
  (heap con).map ConNode.fields

theorem links_set
    (heap : ConHeap)
    (con : Nat)
    (node : ConNode) :
    (heap.set con node).links =
      (heap.links.setNext con node.next).setPrev con
        node.prev := by
  unfold links set Links.setNext Links.setPrev
  congr 1
  all_goals
    funext other
    by_cases hSame : other = con
    · subst hSame
      simp
    · simp [hSame]

theorem fields_set
    (heap : ConHeap)
    (con : Nat)
    (node : ConNode) :
    (heap.set con node).fields =
      Function.update heap.fields con
        (some node.fields) := by
  funext other
  unfold fields set
  by_cases hSame : other = con
  · subst hSame
    simp
  · simp [hSame]

/- An object that is allocated. -/
theorem exists_of_fields
    {heap : ConHeap}
    {con : Nat}
    {f : ConFields}
    (hFields : heap.fields con = some f) :
    ∃ node, heap con = some node ∧ node.fields = f := by
  unfold fields at hFields
  rcases Option.map_eq_some_iff.mp hFields with
    ⟨node, hNode, hSame⟩
  exact ⟨node, hNode, hSame⟩

theorem next_eq
    {heap : ConHeap}
    {con : Nat}
    {node : ConNode}
    (hNode : heap con = some node) :
    heap.links.next con = node.next := by
  simp [links, hNode]

theorem prev_eq
    {heap : ConHeap}
    {con : Nat}
    {node : ConNode}
    (hNode : heap con = some node) :
    heap.links.prev con = node.prev := by
  simp [links, hNode]

theorem write_of_node
    {heap : ConHeap}
    {con : Nat}
    {node : ConNode}
    (hNode : heap con = some node)
    (change : ConNode → ConNode) :
    heap.write con change =
      some (heap.set con (change node)) := by
  simp [write, hNode]

/- The flags are written without touching the lists. -/
theorem setFields_spec
    {heap : ConHeap}
    {con : Nat}
    {f : ConFields}
    (hFields : heap.fields con = some f)
    (change : ConFields → ConFields) :
    ∃ heap', heap.setFields con change = some heap' ∧
      heap'.links = heap.links ∧
      heap'.fields =
        Function.update heap.fields con
          (some (change f)) := by
  rcases exists_of_fields hFields with ⟨node, hNode, rfl⟩
  refine ⟨_, write_of_node hNode _, ?_, fields_set _ _ _⟩
  rw [links_set]
  dsimp only
  rw [← next_eq hNode, ← prev_eq hNode]
  rw [Links.setNext_self, Links.setPrev_self]

/- A link is written without touching the flags. -/
theorem setPrevOf_spec
    {heap : ConHeap}
    {con : Option Nat}
    (hLive : ∀ c, con = some c → heap.fields c ≠ none)
    (prev : Option Nat) :
    ∃ heap', heap.setPrevOf con prev = some heap' ∧
      heap'.links = heap.links.setPrevOf con prev ∧
      heap'.fields = heap.fields := by
  cases con with
  | none => exact ⟨heap, rfl, rfl, rfl⟩
  | some con =>
      rcases Option.ne_none_iff_exists'.mp
        (hLive con rfl) with ⟨f, hFields⟩
      rcases exists_of_fields hFields with
        ⟨node, hNode, rfl⟩
      refine ⟨_, write_of_node hNode _, ?_, ?_⟩
      · rw [links_set]
        dsimp only
        rw [← next_eq hNode, Links.setNext_self]
        rfl
      · rw [fields_set]
        dsimp only
        rw [← hFields, Function.update_eq_self]

theorem setNextOf_spec
    {heap : ConHeap}
    {con : Option Nat}
    (hLive : ∀ c, con = some c → heap.fields c ≠ none)
    (next : Option Nat) :
    ∃ heap', heap.setNextOf con next = some heap' ∧
      heap'.links = heap.links.setNextOf con next ∧
      heap'.fields = heap.fields := by
  cases con with
  | none => exact ⟨heap, rfl, rfl, rfl⟩
  | some con =>
      rcases Option.ne_none_iff_exists'.mp
        (hLive con rfl) with ⟨f, hFields⟩
      rcases exists_of_fields hFields with
        ⟨node, hNode, rfl⟩
      refine ⟨_, write_of_node hNode _, ?_, ?_⟩
      · rw [links_set]
        dsimp only
        rw [← prev_eq hNode]
        have hPrev := Links.setPrev_self
          (heap.links.setNext con next) con
        exact hPrev
      · rw [fields_set]
        dsimp only
        rw [← hFields, Function.update_eq_self]

end ConHeap

/- A connection is put before the head of a list. -/
theorem insertClientConnection_spec
    {heap : ConHeap}
    {head : Option Nat}
    {con : Nat}
    {node : ConNode}
    (hNode : heap con = some node)
    (hHead : ∀ h, head = some h → heap.fields h ≠ none) :
    ∃ heap',
      insertClientConnection heap head con = some heap' ∧
      heap'.links = heap.links.pushFront head con ∧
      heap'.fields = heap.fields := by
  unfold insertClientConnection
  rw [ConHeap.write_of_node hNode]
  simp only [Option.bind_eq_bind, Option.bind_some]
  generalize hSet : heap.set con
    { node with next := head, prev := none } = heap₁
  have hLinks :
      heap₁.links =
        (heap.links.setNext con head).setPrev con none := by
    rw [← hSet, ConHeap.links_set]
  have hFields : heap₁.fields = heap.fields := by
    have hSame : heap.fields con = some node.fields := by
      simp [ConHeap.fields, hNode]
    rw [← hSet, ConHeap.fields_set]
    dsimp only
    rw [← hSame, Function.update_eq_self]
  rcases ConHeap.setPrevOf_spec (hFields ▸ hHead)
    (some con) with ⟨heap₂, hWrite, hLinks₂, hFields₂⟩
  refine ⟨heap₂, hWrite, ?_, hFields₂.trans hFields⟩
  rw [hLinks₂, hLinks]
  rfl

namespace ConHeap

theorem links_free
    (heap : ConHeap)
    (con : Nat) :
    ConHeap.links (Function.update heap con none) =
      (heap.links.setNext con none).setPrev con none := by
  unfold links Links.setNext Links.setPrev
  congr 1
  all_goals
    funext other
    by_cases hSame : other = con
    · subst hSame
      simp
    · simp [hSame]

theorem fields_free
    (heap : ConHeap)
    (con : Nat) :
    ConHeap.fields (Function.update heap con none) =
      Function.update heap.fields con none := by
  funext other
  unfold fields
  by_cases hSame : other = con
  · subst hSame
    simp
  · simp [hSame]

end ConHeap

/- The connection is taken out of its list. -/
theorem removeClientConnection_spec
    {heap : ConHeap}
    {con : Nat}
    (hLive : heap.fields con ≠ none)
    (hNext : ∀ n, heap.links.next con = some n →
      heap.fields n ≠ none ∧ n ≠ con)
    (hPrev : ∀ p, heap.links.prev con = some p →
      heap.fields p ≠ none) :
    ∃ heap', removeClientConnection heap con = some heap' ∧
      heap'.links = heap.links.unlink con ∧
      heap'.fields = heap.fields := by
  have hNode :
      ∀ heap₁ : ConHeap, heap₁.fields = heap.fields →
        ∃ node, heap₁ con = some node ∧
          heap₁.links.next con = node.next ∧
          heap₁.links.prev con = node.prev := by
    intro heap₁ hSame
    rcases Option.ne_none_iff_exists'.mp hLive with ⟨f, hf⟩
    rw [← hSame] at hf
    rcases ConHeap.exists_of_fields hf with
      ⟨node, hNode, _⟩
    exact ⟨node, hNode, ConHeap.next_eq hNode,
      ConHeap.prev_eq hNode⟩
  rcases hNode heap rfl with ⟨node, hHere, hN, hP⟩
  rcases ConHeap.setPrevOf_spec
    (fun n hn => (hNext n (hN.trans hn)).1) node.prev with
    ⟨heap₁, hWrite₁, hLinks₁, hFields₁⟩
  rcases hNode heap₁ hFields₁ with ⟨node₁, hHere₁, hN₁, hP₁⟩
  -- The next connection is another one, so that the link to
  -- the one before is still the old one.
  have hSame : node₁.prev = node.prev := by
    rw [← hP₁, ← hP, hLinks₁]
    cases hTarget : node.next with
    | none => rfl
    | some n =>
        have hNe := (hNext n (hN.trans hTarget)).2
        simp [Links.setPrev, Ne.symm hNe]
  rcases ConHeap.setNextOf_spec
    (fun p hp => hFields₁ ▸
      hPrev p (hP.trans (hSame ▸ hp))) node₁.next with
    ⟨heap₂, hWrite₂, hLinks₂, hFields₂⟩
  rcases hNode heap₂ (hFields₂.trans hFields₁) with
    ⟨node₂, hHere₂, _, _⟩
  refine ⟨heap₂.set con ⟨none, none, node₂.fields⟩,
    ?_, ?_, ?_⟩
  · unfold removeClientConnection
    simp only [Option.bind_eq_bind, hHere, Option.bind_some,
      hWrite₁, hHere₁, hWrite₂]
    exact ConHeap.write_of_node hHere₂ _
  · rw [ConHeap.links_set, hLinks₂, ← hN₁, ← hP₁, hLinks₁,
      ← hN, ← hP]
    rfl
  · rw [ConHeap.fields_set]
    have hFields : heap₂.fields con = some node₂.fields := by
      simp [ConHeap.fields, hHere₂]
    dsimp only
    rw [← hFields, Function.update_eq_self, hFields₂,
      hFields₁]

/- And its memory is given back. -/
theorem freeClientConnection_spec
    {heap : ConHeap}
    {con : Nat}
    (hLive : heap.fields con ≠ none)
    (hNext : ∀ n, heap.links.next con = some n →
      heap.fields n ≠ none ∧ n ≠ con)
    (hPrev : ∀ p, heap.links.prev con = some p →
      heap.fields p ≠ none) :
    ∃ heap', freeClientConnection heap con = some heap' ∧
      heap'.links = heap.links.unlink con ∧
      heap'.fields =
        Function.update heap.fields con none := by
  rcases removeClientConnection_spec hLive hNext hPrev with
    ⟨heap', hRemove, hLinks, hFields⟩
  refine ⟨Function.update heap' con none, ?_, ?_, ?_⟩
  · simp [freeClientConnection, hRemove]
  · rw [ConHeap.links_free, hLinks]
    simp [Links.unlink, Links.setNext, Links.setPrev]
  · rw [ConHeap.fields_free, hFields]

------------------------------------------------------------
-- Lists and Flags
------------------------------------------------------------

namespace Server

/- The heads of the lists when one is cleaned up. -/
def headWith
    (s : Server)
    (vars : CleanupVars)
    (proxy : Nat) : Option Nat :=
  if vars.proxy = proxy then vars.pool else s.heads proxy

/-
  The head of a proxy's list.  While the list is cleaned up,
  cleanup_connections() has it.
-/
def head
    (s : Server)
    (proxy : Nat) : Option Nat :=
  match s.main with
  | .visiting _ vars _ => s.headWith vars proxy
  | _ => s.heads proxy

/- The connections of a proxy that have not been freed. -/
def listOf
    (s : Server)
    (proxy : Nat) : List Nat :=
  ((s.accepted.filter fun entry => entry.1 = proxy).map
    Prod.snd).filter fun con => con ∉ s.freed

end Server

/- What the flags of a connection say about its thread. -/
structure ThreadFits
    (fields : Option ConFields)
    (pc : ThreadPc)
    (ended : Option Int) : Prop where
  exited : ∀ f, fields = some f →
    f.threadHasExited = true → pc = .absent ∨ pc = .done
  absent : pc = .absent → ended = none
  busy : pc ≠ .absent → pc ≠ .done → fields ≠ none
  inHandler : pc = .running ∨ pc = .shutdown → ended = none
  ended : ∀ f, fields = some f →
    ∀ t, ended = some t → t = f.endTime

/- What launch_thread() knows about the thread. -/
def LaunchFits
    (pc : LaunchPc)
    (fields : Option ConFields)
    (thread : ThreadPc) : Prop :=
  match pc with
  | .created value => value ≠ 0 → thread = .absent
  | .called value => value ≠ 0 → thread = .absent
  | .failed => thread = .absent
  | _ =>
      thread = .absent ∧
        ∀ f, fields = some f → f.threadHasExited = false

/- What cleanup_connections() has read. -/
def CleanupFits
    (pc : CleanupPc)
    (now : Int)
    (fields : Option ConFields) : Prop :=
  match pc with
  | .testExited => True
  | .testTime => ∃ f, fields = some f ∧
      f.threadHasExited = true
  | .free => ∃ f, fields = some f ∧
      f.threadHasExited = true ∧ 4 < now - f.endTime

/- What the main loop knows at `s.main`. -/
def LoopFits
    (s : Server) : Prop :=
  match s.main with
  | .launching pc con _ =>
      s.heap.fields con ≠ none ∧
        LaunchFits pc (s.heap.fields con) (s.threads con)
  | .visiting pc vars _ =>
      vars.cur ∈ s.listOf vars.proxy ∧
        vars.next = s.heap.links.next vars.cur ∧
        vars.now ≤ s.clock ∧
        CleanupFits pc vars.now (s.heap.fields vars.cur)
  | .sweepingAt cur => ∃ proxy, cur ∈ s.listOf proxy
  | _ => True

/- A connection that was freed. -/
structure Gone
    (s : Server)
    (con : Nat) : Prop where
  thread : s.threads con = .absent ∨ s.threads con = .done
  loitered :
    ∀ t, s.ended con = some t → 4 < s.clock - t

/-
  Every list has its connections, and their flags tell what
  their threads do.
-/
structure Stored
    (s : Server)
    (head : Nat → Option Nat) : Prop where
  safe : s.crashed = false
  once : s.freed.Nodup
  lists : ∀ proxy,
    s.heap.links.Chain none (head proxy) (s.listOf proxy)
  numbers :
    s.accepted.map Prod.snd = (List.range s.created).reverse
  live : ∀ con, s.heap.fields con ≠ none ↔
    con < s.created ∧ con ∉ s.freed
  gone : ∀ con ∈ s.freed, con < s.created ∧ Gone s con
  unborn : ∀ con, s.created ≤ con →
    s.threads con = .absent ∧ s.ended con = none
  threads : ∀ con,
    ThreadFits (s.heap.fields con) (s.threads con)
      (s.ended con)

/- And the main loop knows what it counts on. -/
structure ServerKept
    (s : Server) : Prop extends Stored s s.head where
  main : LoopFits s

theorem Server.mem_listOf
    {s : Server}
    {proxy con : Nat} :
    con ∈ s.listOf proxy ↔
      (proxy, con) ∈ s.accepted ∧ con ∉ s.freed := by
  simp [Server.listOf]

namespace Stored

variable {s : Server}
variable {head : Nat → Option Nat}
variable {con : Nat}

/- The connections of a list can be read. -/
theorem listed
    (hStored : Stored s head)
    {proxy : Nat}
    (hMem : con ∈ s.listOf proxy) :
    s.heap.fields con ≠ none := by
  rcases Server.mem_listOf.mp hMem with ⟨hAccepted, hKeep⟩
  apply (hStored.live con).mpr
  refine ⟨?_, hKeep⟩
  have hNumber : con ∈ s.accepted.map Prod.snd :=
    List.mem_map.mpr ⟨_, hAccepted, rfl⟩
  rw [hStored.numbers] at hNumber
  simpa using hNumber

theorem node_of_listed
    (hStored : Stored s head)
    {proxy : Nat}
    (hMem : con ∈ s.listOf proxy) :
    ∃ node, s.heap con = some node := by
  rcases Option.ne_none_iff_exists'.mp (hStored.listed hMem)
    with ⟨f, hFields⟩
  rcases ConHeap.exists_of_fields hFields with
    ⟨node, hNode, _⟩
  exact ⟨node, hNode⟩

/- A connection is in one list only. -/
theorem listOf_disjoint
    (hStored : Stored s head)
    {proxy proxy' : Nat}
    (hHere : con ∈ s.listOf proxy)
    (hThere : con ∈ s.listOf proxy') :
    proxy = proxy' := by
  have hNodup : (s.accepted.map Prod.snd).Nodup := by
    rw [hStored.numbers]
    exact List.nodup_reverse.mpr List.nodup_range
  have hSame := List.inj_on_of_nodup_map hNodup
    (Server.mem_listOf.mp hHere).1
    (Server.mem_listOf.mp hThere).1 rfl
  exact congrArg Prod.fst hSame

/- The lists do not depend on where the main loop is. -/
theorem move
    (hStored : Stored s head)
    {s' : Server}
    (hHeap : s'.heap = s.heap)
    (hThreads : s'.threads = s.threads)
    (hEnded : s'.ended = s.ended)
    (hClock : s'.clock = s.clock)
    (hAccepted : s'.accepted = s.accepted)
    (hFreed : s'.freed = s.freed)
    (hCrashed : s'.crashed = s.crashed) :
    Stored s' head := by
  have hCreated : s'.created = s.created := by
    unfold Server.created
    rw [hAccepted]
  have hList : ∀ proxy, s'.listOf proxy = s.listOf proxy := by
    intro proxy
    unfold Server.listOf
    rw [hAccepted, hFreed]
  refine ⟨hCrashed.trans hStored.safe, ?_, ?_, ?_, ?_, ?_,
    ?_, ?_⟩
  · rw [hFreed]
    exact hStored.once
  · intro proxy
    rw [hHeap, hList]
    exact hStored.lists proxy
  · rw [hAccepted, hCreated]
    exact hStored.numbers
  · rw [hHeap, hCreated, hFreed]
    exact hStored.live
  · intro other hMem
    rw [hFreed] at hMem
    rcases hStored.gone other hMem with
      ⟨hLt, hThread, hTime⟩
    rw [hCreated]
    refine ⟨hLt, ?_, ?_⟩
    · rw [hThreads]
      exact hThread
    · rw [hEnded, hClock]
      exact hTime
  · rw [hThreads, hEnded, hCreated]
    exact hStored.unborn
  · rw [hHeap, hThreads, hEnded]
    exact hStored.threads

end Stored

namespace ServerKept

variable {s s' : Server}
variable {con : Nat}

/-
  The fields of one connection are written, by its thread or
  by the main loop.
-/
theorem write
    (hKept : ServerKept s)
    {f f' : ConFields}
    (hOld : s.heap.fields con = some f)
    (hLinks : s'.heap.links = s.heap.links)
    (hFields :
      s'.heap.fields =
        Function.update s.heap.fields con (some f'))
    (hHead : ∀ proxy, s'.head proxy = s.head proxy)
    (hThreads :
      ∀ other, other ≠ con →
        s'.threads other = s.threads other ∧
          s'.ended other = s.ended other)
    (hSame :
      s'.clock = s.clock ∧ s'.accepted = s.accepted ∧
        s'.freed = s.freed ∧ s'.crashed = s.crashed)
    (hFits :
      ThreadFits (some f') (s'.threads con) (s'.ended con))
    (hMain : LoopFits s') :
    ServerKept s' := by
  rcases hSame with ⟨hClock, hAccepted, hFreed, hCrashed⟩
  have hCreated : s'.created = s.created := by
    unfold Server.created
    rw [hAccepted]
  have hList : ∀ proxy, s'.listOf proxy = s.listOf proxy := by
    intro proxy
    unfold Server.listOf
    rw [hAccepted, hFreed]
  have hHere := (hKept.live con).mp (by simp [hOld])
  refine ⟨?_, hMain⟩
  constructor
  · exact hCrashed.trans hKept.safe
  · rw [hFreed]
    exact hKept.once
  · intro proxy
    rw [hLinks, hHead, hList]
    exact hKept.lists proxy
  · rw [hAccepted, hCreated]
    exact hKept.numbers
  · intro other
    rw [hFields, hCreated, hFreed, ← hKept.live other]
    by_cases hCon : other = con
    · subst hCon
      simp [hOld]
    · rw [Function.update_of_ne hCon]
  · intro other hMem
    rw [hFreed] at hMem
    have hOther : other ≠ con := by
      rintro rfl
      exact hHere.2 hMem
    rcases hKept.gone other hMem with ⟨hLt, hThread, hTime⟩
    rcases hThreads other hOther with ⟨hPc, hEnded⟩
    rw [hCreated]
    refine ⟨hLt, ?_, ?_⟩
    · rw [hPc]
      exact hThread
    · rw [hEnded, hClock]
      exact hTime
  · intro other hUnborn
    rw [hCreated] at hUnborn
    have hOther : other ≠ con := by
      rintro rfl
      exact absurd hHere.1 (not_lt.mpr hUnborn)
    rcases hThreads other hOther with ⟨hPc, hEnded⟩
    rw [hPc, hEnded]
    exact hKept.unborn other hUnborn
  · intro other
    rw [hFields]
    by_cases hCon : other = con
    · subst hCon
      rw [Function.update_self]
      exact hFits
    · rcases hThreads other hCon with ⟨hPc, hEnded⟩
      rw [Function.update_of_ne hCon, hPc, hEnded]
      exact hKept.threads other

/- The main loop moves on. -/
theorem move
    (hKept : ServerKept s)
    (hHead : ∀ proxy, s'.head proxy = s.head proxy)
    (hHeap : s'.heap = s.heap)
    (hThreads : s'.threads = s.threads)
    (hEnded : s'.ended = s.ended)
    (hClock : s'.clock = s.clock)
    (hAccepted : s'.accepted = s.accepted)
    (hFreed : s'.freed = s.freed)
    (hCrashed : s'.crashed = s.crashed)
    (hMain : LoopFits s') :
    ServerKept s' := by
  refine ⟨?_, hMain⟩
  rw [funext hHead]
  exact hKept.toStored.move hHeap hThreads hEnded hClock
    hAccepted hFreed hCrashed

/- The clock goes on. -/
theorem tick
    (hKept : ServerKept s)
    (seconds : Nat) :
    ServerKept { s with clock := s.clock + seconds } := by
  refine ⟨⟨hKept.safe, hKept.once, hKept.lists,
    hKept.numbers, hKept.live, ?_, hKept.unborn,
    hKept.threads⟩, ?_⟩
  · intro other hMem
    rcases hKept.gone other hMem with ⟨hLt, hThread, hTime⟩
    refine ⟨hLt, hThread, ?_⟩
    intro t hEnded
    have hBefore := hTime t hEnded
    dsimp only
    omega
  · have hMain := hKept.main
    unfold LoopFits at hMain ⊢
    dsimp only
    split at hMain
    case h_2 =>
      rcases hMain with ⟨hMem, hNext, hNow, hRest⟩
      exact ⟨hMem, hNext, by omega, hRest⟩
    all_goals exact hMain

end ServerKept

------------------------------------------------------------
-- The Threads
------------------------------------------------------------

/- The main loop does not count on what a thread changes. -/
theorem LoopFits.thread
    {s s' : Server}
    {con : Nat}
    {f f' : ConFields}
    (hMain : LoopFits s)
    (hOld : s.heap.fields con = some f)
    (hOpen : f.threadHasExited = false)
    (hBusy : s.threads con ≠ .absent)
    (hLoop : s'.main = s.main)
    (hLinks : s'.heap.links = s.heap.links)
    (hFields :
      s'.heap.fields =
        Function.update s.heap.fields con (some f'))
    (hThreads :
      ∀ other, other ≠ con →
        s'.threads other = s.threads other)
    (hClock : s'.clock = s.clock)
    (hList : ∀ proxy, s'.listOf proxy = s.listOf proxy) :
    LoopFits s' := by
  unfold LoopFits at hMain ⊢
  rw [hLoop, hFields, hLinks, hClock]
  simp only [hList]
  cases hPc : s.main with
  | launching pc other services =>
      rw [hPc] at hMain
      dsimp only at hMain ⊢
      by_cases hSame : other = con
      · subst hSame
        refine ⟨by simp, ?_⟩
        have hLaunch := hMain.2
        unfold LaunchFits at hLaunch ⊢
        cases pc
        case created value =>
          exact fun hValue => absurd (hLaunch hValue) hBusy
        case called value =>
          exact fun hValue => absurd (hLaunch hValue) hBusy
        case failed => exact absurd hLaunch hBusy
        all_goals exact absurd hLaunch.1 hBusy
      · rw [Function.update_of_ne hSame, hThreads _ hSame]
        exact hMain
  | visiting pc vars proxies =>
      rw [hPc] at hMain
      dsimp only at hMain ⊢
      by_cases hSame : vars.cur = con
      · rcases hMain with ⟨hMem, hNext, hNow, hRest⟩
        refine ⟨hMem, hNext, hNow, ?_⟩
        rw [hSame, hOld] at hRest
        cases pc
        case testExited => trivial
        case testTime =>
          rcases hRest with ⟨_, hSome, hExited⟩
          rw [← Option.some.inj hSome, hOpen] at hExited
          contradiction
        case free =>
          rcases hRest with ⟨_, hSome, hExited, _⟩
          rw [← Option.some.inj hSome, hOpen] at hExited
          contradiction
      · rw [Function.update_of_ne hSame]
        exact hMain
  | sweepingAt cur =>
      rw [hPc] at hMain
      exact hMain
  | accepting services => trivial
  | cleaning proxies => trivial
  | sweeping => trivial

namespace ServerKept

variable {s : Server}
variable {con : Nat}

/- A thread writes its own connection. -/
theorem threadWrite
    (hKept : ServerKept s)
    {s' : Server}
    {f f' : ConFields}
    (hOld : s.heap.fields con = some f)
    (hOpen : f.threadHasExited = false)
    (hBusy : s.threads con ≠ .absent)
    (hLoop : s'.main = s.main ∧ s'.heads = s.heads)
    (hLinks : s'.heap.links = s.heap.links)
    (hFields :
      s'.heap.fields =
        Function.update s.heap.fields con (some f'))
    (hThreads :
      ∀ other, other ≠ con →
        s'.threads other = s.threads other ∧
          s'.ended other = s.ended other)
    (hSame :
      s'.clock = s.clock ∧ s'.accepted = s.accepted ∧
        s'.freed = s.freed ∧ s'.crashed = s.crashed)
    (hFits :
      ThreadFits (some f') (s'.threads con)
        (s'.ended con)) :
    ServerKept s' := by
  have hHead : ∀ proxy, s'.head proxy = s.head proxy := by
    intro proxy
    unfold Server.head Server.headWith
    rw [hLoop.1, hLoop.2]
  apply hKept.write hOld hLinks hFields hHead hThreads hSame
    hFits
  apply hKept.main.thread hOld hOpen hBusy hLoop.1 hLinks
    hFields (fun other hNe => (hThreads other hNe).1) hSame.1
  intro proxy
  unfold Server.listOf
  rw [hSame.2.1, hSame.2.2.1]

/- The fields of a connection whose thread is not done. -/
theorem fields_of_busy
    (hKept : ServerKept s)
    (hBusy : s.threads con ≠ .absent)
    (hHere : s.threads con ≠ .done) :
    ∃ f, s.heap.fields con = some f ∧
      f.threadHasExited = false := by
  have hFits := hKept.threads con
  rcases Option.ne_none_iff_exists'.mp
    (hFits.busy hBusy hHere) with ⟨f, hFields⟩
  refine ⟨f, hFields, ?_⟩
  by_contra hExited
  rcases hFits.exited f hFields (by simpa using hExited) with
    hAbsent | hDone
  · exact hBusy hAbsent
  · exact hHere hDone

/- The last thing a thread does. -/
theorem threadExit
    (hKept : ServerKept s)
    (hBusy : s.threads con ≠ .absent)
    (hHere : s.threads con ≠ .done) :
    ServerKept
      (s.withHeap
        (s.heap.setFields con fun fields =>
          { fields with threadHasExited := true })
        fun s => s.setThread con .done) := by
  rcases hKept.fields_of_busy hBusy hHere with
    ⟨f, hOld, hOpen⟩
  rcases ConHeap.setFields_spec hOld (fun fields =>
    { fields with threadHasExited := true }) with
    ⟨heap', hWrite, hLinks, hFields⟩
  rw [hWrite]
  simp only [Server.withHeap]
  refine hKept.threadWrite hOld hOpen hBusy ⟨rfl, rfl⟩
    hLinks hFields ?_ ?_ ?_
  · intro other hNe
    exact ⟨Function.update_of_ne hNe _ _, rfl⟩
  · exact ⟨rfl, rfl, rfl, rfl⟩
  · have hEnded := (hKept.threads con).ended f hOld
    constructor
    · exact fun _ _ _ => .inr (Function.update_self _ _ _)
    · simp [Server.setThread]
    · simp
    · simp [Server.setThread]
    · rintro _ ⟨rfl⟩
      exact hEnded

/- A step of the thread of a connection. -/
theorem threadMove
    (hKept : ServerKept s)
    (con : Nat)
    (act : ThreadAct) :
    ServerKept (threadMove s con act) := by
  unfold SmartSOCKSProxy.threadMove
  cases hPc : s.threads con
  case absent =>
    dsimp only
    exact hKept
  case done =>
    dsimp only
    exact hKept
  case exiting =>
    exact hKept.threadExit (by simp [hPc]) (by simp [hPc])
  case running =>
    have hBusy : s.threads con ≠ .absent := by simp [hPc]
    have hHere : s.threads con ≠ .done := by simp [hPc]
    rcases hKept.fields_of_busy hBusy hHere with
      ⟨f, hOld, hOpen⟩
    rcases ConHeap.exists_of_fields hOld with
      ⟨node, hNode, _⟩
    cases act with
    | access =>
        simp only [Server.withNode, hNode]
        exact hKept
    | shutdown =>
        simp only [Server.withNode, hNode]
        have hSame :
            (s.setThread con .shutdown).heap.fields =
              Function.update s.heap.fields con (some f) := by
          rw [← hOld, Function.update_eq_self]
          rfl
        refine hKept.threadWrite hOld hOpen hBusy ⟨rfl, rfl⟩
          rfl hSame ?_ ?_ ?_
        · intro other hNe
          exact ⟨Function.update_of_ne hNe _ _, rfl⟩
        · exact ⟨rfl, rfl, rfl, rfl⟩
        · have hNone :=
            (hKept.threads con).inHandler (.inl hPc)
          constructor
          all_goals
            simp [Server.setThread, hNone, hOpen]
    | exit => exact hKept.threadExit hBusy hHere
  case shutdown =>
    have hBusy : s.threads con ≠ .absent := by simp [hPc]
    rcases hKept.fields_of_busy hBusy (by simp [hPc]) with
      ⟨f, hOld, hOpen⟩
    rcases ConHeap.setFields_spec hOld (fun fields =>
      { fields with endTime := s.clock }) with
      ⟨heap', hWrite, hLinks, hFields⟩
    dsimp only
    rw [hWrite]
    simp only [Server.withHeap]
    refine hKept.threadWrite hOld hOpen hBusy ⟨rfl, rfl⟩
      hLinks hFields ?_ ?_ ?_
    · intro other hNe
      exact ⟨Function.update_of_ne hNe _ _,
        Function.update_of_ne hNe _ _⟩
    · exact ⟨rfl, rfl, rfl, rfl⟩
    · constructor
      all_goals
        simp [Server.setThread, hOpen]

end ServerKept

------------------------------------------------------------
-- The Main Loop
------------------------------------------------------------

namespace Server

variable {s : Server}

/- Outside of cleanup_connections(). -/
theorem head_of_main
    (hMain : ∀ pc vars proxies,
      s.main ≠ .visiting pc vars proxies) :
    s.head = s.heads := by
  funext proxy
  unfold head
  split
  case h_1 hHere => exact absurd hHere (hMain _ _ _)
  case h_2 => rfl

end Server

namespace ServerKept

variable {s : Server}
variable {con proxy : Nat}
variable {services proxies : List Nat}

/- launch_thread() goes on. -/
theorem launchNext
    (hKept : ServerKept s)
    {pc pc' : LaunchPc}
    (hMain : s.main = .launching pc con services)
    (hFits :
      LaunchFits pc' (s.heap.fields con) (s.threads con)) :
    ServerKept { s with main := .launching pc' con services } := by
  have hLoop := hKept.main
  unfold LoopFits at hLoop
  rw [hMain] at hLoop
  refine hKept.move ?_ rfl rfl rfl rfl rfl rfl rfl
    ⟨hLoop.1, hFits⟩
  intro proxy
  unfold Server.head
  rw [hMain]

/- launch_thread() writes a field; `main` comes after it. -/
theorem launchWrite
    (hKept : ServerKept s)
    {pc : LaunchPc}
    (hMain : s.main = .launching pc con services)
    {change : ConFields → ConFields}
    (hEnd : ∀ f, (change f).endTime = f.endTime)
    (hExited : ∀ f, (change f).threadHasExited = true →
      f.threadHasExited = true ∨ s.threads con = .absent)
    {main : LoopPc}
    (hOutside : ∀ pc vars proxies,
      main ≠ .visiting pc vars proxies)
    (hNext : ∀ heap : ConHeap, heap.fields con ≠ none →
      LoopFits { s with heap := heap, main := main }) :
    ServerKept
      (s.withHeap (s.heap.setFields con change)
        fun s => { s with main := main }) := by
  have hLoop := hKept.main
  unfold LoopFits at hLoop
  rw [hMain] at hLoop
  rcases Option.ne_none_iff_exists'.mp hLoop.1 with
    ⟨f, hOld⟩
  rcases ConHeap.setFields_spec hOld change with
    ⟨heap', hWrite, hLinks, hFields⟩
  rw [hWrite]
  simp only [Server.withHeap]
  have hFits := hKept.threads con
  rw [hOld] at hFits
  refine hKept.write hOld hLinks hFields ?_
    (fun _ _ => ⟨rfl, rfl⟩) ⟨rfl, rfl, rfl, rfl⟩ ?_
    (hNext heap' (by simp [hFields]))
  · intro proxy
    have hBefore : s.head = s.heads :=
      Server.head_of_main (by simp [hMain])
    have hAfter :
        Server.head { s with heap := heap', main := main } =
          s.heads :=
      Server.head_of_main hOutside
    exact congrFun (hAfter.trans hBefore.symm) proxy
  · refine ⟨?_, hFits.absent, fun _ _ => by simp,
      hFits.inHandler, ?_⟩
    · rintro _ ⟨rfl⟩ hHere
      rcases hExited f hHere with hBefore | hAbsent
      · exact hFits.exited f rfl hBefore
      · exact .inl hAbsent
    · rintro _ ⟨rfl⟩ t hEnded
      rw [hEnd]
      exact hFits.ended f rfl t hEnded

/- The thread is started. -/
theorem launchStart
    (hKept : ServerKept s)
    {pc : LaunchPc}
    (hMain : s.main = .launching pc con services)
    (hAbsent : s.threads con = .absent)
    (hOpen : ∀ f, s.heap.fields con = some f →
      f.threadHasExited = false)
    {value : Int}
    (hValue : value = 0) :
    ServerKept
      { s.setThread con .running with
        main := .launching (.created value) con services } := by
  have hLoop := hKept.main
  unfold LoopFits at hLoop
  rw [hMain] at hLoop
  rcases Option.ne_none_iff_exists'.mp hLoop.1 with
    ⟨f, hOld⟩
  have hSame :
      s.heap.fields =
        Function.update s.heap.fields con (some f) := by
    rw [← hOld, Function.update_eq_self]
  have hFits := hKept.threads con
  refine hKept.write hOld rfl hSame ?_ ?_
    ⟨rfl, rfl, rfl, rfl⟩ ?_
    ⟨hLoop.1, fun hFailed => absurd hValue hFailed⟩
  · intro proxy
    unfold Server.head
    rw [hMain]
    rfl
  · intro other hNe
    exact ⟨Function.update_of_ne hNe _ _, rfl⟩
  · have hNone := hFits.absent hAbsent
    constructor
    all_goals
      simp [Server.setThread, hNone, hOpen f hOld]

/- A step of launch_thread(). -/
theorem launchMove
    (hKept : ServerKept s)
    {pc : LaunchPc}
    (hMain : s.main = .launching pc con services)
    (rc : Int) :
    ServerKept (launchMove s rc con services pc) := by
  have hLoop := hKept.main
  unfold LoopFits at hLoop
  rw [hMain] at hLoop
  rcases hLoop with ⟨hLive, hLaunch⟩
  cases pc with
  | attrInit =>
      unfold SmartSOCKSProxy.launchMove
      dsimp only
      split_ifs
      · exact hKept.launchNext hMain hLaunch.1
      · exact hKept.launchNext hMain hLaunch
  | setDetachState =>
      unfold SmartSOCKSProxy.launchMove
      dsimp only
      split_ifs
      · exact hKept.launchNext hMain hLaunch.1
      · exact hKept.launchNext hMain hLaunch
  | create =>
      unfold SmartSOCKSProxy.launchMove
      dsimp only
      split_ifs with hCreated
      · exact hKept.launchStart hMain hLaunch.1 hLaunch.2
          hCreated
      · exact hKept.launchNext hMain (fun _ => hLaunch.1)
  | created value =>
      unfold SmartSOCKSProxy.launchMove
      dsimp only
      apply hKept.launchWrite hMain
      · exact fun _ => rfl
      · exact fun _ hExited => .inl hExited
      · simp
      · exact fun heap hHere => ⟨hHere, hLaunch⟩
  | called value =>
      unfold SmartSOCKSProxy.launchMove
      dsimp only
      split_ifs with hFailed
      · apply hKept.launchWrite hMain
        · exact fun _ => rfl
        · exact fun _ hExited => .inl hExited
        · simp
        · exact fun heap hHere => ⟨hHere, hLaunch hFailed⟩
      · apply hKept.launchWrite hMain
        · exact fun _ => rfl
        · exact fun _ hExited => .inl hExited
        · simp
        · exact fun heap hHere => trivial
  | failed =>
      unfold SmartSOCKSProxy.launchMove
      dsimp only
      apply hKept.launchWrite hMain
      · exact fun _ => rfl
      · exact fun _ _ => .inr hLaunch
      · simp
      · exact fun heap hHere => trivial

/- The memory after a connection has been accepted. -/
theorem acceptHeap
    (hKept : ServerKept s)
    (hMain : s.main = .accepting (proxy :: services))
    (junkValue : Int) :
    ∃ heap' : ConHeap,
      s.accept proxy junkValue services =
        { s with
          heap := heap'
          heads :=
            Function.update s.heads proxy (some s.created)
          accepted := (proxy, s.created) :: s.accepted
          main := .launching .attrInit s.created services } ∧
      heap'.links =
        s.heap.links.pushFront (s.heads proxy) s.created ∧
      heap'.fields =
        Function.update s.heap.fields s.created
          (some (newConNode junkValue).fields) := by
  have hHeads : s.head = s.heads :=
    Server.head_of_main (by simp [hMain])
  generalize hHeap :
    s.heap.set s.created (newConNode junkValue) =
      heap
  have hNode :
      heap s.created = some (newConNode junkValue) := by
    rw [← hHeap]
    exact Function.update_self _ _ _
  have hFields :
      heap.fields =
        Function.update s.heap.fields s.created
          (some (newConNode junkValue).fields) := by
    rw [← hHeap, ConHeap.fields_set]
  have hHead :
      ∀ h, s.heads proxy = some h → heap.fields h ≠ none := by
    intro h hSome
    rw [← hHeads] at hSome
    have hLive :=
      hKept.listed ((hKept.lists proxy).head_mem hSome)
    rw [hFields]
    by_cases hSame : h = s.created
    · simp [hSame]
    · rw [Function.update_of_ne hSame]
      exact hLive
  rcases insertClientConnection_spec hNode hHead with
    ⟨heap', hInsert, hLinks', hFields'⟩
  refine ⟨heap', ?_, ?_, hFields'.trans hFields⟩
  · unfold Server.accept
    dsimp only
    rw [hHeap, hInsert]
    rfl
  · rw [hLinks', ← hHeap, ConHeap.links_set,
      Links.pushFront_fresh]

/- The list that gets the new connection. -/
theorem listOf_cons
    {t : Server}
    (hAccepted : t.accepted = (proxy, con) :: s.accepted)
    (hFreed : t.freed = s.freed)
    (hUnfreed : con ∉ s.freed)
    (proxy' : Nat) :
    t.listOf proxy' =
      if proxy = proxy' then con :: s.listOf proxy'
      else s.listOf proxy' := by
  unfold Server.listOf
  rw [hAccepted, hFreed]
  by_cases hSame : proxy = proxy'
  · simp [hSame, hUnfreed]
  · simp [hSame]

/- A new connection is put into the list of its proxy. -/
theorem accept
    (hKept : ServerKept s)
    (hMain : s.main = .accepting (proxy :: services))
    (junkValue : Int) :
    ServerKept (s.accept proxy junkValue services) := by
  have hHeads : s.head = s.heads :=
    Server.head_of_main (by simp [hMain])
  have hLists := hKept.lists
  rw [hHeads] at hLists
  have hNew : ∀ p, s.created ∉ s.listOf p := by
    intro p hMem
    have hLive := (hKept.live _).mp (hKept.listed hMem)
    exact absurd hLive.1 (lt_irrefl _)
  have hUnfreed : s.created ∉ s.freed := by
    intro hMem
    exact absurd (hKept.gone _ hMem).1 (lt_irrefl _)
  rcases hKept.unborn s.created (le_refl _) with
    ⟨hAbsent, hNone⟩
  rcases hKept.acceptHeap hMain junkValue with
    ⟨heap', hAccept, hLinks, hFields⟩
  rw [hAccept]
  refine ⟨⟨hKept.safe, hKept.once, ?_, ?_, ?_, ?_, ?_, ?_⟩,
    ?_⟩
  · intro p
    have hCons : ∀ t : Server,
        t.accepted = (proxy, s.created) :: s.accepted →
        t.freed = s.freed → t.listOf p =
          if proxy = p then s.created :: s.listOf p
          else s.listOf p :=
      fun _ hAccepted hFreed =>
        listOf_cons hAccepted hFreed hUnfreed p
    rw [hCons, hLinks]
    rotate_left
    · rfl
    · rfl
    unfold Server.head
    dsimp only
    by_cases hSame : proxy = p
    · subst hSame
      rw [if_pos rfl, Function.update_self]
      exact (hLists proxy).pushFront (hNew proxy)
    · rw [if_neg hSame, Function.update_of_ne (Ne.symm hSame)]
      apply (hLists p).pushFront_other (hNew p)
      intro other hMem hHead
      have hOwn := (hLists proxy).head_mem hHead
      exact hSame (hKept.listOf_disjoint hOwn hMem)
  · unfold Server.created
    dsimp only
    rw [List.map_cons, hKept.numbers, List.length_cons,
      List.range_succ, List.reverse_append]
    rfl
  · intro other
    rw [hFields]
    by_cases hSame : other = s.created
    · subst hSame
      rw [Function.update_self]
      exact iff_of_true (by simp)
        ⟨Nat.lt_succ_self _, hUnfreed⟩
    · rw [Function.update_of_ne hSame, hKept.live other]
      have hLt : other < s.created + 1 ↔ other < s.created := by
        omega
      exact and_congr_left' hLt.symm
  · intro other hMem
    rcases hKept.gone other hMem with ⟨hLt, hGone⟩
    exact ⟨Nat.lt_succ_of_lt hLt, hGone.1, hGone.2⟩
  · intro other hUnborn
    exact hKept.unborn other (Nat.le_of_succ_le hUnborn)
  · intro other
    rw [hFields]
    by_cases hSame : other = s.created
    · subst hSame
      rw [Function.update_self]
      dsimp only
      rw [hAbsent, hNone]
      constructor
      all_goals simp [newConNode]
    · rw [Function.update_of_ne hSame]
      exact hKept.threads other
  · refine ⟨by simp [hFields], hAbsent, ?_⟩
    simp [hFields, newConNode]

/- cleanup_connections() goes on to the next connection. -/
theorem cleanupNext
    {vars : CleanupVars}
    (hStored : Stored s (s.headWith vars))
    (hNext :
      ∀ n, vars.next = some n → n ∈ s.listOf vars.proxy)
    (hNow : vars.now ≤ s.clock) :
    ServerKept (s.cleanupNext vars proxies) := by
  unfold Server.cleanupNext
  cases hHere : vars.next with
  | some cur =>
      have hMem := hNext cur hHere
      rcases hStored.node_of_listed hMem with ⟨node, hNode⟩
      simp only [Server.withNode, hNode]
      refine ⟨hStored.move rfl rfl rfl rfl rfl rfl rfl, ?_⟩
      exact ⟨hMem, (ConHeap.next_eq hNode).symm, hNow,
        trivial⟩
  | none =>
      dsimp only
      refine ⟨?_, trivial⟩
      have hHead :
          Server.head
            { s.setHead vars.proxy vars.pool with
              main := .cleaning proxies } =
            s.headWith vars := by
        funext p
        unfold Server.head Server.setHead Server.headWith
        dsimp only
        rw [Function.update_apply]
        simp only [eq_comm]
      rw [hHead]
      exact hStored.move rfl rfl rfl rfl rfl rfl rfl

theorem filter_ne_self
    {con : Nat}
    {cons : List Nat}
    (hNot : con ∉ cons) :
    cons.filter (fun other => other ≠ con) = cons := by
  apply List.filter_eq_self.mpr
  intro other hOther
  have hNe : other ≠ con := by
    rintro rfl
    exact hNot hOther
  simpa using hNe

/- The list that loses a connection. -/
theorem listOf_freed
    {t : Server}
    (hAccepted : t.accepted = s.accepted)
    (hFreed : t.freed = con :: s.freed)
    (proxy : Nat) :
    t.listOf proxy =
      (s.listOf proxy).filter fun other => other ≠ con := by
  unfold Server.listOf
  rw [hAccepted, hFreed, List.filter_filter]
  simp

/- The state of the server after a connection is freed. -/
theorem freeStored
    (hKept : ServerKept s)
    {vars : CleanupVars}
    (hMain : s.main = .visiting .free vars proxies)
    {heap' : ConHeap}
    (hLinks : heap'.links = s.heap.links.unlink vars.cur)
    (hFields :
      heap'.fields =
        Function.update s.heap.fields vars.cur none)
    {head : Nat → Option Nat}
    (hHead : ∀ p, head p =
      if vars.proxy = p then
        if vars.pool = some vars.cur then vars.next
        else vars.pool
      else s.heads p) :
    Stored
      { s with heap := heap', freed := vars.cur :: s.freed }
      head := by
  have hLoop := hKept.main
  unfold LoopFits at hLoop
  rw [hMain] at hLoop
  rcases hLoop with
    ⟨hMem, hNext, hNow, f, hOld, hExited, hLate⟩
  have hLists := hKept.lists
  have hHeads : s.head = s.headWith vars := by
    funext p
    unfold Server.head
    rw [hMain]
  rw [hHeads] at hLists
  have hOwn := hLists vars.proxy
  have hSelf := hOwn.next_ne_self hMem
  have hHere := (hKept.live vars.cur).mp (by simp [hOld])
  have hFits := hKept.threads vars.cur
  have hOver := hFits.exited f hOld hExited
  refine ⟨hKept.safe, List.nodup_cons.mpr ⟨hHere.2,
    hKept.once⟩, ?_, hKept.numbers, ?_, ?_, hKept.unborn, ?_⟩
  · intro p
    have hFilter : ∀ t : Server, t.accepted = s.accepted →
        t.freed = vars.cur :: s.freed → t.listOf p =
          (s.listOf p).filter fun con => con ≠ vars.cur :=
      fun _ hAccepted hFreed =>
        listOf_freed hAccepted hFreed p
    rw [hFilter, hLinks, hHead]
    rotate_left
    · rfl
    · rfl
    by_cases hSame : vars.proxy = p
    · subst hSame
      rw [if_pos rfl]
      rcases List.append_of_mem hMem with ⟨ys, zs, hSplit⟩
      have hOnce := hOwn.nodup
      unfold Server.headWith at hOwn
      rw [if_pos rfl, hSplit] at hOwn
      rw [hSplit, List.nodup_middle, List.nodup_cons] at hOnce
      have hRest :
          (s.listOf vars.proxy).filter
              (fun con => con ≠ vars.cur) = ys ++ zs := by
        rw [hSplit, List.filter_append,
          List.filter_cons_of_neg (by simp),
          ← List.filter_append, filter_ne_self hOnce.1]
      rw [hRest, hNext]
      exact hOwn.unlink (by simp)
    · rw [if_neg hSame]
      have hOther : vars.cur ∉ s.listOf p := by
        intro hThere
        exact hSame (hKept.listOf_disjoint hMem hThere)
      have hRest :
          (s.listOf p).filter (fun con => con ≠ vars.cur) =
            s.listOf p :=
        filter_ne_self hOther
      have hChain := hLists p
      unfold Server.headWith at hChain
      rw [if_neg hSame] at hChain
      rw [hRest]
      apply hChain.unlink_other hSelf hOther
      · intro con hCon hNeighbour
        exact hSame (hKept.listOf_disjoint
          (hOwn.next_mem hMem hNeighbour) hCon)
      · intro con hCon hNeighbour
        exact hSame (hKept.listOf_disjoint
          (hOwn.prev_mem hMem hNeighbour) hCon)
  · intro con
    rw [hFields]
    by_cases hSame : con = vars.cur
    · subst hSame
      rw [Function.update_self]
      simp
    · rw [Function.update_of_ne hSame, hKept.live con]
      simp [Server.created, hSame]
  · intro con hCon
    rcases List.mem_cons.mp hCon with rfl | hBefore
    · refine ⟨hHere.1, hOver, ?_⟩
      intro t hEnded
      have hTime := hFits.ended f hOld t hEnded
      dsimp only
      omega
    · rcases hKept.gone con hBefore with ⟨hLt, hGone⟩
      exact ⟨hLt, hGone.1, hGone.2⟩
  · intro con
    rw [hFields]
    by_cases hSame : con = vars.cur
    · subst hSame
      rw [Function.update_self]
      refine ⟨nofun, hFits.absent, ?_, hFits.inHandler,
        nofun⟩
      intro hBusy hDone
      exact absurd hOver (not_or.mpr ⟨hBusy, hDone⟩)
    · rw [Function.update_of_ne hSame]
      exact hKept.threads con

/- cleanup_connections() frees a connection. -/
theorem cleanupFree
    (hKept : ServerKept s)
    {vars : CleanupVars}
    (hMain : s.main = .visiting .free vars proxies) :
    ServerKept (s.cleanupFree vars proxies) := by
  have hLoop := hKept.main
  unfold LoopFits at hLoop
  rw [hMain] at hLoop
  rcases hLoop with ⟨hMem, hNext, hNow, _⟩
  have hOwn := hKept.lists vars.proxy
  have hSelf := hOwn.next_ne_self hMem
  rcases freeClientConnection_spec (hKept.listed hMem)
    (fun n hn => ⟨hKept.listed (hOwn.next_mem hMem hn),
      fun hSame => hSelf (hSame ▸ hn)⟩)
    (fun p hp => hKept.listed (hOwn.prev_mem hMem hp)) with
    ⟨heap', hFree, hLinks, hFields⟩
  unfold Server.cleanupFree
  rw [hFree]
  simp only [Server.withHeap]
  apply cleanupNext
  · exact hKept.freeStored hMain hLinks hFields
      (fun p => rfl)
  · intro n hn
    rw [Server.mem_listOf]
    dsimp only at hn ⊢
    rw [hNext] at hn
    have hNeighbour :=
      Server.mem_listOf.mp (hOwn.next_mem hMem hn)
    refine ⟨hNeighbour.1, ?_⟩
    rw [List.mem_cons, not_or]
    refine ⟨?_, hNeighbour.2⟩
    rintro rfl
    exact hSelf hn
  · exact hNow

/- A step at a connection in cleanup_connections(). -/
theorem cleanupMove
    (hKept : ServerKept s)
    {pc : CleanupPc}
    {vars : CleanupVars}
    (hMain : s.main = .visiting pc vars proxies) :
    ServerKept (cleanupMove s vars proxies pc) := by
  have hLoop := hKept.main
  unfold LoopFits at hLoop
  rw [hMain] at hLoop
  rcases hLoop with ⟨hMem, hNext, hNow, hFits⟩
  rcases hKept.node_of_listed hMem with ⟨node, hNode⟩
  have hFields :
      s.heap.fields vars.cur = some node.fields := by
    simp [ConHeap.fields, hNode]
  have hHead : s.head = s.headWith vars := by
    funext p
    unfold Server.head
    rw [hMain]
  have hGoOn : ServerKept (s.cleanupNext vars proxies) := by
    apply cleanupNext
    · rw [← hHead]
      exact hKept.toStored
    · intro n hn
      rw [hNext] at hn
      exact (hKept.lists vars.proxy).next_mem hMem hn
    · exact hNow
  have hVisit : ∀ pc',
      CleanupFits pc' vars.now (s.heap.fields vars.cur) →
        ServerKept { s with main := .visiting pc' vars proxies } := by
    intro pc' hThere
    refine hKept.move ?_ rfl rfl rfl rfl rfl rfl rfl
      ⟨hMem, hNext, hNow, hThere⟩
    intro p
    rw [hHead]
    rfl
  unfold SmartSOCKSProxy.cleanupMove
  cases pc with
  | testExited =>
      simp only [Server.withNode, hNode]
      split_ifs with hExited
      · exact hVisit _ ⟨_, hFields, hExited⟩
      · exact hGoOn
  | testTime =>
      rcases hFits with ⟨f, hSome, hExited⟩
      rw [hFields] at hSome
      rw [← Option.some.inj hSome] at hExited
      simp only [Server.withNode, hNode]
      split_ifs with hLate
      · exact hVisit _ ⟨_, hFields, hExited, hLate⟩
      · exact hGoOn
  | free => exact hKept.cleanupFree hMain

/- The main loop goes on, outside of cleanup_connections(). -/
theorem goOn
    (hKept : ServerKept s)
    (hBefore : ∀ pc vars proxies,
      s.main ≠ .visiting pc vars proxies)
    {main : LoopPc}
    (hAfter : ∀ pc vars proxies,
      main ≠ .visiting pc vars proxies)
    (hMain : LoopFits { s with main := main }) :
    ServerKept { s with main := main } := by
  refine hKept.move ?_ rfl rfl rfl rfl rfl rfl rfl hMain
  intro p
  have hThere : Server.head { s with main := main } = s.heads :=
    Server.head_of_main hAfter
  rw [hThere, Server.head_of_main hBefore]

/- cleanup_connections() begins with a list. -/
theorem cleanupStart
    (hKept : ServerKept s)
    (hMain : s.main = .cleaning (proxy :: proxies))
    {pool : Nat}
    (hPool : s.heads proxy = some pool)
    {node : ConNode}
    (hNode : s.heap pool = some node) :
    ServerKept
      { s with
        main :=
          .visiting .testExited
            ⟨proxy, s.clock, some pool, pool, node.next⟩
            proxies } := by
  have hHeads : s.head = s.heads :=
    Server.head_of_main (by simp [hMain])
  have hMem : pool ∈ s.listOf proxy := by
    apply (hKept.lists proxy).head_mem
    rw [hHeads, hPool]
  refine hKept.move ?_ rfl rfl rfl rfl rfl rfl rfl
    ⟨hMem, (ConHeap.next_eq hNode).symm, le_refl _, trivial⟩
  intro p
  rw [hHeads]
  unfold Server.head Server.headWith
  dsimp only
  split_ifs with hSame
  · rw [← hSame, hPool]
  · rfl

/- A step of the main loop. -/
theorem loopMove
    (hKept : ServerKept s)
    (setup : ServerSetup)
    (view : LoopView) :
    ServerKept (loopMove setup s view) := by
  have hHead : ∀ {p : Nat} {con : Nat},
      (∀ pc vars proxies, s.main ≠ .visiting pc vars proxies) →
        s.heads p = some con → con ∈ s.listOf p := by
    intro p con hOutside hSome
    apply (hKept.lists p).head_mem
    rw [Server.head_of_main hOutside, hSome]
  unfold SmartSOCKSProxy.loopMove
  cases hMain : s.main with
  | accepting services =>
      cases services with
      | nil => exact hKept.goOn (by simp [hMain]) (by simp) trivial
      | cons proxy services =>
          dsimp only
          split_ifs
          · exact hKept.accept hMain _
          · exact hKept.goOn (by simp [hMain]) (by simp)
              trivial
  | launching pc con services =>
      exact hKept.launchMove hMain _
  | cleaning proxies =>
      cases proxies with
      | nil => exact hKept.goOn (by simp [hMain]) (by simp) trivial
      | cons proxy proxies =>
          dsimp only
          cases hPool : s.heads proxy with
          | none =>
              exact hKept.goOn (by simp [hMain]) (by simp)
                trivial
          | some pool =>
              have hMem := hHead (by simp [hMain]) hPool
              rcases hKept.node_of_listed hMem with
                ⟨node, hNode⟩
              simp only [Server.withNode, hNode]
              exact hKept.cleanupStart hMain hPool hNode
  | visiting pc vars proxies => exact hKept.cleanupMove hMain
  | sweeping =>
      dsimp only
      cases view.sweep with
      | none =>
          exact hKept.goOn (by simp [hMain]) (by simp) trivial
      | some proxy =>
          dsimp only
          cases hPool : s.heads proxy with
          | none => exact hKept
          | some cur =>
              exact hKept.goOn (by simp [hMain]) (by simp)
                ⟨proxy, hHead (by simp [hMain]) hPool⟩
  | sweepingAt cur =>
      have hLoop := hKept.main
      unfold LoopFits at hLoop
      rw [hMain] at hLoop
      rcases hLoop with ⟨proxy, hMem⟩
      rcases hKept.node_of_listed hMem with ⟨node, hNode⟩
      simp only [Server.withNode, hNode]
      cases hNext : node.next with
      | none =>
          exact hKept.goOn (by simp [hMain]) (by simp) trivial
      | some next =>
          dsimp only
          split_ifs
          · exact hKept.goOn (by simp [hMain]) (by simp)
              trivial
          · have hLater :=
              (hKept.lists proxy).next_mem hMem
                ((ConHeap.next_eq hNode).trans hNext)
            exact hKept.goOn (by simp [hMain]) (by simp)
              ⟨proxy, hLater⟩

end ServerKept

------------------------------------------------------------
-- All Runs
------------------------------------------------------------

theorem newServer_kept
    (setup : ServerSetup)
    (clock : Int) :
    ServerKept (newServer setup clock) := by
  refine ⟨⟨rfl, List.nodup_nil, fun _ => rfl, rfl, ?_, ?_, ?_,
    ?_⟩, trivial⟩
  · intro con
    simp [newServer, ConHeap.fields, Server.created]
  · intro con hMem
    exact nomatch hMem
  · exact fun con _ => ⟨rfl, rfl⟩
  · intro con
    constructor
    all_goals simp [newServer, ConHeap.fields]

/-
  No access to freed memory.  A connection is freed once, when
  its thread, if there is one, has made its last access, and
  when it has loitered.  Every list has the connections that
  were accepted and not freed, each once.
-/
structure Lifetime
    (s : Server) : Prop where
  safe : s.crashed = false
  once : s.freed.Nodup
  thread : ∀ con ∈ s.freed,
    s.threads con = .absent ∨ s.threads con = .done
  loitered : ∀ con ∈ s.freed,
    ∀ t, s.ended con = some t → 4 < s.clock - t
  lists : ∀ proxy,
    s.heap.links.Chain none (s.head proxy) (s.listOf proxy)
  distinct : ∀ proxy, (s.listOf proxy).Nodup

/- In every run, at every moment. -/
theorem serving_lifetime
    (setup : ServerSetup)
    {s : Server}
    (hReach : (serving setup).Reachable s) :
    Lifetime s := by
  have hKept : ServerKept s := by
    apply hReach.invariant
    · rintro _ ⟨clock, rfl⟩
      exact newServer_kept setup clock
    · rintro s move _ _ hHere rfl
      cases move with
      | main view => exact hHere.loopMove setup view
      | thread con act => exact hHere.threadMove con act
      | tick seconds => exact hHere.tick seconds
  exact ⟨hKept.safe, hKept.once,
    fun con hMem => (hKept.gone con hMem).2.thread,
    fun con hMem => (hKept.gone con hMem).2.loitered,
    hKept.lists, fun proxy => (hKept.lists proxy).nodup⟩

/- A connection whose thread ends, and one without a thread. -/
theorem serving_lifetime_freed :
    ∃ s : Server,
      s.freed = [0, 1] ∧ s.ended 0 = some 100 ∧
        s.threads 1 = .absent ∧ Lifetime s := by
  let setup : ServerSetup := ⟨[0], [0, 0]⟩
  let fine : ServerMove := .main ⟨true, 0, 0, none, false⟩
  let fails : ServerMove := .main ⟨true, 0, 11, none, false⟩
  let moves : List ServerMove :=
    List.replicate 6 fine ++ List.replicate 3 fails ++
      [.thread 0 .access, .thread 0 .shutdown,
        .thread 0 .shutdown, .thread 0 .exit, .tick 5] ++
      List.replicate 9 fine
  let s := moves.foldl (serverMove setup) (newServer setup 100)
  have hStart :
      (serving setup).Reachable (newServer setup 100) :=
    .start ⟨100, rfl⟩
  have hReach : (serving setup).Reachable s :=
    hStart.run moves
  exact ⟨s, by decide +kernel, by decide +kernel,
    by decide +kernel, serving_lifetime setup hReach⟩

end SmartSOCKSProxy
