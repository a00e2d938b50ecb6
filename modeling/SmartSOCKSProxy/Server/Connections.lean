import SmartSOCKSProxy.Foundations.LinkedList
import SmartSOCKSProxy.Foundations.Transition

/-
  Connections, their threads and the main loop.

  The main loop accepts connections, starts their threads and
  frees the connections whose threads have exited.  Every
  access to a shared flag is one step.

  Key definitions include:
    * `ConHeap`, `insertClientConnection`,
      `freeClientConnection`
    * `Server`, `loopMove`, `threadMove`
    * `serving`
-/

namespace SmartSOCKSProxy

------------------------------------------------------------
-- Memory
------------------------------------------------------------

/- The fields that tell the main loop about the thread. -/
structure ConFields where
  threadHasExited : Bool
  pthreadCreateCalled : Bool
  pthreadCreateValue : Int
  endTime : Int
deriving DecidableEq

/- A connection object; NULL is `none`. -/
structure ConNode where
  next : Option Nat
  prev : Option Nat
  fields : ConFields
deriving DecidableEq

/- The objects that are allocated and not freed. -/
abbrev ConHeap :=
  Nat → Option ConNode

namespace ConHeap

def set
    (heap : ConHeap)
    (con : Nat)
    (node : ConNode) : ConHeap :=
  Function.update heap con (some node)

/- An access to memory that is not allocated has no result. -/
def write
    (heap : ConHeap)
    (con : Nat)
    (change : ConNode → ConNode) : Option ConHeap :=
  (heap con).map fun node => heap.set con (change node)

def setFields
    (heap : ConHeap)
    (con : Nat)
    (change : ConFields → ConFields) : Option ConHeap :=
  heap.write con fun node =>
    { node with fields := change node.fields }

/- A link is written when there is a neighbour. -/
def setNextOf
    (heap : ConHeap)
    (con : Option Nat)
    (next : Option Nat) : Option ConHeap :=
  match con with
  | some con =>
      heap.write con fun node => { node with next := next }
  | none => some heap

def setPrevOf
    (heap : ConHeap)
    (con : Option Nat)
    (prev : Option Nat) : Option ConHeap :=
  match con with
  | some con =>
      heap.write con fun node => { node with prev := prev }
  | none => some heap

end ConHeap

/- new_client_connection(); malloc() leaves the value. -/
def newConNode
    (junkValue : Int) : ConNode where
  next := none
  prev := none
  fields := ⟨false, false, junkValue, 0⟩

/- `insert_client_connection()` -/
def insertClientConnection
    (heap : ConHeap)
    (head : Option Nat)
    (con : Nat) : Option ConHeap := do
  let heap ← heap.write con fun node =>
    { node with next := head, prev := none }
  heap.setPrevOf head (some con)

/- `remove_client_connection()` -/
def removeClientConnection
    (heap : ConHeap)
    (con : Nat) : Option ConHeap := do
  let node ← heap con
  let heap ← heap.setPrevOf node.next node.prev
  let node ← heap con
  let heap ← heap.setNextOf node.prev node.next
  heap.write con fun node =>
    { node with next := none, prev := none }

/- `free_client_connection()` -/
def freeClientConnection
    (heap : ConHeap)
    (con : Nat) : Option ConHeap :=
  (removeClientConnection heap con).map fun heap =>
    Function.update heap con none

------------------------------------------------------------
-- Threads
------------------------------------------------------------

/-
  Where a connection's thread is: not started; in its handler;
  in service_thread_shutdown() before `end_time` is set, and
  before `thread_has_exited` is; finished.
-/
inductive ThreadPc where
| absent
| running
| shutdown
| exiting
| done
deriving DecidableEq

/-
  What a thread does in its handler: use its connection, call
  service_thread_shutdown(), or end as the default handler.
-/
inductive ThreadAct where
| access
| shutdown
| exit
deriving DecidableEq

------------------------------------------------------------
-- The Main Loop
------------------------------------------------------------

/- Where launch_thread() is. -/
inductive LaunchPc where
| attrInit
| setDetachState
| create
| created (value : Int)
| called (value : Int)
| failed
deriving DecidableEq

/- The variables of cleanup_connections(). -/
structure CleanupVars where
  proxy : Nat
  now : Int
  pool : Option Nat
  cur : Nat
  next : Option Nat
deriving DecidableEq

inductive CleanupPc where
| testExited
| testTime
| free
deriving DecidableEq

/-
  Where the main loop is.  `services` are the proxies of the
  services it still has to look at, and `proxies` those it
  still has to clean up.
-/
inductive LoopPc where
| accepting (services : List Nat)
| launching (pc : LaunchPc) (con : Nat)
    (services : List Nat)
| cleaning (proxies : List Nat)
| visiting (pc : CleanupPc) (vars : CleanupVars)
    (proxies : List Nat)
| sweeping
| sweepingAt (cur : Nat)
deriving DecidableEq

/- `proxy_instance_list`, and the proxy of each service. -/
structure ServerSetup where
  proxies : List Nat
  services : List Nat

/-
  The server.  Besides what the program has, there are the
  connections that were accepted, the newest first and each
  with its proxy; those that were freed; and the `end_time`
  that service_thread_shutdown() has set.
-/
structure Server where
  heap : ConHeap
  heads : Nat → Option Nat
  clock : Int
  main : LoopPc
  threads : Nat → ThreadPc
  accepted : List (Nat × Nat)
  freed : List Nat
  ended : Nat → Option Int
  crashed : Bool

namespace Server

/- Go on with memory, if the access to it was possible. -/
def withHeap
    (s : Server)
    (heap : Option ConHeap)
    (go : Server → Server) : Server :=
  match heap with
  | some heap => go { s with heap := heap }
  | none => { s with crashed := true }

/- Go on with an object, if it can be read. -/
def withNode
    (s : Server)
    (con : Nat)
    (go : ConNode → Server) : Server :=
  match s.heap con with
  | some node => go node
  | none => { s with crashed := true }

def setThread
    (s : Server)
    (con : Nat)
    (pc : ThreadPc) : Server :=
  { s with threads := Function.update s.threads con pc }

def setHead
    (s : Server)
    (proxy : Nat)
    (head : Option Nat) : Server :=
  { s with heads := Function.update s.heads proxy head }

/- The number of the next connection. -/
def created
    (s : Server) : Nat :=
  s.accepted.length

/- accept_connection(), and the connection is inserted. -/
def accept
    (s : Server)
    (proxy : Nat)
    (junkValue : Int)
    (services : List Nat) : Server :=
  let con := s.created
  let heap := s.heap.set con (newConNode junkValue)
  s.withHeap
    (insertClientConnection heap (s.heads proxy) con)
    fun s =>
      { s.setHead proxy (some con) with
        accepted := (proxy, con) :: s.accepted
        main := .launching .attrInit con services }

/- The loop of cleanup_connections() goes on to `next`. -/
def cleanupNext
    (s : Server)
    (vars : CleanupVars)
    (proxies : List Nat) : Server :=
  match vars.next with
  | some cur =>
      s.withNode cur fun node =>
        { s with
          main :=
            .visiting .testExited
              { vars with cur := cur, next := node.next }
              proxies }
  | none =>
      { s.setHead vars.proxy vars.pool with
        main := .cleaning proxies }

/- cleanup_connections() frees `cur`. -/
def cleanupFree
    (s : Server)
    (vars : CleanupVars)
    (proxies : List Nat) : Server :=
  let pool :=
    if vars.pool = some vars.cur then vars.next
    else vars.pool
  s.withHeap (freeClientConnection s.heap vars.cur) fun s =>
    { s with freed := vars.cur :: s.freed }.cleanupNext
      { vars with pool := pool } proxies

end Server

/-
  What a step of the main loop finds: a new connection; what a
  function of the thread library returns; a list to sweep; and
  whether a sweep ends early.
-/
structure LoopView where
  accepts : Bool
  junkValue : Int
  rc : Int
  sweep : Option Nat
  stops : Bool

/- One step of launch_thread(). -/
def launchMove
    (s : Server)
    (rc : Int)
    (con : Nat)
    (services : List Nat) :
    LaunchPc → Server
  | .attrInit =>
      if rc ≠ 0 then
        { s with main := .launching .failed con services }
      else
        { s with
          main := .launching .setDetachState con services }
  | .setDetachState =>
      if rc ≠ 0 then
        { s with main := .launching .failed con services }
      else
        { s with main := .launching .create con services }
  | .create =>
      let s :=
        if rc = 0 then s.setThread con .running else s
      { s with main := .launching (.created rc) con services }
  | .created value =>
      s.withHeap
        (s.heap.setFields con fun fields =>
          { fields with pthreadCreateValue := value })
        fun s =>
          { s with
            main := .launching (.called value) con services }
  | .called value =>
      s.withHeap
        (s.heap.setFields con fun fields =>
          { fields with pthreadCreateCalled := true })
        fun s =>
          if value ≠ 0 then
            { s with main := .launching .failed con services }
          else { s with main := .accepting services }
  | .failed =>
      s.withHeap
        (s.heap.setFields con fun fields =>
          { fields with threadHasExited := true })
        fun s => { s with main := .accepting services }

/- One step at an element in cleanup_connections(). -/
def cleanupMove
    (s : Server)
    (vars : CleanupVars)
    (proxies : List Nat) :
    CleanupPc → Server
  | .testExited =>
      s.withNode vars.cur fun node =>
        if node.fields.threadHasExited then
          { s with main := .visiting .testTime vars proxies }
        else s.cleanupNext vars proxies
  | .testTime =>
      s.withNode vars.cur fun node =>
        if 4 < vars.now - node.fields.endTime then
          { s with main := .visiting .free vars proxies }
        else s.cleanupNext vars proxies
  | .free => s.cleanupFree vars proxies

/- One step of the main loop. -/
def loopMove
    (setup : ServerSetup)
    (s : Server)
    (view : LoopView) : Server :=
  match s.main with
  | .accepting [] =>
      { s with main := .cleaning setup.proxies }
  | .accepting (proxy :: services) =>
      if view.accepts then
        s.accept proxy view.junkValue services
      else { s with main := .accepting services }
  | .launching pc con services =>
      launchMove s view.rc con services pc
  | .cleaning [] => { s with main := .sweeping }
  | .cleaning (proxy :: proxies) =>
      match s.heads proxy with
      | none => { s with main := .cleaning proxies }
      | some pool =>
          s.withNode pool fun node =>
            { s with
              main :=
                .visiting .testExited
                  ⟨proxy, s.clock, some pool, pool, node.next⟩
                  proxies }
  | .visiting pc vars proxies =>
      cleanupMove s vars proxies pc
  | .sweeping =>
      match view.sweep with
      | none => { s with main := .accepting setup.services }
      | some proxy =>
          match s.heads proxy with
          | none => s
          | some cur => { s with main := .sweepingAt cur }
  | .sweepingAt cur =>
      s.withNode cur fun node =>
        match node.next with
        | none => { s with main := .sweeping }
        | some next =>
            if view.stops then { s with main := .sweeping }
            else { s with main := .sweepingAt next }

/- One step of the thread of a connection. -/
def threadMove
    (s : Server)
    (con : Nat)
    (act : ThreadAct) : Server :=
  match s.threads con with
  | .absent => s
  | .running =>
      match act with
      | .access => s.withNode con fun _ => s
      | .shutdown =>
          s.withNode con fun _ => s.setThread con .shutdown
      | .exit =>
          s.withHeap
            (s.heap.setFields con fun fields =>
              { fields with threadHasExited := true })
            fun s => s.setThread con .done
  | .shutdown =>
      s.withHeap
        (s.heap.setFields con fun fields =>
          { fields with endTime := s.clock })
        fun s =>
          { s.setThread con .exiting with
            ended :=
              Function.update s.ended con (some s.clock) }
  | .exiting =>
      s.withHeap
        (s.heap.setFields con fun fields =>
          { fields with threadHasExited := true })
        fun s => s.setThread con .done
  | .done => s

------------------------------------------------------------
-- Interleavings
------------------------------------------------------------

/- Who moves; the clock moves by whole seconds. -/
inductive ServerMove where
| main (view : LoopView)
| thread (con : Nat) (act : ThreadAct)
| tick (seconds : Nat)

def serverMove
    (setup : ServerSetup)
    (s : Server) :
    ServerMove → Server
  | .main view => loopMove setup s view
  | .thread con act => threadMove s con act
  | .tick seconds =>
      { s with clock := s.clock + seconds }

/- No connection has been accepted yet. -/
def newServer
    (setup : ServerSetup)
    (clock : Int) : Server where
  heap := fun _ => none
  heads := fun _ => none
  clock := clock
  main := .accepting setup.services
  threads := fun _ => .absent
  accepted := []
  freed := []
  ended := fun _ => none
  crashed := false

/- All runs of the main loop and the threads. -/
def serving
    (setup : ServerSetup) : Transition Server ServerMove :=
  .moving (fun s => ∃ clock, s = newServer setup clock)
    (serverMove setup)

end SmartSOCKSProxy
