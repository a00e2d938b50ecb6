import SmartSOCKSProxy.Server.Polling
import SmartSOCKSProxy.Server.PollSet
import SmartSOCKSProxy.Server.TunnelPipes

/-
  The rounds of the main loop, and what arrives meanwhile.

  Clients connect and children write while the main thread is
  anywhere in its round.  A connection waits in the backlog of
  a service until it is accepted.

  Key definitions include:
    * `EventLoop`, `EventStep`, `eventLoop`
    * `EventLoop.Reports`, `Separate`
    * `EventLoop.Kept`, `EventLoop.Serves`

  Key theorems include:
    * `separate_of_pipesOwned`
    * `EventLoop.Kept.next`
    * `eventLoop_serves`
-/

namespace SmartSOCKSProxy

------------------------------------------------------------
-- The Loop
------------------------------------------------------------

structure EventSetup where
  ulimit : Int
  threadMsgFd : Int
  listeners : List Listener

/-
  Where the main thread is: before poll(); at the things it
  has still to look at, with the array; gone; in a call that
  does not return; or outside of the array.
-/
inductive EventPc where
| polling
| handling (pfd : List PollFd) (tasks : List LoopTask)
| exited (returnCode : Int)
| blocked
| outside
deriving DecidableEq

/-
  By descriptor, the connections nobody has accepted, the
  bytes nobody has read, and the errors.  Besides, there are
  the connections that ever got into a backlog, those that
  were accepted, and the number of rounds.
-/
structure EventLoop where
  backlog : Int → List Nat
  unread : Int → List UInt8
  errors : Int → PollFlags
  tunnels : List TunnelPipes
  pc : EventPc
  arrived : Int → List Nat
  accepted : Int → List Nat
  rounds : Nat

/-
  A client connects, bytes are written to a pipe, or an error
  is raised; or the main thread moves.  Its poll() tells some
  flags, and a call may fail.  After the rest of a round the
  tunnels may have other pipes.
-/
inductive EventStep where
| connected (fd : Int) (con : Nat)
| written (fd : Int) (bytes : List UInt8)
| raised (fd : Int) (flags : PollFlags)
| polled (d : PollDone) (report : Int → PollFlags)
| handled (error : Option Int)
| rested (tunnels : List TunnelPipes)

/- Those that are open are different descriptors. -/
def Separate
    (tasks : List LoopTask) : Prop :=
  tasks.Pairwise fun task other =>
    0 ≤ task.fd → task.fd ≠ other.fd

namespace EventLoop

def tasks
    (setup : EventSetup)
    (s : EventLoop) : List LoopTask :=
  loopTasks setup.threadMsgFd setup.listeners s.tunnels

def fds
    (setup : EventSetup)
    (s : EventLoop) : List Int :=
  polledFds setup.threadMsgFd setup.listeners s.tunnels

/- A call for the descriptor returns at once. -/
def Ready
    (s : EventLoop) : LoopTask → Prop
  | .service listener => s.backlog listener.fd ≠ []
  | .child _ fd | .threadMsg fd =>
      s.unread fd ≠ [] ∨ (s.errors fd).has POLLHUP

/-
  What poll() may tell.  There is something to read where it
  says so, an error has been raised where it says so, and it
  does not miss a connection.
-/
structure Reports
    (setup : EventSetup)
    (s : EventLoop)
    (report : Int → PollFlags) : Prop where
  ready : ∀ task ∈ s.tasks setup, 0 ≤ task.fd →
    (report task.fd).has anyInput → s.Ready task
  raised : ∀ fd, (report fd).has anyError →
    (s.errors fd).has anyError
  complete : ∀ fd, s.backlog fd ≠ [] →
    (report fd).has POLLRDNORM

/- From the start of a round to after poll(). -/
def poll
    (setup : EventSetup)
    (s : EventLoop)
    (d : PollDone)
    (report : Int → PollFlags) : EventLoop :=
  match pollSet setup.ulimit (s.fds setup) with
  | .error returnCode => { s with pc := .exited returnCode }
  | .ok pfd =>
      match d.outcome with
      | .exits returnCode =>
          { s with pc := .exited returnCode }
      | .handles rc =>
          -- An interrupted call leaves the array as it was.
          let pfd :=
            if rc < 0 then pfd else afterPoll report pfd
          { s with pc := .handling pfd (s.tasks setup) }

/- read() of so many bytes at most. -/
def read
    (s : EventLoop)
    (fd : Int)
    (size : Nat)
    (onError : Option Int)
    (error : Option Int)
    (next : EventPc) : EventLoop :=
  match error with
  | some _ =>
      match onError with
      | some returnCode =>
          { s with pc := .exited returnCode }
      | none => { s with pc := next }
  | none =>
      if s.unread fd = [] ∧ ¬(s.errors fd).has POLLHUP then
        { s with pc := .blocked }
      else
        { s with
          unread :=
            Function.update s.unread fd
              ((s.unread fd).drop size)
          pc := next }

/- `accept_connection()` -/
def accept
    (s : EventLoop)
    (fd : Int)
    (error : Option Int)
    (next : EventPc) : EventLoop :=
  match error with
  | some _ => { s with pc := next }
  | none =>
      match s.backlog fd with
      | [] => { s with pc := .blocked }
      | con :: cons =>
          { s with
            backlog := Function.update s.backlog fd cons
            accepted :=
              Function.update s.accepted fd
                (s.accepted fd ++ [con])
            pc := next }

/- The next thing is looked at. -/
def handle
    (s : EventLoop)
    (pfd : List PollFd)
    (task : LoopTask)
    (tasks : List LoopTask)
    (error : Option Int) : EventLoop :=
  let next := .handling pfd tasks
  match task.demand pfd with
  | .nothing => { s with pc := next }
  | .exits returnCode => { s with pc := .exited returnCode }
  | .reads size onError =>
      s.read task.fd size onError error next
  | .accepts listener => s.accept listener.fd error next
  | .outside => { s with pc := .outside }

/- The state after a step. -/
def next
    (setup : EventSetup)
    (s : EventLoop) : EventStep → EventLoop
  | .connected fd con =>
      { s with
        backlog :=
          Function.update s.backlog fd (s.backlog fd ++ [con])
        arrived :=
          Function.update s.arrived fd
            (s.arrived fd ++ [con]) }
  | .written fd bytes =>
      { s with
        unread :=
          Function.update s.unread fd
            (s.unread fd ++ bytes) }
  | .raised fd flags =>
      { s with
        errors :=
          Function.update s.errors fd
            (s.errors fd ||| flags) }
  | .polled d report => s.poll setup d report
  | .handled error =>
      match s.pc with
      | .handling pfd (task :: tasks) =>
          s.handle pfd task tasks error
      | _ => s
  | .rested tunnels =>
      { s with
        tunnels := tunnels
        pc := .polling
        rounds := s.rounds + 1 }

/- When the step can happen. -/
def Possible
    (setup : EventSetup)
    (s : EventLoop) : EventStep → Prop
  | .connected _ _ | .written _ _ | .raised _ _ => True
  | .polled _ report =>
      s.pc = .polling ∧ s.Reports setup report
  | .handled _ =>
      ∃ pfd task tasks, s.pc = .handling pfd (task :: tasks)
  | .rested tunnels =>
      (∃ pfd, s.pc = .handling pfd []) ∧
        Separate
          (loopTasks setup.threadMsgFd setup.listeners
            tunnels)

/- When the services are open. -/
def Starts
    (s : EventLoop) : Prop :=
  s.pc = .polling ∧
    (∀ pipes ∈ s.tunnels, pipes = .closed) ∧
    (∀ fd, s.accepted fd = []) ∧ s.arrived = s.backlog

end EventLoop

/- All runs. -/
def eventLoop
    (setup : EventSetup) : Transition EventLoop EventStep :=
  (Transition.moving EventLoop.Starts
    (EventLoop.next setup)).only (EventLoop.Possible setup)

------------------------------------------------------------
-- What Holds in All Runs
------------------------------------------------------------

namespace EventLoop

/-
  The main thread never waits in a read() or accept(), and
  never looks outside of the array.  Connections are accepted
  in their order, each once.
-/
structure Serves
    (s : EventLoop) : Prop where
  notBlocked : s.pc ≠ .blocked
  notOutside : s.pc ≠ .outside
  inOrder : ∀ fd, s.accepted fd ++ s.backlog fd = s.arrived fd

/-
  What is still to be looked at is behind what was, and what
  the array says about it is still true.
-/
structure InRound
    (setup : EventSetup)
    (s : EventLoop)
    (pfd : List PollFd)
    (tasks : List LoopTask)
    (report : Int → PollFlags) : Prop where
  array : pfd = polledEntries report (s.fds setup)
  behind : tasks <:+ s.tasks setup
  ready : ∀ task ∈ tasks, 0 ≤ task.fd →
    (report task.fd).has anyInput → s.Ready task

def PcKept
    (setup : EventSetup)
    (s : EventLoop) : Prop :=
  match s.pc with
  | .polling => True
  | .handling pfd tasks =>
      ∃ report, s.InRound setup pfd tasks report
  | .exited _ => True
  | .blocked => False
  | .outside => False

structure Kept
    (setup : EventSetup)
    (s : EventLoop) : Prop where
  inOrder : ∀ fd, s.accepted fd ++ s.backlog fd = s.arrived fd
  separate : Separate (s.tasks setup)
  pc : s.PcKept setup

variable {setup : EventSetup}
variable {s s' : EventLoop}

theorem Kept.serves
    (hKept : s.Kept setup) :
    s.Serves := by
  have hPc := hKept.pc
  unfold PcKept at hPc
  refine ⟨?_, ?_, hKept.inOrder⟩
  · intro hBlocked
    rw [hBlocked] at hPc
    exact hPc
  · intro hOutside
    rw [hOutside] at hPc
    exact hPc

------------------------------------------------------------
-- Steps of Others
------------------------------------------------------------

/- A task stays ready if its own descriptor only gains. -/
theorem Ready.mono
    {task : LoopTask}
    (hReady : s.Ready task)
    (hBacklog : s.backlog task.fd ≠ [] →
      s'.backlog task.fd ≠ [])
    (hUnread : s.unread task.fd ≠ [] →
      s'.unread task.fd ≠ [])
    (hErrors : (s.errors task.fd).has POLLHUP →
      (s'.errors task.fd).has POLLHUP) :
    s'.Ready task := by
  cases task with
  | child output fd => exact hReady.imp hUnread hErrors
  | threadMsg fd => exact hReady.imp hUnread hErrors
  | service listener => exact hBacklog hReady

/- Something arrives, and the main thread does nothing. -/
structure Gains
    (s s' : EventLoop) : Prop where
  pc : s'.pc = s.pc
  tunnels : s'.tunnels = s.tunnels
  backlog : ∀ fd, s.backlog fd ≠ [] → s'.backlog fd ≠ []
  unread : ∀ fd, s.unread fd ≠ [] → s'.unread fd ≠ []
  errors : ∀ fd flags, (s.errors fd).has flags →
    (s'.errors fd).has flags

theorem Gains.pcKept
    (hGains : s.Gains s')
    (hPc : s.PcKept setup) :
    s'.PcKept setup := by
  unfold PcKept at hPc ⊢
  rw [hGains.pc]
  split
  · trivial
  · rename_i pfd tasks hHandling
    rw [hHandling] at hPc
    rcases hPc with ⟨report, hRound⟩
    have hTasks : s'.tasks setup = s.tasks setup := by
      unfold EventLoop.tasks
      rw [hGains.tunnels]
    have hFds : s'.fds setup = s.fds setup := by
      unfold fds
      rw [hGains.tunnels]
    refine ⟨report, hFds ▸ hRound.array,
      hTasks ▸ hRound.behind, ?_⟩
    intro task hTask hOpen hInput
    exact (hRound.ready task hTask hOpen hInput).mono
      (hGains.backlog _) (hGains.unread _)
      (hGains.errors _ _)
  · trivial
  · rename_i hBlocked
    rwa [hBlocked] at hPc
  · rename_i hOutside
    rwa [hOutside] at hPc

/- A list that is appended to at one place. -/
theorem append_update_ne_nil
    {α : Type}
    {lists : Int → List α}
    {fd fd' : Int}
    (hSome : lists fd ≠ [])
    (more : List α) :
    Function.update lists fd' (lists fd' ++ more) fd ≠ [] := by
  by_cases hSame : fd = fd'
  · subst hSame
    rw [Function.update_self]
    exact List.append_ne_nil_of_left_ne_nil hSome more
  · rwa [Function.update_of_ne hSame]

theorem Kept.connected
    (hKept : s.Kept setup)
    (fd : Int)
    (con : Nat) :
    (s.next setup (.connected fd con)).Kept setup := by
  refine ⟨?_, hKept.separate, Gains.pcKept (s := s) ?_
    hKept.pc⟩
  · intro fd'
    dsimp only [next]
    by_cases hSame : fd' = fd
    · subst hSame
      rw [Function.update_self, Function.update_self,
        ← List.append_assoc, hKept.inOrder]
    · rw [Function.update_of_ne hSame,
        Function.update_of_ne hSame]
      exact hKept.inOrder fd'
  · exact ⟨rfl, rfl,
      fun _ hSome => append_update_ne_nil hSome _,
      fun _ => id, fun _ _ => id⟩

theorem Kept.written
    (hKept : s.Kept setup)
    (fd : Int)
    (bytes : List UInt8) :
    (s.next setup (.written fd bytes)).Kept setup := by
  refine ⟨hKept.inOrder, hKept.separate,
    Gains.pcKept (s := s) ?_ hKept.pc⟩
  exact ⟨rfl, rfl, fun _ => id,
    fun _ hSome => append_update_ne_nil hSome _,
    fun _ _ => id⟩

theorem Kept.raised
    (hKept : s.Kept setup)
    (fd : Int)
    (flags : PollFlags) :
    (s.next setup (.raised fd flags)).Kept setup := by
  refine ⟨hKept.inOrder, hKept.separate,
    Gains.pcKept (s := s) ?_ hKept.pc⟩
  refine ⟨rfl, rfl, fun _ => id, fun _ => id, ?_⟩
  intro fd' flags' hHas
  dsimp only [next]
  by_cases hSame : fd' = fd
  · subst hSame
    rw [Function.update_self]
    exact PollFlags.has_or hHas flags
  · rwa [Function.update_of_ne hSame]

------------------------------------------------------------
-- Steps of the Main Thread
------------------------------------------------------------

theorem Kept.polled
    (hKept : s.Kept setup)
    {report : Int → PollFlags}
    (hReports : s.Reports setup report)
    (d : PollDone) :
    (s.poll setup d report).Kept setup := by
  have hSome : s.fds setup ≠ [] := List.cons_ne_nil _ _
  unfold poll
  rw [pollSet_eq hSome]
  by_cases hFits : ((s.fds setup).length : Int) ≤ setup.ulimit
  · rw [if_pos hFits]
    dsimp only
    cases hOutcome : d.outcome with
    | exits returnCode =>
        exact ⟨hKept.inOrder, hKept.separate, trivial⟩
    | handles rc =>
        refine ⟨hKept.inOrder, hKept.separate, ?_⟩
        dsimp only [PcKept]
        by_cases hFailed : rc < 0
        · rw [if_pos hFailed]
          refine ⟨fun _ => 0, ?_, List.suffix_rfl, ?_⟩
          · exact (polledEntries_zero _).symm
          · intro task _ _ hInput
            rw [PollFlags.not_has_zero] at hInput
            contradiction
        · rw [if_neg hFailed]
          exact ⟨report, rfl, List.suffix_rfl,
            hReports.ready⟩
  · rw [if_neg hFits]
    exact ⟨hKept.inOrder, hKept.separate, trivial⟩

section Round

variable {pfd : List PollFd}
variable {task : LoopTask}
variable {tasks : List LoopTask}
variable {report : Int → PollFlags}
variable {error : Option Int}

theorem InRound.demands
    (hRound : s.InRound setup pfd (task :: tasks) report) :
    task.Demands
      (if 0 ≤ task.fd then some (report task.fd) else none)
      (task.demand pfd) := by
  have hTask : task ∈ s.tasks setup :=
    hRound.behind.subset List.mem_cons_self
  rw [hRound.array]
  unfold fds
  rw [LoopTask.demand_eq hTask]
  exact task.demands _

/- What comes later is about other descriptors. -/
theorem InRound.others
    (hRound : s.InRound setup pfd (task :: tasks) report)
    (hSeparate : Separate (s.tasks setup))
    (hOpen : 0 ≤ task.fd) :
    ∀ other ∈ tasks, other.fd ≠ task.fd := by
  intro other hOther
  have hLater : Separate (task :: tasks) :=
    hSeparate.sublist hRound.behind.sublist
  exact (List.rel_of_pairwise_cons hLater hOther hOpen).symm

/- The round goes on, if what comes later stays ready. -/
theorem InRound.next
    (hRound : s.InRound setup pfd (task :: tasks) report)
    (hTunnels : s'.tunnels = s.tunnels)
    (hReady : ∀ other ∈ tasks, s.Ready other →
      s'.Ready other) :
    s'.InRound setup pfd tasks report := by
  refine ⟨?_, ?_, ?_⟩
  · unfold fds
    rw [hTunnels]
    exact hRound.array
  · unfold EventLoop.tasks
    rw [hTunnels]
    exact (List.suffix_cons _ _).trans hRound.behind
  · intro other hOther hOpen hInput
    exact hReady other hOther
      (hRound.ready other (List.mem_cons_of_mem _ hOther)
        hOpen hInput)

/- An entry that was found is the one of the descriptor. -/
theorem of_found
    {fd : Int}
    {flags : PollFlags}
    (hFound :
      (if 0 ≤ fd then some (report fd) else none) =
        some flags) :
    0 ≤ fd ∧ report fd = flags := by
  split at hFound
  · rename_i hOpen
    exact ⟨hOpen, Option.some.inj hFound⟩
  · contradiction

theorem read_kept
    (hKept : s.Kept setup)
    (hRound : s.InRound setup pfd (task :: tasks) report)
    (hOpen : 0 ≤ task.fd)
    (hInput : (report task.fd).has anyInput)
    (hPipe : ∀ listener, task ≠ .service listener)
    (size : Nat)
    (onError : Option Int) :
    (s.read task.fd size onError error
      (.handling pfd tasks)).Kept setup := by
  have hReady : s.Ready task :=
    hRound.ready task List.mem_cons_self hOpen hInput
  have hSome :
      s.unread task.fd ≠ [] ∨
        (s.errors task.fd).has POLLHUP := by
    cases task with
    | child output fd => exact hReady
    | threadMsg fd => exact hReady
    | service listener => exact absurd rfl (hPipe listener)
  unfold read
  cases error with
  | some e =>
      cases onError with
      | some returnCode =>
          exact ⟨hKept.inOrder, hKept.separate, trivial⟩
      | none =>
          refine ⟨hKept.inOrder, hKept.separate, report, ?_⟩
          exact hRound.next rfl fun _ _ => id
  | none =>
      dsimp only
      rw [if_neg (by
        rintro ⟨hEmpty, hNoHup⟩
        exact hSome.elim (absurd hEmpty) hNoHup)]
      refine ⟨hKept.inOrder, hKept.separate, report, ?_⟩
      refine hRound.next rfl ?_
      intro other hOther hReady
      refine hReady.mono id ?_ id
      intro hUnread
      dsimp only
      rwa [Function.update_of_ne
        (hRound.others hKept.separate hOpen other hOther)]

theorem accept_kept
    (hKept : s.Kept setup)
    {listener : Listener}
    (hRound :
      s.InRound setup pfd (.service listener :: tasks)
        report)
    (hOpen : 0 ≤ listener.fd)
    (hInput : (report listener.fd).has anyInput) :
    (s.accept listener.fd error
      (.handling pfd tasks)).Kept setup := by
  have hReady : s.backlog listener.fd ≠ [] :=
    hRound.ready _ List.mem_cons_self hOpen hInput
  unfold accept
  cases error with
  | some e =>
      refine ⟨hKept.inOrder, hKept.separate, report, ?_⟩
      exact hRound.next rfl fun _ _ => id
  | none =>
      cases hBacklog : s.backlog listener.fd with
      | nil => exact absurd hBacklog hReady
      | cons con cons =>
          dsimp only
          refine ⟨?_, hKept.separate, report, ?_⟩
          · intro fd
            dsimp only
            by_cases hSame : fd = listener.fd
            · subst hSame
              rw [Function.update_self, Function.update_self,
                List.append_assoc, List.singleton_append,
                ← hBacklog, hKept.inOrder]
            · rw [Function.update_of_ne hSame,
                Function.update_of_ne hSame]
              exact hKept.inOrder fd
          · refine hRound.next rfl ?_
            intro other hOther hReady
            refine hReady.mono ?_ id id
            intro hSome
            have hNe : other.fd ≠ listener.fd :=
              hRound.others hKept.separate hOpen other hOther
            dsimp only
            rwa [Function.update_of_ne hNe]

theorem Kept.handled
    (hNonneg : ∀ listener ∈ setup.listeners,
      0 ≤ listener.fd)
    (hKept : s.Kept setup)
    (hHandling : s.pc = .handling pfd (task :: tasks)) :
    (s.handle pfd task tasks error).Kept setup := by
  have hPc := hKept.pc
  unfold PcKept at hPc
  rw [hHandling] at hPc
  rcases hPc with ⟨report, hRound⟩
  have hDemands := hRound.demands
  unfold handle
  dsimp only
  generalize hFound :
    (if 0 ≤ task.fd then some (report task.fd) else none) =
      found at hDemands
  cases hDemand : task.demand pfd with
  | nothing =>
      refine ⟨hKept.inOrder, hKept.separate, report, ?_⟩
      exact hRound.next rfl fun _ _ => id
  | exits returnCode =>
      exact ⟨hKept.inOrder, hKept.separate, trivial⟩
  | reads size onError =>
      rw [hDemand] at hDemands
      cases hDemands with
      | reads hInput hPipe hCode =>
          rcases of_found hFound with ⟨hOpen, rfl⟩
          exact read_kept hKept hRound hOpen hInput hPipe
            size onError
  | accepts listener =>
      rw [hDemand] at hDemands
      cases hDemands with
      | accepts hInput hService =>
          subst hService
          rcases of_found hFound with ⟨hOpen, rfl⟩
          exact accept_kept hKept hRound hOpen hInput
  | outside =>
      rw [hDemand] at hDemands
      cases hDemands with
      | @outside listener hService =>
          -- A service always has a descriptor.
          subst hService
          have hTask : .service listener ∈ s.tasks setup :=
            hRound.behind.subset List.mem_cons_self
          have hOpen :=
            hNonneg listener (service_mem_loopTasks.mp hTask)
          exact nomatch (if_pos hOpen).symm.trans hFound

end Round

theorem next_handled
    (setup : EventSetup)
    {pfd : List PollFd}
    {task : LoopTask}
    {tasks : List LoopTask}
    (hHandling : s.pc = .handling pfd (task :: tasks))
    (error : Option Int) :
    s.next setup (.handled error) =
      s.handle pfd task tasks error := by
  unfold next
  rw [hHandling]

theorem Kept.next
    (hNonneg : ∀ listener ∈ setup.listeners,
      0 ≤ listener.fd)
    (hKept : s.Kept setup)
    {i : EventStep}
    (hPossible : s.Possible setup i) :
    (s.next setup i).Kept setup := by
  cases i with
  | connected fd con => exact hKept.connected fd con
  | written fd bytes => exact hKept.written fd bytes
  | raised fd flags => exact hKept.raised fd flags
  | polled d report => exact hKept.polled hPossible.2 d
  | handled error =>
      rcases hPossible with ⟨pfd, task, tasks, hHandling⟩
      rw [next_handled setup hHandling]
      exact hKept.handled hNonneg hHandling
  | rested tunnels =>
      exact ⟨hKept.inOrder, hPossible.2, trivial⟩

end EventLoop

------------------------------------------------------------
-- Descriptors of the Tunnels
------------------------------------------------------------

theorem separate_append
    {first second : List LoopTask} :
    Separate (first ++ second) ↔
      Separate first ∧ Separate second ∧
        ∀ task ∈ first, ∀ other ∈ second,
          0 ≤ task.fd → task.fd ≠ other.fd :=
  List.pairwise_append

/- The loop's own descriptors are different ones. -/
theorem separate_own
    {threadMsgFd : Int}
    {listeners : List Listener}
    (hFds :
      (threadMsgFd :: listeners.map Listener.fd).Nodup) :
    Separate (.threadMsg threadMsgFd ::
      listeners.map .service) := by
  have hDistinct :
      ((LoopTask.threadMsg threadMsgFd ::
        listeners.map .service).map LoopTask.fd).Nodup := by
    rw [List.map_cons, List.map_map]
    exact hFds
  rw [List.Nodup, List.pairwise_map] at hDistinct
  apply hDistinct.imp
  intro task other hNe _
  exact hNe

/- A tunnel without pipes has no descriptors. -/
theorem fd_neg_of_closed
    {task : LoopTask}
    (hTask : task ∈ TunnelPipes.closed.tasks) :
    task.fd < 0 := by
  simp only [TunnelPipes.tasks, List.mem_cons,
    List.not_mem_nil, or_false] at hTask
  rcases hTask with rfl | rfl
  · decide
  · decide

theorem separate_closed
    {threadMsgFd : Int}
    {listeners : List Listener}
    (hFds :
      (threadMsgFd :: listeners.map Listener.fd).Nodup)
    {tunnels : List TunnelPipes}
    (hClosed : ∀ pipes ∈ tunnels, pipes = .closed) :
    Separate (loopTasks threadMsgFd listeners tunnels) := by
  have hNeg : ∀ task ∈ tunnels.flatMap TunnelPipes.tasks,
      ¬ 0 ≤ task.fd := by
    intro task hTask
    rcases List.mem_flatMap.mp hTask with
      ⟨pipes, hPipes, hEnd⟩
    rw [hClosed pipes hPipes] at hEnd
    exact not_le.mpr (fd_neg_of_closed hEnd)
  unfold loopTasks
  rw [separate_append]
  refine ⟨?_, separate_own hFds, ?_⟩
  · apply List.pairwise_of_forall_mem_list
    intro task hTask other _ hOpen
    exact absurd hOpen (hNeg task hTask)
  · intro task hTask other _ hOpen
    exact absurd hOpen (hNeg task hTask)

/- A task of a tunnel is about an end the parent has. -/
theorem fd_mem_toList
    {pipes : TunnelPipes}
    {task : LoopTask}
    (hTask : task ∈ pipes.tasks) :
    task.fd ∈ pipes.toList := by
  simp only [TunnelPipes.tasks, List.mem_cons,
    List.not_mem_nil, or_false] at hTask
  unfold TunnelPipes.toList
  rcases hTask with rfl | rfl
  · exact List.mem_cons_of_mem _ List.mem_cons_self
  · exact List.mem_cons_of_mem _
      (List.mem_cons_of_mem _ List.mem_cons_self)

theorem PipesOwned.owner_of_task
    {s : PipeRun}
    (hOwned : PipesOwned s)
    {id : Nat}
    (hSettled : s.Settled id)
    {task : LoopTask}
    (hTask : task ∈ (s.table id).pipes.tasks)
    (hOpen : 0 ≤ task.fd) :
    s.owner task.fd = some (.tunnel id) := by
  rcases hOwned.fields id hSettled with
    ⟨hClosed, _⟩ | hLists
  · rw [hClosed] at hTask
    have hNeg := fd_neg_of_closed hTask
    omega
  · exact (hLists.owns _).mpr (fd_mem_toList hTask)

theorem PipesOwned.separate_tasks
    {s : PipeRun}
    (hOwned : PipesOwned s)
    {id : Nat}
    (hSettled : s.Settled id) :
    Separate (s.table id).pipes.tasks := by
  apply List.pairwise_pair.mpr
  intro hOpen
  rcases hOwned.fields id hSettled with
    ⟨hClosed, _⟩ | hLists
  · rw [hClosed] at hOpen
    exact absurd hOpen (by decide)
  · have hNodup := hLists.nodup
    simp only [TunnelPipes.toList, List.nodup_cons,
      List.mem_cons, not_or] at hNodup
    exact hNodup.2.1.1

/-
  While no tunnel is being checked, the pipes of the tunnels
  and what somebody else has got are different descriptors.
-/
theorem separate_of_pipesOwned
    {s : PipeRun}
    (hOwned : PipesOwned s)
    {ids : List Nat}
    (hIds : ids.Nodup)
    (hSettled : ∀ id ∈ ids, s.Settled id)
    {threadMsgFd : Int}
    {listeners : List Listener}
    (hFds :
      (threadMsgFd :: listeners.map Listener.fd).Nodup)
    (hOther :
      ∀ fd ∈ threadMsgFd :: listeners.map Listener.fd,
        s.owner fd = some .other) :
    Separate
      (loopTasks threadMsgFd listeners
        (ids.map fun id => (s.table id).pipes)) := by
  unfold loopTasks
  rw [List.flatMap_map, separate_append]
  refine ⟨?_, separate_own hFds, ?_⟩
  · apply List.pairwise_flatMap.mpr
    refine ⟨fun id hId => hOwned.separate_tasks
      (hSettled id hId), ?_⟩
    refine hIds.imp_of_mem ?_
    intro id id' hId hId' hNe task hTask other hOther hOpen hEq
    have hHere := hOwned.owner_of_task (hSettled id hId)
      hTask hOpen
    have hThere := hOwned.owner_of_task (hSettled id' hId')
      hOther (hEq ▸ hOpen)
    rw [← hEq, hHere] at hThere
    cases hThere
    exact hNe rfl
  · intro task hTask other hOwn hOpen hSame
    rcases List.mem_flatMap.mp hTask with ⟨id, hId, hEnd⟩
    have hHere := hOwned.owner_of_task (hSettled id hId)
      hEnd hOpen
    have hFd : other.fd ∈
        threadMsgFd :: listeners.map Listener.fd := by
      have hMapped := List.mem_map_of_mem (f := LoopTask.fd)
        hOwn
      rwa [List.map_cons, List.map_map] at hMapped
    rw [hSame, hOther _ hFd] at hHere
    cases hHere

------------------------------------------------------------
-- All Runs
------------------------------------------------------------

theorem EventLoop.Kept.of_reachable
    {setup : EventSetup}
    (hNonneg : ∀ listener ∈ setup.listeners,
      0 ≤ listener.fd)
    (hFds :
      (setup.threadMsgFd ::
        setup.listeners.map Listener.fd).Nodup)
    {s : EventLoop}
    (hReach : (eventLoop setup).Reachable s) :
    s.Kept setup := by
  refine hReach.invariant ?_ ?_
  · rintro s ⟨hPolling, hClosed, hNone, hArrived⟩
    refine ⟨?_, separate_closed hFds hClosed, ?_⟩
    · intro fd
      rw [hNone, hArrived, List.nil_append]
    · unfold EventLoop.PcKept
      rw [hPolling]
      trivial
  · rintro s i s' _ hKept ⟨hPossible, rfl⟩
    exact hKept.next hNonneg hPossible

/- Two services of one proxy. -/
def openedServices : List (Nat × Service × ListenCalls) :=
  [5, 6].map fun socket =>
    (1, ⟨0, .socks, CBuf.copy
        (Text.ascii ['1', '2', '7', '.', '1']), 1080⟩,
      ⟨socket, 0, 0, fun _ => some 0, 0, 0⟩)

def twoServices : EventSetup where
  ulimit := 256
  threadMsgFd := 3
  listeners := [⟨1, 5⟩, ⟨1, 6⟩]

def newEventLoop : EventLoop where
  backlog := fun _ => []
  unread := fun _ => []
  errors := fun _ => 0
  tunnels := [.closed]
  pc := .polling
  arrived := fun _ => []
  accepted := fun _ => []
  rounds := 0

theorem newEventLoop_starts : newEventLoop.Starts :=
  ⟨rfl, by decide, fun _ => rfl, rfl⟩

/- poll() tells about the connections, and nothing else. -/
def EventLoop.told
    (s : EventLoop)
    (fd : Int) : PollFlags :=
  if s.backlog fd = [] then 0 else POLLRDNORM

theorem reports_told
    {s : EventLoop}
    (hTunnels : s.tunnels = [.closed])
    (hMsg : s.backlog 3 = []) :
    s.Reports twoServices s.told := by
  have hWaits : ∀ fd flags, (s.told fd).has flags →
      s.backlog fd ≠ [] := by
    intro fd flags hHas hNone
    unfold EventLoop.told at hHas
    rw [if_pos hNone, PollFlags.not_has_zero] at hHas
    contradiction
  refine ⟨?_, ?_, ?_⟩
  · intro task hTask hOpen hInput
    have hSome := hWaits _ _ hInput
    unfold EventLoop.tasks at hTask
    rw [hTunnels] at hTask
    cases task with
    | child output fd =>
        have hEnd :
            (output = .stdout ∨ output = .stderr) ∧
              fd = -1 := by
          simpa [loopTasks, TunnelPipes.tasks,
            TunnelPipes.closed, ← or_and_right] using
            hTask
        have hNeg : 0 ≤ fd := hOpen
        omega
    | threadMsg fd =>
        have hFd : fd = 3 := by
          simpa [loopTasks, TunnelPipes.tasks,
            twoServices] using hTask
        subst hFd
        exact absurd hMsg hSome
    | service listener => exact hSome
  · intro fd hError
    have hSome := hWaits _ _ hError
    unfold EventLoop.told at hError
    rw [if_neg hSome] at hError
    exact absurd hError (by decide)
  · intro fd hSome
    unfold EventLoop.told
    rw [if_neg hSome]
    decide

/- Something is left to be looked at. -/
def EventPc.looks : EventPc → Bool
  | .handling _ (_ :: _) => true
  | _ => false

theorem handled_possible
    {setup : EventSetup}
    {s : EventLoop}
    {error : Option Int}
    (hLooks : s.pc.looks) :
    s.Possible setup (.handled error) := by
  unfold EventPc.looks at hLooks
  split at hLooks
  · exact ⟨_, _, _, by assumption⟩
  · contradiction

/- Everything the loop looks at. -/
def looksAtAll : List EventStep :=
  List.replicate 5 (.handled none)

/- A client connects to the first service. -/
def oneWaiting : EventLoop :=
  newEventLoop.next twoServices (.connected 5 7)

theorem oneWaiting_reachable :
    (eventLoop twoServices).Reachable oneWaiting := by
  have hStart : (eventLoop twoServices).Reachable
      newEventLoop := .start newEventLoop_starts
  exact hStart.step (i := .connected 5 7) ⟨trivial, rfl⟩

end SmartSOCKSProxy
