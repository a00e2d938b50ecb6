import SmartSOCKSProxy.Config.Ports
import SmartSOCKSProxy.Server.SshPolicy

/-
  The descriptors the main loop polls.

  An array of them is filled anew in every round.  Afterwards
  the entry of a descriptor is looked up by its number, once
  for each thing the loop may have to do.

  Key definitions include:
    * `setPfd`, `findPfd`, `pollSet`, `afterPoll`
    * `LoopTask`, `LoopTask.demand`, `LoopTask.demandOf`
    * `openListeners`

  Key theorems include:
    * `pollSet_eq`
    * `foundRevents_polledEntries`
    * `LoopTask.demand_eq`, `LoopTask.demands`
    * `nonneg_of_openListeners`
-/

namespace SmartSOCKSProxy

------------------------------------------------------------
-- Poll Flags
------------------------------------------------------------

/- `short`, with the flags of poll.h. -/
abbrev PollFlags := BitVec 16

def POLLPRI : PollFlags := 0x0002
def POLLERR : PollFlags := 0x0008
def POLLHUP : PollFlags := 0x0010
def POLLNVAL : PollFlags := 0x0020
def POLLRDNORM : PollFlags := 0x0040
def POLLRDBAND : PollFlags := 0x0080

/- `revents & flags` -/
def PollFlags.has
    (revents flags : PollFlags) : Bool :=
  revents &&& flags ≠ 0

/- `POLLERR | POLLHUP | POLLNVAL` -/
def anyError : PollFlags :=
  POLLERR ||| POLLHUP ||| POLLNVAL

/- `POLLPRI | POLLRDBAND | POLLRDNORM` -/
def anyInput : PollFlags :=
  POLLPRI ||| POLLRDBAND ||| POLLRDNORM

/- A flag that is set is one of those that are set. -/
theorem PollFlags.has_of_has
    {revents flag flags : PollFlags}
    (hHas : revents.has flag)
    (hFlag : flags &&& flag = flag) :
    revents.has flags := by
  unfold has at hHas ⊢
  rw [decide_eq_true_eq] at hHas ⊢
  intro hNone
  apply hHas
  rw [← hFlag, ← BitVec.and_assoc, hNone]
  exact BitVec.zero_and

theorem PollFlags.has_or
    {revents flags : PollFlags}
    (hHas : revents.has flags)
    (more : PollFlags) :
    PollFlags.has (revents ||| more) flags := by
  unfold has at hHas ⊢
  rw [decide_eq_true_eq] at hHas ⊢
  rw [BitVec.and_or_distrib_right]
  exact fun hNone => hHas (BitVec.or_eq_zero_iff.mp hNone).1

theorem PollFlags.not_has_zero
    (flags : PollFlags) :
    (0 : PollFlags).has flags = false :=
  decide_eq_false (not_not_intro BitVec.zero_and)

------------------------------------------------------------
-- The Array
------------------------------------------------------------

/- `struct pollfd` -/
structure PollFd where
  fd : Int
  events : PollFlags
  revents : PollFlags
deriving DecidableEq

/-
  `set_pfd()` at the end of what is filled.  The server exits
  when there is no more room.
-/
def setPfd
    (ulimit : Int)
    (pfd : List PollFd)
    (fd : Int) : Except Int (List PollFd) :=
  if ulimit ≤ pfd.length then .error 95
  else .ok (pfd ++ [⟨fd, POLLRDNORM, 0⟩])

/- `find_pfd()` -/
def findPfd
    (pfd : List PollFd)
    (fd : Int) : Option Nat :=
  if fd < 0 then none
  else pfd.findIdx? fun entry => entry.fd = fd

/- The array before the call of poll(). -/
def pollSet
    (ulimit : Int)
    (fds : List Int) : Except Int (List PollFd) :=
  fds.foldlM (setPfd ulimit) []

/-
  What poll() does to the array, with what it tells about the
  descriptors.  It ignores those that are negative.
-/
def afterPoll
    (report : Int → PollFlags)
    (pfd : List PollFd) : List PollFd :=
  pfd.map fun entry =>
    { entry with
      revents :=
        if entry.fd < 0 then 0 else report entry.fd }

/- The entries of descriptors, after the call. -/
def polledEntries
    (report : Int → PollFlags)
    (fds : List Int) : List PollFd :=
  afterPoll report
    (fds.map fun fd => ⟨fd, POLLRDNORM, 0⟩)

theorem polledEntries_eq
    (report : Int → PollFlags)
    (fds : List Int) :
    polledEntries report fds =
      fds.map fun fd =>
        ⟨fd, POLLRDNORM,
          if fd < 0 then 0 else report fd⟩ := by
  unfold polledEntries afterPoll
  rw [List.map_map]
  rfl

/- Nothing is told about any descriptor. -/
theorem polledEntries_zero
    (fds : List Int) :
    polledEntries (fun _ => 0) fds =
      fds.map fun fd => ⟨fd, POLLRDNORM, 0⟩ := by
  rw [polledEntries_eq]
  simp only [ite_self]

theorem setPfd_foldlM
    {ulimit : Int}
    {fds : List Int}
    {pfd : List PollFd}
    (hRoom : fds = [] → (pfd.length : Int) ≤ ulimit) :
    fds.foldlM (setPfd ulimit) pfd =
      if (pfd.length + fds.length : Nat) ≤ ulimit then
        .ok (pfd ++ fds.map fun fd => ⟨fd, POLLRDNORM, 0⟩)
      else .error 95 := by
  induction fds generalizing pfd with
  | nil =>
      rw [if_pos (by simpa using hRoom rfl)]
      simp [pure, Except.pure]
  | cons fd fds ih =>
      rw [List.foldlM_cons]
      by_cases hFull : ulimit ≤ pfd.length
      · rw [setPfd, if_pos hFull, if_neg (by
          rw [List.length_cons]
          omega)]
        rfl
      · rw [setPfd, if_neg hFull]
        refine (ih fun _ => by simp; omega).trans ?_
        have hLength :
            (pfd ++ [PollFd.mk fd POLLRDNORM 0]).length +
                fds.length =
              pfd.length + (fd :: fds).length := by
          simp
          omega
        rw [hLength, List.append_assoc]
        rfl

/- The array holds all descriptors, or the server exits. -/
theorem pollSet_eq
    {fds : List Int}
    (hSome : fds ≠ [])
    (ulimit : Int) :
    pollSet ulimit fds =
      if (fds.length : Int) ≤ ulimit then
        .ok (fds.map fun fd => ⟨fd, POLLRDNORM, 0⟩)
      else .error 95 := by
  refine (setPfd_foldlM fun hNone =>
    absurd hNone hSome).trans ?_
  rw [List.length_nil, Nat.zero_add, List.nil_append]

/- `pfd[find_pfd(.., fd)].revents`, if there is an entry. -/
def foundRevents
    (pfd : List PollFd)
    (fd : Int) : Option PollFlags :=
  (findPfd pfd fd).map fun i =>
    (pfd[i]?.map PollFd.revents).getD 0

/- What is found is what poll() tells about the descriptor. -/
theorem foundRevents_polledEntries
    (report : Int → PollFlags)
    (fds : List Int)
    (fd : Int) :
    foundRevents (polledEntries report fds) fd =
      if 0 ≤ fd ∧ fd ∈ fds then some (report fd)
      else none := by
  rw [polledEntries_eq]
  unfold foundRevents findPfd
  by_cases hNeg : fd < 0
  · rw [if_pos hNeg, if_neg (by omega)]
    rfl
  rw [if_neg hNeg]
  by_cases hMem : fd ∈ fds
  · rw [if_pos ⟨by omega, hMem⟩]
    generalize hPfd : fds.map (fun fd => PollFd.mk fd
      POLLRDNORM (if fd < 0 then 0 else report fd)) = pfd
    cases hFind : pfd.findIdx? fun entry => entry.fd = fd with
    | none =>
        rw [← hPfd, List.findIdx?_eq_none_iff] at hFind
        have hOther := hFind _ (List.mem_map_of_mem hMem)
        simp at hOther
    | some i =>
        rw [List.findIdx?_eq_some_iff_getElem] at hFind
        rcases hFind with ⟨hLt, hSame, _⟩
        have hEntry : pfd[i].fd = fd :=
          of_decide_eq_true hSame
        rw [Option.map_some, List.getElem?_eq_getElem hLt]
        subst hPfd
        simp only [List.getElem_map] at hEntry ⊢
        rw [hEntry, if_neg hNeg]
        rfl
  · rw [if_neg (fun h => hMem h.2)]
    rw [Option.map_eq_none_iff, List.findIdx?_eq_none_iff]
    intro entry hEntry
    rcases List.mem_map.mp hEntry with ⟨fd', hFd', rfl⟩
    rw [decide_eq_false_iff_not]
    rintro rfl
    exact hMem hFd'

------------------------------------------------------------
-- What the Loop Looks at
------------------------------------------------------------

/- A service that listens, and its proxy. -/
structure Listener where
  proxy : Nat
  fd : Int
deriving DecidableEq

inductive ChildOutput where
| stdout
| stderr
deriving DecidableEq

/- The exit codes for an error on the pipe. -/
def ChildOutput.returnCode : ChildOutput → Int
  | .stdout => 93
  | .stderr => 94

/-
  A pipe from a child, the pipe of thread_msg_send(), or the
  socket of a service.
-/
inductive LoopTask where
| child (output : ChildOutput) (fd : Int)
| threadMsg (fd : Int)
| service (listener : Listener)
deriving DecidableEq

def LoopTask.fd : LoopTask → Int
  | .child _ fd => fd
  | .threadMsg fd => fd
  | .service listener => listener.fd

/- The exit codes for errors of the descriptors. -/
def LoopTask.returnCode : LoopTask → Int
  | .child output _ => output.returnCode
  | .threadMsg _ => 90
  | .service _ => 88

def TunnelPipes.tasks
    (pipes : TunnelPipes) : List LoopTask :=
  [.child .stdout pipes.parentStdoutFd,
    .child .stderr pipes.parentStderrFd]

/- In the order in which the loop looks at them. -/
def loopTasks
    (threadMsgFd : Int)
    (listeners : List Listener)
    (tunnels : List TunnelPipes) : List LoopTask :=
  tunnels.flatMap TunnelPipes.tasks ++
    .threadMsg threadMsgFd :: listeners.map .service

/- In the order in which they are put into the array. -/
def polledFds
    (threadMsgFd : Int)
    (listeners : List Listener)
    (tunnels : List TunnelPipes) : List Int :=
  threadMsgFd :: listeners.map Listener.fd ++
    tunnels.flatMap fun pipes =>
      [pipes.parentStdoutFd, pipes.parentStderrFd]

theorem service_mem_loopTasks
    {threadMsgFd : Int}
    {listeners : List Listener}
    {tunnels : List TunnelPipes}
    {listener : Listener} :
    .service listener ∈
        loopTasks threadMsgFd listeners tunnels ↔
      listener ∈ listeners := by
  simp [loopTasks, TunnelPipes.tasks]

theorem fd_mem_polledFds
    {threadMsgFd : Int}
    {listeners : List Listener}
    {tunnels : List TunnelPipes}
    {task : LoopTask}
    (hTask : task ∈ loopTasks threadMsgFd listeners tunnels) :
    task.fd ∈ polledFds threadMsgFd listeners tunnels := by
  unfold polledFds
  rcases List.mem_append.mp hTask with hChild | hOwn
  · rcases List.mem_flatMap.mp hChild with
      ⟨pipes, hPipes, hEnd⟩
    apply List.mem_append_right
    apply List.mem_flatMap.mpr
    refine ⟨pipes, hPipes, ?_⟩
    simp only [TunnelPipes.tasks, List.mem_cons,
      List.not_mem_nil, or_false] at hEnd
    rcases hEnd with rfl | rfl
    · exact List.mem_cons_self
    · exact List.mem_cons_of_mem _ List.mem_cons_self
  · apply List.mem_append_left
    rcases List.mem_cons.mp hOwn with rfl | hService
    · exact List.mem_cons_self
    · rcases List.mem_map.mp hService with
        ⟨listener, hListener, rfl⟩
      exact List.mem_cons_of_mem _
        (List.mem_map_of_mem hListener)

------------------------------------------------------------
-- What It Does
------------------------------------------------------------

/-
  What the loop does about an entry: nothing, exit, read so
  many bytes at most and exit with a code if that fails, or
  accept a connection.  For a service without an entry it
  looks in front of the array.
-/
inductive Demand where
| nothing
| exits (returnCode : Int)
| reads (size : Nat) (onError : Option Int)
| accepts (listener : Listener)
| outside
deriving DecidableEq

/- With the flags of the entry that was found, if any. -/
def LoopTask.demandOf
    (revents : Option PollFlags) : LoopTask → Demand
  | .child output _ =>
      match revents with
      | none => .nothing
      | some revents =>
          if revents.has (POLLERR ||| POLLNVAL) then
            .exits output.returnCode
          else if revents.has POLLRDNORM then
            .reads 1999 (some 91)
          else .nothing
  | .threadMsg _ =>
      match revents with
      | none => .nothing
      | some revents =>
          if revents.has anyError then
            .exits 90
          else if revents.has POLLRDNORM then .reads 999 none
          else .nothing
  | .service listener =>
      match revents with
      | none => .outside
      | some revents =>
          if revents.has anyError then
            .exits 88
          else if revents.has anyInput then
            .accepts listener
          else .nothing

def LoopTask.demand
    (pfd : List PollFd)
    (task : LoopTask) : Demand :=
  task.demandOf (foundRevents pfd task.fd)

/- It looks at the entry of the descriptor it is about. -/
theorem LoopTask.demand_eq
    {threadMsgFd : Int}
    {listeners : List Listener}
    {tunnels : List TunnelPipes}
    {task : LoopTask}
    (hTask : task ∈ loopTasks threadMsgFd listeners tunnels)
    (report : Int → PollFlags) :
    task.demand
        (polledEntries report
          (polledFds threadMsgFd listeners tunnels)) =
      task.demandOf
        (if 0 ≤ task.fd then some (report task.fd)
        else none) := by
  unfold demand
  rw [foundRevents_polledEntries]
  simp only [fd_mem_polledFds hTask, and_true]

/-
  It exits for an error, and otherwise only reads from a pipe
  or accepts where there is something to read.
-/
inductive LoopTask.Demands
    (task : LoopTask) : Option PollFlags → Demand → Prop
| nothing
    {revents : Option PollFlags} :
    Demands task revents .nothing
| exits
    {flags : PollFlags}
    (hError : flags.has anyError) :
    Demands task (some flags) (.exits task.returnCode)
| reads
    {flags : PollFlags}
    {size : Nat}
    {onError : Option Int}
    (hInput : flags.has anyInput)
    (hPipe : ∀ listener, task ≠ .service listener)
    (hCode : ∀ returnCode, onError = some returnCode →
      returnCode = 91) :
    Demands task (some flags) (.reads size onError)
| accepts
    {flags : PollFlags}
    {listener : Listener}
    (hInput : flags.has anyInput)
    (hService : task = .service listener) :
    Demands task (some flags) (.accepts listener)
| outside
    {listener : Listener}
    (hService : task = .service listener) :
    Demands task none .outside

theorem LoopTask.demands
    (task : LoopTask)
    (revents : Option PollFlags) :
    task.Demands revents (task.demandOf revents) := by
  have hOf : ∀ {flags : PollFlags},
      flags.has POLLRDNORM → flags.has anyInput :=
    fun hHas => PollFlags.has_of_has hHas (by decide)
  cases revents with
  | none =>
      cases task with
      | child output fd => exact .nothing
      | threadMsg fd => exact .nothing
      | service listener => exact .outside rfl
  | some flags =>
      cases task with
      | child output fd =>
          simp only [demandOf]
          split
          · rename_i hError
            exact .exits
              (PollFlags.has_of_has hError (by decide))
          split
          · rename_i hInput
            refine .reads (hOf hInput) nofun ?_
            rintro returnCode ⟨⟩
            rfl
          · exact .nothing
      | threadMsg fd =>
          simp only [demandOf]
          split
          · rename_i hError
            exact .exits hError
          split
          · rename_i hInput
            exact .reads (hOf hInput) nofun nofun
          · exact .nothing
      | service listener =>
          simp only [demandOf]
          split
          · rename_i hError
            exact .exits hError
          split
          · rename_i hInput
            exact .accepts hInput rfl
          · exact .nothing

------------------------------------------------------------
-- Opening the Services
------------------------------------------------------------

/-
  The services are opened one after the other, each with what
  the system calls return.
-/
def openListeners :
    List (Nat × Service × ListenCalls) →
      Except ListenEnd (List Listener)
  | [] => .ok []
  | (proxy, srv, calls) :: services =>
      match
        (listenSocket calls srv.bindAddress.text
          srv.port).2 with
      | .listening fd =>
          (openListeners services).map (⟨proxy, fd⟩ :: ·)
      | failed => .error failed

theorem listenSocket_listening
    {calls : ListenCalls}
    {listenInterface : Text}
    {port fd : Int}
    (hListens :
      (listenSocket calls listenInterface port).2 =
        .listening fd) :
    0 ≤ fd := by
  unfold listenSocket at hListens
  split at hListens
  · cases hListens
  rename_i hSocket
  split at hListens
  · cases hListens
  split at hListens
  · cases hListens
  split at hListens
  · cases hListens
  split at hListens
  · cases hListens
  · dsimp only at hListens
    split at hListens
    · cases hListens
    split at hListens
    · cases hListens
    · cases hListens
      exact not_lt.mp hSocket

/- A server that gets to its loop has all of them open. -/
theorem nonneg_of_openListeners
    {services : List (Nat × Service × ListenCalls)}
    {listeners : List Listener}
    (hOpen : openListeners services = .ok listeners) :
    ∀ listener ∈ listeners, 0 ≤ listener.fd := by
  induction services generalizing listeners with
  | nil =>
      cases hOpen
      exact nofun
  | cons service services ih =>
      rcases service with ⟨proxy, srv, calls⟩
      unfold openListeners at hOpen
      split at hOpen
      · rename_i fd hListens
        cases hRest : openListeners services with
        | error failed =>
            rw [hRest] at hOpen
            cases hOpen
        | ok rest =>
            rw [hRest] at hOpen
            cases hOpen
            intro listener hListener
            rcases List.mem_cons.mp hListener with
              rfl | hLater
            · exact listenSocket_listening hListens
            · exact ih hRest listener hLater
      · cases hOpen

end SmartSOCKSProxy
