import SmartSOCKSProxy.Core.ClientConnection
import SmartSOCKSProxy.Foundations.Stream
import SmartSOCKSProxy.Foundations.Transition

/-
  The children of a tunnel.

  The main thread looks after the SSH child of every tunnel:
  it collects a child that has exited, and starts one when a
  connection needs the tunnel.

  Key definitions include:
    * `SshRuntime`, `checkSshTunnel`, `sshMarks`
    * `Supervised`, `Supervised.next`, `sshSupervision`
    * `LifeCycle`

  Key theorems include:
    * `checkSshTunnel_of_steps`
    * `Supervised.next_sound`
    * `sshSupervision_lifeCycle`
-/

namespace SmartSOCKSProxy

------------------------------------------------------------
-- Run-Time Information
------------------------------------------------------------

/- The ends of the three pipes to a child. -/
structure TunnelPipes where
  parentStdinFd : Int
  parentStdoutFd : Int
  parentStderrFd : Int
  childStdinFd : Int
  childStdoutFd : Int
  childStderrFd : Int
deriving DecidableEq, Inhabited

/- `ssh_tunnel_close_pipes()` -/
def TunnelPipes.closed : TunnelPipes :=
  ⟨-1, -1, -1, -1, -1, -1⟩

/- The fields of a tunnel that change while it runs. -/
structure SshRuntime where
  mark : Nat
  connectionCount : Nat
  pid : Int
  startTime : Int
  lastUpdateTime : Int
  pipes : TunnelPipes
deriving DecidableEq, Inhabited

/- Both counters keep what malloc() left. -/
def newSshRuntime
    (junkMark junkCount : Nat) : SshRuntime where
  mark := junkMark
  connectionCount := junkCount
  pid := -1
  startTime := 0
  lastUpdateTime := 0
  pipes := .closed

------------------------------------------------------------
-- Marks
------------------------------------------------------------

/-
  The marks and the connections that one connection adds to a
  tunnel: one of each when it uses the tunnel, and a mark for
  every place in its route while it has none.
-/
def conMarks
    (tun : SshTunnel)
    (con : ClientConnection) : Nat × Nat :=
  match con.route, con.tunnel with
  | none, _ => (0, 0)
  | some _, some used =>
      if used.id = tun.id then (1, 1) else (0, 0)
  | some route, none =>
      ((route.deref.tunnels.filter
        (fun listed => listed.id = tun.id)).length, 0)

/- The mark phase of check_ssh_tunnels() for one tunnel. -/
def sshMarks
    (tun : SshTunnel) :
    List ClientConnection → Nat × Nat
  | [] => (0, 0)
  | con :: cons =>
      let here := conMarks tun con
      let rest := sshMarks tun cons
      (here.1 + rest.1, here.2 + rest.2)

/- A connection uses a tunnel, or looks for one like it. -/
def NeedsTunnel
    (tun : SshTunnel)
    (con : ClientConnection) : Prop :=
  ∃ route, con.route = some route ∧
    match con.tunnel with
    | some used => used.id = tun.id
    | none =>
        ∃ listed ∈ route.deref.tunnels, listed.id = tun.id

theorem conMarks_pos_iff
    (tun : SshTunnel)
    (con : ClientConnection) :
    0 < (conMarks tun con).1 ↔ NeedsTunnel tun con := by
  unfold conMarks NeedsTunnel
  cases con.route with
  | none => simp
  | some route =>
      cases con.tunnel with
      | none =>
          simp [List.length_pos_iff_exists_mem]
      | some used =>
          by_cases hSame : used.id = tun.id
          · simp [hSame]
          · simp [hSame]

/- A tunnel is marked when some connection needs it. -/
theorem sshMarks_pos_iff
    (tun : SshTunnel)
    (cons : List ClientConnection) :
    0 < (sshMarks tun cons).1 ↔
      ∃ con ∈ cons, NeedsTunnel tun con := by
  induction cons with
  | nil => simp [sshMarks]
  | cons con cons ih =>
      simp only [sshMarks, List.mem_cons,
        exists_eq_or_imp]
      rw [← ih, ← conMarks_pos_iff]
      omega

------------------------------------------------------------
-- Checking a Tunnel
------------------------------------------------------------

/- The result of waitpid() with WNOHANG. -/
inductive WaitResult where
| running
| exited (exitCode : Int)
| failed (errno : Int)
deriving DecidableEq, Repr

/-
  waitpid(), called again while it is interrupted; nothing as
  long as it was interrupted only.
-/
def waitChild : List WaitResult → Option WaitResult
  | [] => none
  | .running :: _ => some .running
  | .exited exitCode :: _ => some (.exited exitCode)
  | .failed e :: waits =>
      if e = EINTR then waitChild waits
      else some (.failed e)

def sshReportInterval : Int := 10

/-
  Whether the child of a tunnel runs.  An unexpected error
  leaves the pid as it is.
-/
def checkExited
    (ssh : SshRuntime)
    (curTime : Int) : WaitResult → Bool × SshRuntime
  | .running =>
      (true,
        if sshReportInterval ≤
            curTime - ssh.lastUpdateTime then
          { ssh with lastUpdateTime := curTime }
        else ssh)
  | .exited _ =>
      (false, { ssh with pipes := .closed, pid := -1 })
  | .failed _ => (false, ssh)

/- Whether a child is to be started, with its throttling. -/
def startsChild
    (ssh : SshRuntime)
    (isRunning : Bool)
    (now : Int) : Bool :=
  !isRunning && 0 < ssh.mark && 2 ≤ now - ssh.startTime

/- The parent's side of fork(). -/
def forkChild
    (ssh : SshRuntime)
    (pipes : TunnelPipes)
    (fork startTime : Int) : SshRuntime :=
  let ssh := { ssh with pipes := pipes, pid := fork }
  if 0 < ssh.pid then { ssh with startTime := startTime }
  else ssh

/- What the system calls of one check return, in order. -/
structure CheckCalls where
  curTime : Int
  waits : List WaitResult
  now : Int
  pipes : Option TunnelPipes
  fork : Int
  startTime : Int

/-
  `check_ssh_tunnel()`.  It does not return while waitpid()
  is interrupted, or when there are no pipes.
-/
def checkSshTunnel
    (ssh : SshRuntime)
    (calls : CheckCalls) : Option SshRuntime := do
  let (isRunning, ssh) ←
    if 0 < ssh.pid then
      (waitChild calls.waits).map
        (checkExited ssh calls.curTime)
    else some (false, ssh)
  if startsChild ssh isRunning calls.now then
    let pipes ← calls.pipes
    some (forkChild ssh pipes calls.fork calls.startTime)
  else some ssh

------------------------------------------------------------
-- Supervision
------------------------------------------------------------

/- Where the main thread is in the check of a tunnel. -/
inductive CheckPhase where
| idle
| checked (isRunning : Bool)
deriving DecidableEq, Repr

/- A successful fork: the mark and the start time. -/
structure Fork where
  mark : Nat
  startTime : Int
deriving DecidableEq, Repr

/-
  A tunnel among its processes: the children that are alive,
  those that have exited and were not waited for, the last
  clock reading, and all forks, the latest first.
-/
structure Supervised where
  ssh : SshRuntime
  phase : CheckPhase
  alive : List Int
  zombies : List Int
  clock : Int
  forks : List Fork
deriving DecidableEq

/-
  What can happen: a child exits, somebody else collects it,
  or the main thread does the first or the second half of a
  check, with what the system calls return.
-/
inductive SshStep where
| exits (pid : Int)
| collected (pid : Int)
| reap
    (mark connectionCount : Nat)
    (curTime : Int)
    (waits : List WaitResult)
| restart
    (now : Int)
    (pipes : TunnelPipes)
    (fork startTime : Int)
deriving DecidableEq

namespace Supervised

/- What waitpid() may say about a child. -/
def WaitAgrees
    (s : Supervised)
    (pid : Int) : WaitResult → Prop
  | .running => pid ∈ s.alive
  | .exited _ => pid ∈ s.zombies
  | .failed _ => pid ∉ s.alive ∧ pid ∉ s.zombies

instance
    (s : Supervised)
    (pid : Int)
    (result : WaitResult) :
    Decidable (s.WaitAgrees pid result) := by
  cases result <;> unfold WaitAgrees <;> infer_instance

/- A child that was waited for is gone. -/
def waited
    (s : Supervised)
    (pid : Int) : WaitResult → List Int
  | .exited _ => s.zombies.erase pid
  | _ => s.zombies

/- fork() fails, or names a process that did not exist. -/
def ForkAgrees
    (s : Supervised)
    (fork : Int) : Prop :=
  fork = -1 ∨
    0 < fork ∧ fork ∉ s.alive ∧ fork ∉ s.zombies

instance
    (s : Supervised)
    (fork : Int) :
    Decidable (s.ForkAgrees fork) := by
  unfold ForkAgrees
  infer_instance

/- The first half of a check, once waitpid() has an answer. -/
def reaped
    (s : Supervised)
    (ssh : SshRuntime)
    (curTime : Int)
    (result : WaitResult) : Supervised :=
  let (isRunning, ssh') := checkExited ssh curTime result
  { s with
    ssh := ssh'
    phase := .checked isRunning
    zombies := s.waited ssh.pid result
    clock := curTime }

/- The second half of a check that starts a child. -/
def forked
    (s : Supervised)
    (pipes : TunnelPipes)
    (fork startTime : Int) : Supervised :=
  { s with
    ssh := forkChild s.ssh pipes fork startTime
    phase := .idle
    alive := if 0 < fork then fork :: s.alive else s.alive
    clock := startTime
    forks :=
      if 0 < fork then ⟨s.ssh.mark, startTime⟩ :: s.forks
      else s.forks }

/- The next state, when the step can happen. -/
def next
    (s : Supervised) : SshStep → Option Supervised
  | .exits pid =>
      if pid ∈ s.alive then
        some
          { s with
            alive := s.alive.erase pid
            zombies := pid :: s.zombies }
      else none
  | .collected pid =>
      if pid ∈ s.zombies then
        some { s with zombies := s.zombies.erase pid }
      else none
  | .reap mark connectionCount curTime waits =>
      let ssh :=
        { s.ssh with
          mark := mark
          connectionCount := connectionCount }
      if s.phase = .idle ∧ s.clock ≤ curTime then
        if 0 < ssh.pid then
          match waitChild waits with
          | none => none
          | some result =>
              if s.WaitAgrees ssh.pid result then
                some (s.reaped ssh curTime result)
              else none
        else
          some
            { s with
              ssh := ssh
              phase := .checked false
              clock := curTime }
      else none
  | .restart now pipes fork startTime =>
      match s.phase with
      | .idle => none
      | .checked isRunning =>
          if s.clock ≤ now ∧ now ≤ startTime then
            if startsChild s.ssh isRunning now then
              if s.ForkAgrees fork then
                some (s.forked pipes fork startTime)
              else none
            else some { s with phase := .idle, clock := now }
          else none

end Supervised

/- A new tunnel, with no child and any clock. -/
def newSupervised
    (junkMark junkCount : Nat)
    (clock : Int) : Supervised where
  ssh := newSshRuntime junkMark junkCount
  phase := .idle
  alive := []
  zombies := []
  clock := clock
  forks := []

/- All runs of the supervision of a tunnel. -/
def sshSupervision :
    Transition Supervised SshStep where
  start := fun s => ∃ junkMark junkCount clock,
    s = newSupervised junkMark junkCount clock
  step := fun s i s' => s.next i = some s'

/-
  The two halves are check_ssh_tunnel(), whatever happens to
  the children between them.
-/
theorem checkSshTunnel_of_steps
    {s s₁ s₁' s₂ : Supervised}
    {mark connectionCount : Nat}
    {curTime now fork startTime : Int}
    {waits : List WaitResult}
    {pipes : TunnelPipes}
    (hReap :
      s.next (.reap mark connectionCount curTime waits) =
        some s₁)
    (hSsh : s₁'.ssh = s₁.ssh)
    (hPhase : s₁'.phase = s₁.phase)
    (hRestart :
      s₁'.next (.restart now pipes fork startTime) =
        some s₂) :
    checkSshTunnel
        { s.ssh with
          mark := mark
          connectionCount := connectionCount }
        ⟨curTime, waits, now, some pipes, fork, startTime⟩ =
      some s₂.ssh := by
  have hSecond :
      ∀ isRunning, s₁'.phase = .checked isRunning →
        (if startsChild s₁'.ssh isRunning now then
          some (forkChild s₁'.ssh pipes fork startTime)
        else some s₁'.ssh) = some s₂.ssh := by
    intro isRunning hChecked
    simp only [Supervised.next, hChecked] at hRestart
    split at hRestart
    · split at hRestart
      · rw [if_pos ‹_›]
        split at hRestart
        · cases hRestart
          rfl
        · contradiction
      · rw [if_neg ‹_›]
        cases hRestart
        rfl
    · contradiction
  simp only [Supervised.next] at hReap
  split at hReap
  · unfold checkSshTunnel
    by_cases hPid : 0 < s.ssh.pid
    · simp only [hPid, if_true] at hReap ⊢
      cases hWait : waitChild waits with
      | none =>
          rw [hWait] at hReap
          contradiction
      | some result =>
          simp only [hWait] at hReap
          split at hReap
          · cases hReap
            have hRest := hSecond _ hPhase
            rw [hSsh] at hRest
            exact hRest
          · contradiction
    · simp only [hPid, if_false] at hReap ⊢
      cases hReap
      have hRest := hSecond _ hPhase
      rw [hSsh] at hRest
      exact hRest
  · contradiction

------------------------------------------------------------
-- The Invariant
------------------------------------------------------------

namespace Supervised

/- The processes that waitpid() knows. -/
def children
    (s : Supervised) : List Int :=
  s.alive ++ s.zombies

/-
  There is at most one child, which the pid names; between
  the halves of a check that found no running child there is
  none.  Forks were asked for, and they kept their distance.
-/
structure Sound
    (s : Supervised) : Prop where
  children :
    s.children = [] ∨
      s.children = [s.ssh.pid] ∧ 0 < s.ssh.pid
  checked : s.phase = .checked false → s.children = []
  marked : ∀ fork ∈ s.forks, 0 < fork.mark
  last : ∀ fork, s.forks.head? = some fork →
    s.ssh.startTime = fork.startTime
  spaced :
    s.forks.IsChain fun later earlier =>
      earlier.startTime + 2 ≤ later.startTime

theorem sound_new
    (junkMark junkCount : Nat)
    (clock : Int) :
    (newSupervised junkMark junkCount clock).Sound where
  children := Or.inl rfl
  checked := nofun
  marked := nofun
  last := nofun
  spaced := List.IsChain.nil

/- Moving a child between the lists keeps one child one. -/
theorem children_exits
    {alive zombies : List Int}
    {p pid : Int}
    (hAlive : pid ∈ alive)
    (hOne : alive ++ zombies = [p]) :
    alive.erase pid ++ pid :: zombies = [p] := by
  cases alive with
  | nil => contradiction
  | cons first alive =>
      simp only [List.cons_append, List.cons.injEq,
        List.append_eq_nil_iff] at hOne
      rcases hOne with ⟨rfl, rfl, rfl⟩
      rw [List.mem_singleton.mp hAlive]
      simp

/- An only child that is taken away leaves none. -/
theorem children_taken
    {alive zombies : List Int}
    {p pid : Int}
    (hZombie : pid ∈ zombies)
    (hOne : alive ++ zombies = [p]) :
    alive ++ zombies.erase pid = [] := by
  cases alive with
  | nil =>
      rw [List.nil_append] at hOne
      subst hOne
      rw [List.mem_singleton.mp hZombie]
      simp
  | cons first alive =>
      simp only [List.cons_append, List.cons.injEq,
        List.append_eq_nil_iff] at hOne
      rw [hOne.2.2] at hZombie
      contradiction

/- Whoever is waited for may be told about. -/
theorem sound_reaped
    {s : Supervised}
    {ssh : SshRuntime}
    {curTime : Int}
    {result : WaitResult}
    (hSound : s.Sound)
    (hPid : ssh.pid = s.ssh.pid)
    (hStart : ssh.startTime = s.ssh.startTime)
    (hAgrees : s.WaitAgrees ssh.pid result) :
    (s.reaped ssh curTime result).Sound := by
  rcases hSound with
    ⟨hChildren, _, hMarked, hLast, hSpaced⟩
  cases result with
  | running =>
      have hSsh :
          ((checkExited ssh curTime .running).2.pid =
              s.ssh.pid) ∧
            (checkExited ssh curTime .running).2.startTime =
              s.ssh.startTime := by
        unfold checkExited
        dsimp only
        split
        · exact ⟨hPid, hStart⟩
        · exact ⟨hPid, hStart⟩
      refine ⟨?_, nofun, hMarked, ?_, hSpaced⟩
      · rw [← hSsh.1] at hChildren
        exact hChildren
      · intro fork hFork
        exact hSsh.2.trans (hLast fork hFork)
  | exited exitCode =>
      have hNone : s.alive ++ s.zombies.erase ssh.pid = [] := by
        rcases hChildren with hNil | ⟨hOne, _⟩
        · have hZombie : ssh.pid ∈ s.children :=
            List.mem_append_right _ hAgrees
          rw [hNil] at hZombie
          contradiction
        · exact children_taken hAgrees hOne
      refine ⟨Or.inl hNone, fun _ => hNone, hMarked, ?_,
        hSpaced⟩
      intro fork hFork
      exact hStart.trans (hLast fork hFork)
  | failed e =>
      have hNone : s.children = [] := by
        rcases hChildren with hNil | ⟨hOne, _⟩
        · exact hNil
        · have hChild : ssh.pid ∈ s.children := by
            rw [hOne, hPid]
            exact List.mem_singleton_self _
          rcases List.mem_append.mp hChild with
            hAlive | hZombie
          · exact absurd hAlive hAgrees.1
          · exact absurd hZombie hAgrees.2
      refine ⟨Or.inl hNone, fun _ => hNone, hMarked, ?_,
        hSpaced⟩
      intro fork hFork
      exact hStart.trans (hLast fork hFork)

/- A child is forked when there is none, and not too soon. -/
theorem sound_forked
    {s : Supervised}
    {pipes : TunnelPipes}
    {now fork startTime : Int}
    (hSound : s.Sound)
    (hPhase : s.phase = .checked false)
    (hStarts : startsChild s.ssh false now = true)
    (hClock : now ≤ startTime) :
    (s.forked pipes fork startTime).Sound := by
  rcases hSound with ⟨_, hChecked, hMarked, hLast, hSpaced⟩
  have hNone := hChecked hPhase
  simp only [startsChild, Bool.not_false, Bool.true_and,
    Bool.and_eq_true, decide_eq_true_eq] at hStarts
  rcases hStarts with ⟨hMark, hDistance⟩
  unfold forked forkChild
  by_cases hFork : 0 < fork
  · simp only [hFork, if_true]
    refine ⟨?_, nofun, ?_, ?_, ?_⟩
    · right
      refine ⟨?_, hFork⟩
      have hBoth := List.append_eq_nil_iff.mp hNone
      simp [Supervised.children, hBoth.1, hBoth.2]
    · intro f hMem
      rcases List.mem_cons.mp hMem with rfl | hOld
      · exact hMark
      · exact hMarked f hOld
    · rintro f ⟨⟩
      rfl
    · cases hForks : s.forks with
      | nil => exact List.isChain_singleton _
      | cons previous forks =>
          rw [hForks] at hSpaced
          have hTime := hLast previous (by rw [hForks]; rfl)
          apply List.IsChain.cons_cons _ hSpaced
          dsimp only
          omega
  · simp only [hFork, if_false]
    exact ⟨Or.inl hNone, nofun, hMarked, hLast, hSpaced⟩

/- Every step keeps the invariant. -/
theorem next_sound
    {s s' : Supervised}
    {i : SshStep}
    (hSound : s.Sound)
    (hNext : s.next i = some s') :
    s'.Sound := by
  cases i with
  | exits pid =>
      simp only [next] at hNext
      split at hNext
      · cases hNext
        have hAlive : pid ∈ s.children :=
          List.mem_append_left _ ‹_›
        rcases hSound.children with hNil | ⟨hOne, hPos⟩
        · rw [hNil] at hAlive
          contradiction
        · refine ⟨Or.inr ⟨?_, hPos⟩, ?_, hSound.marked,
            hSound.last, hSound.spaced⟩
          · exact children_exits ‹_› hOne
          · intro hPhase
            have hNil := hSound.checked hPhase
            rw [hNil] at hAlive
            contradiction
      · contradiction
  | collected pid =>
      simp only [next] at hNext
      split at hNext
      · cases hNext
        have hZombie : pid ∈ s.children :=
          List.mem_append_right _ ‹_›
        rcases hSound.children with hNil | ⟨hOne, _⟩
        · rw [hNil] at hZombie
          contradiction
        · have hNone := children_taken ‹_› hOne
          exact ⟨Or.inl hNone, fun _ => hNone,
            hSound.marked, hSound.last, hSound.spaced⟩
      · contradiction
  | reap mark connectionCount curTime waits =>
      simp only [next] at hNext
      split at hNext
      · split at hNext
        · split at hNext
          · contradiction
          · split at hNext
            · cases hNext
              exact sound_reaped hSound rfl rfl ‹_›
            · contradiction
        · cases hNext
          have hNone : s.children = [] := by
            rcases hSound.children with hNil | ⟨_, hPos⟩
            · exact hNil
            · exact absurd hPos ‹_›
          exact ⟨Or.inl hNone, fun _ => hNone,
            hSound.marked, hSound.last, hSound.spaced⟩
      · contradiction
  | restart now pipes fork startTime =>
      simp only [next] at hNext
      split at hNext
      · contradiction
      · rename_i isRunning hPhase
        split at hNext
        · rename_i hClock
          split at hNext
          · rename_i hStarts
            split at hNext
            · cases hNext
              cases isRunning with
              | true => simp [startsChild] at hStarts
              | false =>
                  exact sound_forked hSound hPhase hStarts
                    hClock.2
            · contradiction
          · cases hNext
            exact ⟨hSound.children, nofun, hSound.marked,
              hSound.last, hSound.spaced⟩
        · contradiction

end Supervised

------------------------------------------------------------
-- The Life Cycle
------------------------------------------------------------

/-
  At most one child is alive, and the pid names it; every
  fork was made for a marked tunnel; successive forks started
  at least two seconds apart.
-/
structure LifeCycle
    (s : Supervised) : Prop where
  one : s.alive.length ≤ 1
  named : ∀ pid ∈ s.alive, s.ssh.pid = pid
  marked : ∀ fork ∈ s.forks, 0 < fork.mark
  spaced :
    s.forks.IsChain fun later earlier =>
      2 ≤ later.startTime - earlier.startTime

theorem Supervised.Sound.lifeCycle
    {s : Supervised}
    (hSound : s.Sound) :
    LifeCycle s where
  one := by
    have hLength : s.alive.length ≤ s.children.length := by
      simp [Supervised.children]
    rcases hSound.children with hNil | ⟨hOne, _⟩
    · simp [hNil] at hLength
      simp [hLength]
    · simpa [hOne] using hLength
  named := by
    intro pid hAlive
    have hChild : pid ∈ s.children :=
      List.mem_append_left _ hAlive
    rcases hSound.children with hNil | ⟨hOne, _⟩
    · rw [hNil] at hChild
      contradiction
    · rw [hOne] at hChild
      exact (List.mem_singleton.mp hChild).symm
  marked := hSound.marked
  spaced := by
    apply hSound.spaced.imp
    intro later earlier hApart
    omega

/- In every run, at every moment. -/
theorem sshSupervision_lifeCycle
    {s : Supervised}
    (hReach : sshSupervision.Reachable s) :
    LifeCycle s := by
  have hSound : s.Sound := by
    apply hReach.invariant
    · rintro _ ⟨junkMark, junkCount, clock, rfl⟩
      exact Supervised.sound_new junkMark junkCount clock
    · intro s i s' _ hHere hNext
      exact Supervised.next_sound hHere hNext
  exact hSound.lifeCycle

/- A child that exits is replaced when it is needed again. -/
theorem sshSupervision_lifeCycle_replaced :
    LifeCycle
      { ssh := ⟨2, 2, 8, 1013, 0, default⟩
        phase := .idle
        alive := [8]
        zombies := []
        clock := 1013
        forks := [⟨2, 1013⟩, ⟨1, 1000⟩] } := by
  apply sshSupervision_lifeCycle
  let new := newSupervised 0 0 1000
  let checked := (new.next (.reap 1 1 1000 [])).get rfl
  let forked := (checked.next
    (.restart 1000 default 7 1000)).get rfl
  let exited := (forked.next (.exits 7)).get rfl
  let reaped := (exited.next
    (.reap 2 2 1012 [.failed EINTR, .exited 0])).get rfl
  have hNew : sshSupervision.Reachable new :=
    .start ⟨0, 0, 1000, rfl⟩
  have hChecked : sshSupervision.Reachable checked :=
    hNew.step (i := .reap 1 1 1000 []) rfl
  have hForked : sshSupervision.Reachable forked :=
    hChecked.step (i := .restart 1000 default 7 1000) rfl
  have hExited : sshSupervision.Reachable exited :=
    hForked.step (i := .exits 7) rfl
  have hReaped : sshSupervision.Reachable reaped :=
    hExited.step
      (i := .reap 2 2 1012 [.failed EINTR, .exited 0]) rfl
  have hLast :
      reaped.next (.restart 1013 default 8 1013) =
        some
          { ssh := ⟨2, 2, 8, 1013, 0, default⟩
            phase := .idle
            alive := [8]
            zombies := []
            clock := 1013
            forks := [⟨2, 1013⟩, ⟨1, 1000⟩] } := by
    decide +kernel
  exact hReaped.step hLast

end SmartSOCKSProxy
