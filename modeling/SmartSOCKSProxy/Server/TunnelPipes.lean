import SmartSOCKSProxy.Foundations.Ownership
import SmartSOCKSProxy.Foundations.SystemCalls
import SmartSOCKSProxy.Server.SshDemand

/-
  The pipes of the tunnels.

  Six descriptors lead to the child of a tunnel.  They are
  made before it is started, and closed when it has exited or
  is replaced, while other threads get and close descriptors
  of their own.  The loop around close() looks at a variable
  that nothing has set.

  Key definitions include:
    * `PipeRun`, `PipeRun.next`, `tunnelPipes`
    * `PipeRun.holds`, `PipesOwned`
    * `PipeRun.Undisturbed`

  Key theorems include:
    * `PipeRun.next_tracks`, `checkSshTunnel_of_next`
    * `PipeRun.next_sound`
    * `tunnelPipes_owned`
-/

namespace SmartSOCKSProxy

/- `EBADF` -/
def EBADF : Int := 9

------------------------------------------------------------
-- Calls in Progress
------------------------------------------------------------

/- In the order in which they are closed. -/
def TunnelPipes.toList
    (pipes : TunnelPipes) : List Int :=
  [pipes.parentStdinFd, pipes.parentStdoutFd,
    pipes.parentStderrFd, pipes.childStdinFd,
    pipes.childStdoutFd, pipes.childStderrFd]

/- Who has got a descriptor of the process. -/
inductive FdOwner where
| tunnel (id : Nat)
| other
deriving DecidableEq, Repr

/- A call of check_ssh_tunnel(), with what it starts from. -/
structure CheckStart where
  id : Nat
  ssh : SshRuntime
  curTime : Int
  waits : List WaitResult
deriving DecidableEq

/- Who has called ssh_tunnel_close_pipes(). -/
inductive ClosingFor where
| exited
| creating (now : Int)
deriving DecidableEq, Repr

/-
  Where the main thread is: in no check, before the call of
  ssh_tunnel_close_pipe() for the first of these descriptors,
  in its loop, behind waitpid(), in create_tunnel_pipes(), or
  before fork().
-/
inductive PipePc where
| idle
| closing (c : CheckStart) (why : ClosingFor)
    (fds : List Int)
| inLoop (c : CheckStart) (why : ClosingFor)
    (fds : List Int) (fd rc : Int) (repeated : Bool)
| deciding (c : CheckStart) (isRunning : Bool)
| creating (c : CheckStart) (now : Int)
    (made : List (Int × Int))
| forking (c : CheckStart) (now : Int)
deriving DecidableEq

/-
  The fields of the tunnels and the descriptors of the whole
  process.  A descriptor of somebody else that was closed
  with the pipes is recorded.
-/
structure PipeRun where
  table : TunnelTable
  owner : Owners Int FdOwner
  pc : PipePc
  errno : Int
  stolen : List Int

/-
  Another thread gets or closes a descriptor, or the main
  thread goes on with what its system calls return.
-/
inductive PipeStep where
| acquired (fd : Int)
| released (fd : Int)
| checked
    (id mark connectionCount : Nat)
    (curTime : Int)
    (waits : List WaitResult)
    (errno : Int)
| called (rc : Int)
| closed (result : Except Int Unit)
| forgot
| decided (now : Int)
| piped (readEnd writeEnd : Int)
| forked (fork startTime errno : Int)
deriving DecidableEq

------------------------------------------------------------
-- Steps
------------------------------------------------------------

namespace PipeRun

/- The fields of one tunnel change. -/
def setSsh
    (s : PipeRun)
    (id : Nat)
    (ssh : SshRuntime) : PipeRun :=
  { s with table := Function.update s.table id ssh }

/-
  close(): a descriptor that is open is free afterwards, even
  if the call fails.
-/
def close
    (s : PipeRun)
    (fd : Int)
    (result : Except Int Unit) : PipeRun :=
  match s.owner fd with
  | none => { s with errno := EBADF }
  | some (.tunnel _) =>
      { s with
        owner := s.owner.drop fd
        errno := errnoAfter s.errno result }
  | some .other =>
      { s with
        owner := s.owner.drop fd
        errno := errnoAfter s.errno result
        stolen := fd :: s.stolen }

/- `check_ssh_tunnel()` up to the answer of waitpid(). -/
def check
    (s : PipeRun)
    (c : CheckStart) : Option PipeRun :=
  if 0 < c.ssh.pid then
    match waitChild c.waits with
    | none => none
    | some .running =>
        some
          { s.setSsh c.id
              (checkExited c.ssh c.curTime .running).2 with
            pc := .deciding c true }
    | some (.exited _) =>
        some
          { s.setSsh c.id c.ssh with
            pc := .closing c .exited c.ssh.pipes.toList }
    | some (.failed _) =>
        some
          { s.setSsh c.id c.ssh with
            pc := .deciding c false }
  else
    some
      { s.setSsh c.id c.ssh with
        pc := .deciding c false }

/- The last two pipe() calls before this one are known. -/
def pipe
    (s : PipeRun)
    (c : CheckStart)
    (now : Int)
    (readEnd writeEnd : Int) : List (Int × Int) → PipeRun
  | [pipeStdin, pipeStdout] =>
      { s.setSsh c.id
          { s.table c.id with
            pipes :=
              { parentStdinFd := pipeStdin.2
                childStdinFd := pipeStdin.1
                parentStdoutFd := pipeStdout.1
                childStdoutFd := pipeStdout.2
                parentStderrFd := readEnd
                childStderrFd := writeEnd } } with
        pc := .forking c now }
  | made =>
      { s with
        pc := .creating c now
          (made ++ [(readEnd, writeEnd)]) }

/- The next state, when the step can happen. -/
def next
    (s : PipeRun) : PipeStep → Option PipeRun
  | .acquired fd =>
      if 0 ≤ fd ∧ s.owner fd = none then
        some { s with owner := s.owner.take fd .other }
      else none
  | .released fd =>
      if s.owner fd = some .other then
        some { s with owner := s.owner.drop fd }
      else none
  | .checked id mark connectionCount curTime waits errno =>
      if s.pc = .idle then
        let ssh :=
          { s.table id with
            mark := mark
            connectionCount := connectionCount }
        { s with errno := errno }.check
          ⟨id, ssh, curTime, waits⟩
      else none
  | .called rc =>
      match s.pc with
      | .closing c why (fd :: fds) =>
          if fd < 0 then
            some { s with pc := .closing c why fds }
          else
            some
              { s with pc := .inLoop c why fds fd rc false }
      | _ => none
  | .closed result =>
      match s.pc with
      | .inLoop c why fds fd rc _ =>
          let s := s.close fd result
          -- `while (rc<0 && errno==EINTR)`
          if rc < 0 ∧ s.errno = EINTR then
            some { s with pc := .inLoop c why fds fd rc true }
          else some { s with pc := .closing c why fds }
      | _ => none
  | .forgot =>
      match s.pc with
      | .closing c .exited [] =>
          some
            { s.setSsh c.id
                { s.table c.id with
                  pipes := .closed, pid := -1 } with
              pc := .deciding c false }
      | .closing c (.creating now) [] =>
          some
            { s.setSsh c.id
                { s.table c.id with pipes := .closed } with
              pc := .creating c now [] }
      | _ => none
  | .decided now =>
      match s.pc with
      | .deciding c isRunning =>
          if startsChild (s.table c.id) isRunning now then
            some
              { s with
                pc := .closing c (.creating now)
                  (s.table c.id).pipes.toList }
          else some { s with pc := .idle }
      | _ => none
  | .piped readEnd writeEnd =>
      match s.pc with
      | .creating c now made =>
          if 0 ≤ readEnd ∧ 0 ≤ writeEnd ∧
              readEnd ≠ writeEnd ∧
              s.owner readEnd = none ∧
              s.owner writeEnd = none then
            let owner :=
              (s.owner.take readEnd (.tunnel c.id)).take
                writeEnd (.tunnel c.id)
            some
              ({ s with owner := owner }.pipe c now
                readEnd writeEnd made)
          else none
      | _ => none
  | .forked fork startTime errno =>
      match s.pc with
      | .forking c _ =>
          if fork = -1 ∨ 0 < fork then
            some
              { s.setSsh c.id
                  (forkChild (s.table c.id)
                    (s.table c.id).pipes fork startTime) with
                pc := .idle
                errno := errno }
          else none
      | _ => none

end PipeRun

/-
  All runs: at the start no tunnel has a child, and any
  descriptors are in use.
-/
def tunnelPipes : Transition PipeRun PipeStep where
  start := fun s =>
    (∀ id, ∃ junkMark junkCount,
      s.table id = newSshRuntime junkMark junkCount) ∧
    (∀ fd id, s.owner fd ≠ some (.tunnel id)) ∧
    s.pc = .idle ∧ s.stolen = []
  step := fun s i s' => s.next i = some s'

------------------------------------------------------------
-- The Fields of the Tunnel
------------------------------------------------------------

/- Where check_ssh_tunnel() knows whether the child runs. -/
def CheckStart.decides
    (c : CheckStart) : Option (Bool × SshRuntime) :=
  if 0 < c.ssh.pid then
    (waitChild c.waits).map (checkExited c.ssh c.curTime)
  else some (false, c.ssh)

theorem CheckStart.checkSshTunnel_eq
    {c : CheckStart}
    {isRunning : Bool}
    {ssh : SshRuntime}
    (hDecides : c.decides = some (isRunning, ssh))
    (now fork startTime : Int)
    (pipes : TunnelPipes) :
    checkSshTunnel c.ssh
        ⟨c.curTime, c.waits, now, some pipes, fork,
          startTime⟩ =
      if startsChild ssh isRunning now then
        some (forkChild ssh pipes fork startTime)
      else some ssh := by
  unfold checkSshTunnel
  unfold decides at hDecides
  dsimp only
  by_cases hPid : 0 < c.ssh.pid
  · rw [if_pos hPid] at hDecides ⊢
    rw [hDecides]
    rfl
  · rw [if_neg hPid] at hDecides ⊢
    rw [hDecides]
    rfl

/- The child has exited, and its pipes are closed. -/
def CheckStart.ExitTracked
    (c : CheckStart)
    (table : TunnelTable) : Prop :=
  table c.id = c.ssh ∧
    c.decides =
      some (false, { c.ssh with pipes := .closed, pid := -1 })

/- A child is to be started, and its pipes are made. -/
def CheckStart.StartTracked
    (c : CheckStart)
    (table : TunnelTable)
    (now : Int) : Prop :=
  ∃ isRunning ssh,
    c.decides = some (isRunning, ssh) ∧
      startsChild ssh isRunning now = true ∧
      { table c.id with pipes := ssh.pipes } = ssh

/-
  The fields are those that check_ssh_tunnel() has at this
  place, up to pipes that it is about to overwrite.
-/
def PipePc.Tracks
    (table : TunnelTable) : PipePc → Prop
  | .idle => True
  | .closing c .exited _ => c.ExitTracked table
  | .inLoop c .exited _ _ _ _ => c.ExitTracked table
  | .closing c (.creating now) _ => c.StartTracked table now
  | .inLoop c (.creating now) _ _ _ _ =>
      c.StartTracked table now
  | .deciding c isRunning =>
      c.decides = some (isRunning, table c.id)
  | .creating c now _ => c.StartTracked table now
  | .forking c now => c.StartTracked table now

/- The step in which a call returns. -/
theorem CheckStart.StartTracked.forked
    {c : CheckStart}
    {table : TunnelTable}
    {now : Int}
    (hTracked : c.StartTracked table now)
    (fork startTime : Int) :
    checkSshTunnel c.ssh
        ⟨c.curTime, c.waits, now,
          some (table c.id).pipes, fork, startTime⟩ =
      some
        (forkChild (table c.id) (table c.id).pipes fork
          startTime) := by
  rcases hTracked with
    ⟨isRunning, ssh, hDecides, hStarts, hSame⟩
  rw [c.checkSshTunnel_eq hDecides, if_pos hStarts, ← hSame]
  rfl

namespace PipeRun

variable {s s' : PipeRun}

/- The check that the main thread is in. -/
def call
    (s : PipeRun) : Option CheckStart :=
  match s.pc with
  | .idle => none
  | .closing c _ _ => some c
  | .inLoop c _ _ _ _ _ => some c
  | .deciding c _ => some c
  | .creating c _ _ => some c
  | .forking c _ => some c

theorem close_table
    (s : PipeRun)
    (fd : Int)
    (result : Except Int Unit) :
    (s.close fd result).table = s.table := by
  unfold close
  split
  · rfl
  · rfl
  · rfl

theorem setSsh_self
    (s : PipeRun)
    (id : Nat)
    (ssh : SshRuntime) :
    (s.setSsh id ssh).table id = ssh :=
  Function.update_self ..

theorem check_tracks
    {c : CheckStart}
    (hCheck : s.check c = some s') :
    s'.pc.Tracks s'.table := by
  unfold check at hCheck
  split at hCheck
  · rename_i hPid
    split at hCheck
    · contradiction
    · rename_i hWait
      rw [← Option.some.inj hCheck]
      change c.decides = some (true, _)
      rw [CheckStart.decides, if_pos hPid, hWait,
        setSsh_self]
      rfl
    · rename_i hWait
      rw [← Option.some.inj hCheck]
      refine ⟨setSsh_self s c.id c.ssh, ?_⟩
      rw [CheckStart.decides, if_pos hPid, hWait]
      rfl
    · rename_i hWait
      rw [← Option.some.inj hCheck]
      change c.decides = some (false, _)
      rw [CheckStart.decides, if_pos hPid, hWait,
        setSsh_self]
      rfl
  · rename_i hPid
    rw [← Option.some.inj hCheck]
    change c.decides = some (false, _)
    rw [CheckStart.decides, if_neg hPid, setSsh_self]

/- A pipe does not end a check. -/
theorem pipe_busy
    (s : PipeRun)
    (c : CheckStart)
    (now readEnd writeEnd : Int)
    (made : List (Int × Int)) :
    (s.pipe c now readEnd writeEnd made).pc ≠ .idle := by
  unfold pipe
  split
  · simp
  · simp

/- Only the pipes differ between two places of a start. -/
theorem startTracked_setPipes
    {c : CheckStart}
    {now : Int}
    (hTracked : c.StartTracked s.table now)
    (pipes : TunnelPipes) :
    c.StartTracked
      (s.setSsh c.id
        { s.table c.id with pipes := pipes }).table now := by
  rcases hTracked with
    ⟨isRunning, ssh, hDecides, hStarts, hSame⟩
  refine ⟨isRunning, ssh, hDecides, hStarts, ?_⟩
  rw [setSsh_self]
  exact hSame

/- Whatever other threads do in between. -/
theorem next_tracks
    {i : PipeStep}
    (hTracks : s.pc.Tracks s.table)
    (hNext : s.next i = some s') :
    s'.pc.Tracks s'.table := by
  cases i with
  | acquired fd =>
      simp only [next] at hNext
      split at hNext
      · rw [← Option.some.inj hNext]
        exact hTracks
      · contradiction
  | released fd =>
      simp only [next] at hNext
      split at hNext
      · rw [← Option.some.inj hNext]
        exact hTracks
      · contradiction
  | checked id mark connectionCount curTime waits errno =>
      simp only [next] at hNext
      split at hNext
      · exact check_tracks hNext
      · contradiction
  | called rc =>
      simp only [next] at hNext
      split at hNext
      · rename_i c why fd fds hPc
        rw [hPc] at hTracks
        split at hNext
        · rw [← Option.some.inj hNext]
          cases why with
          | exited => exact hTracks
          | creating now => exact hTracks
        · rw [← Option.some.inj hNext]
          cases why with
          | exited => exact hTracks
          | creating now => exact hTracks
      · contradiction
  | closed result =>
      simp only [next] at hNext
      split at hNext
      · rename_i c why fds fd rc repeated hPc
        rw [hPc, ← s.close_table fd result] at hTracks
        split at hNext
        · rw [← Option.some.inj hNext]
          cases why with
          | exited => exact hTracks
          | creating now => exact hTracks
        · rw [← Option.some.inj hNext]
          cases why with
          | exited => exact hTracks
          | creating now => exact hTracks
      · contradiction
  | forgot =>
      simp only [next] at hNext
      split at hNext
      · rename_i c hPc
        rw [hPc] at hTracks
        rcases hTracks with ⟨hTable, hDecides⟩
        rw [← Option.some.inj hNext]
        change c.decides = some (false, _)
        rw [setSsh_self, hTable]
        exact hDecides
      · rename_i c now hPc
        rw [hPc] at hTracks
        rw [← Option.some.inj hNext]
        exact startTracked_setPipes hTracks .closed
      · contradiction
  | decided now =>
      simp only [next] at hNext
      split at hNext
      · rename_i c isRunning hPc
        rw [hPc] at hTracks
        split at hNext
        · rename_i hStarts
          rw [← Option.some.inj hNext]
          exact ⟨isRunning, _, hTracks, hStarts, rfl⟩
        · rw [← Option.some.inj hNext]
          trivial
      · contradiction
  | piped readEnd writeEnd =>
      simp only [next] at hNext
      split at hNext
      · rename_i c now made hPc
        rw [hPc] at hTracks
        split at hNext
        · rw [← Option.some.inj hNext]
          unfold pipe
          split
          · exact startTracked_setPipes hTracks _
          · exact hTracks
        · contradiction
      · contradiction
  | forked fork startTime errno =>
      simp only [next] at hNext
      split at hNext
      · split at hNext
        · rw [← Option.some.inj hNext]
          trivial
        · contradiction
      · contradiction

/-
  When a check is over, the fields of its tunnel are those
  that check_ssh_tunnel() computes.
-/
theorem checkSshTunnel_of_next
    {i : PipeStep}
    {c : CheckStart}
    (hReach : tunnelPipes.Reachable s)
    (hCall : s.call = some c)
    (hNext : s.next i = some s')
    (hIdle : s'.pc = .idle) :
    ∃ now pipes fork startTime,
      checkSshTunnel c.ssh
          ⟨c.curTime, c.waits, now, some pipes, fork,
            startTime⟩ =
        some (s'.table c.id) := by
  have hTracks : s.pc.Tracks s.table := by
    apply hReach.invariant
      (P := fun s => s.pc.Tracks s.table)
    · rintro s ⟨_, _, hStart, _⟩
      rw [hStart]
      trivial
    · intro s i s' _ hTracks hStep
      exact next_tracks hTracks hStep
  cases i with
  | decided now =>
      simp only [next] at hNext
      split at hNext
      · rename_i c' isRunning hPc
        rw [hPc] at hTracks
        rw [call, hPc] at hCall
        cases hCall
        split at hNext
        · rw [← Option.some.inj hNext] at hIdle
          contradiction
        · rename_i hStays
          rw [← Option.some.inj hNext]
          refine ⟨now, default, 0, 0, ?_⟩
          rw [c.checkSshTunnel_eq hTracks, if_neg hStays]
      · contradiction
  | forked fork startTime errno =>
      simp only [next] at hNext
      split at hNext
      · rename_i c' now hPc
        rw [hPc] at hTracks
        rw [call, hPc] at hCall
        cases hCall
        split at hNext
        · rw [← Option.some.inj hNext]
          refine ⟨now, (s.table c.id).pipes, fork, startTime,
            ?_⟩
          rw [hTracks.forked fork startTime]
          exact congrArg some (setSsh_self s c.id _).symm
        · contradiction
      · contradiction
  | piped readEnd writeEnd => grind [next, pipe_busy]
  | acquired fd => grind [next, call]
  | released fd => grind [next, call]
  | checked => grind [next, call]
  | called rc => grind [next, call]
  | closed result => grind [next, call]
  | forgot => grind [next, call]

end PipeRun

------------------------------------------------------------
-- What Is Open
------------------------------------------------------------

/- A field of -1 stands for no descriptor. -/
def openEnds
    (fds : List Int) : List Int :=
  fds.filter (0 ≤ ·)

/-
  The tunnel whose pipes are being closed or made, with what
  is open of them.
-/
def PipePc.inHand : PipePc → Option (Nat × List Int)
  | .closing c _ fds => some (c.id, openEnds fds)
  | .inLoop c _ fds fd _ repeated =>
      some
        (c.id,
          if repeated then openEnds fds
          else fd :: openEnds fds)
  | .creating c _ made =>
      some (c.id, made.flatMap fun ends => [ends.1, ends.2])
  | _ => none

namespace PipeRun

/- The fields of the tunnel say what is open of its pipes. -/
def Settled
    (s : PipeRun)
    (id : Nat) : Prop :=
  ∀ fds, s.pc.inHand ≠ some (id, fds)

/- What is open of the pipes of a tunnel. -/
def holds
    (s : PipeRun)
    (id : Nat) : List Int :=
  match s.pc.inHand with
  | some (busy, fds) =>
      if busy = id then fds
      else openEnds (s.table id).pipes.toList
  | none => openEnds (s.table id).pipes.toList

/- Six descriptors, or none. -/
def Whole
    (pipes : TunnelPipes) : Prop :=
  pipes = .closed ∨ ∀ fd ∈ pipes.toList, 0 ≤ fd

/-
  What is open of each tunnel's pipes was made for it, each
  descriptor is there once, and a child has its pipes.
-/
structure Sound
    (s : PipeRun) : Prop where
  lists : ∀ id, s.owner.Lists (.tunnel id) (s.holds id)
  whole : ∀ id, s.Settled id → Whole (s.table id).pipes
  child : ∀ id, s.Settled id → 0 < (s.table id).pid →
    (s.table id).pipes ≠ .closed
  repeated : ∀ c why fds fd rc,
    s.pc = .inLoop c why fds fd rc true → s.owner fd = none
  made : ∀ c now made, s.pc = .creating c now made →
    ∀ ends ∈ made, 0 ≤ ends.1 ∧ 0 ≤ ends.2
  forking : ∀ c now, s.pc = .forking c now →
    (s.table c.id).pipes ≠ .closed
  spared : s.stolen = []

variable {s s' : PipeRun}
variable {id : Nat}

theorem holds_of_none
    (hNone : s.pc.inHand = none) :
    s.holds id = openEnds (s.table id).pipes.toList := by
  simp [holds, hNone]

theorem holds_of_some
    {busy : Nat}
    {fds : List Int}
    (hSome : s.pc.inHand = some (busy, fds)) :
    s.holds id =
      if busy = id then fds
      else openEnds (s.table id).pipes.toList := by
  simp [holds, hSome]

theorem settled_of_none
    (hNone : s.pc.inHand = none) :
    s.Settled id := by
  intro fds hSome
  rw [hNone] at hSome
  contradiction

theorem settled_iff_of_some
    {busy : Nat}
    {fds : List Int}
    (hSome : s.pc.inHand = some (busy, fds)) :
    s.Settled id ↔ busy ≠ id := by
  unfold Settled
  rw [hSome]
  simp

@[simp] theorem openEnds_closed :
    openEnds TunnelPipes.closed.toList = [] := rfl

theorem openEnds_of_nonneg
    {fds : List Int}
    (hNonneg : ∀ fd ∈ fds, 0 ≤ fd) :
    openEnds fds = fds :=
  List.filter_eq_self.mpr fun fd hMem => by
    simpa using hNonneg fd hMem

theorem setSsh_table
    (s : PipeRun)
    (id : Nat)
    (ssh : SshRuntime)
    (id' : Nat) :
    (s.setSsh id ssh).table id' =
      if id' = id then ssh else s.table id' := by
  simp [setSsh, Function.update_apply]

------------------------------------------------------------
-- Other Threads
------------------------------------------------------------

/-
  No other thread gets a descriptor that is about to be
  closed for the second time.
-/
def Undisturbed
    (s : PipeRun)
    (i : PipeStep) : Prop :=
  match s.pc with
  | .inLoop _ _ _ fd _ true => i ≠ .acquired fd
  | _ => True

instance
    (s : PipeRun)
    (i : PipeStep) :
    Decidable (Undisturbed s i) := by
  unfold Undisturbed
  split
  · infer_instance
  · infer_instance

/- The table of owners changes for somebody else. -/
theorem Sound.others
    (hSound : s.Sound)
    {owner : Owners Int FdOwner}
    (hLists : ∀ id,
      s.owner.Lists (.tunnel id) (s.holds id) →
        owner.Lists (.tunnel id) (s.holds id))
    (hRepeated : ∀ c why fds fd rc,
      s.pc = .inLoop c why fds fd rc true →
        owner fd = none) :
    Sound { s with owner := owner } where
  lists := fun id => hLists id (hSound.lists id)
  whole := hSound.whole
  child := hSound.child
  repeated := hRepeated
  made := hSound.made
  forking := hSound.forking
  spared := hSound.spared

theorem Sound.acquired
    (hSound : s.Sound)
    {fd : Int}
    (hAllowed : Undisturbed s (.acquired fd))
    (hFree : s.owner fd = none) :
    Sound { s with owner := s.owner.take fd .other } := by
  apply hSound.others
  · intro id hLists
    exact hLists.take_other hFree (by simp)
  · intro c why fds fd' rc hPc
    have hNe : fd' ≠ fd := by
      rintro rfl
      simp [Undisturbed, hPc] at hAllowed
    rw [Owners.take_of_ne hNe]
    exact hSound.repeated c why fds fd' rc hPc

theorem Sound.released
    (hSound : s.Sound)
    {fd : Int}
    (hOther : s.owner fd = some .other) :
    Sound { s with owner := s.owner.drop fd } := by
  apply hSound.others
  · intro id hLists
    exact hLists.drop_other hOther (by simp)
  · intro c why fds fd' rc hPc
    by_cases hSame : fd' = fd
    · rw [hSame, Owners.drop_self]
    · rw [Owners.drop_of_ne hSame]
      exact hSound.repeated c why fds fd' rc hPc

------------------------------------------------------------
-- The Main Thread
------------------------------------------------------------

/-
  The main thread has no pipes in hand, and a step leaves all
  pipes and children as they are.
-/
theorem Sound.at_rest
    (hSound : s.Sound)
    (hNone : s.pc.inHand = none)
    (hNone' : s'.pc.inHand = none)
    (hOwner : s'.owner = s.owner)
    (hStolen : s'.stolen = s.stolen)
    (hPipes : ∀ id,
      (s'.table id).pipes = (s.table id).pipes)
    (hPid : ∀ id, 0 < (s'.table id).pid →
      (s'.table id).pipes ≠ .closed)
    (hForking : ∀ c now, s'.pc ≠ .forking c now) :
    s'.Sound where
  lists := by
    intro id
    rw [hOwner, holds_of_none hNone', hPipes,
      ← holds_of_none hNone]
    exact hSound.lists id
  whole := by
    intro id _
    rw [hPipes]
    exact hSound.whole id (settled_of_none hNone)
  child := fun id _ => hPid id
  repeated := by
    intro c why fds fd rc hPc
    rw [hPc] at hNone'
    contradiction
  made := by
    intro c now made hPc
    rw [hPc] at hNone'
    contradiction
  forking := fun c now hPc => absurd hPc (hForking c now)
  spared := hStolen.trans hSound.spared

/- The pipes in hand stay what they are. -/
theorem Sound.in_hand
    (hSound : s.Sound)
    {busy : Nat}
    {fds : List Int}
    (hHand : s.pc.inHand = some (busy, fds))
    (hHand' : s'.pc.inHand = some (busy, fds))
    (hOwner : s'.owner = s.owner)
    (hStolen : s'.stolen = s.stolen)
    (hTable : ∀ id, busy ≠ id → s'.table id = s.table id)
    (hRepeated : ∀ c why fds fd rc,
      s'.pc ≠ .inLoop c why fds fd rc true)
    (hMade : ∀ c now made, s'.pc = .creating c now made →
      made = []) :
    s'.Sound where
  lists := by
    intro id
    have hLists := hSound.lists id
    rw [holds_of_some hHand] at hLists
    rw [hOwner, holds_of_some hHand']
    by_cases hBusy : busy = id
    · rw [if_pos hBusy] at hLists ⊢
      exact hLists
    · rw [if_neg hBusy] at hLists ⊢
      rw [hTable id hBusy]
      exact hLists
  whole := by
    intro id hSettled
    have hOther := (settled_iff_of_some hHand').mp hSettled
    rw [hTable id hOther]
    exact hSound.whole id
      ((settled_iff_of_some hHand).mpr hOther)
  child := by
    intro id hSettled
    have hOther := (settled_iff_of_some hHand').mp hSettled
    rw [hTable id hOther]
    exact hSound.child id
      ((settled_iff_of_some hHand).mpr hOther)
  repeated := fun c why fds fd rc hPc =>
    absurd hPc (hRepeated c why fds fd rc)
  made := by
    intro c now made hPc ends hMem
    rw [hMade c now made hPc] at hMem
    contradiction
  forking := by
    intro c now hPc
    rw [hPc] at hHand'
    contradiction
  spared := hStolen.trans hSound.spared

/- The fields are handed to ssh_tunnel_close_pipes(). -/
theorem Sound.closing
    (hSound : s.Sound)
    (hNone : s.pc.inHand = none)
    {c : CheckStart}
    {why : ClosingFor}
    (hPc : s'.pc =
      .closing c why (s.table c.id).pipes.toList)
    (hOwner : s'.owner = s.owner)
    (hStolen : s'.stolen = s.stolen)
    (hTable : ∀ id, c.id ≠ id → s'.table id = s.table id) :
    s'.Sound := by
  have hHand : s'.pc.inHand =
      some (c.id, openEnds (s.table c.id).pipes.toList) := by
    rw [hPc]
    rfl
  refine ⟨fun id => ?_, fun id hSettled => ?_,
    fun id hSettled => ?_, ?_, ?_, ?_,
    hStolen.trans hSound.spared⟩
  · have hLists := hSound.lists id
    rw [holds_of_none hNone] at hLists
    rw [hOwner, holds_of_some hHand]
    by_cases hBusy : c.id = id
    · rw [if_pos hBusy, hBusy]
      exact hLists
    · rw [if_neg hBusy, hTable id hBusy]
      exact hLists
  · rw [hTable id ((settled_iff_of_some hHand).mp hSettled)]
    exact hSound.whole id (settled_of_none hNone)
  · rw [hTable id ((settled_iff_of_some hHand).mp hSettled)]
    exact hSound.child id (settled_of_none hNone)
  · intro c why fds fd rc hOther
    rw [hPc] at hOther
    contradiction
  · intro c now made hOther
    rw [hPc] at hOther
    contradiction
  · intro c now hOther
    rw [hPc] at hOther
    contradiction

theorem Sound.checked
    (hSound : s.Sound)
    (hIdle : s.pc = .idle)
    {c : CheckStart}
    (hPipes : c.ssh.pipes = (s.table c.id).pipes)
    (hPid : c.ssh.pid = (s.table c.id).pid)
    (hCheck : s.check c = some s') :
    s'.Sound := by
  have hNone : s.pc.inHand = none := by rw [hIdle]; rfl
  -- The fields that a check writes before it decides.
  have hKeeps : ∀ ssh : SshRuntime,
      ssh.pipes = c.ssh.pipes → ssh.pid = c.ssh.pid →
      ∀ isRunning,
        Sound
          { s.setSsh c.id ssh with
            pc := .deciding c isRunning } := by
    intro ssh hSamePipes hSamePid isRunning
    have hSame : ∀ id,
        ((s.setSsh c.id ssh).table id).pipes =
            (s.table id).pipes ∧
          ((s.setSsh c.id ssh).table id).pid =
            (s.table id).pid := by
      intro id
      rw [setSsh_table]
      by_cases hId : id = c.id
      · rw [if_pos hId, hId, hSamePipes, hSamePid, hPipes,
          hPid]
        exact ⟨rfl, rfl⟩
      · rw [if_neg hId]
        exact ⟨rfl, rfl⟩
    refine hSound.at_rest hNone rfl rfl rfl
      (fun id => (hSame id).1) (fun id hPos => ?_) (by simp)
    change ((s.setSsh c.id ssh).table id).pipes ≠ _
    rw [(hSame id).1]
    apply hSound.child id (settled_of_none hNone)
    rw [← (hSame id).2]
    exact hPos
  unfold check at hCheck
  split at hCheck
  · split at hCheck
    · contradiction
    · rw [← Option.some.inj hCheck]
      refine hKeeps _ ?_ ?_ true
      · unfold checkExited
        dsimp only
        split
        · rfl
        · rfl
      · unfold checkExited
        dsimp only
        split
        · rfl
        · rfl
    · rw [← Option.some.inj hCheck]
      refine hSound.closing hNone (c := c) (by rw [hPipes])
        rfl rfl ?_
      intro id hOther
      exact (setSsh_table s c.id c.ssh id).trans
        (if_neg (Ne.symm hOther))
    · rw [← Option.some.inj hCheck]
      exact hKeeps _ rfl rfl false
  · rw [← Option.some.inj hCheck]
    exact hKeeps _ rfl rfl false

theorem Sound.called
    (hSound : s.Sound)
    {rc : Int}
    (hNext : s.next (.called rc) = some s') :
    s'.Sound := by
  simp only [next] at hNext
  split at hNext
  · rename_i c why fd fds hPc
    split at hNext
    · rename_i hNegative
      rw [← Option.some.inj hNext]
      refine hSound.in_hand (by rw [hPc]; rfl) ?_ rfl rfl
        (fun _ _ => rfl) (by simp) (by simp)
      simp [PipePc.inHand, openEnds, hNegative]
    · rename_i hNonneg
      rw [← Option.some.inj hNext]
      refine hSound.in_hand (by rw [hPc]; rfl) ?_ rfl rfl
        (fun _ _ => rfl) (by simp) (by simp)
      simp only [PipePc.inHand, openEnds]
      rw [List.filter_cons_of_pos (by simpa using hNonneg)]
      rfl
  · contradiction

/- close() of a descriptor that is in hand. -/
theorem Sound.closedFirst
    (hSound : s.Sound)
    {c : CheckStart}
    {why why' : ClosingFor}
    {fds : List Int}
    {fd rc : Int}
    (hPc : s.pc = .inLoop c why fds fd rc false)
    (result : Except Int Unit)
    {pc : PipePc}
    (hPc' : pc = .inLoop c why' fds fd rc true ∨
      pc = .closing c why' fds) :
    Sound { s.close fd result with pc := pc } := by
  have hHand :
      s.pc.inHand = some (c.id, fd :: openEnds fds) := by
    rw [hPc]
    rfl
  have hHand' : pc.inHand = some (c.id, openEnds fds) := by
    rcases hPc' with hPc' | hPc'
    · rw [hPc']
      rfl
    · rw [hPc']
      rfl
  have hHere := hSound.lists c.id
  rw [holds_of_some hHand, if_pos rfl] at hHere
  have hOwned := hHere.owned List.mem_cons_self
  have hClose : s.close fd result =
      { s with
        owner := s.owner.drop fd
        errno := errnoAfter s.errno result } := by
    simp [close, hOwned]
  rw [hClose]
  refine ⟨fun id => ?_, fun id hSettled => ?_,
    fun id hSettled => ?_, ?_, ?_, ?_, hSound.spared⟩
  · have hLists := hSound.lists id
    rw [holds_of_some hHand] at hLists
    rw [holds_of_some hHand']
    by_cases hBusy : c.id = id
    · rw [if_pos hBusy] at hLists ⊢
      exact hLists.drop
    · rw [if_neg hBusy] at hLists ⊢
      exact hLists.drop_other hOwned (by simpa using hBusy)
  · exact hSound.whole id
      ((settled_iff_of_some hHand).mpr
        ((settled_iff_of_some hHand').mp hSettled))
  · exact hSound.child id
      ((settled_iff_of_some hHand).mpr
        ((settled_iff_of_some hHand').mp hSettled))
  · intro c' why'' fds' fd' rc' hAgain
    have hSame : fd' = fd := by
      rcases hPc' with hPc' | hPc'
      · rw [hPc'] at hAgain
        exact (PipePc.inLoop.inj hAgain).2.2.2.1.symm
      · rw [hPc'] at hAgain
        contradiction
    change s.owner.drop fd fd' = none
    rw [hSame, Owners.drop_self]
  · intro c' now made hCreating
    change pc = _ at hCreating
    rw [hCreating] at hPc'
    simp at hPc'
  · intro c' now hForking
    change pc = _ at hForking
    rw [hForking] at hPc'
    simp at hPc'

theorem Sound.closed
    (hSound : s.Sound)
    {result : Except Int Unit}
    (hNext : s.next (.closed result) = some s') :
    s'.Sound := by
  simp only [next] at hNext
  split at hNext
  · rename_i c why fds fd rc repeated hPc
    cases repeated with
    | false =>
        split at hNext
        · rw [← Option.some.inj hNext]
          exact hSound.closedFirst hPc result (Or.inl rfl)
        · rw [← Option.some.inj hNext]
          exact hSound.closedFirst hPc result (Or.inr rfl)
    | true =>
        -- Nobody has got the descriptor in the meantime.
        have hClose : s.close fd result =
            { s with errno := EBADF } := by
          simp [close, hSound.repeated c why fds fd rc hPc]
        rw [hClose, if_neg (by simp [EBADF, EINTR])] at hNext
        rw [← Option.some.inj hNext]
        exact hSound.in_hand (by rw [hPc]; rfl) rfl rfl rfl
          (fun _ _ => rfl) (by simp) (by simp)
  · contradiction

theorem Sound.forgot
    (hSound : s.Sound)
    (hNext : s.next .forgot = some s') :
    s'.Sound := by
  simp only [next] at hNext
  split at hNext
  · rename_i c hPc
    have hHand : s.pc.inHand = some (c.id, []) := by
      rw [hPc]
      rfl
    rw [← Option.some.inj hNext]
    refine ⟨fun id => ?_, fun id _ => ?_, fun id _ => ?_,
      by simp, by simp, by simp, hSound.spared⟩
    · have hLists := hSound.lists id
      rw [holds_of_some hHand] at hLists
      rw [holds_of_none rfl]
      change s.owner.Lists _ (openEnds
        ((s.setSsh c.id _).table id).pipes.toList)
      rw [setSsh_table]
      by_cases hId : id = c.id
      · rw [if_pos hId.symm] at hLists
        rw [if_pos hId]
        exact hLists
      · rw [if_neg (Ne.symm hId)] at hLists
        rw [if_neg hId]
        exact hLists
    · change Whole ((s.setSsh c.id _).table id).pipes
      rw [setSsh_table]
      by_cases hId : id = c.id
      · rw [if_pos hId]
        exact Or.inl rfl
      · rw [if_neg hId]
        exact hSound.whole id
          ((settled_iff_of_some hHand).mpr (Ne.symm hId))
    · change 0 < ((s.setSsh c.id _).table id).pid →
        ((s.setSsh c.id _).table id).pipes ≠ .closed
      rw [setSsh_table]
      by_cases hId : id = c.id
      · rw [if_pos hId]
        intro hPos
        exact absurd hPos (show ¬ (0 : Int) < -1 by decide)
      · rw [if_neg hId]
        exact hSound.child id
          ((settled_iff_of_some hHand).mpr (Ne.symm hId))
  · rename_i c now hPc
    rw [← Option.some.inj hNext]
    have hHand : s.pc.inHand = some (c.id, []) := by
      rw [hPc]
      rfl
    refine hSound.in_hand hHand rfl rfl rfl ?_ (by simp) ?_
    · intro id hOther
      exact (setSsh_table s c.id _ id).trans
        (if_neg (Ne.symm hOther))
    · intro c' now' made hCreating
      exact (PipePc.creating.inj hCreating).2.2.symm
  · contradiction

theorem Sound.decided
    (hSound : s.Sound)
    {now : Int}
    (hNext : s.next (.decided now) = some s') :
    s'.Sound := by
  simp only [next] at hNext
  split at hNext
  · rename_i c isRunning hPc
    have hNone : s.pc.inHand = none := by
      rw [hPc]
      rfl
    split at hNext
    · rw [← Option.some.inj hNext]
      exact hSound.closing hNone rfl rfl rfl
        (fun _ _ => rfl)
    · rw [← Option.some.inj hNext]
      exact hSound.at_rest hNone rfl rfl rfl
        (fun _ => rfl)
        (fun id => hSound.child id (settled_of_none hNone))
        (by simp)
  · contradiction

/- Both ends of a new pipe are the tunnel's. -/
theorem Sound.pipe_lists
    (hSound : s.Sound)
    {c : CheckStart}
    {now readEnd writeEnd : Int}
    {made : List (Int × Int)}
    (hPc : s.pc = .creating c now made)
    (hDistinct : readEnd ≠ writeEnd)
    (hRead : s.owner readEnd = none)
    (hWrite : s.owner writeEnd = none)
    (id : Nat) :
    ((s.owner.take readEnd (.tunnel c.id)).take writeEnd
        (.tunnel c.id)).Lists (.tunnel id)
      (if c.id = id then
        writeEnd :: readEnd ::
          made.flatMap fun ends => [ends.1, ends.2]
      else openEnds (s.table id).pipes.toList) := by
  have hWrite' :
      s.owner.take readEnd (.tunnel c.id) writeEnd =
        none := by
    rw [Owners.take_of_ne hDistinct.symm]
    exact hWrite
  have hLists := hSound.lists id
  have hHand : s.pc.inHand =
      some (c.id, made.flatMap fun ends =>
        [ends.1, ends.2]) := by
    rw [hPc]
    rfl
  rw [holds_of_some hHand] at hLists
  by_cases hBusy : c.id = id
  · rw [if_pos hBusy] at hLists ⊢
    rw [hBusy] at hWrite' ⊢
    exact (hLists.take hRead).take hWrite'
  · rw [if_neg hBusy] at hLists ⊢
    have hOther : FdOwner.tunnel c.id ≠ .tunnel id := by
      simpa using hBusy
    exact (hLists.take_other hRead hOther).take_other hWrite'
      hOther

/- All fields are set when the third pipe is there. -/
theorem Sound.pipedLast
    (hSound : s.Sound)
    {c : CheckStart}
    {now readEnd writeEnd : Int}
    {pipeStdin pipeStdout : Int × Int}
    {owner : Owners Int FdOwner}
    (hPc : s.pc =
      .creating c now [pipeStdin, pipeStdout])
    (hReadPos : 0 ≤ readEnd)
    (hWritePos : 0 ≤ writeEnd)
    (hLists : ∀ id, owner.Lists (.tunnel id)
      (if c.id = id then
        writeEnd :: readEnd ::
          [pipeStdin, pipeStdout].flatMap fun ends =>
            [ends.1, ends.2]
      else openEnds (s.table id).pipes.toList)) :
    Sound
      ({ s with owner := owner }.pipe c now readEnd writeEnd
        [pipeStdin, pipeStdout]) := by
  have hHand : s.pc.inHand = some (c.id,
      [pipeStdin, pipeStdout].flatMap fun ends =>
        [ends.1, ends.2]) := by
    rw [hPc]
    rfl
  have hMade := hSound.made c now _ hPc
  have hStdin := hMade pipeStdin (by simp)
  have hStdout := hMade pipeStdout (by simp)
  generalize hNew :
    ({ s with owner := owner }.pipe c now readEnd writeEnd
      [pipeStdin, pipeStdout]) = new
  have hNone : new.pc.inHand = none := by
    rw [← hNew]
    rfl
  have hTable : ∀ id, c.id ≠ id →
      new.table id = s.table id := by
    intro id hOther
    rw [← hNew]
    exact (setSsh_table s c.id _ id).trans
      (if_neg (Ne.symm hOther))
  have hFields : (new.table c.id).pipes.toList =
      [pipeStdin.2, pipeStdout.1, readEnd, pipeStdin.1,
        pipeStdout.2, writeEnd] := by
    rw [← hNew]
    change ((s.setSsh c.id _).table c.id).pipes.toList = _
    rw [setSsh_table, if_pos rfl]
    rfl
  have hNonneg :
      ∀ fd ∈ (new.table c.id).pipes.toList, 0 ≤ fd := by
    intro fd hMem
    rw [hFields] at hMem
    simp only [List.mem_cons, List.not_mem_nil,
      or_false] at hMem
    omega
  have hOpen : (new.table c.id).pipes ≠ .closed := by
    intro hClosed
    have hFd := hNonneg (-1) (by rw [hClosed]; decide)
    omega
  refine ⟨fun id => ?_, fun id _ => ?_, fun id hSettled => ?_,
    ?_, ?_, ?_, ?_⟩
  · rw [holds_of_none hNone]
    have hOwner : new.owner = owner := by
      rw [← hNew]
      rfl
    rw [hOwner]
    by_cases hBusy : c.id = id
    · have hHere := hLists id
      rw [if_pos hBusy] at hHere
      rw [← hBusy, openEnds_of_nonneg hNonneg, hFields,
        hBusy]
      apply hHere.perm
      simp only [List.flatMap_cons, List.flatMap_nil,
        List.append_nil, List.cons_append, List.nil_append]
      rw [List.perm_iff_count]
      intro fd
      simp only [List.count_cons, List.count_nil]
      omega
    · rw [hTable id hBusy]
      have hHere := hLists id
      rw [if_neg hBusy] at hHere
      exact hHere
  · by_cases hBusy : c.id = id
    · rw [← hBusy]
      exact Or.inr hNonneg
    · rw [hTable id hBusy]
      exact hSound.whole id
        ((settled_iff_of_some hHand).mpr hBusy)
  · by_cases hBusy : c.id = id
    · rw [← hBusy]
      exact fun _ => hOpen
    · rw [hTable id hBusy]
      exact hSound.child id
        ((settled_iff_of_some hHand).mpr hBusy)
  · intro c' why fds fd rc hPc'
    rw [hPc'] at hNone
    contradiction
  · intro c' now' made hPc'
    rw [hPc'] at hNone
    contradiction
  · intro c' now' hPc'
    rw [← hNew] at hPc'
    have hSame := (PipePc.forking.inj hPc').1
    rw [← hSame]
    exact hOpen
  · rw [← hNew]
    exact hSound.spared

/- A pipe that is followed by another one. -/
theorem Sound.pipedEarly
    (hSound : s.Sound)
    {c : CheckStart}
    {now readEnd writeEnd : Int}
    {made : List (Int × Int)}
    {owner : Owners Int FdOwner}
    (hPc : s.pc = .creating c now made)
    (hReadPos : 0 ≤ readEnd)
    (hWritePos : 0 ≤ writeEnd)
    (hLists : ∀ id, owner.Lists (.tunnel id)
      (if c.id = id then
        writeEnd :: readEnd ::
          made.flatMap fun ends => [ends.1, ends.2]
      else openEnds (s.table id).pipes.toList)) :
    Sound
      { s with
        owner := owner
        pc := .creating c now
          (made ++ [(readEnd, writeEnd)]) } := by
  have hHand : s.pc.inHand = some (c.id,
      made.flatMap fun ends => [ends.1, ends.2]) := by
    rw [hPc]
    rfl
  have hHand' :
      (PipePc.creating c now
        (made ++ [(readEnd, writeEnd)])).inHand =
      some (c.id, (made ++ [(readEnd, writeEnd)]).flatMap
        fun ends => [ends.1, ends.2]) := rfl
  refine ⟨fun id => ?_, fun id hSettled => ?_,
    fun id hSettled => ?_, by simp, ?_, by simp,
    hSound.spared⟩
  · rw [holds_of_some hHand']
    apply (hLists id).perm
    by_cases hBusy : c.id = id
    · rw [if_pos hBusy, if_pos hBusy, List.flatMap_append]
      simp only [List.flatMap_cons, List.flatMap_nil,
        List.append_nil]
      rw [List.perm_iff_count]
      intro fd
      simp only [List.count_cons, List.count_append,
        List.count_nil]
      omega
    · rw [if_neg hBusy, if_neg hBusy]
  · exact hSound.whole id
      ((settled_iff_of_some hHand).mpr
        ((settled_iff_of_some rfl).mp hSettled))
  · exact hSound.child id
      ((settled_iff_of_some hHand).mpr
        ((settled_iff_of_some rfl).mp hSettled))
  · intro c' now' made' hPc' ends hMem
    rw [← (PipePc.creating.inj hPc').2.2,
      List.mem_append, List.mem_singleton] at hMem
    rcases hMem with hMem | rfl
    · exact hSound.made c now made hPc ends hMem
    · exact ⟨hReadPos, hWritePos⟩

theorem Sound.piped
    (hSound : s.Sound)
    {readEnd writeEnd : Int}
    (hNext : s.next (.piped readEnd writeEnd) = some s') :
    s'.Sound := by
  simp only [next] at hNext
  split at hNext
  · rename_i c now made hPc
    split at hNext
    · rename_i hFresh
      rcases hFresh with
        ⟨hReadPos, hWritePos, hDistinct, hRead, hWrite⟩
      have hLists :=
        hSound.pipe_lists hPc hDistinct hRead hWrite
      rw [← Option.some.inj hNext]
      rcases made with
        _ | ⟨pipeStdin, _ | ⟨pipeStdout, _ | ⟨more, rest⟩⟩⟩
      · exact hSound.pipedEarly hPc hReadPos hWritePos hLists
      · exact hSound.pipedEarly hPc hReadPos hWritePos hLists
      · exact hSound.pipedLast hPc hReadPos hWritePos hLists
      · exact hSound.pipedEarly hPc hReadPos hWritePos hLists
    · contradiction
  · contradiction

theorem Sound.forked
    (hSound : s.Sound)
    {fork startTime errno : Int}
    (hNext : s.next (.forked fork startTime errno) = some s') :
    s'.Sound := by
  simp only [next] at hNext
  split at hNext
  · rename_i c now hPc
    have hNone : s.pc.inHand = none := by
      rw [hPc]
      rfl
    split at hNext
    · rw [← Option.some.inj hNext]
      have hPipes : ∀ id,
          ((s.setSsh c.id
            (forkChild (s.table c.id) (s.table c.id).pipes
              fork startTime)).table id).pipes =
            (s.table id).pipes := by
        intro id
        rw [setSsh_table]
        by_cases hId : id = c.id
        · rw [if_pos hId, hId]
          unfold forkChild
          dsimp only
          split
          · rfl
          · rfl
        · rw [if_neg hId]
      refine hSound.at_rest hNone rfl rfl rfl hPipes ?_
        (by simp)
      intro id hPos
      change ((s.setSsh c.id _).table id).pipes ≠ _
      rw [hPipes]
      by_cases hId : id = c.id
      · rw [hId]
        exact hSound.forking c now hPc
      · apply hSound.child id (settled_of_none hNone)
        change 0 < ((s.setSsh c.id _).table id).pid at hPos
        rwa [setSsh_table, if_neg hId] at hPos
    · contradiction
  · contradiction

------------------------------------------------------------
-- Runs
------------------------------------------------------------

/- Every undisturbed step keeps the invariant. -/
theorem next_sound
    {i : PipeStep}
    (hSound : s.Sound)
    (hAllowed : Undisturbed s i)
    (hNext : s.next i = some s') :
    s'.Sound := by
  cases i with
  | acquired fd =>
      simp only [next] at hNext
      split at hNext
      · rename_i hFree
        rw [← Option.some.inj hNext]
        exact hSound.acquired hAllowed hFree.2
      · contradiction
  | released fd =>
      simp only [next] at hNext
      split at hNext
      · rename_i hOther
        rw [← Option.some.inj hNext]
        exact hSound.released hOther
      · contradiction
  | checked id mark connectionCount curTime waits errno =>
      simp only [next] at hNext
      split at hNext
      · rename_i hIdle
        have hSame : Sound { s with errno := errno } :=
          ⟨hSound.lists, hSound.whole, hSound.child,
            hSound.repeated, hSound.made, hSound.forking,
            hSound.spared⟩
        exact hSame.checked hIdle rfl rfl hNext
      · contradiction
  | called rc => exact hSound.called hNext
  | closed result => exact hSound.closed hNext
  | forgot => exact hSound.forgot hNext
  | decided now => exact hSound.decided hNext
  | piped readEnd writeEnd => exact hSound.piped hNext
  | forked fork startTime errno => exact hSound.forked hNext

theorem sound_of_start
    (hStart : tunnelPipes.start s) :
    s.Sound := by
  rcases hStart with ⟨hNew, hOthers, hIdle, hSpared⟩
  have hNone : s.pc.inHand = none := by
    rw [hIdle]
    rfl
  have hClosed : ∀ id, (s.table id).pipes = .closed := by
    intro id
    rcases hNew id with ⟨junkMark, junkCount, hTable⟩
    rw [hTable]
    rfl
  refine ⟨fun id => ?_, fun id _ => Or.inl (hClosed id),
    fun id _ hPos => ?_, by simp [hIdle], by simp [hIdle],
    by simp [hIdle], hSpared⟩
  · rw [holds_of_none hNone, hClosed, openEnds_closed]
    exact ⟨List.nodup_nil,
      fun fd => by simpa using hOthers fd id⟩
  · rcases hNew id with ⟨junkMark, junkCount, hTable⟩
    rw [hTable] at hPos
    exact absurd hPos (show ¬ (0 : Int) < -1 by decide)

end PipeRun

/-
  No descriptor of another thread was closed.  What belongs
  to a tunnel is what it holds, each descriptor once, so that
  nothing leaks.  But while they are closed or made, that is
  what the six fields say, or all of these are -1; and the
  pipes of a child are there.
-/
structure PipesOwned
    (s : PipeRun) : Prop where
  spared : s.stolen = []
  held : ∀ id, s.owner.Lists (.tunnel id) (s.holds id)
  fields : ∀ id, s.Settled id →
    ((s.table id).pipes = .closed ∧
        ∀ fd, s.owner fd ≠ some (.tunnel id)) ∨
      s.owner.Lists (.tunnel id) (s.table id).pipes.toList
  child : ∀ id, s.Settled id → 0 < (s.table id).pid →
    s.owner.Lists (.tunnel id) (s.table id).pipes.toList

theorem PipeRun.Sound.pipesOwned
    {s : PipeRun}
    (hSound : s.Sound) :
    PipesOwned s := by
  have hFields : ∀ id, s.Settled id →
      s.holds id = openEnds (s.table id).pipes.toList := by
    intro id hSettled
    unfold holds
    split
    · rename_i busy fds hHand
      exact if_neg
        ((settled_iff_of_some hHand).mp hSettled)
    · rfl
  have hOpen : ∀ id, s.Settled id →
      (∀ fd ∈ (s.table id).pipes.toList, 0 ≤ fd) →
      s.owner.Lists (.tunnel id)
        (s.table id).pipes.toList := by
    intro id hSettled hNonneg
    have hLists := hSound.lists id
    rwa [hFields id hSettled,
      openEnds_of_nonneg hNonneg] at hLists
  refine ⟨hSound.spared, hSound.lists,
    fun id hSettled => ?_, fun id hSettled hPos => ?_⟩
  · rcases hSound.whole id hSettled with hClosed | hNonneg
    · left
      have hLists := hSound.lists id
      rw [hFields id hSettled, hClosed,
        openEnds_closed] at hLists
      exact ⟨hClosed, fun fd hOwned => by
        simpa using (hLists.owns fd).mp hOwned⟩
    · exact Or.inr (hOpen id hSettled hNonneg)
  · exact hOpen id hSettled
      ((hSound.whole id hSettled).resolve_left
        (hSound.child id hSettled hPos))

/- In every run of which no step disturbs a closing. -/
theorem tunnelPipes_owned
    {s : PipeRun}
    (hReach :
      (tunnelPipes.only PipeRun.Undisturbed).Reachable s) :
    PipesOwned s := by
  have hSound : s.Sound := by
    apply hReach.invariant
    · intro s hStart
      exact PipeRun.sound_of_start hStart
    · intro s i s' _ hSound hStep
      exact PipeRun.next_sound hSound hStep.1 hStep.2
  exact hSound.pipesOwned

/- The state after some steps that are all possible. -/
def PipeRun.run
    (allowed : PipeRun → PipeStep → Bool)
    (s : PipeRun) : List PipeStep → Option PipeRun
  | [] => some s
  | i :: steps =>
      if allowed s i then
        match s.next i with
        | none => none
        | some s' => run allowed s' steps
      else none

theorem PipeRun.reachable_run
    {P : PipeRun → PipeStep → Prop}
    {allowed : PipeRun → PipeStep → Bool}
    {s s' : PipeRun}
    {steps : List PipeStep}
    (hAllowed : ∀ s i, allowed s i = true → P s i)
    (hReach : (tunnelPipes.only P).Reachable s)
    (hRun : s.run allowed steps = some s') :
    (tunnelPipes.only P).Reachable s' := by
  induction steps generalizing s with
  | nil =>
      rw [← Option.some.inj hRun]
      exact hReach
  | cons i steps ih =>
      rw [run] at hRun
      split at hRun
      · rename_i hStep
        split at hRun
        · contradiction
        · rename_i s₁ hNext
          exact ih (hReach.step ⟨hAllowed s i hStep, hNext⟩)
            hRun
      · contradiction

/- Standard input, output and error are open. -/
def newPipeRun : PipeRun where
  table := fun _ => newSshRuntime 0 0
  owner := fun fd =>
    if 0 ≤ fd ∧ fd ≤ 2 then some .other else none
  pc := .idle
  errno := 0
  stolen := []

/- A child is started, and a connection gets descriptor 3. -/
def startsOne : List PipeStep :=
  [.acquired 3, .checked 4 1 0 1000 [] 0, .decided 1000,
    .called 0, .called 0, .called 0, .called 0, .called 0,
    .called 0, .forgot, .piped 4 5, .piped 6 7, .piped 8 9,
    .forked 77 1000 0]

/- It exits, and a close() is interrupted and repeated. -/
def closesTwice : List PipeStep :=
  [.checked 4 1 0 1010 [.exited 0] 0, .called (-1),
    .closed (.error EINTR)]

theorem newPipeRun_start : tunnelPipes.start newPipeRun := by
  refine ⟨fun _ => ⟨0, 0, rfl⟩, ?_, rfl, rfl⟩
  intro fd id
  simp only [newPipeRun]
  split
  · simp
  · simp

theorem tunnelPipes_owned_closing :
    PipesOwned
      ((newPipeRun.run
        (fun s i => decide (PipeRun.Undisturbed s i))
        (startsOne ++ closesTwice ++
          [.acquired 10, .closed (.ok ()), .called 0])).get
        (by decide)) := by
  apply tunnelPipes_owned
  exact PipeRun.reachable_run
    (fun s i => of_decide_eq_true)
    (.start newPipeRun_start)
    (Option.some_get _).symm

/-
  A descriptor that another thread gets in the meantime is
  closed, and nobody tells it.
-/
theorem tunnelPipes_disturbed :
    ∃ s, tunnelPipes.Reachable s ∧ s.stolen = [5] := by
  let s := (newPipeRun.run (fun _ _ => true)
    (startsOne ++ closesTwice ++
      [.acquired 5, .closed (.ok ())])).get (by decide)
  have hReach :
      (tunnelPipes.only fun _ _ => True).Reachable s :=
    PipeRun.reachable_run (fun _ _ _ => trivial)
      (.start newPipeRun_start) (Option.some_get _).symm
  exact ⟨s, hReach.of_only, by decide⟩

end SmartSOCKSProxy
