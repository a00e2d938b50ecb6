import SmartSOCKSProxy.Server.EventLoop

/-
  How long a connection waits in a backlog.

  In every round each service accepts one connection, if some
  are waiting.  A connection waits one round for itself and
  one for each connection before it, whatever arrives at the
  other services.

  Key definitions include:
    * `EventStep.Works`, `eventLoopFrom`
    * `EventLoop.Admits`, `EventLoop.Admitting`

  Key theorems include:
    * `EventLoop.handle_cases`
    * `EventLoop.Progress.next`
    * `eventLoop_accepts`
-/

namespace SmartSOCKSProxy

------------------------------------------------------------
-- Rounds
------------------------------------------------------------

/- No call of the main thread is interrupted or fails. -/
def EventStep.Works : EventStep → Prop
  | .polled d _ => 0 ≤ d.rc
  | .handled error => error = none
  | _ => True

/- The runs from a state on in which the calls work. -/
def eventLoopFrom
    (setup : EventSetup)
    (s₀ : EventLoop) : Transition EventLoop EventStep :=
  (Transition.moving (fun s => s = s₀)
    (EventLoop.next setup)).only fun s i =>
      i.Works ∧ s.Possible setup i

namespace EventLoop

/-
  In so many rounds, one of the connections that had arrived
  was accepted in each, or all of them were.
-/
def Admits
    (s₀ s : EventLoop)
    (fd : Int)
    (rounds : Nat) : Prop :=
  min (s₀.arrived fd).length
      ((s₀.accepted fd).length + rounds) ≤
    (s.accepted fd).length

/-
  The service is looked at once in a round.  While it has not
  been, the array tells about a connection that is missing.
-/
def Admitting
    (s₀ s : EventLoop)
    (listener : Listener) : Prop :=
  let rounds := s.rounds - s₀.rounds
  match s.pc with
  | .polling => Admits s₀ s listener.fd rounds
  | .handling pfd tasks =>
      if .service listener ∈ tasks then
        Admits s₀ s listener.fd rounds ∧
          ((s.accepted listener.fd).length <
              (s₀.arrived listener.fd).length →
            (LoopTask.service listener).demand pfd ≠
              .nothing)
      else Admits s₀ s listener.fd (rounds + 1)
  | _ => True

structure Progress
    (s₀ : EventLoop)
    (listener : Listener)
    (s : EventLoop) : Prop where
  rounds : s₀.rounds ≤ s.rounds
  arrived : s₀.arrived listener.fd <+: s.arrived listener.fd
  admitting : Admitting s₀ s listener

variable {setup : EventSetup}
variable {s₀ s s' : EventLoop}
variable {listener : Listener}
variable {rounds rounds' : Nat}

theorem Admits.mono
    {fd : Int}
    (hAdmits : Admits s₀ s fd rounds)
    (hMore :
      (s.accepted fd).length ≤ (s'.accepted fd).length) :
    Admits s₀ s' fd rounds :=
  hAdmits.trans hMore

/- All of them were accepted. -/
theorem Admits.of_all
    {fd : Int}
    (hAll :
      (s₀.arrived fd).length ≤ (s.accepted fd).length) :
    Admits s₀ s fd rounds :=
  (min_le_left _ _).trans hAll

/- One more round, and one more connection. -/
theorem Admits.succ
    {fd : Int}
    (hAdmits : Admits s₀ s fd rounds)
    (hMore :
      (s.accepted fd).length < (s'.accepted fd).length) :
    Admits s₀ s' fd (rounds + 1) := by
  unfold Admits at hAdmits ⊢
  omega

theorem Admits.of_le
    {fd : Int}
    (hAdmits : Admits s₀ s fd rounds)
    (hLe : rounds' ≤ rounds) :
    Admits s₀ s fd rounds' := by
  unfold Admits at hAdmits ⊢
  omega

/- Nothing but the backlogs, the pipes and errors changes. -/
theorem Admitting.congr
    (hAdmitting : Admitting s₀ s listener)
    (hPc : s'.pc = s.pc)
    (hAccepted : s'.accepted = s.accepted)
    (hRounds : s'.rounds = s.rounds) :
    Admitting s₀ s' listener := by
  unfold Admitting Admits at hAdmitting ⊢
  rwa [hPc, hAccepted, hRounds]

------------------------------------------------------------
-- Looking at One Thing
------------------------------------------------------------

/- The main thread does not go on. -/
def EventPc.Ends : EventPc → Prop
  | .polling | .handling _ _ => False
  | _ => True

theorem Admitting.of_ends
    (hEnds : EventPc.Ends s.pc) :
    Admitting s₀ s listener := by
  unfold Admitting
  cases hPc : s.pc with
  | polling =>
      rw [hPc] at hEnds
      exact hEnds.elim
  | handling pfd tasks =>
      rw [hPc] at hEnds
      exact hEnds.elim
  | exited returnCode => trivial
  | blocked => trivial
  | outside => trivial

/-
  The main thread goes on with what is left, and only an
  accept() changes what was accepted.
-/
theorem handle_cases
    (s : EventLoop)
    (pfd : List PollFd)
    (task : LoopTask)
    (tasks : List LoopTask) :
    (s.handle pfd task tasks none).rounds = s.rounds ∧
      (s.handle pfd task tasks none).arrived = s.arrived ∧
      (EventPc.Ends (s.handle pfd task tasks none).pc ∨
        (s.handle pfd task tasks none).pc =
            .handling pfd tasks ∧
          ((s.handle pfd task tasks none).accepted =
                s.accepted ∧
              (task.demand pfd = .nothing ∨
                ∃ size onError,
                  task.demand pfd = .reads size onError) ∨
            ∃ l con, task.demand pfd = .accepts l ∧
              (s.handle pfd task tasks none).accepted =
                Function.update s.accepted l.fd
                  (s.accepted l.fd ++ [con]))) := by
  unfold handle
  cases hDemand : task.demand pfd with
  | nothing =>
      exact ⟨rfl, rfl, Or.inr ⟨rfl, Or.inl ⟨rfl,
        Or.inl rfl⟩⟩⟩
  | exits returnCode => exact ⟨rfl, rfl, Or.inl trivial⟩
  | reads size onError =>
      dsimp only [read]
      split
      · exact ⟨rfl, rfl, Or.inl trivial⟩
      · exact ⟨rfl, rfl, Or.inr ⟨rfl, Or.inl ⟨rfl,
          Or.inr ⟨size, onError, rfl⟩⟩⟩⟩
  | accepts l =>
      dsimp only [accept]
      split
      · exact ⟨rfl, rfl, Or.inl trivial⟩
      · rename_i con cons _
        exact ⟨rfl, rfl, Or.inr ⟨rfl, Or.inr ⟨l, con, rfl,
          rfl⟩⟩⟩
  | outside => exact ⟨rfl, rfl, Or.inl trivial⟩

theorem service_not_reads
    (listener : Listener)
    (pfd : List PollFd)
    (size : Nat)
    (onError : Option Int) :
    (LoopTask.service listener).demand pfd ≠
      .reads size onError := by
  intro hReads
  unfold LoopTask.demand at hReads
  generalize foundRevents pfd (LoopTask.fd _) = found
    at hReads
  have hDemands := LoopTask.demands (.service listener) found
  rw [hReads] at hDemands
  cases hDemands with
  | reads _ hPipe _ => exact hPipe listener rfl

theorem service_accepts
    {pfd : List PollFd}
    {l : Listener}
    (hAccepts :
      (LoopTask.service listener).demand pfd =
        .accepts l) :
    l = listener := by
  unfold LoopTask.demand at hAccepts
  generalize foundRevents pfd (LoopTask.fd _) = found
    at hAccepts
  have hDemands := LoopTask.demands (.service listener) found
  rw [hAccepts] at hDemands
  cases hDemands with
  | accepts _ hService =>
      exact (LoopTask.service.inj hService).symm

/- A connection that is told of is not passed over. -/
theorem demand_of_waiting
    (hListener : listener ∈ setup.listeners)
    (hOpen : 0 ≤ listener.fd)
    {report : Int → PollFlags}
    (hTold : (report listener.fd).has POLLRDNORM) :
    (LoopTask.service listener).demand
        (polledEntries report (s.fds setup)) ≠ .nothing := by
  have hTask : .service listener ∈ s.tasks setup :=
    service_mem_loopTasks.mpr hListener
  have hInput :
      (report (LoopTask.service listener).fd).has
        anyInput :=
    PollFlags.has_of_has hTold (by decide)
  unfold fds
  rw [LoopTask.demand_eq hTask]
  have hFound : 0 ≤ (LoopTask.service listener).fd := hOpen
  rw [if_pos hFound]
  dsimp only [LoopTask.demandOf]
  rw [if_pos hInput]
  split
  · exact nofun
  · exact nofun

/- The call of poll() leads to the round, or to the end. -/
theorem poll_cases
    (setup : EventSetup)
    (s : EventLoop)
    {d : PollDone}
    (hWorks : 0 ≤ d.rc)
    (report : Int → PollFlags) :
    EventPc.Ends (s.poll setup d report).pc ∨
      s.poll setup d report =
        { s with
          pc :=
            .handling (polledEntries report (s.fds setup))
              (s.tasks setup) } := by
  have hOutcome : d.outcome = .handles d.rc :=
    if_neg (fun hFailed => not_lt.mpr hWorks hFailed.1)
  have hSome : s.fds setup ≠ [] := List.cons_ne_nil _ _
  unfold poll
  rw [pollSet_eq hSome]
  by_cases hFits : ((s.fds setup).length : Int) ≤ setup.ulimit
  · right
    rw [if_pos hFits]
    simp only [hOutcome]
    rw [if_neg (not_lt.mpr hWorks)]
    rfl
  · left
    rw [if_neg hFits]
    trivial

------------------------------------------------------------
-- Steps
------------------------------------------------------------

theorem Progress.polled
    (hProgress : Progress s₀ listener s)
    (hKept : s.Kept setup)
    (hListener : listener ∈ setup.listeners)
    (hOpen : 0 ≤ listener.fd)
    {d : PollDone}
    {report : Int → PollFlags}
    (hWorks : 0 ≤ d.rc)
    (hPolling : s.pc = .polling)
    (hReports : s.Reports setup report) :
    Progress s₀ listener (s.poll setup d report) := by
  have hSame :
      (s.poll setup d report).rounds = s.rounds ∧
        (s.poll setup d report).arrived = s.arrived := by
    unfold poll
    split
    · exact ⟨rfl, rfl⟩
    · split
      · exact ⟨rfl, rfl⟩
      · exact ⟨rfl, rfl⟩
  refine ⟨hSame.1 ▸ hProgress.rounds,
    hSame.2 ▸ hProgress.arrived, ?_⟩
  rcases poll_cases setup s hWorks report with hEnds | hRound
  · exact Admitting.of_ends hEnds
  · rw [hRound]
    have hAdmits := hProgress.admitting
    unfold Admitting at hAdmits ⊢
    rw [hPolling] at hAdmits
    dsimp only at hAdmits ⊢
    have hTask : .service listener ∈ s.tasks setup :=
      service_mem_loopTasks.mpr hListener
    rw [if_pos hTask]
    refine ⟨hAdmits, fun hMissing => ?_⟩
    apply demand_of_waiting hListener hOpen
    apply hReports.complete
    -- What has arrived and was not accepted still waits.
    intro hNone
    have hInOrder := hKept.inOrder listener.fd
    rw [hNone, List.append_nil] at hInOrder
    have hLength := hProgress.arrived.length_le
    rw [← hInOrder] at hLength
    omega

/- Looking at another thing does not take anything back. -/
theorem accepted_handle_le
    (s : EventLoop)
    (pfd : List PollFd)
    (task : LoopTask)
    (tasks : List LoopTask)
    (fd : Int)
    (hGoesOn :
      ¬EventPc.Ends (s.handle pfd task tasks none).pc) :
    (s.accepted fd).length ≤
      ((s.handle pfd task tasks none).accepted fd).length := by
  rcases handle_cases s pfd task tasks with
    ⟨_, _, hEnds | ⟨_, ⟨hSame, _⟩ | ⟨l, con, _, hMore⟩⟩⟩
  · exact absurd hEnds hGoesOn
  · rw [hSame]
  · rw [hMore]
    by_cases hHere : fd = l.fd
    · subst hHere
      simp
    · rw [Function.update_of_ne hHere]

theorem Progress.handled
    (hProgress : Progress s₀ listener s)
    {pfd : List PollFd}
    {task : LoopTask}
    {tasks : List LoopTask}
    (hHandling : s.pc = .handling pfd (task :: tasks)) :
    Progress s₀ listener
      (s.handle pfd task tasks none) := by
  rcases handle_cases s pfd task tasks with
    ⟨hRounds, hArrived, hMove⟩
  refine ⟨hRounds ▸ hProgress.rounds,
    hArrived ▸ hProgress.arrived, ?_⟩
  by_cases hEnds :
      EventPc.Ends (s.handle pfd task tasks none).pc
  · exact Admitting.of_ends hEnds
  have hLe := accepted_handle_le s pfd task tasks listener.fd
    hEnds
  rcases hMove.resolve_left hEnds with ⟨hPc, hAccepted⟩
  have hBefore := hProgress.admitting
  unfold Admitting at hBefore ⊢
  rw [hHandling] at hBefore
  rw [hPc]
  dsimp only at hBefore ⊢
  rw [hRounds]
  by_cases hHere : task = .service listener
  · -- It is the turn of this service.
    subst hHere
    rw [if_pos List.mem_cons_self] at hBefore
    rcases hBefore with ⟨hAdmits, hTold⟩
    have hAfter :
        Admits s₀ (s.handle pfd (.service listener) tasks none)
          listener.fd (s.rounds - s₀.rounds + 1) := by
      rcases hAccepted with
        ⟨_, hIdle⟩ | ⟨l, con, hDemand, hMore⟩
      · have hNothing :
            (LoopTask.service listener).demand pfd =
              .nothing := by
          rcases hIdle with hNothing | ⟨size, onError, hReads⟩
          · exact hNothing
          · exact absurd hReads (service_not_reads _ _ _ _)
        apply Admits.of_all
        exact (not_lt.mp fun hMissing =>
          hTold hMissing hNothing).trans hLe
      · cases service_accepts hDemand
        apply hAdmits.succ
        rw [hMore, Function.update_self]
        simp
    split
    · refine ⟨hAfter.of_le (Nat.le_succ _), ?_⟩
      exact fun hMissing => hTold (hLe.trans_lt hMissing)
    · exact hAfter
  · -- It is the turn of something else.
    have hMem :
        .service listener ∈ task :: tasks ↔
          .service listener ∈ tasks := by
      rw [List.mem_cons, or_iff_right (Ne.symm hHere)]
    by_cases hLater : .service listener ∈ tasks
    · rw [if_pos (hMem.mpr hLater)] at hBefore
      rw [if_pos hLater]
      exact ⟨hBefore.1.mono hLe,
        fun hMissing => hBefore.2 (hLe.trans_lt hMissing)⟩
    · rw [if_neg (fun h => hLater (hMem.mp h))] at hBefore
      rw [if_neg hLater]
      exact hBefore.mono hLe

theorem Progress.rested
    (hProgress : Progress s₀ listener s)
    {pfd : List PollFd}
    (hHandling : s.pc = .handling pfd [])
    (tunnels : List TunnelPipes) :
    Progress s₀ listener
      (s.next setup (.rested tunnels)) := by
  have hRounds := hProgress.rounds
  refine ⟨hRounds.trans (Nat.le_succ _), hProgress.arrived,
    ?_⟩
  have hAdmits := hProgress.admitting
  unfold Admitting at hAdmits ⊢
  rw [hHandling] at hAdmits
  dsimp only at hAdmits
  rw [if_neg List.not_mem_nil] at hAdmits
  dsimp only [EventLoop.next]
  rw [Nat.sub_add_comm hRounds]
  exact hAdmits

theorem Progress.next
    (hProgress : Progress s₀ listener s)
    (hKept : s.Kept setup)
    (hListener : listener ∈ setup.listeners)
    (hOpen : 0 ≤ listener.fd)
    {i : EventStep}
    (hWorks : i.Works)
    (hPossible : s.Possible setup i) :
    Progress s₀ listener (s.next setup i) := by
  cases i with
  | connected fd con =>
      refine ⟨hProgress.rounds, hProgress.arrived.trans ?_,
        hProgress.admitting.congr rfl rfl rfl⟩
      dsimp only [EventLoop.next]
      by_cases hSame : listener.fd = fd
      · rw [← hSame, Function.update_self]
        exact List.prefix_append _ _
      · rw [Function.update_of_ne hSame]
  | written fd bytes =>
      exact ⟨hProgress.rounds, hProgress.arrived,
        hProgress.admitting.congr rfl rfl rfl⟩
  | raised fd flags =>
      exact ⟨hProgress.rounds, hProgress.arrived,
        hProgress.admitting.congr rfl rfl rfl⟩
  | polled d report =>
      exact hProgress.polled hKept hListener hOpen hWorks
        hPossible.1 hPossible.2
  | handled error =>
      cases hWorks
      rcases hPossible with ⟨pfd, task, tasks, hHandling⟩
      rw [next_handled setup hHandling]
      exact hProgress.handled hHandling
  | rested tunnels =>
      rcases hPossible.1 with ⟨pfd, hHandling⟩
      exact hProgress.rested hHandling tunnels

end EventLoop

------------------------------------------------------------
-- Waiting
------------------------------------------------------------

/- Runs from a state that can be reached. -/
theorem EventLoop.progress_of_reachable
    {setup : EventSetup}
    (hNonneg : ∀ listener ∈ setup.listeners,
      0 ≤ listener.fd)
    {s₀ s : EventLoop}
    (hKept₀ : s₀.Kept setup)
    (hPolling : s₀.pc = .polling)
    {listener : Listener}
    (hListener : listener ∈ setup.listeners)
    (hReach : (eventLoopFrom setup s₀).Reachable s) :
    s.Kept setup ∧ Progress s₀ listener s := by
  refine hReach.invariant
    (P := fun s => s.Kept setup ∧ Progress s₀ listener s)
    ?_ ?_
  · rintro s rfl
    refine ⟨hKept₀, le_rfl, List.prefix_rfl, ?_⟩
    unfold Admitting Admits
    rw [hPolling]
    dsimp only
    rw [Nat.sub_self, Nat.add_zero]
    exact min_le_right _ _
  · rintro s i s' _ ⟨hKept, hProgress⟩
      ⟨⟨hWorks, hPossible⟩, rfl⟩
    exact ⟨hKept.next hNonneg hPossible,
      hProgress.next hKept hListener
        (hNonneg listener hListener) hWorks hPossible⟩

/-
  While the calls work, a connection is accepted, behind those
  before it, in as many rounds as there are, and one more.
-/
theorem eventLoop_accepts
    {setup : EventSetup}
    {services : List (Nat × Service × ListenCalls)}
    (hOpen : openListeners services = .ok setup.listeners)
    (hFds :
      (setup.threadMsgFd ::
        setup.listeners.map Listener.fd).Nodup)
    {s₀ s : EventLoop}
    (hReach₀ : (eventLoop setup).Reachable s₀)
    (hPolling₀ : s₀.pc = .polling)
    (hReach : (eventLoopFrom setup s₀).Reachable s)
    (hPolling : s.pc = .polling)
    {listener : Listener}
    (hListener : listener ∈ setup.listeners)
    {before after : List Nat}
    {con : Nat}
    (hWaits :
      s₀.backlog listener.fd = before ++ con :: after)
    (hRounds : s₀.rounds + before.length < s.rounds) :
    s₀.accepted listener.fd ++ before ++ [con] <+:
      s.accepted listener.fd := by
  have hNonneg := nonneg_of_openListeners hOpen
  have hKept₀ :=
    EventLoop.Kept.of_reachable hNonneg hFds hReach₀
  rcases EventLoop.progress_of_reachable hNonneg hKept₀
    hPolling₀ hListener hReach with ⟨hKept, hProgress⟩
  have hAdmits := hProgress.admitting
  unfold EventLoop.Admitting EventLoop.Admits at hAdmits
  rw [hPolling] at hAdmits
  dsimp only at hAdmits
  have hArrived₀ := hKept₀.inOrder listener.fd
  rw [hWaits] at hArrived₀
  have hFirst :
      s₀.accepted listener.fd ++ before ++ [con] <+:
        s.arrived listener.fd := by
    refine List.IsPrefix.trans ?_ hProgress.arrived
    rw [← hArrived₀]
    exact ⟨after, by simp⟩
  have hAccepted :
      s.accepted listener.fd <+: s.arrived listener.fd :=
    ⟨_, hKept.inOrder listener.fd⟩
  -- Both are beginnings of what has arrived.
  apply List.prefix_of_prefix_length_le hFirst hAccepted
  have hLength := congrArg List.length hArrived₀
  simp only [List.length_append, List.length_cons,
    List.length_nil] at hLength ⊢
  omega

/- Another client connects to the same service. -/
def twoWaiting : EventLoop :=
  oneWaiting.next twoServices (.connected 5 8)

def EventLoop.afterRound
    (s : EventLoop) : EventLoop :=
  (EventStep.polled ⟨1, 1, 0⟩ s.told :: looksAtAll ++
    [EventStep.rested [.closed]]).foldl (next twoServices) s

theorem twoWaiting_reachable :
    (eventLoop twoServices).Reachable twoWaiting :=
  oneWaiting_reachable.step (i := .connected 5 8)
    ⟨trivial, rfl⟩

theorem eventLoop_accepts_twoWaiting :
    [7, 8] <+:
      twoWaiting.afterRound.afterRound.accepted 5 := by
  have hSeparate :
      Separate (loopTasks 3 [⟨1, 5⟩, ⟨1, 6⟩] [.closed]) :=
    separate_closed (by decide) (by decide)
  apply @eventLoop_accepts twoServices openedServices rfl
    (by decide) twoWaiting _ twoWaiting_reachable rfl
    _ rfl ⟨1, 5⟩ (by decide) [7] [] 8 rfl (by decide)
  have hStart :
      (eventLoopFrom twoServices twoWaiting).Reachable
        twoWaiting := .start rfl
  have hWorks : (0 : Int) ≤ 1 := by decide
  have hFirst :
      (eventLoopFrom twoServices twoWaiting).Reachable
        twoWaiting.afterRound := by
    apply hStart.run_only
    exact ⟨⟨hWorks, rfl, reports_told rfl rfl⟩,
      ⟨rfl, handled_possible rfl⟩,
      ⟨rfl, handled_possible rfl⟩,
      ⟨rfl, handled_possible rfl⟩,
      ⟨rfl, handled_possible rfl⟩,
      ⟨rfl, handled_possible rfl⟩,
      ⟨trivial, ⟨_, rfl⟩, hSeparate⟩, trivial⟩
  apply hFirst.run_only
  exact ⟨⟨hWorks, rfl, reports_told rfl rfl⟩,
    ⟨rfl, handled_possible rfl⟩,
    ⟨rfl, handled_possible rfl⟩,
    ⟨rfl, handled_possible rfl⟩,
    ⟨rfl, handled_possible rfl⟩,
    ⟨rfl, handled_possible rfl⟩,
    ⟨trivial, ⟨_, rfl⟩, hSeparate⟩, trivial⟩

end SmartSOCKSProxy
