import SmartSOCKSProxy.Config.References
import SmartSOCKSProxy.Server.SshDemand

/-
  The tunnels that are looked after.

  What a connection waits for is a tunnel of its route, and
  the tunnels of every route are tunnels of the configuration.
  So one round of checks reaches each tunnel that is needed,
  and starts no other one.

  Key definitions include:
    * `Attended`, `Attendance`

  Key theorems include:
    * `checkSshTunnel_attended`, `checkSshTunnel_unneeded`
    * `checkListed_after`
    * `checkSshTunnels_attends`
-/

namespace SmartSOCKSProxy

------------------------------------------------------------
-- One Tunnel
------------------------------------------------------------

/-
  What becomes of a tunnel with a mark: its child runs, the
  last one was started too recently, or there is a fork().
-/
inductive Attended
    (calls : CheckCalls)
    (ssh : SshRuntime) : SshRuntime → Prop
| running
    {ssh' : SshRuntime}
    (hPid : 0 < ssh.pid)
    (hWait : waitChild calls.waits = some .running)
    (hKept : ssh'.pid = ssh.pid) :
    Attended calls ssh ssh'
| throttled
    {ssh' : SshRuntime}
    (hSoon : calls.now - ssh.startTime < 2) :
    Attended calls ssh ssh'
| forked
    {ssh' : SshRuntime}
    (hPid : ssh'.pid = calls.fork)
    (hPipes : calls.pipes = some ssh'.pipes) :
    Attended calls ssh ssh'

theorem forkChild_pid
    (ssh : SshRuntime)
    (pipes : TunnelPipes)
    (fork startTime : Int) :
    (forkChild ssh pipes fork startTime).pid = fork ∧
      (forkChild ssh pipes fork startTime).pipes = pipes := by
  unfold forkChild
  dsimp only
  split
  · exact ⟨rfl, rfl⟩
  · exact ⟨rfl, rfl⟩

/- The two ways in which a check gets to its second half. -/
theorem checkSshTunnel_cases
    {ssh ssh' : SshRuntime}
    {calls : CheckCalls}
    (hCheck : checkSshTunnel ssh calls = some ssh') :
    ∃ isRunning ssh₁,
      ((isRunning = true ∧ 0 < ssh.pid ∧
          waitChild calls.waits = some .running ∧
          ssh₁.pid = ssh.pid) ∨
        (isRunning = false ∧
          (ssh₁.pid = ssh.pid ∨ ssh₁.pid = -1))) ∧
      ssh₁.mark = ssh.mark ∧
      ssh₁.startTime = ssh.startTime ∧
      (if startsChild ssh₁ isRunning calls.now then
          calls.pipes.bind fun pipes =>
            some (forkChild ssh₁ pipes calls.fork
              calls.startTime)
        else some ssh₁) = some ssh' := by
  unfold checkSshTunnel at hCheck
  by_cases hPid : 0 < ssh.pid
  · rw [if_pos hPid] at hCheck
    cases hWait : waitChild calls.waits with
    | none =>
        rw [hWait] at hCheck
        cases hCheck
    | some result =>
        rw [hWait] at hCheck
        refine ⟨(checkExited ssh calls.curTime result).1,
          (checkExited ssh calls.curTime result).2, ?_, ?_, ?_,
          hCheck⟩
        · cases result with
          | running =>
              refine .inl ⟨rfl, hPid, rfl, ?_⟩
              unfold checkExited
              dsimp only
              split
              · rfl
              · rfl
          | exited exitCode => exact .inr ⟨rfl, .inr rfl⟩
          | failed e => exact .inr ⟨rfl, .inl rfl⟩
        · exact checkExited_mark ssh calls.curTime result
        · cases result with
          | running =>
              unfold checkExited
              dsimp only
              split
              · rfl
              · rfl
          | exited exitCode => rfl
          | failed e => rfl
  · rw [if_neg hPid] at hCheck
    exact ⟨false, ssh, .inr ⟨rfl, .inl rfl⟩, rfl, rfl, hCheck⟩

theorem checkSshTunnel_attended
    {ssh ssh' : SshRuntime}
    {calls : CheckCalls}
    (hMark : 0 < ssh.mark)
    (hCheck : checkSshTunnel ssh calls = some ssh') :
    Attended calls ssh ssh' := by
  rcases checkSshTunnel_cases hCheck with
    ⟨isRunning, ssh₁, hFirst, hSame, hStart, hSecond⟩
  rcases hFirst with ⟨rfl, hPid, hWait, hKept⟩ | ⟨rfl, _⟩
  · cases hSecond
    exact .running hPid hWait hKept
  · by_cases hSoon : calls.now - ssh.startTime < 2
    · exact .throttled hSoon
    · have hStarts :
          startsChild ssh₁ false calls.now = true := by
        simp [startsChild, hSame, hStart, hMark]
        omega
      rw [if_pos hStarts] at hSecond
      rcases Option.bind_eq_some_iff.mp hSecond with
        ⟨pipes, hPipes, hFork⟩
      cases hFork
      rcases forkChild_pid ssh₁ pipes calls.fork
        calls.startTime with ⟨hPid, hEnds⟩
      refine .forked hPid ?_
      rw [hEnds]
      exact hPipes

/- Without a mark there is no new child. -/
theorem checkSshTunnel_unneeded
    {ssh ssh' : SshRuntime}
    {calls : CheckCalls}
    (hMark : ssh.mark = 0)
    (hCheck : checkSshTunnel ssh calls = some ssh') :
    ssh'.pid = ssh.pid ∨ ssh'.pid = -1 := by
  rcases checkSshTunnel_cases hCheck with
    ⟨isRunning, ssh₁, hFirst, hSame, _, hSecond⟩
  have hStarts :
      startsChild ssh₁ isRunning calls.now = false := by
    simp [startsChild, hSame, hMark]
  rw [hStarts] at hSecond
  cases hSecond
  rcases hFirst with ⟨_, _, _, hKept⟩ | ⟨_, hPid⟩
  · exact .inl hKept
  · exact hPid

------------------------------------------------------------
-- All Tunnels
------------------------------------------------------------

/-
  Where no number is given twice, the fields of a tunnel are
  afterwards what its own check made of them.
-/
theorem checkListed_after
    {calls : Nat → CheckCalls}
    {sshTunnelList : List SshTunnel}
    {table after : TunnelTable}
    {checks : List TunnelSnapshot}
    (hIds : (sshTunnelList.map SshTunnel.id).Nodup)
    (hRun :
      checkListed calls table sshTunnelList =
        some (checks, after)) :
    (∀ ssh ∈ sshTunnelList,
      if ssh.isDirect || ssh.isNull then
        after ssh.id = table ssh.id
      else
        checkSshTunnel (table ssh.id) (calls ssh.id) =
          some (after ssh.id)) ∧
      ∀ id ∉ sshTunnelList.map SshTunnel.id,
        after id = table id := by
  induction sshTunnelList generalizing table checks with
  | nil =>
      unfold checkListed at hRun
      cases hRun
      exact ⟨List.forall_mem_nil _, fun _ _ => rfl⟩
  | cons ssh sshTunnelList ih =>
      rcases List.nodup_cons.mp hIds with ⟨hNew, hRest⟩
      unfold checkListed at hRun
      by_cases hSpecial : (ssh.isDirect || ssh.isNull) = true
      · rw [if_pos hSpecial] at hRun
        rcases ih hRest hRun with ⟨hListed, hOthers⟩
        refine ⟨?_, fun id hId => ?_⟩
        · intro other hMem
          rcases List.mem_cons.mp hMem with rfl | hMem
          · rw [if_pos hSpecial]
            exact hOthers _ hNew
          · exact hListed other hMem
        · exact hOthers id fun hMem =>
            hId (List.mem_cons_of_mem _ hMem)
      · rw [if_neg hSpecial] at hRun
        rcases Option.bind_eq_some_iff.mp hRun with
          ⟨runtime, hCheck, hRun⟩
        rcases Option.bind_eq_some_iff.mp hRun with
          ⟨⟨later, end'⟩, hLater, hSame⟩
        cases hSame
        rcases ih hRest hLater with ⟨hListed, hOthers⟩
        refine ⟨?_, fun id hId => ?_⟩
        · intro other hMem
          rcases List.mem_cons.mp hMem with rfl | hMem
          · rw [if_neg hSpecial, hOthers _ hNew,
              Function.update_self]
            exact hCheck
          · have hOther : other.id ≠ ssh.id :=
              fun hSame => hNew
                (hSame ▸ List.mem_map_of_mem hMem)
            have hHere := hListed other hMem
            rwa [Function.update_of_ne hOther] at hHere
        · rcases not_or.mp (mt List.mem_cons.mpr hId) with
            ⟨hOther, hNot⟩
          rw [hOthers id hNot, Function.update_of_ne hOther]

------------------------------------------------------------
-- A Round of Checks
------------------------------------------------------------

/-
  A tunnel of a route that a connection uses or waits for is
  attended to, and no other one gets a child.
-/
structure Attendance
    (load : ConfigLoad)
    (proxyInstanceList : List ProxyInstance)
    (calls : Nat → CheckCalls)
    (table after : TunnelTable) : Prop where
  needed :
    ∀ con ∈ connections proxyInstanceList,
      ∀ route, con.route = some route →
        ∀ tun ∈ route.deref.tunnels, NeedsTunnel tun con →
          tun.isDirect = false → tun.isNull = false →
            Attended (calls tun.id) (table tun.id)
              (after tun.id)
  unneeded :
    ∀ tun ∈ load.config.tunnels,
      (∀ con ∈ connections proxyInstanceList,
        ¬NeedsTunnel tun con) →
        (after tun.id).pid = (table tun.id).pid ∨
          (after tun.id).pid = -1

/- The tunnels of a route, other than the direct one. -/
theorem mem_tunnels_of_rules
    {load : ConfigLoad}
    (hLoad : load.Resolved)
    {route : RouteRule}
    (hRoute : route ∈ load.config.rules)
    {tun : SshTunnel}
    (hTun : tun ∈ route.tunnels)
    (hDirect : tun.isDirect = false) :
    tun ∈ load.config.tunnels := by
  rcases List.mem_cons.mp hRoute with rfl | hRoute
  · have hOnly : defaultDirect.tunnels = [sshTunnelDirect] :=
      rfl
    rw [hOnly] at hTun
    rw [List.mem_singleton.mp hTun] at hDirect
    cases hDirect
  rcases List.mem_flatMap.mp hRoute with
    ⟨proxy, hProxy, hRoute⟩
  rcases List.mem_cons.mp hProxy with rfl | hProxy
  · exact (hLoad.proxies .default).tunnels route hRoute tun
      hTun
  · rcases List.getElem?_of_mem hProxy with ⟨index, hIndex⟩
    have hListed := hLoad.proxies (.listed index)
    rw [Configuration.proxy, List.getD_eq_getElem?_getD,
      hIndex, Option.getD_some] at hListed
    exact hListed.tunnels route hRoute tun hTun

/-
  When the routes of all connections are rules of the
  configuration, a round of checks attends to every tunnel
  that is needed: no rule leads to a tunnel that is not
  supervised.
-/
theorem checkSshTunnels_attends
    {world : ConfigWorld}
    {load : ConfigLoad}
    (hConfigured : Configured world load)
    {proxyInstanceList : List ProxyInstance}
    (hRoutes : ∀ con ∈ connections proxyInstanceList,
      ∀ route, con.route = some route →
        route.deref ∈ load.config.rules)
    {calls : Nat → CheckCalls}
    (hAnswered : ∀ id, (calls id).Answered)
    (table : TunnelTable) :
    ∃ checks after,
      checkSshTunnels proxyInstanceList load.config.tunnels
          calls table = some (checks, after) ∧
        Attendance load proxyInstanceList calls table
          after := by
  have hLoad : load.Resolved :=
    hConfigured.changes.resolved
      (resolved_init world.junkLog)
  have hEnds : ∀ con ∈ connections proxyInstanceList,
      RouteEnds con :=
    fun con hCon => routeEnds_of_configured hConfigured
      (hRoutes con hCon)
  rcases markTunnels_exact hEnds load.config.tunnels table
    with ⟨marked, hMark, hExact⟩
  rcases checkListed_checks hAnswered load.config.tunnels
    marked with ⟨checks, after, hCheck, _, _⟩
  have hAfter := (checkListed_after hLoad.ids hCheck).1
  refine ⟨checks, after, ?_, ?_, ?_⟩
  · unfold checkSshTunnels
    rw [hMark]
    exact hCheck
  · intro con hCon route hRoute tun hTun hNeeds hDirect hNull
    have hMem := mem_tunnels_of_rules hLoad
      (hRoutes con hCon route hRoute) hTun hDirect
    have hPos := (demand_pos_iff tun _).mpr
      ⟨con, hCon, hNeeds⟩
    have hHere := hAfter tun hMem
    rw [hDirect, hNull] at hHere
    have hAttended := checkSshTunnel_attended
      (by rw [hExact tun hMem]; exact hPos) hHere
    rw [hExact tun hMem] at hAttended
    cases hAttended with
    | running hPid hWait hKept =>
        exact .running hPid hWait hKept
    | throttled hSoon => exact .throttled hSoon
    | forked hPid hPipes => exact .forked hPid hPipes
  · intro tun hMem hNone
    have hHere := hAfter tun hMem
    split at hHere
    · rw [hHere, hExact tun hMem]
      exact .inl rfl
    · have hZero : (marked tun.id).mark = 0 := by
        rw [hExact tun hMem]
        have hNot := mt (demand_pos_iff tun _).mp
          fun ⟨con, hCon, hNeeds⟩ => hNone con hCon hNeeds
        exact Nat.eq_zero_of_not_pos hNot
      have hPid := checkSshTunnel_unneeded hZero hHere
      rw [hExact tun hMem] at hPid
      exact hPid

/- A proxy whose only rule leads through a tunnel. -/
def tunnelRuleWorld : ConfigWorld :=
  { oneRuleWorld with
    files := fun _ =>
      some
        ⟨field "ssh a" ++ [10] ++ field "socksPort 9" ++
          [10] ++ field "proxy p" ++ [10] ++
          field "route via a" ++ [10], false⟩ }

def tunnelRuleLoad : ConfigLoad :=
  match configFileParse tunnelRuleWorld 0 [] (field "config")
      (ConfigLoad.init tunnelRuleWorld.junkLog) with
  | .returned _ load => load
  | _ => ConfigLoad.init tunnelRuleWorld.junkLog

def tunnelRule : RouteRule :=
  (tunnelRuleLoad.config.rules.getLast?).getD defaultDirect

/- A connection that waits for that tunnel. -/
def tunnelRuleProxy : ProxyInstance :=
  { waitingProxy with
    clientConnectionList :=
      waitingProxy.clientConnectionList.map fun snap =>
        { snap with
          con :=
            { snap.con with
              route := some (.listed 0 tunnelRule) } } }

theorem checkSshTunnels_attends_tunnelRule :
    ∃ checks after,
      checkSshTunnels [tunnelRuleProxy]
          tunnelRuleLoad.config.tunnels (fun _ => quietCalls)
          (fun _ => newSshRuntime 8 8) =
        some (checks, after) ∧
        Attendance tunnelRuleLoad [tunnelRuleProxy]
          (fun _ => quietCalls) (fun _ => newSshRuntime 8 8)
          after := by
  have hParse :
      configFileParse tunnelRuleWorld 0 [] (field "config")
          (ConfigLoad.init tunnelRuleWorld.junkLog) =
        .returned true tunnelRuleLoad := by
    decide +kernel
  have hRule : tunnelRule ∈ tunnelRuleLoad.config.rules := by
    decide +kernel
  refine checkSshTunnels_attends (.file .init hParse) ?_ ?_ _
  · intro con hMem route hRoute
    rcases List.mem_singleton.mp hMem with rfl
    rw [← Option.some.inj hRoute, RoutePtr.deref]
    exact hRule
  · exact fun _ =>
      ⟨Option.some_ne_none _, Option.some_ne_none _⟩

end SmartSOCKSProxy
