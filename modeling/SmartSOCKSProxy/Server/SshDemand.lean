import SmartSOCKSProxy.Config.RuleArrays
import SmartSOCKSProxy.Foundations.Counters
import SmartSOCKSProxy.Server.BuildJson

/-
  Which tunnels are needed.

  Before the main thread checks the tunnels it counts, for
  each of them, the connections that use it and the places
  where a waiting connection's rule lists it.

  Key definitions include:
    * `markConnection`, `markTunnels`, `checkSshTunnels`
    * `usesTunnel`, `waitsFor`

  Key theorems include:
    * `markTunnels_exact`
    * `checkSshTunnels_exact`
-/

namespace SmartSOCKSProxy

------------------------------------------------------------
-- Marking
------------------------------------------------------------

/- The run-time fields of the tunnels, by the tunnel's id. -/
abbrev TunnelTable := Nat → SshRuntime

/- Marks and connections are counted together. -/
def SshRuntime.addCounts
    (counts : Nat × Nat)
    (ssh : SshRuntime) : SshRuntime :=
  { ssh with
    mark := ssh.mark + counts.1
    connectionCount := ssh.connectionCount + counts.2 }

theorem SshRuntime.addCounts_add
    (counts counts' : Nat × Nat)
    (ssh : SshRuntime) :
    ssh.addCounts (counts + counts') =
      (ssh.addCounts counts').addCounts counts := by
  unfold addCounts
  rw [Prod.fst_add, Prod.snd_add, Nat.add_comm counts.1,
    Nat.add_comm counts.2, Nat.add_assoc, Nat.add_assoc]

instance : AddAction (Nat × Nat) SshRuntime where
  vadd := SshRuntime.addCounts
  zero_vadd := fun _ => rfl
  add_vadd := SshRuntime.addCounts_add

/- `ssh->mark=0; ssh->connection_count=0` -/
def SshRuntime.unmarked
    (ssh : SshRuntime) : SshRuntime :=
  { ssh with
    mark := 0
    connectionCount := 0 }

/- What is counted from zero on is the amount. -/
theorem SshRuntime.addCounts_unmarked
    (counts : Nat × Nat)
    (ssh : SshRuntime) :
    ssh.unmarked.addCounts counts =
      { ssh with
        mark := counts.1
        connectionCount := counts.2 } := by
  unfold addCounts unmarked
  rw [Nat.zero_add, Nat.zero_add]

/- `tunnel->mark++` -/
def incrementMark
    (table : TunnelTable)
    (tunnel : SshTunnel) : TunnelTable :=
  applyAt (fun ssh => { ssh with mark := ssh.mark + 1 })
    table tunnel.id

/- `tunnel->connection_count++` -/
def incrementConnectionCount
    (table : TunnelTable)
    (tunnel : SshTunnel) : TunnelTable :=
  applyAt
    (fun ssh =>
      { ssh with
        connectionCount := ssh.connectionCount + 1 })
    table tunnel.id

/-
  `for (int i=0; list[i]; i++) list[i]->mark++`, without a
  result when it reads behind the array.
-/
def markListed
    (table : TunnelTable) :
    List (Option SshTunnel) → Option TunnelTable
  | [] => none
  | none :: _ => some table
  | some tunnel :: list =>
      markListed (incrementMark table tunnel) list

/- The body of the loop over the connections. -/
def markConnection
    (table : TunnelTable)
    (con : ClientConnection) : Option TunnelTable :=
  match con.route with
  | none => some table
  | some route =>
      match con.tunnel with
      | some tunnel =>
          some
            (incrementConnectionCount
              (incrementMark table tunnel) tunnel)
      | none => markListed table route.deref.tunnel.toList

def markProxy
    (table : TunnelTable)
    (proxy : ProxyInstance) : Option TunnelTable :=
  proxy.clientConnectionList.foldlM
    (fun table con => markConnection table con.con) table

/- The marking phase of `check_ssh_tunnels()` -/
def markTunnels
    (proxyInstanceList : List ProxyInstance)
    (sshTunnelList : List SshTunnel)
    (table : TunnelTable) : Option TunnelTable :=
  proxyInstanceList.foldlM markProxy
    ((sshTunnelList.map SshTunnel.id).foldl
      (applyAt SshRuntime.unmarked) table)

------------------------------------------------------------
-- Checking
------------------------------------------------------------

/-
  The calls of check_ssh_tunnel(), each with the fields of
  the tunnel as they are then, and the table afterwards.
-/
def checkListed
    (calls : Nat → CheckCalls)
    (table : TunnelTable) :
    List SshTunnel → Option (List TunnelSnapshot × TunnelTable)
  | [] => some ([], table)
  | ssh :: sshTunnelList =>
      if ssh.isDirect || ssh.isNull then
        checkListed calls table sshTunnelList
      else do
        let runtime ←
          checkSshTunnel (table ssh.id) (calls ssh.id)
        let (checks, after) ← checkListed calls
          (Function.update table ssh.id runtime)
          sshTunnelList
        some (⟨ssh, table ssh.id⟩ :: checks, after)

/- The calls that are made, when all of them return. -/
def checkSshTunnels
    (proxyInstanceList : List ProxyInstance)
    (sshTunnelList : List SshTunnel)
    (calls : Nat → CheckCalls)
    (table : TunnelTable) :
    Option (List TunnelSnapshot × TunnelTable) := do
  let table ←
    markTunnels proxyInstanceList sshTunnelList table
  checkListed calls table sshTunnelList

------------------------------------------------------------
-- Demand
------------------------------------------------------------

/- The connections of all proxy instances. -/
def connections
    (proxyInstanceList : List ProxyInstance) :
    List ClientConnection :=
  proxyInstanceList.flatMap fun proxy =>
    proxy.clientConnectionList.map ConnectionSnapshot.con

/- The connection has a route, and uses the tunnel. -/
def usesTunnel
    (id : Nat)
    (con : ClientConnection) : Bool :=
  con.route.isSome &&
    con.tunnel.any fun used => used.id = id

/-
  How often the tunnel is listed by the route of a connection
  that has no tunnel yet.
-/
def waitsFor
    (id : Nat)
    (con : ClientConnection) : Nat :=
  match con.route, con.tunnel with
  | some route, none =>
      route.deref.tunnels.countP fun listed => listed.id = id
  | _, _ => 0

/- What a connection adds to marks and connections. -/
def demand
    (con : ClientConnection)
    (id : Nat) : Nat × Nat :=
  ((usesTunnel id con).toNat + waitsFor id con,
    (usesTunnel id con).toNat)

/- The tunnel array of the connection's route has a NULL. -/
def RouteEnds
    (con : ClientConnection) : Prop :=
  ∀ route, con.route = some route →
    Terminated route.deref.tunnel.toList

/- The rules of a configuration are like that. -/
theorem routeEnds_of_configured
    {world : ConfigWorld}
    {load : ConfigLoad}
    (hConfigured : Configured world load)
    {con : ClientConnection}
    (hRoute : ∀ route, con.route = some route →
      route.deref ∈ load.config.rules) :
    RouteEnds con :=
  fun route hSome =>
    hConfigured.rules_terminated (hRoute route hSome)

------------------------------------------------------------
-- What the Loops Add
------------------------------------------------------------

theorem incrementMark_addsUp
    (table : TunnelTable)
    (tunnel : SshTunnel) :
    AddsUp
      (fun id =>
        if tunnel.id = id then ((1, 0) : Nat × Nat) else 0)
      table (incrementMark table tunnel) :=
  AddsUp.of_applyAt ((1, 0) : Nat × Nat) table tunnel.id

theorem incrementConnectionCount_addsUp
    (table : TunnelTable)
    (tunnel : SshTunnel) :
    AddsUp
      (fun id =>
        if tunnel.id = id then ((0, 1) : Nat × Nat) else 0)
      table (incrementConnectionCount table tunnel) :=
  AddsUp.of_applyAt ((0, 1) : Nat × Nat) table tunnel.id

/- One mark for every entry before the NULL. -/
theorem markListed_addsUp
    {list : List (Option SshTunnel)}
    (hEnds : Terminated list)
    (table : TunnelTable) :
    ∃ table', markListed table list = some table' ∧
      AddsUp
        (fun id =>
          (((untilNull list).countP fun listed =>
              listed.id = id,
            0) : Nat × Nat))
        table table' := by
  induction list generalizing table with
  | nil => cases hEnds
  | cons entry list ih =>
      cases entry with
      | none => exact ⟨table, rfl, AddsUp.refl table⟩
      | some tunnel =>
          have hMem : none ∈ list := by
            simpa [Terminated] using hEnds
          rcases ih hMem (incrementMark table tunnel) with
            ⟨table', hRun, hAdds⟩
          refine ⟨table', hRun, ?_⟩
          have hFirst := incrementMark_addsUp table tunnel
          apply (hFirst.trans hAdds).congr
          intro id
          rw [untilNull, List.countP_cons]
          by_cases hSame : tunnel.id = id
          · simp [hSame, Nat.add_comm]
          · simp [hSame]

/- One connection adds its demand. -/
theorem markConnection_addsUp
    {con : ClientConnection}
    (hEnds : RouteEnds con)
    (table : TunnelTable) :
    ∃ table', markConnection table con = some table' ∧
      AddsUp (demand con) table table' := by
  unfold markConnection
  cases hRoute : con.route with
  | none =>
      refine ⟨table, rfl, (AddsUp.refl table).congr ?_⟩
      intro id
      simp [demand, usesTunnel, waitsFor, hRoute,
        Prod.mk_zero_zero]
  | some route =>
      cases hTunnel : con.tunnel with
      | some tunnel =>
          refine ⟨_, rfl, ?_⟩
          have hMark := incrementMark_addsUp table tunnel
          have hCount := incrementConnectionCount_addsUp
            (incrementMark table tunnel) tunnel
          apply (hMark.trans hCount).congr
          intro id
          by_cases hSame : tunnel.id = id
          · simp [demand, usesTunnel, waitsFor, hRoute,
              hTunnel, hSame]
          · simp [demand, usesTunnel, waitsFor, hRoute,
              hTunnel, hSame, Prod.mk_zero_zero]
      | none =>
          rcases markListed_addsUp (hEnds route hRoute) table
            with ⟨table', hRun, hAdds⟩
          refine ⟨table', hRun, hAdds.congr ?_⟩
          intro id
          simp [demand, usesTunnel, waitsFor, hRoute,
            hTunnel, RouteRule.tunnels]

/- The connections of one proxy instance. -/
theorem markProxy_addsUp
    {proxy : ProxyInstance}
    (hEnds : ∀ con ∈ proxy.clientConnectionList,
      RouteEnds con.con)
    (table : TunnelTable) :
    ∃ table', markProxy table proxy = some table' ∧
      AddsUp
        (fun id =>
          (proxy.clientConnectionList.map fun con =>
            demand con.con id).sum)
        table table' :=
  AddsUp.foldlM
    (fun con hMem =>
      markConnection_addsUp (hEnds con hMem))
    table

/- The connections of all proxy instances. -/
theorem markProxies_addsUp
    {proxyInstanceList : List ProxyInstance}
    (hEnds : ∀ con ∈ connections proxyInstanceList,
      RouteEnds con)
    (table : TunnelTable) :
    ∃ table',
      proxyInstanceList.foldlM markProxy table =
          some table' ∧
        AddsUp
          (fun id =>
            ((connections proxyInstanceList).map fun con =>
              demand con id).sum)
          table table' := by
  have hStep :
      ∀ proxy ∈ proxyInstanceList, ∀ table, ∃ table',
        markProxy table proxy = some table' ∧
          AddsUp
            (fun id =>
              (proxy.clientConnectionList.map fun con =>
                demand con.con id).sum)
            table table' := by
    intro proxy hProxy
    apply markProxy_addsUp
    intro con hMem
    apply hEnds
    exact List.mem_flatMap.mpr
      ⟨proxy, hProxy, List.mem_map_of_mem hMem⟩
  rcases AddsUp.foldlM hStep table with
    ⟨table', hRun, hAdds⟩
  refine ⟨table', hRun, hAdds.congr ?_⟩
  intro id
  unfold connections
  rw [List.flatMap_def, List.map_flatten, List.sum_flatten]
  simp only [List.map_map, Function.comp_def]

/- The sum of all demands, as two counts. -/
theorem sum_demand
    (cons : List ClientConnection)
    (id : Nat) :
    (cons.map fun con => demand con id).sum =
      (cons.countP (usesTunnel id) +
          (cons.map (waitsFor id)).sum,
        cons.countP (usesTunnel id)) := by
  induction cons with
  | nil => rfl
  | cons con cons ih =>
      rw [List.map_cons, List.sum_cons, ih,
        List.countP_cons, List.map_cons, List.sum_cons]
      unfold demand
      cases usesTunnel id con with
      | true =>
          simp only [Bool.toNat_true, if_true,
            Prod.mk_add_mk, Prod.mk.injEq]
          omega
      | false =>
          simp only [Bool.toNat_false, Bool.false_eq_true,
            if_false, Prod.mk_add_mk, Prod.mk.injEq]
          omega

/-
  After the marking phase both counters of a listed tunnel
  are exact, and its other fields are as they were.
-/
theorem markTunnels_exact
    {proxyInstanceList : List ProxyInstance}
    (hEnds : ∀ con ∈ connections proxyInstanceList,
      RouteEnds con)
    (sshTunnelList : List SshTunnel)
    (table : TunnelTable) :
    ∃ marked,
      markTunnels proxyInstanceList sshTunnelList table =
          some marked ∧
        ∀ ssh ∈ sshTunnelList,
          marked ssh.id =
            { table ssh.id with
              mark :=
                (connections proxyInstanceList).countP
                    (usesTunnel ssh.id) +
                  ((connections proxyInstanceList).map
                    (waitsFor ssh.id)).sum
              connectionCount :=
                (connections proxyInstanceList).countP
                  (usesTunnel ssh.id) } := by
  rcases markProxies_addsUp hEnds
      ((sshTunnelList.map SshTunnel.id).foldl
        (applyAt SshRuntime.unmarked) table) with
    ⟨marked, hRun, hAdds⟩
  refine ⟨marked, hRun, ?_⟩
  intro ssh hMem
  have hTwice : ∀ ssh : SshRuntime,
      ssh.unmarked.unmarked = ssh.unmarked :=
    fun _ => rfl
  have hReset := foldl_applyAt_of_mem hTwice
    (List.mem_map_of_mem (f := SshTunnel.id) hMem) table
  have hMarked := hAdds ssh.id
  dsimp only at hMarked
  rw [hReset, sum_demand] at hMarked
  rw [hMarked]
  exact SshRuntime.addCounts_unmarked _ _

------------------------------------------------------------
-- What Is Checked
------------------------------------------------------------

/-
  waitpid() is not interrupted for ever, and pipes can be
  made.  Otherwise a check ends the process, or never ends.
-/
structure CheckCalls.Answered
    (calls : CheckCalls) : Prop where
  waits : waitChild calls.waits ≠ none
  pipes : calls.pipes ≠ none

theorem checkExited_mark
    (ssh : SshRuntime)
    (curTime : Int)
    (result : WaitResult) :
    (checkExited ssh curTime result).2.mark = ssh.mark := by
  cases result with
  | running =>
      unfold checkExited
      dsimp only
      split
      · rfl
      · rfl
  | exited _ => rfl
  | failed _ => rfl

theorem forkChild_mark
    (ssh : SshRuntime)
    (pipes : TunnelPipes)
    (fork startTime : Int) :
    (forkChild ssh pipes fork startTime).mark =
      ssh.mark := by
  unfold forkChild
  dsimp only
  split
  · rfl
  · rfl

/- A check that is answered returns, and keeps the mark. -/
theorem checkSshTunnel_answered
    (ssh : SshRuntime)
    {calls : CheckCalls}
    (hAnswered : calls.Answered) :
    ∃ ssh', checkSshTunnel ssh calls = some ssh' ∧
      ssh'.mark = ssh.mark := by
  have hSecond : ∀ isRunning (ssh₁ : SshRuntime),
      ssh₁.mark = ssh.mark → ∃ ssh',
        (if startsChild ssh₁ isRunning calls.now then
          calls.pipes.bind fun pipes =>
            some (forkChild ssh₁ pipes calls.fork
              calls.startTime)
        else some ssh₁) = some ssh' ∧
          ssh'.mark = ssh.mark := by
    intro isRunning ssh₁ hMark
    rcases Option.ne_none_iff_exists'.mp hAnswered.pipes
      with ⟨pipes, hPipes⟩
    rw [hPipes, Option.bind_some]
    split
    · exact ⟨_, rfl,
        (forkChild_mark ssh₁ _ _ _).trans hMark⟩
    · exact ⟨ssh₁, rfl, hMark⟩
  unfold checkSshTunnel
  by_cases hPid : 0 < ssh.pid
  · rcases Option.ne_none_iff_exists'.mp hAnswered.waits
      with ⟨result, hWait⟩
    rw [if_pos hPid, hWait]
    exact hSecond _ _ (checkExited_mark ssh _ result)
  · rw [if_neg hPid]
    exact hSecond false ssh rfl

/-
  Every ordinary tunnel of the list is checked, with the mark
  that it was given.
-/
theorem checkListed_checks
    {calls : Nat → CheckCalls}
    (hAnswered : ∀ id, (calls id).Answered)
    (sshTunnelList : List SshTunnel)
    (table : TunnelTable) :
    ∃ checks after,
      checkListed calls table sshTunnelList =
          some (checks, after) ∧
        checks.map TunnelSnapshot.tunnel =
          sshTunnelList.filter
            (fun ssh => !(ssh.isDirect || ssh.isNull)) ∧
        ∀ check ∈ checks,
          check.runtime.mark =
            (table check.tunnel.id).mark := by
  induction sshTunnelList generalizing table with
  | nil =>
      refine ⟨[], table, ?_, rfl, ?_⟩
      · rw [checkListed]
      · intro check hMem
        cases hMem
  | cons ssh sshTunnelList ih =>
      by_cases hSpecial :
          (ssh.isDirect || ssh.isNull) = true
      · rcases ih table with
          ⟨checks, after, hRun, hTunnels, hMarks⟩
        refine ⟨checks, after, ?_, ?_, hMarks⟩
        · rw [checkListed, if_pos hSpecial]
          exact hRun
        · rw [List.filter_cons_of_neg (by simp [hSpecial])]
          exact hTunnels
      · rcases checkSshTunnel_answered (table ssh.id)
            (hAnswered ssh.id) with
          ⟨runtime, hCheck, hKept⟩
        rcases ih (Function.update table ssh.id runtime)
          with ⟨checks, after, hRun, hTunnels, hMarks⟩
        refine ⟨⟨ssh, table ssh.id⟩ :: checks, after, ?_, ?_,
          ?_⟩
        · rw [checkListed, if_neg hSpecial, hCheck]
          dsimp only [Option.bind_eq_bind, Option.bind_some]
          rw [hRun]
          rfl
        · rw [List.filter_cons_of_pos (by simp [hSpecial]),
            List.map_cons, hTunnels]
        · intro check hMem
          rcases List.mem_cons.mp hMem with rfl | hLater
          · rfl
          · rw [hMarks check hLater]
            by_cases hSame : check.tunnel.id = ssh.id
            · rw [hSame, Function.update_self, hKept]
            · rw [Function.update_of_ne hSame]

/- The marks of one tunnel are those of the loops. -/
theorem conMarks_eq
    (ssh : SshTunnel)
    (con : ClientConnection) :
    conMarks ssh con = demand con ssh.id := by
  unfold conMarks demand usesTunnel waitsFor
  cases con.route with
  | none => rfl
  | some route =>
      cases con.tunnel with
      | none => simp [List.countP_eq_length_filter]
      | some used =>
          by_cases hSame : used.id = ssh.id
          · simp [hSame]
          · simp [hSame]

theorem sshMarks_eq
    (ssh : SshTunnel)
    (cons : List ClientConnection) :
    sshMarks ssh cons =
      (cons.countP (usesTunnel ssh.id) +
          (cons.map (waitsFor ssh.id)).sum,
        cons.countP (usesTunnel ssh.id)) := by
  rw [← sum_demand]
  induction cons with
  | nil => rfl
  | cons con cons ih =>
      rw [sshMarks, ih, conMarks_eq, List.map_cons,
        List.sum_cons]
      rfl

/- A mark for every connection that needs the tunnel. -/
theorem demand_pos_iff
    (ssh : SshTunnel)
    (cons : List ClientConnection) :
    0 < cons.countP (usesTunnel ssh.id) +
        (cons.map (waitsFor ssh.id)).sum ↔
      ∃ con ∈ cons, NeedsTunnel ssh con := by
  rw [← sshMarks_pos_iff, sshMarks_eq]

/-
  Both counters of every listed tunnel are exact, and a
  tunnel other than the direct and the null one is checked
  with a mark if and only if some connection uses it or waits
  for it.
-/
structure ExactDemand
    (proxyInstanceList : List ProxyInstance)
    (sshTunnelList : List SshTunnel)
    (table marked : TunnelTable)
    (checks : List TunnelSnapshot) : Prop where
  counts : ∀ ssh ∈ sshTunnelList,
    marked ssh.id =
      { table ssh.id with
        mark :=
          (connections proxyInstanceList).countP
              (usesTunnel ssh.id) +
            ((connections proxyInstanceList).map
              (waitsFor ssh.id)).sum
        connectionCount :=
          (connections proxyInstanceList).countP
            (usesTunnel ssh.id) }
  checked : ∀ ssh ∈ sshTunnelList,
    ssh.isDirect = false → ssh.isNull = false →
      ((∃ check ∈ checks,
          check.tunnel = ssh ∧ 0 < check.runtime.mark) ↔
        ∃ con ∈ connections proxyInstanceList,
          NeedsTunnel ssh con)

/- The demand for tunnels is determined exactly. -/
theorem checkSshTunnels_exact
    {proxyInstanceList : List ProxyInstance}
    (hEnds : ∀ con ∈ connections proxyInstanceList,
      RouteEnds con)
    (sshTunnelList : List SshTunnel)
    {calls : Nat → CheckCalls}
    (hAnswered : ∀ id, (calls id).Answered)
    (table : TunnelTable) :
    ∃ marked checks after,
      markTunnels proxyInstanceList sshTunnelList table =
          some marked ∧
        checkSshTunnels proxyInstanceList sshTunnelList
            calls table = some (checks, after) ∧
        ExactDemand proxyInstanceList sshTunnelList table
          marked checks := by
  rcases markTunnels_exact hEnds sshTunnelList table with
    ⟨marked, hMark, hExact⟩
  rcases checkListed_checks hAnswered sshTunnelList marked
    with ⟨checks, after, hCheck, hTunnels, hMarks⟩
  refine ⟨marked, checks, after, hMark, ?_, hExact, ?_⟩
  · unfold checkSshTunnels
    rw [hMark]
    exact hCheck
  · intro ssh hMem hDirect hNull
    have hSame := congrArg SshRuntime.mark (hExact ssh hMem)
    dsimp only at hSame
    rw [← demand_pos_iff, ← hSame]
    constructor
    · rintro ⟨check, hCheck, rfl, hPos⟩
      rwa [hMarks check hCheck] at hPos
    · intro hPos
      have hListed : ssh ∈ checks.map TunnelSnapshot.tunnel := by
        rw [hTunnels]
        exact List.mem_filter.mpr
          ⟨hMem, by simp [hDirect, hNull]⟩
      rcases List.mem_map.mp hListed with
        ⟨check, hCheck, rfl⟩
      refine ⟨check, hCheck, rfl, ?_⟩
      rwa [hMarks check hCheck]

/- A connection that waits for its rule's only tunnel. -/
def waitingProxy : ProxyInstance where
  name := CBuf.empty
  logLevel := 0
  logFile := none
  serviceList := []
  clientConnectionList :=
    [{ id := 1
       srv := ⟨1, .none, CBuf.empty, 0⟩
       con :=
         { newClientConnection 3 default with
           route := some (.listed 0 oneRule) }
       srcHost := HostId.init
       urlPath := CBuf.empty
       startTime := 0 }]

/- Every child still runs. -/
def quietCalls : CheckCalls where
  curTime := 0
  waits := [.running]
  now := 0
  pipes := some .closed
  fork := -1
  startTime := 0

theorem checkSshTunnels_exact_waiting :
    ∃ marked checks after,
      markTunnels [waitingProxy] [default, sshTunnelDirect]
          (fun _ => newSshRuntime 8 8) = some marked ∧
        checkSshTunnels [waitingProxy]
            [default, sshTunnelDirect]
            (fun _ => quietCalls)
            (fun _ => newSshRuntime 8 8) =
          some (checks, after) ∧
        ExactDemand [waitingProxy]
          [default, sshTunnelDirect]
          (fun _ => newSshRuntime 8 8) marked checks := by
  refine checkSshTunnels_exact ?_ _ ?_ _
  · intro con hMem
    rcases List.mem_singleton.mp hMem with rfl
    apply routeEnds_of_configured oneRuleLoad_configured
    intro route hRoute
    rw [← Option.some.inj hRoute, RoutePtr.deref]
    exact oneRule_mem
  · exact fun _ =>
      ⟨Option.some_ne_none _, Option.some_ne_none _⟩

end SmartSOCKSProxy
