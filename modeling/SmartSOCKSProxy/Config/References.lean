import SmartSOCKSProxy.Config.Changes

/-
  What a configuration points to.

  Settings name log files, and rules name tunnels, by
  pointers.  However a configuration came about, they point
  to objects of its lists.

  Key definitions include:
    * `ProxyConfig.Resolved`, `ConfigLoad.Resolved`

  Key theorems include:
    * `ParsedRule.mem_tunnels`
    * `ConfigChange.resolved`
    * `configured_resolved`
-/

namespace SmartSOCKSProxy

------------------------------------------------------------
-- Tunnels of Rules
------------------------------------------------------------

/- What parsed names stand for is in the list. -/
theorem ParsedRule.mem_tunnels
    {sshTunnelList : List SshTunnel}
    {route : RouteRule}
    (hParsed : ParsedRule sshTunnelList route)
    {tun : SshTunnel}
    (hTun : tun ∈ route.tunnels) :
    tun ∈ sshTunnelList := by
  rcases hParsed with
    ⟨junk, strIn, filename, lineNum, hParse⟩
  rw [parseRouteRuleSpec_eq] at hParse
  rcases freshRule_terminated junk filename lineNum with
    ⟨hFresh, hNone⟩
  have hHolds := (parseTokens_tunnels hFresh hNone hParse).2
  have hFront := mem_take_of_mem_untilNull hHolds.ended hTun
  rw [hHolds.front] at hFront
  rcases List.mem_map.mp hFront with ⟨name, _, hNamed⟩
  exact List.mem_of_find?_eq_some hNamed

/- What the rule sees of a changed tunnel. -/
theorem tunnels_refresh
    (ssh : SshTunnel)
    (route : RouteRule) :
    (route.refresh ssh).tunnels =
      route.tunnels.map fun tun =>
        if tun.id = ssh.id then ssh else tun := by
  unfold RouteRule.tunnels RouteRule.refresh
  dsimp only
  rw [Vector.toList_map]
  exact untilNull_map _ _

------------------------------------------------------------
-- Pointers
------------------------------------------------------------

/- The pointers of a proxy instance. -/
structure ProxyConfig.Resolved
    (config : Configuration)
    (proxy : ProxyConfig) : Prop where
  log : ∀ address ∈ proxy.log.file,
    address ∈ config.logAddresses
  tunnels : ∀ route ∈ proxy.routeRuleList,
    ∀ tun ∈ route.tunnels, tun ∈ config.tunnels

/- The numbers of the three special tunnels. -/
def specialIds : List Nat :=
  [sshTunnelDirect.id, sshTunnelSocksProxy.id,
    sshTunnelNull.id]

/-
  Log files are numbered in the order in which they came, and
  no two tunnels have the same number.  The tunnels of rules
  and the log files that are set are objects of the lists, as
  they are now.
-/
structure ConfigLoad.Resolved
    (load : ConfigLoad) : Prop where
  logAddresses :
    load.config.logAddresses =
      (List.range' 1 load.config.logFileList.length).reverse
  logFileDefault : load.config.logFileDefault.address = 0
  ids : (load.config.tunnels.map SshTunnel.id).Nodup
  idPool : ∀ tun ∈ load.config.tunnels,
    tun.id ≤ load.sshIdPool
  special :
    specialIds ⊆ load.config.tunnels.map SshTunnel.id
  defaultPool :
    load.config.sshDefault.tunnel.id ≤ load.sshIdPool
  sshDefault :
    load.config.sshDefault.tunnel.id ∉
      load.config.tunnels.map SshTunnel.id
  mainLog : ∀ address ∈ load.config.mainConf.log.file,
    address ∈ load.config.logAddresses
  proxies : ∀ ref,
    (load.config.proxy ref).Resolved load.config

theorem ids_init
    (junkLog : Nat → LogConfig) :
    (ConfigLoad.init junkLog).config.tunnels.map
      SshTunnel.id = [3, 2, 1] := rfl

theorem resolved_init
    (junkLog : Nat → LogConfig) :
    (ConfigLoad.init junkLog).Resolved where
  logAddresses := rfl
  logFileDefault := rfl
  ids := by
    rw [ids_init]
    decide
  idPool := by
    intro tun hTun
    have hId : tun.id ∈ [3, 2, 1] :=
      ids_init junkLog ▸ List.mem_map_of_mem hTun
    change tun.id ≤ 4
    simp at hId
    omega
  special := by
    rw [ids_init]
    decide
  defaultPool := Nat.le_refl 4
  sshDefault := by
    rw [ids_init]
    change 4 ∉ [3, 2, 1]
    decide
  mainLog := by
    intro address hAddress
    cases hAddress
  proxies := by
    intro ref
    have hDefault :
        (ConfigLoad.init junkLog).config.proxy ref =
          (ConfigLoad.init junkLog).config.proxyDefault := by
      cases ref with
      | default => rfl
      | listed index => rfl
    rw [hDefault]
    refine ⟨?_, List.forall_mem_nil _⟩
    intro address hAddress
    cases hAddress

------------------------------------------------------------
-- Changes Keep Them
------------------------------------------------------------

/- More log files, and the tunnels that there were. -/
theorem ProxyConfig.Resolved.mono
    {config config' : Configuration}
    {proxy : ProxyConfig}
    (hProxy : proxy.Resolved config)
    (hLogs : config.logAddresses ⊆ config'.logAddresses)
    (hTunnels : config.tunnels ⊆ config'.tunnels) :
    proxy.Resolved config' where
  log := fun address hAddress =>
    hLogs (hProxy.log address hAddress)
  tunnels := fun route hRoute tun hTun =>
    hTunnels (hProxy.tunnels route hRoute tun hTun)

theorem proxy_updateProxy
    (config : Configuration)
    (f : ProxyConfig → ProxyConfig)
    (changed ref : ProxyRef) :
    (config.updateProxy f changed).proxy ref =
        config.proxy ref ∨
      (config.updateProxy f changed).proxy ref =
        f (config.proxy ref) := by
  cases changed with
  | default =>
      cases ref with
      | default => exact .inr rfl
      | listed index =>
          dsimp only [Configuration.updateProxy,
            Configuration.proxy]
          rw [List.getD_eq_getElem?_getD,
            List.getD_eq_getElem?_getD]
          cases config.proxyInstanceList[index]? with
          | none => exact .inr rfl
          | some proxy => exact .inl rfl
  | listed i =>
      cases ref with
      | default => exact .inl rfl
      | listed index =>
          dsimp only [Configuration.updateProxy,
            Configuration.proxy]
          rw [List.getD_eq_getElem?_getD,
            List.getD_eq_getElem?_getD, List.getElem?_modify]
          cases config.proxyInstanceList[index]? with
          | none => exact .inl rfl
          | some proxy =>
              by_cases hSame : i = index
              · exact .inr (by simp [hSame])
              · exact .inl (by simp [hSame])

theorem proxy_append
    (config : Configuration)
    (proxy : ProxyConfig)
    (ref : ProxyRef) :
    Configuration.proxy
        { config with
          proxyInstanceList :=
            config.proxyInstanceList ++ [proxy] } ref =
        config.proxy ref ∨
      Configuration.proxy
        { config with
          proxyInstanceList :=
            config.proxyInstanceList ++ [proxy] } ref =
        proxy := by
  cases ref with
  | default => exact .inl rfl
  | listed index =>
      dsimp only [Configuration.proxy]
      rw [List.getD_eq_getElem?_getD,
        List.getD_eq_getElem?_getD]
      rcases Nat.lt_trichotomy index
        config.proxyInstanceList.length with
        hBefore | hNew | hBehind
      · rw [List.getElem?_append_left hBefore]
        exact .inl rfl
      · rw [hNew, List.getElem?_concat_length]
        exact .inr rfl
      · have hLength :
            (config.proxyInstanceList ++ [proxy]).length ≤
              index := by
          rw [List.length_append]
          exact hBehind
        rw [List.getElem?_eq_none hLength,
          List.getElem?_eq_none (Nat.le_of_lt hBehind)]
        exact .inl rfl

namespace ConfigLoad.Resolved

variable {load : ConfigLoad}
variable (hLoad : load.Resolved)
include hLoad

/- A proxy instance changes, and no other object. -/
theorem updateProxy
    {f : ProxyConfig → ProxyConfig}
    (hKeeps : ∀ proxy : ProxyConfig,
      proxy.Resolved load.config →
        (f proxy).Resolved load.config)
    (ref : ProxyRef)
    (serviceIdPool : UInt64)
    (mallocs : Nat) :
    ConfigLoad.Resolved
      { load with
        serviceIdPool
        mallocs
        config := load.config.updateProxy f ref } := by
  have hProxies : ∀ other,
      ((load.config.updateProxy f ref).proxy other).Resolved
        load.config := by
    intro other
    rcases proxy_updateProxy load.config f ref other with
      hOther | hOther
    · rw [hOther]
      exact hLoad.proxies other
    · rw [hOther]
      exact hKeeps _ (hLoad.proxies other)
  cases ref with
  | default =>
      exact
        { hLoad with
          proxies := fun other =>
            (hProxies other).mono (List.Subset.refl _)
              (List.Subset.refl _) }
  | listed index =>
      exact
        { hLoad with
          proxies := fun other =>
            (hProxies other).mono (List.Subset.refl _)
              (List.Subset.refl _) }

/- A new log file gets the next number. -/
theorem findOrCreateLogFile
    (filename : Text) :
    ConfigLoad.Resolved
      { load with
        config :=
          (SmartSOCKSProxy.findOrCreateLogFile load.config
            filename).1 } := by
  unfold SmartSOCKSProxy.findOrCreateLogFile
  cases findLogFile load.config.logFileList filename with
  | some log => exact hLoad
  | none =>
      have hMore : ∀ addresses address : List Nat,
          addresses ⊆ address ++ addresses :=
        fun _ _ => List.subset_append_right _ _
      refine
        { hLoad with
          logAddresses := ?_
          mainLog := fun address hAddress =>
            List.mem_cons_of_mem _
              (hLoad.mainLog address hAddress)
          proxies := fun ref =>
            (hLoad.proxies ref).mono
              (List.subset_cons_self _ _)
              (List.Subset.refl _) }
      have hOld := hLoad.logAddresses
      unfold Configuration.logAddresses at hOld ⊢
      dsimp only
      rw [List.map_cons, hOld, List.length_cons,
        List.range'_1_concat, List.reverse_append, Nat.add_comm]
      rfl

/- The limits of a log file are set. -/
theorem updateLogFile
    (address : Nat)
    {f : LogFileConfig → LogFileConfig}
    (hKeeps : ∀ log, (f log).address = log.address) :
    ConfigLoad.Resolved
      { load with
        config := load.config.updateLogFile address f } := by
  unfold Configuration.updateLogFile
  split
  · exact
      { hLoad with
        logFileDefault :=
          (hKeeps _).trans hLoad.logFileDefault
        proxies := fun ref =>
          (hLoad.proxies ref).mono (List.Subset.refl _)
            (List.Subset.refl _) }
  · have hSame :
        (updateWhere (fun log => log.address = address) f
          load.config.logFileList).map
            LogFileConfig.address =
          load.config.logAddresses := by
      unfold updateWhere Configuration.logAddresses
      rw [List.map_map]
      apply List.map_congr_left
      intro log _
      simp only [Function.comp_apply]
      split
      · exact hKeeps log
      · rfl
    have hLength :
        (updateWhere (fun log => log.address = address) f
          load.config.logFileList).length =
          load.config.logFileList.length :=
      List.length_map _
    have hAll :
        load.config.logAddresses ⊆
          (updateWhere (fun log => log.address = address) f
            load.config.logFileList).map
              LogFileConfig.address :=
      hSame ▸ List.Subset.refl _
    exact
      { hLoad with
        logAddresses :=
          hSame.trans (hLength ▸ hLoad.logAddresses)
        mainLog := fun number hNumber =>
          hAll (hLoad.mainLog number hNumber)
        proxies := fun ref =>
          (hLoad.proxies ref).mono hAll
            (List.Subset.refl _) }

end ConfigLoad.Resolved

section Tunnels

variable {config : Configuration}
variable (id : Nat)
variable {f : SshConfig → SshConfig}
variable (hKeeps : ∀ ssh, (f ssh).tunnel.id = ssh.tunnel.id)
include hKeeps

theorem ids_updateSsh :
    (config.updateSsh id f).tunnels.map SshTunnel.id =
      config.tunnels.map SshTunnel.id := by
  unfold Configuration.updateSsh Configuration.tunnels
    updateWhere
  dsimp only
  rw [List.map_map, List.map_map, List.map_map]
  apply List.map_congr_left
  intro ssh _
  simp only [Function.comp_apply]
  split
  · exact hKeeps ssh
  · rfl

/-
  What rules see of a tunnel that is changed is the tunnel of
  the list.  The default tunnel, which an unknown number
  stands for, is none of theirs.
-/
theorem refreshed_mem_tunnels
    (hDefault :
      config.sshDefault.tunnel.id ∉
        config.tunnels.map SshTunnel.id)
    {tun : SshTunnel}
    (hTun : tun ∈ config.tunnels) :
    (if tun.id = (f (config.ssh id)).tunnel.id then
        (f (config.ssh id)).tunnel
      else tun) ∈ (config.updateSsh id f).tunnels := by
  rcases List.mem_map.mp hTun with ⟨ssh, hSsh, rfl⟩
  have hUpdated : ∀ ssh ∈ config.sshTunnelList,
      (if ssh.tunnel.id = id then f ssh else ssh).tunnel ∈
        (config.updateSsh id f).tunnels := by
    intro ssh hMem
    refine List.mem_map_of_mem (List.mem_map.mpr
      ⟨ssh, hMem, ?_⟩)
    simp only [decide_eq_true_eq]
  have hOther : ssh.tunnel.id ≠ config.sshDefault.tunnel.id :=
    fun hSame => hDefault
      (hSame ▸ List.mem_map_of_mem hTun)
  rw [hKeeps]
  unfold Configuration.ssh
  cases hFind : config.sshTunnelList.find? fun ssh =>
      decide (ssh.tunnel.id = id) with
  | none =>
      have hNot : ¬ssh.tunnel.id = id := by
        simpa using List.find?_eq_none.mp hFind ssh hSsh
      have hMem := hUpdated ssh hSsh
      rw [if_neg hNot] at hMem
      rw [Option.getD_none, if_neg hOther]
      exact hMem
  | some found =>
      have hFound : found.tunnel.id = id := by
        simpa using List.find?_some hFind
      rw [Option.getD_some, hFound]
      by_cases hSame : ssh.tunnel.id = id
      · have hMem := hUpdated found
          (List.mem_of_find?_eq_some hFind)
        rw [if_pos hFound] at hMem
        rw [if_pos hSame]
        exact hMem
      · have hMem := hUpdated ssh hSsh
        rw [if_neg hSame] at hMem
        rw [if_neg hSame]
        exact hMem

/- The pointers of a proxy whose rules see the change. -/
theorem resolved_refresh
    (hDefault :
      config.sshDefault.tunnel.id ∉
        config.tunnels.map SshTunnel.id)
    {proxy : ProxyConfig}
    (hProxy : proxy.Resolved config) :
    (proxy.refresh (f (config.ssh id)).tunnel).Resolved
      (config.updateSsh id f) where
  log := hProxy.log
  tunnels := by
    intro route hRoute tun hTun
    rcases List.mem_map.mp hRoute with ⟨old, hOld, rfl⟩
    rw [tunnels_refresh] at hTun
    rcases List.mem_map.mp hTun with ⟨before, hBefore, rfl⟩
    exact refreshed_mem_tunnels id hKeeps hDefault
      (hProxy.tunnels old hOld before hBefore)

end Tunnels

theorem proxy_updateSsh
    (config : Configuration)
    (id : Nat)
    (f : SshConfig → SshConfig)
    (ref : ProxyRef) :
    (config.updateSsh id f).proxy ref =
      (config.proxy ref).refresh
        (f (config.ssh id)).tunnel := by
  cases ref with
  | default => rfl
  | listed index =>
      dsimp only [Configuration.updateSsh, Configuration.proxy]
      rw [List.getD_eq_getElem?_getD,
        List.getD_eq_getElem?_getD, List.getElem?_map]
      cases config.proxyInstanceList[index]? with
      | none => rfl
      | some proxy => rfl

namespace ConfigLoad.Resolved

variable {load : ConfigLoad}
variable (hLoad : load.Resolved)
include hLoad

/- A tunnel changes, and the rules see it change. -/
theorem updateSsh
    (id : Nat)
    {f : SshConfig → SshConfig}
    (hKeeps : ∀ ssh, (f ssh).tunnel.id = ssh.tunnel.id) :
    ConfigLoad.Resolved
      { load with
        config := load.config.updateSsh id f } := by
  have hIds : (load.config.updateSsh id f).tunnels.map
      SshTunnel.id = load.config.tunnels.map SshTunnel.id :=
    ids_updateSsh id hKeeps
  have hDefault :
      (load.config.updateSsh id f).sshDefault.tunnel.id =
        load.config.sshDefault.tunnel.id := by
    unfold Configuration.updateSsh
    dsimp only
    split
    · exact hKeeps _
    · rfl
  refine
    { logAddresses := hLoad.logAddresses
      logFileDefault := hLoad.logFileDefault
      ids := ?_
      idPool := ?_
      special := ?_
      defaultPool := ?_
      sshDefault := ?_
      mainLog := hLoad.mainLog
      proxies := ?_ }
  · exact hIds ▸ hLoad.ids
  · intro tun hTun
    have hMem := List.mem_map_of_mem (f := SshTunnel.id) hTun
    rw [hIds] at hMem
    rcases List.mem_map.mp hMem with ⟨old, hOld, hSame⟩
    rw [← hSame]
    exact hLoad.idPool old hOld
  · exact hIds ▸ hLoad.special
  · exact hDefault ▸ hLoad.defaultPool
  · rw [hDefault, hIds]
    exact hLoad.sshDefault
  · intro ref
    change ((load.config.updateSsh id f).proxy ref).Resolved
      (load.config.updateSsh id f)
    rw [proxy_updateSsh]
    exact resolved_refresh id hKeeps hLoad.sshDefault
      (hLoad.proxies ref)

/- Log settings are set, and the file is one of the list. -/
theorem setLog
    {f : LogConfig → LogConfig}
    (hFile : ∀ log : LogConfig,
      (∀ address ∈ log.file,
        address ∈ load.config.logAddresses) →
      ∀ address ∈ (f log).file,
        address ∈ load.config.logAddresses)
    (owner : LogOwner) :
    ConfigLoad.Resolved
      { load with config := load.config.setLog f owner } := by
  cases owner with
  | main =>
      exact
        { hLoad with
          mainLog := hFile _ hLoad.mainLog
          proxies := fun ref =>
            (hLoad.proxies ref).mono (List.Subset.refl _)
              (List.Subset.refl _) }
  | proxy ref =>
      exact hLoad.updateProxy
        (f := fun proxy => { proxy with log := f proxy.log })
        (fun proxy hProxy =>
          ⟨hFile _ hProxy.log, hProxy.tunnels⟩)
        ref _ _
  | ssh id =>
      exact hLoad.updateSsh id
        (f := fun ssh => { ssh with log := f ssh.log })
        fun _ => rfl

theorem newProxy
    (name : CBuf 1024) :
    ConfigLoad.Resolved
      { load with
        config :=
          { load.config with
            proxyInstanceList :=
              load.config.proxyInstanceList ++
                [{ name
                   log := load.config.proxyDefault.log
                   serviceList := []
                   routeRuleList := [] }] } } := by
  refine
    { hLoad with
      proxies := ?_ }
  intro ref
  have hRef : ProxyConfig.Resolved load.config
      (Configuration.proxy
        { load.config with
          proxyInstanceList :=
            load.config.proxyInstanceList ++
              [{ name
                 log := load.config.proxyDefault.log
                 serviceList := []
                 routeRuleList := [] }] } ref) := by
    rcases proxy_append load.config _ ref with hOld | hNew
    · rw [hOld]
      exact hLoad.proxies ref
    · rw [hNew]
      exact ⟨(hLoad.proxies .default).log,
        List.forall_mem_nil _⟩
  exact hRef.mono (List.Subset.refl _) (List.Subset.refl _)

theorem newTunnel
    (world : ConfigWorld)
    (name : CBuf 200) :
    ConfigLoad.Resolved
      { load with
        sshIdPool := load.sshIdPool + 1
        config :=
          { load.config with
            sshTunnelList :=
              newSshConfig world (load.sshIdPool + 1) name ::
                load.config.sshTunnelList } } where
  logAddresses := hLoad.logAddresses
  logFileDefault := hLoad.logFileDefault
  ids := by
    refine List.nodup_cons.mpr ⟨?_, hLoad.ids⟩
    intro hOld
    rcases List.mem_map.mp hOld with ⟨tun, hTun, hSame⟩
    have hPool := hLoad.idPool tun hTun
    rw [hSame] at hPool
    exact Nat.not_succ_le_self _ hPool
  idPool := by
    intro tun hTun
    rcases List.mem_cons.mp hTun with rfl | hTun
    · exact Nat.le_refl _
    · exact Nat.le_succ_of_le (hLoad.idPool tun hTun)
  special := fun id hId =>
    List.mem_cons_of_mem _ (hLoad.special hId)
  defaultPool := Nat.le_succ_of_le hLoad.defaultPool
  sshDefault := by
    intro hMem
    rcases List.mem_cons.mp hMem with hNew | hOld
    · have hPool := hLoad.defaultPool
      dsimp only at hNew
      rw [hNew] at hPool
      exact Nat.not_succ_le_self _ hPool
    · exact hLoad.sshDefault hOld
  mainLog := hLoad.mainLog
  proxies := fun ref =>
    (hLoad.proxies ref).mono (List.Subset.refl _)
      (List.subset_cons_self _ _)

theorem newRules
    {rules : List RouteRule}
    (hParsed : ∀ route ∈ rules,
      ParsedRule load.config.tunnels route)
    (ref : ProxyRef)
    (mallocs : Nat) :
    ConfigLoad.Resolved
      { load with
        mallocs := mallocs
        config :=
          load.config.updateProxy
            (fun proxy =>
              { proxy with
                routeRuleList :=
                  (load.config.proxy ref).routeRuleList ++
                    rules })
            ref } := by
  refine hLoad.updateProxy (fun proxy hProxy => ?_) ref _ _
  refine ⟨hProxy.log, fun route hRoute tun hTun => ?_⟩
  rcases List.mem_append.mp hRoute with hOld | hNew
  · exact (hLoad.proxies ref).tunnels route hOld tun hTun
  · exact (hParsed route hNew).mem_tunnels hTun

end ConfigLoad.Resolved

theorem ConfigChange.resolved
    {world : ConfigWorld}
    {load load' : ConfigLoad}
    (hChange : ConfigChange world load load')
    (hLoad : load.Resolved) :
    load'.Resolved := by
  cases hChange with
  | ulimit ulimit =>
      exact
        { hLoad with
          proxies := fun ref =>
            (hLoad.proxies ref).mono (List.Subset.refl _)
              (List.Subset.refl _) }
  | newLogFile filename =>
      exact hLoad.findOrCreateLogFile filename
  | limits address f hKeeps =>
      exact hLoad.updateLogFile address
        fun log => (hKeeps log).1
  | logsTo owner address hListed =>
      refine hLoad.setLog (fun log _ number hNumber => ?_)
        owner
      cases hNumber
      exact hListed
  | level owner level =>
      exact hLoad.setLog
        (f := fun log => { log with level })
        (fun log hLog => hLog) owner
  | newProxy name => exact hLoad.newProxy name
  | newTunnel name => exact hLoad.newTunnel world name
  | tunnel id f hKeeps =>
      exact hLoad.updateSsh id
        fun ssh => (hKeeps ssh.tunnel).1
  | newService ref srv =>
      exact hLoad.updateProxy
        (f := fun proxy =>
          { proxy with
            serviceList := srv :: proxy.serviceList })
        (fun proxy hProxy => ⟨hProxy.log, hProxy.tunnels⟩)
        ref _ _
  | newRules ref rules mallocs hParsed =>
      exact hLoad.newRules hParsed ref mallocs

theorem Changes.resolved
    {world : ConfigWorld}
    {load load' : ConfigLoad}
    (hChanges : Changes world load load')
    (hLoad : load.Resolved) :
    load'.Resolved := by
  induction hChanges with
  | refl => exact hLoad
  | tail _ hChange ih => exact hChange.resolved ih

/-
  Whatever files were read and whatever options there were,
  nothing points to an object that is not listed, and every
  rule sees its tunnels with the settings that they got last.
-/
theorem configured_resolved
    {world : ConfigWorld}
    {load : ConfigLoad}
    (hConfigured : Configured world load) :
    load.Resolved :=
  hConfigured.changes.resolved
    (resolved_init world.junkLog)

theorem configured_resolved_oneRule :
    oneRuleLoad.Resolved :=
  configured_resolved oneRuleLoad_configured

end SmartSOCKSProxy
