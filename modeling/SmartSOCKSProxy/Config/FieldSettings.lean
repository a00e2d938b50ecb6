import SmartSOCKSProxy.Config.Changes
import SmartSOCKSProxy.Foundations.Assignments

/-
  Settings of fields.

  Such lines leave in each field what was set last, and
  change nothing when it was there before.  A rule points to
  its tunnels, so that a field of a tunnel is no part of the
  rule.

  Key definitions include:
    * `Configuration.numbered`
    * `ConfigField`, `ConfigSetting`
    * `Configuration.assign`
    * `Configuration.Has`, `Configuration.HasAll`

  Key theorems include:
    * `Configuration.assign_append`
    * `Configuration.assign_eq_iff`
    * `Configuration.numbered_assign_eq_iff`
-/

namespace SmartSOCKSProxy

------------------------------------------------------------
-- Pointers to Tunnels
------------------------------------------------------------

/- What a pointer to a tunnel is: the number of the object. -/
def SshTunnel.numbered
    (tun : SshTunnel) : SshTunnel where
  id := tun.id
  name := CBuf.empty
  socksPort := 0
  commandToRun := CBuf.empty

/- A rule whose tunnels are pointers. -/
def RouteRule.numbered
    (route : RouteRule) : RouteRule :=
  { route with
    tunnel :=
      route.tunnel.map fun entry =>
        entry.map SshTunnel.numbered }

def ProxyConfig.numbered
    (proxy : ProxyConfig) : ProxyConfig :=
  { proxy with
    routeRuleList :=
      proxy.routeRuleList.map RouteRule.numbered }

/-
  The configuration with pointers in the rules.  What they
  point to is in the lists of the configuration.
-/
def Configuration.numbered
    (config : Configuration) : Configuration :=
  { config with
    proxyInstanceList :=
      config.proxyInstanceList.map ProxyConfig.numbered
    proxyDefault := config.proxyDefault.numbered }

/- The pointers stay when a tunnel changes. -/
theorem RouteRule.numbered_refresh
    (ssh : SshTunnel)
    (route : RouteRule) :
    (route.refresh ssh).numbered = route.numbered := by
  unfold RouteRule.numbered RouteRule.refresh
  dsimp only
  rw [Vector.map_map]
  congr 2
  funext entry
  cases entry with
  | none => rfl
  | some tun =>
      simp only [Function.comp_apply, Option.map_some]
      split
      · rename_i hSame
        rw [SshTunnel.numbered, SshTunnel.numbered, hSame]
      · rfl

@[simp]
theorem ProxyConfig.numbered_refresh
    (ssh : SshTunnel)
    (proxy : ProxyConfig) :
    (proxy.refresh ssh).numbered = proxy.numbered := by
  unfold ProxyConfig.numbered ProxyConfig.refresh
  dsimp only
  rw [List.map_map]
  have hSame :
      (RouteRule.numbered ∘ fun route =>
        route.refresh ssh) = RouteRule.numbered :=
    funext (RouteRule.numbered_refresh ssh)
  rw [hSame]

/- The numbers of the tunnels are all that is left. -/
theorem RouteRule.identity_numbered
    (route : RouteRule) :
    route.numbered.identity = route.identity := by
  unfold RouteRule.identity RouteRule.numbered
  refine Prod.ext rfl ?_
  dsimp only
  rw [Vector.map_map]
  congr 1
  funext entry
  cases entry <;> rfl

theorem ProxyConfig.grows_of_numbered
    {proxy proxy' : ProxyConfig}
    (hSame : proxy.numbered = proxy'.numbered) :
    proxy.Grows proxy' where
  name := (congrArg ProxyConfig.name hSame).symm
  services := by
    have hServices := congrArg ProxyConfig.serviceList hSame
    change proxy.serviceList = proxy'.serviceList
      at hServices
    rw [hServices]
  rules := by
    have hNumbers : ∀ rules : List RouteRule,
        rules.map RouteRule.identity =
          (rules.map RouteRule.numbered).map
            RouteRule.identity := by
      intro rules
      rw [List.map_map]
      exact List.map_congr_left fun route _ =>
        route.identity_numbered.symm
    have hRules := congrArg ProxyConfig.routeRuleList hSame
    change proxy.routeRuleList.map RouteRule.numbered =
      proxy'.routeRuleList.map RouteRule.numbered at hRules
    rw [hNumbers, hNumbers proxy'.routeRuleList, hRules]

/- Nothing is added to what stays the same. -/
theorem Configuration.grows_of_numbered
    {config config' : Configuration}
    (hSame : config.numbered = config'.numbered) :
    config.Grows config' := by
  rcases Configuration.mk.inj hSame with
    ⟨hLogFiles, hLogFile, _, hProxies, hProxy, hTunnels,
      hTunnel⟩
  refine
    { logFiles := by rw [hLogFiles]
      logFileDefault := by rw [hLogFile]
      tunnels := by
        unfold Configuration.tunnels
        rw [hTunnels]
      sshDefault := by rw [hTunnel]
      proxies := ?_
      proxyDefault := ProxyConfig.grows_of_numbered hProxy }
  intro index proxy hProxy
  have hIndex := congrArg (fun proxies => proxies[index]?)
    hProxies
  simp only [List.getElem?_map, hProxy, Option.map_some]
    at hIndex
  rcases Option.map_eq_some_iff.mp hIndex.symm with
    ⟨proxy', hProxy', hNumbered⟩
  exact ⟨proxy', hProxy',
    ProxyConfig.grows_of_numbered hNumbered.symm⟩

------------------------------------------------------------
-- Fields
------------------------------------------------------------

/- A field that a line can set, and whose it is. -/
inductive ConfigField where
| ulimit
| level (owner : LogOwner)
| logFile (owner : LogOwner)
| byteCountMax (address : Nat)
| fileRotateCount (address : Nat)
| socksPort (id : Nat)
| commandToRun (id : Nat)
deriving DecidableEq, Repr

abbrev ConfigField.Value : ConfigField → Type
  | .ulimit => Int
  | .level _ => Int
  | .logFile _ => Option Nat
  | .byteCountMax _ => Int
  | .fileRotateCount _ => Int
  | .socksPort _ => Int
  | .commandToRun _ => CBuf 8192

instance (field : ConfigField) : DecidableEq field.Value :=
  match field with
  | .ulimit => inferInstanceAs (DecidableEq Int)
  | .level _ => inferInstanceAs (DecidableEq Int)
  | .logFile _ => inferInstanceAs (DecidableEq (Option Nat))
  | .byteCountMax _ => inferInstanceAs (DecidableEq Int)
  | .fileRotateCount _ => inferInstanceAs (DecidableEq Int)
  | .socksPort _ => inferInstanceAs (DecidableEq Int)
  | .commandToRun _ => inferInstanceAs (DecidableEq (CBuf 8192))

/- A field, and the value that it is set to. -/
abbrev ConfigSetting :=
  Sigma ConfigField.Value

section Assign

variable (settings : List ConfigSetting)

def LogConfig.assign
    (owner : LogOwner)
    (log : LogConfig) : LogConfig where
  level := lastAssigned settings (.level owner) log.level
  file := lastAssigned settings (.logFile owner) log.file

def LogFileConfig.assign
    (log : LogFileConfig) : LogFileConfig :=
  { log with
    byteCountMax :=
      lastAssigned settings (.byteCountMax log.address)
        log.byteCountMax
    fileRotateCount :=
      lastAssigned settings (.fileRotateCount log.address)
        log.fileRotateCount }

/-
  A log file of the list.  A number that the default one has
  is not looked for there.
-/
def LogFileConfig.assignListed
    (default : Nat)
    (log : LogFileConfig) : LogFileConfig :=
  if log.address = default then log else log.assign settings

def MainConfig.assign
    (main : MainConfig) : MainConfig where
  ulimit := lastAssigned settings .ulimit main.ulimit
  log := main.log.assign settings .main

def ProxyConfig.assign
    (ref : ProxyRef)
    (proxy : ProxyConfig) : ProxyConfig :=
  { proxy with
    log := proxy.log.assign settings (.proxy ref) }

def SshConfig.assign
    (ssh : SshConfig) : SshConfig where
  tunnel :=
    { ssh.tunnel with
      socksPort :=
        lastAssigned settings (.socksPort ssh.tunnel.id)
          ssh.tunnel.socksPort
      commandToRun :=
        lastAssigned settings (.commandToRun ssh.tunnel.id)
          ssh.tunnel.commandToRun }
  log := ssh.log.assign settings (.ssh ssh.tunnel.id)

/- The configuration after settings, the last one first. -/
def Configuration.assign
    (config : Configuration) : Configuration where
  logFileList :=
    config.logFileList.map
      (LogFileConfig.assignListed settings
        config.logFileDefault.address)
  logFileDefault := config.logFileDefault.assign settings
  mainConf := config.mainConf.assign settings
  proxyInstanceList :=
    config.proxyInstanceList.mapIdx fun index proxy =>
      proxy.assign settings (.listed index)
  proxyDefault := config.proxyDefault.assign settings .default
  sshTunnelList :=
    config.sshTunnelList.map (SshConfig.assign settings)
  sshDefault := config.sshDefault.assign settings

end Assign

------------------------------------------------------------
-- Settings after Others
------------------------------------------------------------

section Append

variable (later earlier : List ConfigSetting)

theorem LogConfig.assign_append
    (owner : LogOwner)
    (log : LogConfig) :
    log.assign (later ++ earlier) owner =
      (log.assign earlier owner).assign later owner := by
  simp only [assign, lastAssigned_append]

theorem LogFileConfig.assign_append
    (log : LogFileConfig) :
    log.assign (later ++ earlier) =
      (log.assign earlier).assign later := by
  simp only [assign, lastAssigned_append]

theorem LogFileConfig.assignListed_append
    (default : Nat)
    (log : LogFileConfig) :
    log.assignListed (later ++ earlier) default =
      (log.assignListed earlier default).assignListed later
        default := by
  have hKept : (log.assign earlier).address = log.address :=
    rfl
  unfold assignListed
  by_cases hDefault : log.address = default
  · simp only [if_pos hDefault]
  · simp only [if_neg hDefault, hKept, assign_append]

theorem MainConfig.assign_append
    (main : MainConfig) :
    main.assign (later ++ earlier) =
      (main.assign earlier).assign later := by
  simp only [assign, lastAssigned_append,
    LogConfig.assign_append]

theorem ProxyConfig.assign_append
    (ref : ProxyRef)
    (proxy : ProxyConfig) :
    proxy.assign (later ++ earlier) ref =
      (proxy.assign earlier ref).assign later ref := by
  simp only [assign, LogConfig.assign_append]

theorem SshConfig.assign_append
    (ssh : SshConfig) :
    ssh.assign (later ++ earlier) =
      (ssh.assign earlier).assign later := by
  simp only [assign, lastAssigned_append,
    LogConfig.assign_append]

theorem Configuration.assign_append
    (config : Configuration) :
    config.assign (later ++ earlier) =
      (config.assign earlier).assign later := by
  rw [assign, assign, Configuration.mk.injEq]
  refine ⟨?_, ?_, ?_, ?_, ?_, ?_, ?_⟩
  · rw [assign, List.map_map]
    exact List.map_congr_left fun log _ =>
      log.assignListed_append later earlier _
  · exact LogFileConfig.assign_append later earlier _
  · exact MainConfig.assign_append later earlier _
  · rw [assign, List.mapIdx_mapIdx]
    congr
    funext index proxy
    exact proxy.assign_append later earlier (.listed index)
  · exact ProxyConfig.assign_append later earlier _ _
  · rw [assign, List.map_map]
    exact List.map_congr_left fun ssh _ =>
      ssh.assign_append later earlier
  · exact SshConfig.assign_append later earlier _

end Append

------------------------------------------------------------
-- What Is Set Already
------------------------------------------------------------

/- The log files that a section with this number sets. -/
def Configuration.logFilesAt
    (config : Configuration)
    (address : Nat) : List LogFileConfig :=
  if config.logFileDefault.address = address then
    [config.logFileDefault]
  else
    config.logFileList.filter fun log => log.address = address

def Configuration.tunnelsAt
    (config : Configuration)
    (id : Nat) : List SshConfig :=
  (config.sshDefault :: config.sshTunnelList).filter
    fun ssh => ssh.tunnel.id = id

def Configuration.proxiesAt
    (config : Configuration) : ProxyRef → List ProxyConfig
  | .default => [config.proxyDefault]
  | .listed index => config.proxyInstanceList[index]?.toList

def Configuration.logsOf
    (config : Configuration) : LogOwner → List LogConfig
  | .main => [config.mainConf.log]
  | .proxy ref => (config.proxiesAt ref).map ProxyConfig.log
  | .ssh id => (config.tunnelsAt id).map SshConfig.log

/- The field holds this value already. -/
def Configuration.Has
    (config : Configuration) :
    (field : ConfigField) → field.Value → Prop
  | .ulimit, ulimit => config.mainConf.ulimit = ulimit
  | .level owner, level =>
      ∀ log ∈ config.logsOf owner, log.level = level
  | .logFile owner, file =>
      ∀ log ∈ config.logsOf owner, log.file = file
  | .byteCountMax address, byteCountMax =>
      ∀ log ∈ config.logFilesAt address,
        log.byteCountMax = byteCountMax
  | .fileRotateCount address, fileRotateCount =>
      ∀ log ∈ config.logFilesAt address,
        log.fileRotateCount = fileRotateCount
  | .socksPort id, socksPort =>
      ∀ ssh ∈ config.tunnelsAt id,
        ssh.tunnel.socksPort = socksPort
  | .commandToRun id, commandToRun =>
      ∀ ssh ∈ config.tunnelsAt id,
        ssh.tunnel.commandToRun = commandToRun

/- Every field that is set holds its last value already. -/
def Configuration.HasAll
    (config : Configuration)
    (settings : List ConfigSetting) : Prop :=
  ∀ field, ∀ value ∈ settings.dlookup field,
    config.Has field value

section Has

variable (settings : List ConfigSetting)

theorem LogConfig.assign_eq_iff
    (owner : LogOwner)
    (log : LogConfig) :
    log.assign settings owner = log ↔
      (∀ level ∈ settings.dlookup (.level owner),
        log.level = level) ∧
      (∀ file ∈ settings.dlookup (.logFile owner),
        log.file = file) := by
  cases log
  simp only [assign, mk.injEq, lastAssigned_eq_iff]

theorem LogFileConfig.assign_eq_iff
    (log : LogFileConfig) :
    log.assign settings = log ↔
      (∀ n ∈ settings.dlookup (.byteCountMax log.address),
        log.byteCountMax = n) ∧
      (∀ n ∈
          settings.dlookup (.fileRotateCount log.address),
        log.fileRotateCount = n) := by
  cases log
  simp only [assign, mk.injEq, lastAssigned_eq_iff,
    true_and]

theorem MainConfig.assign_eq_iff
    (main : MainConfig) :
    main.assign settings = main ↔
      (∀ n ∈ settings.dlookup .ulimit, main.ulimit = n) ∧
      main.log.assign settings .main = main.log := by
  cases main
  simp only [assign, mk.injEq, lastAssigned_eq_iff]

theorem ProxyConfig.assign_eq_iff
    (ref : ProxyRef)
    (proxy : ProxyConfig) :
    proxy.assign settings ref = proxy ↔
      proxy.log.assign settings (.proxy ref) = proxy.log := by
  cases proxy
  simp only [assign, mk.injEq, true_and, and_true]

theorem SshConfig.assign_eq_iff
    (ssh : SshConfig) :
    ssh.assign settings = ssh ↔
      ((∀ n ∈ settings.dlookup (.socksPort ssh.tunnel.id),
        ssh.tunnel.socksPort = n) ∧
      (∀ command ∈
          settings.dlookup (.commandToRun ssh.tunnel.id),
        ssh.tunnel.commandToRun = command)) ∧
      ssh.log.assign settings (.ssh ssh.tunnel.id) =
        ssh.log := by
  rcases ssh with ⟨tunnel, log⟩
  cases tunnel
  simp only [assign, mk.injEq, SshTunnel.mk.injEq,
    lastAssigned_eq_iff, true_and]

/- The objects that stay as they are. -/
structure Configuration.Untouched
    (config : Configuration) : Prop where
  main : config.mainConf.assign settings = config.mainConf
  logFiles : ∀ address, ∀ log ∈ config.logFilesAt address,
    log.assign settings = log
  proxies : ∀ ref, ∀ proxy ∈ config.proxiesAt ref,
    proxy.assign settings ref = proxy
  tunnels :
    ∀ ssh ∈ config.sshDefault :: config.sshTunnelList,
      ssh.assign settings = ssh

theorem Configuration.assign_eq_iff_untouched
    (config : Configuration) :
    config.assign settings = config ↔
      config.Untouched settings := by
  constructor
  · intro hSame
    rcases Configuration.mk.inj hSame with
      ⟨hLogFiles, hLogFile, hMain, hProxies, hProxy, hTunnels,
        hTunnel⟩
    refine ⟨hMain, ?_, ?_, ?_⟩
    · intro address log hLog
      unfold logFilesAt at hLog
      split at hLog
      · cases List.mem_singleton.mp hLog
        exact hLogFile
      · rename_i hOther
        rcases List.mem_filter.mp hLog with ⟨hMem, hAddress⟩
        have hAddress' : log.address = address := by
          simpa using hAddress
        have hListed := map_eq_self_iff.mp hLogFiles log hMem
        rw [LogFileConfig.assignListed, if_neg] at hListed
        · exact hListed
        · rw [hAddress']
          exact fun hDefault => hOther hDefault.symm
    · intro ref proxy hMem
      cases ref with
      | default =>
          cases List.mem_singleton.mp hMem
          exact hProxy
      | listed index =>
          have hHere : config.proxyInstanceList[index]? =
              some proxy := Option.mem_toList.mp hMem
          have hIndex := List.mapIdx_eq_iff.mp hProxies index
          rw [hHere, Option.map_some, Option.some_inj]
            at hIndex
          exact hIndex.symm
    · intro ssh hMem
      rcases List.mem_cons.mp hMem with rfl | hMem
      · exact hTunnel
      · exact map_eq_self_iff.mp hTunnels ssh hMem
  · rintro ⟨hMain, hLogFiles, hProxies, hTunnels⟩
    have hListed :
        config.logFileList.map
            (LogFileConfig.assignListed settings
              config.logFileDefault.address) =
          config.logFileList := by
      refine map_eq_self_iff.mpr fun log hMem => ?_
      unfold LogFileConfig.assignListed
      split_ifs with hDefault
      · rfl
      · have hAt : log ∈ config.logFilesAt log.address := by
          rw [logFilesAt, if_neg fun h => hDefault h.symm]
          exact List.mem_filter.mpr ⟨hMem, by simp⟩
        exact hLogFiles log.address log hAt
    have hInstances :
        (config.proxyInstanceList.mapIdx fun index proxy =>
            proxy.assign settings (.listed index)) =
          config.proxyInstanceList := by
      refine List.mapIdx_eq_iff.mpr fun index => ?_
      cases hProxy : config.proxyInstanceList[index]? with
      | none => rfl
      | some proxy =>
          rw [Option.map_some, hProxies (.listed index) proxy
            (Option.mem_toList.mpr hProxy)]
    have hList :
        config.sshTunnelList.map (SshConfig.assign settings) =
          config.sshTunnelList :=
      map_eq_self_iff.mpr fun ssh hMem =>
        hTunnels ssh (List.mem_cons_of_mem _ hMem)
    have hFile := hLogFiles config.logFileDefault.address
      config.logFileDefault (by simp [logFilesAt])
    rw [assign, hListed, hInstances, hList, hMain, hFile,
      hProxies .default _ List.mem_cons_self,
      hTunnels _ List.mem_cons_self]

variable {settings}
variable {config : Configuration}

theorem Configuration.mem_tunnelsAt
    {id : Nat}
    {ssh : SshConfig} :
    ssh ∈ config.tunnelsAt id ↔
      ssh ∈ config.sshDefault :: config.sshTunnelList ∧
        ssh.tunnel.id = id := by
  simp only [tunnelsAt, List.mem_filter, decide_eq_true_eq]

theorem Configuration.address_of_logFilesAt
    {address : Nat}
    {log : LogFileConfig}
    (hLog : log ∈ config.logFilesAt address) :
    log.address = address := by
  unfold logFilesAt at hLog
  split at hLog
  · rename_i hDefault
    cases List.mem_singleton.mp hLog
    exact hDefault
  · simpa using (List.mem_filter.mp hLog).2

/- The logs of objects that stay. -/
theorem Configuration.Untouched.log
    (hConfig : config.Untouched settings)
    (owner : LogOwner)
    {log : LogConfig}
    (hLog : log ∈ config.logsOf owner) :
    log.assign settings owner = log := by
  cases owner with
  | main =>
      cases List.mem_singleton.mp hLog
      exact ((MainConfig.assign_eq_iff _ _).mp
        hConfig.main).2
  | proxy ref =>
      rcases List.mem_map.mp hLog with ⟨proxy, hMem, rfl⟩
      exact (ProxyConfig.assign_eq_iff _ _ _).mp
        (hConfig.proxies ref proxy hMem)
  | ssh id =>
      rcases List.mem_map.mp hLog with ⟨ssh, hMem, rfl⟩
      rcases mem_tunnelsAt.mp hMem with ⟨hListed, rfl⟩
      exact ((SshConfig.assign_eq_iff _ _).mp
        (hConfig.tunnels ssh hListed)).2

theorem Configuration.Untouched.hasAll
    (hConfig : config.Untouched settings) :
    config.HasAll settings := by
  have hMain :=
    (MainConfig.assign_eq_iff _ _).mp hConfig.main
  have hLog := fun owner log hMem =>
    (LogConfig.assign_eq_iff settings owner log).mp
      (hConfig.log owner hMem)
  have hLogFile := fun address log hMem =>
    (LogFileConfig.assign_eq_iff settings log).mp
      (hConfig.logFiles address log hMem)
  have hTunnel := fun ssh hMem =>
    ((SshConfig.assign_eq_iff settings ssh).mp
      (hConfig.tunnels ssh hMem)).1
  intro field value hValue
  cases field with
  | ulimit => exact hMain.1 value hValue
  | level owner =>
      exact fun log hMem => (hLog owner log hMem).1 value hValue
  | logFile owner =>
      exact fun log hMem => (hLog owner log hMem).2 value hValue
  | byteCountMax address =>
      intro log hMem
      cases address_of_logFilesAt hMem
      exact (hLogFile _ log hMem).1 value hValue
  | fileRotateCount address =>
      intro log hMem
      cases address_of_logFilesAt hMem
      exact (hLogFile _ log hMem).2 value hValue
  | socksPort id =>
      intro ssh hMem
      rcases mem_tunnelsAt.mp hMem with ⟨hListed, rfl⟩
      exact (hTunnel ssh hListed).1 value hValue
  | commandToRun id =>
      intro ssh hMem
      rcases mem_tunnelsAt.mp hMem with ⟨hListed, rfl⟩
      exact (hTunnel ssh hListed).2 value hValue

theorem Configuration.HasAll.untouched
    (hConfig : config.HasAll settings) :
    config.Untouched settings := by
  have hLog : ∀ owner, ∀ log ∈ config.logsOf owner,
      log.assign settings owner = log :=
    fun owner log hMem =>
      (LogConfig.assign_eq_iff _ _ _).mpr
        ⟨fun level hLevel =>
          hConfig (.level owner) level hLevel log hMem,
        fun file hFile =>
          hConfig (.logFile owner) file hFile log hMem⟩
  refine ⟨?_, ?_, ?_, ?_⟩
  · refine (MainConfig.assign_eq_iff _ _).mpr
      ⟨hConfig .ulimit, ?_⟩
    exact hLog .main _ List.mem_cons_self
  · intro address log hMem
    cases address_of_logFilesAt hMem
    exact (LogFileConfig.assign_eq_iff _ _).mpr
      ⟨fun n hValue => hConfig (.byteCountMax _) n hValue log
        hMem,
      fun n hValue => hConfig (.fileRotateCount _) n hValue
        log hMem⟩
  · intro ref proxy hMem
    exact (ProxyConfig.assign_eq_iff _ _ _).mpr
      (hLog (.proxy ref) _ (List.mem_map_of_mem hMem))
  · intro ssh hListed
    have hMem : ssh ∈ config.tunnelsAt ssh.tunnel.id :=
      mem_tunnelsAt.mpr ⟨hListed, rfl⟩
    exact (SshConfig.assign_eq_iff _ _).mpr
      ⟨⟨fun n hValue =>
        hConfig (.socksPort _) n hValue ssh hMem,
      fun command hValue =>
        hConfig (.commandToRun _) command hValue ssh hMem⟩,
      hLog (.ssh ssh.tunnel.id) _ (List.mem_map_of_mem hMem)⟩

/-
  Settings change nothing exactly when every field holds the
  last value that it is set to.
-/
theorem Configuration.assign_eq_iff
    (settings : List ConfigSetting)
    (config : Configuration) :
    config.assign settings = config ↔
      config.HasAll settings :=
  (assign_eq_iff_untouched settings config).trans
    ⟨Untouched.hasAll, HasAll.untouched⟩

@[simp]
theorem Configuration.assign_nil
    (config : Configuration) :
    config.assign [] = config := by
  rw [assign_eq_iff]
  intro field value hValue
  cases hValue

end Has

/- Fields are the same with pointers in the rules. -/
theorem Configuration.has_numbered
    (config : Configuration)
    (field : ConfigField)
    (value : field.Value) :
    config.numbered.Has field value ↔
      config.Has field value := by
  have hLogs : ∀ owner,
      config.numbered.logsOf owner = config.logsOf owner := by
    intro owner
    rcases owner with _ | ref | id
    · rfl
    · cases ref with
      | default => rfl
      | listed index =>
          simp only [logsOf, proxiesAt, numbered,
            List.getElem?_map]
          cases config.proxyInstanceList[index]? <;> rfl
    · rfl
  cases field with
  | level owner => simp only [Has, hLogs]
  | logFile owner => simp only [Has, hLogs]
  | _ => exact Iff.rfl

theorem Configuration.numbered_assign_eq_iff
    (settings : List ConfigSetting)
    (config : Configuration) :
    config.numbered.assign settings = config.numbered ↔
      config.HasAll settings := by
  rw [assign_eq_iff]
  exact forall_congr' fun field =>
    forall_congr' fun value =>
      imp_congr_right fun _ => config.has_numbered field value

end SmartSOCKSProxy
