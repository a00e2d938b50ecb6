import SmartSOCKSProxy.Config.FieldSettings

/-
  What one setting does.

  A field is set by lines of one section, and the objects of
  the other sections stay as they are.

  Key definitions include:
    * `ConfigField.home`

  Key theorems include:
    * `Configuration.numbered_updateLogFile`
    * `Configuration.numbered_updateProxy`
    * `Configuration.numbered_updateSsh`
    * `numbered_setLog`
-/

namespace SmartSOCKSProxy

------------------------------------------------------------
-- One Setting
------------------------------------------------------------

/- The section that the setting of a field stands in. -/
def LogOwner.home : LogOwner → Section
  | .main => .main
  | .proxy ref => .proxy ref
  | .ssh id => .ssh id

def ConfigField.home : ConfigField → Section
  | .ulimit => .main
  | .level owner => owner.home
  | .logFile owner => owner.home
  | .byteCountMax address => .logFile address
  | .fileRotateCount address => .logFile address
  | .socksPort id => .ssh id
  | .commandToRun id => .ssh id

section One

variable {setting : ConfigSetting}

/- What belongs to another section stays. -/
theorem lastAssigned_of_home
    {field : ConfigField}
    (hHome : setting.1.home ≠ field.home)
    (before : field.Value) :
    lastAssigned [setting] field before = before := by
  rcases setting with ⟨other, value⟩
  apply lastAssigned_of_ne
  intro hSame
  rw [hSame] at hHome
  exact hHome rfl

theorem LogConfig.assign_of_home
    {owner : LogOwner}
    (hHome : setting.1.home ≠ owner.home)
    (log : LogConfig) :
    log.assign [setting] owner = log := by
  have hLevel :
      setting.1.home ≠ (ConfigField.level owner).home := hHome
  have hFile :
      setting.1.home ≠ (ConfigField.logFile owner).home :=
    hHome
  rw [assign, lastAssigned_of_home hLevel,
    lastAssigned_of_home hFile]

theorem MainConfig.assign_of_home
    (hHome : setting.1.home ≠ .main)
    (main : MainConfig) :
    main.assign [setting] = main := by
  have hUlimit :
      setting.1.home ≠ ConfigField.ulimit.home := hHome
  have hLog : setting.1.home ≠ LogOwner.main.home := hHome
  rw [assign, lastAssigned_of_home hUlimit,
    LogConfig.assign_of_home hLog]

theorem LogFileConfig.assign_of_home
    {log : LogFileConfig}
    (hHome : setting.1.home ≠ .logFile log.address) :
    log.assign [setting] = log := by
  have hMax : setting.1.home ≠
      (ConfigField.byteCountMax log.address).home := hHome
  have hCount : setting.1.home ≠
      (ConfigField.fileRotateCount log.address).home := hHome
  rw [assign, lastAssigned_of_home hMax,
    lastAssigned_of_home hCount]

theorem ProxyConfig.assign_of_home
    {ref : ProxyRef}
    (hHome : setting.1.home ≠ .proxy ref)
    (proxy : ProxyConfig) :
    proxy.assign [setting] ref = proxy := by
  have hLog : setting.1.home ≠ (LogOwner.proxy ref).home :=
    hHome
  rw [assign, LogConfig.assign_of_home hLog]

theorem SshConfig.assign_of_home
    {ssh : SshConfig}
    (hHome : setting.1.home ≠ .ssh ssh.tunnel.id) :
    ssh.assign [setting] = ssh := by
  have hPort : setting.1.home ≠
      (ConfigField.socksPort ssh.tunnel.id).home := hHome
  have hCommand : setting.1.home ≠
      (ConfigField.commandToRun ssh.tunnel.id).home := hHome
  have hLog : setting.1.home ≠
      (LogOwner.ssh ssh.tunnel.id).home := hHome
  rw [assign, lastAssigned_of_home hPort,
    lastAssigned_of_home hCommand,
    LogConfig.assign_of_home hLog]

/- The lists of objects that belong to other sections. -/
theorem Configuration.logFileList_of_home
    (hHome : ∀ address, setting.1.home ≠ .logFile address)
    (default : Nat)
    (list : List LogFileConfig) :
    list.map
        (LogFileConfig.assignListed [setting] default) =
      list := by
  refine map_eq_self_iff.mpr fun log _ => ?_
  unfold LogFileConfig.assignListed
  rw [LogFileConfig.assign_of_home (hHome log.address),
    ite_self]

theorem Configuration.proxyInstanceList_of_home
    (hHome : ∀ ref, setting.1.home ≠ .proxy ref)
    (list : List ProxyConfig) :
    (list.mapIdx fun index proxy =>
        proxy.assign [setting] (.listed index)) =
      list := by
  refine List.mapIdx_eq_iff.mpr fun index => ?_
  cases list[index]? with
  | none => rfl
  | some proxy =>
      rw [Option.map_some,
        ProxyConfig.assign_of_home (hHome (.listed index))]

theorem Configuration.sshTunnelList_of_home
    (hHome : ∀ id, setting.1.home ≠ .ssh id)
    (list : List SshConfig) :
    list.map (SshConfig.assign [setting]) = list :=
  map_eq_self_iff.mpr fun ssh _ =>
    SshConfig.assign_of_home (hHome ssh.tunnel.id)

theorem ne_of_home
    {current other : Section}
    (hHome : setting.1.home = current)
    (hNe : current ≠ other) :
    setting.1.home ≠ other :=
  fun hSame => hNe (hHome.symm.trans hSame)

/- Only the objects of one kind change. -/
section Kinds

variable (config : Configuration)

theorem Configuration.assign_main
    (hHome : setting.1.home = .main) :
    config.assign [setting] =
      { config with
        mainConf := config.mainConf.assign [setting] } := by
  rw [assign,
    logFileList_of_home fun _ => ne_of_home hHome (by simp),
    LogFileConfig.assign_of_home (ne_of_home hHome (by simp)),
    proxyInstanceList_of_home fun _ =>
      ne_of_home hHome (by simp),
    ProxyConfig.assign_of_home (ne_of_home hHome (by simp)),
    sshTunnelList_of_home fun _ => ne_of_home hHome (by simp),
    SshConfig.assign_of_home (ne_of_home hHome (by simp))]

theorem Configuration.assign_logFile
    {address : Nat}
    (hHome : setting.1.home = .logFile address) :
    config.assign [setting] =
      { config with
        logFileList :=
          config.logFileList.map
            (LogFileConfig.assignListed [setting]
              config.logFileDefault.address)
        logFileDefault :=
          config.logFileDefault.assign [setting] } := by
  rw [assign,
    MainConfig.assign_of_home (ne_of_home hHome (by simp)),
    proxyInstanceList_of_home fun _ =>
      ne_of_home hHome (by simp),
    ProxyConfig.assign_of_home (ne_of_home hHome (by simp)),
    sshTunnelList_of_home fun _ => ne_of_home hHome (by simp),
    SshConfig.assign_of_home (ne_of_home hHome (by simp))]

theorem Configuration.assign_proxy
    {ref : ProxyRef}
    (hHome : setting.1.home = .proxy ref) :
    config.assign [setting] =
      { config with
        proxyInstanceList :=
          config.proxyInstanceList.mapIdx fun index proxy =>
            proxy.assign [setting] (.listed index)
        proxyDefault :=
          config.proxyDefault.assign [setting] .default } := by
  rw [assign,
    logFileList_of_home fun _ => ne_of_home hHome (by simp),
    LogFileConfig.assign_of_home (ne_of_home hHome (by simp)),
    MainConfig.assign_of_home (ne_of_home hHome (by simp)),
    sshTunnelList_of_home fun _ => ne_of_home hHome (by simp),
    SshConfig.assign_of_home (ne_of_home hHome (by simp))]

theorem Configuration.assign_tunnel
    {id : Nat}
    (hHome : setting.1.home = .ssh id) :
    config.assign [setting] =
      { config with
        sshTunnelList :=
          config.sshTunnelList.map (SshConfig.assign [setting])
        sshDefault := config.sshDefault.assign [setting] } := by
  rw [assign,
    logFileList_of_home fun _ => ne_of_home hHome (by simp),
    LogFileConfig.assign_of_home (ne_of_home hHome (by simp)),
    MainConfig.assign_of_home (ne_of_home hHome (by simp)),
    proxyInstanceList_of_home fun _ =>
      ne_of_home hHome (by simp),
    ProxyConfig.assign_of_home (ne_of_home hHome (by simp))]

end Kinds

/-
  Each change of an object is a setting of its section, up to
  what the rules see of tunnels.
-/
section Updates

variable (config : Configuration)

theorem Configuration.numbered_updateMain
    (hHome : setting.1.home = .main)
    {main : MainConfig}
    (hSets : main = config.mainConf.assign [setting]) :
    numbered { config with mainConf := main } =
      config.numbered.assign [setting] := by
  rw [assign_main _ hHome, hSets]
  rfl

theorem Configuration.numbered_updateLogFile
    {address : Nat}
    (hHome : setting.1.home = .logFile address)
    {f : LogFileConfig → LogFileConfig}
    (hSets : ∀ log, log.address = address →
      f log = log.assign [setting]) :
    (config.updateLogFile address f).numbered =
      config.numbered.assign [setting] := by
  have hOther : ∀ log : LogFileConfig,
      log.address ≠ address →
        log.assign [setting] = log := by
    intro log hNe
    apply LogFileConfig.assign_of_home
    rw [hHome]
    exact fun hSame => hNe (Section.logFile.inj hSame).symm
  rw [assign_logFile _ hHome]
  unfold updateLogFile
  split_ifs with hDefault
  · have hList :
        config.logFileList.map
            (LogFileConfig.assignListed [setting]
              config.logFileDefault.address) =
          config.logFileList := by
      refine map_eq_self_iff.mpr fun log _ => ?_
      unfold LogFileConfig.assignListed
      split_ifs with hListed
      · rfl
      · exact hOther log fun hSame =>
          hListed (hSame.trans hDefault.symm)
    simp only [numbered, hList, hSets _ hDefault]
  · have hList :
        updateWhere (fun log => log.address = address) f
            config.logFileList =
          config.logFileList.map
            (LogFileConfig.assignListed [setting]
              config.logFileDefault.address) := by
      refine List.map_congr_left fun log _ => ?_
      unfold LogFileConfig.assignListed
      by_cases hSame : log.address = address
      · have hListed :
            log.address ≠ config.logFileDefault.address :=
          fun hNumber => hDefault (hNumber.symm.trans hSame)
        rw [if_pos (decide_eq_true hSame), if_neg hListed,
          hSets log hSame]
      · rw [if_neg (by simpa using hSame), hOther log hSame,
          ite_self]
    simp only [numbered, hList, hOther _ hDefault]

theorem Configuration.numbered_updateProxy
    {ref : ProxyRef}
    (hHome : setting.1.home = .proxy ref)
    {f : ProxyConfig → ProxyConfig}
    (hSets : ∀ proxy,
      (f proxy).numbered =
        proxy.numbered.assign [setting] ref) :
    (config.updateProxy f ref).numbered =
      config.numbered.assign [setting] := by
  have hOther : ∀ other (proxy : ProxyConfig),
      ref ≠ other →
        proxy.assign [setting] other = proxy := by
    intro other proxy hNe
    apply ProxyConfig.assign_of_home
    rw [hHome]
    exact fun hSame => hNe (Section.proxy.inj hSame)
  rw [assign_proxy _ hHome]
  cases ref with
  | default =>
      have hList :
          (config.numbered.proxyInstanceList.mapIdx
            fun index proxy =>
              proxy.assign [setting] (.listed index)) =
            config.numbered.proxyInstanceList := by
        refine List.mapIdx_eq_iff.mpr fun index => ?_
        cases config.numbered.proxyInstanceList[index]? with
        | none => rfl
        | some proxy =>
            rw [Option.map_some,
              hOther (.listed index) proxy (by simp)]
      rw [hList]
      simp only [numbered, updateProxy, hSets]
  | listed i =>
      have hList :
          (config.proxyInstanceList.modify i f).map
              ProxyConfig.numbered =
            config.numbered.proxyInstanceList.mapIdx
              fun index proxy =>
                proxy.assign [setting] (.listed index) := by
        refine List.ext_getElem? fun index => ?_
        rw [List.getElem?_map, List.getElem?_modify,
          List.getElem?_mapIdx, numbered, List.getElem?_map]
        cases config.proxyInstanceList[index]? with
        | none => simp
        | some proxy =>
            by_cases hSame : i = index
            · subst hSame
              simp [hSets]
            · have hNe : ProxyRef.listed i ≠ .listed index :=
                fun hRef => hSame (ProxyRef.listed.inj hRef)
              simp [hSame, hOther _ proxy.numbered hNe]
      rw [hOther .default _ (by simp), ← hList]
      rfl

theorem Configuration.numbered_updateSsh
    {id : Nat}
    (hHome : setting.1.home = .ssh id)
    {f : SshConfig → SshConfig}
    (hSets : ∀ ssh, ssh.tunnel.id = id →
      f ssh = ssh.assign [setting]) :
    (config.updateSsh id f).numbered =
      config.numbered.assign [setting] := by
  have hOther : ∀ ssh : SshConfig, ssh.tunnel.id ≠ id →
      ssh.assign [setting] = ssh := by
    intro ssh hNe
    apply SshConfig.assign_of_home
    rw [hHome]
    exact fun hSame => hNe (Section.ssh.inj hSame).symm
  have hOne : ∀ ssh : SshConfig,
      (if ssh.tunnel.id = id then f ssh else ssh) =
        ssh.assign [setting] := by
    intro ssh
    split_ifs with hSame
    · exact hSets ssh hSame
    · exact (hOther ssh hSame).symm
  have hProxy : ∀ ssh,
      ProxyConfig.numbered ∘ ProxyConfig.refresh ssh =
        ProxyConfig.numbered :=
    fun ssh => funext (ProxyConfig.numbered_refresh ssh)
  rw [assign_tunnel _ hHome]
  simp only [numbered, updateSsh, updateWhere, List.map_map,
    hProxy, ProxyConfig.numbered_refresh, hOne,
    decide_eq_true_eq]

end Updates

end One

/- The settings of each line. -/
section Lines

variable (config : Configuration)

theorem numbered_ulimit
    (ulimit : Int) :
    Configuration.numbered
        { config with
          mainConf := { config.mainConf with ulimit } } =
      config.numbered.assign [⟨.ulimit, ulimit⟩] := by
  apply config.numbered_updateMain rfl
  rw [MainConfig.assign, lastAssigned_self]
  rfl

/- A setting of the log of an object is for nothing else. -/
theorem numbered_setLog
    {setting : ConfigSetting}
    {owner : LogOwner}
    (hField :
      setting.1 = .level owner ∨ setting.1 = .logFile owner)
    {f : LogConfig → LogConfig}
    (hSets : ∀ log, f log = log.assign [setting] owner) :
    (config.setLog f owner).numbered =
      config.numbered.assign [setting] := by
  rcases setting with ⟨field, value⟩
  have hHome : field.home = owner.home := by
    rcases hField with rfl | rfl <;> rfl
  have hNe : ∀ other : ConfigField,
      other ≠ .level owner → other ≠ .logFile owner →
        ∀ before, lastAssigned [(⟨field, value⟩ :
          ConfigSetting)] other before = before := by
    intro other hLevel hFile before
    apply lastAssigned_of_ne
    rcases hField with rfl | rfl
    · exact hLevel
    · exact hFile
  cases owner with
  | main =>
      apply config.numbered_updateMain hHome
      rw [MainConfig.assign, hNe .ulimit (by simp) (by simp),
        ← hSets]
  | proxy ref =>
      apply config.numbered_updateProxy hHome
      intro proxy
      simp only [ProxyConfig.numbered, ProxyConfig.assign,
        hSets]
  | ssh id =>
      apply config.numbered_updateSsh hHome
      intro ssh hSame
      rw [SshConfig.assign,
        hNe (.socksPort _) (by simp) (by simp),
        hNe (.commandToRun _) (by simp) (by simp), hSame,
        hSets]

theorem numbered_level
    (owner : LogOwner)
    (level : Int) :
    (config.setLog (fun log => { log with level })
        owner).numbered =
      config.numbered.assign [⟨.level owner, level⟩] := by
  apply numbered_setLog config (.inl rfl)
  intro log
  simp [LogConfig.assign, lastAssigned_of_ne]

theorem numbered_logFile
    (owner : LogOwner)
    (file : Option Nat) :
    (config.setLog (fun log => { log with file })
        owner).numbered =
      config.numbered.assign [⟨.logFile owner, file⟩] := by
  apply numbered_setLog config (.inr rfl)
  intro log
  simp [LogConfig.assign, lastAssigned_of_ne]

theorem numbered_byteCountMax
    (address : Nat)
    (byteCountMax : Int) :
    (config.updateLogFile address
        fun log => { log with byteCountMax }).numbered =
      config.numbered.assign
        [⟨.byteCountMax address, byteCountMax⟩] := by
  apply config.numbered_updateLogFile rfl
  rintro log rfl
  simp [LogFileConfig.assign, lastAssigned_of_ne]

theorem numbered_fileRotateCount
    (address : Nat)
    (fileRotateCount : Int) :
    (config.updateLogFile address
        fun log => { log with fileRotateCount }).numbered =
      config.numbered.assign
        [⟨.fileRotateCount address, fileRotateCount⟩] := by
  apply config.numbered_updateLogFile rfl
  rintro log rfl
  simp [LogFileConfig.assign, lastAssigned_of_ne]

theorem numbered_socksPort
    (id : Nat)
    (socksPort : Int) :
    (config.updateSsh id fun ssh =>
        { ssh with
          tunnel := { ssh.tunnel with socksPort } }).numbered =
      config.numbered.assign
        [⟨.socksPort id, socksPort⟩] := by
  apply config.numbered_updateSsh rfl
  rintro ssh rfl
  simp [SshConfig.assign, LogConfig.assign,
    lastAssigned_of_ne]

theorem numbered_commandToRun
    (id : Nat)
    (commandToRun : CBuf 8192) :
    (config.updateSsh id fun ssh =>
        { ssh with
          tunnel :=
            { ssh.tunnel with commandToRun } }).numbered =
      config.numbered.assign
        [⟨.commandToRun id, commandToRun⟩] := by
  apply config.numbered_updateSsh rfl
  rintro ssh rfl
  simp [SshConfig.assign, LogConfig.assign,
    lastAssigned_of_ne]

end Lines

end SmartSOCKSProxy
