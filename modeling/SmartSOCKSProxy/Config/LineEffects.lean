import SmartSOCKSProxy.Config.LineReadings

/-
  Lines do what their text says.

  A line, and a file that is included, with all its files,
  sets exactly the fields that were read from the text, or
  adds something that nothing takes away again, or ends the
  process.

  Key definitions include:
    * `Setting.Follows`, `Header.Follows`
    * `LineStep.Follows`, `ConfigResult.Follows`

  Key theorems include:
    * `sectionHeader_follows`, `sectionEntry_follows`
    * `configFileLine_follows`
    * `configFileParse_follows`
-/

namespace SmartSOCKSProxy

------------------------------------------------------------
-- What Is Added Stays
------------------------------------------------------------

namespace Configuration.Grows

variable {config config' : Configuration}
variable (hGrow : config.Grows config')
include hGrow

theorem within
    (current : Section)
    (hWithin : config.names.Within current) :
    config'.names.Within current := by
  rcases current with _ | _ | _ | (_ | index) | _
  case proxy.listed =>
    have hIndex : index < config.proxyInstanceList.length := by
      simpa [ConfigNames.Within, names] using hWithin
    rcases hGrow.proxies index _
        (List.getElem?_eq_getElem hIndex) with
      ⟨proxy', hProxy', _⟩
    have hIndex' := (List.getElem?_eq_some_iff.mp hProxy').1
    simpa [ConfigNames.Within, names] using hIndex'
  all_goals trivial

theorem proxy
    {ref : ProxyRef}
    (hWithin : config.names.Within (.proxy ref)) :
    (config.proxy ref).Grows (config'.proxy ref) := by
  cases ref with
  | default => exact hGrow.proxyDefault
  | listed index =>
      have hIndex :
          index < config.proxyInstanceList.length := by
        simpa [ConfigNames.Within, names] using hWithin
      rcases hGrow.proxies index _
          (List.getElem?_eq_getElem hIndex) with
        ⟨proxy', hProxy', hHere⟩
      simp only [Configuration.proxy,
        List.getD_eq_getElem?_getD, hProxy',
        List.getElem?_eq_getElem hIndex, Option.getD_some]
      exact hHere

theorem logFiles_le :
    config.logFileList.length ≤
      config'.logFileList.length := by
  simpa using hGrow.logFiles.length_le

theorem tunnels_le :
    config.sshTunnelList.length ≤
      config'.sshTunnelList.length := by
  have hLength := hGrow.tunnels.length_le
  rw [List.length_map, List.length_map] at hLength
  unfold Configuration.tunnels at hLength
  rw [List.length_map, List.length_map] at hLength
  exact hLength

theorem services_le
    {ref : ProxyRef}
    (hWithin : config.names.Within (.proxy ref)) :
    (config.proxy ref).serviceList.length ≤
      (config'.proxy ref).serviceList.length :=
  (hGrow.proxy hWithin).services.length_le

theorem rules_le
    {ref : ProxyRef}
    (hWithin : config.names.Within (.proxy ref)) :
    (config.proxy ref).routeRuleList.length ≤
      (config'.proxy ref).routeRuleList.length := by
  simpa using (hGrow.proxy hWithin).rules.length_le

end Configuration.Grows

/- The change of the instance that a section is about. -/
theorem proxy_updateProxy_self
    {config : Configuration}
    {ref : ProxyRef}
    (hWithin : config.names.Within (.proxy ref))
    (f : ProxyConfig → ProxyConfig) :
    (config.updateProxy f ref).proxy ref =
      f (config.proxy ref) := by
  cases ref with
  | default => rfl
  | listed index =>
      have hIndex :
          index < config.proxyInstanceList.length := by
        simpa [ConfigNames.Within, Configuration.names]
          using hWithin
      simp [Configuration.updateProxy, Configuration.proxy,
        List.getElem?_eq_getElem hIndex]

theorem within_updateProxy
    {config : Configuration}
    {ref : ProxyRef}
    (f : ProxyConfig → ProxyConfig)
    (current : Section)
    (hWithin : config.names.Within current) :
    (config.updateProxy f ref).names.Within current := by
  have hLength :
      (config.updateProxy f ref).proxyInstanceList.length =
        config.proxyInstanceList.length := by
    cases ref <;> simp [Configuration.updateProxy]
  rcases current with _ | _ | _ | (_ | index) | _
  case proxy.listed =>
    simpa [ConfigNames.Within, Configuration.names, hLength]
      using hWithin
  all_goals trivial

/- An instance that is set to what it was. -/
theorem updateProxy_self
    {config : Configuration}
    {ref : ProxyRef}
    {f : ProxyConfig → ProxyConfig}
    (hSame : f (config.proxy ref) = config.proxy ref) :
    config.updateProxy f ref = config := by
  cases ref with
  | default =>
      change { config with
        proxyDefault := f config.proxyDefault } = config
      have hDefault : f config.proxyDefault =
          config.proxyDefault := hSame
      rw [hDefault]
  | listed index =>
      have hList :
          config.proxyInstanceList.modify index f =
            config.proxyInstanceList := by
        refine List.ext_getElem? fun i => ?_
        rw [List.getElem?_modify]
        cases hProxy : config.proxyInstanceList[i]? with
        | none => rfl
        | some proxy =>
            by_cases hIndex : index = i
            · subst hIndex
              have hHere :
                  config.proxy (.listed index) = proxy := by
                simp [Configuration.proxy, hProxy]
              rw [hHere] at hSame
              simp [hSame]
            · simp [hIndex]
      rw [Configuration.updateProxy, hList]

------------------------------------------------------------
-- Headers
------------------------------------------------------------

/- A header does what was read, or makes an object. -/
def Header.Follows
    (load : ConfigLoad)
    (header : Header) : Option (Option Section) → Prop
  | none => header = .other
  | some (some current) => header = .enter current load
  | some none => header ≠ .other ∧
      ∀ current load', header = .enter current load' →
        ¬load'.config.Grows load.config

namespace Header.Follows

variable {load : ConfigLoad}

theorem exited :
    Header.exited.Follows load (some none) := by
  refine ⟨Header.noConfusion, ?_⟩
  intro current load' hEnter
  cases hEnter

theorem overrun :
    Header.overrun.Follows load (some none) := by
  refine ⟨Header.noConfusion, ?_⟩
  intro current load' hEnter
  cases hEnter

theorem enter
    {current : Section}
    {load' : ConfigLoad}
    (hNot : ¬load'.config.Grows load.config) :
    (Header.enter current load').Follows load
      (some none) := by
  refine ⟨Header.noConfusion, ?_⟩
  intro _ _ hEnter
  cases hEnter
  exact hNot

/- The next kind of header is tried. -/
theorem or
    {header next : Header}
    {read read' : Option (Option Section)}
    (hHeader : header.Follows load read)
    (hNext : next.Follows load read') :
    (match header with
      | .other => next
      | header => header).Follows load (read.or read') := by
  rcases read with _ | _ | current
  · have hOther : header = .other := hHeader
    subst hOther
    exact hNext
  · cases header with
    | other => exact absurd rfl hHeader.1
    | exited => exact .exited
    | overrun => exact .overrun
    | enter current load' =>
        exact .enter (hHeader.2 current load' rfl)
  · have hEnter : header = .enter current load := hHeader
    subst hEnter
    rfl

end Header.Follows

section Headers

variable (world : ConfigWorld)
variable (line : Text)
variable (load : ConfigLoad)

theorem namedSection_follows
    (keyword : Text)
    (fallback : Section)
    {find find' : Text → Option Section}
    (hFind : ∀ name, find name = find' name)
    {create : Text → Header}
    (hCreate : ∀ name, find name = none →
      (create name).Follows load (some none)) :
    (namedSection line keyword load fallback find
        create).Follows load
      (namedHeader line keyword fallback find') := by
  unfold namedSection namedHeader
  cases matchStart line keyword with
  | none => rfl
  | some name =>
      rw [Option.map_some]
      dsimp only
      split_ifs
      · exact .exited
      · rfl
      · rw [← hFind name]
        cases hName : find name with
        | none => exact hCreate name hName
        | some current => rfl

theorem logFileHeader_follows :
    (logFileHeader line load).Follows load
      (namedHeader line (field "logfile ")
        (.logFile load.config.names.logFileDefault)
        fun name =>
          (load.config.names.logFile name).map .logFile) := by
  apply namedSection_follows
  · intro name
    rw [← logFile_names, Option.map_map]
    rfl
  · intro name hName
    rw [Option.map_eq_none_iff] at hName
    simp only [findOrCreateLogFile, hName]
    refine .enter fun hGrow => ?_
    have hLength := hGrow.logFiles_le
    rw [List.length_cons] at hLength
    omega

theorem proxyInstanceHeader_follows :
    (proxyInstanceHeader line load).Follows load
      (namedHeader line (field "proxy ") (.proxy .default)
        fun name =>
          (load.config.names.proxy name).map fun index =>
            .proxy (.listed index)) := by
  apply namedSection_follows
  · intro name
    rw [proxy_names]
  · intro name _
    cases fillBuf 1024 name with
    | unset => exact .overrun
    | overrun => exact .overrun
    | value text =>
        refine .enter fun hGrow => ?_
        let index := load.config.proxyInstanceList.length
        have hOld := hGrow.within (.proxy (.listed index))
          (by simp [ConfigNames.Within, Configuration.names,
            index])
        simp [ConfigNames.Within, Configuration.names, index]
          at hOld

theorem sshTunnelHeader_follows :
    (sshTunnelHeader world line load).Follows load
      (namedHeader line (field "ssh ")
        (.ssh load.config.names.sshDefault)
        fun name =>
          (load.config.names.tunnel name).map .ssh) := by
  apply namedSection_follows
  · intro name
    rw [← tunnel_names, Option.map_map]
    rfl
  · intro name _
    cases fillBuf 200 name with
    | unset => exact .overrun
    | overrun => exact .overrun
    | value text =>
        refine .enter fun hGrow => ?_
        have hLength := hGrow.tunnels_le
        rw [List.length_cons] at hLength
        omega

/- The header of the first keyword that there is. -/
theorem sectionHeader_follows :
    (sectionHeader world line load).Follows load
      (load.config.names.header line) := by
  have hLog := logFileHeader_follows line load
  have hProxy := proxyInstanceHeader_follows line load
  have hTunnel := sshTunnelHeader_follows world line load
  unfold sectionHeader ConfigNames.header
  split
  · rfl
  · exact hLog.or (hProxy.or hTunnel)

end Headers

------------------------------------------------------------
-- Entries
------------------------------------------------------------

/- An entry sets what was read, or adds something. -/
def Setting.Follows
    (config : Configuration)
    (setting : Setting ConfigLoad) :
    Option (List ConfigSetting) → Prop
  | some settings => ∃ load, setting = .value load ∧
      load.config.numbered = config.numbered.assign settings
  | none => ∀ load, setting = .value load →
      ¬load.config.Grows config

namespace Setting.Follows

variable {config : Configuration}

theorem unset :
    Setting.unset.Follows config none := by
  intro load hValue
  cases hValue

theorem overrun :
    Setting.overrun.Follows config none := by
  intro load hValue
  cases hValue

theorem sets
    {load : ConfigLoad}
    {settings : List ConfigSetting}
    (hSets :
      load.config.numbered =
        config.numbered.assign settings) :
    (Setting.value load).Follows config (some settings) :=
  ⟨load, rfl, hSets⟩

theorem adds
    {load : ConfigLoad}
    (hNot : ¬load.config.Grows config) :
    (Setting.value load).Follows config none := by
  intro load' hValue
  cases hValue
  exact hNot

/- A field that is tried. -/
theorem orElse
    {α : Type}
    (setting : Setting α)
    {use : α → Setting ConfigLoad}
    {useRead : α → Option (List ConfigSetting)}
    (hUse : ∀ a, (use a).Follows config (useRead a))
    {next : Setting ConfigLoad}
    {nextRead : Option (List ConfigSetting)}
    (hNext : next.Follows config nextRead) :
    (setting.orElse use next).Follows config
      (setting.reads useRead nextRead) := by
  cases setting with
  | unset => exact hNext
  | overrun => exact overrun
  | value a => exact hUse a

end Setting.Follows

section Entries

variable {load : ConfigLoad}

theorem logEntries_follows
    (line : Text)
    (owner : LogOwner)
    {next : Setting ConfigLoad}
    {nextRead : Option (List ConfigSetting)}
    (hNext : next.Follows load.config nextRead) :
    (logEntries line load
        (fun f config => config.setLog f owner)
        next).Follows load.config
      (load.config.names.logSettings line owner
        nextRead) := by
  unfold logEntries stringField ConfigNames.logSettings
  apply Setting.Follows.orElse
  · intro filename
    rw [← logFile_names]
    cases hFind : findLogFile load.config.logFileList
        filename.text with
    | none =>
        refine .adds fun hGrow => ?_
        simp only [hFind] at hGrow
        have hBack := (Configuration.Grows.setLog _
          owner).trans hGrow
        have hLength := hBack.logFiles_le
        rw [List.length_cons] at hLength
        omega
    | some log =>
        simp only [findOrCreateLogFile, hFind]
        exact .sets (numbered_logFile load.config owner _)
  apply Setting.Follows.orElse _ _ hNext
  intro levelStr
  dsimp only
  split
  · exact .unset
  · exact .sets (numbered_level load.config owner _)

theorem mainEntry_follows
    (line : Text) :
    (mainEntry line load).Follows load.config
      (load.config.names.mainSettings line) := by
  unfold mainEntry ConfigNames.mainSettings
  apply logEntries_follows line .main
  apply Setting.Follows.orElse
  · exact fun ulimit =>
      .sets (numbered_ulimit load.config ulimit)
  · exact .unset

theorem logFileEntry_follows
    (line : Text)
    (address : Nat) :
    (logFileEntry line address load).Follows load.config
      (logFileSettings line address) := by
  unfold logFileEntry logFileSettings
  apply Setting.Follows.orElse
  · exact fun byteCountMax =>
      .sets (numbered_byteCountMax load.config address _)
  apply Setting.Follows.orElse
  · exact fun fileRotateCount =>
      .sets (numbered_fileRotateCount load.config address _)
  · exact .unset

theorem sshTunnelEntry_follows
    (line : Text)
    (id : Nat) :
    (sshTunnelEntry line id load).Follows load.config
      (load.config.names.sshSettings line id) := by
  unfold sshTunnelEntry ConfigNames.sshSettings
  dsimp only
  apply Setting.Follows.orElse
  · exact fun socksPort =>
      .sets (numbered_socksPort load.config id socksPort)
  apply Setting.Follows.orElse
  · exact fun commandToRun =>
      .sets (numbered_commandToRun load.config id _)
  apply logEntries_follows line (.ssh id)
  exact .unset

------------------------------------------------------------
-- Services and Rules
------------------------------------------------------------

section Proxy

variable {ref : ProxyRef}
variable (hWithin : load.config.names.Within (.proxy ref))
include hWithin

theorem insertService_follows
    (srv : Option Service) :
    (insertService load ref srv).Follows load.config none := by
  cases srv with
  | none => exact .unset
  | some srv =>
      refine .adds fun hGrow => ?_
      have hLength := hGrow.services_le
        (within_updateProxy _ _ hWithin)
      rw [proxy_updateProxy_self hWithin, List.length_cons]
        at hLength
      omega

end Proxy

/-
  A load that adds no rule, or one that adds some when it is
  accepted.
-/
def LoadResult.Follows
    (load : RuleLoad)
    (result : LoadResult) : Bool → Prop
  | true => ∃ load', result = .returned true load' ∧
      load'.routes = load.routes
  | false => ∀ load', result = .returned true load' →
      load.routes.length < load'.routes.length

section Rules

variable {ref : ProxyRef}
variable (hWithin : load.config.names.Within (.proxy ref))
include hWithin

theorem addRules_follows
    {parse : RuleLoad → LoadResult}
    {idle : Bool}
    (hParse : ∀ rules, (parse rules).Follows rules idle) :
    (addRules load ref parse).Follows load.config
      (if idle then some [] else none) := by
  have hRules := hParse
    ⟨(load.config.proxy ref).routeRuleList, load.mallocs⟩
  unfold addRules
  cases idle with
  | true =>
      rcases hRules with ⟨load', hResult, hRoutes⟩
      rw [hResult]
      refine .sets ?_
      dsimp only
      rw [updateProxy_self]
      · rw [Configuration.assign_nil]
      · rw [hRoutes]
  | false =>
      cases hResult : parse
          ⟨(load.config.proxy ref).routeRuleList,
            load.mallocs⟩ with
      | crash => exact .overrun
      | returned okay rules =>
          cases okay with
          | false => exact .unset
          | true =>
              refine .adds fun hGrow => ?_
              have hLength := hGrow.rules_le
                (within_updateProxy _ _ hWithin)
              rw [proxy_updateProxy_self hWithin] at hLength
              exact absurd (hRules rules hResult)
                (Nat.not_lt.mpr hLength)

end Rules

section Loads

/- Rules are only added. -/
theorem LoadResult.Adds.length_le
    {sshTunnelList : List SshTunnel}
    {okay : Bool}
    {rules rules' : RuleLoad}
    (hAdds :
      (LoadResult.returned okay rules').Adds sshTunnelList
        rules) :
    rules.routes.length ≤ rules'.routes.length := by
  rcases hAdds with ⟨more, hRoutes, _⟩
  rw [hRoutes, List.length_append]
  omega

theorem loadRoute_follows
    (rules : RuleLoad)
    (world : FileWorld)
    (sshTunnelList : List SshTunnel)
    (spec filename : Text)
    (lineNum : Nat) :
    (loadRoute world sshTunnelList spec filename lineNum
      rules).Follows rules false := by
  intro rules' hResult
  unfold loadRoute at hResult
  dsimp only at hResult
  split at hResult
  · cases hResult
  · cases hResult
  · cases hResult
    rw [insertRouteRule_eq, List.length_append]
    exact Nat.lt_succ_self _

theorem TreeLoads.follows
    {rules : RuleLoad}
    {sshTunnelList : List SshTunnel}
    {t : IncludeTree RuleLine}
    {result : LoadResult}
    (hLoads : TreeLoads sshTunnelList t rules result) :
    result.Follows rules (treeIsIdle t) := by
  cases hIdle : treeIsIdle t with
  | true =>
      rcases Bool.and_eq_true_iff.mp hIdle with
        ⟨hAccepted, hEmpty⟩
      cases hLoads with
      | accepted hTree hRoutes =>
          refine ⟨_, rfl, ?_⟩
          exact hRoutes.eq_iff.mpr
            (List.isEmpty_iff.mp hEmpty)
      | refused hTree _ =>
          rw [t.accepted_of_refused hTree] at hAccepted
          cases hAccepted
      | crash hTree =>
          rw [hTree.1] at hAccepted
          cases hAccepted
  | false =>
      intro rules' hResult
      subst hResult
      cases hLoads with
      | accepted hTree hRoutes =>
          have hSome : t.loaded ≠ [] := by
            intro hNil
            simp [treeIsIdle, hTree, hNil] at hIdle
          rcases hRoutes with ⟨more, hMore, hRules⟩
          have hLength := List.length_pos_of_ne_nil hSome
          rw [hRules.length_eq] at hLength
          rw [hMore, List.length_append]
          omega

variable (world : ConfigWorld)
variable (config : Configuration)
variable (rules : RuleLoad)

theorem loadRouteFile_follows
    (filename : Text) :
    (loadRouteFile world.toFileWorld config.tunnels filename
      rules).Follows rules
      (fileIsIdle world config.names filename) := by
  unfold fileIsIdle
  rw [routeTree_tunnels world.toFileWorld
    (tunnelNames_names config)]
  exact (routeRuleFileParse_treeLoads world.toFileWorld
    config.tunnels (routeRuleFilenameStackSize - 1) []
    filename rules).follows

theorem loadRouteFiles_follows
    (dir : Text)
    (names : List Text) :
    (loadRouteFiles world.toFileWorld config.tunnels dir names
      rules).Follows rules
      (names.all fun name =>
        fileIsIdle world config.names
          (fullFilename dir name)) := by
  induction names generalizing rules with
  | nil => exact ⟨rules, rfl, rfl⟩
  | cons name names ih =>
      have hPath :
          (CBuf.copy (dir ++ [47] ++ name) : CBuf 4096).text =
            fullFilename dir name := rfl
      have hFile := loadRouteFile_follows world config rules
        (fullFilename dir name)
      unfold loadRouteFiles
      simp only [hPath, List.all_cons]
      cases hIdle : fileIsIdle world config.names
          (fullFilename dir name) with
      | true =>
          rw [hIdle] at hFile
          rcases hFile with ⟨rules', hResult, hRoutes⟩
          have hRest := ih rules'
          rw [hResult, Bool.true_and]
          unfold LoadResult.Follows at hRest ⊢
          rw [← hRoutes]
          exact hRest
      | false =>
          rw [hIdle] at hFile
          rw [Bool.false_and]
          intro rules'' hRest
          cases hResult : loadRouteFile world.toFileWorld
              config.tunnels (fullFilename dir name) rules with
          | crash =>
              rw [hResult] at hRest
              cases hRest
          | returned okay rules' =>
              rw [hResult] at hRest
              cases okay with
              | false => cases hRest
              | true =>
                  have hMore := loadRouteFiles_adds
                    config.tunnels rules' world.toFileWorld
                    dir names
                  dsimp only at hRest
                  rw [hRest] at hMore
                  exact (hFile rules' hResult).trans_le
                    hMore.length_le

theorem loadRouteDir_follows
    (dir : Text) :
    (loadRouteDir world config.tunnels dir rules).Follows
      rules (dirIsIdle world config.names dir) := by
  unfold loadRouteDir dirIsIdle
  cases world.directories dir with
  | none =>
      intro rules' hResult
      cases hResult
  | some entries =>
      dsimp only
      have hPerm := (sortNames_spec (routeDirNames entries)).1
      have hFiles := loadRouteFiles_follows world config rules
        dir (sortNames (routeDirNames entries).length
          (routeDirNames entries))
      rw [hPerm.all_eq] at hFiles
      split_ifs with hMany
      · rw [decide_eq_false (Nat.not_le.mpr hMany),
          Bool.false_and]
        intro rules' hResult
        cases hResult
      · rw [decide_eq_true (Nat.not_lt.mp hMany),
          Bool.true_and]
        exact hFiles

end Loads

/- The entries of a proxy section that there is. -/
theorem proxyInstanceEntry_follows
    (world : ConfigWorld)
    (filename : Text)
    (lineNum : Nat)
    (line : Text)
    {ref : ProxyRef}
    (hWithin : load.config.names.Within (.proxy ref)) :
    (proxyInstanceEntry world filename lineNum line ref
        load).Follows load.config
      (proxySettings world load.config.names line ref) := by
  unfold proxyInstanceEntry proxySettings stringField
  apply logEntries_follows line (.proxy ref)
  apply Setting.Follows.orElse
  · exact fun _ => insertService_follows hWithin _
  apply Setting.Follows.orElse
  · exact fun _ => insertService_follows hWithin _
  apply Setting.Follows.orElse
  · exact fun _ => insertService_follows hWithin _
  apply Setting.Follows.orElse
  · exact fun spec => addRules_follows hWithin fun rules =>
      loadRoute_follows rules world.toFileWorld
        load.config.tunnels spec.text filename lineNum
  apply Setting.Follows.orElse
  · exact fun name => addRules_follows hWithin fun rules =>
      loadRouteFile_follows world load.config rules name.text
  apply Setting.Follows.orElse
  · exact fun dir => addRules_follows hWithin fun rules =>
      loadRouteDir_follows world load.config rules dir.text
  · exact .unset

theorem sectionEntry_follows
    (world : ConfigWorld)
    (filename : Text)
    (lineNum : Nat)
    (line : Text)
    {current : Section}
    (hWithin : load.config.names.Within current) :
    (sectionEntry world filename lineNum line current
        load).Follows load.config
      (sectionSettings world load.config.names line
        current) := by
  cases current with
  | none => exact .unset
  | main => exact mainEntry_follows line
  | logFile address => exact logFileEntry_follows line address
  | proxy ref =>
      exact proxyInstanceEntry_follows world filename lineNum
        line hWithin
  | ssh id => exact sshTunnelEntry_follows line id

end Entries

------------------------------------------------------------
-- Lines
------------------------------------------------------------

section Plain

variable (world : ConfigWorld)
variable (filename : Text)
variable (stack : List Text)
variable (parse : Option (Text → ConfigLoad → ConfigResult))
variable (lineNum : Nat)
variable {buf : Text}

/- What an unusable line is for a configuration. -/
def LineFailure.configResult
    (load : ConfigLoad) : LineFailure → ConfigResult
  | .invalid => .returned false load
  | .overrun => .crash

theorem configFileLine_of_error
    (state : ConfigState)
    {failure : LineFailure}
    (hLine : configLine world.environ buf = .error failure) :
    configFileLine world filename stack parse lineNum buf
        state =
      .stop (failure.configResult state.load) := by
  unfold configFileLine
  simp only [hLine]
  cases failure <;> rfl

theorem configFileLine_of_blank
    (state : ConfigState)
    (hLine : configLine world.environ buf = .ok []) :
    configFileLine world filename stack parse lineNum buf
        state =
      .next state := by
  unfold configFileLine
  simp only [hLine, if_true]

end Plain

/- A line goes on with what was read, or adds something. -/
def LineStep.Follows
    (state : ConfigState)
    (step : LineStep ConfigState ConfigResult) :
    Option (Section × List ConfigSetting) → Prop
  | some (current, settings) => ∃ load,
      step = .next ⟨current, load⟩ ∧
        load.config.numbered =
          state.load.config.numbered.assign settings
  | none =>
      (∀ okay load, step ≠ .stop (.returned okay load)) ∧
        ∀ state', step = .next state' →
          ¬state'.load.config.Grows state.load.config

/- A file sets what was read, or adds something. -/
def ConfigResult.Follows
    (config : Configuration)
    (result : ConfigResult) :
    Option (List ConfigSetting) → Prop
  | some settings => ∃ okay load,
      result = .returned okay load ∧
        load.config.numbered =
          config.numbered.assign settings
  | none => ∀ okay load, result = .returned okay load →
      ¬load.config.Grows config

/- Included files, and the settings that were read. -/
def IncludesFollow
    (names : ConfigNames)
    (parse : Option (Text → ConfigLoad → ConfigResult))
    (read : Option (Text → Option (List ConfigSetting))) :
    Prop :=
  (parse = none ∧ read = none) ∨
    ∃ p r, parse = some p ∧ read = some r ∧
      ∀ name (load : ConfigLoad),
        load.config.names = names →
          (p name load).Follows load.config (r name)

section Lines

variable (world : ConfigWorld)
variable (filename : Text)
variable (stack : List Text)
variable {parse : Option (Text → ConfigLoad → ConfigResult)}
variable {read : Option (Text → Option (List ConfigSetting))}

theorem includeGuard_follow
    {names : ConfigNames}
    (hIncludes : IncludesFollow names parse read)
    (name : Text) :
    (includeGuard stack parse name = none ∧
        includeGuard stack read name = none) ∨
      ∃ p r, includeGuard stack parse name = some p ∧
        includeGuard stack read name = some r ∧
        ∀ load : ConfigLoad, load.config.names = names →
          (p load).Follows load.config r :=
  includeGuard_paired
    (fun (p : ConfigLoad → ConfigResult) r =>
      ∀ load : ConfigLoad, load.config.names = names →
        (p load).Follows load.config r)
    hIncludes stack name

theorem sectionLine_follows
    (lineNum : Nat)
    (line : Text)
    (state : ConfigState)
    (hWithin :
      state.load.config.names.Within state.current) :
    LineStep.Follows state
      (sectionLine world filename lineNum line state)
      (match state.load.config.names.header line with
        | some header =>
            header.map fun current => (current, [])
        | none =>
            (sectionSettings world state.load.config.names line
                state.current).map
              fun settings => (state.current, settings)) := by
  have hHeader := sectionHeader_follows world line state.load
  have hEntry := sectionEntry_follows world filename lineNum
    line hWithin
  unfold sectionLine
  cases hRead : state.load.config.names.header line with
  | none =>
      rw [hRead] at hHeader
      have hOther : sectionHeader world line state.load =
          .other := hHeader
      rw [hOther]
      dsimp only
      cases hSettings : sectionSettings world
          state.load.config.names line state.current with
      | none =>
          rw [hSettings] at hEntry
          cases hSetting : sectionEntry world filename lineNum
              line state.current state.load with
          | unset => exact ⟨by simp, by simp⟩
          | overrun => exact ⟨by simp, by simp⟩
          | value load =>
              refine ⟨by simp, fun state' hNext => ?_⟩
              cases hNext
              exact hEntry load hSetting
      | some settings =>
          rw [hSettings] at hEntry
          rcases hEntry with ⟨load, hSetting, hSame⟩
          rw [hSetting]
          exact ⟨load, rfl, hSame⟩
  | some header =>
      rw [hRead] at hHeader
      cases header with
      | none =>
          cases hResult :
              sectionHeader world line state.load with
          | other => exact absurd hResult hHeader.1
          | exited => exact ⟨by simp, by simp⟩
          | overrun => exact ⟨by simp, by simp⟩
          | enter current load =>
              refine ⟨by simp, fun state' hNext => ?_⟩
              cases hNext
              exact hHeader.2 current load hResult
      | some current =>
          have hEnter : sectionHeader world line state.load =
              .enter current state.load := hHeader
          rw [hEnter]
          refine ⟨state.load, rfl, ?_⟩
          rw [Configuration.assign_nil]

/- A line that is not blank. -/
theorem configFileLine_follows
    {state : ConfigState}
    (hIncludes :
      IncludesFollow state.load.config.names parse read)
    {buf line : Text}
    (hLine : configLine world.environ buf = .ok line)
    (hSome : line ≠ [])
    (lineNum : Nat)
    (hWithin :
      state.load.config.names.Within state.current) :
    LineStep.Follows state
      (configFileLine world filename stack parse lineNum buf
        state)
      (lineSettings world state.load.config.names stack read
        line state.current) := by
  unfold configFileLine lineSettings
  simp only [hLine, if_neg hSome]
  cases configSetString stringBufLen line
      (field "include ") with
  | overrun => exact ⟨by simp, by simp⟩
  | unset =>
      exact sectionLine_follows world filename lineNum line
        state hWithin
  | value name =>
      rcases includeGuard_follow stack hIncludes
          name.text with ⟨hParse, hRead⟩ |
          ⟨p, r, hParse, hRead, hFollows⟩
      · simp only [hParse, hRead]
        refine ⟨state.load, rfl, ?_⟩
        rw [Configuration.assign_nil]
      · simp only [hParse, hRead]
        have hHere := hFollows state.load rfl
        cases r with
        | none =>
            cases hResult : p state.load with
            | crash => exact ⟨by simp, by simp⟩
            | exited => exact ⟨by simp, by simp⟩
            | returned okay load =>
                refine ⟨by simp, fun state' hNext => ?_⟩
                cases hNext
                exact hHere okay load hResult
        | some settings =>
            rcases hHere with ⟨okay, load, hResult, hSame⟩
            rw [hResult]
            exact ⟨load, rfl, hSame⟩

/- What was read before is kept by what follows. -/
theorem ConfigResult.Follows.after
    {config config' : Configuration}
    {result : ConfigResult}
    {later earlier : List ConfigSetting}
    (hSame :
      config'.numbered = config.numbered.assign earlier)
    (hResult : result.Follows config' (some later)) :
    result.Follows config (some (later ++ earlier)) := by
  rcases hResult with ⟨okay, load, hReturned, hLater⟩
  refine ⟨okay, load, hReturned, ?_⟩
  rw [Configuration.assign_append, ← hSame, hLater]

end Lines

------------------------------------------------------------
-- Sections That There Are
------------------------------------------------------------

/- A header begins a section of an object. -/
theorem within_namedHeader
    {names : ConfigNames}
    {line keyword : Text}
    {fallback : Section}
    {find : Text → Option Section}
    (hFallback : names.Within fallback)
    (hFind : ∀ name current,
      find name = some current → names.Within current)
    {current : Section}
    (hHeader :
      namedHeader line keyword fallback find =
        some (some current)) :
    names.Within current := by
  rcases Option.map_eq_some_iff.mp hHeader with
    ⟨name, _, hCurrent⟩
  split_ifs at hCurrent
  · cases hCurrent
    exact hFallback
  · exact hFind name current hCurrent

theorem within_header
    {names : ConfigNames}
    {line : Text}
    {current : Section}
    (hHeader : names.header line = some (some current)) :
    names.Within current := by
  unfold ConfigNames.header at hHeader
  split_ifs at hHeader
  · cases hHeader
    trivial
  rcases Option.or_eq_some_iff.mp hHeader with
    hLog | ⟨_, hHeader⟩
  · refine within_namedHeader ?_ ?_ hLog
    · trivial
    intro name current hCurrent
    rcases Option.map_eq_some_iff.mp hCurrent with
      ⟨_, _, rfl⟩
    trivial
  rcases Option.or_eq_some_iff.mp hHeader with
    hProxy | ⟨_, hTunnel⟩
  · refine within_namedHeader ?_ ?_ hProxy
    · trivial
    intro name current hCurrent
    rcases Option.map_eq_some_iff.mp hCurrent with
      ⟨index, hIndex, rfl⟩
    exact (List.findIdx?_eq_some_iff_findIdx_eq.mp hIndex).1
  · refine within_namedHeader ?_ ?_ hTunnel
    · trivial
    intro name current hCurrent
    rcases Option.map_eq_some_iff.mp hCurrent with
      ⟨_, _, rfl⟩
    trivial

theorem within_lineSettings
    {world : ConfigWorld}
    {names : ConfigNames}
    {stack : List Text}
    {read : Option (Text → Option (List ConfigSetting))}
    {line : Text}
    {current current' : Section}
    {settings : List ConfigSetting}
    (hWithin : names.Within current)
    (hRead :
      lineSettings world names stack read line current =
        some (current', settings)) :
    names.Within current' := by
  unfold lineSettings at hRead
  split at hRead
  · cases hRead
  · split at hRead
    · cases hRead
      exact hWithin
    · rcases Option.map_eq_some_iff.mp hRead with
        ⟨_, _, hPair⟩
      cases hPair
      exact hWithin
  · split at hRead
    · rename_i header hHeader
      rcases Option.map_eq_some_iff.mp hRead with
        ⟨_, hCurrent, hPair⟩
      cases hPair
      rw [hCurrent] at hHeader
      exact within_header hHeader
    · rcases Option.map_eq_some_iff.mp hRead with
        ⟨_, _, hPair⟩
      cases hPair
      exact hWithin

------------------------------------------------------------
-- Files
------------------------------------------------------------

section Files

variable (world : ConfigWorld)
variable (filename : Text)
variable (stack : List Text)
variable {parse : Option (Text → ConfigLoad → ConfigResult)}
variable {read : Option (Text → Option (List ConfigSetting))}

/- The rest of a file only adds to what there is. -/
theorem configFileRun_grows
    (hChanges :
      ∀ p ∈ parse, ∀ name load,
        (p name load).Makes world load)
    (reads : LineReads)
    (lineNum : Nat)
    (state : ConfigState)
    {okay : Bool}
    {load : ConfigLoad}
    (hResult :
      reads.run (configFileLine world filename stack parse)
          (fun state => .returned true state.load)
          (fun state => .returned false state.load)
          lineNum state =
        .returned okay load) :
    state.load.config.Grows load.config := by
  have hMakes : ConfigResult.Makes world state.load
      (reads.run (configFileLine world filename stack parse)
        (fun state => .returned true state.load)
        (fun state => .returned false state.load)
        lineNum state) := by
    apply LineReads.run_satisfies
      (configFileLine_changes world filename stack hChanges)
    · exact fun _ hState => hState
    · exact fun _ hState => hState
    · exact .refl
  rw [hResult] at hMakes
  exact Changes.grows hMakes

/-
  The lines of a file, one after the other.  What a line adds
  is there until the end.
-/
theorem configFileRun_follows
    {names : ConfigNames}
    (hIncludes : IncludesFollow names parse read)
    (hChanges :
      ∀ p ∈ parse, ∀ name load,
        (p name load).Makes world load)
    (reads : LineReads)
    (lineNum : Nat)
    (state : ConfigState)
    (hNames : state.load.config.names = names)
    (hWithin : names.Within state.current) :
    (reads.run
        (configFileLine world filename stack parse)
        (fun state => .returned true state.load)
        (fun state => .returned false state.load)
        lineNum state).Follows state.load.config
      (linesSettings world names stack read reads
        state.current) := by
  induction reads generalizing lineNum state with
  | failed =>
      refine ⟨false, state.load, rfl, ?_⟩
      rw [Configuration.assign_nil]
  | eof buf =>
      refine ⟨true, state.load, rfl, ?_⟩
      rw [Configuration.assign_nil]
  | line buf more ih =>
      have hLineChanges := configFileLine_changes world
        filename stack hChanges lineNum buf state .refl
      rw [linesSettings, LineReads.run]
      cases hLine : configLine world.environ buf with
      | error failure =>
          rw [configFileLine_of_error _ _ _ _ _ _ hLine]
          cases failure with
          | invalid =>
              refine ⟨false, state.load, rfl, ?_⟩
              rw [Configuration.assign_nil]
          | overrun =>
              intro okay load hResult
              cases hResult
      | ok line =>
          cases line with
          | nil =>
              rw [configFileLine_of_blank _ _ _ _ _ _ hLine]
              exact ih (lineNum + 1) state hNames hWithin
          | cons c cs =>
              subst hNames
              have hStep := configFileLine_follows world
                filename stack hIncludes hLine
                (List.cons_ne_nil c cs) lineNum hWithin
              dsimp only
              cases hRead : lineSettings world
                  state.load.config.names stack read (c :: cs)
                  state.current with
              | none =>
                  rw [hRead] at hStep
                  intro okay load hResult hGrow
                  cases hNext : configFileLine world filename
                      stack parse lineNum buf state with
                  | stop result =>
                      rw [hNext] at hResult
                      exact hStep.1 okay load
                        (hNext.trans (congrArg _ hResult))
                  | next state' =>
                      rw [hNext] at hResult
                      have hRest := configFileRun_grows world
                        filename stack hChanges more
                        (lineNum + 1) state' hResult
                      exact hStep.2 state' hNext
                        (hRest.trans hGrow)
              | some read =>
                  rcases read with ⟨current, settings⟩
                  have hCurrent :=
                    within_lineSettings hWithin hRead
                  rw [hRead] at hStep
                  rcases hStep with ⟨load, hNext, hSame⟩
                  have hNames : load.config.names =
                      state.load.config.names := by
                    rw [← load.config.names_numbered, hSame,
                      Configuration.names_assign,
                      Configuration.names_numbered]
                  have hRest := ih (lineNum + 1)
                    ⟨current, load⟩ hNames hCurrent
                  rw [hNext] at hLineChanges ⊢
                  dsimp only [Option.bind_some]
                  cases hLater : linesSettings world
                      state.load.config.names stack read more
                      current with
                  | none =>
                      rw [hLater] at hRest
                      intro okay load' hResult hGrow
                      exact hRest okay load' hResult
                        (hGrow.trans
                          (Changes.grows hLineChanges))
                  | some later =>
                      rw [hLater] at hRest
                      exact hRest.after hSame

theorem configFileBody_follows
    {load : ConfigLoad}
    (hIncludes : IncludesFollow load.config.names parse read)
    (hChanges :
      ∀ p ∈ parse, ∀ name load,
        (p name load).Makes world load) :
    (configFileBody world filename stack parse load).Follows
      load.config
      (fileSettings world load.config.names filename stack
        read) := by
  unfold configFileBody fileSettings
  cases world.files filename with
  | none =>
      refine ⟨false, load, rfl, ?_⟩
      rw [Configuration.assign_nil]
  | some file =>
      exact configFileRun_follows world filename stack
        hIncludes hChanges (readLines maxLineLength file) 1
        ⟨.none, load⟩ rfl trivial

end Files

section Includes

variable (world : ConfigWorld)

/- What a file with so much room can include. -/
def configsBelow :
    Nat → List Text →
      Option (Text → ConfigLoad → ConfigResult)
  | 0, _ => none
  | room + 1, stack =>
      some (configFileParse world room stack)

theorem configFileParse_eq
    (room : Nat)
    (stack : List Text)
    (filename : Text)
    (load : ConfigLoad) :
    configFileParse world room stack filename load =
      configFileBody world filename (stack ++ [filename])
        (configsBelow world room (stack ++ [filename]))
        load := by
  cases room <;> rfl

theorem configsBelow_changes
    (room : Nat)
    (stack : List Text) :
    ∀ p ∈ configsBelow world room stack, ∀ name load,
      (p name load).Makes world load := by
  intro p hParse name load
  cases room with
  | zero => cases hParse
  | succ room =>
      cases hParse
      exact configFileParse_changes world room stack name load

/-
  A file, with all that it includes, sets exactly what its
  text sets, or adds something, or ends the process.
-/
theorem configFileParse_follows
    (room : Nat)
    (stack : List Text)
    (filename : Text)
    (load : ConfigLoad) :
    (configFileParse world room stack filename load).Follows
      load.config
      (treeSettings world load.config.names room stack
        filename) := by
  induction room generalizing stack filename load with
  | zero =>
      exact configFileBody_follows world filename _
        (.inl ⟨rfl, rfl⟩) (configsBelow_changes world 0 [])
  | succ room ih =>
      apply configFileBody_follows world filename
      · refine .inr ⟨_, _, rfl, rfl, ?_⟩
        intro name load' hNames
        have hInner := ih (stack ++ [filename]) name load'
        rw [hNames] at hInner
        exact hInner
      · exact configsBelow_changes world (room + 1) _

/- The settings of what a file with so much room includes. -/
def settingsBelow
    (names : ConfigNames) :
    Nat → List Text →
      Option (Text → Option (List ConfigSetting))
  | 0, _ => none
  | room + 1, stack =>
      some (treeSettings world names room stack)

theorem includesFollow_below
    (names : ConfigNames)
    (room : Nat)
    (stack : List Text) :
    IncludesFollow names (configsBelow world room stack)
      (settingsBelow world names room stack) := by
  cases room with
  | zero => exact .inl ⟨rfl, rfl⟩
  | succ room =>
      refine .inr ⟨_, _, rfl, rfl, ?_⟩
      rintro name load rfl
      exact configFileParse_follows world room stack name load

end Includes

end SmartSOCKSProxy
