import SmartSOCKSProxy.Config.RouteLoading
import SmartSOCKSProxy.Config.RuleArrays

/-
  The changes that a configuration is made of.

  Whatever files, includes, sections and entries there are,
  what is configured changes in few ways: objects are added,
  their settings are set, and rules are added that the parser
  has made with the tunnels of that moment.

  Key definitions include:
    * `ParsedRule`, `LoadResult.Adds`
    * `LogOwner`, `ConfigChange`, `Changes`
    * `ProxyConfig.Grows`, `Configuration.Grows`

  Key theorems include:
    * `sectionEntry_changes`, `sectionHeader_changes`
    * `configFileParse_changes`
    * `Configured.changes`
    * `configFileParse_grows`
-/

namespace SmartSOCKSProxy

------------------------------------------------------------
-- Rules
------------------------------------------------------------

/- What the parser makes of some text with these tunnels. -/
def ParsedRule
    (sshTunnelList : List SshTunnel)
    (route : RouteRule) : Prop :=
  ∃ junk strIn filename lineNum,
    parseRouteRuleSpec junk strIn filename lineNum
      sshTunnelList = .ok route

/- Parsed rules are added behind the others. -/
def LoadResult.Adds
    (sshTunnelList : List SshTunnel)
    (load : RuleLoad) : LoadResult → Prop
  | .crash => True
  | .returned _ load' => ∃ rules,
      load'.routes = load.routes ++ rules ∧
        ∀ route ∈ rules, ParsedRule sshTunnelList route

section Rules

variable (sshTunnelList : List SshTunnel)
variable (load : RuleLoad)

theorem Extends.adds
    {sshTunnelList : List SshTunnel}
    {lines : List RuleLine}
    {before after : List RouteRule}
    (hExtends : Extends sshTunnelList lines before after) :
    ∃ rules, after = before ++ rules ∧
      ∀ route ∈ rules, ParsedRule sshTunnelList route := by
  rcases hExtends with ⟨rules, hAfter, hRules⟩
  refine ⟨rules, hAfter, fun route hMem => ?_⟩
  clear hAfter
  induction hRules with
  | nil => contradiction
  | cons hRule _ ih =>
      rcases List.mem_cons.mp hMem with rfl | hMem
      · rcases hRule with ⟨junk, hParse⟩
        exact ⟨junk, _, _, _, hParse⟩
      · exact ih hMem

theorem loadRoute_adds
    (world : FileWorld)
    (spec filename : Text)
    (lineNum : Nat) :
    (loadRoute world sshTunnelList spec filename lineNum
      load).Adds sshTunnelList load := by
  unfold loadRoute
  dsimp only
  cases hParse : parseRouteRuleSpec (world.junk load.mallocs)
      spec (some filename) lineNum sshTunnelList with
  | error failure =>
      cases failure with
      | null => exact ⟨[], by simp, by simp⟩
      | crash => trivial
  | ok route =>
      refine ⟨[route], insertRouteRule_eq load.routes route,
        fun other hOther => ?_⟩
      rw [List.mem_singleton.mp hOther]
      exact ⟨_, _, _, _, hParse⟩

theorem loadRouteFile_adds
    (world : FileWorld)
    (filename : Text) :
    (loadRouteFile world sshTunnelList filename load).Adds
      sshTunnelList load := by
  have hTree := routeRuleFileParse_treeLoads world
    sshTunnelList (routeRuleFilenameStackSize - 1) []
    filename load
  unfold loadRouteFile
  generalize routeRuleFileParse world sshTunnelList
    (routeRuleFilenameStackSize - 1) [] filename load =
      result at hTree ⊢
  cases hTree with
  | accepted _ hRoutes => exact hRoutes.adds
  | refused _ hRoutes => exact hRoutes.adds
  | crash => trivial

theorem LoadResult.Adds.trans
    {sshTunnelList : List SshTunnel}
    {load load' : RuleLoad}
    {okay : Bool}
    {result : LoadResult}
    (hFirst :
      (LoadResult.returned okay load').Adds sshTunnelList
        load)
    (hRest : result.Adds sshTunnelList load') :
    result.Adds sshTunnelList load := by
  cases result with
  | crash => trivial
  | returned okay' load'' =>
      rcases hFirst with ⟨rules, hRules, hParsed⟩
      rcases hRest with ⟨more, hMore, hParsed'⟩
      refine ⟨rules ++ more, ?_, fun route hMem => ?_⟩
      · rw [hMore, hRules, List.append_assoc]
      · rcases List.mem_append.mp hMem with hMem | hMem
        · exact hParsed route hMem
        · exact hParsed' route hMem

theorem loadRouteFiles_adds
    (world : FileWorld)
    (dir : Text)
    (names : List Text) :
    (loadRouteFiles world sshTunnelList dir names load).Adds
      sshTunnelList load := by
  induction names generalizing load with
  | nil => exact ⟨[], by simp, by simp⟩
  | cons name names ih =>
      have hFile := loadRouteFile_adds sshTunnelList load
        world (CBuf.copy (dir ++ [47] ++ name) : CBuf 4096).text
      unfold loadRouteFiles
      dsimp only
      cases hResult : loadRouteFile world sshTunnelList
          (CBuf.copy (dir ++ [47] ++ name) : CBuf 4096).text
          load with
      | crash => trivial
      | returned okay load' =>
          rw [hResult] at hFile
          cases okay with
          | true => exact hFile.trans (ih load')
          | false => exact hFile

theorem loadRouteDir_adds
    (world : ConfigWorld)
    (dir : Text) :
    (loadRouteDir world sshTunnelList dir load).Adds
      sshTunnelList load := by
  unfold loadRouteDir
  cases world.directories dir with
  | none => exact ⟨[], by simp, by simp⟩
  | some entries =>
      dsimp only
      split
      · trivial
      · exact loadRouteFiles_adds sshTunnelList load
          world.toFileWorld dir _

end Rules

------------------------------------------------------------
-- Changes
------------------------------------------------------------

/- Who has log settings. -/
inductive LogOwner where
| main
| proxy (ref : ProxyRef)
| ssh (id : Nat)
deriving DecidableEq, Repr

def Configuration.setLog
    (config : Configuration)
    (f : LogConfig → LogConfig) : LogOwner → Configuration
  | .main =>
      { config with
        mainConf :=
          { config.mainConf with
            log := f config.mainConf.log } }
  | .proxy ref =>
      config.updateProxy
        (fun proxy => { proxy with log := f proxy.log }) ref
  | .ssh id =>
      config.updateSsh id
        fun ssh => { ssh with log := f ssh.log }

/- The numbers of the log files, without the default one. -/
def Configuration.logAddresses
    (config : Configuration) : List Nat :=
  config.logFileList.map LogFileConfig.address

/- What new_ssh_tunnel() makes, with a name. -/
def newSshConfig
    (world : ConfigWorld)
    (id : Nat)
    (name : CBuf 200) : SshConfig where
  tunnel :=
    { id
      name
      socksPort := 0
      commandToRun := CBuf.empty }
  log := world.junkLog id

/- One change of what is configured. -/
inductive ConfigChange
    (world : ConfigWorld)
    (load : ConfigLoad) : ConfigLoad → Prop
| ulimit (ulimit : Int) :
    ConfigChange world load
      { load with
        config :=
          { load.config with
            mainConf := { load.config.mainConf with ulimit } } }
| newLogFile (filename : Text) :
    ConfigChange world load
      { load with
        config := (findOrCreateLogFile load.config filename).1 }
| limits
    (address : Nat)
    (f : LogFileConfig → LogFileConfig)
    (hKeeps : ∀ log, (f log).address = log.address ∧
      (f log).fileName = log.fileName) :
    ConfigChange world load
      { load with
        config := load.config.updateLogFile address f }
| logsTo
    (owner : LogOwner)
    (address : Nat)
    (hListed : address ∈ load.config.logAddresses) :
    ConfigChange world load
      { load with
        config :=
          load.config.setLog
            (fun log => { log with file := some address })
            owner }
| level
    (owner : LogOwner)
    (level : Int) :
    ConfigChange world load
      { load with
        config :=
          load.config.setLog (fun log => { log with level })
            owner }
| newProxy (name : CBuf 1024) :
    ConfigChange world load
      { load with
        config :=
          { load.config with
            proxyInstanceList :=
              load.config.proxyInstanceList ++
                [{ name
                   log := load.config.proxyDefault.log
                   serviceList := []
                   routeRuleList := [] }] } }
| newTunnel (name : CBuf 200) :
    ConfigChange world load
      { load with
        sshIdPool := load.sshIdPool + 1
        config :=
          { load.config with
            sshTunnelList :=
              newSshConfig world (load.sshIdPool + 1) name ::
                load.config.sshTunnelList } }
| tunnel
    (id : Nat)
    (f : SshTunnel → SshTunnel)
    (hKeeps : ∀ tun,
      (f tun).id = tun.id ∧ (f tun).name = tun.name) :
    ConfigChange world load
      { load with
        config :=
          load.config.updateSsh id
            fun ssh => { ssh with tunnel := f ssh.tunnel } }
| newService
    (ref : ProxyRef)
    (srv : Service) :
    ConfigChange world load
      { load with
        serviceIdPool := srv.id
        config :=
          load.config.updateProxy
            (fun proxy =>
              { proxy with
                serviceList := srv :: proxy.serviceList })
            ref }
| newRules
    (ref : ProxyRef)
    (rules : List RouteRule)
    (mallocs : Nat)
    (hParsed : ∀ route ∈ rules,
      ParsedRule load.config.tunnels route) :
    ConfigChange world load
      { load with
        mallocs := mallocs
        config :=
          load.config.updateProxy
            (fun proxy =>
              { proxy with
                routeRuleList :=
                  (load.config.proxy ref).routeRuleList ++
                    rules })
            ref }

/- Any number of changes. -/
abbrev Changes
    (world : ConfigWorld) :
    ConfigLoad → ConfigLoad → Prop :=
  Relation.ReflTransGen (ConfigChange world)

theorem findOrCreateLogFile_listed
    (config : Configuration)
    (filename : Text) :
    (findOrCreateLogFile config filename).2 ∈
      (findOrCreateLogFile config filename).1.logAddresses := by
  unfold findOrCreateLogFile
  cases hFind : findLogFile config.logFileList filename with
  | none => exact List.mem_cons_self
  | some log =>
      exact List.mem_map.mpr
        ⟨log, List.mem_of_find?_eq_some hFind, rfl⟩

section Entries

variable {world : ConfigWorld}
variable {load : ConfigLoad}

/- A setting that makes some changes. -/
abbrev Setting.Makes
    (world : ConfigWorld)
    (load : ConfigLoad)
    (setting : Setting ConfigLoad) : Prop :=
  setting.Satisfies (Changes world load)

theorem logEntries_changes
    (line : Text)
    (owner : LogOwner)
    {next : Setting ConfigLoad}
    (hNext : next.Makes world load) :
    (logEntries line load
      (fun f config => config.setLog f owner)
      next).Makes world load := by
  unfold logEntries stringField
  apply Setting.orElse_satisfies
  · intro filename
    have hFile : ConfigChange world load _ :=
      .newLogFile filename.text
    refine .tail (.single hFile) (.logsTo owner _ ?_)
    exact findOrCreateLogFile_listed load.config filename.text
  apply Setting.orElse_satisfies _ _ hNext
  intro levelStr
  dsimp only
  split
  · trivial
  · exact .single (.level owner _)

theorem mainEntry_changes
    (line : Text) :
    (mainEntry line load).Makes world load := by
  unfold mainEntry
  apply logEntries_changes line .main
  apply Setting.orElse_satisfies
  · exact fun ulimit => .single (.ulimit ulimit)
  · trivial

theorem logFileEntry_changes
    (line : Text)
    (address : Nat) :
    (logFileEntry line address load).Makes world load := by
  unfold logFileEntry
  apply Setting.orElse_satisfies
  · exact fun byteCountMax =>
      .single (.limits address _ fun _ => ⟨rfl, rfl⟩)
  apply Setting.orElse_satisfies
  · exact fun fileRotateCount =>
      .single (.limits address _ fun _ => ⟨rfl, rfl⟩)
  · trivial

theorem sshTunnelEntry_changes
    (line : Text)
    (id : Nat) :
    (sshTunnelEntry line id load).Makes world load := by
  unfold sshTunnelEntry
  dsimp only
  apply Setting.orElse_satisfies
  · exact fun socksPort =>
      .single (.tunnel id (fun tun => { tun with socksPort })
        fun _ => ⟨rfl, rfl⟩)
  apply Setting.orElse_satisfies
  · exact fun commandToRun =>
      .single (.tunnel id
        (fun tun => { tun with commandToRun })
        fun _ => ⟨rfl, rfl⟩)
  apply logEntries_changes line (.ssh id)
  trivial

theorem insertService_changes
    (ref : ProxyRef)
    (srv : Option Service) :
    (insertService load ref srv).Makes world load := by
  cases srv with
  | none => trivial
  | some srv => exact .single (.newService ref srv)

theorem addRules_changes
    (ref : ProxyRef)
    {parse : RuleLoad → LoadResult}
    (hParse : ∀ rules,
      (parse rules).Adds load.config.tunnels rules) :
    (addRules load ref parse).Makes world load := by
  have hAdds := hParse
    ⟨(load.config.proxy ref).routeRuleList, load.mallocs⟩
  unfold addRules
  cases hResult : parse
      ⟨(load.config.proxy ref).routeRuleList,
        load.mallocs⟩ with
  | crash => trivial
  | returned okay rules =>
      rw [hResult] at hAdds
      cases okay with
      | false => trivial
      | true =>
          rcases hAdds with ⟨new, hRoutes, hParsed⟩
          dsimp only [Setting.Makes, Setting.Satisfies]
          rw [hRoutes]
          exact .single
            (.newRules ref new rules.mallocs hParsed)

theorem proxyInstanceEntry_changes
    (filename : Text)
    (lineNum : Nat)
    (line : Text)
    (ref : ProxyRef) :
    (proxyInstanceEntry world filename lineNum line ref
      load).Makes world load := by
  unfold proxyInstanceEntry stringField
  apply logEntries_changes line (.proxy ref)
  apply Setting.orElse_satisfies
  · exact fun _ => insertService_changes ref _
  apply Setting.orElse_satisfies
  · exact fun _ => insertService_changes ref _
  apply Setting.orElse_satisfies
  · exact fun _ => insertService_changes ref _
  apply Setting.orElse_satisfies
  · intro spec
    apply addRules_changes ref
    exact fun rules => loadRoute_adds _ rules
      world.toFileWorld spec.text filename lineNum
  apply Setting.orElse_satisfies
  · intro name
    apply addRules_changes ref
    exact fun rules => loadRouteFile_adds _ rules
      world.toFileWorld name.text
  apply Setting.orElse_satisfies
  · intro dir
    apply addRules_changes ref
    exact fun rules => loadRouteDir_adds _ rules world
      dir.text
  · trivial

theorem sectionEntry_changes
    (filename : Text)
    (lineNum : Nat)
    (line : Text)
    (current : Section) :
    (sectionEntry world filename lineNum line current
      load).Makes world load := by
  unfold sectionEntry
  cases current with
  | none => trivial
  | main => exact mainEntry_changes line
  | logFile address => exact logFileEntry_changes line address
  | proxy ref =>
      exact proxyInstanceEntry_changes filename lineNum line
        ref
  | ssh id => exact sshTunnelEntry_changes line id

end Entries

/- What changes in front of a section that begins. -/
def Header.Makes
    (world : ConfigWorld)
    (load : ConfigLoad) : Header → Prop
  | .enter _ load' => Changes world load load'
  | _ => True

section Headers

variable (world : ConfigWorld)
variable (load : ConfigLoad)
variable (line : Text)

theorem namedSection_changes
    (keyword : Text)
    (fallback : Section)
    (find : Text → Option Section)
    {create : Text → Header}
    (hCreate : ∀ name, (create name).Makes world load) :
    (namedSection line keyword load fallback find
      create).Makes world load := by
  unfold namedSection
  cases matchStart line keyword with
  | none => trivial
  | some name =>
      dsimp only
      split
      · trivial
      split
      · exact .refl
      · cases find name with
        | none => exact hCreate name
        | some current => exact .refl

theorem logFileHeader_changes :
    (logFileHeader line load).Makes world load := by
  apply namedSection_changes
  exact fun name => .single (.newLogFile name)

theorem proxyInstanceHeader_changes :
    (proxyInstanceHeader line load).Makes world load := by
  apply namedSection_changes
  intro name
  cases fillBuf 1024 name with
  | unset => trivial
  | overrun => trivial
  | value name => exact .single (.newProxy name)

theorem sshTunnelHeader_changes :
    (sshTunnelHeader world line load).Makes world load := by
  apply namedSection_changes
  intro name
  cases fillBuf 200 name with
  | unset => trivial
  | overrun => trivial
  | value name => exact .single (.newTunnel name)

theorem sectionHeader_changes :
    (sectionHeader world line load).Makes world load := by
  have hLog := logFileHeader_changes world load line
  have hProxy := proxyInstanceHeader_changes world load line
  unfold sectionHeader
  split
  · exact .refl
  cases hFirst : logFileHeader line load with
  | exited => trivial
  | overrun => trivial
  | enter current load' =>
      rw [hFirst] at hLog
      exact hLog
  | other =>
      cases hSecond : proxyInstanceHeader line load with
      | exited => trivial
      | overrun => trivial
      | enter current load' =>
          rw [hSecond] at hProxy
          exact hProxy
      | other => exact sshTunnelHeader_changes world load line

end Headers

------------------------------------------------------------
-- Changes by Files
------------------------------------------------------------

/- What a file has changed when it returns. -/
def ConfigResult.Makes
    (world : ConfigWorld)
    (load : ConfigLoad) : ConfigResult → Prop
  | .returned _ load' => Changes world load load'
  | _ => True

theorem ConfigResult.Makes.after
    {world : ConfigWorld}
    {load load' : ConfigLoad}
    {result : ConfigResult}
    (hBefore : Changes world load load')
    (hResult : result.Makes world load') :
    result.Makes world load := by
  cases result with
  | crash => trivial
  | exited => trivial
  | returned okay load'' => exact hBefore.trans hResult

section Files

variable (world : ConfigWorld)

theorem sectionLine_changes
    (filename : Text)
    (lineNum : Nat)
    (line : Text)
    {load : ConfigLoad}
    {state : ConfigState}
    (hState : Changes world load state.load) :
    (sectionLine world filename lineNum line state).Satisfies
      (fun state => Changes world load state.load)
      (ConfigResult.Makes world load) := by
  have hHeader := sectionHeader_changes world state.load line
  have hEntry : Setting.Makes world state.load
      (sectionEntry world filename lineNum line state.current
        state.load) :=
    sectionEntry_changes filename lineNum line state.current
  unfold sectionLine
  cases hResult : sectionHeader world line state.load with
  | exited => trivial
  | overrun => trivial
  | enter current load' =>
      rw [hResult] at hHeader
      exact hState.trans hHeader
  | other =>
      dsimp only
      cases hSetting : sectionEntry world filename lineNum line
          state.current state.load with
      | unset => trivial
      | overrun => trivial
      | value load' =>
          rw [hSetting] at hEntry
          exact hState.trans hEntry

theorem configFileLine_changes
    (filename : Text)
    (stack : List Text)
    {included : Option (Text → ConfigLoad → ConfigResult)}
    (hIncluded :
      ∀ parse ∈ included, ∀ name load,
        (parse name load).Makes world load)
    {load : ConfigLoad}
    (lineNum : Nat)
    (buf : Text)
    (state : ConfigState)
    (hState : Changes world load state.load) :
    (configFileLine world filename stack included lineNum buf
        state).Satisfies
      (fun state => Changes world load state.load)
      (ConfigResult.Makes world load) := by
  unfold configFileLine
  cases configLine world.environ buf with
  | error failure =>
      cases failure with
      | invalid => exact hState
      | overrun => trivial
  | ok line =>
      dsimp only
      split
      · exact hState
      cases configSetString stringBufLen line
          (field "include ") with
      | overrun => trivial
      | unset =>
          exact sectionLine_changes world filename lineNum line
            hState
      | value name =>
          dsimp only
          cases hGuard :
              includeGuard stack included name.text with
          | none => exact hState
          | some parse =>
              have hMakes :
                  (parse state.load).Makes world load := by
                rcases of_includeGuard hGuard with
                  ⟨parseFile, hFile, rfl⟩
                exact .after hState
                  (hIncluded parseFile hFile name.text
                    state.load)
              dsimp only
              cases hResult : parse state.load with
              | crash => trivial
              | exited => trivial
              | returned okay load' =>
                  rw [hResult] at hMakes
                  exact hMakes

theorem configFileBody_changes
    (filename : Text)
    (stack : List Text)
    {included : Option (Text → ConfigLoad → ConfigResult)}
    (hIncluded :
      ∀ parse ∈ included, ∀ name load,
        (parse name load).Makes world load)
    (load : ConfigLoad) :
    (configFileBody world filename stack included
      load).Makes world load := by
  unfold configFileBody
  cases world.files filename with
  | none => exact .refl
  | some file =>
      apply LineReads.run_satisfies
        (configFileLine_changes world filename stack hIncluded)
      · exact fun _ hState => hState
      · exact fun _ hState => hState
      · exact .refl

/- So does every file, with the files that it includes. -/
theorem configFileParse_changes
    (room : Nat)
    (stack : List Text)
    (filename : Text)
    (load : ConfigLoad) :
    (configFileParse world room stack filename load).Makes
      world load := by
  induction room generalizing stack filename load with
  | zero =>
      apply configFileBody_changes
      intro parse hParse
      cases hParse
  | succ room ih =>
      apply configFileBody_changes
      intro parse hParse name load'
      cases hParse
      exact ih _ name load'

end Files

theorem Configured.changes
    {world : ConfigWorld}
    {load : ConfigLoad}
    (hConfigured : Configured world load) :
    Changes world (ConfigLoad.init world.junkLog) load := by
  induction hConfigured with
  | init => exact .refl
  | @file load load' room stack filename okay _ hParse ih =>
      have hFile := configFileParse_changes world room stack
        filename load
      rw [hParse] at hFile
      exact ih.trans hFile
  | @verbosity load optarg _ ih =>
      exact ih.tail (.level .main (logLevelFromStr optarg))
  | @logFile load optarg config address _ hFile ih =>
      have hListed :=
        findOrCreateLogFile_listed load.config optarg
      have hNew : ConfigChange world load _ :=
        .newLogFile optarg
      rw [hFile] at hListed hNew
      exact (ih.tail hNew).tail (.logsTo .main address hListed)

------------------------------------------------------------
-- Growth
------------------------------------------------------------

/- What no setting of a log file or a tunnel changes. -/
def LogFileConfig.identity
    (log : LogFileConfig) : Nat × CBuf logFileNameMaxLen :=
  (log.address, log.fileName)

def SshTunnel.identity
    (tun : SshTunnel) : Nat × CBuf 200 :=
  (tun.id, tun.name)

/- A rule, with the numbers of its tunnels. -/
def RouteRule.identity
    (route : RouteRule) :
    RouteRule ×
      Vector (Option Nat) routeRuleMaxSshTunnelsPerRule :=
  ({ route with tunnel := Vector.replicate _ none },
    route.tunnel.map fun entry => entry.map SshTunnel.id)

/-
  Objects are added, each kind at its end of the list, and
  all that was there before stays in its place.
-/
structure ProxyConfig.Grows
    (proxy proxy' : ProxyConfig) : Prop where
  name : proxy'.name = proxy.name
  services : proxy.serviceList <:+ proxy'.serviceList
  rules :
    proxy.routeRuleList.map RouteRule.identity <+:
      proxy'.routeRuleList.map RouteRule.identity

structure Configuration.Grows
    (config config' : Configuration) : Prop where
  logFiles :
    config.logFileList.map LogFileConfig.identity <:+
      config'.logFileList.map LogFileConfig.identity
  logFileDefault :
    config'.logFileDefault.identity =
      config.logFileDefault.identity
  tunnels :
    config.tunnels.map SshTunnel.identity <:+
      config'.tunnels.map SshTunnel.identity
  sshDefault :
    config'.sshDefault.tunnel.identity =
      config.sshDefault.tunnel.identity
  proxies : ∀ (index : Nat) (proxy : ProxyConfig),
    config.proxyInstanceList[index]? = some proxy →
      ∃ proxy',
        config'.proxyInstanceList[index]? = some proxy' ∧
          proxy.Grows proxy'
  proxyDefault :
    config.proxyDefault.Grows config'.proxyDefault

theorem ProxyConfig.Grows.refl
    (proxy : ProxyConfig) :
    proxy.Grows proxy :=
  ⟨rfl, List.suffix_rfl, List.prefix_rfl⟩

theorem ProxyConfig.Grows.trans
    {proxy proxy' proxy'' : ProxyConfig}
    (h : proxy.Grows proxy')
    (h' : proxy'.Grows proxy'') :
    proxy.Grows proxy'' :=
  ⟨h'.name.trans h.name, h.services.trans h'.services,
    h.rules.trans h'.rules⟩

namespace Configuration.Grows

variable {config config' config'' : Configuration}

theorem refl
    (config : Configuration) :
    config.Grows config where
  logFiles := List.suffix_rfl
  logFileDefault := rfl
  tunnels := List.suffix_rfl
  sshDefault := rfl
  proxies := fun _ proxy hProxy =>
    ⟨proxy, hProxy, ProxyConfig.Grows.refl proxy⟩
  proxyDefault := ProxyConfig.Grows.refl _

theorem trans
    (h : config.Grows config')
    (h' : config'.Grows config'') :
    config.Grows config'' where
  logFiles := h.logFiles.trans h'.logFiles
  logFileDefault :=
    h'.logFileDefault.trans h.logFileDefault
  tunnels := h.tunnels.trans h'.tunnels
  sshDefault := h'.sshDefault.trans h.sshDefault
  proxies := by
    intro index proxy hProxy
    rcases h.proxies index proxy hProxy with
      ⟨proxy', hProxy', hGrow⟩
    rcases h'.proxies index proxy' hProxy' with
      ⟨proxy'', hProxy'', hGrow'⟩
    exact ⟨proxy'', hProxy'', hGrow.trans hGrow'⟩
  proxyDefault := h.proxyDefault.trans h'.proxyDefault

/- One proxy instance changes. -/
theorem updateProxy
    (f : ProxyConfig → ProxyConfig)
    (ref : ProxyRef)
    (hGrow : (config.proxy ref).Grows (f (config.proxy ref))) :
    config.Grows (config.updateProxy f ref) := by
  cases ref with
  | default =>
      exact
        { refl config with
          proxyDefault := hGrow }
  | listed index =>
      refine
        { refl config with
          proxies := ?_ }
      intro i proxy hProxy
      change ∃ proxy',
        (config.proxyInstanceList.modify index f)[i]? =
            some proxy' ∧ proxy.Grows proxy'
      rw [List.getElem?_modify, hProxy]
      by_cases hSame : index = i
      · subst hSame
        have hHere :
            config.proxy (.listed index) = proxy := by
          rw [Configuration.proxy, List.getD_eq_getElem?_getD,
            hProxy, Option.getD_some]
        rw [hHere] at hGrow
        exact ⟨f proxy, by simp, hGrow⟩
      · exact ⟨proxy, by simp [hSame],
          ProxyConfig.Grows.refl proxy⟩

/- A rule sees its tunnels change, and keeps them. -/
theorem identity_refresh
    (ssh : SshTunnel)
    (route : RouteRule) :
    (route.refresh ssh).identity = route.identity := by
  unfold RouteRule.identity RouteRule.refresh
  refine Prod.ext rfl ?_
  dsimp only
  rw [Vector.map_map]
  congr 1
  funext entry
  cases entry with
  | none => rfl
  | some tun =>
      simp only [Function.comp_apply, Option.map_some]
      split
      · rename_i hSame
        rw [hSame]
      · rfl

theorem grows_refresh
    (ssh : SshTunnel)
    (proxy : ProxyConfig) :
    proxy.Grows (proxy.refresh ssh) := by
  refine ⟨rfl, List.suffix_rfl, ?_⟩
  unfold ProxyConfig.refresh
  dsimp only
  rw [List.map_map]
  have hSame :
      (RouteRule.identity ∘ fun route =>
        route.refresh ssh) = RouteRule.identity :=
    funext (identity_refresh ssh)
  rw [hSame]

theorem updateSsh
    (id : Nat)
    (f : SshConfig → SshConfig)
    (hKeeps : ∀ ssh,
      (f ssh).tunnel.identity = ssh.tunnel.identity) :
    config.Grows (config.updateSsh id f) where
  logFiles := List.suffix_rfl
  logFileDefault := rfl
  tunnels := by
    unfold Configuration.updateSsh Configuration.tunnels
      updateWhere
    dsimp only
    rw [List.map_map, List.map_map, List.map_map]
    have hSame :
        ((SshTunnel.identity ∘ SshConfig.tunnel) ∘
          fun ssh =>
            if decide (ssh.tunnel.id = id) = true then f ssh
            else ssh) =
          SshTunnel.identity ∘ SshConfig.tunnel := by
      funext ssh
      simp only [Function.comp_apply]
      split
      · exact hKeeps ssh
      · rfl
    rw [hSame]
  sshDefault := by
    unfold Configuration.updateSsh
    dsimp only
    split
    · exact hKeeps _
    · rfl
  proxies := by
    intro index proxy hProxy
    unfold Configuration.updateSsh
    dsimp only
    rw [List.getElem?_map, hProxy]
    exact ⟨_, rfl, grows_refresh _ proxy⟩
  proxyDefault := grows_refresh _ _

theorem setLog
    (f : LogConfig → LogConfig)
    (owner : LogOwner) :
    config.Grows (config.setLog f owner) := by
  cases owner with
  | main =>
      exact
        { refl config with }
  | proxy ref =>
      dsimp only [Configuration.setLog]
      apply updateProxy
      exact ⟨rfl, List.suffix_rfl, List.prefix_rfl⟩
  | ssh id =>
      dsimp only [Configuration.setLog]
      apply updateSsh
      exact fun _ => rfl

theorem updateLogFile
    (address : Nat)
    {f : LogFileConfig → LogFileConfig}
    (hKeeps : ∀ log, (f log).address = log.address ∧
      (f log).fileName = log.fileName) :
    config.Grows (config.updateLogFile address f) := by
  have hIdentity : ∀ log,
      (f log).identity = log.identity :=
    fun log => Prod.ext (hKeeps log).1 (hKeeps log).2
  unfold Configuration.updateLogFile
  split
  · exact
      { refl config with
        logFileDefault := hIdentity _ }
  · refine
      { refl config with
        logFiles := ?_ }
    dsimp only [updateWhere]
    rw [List.map_map]
    have hSame :
        (LogFileConfig.identity ∘ fun log =>
          if decide (log.address = address) = true then f log
          else log) = LogFileConfig.identity := by
      funext log
      simp only [Function.comp_apply]
      split
      · exact hIdentity log
      · rfl
    rw [hSame]

end Configuration.Grows

/- Every change adds to what is configured. -/
theorem ConfigChange.grows
    {world : ConfigWorld}
    {load load' : ConfigLoad}
    (hChange : ConfigChange world load load') :
    load.config.Grows load'.config := by
  cases hChange with
  | ulimit ulimit =>
      exact { Configuration.Grows.refl load.config with }
  | newLogFile filename =>
      unfold findOrCreateLogFile
      cases findLogFile load.config.logFileList filename with
      | some log => exact Configuration.Grows.refl _
      | none =>
          exact
            { Configuration.Grows.refl load.config with
              logFiles := List.suffix_cons _ _ }
  | limits address f hKeeps =>
      exact Configuration.Grows.updateLogFile address hKeeps
  | logsTo owner address hListed =>
      exact Configuration.Grows.setLog
        (fun log => { log with file := some address }) owner
  | level owner level =>
      exact Configuration.Grows.setLog
        (fun log => { log with level }) owner
  | newProxy name =>
      refine
        { Configuration.Grows.refl load.config with
          proxies := ?_ }
      intro index proxy hProxy
      refine ⟨proxy, ?_, ProxyConfig.Grows.refl proxy⟩
      have hIndex :=
        (List.getElem?_eq_some_iff.mp hProxy).1
      rw [List.getElem?_append_left hIndex]
      exact hProxy
  | newTunnel name =>
      exact
        { Configuration.Grows.refl load.config with
          tunnels := List.suffix_cons _ _ }
  | tunnel id f hKeeps =>
      dsimp only
      apply Configuration.Grows.updateSsh
      exact fun ssh =>
        Prod.ext (hKeeps ssh.tunnel).1 (hKeeps ssh.tunnel).2
  | newService ref srv =>
      dsimp only
      apply Configuration.Grows.updateProxy
      exact ⟨rfl, List.suffix_cons _ _, List.prefix_rfl⟩
  | newRules ref rules mallocs hParsed =>
      dsimp only
      apply Configuration.Grows.updateProxy
      refine ⟨rfl, List.suffix_rfl, ?_⟩
      dsimp only
      rw [List.map_append]
      exact List.prefix_append _ _

theorem Changes.grows
    {world : ConfigWorld}
    {load load' : ConfigLoad}
    (hChanges : Changes world load load') :
    load.config.Grows load'.config := by
  induction hChanges with
  | refl => exact Configuration.Grows.refl _
  | tail _ hChange ih => exact ih.trans hChange.grows

/- A file that returns leaves what there was. -/
def ConfigResult.Keeps
    (config : Configuration) : ConfigResult → Prop
  | .returned _ load => config.Grows load.config
  | _ => True

/-
  A file, with all that it includes and also when it ends at
  an invalid line, never takes anything away: the log files,
  tunnels, proxy instances, services and rules that there
  were are still there, in their order, under their names,
  and every rule still goes through the same tunnels.
-/
theorem configFileParse_grows
    (world : ConfigWorld)
    (room : Nat)
    (stack : List Text)
    (filename : Text)
    (load : ConfigLoad) :
    (configFileParse world room stack filename load).Keeps
      load.config := by
  have hMakes := configFileParse_changes world room stack
    filename load
  cases hResult : configFileParse world room stack filename
      load with
  | crash => trivial
  | exited => trivial
  | returned okay load' =>
      rw [hResult] at hMakes
      exact Changes.grows hMakes

end SmartSOCKSProxy
