import SmartSOCKSProxy.Config.ConfigFile
import SmartSOCKSProxy.Routing.TunnelArray

/-
  The tunnel arrays of all rules of a configuration.

  Rules only come from the parser, and stay as they are
  except that the tunnels they point to are changed.

  Key definitions include:
    * `ArraysEnd`, `Configuration.ArraysEnd`
    * `Configured`, `Configuration.rules`

  Key theorems include:
    * `routeRuleFileParse_arraysEnd`
    * `configFileParse_arraysEnd`
    * `Configured.arraysEnd`
    * `tunnelArrays_end`
-/

namespace SmartSOCKSProxy

------------------------------------------------------------
-- Rule Lists
------------------------------------------------------------

/- The tunnel array of every rule has a NULL. -/
def ArraysEnd
    (rules : List RouteRule) : Prop :=
  ∀ route ∈ rules, Terminated route.tunnel.toList

theorem arraysEnd_insertRouteRule
    {rules : List RouteRule}
    {route : RouteRule}
    (hRules : ArraysEnd rules)
    (hRoute : Terminated route.tunnel.toList) :
    ArraysEnd (insertRouteRule rules route) := by
  rw [insertRouteRule_eq]
  intro other hOther
  rcases List.mem_append.mp hOther with hOther | hOther
  · exact hRules other hOther
  · rw [List.mem_singleton.mp hOther]
    exact hRoute

theorem parseRouteRuleSpec_terminated
    {junk : Vector (Option SshTunnel)
      routeRuleMaxSshTunnelsPerRule}
    {strIn : Text}
    {filename : Option Text}
    {lineNum : Int}
    {sshTunnelList : List SshTunnel}
    {route : RouteRule}
    (hParse :
      parseRouteRuleSpec junk strIn filename lineNum
        sshTunnelList = .ok route) :
    Terminated route.tunnel.toList := by
  rw [parseRouteRuleSpec_eq] at hParse
  rcases freshRule_terminated junk filename lineNum with
    ⟨hFresh, hNone⟩
  exact (parseTokens_tunnels hFresh hNone hParse).1

------------------------------------------------------------
-- Route Files
------------------------------------------------------------

/- What is parsed is an included file. -/
theorem of_includeGuard
    {β : Type}
    {stack : List Text}
    {included : Option (Text → β)}
    {name : Text}
    {parse : β}
    (hGuard : includeGuard stack included name = some parse) :
    ∃ parseFile ∈ included, parse = parseFile name := by
  unfold includeGuard at hGuard
  split at hGuard
  · cases hGuard
  · rcases Option.map_eq_some_iff.mp hGuard with
      ⟨parseFile, hFile, rfl⟩
    exact ⟨parseFile, hFile, rfl⟩

/- The rules of a load that returned. -/
def LoadResult.ArraysEnd : LoadResult → Prop
  | .crash => True
  | .returned _ load => SmartSOCKSProxy.ArraysEnd load.routes

section Files

variable (world : FileWorld)
variable (sshTunnelList : List SshTunnel)

theorem routeFileLine_arraysEnd
    (filename : Text)
    (stack : List Text)
    {included : Option (Text → RuleLoad → LoadResult)}
    (hIncluded :
      ∀ parse ∈ included, ∀ name load,
        ArraysEnd load.routes → (parse name load).ArraysEnd)
    (lineNum : Nat)
    (buf : Text)
    (load : RuleLoad)
    (hLoad : ArraysEnd load.routes) :
    (routeFileLine world sshTunnelList filename stack
        included lineNum buf load).Satisfies
      (fun load => ArraysEnd load.routes)
      LoadResult.ArraysEnd := by
  unfold routeFileLine
  cases configLine world.environ buf with
  | error failure =>
      cases failure with
      | invalid => exact hLoad
      | overrun => trivial
  | ok line =>
      dsimp only
      split
      · exact hLoad
      cases configSetString stringBufLen line
          (field "routeFile ") with
      | overrun => trivial
      | value name =>
          dsimp only
          cases hGuard :
              includeGuard stack included name.text with
          | none => exact hLoad
          | some parse =>
              have hKeeps : (parse load).ArraysEnd := by
                rcases of_includeGuard hGuard with
                  ⟨parseFile, hFile, rfl⟩
                exact hIncluded parseFile hFile name.text load
                  hLoad
              dsimp only
              cases hResult : parse load with
              | crash => trivial
              | returned okay load' =>
                  rw [hResult] at hKeeps
                  cases okay <;> exact hKeeps
      | unset =>
          dsimp only
          cases hParse : parseRouteRuleSpec
              (world.junk load.mallocs) line (some filename)
              lineNum sshTunnelList with
          | error failure =>
              cases failure with
              | null => exact hLoad
              | crash => trivial
          | ok route =>
              exact arraysEnd_insertRouteRule hLoad
                (parseRouteRuleSpec_terminated hParse)

theorem routeFileBody_arraysEnd
    (filename : Text)
    (stack : List Text)
    {included : Option (Text → RuleLoad → LoadResult)}
    (hIncluded :
      ∀ parse ∈ included, ∀ name load,
        ArraysEnd load.routes → (parse name load).ArraysEnd)
    (load : RuleLoad)
    (hLoad : ArraysEnd load.routes) :
    (routeFileBody world sshTunnelList filename stack
      included load).ArraysEnd := by
  unfold routeFileBody
  cases world.files filename with
  | none => exact hLoad
  | some file =>
      apply LineReads.run_satisfies
        (routeFileLine_arraysEnd world sshTunnelList filename
          stack hIncluded)
      · exact fun _ hState => hState
      · exact fun _ hState => hState
      · exact hLoad

theorem routeRuleFileParse_arraysEnd
    (room : Nat)
    (stack : List Text)
    (filename : Text)
    (load : RuleLoad)
    (hLoad : ArraysEnd load.routes) :
    (routeRuleFileParse world sshTunnelList room stack
      filename load).ArraysEnd := by
  induction room generalizing stack filename load with
  | zero =>
      apply routeFileBody_arraysEnd world sshTunnelList
        filename _ _ load hLoad
      intro parse hParse
      cases hParse
  | succ room ih =>
      apply routeFileBody_arraysEnd world sshTunnelList
        filename _ _ load hLoad
      intro parse hParse name load' hLoad'
      cases hParse
      exact ih _ name load' hLoad'

theorem loadRouteFiles_arraysEnd
    (dir : Text)
    (names : List Text)
    (load : RuleLoad)
    (hLoad : ArraysEnd load.routes) :
    (loadRouteFiles world sshTunnelList dir names
      load).ArraysEnd := by
  induction names generalizing load with
  | nil => exact hLoad
  | cons name names ih =>
      have hFile := routeRuleFileParse_arraysEnd world
        sshTunnelList (routeRuleFilenameStackSize - 1) []
        (CBuf.copy (dir ++ [47] ++ name) : CBuf 4096).text
        load hLoad
      unfold loadRouteFiles loadRouteFile
      dsimp only
      cases hResult :
          routeRuleFileParse world sshTunnelList
            (routeRuleFilenameStackSize - 1) []
            (CBuf.copy (dir ++ [47] ++ name) : CBuf 4096).text
            load with
      | crash => trivial
      | returned okay load' =>
          rw [hResult] at hFile
          cases okay with
          | true => exact ih load' hFile
          | false => exact hFile

theorem loadRoute_arraysEnd
    (spec filename : Text)
    (lineNum : Nat)
    (load : RuleLoad)
    (hLoad : ArraysEnd load.routes) :
    (loadRoute world sshTunnelList spec filename lineNum
      load).ArraysEnd := by
  unfold loadRoute
  dsimp only
  cases hParse : parseRouteRuleSpec (world.junk load.mallocs)
      spec (some filename) lineNum sshTunnelList with
  | error failure =>
      cases failure with
      | null => exact hLoad
      | crash => trivial
  | ok route =>
      exact arraysEnd_insertRouteRule hLoad
        (parseRouteRuleSpec_terminated hParse)

end Files

theorem loadRouteDir_arraysEnd
    (world : ConfigWorld)
    (sshTunnelList : List SshTunnel)
    (dir : Text)
    (load : RuleLoad)
    (hLoad : ArraysEnd load.routes) :
    (loadRouteDir world sshTunnelList dir
      load).ArraysEnd := by
  unfold loadRouteDir
  cases world.directories dir with
  | none => exact hLoad
  | some entries =>
      dsimp only
      split
      · trivial
      · exact loadRouteFiles_arraysEnd world.toFileWorld
          sshTunnelList dir _ load hLoad

------------------------------------------------------------
-- Configurations
------------------------------------------------------------

/- So it is for the rules of all proxy instances. -/
structure Configuration.ArraysEnd
    (config : Configuration) : Prop where
  fallback :
    SmartSOCKSProxy.ArraysEnd config.proxyDefault.routeRuleList
  listed :
    ∀ proxy ∈ config.proxyInstanceList,
      SmartSOCKSProxy.ArraysEnd proxy.routeRuleList

namespace Configuration.ArraysEnd

variable {config : Configuration}

/- Only the proxy instances matter. -/
theorem of_eq
    {config' : Configuration}
    (hConfig : config.ArraysEnd)
    (hDefault : config'.proxyDefault = config.proxyDefault)
    (hList :
      config'.proxyInstanceList = config.proxyInstanceList) :
    config'.ArraysEnd := by
  refine ⟨?_, ?_⟩
  · rw [hDefault]
    exact hConfig.fallback
  · rw [hList]
    exact hConfig.listed

theorem proxy
    (hConfig : config.ArraysEnd)
    (ref : ProxyRef) :
    SmartSOCKSProxy.ArraysEnd
      (config.proxy ref).routeRuleList := by
  cases ref with
  | default => exact hConfig.fallback
  | listed index =>
      unfold Configuration.proxy
      dsimp only
      rw [List.getD_eq_getElem?_getD]
      cases hGet : config.proxyInstanceList[index]? with
      | none => exact hConfig.fallback
      | some proxy =>
          exact hConfig.listed proxy
            (List.mem_of_getElem? hGet)

theorem updateProxy
    (hConfig : config.ArraysEnd)
    {f : ProxyConfig → ProxyConfig}
    (hKeeps :
      ∀ proxy,
        SmartSOCKSProxy.ArraysEnd proxy.routeRuleList →
          SmartSOCKSProxy.ArraysEnd (f proxy).routeRuleList)
    (ref : ProxyRef) :
    (config.updateProxy f ref).ArraysEnd := by
  cases ref with
  | default =>
      exact ⟨hKeeps _ hConfig.fallback, hConfig.listed⟩
  | listed index =>
      refine ⟨hConfig.fallback, ?_⟩
      change ∀ proxy ∈ config.proxyInstanceList.modify index f,
        SmartSOCKSProxy.ArraysEnd proxy.routeRuleList
      intro proxy hProxy
      rcases List.getElem_of_mem hProxy with ⟨i, hi, rfl⟩
      rw [List.getElem_modify]
      split
      · exact hKeeps _ (hConfig.listed _ (List.getElem_mem _))
      · exact hConfig.listed _ (List.getElem_mem _)

/- A rule whose tunnels are changed has the same array. -/
theorem refresh
    {rules : List RouteRule}
    (hRules : SmartSOCKSProxy.ArraysEnd rules)
    (ssh : SshTunnel) :
    SmartSOCKSProxy.ArraysEnd
      (rules.map fun route => route.refresh ssh) := by
  intro route hRoute
  rcases List.mem_map.mp hRoute with ⟨old, hOld, rfl⟩
  unfold RouteRule.refresh Terminated
  dsimp only
  rw [Vector.toList_map]
  exact List.mem_map.mpr ⟨none, hRules old hOld, rfl⟩

theorem updateSsh
    (hConfig : config.ArraysEnd)
    (id : Nat)
    (f : SshConfig → SshConfig) :
    (config.updateSsh id f).ArraysEnd := by
  refine ⟨refresh hConfig.fallback _, ?_⟩
  intro proxy hProxy
  rcases List.mem_map.mp hProxy with ⟨old, hOld, rfl⟩
  exact refresh (hConfig.listed old hOld) _

theorem findOrCreateLogFile
    (hConfig : config.ArraysEnd)
    (filename : Text) :
    (SmartSOCKSProxy.findOrCreateLogFile config
      filename).1.ArraysEnd := by
  unfold SmartSOCKSProxy.findOrCreateLogFile
  cases findLogFile config.logFileList filename with
  | none => exact hConfig.of_eq rfl rfl
  | some log => exact hConfig

end Configuration.ArraysEnd

theorem arraysEnd_init
    (junkLog : Nat → LogConfig) :
    (ConfigLoad.init junkLog).config.ArraysEnd where
  fallback := List.forall_mem_nil _
  listed := List.forall_mem_nil _

------------------------------------------------------------
-- Lines
------------------------------------------------------------

/- What holds of the value of a setting, if there is one. -/
def Setting.Satisfies
    {α : Type}
    (p : α → Prop) : Setting α → Prop
  | .value a => p a
  | _ => True

/- A setting that leaves the arrays of the rules as they are. -/
abbrev Setting.ArraysEnd
    (setting : Setting ConfigLoad) : Prop :=
  setting.Satisfies fun load => load.config.ArraysEnd

theorem Setting.orElse_satisfies
    {α β : Type}
    {p : β → Prop}
    (setting : Setting α)
    {use : α → Setting β}
    {next : Setting β}
    (hUse : ∀ a, (use a).Satisfies p)
    (hNext : next.Satisfies p) :
    (setting.orElse use next).Satisfies p := by
  cases setting with
  | unset => exact hNext
  | overrun => trivial
  | value a => exact hUse a

section Entries

variable {load : ConfigLoad}
variable (hLoad : load.config.ArraysEnd)
include hLoad

theorem logEntries_arraysEnd
    (line : Text)
    {set : (LogConfig → LogConfig) → Configuration →
      Configuration}
    (hSet :
      ∀ f config, config.ArraysEnd → (set f config).ArraysEnd)
    {next : Setting ConfigLoad}
    (hNext : next.ArraysEnd) :
    (logEntries line load set next).ArraysEnd := by
  unfold logEntries stringField
  apply Setting.orElse_satisfies
  · intro filename
    exact hSet _ _ (hLoad.findOrCreateLogFile filename.text)
  apply Setting.orElse_satisfies _ _ hNext
  intro level
  dsimp only
  split
  · trivial
  · exact hSet _ _ hLoad

theorem mainEntry_arraysEnd
    (line : Text) :
    (mainEntry line load).ArraysEnd := by
  unfold mainEntry
  apply logEntries_arraysEnd hLoad line
  · exact fun _ _ hConfig => hConfig.of_eq rfl rfl
  apply Setting.orElse_satisfies
  · exact fun _ => hLoad.of_eq rfl rfl
  · trivial

theorem logFileEntry_arraysEnd
    (line : Text)
    (address : Nat) :
    (logFileEntry line address load).ArraysEnd := by
  have hUpdate :
      ∀ f, (load.config.updateLogFile address f).ArraysEnd := by
    intro f
    unfold Configuration.updateLogFile
    split <;> exact hLoad.of_eq rfl rfl
  unfold logFileEntry
  apply Setting.orElse_satisfies
  · exact fun _ => hUpdate _
  apply Setting.orElse_satisfies
  · exact fun _ => hUpdate _
  · trivial

theorem sshTunnelEntry_arraysEnd
    (line : Text)
    (id : Nat) :
    (sshTunnelEntry line id load).ArraysEnd := by
  unfold sshTunnelEntry
  dsimp only
  apply Setting.orElse_satisfies
  · intro socksPort
    dsimp only [Setting.Satisfies]
    exact hLoad.updateSsh id _
  apply Setting.orElse_satisfies
  · intro commandToRun
    dsimp only [Setting.Satisfies]
    exact hLoad.updateSsh id _
  apply logEntries_arraysEnd hLoad line
  · exact fun _ _ hConfig => hConfig.updateSsh id _
  · trivial

theorem insertService_arraysEnd
    (ref : ProxyRef)
    (srv : Option Service) :
    (insertService load ref srv).ArraysEnd := by
  cases srv with
  | none => trivial
  | some srv =>
      dsimp only [insertService, Setting.ArraysEnd,
        Setting.Satisfies]
      apply hLoad.updateProxy
      exact fun _ hProxy => hProxy

theorem addRules_arraysEnd
    (ref : ProxyRef)
    {parse : RuleLoad → LoadResult}
    (hParse :
      ∀ rules, ArraysEnd rules.routes →
        (parse rules).ArraysEnd) :
    (addRules load ref parse).ArraysEnd := by
  have hRules := hParse
    ⟨(load.config.proxy ref).routeRuleList, load.mallocs⟩
    (hLoad.proxy ref)
  unfold addRules
  cases hResult : parse
      ⟨(load.config.proxy ref).routeRuleList,
        load.mallocs⟩ with
  | crash => trivial
  | returned okay rules =>
      rw [hResult] at hRules
      cases okay with
      | false => trivial
      | true =>
          dsimp only [Setting.ArraysEnd, Setting.Satisfies]
          apply hLoad.updateProxy
          exact fun _ _ => hRules

theorem proxyInstanceEntry_arraysEnd
    (world : ConfigWorld)
    (filename : Text)
    (lineNum : Nat)
    (line : Text)
    (ref : ProxyRef) :
    (proxyInstanceEntry world filename lineNum line ref
      load).ArraysEnd := by
  unfold proxyInstanceEntry stringField
  apply logEntries_arraysEnd hLoad line
  · intro f config hConfig
    apply hConfig.updateProxy
    exact fun _ hProxy => hProxy
  apply Setting.orElse_satisfies
  · exact fun _ => insertService_arraysEnd hLoad ref _
  apply Setting.orElse_satisfies
  · exact fun _ => insertService_arraysEnd hLoad ref _
  apply Setting.orElse_satisfies
  · exact fun _ => insertService_arraysEnd hLoad ref _
  apply Setting.orElse_satisfies
  · intro spec
    apply addRules_arraysEnd hLoad ref
    exact loadRoute_arraysEnd world.toFileWorld _ spec.text
      filename lineNum
  apply Setting.orElse_satisfies
  · intro name
    apply addRules_arraysEnd hLoad ref
    exact routeRuleFileParse_arraysEnd world.toFileWorld _ _ _
      name.text
  apply Setting.orElse_satisfies
  · intro dir
    apply addRules_arraysEnd hLoad ref
    exact loadRouteDir_arraysEnd world _ dir.text
  · trivial

end Entries

/- What holds after a header that begins a section. -/
def Header.ArraysEnd : Header → Prop
  | .enter _ load => load.config.ArraysEnd
  | _ => True

theorem namedSection_arraysEnd
    (line keyword : Text)
    {load : ConfigLoad}
    (hLoad : load.config.ArraysEnd)
    (fallback : Section)
    (find : Text → Option Section)
    {create : Text → Header}
    (hCreate : ∀ name, (create name).ArraysEnd) :
    (namedSection line keyword load fallback find
      create).ArraysEnd := by
  unfold namedSection
  cases matchStart line keyword with
  | none => trivial
  | some name =>
      dsimp only
      split
      · trivial
      split
      · exact hLoad
      · cases find name with
        | none => exact hCreate name
        | some current => exact hLoad

theorem sectionHeader_arraysEnd
    (world : ConfigWorld)
    (line : Text)
    {load : ConfigLoad}
    (hLoad : load.config.ArraysEnd) :
    (sectionHeader world line load).ArraysEnd := by
  have hLog : (logFileHeader line load).ArraysEnd := by
    apply namedSection_arraysEnd _ _ hLoad
    exact fun name => hLoad.findOrCreateLogFile name
  have hProxy : (proxyInstanceHeader line load).ArraysEnd := by
    apply namedSection_arraysEnd _ _ hLoad
    intro name
    cases fillBuf 1024 name with
    | unset => trivial
    | overrun => trivial
    | value name =>
        refine ⟨hLoad.fallback, ?_⟩
        intro proxy hProxy
        rcases List.mem_append.mp hProxy with hOld | hNew
        · exact hLoad.listed proxy hOld
        · rw [List.mem_singleton.mp hNew]
          exact List.forall_mem_nil _
  have hSsh : (sshTunnelHeader world line load).ArraysEnd := by
    apply namedSection_arraysEnd _ _ hLoad
    intro name
    cases fillBuf 200 name with
    | unset => trivial
    | overrun => trivial
    | value name => exact hLoad.of_eq rfl rfl
  unfold sectionHeader
  split
  · exact hLoad
  cases hFirst : logFileHeader line load with
  | exited => trivial
  | overrun => trivial
  | enter current load' =>
      rw [hFirst] at hLog
      exact hLog
  | other =>
      cases hSecond : proxyInstanceHeader line load with
      | exited => trivial
      | overrun => trivial
      | enter current load' =>
          rw [hSecond] at hProxy
          exact hProxy
      | other => exact hSsh

/- The configuration that a file leaves, if there is one. -/
def ConfigResult.ArraysEnd : ConfigResult → Prop
  | .returned _ load => load.config.ArraysEnd
  | _ => True

section Files

variable (world : ConfigWorld)

theorem sectionLine_arraysEnd
    (filename : Text)
    (lineNum : Nat)
    (line : Text)
    {state : ConfigState}
    (hState : state.load.config.ArraysEnd) :
    (sectionLine world filename lineNum line state).Satisfies
      (fun state => state.load.config.ArraysEnd)
      ConfigResult.ArraysEnd := by
  have hHeader := sectionHeader_arraysEnd world line hState
  have hEntry :
      (sectionEntry world filename lineNum line state.current
        state.load).ArraysEnd := by
    unfold sectionEntry
    cases state.current with
    | none => trivial
    | main => exact mainEntry_arraysEnd hState line
    | logFile address =>
        exact logFileEntry_arraysEnd hState line address
    | proxy ref =>
        exact proxyInstanceEntry_arraysEnd hState world
          filename lineNum line ref
    | ssh id => exact sshTunnelEntry_arraysEnd hState line id
  unfold sectionLine
  cases hResult : sectionHeader world line state.load with
  | exited => trivial
  | overrun => trivial
  | enter current load =>
      rw [hResult] at hHeader
      exact hHeader
  | other =>
      dsimp only
      cases hSetting : sectionEntry world filename lineNum line
          state.current state.load with
      | unset => trivial
      | overrun => trivial
      | value load =>
          rw [hSetting] at hEntry
          exact hEntry

theorem configFileLine_arraysEnd
    (filename : Text)
    (stack : List Text)
    {included : Option (Text → ConfigLoad → ConfigResult)}
    (hIncluded :
      ∀ parse ∈ included, ∀ name load,
        load.config.ArraysEnd → (parse name load).ArraysEnd)
    (lineNum : Nat)
    (buf : Text)
    (state : ConfigState)
    (hState : state.load.config.ArraysEnd) :
    (configFileLine world filename stack included lineNum buf
        state).Satisfies
      (fun state => state.load.config.ArraysEnd)
      ConfigResult.ArraysEnd := by
  unfold configFileLine
  cases configLine world.environ buf with
  | error failure =>
      cases failure with
      | invalid => exact hState
      | overrun => trivial
  | ok line =>
      dsimp only
      split
      · exact hState
      cases configSetString stringBufLen line
          (field "include ") with
      | overrun => trivial
      | unset =>
          exact sectionLine_arraysEnd world filename lineNum
            line hState
      | value name =>
          dsimp only
          cases hGuard :
              includeGuard stack included name.text with
          | none => exact hState
          | some parse =>
              have hKeeps : (parse state.load).ArraysEnd := by
                rcases of_includeGuard hGuard with
                  ⟨parseFile, hFile, rfl⟩
                exact hIncluded parseFile hFile name.text
                  state.load hState
              dsimp only
              cases hResult : parse state.load with
              | crash => trivial
              | exited => trivial
              | returned okay load =>
                  rw [hResult] at hKeeps
                  exact hKeeps

theorem configFileBody_arraysEnd
    (filename : Text)
    (stack : List Text)
    {included : Option (Text → ConfigLoad → ConfigResult)}
    (hIncluded :
      ∀ parse ∈ included, ∀ name load,
        load.config.ArraysEnd → (parse name load).ArraysEnd)
    (load : ConfigLoad)
    (hLoad : load.config.ArraysEnd) :
    (configFileBody world filename stack included
      load).ArraysEnd := by
  unfold configFileBody
  cases world.files filename with
  | none => exact hLoad
  | some file =>
      apply LineReads.run_satisfies
        (configFileLine_arraysEnd world filename stack
          hIncluded)
      · exact fun _ hState => hState
      · exact fun _ hState => hState
      · exact hLoad

theorem configFileParse_arraysEnd
    (room : Nat)
    (stack : List Text)
    (filename : Text)
    (load : ConfigLoad)
    (hLoad : load.config.ArraysEnd) :
    (configFileParse world room stack filename
      load).ArraysEnd := by
  induction room generalizing stack filename load with
  | zero =>
      apply configFileBody_arraysEnd world filename _ _ load
        hLoad
      intro parse hParse
      cases hParse
  | succ room ih =>
      apply configFileBody_arraysEnd world filename _ _ load
        hLoad
      intro parse hParse name load' hLoad'
      cases hParse
      exact ih _ name load' hLoad'

end Files

------------------------------------------------------------
-- Every Configuration
------------------------------------------------------------

/-
  A configuration that main() can have: the first one, what
  a file makes of one, and one whose own log settings are
  changed by an option.
-/
inductive Configured
    (world : ConfigWorld) : ConfigLoad → Prop
| init :
    Configured world (ConfigLoad.init world.junkLog)
| file
    {load load' : ConfigLoad}
    {room : Nat}
    {stack : List Text}
    {filename : Text}
    {okay : Bool}
    (hBefore : Configured world load)
    (hParse :
      configFileParse world room stack filename load =
        .returned okay load') :
    Configured world load'
| verbosity
    {load : ConfigLoad}
    {optarg : Text}
    (hBefore : Configured world load) :
    Configured world
      { load with
        config :=
          { load.config with
            mainConf :=
              { load.config.mainConf with
                log :=
                  { load.config.mainConf.log with
                    level := logLevelFromStr optarg } } } }
| logFile
    {load : ConfigLoad}
    {optarg : Text}
    {config : Configuration}
    {address : Nat}
    (hBefore : Configured world load)
    (hFile :
      findOrCreateLogFile load.config optarg =
        (config, address)) :
    Configured world
      { load with
        config :=
          { config with
            mainConf :=
              { config.mainConf with
                log :=
                  { config.mainConf.log with
                    file := some address } } } }

theorem Configured.arraysEnd
    {world : ConfigWorld}
    {load : ConfigLoad}
    (hConfigured : Configured world load) :
    load.config.ArraysEnd := by
  induction hConfigured with
  | init => exact arraysEnd_init world.junkLog
  | @file load load' room stack filename okay _ hParse ih =>
      have hResult := configFileParse_arraysEnd world room
        stack filename load ih
      rw [hParse] at hResult
      exact hResult
  | verbosity _ ih => exact ih.of_eq rfl rfl
  | @logFile load optarg config address _ hFile ih =>
      have hConfig := ih.findOrCreateLogFile optarg
      rw [hFile] at hConfig
      exact hConfig.of_eq rfl rfl

/- The rules that a connection can be routed by. -/
def Configuration.rules
    (config : Configuration) : List RouteRule :=
  defaultDirect ::
    (config.proxyDefault :: config.proxyInstanceList).flatMap
      ProxyConfig.routeRuleList

theorem Configured.rules_terminated
    {world : ConfigWorld}
    {load : ConfigLoad}
    (hConfigured : Configured world load)
    {route : RouteRule}
    (hRoute : route ∈ load.config.rules) :
    Terminated route.tunnel.toList := by
  rcases List.mem_cons.mp hRoute with rfl | hRoute
  · have hSecond :
        defaultDirect.tunnel.toList[1]? = some none := rfl
    exact List.mem_of_getElem? hSecond
  rcases List.mem_flatMap.mp hRoute with
    ⟨proxy, hProxy, hRoute⟩
  have hEnd := hConfigured.arraysEnd
  rcases List.mem_cons.mp hProxy with rfl | hProxy
  · exact hEnd.fallback route hRoute
  · exact hEnd.listed proxy hProxy route hRoute

/-
  A rule that the parser returns holds the tunnels of its
  first 99 names and a NULL, and was written inside its
  array.  In every configuration, the loops over the array of
  a rule stay inside of it.
-/
theorem tunnelArrays_end
    (junk : Vector (Option SshTunnel)
      routeRuleMaxSshTunnelsPerRule)
    (strIn : Text)
    (filename : Option Text)
    (lineNum : Int)
    (sshTunnelList : List SshTunnel)
    (world : ConfigWorld)
    (load : ConfigLoad) :
    (∀ route,
      parseRouteRuleSpec junk strIn filename lineNum
          sshTunnelList = .ok route →
        HoldsTunnels sshTunnelList
            (namesAfterVia (strIn.splitOn 32)) route ∧
          route.tunnel.toList =
            writeAll junk.toList
              (tunnelWrites sshTunnelList (strIn.splitOn 32)
                (freshRule junk filename lineNum)) ∧
          ∀ w ∈ tunnelWrites sshTunnelList
              (strIn.splitOn 32)
              (freshRule junk filename lineNum),
            w.1 ≤ 99) ∧
      (Configured world load →
        ∀ route ∈ load.config.rules, ScansInside route) := by
  constructor
  · intro route hParse
    rw [parseRouteRuleSpec_eq] at hParse
    rcases freshRule_terminated junk filename lineNum with
      ⟨hFresh, hNone⟩
    rcases parseTokens_writes hParse with ⟨hArray, hInside⟩
    refine ⟨(parseTokens_tunnels hFresh hNone hParse).2,
      hArray, ?_⟩
    intro w hWrite
    exact Nat.le_of_lt_succ (hInside w hWrite)
  · intro hConfigured route hRoute
    exact scansInside_of_terminated
      (hConfigured.rules_terminated hRoute)

/- A file with one proxy and one rule. -/
def oneRuleWorld : ConfigWorld where
  environ := fun _ => none
  files := fun _ =>
    some
      ⟨field "proxy p" ++ [10] ++ field "route via direct" ++
        [10], false⟩
  junk := fun _ => Vector.replicate _ (some sshTunnelNull)
  directories := fun _ => none
  junkLog := fun _ => ⟨0, none⟩

def oneRuleLoad : ConfigLoad :=
  match configFileParse oneRuleWorld 0 [] (field "config")
      (ConfigLoad.init oneRuleWorld.junkLog) with
  | .returned _ load => load
  | _ => ConfigLoad.init oneRuleWorld.junkLog

def oneRule : RouteRule :=
  (oneRuleLoad.config.rules.getLast?).getD defaultDirect

theorem oneRuleLoad_configured :
    Configured oneRuleWorld oneRuleLoad := by
  have hLoad :
      configFileParse oneRuleWorld 0 [] (field "config")
          (ConfigLoad.init oneRuleWorld.junkLog) =
        .returned true oneRuleLoad := by
    decide +kernel
  exact .file .init hLoad

theorem oneRule_mem :
    oneRule ∈ oneRuleLoad.config.rules := by
  decide +kernel

/- The rule of that file, and the loops over its array. -/
theorem tunnelArrays_end_oneRule :
    HoldsTunnels [sshTunnelDirect]
        (namesAfterVia ((field "via direct").splitOn 32))
        oneRule ∧
      ScansInside oneRule := by
  have hParse :
      parseRouteRuleSpec (oneRuleWorld.junk 0)
          (field "via direct") (some (field "config")) 2
          [sshTunnelDirect] = .ok oneRule := by
    decide +kernel
  have hBoth := tunnelArrays_end (oneRuleWorld.junk 0)
    (field "via direct") (some (field "config")) 2
    [sshTunnelDirect] oneRuleWorld oneRuleLoad
  exact ⟨(hBoth.1 oneRule hParse).1,
    hBoth.2 oneRuleLoad_configured oneRule oneRule_mem⟩

end SmartSOCKSProxy
