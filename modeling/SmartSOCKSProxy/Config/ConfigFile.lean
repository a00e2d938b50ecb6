import SmartSOCKSProxy.Config.Configuration

/-
  Parsing configuration files.

  Key definitions include:
    * `Section`, `sectionHeader`
    * `mainEntry`, `logFileEntry`, `proxyInstanceEntry`,
      `sshTunnelEntry`, `sectionEntry`
    * `configFileLine`, `configFileParse`
-/

namespace SmartSOCKSProxy

------------------------------------------------------------
-- Sections
------------------------------------------------------------

/-
  The section that the parser is in.  At most one of `main`,
  `log_current`, `proxy_current` and `ssh_current` is set.
-/
inductive Section where
| none
| main
| logFile (address : Nat)
| proxy (ref : ProxyRef)
| ssh (id : Nat)
deriving DecidableEq, Repr

/-
  What the functions for section headers return: it is no
  header, the process exits, a name is too long for its
  buffer, or a section begins.
-/
inductive Header where
| other
| exited
| overrun
| enter (current : Section) (load : ConfigLoad)
deriving DecidableEq

def kwDefault : Text :=
  field "default"

/-
  A header with a name: the default object, one of the list,
  or a new one.
-/
def namedSection
    (line keyword : Text)
    (load : ConfigLoad)
    (fallback : Section)
    (find : Text → Option Section)
    (create : Text → Header) : Header :=
  match matchStart line keyword with
  | none => .other
  | some name =>
      if name = [] then .exited
      else if name = kwDefault then .enter fallback load
      else
        match find name with
        | some current => .enter current load
        | none => create name

/- `config_file_parse_log_file()` -/
def logFileHeader
    (line : Text)
    (load : ConfigLoad) : Header :=
  namedSection line (field "logfile ") load
    (.logFile load.config.logFileDefault.address)
    (fun name =>
      (findLogFile load.config.logFileList name).map fun log =>
        .logFile log.address)
    (fun name =>
      let (config, address) :=
        findOrCreateLogFile load.config name
      .enter (.logFile address) { load with config })

/- `config_file_parse_proxy_instance()` -/
def proxyInstanceHeader
    (line : Text)
    (load : ConfigLoad) : Header :=
  let list := load.config.proxyInstanceList
  namedSection line (field "proxy ") load (.proxy .default)
    (fun name =>
      (list.findIdx? fun proxy => proxy.name.text = name).map
        fun index => .proxy (.listed index))
    (fun name =>
      match fillBuf 1024 name with
      | .value name =>
          let proxy : ProxyConfig :=
            { name
              log := load.config.proxyDefault.log
              serviceList := []
              routeRuleList := [] }
          .enter (.proxy (.listed list.length))
            { load with
              config :=
                { load.config with
                  proxyInstanceList := list ++ [proxy] } }
      | _ => .overrun)

/-
  `config_file_parse_ssh_tunnel()`.  A new tunnel does not
  take the settings of the default one.
-/
def sshTunnelHeader
    (world : ConfigWorld)
    (line : Text)
    (load : ConfigLoad) : Header :=
  let list := load.config.sshTunnelList
  namedSection line (field "ssh ") load
    (.ssh load.config.sshDefault.tunnel.id)
    (fun name =>
      (list.find? fun ssh => ssh.tunnel.name.text = name).map
        fun ssh => .ssh ssh.tunnel.id)
    (fun name =>
      match fillBuf 200 name with
      | .value name =>
          let id := load.sshIdPool + 1
          let ssh : SshConfig :=
            { tunnel :=
                { id
                  name
                  socksPort := 0
                  commandToRun := CBuf.empty }
              log := world.junkLog id }
          .enter (.ssh id)
            { load with
              sshIdPool := id
              config :=
                { load.config with
                  sshTunnelList := ssh :: list } }
      | _ => .overrun)

/- The headers, in the order in which they are tried. -/
def sectionHeader
    (world : ConfigWorld)
    (line : Text)
    (load : ConfigLoad) : Header :=
  if line = field "main" then .enter .main load
  else
    match logFileHeader line load with
    | .other =>
        match proxyInstanceHeader line load with
        | .other => sshTunnelHeader world line load
        | header => header
    | header => header

------------------------------------------------------------
-- Entries
------------------------------------------------------------

/-
  A field that is tried: its value is used, or the next field
  is tried.
-/
def Setting.orElse
    {α β : Type}
    (setting : Setting α)
    (use : α → Setting β)
    (next : Setting β) : Setting β :=
  match setting with
  | .unset => next
  | .overrun => .overrun
  | .value a => use a

/- A string field that is copied to `stringBuf`. -/
def stringField
    {β : Type}
    (line : Text)
    (name : String)
    (use : Text → Setting β)
    (next : Setting β) : Setting β :=
  (configSetString stringBufLen line (field name)).orElse
    (fun value => use value.text) next

/-
  The entries `logFilename` and `logVerbosity`, which three
  sections have.
-/
def logEntries
    (line : Text)
    (load : ConfigLoad)
    (set : (LogConfig → LogConfig) → Configuration →
      Configuration)
    (next : Setting ConfigLoad) : Setting ConfigLoad :=
  stringField line "logFilename "
    (fun filename =>
      let (config, address) :=
        findOrCreateLogFile load.config filename
      .value
        { load with
          config :=
            set (fun log => { log with file := some address })
              config })
    (stringField line "logVerbosity "
      (fun levelStr =>
        let level := logLevelFromStr levelStr
        if level = logLevelInvalid then .unset
        else
          .value
            { load with
              config :=
                set (fun log => { log with level })
                  load.config })
      next)

/- `config_file_parse_main_entry()` -/
def mainEntry
    (line : Text)
    (load : ConfigLoad) : Setting ConfigLoad :=
  logEntries line load
    (fun f config =>
      { config with
        mainConf :=
          { config.mainConf with
            log := f config.mainConf.log } })
    ((configSetInt line (field "ulimit ")).orElse
      (fun ulimit =>
        .value
          { load with
            config :=
              { load.config with
                mainConf :=
                  { load.config.mainConf with ulimit } } })
      .unset)

/- `config_file_parse_log_file_entry()` -/
def logFileEntry
    (line : Text)
    (address : Nat)
    (load : ConfigLoad) : Setting ConfigLoad :=
  (configSetLong line (field "byteCountMax ")).orElse
    (fun byteCountMax =>
      .value
        { load with
          config :=
            load.config.updateLogFile address
              fun log => { log with byteCountMax } })
    ((configSetLong line (field "fileRotateCount ")).orElse
      (fun fileRotateCount =>
        .value
          { load with
            config :=
              load.config.updateLogFile address
                fun log => { log with fileRotateCount } })
      .unset)

------------------------------------------------------------
-- Route Directories
------------------------------------------------------------

abbrev routeRuleDirMaxFiles : Nat := 200

/- The lowest name, by strcmp(); the first of equal ones. -/
def lowestName : Text → List Text → Text
  | lowest, [] => lowest
  | lowest, name :: names =>
      if name < lowest then lowestName name names
      else lowestName lowest names

/- The names by selection; `ii` of them are still missing. -/
def sortNames : Nat → List Text → List Text
  | 0, _ => []
  | _ + 1, [] => []
  | ii + 1, name :: names =>
      let lowest := lowestName name names
      lowest :: sortNames ii ((name :: names).erase lowest)

/- The names of the files of a directory, cut to fit. -/
def routeDirNames
    (entries : List DirEntry) : List Text :=
  (entries.filter DirEntry.isFileOrLink).map fun entry =>
    (CBuf.copy entry.name : CBuf 4096).text

/- The files of a directory are loaded until one fails. -/
def loadRouteFiles
    (world : FileWorld)
    (sshTunnelList : List SshTunnel)
    (dir : Text) :
    List Text → RuleLoad → LoadResult
  | [], load => .returned true load
  | name :: names, load =>
      let fullFilename : CBuf 4096 :=
        CBuf.copy (dir ++ [47] ++ name)
      match loadRouteFile world sshTunnelList
          fullFilename.text load with
      | .returned true load' =>
          loadRouteFiles world sshTunnelList dir names load'
      | result => result

/- The `routeDir` entry; a 201st name overruns the array. -/
def loadRouteDir
    (world : ConfigWorld)
    (sshTunnelList : List SshTunnel)
    (dir : Text)
    (load : RuleLoad) : LoadResult :=
  match world.directories dir with
  | none => .returned false load
  | some entries =>
      let names := routeDirNames entries
      if routeRuleDirMaxFiles < names.length then .crash
      else
        loadRouteFiles world.toFileWorld sshTunnelList dir
          (sortNames names.length names) load

------------------------------------------------------------
-- Entries of Proxies and Tunnels
------------------------------------------------------------

/- The tunnels that a rule can name. -/
def Configuration.tunnels
    (config : Configuration) : List SshTunnel :=
  config.sshTunnelList.map SshConfig.tunnel

/- A service that is parsed becomes the new head. -/
def insertService
    (load : ConfigLoad)
    (ref : ProxyRef)
    (srv : Option Service) : Setting ConfigLoad :=
  match srv with
  | none => .unset
  | some srv =>
      .value
        { load with
          serviceIdPool := srv.id
          config :=
            load.config.updateProxy
              (fun proxy =>
                { proxy with
                  serviceList := srv :: proxy.serviceList })
              ref }

/- Rules that are loaded into a proxy instance. -/
def addRules
    (load : ConfigLoad)
    (ref : ProxyRef)
    (parse : RuleLoad → LoadResult) : Setting ConfigLoad :=
  match parse
      ⟨(load.config.proxy ref).routeRuleList, load.mallocs⟩ with
  | .crash => .overrun
  | .returned false _ => .unset
  | .returned true rules =>
      .value
        { load with
          mallocs := rules.mallocs
          config :=
            load.config.updateProxy
              (fun proxy =>
                { proxy with routeRuleList := rules.routes })
              ref }

/- A `route` entry is one rule. -/
def loadRoute
    (world : FileWorld)
    (sshTunnelList : List SshTunnel)
    (spec filename : Text)
    (lineNum : Nat)
    (load : RuleLoad) : LoadResult :=
  let mallocs := load.mallocs + 1
  match parseRouteRuleSpec (world.junk load.mallocs) spec
      (some filename) lineNum sshTunnelList with
  | .error .crash => .crash
  | .error .null => .returned false { load with mallocs }
  | .ok route =>
      .returned true
        ⟨insertRouteRule load.routes route, mallocs⟩

/- `config_file_parse_proxy_instance_entry()` -/
def proxyInstanceEntry
    (world : ConfigWorld)
    (filename : Text)
    (lineNum : Nat)
    (line : Text)
    (ref : ProxyRef)
    (load : ConfigLoad) : Setting ConfigLoad :=
  let tunnels := load.config.tunnels
  let pool := load.serviceIdPool
  logEntries line load
    (fun f config =>
      config.updateProxy
        (fun proxy => { proxy with log := f proxy.log }) ref)
    (stringField line "socksServer "
      (fun spec =>
        insertService load ref (socksService spec pool))
    (stringField line "portForward "
      (fun spec =>
        insertService load ref (portForwardService spec pool))
    (stringField line "httpServer "
      (fun spec =>
        insertService load ref (httpService spec pool))
    (stringField line "route "
      (fun spec =>
        addRules load ref
          (loadRoute world.toFileWorld tunnels spec filename
            lineNum))
    (stringField line "routeFile "
      (fun name =>
        addRules load ref
          (loadRouteFile world.toFileWorld tunnels name))
    (stringField line "routeDir "
      (fun dir =>
        addRules load ref (loadRouteDir world tunnels dir))
      .unset))))))

/- `config_file_parse_ssh_tunnel_entry()` -/
def sshTunnelEntry
    (line : Text)
    (id : Nat)
    (load : ConfigLoad) : Setting ConfigLoad :=
  let set (f : SshTunnel → SshTunnel) : Setting ConfigLoad :=
    .value
      { load with
        config :=
          load.config.updateSsh id
            fun ssh => { ssh with tunnel := f ssh.tunnel } }
  (configSetInt line (field "socksPort ")).orElse
    (fun socksPort => set fun tun => { tun with socksPort })
    ((configSetString 8192 line (field "command ")).orElse
      (fun commandToRun =>
        set fun tun => { tun with commandToRun })
      (logEntries line load
        (fun f config =>
          config.updateSsh id
            fun ssh => { ssh with log := f ssh.log })
        .unset))

/- The entry function of the section that is current. -/
def sectionEntry
    (world : ConfigWorld)
    (filename : Text)
    (lineNum : Nat)
    (line : Text)
    (current : Section)
    (load : ConfigLoad) : Setting ConfigLoad :=
  match current with
  | .none => .unset
  | .main => mainEntry line load
  | .logFile address => logFileEntry line address load
  | .proxy ref =>
      proxyInstanceEntry world filename lineNum line ref load
  | .ssh id => sshTunnelEntry line id load

------------------------------------------------------------
-- Files
------------------------------------------------------------

/- `exited` is exit(1) at an invalid line. -/
inductive ConfigResult where
| crash
| exited
| returned (okay : Bool) (load : ConfigLoad)
deriving DecidableEq

structure ConfigState where
  current : Section
  load : ConfigLoad
deriving DecidableEq

section Lines

variable (world : ConfigWorld)
variable (filename : Text)
variable (stack : List Text)

/- A line that includes no file. -/
def sectionLine
    (lineNum : Nat)
    (line : Text)
    (state : ConfigState) :
    LineStep ConfigState ConfigResult :=
  match sectionHeader world line state.load with
  | .exited => .stop .exited
  | .overrun => .stop .crash
  | .enter current load => .next ⟨current, load⟩
  | .other =>
      match sectionEntry world filename lineNum line
          state.current state.load with
      | .value load => .next { state with load }
      | .overrun => .stop .crash
      | .unset => .stop .exited

/-
  The body of the loop of config_file_parse().  The result
  of an included file is not looked at.
-/
def configFileLine
    (included : Option (Text → ConfigLoad → ConfigResult))
    (lineNum : Nat)
    (buf : Text)
    (state : ConfigState) :
    LineStep ConfigState ConfigResult :=
  match configLine world.environ buf with
  | .error .invalid => .stop (.returned false state.load)
  | .error .overrun => .stop .crash
  | .ok line =>
      if line = [] then .next state
      else
        match configSetString stringBufLen line
            (field "include ") with
        | .overrun => .stop .crash
        | .value name =>
            match includeGuard stack included name.text with
            | none => .next state
            | some parse =>
                match parse state.load with
                | .crash => .stop .crash
                | .exited => .stop .exited
                | .returned _ load => .next { state with load }
        | .unset =>
            sectionLine world filename lineNum line state

/- A file that is on the stack already. -/
def configFileBody
    (included : Option (Text → ConfigLoad → ConfigResult))
    (load : ConfigLoad) : ConfigResult :=
  match world.files filename with
  | none => .returned false load
  | some file =>
      (readLines maxLineLength file).run
        (configFileLine world filename stack included)
        (fun state => .returned true state.load)
        (fun state => .returned false state.load)
        1 ⟨.none, load⟩

end Lines

/-
  `config_file_parse()`, with the room that the guard leaves
  on the stack.
-/
def configFileParse
    (world : ConfigWorld) :
    Nat → List Text → Text → ConfigLoad → ConfigResult
  | 0, stack, filename, load =>
      configFileBody world filename (stack ++ [filename]) none
        load
  | room + 1, stack, filename, load =>
      configFileBody world filename (stack ++ [filename])
        (some
          (configFileParse world room (stack ++ [filename])))
        load

end SmartSOCKSProxy
