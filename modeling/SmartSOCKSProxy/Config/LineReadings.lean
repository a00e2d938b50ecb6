import SmartSOCKSProxy.Config.RouteDir
import SmartSOCKSProxy.Config.SettingUpdates

/-
  What the text of a configuration sets.

  Given the names of the objects that there are, the text of
  a line tells whether it only sets fields, and which: a
  header of an object that is there, an entry that sets a
  field, rules of files that have none, and a file of such
  lines.  Every other line makes an object, a service or a
  rule, or ends the process.

  Key definitions include:
    * `ConfigNames`, `ConfigNames.header`
    * `sectionSettings`, `lineSettings`
    * `linesSettings`, `treeSettings`

  Key theorems include:
    * `Configuration.names_assign`
    * `tunnelNames_names`
-/

namespace SmartSOCKSProxy

------------------------------------------------------------
-- Names
------------------------------------------------------------

/- The objects that a line can refer to, without fields. -/
structure ConfigNames where
  logFiles : List (Nat × CBuf logFileNameMaxLen)
  logFileDefault : Nat
  proxies : List (CBuf 1024)
  tunnels : List (Nat × CBuf 200)
  sshDefault : Nat
deriving DecidableEq

def Configuration.names
    (config : Configuration) : ConfigNames where
  logFiles := config.logFileList.map LogFileConfig.identity
  logFileDefault := config.logFileDefault.address
  proxies := config.proxyInstanceList.map ProxyConfig.name
  tunnels := config.tunnels.map SshTunnel.identity
  sshDefault := config.sshDefault.tunnel.id

section Names

variable (names : ConfigNames)

def ConfigNames.logFile
    (filename : Text) : Option Nat :=
  (names.logFiles.find? fun log =>
    log.2.text = filename.take (logFileNameMaxLen - 1)).map
      Prod.fst

def ConfigNames.proxy
    (name : Text) : Option Nat :=
  names.proxies.findIdx? fun proxy => proxy.text = name

def ConfigNames.tunnel
    (name : Text) : Option Nat :=
  (names.tunnels.find? fun tun => tun.2.text = name).map
    Prod.fst

/- Tunnels of these names, for the parser of rules. -/
def ConfigNames.tunnelList : List SshTunnel :=
  names.tunnels.map fun tun =>
    { id := tun.1
      name := tun.2
      socksPort := 0
      commandToRun := CBuf.empty }

/- A section of an object that there is. -/
def ConfigNames.Within : Section → Prop
  | .proxy (.listed index) => index < names.proxies.length
  | _ => True

------------------------------------------------------------
-- Headers
------------------------------------------------------------

/-
  A header with this keyword, and the section that it begins
  when there is the object.
-/
def namedHeader
    (line keyword : Text)
    (fallback : Section)
    (find : Text → Option Section) :
    Option (Option Section) :=
  (matchStart line keyword).map fun name =>
    if name = [] then none
    else if name = kwDefault then some fallback
    else find name

def ConfigNames.header
    (line : Text) : Option (Option Section) :=
  if line = field "main" then some (some .main)
  else
    (namedHeader line (field "logfile ")
        (.logFile names.logFileDefault)
        fun name => (names.logFile name).map .logFile).or
      ((namedHeader line (field "proxy ") (.proxy .default)
          fun name =>
            (names.proxy name).map fun index =>
              .proxy (.listed index)).or
        (namedHeader line (field "ssh ")
          (.ssh names.sshDefault)
          fun name => (names.tunnel name).map .ssh))

------------------------------------------------------------
-- Entries
------------------------------------------------------------

/-
  What a field of the line sets, or the next field.  There is
  nothing to set when its value leaves no terminator.
-/
def Setting.reads
    {α β : Type}
    (setting : Setting α)
    (use : α → Option β)
    (next : Option β) : Option β :=
  match setting with
  | .unset => next
  | .overrun => none
  | .value a => use a

/- A log file that there is, and a level that there is. -/
def ConfigNames.logSettings
    (line : Text)
    (owner : LogOwner)
    (next : Option (List ConfigSetting)) :
    Option (List ConfigSetting) :=
  (configSetString stringBufLen line
      (field "logFilename ")).reads
    (fun filename =>
      (names.logFile filename.text).map fun address =>
        [⟨.logFile owner, some address⟩])
    ((configSetString stringBufLen line
        (field "logVerbosity ")).reads
      (fun levelStr =>
        let level := logLevelFromStr levelStr.text
        if level = logLevelInvalid then none
        else some [⟨.level owner, level⟩])
      next)

def ConfigNames.mainSettings
    (line : Text) : Option (List ConfigSetting) :=
  names.logSettings line .main
    ((configSetInt line (field "ulimit ")).reads
      (fun ulimit => some [⟨.ulimit, ulimit⟩])
      none)

def logFileSettings
    (line : Text)
    (address : Nat) : Option (List ConfigSetting) :=
  (configSetLong line (field "byteCountMax ")).reads
    (fun byteCountMax =>
      some [⟨.byteCountMax address, byteCountMax⟩])
    ((configSetLong line (field "fileRotateCount ")).reads
      (fun fileRotateCount =>
        some [⟨.fileRotateCount address, fileRotateCount⟩])
      none)

def ConfigNames.sshSettings
    (line : Text)
    (id : Nat) : Option (List ConfigSetting) :=
  (configSetInt line (field "socksPort ")).reads
    (fun socksPort => some [⟨.socksPort id, socksPort⟩])
    ((configSetString 8192 line (field "command ")).reads
      (fun commandToRun =>
        some [⟨.commandToRun id, commandToRun⟩])
      (names.logSettings line (.ssh id) none))

end Names

/- A tree of lines that is accepted and has no rule. -/
def treeIsIdle
    (t : IncludeTree RuleLine) : Bool :=
  t.accepted && t.loaded.isEmpty

section Text

variable (world : ConfigWorld)
variable (names : ConfigNames)

/- A file of rules that has none. -/
def fileIsIdle
    (filename : Text) : Bool :=
  treeIsIdle
    (routeTree world.toFileWorld names.tunnelList
      (routeRuleFilenameStackSize - 1) [] filename)

/- A directory of such files, at most as many as there fit. -/
def dirIsIdle
    (dir : Text) : Bool :=
  match world.directories dir with
  | none => false
  | some entries =>
      (routeDirNames entries).length ≤ routeRuleDirMaxFiles &&
        (routeDirNames entries).all fun name =>
          fileIsIdle world names (fullFilename dir name)

/- Services and rules are more than fields. -/
def proxySettings
    (line : Text)
    (ref : ProxyRef) : Option (List ConfigSetting) :=
  let string (name : String) :=
    configSetString stringBufLen line (field name)
  names.logSettings line (.proxy ref)
    ((string "socksServer ").reads (fun _ => none)
    ((string "portForward ").reads (fun _ => none)
    ((string "httpServer ").reads (fun _ => none)
    ((string "route ").reads (fun _ => none)
    ((string "routeFile ").reads
      (fun name =>
        if fileIsIdle world names name.text then some []
        else none)
    ((string "routeDir ").reads
      (fun dir =>
        if dirIsIdle world names dir.text then some []
        else none)
      none))))))

def sectionSettings
    (line : Text) : Section → Option (List ConfigSetting)
  | .none => none
  | .main => names.mainSettings line
  | .logFile address => logFileSettings line address
  | .proxy ref => proxySettings world names line ref
  | .ssh id => names.sshSettings line id

------------------------------------------------------------
-- Files
------------------------------------------------------------

/-
  The settings of a line, and the section behind it.  Those
  of a file that it includes are given.
-/
def lineSettings
    (stack : List Text)
    (included : Option (Text → Option (List ConfigSetting)))
    (line : Text)
    (current : Section) :
    Option (Section × List ConfigSetting) :=
  match configSetString stringBufLen line
      (field "include ") with
  | .overrun => none
  | .value name =>
      match includeGuard stack included name.text with
      | none => some (current, [])
      | some settings =>
          settings.map fun settings => (current, settings)
  | .unset =>
      match names.header line with
      | some header => header.map fun current => (current, [])
      | none =>
          (sectionSettings world names line current).map
            fun settings => (current, settings)

/-
  The settings of the lines that are ended, the last one
  first, up to a line that ends the file.
-/
def linesSettings
    (stack : List Text)
    (included : Option (Text → Option (List ConfigSetting))) :
    LineReads → Section → Option (List ConfigSetting)
  | .failed, _ => some []
  | .eof _, _ => some []
  | .line buf more, current =>
      match configLine world.environ buf with
      | .error .invalid => some []
      | .error .overrun => none
      | .ok [] => linesSettings stack included more current
      | .ok (c :: cs) =>
          (lineSettings world names stack included (c :: cs)
              current).bind fun (current, settings) =>
            (linesSettings stack included more current).map
              fun later => later ++ settings

def fileSettings
    (filename : Text)
    (stack : List Text)
    (included : Option (Text → Option (List ConfigSetting))) :
    Option (List ConfigSetting) :=
  match world.files filename with
  | none => some []
  | some file =>
      linesSettings world names stack included
        (readLines maxLineLength file) .none

/- A configuration file and all that it includes. -/
def treeSettings :
    Nat → List Text → Text → Option (List ConfigSetting)
  | 0, stack, filename =>
      fileSettings world names filename (stack ++ [filename])
        none
  | room + 1, stack, filename =>
      fileSettings world names filename (stack ++ [filename])
        (some (treeSettings room (stack ++ [filename])))

end Text

------------------------------------------------------------
-- The Names Stay
------------------------------------------------------------

@[simp]
theorem Configuration.names_numbered
    (config : Configuration) :
    config.numbered.names = config.names := by
  unfold names numbered tunnels
  simp only [List.map_map]
  rfl

/- Settings change no name. -/
@[simp]
theorem Configuration.names_assign
    (settings : List ConfigSetting)
    (config : Configuration) :
    (config.assign settings).names = config.names := by
  rw [names, names, ConfigNames.mk.injEq]
  refine ⟨?_, rfl, ?_, ?_, rfl⟩
  · rw [assign, List.map_map]
    refine List.map_congr_left fun log _ => ?_
    rw [Function.comp_apply]
    unfold LogFileConfig.assignListed
    split <;> rfl
  · refine List.ext_getElem? fun index => ?_
    rw [List.getElem?_map, List.getElem?_map, assign,
      List.getElem?_mapIdx, Option.map_map]
    rfl
  · unfold tunnels
    rw [List.map_map, List.map_map, assign, List.map_map]
    rfl

section Lookups

variable (config : Configuration)

/- Lookups of objects, by their names. -/
theorem logFile_names
    (filename : Text) :
    (findLogFile config.logFileList filename).map
        LogFileConfig.address =
      config.names.logFile filename := by
  unfold findLogFile ConfigNames.logFile Configuration.names
  rw [List.find?_map, Option.map_map]
  rfl

theorem proxy_names
    (name : Text) :
    (config.proxyInstanceList.findIdx? fun proxy =>
        proxy.name.text = name) =
      config.names.proxy name := by
  unfold ConfigNames.proxy Configuration.names
  rw [List.findIdx?_map]
  rfl

theorem tunnel_names
    (name : Text) :
    ((config.sshTunnelList.find? fun ssh =>
        ssh.tunnel.name.text = name).map fun ssh =>
          ssh.tunnel.id) =
      config.names.tunnel name := by
  unfold ConfigNames.tunnel Configuration.names
    Configuration.tunnels
  rw [List.map_map, List.find?_map, Option.map_map]
  rfl

/- The parser of rules sees the same names. -/
theorem tunnelNames_names :
    tunnelNames config.names.tunnelList =
      tunnelNames config.tunnels := by
  unfold tunnelNames ConfigNames.tunnelList
    Configuration.names
  rw [List.map_map, List.map_map]
  rfl

end Lookups

end SmartSOCKSProxy
