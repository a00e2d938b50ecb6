import SmartSOCKSProxy.Config.RouteFile
import SmartSOCKSProxy.Config.Services
import SmartSOCKSProxy.Logging.LogLevel

/-
  What a configuration file sets up.

  Log files, tunnels and proxy instances are made when their
  names are first used.

  Key definitions include:
    * `LogFileConfig`, `ProxyConfig`, `SshConfig`
    * `Configuration`, `ConfigLoad`, `ConfigWorld`
    * `findOrCreateLogFile`
    * `ConfigLoad.init`
-/

namespace SmartSOCKSProxy

------------------------------------------------------------
-- Objects
------------------------------------------------------------

abbrev logFileNameMaxLen : Nat := 2048

/-
  A log file.  The address is the number of the object, and
  the one of the default log file is 0.
-/
structure LogFileConfig where
  address : Nat
  fileName : CBuf logFileNameMaxLen
  canRotate : Bool
  byteCountMax : Int
  fileRotateCount : Int
deriving DecidableEq

/- The pointer is NULL without a file. -/
structure LogConfig where
  level : Int
  file : Option Nat
deriving DecidableEq, Repr

structure MainConfig where
  ulimit : Int
  log : LogConfig
deriving DecidableEq, Repr

structure ProxyConfig where
  name : CBuf 1024
  log : LogConfig
  serviceList : List Service
  routeRuleList : List RouteRule
deriving DecidableEq

structure SshConfig where
  tunnel : SshTunnel
  log : LogConfig
deriving DecidableEq

/-
  The lists in their order, and the objects that hold the
  default settings.
-/
structure Configuration where
  logFileList : List LogFileConfig
  logFileDefault : LogFileConfig
  mainConf : MainConfig
  proxyInstanceList : List ProxyConfig
  proxyDefault : ProxyConfig
  sshTunnelList : List SshConfig
  sshDefault : SshConfig
deriving DecidableEq

/- A configuration, and the numbers that were given last. -/
structure ConfigLoad where
  config : Configuration
  serviceIdPool : UInt64
  sshIdPool : Nat
  mallocs : Nat
deriving DecidableEq

/- An entry of a directory, as readdir() returns it. -/
structure DirEntry where
  name : Text
  isFileOrLink : Bool
deriving DecidableEq, Repr

/-
  Directories, and what malloc() leaves in the log settings
  of a tunnel, which new_ssh_tunnel() does not set.
-/
structure ConfigWorld extends FileWorld where
  directories : Text → Option (List DirEntry)
  junkLog : Nat → LogConfig

------------------------------------------------------------
-- Log Files
------------------------------------------------------------

/- `new_log_file_from_template()` -/
def newLogFileFromTemplate
    (template : LogFileConfig)
    (address : Nat)
    (filename : Text) : LogFileConfig :=
  let fileName : CBuf logFileNameMaxLen := CBuf.copy filename
  { address
    fileName
    canRotate := fileName.text ≠ [45]
    byteCountMax := template.byteCountMax
    fileRotateCount := template.fileRotateCount }

/- `find_log_file()`: strncmp() looks at 2047 characters. -/
def findLogFile
    (head : List LogFileConfig)
    (filename : Text) : Option LogFileConfig :=
  head.find? fun log =>
    log.fileName.text = filename.take (logFileNameMaxLen - 1)

/- `find_or_create_log_file()`; a new file is the new head. -/
def findOrCreateLogFile
    (config : Configuration)
    (filename : Text) : Configuration × Nat :=
  match findLogFile config.logFileList filename with
  | some log => (config, log.address)
  | none =>
      let log := newLogFileFromTemplate config.logFileDefault
        (config.logFileList.length + 1) filename
      ({ config with logFileList := log :: config.logFileList },
        log.address)

------------------------------------------------------------
-- Changes of Objects
------------------------------------------------------------

/- An object of a list that is found by a key. -/
def updateWhere
    {α : Type}
    (found : α → Bool)
    (f : α → α)
    (list : List α) : List α :=
  list.map fun a => if found a then f a else a

def Configuration.updateLogFile
    (config : Configuration)
    (address : Nat)
    (f : LogFileConfig → LogFileConfig) : Configuration :=
  if config.logFileDefault.address = address then
    { config with logFileDefault := f config.logFileDefault }
  else
    { config with
      logFileList :=
        updateWhere (fun log => log.address = address) f
          config.logFileList }

/-
  A pointer to a proxy instance: the default one, or one of
  the list, which only grows at its end.
-/
inductive ProxyRef where
| default
| listed (index : Nat)
deriving DecidableEq, Repr

def Configuration.proxy
    (config : Configuration) : ProxyRef → ProxyConfig
  | .default => config.proxyDefault
  | .listed index =>
      config.proxyInstanceList.getD index config.proxyDefault

def Configuration.updateProxy
    (config : Configuration)
    (f : ProxyConfig → ProxyConfig) :
    ProxyRef → Configuration
  | .default =>
      { config with proxyDefault := f config.proxyDefault }
  | .listed index =>
      { config with
        proxyInstanceList :=
          config.proxyInstanceList.modify index f }

/- A rule points to tunnels, and sees what becomes of them. -/
def RouteRule.refresh
    (ssh : SshTunnel)
    (route : RouteRule) : RouteRule :=
  { route with
    tunnel := route.tunnel.map fun entry =>
      entry.map fun tun => if tun.id = ssh.id then ssh else tun }

def ProxyConfig.refresh
    (ssh : SshTunnel)
    (proxy : ProxyConfig) : ProxyConfig :=
  { proxy with
    routeRuleList :=
      proxy.routeRuleList.map fun route => route.refresh ssh }

def Configuration.ssh
    (config : Configuration)
    (id : Nat) : SshConfig :=
  ((config.sshTunnelList.find? fun ssh =>
    ssh.tunnel.id = id)).getD config.sshDefault

/- A change of a tunnel is a change for every rule. -/
def Configuration.updateSsh
    (config : Configuration)
    (id : Nat)
    (f : SshConfig → SshConfig) : Configuration :=
  let ssh := (f (config.ssh id)).tunnel
  { config with
    sshTunnelList :=
      updateWhere (fun ssh => ssh.tunnel.id = id) f
        config.sshTunnelList
    sshDefault :=
      if config.sshDefault.tunnel.id = id then
        f config.sshDefault
      else config.sshDefault
    proxyInstanceList :=
      config.proxyInstanceList.map (ProxyConfig.refresh ssh)
    proxyDefault := config.proxyDefault.refresh ssh }

------------------------------------------------------------
-- The Beginning
------------------------------------------------------------

def sshTunnelSocksProxy : SshTunnel :=
  specialTunnel 2
    ['s', 'o', 'c', 'k', 's', '_', 'p', 'r', 'o', 'x', 'y']

/- What main() sets up before it parses a file. -/
def ConfigLoad.init
    (junkLog : Nat → LogConfig) : ConfigLoad where
  config :=
    { logFileList := []
      logFileDefault :=
        { address := 0
          fileName := CBuf.copy (field "-")
          canRotate := false
          byteCountMax := 1024 * 1024 * 20
          fileRotateCount := 4 }
      mainConf := ⟨4096, ⟨3, none⟩⟩
      proxyInstanceList := []
      proxyDefault :=
        { name := CBuf.copy (field "default")
          log := ⟨3, none⟩
          serviceList := []
          routeRuleList := [] }
      sshTunnelList :=
        [⟨sshTunnelNull, junkLog 3⟩,
          ⟨sshTunnelSocksProxy, junkLog 2⟩,
          ⟨sshTunnelDirect, junkLog 1⟩]
      sshDefault := ⟨specialTunnel 4 [], junkLog 4⟩ }
  serviceIdPool := 0
  sshIdPool := 4
  mallocs := 0

end SmartSOCKSProxy
