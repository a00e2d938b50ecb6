import SmartSOCKSProxy.Core.ClientConnection
import SmartSOCKSProxy.Core.Service
import SmartSOCKSProxy.Foundations.Decimal
import SmartSOCKSProxy.Logging.LogLevel
import SmartSOCKSProxy.Server.SshPolicy

/-
  The status document.

  The text is put together in a buffer that grows.  Every
  function here is the list of its calls of add_to_buf(), in
  order.  In the texts, 7b and 7d are the braces.

  Key definitions include:
    * `JsonBuf`, `addToBuf`
    * `addService`, `addClientConnection`,
      `addProxyInstance`, `addSshTunnel`
    * `StatusState`, `buildJson`
-/

namespace SmartSOCKSProxy

------------------------------------------------------------
-- What Is Shown
------------------------------------------------------------

/-
  A snapshot of a connection, with the fields that only the
  status document shows.
-/
structure ConnectionSnapshot where
  id : UInt64
  srv : Service
  con : ClientConnection
  srcHost : HostId
  urlPath : CBuf 4096
  startTime : Int

/- `log.file` is NULL when there is no log file. -/
structure ProxyInstance where
  name : CBuf 1024
  logLevel : Int
  logFile : Option (CBuf 2049)
  serviceList : List Service
  clientConnectionList : List ConnectionSnapshot

structure TunnelSnapshot where
  tunnel : SshTunnel
  runtime : SshRuntime

/-
  What build_json() reads: the lists, the times and what the
  build puts into version.h.
-/
structure StatusState where
  proxyInstanceList : List ProxyInstance
  sshTunnelList : List TunnelSnapshot
  currentTime : Int
  proxyStartTime : Int
  version : Text
  buildDate : Text
  gitHash : Text

------------------------------------------------------------
-- The Buffer
------------------------------------------------------------

structure JsonBuf where
  text : Text
  size : Nat

/-
  `while (new_size < needed) new_size *= 2`.  An int has no
  value from 2^31 on; 31 rounds lead there from any size.
-/
def growSize : Nat → Nat → Nat → Option Nat
  | 0, _, _ => none
  | rounds + 1, newSize, needed =>
      if newSize < needed then
        if 2 * newSize < 2 ^ 31 then
          growSize rounds (2 * newSize) needed
        else none
      else some newSize

/-
  `add_to_buf()` when realloc() succeeds.  There is no result
  for NULL, and when the size overflows.
-/
def addToBuf
    (buf : JsonBuf) :
    Option Text → Option JsonBuf
  | none => none
  | some add => do
      let size ← growSize 32 buf.size
        (buf.text.length + add.length + 10)
      if buf.text.length + add.length < size then
        some ⟨buf.text ++ add, size⟩
      else some ⟨buf.text, size⟩

/- `add_to_buf_int()` -/
def addToBufInt
    (value : Int) : List (Option Text) :=
  [some (Text.ofInt value)]

/- `add_to_buf_uint()` -/
def addToBufUint
    (value : UInt64) : List (Option Text) :=
  [some (Text.ofNat value.toNat)]

/- A signed number that is passed as an unsigned one. -/
def asUint
    (value : Int) : UInt64 :=
  UInt64.ofInt value

def addString
    (name : String)
    (value : Option Text) : List (Option Text) :=
  [lit "\"", lit name, lit "\":\"", value, lit "\""]

def addInt
    (name : String)
    (value : Int) : List (Option Text) :=
  [lit "\"", lit name, lit "\":"] ++ addToBufInt value

def addUint
    (name : String)
    (value : UInt64) : List (Option Text) :=
  [lit "\"", lit name, lit "\":"] ++ addToBufUint value

def addComma : List (Option Text) :=
  [lit ","]

/- A loop that adds a comma before all but the first. -/
def addList :
    List (List (Option Text)) → List (Option Text)
  | [] => []
  | first :: rest =>
      first ++ rest.flatMap fun calls => lit "," :: calls

------------------------------------------------------------
-- The Parts
------------------------------------------------------------

def addService
    (srv : Service) : List (Option Text) :=
  [lit "\""] ++ addToBufUint srv.id ++ [lit "\":\x7b"] ++
  addUint "serviceId" srv.id ++ addComma ++
  [lit "\"type\":\""] ++
  (match srv.kind with
    | .none => [lit "none"]
    | .socks => [lit "SOCKS"]
    | .portForward _ _ => [lit "portForward"]
    | .http _ => [lit "HTTP"]) ++
  [lit "\","] ++
  (match srv.kind with
    | .portForward remoteHost remotePort =>
        addString "remoteAddress" (some remoteHost.text) ++
        addComma ++ addInt "remotePort" remotePort ++ addComma
    | .http baseDir =>
        [lit "\"baseDir\":\"", some baseDir.text, lit "\","]
    | _ => []) ++
  [lit "\"localAddress\":\"", some srv.bindAddress.text,
    lit "\",", lit "\"localPort\":"] ++
  addToBufInt srv.port ++ [lit "\x7d"]

/- `SERVICE_TYPE_SOCKS` or `SERVICE_TYPE_PORT_FORWARD`. -/
def ServiceKind.hasRoute : ServiceKind → Bool
  | .socks => true
  | .portForward _ _ => true
  | _ => false

def ServiceKind.isHttp : ServiceKind → Bool
  | .http _ => true
  | _ => false

/- The name of a host, its address and its port. -/
def addHost
    (host : HostId)
    (name address port : String) : List (Option Text) :=
  (if host.hasName then
    addString name (some host.name.text) ++ addComma
  else []) ++
  (if host.hasAddr then
    addString address host.addrStr ++ addComma
  else []) ++
  addInt port host.port ++ addComma

def addClientConnection
    (snap : ConnectionSnapshot) : List (Option Text) :=
  let con := snap.con
  [lit "\""] ++ addToBufUint snap.id ++ [lit "\":\x7b"] ++
  addUint "connectionId" snap.id ++ addComma ++
  [lit "\"service\":"] ++ addToBufUint snap.srv.id ++
  [lit ","] ++
  (match con.tunnel with
    | some tunnel =>
        if snap.srv.kind.hasRoute then
          [lit "\"route\":\"", some tunnel.name.text,
            lit "\","] ++
          addInt "socksVersion" con.socksVersion ++
          addComma ++
          addInt "socksCommand" con.socksCommand ++ addComma
        else []
    | none => []) ++
  addHost con.dstHostOriginal "remoteName" "remoteAddress"
    "remotePort" ++
  addHost con.dstHost "remoteNameEffective"
    "remoteAddressEffective" "remotePortEffective" ++
  addInt "status" con.status ++ addComma ++
  (if con.statusName.text ≠ [] then
    addString "statusName" (some con.statusName.text) ++
    addComma
  else []) ++
  (if con.statusDescription.text ≠ [] then
    addString "statusDescription"
      (some con.statusDescription.text) ++ addComma
  else []) ++
  [lit "\"bytesTx\":"] ++ addToBufUint con.bytesTx ++
  [lit ","] ++
  [lit "\"bytesRx\":"] ++ addToBufUint con.bytesRx ++
  [lit ","] ++
  (if snap.srv.kind.isHttp then
    if 0 < snap.urlPath.text.length then
      addString "urlPath" (some snap.urlPath.text) ++ addComma
    else []
  else []) ++
  (if snap.srcHost.hasName then
    addString "sourceName" (some snap.srcHost.name.text) ++
    addComma
  else []) ++
  addString "sourceAddress" snap.srcHost.addrStr ++
  addComma ++
  addInt "sourcePort" snap.srcHost.port ++ addComma ++
  (if 0 < con.endTime then
    [lit "\"timeEnd\":"] ++
    addToBufUint (asUint con.endTime) ++ [lit ","]
  else []) ++
  [lit "\"timeStart\":"] ++
  addToBufUint (asUint snap.startTime) ++ [lit "\x7d"]

def addProxyInstance
    (proxy : ProxyInstance) : List (Option Text) :=
  [lit "\"", some proxy.name.text, lit "\":\x7b"] ++
  addString "name" (some proxy.name.text) ++ addComma ++
  [lit "\"logLevel\":\"", logLevelStr proxy.logLevel,
    lit "\","] ++
  [lit "\"logFilename\":\""] ++
  (match proxy.logFile with
    | some fileName => [some fileName.text]
    | none => [lit "-"]) ++
  [lit "\","] ++
  [lit "\"service\":\x7b"] ++
  addList (proxy.serviceList.map addService) ++
  [lit "\x7d,"] ++
  [lit "\"connection\":\x7b"] ++
  addList
    (proxy.clientConnectionList.map addClientConnection) ++
  [lit "\x7d"] ++ [lit "\x7d"]

def addSshTunnel
    (ssh : TunnelSnapshot) : List (Option Text) :=
  [lit "\"", some ssh.tunnel.name.text, lit "\":\x7b"] ++
  addString "name" (some ssh.tunnel.name.text) ++ addComma ++
  (if 0 < ssh.runtime.pid then
    [lit "\"pid\":"] ++
    addToBufUint (asUint ssh.runtime.pid) ++ [lit ","] ++
    [lit "\"timeStart\":"] ++
    addToBufUint (asUint ssh.runtime.startTime) ++
    [lit ","] ++
    [lit "\"numConnections\":"] ++
    addToBufUint (asUint ssh.runtime.connectionCount) ++
    [lit ","]
  else []) ++
  [lit "\"socksPort\":"] ++
  addToBufInt ssh.tunnel.socksPort ++ [lit "\x7d"]

/- The special tunnels have no port and are left out. -/
def shownTunnels
    (state : StatusState) : List TunnelSnapshot :=
  state.sshTunnelList.filter fun ssh =>
    ssh.tunnel.socksPort ≠ 0

------------------------------------------------------------
-- The Document
------------------------------------------------------------

/- The calls of add_to_buf() in build_json(). -/
def buildCalls
    (state : StatusState) : List (Option Text) :=
  [lit "\x7b"] ++
  addInt "currentTime" state.currentTime ++ addComma ++
  addInt "proxyStartTime" state.proxyStartTime ++ addComma ++
  addString "version" (some state.version) ++ addComma ++
  addString "buildDate" (some state.buildDate) ++ addComma ++
  addString "gitHash" (some state.gitHash) ++ addComma ++
  [lit "\"proxyInstance\":\x7b"] ++
  addList (state.proxyInstanceList.map addProxyInstance) ++
  [lit "\x7d,"] ++
  [lit "\"sshTunnel\":\x7b"] ++
  addList ((shownTunnels state).map addSshTunnel) ++
  [lit "\x7d"] ++ [lit "\x7d"]

/-
  The values that `default_size` can have: the first one, and
  what a buffer grows to.
-/
def DefaultSize : Type :=
  { size : Nat // ∃ k ≤ 20, size = 1024 * 2 ^ k }

/-
  `build_json()` when malloc() succeeds.  The result is the
  text and the new `default_size`.
-/
def buildJson
    (state : StatusState)
    (defaultSize : DefaultSize) : Option JsonBuf :=
  (buildCalls state).foldlM addToBuf ⟨[], defaultSize.val⟩

end SmartSOCKSProxy
