import SmartSOCKSProxy.Socks.Handler

/-
  The port forwarding service.

  Key definitions include:
    * `ServicePortForward`
    * `parseServicePortForwardSpec`
    * `portForwardRequest`, `startForwarding`
    * `servicePortForwardConnectionHandler`
-/

namespace SmartSOCKSProxy

structure ServicePortForward where
  bindAddress : CBuf 300
  port : Int
  remoteHost : CBuf 300
  remotePort : Int
deriving DecidableEq

/- The address that is bound when none is given. -/
def defaultBindAddress : Text :=
  Text.ascii ['1', '2', '7', '.', '0', '.', '0', '.', '1']

/-
  `[bind_address:]local_port:remote_host:remote_port`.  The
  ports are whatever numbers the text spells.
-/
def parseServicePortForwardSpec
    (strIn : Text) : Option ServicePortForward :=
  let parts := strIn.count 58 + 1
  if parts < 3 ∨ 4 < parts then none
  else
    let tokens :=
      if parts = 3 then
        defaultBindAddress :: strIn.splitOn 58
      else strIn.splitOn 58
    match tokens with
    | [bindAddress, port, remoteHost, remotePort] =>
        match Text.scanInt port,
            Text.scanInt remotePort with
        | some port, some remotePort =>
            some
              { bindAddress := CBuf.copy bindAddress
                port := port
                remoteHost := CBuf.copy remoteHost
                remotePort := remotePort }
        | _, _ => none
    | _ => none

/- The request that the handler makes up. -/
def portForwardRequest
    (fwd : ServicePortForward)
    (con : ClientConnection) : ClientConnection :=
  recordRequest con 5 socks5CmdConnect socks5AddrTypeDomain
    ((con.dstHost.setName fwd.remoteHost.text).setPort
      fwd.remotePort)

/- The state in which socks_connect() is called. -/
def startForwarding
    (fwd : ServicePortForward)
    (rules : List RouteRule)
    (failureType : Int)
    (con : ClientConnection)
    (w : World) : Bool × Connecting :=
  let (ok, con, dns) :=
    decideApplicableRule rules (portForwardRequest fwd con)
      w.dns
  (ok ≠ 0, ⟨con, { w with dns := dns }, failureType⟩)

/- No reply is due before the relay. -/
def servicePortForwardConnectionHandler
    (fwd : ServicePortForward)
    (rules : List RouteRule)
    (failureType : Int)
    (polls : List PollEvent)
    (con : ClientConnection)
    (w : World) : Bool × ClientConnection × World :=
  match startForwarding fwd rules failureType con w with
  | (false, st) =>
      (true, serviceThreadShutdown st.con st.w 0)
  | (true, st) =>
      match socksConnect st with
      | (ok, st) =>
          if ok = 0 then
            (true, serviceThreadShutdown st.con st.w 0)
          else
            match socksConnectShuttle polls st.con st.w with
            | (none, con, w) => (false, con, w)
            | (some ok, con, w) =>
                (true, serviceThreadShutdown con w ok)

end SmartSOCKSProxy
