import SmartSOCKSProxy.Core.Exchange
import SmartSOCKSProxy.Routing.Engine

/-
  Reading a client's request.

  Key definitions include:
    * `socksGetClientVersion`, `socks5NegotiateAuth`
    * `socks4GetCommand`, `socks5GetCommand`
    * `handshake`
-/

namespace SmartSOCKSProxy

------------------------------------------------------------
-- Constants
------------------------------------------------------------

/- `SOCKS_VERSION_ERROR` -/
def socksVersionError : Int := -1

/- `SOCKS_AUTH_ERROR` -/
def socksAuthError : Int := -1

/- `SOCKS5_AUTH_NONE_REQUIRED` -/
def socks5AuthNoneRequired : Int := 0

/- `SOCKS5_CMD_ERROR` -/
def socks5CmdError : Int := 0

/- `SOCKS5_CMD_CONNECT`, also `SOCKS4_CMD_CONNECT` -/
def socks5CmdConnect : Int := 1

/- `SOCKS5_CMD_BIND` -/
def socks5CmdBind : Int := 2

/- `SOCKS5_CMD_UDP_ASSOCIATE` -/
def socks5CmdUdpAssociate : Int := 3

------------------------------------------------------------
-- Version and Authentication
------------------------------------------------------------

/- Other versions are told that no method is acceptable. -/
def socksGetClientVersion
    (w : World) : Int × World :=
  match w.expect .client 1 with
  | (none, w) => (socksVersionError, w)
  | (some buf, w) =>
      let version := (buf.getD 0 0).toNat
      if version ≠ 4 ∧ version ≠ 5 then
        let (_, w) := w.sbWriteLen .client [5, 255]
        (socksVersionError, w)
      else (version, w)

/- All methods are read, and none is ever required. -/
def socks5NegotiateAuth
    (w : World) : Int × World :=
  match w.expect .client 1 with
  | (none, w) => (socksAuthError, w)
  | (some buf, w) =>
      match w.expect .client (buf.getD 0 0).toNat with
      | (none, w) => (socksAuthError, w)
      | (some _, w) =>
          let (rc, w) := w.sbWriteLen .client [5, 0]
          if rc ≠ 2 then (socksAuthError, w)
          else (socks5AuthNoneRequired, w)

------------------------------------------------------------
-- Commands
------------------------------------------------------------

/- Note a request, and its original, in the connection. -/
def recordRequest
    (con : ClientConnection)
    (version command addressType : Int)
    (dstHost : HostId) : ClientConnection :=
  { con with
    socksVersion := version
    socksCommand := command
    socksCommandOriginal := command
    socksAddressType := addressType
    socksAddressTypeOriginal := addressType
    dstHost := dstHost
    dstHostOriginal := dstHost }

/-
  Skip a user id and its terminator, reading at most `max`
  bytes.
-/
def skipUserid : Nat → World → Bool × World
  | 0, w => (false, w)
  | max + 1, w =>
      match w.expect .client 1 with
      | (none, w) => (false, w)
      | (some buf, w) =>
          if buf.getD 0 0 = 0 then (true, w)
          else skipUserid max w

def socks4GetCommand
    (con : ClientConnection)
    (w : World) : Int × ClientConnection × World :=
  match w.expect .client 1 with
  | (none, w) => (socks5CmdError, con, w)
  | (some buf, w) =>
      let command : Int := (buf.getD 0 0).toNat
      if command ≠ socks5CmdConnect then
        (socks5CmdError, con, w)
      else
        match w.expect .client 2 with
        | (none, w) => (socks5CmdError, con, w)
        | (some buf, w) =>
            let port := bePort (buf.getD 0 0) (buf.getD 1 0)
            match w.expect .client 4 with
            | (none, w) => (socks5CmdError, con, w)
            | (some ipv4, w) =>
                let con :=
                  recordRequest con 4 command
                    socks5AddrTypeIpv4
                    (con.dstHost.setAddrInFromByteArray
                      ipv4 port)
                match skipUserid 1000 w with
                | (false, w) => (socks5CmdError, con, w)
                | (true, w) => (socks5CmdConnect, con, w)

/-
  The address of a version 5 command, without its type.  An
  IPv6 address is read and refused.
-/
def socks5GetAddress
    (addressType : Int)
    (w : World) : Option (List UInt8) × World :=
  if addressType = socks5AddrTypeIpv4 then
    w.expect .client 4
  else if addressType = socks5AddrTypeIpv6 then
    let (_, w) := w.expect .client 16
    (none, w)
  else if addressType = socks5AddrTypeDomain then
    match w.expect .client 1 with
    | (none, w) => (none, w)
    | (some buf, w) =>
        w.expect .client (buf.getD 0 0).toNat
  else (none, w)

/- Store the address of a version 5 command. -/
def socks5SetAddress
    (dstHost : HostId)
    (addressType : Int)
    (addr : List UInt8)
    (port : Int) : HostId :=
  if addressType = socks5AddrTypeIpv4 then
    dstHost.setAddrInFromByteArray addr port
  else if addressType = socks5AddrTypeIpv6 then
    dstHost.setAddrIn6FromByteArray addr port
  else if addressType = socks5AddrTypeDomain then
    (dstHost.setName addr).setPort port
  else dstHost

def socks5GetCommand
    (con : ClientConnection)
    (w : World) : Int × ClientConnection × World :=
  match w.expect .client 4 with
  | (none, w) => (socks5CmdError, con, w)
  | (some buf, w) =>
      let version : Int := (buf.getD 0 0).toNat
      let command : Int := (buf.getD 1 0).toNat
      let rsv := buf.getD 2 0
      let addressType : Int := (buf.getD 3 0).toNat
      if version ≠ 5 then (socks5CmdError, con, w)
      else if rsv ≠ 0 then (socks5CmdError, con, w)
      else
        match socks5GetAddress addressType w with
        | (none, w) => (socks5CmdError, con, w)
        | (some addr, w) =>
            match w.expect .client 2 with
            | (none, w) => (socks5CmdError, con, w)
            | (some buf, w) =>
                let port :=
                  bePort (buf.getD 0 0) (buf.getD 1 0)
                let con :=
                  recordRequest con version command
                    addressType
                    (socks5SetAddress con.dstHost
                      addressType addr port)
                if command = socks5CmdConnect then
                  (socks5CmdConnect, con, w)
                else if command = socks5CmdBind then
                  (socks5CmdBind, con, w)
                else if command = socks5CmdUdpAssociate then
                  (socks5CmdUdpAssociate, con, w)
                else (socks5CmdError, con, w)

------------------------------------------------------------
-- The Handshake
------------------------------------------------------------

/- The fields that the handler sets before it reads. -/
def resetRequest
    (con : ClientConnection) : ClientConnection :=
  { con with
    socksVersion := socksVersionError
    socksCommand := socks5CmdError
    socksCommandOriginal := socks5CmdError
    dstHost := con.dstHost.setPort 0 }

/-
  The first part of service_socks_connection_handler(): the
  client's request up to the first relayed byte, and whether
  it was accepted.
-/
def handshake
    (con : ClientConnection)
    (w : World) : Bool × ClientConnection × World :=
  let (socksVersion, w) := socksGetClientVersion w
  let con := { con with socksVersion := socksVersion }
  if con.socksVersion = socksVersionError then
    (false, con, w)
  else
    let (authType, w) :=
      if con.socksVersion = 5 then socks5NegotiateAuth w
      else (socks5AuthNoneRequired, w)
    if authType ≠ socks5AuthNoneRequired then
      (false, con, w)
    else
      let (commandType, con, w) :=
        if con.socksVersion = 4 then socks4GetCommand con w
        else socks5GetCommand con w
      (commandType ≠ socks5CmdError, con, w)

end SmartSOCKSProxy
