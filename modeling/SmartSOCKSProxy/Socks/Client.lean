import SmartSOCKSProxy.Core.Exchange
import SmartSOCKSProxy.Routing.Engine

/-
  The client of a tunnel's SOCKS server.

  Local buffers keep what was in them until it is written
  over; every function takes the content that it finds.

  Key definitions include:
    * `sock5ClientNegotiateAuth`
    * `commandMessage`, `socks5ClientSendCommand`
    * `socks5ClientGetCommandResponse`
    * `requestConnection`, `connectViaSshSocks5`
-/

namespace SmartSOCKSProxy

------------------------------------------------------------
-- Constants
------------------------------------------------------------

/- `SOCKS5_REPLY_SUCCEED` -/
def socks5ReplySucceed : Int := 0

/- `SOCKS5_REPLY_SERVER_FAILURE` -/
def socks5ReplyServerFailure : Int := 1

/- `SOCKS5_REPLY_CONNECTION_REFUSED` -/
def socks5ReplyConnectionRefused : Int := 5

/- `SOCKS5_REPLY_ADDRESS_TYPE_NOT_SUPPORTED` -/
def socks5ReplyAddressTypeNotSupported : Int := 8

------------------------------------------------------------
-- Negotiation
------------------------------------------------------------

/-
  Offer one method and read the server's choice into the
  buffer that still holds the offer.
-/
def sock5ClientNegotiateAuth
    (w : World)
    (buf : Buffer) : Int × World :=
  let buf := buf.store 0 [5, 1, 0]
  let (rc, w) := w.sbWriteLen .server (buf.load 3)
  if rc < 0 then (0, w)
  else
    let (rc, data, w) := w.sbReadLen .server 2
    let buf := buf.store 0 data
    if rc < 0 then (0, w)
    else if buf 0 ≠ 5 ∨ buf 1 ≠ 0 then (0, w)
    else (1, w)

------------------------------------------------------------
-- The Command
------------------------------------------------------------

/-
  The address field of a command, stored at the fifth byte,
  and the index behind it.  Only the low byte of the length
  of a name is sent.
-/
def storeAddress
    (con : ClientConnection)
    (buf : Buffer) : Option (Buffer × Nat) :=
  if con.socksAddressType = socks5AddrTypeIpv4 then
    some
      (buf.store 4 (con.dstHost.getAddrAsByteArray 4), 8)
  else if con.socksAddressType = socks5AddrTypeIpv6 then
    some
      (buf.store 4 (con.dstHost.getAddrAsByteArray 16), 20)
  else if con.socksAddressType = socks5AddrTypeDomain then
    let name := con.dstHost.name.text
    some
      ((buf.store 4 [UInt8.ofNat name.length]).store 5 name,
        5 + name.length)
  else none

/- The bytes of the command, unless its type is unknown. -/
def commandMessage
    (con : ClientConnection)
    (buf : Buffer) : Option (List UInt8) :=
  let buf := buf.store 0
    [5, UInt8.ofInt con.socksCommand, 0,
      UInt8.ofInt con.socksAddressType]
  (storeAddress con buf).map fun (buf, idx) =>
    let port := con.dstHost.port
    (buf.store idx [portHigh port, portLow port]).load
      (idx + 2)

def socks5ClientSendCommand
    (con : ClientConnection)
    (w : World)
    (buf : Buffer) : Int × World :=
  match commandMessage con buf with
  | none => (0, w)
  | some message =>
      let (rc, w) := w.sbWriteLen .server message
      if rc < 0 then (0, w) else (1, w)

------------------------------------------------------------
-- The Response
------------------------------------------------------------

/- The status text for a reply of another version. -/
def unsupportedVersion
    (version : UInt8) : Text :=
  Text.ascii
      ("SSH SOCKS5 server replied with unsupported " ++
        "version ").toList ++
    octetText version

/-
  The bound address of a reply, stored at the fifth byte, and
  the index behind it.  The third test repeats the first.
-/
def readBoundAddress
    (addrType : UInt8)
    (w : World)
    (buf : Buffer) : Option (Buffer × Nat) × World :=
  if addrType = 1 then
    let (rc, data, w) := w.sbReadLen .server 4
    (if rc < 0 then none
      else some (buf.store 4 data, 8), w)
  else if addrType = 4 then
    let (rc, data, w) := w.sbReadLen .server 16
    (if rc < 0 then none
      else some (buf.store 4 data, 20), w)
  else if addrType = 1 then
    let len := (buf 4).toNat
    let (rc, data, w) := w.sbReadLen .server len
    (if rc < 0 then none
      else some (buf.store 5 data, 5 + len), w)
  else (none, w)

/-
  The rest of a reply whose first four bytes are in the
  buffer, and whether it grants the request.
-/
def readReplyTail
    (w : World)
    (buf : Buffer) : Int × World :=
  match readBoundAddress (buf 3) w buf with
  | (none, w) => (0, w)
  | (some (buf, idx), w) =>
      let (rc, data, w) := w.sbReadLen .server 2
      let buf := buf.store idx data
      if rc < 0 then (0, w)
      else if buf 1 ≠ 0 then (0, w)
      else (1, w)

/- The failure type is the second byte of the reply. -/
def socks5ClientGetCommandResponse
    (con : ClientConnection)
    (w : World)
    (buf : Buffer)
    (failureType : Int) :
    Int × ClientConnection × World × Int :=
  let (rc, data, w) := w.sbReadLen .server 4
  let buf := buf.store 0 data
  if rc ≠ 4 then
    (0, con, w,
      if rc = 0 then socks5ReplyConnectionRefused
      else failureType)
  else if buf 0 ≠ 5 then
    (0,
      setClientConnectionStatus con ccStatusErrInternal
        (some (Text.ascii "Unexpected Error".toList))
        (some (unsupportedVersion (buf 0))),
      w, failureType)
  else
    let (ok, w) := readReplyTail w buf
    (ok, con, w, (buf 1).toNat)

------------------------------------------------------------
-- Dialing
------------------------------------------------------------

/- connect(), retried while it is interrupted. -/
def World.connect
    (w : World) : List Int → Int × World
  | [] => (0, w)
  | e :: connects =>
      let w := { w with errno := e }
      if e = EINTR then w.connect connects else (-1, w)

/- What the next call of socket() will meet. -/
def World.dial
    (w : World) : Dial :=
  w.dials w.dialed

/- How the attempt to dial a server ends. -/
inductive DialResult where
| noSocket
| notConnected
| connected (fd : Nat)
deriving DecidableEq, Repr

/- The value left in `fd_out`. -/
def DialResult.fdOut : DialResult → Int
  | .noSocket => -1
  | .notConnected => -1
  | .connected fd => fd

/-
  socket() and connect() to an IPv4 address.  A descriptor
  that could not be connected is closed again.
-/
def World.dialServer
    (w : World)
    (sinPort : UInt16)
    (sinAddr : UInt32) : DialResult × World :=
  let dial := w.dial
  let w := { w with dialed := w.dialed + 1 }
  match dial.socket with
  | .error e => (.noSocket, { w with errno := e })
  | .ok fd =>
      let w := w.emit (.opened fd)
      let w := w.emit (.dialed sinPort sinAddr)
      let (rc, w) := w.connect dial.connects
      if rc < 0 then (.notConnected, w.emit (.closed fd))
      else
        (.connected fd,
          { w with
            socks :=
              Function.update w.socks .server dial.sock })

/-
  The tunnel's server listens on a port of 127.0.0.1.  The
  status tells a refused connection from other errors.
-/
def connectToSshSocks5Proxy
    (con : ClientConnection)
    (w : World)
    (tun : SshTunnel) : Int × ClientConnection × World :=
  let (result, w) :=
    w.dialServer (htons tun.socksPort) 0x7F000001
  let con := { con with fdOut := result.fdOut }
  match result with
  | .noSocket => (0, reportError con w, w)
  | .notConnected =>
      if w.errno = econnrefused then
        (0,
          setClientConnectionStatus con ccStatusOkay
            (some (Text.ascii "Waiting".toList))
            (some (Text.ascii
              ("SSH SOCKS5 proxy connection " ++
                "refused.").toList)),
          w)
      else
        (0,
          setClientConnectionStatus con ccStatusError none
            (some (w.strerror w.errno)),
          w)
  | .connected _ => (1, con, w)

/-
  What is asked of a tunnel's server once it is connected:
  whether it grants the request, and the failure type.
-/
def requestConnection
    (con : ClientConnection)
    (w : World)
    (buf : Buffer)
    (failureType : Int) :
    Int × ClientConnection × World × Int :=
  let (ok, w) := sock5ClientNegotiateAuth w buf
  if ok = 0 then (ok, con, w, failureType)
  else
    let (ok, w) := socks5ClientSendCommand con w buf
    if ok = 0 then (ok, con, w, failureType)
    else
      socks5ClientGetCommandResponse con w buf failureType

/-
  A connection to the destination through a tunnel, and the
  failure type.
-/
def connectViaSshSocks5
    (con : ClientConnection)
    (w : World)
    (tun : SshTunnel) :
    Int × ClientConnection × World × Int :=
  let buf := w.dial.stack
  let failureType := socks5ReplyServerFailure
  let con := setClientConnectionStatus con ccStatusOkay
    (some (Text.ascii "Connecting".toList))
    (some (Text.ascii
      "Connecting to SSH SOCKS5 server".toList))
  let (ok, con, w) := connectToSshSocks5Proxy con w tun
  if ok = 0 then (ok, con, w, failureType)
  else
    let con := setClientConnectionStatus con ccStatusOkay
      (some (Text.ascii "Negotiating".toList))
      (some (Text.ascii
        ("Negotiating connection with SSH SOCKS5 " ++
          "server").toList))
    let (ok, con, w, failureType) :=
      requestConnection con w buf failureType
    if ok = 0 then (ok, con, w, failureType)
    else
      (ok,
        setClientConnectionStatus con ccStatusOkay none
          none,
        w, failureType)

end SmartSOCKSProxy
