import SmartSOCKSProxy.Core.RouteRule

/-
  The state of one client connection.

  Key definitions include:
    * `ClientConnection`, `newClientConnection`
    * `setClientConnectionStatus`
-/

namespace SmartSOCKSProxy

------------------------------------------------------------
-- Status Codes
------------------------------------------------------------

def ccStatusOkay : Int := 0
def ccStatusError : Int := 1
def ccStatusErrInternal : Int := 2
def ccStatusErrNetwork : Int := 3

------------------------------------------------------------
-- Connections
------------------------------------------------------------

structure ClientConnection where
  fdIn : Int
  fdOut : Int
  threadHasExited : Bool
  bytesTx : UInt64
  bytesRx : UInt64
  endTime : Int
  status : Int
  statusName : CBuf 128
  statusDescription : CBuf 1024
  route : Option RoutePtr
  tunnel : Option SshTunnel
  socksVersion : Int
  socksCommand : Int
  socksCommandOriginal : Int
  socksAddressType : Int
  socksAddressTypeOriginal : Int
  dstHost : HostId
  dstHostOriginal : HostId
deriving DecidableEq, Inhabited

/-
  A fresh connection for an accepted descriptor.  The SOCKS
  fields are not initialized: they keep what malloc() left.
-/
def newClientConnection
    (fdIn : Int)
    (junk : ClientConnection) : ClientConnection :=
  { junk with
    fdIn := fdIn
    fdOut := -1
    threadHasExited := false
    bytesTx := 0
    bytesRx := 0
    endTime := 0
    status := ccStatusOkay
    statusName := CBuf.empty
    statusDescription := CBuf.empty
    route := none
    tunnel := none
    dstHost := HostId.init
    dstHostOriginal := HostId.init }

/- A missing name or description leaves the empty text. -/
def setClientConnectionStatus
    (con : ClientConnection)
    (status : Int)
    (statusName statusDescription : Option Text) :
    ClientConnection :=
  { con with
    status := status
    statusName := CBuf.copy (statusName.getD [])
    statusDescription :=
      CBuf.copy (statusDescription.getD []) }

end SmartSOCKSProxy
