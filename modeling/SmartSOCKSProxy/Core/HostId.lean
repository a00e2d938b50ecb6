import SmartSOCKSProxy.Foundations.CString
import SmartSOCKSProxy.Foundations.Network

/-
  Host identities: a name, an address and a port.

  The port is stored twice when there is an address, once in
  the socket address and once beside it.

  Key definitions include:
    * `SockAddr`, `HostId`
    * `HostId.setName`, `HostId.setPort`
    * `HostId.setAddrIn`, `HostId.setAddrInFromByteArray`
    * `HostId.getAddrAsByteArray`, `HostId.addrStr`

  Key theorems include:
    * `HostId.port_setAddrIn_of_isPort`
-/

namespace SmartSOCKSProxy

------------------------------------------------------------
-- Data
------------------------------------------------------------

/- Size of a host name field. -/
abbrev maxDns : Nat := 260

/-
  The socket address union, by its family.  Ports and IPv4
  addresses are held as numbers in host byte order.
-/
inductive SockAddr where
| unspec
| inet (sinPort : UInt16) (sinAddr : UInt32)
| inet6 (sin6Port : UInt16) (sin6Addr : Vector UInt8 16)
deriving DecidableEq

structure HostId where
  name : CBuf maxDns
  addr : SockAddr
  port : Int
deriving DecidableEq

namespace HostId

------------------------------------------------------------
-- Operations
------------------------------------------------------------

def init : HostId where
  name := CBuf.empty
  addr := .unspec
  port := 0

instance : Inhabited HostId :=
  ⟨init⟩

def hasName
    (id : HostId) : Bool :=
  id.name.text ≠ []

def hasAddr
    (id : HostId) : Bool :=
  id.addr ≠ .unspec

/- The numeric text of the address, when there is one. -/
def addrStr
    (id : HostId) : Option Text :=
  match id.addr with
  | .unspec => none
  | .inet _ addr => some (inetNtop4 addr)
  | .inet6 _ addr => some (inetNtop6 addr)

def setName
    (id : HostId)
    (name : Text) : HostId :=
  { id with name := CBuf.copy name }

def setPort
    (id : HostId)
    (port : Int) : HostId :=
  { id with
    port := port
    addr :=
      match id.addr with
      | .unspec => .unspec
      | .inet _ addr => .inet (htons port) addr
      | .inet6 _ addr => .inet6 (htons port) addr }

/- The socket address also determines the port beside it. -/
def setAddrIn
    (id : HostId)
    (sinPort : UInt16)
    (sinAddr : UInt32) : HostId :=
  { id with
    addr := .inet sinPort sinAddr
    port := ntohs sinPort }

def setAddrInFromByteArray
    (id : HostId)
    (ipv4 : List UInt8)
    (port : Int) : HostId :=
  { id with
    port := port
    addr := .inet (htons port)
      (ipv4OfOctets (ipv4.getD 0 0) (ipv4.getD 1 0)
        (ipv4.getD 2 0) (ipv4.getD 3 0)) }

def setAddrIn6FromByteArray
    (id : HostId)
    (ipv6 : List UInt8)
    (port : Int) : HostId :=
  { id with
    port := port
    addr := .inet6 (htons port)
      (Vector.ofFn fun i => ipv6.getD i.val 0) }

/-
  The bytes of the address in network order; none when there
  is no address or the buffer is too short for it.
-/
def getAddrAsByteArray
    (id : HostId)
    (buflen : Nat) : List UInt8 :=
  match id.addr with
  | .unspec => []
  | .inet _ addr =>
      if buflen < 4 then [] else ipv4Octets addr
  | .inet6 _ addr =>
      if buflen < 16 then [] else addr.toList

------------------------------------------------------------
-- Ports
------------------------------------------------------------

/- A port within range survives a trip through an address. -/
theorem port_setAddrIn_of_isPort
    {id : HostId}
    {port : Int}
    (sinAddr : UInt32)
    (hPort : IsPort port) :
    (id.setAddrIn (htons port) sinAddr).port = port :=
  ntohs_htons_of_isPort hPort

end HostId

end SmartSOCKSProxy
