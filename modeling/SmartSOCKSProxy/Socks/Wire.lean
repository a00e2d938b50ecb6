import SmartSOCKSProxy.Core.HostId

/-
  The messages of the SOCKS protocols.

  The grammar of what clients and servers may send, apart
  from the code that reads and writes it.  Lengths that the
  wire or the program limits are fields of the messages.

  Key definitions include:
    * `Target`, `Command`, `ClientRequest`
    * `ServerReply`
-/

namespace SmartSOCKSProxy

------------------------------------------------------------
-- Requests
------------------------------------------------------------

/- The destination of a request. -/
inductive Target where
| ipv4 (a b c d : UInt8)
| domain (name : List UInt8) (hFits : name.length ≤ 255)
deriving DecidableEq

namespace Target

/- The address type of a destination. -/
def addressType : Target → UInt8
  | .ipv4 .. => 1
  | .domain .. => 3

/- Address type and address. -/
def wire : Target → List UInt8
  | .ipv4 a b c d => [1, a, b, c, d]
  | .domain name _ =>
      3 :: UInt8.ofNat name.length :: name

/- The destination, as far as a C string can hold it. -/
def cut : Target → Target
  | .ipv4 a b c d => .ipv4 a b c d
  | .domain name hFits =>
      .domain (Text.cstr name)
        ((Text.length_cstr_le name).trans hFits)

/- The host identity of a destination. -/
def hostId
    (port : Int) : Target → HostId
  | .ipv4 a b c d =>
      { name := CBuf.empty
        addr := .inet (htons port) (ipv4OfOctets a b c d)
        port := port }
  | .domain name _ =>
      { name := CBuf.copy name
        addr := .unspec
        port := port }

end Target

/- A command of SOCKS version 5. -/
structure Command where
  cmd : UInt8
  known : cmd = 1 ∨ cmd = 2 ∨ cmd = 3
  target : Target
  portHi : UInt8
  portLo : UInt8
deriving DecidableEq

namespace Command

def port
    (c : Command) : Int :=
  bePort c.portHi c.portLo

def wire
    (c : Command) : List UInt8 :=
  [5, c.cmd, 0] ++ c.target.wire ++ [c.portHi, c.portLo]

/- The command, as far as C strings can hold its name. -/
def cut
    (c : Command) : Command :=
  { c with target := c.target.cut }

end Command

/-
  What a client may send before any data is relayed.  The
  user id of version 4 has at most 999 bytes.
-/
inductive ClientRequest where
| v4
    (portHi portLo a b c d : UInt8)
    (userid : List UInt8)
    (hNoNul : (0 : UInt8) ∉ userid)
    (hFits : userid.length ≤ 999)
| v5
    (methods : List UInt8)
    (hFits : methods.length ≤ 255)
    (command : Command)
deriving DecidableEq

namespace ClientRequest

def version : ClientRequest → Int
  | .v4 .. => 4
  | .v5 .. => 5

def wire : ClientRequest → List UInt8
  | .v4 portHi portLo a b c d userid _ _ =>
      [4, 1, portHi, portLo, a, b, c, d] ++ userid ++ [0]
  | .v5 methods _ command =>
      5 :: UInt8.ofNat methods.length :: methods ++
        command.wire

/- The request as a command of version 5. -/
def command : ClientRequest → Command
  | .v4 portHi portLo a b c d _ _ _ =>
      { cmd := 1
        known := Or.inl rfl
        target := .ipv4 a b c d
        portHi := portHi
        portLo := portLo }
  | .v5 _ _ command => command

/- What is answered before the command is read. -/
def authReply : ClientRequest → List UInt8
  | .v4 .. => []
  | .v5 .. => [5, 0]

end ClientRequest

------------------------------------------------------------
-- Replies
------------------------------------------------------------

/- The bound address in the reply of a server. -/
inductive BoundAddr where
| ipv4 (addr : List UInt8) (hLength : addr.length = 4)
| domain (name : List UInt8) (hFits : name.length ≤ 255)
| ipv6 (addr : List UInt8) (hLength : addr.length = 16)
deriving DecidableEq

def BoundAddr.wire : BoundAddr → List UInt8
  | .ipv4 addr _ => 1 :: addr
  | .domain name _ =>
      3 :: UInt8.ofNat name.length :: name
  | .ipv6 addr _ => 4 :: addr

/-
  A server that grants a request: its choice of the
  authentication method, and a successful reply.
-/
structure ServerReply where
  rsv : UInt8
  bound : BoundAddr
  portHi : UInt8
  portLo : UInt8
deriving DecidableEq

def ServerReply.wire
    (r : ServerReply) : List UInt8 :=
  [5, 0, 5, 0, r.rsv] ++ r.bound.wire ++
    [r.portHi, r.portLo]

end SmartSOCKSProxy
