import SmartSOCKSProxy.Foundations.Memory
import SmartSOCKSProxy.Core.HostId

/-
  Routing rules and the tunnels they name.

  Key definitions include:
    * `SshTunnel`, `sshTunnelDirect`, `sshTunnelNull`
    * `RouteRule`, `newRouteRule`, `RouteRule.tunnels`
    * `RoutePtr`
-/

namespace SmartSOCKSProxy

------------------------------------------------------------
-- Tunnels
------------------------------------------------------------

/-
  A tunnel object.  The id comes from a pool that never
  repeats, so that equal ids are equal pointers.
-/
structure SshTunnel where
  id : Nat
  name : CBuf 200
  socksPort : Int
  commandToRun : CBuf 8192
deriving DecidableEq, Inhabited

/- A tunnel that ssh_tunnel_init() creates. -/
def specialTunnel
    (id : Nat)
    (name : List Char) : SshTunnel where
  id := id
  name := CBuf.copy (Text.ascii name)
  socksPort := 0
  commandToRun := CBuf.empty

def sshTunnelDirect : SshTunnel :=
  specialTunnel 1 ['d', 'i', 'r', 'e', 'c', 't']

def sshTunnelNull : SshTunnel :=
  specialTunnel 3 ['n', 'u', 'l', 'l']

/- `tun == ssh_tunnel_direct` -/
def SshTunnel.isDirect
    (tun : SshTunnel) : Bool :=
  tun.id = sshTunnelDirect.id

/- `tun == ssh_tunnel_null` -/
def SshTunnel.isNull
    (tun : SshTunnel) : Bool :=
  tun.id = sshTunnelNull.id

/- The two special tunnels are different objects. -/
theorem SshTunnel.isNull_of_isDirect
    {tun : SshTunnel}
    (hDirect : tun.isDirect = true) :
    tun.isNull = false := by
  unfold isDirect at hDirect
  unfold isNull
  rw [of_decide_eq_true hDirect]
  rfl

------------------------------------------------------------
-- Rules
------------------------------------------------------------

abbrev routeRuleMaxSshTunnelsPerRule : Nat := 100

/- There is always a first entry. -/
theorem firstTunnel :
    0 < routeRuleMaxSshTunnelsPerRule :=
  Nat.succ_pos 99

structure RouteRule where
  matchIs : CBuf maxDns
  matchStartsWith : CBuf maxDns
  matchEndsWith : CBuf maxDns
  matchContains : CBuf maxDns
  matchPort : Int
  haveMatchIpv4 : Bool
  matchIpv4Addr : UInt64
  matchIpv4Mask : UInt64
  resolveDns : Bool
  haveMapIpv4 : Bool
  mapIpv4Addr : UInt64
  mapIpv4Mask : UInt64
  haveToIpv4 : Bool
  toIpv4Addr : UInt64
  toIpv4Mask : UInt64
  tunnel :
    Vector (Option SshTunnel) routeRuleMaxSshTunnelsPerRule
  fileName : CBuf 4096
  fileLineNumber : Int
deriving DecidableEq

/-
  A rule without any clause.  Only the first entry of the
  tunnel array is set; the others hold what malloc() left.
-/
def newRouteRule
    (junk : Vector (Option SshTunnel)
      routeRuleMaxSshTunnelsPerRule) : RouteRule where
  matchIs := CBuf.empty
  matchStartsWith := CBuf.empty
  matchEndsWith := CBuf.empty
  matchContains := CBuf.empty
  matchPort := 0
  haveMatchIpv4 := false
  matchIpv4Addr := 0
  matchIpv4Mask := 0
  resolveDns := false
  haveMapIpv4 := false
  mapIpv4Addr := 0
  mapIpv4Mask := 0
  haveToIpv4 := false
  toIpv4Addr := 0
  toIpv4Mask := 0
  tunnel := junk.set 0 none firstTunnel
  fileName := CBuf.empty
  fileLineNumber := -1

/- The tunnels of a rule, up to the terminating NULL. -/
def RouteRule.tunnels
    (route : RouteRule) : List SshTunnel :=
  untilNull route.tunnel.toList

/- `route->tunnel[0] != NULL` -/
def RouteRule.hasTunnel
    (route : RouteRule) : Bool :=
  (route.tunnel.get ⟨0, firstTunnel⟩).isSome

theorem RouteRule.hasTunnel_iff
    (route : RouteRule) :
    route.hasTunnel = true ↔ route.tunnels ≠ [] := by
  have hHead :
      route.tunnel.toList.head? =
        some (route.tunnel.get ⟨0, firstTunnel⟩) := by
    rw [List.head?_eq_getElem?, Vector.getElem?_toList,
      Vector.getElem?_eq_getElem firstTunnel]
    rfl
  unfold hasTunnel tunnels
  rw [Ne, untilNull_eq_nil_iff, hHead, Option.getD_some]
  cases route.tunnel.get ⟨0, firstTunnel⟩ <;> simp

/- The rule that decide_applicable_rule() falls back to. -/
def defaultDirect : RouteRule :=
  { newRouteRule
      (Vector.replicate routeRuleMaxSshTunnelsPerRule
        none) with
    fileName := CBuf.copy (Text.ascii
      ['d', 'e', 'f', 'a', 'u', 'l', 't', '_', 'd', 'i', 'r',
        'e', 'c', 't'])
    tunnel :=
      (Vector.replicate routeRuleMaxSshTunnelsPerRule
        none).set 0 (some sshTunnelDirect) firstTunnel }

/-
  A pointer to a rule: an element of the rule list, by its
  position and content, or the fallback rule.
-/
inductive RoutePtr where
| listed (index : Nat) (rule : RouteRule)
| defaultDirect
deriving DecidableEq

/- The rule that a pointer points to. -/
def RoutePtr.deref : RoutePtr → RouteRule
  | .listed _ rule => rule
  | .defaultDirect => SmartSOCKSProxy.defaultDirect

end SmartSOCKSProxy
