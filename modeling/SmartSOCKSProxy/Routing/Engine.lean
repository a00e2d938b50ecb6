import SmartSOCKSProxy.Core.ClientConnection
import SmartSOCKSProxy.Core.DnsUtil
import SmartSOCKSProxy.Routing.String2

/-
  The rules engine as the source runs it.

  The engine reads the destination through a cache of its
  name and its address, which it refreshes after every
  rewrite.

  Key definitions include:
    * `DstCache`, `DstCache.load`
    * `thisRouteApplies`
    * `applyTo`, `applyResolveDns`
    * `decideApplicableRule`
-/

namespace SmartSOCKSProxy

/- `SOCKS5_ADDRTYPE_IPV4` -/
def socks5AddrTypeIpv4 : Int := 1

/- `SOCKS5_ADDRTYPE_DOMAIN` -/
def socks5AddrTypeDomain : Int := 3

/- `SOCKS5_ADDRTYPE_IPV6` -/
def socks5AddrTypeIpv6 : Int := 4

------------------------------------------------------------
-- The Cached Destination
------------------------------------------------------------

inductive Family where
| unspec
| inet
| inet6
deriving DecidableEq, Repr

/- The local variables that describe the destination. -/
structure DstCache where
  name : Option Text
  ipaddr : Option Text
  family : Family
  ipv4Addr : UInt64
deriving DecidableEq

def rreGetHostIdName
    (dst : HostId) : Option Text :=
  if dst.hasName then some dst.name.text else none

/- The address text, its family and its IPv4 number. -/
def rreGetHostIdAddr
    (dst : HostId) : Option Text × Family × UInt64 :=
  match dst.addr with
  | .unspec => (none, .unspec, 0)
  | .inet _ addr =>
      (some (inetNtop4 addr), .inet, addr.toUInt64)
  | .inet6 _ addr => (some (inetNtop6 addr), .inet6, 0)

/- Read name and address of the destination again. -/
def DstCache.load
    (dst : HostId) : DstCache :=
  let (ipaddr, family, ipv4Addr) := rreGetHostIdAddr dst
  { name := rreGetHostIdName dst
    ipaddr := ipaddr
    family := family
    ipv4Addr := ipv4Addr }

------------------------------------------------------------
-- Conditions
------------------------------------------------------------

/-
  A criterion on text: absent when its pattern is empty, and
  met by the name or by the address text otherwise.
-/
def textCriterion
    (test : Text → Text → Bool)
    (pattern : CBuf maxDns)
    (c : DstCache) : Bool :=
  pattern.text = [] ∨
    (c.name.any fun name => test name pattern.text) ∨
    (c.ipaddr.any fun ipaddr => test ipaddr pattern.text)

/-
  A criterion on the network of an IPv4 destination, absent
  when its flag is not set.
-/
def netCriterion
    (have_ : Bool)
    (addr mask : UInt64)
    (c : DstCache) : Bool :=
  !have_ ∨
    (c.ipaddr.isSome ∧ c.family = .inet ∧
      c.ipv4Addr &&& mask = addr &&& mask)

def matchIsApplies
    (route : RouteRule)
    (c : DstCache) : Bool :=
  textCriterion (fun s p => s = p) route.matchIs c

def matchStartsWithApplies
    (route : RouteRule)
    (c : DstCache) : Bool :=
  textCriterion stringStartsWith route.matchStartsWith c

def matchEndsWithApplies
    (route : RouteRule)
    (c : DstCache) : Bool :=
  textCriterion stringEndsWith route.matchEndsWith c

def matchContainsApplies
    (route : RouteRule)
    (c : DstCache) : Bool :=
  textCriterion stringContains route.matchContains c

def matchPortApplies
    (route : RouteRule)
    (port : Int) : Bool :=
  route.matchPort = 0 ∨ route.matchPort = port

def matchIpv4Applies
    (route : RouteRule)
    (c : DstCache) : Bool :=
  netCriterion route.haveMatchIpv4 route.matchIpv4Addr
    route.matchIpv4Mask c

def mapIpv4Applies
    (route : RouteRule)
    (c : DstCache) : Bool :=
  netCriterion route.haveMapIpv4 route.mapIpv4Addr
    route.mapIpv4Mask c

/- All conditions of a rule, and the range of its `map`. -/
def thisRouteApplies
    (route : RouteRule)
    (c : DstCache)
    (port : Int) : Bool :=
  matchIsApplies route c && matchStartsWithApplies route c &&
    matchEndsWithApplies route c &&
    matchContainsApplies route c &&
    matchPortApplies route port &&
    matchIpv4Applies route c && mapIpv4Applies route c

------------------------------------------------------------
-- Permutations
------------------------------------------------------------

/- What the engine changes while it walks the rules. -/
structure EngineState where
  con : ClientConnection
  dns : Resolver
  cache : DstCache

/- The address that a `to` clause makes of an address. -/
def newIpv4Addr
    (route : RouteRule)
    (ipv4Addr : UInt64) : UInt64 :=
  let mask := route.toIpv4Mask
  let maskNeg := 0xffffffff ^^^ mask
  (ipv4Addr &&& maskNeg) ||| (route.toIpv4Addr &&& mask)

/-
  The `to` permutation.  It replaces the address, drops the
  name and makes the request one for an IPv4 address.
-/
def applyTo
    (route : RouteRule)
    (st : EngineState) : EngineState :=
  if route.haveToIpv4 ∧ st.cache.ipaddr.isSome ∧
      st.cache.family = .inet then
    let dst := st.con.dstHost
    let sinAddr :=
      (newIpv4Addr route st.cache.ipv4Addr).toUInt32
    let dst :=
      (dst.setAddrIn (htons dst.port) sinAddr).setName []
    { st with
      con :=
        { st.con with
          dstHost := dst
          socksAddressType := socks5AddrTypeIpv4 }
      cache := DstCache.load dst }
  else st

/- The `resolveDNS` permutation. -/
def applyResolveDns
    (route : RouteRule)
    (st : EngineState) : EngineState :=
  if route.resolveDns ∧ st.con.dstHost.hasName then
    let (_, tmpId, dns) :=
      resolveDnsForHostId st.con.dstHost st.dns
    { con := { st.con with dstHost := tmpId }
      dns := dns
      cache := DstCache.load tmpId }
  else st

------------------------------------------------------------
-- The Loop
------------------------------------------------------------

/-
  The loop over the rules from position `i` on.  A rule that
  does not apply changes nothing; one that applies is final
  when it has a tunnel.
-/
def ruleLoop
    (port : Int) :
    Nat → List RouteRule → EngineState →
      Option RoutePtr × EngineState
  | _, [], st => (none, st)
  | i, route :: routes, st =>
      if thisRouteApplies route st.cache port then
        let st := applyResolveDns route (applyTo route st)
        if route.hasTunnel then
          (some (.listed i route), st)
        else ruleLoop port (i + 1) routes st
      else ruleLoop port (i + 1) routes st

/-
  The return value, the connection and the resolver after
  the routing decision for a connection.
-/
def decideApplicableRule
    (routeRuleList : List RouteRule)
    (con : ClientConnection)
    (dns : Resolver) : Int × ClientConnection × Resolver :=
  let st : EngineState :=
    { con := con
      dns := dns
      cache := DstCache.load con.dstHost }
  let port := con.dstHost.port
  match ruleLoop port 0 routeRuleList st with
  | (some route, st) =>
      (1, { st.con with route := some route }, st.dns)
  | (none, st) =>
      (0, { st.con with route := some .defaultDirect },
        st.dns)

end SmartSOCKSProxy
