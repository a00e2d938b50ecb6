import SmartSOCKSProxy.Core.RouteRule

/-
  Parsing the text of a routing rule.

  The text is cut into the tokens that successive calls of
  strsep() return; an empty list of tokens is an exhausted
  string pointer.

  Key definitions include:
    * `routeRuleGrabParam`, `routeRuleGrabNetv4`
    * `grabClause`, `parseClauses`, `parseVia`
    * `parseRouteRuleSpec`
-/

namespace SmartSOCKSProxy

------------------------------------------------------------
-- Keywords
------------------------------------------------------------

def kwResolveDns : Text :=
  Text.ascii
    ['r', 'e', 's', 'o', 'l', 'v', 'e', 'D', 'N', 'S']

def kwVia : Text :=
  Text.ascii ['v', 'i', 'a']

def kwIs : Text :=
  Text.ascii ['i', 's']

def kwStartsWith : Text :=
  Text.ascii
    ['s', 't', 'a', 'r', 't', 's', 'W', 'i', 't', 'h']

def kwEndsWith : Text :=
  Text.ascii ['e', 'n', 'd', 's', 'W', 'i', 't', 'h']

def kwContains : Text :=
  Text.ascii ['c', 'o', 'n', 't', 'a', 'i', 'n', 's']

def kwPort : Text :=
  Text.ascii ['p', 'o', 'r', 't']

def kwNetwork : Text :=
  Text.ascii ['n', 'e', 't', 'w', 'o', 'r', 'k']

def kwMap : Text :=
  Text.ascii ['m', 'a', 'p']

def kwTo : Text :=
  Text.ascii ['t', 'o']

------------------------------------------------------------
-- Clause Arguments
------------------------------------------------------------

/-
  Store the argument of a text clause.  `none` is a keyword
  other than the expected one.
-/
def routeRuleGrabParam
    (expectedCmd cmd src : Text) : Option (CBuf maxDns) :=
  if expectedCmd = cmd then some (CBuf.copy src) else none

def convertStringToIpv4Ulong
    (ipaddrString : Text) : Option UInt64 :=
  (inetPton4 ipaddrString).map UInt32.toUInt64

/-
  `(0xffffffff << (32 - prefix)) & 0xffffffff` on 32 bits.
  The machine takes the shift count modulo 32.
-/
def prefixMask
    (len : Int) : UInt64 :=
  ((0xffffffff : UInt32) <<<
    UInt32.ofInt (32 - len)).toUInt64

/-
  The address and mask of a network clause: a dotted quad,
  optionally followed by a slash and a dotted mask or a
  prefix length.
-/
def routeRuleGrabNetv4
    (expectedCmd cmd param : Text) :
    Option (UInt64 × UInt64) :=
  if cmd = expectedCmd then
    match param.splitOn 47 with
    | [] => none
    | ipaddr :: rest =>
        match convertStringToIpv4Ulong ipaddr with
        | none => none
        | some addr =>
            match rest with
            | [] => some (addr, 0xffffffff)
            | mask :: _ =>
                match convertStringToIpv4Ulong mask with
                | some m => some (addr, m)
                | none =>
                    match Text.scanInt mask with
                    | some len => some (addr, prefixMask len)
                    | none => none
  else none

/- Store one clause in the rule; `none` leaves `got_it` 0. -/
def grabClause
    (cmd param : Text)
    (route : RouteRule) : Option RouteRule :=
  (routeRuleGrabParam kwIs cmd param).map
      (fun v => { route with matchIs := v }) <|>
  (routeRuleGrabParam kwStartsWith cmd param).map
      (fun v => { route with matchStartsWith := v }) <|>
  (routeRuleGrabParam kwEndsWith cmd param).map
      (fun v => { route with matchEndsWith := v }) <|>
  (routeRuleGrabParam kwContains cmd param).map
      (fun v => { route with matchContains := v }) <|>
  (if cmd = kwPort then
      (Text.scanInt param).map
        (fun v => { route with matchPort := v })
    else none) <|>
  (routeRuleGrabNetv4 kwNetwork cmd param).map
      (fun v =>
        { route with
          haveMatchIpv4 := true
          matchIpv4Addr := v.1
          matchIpv4Mask := v.2 }) <|>
  (routeRuleGrabNetv4 kwMap cmd param).map
      (fun v =>
        { route with
          haveMapIpv4 := true
          mapIpv4Addr := v.1
          mapIpv4Mask := v.2 }) <|>
  (routeRuleGrabNetv4 kwTo cmd param).map
      (fun v =>
        { route with
          haveToIpv4 := true
          toIpv4Addr := v.1
          toIpv4Mask := v.2 })

------------------------------------------------------------
-- Clauses
------------------------------------------------------------

/-
  How a parse ends without a rule: NULL is returned, or the
  process dies on a string function called with NULL.
-/
inductive ParseFailure where
| null
| crash
deriving DecidableEq, Repr

/- The keywords whose argument is copied with strncpy(). -/
def isTextKeyword
    (cmd : Text) : Bool :=
  cmd = kwIs ∨ cmd = kwStartsWith ∨
    cmd = kwEndsWith ∨ cmd = kwContains

/-
  The clauses of a rule, up to the end of the text or to
  `via`, whose tokens are returned.
-/
def parseClauses :
    List Text → RouteRule →
      Except ParseFailure (RouteRule × List Text)
  | [], route => .ok (route, [])
  | cmd :: tokens, route =>
      if cmd = kwResolveDns then
        parseClauses tokens { route with resolveDns := true }
      else if cmd = kwVia then
        .ok (route, tokens)
      else
        match tokens with
        | [] =>
            if isTextKeyword cmd then .error .crash
            else .error .null
        | param :: rest =>
            match grabClause cmd param route with
            | some route' => parseClauses rest route'
            | none => .error .null

------------------------------------------------------------
-- Tunnels
------------------------------------------------------------

/-
  The first index below 99 at which the tunnel array holds
  NULL, or 99.
-/
def freeTunnelIndex
    (route : RouteRule) : Nat :=
  ((route.tunnel.toList.take
    (routeRuleMaxSshTunnelsPerRule - 1)).takeWhile
      Option.isSome).length

/- Append a tunnel; an excess tunnel is ignored. -/
def addTunnel
    (route : RouteRule)
    (ssh : SshTunnel) : RouteRule :=
  let i := freeTunnelIndex route
  if i < routeRuleMaxSshTunnelsPerRule - 1 then
    { route with
      tunnel :=
        (route.tunnel.setIfInBounds i
          (some ssh)).setIfInBounds (i + 1) none }
  else route

/- The names after `via`; empty tokens are skipped. -/
def parseVia
    (sshTunnelList : List SshTunnel) :
    List Text → RouteRule → Except ParseFailure RouteRule
  | [], route => .ok route
  | sshName :: tokens, route =>
      if sshName = [] then
        parseVia sshTunnelList tokens route
      else
        match sshTunnelList.find?
            (fun ssh => ssh.name.text = sshName) with
        | none => .error .null
        | some ssh =>
            parseVia sshTunnelList tokens
              (addTunnel route ssh)

------------------------------------------------------------
-- Rules
------------------------------------------------------------

/-
  The rule that a text specifies.  Tunnel names may also be
  separated by commas.
-/
def parseRouteRuleSpec
    (junk : Vector (Option SshTunnel)
      routeRuleMaxSshTunnelsPerRule)
    (strIn : Text)
    (filename : Option Text)
    (lineNum : Int)
    (sshTunnelList : List SshTunnel) :
    Except ParseFailure RouteRule :=
  let route :=
    { newRouteRule junk with
      fileName := CBuf.copy (filename.getD [])
      fileLineNumber := lineNum }
  match parseClauses (strIn.splitOn 32) route with
  | .error failure => .error failure
  | .ok (route, tokens) =>
      parseVia sshTunnelList
        (tokens.flatMap fun token => token.splitOn 44) route

end SmartSOCKSProxy
