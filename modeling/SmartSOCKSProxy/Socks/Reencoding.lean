import SmartSOCKSProxy.Routing.Meaning
import SmartSOCKSProxy.Socks.Attempts
import SmartSOCKSProxy.Socks.Decoding
import SmartSOCKSProxy.Socks.Handler

/-
  A client's request reaches a tunnel's server as it was.

  As long as no rule rewrites the destination, neither the
  rules nor the attempts to connect change what the command
  for the server says.

  Key definitions include:
    * `Target.Names`, `Carries`
    * `NoRewrite`, `TellsServer`

  Key theorems include:
    * `decideApplicableRule_keeps`
    * `commandMessage_of_carries`
    * `socks5ClientSendCommand_reencodes`
-/

namespace SmartSOCKSProxy

------------------------------------------------------------
-- Carried Commands
------------------------------------------------------------

/-
  A host identity for a target.  An address has no name that
  could be resolved; a name may have got an address.
-/
def Target.Names
    (d : HostId) : Target → Prop
  | .ipv4 a b c e =>
      d.hasName = false ∧
        d.ipv4 = some (ipv4OfOctets a b c e)
  | .domain name _ => d.name = CBuf.copy name

/- The connection asks for what a command asks for. -/
structure Carries
    (con : ClientConnection)
    (c : Command) : Prop where
  command : con.socksCommand = c.cmd.toNat
  addressType :
    con.socksAddressType = c.target.addressType.toNat
  port : con.dstHost.port = c.port
  target : c.target.Names con.dstHost

theorem Records.carries
    {con : ClientConnection}
    {version : Int}
    {c : Command}
    (hRecords : Records con version c) :
    Carries con c where
  command := hRecords.command
  addressType := hRecords.addressType
  port := by
    rw [hRecords.dstHost]
    cases c.target <;> rfl
  target := by
    rw [hRecords.dstHost]
    cases c.target with
    | ipv4 a b d e => exact ⟨rfl, rfl⟩
    | domain name hFits => rfl

/- A command that is carried stays carried. -/
theorem Carries.of_keeps
    {con con' : ClientConnection}
    {c : Command}
    (hCarries : Carries con c)
    (hKeeps : KeepsRequest con con') :
    Carries con' c where
  command := hKeeps.command.trans hCarries.command
  addressType :=
    hKeeps.addressType.trans hCarries.addressType
  port := by
    have hPort : IsPort con.dstHost.port := by
      rw [hCarries.port]
      exact isPort_bePort c.portHi c.portLo
    rw [hKeeps.dstHost.port hPort, hCarries.port]
  target := by
    have hTarget := hCarries.target
    revert hTarget
    cases c.target with
    | ipv4 a b d e =>
        rintro ⟨hName, hAddr⟩
        rw [hKeeps.dstHost.nameless hName]
        exact ⟨hName, hAddr⟩
    | domain name hFits =>
        intro hName
        exact hKeeps.dstHost.name.trans hName

/- A byte survives the int that it is stored in. -/
theorem ofInt_toNat
    (b : UInt8) :
    UInt8.ofInt b.toNat = b := by
  apply UInt8.toNat_inj.mp
  have hByte := toNat_ofInt b.toNat
  have hLt := b.toNat_lt
  omega

/- The command for the server is the carried one. -/
theorem commandMessage_of_carries
    {con : ClientConnection}
    {c : Command}
    (hCarries : Carries con c)
    (buf : Buffer) :
    commandMessage con buf = some c.cut.wire := by
  rcases hCarries with ⟨hCommand, hType, hPort, hTarget⟩
  rcases c with ⟨cmd, hKnown, target, hi, lo⟩
  cases target with
  | ipv4 a b d e =>
      rcases hTarget with ⟨_, hAddr⟩
      rcases hDst : con.dstHost.addr with
        _ | ⟨sinPort, sinAddr⟩ | _ <;>
        simp only [HostId.ipv4, hDst, reduceCtorEq,
          Option.some.injEq] at hAddr
      rw [commandMessage_ipv4 hType hDst, hCommand,
        hPort, hAddr]
      simp [Command.wire, Command.cut, Command.port,
        Target.wire, Target.cut, ofInt_toNat,
        ipv4Octets_ipv4OfOctets, portHigh_bePort,
        portLow_bePort]
  | domain name hFits =>
      have hText :
          con.dstHost.name.text = Text.cstr name := by
        have hName : con.dstHost.name = CBuf.copy name :=
          hTarget
        have hLength := Text.length_cstr_le name
        have hMax : maxDns = 260 := rfl
        rw [hName, CBuf.text_copy]
        exact List.take_of_length_le (by omega)
      rw [commandMessage_domain hType, hCommand, hPort,
        hText]
      simp [Command.wire, Command.cut, Command.port,
        Target.wire, Target.cut, ofInt_toNat,
        portHigh_bePort, portLow_bePort]

------------------------------------------------------------
-- Rules That Do Not Rewrite
------------------------------------------------------------

/-
  No rule that is applied performs a `to` rewrite.  A `to`
  clause acts on IPv4 addresses only.
-/
def NoRewrite
    (rules : List RouteRule)
    (d : HostId)
    (dns : Resolver) : Prop :=
  ∀ k r, AppliesAt rules d dns k r →
    r.haveToIpv4 = true →
    (destinationBefore rules d dns k).ipv4 = none

/- Without an IPv4 address, or a clause, nothing is done. -/
theorem applyTo_of_no_ipv4
    {r : RouteRule}
    {st : EngineState}
    (hFresh : st.Fresh)
    (hNone :
      r.haveToIpv4 = true → st.con.dstHost.ipv4 = none) :
    applyTo r st = st := by
  unfold applyTo
  rw [if_neg]
  rintro ⟨hTo, hAddr, hFamily⟩
  have hIpv4 := hNone hTo
  rw [hFresh] at hFamily
  revert hIpv4 hFamily
  unfold HostId.ipv4 DstCache.load rreGetHostIdAddr
  cases st.con.dstHost.addr <;> simp

theorem applyResolveDns_keeps
    (r : RouteRule)
    (st : EngineState) :
    KeepsRequest st.con (applyResolveDns r st).con := by
  unfold applyResolveDns
  split
  · exact ⟨rfl, rfl, rfl,
      resolveDnsForHostId_resolved _ _⟩
  · exact KeepsRequest.refl _

/- Rules that do not rewrite keep the request. -/
theorem decideApplicableRule_keeps
    {rules : List RouteRule}
    {con : ClientConnection}
    {dns : Resolver}
    (hNoRewrite : NoRewrite rules con.dstHost dns) :
    KeepsRequest con
      (decideApplicableRule rules con dns).2.1 := by
  apply decideApplicableRule_invariant (KeepsRequest con)
  · intro con' route hKeeps
    exact hKeeps.trans (KeepsRequest.of_eq rfl rfl rfl rfl)
  · exact KeepsRequest.refl con
  · intro k r st hAt hFresh hHost hKeeps
    have hTo : applyTo r st = st := by
      apply applyTo_of_no_ipv4 hFresh
      rw [hHost]
      exact hNoRewrite k r hAt
    rw [hTo]
    exact hKeeps.trans (applyResolveDns_keeps r st)

/- Rules without a `to` clause never rewrite. -/
theorem noRewrite_of_no_to
    {rules : List RouteRule}
    (hNoTo : ∀ r ∈ rules, r.haveToIpv4 = false)
    (d : HostId)
    (dns : Resolver) :
    NoRewrite rules d dns := by
  intro k r hAt hTo
  have hFalse := hNoTo r (List.mem_of_getElem? hAt.rule)
  rw [hTo] at hFalse
  contradiction

------------------------------------------------------------
-- Requests That Reach the Server
------------------------------------------------------------

/- What the session carries when its attempts start. -/
theorem startConnecting_carries
    {rules : List RouteRule}
    {failureType : Int}
    {con con' : ClientConnection}
    {w w' : World}
    {version : Int}
    {c : Command}
    (hAccepted :
      handshake (resetRequest con) w = (true, con', w'))
    (hRecords : Records con' version c)
    (hNoRewrite : NoRewrite rules con'.dstHost w'.dns) :
    Carries
      (startConnecting rules failureType con w).2.con c := by
  unfold startConnecting
  rw [hAccepted]
  exact hRecords.carries.of_keeps
    (decideApplicableRule_keeps hNoRewrite)

/-
  From this state on, the tunnels' servers are told a
  command.  Every call that sends the command writes it, and
  all of it unless the call fails; an attempt through a
  tunnel's server writes the method offer before it, and
  nothing else.
-/
structure TellsServer
    (st : Connecting)
    (message : List UInt8) : Prop where
  command : ∀ w buf, ∃ rc put w',
    socks5ClientSendCommand st.con w buf = (rc, w') ∧
      sentTo .server w'.trace =
        sentTo .server w.trace ++ put ∧
      put <+: message ∧
      (rc ≠ 0 → put = message) ∧
      ((w.sink .server).Reliable → rc = 1)
  attempt : ∀ tun : SshTunnel,
    tun.isDirect = false → tun.isNull = false → ∃ put,
      sentTo .server (attemptTunnel tun st).2.w.trace =
        sentTo .server st.w.trace ++ put ∧
      put <+: [5, 1, 0] ++ message ∧
      ((attemptTunnel tun st).1 ≠ 0 →
        put = [5, 1, 0] ++ message)

/- The message of a connection, whatever is on the stack. -/
theorem tellsServer_of_message
    {st : Connecting}
    {message : List UInt8}
    (hMessage :
      ∀ buf, commandMessage st.con buf = some message) :
    TellsServer st message where
  command := by
    intro w buf
    rcases socks5ClientSendCommand_exchange
        (hMessage buf) w with
      ⟨rc, put, w', hSend, hGiven, hPrefix, hAll, hDone⟩
    exact ⟨rc, put, w', hSend, hGiven.sent, hPrefix, hAll,
      hDone⟩
  attempt := by
    intro tun hDirect hNull
    rcases connectViaSshSocks5_sends
        { st.con with tunnel := some tun } st.w tun
        st.failureType with
      ⟨rc, con', w', _, put, hRun, _, _, hSent, hPut⟩
    have hOffered := hPut message hMessage
    unfold attemptTunnel
    simp only [hDirect, hNull, Bool.false_eq_true, if_false,
      hRun]
    exact ⟨put, hSent, hOffered⟩

theorem tellsServer_of_carries
    {st : Connecting}
    {c : Command}
    (hCarries : Carries st.con c) :
    TellsServer st c.cut.wire := by
  apply tellsServer_of_message
  exact commandMessage_of_carries hCarries

/-
  An accepted request is told to the tunnels' servers as it
  was, whatever attempt of the session it is.
-/
theorem socks5ClientSendCommand_reencodes
    (rules : List RouteRule)
    (failureType : Int)
    (fdIn : Int)
    (junk : ClientConnection)
    (w : World)
    (hAccepted :
      (handshake
        (resetRequest (newClientConnection fdIn junk))
        w).1 = true)
    (hNoRewrite :
      let accepted := handshake
        (resetRequest (newClientConnection fdIn junk)) w
      NoRewrite rules accepted.2.1.dstHost
        accepted.2.2.dns) :
    ∃ (req : ClientRequest) (rest : List UInt8),
      (w.source .client).pending = req.wire ++ rest ∧
      ∀ n st,
        AttemptStart
            (startConnecting rules failureType
              (newClientConnection fdIn junk) w).2 n st →
          TellsServer st req.command.cut.wire := by
  have hRun :
      handshake
          (resetRequest (newClientConnection fdIn junk)) w =
        (true, _, _) :=
    Prod.ext hAccepted rfl
  rcases handshake_sound (resetRequest_blank fdIn junk) hRun
    with ⟨req, hRecords, hExchange⟩
  have hCarries :
      Carries
        (startConnecting rules failureType
          (newClientConnection fdIn junk) w).2.con
        req.command :=
    startConnecting_carries hRun hRecords hNoRewrite
  refine ⟨req, _, hExchange.pending, ?_⟩
  intro n st hStart
  exact tellsServer_of_carries
    (hCarries.of_keeps hStart.kept.request)

/- A rule that resolves names and one that has a tunnel. -/
def resolvingRules : List RouteRule :=
  let blank := newRouteRule
    (Vector.replicate routeRuleMaxSshTunnelsPerRule none)
  [{ blank with resolveDns := true },
    { blank with
      tunnel :=
        blank.tunnel.set 0 (some default) firstTunnel }]

/- A request for a name that a zero byte cuts short. -/
def nameWithZeroByte : World :=
  { (default : World) with
    socks := fun _ =>
      { source :=
          { pending :=
              [5, 1, 0, 5, 1, 0, 3, 3, 97, 0, 98, 0, 80]
            reads := [.deliver 0, .fail EINTR, .deliver 1] }
        sink := ⟨[]⟩ } }

theorem socks5ClientSendCommand_reencodes_name :
    ∃ (req : ClientRequest) (rest : List UInt8),
      (nameWithZeroByte.source .client).pending =
          req.wire ++ rest ∧
      ∀ n st,
        AttemptStart
            (startConnecting resolvingRules 0
              (newClientConnection 3 default)
              nameWithZeroByte).2 n st →
          TellsServer st req.command.cut.wire :=
  socks5ClientSendCommand_reencodes resolvingRules 0 3
    default nameWithZeroByte (by decide)
    (noRewrite_of_no_to (by decide) _ _)

end SmartSOCKSProxy
