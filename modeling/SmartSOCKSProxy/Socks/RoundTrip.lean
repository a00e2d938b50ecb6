import SmartSOCKSProxy.Socks.PortForward
import SmartSOCKSProxy.Socks.Reencoding

/-
  Reading the command that a session sends.

  The command of a session is read back as it was meant, if
  and only if its name and its port fit the wire.  Those of
  the SOCKS service always fit; those of port forwarding come
  from a configuration that nothing bounds.

  Key definitions include:
    * `Built`, `Encodable`
    * `SameCommand`, `RoundTrips`, `FitsWire`

  Key theorems include:
    * `Built.encodable`
    * `fitsWire_of_socks`
    * `socks5GetCommand_roundTrips_iff`
-/

namespace SmartSOCKSProxy

------------------------------------------------------------
-- Sessions
------------------------------------------------------------

/-
  The connections of both services when an attempt to reach
  their destination starts.
-/
inductive Built : ClientConnection → Prop
| socks
    {rules : List RouteRule}
    {failureType fdIn : Int}
    {junk : ClientConnection}
    {w : World}
    {n : Nat}
    {start st : Connecting}
    (hStart :
      startConnecting rules failureType
        (newClientConnection fdIn junk) w = (true, start))
    (hAttempt : AttemptStart start n st) :
    Built st.con
| portForward
    {spec : Text}
    {fwd : ServicePortForward}
    {rules : List RouteRule}
    {failureType fdIn : Int}
    {junk : ClientConnection}
    {w : World}
    {n : Nat}
    {start st : Connecting}
    (hSpec : parseServicePortForwardSpec spec = some fwd)
    (hStart :
      startForwarding fwd rules failureType
        (newClientConnection fdIn junk) w = (true, start))
    (hAttempt : AttemptStart start n st) :
    Built st.con

/-
  A known command for a name, or for an IPv4 address without
  a name.
-/
structure Encodable
    (con : ClientConnection) : Prop where
  command :
    ∃ cmd : UInt8, (cmd = 1 ∨ cmd = 2 ∨ cmd = 3) ∧
      con.socksCommand = cmd.toNat
  target :
    con.socksAddressType = socks5AddrTypeDomain ∨
      con.socksAddressType = socks5AddrTypeIpv4 ∧
        con.dstHost.hasName = false ∧
        ∃ addr, con.dstHost.ipv4 = some addr

theorem Carries.encodable
    {con : ClientConnection}
    {c : Command}
    (hCarries : Carries con c) :
    Encodable con where
  command := ⟨c.cmd, c.known, hCarries.command⟩
  target := by
    have hType := hCarries.addressType
    have hTarget := hCarries.target
    revert hType hTarget
    cases c.target with
    | ipv4 a b d e =>
        intro hType hTarget
        exact Or.inr ⟨hType, hTarget.1, _, hTarget.2⟩
    | domain name hFits =>
        intro hType _
        exact Or.inl hType

theorem Encodable.of_keeps
    {con con' : ClientConnection}
    (hEncodable : Encodable con)
    (hKeeps : KeepsRequest con con') :
    Encodable con' where
  command := by
    rw [hKeeps.command]
    exact hEncodable.command
  target := by
    rw [hKeeps.addressType]
    rcases hEncodable.target with
      hName | ⟨hType, hNone, hAddr⟩
    · exact Or.inl hName
    · rw [hKeeps.dstHost.nameless hNone]
      exact Or.inr ⟨hType, hNone, hAddr⟩

/- The name, if it is sent, and the port fit the wire. -/
structure FitsWire
    (con : ClientConnection) : Prop where
  name :
    con.socksAddressType = socks5AddrTypeDomain →
      con.dstHost.name.text.length ≤ 255
  port : IsPort con.dstHost.port

theorem socks5AddrTypeIpv4_ne_domain :
    socks5AddrTypeIpv4 ≠ socks5AddrTypeDomain := by
  decide

theorem Carries.fitsWire
    {con : ClientConnection}
    {c : Command}
    (hCarries : Carries con c) :
    FitsWire con where
  name := by
    intro hDomain
    have hType := hCarries.addressType
    have hTarget := hCarries.target
    revert hType hTarget
    cases c.target with
    | ipv4 a b d e =>
        rw [hDomain]
        intro hType
        exact absurd hType.symm socks5AddrTypeIpv4_ne_domain
    | domain name hFits =>
        intro _ hName
        have hText : con.dstHost.name = CBuf.copy name :=
          hName
        rw [hText, CBuf.text_copy]
        exact (List.length_take_le' _ _).trans
          ((Text.length_cstr_le name).trans hFits)
  port := by
    rw [hCarries.port]
    exact isPort_bePort c.portHi c.portLo

theorem FitsWire.of_keeps
    {con con' : ClientConnection}
    (hFits : FitsWire con)
    (hKeeps : KeepsRequest con con') :
    FitsWire con' where
  name := by
    rw [hKeeps.addressType, hKeeps.dstHost.name]
    exact hFits.name
  port := by
    rw [hKeeps.dstHost.port hFits.port]
    exact hFits.port

------------------------------------------------------------
-- Rules That Rewrite
------------------------------------------------------------

/- A rewritten destination is an IPv4 address. -/
theorem applyTo_encodable
    (r : RouteRule)
    {st : EngineState}
    (hEncodable : Encodable st.con) :
    Encodable (applyTo r st).con := by
  unfold applyTo
  split
  · refine ⟨hEncodable.command, Or.inr ⟨rfl, ?_, _, rfl⟩⟩
    simp [HostId.hasName, HostId.setName]
  · exact hEncodable

/- A rewritten destination gets its port from a port field. -/
theorem applyTo_fitsWire
    (r : RouteRule)
    {st : EngineState}
    (hFits : FitsWire st.con) :
    FitsWire (applyTo r st).con := by
  unfold applyTo
  split
  · refine ⟨fun hDomain => ?_, isPort_ntohs _⟩
    exact absurd hDomain socks5AddrTypeIpv4_ne_domain
  · exact hFits

/-
  What is true of all requests for the same, and survives
  every rewrite, survives the engine.
-/
theorem decideApplicableRule_preserves
    {P : ClientConnection → Prop}
    (hKeeps :
      ∀ con con', KeepsRequest con con' → P con → P con')
    (hTo : ∀ r st, P st.con → P (applyTo r st).con)
    (rules : List RouteRule)
    {con : ClientConnection}
    (dns : Resolver)
    (hHere : P con) :
    P (decideApplicableRule rules con dns).2.1 := by
  apply decideApplicableRule_invariant P
  · intro con' route
    exact hKeeps _ _ (KeepsRequest.of_eq rfl rfl rfl rfl)
  · exact hHere
  · intro k r st _ _ _ hState
    exact hKeeps _ _ (applyResolveDns_keeps r _)
      (hTo r st hState)

/- What is true of every accepted request. -/
theorem startConnecting_preserves
    {P : ClientConnection → Prop}
    (hCarries : ∀ con c, Carries con c → P con)
    (hKeeps :
      ∀ con con', KeepsRequest con con' → P con → P con')
    (hTo : ∀ r st, P st.con → P (applyTo r st).con)
    {rules : List RouteRule}
    {failureType fdIn : Int}
    {junk : ClientConnection}
    {w : World}
    {n : Nat}
    {start st : Connecting}
    (hStart :
      startConnecting rules failureType
        (newClientConnection fdIn junk) w = (true, start))
    (hAttempt : AttemptStart start n st) :
    P st.con := by
  apply hKeeps _ _ hAttempt.kept.request
  rcases accepted_of_startConnecting hStart with
    ⟨con, w₁, hRun, hCon⟩
  rcases handshake_sound (resetRequest_blank fdIn junk) hRun
    with ⟨req, hRecords, _⟩
  rw [hCon]
  exact decideApplicableRule_preserves hKeeps hTo rules _
    (hCarries _ _ hRecords.carries)

------------------------------------------------------------
-- What Sessions Send
------------------------------------------------------------

/- Port forwarding asks for a connection to a name. -/
theorem portForwardRequest_encodable
    (fwd : ServicePortForward)
    (con : ClientConnection) :
    Encodable (portForwardRequest fwd con) :=
  ⟨⟨1, Or.inl rfl, rfl⟩, Or.inl rfl⟩

/- Every session has a command to send. -/
theorem Built.encodable
    {con : ClientConnection}
    (hBuilt : Built con) :
    Encodable con := by
  cases hBuilt with
  | socks hStart hAttempt =>
      exact startConnecting_preserves
        (fun _ _ => Carries.encodable)
        (fun _ _ hKeeps hHere => hHere.of_keeps hKeeps)
        (fun r _ => applyTo_encodable r) hStart hAttempt
  | @portForward _ fwd rules _ fdIn junk w _ _ _ _ hStart
      hAttempt =>
      have hCon := congrArg (fun out => out.2.con) hStart
      simp only [startForwarding] at hCon
      have hDecided :=
        decideApplicableRule_preserves
          (fun _ _ hKeeps hHere =>
            Encodable.of_keeps hHere hKeeps)
          (fun r _ => applyTo_encodable r) rules w.dns
          (portForwardRequest_encodable fwd
            (newClientConnection fdIn junk))
      rw [hCon] at hDecided
      exact hDecided.of_keeps hAttempt.kept.request

/- Sessions of the SOCKS service send what fits the wire. -/
theorem fitsWire_of_socks
    {rules : List RouteRule}
    {failureType fdIn : Int}
    {junk : ClientConnection}
    {w : World}
    {n : Nat}
    {start st : Connecting}
    (hStart :
      startConnecting rules failureType
        (newClientConnection fdIn junk) w = (true, start))
    (hAttempt : AttemptStart start n st) :
    FitsWire st.con :=
  startConnecting_preserves
    (fun _ _ => Carries.fitsWire)
    (fun _ _ hKeeps hHere => hHere.of_keeps hKeeps)
    (fun r _ => applyTo_fitsWire r) hStart hAttempt

------------------------------------------------------------
-- Round Trips
------------------------------------------------------------

/- Two connections ask for the same. -/
structure SameCommand
    (con con' : ClientConnection) : Prop where
  command : con'.socksCommand = con.socksCommand
  addressType :
    con'.socksAddressType = con.socksAddressType
  port : con'.dstHost.port = con.dstHost.port
  addr : con.socksAddressType = socks5AddrTypeIpv4 →
    con'.dstHost.ipv4 = con.dstHost.ipv4
  name : con.socksAddressType = socks5AddrTypeDomain →
    con'.dstHost.name = con.dstHost.name

theorem sameCommand_of_carries
    {con con' : ClientConnection}
    {c : Command}
    (h : Carries con c)
    (h' : Carries con' c) :
    SameCommand con con' where
  command := h'.command.trans h.command.symm
  addressType := h'.addressType.trans h.addressType.symm
  port := h'.port.trans h.port.symm
  addr := by
    rw [h.addressType]
    have hTarget := h.target
    have hTarget' := h'.target
    revert hTarget hTarget'
    cases c.target with
    | ipv4 a b d e =>
        intro hTarget hTarget' _
        exact hTarget'.2.trans hTarget.2.symm
    | domain name hFits =>
        intro _ _ hType
        exact absurd hType.symm socks5AddrTypeIpv4_ne_domain
  name := by
    rw [h.addressType]
    have hTarget := h.target
    have hTarget' := h'.target
    revert hTarget hTarget'
    cases c.target with
    | ipv4 a b d e =>
        intro _ _ hType
        exact absurd hType socks5AddrTypeIpv4_ne_domain
    | domain name hFits =>
        intro hTarget hTarget' _
        exact Eq.trans hTarget' (Eq.symm hTarget)

/- The command that is sent to a server that listens. -/
def SendsCommand
    (con : ClientConnection)
    (message : List UInt8) : Prop :=
  ∀ w buf, (w.sink .server).Reliable →
    ∃ w', socks5ClientSendCommand con w buf = (1, w') ∧
      sentTo .server w'.trace =
        sentTo .server w.trace ++ message

/-
  The command that is sent, read by a connection that asks
  for nothing yet, is accepted as a whole and asks for the
  same.
-/
def RoundTrips
    (con : ClientConnection) : Prop :=
  ∃ message, SendsCommand con message ∧
    ∀ (receiver : ClientConnection) (w : World),
      receiver.dstHost.Blank →
      (w.source .client).Reliable →
      (w.source .client).pending = message →
      ∃ rc con' w',
        socks5GetCommand receiver w = (rc, con', w') ∧
          rc ≠ socks5CmdError ∧
          (w'.source .client).pending = [] ∧
          SameCommand con con'

/- A command that fits the wire is the one it stands for. -/
theorem carries_of_fitsWire
    {con : ClientConnection}
    (hEncodable : Encodable con)
    (hFits : FitsWire con) :
    ∃ c, Carries con c ∧ c.cut = c := by
  rcases hEncodable.command with ⟨cmd, hKnown, hCommand⟩
  have hPort :
      con.dstHost.port =
        bePort (portHigh con.dstHost.port)
          (portLow con.dstHost.port) := by
    rw [bePort_portHigh_portLow]
    exact (Int.emod_eq_of_lt hFits.port.1
      hFits.port.2).symm
  rcases hEncodable.target with
    hType | ⟨hType, hNone, addr, hAddr⟩
  · let name := con.dstHost.name
    let c : Command :=
      { cmd := cmd
        known := hKnown
        target := .domain name.text (hFits.name hType)
        portHi := portHigh con.dstHost.port
        portLo := portLow con.dstHost.port }
    refine ⟨c, ⟨hCommand, hType, hPort, ?_⟩, ?_⟩
    · exact (CBuf.copy_text name).symm
    · simp [c, Command.cut, Target.cut,
        Text.cstr_eq_self name.noNul]
  · let c : Command :=
      { cmd := cmd
        known := hKnown
        target := .ipv4 (addr >>> 24).toUInt8
          (addr >>> 16).toUInt8 (addr >>> 8).toUInt8
          addr.toUInt8
        portHi := portHigh con.dstHost.port
        portLo := portLow con.dstHost.port }
    refine ⟨c, ⟨hCommand, hType, hPort, hNone, ?_⟩, rfl⟩
    rw [hAddr, ipv4OfOctets_ipv4Octets]

/- What is read always fits the wire. -/
theorem fitsWire_of_roundTrips
    {con : ClientConnection}
    (hTrip : RoundTrips con) :
    FitsWire con := by
  rcases hTrip with ⟨message, _, hRead⟩
  let receiver := newClientConnection 0 default
  let w : World :=
    { (default : World) with
      socks := fun _ => ⟨⟨message, []⟩, ⟨[]⟩⟩ }
  have hBlank : receiver.dstHost.Blank := ⟨rfl, rfl⟩
  have hReads : (w.source .client).Reliable := by
    intro event hEvent
    simp [w, World.source] at hEvent
  rcases hRead receiver w hBlank hReads rfl with
    ⟨rc, con', w', hRun, hOkay, _, hSame⟩
  rcases socks5GetCommand_sound hBlank hRun hOkay with
    ⟨c, hRecords, _⟩
  have hFits := hRecords.carries.fitsWire
  constructor
  · intro hDomain
    rw [← hSame.name hDomain]
    exact hFits.name (hSame.addressType.trans hDomain)
  · rw [← hSame.port]
    exact hFits.port

/-
  The command of a session makes the round trip exactly when
  its name and its port fit the wire.
-/
theorem socks5GetCommand_roundTrips_iff
    {con : ClientConnection}
    (hBuilt : Built con) :
    RoundTrips con ↔ FitsWire con := by
  constructor
  · exact fitsWire_of_roundTrips
  · intro hFits
    rcases carries_of_fitsWire hBuilt.encodable hFits with
      ⟨c, hCarries, hCut⟩
    refine ⟨c.wire, ?_, ?_⟩
    · intro w buf hReliable
      have hMessage := commandMessage_of_carries hCarries buf
      rw [hCut] at hMessage
      rcases socks5ClientSendCommand_exchange hMessage w with
        ⟨rc, put, w', hSend, hGiven, _, hAll, hDone⟩
      have hRc := hDone hReliable
      subst hRc
      rw [hAll (by decide)] at hGiven
      exact ⟨w', hSend, hGiven.sent⟩
    · intro receiver w hBlank hReads hPending
      have hAll :
          (w.source .client).pending = c.wire ++ [] := by
        rw [hPending, List.append_nil]
      rcases socks5GetCommand_complete hBlank hReads hAll
        with ⟨w', hRun, hTaken⟩
      refine ⟨_, _, w', hRun, ?_, ?_, ?_⟩
      · rcases c.known with hCmd | hCmd | hCmd <;>
          rw [hCmd] <;> decide
      · exact hTaken.pending_eq hAll
      · exact sameCommand_of_carries hCarries
          (recordRequest_records receiver 5 c).carries

/- A port that the wire cannot hold: `1:h:70000`. -/
def largePortSpec : Text :=
  Text.ascii ['1', ':', 'h', ':', '7', '0', '0', '0', '0']

def largePortForward : ServicePortForward :=
  (parseServicePortForwardSpec largePortSpec).get
    (by decide)

/- A forwarded port that is too large does not come back. -/
theorem roundTrips_largePort :
    ¬ ∀ con, Built con → RoundTrips con := by
  intro hClaim
  let start := startForwarding largePortForward
    resolvingRules 0 (newClientConnection 3 default) default
  have hStart : start = (true, start.2) :=
    Prod.ext (by decide) rfl
  have hBuilt := Built.portForward
    (Option.some_get _).symm hStart
    (AttemptStart.first (by decide))
  have hFits := fitsWire_of_roundTrips (hClaim _ hBuilt)
  exact absurd hFits.port (by decide)

/- A session of the SOCKS service. -/
theorem socks5GetCommand_roundTrips_name :
    let start :=
      (startConnecting resolvingRules 0
        (newClientConnection 3 default) nameWithZeroByte).2
    let con :=
      (notifyMainThread (routeTunnels start.con) start).con
    RoundTrips con ↔ FitsWire con :=
  socks5GetCommand_roundTrips_iff
    (Built.socks (Prod.ext (by decide) rfl)
      (AttemptStart.first (by decide)))

end SmartSOCKSProxy
