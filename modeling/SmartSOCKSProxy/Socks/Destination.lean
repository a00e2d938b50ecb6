import SmartSOCKSProxy.Routing.LastRewrite
import SmartSOCKSProxy.Socks.PerformedCommand
import SmartSOCKSProxy.Socks.RoundTrip

/-
  What is dialed is what the rules decided.

  After a rewrite, every attempt is for the address that the
  last rewrite left.  Without one, tunnels' servers are told
  the original destination, and direct attempts dial it or
  the address that was found for its name.

  Key definitions include:
    * `Session.Requests`, `Found`
    * `DialsOnly`, `ipv4Command`, `commandFor`

  Key theorems include:
    * `AttemptStart.found`
    * `Session.dials_decided`
-/

namespace SmartSOCKSProxy

------------------------------------------------------------
-- Requests
------------------------------------------------------------

/-
  A request for an IPv4 address, or for a name that has no
  address yet, with its original.
-/
structure Requested
    (con : ClientConnection) : Prop where
  original : con.dstHostOriginal = con.dstHost
  target :
    con.socksAddressType = socks5AddrTypeIpv4 ∧
        con.dstHost.hasName = false ∧
        (∃ a, con.dstHost.addr =
          .inet (htons con.dstHost.port) a) ∨
      con.socksAddressType = socks5AddrTypeDomain ∧
        con.dstHost.addr = .unspec

theorem Records.requested
    {con : ClientConnection}
    {version : Int}
    {c : Command}
    (hRecords : Records con version c) :
    Requested con where
  original := hRecords.dstHostOriginal
  target := by
    have hType := hRecords.addressType
    rw [hRecords.dstHost]
    revert hType
    cases c.target with
    | ipv4 a b d e =>
        intro hType
        exact Or.inl ⟨hType, rfl, _, rfl⟩
    | domain name hFits =>
        intro hType
        exact Or.inr ⟨hType, rfl⟩

theorem portForwardRequest_requested
    (fwd : ServicePortForward)
    (fdIn : Int)
    (junk : ClientConnection) :
    Requested
      (portForwardRequest fwd
        (newClientConnection fdIn junk)) :=
  ⟨rfl, Or.inr ⟨rfl, rfl⟩⟩

namespace Session

def rules : Session → List RouteRule
  | .socks rules .. => rules
  | .portForward _ rules .. => rules

/-
  The connection and the world with which the rules are asked
  for a decision.
-/
def Requests :
    Session → ClientConnection → World → Prop
  | .socks _ _ fdIn junk w, con, w' =>
      handshake
          (resetRequest (newClientConnection fdIn junk)) w =
        (true, con, w')
  | .portForward fwd _ _ fdIn junk w, con, w' =>
      con =
          portForwardRequest fwd
            (newClientConnection fdIn junk) ∧
        w' = w

variable {s : Session}
variable {con : ClientConnection}
variable {w : World}
variable {first : Connecting}

theorem requested
    (hRequests : s.Requests con w) :
    Requested con := by
  cases s with
  | socks rules failureType fdIn junk w₀ =>
      rcases handshake_sound (resetRequest_blank fdIn junk)
          hRequests with
        ⟨req, hRecords, _⟩
      exact hRecords.requested
  | portForward fwd rules failureType fdIn junk w₀ =>
      rw [hRequests.1]
      exact portForwardRequest_requested fwd fdIn junk

/- The decision that a session is started with. -/
theorem decided
    (hRequests : s.Requests con w)
    (hStart : s.start = (true, first)) :
    (decideApplicableRule s.rules con w.dns).1 = 1 ∧
      first.con =
        (decideApplicableRule s.rules con w.dns).2.1 ∧
      first.w.dns =
        (decideApplicableRule s.rules con w.dns).2.2 := by
  have hRc :=
    (decideApplicableRule_eq_run s.rules con w.dns).1
  have hSome :
      (decideApplicableRule s.rules con w.dns).1 ≠ 0 →
        (decideApplicableRule s.rules con w.dns).1 = 1 := by
    intro hNe
    rw [hRc] at hNe ⊢
    split
    · rfl
    · rw [if_neg ‹_›] at hNe
      exact absurd rfl hNe
  cases s with
  | socks rules failureType fdIn junk w₀ =>
      have hRun :
          handshake
              (resetRequest
                (newClientConnection fdIn junk)) w₀ =
            (true, con, w) := hRequests
      simp only [start] at hStart
      unfold startConnecting at hStart
      rw [hRun] at hStart
      simp only [Prod.mk.injEq, decide_eq_true_eq] at hStart
      rcases hStart with ⟨hNe, rfl⟩
      exact ⟨hSome hNe, rfl, rfl⟩
  | portForward fwd rules failureType fdIn junk w₀ =>
      rcases hRequests with ⟨rfl, rfl⟩
      simp only [start] at hStart
      unfold startForwarding at hStart
      simp only [Prod.mk.injEq, decide_eq_true_eq] at hStart
      rcases hStart with ⟨hNe, rfl⟩
      exact ⟨hSome hNe, rfl, rfl⟩

end Session

------------------------------------------------------------
-- Commands
------------------------------------------------------------

/- The command for an address. -/
def ipv4Command
    (cmd : Int)
    (a : UInt32)
    (port : Int) : List UInt8 :=
  [5, UInt8.ofInt cmd, 0, 1] ++ ipv4Octets a ++
    [portHigh port, portLow port]

/- The command for a name. -/
def nameCommand
    (cmd : Int)
    (name : Text)
    (port : Int) : List UInt8 :=
  [5, UInt8.ofInt cmd, 0, 3] ++
    UInt8.ofNat name.length :: name ++
    [portHigh port, portLow port]

/- The command for a destination's address or name. -/
def commandFor
    (cmd : Int)
    (d : HostId) : List UInt8 :=
  match d.ipv4 with
  | some a => ipv4Command cmd a d.port
  | none => nameCommand cmd d.name.text d.port

/- An unchanged request is told to the tunnels' servers. -/
theorem tellsServer_of_requested
    {con : ClientConnection}
    {st : Connecting}
    (hRequested : Requested con)
    (hPort : IsPort con.dstHost.port)
    (hKeeps : KeepsRequest con st.con) :
    TellsServer st
      (commandFor con.socksCommand con.dstHostOriginal) := by
  apply tellsServer_of_message
  intro buf
  rw [hRequested.original]
  unfold commandFor
  rcases hRequested.target with
    ⟨hType, hName, a, hAddr⟩ | ⟨hType, hAddr⟩
  · have hHost := hKeeps.dstHost.nameless hName
    have hSame : con.dstHost.ipv4 = some a := by
      simp [HostId.ipv4, hAddr]
    rw [commandMessage_ipv4
      (hKeeps.addressType.trans hType) (hHost ▸ hAddr),
      hSame, hKeeps.command, hHost]
    rfl
  · have hSame : con.dstHost.ipv4 = none := by
      simp [HostId.ipv4, hAddr]
    rw [commandMessage_domain
      (hKeeps.addressType.trans hType), hSame,
      hKeeps.command, hKeeps.dstHost.port hPort,
      hKeeps.dstHost.name]
    rfl

------------------------------------------------------------
-- Destinations of Attempts
------------------------------------------------------------

/-
  No lookup had an answer, and the address is the one that
  the name spells.
-/
structure Spelled
    (d : HostId)
    (dns : Resolver)
    (s : Located) : Prop where
  unanswered :
    dns.lastAnswer d.name.text dns.lookups s.dns.lookups =
      none
  addr : ∃ a, inetPton4 d.name.text = some a ∧
    s.host.addr = .inet (htons d.port) a

/- Where the address of a destination may come from. -/
def Found
    (d : HostId)
    (dns : Resolver)
    (s : Located) : Prop :=
  Looked d dns s ∨ Spelled d dns s

/- An attempt's destination and resolver. -/
def Connecting.located
    (st : Connecting) : Located where
  host := st.con.dstHost
  dns := st.w.dns

/- Destination and resolver once an address was looked for. -/
def Connecting.resolved
    (st : Connecting) : Located where
  host := (resolveDestination st.con st.w).1.dstHost
  dns := (resolveDestination st.con st.w).2.dns

theorem Found.resolved
    {d : HostId}
    {dns : Resolver}
    {st : Connecting}
    (hFound : Found d dns st.located)
    (hPort : IsPort d.port) :
    Found d dns st.resolved := by
  unfold Connecting.resolved resolveDestination
  split
  · rename_i hUnresolved
    rcases hFound with hLooked | ⟨_, a, _, hAddr⟩
    · have hNone :
          dns.lastAnswer d.name.text dns.lookups
            st.w.dns.lookups = none := by
        have hAddr := hLooked.addr
        have hUnspec : st.con.dstHost.addr = .unspec := by
          simpa [HostId.hasAddr] using hUnresolved.2
        cases hLast : dns.lastAnswer d.name.text
            dns.lookups st.w.dns.lookups with
        | none => rfl
        | some a =>
            simp [Connecting.located, hLast, hUnspec]
              at hAddr
      have hName : st.con.dstHost.name = d.name :=
        hLooked.name
      have hSame : st.con.dstHost.port = d.port :=
        hLooked.port
      cases hSpelled :
          inetPton4 st.con.dstHost.name.text with
      | some a =>
          right
          refine ⟨hNone, a, ?_, ?_⟩
          · rw [← hName]
            exact hSpelled
          · rw [← hSame]
            rfl
      | none => exact Or.inl (hLooked.next hPort)
    · have hHas : st.con.dstHost.hasAddr = true := by
        have hInet : st.con.dstHost.addr =
            .inet (htons d.port) a := hAddr
        simp [HostId.hasAddr, hInet]
      exact absurd hHas hUnresolved.2
  · exact hFound

/- A direct attempt looks for the address and keeps it. -/
theorem connectDirect_located
    (st : Connecting) :
    (connectDirect st).2.located = st.resolved := by
  unfold connectDirect Connecting.resolved
  rcases hDst : resolveDestination st.con st.w with
    ⟨con, w⟩
  dsimp only
  cases con.dstHost.addr with
  | unspec => rfl
  | inet6 _ _ => rfl
  | inet sinPort sinAddr =>
      have hDns := dialServer_dns w sinPort sinAddr
      rcases hRun : w.dialServer sinPort sinAddr with
        ⟨result, w'⟩
      rw [hRun] at hDns
      have hLocated :
          Located.mk con.dstHost w'.dns =
            ⟨con.dstHost, w.dns⟩ :=
        congrArg (Located.mk con.dstHost) hDns
      simp only [hRun]
      cases result with
      | noSocket => exact hLocated
      | connected fd => exact hLocated
      | notConnected =>
          dsimp only
          split
          · exact hLocated
          · exact hLocated

/- The tunnel that a connection remembers does not matter. -/
theorem resolved_tunnel
    (st : Connecting)
    (tunnel : Option SshTunnel) :
    Connecting.resolved
        { st with con := { st.con with tunnel := tunnel } } =
      st.resolved := by
  unfold Connecting.resolved
  rw [resolveDestination_tunnel]

/- What an attempt does to destination and resolver. -/
theorem attemptTunnel_located
    (tun : SshTunnel)
    (st : Connecting) :
    (attemptTunnel tun st).2.located =
      if tun.isDirect then st.resolved else st.located := by
  by_cases hDirect : tun.isDirect = true
  · rw [if_pos hDirect, attemptTunnel_direct hDirect,
      connectDirect_located, resolved_tunnel]
  · rw [if_neg hDirect]
    rcases attemptTunnel_sameTarget
        (by simpa using hDirect) st with
      ⟨hHost, hDns⟩
    simp [Connecting.located, hHost, hDns]

theorem abandonAttempt_located
    (st : Connecting) :
    (abandonAttempt st).located = st.located := by
  unfold abandonAttempt
  dsimp only
  split
  · rfl
  · rfl

theorem connectStep_located
    (tunnels : List SshTunnel)
    (n : Nat)
    (st : Connecting) :
    (connectStep tunnels n st).2.located =
      (attemptTunnel (tunnelOfAttempt tunnels n)
        st).2.located := by
  rcases connectStep_cases tunnels n st with
    ⟨_, hStep⟩ |
      ⟨_, ⟨_, hStep⟩ | ⟨_, ⟨_, hStep⟩ | ⟨_, hStep⟩⟩⟩
  · rw [hStep]
    rfl
  · rw [hStep, abandonAttempt_located]
    rfl
  · rw [hStep, abandonAttempt_located]
    rfl
  · rw [hStep, abandonAttempt_located]
    rfl

/- Attempts keep track of where the address comes from. -/
theorem AttemptStart.found
    {d : HostId}
    {dns : Resolver}
    {first st : Connecting}
    {n : Nat}
    (hStart : AttemptStart first n st)
    (hPort : IsPort d.port)
    (hFound : Found d dns first.located) :
    Found d dns st.located := by
  induction hStart with
  | first _ =>
      unfold notifyMainThread
      split
      · exact hFound
      · exact hFound
  | @retry n st₁ st₂ _ hFailed ih =>
      have hStep :=
        connectStep_located (routeTunnels first.con) n st₁
      rw [hFailed, attemptTunnel_located] at hStep
      rw [hStep]
      split
      · exact ih.resolved hPort
      · exact ih

------------------------------------------------------------
-- What Attempts Dial
------------------------------------------------------------

/-
  Direct attempts that start here dial the port, at addresses
  that fit the resolver as the attempt leaves it.
-/
def DialsOnly
    (st : Connecting)
    (port : Int)
    (fits : Resolver → UInt32 → Prop) : Prop :=
  ∀ tun : SshTunnel, tun.isDirect = true → ∃ targets,
    dialings (attemptTunnel tun st).2.w.trace =
        dialings st.w.trace ++ targets ∧
      ∀ target ∈ targets,
        ntohs target.1 = port ∧
          fits (attemptTunnel tun st).2.w.dns target.2

theorem dialsOnly_of_resolved
    {st : Connecting}
    {port : Int}
    {fits : Resolver → UInt32 → Prop}
    (hFits : ∀ sinPort sinAddr,
      st.resolved.host.addr = .inet sinPort sinAddr →
        ntohs sinPort = port ∧
          fits st.resolved.dns sinAddr) :
    DialsOnly st port fits := by
  intro tun hDirect
  refine ⟨_, attemptTunnel_dialings hDirect st, ?_⟩
  rintro ⟨sinPort, sinAddr⟩ hTarget
  have hLocated := attemptTunnel_located tun st
  rw [if_pos hDirect] at hLocated
  have hDns :
      (attemptTunnel tun st).2.w.dns = st.resolved.dns :=
    congrArg Located.dns hLocated
  rw [hDns]
  apply hFits
  have hSome := Option.mem_toList.mp hTarget
  unfold directTarget at hSome
  unfold Connecting.resolved
  split at hSome
  · rename_i hAddr
    rw [hAddr]
    split at hSome
    · cases hSome
      rfl
    · contradiction
  · contradiction

/-
  The address to dial for a destination: the last answer to
  the lookups of its name, or else the address that the name
  spells.
-/
def AddressFor
    (d : HostId)
    (dns dns' : Resolver)
    (a : UInt32) : Prop :=
  if d.hasName then
    (dns.lastAnswer d.name.text dns.lookups
        dns'.lookups).or
      (inetPton4 d.name.text) = some a
  else d.ipv4 = some a

/- Direct attempts for a request that was not rewritten. -/
theorem dialsOnly_of_requested
    {con : ClientConnection}
    {dns : Resolver}
    {st : Connecting}
    (hRequested : Requested con)
    (hPort : IsPort con.dstHost.port)
    (hKeeps : KeepsRequest con st.con)
    (hFound : Found con.dstHost dns st.located) :
    DialsOnly st con.dstHost.port
      (AddressFor con.dstHostOriginal dns) := by
  apply dialsOnly_of_resolved
  intro sinPort sinAddr hAddr
  rw [hRequested.original]
  unfold AddressFor
  by_cases hName : con.dstHost.hasName = true
  · rw [if_pos hName]
    have hUnspec : con.dstHost.addr = .unspec := by
      rcases hRequested.target with
        ⟨_, hNone, _⟩ | ⟨_, hUnspec⟩
      · rw [hName] at hNone
        contradiction
      · exact hUnspec
    rcases hFound.resolved hPort with
      hLooked | ⟨hNone, a, hSpelled, hHere⟩
    · have hThere := hLooked.addr
      rw [hAddr, hUnspec] at hThere
      cases hLast : dns.lastAnswer con.dstHost.name.text
          dns.lookups st.resolved.dns.lookups with
      | none => simp [hLast] at hThere
      | some a =>
          simp only [hLast, Option.map_some,
            Option.getD_some, SockAddr.inet.injEq] at hThere
          rcases hThere with ⟨rfl, rfl⟩
          exact ⟨ntohs_htons_of_isPort hPort, rfl⟩
    · rw [hAddr] at hHere
      cases hHere
      rw [hNone]
      exact ⟨ntohs_htons_of_isPort hPort, hSpelled⟩
  · rw [if_neg hName]
    have hNone : con.dstHost.hasName = false := by
      simpa using hName
    have hHost := hKeeps.dstHost.nameless hNone
    have hSame : st.resolved.host = con.dstHost := by
      unfold Connecting.resolved resolveDestination
      rw [hHost, if_neg (fun hBoth => hName hBoth.1)]
      exact hHost
    rw [hSame] at hAddr
    rcases hRequested.target with
      ⟨_, _, a, hInet⟩ | ⟨_, hUnspec⟩
    · rw [hInet] at hAddr
      cases hAddr
      exact ⟨ntohs_htons_of_isPort hPort,
        by simp [HostId.ipv4, hInet]⟩
    · rw [hUnspec] at hAddr
      contradiction

/- Attempts for a destination that a rewrite has left. -/
theorem attempts_of_rewritten
    {con : ClientConnection}
    {st : Connecting}
    {port : Int}
    {a : UInt32}
    (hType : con.socksAddressType = socks5AddrTypeIpv4)
    (hHost : con.dstHost = rewritten port a)
    (hPort : IsPort port)
    (hKeeps : KeepsRequest con st.con) :
    DialsOnly st port (fun _ b => b = a) ∧
      TellsServer st
        (ipv4Command con.socksCommand a port) := by
  have hName : con.dstHost.hasName = false := by
    rw [hHost, rewritten_hasName]
  constructor
  · apply dialsOnly_of_resolved
    intro sinPort sinAddr hAddr
    have hSame := hKeeps.dstHost.nameless hName
    have hResolved : st.resolved.host = rewritten port a := by
      unfold Connecting.resolved resolveDestination
      rw [hSame, if_neg (by simp [hName])]
      exact hSame.trans hHost
    rw [hResolved] at hAddr
    cases hAddr
    exact ⟨ntohs_htons_of_isPort hPort, rfl⟩
  · apply tellsServer_of_message
    intro buf
    have hSame := hKeeps.dstHost.nameless hName
    rw [hHost] at hSame
    have hAddr :
        st.con.dstHost.addr = .inet (htons port) a := by
      rw [hSame]
      rfl
    rw [commandMessage_ipv4
      (hKeeps.addressType.trans hType) hAddr,
      hKeeps.command, hSame]
    rfl

------------------------------------------------------------
-- Sessions
------------------------------------------------------------

/- A destination that is an address only has its type. -/
def TypedAsAddress
    (con : ClientConnection) : Prop :=
  con.dstHost.hasName = false →
    con.dstHost.ipv4 ≠ none →
      con.socksAddressType = socks5AddrTypeIpv4

theorem Requested.typedAsAddress
    {con : ClientConnection}
    (hRequested : Requested con) :
    TypedAsAddress con := by
  intro _ hAddr
  rcases hRequested.target with ⟨hType, _⟩ | ⟨_, hUnspec⟩
  · exact hType
  · exact absurd (by simp [HostId.ipv4, hUnspec]) hAddr

theorem decideApplicableRule_typedAsAddress
    (rules : List RouteRule)
    {con : ClientConnection}
    (dns : Resolver)
    (hTyped : TypedAsAddress con) :
    TypedAsAddress
      (decideApplicableRule rules con dns).2.1 := by
  apply decideApplicableRule_preserves _ _ rules dns hTyped
  · intro con₁ con₂ hKeeps hHere hName hAddr
    have hBefore : con₁.dstHost.hasName = false := by
      have hSame := hKeeps.dstHost.name
      simpa [HostId.hasName, hSame] using hName
    rw [hKeeps.dstHost.nameless hBefore] at hAddr
    rw [hKeeps.addressType]
    exact hHere hBefore hAddr
  · intro r st hHere
    unfold applyTo
    split
    · exact fun _ _ => rfl
    · exact hHere

/- Rules that do not rewrite, in both spellings. -/
theorem noRewrite_of_not_rewritesAt
    {rules : List RouteRule}
    {d : HostId}
    {dns : Resolver}
    (hNone : ∀ j a, ¬ RewritesAt rules d dns j a) :
    NoRewrite rules d dns := by
  intro k r hAt hTo
  cases hOld :
      (destinationBefore rules d dns k).ipv4 with
  | none => rfl
  | some old =>
      exact absurd ⟨r, old, hAt, hTo, hOld, rfl⟩
        (hNone k (r.toAddr old))

theorem not_noRewrite_of_lastRewrite
    {rules : List RouteRule}
    {d : HostId}
    {dns : Resolver}
    {a : UInt32}
    (hLast : LastRewrite rules d dns a) :
    ¬ NoRewrite rules d dns := by
  rcases hLast with ⟨j, ⟨r, old, hAt, hTo, hOld, _⟩, _⟩
  intro hNone
  rw [hNone j r hAt hTo] at hOld
  contradiction

/-
  Every attempt of a session, to dial or to send a command,
  is for what the rules have decided.
-/
theorem Session.dials_decided
    (s : Session)
    {con : ClientConnection}
    {w : World}
    {first : Connecting}
    (hRequests : s.Requests con w)
    (hPort : IsPort con.dstHost.port)
    (hStart : s.start = (true, first)) :
    ((∃ a, LastRewrite s.rules con.dstHost w.dns a) ∨
      NoRewrite s.rules con.dstHost w.dns) ∧
    (∀ a, LastRewrite s.rules con.dstHost w.dns a →
      first.con.socksAddressType = socks5AddrTypeIpv4 ∧
        first.con.dstHost.hasName = false ∧
        ∀ n st, AttemptStart first n st →
          DialsOnly st con.dstHost.port
              (fun _ b => b = a) ∧
            TellsServer st
              (ipv4Command con.socksCommand a
                con.dstHost.port)) ∧
    (NoRewrite s.rules con.dstHost w.dns →
      ∀ n st, AttemptStart first n st →
        DialsOnly st con.dstHost.port
            (AddressFor con.dstHostOriginal w.dns) ∧
          TellsServer st
            (commandFor con.socksCommand
              con.dstHostOriginal)) := by
  have hRequested := requested hRequests
  rcases decided hRequests hStart with ⟨hOne, hCon, hDns⟩
  have hCases := decideApplicableRule_cases hPort hOne
  rw [← hCon, ← hDns] at hCases
  refine ⟨?_, ?_, ?_⟩
  · rcases hCases with ⟨hNone, _⟩ | ⟨a, hLast, _⟩
    · exact Or.inr (noRewrite_of_not_rewritesAt hNone)
    · exact Or.inl ⟨a, hLast⟩
  · intro a hLast
    rcases hCases with ⟨hNone, _⟩ | ⟨b, hLast', hHost⟩
    · exact absurd (noRewrite_of_not_rewritesAt hNone)
        (not_noRewrite_of_lastRewrite hLast)
    · have hSame := hLast.unique hLast'
      subst hSame
      have hName : first.con.dstHost.hasName = false := by
        rw [hHost, rewritten_hasName]
      have hType :
          first.con.socksAddressType =
            socks5AddrTypeIpv4 := by
        have hTyped :=
          decideApplicableRule_typedAsAddress s.rules w.dns
            hRequested.typedAsAddress
        rw [← hCon] at hTyped
        apply hTyped hName
        rw [hHost]
        exact Option.some_ne_none a
      have hCommand :
          first.con.socksCommand = con.socksCommand := by
        rcases decideApplicableRule_eq_run s.rules con
            w.dns with
          ⟨_, _, _, _, hSameRequest⟩
        rw [hCon, show
          (decideApplicableRule s.rules con w.dns).2.1 = _
          from hSameRequest]
      refine ⟨hType, hName, ?_⟩
      intro n st hAttempt
      rw [← hCommand]
      exact attempts_of_rewritten hType hHost hPort
        hAttempt.kept.request
  · intro hNone n st hAttempt
    rcases hCases with ⟨_, hLooked⟩ | ⟨a, hLast, _⟩
    · have hKeeps : KeepsRequest con st.con := by
        have hDecided := decideApplicableRule_keeps hNone
        rw [← hCon] at hDecided
        exact hDecided.trans hAttempt.kept.request
      have hFound : Found con.dstHost w.dns st.located :=
        hAttempt.found hPort (Or.inl hLooked)
      exact ⟨dialsOnly_of_requested hRequested hPort hKeeps
          hFound,
        tellsServer_of_requested hRequested hPort hKeeps⟩
    · exact absurd hNone (not_noRewrite_of_lastRewrite hLast)

/- A rule that maps to 10.1.0.0/16 and dials directly. -/
def rewritingRules : List RouteRule :=
  let blank := newRouteRule
    (Vector.replicate routeRuleMaxSshTunnelsPerRule none)
  [{ blank with
      haveToIpv4 := true
      toIpv4Addr := 0x0A010000
      toIpv4Mask := 0xFFFF0000
      tunnel :=
        blank.tunnel.set 0 (some sshTunnelDirect)
          firstTunnel }]

/- Where the loop over the tunnels starts. -/
def rewritingStart : Connecting :=
  (startConnecting rewritingRules 0
    (newClientConnection 3 default) clientBinds).2

/- The request for 10.0.0.1 ends up at 10.1.0.1. -/
theorem Session.dials_decided_rewriting :
    DialsOnly
        (notifyMainThread
          (routeTunnels rewritingStart.con) rewritingStart)
        80 (fun _ b => b = 0x0A010001) ∧
      TellsServer
        (notifyMainThread
          (routeTunnels rewritingStart.con) rewritingStart)
        (ipv4Command 2 0x0A010001 80) := by
  let s : Session :=
    .socks rewritingRules 0 3 default clientBinds
  let run := handshake
    (resetRequest (newClientConnection 3 default))
    clientBinds
  have hRequests : s.Requests run.2.1 run.2.2 :=
    Prod.ext (by decide) rfl
  have hStart : s.start = (true, s.start.2) :=
    Prod.ext (by decide) rfl
  have hLast :
      LastRewrite rewritingRules run.2.1.dstHost
        run.2.2.dns 0x0A010001 := by
    refine ⟨0, ⟨_, 0x0A000001, ⟨rfl, by decide, nofun⟩, rfl,
      by decide, by decide⟩, ?_⟩
    rintro i hi b ⟨r, _, hAt, _⟩
    have hRule := List.getElem?_eq_some_iff.mp hAt.rule
    rcases hRule with ⟨hLength, _⟩
    have hOne : rewritingRules.length = 1 := rfl
    omega
  have hTunnels : routeTunnels rewritingStart.con ≠ [] := by
    decide
  exact ((dials_decided s hRequests (by decide) hStart).2.1
    0x0A010001 hLast).2.2 0 _ (AttemptStart.first hTunnels)

end SmartSOCKSProxy
