import SmartSOCKSProxy.Socks.Destination
import SmartSOCKSProxy.Socks.FinalStatus
import SmartSOCKSProxy.Socks.RoundTrip

/-
  The attempts of a session, from the first to the last.

  The tunnels of the rule take turns.  The loop gives up only
  when the destination refuses or when the hundred and first
  attempt fails, and all tunnels' servers are told the same.

  Key definitions include:
    * `Fails`, `Refused`
    * `TakesTurns`

  Key theorems include:
    * `AttemptStart.unique`
    * `AttemptStart.le_last`, `AttemptStart.sameMessage`
    * `socksConnect_takesTurns`
-/

namespace SmartSOCKSProxy

------------------------------------------------------------
-- The Attempts of a Call
------------------------------------------------------------

/- Attempts start in one state. -/
theorem AttemptStart.unique
    {st st₁ st₂ : Connecting}
    {n : Nat}
    (hStart : AttemptStart st n st₁)
    (hOther : AttemptStart st n st₂) :
    st₁ = st₂ := by
  induction hStart generalizing st₂ with
  | first _ =>
      cases hOther
      rfl
  | retry _ hFailed ih =>
      cases hOther with
      | retry hBefore hFailed' =>
          have hSame := ih hBefore
          subst hSame
          rw [hFailed] at hFailed'
          exact (Prod.mk.inj hFailed').2

/- Attempts are made one after the other. -/
theorem AttemptStart.earlier
    {st st₁ : Connecting}
    {n : Nat}
    (hStart : AttemptStart st n st₁)
    {i : Nat}
    (hLe : i ≤ n) :
    ∃ st', AttemptStart st i st' := by
  induction hStart with
  | first hTunnels =>
      rw [Nat.le_zero.mp hLe]
      exact ⟨_, AttemptStart.first hTunnels⟩
  | retry hBefore hFailed ih =>
      rcases Nat.lt_or_eq_of_le hLe with hLt | rfl
      · exact ih (Nat.le_of_lt_succ hLt)
      · exact ⟨_, hBefore.retry hFailed⟩

/- There is no attempt behind the one that ends the loop. -/
theorem AttemptStart.le_last
    {st st₁ st₂ st' : Connecting}
    {last n : Nat}
    {rc : Int}
    (hLast : AttemptStart st last st₁)
    (hStep :
      connectStep (routeTunnels st.con) last st₁ =
        (some rc, st₂))
    (hStart : AttemptStart st n st') :
    n ≤ last := by
  by_contra hBehind
  rcases hStart.earlier (Nat.not_le.mp hBehind) with
    ⟨_, hNext⟩
  cases hNext with
  | retry hBefore hFailed =>
      rw [hBefore.unique hLast, hStep] at hFailed
      exact nomatch congrArg Prod.fst hFailed

/- The attempts before the hundred and first are bounded. -/
theorem AttemptStart.le_hundred
    {st st' : Connecting}
    {n : Nat}
    (hStart : AttemptStart st n st') :
    n ≤ 100 := by
  rcases socksConnect_from hStart with ⟨fuel, hFuel, _⟩
  omega

/- More fuel than for 101 attempts makes no difference. -/
theorem connectLoop_fuel
    (tunnels : List SshTunnel)
    {fuel : Nat}
    (hFuel : 101 ≤ fuel)
    (st : Connecting) :
    connectLoop tunnels fuel 0 st =
      connectLoop tunnels 101 0 st := by
  induction fuel, hFuel using Nat.le_induction with
  | base => rfl
  | succ fuel hEnough ih =>
      rw [connectLoop_enough tunnels (by omega) (by omega),
        ih]

------------------------------------------------------------
-- Failures and Refusals
------------------------------------------------------------

/- The attempt makes no connection. -/
def Fails
    (tunnels : List SshTunnel)
    (n : Nat)
    (st : Connecting) : Prop :=
  (attemptAt tunnels n st).1 = 0

/-
  The attempt fails with a refusal of its own: whatever type
  of failure it finds, it leaves that of a refusal.
-/
def Refused
    (tunnels : List SshTunnel)
    (n : Nat)
    (st : Connecting) : Prop :=
  ∀ failureType,
    Fails tunnels n { st with failureType := failureType } ∧
      (attemptAt tunnels n
          { st with
            failureType := failureType }).2.failureType =
        socks5ReplyConnectionRefused

/- Attempts that can fail do not look at the old type. -/
theorem attemptTunnel_stale
    {tun : SshTunnel}
    {st : Connecting}
    (hFails : (attemptTunnel tun st).1 = 0)
    (failureType : Int) :
    attemptTunnel tun { st with failureType := failureType } =
      attemptTunnel tun st := by
  revert hFails
  unfold attemptTunnel
  dsimp only
  split
  · intro _
    rfl
  · split
    · intro hMade
      exact absurd hMade Int.one_ne_zero
    · intro _
      rfl

theorem refused_of_failureType
    {tunnels : List SshTunnel}
    {n : Nat}
    {st : Connecting}
    (hFails : Fails tunnels n st)
    (hRefused :
      (attemptAt tunnels n st).2.failureType =
        socks5ReplyConnectionRefused) :
    Refused tunnels n st := by
  intro failureType
  unfold Fails attemptAt at *
  rw [attemptTunnel_stale hFails]
  exact ⟨hFails, hRefused⟩

/- Attempts behind which the loop goes on have failed. -/
theorem fails_of_connectStep
    {st st₁ st₂ : Connecting}
    {n : Nat}
    (hStep :
      connectStep (routeTunnels st.con) n st₁ =
        (none, st₂)) :
    Fails (routeTunnels st.con) n st₁ := by
  rcases connectStep_cases (routeTunnels st.con) n st₁ with
    ⟨_, hEnd⟩ | ⟨hFails, _⟩
  · rw [hStep] at hEnd
    exact nomatch congrArg Prod.fst hEnd
  · exact hFails

/-
  The loop is left with 1 when a connection is made, and with
  0 after a refusal or the hundred and first failure.
-/
theorem connectStep_ends
    {tunnels : List SshTunnel}
    {n : Nat}
    {st st' : Connecting}
    {rc : Int}
    (hStep : connectStep tunnels n st = (some rc, st')) :
    rc = 1 ∧ ¬ Fails tunnels n st ∨
      rc = 0 ∧ Fails tunnels n st ∧
        (Refused tunnels n st ∨ 100 ≤ n) := by
  rcases connectStep_cases tunnels n st with
    ⟨hMade, hEnd⟩ |
      ⟨hFails,
        ⟨hRefused, hEnd⟩ |
          ⟨_, ⟨hLate, hEnd⟩ | ⟨_, hEnd⟩⟩⟩
  · rw [hStep] at hEnd
    cases hEnd
    exact Or.inl ⟨rfl, hMade⟩
  · rw [hStep] at hEnd
    cases hEnd
    exact Or.inr ⟨rfl, hFails,
      Or.inl (refused_of_failureType hFails hRefused)⟩
  · rw [hStep] at hEnd
    cases hEnd
    exact Or.inr ⟨rfl, hFails, Or.inr hLate⟩
  · rw [hStep] at hEnd
    exact nomatch congrArg Prod.fst hEnd

/- Every attempt of a call that returns 0 has failed. -/
theorem AttemptStart.fails_of_last
    {st st₁ st' : Connecting}
    {last n : Nat}
    (hLast : AttemptStart st last st₁)
    (hFails : Fails (routeTunnels st.con) last st₁)
    (hStart : AttemptStart st n st')
    (hLe : n ≤ last) :
    Fails (routeTunnels st.con) n st' := by
  rcases Nat.lt_or_eq_of_le hLe with hLt | rfl
  · rcases hLast.earlier hLt with ⟨_, hNext⟩
    cases hNext with
    | retry hBefore hFailed =>
        rw [hStart.unique hBefore]
        exact fails_of_connectStep hFailed
  · rw [hStart.unique hLast]
    exact hFails

------------------------------------------------------------
-- The Tunnel of an Attempt
------------------------------------------------------------

/- The connection names the tunnel whose turn it is. -/
theorem attemptAt_tunnel
    {tunnels : List SshTunnel}
    (hTunnels : tunnels ≠ [])
    (n : Nat)
    (st : Connecting) :
    (attemptAt tunnels n st).2.con.tunnel =
      tunnels[n % tunnels.length]? := by
  have hIdx : n % tunnels.length < tunnels.length :=
    Nat.mod_lt n (List.length_pos_iff.mpr hTunnels)
  unfold attemptAt
  rw [attemptTunnel_tunnel, tunnelOfAttempt,
    List.getD_eq_getElem?_getD,
    List.getElem?_eq_getElem hIdx, Option.getD_some]

/- The tunnel array has a hundred entries. -/
theorem routeTunnels_length_le
    (con : ClientConnection) :
    (routeTunnels con).length ≤
      routeRuleMaxSshTunnelsPerRule := by
  unfold routeTunnels
  cases con.route with
  | none => exact Nat.zero_le _
  | some route =>
      have hArray :=
        length_untilNull_le route.deref.tunnel.toList
      rwa [Vector.length_toList] at hArray

------------------------------------------------------------
-- The Request of an Attempt
------------------------------------------------------------

/- A port field keeps the bytes of a port for the wire. -/
theorem portHigh_emod
    (port : Int) :
    portHigh (port % 65536) = portHigh port := by
  rw [← bePort_portHigh_portLow, portHigh_bePort]

theorem portLow_emod
    (port : Int) :
    portLow (port % 65536) = portLow port := by
  rw [← bePort_portHigh_portLow, portLow_bePort]

/- Looking for an address keeps the bytes of the port. -/
theorem resolved_port
    (st : Connecting) :
    st.resolved.host.port % 65536 =
      st.con.dstHost.port % 65536 := by
  have hFound :
      ∀ sinAddr,
        (st.con.dstHost.setAddrIn
            (htons st.con.dstHost.port) sinAddr).port %
            65536 =
          st.con.dstHost.port % 65536 := by
    intro sinAddr
    unfold HostId.setAddrIn
    dsimp only
    rw [ntohs_htons, Int.emod_emod]
  unfold Connecting.resolved resolveDestination
  split
  · cases inetPton4 st.con.dstHost.name.text with
    | some sinAddr => exact hFound sinAddr
    | none =>
        dsimp only
        unfold resolveDnsForHostId
        split
        · cases st.w.dns.reply st.w.dns.lookups
              st.con.dstHost.name.text with
          | failure _ => rfl
          | addresses first _ => exact hFound _
        · rfl
  · rfl

theorem AttemptStart.port
    {st st' : Connecting}
    {n : Nat}
    (hStart : AttemptStart st n st') :
    st'.con.dstHost.port % 65536 =
      st.con.dstHost.port % 65536 := by
  induction hStart with
  | first _ =>
      unfold notifyMainThread
      split
      · rfl
      · rfl
  | @retry n st₁ st₂ _ hFailed ih =>
      have hStep :=
        connectStep_located (routeTunnels st.con) n st₁
      rw [hFailed, attemptTunnel_located] at hStep
      have hHost := congrArg Located.host hStep
      rw [← ih]
      split at hHost
      · rw [← resolved_port st₁, ← hHost]
        rfl
      · exact congrArg (HostId.port · % 65536) hHost

/- The bytes of two ports that a port field cannot tell. -/
theorem wirePort_eq
    {port port' : Int}
    (hPort : port' % 65536 = port % 65536) :
    portHigh port' = portHigh port ∧
      portLow port' = portLow port := by
  rw [← portHigh_emod, ← portLow_emod, hPort,
    portHigh_emod, portLow_emod]
  exact ⟨rfl, rfl⟩

/- All connections for a request send the same command. -/
theorem Encodable.sameMessage
    {con con' : ClientConnection}
    (hEncodable : Encodable con)
    (hKeeps : KeepsRequest con con')
    (hPort :
      con'.dstHost.port % 65536 =
        con.dstHost.port % 65536)
    (buf buf' : Buffer) :
    commandMessage con' buf' = commandMessage con buf := by
  rcases hEncodable.target with
    hType | ⟨hType, hNone, addr, hAddr⟩
  · rcases wirePort_eq hPort with ⟨hHigh, hLow⟩
    rw [commandMessage_domain hType,
      commandMessage_domain
        (hKeeps.addressType.trans hType),
      hKeeps.command, hKeeps.dstHost.name, hHigh, hLow]
  · rw [commandMessage_congr hKeeps
      (hKeeps.dstHost.nameless hNone)]
    rcases hDst : con.dstHost.addr with
      _ | ⟨sinPort, sinAddr⟩ | _
    · simp [HostId.ipv4, hDst] at hAddr
    · rw [commandMessage_ipv4 hType hDst,
        commandMessage_ipv4 hType hDst]
    · simp [HostId.ipv4, hDst] at hAddr

/- Every attempt would send the tunnels' servers the same. -/
theorem AttemptStart.sameMessage
    {st : Connecting}
    (hEncodable : Encodable st.con) :
    ∃ message, ∀ n st',
      AttemptStart st n st' → TellsServer st' message := by
  have hType :
      st.con.socksAddressType = socks5AddrTypeIpv4 ∨
        st.con.socksAddressType = socks5AddrTypeDomain ∨
        st.con.socksAddressType = socks5AddrTypeIpv6 := by
    rcases hEncodable.target with hDomain | ⟨hIpv4, _⟩
    · exact Or.inr (Or.inl hDomain)
    · exact Or.inl hIpv4
  rcases commandMessage_isSome hType st.w.dial.stack with
    ⟨message, hMessage⟩
  refine ⟨message, fun n st' hStart => ?_⟩
  apply tellsServer_of_message
  intro buf
  rw [← hMessage]
  exact hEncodable.sameMessage hStart.kept.request
    hStart.port _ buf

------------------------------------------------------------
-- Retries
------------------------------------------------------------

/-
  The attempts `0` to `last` of a call that returns `rc`, and
  the command that each of them has for a tunnel's server.
-/
structure TakesTurns
    (st : Connecting)
    (last : Nat)
    (rc : Int)
    (message : List UInt8) : Prop where
  bound : last ≤ 100
  attempts :
    ∀ n, (∃ st', AttemptStart st n st') ↔ n ≤ last
  turn : ∀ n st', AttemptStart st n st' →
    (attemptAt (routeTunnels st.con) n st').2.con.tunnel =
      (routeTunnels st.con)[
        n % (routeTunnels st.con).length]?
  result : rc = 0 ∨ rc = 1
  givesUp : rc = 0 →
    (∃ st', AttemptStart st last st' ∧
      Refused (routeTunnels st.con) last st') ∨
    last = 100 ∧ ∀ n st', AttemptStart st n st' →
      Fails (routeTunnels st.con) n st'
  triesAll : rc = 0 →
    (∀ n st', AttemptStart st n st' →
      ¬ Refused (routeTunnels st.con) n st') →
    ∀ tun ∈ routeTunnels st.con, ∃ n st',
      AttemptStart st n st' ∧
        (attemptAt (routeTunnels st.con) n
          st').2.con.tunnel = some tun
  request : ∀ n st', AttemptStart st n st' →
    TellsServer st' message

/- Each tunnel has its turn in the first hundred attempts. -/
theorem turn_of_mem
    {con : ClientConnection}
    {tun : SshTunnel}
    (hMem : tun ∈ routeTunnels con) :
    ∃ n ≤ 100,
      (routeTunnels con)[n % (routeTunnels con).length]? =
        some tun := by
  rcases List.mem_iff_getElem.mp hMem with ⟨n, hLt, hTun⟩
  have hMax : routeRuleMaxSshTunnelsPerRule = 100 := rfl
  have hArray := routeTunnels_length_le con
  refine ⟨n, by omega, ?_⟩
  rw [Nat.mod_eq_of_lt hLt, List.getElem?_eq_getElem hLt,
    hTun]

/-
  The tunnels of the rule take turns, for at most 101
  attempts.  More fuel than for these makes no difference:
  the loop ends by itself.
-/
theorem socksConnect_takesTurns
    {st : Connecting}
    (hTunnels : routeTunnels st.con ≠ [])
    (hEncodable : Encodable st.con) :
    ∃ last rc st' message,
      socksConnect st = (rc, st') ∧
      (∀ fuel, 101 ≤ fuel →
        connectLoop (routeTunnels st.con) fuel 0
            (notifyMainThread (routeTunnels st.con) st) =
          (rc, st')) ∧
      TakesTurns st last rc message := by
  rcases socksConnect_ends hTunnels with
    ⟨last, st₁, rc, st', hLast, hStep, hRun⟩
  rcases AttemptStart.sameMessage hEncodable with
    ⟨message, hMessage⟩
  have hTurn := attemptAt_tunnel hTunnels
  have hEnds := connectStep_ends hStep
  have hGivesUp :
      rc = 0 →
      (∃ st', AttemptStart st last st' ∧
        Refused (routeTunnels st.con) last st') ∨
      last = 100 ∧ ∀ n st', AttemptStart st n st' →
        Fails (routeTunnels st.con) n st' := by
    rintro rfl
    rcases hEnds with ⟨hOne, _⟩ | ⟨_, hFails, hReason⟩
    · exact absurd hOne Int.zero_ne_one
    · rcases hReason with hRefused | hLate
      · exact Or.inl ⟨st₁, hLast, hRefused⟩
      · right
        refine ⟨Nat.le_antisymm hLast.le_hundred hLate, ?_⟩
        intro n st₂ hStart
        exact hLast.fails_of_last hFails hStart
          (hLast.le_last hStep hStart)
  refine ⟨last, rc, st', message, hRun, ?_, ?_⟩
  · intro fuel hFuel
    rw [connectLoop_fuel _ hFuel, ← hRun]
    unfold socksConnect
    dsimp only
    rw [if_neg hTunnels]
  · constructor
    · exact hLast.le_hundred
    · intro n
      constructor
      · rintro ⟨st₂, hStart⟩
        exact hLast.le_last hStep hStart
      · exact hLast.earlier
    · exact fun n st₂ _ => hTurn n st₂
    · rcases hEnds with ⟨hOne, _⟩ | ⟨hZero, _⟩
      · exact Or.inr hOne
      · exact Or.inl hZero
    · exact hGivesUp
    · intro hZero hNever tun hMem
      rcases turn_of_mem hMem with ⟨n, hLe, hTun⟩
      have hAll : last = 100 := by
        rcases hGivesUp hZero with
          ⟨st₂, hStart, hRefused⟩ | ⟨hAll, _⟩
        · exact absurd hRefused (hNever last st₂ hStart)
        · exact hAll
      rcases hLast.earlier (hAll ▸ hLe) with
        ⟨st₂, hStart⟩
      exact ⟨n, st₂, hStart, (hTurn n st₂).trans hTun⟩
    · exact hMessage

/- Waking the main thread leaves the connection alone. -/
theorem notifyMainThread_con
    (tunnels : List SshTunnel)
    (st : Connecting) :
    (notifyMainThread tunnels st).con = st.con := by
  unfold notifyMainThread
  split
  · rfl
  · rfl

/- A forwarded port that is too large for the wire. -/
theorem socksConnect_takesTurns_largePort :
    let start := startForwarding largePortForward
      resolvingRules 0 (newClientConnection 3 default)
      default
    ∃ last rc st' message,
      socksConnect start.2 = (rc, st') ∧
      (∀ fuel, 101 ≤ fuel →
        connectLoop (routeTunnels start.2.con) fuel 0
            (notifyMainThread (routeTunnels start.2.con)
              start.2) =
          (rc, st')) ∧
      TakesTurns start.2 last rc message := by
  intro start
  have hStart : start = (true, start.2) :=
    Prod.ext (by decide) rfl
  have hTunnels : routeTunnels start.2.con ≠ [] := by
    decide
  have hBuilt := Built.portForward
    (Option.some_get _).symm hStart
    (AttemptStart.first hTunnels)
  apply socksConnect_takesTurns hTunnels
  rw [← notifyMainThread_con (routeTunnels start.2.con)]
  exact hBuilt.encodable

end SmartSOCKSProxy
