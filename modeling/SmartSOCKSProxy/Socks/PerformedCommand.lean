import SmartSOCKSProxy.Socks.Dialing
import SmartSOCKSProxy.Socks.FinalStatus

/-
  Which command of the client a direct connection performs.

  The handler drops the command that it has read, and a direct
  attempt treats every request as a CONNECT.  So BIND and UDP
  ASSOCIATE lead to a connection to their address, unless
  nothing can be dialed.

  Key definitions include:
    * `requestOf`, `PerformsRequested`, `DialsNothing`

  Key theorems include:
    * `performsRequested_iff`
-/

namespace SmartSOCKSProxy

/- The connection after the client's request was read. -/
def requestOf
    (con : ClientConnection)
    (w : World) : ClientConnection :=
  (handshake (resetRequest con) w).2.1

/-
  A session whose client does not ask for CONNECT dials
  nothing directly, and is not relayed over a direct
  connection.
-/
structure PerformsRequested
    (rules : List RouteRule)
    (failureType : Int)
    (con : ClientConnection)
    (w : World) : Prop where
  notDialed :
    ∀ first n st,
      startConnecting rules failureType con w =
        (true, first) →
      (requestOf con w).socksCommand ≠ socks5CmdConnect →
      AttemptStart first n st →
      let tun := tunnelOfAttempt (routeTunnels first.con) n
      tun.isDirect = true →
        dialings (attemptTunnel tun st).2.w.trace =
          dialings st.w.trace
  notRelayed :
    ∀ con' w',
      prepareRelay rules failureType con w =
        (true, con', w') →
      (requestOf con w).socksCommand ≠ socks5CmdConnect →
        con'.tunnel.any SshTunnel.isDirect = false

/-
  No direct attempt for another command than CONNECT starts
  with a target: the destination has no IPv4 address, or
  there is no socket for it.
-/
def DialsNothing
    (rules : List RouteRule)
    (failureType : Int)
    (con : ClientConnection)
    (w : World) : Prop :=
  ∀ first n st,
    startConnecting rules failureType con w =
      (true, first) →
    (requestOf con w).socksCommand ≠ socks5CmdConnect →
    AttemptStart first n st →
    (tunnelOfAttempt (routeTunnels first.con)
      n).isDirect = true →
      directTarget st.con st.w = none

/- A relayed session went through a tunnel that worked. -/
theorem made_of_prepareRelay
    {rules : List RouteRule}
    {failureType : Int}
    {con con' : ClientConnection}
    {w w' : World}
    (hRelay :
      prepareRelay rules failureType con w =
        (true, con', w')) :
    ∃ first n st,
      startConnecting rules failureType con w =
          (true, first) ∧
        AttemptStart first n st ∧
        let tun :=
          tunnelOfAttempt (routeTunnels first.con) n
        (attemptTunnel tun st).1 ≠ 0 ∧
          con'.tunnel = some tun := by
  unfold prepareRelay at hRelay
  rcases hStart : startConnecting rules failureType con w
    with ⟨_ | _, first⟩
  · rw [hStart] at hRelay
    simp at hRelay
  · rw [hStart] at hRelay
    rcases hConnect : socksConnect first with ⟨ok, st'⟩
    simp only [hConnect] at hRelay
    by_cases hOk : ok = 0
    · simp [hOk] at hRelay
    · rw [if_neg hOk] at hRelay
      rcases Session.made_of_socksConnect hConnect hOk with
        ⟨n, st, hAttempt, hMade⟩
      have hStep := Session.connectStep_of_made hMade
      rw [socksConnect_of_attempt hAttempt hStep]
        at hConnect
      cases hConnect
      have hCon :
          (attemptTunnel (tunnelOfAttempt
            (routeTunnels first.con) n) st).2.con = con' :=
        congrArg (fun out => out.2.1) hRelay
      refine ⟨first, n, st, rfl, hAttempt, hMade, ?_⟩
      rw [← hCon]
      apply attemptTunnel_tunnel

/-
  Commands other than CONNECT are kept from direct connections
  if and only if there was nothing to dial anyway.
-/
theorem performsRequested_iff
    (rules : List RouteRule)
    (failureType : Int)
    (con : ClientConnection)
    (w : World) :
    PerformsRequested rules failureType con w ↔
      DialsNothing rules failureType con w := by
  constructor
  · intro hPerforms first n st hStart hCommand hAttempt
      hDirect
    have hSame := hPerforms.notDialed first n st hStart
      hCommand hAttempt hDirect
    rw [attemptTunnel_dialings hDirect] at hSame
    apply Option.toList_eq_nil_iff.mp
    exact List.append_right_eq_self.mp hSame
  · intro hNothing
    constructor
    · intro first n st hStart hCommand hAttempt tun hDirect
      have hNone := hNothing first n st hStart hCommand
        hAttempt hDirect
      rw [attemptTunnel_dialings hDirect, hNone]
      apply List.append_nil
    · intro con' w' hRelay hCommand
      rcases made_of_prepareRelay hRelay with
        ⟨first, n, st, hStart, hAttempt, hMade, hTunnel⟩
      rw [hTunnel, Option.any_some]
      -- A direct tunnel that worked had a target.
      by_contra hDirect
      rw [Bool.not_eq_false] at hDirect
      rw [attemptTunnel_direct hDirect] at hMade
      apply connectDirect_made hMade
      rw [directTarget_tunnel]
      exact hNothing first n st hStart hCommand hAttempt
        hDirect

/- The rule list of the single rule `via direct`. -/
def directRules : List RouteRule :=
  let blank := newRouteRule
    (Vector.replicate routeRuleMaxSshTunnelsPerRule none)
  [{ blank with
      tunnel :=
        blank.tunnel.set 0 (some sshTunnelDirect)
          firstTunnel }]

/- A BIND request for port 80 of 10.0.0.1, and a socket. -/
def clientBinds : World :=
  { (default : World) with
    socks := fun _ =>
      { source :=
          { pending :=
              [5, 1, 0, 5, 2, 0, 1, 10, 0, 0, 1, 0, 80]
            reads := [] }
        sink := ⟨[]⟩ }
    dials := fun _ =>
      { (default : Dial) with socket := .ok 7 } }

/- A BIND request is performed as a CONNECT. -/
theorem performsRequested_bind :
    ¬ ∀ rules failureType fdIn junk w,
      PerformsRequested rules failureType
        (newClientConnection fdIn junk) w := by
  intro hClaim
  let start := startConnecting directRules 0
    (newClientConnection 3 default) clientBinds
  have hStarted : start = (true, start.2) :=
    Prod.ext (by decide) rfl
  have hSame :=
    (hClaim directRules 0 3 default clientBinds).notDialed
      start.2 0 _ hStarted (by decide)
      (AttemptStart.first (by decide)) (by decide)
  exact absurd hSame (by decide)

end SmartSOCKSProxy
