import SmartSOCKSProxy.Core.HostId

/-
  DNS resolution of a host identity.

  The `Resolver` stands for getaddrinfo(): it answers every
  lookup of the run in turn, so that the same name may be
  answered differently later.

  Key definitions include:
    * `Resolver`, `Resolved`
    * `resolveDnsForHostId`

  Key theorems include:
    * `resolveDnsForHostId_resolved`
-/

namespace SmartSOCKSProxy

------------------------------------------------------------
-- The Resolver
------------------------------------------------------------

inductive NetAddr where
| v4 (addr : UInt32)
| v6 (addr : Vector UInt8 16)
deriving DecidableEq, Inhabited

/- The first reply of getaddrinfo() other than EAI_AGAIN. -/
inductive GaiReply where
| failure (code : Int)
| addresses (first : NetAddr) (rest : List NetAddr)
deriving DecidableEq, Inhabited

/-
  The replies to all lookups, what an unset address on the
  stack holds at each of them, and the number of lookups
  made so far.
-/
structure Resolver where
  reply : Nat → Text → GaiReply
  stack : Nat → UInt32
  lookups : Nat
deriving Inhabited

/- getnameinfo() with NI_NUMERICHOST. -/
def numericHost : NetAddr → Text
  | .v4 addr => inetNtop4 addr
  | .v6 addr => inetNtop6 addr

------------------------------------------------------------
-- Resolution
------------------------------------------------------------

/- The resolver after one more lookup. -/
def Resolver.next
    (dns : Resolver) : Resolver :=
  { dns with lookups := dns.lookups + 1 }

/-
  The first address of the reply is converted through its
  numeric text; inet_pton() leaves the address field as it
  was when the text is not a dotted quad.
-/
def resolveDnsForHostId
    (id : HostId)
    (dns : Resolver) : Int × HostId × Resolver :=
  if id.hasName then
    match dns.reply dns.lookups id.name.text with
    | .failure _ => (0, id, dns.next)
    | .addresses first _ =>
        let sinAddr :=
          (inetPton4 (numericHost first)).getD
            (dns.stack dns.lookups)
        (1, id.setAddrIn (htons id.port) sinAddr, dns.next)
  else (0, id, dns)

/- Without a name there is nothing to resolve. -/
theorem resolveDnsForHostId_of_not_hasName
    {id : HostId}
    (dns : Resolver)
    (hName : id.hasName = false) :
    resolveDnsForHostId id dns = (0, id, dns) := by
  simp [resolveDnsForHostId, hName]

------------------------------------------------------------
-- What Resolution Keeps
------------------------------------------------------------

/-
  `d'` is `d` after any number of resolutions.  They pass the
  port through the port field of a socket address.
-/
structure Resolved
    (d d' : HostId) : Prop where
  name : d'.name = d.name
  nameless : d.hasName = false → d' = d
  port : IsPort d.port → d'.port = d.port

namespace Resolved

theorem refl
    (d : HostId) :
    Resolved d d :=
  ⟨rfl, fun _ => rfl, fun _ => rfl⟩

theorem trans
    {d d₁ d₂ : HostId}
    (h : Resolved d d₁)
    (h' : Resolved d₁ d₂) :
    Resolved d d₂ where
  name := h'.name.trans h.name
  nameless := by
    intro hName
    have hSame := h.nameless hName
    rw [hSame] at h'
    exact h'.nameless hName
  port := by
    intro hPort
    have hSame := h.port hPort
    rw [h'.port (hSame ▸ hPort), hSame]

/- An address found for a name. -/
theorem setAddrIn
    {d : HostId}
    (hName : d.hasName = true)
    (sinAddr : UInt32) :
    Resolved d (d.setAddrIn (htons d.port) sinAddr) where
  name := rfl
  nameless := by
    intro hNone
    rw [hName] at hNone
    contradiction
  port := HostId.port_setAddrIn_of_isPort sinAddr

end Resolved

theorem resolveDnsForHostId_resolved
    (id : HostId)
    (dns : Resolver) :
    Resolved id (resolveDnsForHostId id dns).2.1 := by
  by_cases hName : id.hasName = true
  · unfold resolveDnsForHostId
    rw [if_pos hName]
    cases dns.reply dns.lookups id.name.text with
    | failure _ => exact Resolved.refl id
    | addresses first _ => exact Resolved.setAddrIn hName _
  · rw [resolveDnsForHostId_of_not_hasName dns
      (by simpa using hName)]
    exact Resolved.refl id

end SmartSOCKSProxy
