import SmartSOCKSProxy.Core.DnsUtil
import SmartSOCKSProxy.Foundations.Numerals

/-
  What DNS resolution stores.

  The lookup is repeated while it is to be tried again.  Of
  the answer, only the first address is looked at.  When it is
  an IPv6 address, what is stored is what the stack held.

  Key definitions include:
    * `getaddrinfoLoop`, `resolveDnsRetrying`
    * `GaiReply.answers`
    * `StoresAnswers`, `AnswerUsable`

  Key theorems include:
    * `inetPton4_inetNtop6`
    * `resolveDnsForHostId_storesAnswers_iff`
-/

namespace SmartSOCKSProxy

------------------------------------------------------------
-- IPv6 Texts
------------------------------------------------------------

/- The separator is written between any two texts. -/
theorem mem_intercalate
    (t t' : Text)
    (ts : List Text) :
    58 ∈ ([58] : Text).intercalate (t :: t' :: ts) := by
  rw [List.intercalate_cons_cons]
  simp

/- There is always a colon. -/
theorem colon_mem_inetNtop6
    (addr : Vector UInt8 16) :
    58 ∈ inetNtop6 addr := by
  unfold inetNtop6
  dsimp only
  split
  · exact mem_intercalate _ _ _
  · split
    · simp
    · split <;> simp

/- No IPv6 text is a dotted quad. -/
theorem inetPton4_inetNtop6
    (addr : Vector UInt8 16) :
    inetPton4 (inetNtop6 addr) = none := by
  cases hQuad : inetPton4 (inetNtop6 addr) with
  | none => rfl
  | some ip =>
      rcases mem_of_inetPton4 hQuad
          (colon_mem_inetNtop6 addr) with hDot | hDigit
      · cases hDot
      · exact absurd hDigit Bool.false_ne_true

------------------------------------------------------------
-- Answers
------------------------------------------------------------

/- The addresses of a reply, none for a failure. -/
def GaiReply.answers : GaiReply → List NetAddr
  | .failure _ => []
  | .addresses first rest => first :: rest

/-
  What resolution should do: a success stores one of the IPv4
  addresses that were answered and nothing else; without any,
  there is no success and nothing is stored.
-/
structure StoresAnswers
    (id : HostId)
    (out : Int × HostId × Resolver)
    (answers : List NetAddr) : Prop where
  success :
    out.1 = 1 →
      ∃ addr sinPort,
        NetAddr.v4 addr ∈ answers ∧
          out.2.1 = { id with addr := .inet sinPort addr }
  failure :
    (∀ addr, NetAddr.v4 addr ∉ answers) →
      out.1 = 0 ∧ out.2.1 = id

/-
  A lookup that succeeds has an answer that can be stored: the
  first one is an IPv4 address, or the stack happens to hold
  one of them, and the port is one that fits its field.
-/
def AnswerUsable
    (id : HostId)
    (reply : GaiReply)
    (stack : UInt32) : Prop :=
  id.hasName = true →
    ∀ first rest,
      reply = .addresses first rest →
        IsPort id.port ∧
          ((∃ addr, first = .v4 addr) ∨
            .v4 stack ∈ first :: rest)

/- What is stored for the first answer. -/
theorem resolveDnsForHostId_of_addresses
    {id : HostId}
    {dns : Resolver}
    {first : NetAddr}
    {rest : List NetAddr}
    (hName : id.hasName = true)
    (hReply :
      dns.reply dns.lookups id.name.text =
        .addresses first rest) :
    resolveDnsForHostId id dns =
      (1,
        id.setAddrIn (htons id.port)
          ((inetPton4 (numericHost first)).getD
            (dns.stack dns.lookups)),
        dns.next) := by
  unfold resolveDnsForHostId
  rw [if_pos hName, hReply]

theorem resolveDnsForHostId_of_failure
    {id : HostId}
    {dns : Resolver}
    {code : Int}
    (hReply :
      dns.reply dns.lookups id.name.text = .failure code) :
    (resolveDnsForHostId id dns).1 = 0 ∧
      (resolveDnsForHostId id dns).2.1 = id := by
  unfold resolveDnsForHostId
  rw [hReply]
  split <;> exact ⟨rfl, rfl⟩

/- The address that a resolution of a usable answer stores. -/
theorem stored_mem_iff
    (first : NetAddr)
    (rest : List NetAddr)
    (stack : UInt32) :
    .v4 ((inetPton4 (numericHost first)).getD stack) ∈
        first :: rest ↔
      (∃ addr, first = .v4 addr) ∨ .v4 stack ∈ first :: rest := by
  cases first with
  | v4 addr =>
      rw [numericHost, inetPton4_inetNtop4, Option.getD_some]
      exact iff_of_true List.mem_cons_self (.inl ⟨addr, rfl⟩)
  | v6 addr =>
      rw [numericHost, inetPton4_inetNtop6, Option.getD_none,
        or_iff_right]
      rintro ⟨ip, hSame⟩
      cases hSame

/- The whole identity, when the port fits its field. -/
theorem setAddrIn_eq_iff
    (id : HostId)
    (addr addr' : UInt32) :
    (∃ sinPort,
        id.setAddrIn (htons id.port) addr =
          { id with addr := .inet sinPort addr' }) ↔
      IsPort id.port ∧ addr = addr' := by
  unfold HostId.setAddrIn
  constructor
  · rintro ⟨sinPort, hSame⟩
    rw [HostId.mk.injEq, SockAddr.inet.injEq] at hSame
    refine ⟨?_, hSame.2.1.2⟩
    rw [← hSame.2.2]
    exact isPort_ntohs _
  · rintro ⟨hPort, rfl⟩
    refine ⟨htons id.port, ?_⟩
    rw [ntohs_htons_of_isPort hPort]

/- The answer to the lookup decides, when there is one. -/
theorem storesAnswers_iff_usable
    (id : HostId)
    (dns : Resolver) :
    StoresAnswers id (resolveDnsForHostId id dns)
        (dns.reply dns.lookups id.name.text).answers ↔
      AnswerUsable id (dns.reply dns.lookups id.name.text)
        (dns.stack dns.lookups) := by
  cases hName : id.hasName with
  | false =>
      have hNothing :=
        resolveDnsForHostId_of_not_hasName dns hName
      refine iff_of_true ⟨?_, ?_⟩ ?_
      · rw [hNothing]
        exact nofun
      · rw [hNothing]
        exact fun _ => ⟨rfl, rfl⟩
      · intro hHere
        rw [hName] at hHere
        cases hHere
  | true =>
      cases hReply : dns.reply dns.lookups id.name.text with
      | failure code =>
          rcases resolveDnsForHostId_of_failure hReply with
            ⟨hRc, hSame⟩
          refine iff_of_true ⟨?_, fun _ => ⟨hRc, hSame⟩⟩ ?_
          · rw [hRc]
            exact nofun
          · intro _ first rest hAddresses
            cases hAddresses
      | addresses first rest =>
          have hOut :=
            resolveDnsForHostId_of_addresses hName hReply
          have hStored := stored_mem_iff first rest
            (dns.stack dns.lookups)
          constructor
          · intro hStores _ first' rest' hSame
            cases hSame
            rcases hStores.success (by rw [hOut]) with
              ⟨addr, sinPort, hMem, hId⟩
            rw [hOut] at hId
            rcases (setAddrIn_eq_iff id _ addr).mp
                ⟨sinPort, hId⟩ with ⟨hPort, rfl⟩
            exact ⟨hPort, hStored.mp hMem⟩
          · intro hUsable
            rcases hUsable hName first rest rfl with
              ⟨hPort, hFirst⟩
            have hMem := hStored.mpr hFirst
            refine ⟨fun _ => ?_, fun hNone => ?_⟩
            · rw [hOut]
              rcases (setAddrIn_eq_iff id _ _).mpr
                  ⟨hPort, rfl⟩ with ⟨sinPort, hId⟩
              exact ⟨_, sinPort, hMem, hId⟩
            · exact absurd hMem (hNone _)

------------------------------------------------------------
-- The Retry Loop
------------------------------------------------------------

/- What one call of getaddrinfo() returns. -/
inductive GaiReturn where
| again
| reply (reply : GaiReply)
deriving DecidableEq

/-
  `do … while (result == EAI_AGAIN)`; nothing, as long as no
  call returned anything else.
-/
def getaddrinfoLoop : List GaiReturn → Option GaiReply
  | [] => none
  | .again :: returns => getaddrinfoLoop returns
  | .reply reply :: _ => some reply

/- The resolver, with the reply to the next lookup. -/
def Resolver.replying
    (dns : Resolver)
    (reply : GaiReply) : Resolver :=
  { dns with
    reply :=
      Function.update dns.reply dns.lookups fun _ => reply }

@[simp] theorem Resolver.lookups_replying
    (dns : Resolver)
    (reply : GaiReply) :
    (dns.replying reply).lookups = dns.lookups := rfl

@[simp] theorem Resolver.stack_replying
    (dns : Resolver)
    (reply : GaiReply) :
    (dns.replying reply).stack = dns.stack := rfl

@[simp] theorem Resolver.reply_replying
    (dns : Resolver)
    (reply : GaiReply)
    (name : Text) :
    (dns.replying reply).reply dns.lookups name = reply := by
  simp [Resolver.replying]

/- `resolve_dns_for_host_id()` with its loop. -/
def resolveDnsRetrying
    (id : HostId)
    (dns : Resolver)
    (returns : List GaiReturn) :
    Option (Int × HostId × Resolver) :=
  if id.hasName then
    (getaddrinfoLoop returns).map fun reply =>
      resolveDnsForHostId id (dns.replying reply)
  else some (0, id, dns)

/- The first reply ends the loop. -/
theorem getaddrinfoLoop_retries
    (retries : Nat)
    (reply : GaiReply)
    (later : List GaiReturn) :
    getaddrinfoLoop
        (List.replicate retries .again ++
          .reply reply :: later) =
      some reply := by
  induction retries with
  | zero => rfl
  | succ retries ih =>
      rw [List.replicate_succ, List.cons_append,
        getaddrinfoLoop]
      exact ih

theorem resolveDnsRetrying_retries
    (id : HostId)
    (dns : Resolver)
    (retries : Nat)
    (reply : GaiReply)
    (later : List GaiReturn) :
    ∃ dns', resolveDnsRetrying id dns
        (List.replicate retries .again ++
          .reply reply :: later) =
      some
        ((resolveDnsForHostId id (dns.replying reply)).1,
          (resolveDnsForHostId id (dns.replying reply)).2.1,
          dns') := by
  unfold resolveDnsRetrying
  cases hName : id.hasName with
  | false =>
      rw [resolveDnsForHostId_of_not_hasName _ hName]
      exact ⟨dns, rfl⟩
  | true =>
      rw [if_pos rfl, getaddrinfoLoop_retries]
      exact ⟨_, rfl⟩

/-
  However often the lookup is repeated, resolution does what
  it should when the answer it takes is usable, and only then.
-/
theorem resolveDnsForHostId_storesAnswers_iff
    (id : HostId)
    (dns : Resolver)
    (retries : Nat)
    (reply : GaiReply)
    (later : List GaiReturn) :
    ∃ out,
      resolveDnsRetrying id dns
          (List.replicate retries .again ++
            .reply reply :: later) = some out ∧
        (StoresAnswers id out reply.answers ↔
          AnswerUsable id reply (dns.stack dns.lookups)) := by
  rcases resolveDnsRetrying_retries id dns retries reply
      later with ⟨dns', hOut⟩
  refine ⟨_, hOut, ?_⟩
  have hUsable :=
    storesAnswers_iff_usable id (dns.replying reply)
  simp only [Resolver.lookups_replying,
    Resolver.stack_replying, Resolver.reply_replying]
    at hUsable
  rw [← hUsable]
  exact ⟨fun hStores => ⟨hStores.success, hStores.failure⟩,
    fun hStores => ⟨hStores.success, hStores.failure⟩⟩

/- `x`, for port 80. -/
def hostX : HostId where
  name := CBuf.copy [120]
  addr := .unspec
  port := 80

/- The stack of this resolver holds 127.0.0.1. -/
def ipv6Resolver : Resolver where
  reply := fun _ _ => .failure 8
  stack := fun _ => 0x7f000001
  lookups := 0

/- The only answer is `::1`. -/
def ipv6Reply : GaiReply :=
  .addresses
    (.v6 #v[0, 0, 0, 0, 0, 0, 0, 0, 0, 0, 0, 0, 0, 0, 0, 1])
    []

/- An address that nobody answered is stored. -/
theorem resolveDnsForHostId_ipv6First :
    ¬ ∀ out,
      resolveDnsRetrying hostX ipv6Resolver
          [.again, .reply ipv6Reply] = some out →
        StoresAnswers hostX out ipv6Reply.answers := by
  intro hStores
  have hNone :
      ∀ addr, NetAddr.v4 addr ∉ ipv6Reply.answers := by
    intro addr hMem
    cases List.mem_singleton.mp hMem
  have hOut :
      resolveDnsForHostId hostX
        (ipv6Resolver.replying ipv6Reply) = _ :=
    resolveDnsForHostId_of_addresses rfl rfl
  have hRc :
      (resolveDnsForHostId hostX
        (ipv6Resolver.replying ipv6Reply)).1 = 0 :=
    ((hStores _ rfl).failure hNone).1
  rw [hOut] at hRc
  cases hRc

end SmartSOCKSProxy
