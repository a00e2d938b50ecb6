import SmartSOCKSProxy.Socks.Encoding

/-
  Which replies of a tunnel's server are accepted.

  The client accepts the replies for IPv4 and IPv6 addresses,
  also when the stream ends before the reply does, and no
  reply for a domain name.

  Key definitions include:
    * `boundLength`
    * `CompleteDomainReply`, `TruncatedReply`

  Key theorems include:
    * `requestConnection_of_reliable`
    * `requestConnection_exact_iff`
-/

namespace SmartSOCKSProxy

------------------------------------------------------------
-- Steps on a Reliable Connection
------------------------------------------------------------

/- The choice of the method must be the first two bytes. -/
theorem sock5ClientNegotiateAuth_of_reliable
    {w : World}
    (buf : Buffer)
    (hReads : (w.source .server).Reliable)
    (hWrites : (w.sink .server).Reliable) :
    ∃ rc w', sock5ClientNegotiateAuth w buf = (rc, w') ∧
      (w'.source .server).Reliable ∧
      (w'.sink .server).Reliable ∧
      (rc = 1 ∧
          (w.source .server).pending =
            [5, 0] ++ (w'.source .server).pending ∨
        rc = 0 ∧ ∀ rest,
          (w.source .server).pending ≠ [5, 0] ++ rest) := by
  have hOffer :
      (buf.store 0 [5, 1, 0]).load 3 = [5, 1, 0] := rfl
  rcases World.sbWriteLen_of_reliable [5, 1, 0] hWrites with
    ⟨w₁, hWrite, hGiven⟩
  have hPending₁ :
      (w₁.source .server).pending =
        (w.source .server).pending :=
    hGiven.pending.symm
  have hReads₁ := hGiven.source_reliable hReads
  rcases World.sbReadLen_of_reliable 2 hReads₁ with
    ⟨rc, w₂, hRead, hNonneg, _, hLeft, hTaken⟩
  rw [hPending₁] at hRead hLeft
  have hRun :
      sock5ClientNegotiateAuth w buf =
        if (buf.store 0 [5, 1, 0]).store 0
              ((w.source .server).pending.take 2) 0 ≠ 5 ∨
            (buf.store 0 [5, 1, 0]).store 0
              ((w.source .server).pending.take 2) 1 ≠ 0
        then (0, w₂) else (1, w₂) := by
    unfold sock5ClientNegotiateAuth
    simp only [hOffer, hWrite, hRead]
    rw [if_neg (by omega), if_neg (by omega)]
  have hReads₂ := hTaken.source_reliable hReads₁
  have hWrites₂ :=
    hTaken.sink_reliable (hGiven.sink_reliable hWrites)
  match hPending : (w.source .server).pending with
  | [] =>
      rw [hPending] at hRun
      exact ⟨0, w₂, hRun, hReads₂, hWrites₂,
        Or.inr ⟨rfl, by simp⟩⟩
  | [a] =>
      rw [hPending] at hRun
      refine ⟨0, w₂, ?_, hReads₂, hWrites₂,
        Or.inr ⟨rfl, by simp⟩⟩
      rw [hRun]
      apply if_pos
      right
      -- The second byte is the one of the offer.
      exact (by decide : (1 : UInt8) ≠ 0)
  | a :: b :: rest =>
      rw [hPending] at hRun hLeft
      by_cases hChoice : a = 5 ∧ b = 0
      · rcases hChoice with ⟨rfl, rfl⟩
        refine ⟨1, w₂, hRun, hReads₂, hWrites₂,
          Or.inl ⟨rfl, ?_⟩⟩
        rw [hLeft]
        rfl
      · refine ⟨0, w₂, ?_, hReads₂, hWrites₂,
          Or.inr ⟨rfl, ?_⟩⟩
        · rw [hRun]
          apply if_pos
          change a ≠ 5 ∨ b ≠ 0
          tauto
        · intro rest' hEq
          simp only [List.cons_append, List.nil_append,
            List.cons.injEq] at hEq
          exact hChoice ⟨hEq.1, hEq.2.1⟩

/- The address lengths that the client knows how to skip. -/
def boundLength
    (addrType : UInt8) : Option Nat :=
  if addrType = 1 then some 4
  else if addrType = 4 then some 16
  else none

/- Skipping an address leaves the head of the reply alone. -/
theorem readBoundAddress_of_reliable
    {w : World}
    (addrType : UInt8)
    (buf : Buffer)
    (hReads : (w.source .server).Reliable) :
    (∃ len buf' idx w',
      boundLength addrType = some len ∧
      readBoundAddress addrType w buf =
        (some (buf', idx), w') ∧
      4 ≤ idx ∧
      (∀ i < 4, buf' i = buf i) ∧
      (w'.source .server).Reliable ∧
      (w'.source .server).pending =
        (w.source .server).pending.drop len) ∨
    ∃ w', boundLength addrType = none ∧
      readBoundAddress addrType w buf = (none, w') := by
  unfold readBoundAddress boundLength
  by_cases hIpv4 : addrType = 1
  · left
    rcases World.sbReadLen_of_reliable 4 hReads with
      ⟨rc, w', hRead, hNonneg, _, hLeft, hTaken⟩
    simp only [hIpv4, if_true, hRead]
    rw [if_neg (by omega)]
    exact ⟨4, _, 8, w', rfl, rfl, by omega,
      fun i hi => Buffer.store_of_lt buf _ hi,
      hTaken.source_reliable hReads, hLeft⟩
  by_cases hIpv6 : addrType = 4
  · left
    rcases World.sbReadLen_of_reliable 16 hReads with
      ⟨rc, w', hRead, hNonneg, _, hLeft, hTaken⟩
    rw [if_neg hIpv4, if_pos hIpv6, if_neg hIpv4,
      if_pos hIpv6]
    simp only [hRead]
    rw [if_neg (by omega)]
    exact ⟨16, _, 20, w', rfl, rfl, by omega,
      fun i hi => Buffer.store_of_lt buf _ hi,
      hTaken.source_reliable hReads, hLeft⟩
  · right
    exact ⟨w, by simp [hIpv4, hIpv6],
      by simp [hIpv4, hIpv6]⟩

/-
  What follows the head is skipped as far as it is there, and
  whatever the status is; a stream that ends too early goes
  unnoticed.
-/
theorem readReplyTail_of_bound
    {w : World}
    {buf : Buffer}
    {len : Nat}
    (hReads : (w.source .server).Reliable)
    (hLength : boundLength (buf 3) = some len) :
    ∃ w',
      readReplyTail w buf =
        (if buf 1 = 0 then 1 else 0, w') ∧
      (w'.source .server).pending =
        (w.source .server).pending.drop (len + 2) := by
  unfold readReplyTail
  rcases readBoundAddress_of_reliable (buf 3) buf hReads
    with ⟨len', buf₂, idx, w₂, hLength', hBound, hIdx, hSame,
      hReads₂, hLeft₂⟩ | ⟨w₂, hNone, hBound⟩
  · cases hLength.symm.trans hLength'
    rcases World.sbReadLen_of_reliable 2 hReads₂ with
      ⟨rc, w₃, hPort, hNonneg, _, hLeft₃, _⟩
    have hStatus :
        ∀ data, buf₂.store idx data 1 = buf 1 := by
      intro data
      rw [Buffer.store_of_lt buf₂ data (by omega),
        hSame 1 (by omega)]
    have hLeft :
        (w₃.source .server).pending =
          (w.source .server).pending.drop (len + 2) := by
      rw [hLeft₃, hLeft₂, List.drop_drop]
    simp only [hBound, hPort, hStatus]
    rw [if_neg (by omega)]
    by_cases hGranted : buf 1 = 0
    · rw [if_neg (not_not.mpr hGranted), if_pos hGranted]
      exact ⟨w₃, rfl, hLeft⟩
    · rw [if_pos hGranted, if_neg hGranted]
      exact ⟨w₃, rfl, hLeft⟩
  · cases hNone.symm.trans hLength

theorem readReplyTail_of_reliable
    {w : World}
    (buf : Buffer)
    (hReads : (w.source .server).Reliable) :
    ∃ rc w', readReplyTail w buf = (rc, w') ∧
      ((rc = 1 ∧ buf 1 = 0 ∧
          ∃ len, boundLength (buf 3) = some len ∧
            (w'.source .server).pending =
              (w.source .server).pending.drop (len + 2)) ∨
        (rc = 0 ∧
          (buf 1 = 0 → boundLength (buf 3) = none))) := by
  cases hLength : boundLength (buf 3) with
  | some len =>
      rcases readReplyTail_of_bound hReads hLength with
        ⟨w', hTail, hLeft⟩
      by_cases hGranted : buf 1 = 0
      · rw [if_pos hGranted] at hTail
        exact ⟨1, w', hTail, Or.inl ⟨rfl, hGranted, len, rfl,
          hLeft⟩⟩
      · rw [if_neg hGranted] at hTail
        exact ⟨0, w', hTail, Or.inr ⟨rfl,
          fun hZero => absurd hZero hGranted⟩⟩
  | none =>
      unfold readReplyTail
      rcases readBoundAddress_of_reliable (buf 3) buf hReads
        with ⟨len, _, _, _, hSome, _⟩ | ⟨w₂, _, hBound⟩
      · cases hLength.symm.trans hSome
      · simp only [hBound]
        exact ⟨0, w₂, rfl, Or.inr ⟨rfl, fun _ => trivial⟩⟩

/- A reply is accepted for its first four bytes alone. -/
theorem socks5ClientGetCommandResponse_of_reliable
    {w : World}
    (con : ClientConnection)
    (buf : Buffer)
    (failureType : Int)
    (hReads : (w.source .server).Reliable) :
    ∃ rc con' w' failureType',
      socks5ClientGetCommandResponse con w buf failureType =
        (rc, con', w', failureType') ∧
      ((rc = 1 ∧ ∃ rsv addrType len rest,
          (w.source .server).pending =
            [5, 0, rsv, addrType] ++ rest ∧
          boundLength addrType = some len ∧
          (w'.source .server).pending =
            rest.drop (len + 2)) ∨
        (rc = 0 ∧ ∀ rsv addrType rest,
          (w.source .server).pending =
            [5, 0, rsv, addrType] ++ rest →
          boundLength addrType = none)) := by
  rcases World.sbReadLen_of_reliable 4 hReads with
    ⟨rc, w₁, hRead, hNonneg, hFull, hLeft, hTaken⟩
  have hReads₁ := hTaken.source_reliable hReads
  unfold socks5ClientGetCommandResponse
  simp only [hRead]
  by_cases hShort : rc ≠ 4
  · rw [if_pos hShort]
    refine ⟨_, _, _, _, rfl, Or.inr ⟨rfl, ?_⟩⟩
    intro rsv addrType rest hPending
    apply absurd (hFull.mpr ?_) hShort
    rw [hPending]
    simp
  rw [if_neg hShort]
  have hEnough := hFull.mp (not_not.mp hShort)
  match hPending : (w.source .server).pending with
  | [] => simp [hPending] at hEnough
  | [_] => simp [hPending] at hEnough
  | [_, _] => simp [hPending] at hEnough
  | [_, _, _] => simp [hPending] at hEnough
  | a :: b :: rsv :: addrType :: rest =>
      have hHead :
          (a :: b :: rsv :: addrType :: rest).take 4 =
            [a, b, rsv, addrType] := rfl
      have hRest :
          (w₁.source .server).pending = rest := by
        rw [hLeft, hPending]
        rfl
      let buf₁ := buf.store 0 [a, b, rsv, addrType]
      have hBuf :
          buf₁ 0 = a ∧ buf₁ 1 = b ∧ buf₁ 3 = addrType :=
        ⟨rfl, rfl, rfl⟩
      rcases readReplyTail_of_reliable buf₁ hReads₁ with
        ⟨ok, w₂, hTail, hOutcome⟩
      rw [hRest, hBuf.2.1, hBuf.2.2] at hOutcome
      simp only [hHead, hTail, hBuf.1, buf₁]
      by_cases hVersion : a ≠ 5
      · rw [if_pos hVersion]
        refine ⟨_, _, _, _, rfl, Or.inr ⟨rfl, ?_⟩⟩
        intro rsv' addrType' rest' hEq
        simp only [List.cons_append, List.nil_append,
          List.cons.injEq] at hEq
        exact absurd hEq.1 hVersion
      · rw [if_neg hVersion]
        refine ⟨ok, con, w₂, _, rfl, ?_⟩
        rw [not_not] at hVersion
        rcases hOutcome with
          ⟨hOk, hStatus, len, hLength, hLeft₂⟩ |
          ⟨hOk, hNone⟩
        · subst hVersion hStatus
          exact Or.inl ⟨hOk, rsv, addrType, len, rest, rfl,
            hLength, hLeft₂⟩
        · refine Or.inr ⟨hOk, ?_⟩
          intro rsv' addrType' rest' hEq
          simp only [List.cons_append, List.nil_append,
            List.cons.injEq] at hEq
          rcases hEq with ⟨_, hZero, _, rfl, _⟩
          exact hNone hZero

/- A server is asked in vain, or a reply's head is there. -/
theorem requestConnection_of_reliable
    {con : ClientConnection}
    {w : World}
    (hType :
      con.socksAddressType = socks5AddrTypeIpv4 ∨
        con.socksAddressType = socks5AddrTypeDomain ∨
        con.socksAddressType = socks5AddrTypeIpv6)
    (buf : Buffer)
    (failureType : Int)
    (hReads : (w.source .server).Reliable)
    (hWrites : (w.sink .server).Reliable) :
    ∃ rc con' w' failureType',
      requestConnection con w buf failureType =
        (rc, con', w', failureType') ∧
      ((rc = 1 ∧ ∃ rsv addrType len rest,
          (w.source .server).pending =
            [5, 0, 5, 0, rsv, addrType] ++ rest ∧
          boundLength addrType = some len ∧
          (w'.source .server).pending =
            rest.drop (len + 2)) ∨
        (rc = 0 ∧ ∀ rsv addrType rest,
          (w.source .server).pending =
            [5, 0, 5, 0, rsv, addrType] ++ rest →
          boundLength addrType = none)) := by
  unfold requestConnection
  rcases sock5ClientNegotiateAuth_of_reliable buf hReads
      hWrites with
    ⟨ok, w₁, hAuth, hReads₁, hWrites₁,
      ⟨rfl, hPending₁⟩ | ⟨rfl, hOther⟩⟩
  · rcases commandMessage_isSome hType buf with
      ⟨message, hMessage⟩
    rcases socks5ClientSendCommand_exchange hMessage w₁ with
      ⟨sent, put, w₂, hSend, hGiven, _, _, hDone⟩
    have hSent : sent = 1 := hDone hWrites₁
    subst hSent
    rcases socks5ClientGetCommandResponse_of_reliable con
        buf failureType (hGiven.source_reliable hReads₁)
      with ⟨rc, con', w', failureType', hReply, hOutcome⟩
    have hSame :
        (w₂.source .server).pending =
          (w₁.source .server).pending :=
      hGiven.pending.symm
    rw [hSame] at hOutcome
    refine ⟨rc, con', w', failureType', ?_, ?_⟩
    · simp [hAuth, hSend, hReply]
    · rcases hOutcome with
        ⟨hRc, rsv, addrType, len, rest, hHead, hRest⟩ |
        ⟨hRc, hNone⟩
      · refine Or.inl
          ⟨hRc, rsv, addrType, len, rest, ?_, hRest⟩
        rw [hPending₁, hHead]
        rfl
      · refine Or.inr ⟨hRc, fun rsv addrType rest hHead => ?_⟩
        apply hNone rsv addrType rest
        rw [hPending₁] at hHead
        exact List.append_cancel_left hHead
  · refine ⟨0, con, w₁, failureType, ?_,
      Or.inr ⟨rfl, ?_⟩⟩
    · simp [hAuth]
    · intro rsv addrType rest hHead
      exact absurd hHead
        (hOther ([5, 0, rsv, addrType] ++ rest))

------------------------------------------------------------
-- Complete and Truncated Replies
------------------------------------------------------------

/- The stream begins with a reply for a domain name. -/
def CompleteDomainReply
    (stream : List UInt8) : Prop :=
  ∃ (r : ServerReply) (rest : List UInt8),
    (∃ name hFits, r.bound = .domain name hFits) ∧
      stream = r.wire ++ rest

/-
  The stream ends within the address or the port of a reply
  for an IPv4 or an IPv6 address.
-/
def TruncatedReply
    (stream : List UInt8) : Prop :=
  ∃ (rsv addrType : UInt8) (rest : List UInt8),
    stream = [5, 0, 5, 0, rsv, addrType] ++ rest ∧
      (addrType = 1 ∧ rest.length < 4 + 2 ∨
        addrType = 4 ∧ rest.length < 16 + 2)

theorem boundLength_eq_some_iff
    (addrType : UInt8)
    (len : Nat) :
    boundLength addrType = some len ↔
      addrType = 1 ∧ len = 4 ∨ addrType = 4 ∧ len = 16 := by
  unfold boundLength
  by_cases hIpv4 : addrType = 1
  · simp [hIpv4, eq_comm]
  · by_cases hIpv6 : addrType = 4
    · simp [hIpv6, eq_comm]
    · simp [hIpv4, hIpv6]

/- A reply that is not for a name has a head of known type. -/
theorem ServerReply.head
    (r : ServerReply) :
    (∃ name hFits, r.bound = .domain name hFits) ∨
      ∃ addrType len body,
        boundLength addrType = some len ∧
          body.length = len + 2 ∧
          r.wire = [5, 0, 5, 0, r.rsv, addrType] ++ body := by
  rcases hBound : r.bound with
    ⟨addr, hLength⟩ | ⟨name, hFits⟩ | ⟨addr, hLength⟩
  · right
    refine ⟨1, 4, addr ++ [r.portHi, r.portLo], rfl, ?_, ?_⟩
    · simp [hLength]
    · simp [wire, hBound, BoundAddr.wire]
  · exact Or.inl ⟨name, hFits, rfl⟩
  · right
    refine ⟨4, 16, addr ++ [r.portHi, r.portLo], rfl, ?_, ?_⟩
    · simp [hLength]
    · simp [wire, hBound, BoundAddr.wire]

/- A head of known type with enough behind it is a reply. -/
theorem ServerReply.of_head
    (rsv : UInt8)
    {addrType : UInt8}
    {len : Nat}
    {rest : List UInt8}
    (hLength : boundLength addrType = some len)
    (hEnough : len + 2 ≤ rest.length) :
    ∃ r : ServerReply,
      [5, 0, 5, 0, rsv, addrType] ++ rest =
        r.wire ++ rest.drop (len + 2) := by
  have hAddr : (rest.take len).length = len :=
    List.length_take_of_le (by omega)
  have hHi : len < rest.length := by omega
  have hLo : len + 1 < rest.length := by omega
  have hSplit :
      rest =
        rest.take len ++ [rest[len], rest[len + 1]] ++
          rest.drop (len + 2) := by
    conv_lhs =>
      rw [← List.take_append_drop len rest,
        List.drop_eq_getElem_cons (by omega),
        List.drop_eq_getElem_cons (by omega)]
    simp
  rcases (boundLength_eq_some_iff addrType len).mp hLength
    with ⟨rfl, rfl⟩ | ⟨rfl, rfl⟩
  · refine ⟨⟨rsv, .ipv4 (rest.take 4) hAddr,
      rest[4], rest[4 + 1]⟩, ?_⟩
    conv_lhs => rw [hSplit]
    simp [wire, BoundAddr.wire]
  · refine ⟨⟨rsv, .ipv6 (rest.take 16) hAddr,
      rest[16], rest[16 + 1]⟩, ?_⟩
    conv_lhs => rw [hSplit]
    simp [wire, BoundAddr.wire]

/- A known head decides how long its reply is. -/
theorem ServerReply.eq_of_head
    {rsv addrType : UInt8}
    {len : Nat}
    {rest : List UInt8}
    (hLength : boundLength addrType = some len)
    {r : ServerReply}
    {rest' : List UInt8}
    (hEq :
      [5, 0, 5, 0, rsv, addrType] ++ rest =
        r.wire ++ rest') :
    len + 2 ≤ rest.length ∧ rest.drop (len + 2) = rest' := by
  rcases r.head with
    ⟨name, hFits, hBound⟩ |
    ⟨addrType', len', body, hLength', hBody, hWire⟩
  · simp only [wire, hBound, BoundAddr.wire,
      List.cons_append, List.nil_append, List.cons.injEq,
      true_and] at hEq
    rw [hEq.2.1] at hLength
    simp [boundLength] at hLength
  · rw [hWire] at hEq
    simp only [List.cons_append, List.nil_append,
      List.cons.injEq, true_and] at hEq
    rcases hEq with ⟨_, rfl, rfl⟩
    have hSame : len' = len :=
      Option.some.inj (hLength'.symm.trans hLength)
    rw [← hSame, ← hBody]
    simp

/- A reply that is not for a name has a known head. -/
theorem ServerReply.head_of_stream
    {stream : List UInt8}
    (hDomain : ¬ CompleteDomainReply stream)
    {r : ServerReply}
    {rest : List UInt8}
    (hStream : stream = r.wire ++ rest) :
    ∃ rsv addrType len rest',
      stream = [5, 0, 5, 0, rsv, addrType] ++ rest' ∧
        boundLength addrType = some len := by
  rcases r.head with
    hName | ⟨addrType, len, body, hLength, _, hWire⟩
  · exact absurd ⟨r, rest, hName, hStream⟩ hDomain
  · refine ⟨r.rsv, addrType, len, body ++ rest, ?_, hLength⟩
    rw [hStream, hWire, List.append_assoc]

/-
  A granted request is what the grammar says, and its reply
  is consumed exactly, if and only if the stream begins
  neither with a reply for a domain name nor with a truncated
  reply.
-/
theorem requestConnection_exact_iff
    (con : ClientConnection)
    (w : World)
    (buf : Buffer)
    (failureType : Int)
    (hType :
      con.socksAddressType = socks5AddrTypeIpv4 ∨
        con.socksAddressType = socks5AddrTypeDomain ∨
        con.socksAddressType = socks5AddrTypeIpv6)
    (hReads : (w.source .server).Reliable)
    (hWrites : (w.sink .server).Reliable) :
    (((requestConnection con w buf failureType).1 = 1 ↔
        ∃ (r : ServerReply) (rest : List UInt8),
          (w.source .server).pending = r.wire ++ rest) ∧
      ∀ (r : ServerReply) (rest : List UInt8),
        (w.source .server).pending = r.wire ++ rest →
          ((requestConnection con w buf
            failureType).2.2.1.source .server).pending =
              rest) ↔
      ¬ CompleteDomainReply (w.source .server).pending ∧
        ¬ TruncatedReply (w.source .server).pending := by
  rcases requestConnection_of_reliable hType buf failureType
      hReads hWrites with
    ⟨rc, con', w', failureType', hRun, hOutcome⟩
  rw [hRun]
  dsimp only
  rcases hOutcome with
    ⟨rfl, rsv, addrType, len, rest, hHead, hLength, hLeft⟩ |
    ⟨rfl, hNone⟩
  · -- The head alone was accepted, whatever follows it.
    rw [hHead, hLeft]
    constructor
    · rintro ⟨hAccepts, hExact⟩
      rcases hAccepts.mp rfl with ⟨r, rest₁, hReply⟩
      have hEnough :=
        (ServerReply.eq_of_head hLength hReply).1
      constructor
      · rintro ⟨r', rest₂, ⟨name, hFits, hBound⟩, hDomain⟩
        simp only [ServerReply.wire, hBound,
          BoundAddr.wire, List.cons_append,
          List.nil_append, List.cons.injEq,
          true_and] at hDomain
        rw [hDomain.2.1] at hLength
        simp [boundLength] at hLength
      · rintro ⟨rsv', addrType', rest₂, hShort, hCases⟩
        simp only [List.cons_append, List.nil_append,
          List.cons.injEq, true_and] at hShort
        rcases hShort with ⟨_, rfl, rfl⟩
        rcases (boundLength_eq_some_iff _ _).mp hLength with
          ⟨rfl, rfl⟩ | ⟨rfl, rfl⟩
        · rcases hCases with ⟨_, hLess⟩ | ⟨hType', _⟩
          · omega
          · exact absurd hType' (by decide)
        · rcases hCases with ⟨hType', _⟩ | ⟨_, hLess⟩
          · exact absurd hType' (by decide)
          · omega
    · rintro ⟨_, hTruncated⟩
      have hEnough : len + 2 ≤ rest.length := by
        by_contra hLess
        apply hTruncated
        refine ⟨rsv, addrType, rest, rfl, ?_⟩
        rcases (boundLength_eq_some_iff _ _).mp hLength with
          ⟨rfl, rfl⟩ | ⟨rfl, rfl⟩
        · exact Or.inl ⟨rfl, by omega⟩
        · exact Or.inr ⟨rfl, by omega⟩
      rcases ServerReply.of_head rsv hLength hEnough with
        ⟨r, hReply⟩
      refine ⟨⟨fun _ => ⟨r, _, hReply⟩, fun _ => rfl⟩, ?_⟩
      intro r' rest' hReply'
      exact (ServerReply.eq_of_head hLength hReply').2
  · -- Without a known head the code has refused.
    constructor
    · rintro ⟨hAccepts, _⟩
      constructor
      · rintro ⟨r, rest, _, hReply⟩
        exact absurd (hAccepts.mpr ⟨r, rest, hReply⟩)
          (by decide)
      · rintro ⟨rsv, addrType, rest, hHead, hCases⟩
        have hUnknown := hNone rsv addrType rest hHead
        rcases hCases with ⟨rfl, _⟩ | ⟨rfl, _⟩
        · exact absurd hUnknown (by decide)
        · exact absurd hUnknown (by decide)
    · rintro ⟨hDomain, _⟩
      have hNoReply :
          ∀ (r : ServerReply) (rest : List UInt8),
            (w.source .server).pending ≠ r.wire ++ rest := by
        intro r rest hReply
        rcases ServerReply.head_of_stream hDomain hReply
          with ⟨rsv, addrType, len, rest', hHead, hLength⟩
        rw [hNone rsv addrType rest' hHead] at hLength
        contradiction
      refine ⟨⟨fun hOne => absurd hOne (by decide), ?_⟩, ?_⟩
      · rintro ⟨r, rest, hReply⟩
        exact absurd hReply (hNoReply r rest)
      · intro r rest hReply
        exact absurd hReply (hNoReply r rest)

------------------------------------------------------------
-- Streams That Are Misjudged
------------------------------------------------------------

/- A fresh connection to a tunnel's server. -/
def serverSends
    (stream : List UInt8) : World :=
  { (default : World) with
    socks := fun _ => ⟨⟨stream, []⟩, ⟨[]⟩⟩ }

/- A request for a host name. -/
def nameRequest : ClientConnection :=
  { (default : ClientConnection) with
    socksCommand := 1
    socksAddressType := socks5AddrTypeDomain }

/- A reply that breaks off after its head is accepted. -/
theorem requestConnection_truncated :
    ¬ ∀ con w buf failureType,
      (con.socksAddressType = socks5AddrTypeIpv4 ∨
        con.socksAddressType = socks5AddrTypeDomain ∨
        con.socksAddressType = socks5AddrTypeIpv6) →
      (w.source .server).Reliable →
      (w.sink .server).Reliable →
      ((requestConnection con w buf failureType).1 = 1 ↔
          ∃ (r : ServerReply) (rest : List UInt8),
            (w.source .server).pending =
              r.wire ++ rest) ∧
        ∀ (r : ServerReply) (rest : List UInt8),
          (w.source .server).pending = r.wire ++ rest →
            ((requestConnection con w buf
              failureType).2.2.1.source .server).pending =
                rest := by
  intro hClaim
  have hBoth := hClaim nameRequest
    (serverSends [5, 0, 5, 0, 0, 1]) (fun _ => 0) 1
    (by decide) (by decide) (by decide)
  rcases hBoth.1.mp (by decide) with ⟨r, rest, hReply⟩
  have hPending :
      ((serverSends [5, 0, 5, 0, 0, 1]).source
        .server).pending = [5, 0, 5, 0, 0, 1] ++ [] := rfl
  rw [hPending] at hReply
  have hLength : boundLength 1 = some 4 := rfl
  have hEnough := ServerReply.eq_of_head hLength hReply
  exact absurd hEnough.1 (by decide)

/- The judgement of a complete reply for an IPv4 address. -/
theorem requestConnection_exact_ipv4 :
    let w := serverSends
      [5, 0, 5, 0, 0, 1, 127, 0, 0, 1, 0, 80, 71]
    (((requestConnection nameRequest w (fun _ => 0) 1).1 = 1 ↔
        ∃ (r : ServerReply) (rest : List UInt8),
          (w.source .server).pending = r.wire ++ rest) ∧
      ∀ (r : ServerReply) (rest : List UInt8),
        (w.source .server).pending = r.wire ++ rest →
          ((requestConnection nameRequest w (fun _ => 0)
            1).2.2.1.source .server).pending = rest) ↔
      ¬ CompleteDomainReply (w.source .server).pending ∧
        ¬ TruncatedReply (w.source .server).pending := by
  intro w
  exact requestConnection_exact_iff nameRequest w
    (fun _ => 0) 1 (by decide) (by decide) (by decide)

end SmartSOCKSProxy
