import SmartSOCKSProxy.Socks.Handshake
import SmartSOCKSProxy.Socks.Wire

/-
  The handshake reads exactly the requests of the grammar.

  Whatever a client sends and however it is split into reads,
  an accepted handshake has taken one request from the stream
  and noted it; and every request is accepted.

  Key definitions include:
    * `Records`

  Key theorems include:
    * `handshake_sound`, `handshake_complete`
    * `handshake_exact`
-/

namespace SmartSOCKSProxy

------------------------------------------------------------
-- Recorded Requests
------------------------------------------------------------

/- The connection holds a command and its originals. -/
structure Records
    (con : ClientConnection)
    (version : Int)
    (c : Command) : Prop where
  version : con.socksVersion = version
  command : con.socksCommand = c.cmd.toNat
  addressType :
    con.socksAddressType = c.target.addressType.toNat
  dstHost : con.dstHost = c.target.hostId c.port
  commandOriginal :
    con.socksCommandOriginal = con.socksCommand
  addressTypeOriginal :
    con.socksAddressTypeOriginal = con.socksAddressType
  dstHostOriginal : con.dstHostOriginal = con.dstHost

theorem recordRequest_records
    (con : ClientConnection)
    (version : Int)
    (c : Command) :
    Records
      (recordRequest con version c.cmd.toNat
        c.target.addressType.toNat
        (c.target.hostId c.port))
      version c :=
  ⟨rfl, rfl, rfl, rfl, rfl, rfl, rfl⟩

/- A host identity without a name and an address. -/
def HostId.Blank
    (d : HostId) : Prop :=
  d.name = CBuf.empty ∧ d.addr = .unspec

theorem setAddrIn_of_blank
    {d : HostId}
    (hBlank : d.Blank)
    (a b c e : UInt8)
    (port : Int) :
    d.setAddrInFromByteArray [a, b, c, e] port =
      (Target.ipv4 a b c e).hostId port := by
  simp [HostId.setAddrInFromByteArray, Target.hostId,
    hBlank.1]

theorem setName_of_blank
    {d : HostId}
    (hBlank : d.Blank)
    (name : List UInt8)
    (hFits : name.length ≤ 255)
    (port : Int) :
    (d.setName name).setPort port =
      (Target.domain name hFits).hostId port := by
  simp [HostId.setName, HostId.setPort, Target.hostId,
    hBlank.2]

------------------------------------------------------------
-- Soundness
------------------------------------------------------------

/- A byte is known by the int that it is stored in. -/
theorem byte_of_int_eq
    {a b : UInt8}
    (hEq : (a.toNat : Int) = b.toNat) :
    a = b :=
  UInt8.toNat_inj.mp (by exact_mod_cast hEq)

/- A read of one byte. -/
theorem expect_one
    {w w' : World}
    {peer : Peer}
    {buf : List UInt8}
    (hExpect : w.expect peer 1 = (some buf, w')) :
    ∃ b, buf = [b] ∧ Exchange peer w [b] [] w' := by
  rcases World.expect_some hExpect with
    ⟨hLength, hExchange⟩
  rcases List.length_eq_one_iff.mp hLength with ⟨b, rfl⟩
  exact ⟨b, rfl, hExchange⟩

/- A read of two bytes. -/
theorem expect_two
    {w w' : World}
    {peer : Peer}
    {buf : List UInt8}
    (hExpect : w.expect peer 2 = (some buf, w')) :
    ∃ a b, buf = [a, b] ∧ Exchange peer w [a, b] [] w' := by
  rcases World.expect_some hExpect with
    ⟨hLength, hExchange⟩
  rcases List.length_eq_two.mp hLength with ⟨a, b, rfl⟩
  exact ⟨a, b, rfl, hExchange⟩

/- A read of four bytes. -/
theorem expect_four
    {w w' : World}
    {peer : Peer}
    {buf : List UInt8}
    (hExpect : w.expect peer 4 = (some buf, w')) :
    ∃ a b c d, buf = [a, b, c, d] ∧
      Exchange peer w [a, b, c, d] [] w' := by
  rcases World.expect_some hExpect with
    ⟨hLength, hExchange⟩
  match buf, hLength with
  | [a, b, c, d], _ => exact ⟨a, b, c, d, rfl, hExchange⟩

theorem socksGetClientVersion_sound
    {w w' : World}
    {version : Int}
    (hRun : socksGetClientVersion w = (version, w'))
    (hOkay : version ≠ socksVersionError) :
    ∃ b : UInt8, (b = 4 ∨ b = 5) ∧ version = b.toNat ∧
      Exchange .client w [b] [] w' := by
  unfold socksGetClientVersion at hRun
  rcases hRead : w.expect .client 1 with ⟨_ | buf, w₁⟩
  · rw [hRead] at hRun
    cases hRun
    exact absurd rfl hOkay
  · rcases expect_one hRead with ⟨b, rfl, hExchange⟩
    rw [hRead] at hRun
    simp only [List.getD_cons_zero] at hRun
    split at hRun
    · cases hRun
      exact absurd rfl hOkay
    · rename_i hKnown
      cases hRun
      refine ⟨b, ?_, rfl, hExchange⟩
      by_contra hNeither
      apply hKnown
      rw [not_or] at hNeither
      constructor
      · intro hFour
        exact hNeither.1 (UInt8.toNat_inj.mp hFour)
      · intro hFive
        exact hNeither.2 (UInt8.toNat_inj.mp hFive)

theorem socksAuthError_ne :
    socksAuthError ≠ socks5AuthNoneRequired := by
  decide

theorem socks5NegotiateAuth_sound
    {w w' : World}
    (hRun :
      socks5NegotiateAuth w =
        (socks5AuthNoneRequired, w')) :
    ∃ methods : List UInt8, methods.length ≤ 255 ∧
      Exchange .client w
        (UInt8.ofNat methods.length :: methods) [5, 0]
        w' := by
  unfold socks5NegotiateAuth at hRun
  rcases hRead : w.expect .client 1 with ⟨_ | buf, w₁⟩
  · rw [hRead] at hRun
    exact absurd (congrArg Prod.fst hRun) socksAuthError_ne
  rcases expect_one hRead with ⟨n, rfl, hCount⟩
  rw [hRead] at hRun
  simp only [List.getD_cons_zero] at hRun
  rcases hMethods : w₁.expect .client n.toNat with
    ⟨_ | methods, w₂⟩
  · rw [hMethods] at hRun
    exact absurd (congrArg Prod.fst hRun) socksAuthError_ne
  rcases World.expect_some hMethods with ⟨hLength, hTaken⟩
  rw [hMethods] at hRun
  rcases w₂.sbWriteLen_exchange .client [5, 0] with
    ⟨rc, put, w₃, hWrite, hGiven, hDone⟩
  simp only [hWrite] at hRun
  split at hRun
  · exact absurd (congrArg Prod.fst hRun) socksAuthError_ne
  · rename_i hRc
    have hPut : put = [5, 0] := by
      rcases hDone with ⟨hPut, _⟩ | ⟨_, hFail, _⟩
      · exact hPut
      · omega
    cases hRun
    refine ⟨methods, ?_, ?_⟩
    · have hLt := n.toNat_lt
      omega
    · have hAll := (hCount.trans hTaken).trans hGiven
      have hByte : UInt8.ofNat methods.length = n := by
        rw [hLength, UInt8.ofNat_toNat]
      rw [hByte]
      simpa [hPut] using hAll

theorem skipUserid_sound
    {max : Nat}
    {w w' : World}
    (hRun : skipUserid max w = (true, w')) :
    ∃ userid : List UInt8, (0 : UInt8) ∉ userid ∧
      userid.length < max ∧
      Exchange .client w (userid ++ [0]) [] w' := by
  induction max generalizing w with
  | zero => simp [skipUserid] at hRun
  | succ max ih =>
      rw [skipUserid] at hRun
      rcases hRead : w.expect .client 1 with ⟨_ | buf, w₁⟩
      · simp [hRead] at hRun
      · rcases expect_one hRead with ⟨b, rfl, hByte⟩
        simp only [hRead, List.getD_cons_zero] at hRun
        by_cases hZero : b = 0
        · simp only [hZero, if_true, Prod.mk.injEq,
            true_and] at hRun
          subst hRun hZero
          exact ⟨[], by simp, by simp, hByte⟩
        · simp only [hZero, if_false] at hRun
          rcases ih hRun with
            ⟨userid, hNoNul, hLength, hRest⟩
          refine ⟨b :: userid, ?_, ?_, ?_⟩
          · simp [hNoNul, Ne.symm hZero]
          · simpa using hLength
          · exact hByte.trans hRest

theorem socks4GetCommand_sound
    {con con' : ClientConnection}
    {w w' : World}
    {commandType : Int}
    (hBlank : con.dstHost.Blank)
    (hRun :
      socks4GetCommand con w = (commandType, con', w'))
    (hOkay : commandType ≠ socks5CmdError) :
    ∃ portHi portLo a b c d userid hNoNul hFits,
      Records con' 4
        (ClientRequest.v4 portHi portLo a b c d userid
          hNoNul hFits).command ∧
      Exchange .client w
        ([1, portHi, portLo, a, b, c, d] ++ userid ++ [0])
        [] w' := by
  unfold socks4GetCommand at hRun
  rcases hRead : w.expect .client 1 with ⟨_ | buf, w₁⟩
  · rw [hRead] at hRun
    cases hRun
    exact absurd rfl hOkay
  rcases expect_one hRead with ⟨cmd, rfl, hCommand⟩
  rw [hRead] at hRun
  simp only [List.getD_cons_zero] at hRun
  split at hRun
  · cases hRun
    exact absurd rfl hOkay
  rename_i hConnect
  rw [not_not] at hConnect
  have hOne : cmd = 1 := byte_of_int_eq (b := 1) hConnect
  subst hOne
  rcases hPort : w₁.expect .client 2 with ⟨_ | buf, w₂⟩
  · rw [hPort] at hRun
    cases hRun
    exact absurd rfl hOkay
  rcases expect_two hPort with ⟨hi, lo, rfl, hPortBytes⟩
  rw [hPort] at hRun
  simp only [List.getD_cons_zero,
    List.getD_cons_succ] at hRun
  rcases hAddr : w₂.expect .client 4 with ⟨_ | buf, w₃⟩
  · rw [hAddr] at hRun
    cases hRun
    exact absurd rfl hOkay
  rcases expect_four hAddr with
    ⟨a, b, c, d, rfl, hAddrBytes⟩
  rw [hAddr] at hRun
  dsimp only at hRun
  rcases hSkip : skipUserid 1000 w₃ with ⟨_ | _, w₄⟩
  · rw [hSkip] at hRun
    cases hRun
    exact absurd rfl hOkay
  rcases skipUserid_sound hSkip with
    ⟨userid, hNoNul, hLength, hUserid⟩
  rw [hSkip] at hRun
  cases hRun
  have hFits : userid.length ≤ 999 := by omega
  refine ⟨hi, lo, a, b, c, d, userid, hNoNul, hFits, ?_, ?_⟩
  · rw [setAddrIn_of_blank hBlank]
    exact recordRequest_records con 4
      (ClientRequest.v4 hi lo a b c d userid hNoNul
        hFits).command
  · have hAll := hCommand.trans
      (hPortBytes.trans (hAddrBytes.trans hUserid))
    simpa using hAll

/- The address of an accepted command. -/
theorem socks5GetAddress_sound
    {addressType : UInt8}
    {w w' : World}
    {addr : List UInt8}
    (hRun :
      socks5GetAddress addressType.toNat w =
        (some addr, w')) :
    ∃ target : Target,
      addressType = target.addressType ∧
      (∀ d : HostId, d.Blank → ∀ port,
        socks5SetAddress d addressType.toNat addr port =
          target.hostId port) ∧
      Exchange .client w target.wire.tail [] w' := by
  unfold socks5GetAddress at hRun
  split at hRun
  · rename_i hType
    rcases expect_four hRun with
      ⟨a, b, c, d, rfl, hExchange⟩
    refine ⟨.ipv4 a b c d, ?_, ?_, hExchange⟩
    · exact byte_of_int_eq (b := 1) hType
    · intro host hBlank port
      unfold socks5SetAddress
      rw [if_pos hType]
      exact setAddrIn_of_blank hBlank a b c d port
  rename_i hIpv4
  split at hRun
  · simp at hRun
  rename_i hIpv6
  split at hRun
  · rename_i hType
    rcases hRead : w.expect .client 1 with ⟨_ | buf, w₁⟩
    · simp [hRead] at hRun
    rcases expect_one hRead with ⟨n, rfl, hCount⟩
    rw [hRead] at hRun
    simp only [List.getD_cons_zero] at hRun
    rcases World.expect_some hRun with ⟨hLength, hName⟩
    have hFits : addr.length ≤ 255 := by
      have hLt := n.toNat_lt
      omega
    refine ⟨.domain addr hFits, ?_, ?_, ?_⟩
    · exact byte_of_int_eq (b := 3) hType
    · intro host hBlank port
      unfold socks5SetAddress
      rw [if_neg hIpv4, if_neg hIpv6, if_pos hType]
      exact setName_of_blank hBlank addr hFits port
    · have hByte : UInt8.ofNat addr.length = n := by
        rw [hLength, UInt8.ofNat_toNat]
      have hAll := hCount.trans hName
      simpa [Target.wire, hByte] using hAll
  · simp at hRun

theorem socks5GetCommand_sound
    {con con' : ClientConnection}
    {w w' : World}
    {commandType : Int}
    (hBlank : con.dstHost.Blank)
    (hRun :
      socks5GetCommand con w = (commandType, con', w'))
    (hOkay : commandType ≠ socks5CmdError) :
    ∃ c : Command, Records con' 5 c ∧
      Exchange .client w c.wire [] w' := by
  unfold socks5GetCommand at hRun
  rcases hRead : w.expect .client 4 with ⟨_ | buf, w₁⟩
  · rw [hRead] at hRun
    cases hRun
    exact absurd rfl hOkay
  rcases expect_four hRead with
    ⟨version, cmd, rsv, addressType, rfl, hHead⟩
  rw [hRead] at hRun
  simp only [List.getD_cons_zero,
    List.getD_cons_succ] at hRun
  split at hRun
  · cases hRun
    exact absurd rfl hOkay
  rename_i hVersion
  split at hRun
  · cases hRun
    exact absurd rfl hOkay
  rename_i hRsv
  rw [not_not] at hVersion
  have hFive : version = 5 :=
    byte_of_int_eq (b := 5) hVersion
  have hZero : rsv = 0 := by simpa using hRsv
  subst hFive hZero
  rcases hAddr : socks5GetAddress addressType.toNat w₁ with
    ⟨_ | addr, w₂⟩
  · rw [hAddr] at hRun
    cases hRun
    exact absurd rfl hOkay
  rcases socks5GetAddress_sound hAddr with
    ⟨target, rfl, hSet, hTarget⟩
  rw [hAddr] at hRun
  dsimp only at hRun
  rcases hPort : w₂.expect .client 2 with ⟨_ | buf, w₃⟩
  · rw [hPort] at hRun
    cases hRun
    exact absurd rfl hOkay
  rcases expect_two hPort with ⟨hi, lo, rfl, hPortBytes⟩
  rw [hPort] at hRun
  simp only [List.getD_cons_zero,
    List.getD_cons_succ] at hRun
  have hKnown :
      (cmd = 1 ∨ cmd = 2 ∨ cmd = 3) ∧
        con' =
          recordRequest con 5 cmd.toNat
            target.addressType.toNat
            (target.hostId (bePort hi lo)) ∧
        w' = w₃ := by
    rw [hSet con.dstHost hBlank] at hRun
    split at hRun
    · rename_i hCmd
      cases hRun
      exact ⟨Or.inl (byte_of_int_eq (b := 1) hCmd),
        rfl, rfl⟩
    split at hRun
    · rename_i hCmd
      cases hRun
      exact ⟨Or.inr (Or.inl (byte_of_int_eq (b := 2) hCmd)),
        rfl, rfl⟩
    split at hRun
    · rename_i hCmd
      cases hRun
      exact ⟨Or.inr (Or.inr (byte_of_int_eq (b := 3) hCmd)),
        rfl, rfl⟩
    · cases hRun
      exact absurd rfl hOkay
  rcases hKnown with ⟨hCmd, rfl, rfl⟩
  let c : Command := ⟨cmd, hCmd, target, hi, lo⟩
  refine ⟨c, recordRequest_records con 5 c, ?_⟩
  have hAll := hHead.trans (hTarget.trans hPortBytes)
  have hWire :
      c.wire =
        [5, cmd, 0, target.addressType] ++
          (target.wire.tail ++ [hi, lo]) := by
    cases target <;> simp [c, Command.wire, Target.wire,
      Target.addressType]
  rw [hWire]
  exact hAll

theorem handshake_of_v4
    {con con₂ : ClientConnection}
    {w w₁ w₂ : World}
    {commandType : Int}
    (hVersion : socksGetClientVersion w = (4, w₁))
    (hCommand :
      socks4GetCommand { con with socksVersion := 4 } w₁ =
        (commandType, con₂, w₂)) :
    handshake con w =
      (decide (commandType ≠ socks5CmdError), con₂, w₂) := by
  unfold handshake
  simp [hVersion, hCommand, socksVersionError]

theorem handshake_of_v5
    {con con₃ : ClientConnection}
    {w w₁ w₂ w₃ : World}
    {commandType : Int}
    (hVersion : socksGetClientVersion w = (5, w₁))
    (hAuth :
      socks5NegotiateAuth w₁ = (socks5AuthNoneRequired, w₂))
    (hCommand :
      socks5GetCommand { con with socksVersion := 5 } w₂ =
        (commandType, con₃, w₃)) :
    handshake con w =
      (decide (commandType ≠ socks5CmdError), con₃, w₃) := by
  unfold handshake
  simp [hVersion, hAuth, hCommand, socksVersionError]

/-
  An accepted handshake has taken one request of the grammar
  from the stream, answered it, and noted its command.
-/
theorem handshake_sound
    {con con' : ClientConnection}
    {w w' : World}
    (hBlank : con.dstHost.Blank)
    (hRun : handshake con w = (true, con', w')) :
    ∃ req : ClientRequest,
      Records con' req.version req.command ∧
      Exchange .client w req.wire req.authReply w' := by
  rcases hVersionRun : socksGetClientVersion w with
    ⟨version, w₁⟩
  have hVersion : version ≠ socksVersionError := by
    rintro rfl
    unfold handshake at hRun
    simp [hVersionRun] at hRun
  rcases socksGetClientVersion_sound hVersionRun hVersion
    with ⟨b, rfl | rfl, hByte, hFirst⟩
  · have hFour : version = 4 := hByte
    subst hFour
    rcases hCommand : socks4GetCommand
        { con with socksVersion := 4 } w₁ with
      ⟨commandType, con₂, w₂⟩
    rw [handshake_of_v4 hVersionRun hCommand] at hRun
    simp only [Prod.mk.injEq, decide_eq_true_eq] at hRun
    rcases hRun with ⟨hOkay, rfl, rfl⟩
    have hBlank₁ :
        HostId.Blank
          { con with socksVersion := 4 }.dstHost := hBlank
    rcases socks4GetCommand_sound hBlank₁ hCommand hOkay with
      ⟨hi, lo, a, b, c, d, userid, hNoNul, hFits,
        hRecords, hRest⟩
    refine ⟨.v4 hi lo a b c d userid hNoNul hFits,
      hRecords, ?_⟩
    exact hFirst.trans hRest
  · have hFive : version = 5 := hByte
    subst hFive
    rcases hAuthRun : socks5NegotiateAuth w₁ with
      ⟨authType, w₂⟩
    have hAuth : authType = socks5AuthNoneRequired := by
      by_contra hOther
      unfold handshake at hRun
      simp [hVersionRun, hAuthRun, hOther,
        socksVersionError] at hRun
    subst hAuth
    rcases socks5NegotiateAuth_sound hAuthRun with
      ⟨methods, hFits, hMethods⟩
    rcases hCommand : socks5GetCommand
        { con with socksVersion := 5 } w₂ with
      ⟨commandType, con₃, w₃⟩
    rw [handshake_of_v5 hVersionRun hAuthRun
      hCommand] at hRun
    simp only [Prod.mk.injEq, decide_eq_true_eq] at hRun
    rcases hRun with ⟨hOkay, rfl, rfl⟩
    have hBlank₁ :
        HostId.Blank
          { con with socksVersion := 5 }.dstHost := hBlank
    rcases socks5GetCommand_sound hBlank₁ hCommand hOkay with
      ⟨c, hRecords, hRest⟩
    refine ⟨.v5 methods hFits c, hRecords, ?_⟩
    have hAll := hFirst.trans (hMethods.trans hRest)
    simpa [ClientRequest.wire,
      ClientRequest.authReply] using hAll

------------------------------------------------------------
-- Completeness
------------------------------------------------------------

section Completeness

variable {con : ClientConnection}
variable {w : World}
variable {rest : List UInt8}

theorem socksGetClientVersion_complete
    {b : UInt8}
    (hReads : (w.source .client).Reliable)
    (hPending : (w.source .client).pending = [b] ++ rest)
    (hKnown : b = 4 ∨ b = 5) :
    ∃ w', socksGetClientVersion w = ((b.toNat : Int), w') ∧
      Exchange .client w [b] [] w' := by
  rcases World.expect_of_pending (n := 1) [b] hReads
      hPending rfl with
    ⟨w', hRead, hExchange⟩
  refine ⟨w', ?_, hExchange⟩
  unfold socksGetClientVersion
  rw [hRead]
  rcases hKnown with rfl | rfl <;> rfl

theorem socks5NegotiateAuth_complete
    {methods : List UInt8}
    (hReads : (w.source .client).Reliable)
    (hWrites : (w.sink .client).Reliable)
    (hFits : methods.length ≤ 255)
    (hPending :
      (w.source .client).pending =
        UInt8.ofNat methods.length :: methods ++ rest) :
    ∃ w',
      socks5NegotiateAuth w =
        (socks5AuthNoneRequired, w') ∧
      Exchange .client w
        (UInt8.ofNat methods.length :: methods) [5, 0]
        w' := by
  rcases World.expect_of_pending (n := 1)
      [UInt8.ofNat methods.length] hReads hPending rfl with
    ⟨w₁, hRead, hCount⟩
  have hPending₁ := hCount.pending_eq hPending
  rcases World.expect_of_pending methods
      (hCount.source_reliable hReads) hPending₁ rfl with
    ⟨w₂, hMethods, hTaken⟩
  rcases World.sbWriteLen_of_reliable [5, 0]
      (hTaken.sink_reliable
        (hCount.sink_reliable hWrites)) with
    ⟨w₃, hWrite, hGiven⟩
  have hByte :
      (UInt8.ofNat methods.length).toNat =
        methods.length := by
    rw [UInt8.toNat_ofNat']
    omega
  refine ⟨w₃, ?_, ?_⟩
  · unfold socks5NegotiateAuth
    simp only [hRead, List.getD_cons_zero, hByte,
      hMethods, hWrite]
    rfl
  · simpa using (hCount.trans hTaken).trans hGiven

theorem skipUserid_complete
    {max : Nat}
    {userid : List UInt8}
    (hReads : (w.source .client).Reliable)
    (hNoNul : (0 : UInt8) ∉ userid)
    (hFits : userid.length < max)
    (hPending :
      (w.source .client).pending =
        userid ++ [0] ++ rest) :
    ∃ w', skipUserid max w = (true, w') ∧
      Exchange .client w (userid ++ [0]) [] w' := by
  induction userid generalizing max w with
  | nil =>
      rcases World.expect_of_pending (n := 1) [0] hReads
          hPending rfl with
        ⟨w', hRead, hExchange⟩
      refine ⟨w', ?_, hExchange⟩
      cases max with
      | zero => omega
      | succ max => simp [skipUserid, hRead]
  | cons b userid ih =>
      rw [List.mem_cons, not_or] at hNoNul
      rcases World.expect_of_pending (n := 1) [b] hReads
          hPending rfl with
        ⟨w₁, hRead, hByte⟩
      have hPending₁ := hByte.pending_eq hPending
      cases max with
      | zero => omega
      | succ max =>
          have hFits₁ : userid.length < max := by
            simpa using hFits
          rcases ih (hByte.source_reliable hReads) hNoNul.2
              hFits₁ (by simpa using hPending₁) with
            ⟨w', hSkip, hRest⟩
          refine ⟨w', ?_, hByte.trans hRest⟩
          rw [skipUserid]
          simp [hRead, Ne.symm hNoNul.1, hSkip]

theorem socks4GetCommand_complete
    {hi lo a b c d : UInt8}
    {userid : List UInt8}
    (hBlank : con.dstHost.Blank)
    (hReads : (w.source .client).Reliable)
    (hNoNul : (0 : UInt8) ∉ userid)
    (hFits : userid.length ≤ 999)
    (hPending :
      (w.source .client).pending =
        [1, hi, lo, a, b, c, d] ++ userid ++ [0] ++ rest) :
    ∃ w',
      socks4GetCommand con w =
        (socks5CmdConnect,
          recordRequest con 4 1 1
            ((Target.ipv4 a b c d).hostId (bePort hi lo)),
          w') ∧
      Exchange .client w
        ([1, hi, lo, a, b, c, d] ++ userid ++ [0]) []
        w' := by
  rcases World.expect_of_pending (n := 1) [1] hReads
      hPending rfl with
    ⟨w₁, hCommand, hTaken₁⟩
  have hPending₁ := hTaken₁.pending_eq hPending
  have hReads₁ := hTaken₁.source_reliable hReads
  rcases World.expect_of_pending (n := 2) [hi, lo] hReads₁
      hPending₁ rfl with
    ⟨w₂, hPort, hTaken₂⟩
  have hPending₂ := hTaken₂.pending_eq hPending₁
  have hReads₂ := hTaken₂.source_reliable hReads₁
  rcases World.expect_of_pending (n := 4) [a, b, c, d]
      hReads₂ hPending₂ rfl with
    ⟨w₃, hAddr, hTaken₃⟩
  have hPending₃ := hTaken₃.pending_eq hPending₂
  have hReads₃ := hTaken₃.source_reliable hReads₂
  have hMax : userid.length < 1000 := by omega
  rcases skipUserid_complete hReads₃ hNoNul hMax
      hPending₃ with
    ⟨w₄, hSkip, hTaken₄⟩
  refine ⟨w₄, ?_, ?_⟩
  · unfold socks4GetCommand
    simp only [hCommand, hPort, hAddr, hSkip,
      List.getD_cons_zero, List.getD_cons_succ,
      setAddrIn_of_blank hBlank]
    rfl
  · have hAll := hTaken₁.trans
      (hTaken₂.trans (hTaken₃.trans hTaken₄))
    simpa using hAll

theorem socks5GetAddress_complete
    {target : Target}
    (hReads : (w.source .client).Reliable)
    (hPending :
      (w.source .client).pending =
        target.wire.tail ++ rest) :
    ∃ addr w',
      socks5GetAddress target.addressType.toNat w =
        (some addr, w') ∧
      (∀ d : HostId, d.Blank → ∀ port,
        socks5SetAddress d target.addressType.toNat addr
            port =
          target.hostId port) ∧
      Exchange .client w target.wire.tail [] w' := by
  cases target with
  | ipv4 a b c d =>
      rcases World.expect_of_pending (n := 4) [a, b, c, d]
          hReads hPending rfl with
        ⟨w', hRead, hTaken⟩
      exact ⟨_, w', hRead, fun host hBlank port =>
        setAddrIn_of_blank hBlank a b c d port, hTaken⟩
  | domain name hFits =>
      rcases World.expect_of_pending (n := 1)
          [UInt8.ofNat name.length] hReads hPending rfl with
        ⟨w₁, hRead, hTaken₁⟩
      have hPending₁ := hTaken₁.pending_eq hPending
      rcases World.expect_of_pending name
          (hTaken₁.source_reliable hReads) hPending₁ rfl
        with ⟨w₂, hName, hTaken₂⟩
      have hByte :
          (UInt8.ofNat name.length).toNat =
            name.length := by
        rw [UInt8.toNat_ofNat']
        omega
      refine ⟨name, w₂, ?_, fun host hBlank port =>
        setName_of_blank hBlank name hFits port,
        hTaken₁.trans hTaken₂⟩
      have hDomain :
          (Target.domain name hFits).addressType = 3 := rfl
      unfold socks5GetAddress
      rw [hDomain, if_neg (by decide), if_neg (by decide),
        if_pos (by decide), hRead]
      simpa [hByte] using hName

theorem socks5GetCommand_complete
    {c : Command}
    (hBlank : con.dstHost.Blank)
    (hReads : (w.source .client).Reliable)
    (hPending :
      (w.source .client).pending = c.wire ++ rest) :
    ∃ w',
      socks5GetCommand con w =
        ((c.cmd.toNat : Int),
          recordRequest con 5 c.cmd.toNat
            c.target.addressType.toNat
            (c.target.hostId c.port),
          w') ∧
      Exchange .client w c.wire [] w' := by
  have hWire :
      c.wire =
        [5, c.cmd, 0, c.target.addressType] ++
          (c.target.wire.tail ++ [c.portHi, c.portLo]) := by
    rcases c with ⟨_, _, target, _, _⟩
    cases target <;> rfl
  rw [hWire, List.append_assoc,
    List.append_assoc] at hPending
  rcases World.expect_of_pending (n := 4) _ hReads hPending
      rfl with
    ⟨w₁, hHead, hTaken₁⟩
  have hPending₁ := hTaken₁.pending_eq hPending
  have hReads₁ := hTaken₁.source_reliable hReads
  rcases socks5GetAddress_complete hReads₁ hPending₁ with
    ⟨addr, w₂, hAddr, hSet, hTaken₂⟩
  have hPending₂ := hTaken₂.pending_eq hPending₁
  have hReads₂ := hTaken₂.source_reliable hReads₁
  rcases World.expect_of_pending (n := 2) _ hReads₂
      hPending₂ rfl with
    ⟨w₃, hPort, hTaken₃⟩
  refine ⟨w₃, ?_, ?_⟩
  · unfold socks5GetCommand
    simp only [hHead, hAddr, hPort,
      List.getD_cons_zero, List.getD_cons_succ,
      hSet con.dstHost hBlank]
    rcases c.known with hCmd | hCmd | hCmd <;>
      rw [hCmd] <;> rfl
  · rw [hWire]
    exact hTaken₁.trans (hTaken₂.trans hTaken₃)

/- Every request of the grammar is accepted. -/
theorem handshake_complete
    {req : ClientRequest}
    (hBlank : con.dstHost.Blank)
    (hReads : (w.source .client).Reliable)
    (hWrites : (w.sink .client).Reliable)
    (hPending :
      (w.source .client).pending = req.wire ++ rest) :
    ∃ con' w', handshake con w = (true, con', w') ∧
      Records con' req.version req.command ∧
      Exchange .client w req.wire req.authReply w' := by
  cases req with
  | v4 hi lo a b c d userid hNoNul hFits =>
      rcases socksGetClientVersion_complete hReads
          hPending (Or.inl rfl) with
        ⟨w₁, hVersion, hTaken₁⟩
      have hPending₁ := hTaken₁.pending_eq hPending
      have hBlank₁ :
          HostId.Blank
            { con with socksVersion := 4 }.dstHost := hBlank
      rcases socks4GetCommand_complete hBlank₁
          (hTaken₁.source_reliable hReads) hNoNul hFits
          hPending₁ with
        ⟨w₂, hCommand, hTaken₂⟩
      exact ⟨_, w₂, handshake_of_v4 hVersion hCommand,
        recordRequest_records { con with socksVersion := 4 }
          4 (ClientRequest.v4 hi lo a b c d userid hNoNul
            hFits).command,
        hTaken₁.trans hTaken₂⟩
  | v5 methods hFits c =>
      have hSplit :
          (w.source .client).pending =
            [5] ++ (UInt8.ofNat methods.length :: methods ++
              (c.wire ++ rest)) := by
        simpa [ClientRequest.wire] using hPending
      rcases socksGetClientVersion_complete hReads hSplit
          (Or.inr rfl) with
        ⟨w₁, hVersion, hTaken₁⟩
      have hPending₁ := hTaken₁.pending_eq hSplit
      have hReads₁ := hTaken₁.source_reliable hReads
      rcases socks5NegotiateAuth_complete hReads₁
          (hTaken₁.sink_reliable hWrites) hFits
          hPending₁ with
        ⟨w₂, hAuth, hTaken₂⟩
      have hPending₂ := hTaken₂.pending_eq hPending₁
      have hBlank₁ :
          HostId.Blank
            { con with socksVersion := 5 }.dstHost := hBlank
      rcases socks5GetCommand_complete hBlank₁
          (hTaken₂.source_reliable hReads₁) hPending₂ with
        ⟨w₃, hCommand, hTaken₃⟩
      have hCmd :
          (c.cmd.toNat : Int) ≠ socks5CmdError := by
        rcases c.known with hCmd | hCmd | hCmd <;>
          rw [hCmd] <;> decide
      refine ⟨_, w₃, ?_,
        recordRequest_records { con with socksVersion := 5 }
          5 c,
        hTaken₁.trans (hTaken₂.trans hTaken₃)⟩
      rw [handshake_of_v5 hVersion hAuth hCommand]
      simp [hCmd]

end Completeness

------------------------------------------------------------
-- Exactness
------------------------------------------------------------

theorem resetRequest_blank
    (fdIn : Int)
    (junk : ClientConnection) :
    (resetRequest
      (newClientConnection fdIn junk)).dstHost.Blank :=
  ⟨rfl, rfl⟩

/-
  Whatever the client sends and however it is split into
  reads, the handshake of a new connection succeeds if and
  only if the stream begins with a request.  It then leaves
  exactly what follows the request, and has noted version,
  command, address type, destination and port.
-/
theorem handshake_exact
    (fdIn : Int)
    (junk : ClientConnection)
    (w : World)
    (hReads : (w.source .client).Reliable)
    (hWrites : (w.sink .client).Reliable) :
    let out := handshake
      (resetRequest (newClientConnection fdIn junk)) w
    (out.1 = true ↔
      ∃ (req : ClientRequest) (rest : List UInt8),
        (w.source .client).pending = req.wire ++ rest) ∧
    ∀ (req : ClientRequest) (rest : List UInt8),
      (w.source .client).pending = req.wire ++ rest →
        (out.2.2.source .client).pending = rest ∧
          Records out.2.1 req.version req.command := by
  intro out
  have hBlank := resetRequest_blank fdIn junk
  have hComplete :
      ∀ (req : ClientRequest) (rest : List UInt8),
        (w.source .client).pending = req.wire ++ rest →
          out.1 = true ∧
            (out.2.2.source .client).pending = rest ∧
            Records out.2.1 req.version req.command := by
    intro req rest hPending
    rcases handshake_complete hBlank hReads hWrites
        hPending with
      ⟨con', w', hRun, hRecords, hExchange⟩
    have hOut : out = (true, con', w') := hRun
    rw [hOut]
    exact ⟨rfl, hExchange.pending_eq hPending, hRecords⟩
  refine ⟨⟨?_, ?_⟩, fun req rest hPending =>
    (hComplete req rest hPending).2⟩
  · intro hAccepted
    have hRun :
        handshake (resetRequest
            (newClientConnection fdIn junk)) w =
          (true, out.2.1, out.2.2) :=
      Prod.ext hAccepted rfl
    rcases handshake_sound hBlank hRun with
      ⟨req, _, hExchange⟩
    exact ⟨req, _, hExchange.pending⟩
  · rintro ⟨req, rest, hPending⟩
    exact (hComplete req rest hPending).1

/- A version 4 request that arrives in pieces. -/
theorem handshake_exact_v4 :
    let w : World :=
      { (default : World) with
        socks := fun _ =>
          { source :=
              { pending :=
                  [4, 1, 0, 80, 127, 0, 0, 1, 97, 0, 71]
                reads :=
                  [.fail EINTR, .deliver 0, .deliver 0,
                    .deliver 0, .fail EINTR] }
            sink := ⟨[.accept 1]⟩ } }
    let out := handshake
      (resetRequest (newClientConnection 3 default)) w
    (out.1 = true ↔
      ∃ (req : ClientRequest) (rest : List UInt8),
        (w.source .client).pending = req.wire ++ rest) ∧
    ∀ (req : ClientRequest) (rest : List UInt8),
      (w.source .client).pending = req.wire ++ rest →
        (out.2.2.source .client).pending = rest ∧
          Records out.2.1 req.version req.command := by
  intro w
  exact handshake_exact 3 default w (by decide) (by decide)

end SmartSOCKSProxy
