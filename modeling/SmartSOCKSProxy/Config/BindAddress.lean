import SmartSOCKSProxy.Config.SpecParsers
import SmartSOCKSProxy.Foundations.Words

/-
  The bind address of a specification, which may be left out.

  What a parser does with a missing address is what it does
  with the default.  The services of two runs can only differ
  in the last byte of a field, which is that of the block.

  Key definitions include:
    * `AddressOptional`
    * `HttpFieldsFit`, `PortForwardFieldsFit`

  Key theorems include:
    * `rel_iff_of_rel`
    * `bindAddressOptional_iff`
    * `bindAddressOptional_longHost`
-/

namespace SmartSOCKSProxy

------------------------------------------------------------
-- Equal Services
------------------------------------------------------------

/- The fields of two services agree. -/
structure ServiceMem.Same
    (m m' : ServiceMem) : Prop where
  id : m.id = m'.id
  type : m.type = m'.type
  bindAddress :
    fieldText 300 m.bindAddress = fieldText 300 m'.bindAddress
  port : m.port = m'.port
  fd : m.fd = m'.fd

structure ServiceSocksMem.Same
    (m m' : ServiceSocksMem) : Prop where
  srv : m.srv.Same m'.srv

structure ServiceHttpMem.Same
    (m m' : ServiceHttpMem) : Prop where
  srv : m.srv.Same m'.srv
  baseDir :
    fieldText 4096 m.baseDir = fieldText 4096 m'.baseDir

structure ServicePortForwardMem.Same
    (m m' : ServicePortForwardMem) : Prop where
  srv : m.srv.Same m'.srv
  remoteHost :
    fieldText 300 m.remoteHost = fieldText 300 m'.remoteHost
  remotePort : m.remotePort = m'.remotePort

/-
  Without an address and with the default, a specification is
  rejected, or it gives services with the same fields.  The
  two runs start in the same state, and malloc() gives each
  its block.
-/
def AddressOptional
    {σ : Type}
    (Same : σ → σ → Prop)
    (parse : UInt64 → Bool → σ → Text → Option σ)
    (strIn : Text)
    (block block' : σ) : Prop :=
  ∀ serviceIdPool strdup,
    Option.Rel Same
      (parse serviceIdPool strdup block strIn)
      (parse serviceIdPool strdup block'
        (withDefaultAddress strIn))

/-
  Two results that represent one are related, unless there is
  a result and its representations are not.
-/
theorem rel_iff_of_rel
    {α γ : Type}
    {R R' : α → γ → Prop}
    {S : α → α → Prop}
    {P : Prop}
    {a b : Option α}
    {c : Option γ}
    (hLeft : Option.Rel R a c)
    (hRight : Option.Rel R' b c)
    (hBoth : ∀ x y z, c = some z → R x z → R' y z →
      (S x y ↔ P)) :
    Option.Rel S a b ↔ (c.isSome → P) := by
  cases hLeft with
  | none =>
      cases hRight
      simp
  | some hLeft =>
      cases hRight with
      | some hRight =>
          simp [hBoth _ _ _ rfl hLeft hRight]

/- The same, for a parser and its service. -/
theorem addressOptional_of_represents
    {σ : Type}
    {Same : σ → σ → Prop}
    {Represents : σ → σ → Service → Prop}
    {parse : UInt64 → Bool → σ → Text → Option σ}
    {parsed : UInt64 → Option Service}
    {strIn : Text}
    {accepted fits : Prop}
    {block block' : σ}
    (hParse : ∀ serviceIdPool strdup block,
      Option.Rel (Represents block)
        (parse serviceIdPool strdup block strIn)
        (if strdup then parsed serviceIdPool else none))
    (hDefault : ∀ serviceIdPool strdup block,
      parse serviceIdPool strdup block
          (withDefaultAddress strIn) =
        parse serviceIdPool strdup block strIn)
    (hAccepted : ∀ serviceIdPool,
      (parsed serviceIdPool).isSome ↔ accepted)
    (hSame : ∀ {serviceIdPool srv m m'},
      parsed serviceIdPool = some srv →
        Represents block m srv → Represents block' m' srv →
          (Same m m' ↔ fits)) :
    AddressOptional Same parse strIn block block' ↔
      (accepted → fits) := by
  have hRuns : ∀ serviceIdPool strdup,
      Option.Rel Same
          (parse serviceIdPool strdup block strIn)
          (parse serviceIdPool strdup block'
            (withDefaultAddress strIn)) ↔
        (strdup = true ∧ accepted → fits) := by
    intro serviceIdPool strdup
    rw [hDefault]
    cases strdup with
    | false =>
        have hNone :=
          rel_iff_of_rel (S := Same) (P := fits)
            (hParse serviceIdPool false block)
            (hParse serviceIdPool false block') nofun
        simpa using hNone
    | true =>
        rw [rel_iff_of_rel
          (hParse serviceIdPool true block)
          (hParse serviceIdPool true block')
          (fun _ _ _ hSrv => hSame hSrv)]
        simp [hAccepted]
  constructor
  · intro hOptional hSome
    exact (hRuns 0 true).mp (hOptional 0 true) ⟨rfl, hSome⟩
  · intro hFits serviceIdPool strdup
    exact (hRuns serviceIdPool strdup).mpr
      (fun hBoth => hFits hBoth.2)

/- Services whose address is the default. -/
theorem ServiceMem.Represents.same
    {block block' m m' : ServiceMem}
    {type : ServiceType}
    {srv : Service}
    (hHere : block.Represents type m srv)
    (hThere : block'.Represents type m' srv)
    (hAddress :
      srv.bindAddress = CBuf.copy defaultBindAddress) :
    m.Same m' where
  id := hHere.id.trans hThere.id.symm
  type := hHere.type.trans hThere.type.symm
  bindAddress :=
    (hHere.bindAddress.fieldText_eq_iff
      hThere.bindAddress).mpr
        (.inl (by rw [hAddress]; decide))
  port := hHere.port.trans hThere.port.symm
  fd := hHere.fd.trans hThere.fd.symm

------------------------------------------------------------
-- Tokens
------------------------------------------------------------

theorem zero_not_mem_specToken
    {strIn : Text}
    (hString : (0 : UInt8) ∉ strIn)
    (parts i : Nat) :
    (0 : UInt8) ∉ specToken parts strIn i := by
  have hPieces :
      ∀ token ∈ strIn.splitOn 58, (0 : UInt8) ∉ token := by
    intro token hToken hZero
    rw [List.splitOn_eq_splitOnP] at hToken
    exact hString (mem_splitOnP hToken 0 hZero).1
  have hTokens :
      ∀ token ∈ specTokens parts strIn,
        (0 : UInt8) ∉ token := by
    unfold specTokens
    split
    · rw [List.forall_mem_cons]
      exact ⟨by decide, hPieces⟩
    · exact hPieces
  unfold specToken
  rw [List.getD_eq_getElem?_getD]
  cases hToken : (specTokens parts strIn)[i]? with
  | none => simp
  | some token =>
      exact hTokens token (List.mem_of_getElem? hToken)

/- A missing address is the default one. -/
theorem specToken_zero
    {parts : Nat}
    {strIn : Text}
    (hParts : strIn.count 58 + 2 = parts) :
    specToken parts strIn 0 = defaultBindAddress := by
  rw [specToken, specTokens, if_pos hParts]
  rfl

theorem length_specTokens_of_missing
    {parts : Nat}
    {strIn : Text}
    (hParts : strIn.count 58 + 2 = parts) :
    (specTokens parts strIn).length = parts := by
  rw [length_specTokens, if_pos hParts]

/- A copy has room behind it exactly when its source has. -/
theorem length_copy_lt_iff
    (size : Nat)
    {token : Text}
    (hString : (0 : UInt8) ∉ token) :
    (CBuf.copy token : CBuf size).text.length < size - 1 ↔
      token.length < size - 1 := by
  rw [CBuf.text_copy, Text.cstr_eq_self hString,
    List.length_take]
  omega

------------------------------------------------------------
-- Optional Addresses
------------------------------------------------------------

/-
  If the port is accepted, the base directory has room for a
  terminator, or the blocks agree on the byte in its place.
-/
def HttpFieldsFit
    (strIn : Text)
    (block block' : ServiceHttpMem) : Prop :=
  (specToken 3 strIn 1).StartsInteger →
    (specToken 3 strIn 2).length < 4095 ∨
      block.baseDir 4095 = block'.baseDir 4095

/- The same, for the ports and the remote host. -/
def PortForwardFieldsFit
    (strIn : Text)
    (block block' : ServicePortForwardMem) : Prop :=
  (specToken 4 strIn 1).StartsInteger ∧
      (specToken 4 strIn 3).StartsInteger →
    (specToken 4 strIn 2).length < 299 ∨
      block.remoteHost 299 = block'.remoteHost 299

theorem socksAddressOptional
    {strIn : Text}
    (hParts : strIn.count 58 + 1 = 1)
    (block block' : ServiceSocksMem) :
    AddressOptional ServiceSocksMem.Same
      parseServiceSocksSpecWith strIn block block' := by
  have hMissing : strIn.count 58 + 2 = 2 := by omega
  have hService : ∀ serviceIdPool,
      socksService strIn serviceIdPool =
        (Text.scanInt (specToken 2 strIn 1)).map fun port =>
          ⟨serviceIdPool + 2, .socks,
            CBuf.copy defaultBindAddress, port⟩ := by
    intro serviceIdPool
    rw [socksService, parseServiceSocksSpec_eq,
      if_pos (length_specTokens_of_missing hMissing),
      specToken_zero hMissing, Option.map_map]
    rfl
  have hIff :
      AddressOptional ServiceSocksMem.Same
          parseServiceSocksSpecWith strIn block block' ↔
        ((specToken 2 strIn 1).StartsInteger → True) := by
    apply addressOptional_of_represents
      (parseServiceSocksSpecWith_represents · · strIn)
      (parseServiceSocksSpecWith_withDefaultAddress · · hParts)
    · intro serviceIdPool
      rw [hService, Option.isSome_map,
        Text.isSome_scanInt_iff]
    · intro serviceIdPool srv m m' hSrv hHere hThere
      rw [hService] at hSrv
      rcases Option.map_eq_some_iff.mp hSrv with ⟨port, -, rfl⟩
      exact iff_true_intro ⟨hHere.1.same hThere.1 rfl⟩
  exact hIff.mpr fun _ => trivial

theorem httpAddressOptional_iff
    {strIn : Text}
    (hString : (0 : UInt8) ∉ strIn)
    (hParts : strIn.count 58 + 1 = 2)
    (block block' : ServiceHttpMem) :
    AddressOptional ServiceHttpMem.Same
        parseServiceHttpSpecWith strIn block block' ↔
      HttpFieldsFit strIn block block' := by
  have hMissing : strIn.count 58 + 2 = 3 := by omega
  have hService : ∀ serviceIdPool,
      httpService strIn serviceIdPool =
        (Text.scanInt (specToken 3 strIn 1)).map fun port =>
          ⟨serviceIdPool + 1,
            .http (CBuf.copy (specToken 3 strIn 2)),
            CBuf.copy defaultBindAddress, port⟩ := by
    intro serviceIdPool
    rw [httpService, parseServiceHttpSpec_eq,
      if_pos (length_specTokens_of_missing hMissing),
      specToken_zero hMissing, Option.map_map]
    rfl
  have hLength :=
    length_copy_lt_iff 4096
      (zero_not_mem_specToken hString 3 2)
  apply addressOptional_of_represents
    (parseServiceHttpSpecWith_represents · · strIn)
    (parseServiceHttpSpecWith_withDefaultAddress · · hParts)
  · intro serviceIdPool
    rw [hService, Option.isSome_map,
      Text.isSome_scanInt_iff]
  · intro serviceIdPool srv m m' hSrv
    rintro ⟨hHere, baseDir, hKind, hFilled⟩
      ⟨hThere, baseDir', hKind', hFilled'⟩
    rw [hService] at hSrv
    rcases Option.map_eq_some_iff.mp hSrv with ⟨port, -, rfl⟩
    cases hKind
    cases hKind'
    have hBaseDir := hFilled.fieldText_eq_iff hFilled'
    rw [hLength] at hBaseDir
    rw [← hBaseDir]
    exact ⟨fun hSame => hSame.baseDir,
      fun hSame => ⟨hHere.same hThere rfl, hSame⟩⟩

theorem portForwardAddressOptional_iff
    {strIn : Text}
    (hString : (0 : UInt8) ∉ strIn)
    (hParts : strIn.count 58 + 1 = 3)
    (block block' : ServicePortForwardMem) :
    AddressOptional ServicePortForwardMem.Same
        parseServicePortForwardSpecWith strIn block block' ↔
      PortForwardFieldsFit strIn block block' := by
  have hMissing : strIn.count 58 + 2 = 4 := by omega
  have hService : ∀ serviceIdPool,
      portForwardService strIn serviceIdPool =
        (Text.scanInt (specToken 4 strIn 1)).bind fun port =>
          (Text.scanInt (specToken 4 strIn 3)).map
            fun remotePort =>
              ⟨serviceIdPool + 1,
                .portForward
                  (CBuf.copy (specToken 4 strIn 2))
                  remotePort,
                CBuf.copy defaultBindAddress, port⟩ := by
    intro serviceIdPool
    rw [portForwardService, parseServicePortForwardSpec_eq,
      if_pos (length_specTokens_of_missing hMissing),
      specToken_zero hMissing]
    cases Text.scanInt (specToken 4 strIn 1) <;>
      cases Text.scanInt (specToken 4 strIn 3) <;> rfl
  have hLength :=
    length_copy_lt_iff 300
      (zero_not_mem_specToken hString 4 2)
  apply addressOptional_of_represents
    (parseServicePortForwardSpecWith_represents · · strIn)
    (parseServicePortForwardSpecWith_withDefaultAddress · ·
      hParts)
  · intro serviceIdPool
    rw [hService, ← Text.isSome_scanInt_iff,
      ← Text.isSome_scanInt_iff]
    cases Text.scanInt (specToken 4 strIn 1) <;>
      cases Text.scanInt (specToken 4 strIn 3) <;> simp
  · intro serviceIdPool srv m m' hSrv
    rintro ⟨hHere, remoteHost, hKind, hFilled⟩
      ⟨hThere, remoteHost', hKind', hFilled'⟩
    rw [hService] at hSrv
    rcases Option.bind_eq_some_iff.mp hSrv with
      ⟨port, -, hSrv⟩
    rcases Option.map_eq_some_iff.mp hSrv with
      ⟨remotePort, -, rfl⟩
    cases hKind
    injection hKind' with hHost hPort
    subst hHost
    have hHost := hFilled.fieldText_eq_iff hFilled'
    rw [hLength] at hHost
    rw [← hHost]
    exact ⟨fun hSame => hSame.remoteHost,
      fun hSame => ⟨hHere.same hThere rfl, hSame, hPort⟩⟩

/-
  The address of a SOCKS server may always be left out, and
  that of the others exactly when a port is rejected, or the
  text behind the port leaves room for its terminator, or both
  runs find the same byte there.
-/
theorem bindAddressOptional_iff
    {strIn : Text}
    (hString : (0 : UInt8) ∉ strIn) :
    (stringCountCharInstances strIn 58 + 1 = 1 →
      ∀ block block',
        AddressOptional ServiceSocksMem.Same
          parseServiceSocksSpecWith strIn block block') ∧
      (stringCountCharInstances strIn 58 + 1 = 2 →
        ∀ block block',
          (AddressOptional ServiceHttpMem.Same
              parseServiceHttpSpecWith strIn block block' ↔
            HttpFieldsFit strIn block block')) ∧
        (stringCountCharInstances strIn 58 + 1 = 3 →
          ∀ block block',
            (AddressOptional ServicePortForwardMem.Same
                parseServicePortForwardSpecWith strIn block
                  block' ↔
              PortForwardFieldsFit strIn block block')) := by
  rw [stringCountCharInstances_eq]
  exact ⟨socksAddressOptional, httpAddressOptional_iff hString,
    portForwardAddressOptional_iff hString⟩

/- Short fields of all three services. -/
theorem bindAddressOptional_short :
    (∀ block block',
      AddressOptional ServiceSocksMem.Same
        parseServiceSocksSpecWith
        (Text.ascii "1080".toList) block block') ∧
      (∀ block block',
        AddressOptional ServiceHttpMem.Same
          parseServiceHttpSpecWith
          (Text.ascii "80:/www".toList) block block') ∧
        ∀ block block',
          AddressOptional ServicePortForwardMem.Same
            parseServicePortForwardSpecWith
            (Text.ascii "80:host:22".toList) block
              block' := by
  refine ⟨(bindAddressOptional_iff ?_).1 ?_,
    fun block block' =>
      ((bindAddressOptional_iff ?_).2.1 ?_ block block').mpr
        fun _ => .inl ?_,
    fun block block' =>
      ((bindAddressOptional_iff ?_).2.2 ?_ block block').mpr
        fun _ => .inl ?_⟩
  all_goals decide

------------------------------------------------------------
-- A Long Host
------------------------------------------------------------

def longHost : Text :=
  List.replicate 299 97

theorem not_mem_longHost
    {b : UInt8}
    (hOther : b ≠ 97) :
    b ∉ longHost :=
  fun hMem => hOther (List.eq_of_mem_replicate hMem)

/- A port forward to this host. -/
def longHostSpec : Text :=
  [49] ++ 58 :: (longHost ++ 58 :: [49])

theorem splitOn_longHostSpec :
    longHostSpec.splitOn 58 = [[49], longHost, [49]] := by
  rw [longHostSpec,
    List.splitOn_append_cons_self_of_not_mem (by decide),
    List.splitOn_append_cons_self_of_not_mem
      (not_mem_longHost (by decide))]
  rfl

/- A block that is filled with one byte. -/
def blockOf
    (b : UInt8) : ServicePortForwardMem where
  srv := ⟨0, .none, fun _ => b, 0, 0⟩
  remoteHost := fun _ => b
  remotePort := 0

/- The host ends with the byte that malloc() left there. -/
theorem bindAddressOptional_longHost :
    ¬ ∀ strIn : Text, (0 : UInt8) ∉ strIn →
      (stringCountCharInstances strIn 58 + 1 = 1 →
        ∀ block block',
          AddressOptional ServiceSocksMem.Same
            parseServiceSocksSpecWith strIn block block') ∧
        (stringCountCharInstances strIn 58 + 1 = 2 →
          ∀ block block',
            AddressOptional ServiceHttpMem.Same
              parseServiceHttpSpecWith strIn block block') ∧
          (stringCountCharInstances strIn 58 + 1 = 3 →
            ∀ block block',
              AddressOptional ServicePortForwardMem.Same
                parseServicePortForwardSpecWith strIn block
                  block') := by
  intro hAll
  have hString : (0 : UInt8) ∉ longHostSpec := by
    simp [longHostSpec, not_mem_longHost]
  have hCount : longHostSpec.count 58 + 1 = 3 := by
    rw [← length_splitOn, splitOn_longHostSpec]
    rfl
  have hParts :
      stringCountCharInstances longHostSpec 58 + 1 = 3 := by
    rw [stringCountCharInstances_eq, hCount]
  have hTokens :
      specTokens 4 longHostSpec =
        [defaultBindAddress, [49], longHost, [49]] := by
    rw [specTokens, if_pos (by omega), splitOn_longHostSpec]
  have hFits :=
    (portForwardAddressOptional_iff hString hCount _ _).mp
      ((hAll longHostSpec hString).2.2 hParts (blockOf 0)
        (blockOf 98))
  have hPort : Text.StartsInteger [49] :=
    (Text.isSome_scanInt_iff [49]).mp (by decide)
  unfold PortForwardFieldsFit specToken at hFits
  rw [hTokens] at hFits
  rcases hFits ⟨hPort, hPort⟩ with hShort | hByte
  · have hLength : longHost.length < 299 := hShort
    rw [longHost, List.length_replicate] at hLength
    exact absurd hLength (Nat.lt_irrefl 299)
  · exact absurd hByte (by decide)

end SmartSOCKSProxy
