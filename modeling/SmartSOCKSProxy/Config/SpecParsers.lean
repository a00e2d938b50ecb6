import SmartSOCKSProxy.Config.Services
import SmartSOCKSProxy.Core.HostIdMemory
import SmartSOCKSProxy.Foundations.Tokens

/-
  The parsers of specifications, in memory.

  A parser fills a service in the block that malloc() gave it,
  token by token.  A text that has no room for its terminator
  ends with a byte of that block.

  Key definitions include:
    * `ServiceMem`, `newService`
    * `parseSpec`, `parseServiceSocksSpecWith`
    * `parseServiceHttpSpecWith`
    * `parseServicePortForwardSpecWith`
    * `withDefaultAddress`
    * `Filled`, `fieldText`

  Key theorems include:
    * `parseSpec_eq`, `parseSpec_withDefaultAddress`
    * `filled_copyField`, `Filled.fieldText_eq_iff`
    * `parseServiceSocksSpecWith_represents`
    * `parseServiceHttpSpecWith_represents`
    * `parseServicePortForwardSpecWith_represents`
-/

namespace SmartSOCKSProxy

------------------------------------------------------------
-- Services in Memory
------------------------------------------------------------

/- The types of service.h. -/
inductive ServiceType where
| none
| socks
| portForward
| http
deriving DecidableEq

/- `struct service`, with its `bind_address[300]`. -/
structure ServiceMem where
  id : UInt64
  type : ServiceType
  bindAddress : Buffer
  port : Int
  fd : Int

structure ServiceSocksMem where
  srv : ServiceMem

/- It adds `base_dir[4096]`. -/
structure ServiceHttpMem where
  srv : ServiceMem
  baseDir : Buffer

/- It adds `remote_host[300]`. -/
structure ServicePortForwardMem where
  srv : ServiceMem
  remoteHost : Buffer
  remotePort : Int

section NewService

/- The id of the service that was allocated last. -/
variable (serviceIdPool : UInt64)

/- The block is the one that malloc() returns. -/
def newService
    (type : ServiceType)
    (block : ServiceMem) : ServiceMem where
  id := serviceIdPool + 1
  type
  bindAddress := block.bindAddress.put (0, 0)
  port := 0
  fd := -1

def newServiceSocks
    (block : ServiceSocksMem) : ServiceSocksMem where
  srv := newService serviceIdPool .socks block.srv

def newServiceHttp
    (block : ServiceHttpMem) : ServiceHttpMem where
  srv := newService serviceIdPool .http block.srv
  baseDir := block.baseDir.put (0, 0)

def newServicePortForward
    (block : ServicePortForwardMem) :
    ServicePortForwardMem where
  srv := newService serviceIdPool .portForward block.srv
  remoteHost := block.remoteHost.put (0, 0)
  remotePort := 0

end NewService

/- `strncpy(dst, token, size - 1)` -/
def copyField
    (size : Nat)
    (dst : Buffer)
    (token : Text) : Buffer :=
  dst.store 0 (strncpyBytes token (size - 1))

namespace ServiceMem

def setBindAddress
    (srv : ServiceMem)
    (token : Text) : ServiceMem :=
  { srv with
    bindAddress := copyField 300 srv.bindAddress token }

/- The port is not set when sscanf() does not return 1. -/
def scanPort
    (srv : ServiceMem)
    (token : Text) : Option ServiceMem :=
  (Text.scanInt token).map fun port => { srv with port }

end ServiceMem

------------------------------------------------------------
-- Parsers
------------------------------------------------------------

section Parsers

variable {σ : Type}

/- The number of parts without the address. -/
variable (least : Nat)

/- How a parser stores an address in its service. -/
variable (setBindAddress : σ → Text → σ)

/- The `switch` over the index; none when `okay` is cleared. -/
variable (part : Nat → Text → σ → Option σ)

/- One round of the loop over the tokens. -/
def specRound
    (s : Nat × σ)
    (token : Text) : Option (Nat × σ) :=
  (part (s.1 + 1) token s.2).map fun srv => (s.1 + 1, srv)

/-
  What the three parsers do with a new service.  The first
  part is skipped when it is missing.  The flag says whether
  strdup() finds memory.
-/
def parseSpec
    (strdup : Bool)
    (strIn : Text)
    (srv : σ) : Option σ :=
  let parts := stringCountCharInstances strIn 58 + 1
  if parts < least ∨ least + 1 < parts then none
  else if strdup = false then none
  else
    let start :=
      if parts = least then
        (1, setBindAddress srv defaultBindAddress)
      else (0, srv)
    (eachToken 58 (specRound part) (some strIn) start).map
      Prod.snd

end Parsers

def ServiceSocksMem.setBindAddress
    (socks : ServiceSocksMem)
    (token : Text) : ServiceSocksMem :=
  { socks with srv := socks.srv.setBindAddress token }

def ServiceHttpMem.setBindAddress
    (http : ServiceHttpMem)
    (token : Text) : ServiceHttpMem :=
  { http with srv := http.srv.setBindAddress token }

def ServicePortForwardMem.setBindAddress
    (fwd : ServicePortForwardMem)
    (token : Text) : ServicePortForwardMem :=
  { fwd with srv := fwd.srv.setBindAddress token }

def socksPart
    (index : Nat)
    (token : Text)
    (socks : ServiceSocksMem) : Option ServiceSocksMem :=
  match index with
  | 1 => some (socks.setBindAddress token)
  | 2 =>
      (socks.srv.scanPort token).map fun srv =>
        { socks with srv }
  | _ => none

def httpPart
    (index : Nat)
    (token : Text)
    (http : ServiceHttpMem) : Option ServiceHttpMem :=
  match index with
  | 1 => some (http.setBindAddress token)
  | 2 =>
      (http.srv.scanPort token).map fun srv =>
        { http with srv }
  | 3 =>
      some
        { http with
          baseDir := copyField 4096 http.baseDir token }
  | _ => none

def portForwardPart
    (index : Nat)
    (token : Text)
    (fwd : ServicePortForwardMem) :
    Option ServicePortForwardMem :=
  match index with
  | 1 => some (fwd.setBindAddress token)
  | 2 =>
      (fwd.srv.scanPort token).map fun srv =>
        { fwd with srv }
  | 3 =>
      some
        { fwd with
          remoteHost := copyField 300 fwd.remoteHost token }
  | 4 =>
      (Text.scanInt token).map fun remotePort =>
        { fwd with remotePort }
  | _ => none

section SpecParsers

variable (serviceIdPool : UInt64)
variable (strdup : Bool)

/- The first of the two services it allocates is not used. -/
def parseServiceSocksSpecWith
    (block : ServiceSocksMem)
    (strIn : Text) : Option ServiceSocksMem :=
  parseSpec 1 ServiceSocksMem.setBindAddress socksPart strdup
    strIn (newServiceSocks (serviceIdPool + 1) block)

def parseServiceHttpSpecWith
    (block : ServiceHttpMem)
    (strIn : Text) : Option ServiceHttpMem :=
  parseSpec 2 ServiceHttpMem.setBindAddress httpPart strdup
    strIn (newServiceHttp serviceIdPool block)

def parseServicePortForwardSpecWith
    (block : ServicePortForwardMem)
    (strIn : Text) : Option ServicePortForwardMem :=
  parseSpec 3 ServicePortForwardMem.setBindAddress
    portForwardPart strdup strIn
    (newServicePortForward serviceIdPool block)

end SpecParsers

------------------------------------------------------------
-- The Default Address
------------------------------------------------------------

/- The same specification, with the default written out. -/
def withDefaultAddress
    (strIn : Text) : Text :=
  defaultBindAddress ++ 58 :: strIn

theorem colon_not_mem_defaultBindAddress :
    (58 : UInt8) ∉ defaultBindAddress := by
  decide

theorem splitOn_withDefaultAddress
    (strIn : Text) :
    (withDefaultAddress strIn).splitOn 58 =
      defaultBindAddress :: strIn.splitOn 58 :=
  List.splitOn_append_cons_self_of_not_mem
    colon_not_mem_defaultBindAddress strIn

/- It has the same tokens when its address is missing. -/
theorem specTokens_withDefaultAddress
    {parts : Nat}
    {strIn : Text}
    (hParts : strIn.count 58 + 2 = parts) :
    specTokens parts (withDefaultAddress strIn) =
      specTokens parts strIn := by
  have hCount :
      (withDefaultAddress strIn).count 58 =
        strIn.count 58 + 1 := by
    have hLength :=
      congrArg List.length (splitOn_withDefaultAddress strIn)
    rw [List.length_cons, length_splitOn, length_splitOn]
      at hLength
    omega
  unfold specTokens
  rw [if_pos hParts, if_neg (by omega),
    splitOn_withDefaultAddress]

section Parsers

variable {σ : Type}
variable {least : Nat}
variable {setBindAddress : σ → Text → σ}
variable {part : Nat → Text → σ → Option σ}

/-
  A parser handles its tokens, of which a missing address is
  the first: skipping part 1 with the default stored is what
  part 1 does with it.
-/
theorem parseSpec_eq
    (hPart : ∀ srv,
      part 1 defaultBindAddress srv =
        some (setBindAddress srv defaultBindAddress))
    (strdup : Bool)
    (strIn : Text)
    (srv : σ) :
    parseSpec least setBindAddress part strdup strIn srv =
      if (specTokens (least + 1) strIn).length = least + 1 ∧
          strdup = true then
        ((specTokens (least + 1) strIn).foldlM
          (specRound part) (0, srv)).map Prod.snd
      else none := by
  have hLength := length_specTokens (least + 1) strIn
  unfold parseSpec
  rw [stringCountCharInstances_eq]
  dsimp only
  by_cases hParts :
      strIn.count 58 + 1 < least ∨
        least + 1 < strIn.count 58 + 1
  · have hOther :
        (specTokens (least + 1) strIn).length ≠ least + 1 := by
      rw [hLength]
      split <;> omega
    rw [if_pos hParts, if_neg (fun hAll => hOther hAll.1)]
  rw [if_neg hParts]
  cases strdup with
  | false => simp
  | true =>
      have hAccepted :
          (specTokens (least + 1) strIn).length = least + 1 ∧
            true = true := by
        rw [hLength]
        refine ⟨?_, rfl⟩
        split <;> omega
      have hCopied : ¬ true = false := nofun
      rw [if_pos hAccepted, if_neg hCopied, eachToken_some]
      unfold specTokens
      by_cases hMissing : strIn.count 58 + 1 = least
      · have hDefault :
            specRound part (0, srv) defaultBindAddress =
              some (1, setBindAddress srv
                defaultBindAddress) := by
          rw [specRound, Nat.zero_add, hPart, Option.map_some]
        rw [if_pos hMissing, if_pos (by omega),
          List.foldlM_cons, hDefault]
        rfl
      · rw [if_neg hMissing, if_neg (by omega)]

/-
  A parser is related to a result that is none for a wrong
  number of tokens, if its run over the right number is.
-/
theorem parseSpec_rel
    {γ : Type}
    {R : σ → γ → Prop}
    {parsed : Option γ}
    {strIn : Text}
    {srv : σ}
    (hPart : ∀ srv,
      part 1 defaultBindAddress srv =
        some (setBindAddress srv defaultBindAddress))
    (hOther :
      (specTokens (least + 1) strIn).length ≠ least + 1 →
        parsed = none)
    (hTokens :
      (specTokens (least + 1) strIn).length = least + 1 →
        Option.Rel R
          (((specTokens (least + 1) strIn).foldlM
            (specRound part) (0, srv)).map Prod.snd)
          parsed)
    (strdup : Bool) :
    Option.Rel R
      (parseSpec least setBindAddress part strdup strIn srv)
      (if strdup then parsed else none) := by
  rw [parseSpec_eq hPart]
  cases strdup with
  | false => simp
  | true =>
      by_cases hLength :
          (specTokens (least + 1) strIn).length = least + 1
      · simpa only [hLength, and_self, if_true]
          using hTokens hLength
      · simp [hLength, hOther hLength]

/- The two runs give one result in one memory. -/
theorem parseSpec_withDefaultAddress
    (hPart : ∀ srv,
      part 1 defaultBindAddress srv =
        some (setBindAddress srv defaultBindAddress))
    {strIn : Text}
    (hParts : strIn.count 58 + 1 = least)
    (strdup : Bool)
    (srv : σ) :
    parseSpec least setBindAddress part strdup
        (withDefaultAddress strIn) srv =
      parseSpec least setBindAddress part strdup strIn
        srv := by
  rw [parseSpec_eq hPart, parseSpec_eq hPart,
    specTokens_withDefaultAddress (by omega)]

end Parsers

------------------------------------------------------------
-- Fields
------------------------------------------------------------

/-
  A field of a new service that a string was copied to: the
  string, zeros, and the last byte of the block.
-/
def Filled
    (size : Nat)
    (block field : Buffer)
    (str : CBuf size) : Prop :=
  field.load size =
    str.text ++
      (List.replicate (size - 1 - str.text.length) 0 ++
        [block (size - 1)])

theorem filled_copyField
    {size : Nat}
    (hSize : 1 < size)
    (block : Buffer)
    (token : Text) :
    Filled size block
      (copyField size (block.put (0, 0)) token)
      (CBuf.copy token) := by
  have hLength :
      (strncpyBytes token (size - 1)).length = size - 1 := by
    rw [strncpyBytes, List.length_append, List.length_take,
      List.length_replicate]
    omega
  have hFront :
      (copyField size (block.put (0, 0)) token).load
          (size - 1) =
        strncpyBytes token (size - 1) := by
    have hLoad :=
      (block.put (0, 0)).load_store 0
        (strncpyBytes token (size - 1))
    rwa [hLength, Nat.zero_add] at hLoad
  have hLast :
      copyField size (block.put (0, 0)) token (size - 1) =
        block (size - 1) := by
    have hLater : size - 1 ≠ 0 := by omega
    rw [copyField, Buffer.store, if_pos (Nat.zero_le _),
      List.getD_eq_getElem?_getD,
      List.getElem?_eq_none (by omega)]
    exact Function.update_of_ne hLater _ _
  have hZeros :
      size - 1 - (Text.cstr token).length =
        size - 1 -
          ((Text.cstr token).take (size - 1)).length := by
    rw [List.length_take]
    omega
  have hWhole : ∀ field : Buffer,
      field.load size =
        field.load (size - 1) ++ [field (size - 1)] := by
    intro field
    rw [← Buffer.load_succ, Nat.sub_add_cancel hSize.le]
  rw [Filled, hWhole, hFront, hLast, CBuf.text_copy,
    ← List.append_assoc, ← hZeros, strncpyBytes]

/- What a field holds up to its first zero, or all of it. -/
def fieldText
    (size : Nat)
    (field : Buffer) : Text :=
  Text.cstr (field.load size)

namespace Filled

variable {size : Nat}
variable {block block' field field' : Buffer}
variable {str : CBuf size}

/- A string that leaves room for its terminator has one. -/
theorem fieldText_of_fits
    (hFilled : Filled size block field str)
    (hFits : str.text.length < size - 1) :
    fieldText size field = str.text := by
  have hRoom :
      size - 1 - str.text.length =
        size - 1 - str.text.length - 1 + 1 := by
    omega
  rw [fieldText, hFilled, Text.cstr_append str.noNul, hRoom,
    List.replicate_succ]
  simp [Text.cstr]

/- Behind a longer one comes the byte of the block. -/
theorem fieldText_of_long
    (hFilled : Filled size block field str)
    (hLong : ¬ str.text.length < size - 1) :
    fieldText size field =
      str.text ++ Text.cstr [block (size - 1)] := by
  have hFull : size - 1 - str.text.length = 0 := by omega
  rw [fieldText, hFilled, Text.cstr_append str.noNul, hFull]
  rfl

/- When one string is the same in two blocks. -/
theorem fieldText_eq_iff
    (hFilled : Filled size block field str)
    (hFilled' : Filled size block' field' str) :
    fieldText size field = fieldText size field' ↔
      str.text.length < size - 1 ∨
        block (size - 1) = block' (size - 1) := by
  by_cases hFits : str.text.length < size - 1
  · rw [hFilled.fieldText_of_fits hFits,
      hFilled'.fieldText_of_fits hFits]
    simp [hFits]
  · rw [hFilled.fieldText_of_long hFits,
      hFilled'.fieldText_of_long hFits, List.append_cancel_left_eq,
      or_iff_right hFits]
    generalize block (size - 1) = b, block' (size - 1) = b'
    by_cases hZero : b = 0 <;> by_cases hZero' : b' = 0 <;>
      simp [Text.cstr, hZero, hZero', eq_comm]

end Filled

------------------------------------------------------------
-- Services Without Memory
------------------------------------------------------------

/- A service that was filled in a block, by its type. -/
structure ServiceMem.Represents
    (block : ServiceMem)
    (type : ServiceType)
    (m : ServiceMem)
    (srv : Service) : Prop where
  id : m.id = srv.id
  type : m.type = type
  bindAddress :
    Filled 300 block.bindAddress m.bindAddress
      srv.bindAddress
  port : m.port = srv.port
  fd : m.fd = -1

def ServiceSocksMem.Represents
    (block m : ServiceSocksMem)
    (srv : Service) : Prop :=
  block.srv.Represents .socks m.srv srv ∧ srv.kind = .socks

def ServiceHttpMem.Represents
    (block m : ServiceHttpMem)
    (srv : Service) : Prop :=
  block.srv.Represents .http m.srv srv ∧
    ∃ baseDir, srv.kind = .http baseDir ∧
      Filled 4096 block.baseDir m.baseDir baseDir

def ServicePortForwardMem.Represents
    (block m : ServicePortForwardMem)
    (srv : Service) : Prop :=
  block.srv.Represents .portForward m.srv srv ∧
    ∃ remoteHost,
      srv.kind = .portForward remoteHost m.remotePort ∧
        Filled 300 block.remoteHost m.remoteHost remoteHost

/- An address that was copied to a new service. -/
theorem newService_represents
    (serviceIdPool : UInt64)
    (type : ServiceType)
    (block : ServiceMem)
    (bindAddress : Text)
    (port : Int)
    (kind : ServiceKind) :
    block.Represents type
      { (newService serviceIdPool type block).setBindAddress
          bindAddress with port }
      ⟨serviceIdPool + 1, kind, CBuf.copy bindAddress,
        port⟩ where
  id := rfl
  type := rfl
  bindAddress :=
    filled_copyField (by decide) block.bindAddress bindAddress
  port := rfl
  fd := rfl

/- What the parts of a specification do to a service. -/
theorem socksPart_tokens
    (socks : ServiceSocksMem)
    (bindAddress port : Text) :
    ([bindAddress, port].foldlM (specRound socksPart)
        (0, socks)).map Prod.snd =
      (Text.scanInt port).map fun port =>
        { srv :=
            { socks.srv.setBindAddress bindAddress with
              port } } := by
  cases hPort : Text.scanInt port <;>
    simp [specRound, socksPart, ServiceMem.scanPort,
      ServiceSocksMem.setBindAddress, hPort]

theorem httpPart_tokens
    (http : ServiceHttpMem)
    (bindAddress port baseDir : Text) :
    ([bindAddress, port, baseDir].foldlM
        (specRound httpPart) (0, http)).map Prod.snd =
      (Text.scanInt port).map fun port =>
        { srv :=
            { http.srv.setBindAddress bindAddress with
              port }
          baseDir := copyField 4096 http.baseDir baseDir } := by
  cases hPort : Text.scanInt port <;>
    simp [specRound, httpPart, ServiceMem.scanPort,
      ServiceHttpMem.setBindAddress, hPort]

theorem portForwardPart_tokens
    (fwd : ServicePortForwardMem)
    (bindAddress port remoteHost remotePort : Text) :
    ([bindAddress, port, remoteHost, remotePort].foldlM
        (specRound portForwardPart) (0, fwd)).map Prod.snd =
      (Text.scanInt port).bind fun port =>
        (Text.scanInt remotePort).map fun remotePort =>
          { srv :=
              { fwd.srv.setBindAddress bindAddress with
                port }
            remoteHost :=
              copyField 300 fwd.remoteHost remoteHost
            remotePort } := by
  cases hPort : Text.scanInt port <;>
    cases hRemote : Text.scanInt remotePort <;>
      simp [specRound, portForwardPart, ServiceMem.scanPort,
        ServicePortForwardMem.setBindAddress, hPort, hRemote]

section SpecParsers

variable (serviceIdPool : UInt64)
variable (strdup : Bool)
variable (strIn : Text)

/- In one block, the default may be left out. -/
theorem parseServiceSocksSpecWith_withDefaultAddress
    {strIn : Text}
    (hParts : strIn.count 58 + 1 = 1)
    (block : ServiceSocksMem) :
    parseServiceSocksSpecWith serviceIdPool strdup block
        (withDefaultAddress strIn) =
      parseServiceSocksSpecWith serviceIdPool strdup block
        strIn :=
  parseSpec_withDefaultAddress (fun _ => rfl) hParts strdup _

theorem parseServiceHttpSpecWith_withDefaultAddress
    {strIn : Text}
    (hParts : strIn.count 58 + 1 = 2)
    (block : ServiceHttpMem) :
    parseServiceHttpSpecWith serviceIdPool strdup block
        (withDefaultAddress strIn) =
      parseServiceHttpSpecWith serviceIdPool strdup block
        strIn :=
  parseSpec_withDefaultAddress (fun _ => rfl) hParts strdup _

theorem parseServicePortForwardSpecWith_withDefaultAddress
    {strIn : Text}
    (hParts : strIn.count 58 + 1 = 3)
    (block : ServicePortForwardMem) :
    parseServicePortForwardSpecWith serviceIdPool strdup block
        (withDefaultAddress strIn) =
      parseServicePortForwardSpecWith serviceIdPool strdup
        block strIn :=
  parseSpec_withDefaultAddress (fun _ => rfl) hParts strdup _

/-
  In memory, the parsers fail and succeed as those that build
  a `Service` from the fields, and what they leave in their
  block holds the fields of that service.
-/
theorem parseServiceSocksSpecWith_represents
    (block : ServiceSocksMem) :
    Option.Rel block.Represents
      (parseServiceSocksSpecWith serviceIdPool strdup block
        strIn)
      (if strdup then socksService strIn serviceIdPool
      else none) := by
  unfold socksService
  rw [parseServiceSocksSpec_eq]
  apply parseSpec_rel (fun _ => rfl)
  · intro hOther
    rw [if_neg hOther]
    rfl
  intro hLength
  rcases List.length_eq_two.mp hLength with
    ⟨bindAddress, port, hTokens⟩
  unfold specToken
  rw [if_pos hLength, hTokens, socksPart_tokens]
  simp only [List.getD_cons_succ, List.getD_cons_zero]
  cases Text.scanInt port with
  | none => exact .none
  | some v =>
      have hSrv :=
        newService_represents (serviceIdPool + 1) .socks
          block.srv bindAddress v .socks
      have hId :
          serviceIdPool + 1 + 1 = serviceIdPool + 2 :=
        UInt64.add_assoc _ _ _
      rw [hId] at hSrv
      exact .some ⟨hSrv, rfl⟩

theorem parseServiceHttpSpecWith_represents
    (block : ServiceHttpMem) :
    Option.Rel block.Represents
      (parseServiceHttpSpecWith serviceIdPool strdup block
        strIn)
      (if strdup then httpService strIn serviceIdPool
      else none) := by
  unfold httpService
  rw [parseServiceHttpSpec_eq]
  apply parseSpec_rel (fun _ => rfl)
  · intro hOther
    rw [if_neg hOther]
    rfl
  intro hLength
  rcases List.length_eq_three.mp hLength with
    ⟨bindAddress, port, baseDir, hTokens⟩
  unfold specToken
  rw [if_pos hLength, hTokens, httpPart_tokens]
  simp only [List.getD_cons_succ, List.getD_cons_zero]
  cases Text.scanInt port with
  | none => exact .none
  | some v =>
      have hSrv :=
        newService_represents serviceIdPool .http block.srv
          bindAddress v (.http (CBuf.copy baseDir))
      have hBaseDir :=
        filled_copyField (by decide : 1 < 4096) block.baseDir
          baseDir
      exact .some ⟨hSrv, _, rfl, hBaseDir⟩

theorem parseServicePortForwardSpecWith_represents
    (block : ServicePortForwardMem) :
    Option.Rel block.Represents
      (parseServicePortForwardSpecWith serviceIdPool strdup
        block strIn)
      (if strdup then portForwardService strIn serviceIdPool
      else none) := by
  unfold portForwardService
  rw [parseServicePortForwardSpec_eq]
  apply parseSpec_rel (fun _ => rfl)
  · intro hOther
    rw [if_neg hOther]
    rfl
  intro hLength
  rcases hTokens : specTokens 4 strIn with
    - | ⟨bindAddress, - | ⟨port, - | ⟨remoteHost, - |
      ⟨remotePort, - | ⟨c, tokens⟩⟩⟩⟩⟩ <;>
    simp [hTokens] at hLength
  unfold specToken
  rw [hTokens, portForwardPart_tokens]
  simp only [List.getD_cons_succ, List.getD_cons_zero,
    List.length_cons, List.length_nil, if_true]
  cases Text.scanInt port with
  | none => exact .none
  | some v =>
      cases Text.scanInt remotePort with
      | none => exact .none
      | some w =>
          have hSrv :=
            newService_represents serviceIdPool .portForward
              block.srv bindAddress v
              (.portForward (CBuf.copy remoteHost) w)
          have hRemoteHost :=
            filled_copyField (by decide : 1 < 300)
              block.remoteHost remoteHost
          exact .some ⟨hSrv, _, rfl, hRemoteHost⟩

end SpecParsers

end SmartSOCKSProxy
