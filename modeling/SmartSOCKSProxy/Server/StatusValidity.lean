import SmartSOCKSProxy.Server.StatusDocument

/-
  When the status document is valid JSON.

  The text is valid exactly when no string that it shows needs
  an escape, and when it can be built at all.

  Key definitions include:
    * `StatusState.strings`, `StatusState.Complete`

  Key theorems include:
    * `plainString_addrStr`
    * `statusDocument_plain_iff`
    * `buildJson_valid_iff`
-/

namespace SmartSOCKSProxy

------------------------------------------------------------
-- Addresses
------------------------------------------------------------

/- Bytes that need no escape in a string. -/
def AsciiPlain
    (text : Text) : Prop :=
  ∀ b ∈ text, asciiPlain b = true

instance
    (text : Text) :
    Decidable (AsciiPlain text) :=
  decidable_of_iff (text.all asciiPlain = true)
    List.all_eq_true

theorem asciiPlain_append
    {left right : Text}
    (hLeft : AsciiPlain left)
    (hRight : AsciiPlain right) :
    AsciiPlain (left ++ right) :=
  List.forall_mem_append.mpr ⟨hLeft, hRight⟩

theorem asciiPlain_intercalate
    {sep : Text}
    (hSep : AsciiPlain sep) :
    ∀ {parts : List Text},
      (∀ part ∈ parts, AsciiPlain part) →
        AsciiPlain (sep.intercalate parts)
  | [], _ => fun _ hMem => nomatch hMem
  | [part], hParts => by
      simpa using hParts part List.mem_cons_self
  | part :: next :: parts, hParts => by
      rw [List.intercalate_cons_cons]
      apply asciiPlain_append
      · apply asciiPlain_append _ hSep
        exact hParts part List.mem_cons_self
      · apply asciiPlain_intercalate hSep
        exact fun p hp =>
          hParts p (List.mem_cons_of_mem part hp)

theorem asciiPlain_octetText
    (b : UInt8) :
    AsciiPlain (octetText b) := by
  have hAll :
      ∀ n : Fin 256,
        (octetText (UInt8.ofNat n)).all asciiPlain = true := by
    decide +kernel
  have hHere := hAll ⟨b.toNat, b.toNat_lt⟩
  simp only [UInt8.ofNat_toNat] at hHere
  exact List.all_eq_true.mp hHere

theorem asciiPlain_hexGroup
    (n : Nat) :
    AsciiPlain (hexGroup n) := by
  have hDigit :
      ∀ d : Fin 16, asciiPlain (hexDigit d) = true := by
    decide
  unfold hexGroup
  dsimp only
  split
  · intro b hb
    rw [List.mem_singleton.mp hb]
    rfl
  · rename_i hDigits
    intro b hb
    rcases List.mem_map.mp hb with ⟨d, hd, rfl⟩
    have hMem := (List.dropWhile_sublist _).subset hd
    have hLt : d < 16 := by
      simp only [List.mem_cons, List.not_mem_nil,
        or_false] at hMem
      omega
    exact hDigit ⟨d, hLt⟩

theorem asciiPlain_inetNtop4
    (addr : UInt32) :
    AsciiPlain (inetNtop4 addr) := by
  apply asciiPlain_intercalate
  · decide
  · intro part hPart
    rcases List.mem_map.mp hPart with ⟨b, _, rfl⟩
    exact asciiPlain_octetText b

theorem asciiPlain_inetNtop6
    (addr : Vector UInt8 16) :
    AsciiPlain (inetNtop6 addr) := by
  have hColon : AsciiPlain [58] := by decide
  have hGroups : ∀ groups : List Nat,
      AsciiPlain ([58].intercalate (groups.map hexGroup)) := by
    intro groups
    apply asciiPlain_intercalate hColon
    intro part hPart
    rcases List.mem_map.mp hPart with ⟨n, _, rfl⟩
    exact asciiPlain_hexGroup n
  have hEmbedded : AsciiPlain (embedded4 addr) := by
    apply asciiPlain_intercalate
    · decide
    · intro part hPart
      rcases List.mem_map.mp hPart with ⟨b, _, rfl⟩
      exact asciiPlain_octetText b
  have hTwo : AsciiPlain ([58] ++ [58]) := by decide
  unfold inetNtop6
  dsimp only
  split
  · exact hGroups _
  · split_ifs
    · exact asciiPlain_append hTwo hEmbedded
    · apply asciiPlain_append _ hEmbedded
      apply asciiPlain_append _ hColon
      exact asciiPlain_append hTwo (asciiPlain_hexGroup _)
    · apply asciiPlain_append _ (hGroups _)
      apply asciiPlain_append _ hColon
      exact asciiPlain_append (hGroups _) hColon

/- The text of an address needs no escape. -/
theorem plainString_addrStr
    (host : HostId) :
    PlainString (host.addrStr.getD []) := by
  apply plainString_of_ascii
  unfold HostId.addrStr
  cases host.addr with
  | unspec => exact fun _ hMem => nomatch hMem
  | inet _ addr => exact asciiPlain_inetNtop4 addr
  | inet6 _ addr => exact asciiPlain_inetNtop6 addr

------------------------------------------------------------
-- The Strings That Are Shown
------------------------------------------------------------

def serviceStrings
    (srv : Service) : List Text :=
  srv.bindAddress.text ::
    match srv.kind with
    | .portForward remoteHost _ => [remoteHost.text]
    | .http baseDir => [baseDir.text]
    | _ => []

/- Empty texts are not shown, and need no escapes. -/
def connectionStrings
    (snap : ConnectionSnapshot) : List Text :=
  let con := snap.con
  [con.dstHostOriginal.name.text, con.dstHost.name.text,
    con.statusName.text, con.statusDescription.text,
    snap.srcHost.name.text] ++
  (match snap.route with
    | some tunnel => [tunnel.name.text]
    | none => []) ++
  (if snap.srv.kind.isHttp then [snap.urlPath.text] else [])

def proxyStrings
    (proxy : ProxyInstance) : List Text :=
  proxy.name.text ::
    (match proxy.logFile with
      | some fileName => [fileName.text]
      | none => []) ++
    proxy.serviceList.flatMap serviceStrings ++
    proxy.clientConnectionList.flatMap connectionStrings

/- The string fields that the document shows. -/
def StatusState.strings
    (state : StatusState) : List Text :=
  [state.version, state.buildDate, state.gitHash] ++
  state.proxyInstanceList.flatMap proxyStrings ++
  (shownTunnels state).map fun ssh => ssh.tunnel.name.text

/-
  No pointer is NULL: log levels have names, and the clients
  have addresses.
-/
def ProxyInstance.Complete
    (proxy : ProxyInstance) : Prop :=
  logLevelStr proxy.logLevel ≠ none ∧
    ∀ snap ∈ proxy.clientConnectionList,
      snap.srcHost.hasAddr = true

def StatusState.Complete
    (state : StatusState) : Prop :=
  ∀ proxy ∈ state.proxyInstanceList, proxy.Complete

/- What is said of all strings of a list. -/
def AllPlain
    (strings : List Text) : Prop :=
  ∀ value ∈ strings, PlainString value

@[simp]
theorem allPlain_nil :
    AllPlain [] :=
  fun _ hMem => nomatch hMem

@[simp]
theorem allPlain_cons
    (value : Text)
    (strings : List Text) :
    AllPlain (value :: strings) ↔
      PlainString value ∧ AllPlain strings :=
  List.forall_mem_cons

@[simp]
theorem allPlain_append
    (left right : List Text) :
    AllPlain (left ++ right) ↔
      AllPlain left ∧ AllPlain right :=
  List.forall_mem_append

@[simp]
theorem plainString_nil :
    PlainString [] :=
  ⟨[], rfl, fun _ hMem => nomatch hMem⟩

------------------------------------------------------------
-- The Strings of the Document
------------------------------------------------------------

open Json in
@[simp]
theorem stringsMembers_append
    (left right : List (Text × Json)) :
    stringsMembers (left ++ right) =
      stringsMembers left ++ stringsMembers right := by
  induction left with
  | nil => simp [stringsMembers]
  | cons member left ih =>
      rw [List.cons_append, stringsMembers, ih,
        stringsMembers, List.append_assoc]

@[simp]
theorem strings_jsonInt
    (value : Int) :
    (jsonInt value).strings = [] := by
  unfold jsonInt Json.strings
  rfl

@[simp]
theorem strings_jsonUint
    (value : UInt64) :
    (jsonUint value).strings = [] := by
  unfold jsonUint Json.strings
  rfl

theorem allPlain_serviceMember
    (srv : Service) :
    AllPlain (Json.stringsMember (serviceMember srv)) ↔
      AllPlain (serviceStrings srv) := by
  unfold serviceMember serviceMembers serviceStrings
  cases srv.kind <;>
    simp (disch := decide) [Json.stringsMember, Json.strings,
      Json.stringsMembers, plainString_of_all,
      Text.plainString_ofNat, ServiceKind.name] <;>
    exact and_comm

theorem allPlain_stringIf
    (shown : Bool)
    (name : String)
    (value : Text)
    (hName : (key name).all asciiPlain = true) :
    AllPlain (Json.stringsMembers (stringIf shown name value)) ↔
      (shown = true → PlainString value) := by
  cases shown with
  | true =>
      simp [stringIf, Json.stringsMembers, Json.stringsMember,
        Json.strings, plainString_of_all hName]
  | false => simp [stringIf, Json.stringsMembers]

/- A number that is shown under a condition. -/
theorem allPlain_numberIf
    (shown : Prop)
    [Decidable shown]
    (name : String)
    (value : UInt64)
    (hName : (key name).all asciiPlain = true) :
    AllPlain
      (Json.stringsMembers
        (if shown then [(key name, jsonUint value)]
        else [])) := by
  split_ifs
  · simp [Json.stringsMembers, Json.stringsMember,
      plainString_of_all hName]
  · simp [Json.stringsMembers]

/- A text that is shown unless it is empty. -/
theorem plain_of_ne_nil
    (value : Text) :
    (value ≠ [] → PlainString value) ↔ PlainString value := by
  by_cases hNil : value = []
  · simp [hNil]
  · simp [hNil]

theorem allPlain_hostMembers
    (host : HostId)
    (name address port : String)
    (hNames :
      (key name).all asciiPlain = true ∧
        (key address).all asciiPlain = true ∧
          (key port).all asciiPlain = true) :
    AllPlain
        (Json.stringsMembers
          (hostMembers host name address port)) ↔
      PlainString host.name.text := by
  have hText := plain_of_ne_nil host.name.text
  simp [hostMembers, stringsMembers_append,
    allPlain_stringIf _ _ _ hNames.1,
    allPlain_stringIf _ _ _ hNames.2.1, plainString_addrStr,
    Json.stringsMembers, Json.stringsMember,
    plainString_of_all hNames.2.2, HostId.hasName, hText]

theorem allPlain_connectionMember
    (snap : ConnectionSnapshot) :
    AllPlain (Json.stringsMember (connectionMember snap)) ↔
      AllPlain (connectionStrings snap) := by
  have hStatus := plain_of_ne_nil snap.con.statusName.text
  have hDescription :=
    plain_of_ne_nil snap.con.statusDescription.text
  have hSource := plain_of_ne_nil snap.srcHost.name.text
  have hUrl :
      (snap.srv.kind.isHttp = true →
          0 < snap.urlPath.text.length →
            PlainString snap.urlPath.text) ↔
        AllPlain
          (if snap.srv.kind.isHttp then [snap.urlPath.text]
          else []) := by
    have hText := plain_of_ne_nil snap.urlPath.text
    rw [← List.length_pos_iff] at hText
    cases snap.srv.kind.isHttp <;> simp [hText]
  unfold connectionMember connectionMembers connectionStrings
  cases snap.route <;>
    simp (disch := decide) only [Json.stringsMember,
      Json.strings, stringsMembers_append, Json.stringsMembers,
      allPlain_append, allPlain_cons, allPlain_nil,
      strings_jsonInt, strings_jsonUint, allPlain_numberIf,
      allPlain_stringIf, allPlain_hostMembers,
      plainString_of_all, Text.plainString_ofNat,
      plainString_addrStr, HostId.hasName,
      decide_eq_true_eq, hStatus, hDescription, hSource,
      Bool.and_eq_true, ← hUrl, and_imp, true_and,
      and_true] <;>
    simp only [and_assoc, and_comm, and_left_comm]

/- The members of a list, each by its own strings. -/
theorem allPlain_map
    {α : Type}
    {member : α → Text × Json}
    {strings : α → List Text}
    (hEach :
      ∀ a, AllPlain (Json.stringsMember (member a)) ↔
        AllPlain (strings a))
    (as : List α) :
    AllPlain (Json.stringsMembers (as.map member)) ↔
      AllPlain (as.flatMap strings) := by
  induction as with
  | nil => simp [Json.stringsMembers]
  | cons a as ih =>
      rw [List.map_cons, Json.stringsMembers, allPlain_append,
        hEach, ih, List.flatMap_cons, allPlain_append]

theorem plainString_logLevelStr
    (level : Int) :
    PlainString ((logLevelStr level).getD []) := by
  unfold logLevelStr
  split
  all_goals
    first
      | exact plainString_nil
      | exact plainString_of_all (by decide)

theorem allPlain_proxyMember
    (proxy : ProxyInstance) :
    AllPlain (Json.stringsMember (proxyMember proxy)) ↔
      AllPlain (proxyStrings proxy) := by
  have hServices :=
    allPlain_map allPlain_serviceMember proxy.serviceList
  have hConnections :=
    allPlain_map allPlain_connectionMember
      proxy.clientConnectionList
  unfold proxyMember proxyMembers proxyStrings
  cases proxy.logFile <;>
    simp (disch := decide) only [Json.stringsMember,
      Json.strings, stringsMembers_append, Json.stringsMembers,
      allPlain_append, allPlain_cons, allPlain_nil,
      plainString_of_all, plainString_logLevelStr, hServices,
      hConnections, true_and, and_true] <;>
    grind

theorem allPlain_tunnelMember
    (ssh : TunnelSnapshot) :
    AllPlain (Json.stringsMember (tunnelMember ssh)) ↔
      AllPlain [ssh.tunnel.name.text] := by
  unfold tunnelMember tunnelMembers
  split_ifs <;>
    simp (disch := decide) [Json.stringsMember, Json.strings,
      Json.stringsMembers, plainString_of_all]

/- The other texts of the document need no escapes. -/
theorem statusDocument_plain_iff
    (state : StatusState) :
    AllPlain (statusDocument state).strings ↔
      AllPlain state.strings := by
  have hProxies :=
    allPlain_map allPlain_proxyMember state.proxyInstanceList
  have hTunnels :=
    allPlain_map allPlain_tunnelMember (shownTunnels state)
  have hNames :
      (shownTunnels state).flatMap
          (fun ssh => [ssh.tunnel.name.text]) =
        (shownTunnels state).map
          fun ssh => ssh.tunnel.name.text :=
    List.map_eq_flatMap.symm
  rw [hNames] at hTunnels
  unfold statusDocument StatusState.strings
  simp (disch := decide) only [Json.stringsMember,
    Json.strings, stringsMembers_append, Json.stringsMembers,
    allPlain_append, allPlain_cons, allPlain_nil,
    strings_jsonInt, plainString_of_all, hProxies, hTunnels,
    true_and, and_true]
  tauto

------------------------------------------------------------
-- The Numbers of the Document
------------------------------------------------------------

/- What is said of all numbers of a list. -/
def AllNumbers
    (numbers : List Text) : Prop :=
  ∀ lexeme ∈ numbers, IsNumber lexeme

@[simp]
theorem numbersMembers_append
    (left right : List (Text × Json)) :
    Json.numbersMembers (left ++ right) =
      Json.numbersMembers left ++
        Json.numbersMembers right := by
  induction left with
  | nil => simp [Json.numbersMembers]
  | cons member left ih =>
      rw [List.cons_append, Json.numbersMembers, ih,
        Json.numbersMembers, List.append_assoc]

@[simp]
theorem allNumbers_nil :
    AllNumbers [] :=
  fun _ hMem => nomatch hMem

@[simp]
theorem allNumbers_append
    (left right : List Text) :
    AllNumbers (left ++ right) ↔
      AllNumbers left ∧ AllNumbers right :=
  List.forall_mem_append

@[simp]
theorem allNumbers_jsonInt
    (value : Int) :
    AllNumbers (jsonInt value).numbers := by
  unfold jsonInt Json.numbers
  exact List.forall_mem_singleton.mpr
    (Text.isNumber_ofInt value)

@[simp]
theorem allNumbers_jsonUint
    (value : UInt64) :
    AllNumbers (jsonUint value).numbers := by
  unfold jsonUint Json.numbers
  exact List.forall_mem_singleton.mpr
    (Text.isNumber_ofNat value.toNat)

@[simp]
theorem numbersMember_eq
    (name : Text)
    (value : Json) :
    Json.numbersMember (name, value) = value.numbers := by
  unfold Json.numbersMember
  rfl

@[simp]
theorem numbers_string
    (value : Text) :
    (Json.string value).numbers = [] := by
  unfold Json.numbers
  rfl

theorem allNumbers_map
    {α : Type}
    {member : α → Text × Json}
    (hEach : ∀ a, AllNumbers (Json.numbersMember (member a)))
    (as : List α) :
    AllNumbers (Json.numbersMembers (as.map member)) := by
  induction as with
  | nil => simp [Json.numbersMembers]
  | cons a as ih =>
      rw [List.map_cons, Json.numbersMembers,
        allNumbers_append]
      exact ⟨hEach a, ih⟩

theorem allNumbers_serviceMember
    (srv : Service) :
    AllNumbers (Json.numbersMember (serviceMember srv)) := by
  unfold serviceMember serviceMembers
  cases srv.kind <;>
    simp [Json.numbers, Json.numbersMembers]

@[simp]
theorem numbers_stringIf
    (shown : Bool)
    (name : String)
    (value : Text) :
    Json.numbersMembers (stringIf shown name value) = [] := by
  cases shown <;> simp [stringIf, Json.numbersMembers]

theorem allNumbers_connectionMember
    (snap : ConnectionSnapshot) :
    AllNumbers
      (Json.numbersMember (connectionMember snap)) := by
  unfold connectionMember connectionMembers hostMembers
  dsimp only
  cases snap.route <;> split_ifs <;>
    simp [Json.numbers, Json.numbersMembers]

theorem allNumbers_proxyMember
    (proxy : ProxyInstance) :
    AllNumbers (Json.numbersMember (proxyMember proxy)) := by
  have hServices :=
    allNumbers_map allNumbers_serviceMember proxy.serviceList
  have hConnections :=
    allNumbers_map allNumbers_connectionMember
      proxy.clientConnectionList
  unfold proxyMember proxyMembers
  simp [Json.numbers, Json.numbersMembers, hServices,
    hConnections]

theorem allNumbers_tunnelMember
    (ssh : TunnelSnapshot) :
    AllNumbers (Json.numbersMember (tunnelMember ssh)) := by
  unfold tunnelMember tunnelMembers
  split_ifs <;> simp [Json.numbers, Json.numbersMembers]

theorem allNumbers_statusDocument
    (state : StatusState) :
    AllNumbers (statusDocument state).numbers := by
  have hProxies :=
    allNumbers_map allNumbers_proxyMember
      state.proxyInstanceList
  have hTunnels :=
    allNumbers_map allNumbers_tunnelMember (shownTunnels state)
  unfold statusDocument
  simp [Json.numbers, Json.numbersMembers, hProxies, hTunnels]

------------------------------------------------------------
-- Null Pointers
------------------------------------------------------------

/- No call of a list passes NULL. -/
def NoNull
    (calls : List (Option Text)) : Prop :=
  none ∉ calls

@[simp]
theorem noNull_nil :
    NoNull [] :=
  List.not_mem_nil

@[simp]
theorem noNull_append
    (left right : List (Option Text)) :
    NoNull (left ++ right) ↔ NoNull left ∧ NoNull right := by
  simp [NoNull]

@[simp]
theorem noNull_cons
    (call : Option Text)
    (calls : List (Option Text)) :
    NoNull (call :: calls) ↔ call ≠ none ∧ NoNull calls := by
  simp [NoNull, eq_comm]

theorem noNull_if
    (shown : Prop)
    [Decidable shown]
    (calls : List (Option Text)) :
    NoNull (if shown then calls else []) ↔
      (shown → NoNull calls) := by
  by_cases hShown : shown
  · simp [hShown]
  · simp [hShown]

theorem noNull_addList
    {α : Type}
    {calls : α → List (Option Text)}
    {Fine : α → Prop}
    (hEach : ∀ a, NoNull (calls a) ↔ Fine a)
    (as : List α) :
    NoNull (addList (as.map calls)) ↔ ∀ a ∈ as, Fine a := by
  have hMore : ∀ as : List α,
      NoNull
          ((as.map calls).flatMap fun cs => lit "," :: cs) ↔
        ∀ a ∈ as, Fine a := by
    intro as
    induction as with
    | nil => simp
    | cons a as ih =>
        rw [List.map_cons, List.flatMap_cons, noNull_append,
          ih, noNull_cons, hEach, List.forall_mem_cons]
        simp [lit]
  cases as with
  | nil => simp [addList]
  | cons a as =>
      rw [List.map_cons, addList, noNull_append, hMore, hEach,
        List.forall_mem_cons]

theorem addrStr_ne_none
    (host : HostId) :
    host.addrStr ≠ none ↔ host.hasAddr = true := by
  unfold HostId.addrStr HostId.hasAddr
  cases host.addr <;> simp

theorem noNull_addHost
    (host : HostId)
    (name address port : String) :
    NoNull (addHost host name address port) := by
  have hAddr := (addrStr_ne_none host).mpr
  unfold addHost
  simp [noNull_if, addString, addInt, addToBufInt, addComma,
    lit]
  exact hAddr

theorem noNull_addService
    (srv : Service) :
    NoNull (addService srv) := by
  unfold addService
  cases srv.kind <;>
    simp [addString, addInt, addUint, addToBufInt,
      addToBufUint, addComma, lit]

theorem noNull_addClientConnection
    (snap : ConnectionSnapshot) :
    NoNull (addClientConnection snap) ↔
      snap.srcHost.hasAddr = true := by
  rw [← addrStr_ne_none]
  unfold addClientConnection
  simp only [noNull_append, noNull_if]
  cases snap.con.tunnel <;>
    simp [noNull_if, addString, addInt, addUint, addToBufInt,
      addToBufUint, addComma, lit, noNull_addHost]

theorem noNull_addProxyInstance
    (proxy : ProxyInstance) :
    NoNull (addProxyInstance proxy) ↔ proxy.Complete := by
  have hServices :=
    noNull_addList
      (fun srv => iff_true_intro (noNull_addService srv))
      proxy.serviceList
  have hConnections :=
    noNull_addList noNull_addClientConnection
      proxy.clientConnectionList
  unfold addProxyInstance ProxyInstance.Complete
  cases proxy.logFile <;>
    simp [addString, addComma, lit, hServices, hConnections]

theorem noNull_addSshTunnel
    (ssh : TunnelSnapshot) :
    NoNull (addSshTunnel ssh) := by
  unfold addSshTunnel
  simp [noNull_if, addString, addToBufInt, addToBufUint,
    addComma, lit]

theorem noNull_buildCalls
    (state : StatusState) :
    NoNull (buildCalls state) ↔ state.Complete := by
  have hProxies :=
    noNull_addList noNull_addProxyInstance
      state.proxyInstanceList
  have hTunnels :=
    noNull_addList
      (fun ssh => iff_true_intro (noNull_addSshTunnel ssh))
      (shownTunnels state)
  unfold buildCalls StatusState.Complete
  simp [addString, addInt, addToBufInt, addComma, lit,
    hProxies, hTunnels]

------------------------------------------------------------
-- Validity
------------------------------------------------------------

/- The calls have a result that is the plain text, or none. -/
theorem buildJson_eq
    (state : StatusState)
    (defaultSize : DefaultSize)
    (hComplete : state.Complete)
    (hFits : (statusDocument state).plain.length + 10 ≤ 2 ^ 30) :
    ∃ size, buildJson state defaultSize =
      some ⟨(statusDocument state).plain, size⟩ := by
  have hCalls := callsText_buildCalls state
  have hSome : ∀ call ∈ buildCalls state, call ≠ none := by
    intro call hCall hNone
    subst hNone
    exact (noNull_buildCalls state).mpr hComplete hCall
  rcases addAll_spec (buildCalls state) ⟨[], defaultSize.val⟩
    defaultSize.property hSome
    (by rw [hCalls]; simpa using hFits) with ⟨size, _, hAll⟩
  refine ⟨size, ?_⟩
  rw [buildJson, hAll, hCalls, List.nil_append]

theorem buildJson_eq_none
    (state : StatusState)
    (defaultSize : DefaultSize)
    (hNot :
      ¬(state.Complete ∧
        (statusDocument state).plain.length + 10 ≤ 2 ^ 30)) :
    buildJson state defaultSize = none := by
  by_cases hComplete : state.Complete
  · apply addAll_none _ ⟨[], _⟩ defaultSize.property
    rw [callsText_buildCalls]
    have hLong :
        ¬(statusDocument state).plain.length + 10 ≤ 2 ^ 30 :=
      fun hFits => hNot ⟨hComplete, hFits⟩
    refine ⟨by norm_num, ?_⟩
    simp only [List.length_nil]
    omega
  · apply addAll_null
    by_contra hNull
    exact hComplete ((noNull_buildCalls state).mp hNull)

/- What the buffer holds is always the plain text. -/
theorem buildJson_text
    (state : StatusState)
    (defaultSize : DefaultSize)
    {buf : JsonBuf}
    (hBuf : buildJson state defaultSize = some buf) :
    buf.text = (statusDocument state).plain := by
  by_cases hBuilt :
      state.Complete ∧
        (statusDocument state).plain.length + 10 ≤ 2 ^ 30
  · rcases buildJson_eq state defaultSize hBuilt.1 hBuilt.2
      with ⟨size, hEq⟩
    rw [hEq, Option.some_inj] at hBuf
    rw [← hBuf]
  · rw [buildJson_eq_none state defaultSize hBuilt] at hBuf
    cases hBuf

theorem jsonText_statusDocument_iff
    (state : StatusState) :
    JsonText (statusDocument state)
        (statusDocument state).plain ↔
      AllPlain state.strings := by
  rw [jsonText_plain_iff (allNumbers_statusDocument state)]
  exact statusDocument_plain_iff state

/-
  The text is a JSON text of the document exactly when no
  pointer is NULL, no string needs an escape and the size of
  the buffer fits in an int.
-/
theorem buildJson_valid_iff
    (state : StatusState)
    (defaultSize : DefaultSize) :
    (∃ buf, buildJson state defaultSize = some buf ∧
      JsonText (statusDocument state) buf.text) ↔
    state.Complete ∧
      (∀ value ∈ state.strings, PlainString value) ∧
        (statusDocument state).plain.length + 10 ≤ 2 ^ 30 := by
  by_cases hBuilt :
      state.Complete ∧
        (statusDocument state).plain.length + 10 ≤ 2 ^ 30
  · rcases hBuilt with ⟨hComplete, hFits⟩
    rcases buildJson_eq state defaultSize hComplete hFits with
      ⟨size, hBuf⟩
    have hValid := jsonText_statusDocument_iff state
    constructor
    · rintro ⟨buf, hSome, hText⟩
      rw [buildJson_text state defaultSize hSome] at hText
      exact ⟨hComplete, hValid.mp hText, hFits⟩
    · rintro ⟨_, hStrings, _⟩
      exact ⟨_, hBuf, hValid.mpr hStrings⟩
  · constructor
    · rintro ⟨buf, hSome, _⟩
      rw [buildJson_eq_none state defaultSize hBuilt] at hSome
      cases hSome
    · rintro ⟨hComplete, _, hFits⟩
      exact absurd ⟨hComplete, hFits⟩ hBuilt

/- A client that asked for a host name with a quote in it. -/
def quotedState : StatusState :=
  let host :=
    (HostId.init.setName (Text.ascii ['a', '"', 'b'])).setPort 80
  { proxyInstanceList :=
      [{ name := CBuf.copy (key "default")
         logLevel := 3
         logFile := none
         serviceList := []
         clientConnectionList :=
          [{ id := 1
             srv :=
              ⟨1, .socks, CBuf.copy (key "127.0.0.1"), 1080⟩
             con :=
              { newClientConnection 4 default with
                socksVersion := 5
                socksCommand := 1
                dstHost := host
                dstHostOriginal := host }
             srcHost :=
              { HostId.init with addr := .inet 40000 2130706433 }
             urlPath := CBuf.empty
             startTime := 1500000000 }] }]
    sshTunnelList := []
    currentTime := 1500000001
    proxyStartTime := 1499999999
    version := key "1.0"
    buildDate := key "today"
    gitHash := key "0" }

theorem buildJson_quoted :
    quotedState.Complete ∧
      ¬∃ buf, buildJson quotedState ⟨1024, 0, by decide⟩ =
          some buf ∧
        JsonText (statusDocument quotedState) buf.text := by
  have hComplete : quotedState.Complete := by
    intro proxy hProxy
    rw [List.mem_singleton.mp hProxy]
    refine ⟨by decide, ?_⟩
    intro snap hSnap
    rw [List.mem_singleton.mp hSnap]
    rfl
  refine ⟨hComplete, ?_⟩
  rintro ⟨buf, hBuf, hText⟩
  rw [buildJson_text _ _ hBuf,
    jsonText_statusDocument_iff] at hText
  have hName :
      PlainString (Text.ascii ['a', '"', 'b']) := by
    apply hText
    simp only [StatusState.strings]
    apply List.mem_append_left
    apply List.mem_append_right
    decide
  have hQuote := hName.ascii (b := 34) (by decide) (by decide)
  exact hQuote.2.1 rfl

end SmartSOCKSProxy
