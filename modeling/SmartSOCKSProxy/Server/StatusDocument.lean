import SmartSOCKSProxy.Server.BuildJson

/-
  The status document as JSON.

  Every string is written as it is: the text is the plain text
  of the document.

  Key definitions include:
    * `callsText`
    * `statusDocument`

  Key theorems include:
    * `addAll_spec`, `addAll_none`, `addAll_null`
    * `callsText_buildCalls`
-/

namespace SmartSOCKSProxy

------------------------------------------------------------
-- The Buffer
------------------------------------------------------------

/- The sizes a buffer can have. -/
def IsBufSize
    (size : Nat) : Prop :=
  ∃ k ≤ 20, size = 1024 * 2 ^ k

/- What a list of calls adds, when no pointer is NULL. -/
def callsText
    (calls : List (Option Text)) : Text :=
  calls.flatMap fun call => call.getD []

theorem two_pow_bufSize
    {k : Nat}
    (hk : k ≤ 20) :
    1024 * 2 ^ k ≤ 2 ^ 30 := by
  have hPow : 2 ^ k ≤ 2 ^ 20 :=
    Nat.pow_le_pow_right (by norm_num) hk
  omega

/- A size that is too small is doubled, up to 2^30. -/
theorem growSize_small
    {needed k : Nat}
    (hk : k ≤ 20)
    (hSmall : 1024 * 2 ^ k < needed)
    (rounds : Nat) :
    growSize (rounds + 1) (1024 * 2 ^ k) needed =
      if k < 20 then
        growSize rounds (1024 * 2 ^ (k + 1)) needed
      else none := by
  have hDouble : 2 * (1024 * 2 ^ k) = 1024 * 2 ^ (k + 1) := by
    rw [Nat.pow_succ]
    ring
  rw [growSize, if_pos hSmall, hDouble]
  by_cases hNext : k < 20
  · have hSize := two_pow_bufSize (Nat.succ_le_of_lt hNext)
    rw [if_pos hNext, if_pos (by omega)]
  · have hTop : k = 20 := by omega
    subst hTop
    rw [if_neg hNext, if_neg (by norm_num)]

/- A size up to 2^30 is reached. -/
theorem growSize_of_le
    {needed : Nat}
    (hNeeded : needed ≤ 2 ^ 30) :
    ∀ (rounds k : Nat), k ≤ 20 → 21 ≤ rounds + k →
      ∃ size, IsBufSize size ∧ needed ≤ size ∧
        growSize rounds (1024 * 2 ^ k) needed = some size
  | 0, k, hk, hRounds => by omega
  | rounds + 1, k, hk, hRounds => by
      by_cases hSmall : 1024 * 2 ^ k < needed
      · have hNext : k < 20 := by
          by_contra hLast
          have hTop : k = 20 := by omega
          subst hTop
          omega
        rw [growSize_small hk hSmall, if_pos hNext]
        exact growSize_of_le hNeeded rounds (k + 1)
          (by omega) (by omega)
      · refine ⟨1024 * 2 ^ k, ⟨k, hk, rfl⟩, by omega, ?_⟩
        unfold growSize
        rw [if_neg hSmall]

/- A larger one is not. -/
theorem growSize_of_lt
    {needed : Nat}
    (hNeeded : 2 ^ 30 < needed) :
    ∀ (rounds k : Nat), k ≤ 20 →
      growSize rounds (1024 * 2 ^ k) needed = none
  | 0, k, hk => rfl
  | rounds + 1, k, hk => by
      have hSize := two_pow_bufSize hk
      rw [growSize_small hk (by omega)]
      split_ifs with hNext
      · exact growSize_of_lt hNeeded rounds (k + 1) (by omega)
      · rfl

theorem addToBuf_of_le
    {buf : JsonBuf}
    (hSize : IsBufSize buf.size)
    {add : Text}
    (hFits : buf.text.length + add.length + 10 ≤ 2 ^ 30) :
    ∃ size, IsBufSize size ∧
      addToBuf buf (some add) =
        some ⟨buf.text ++ add, size⟩ := by
  rcases hSize with ⟨k, hk, hSize⟩
  rcases growSize_of_le hFits 32 k hk (by omega) with
    ⟨size, hIs, hLe, hGrow⟩
  refine ⟨size, hIs, ?_⟩
  have hRoom : buf.text.length + add.length < size := by
    omega
  simp only [addToBuf, hSize, hGrow, Option.bind_eq_bind,
    Option.bind_some, if_pos hRoom]

theorem addToBuf_of_lt
    {buf : JsonBuf}
    (hSize : IsBufSize buf.size)
    {add : Text}
    (hLarge : 2 ^ 30 < buf.text.length + add.length + 10) :
    addToBuf buf (some add) = none := by
  rcases hSize with ⟨k, hk, hSize⟩
  simp only [addToBuf, hSize, growSize_of_lt hLarge 32 k hk,
    Option.bind_eq_bind, Option.bind_none]

/-
  The calls have a result when no pointer is NULL and the text
  is not too long; and then all of it is added.
-/
theorem addAll_spec
    (calls : List (Option Text))
    (buf : JsonBuf)
    (hSize : IsBufSize buf.size)
    (hSome : ∀ call ∈ calls, call ≠ none)
    (hFits :
      buf.text.length + (callsText calls).length + 10 ≤
        2 ^ 30) :
    ∃ size, IsBufSize size ∧
      calls.foldlM addToBuf buf =
        some ⟨buf.text ++ callsText calls, size⟩ := by
  induction calls generalizing buf with
  | nil =>
      refine ⟨buf.size, hSize, ?_⟩
      simp [callsText]
  | cons call calls ih =>
      rcases Option.ne_none_iff_exists'.mp
        (hSome call List.mem_cons_self) with ⟨add, rfl⟩
      have hLength :
          (callsText (some add :: calls)).length =
            add.length + (callsText calls).length := by
        simp [callsText]
      rw [hLength] at hFits
      have hHere :
          buf.text.length + add.length + 10 ≤ 2 ^ 30 := by
        omega
      rcases addToBuf_of_le hSize hHere with
        ⟨size, hIs, hAdd⟩
      rcases ih ⟨buf.text ++ add, size⟩ hIs
        (fun c hc => hSome c (List.mem_cons_of_mem _ hc))
        (by simp only [List.length_append]; omega) with
        ⟨size', hIs', hRest⟩
      refine ⟨size', hIs', ?_⟩
      rw [List.foldlM_cons, hAdd, Option.bind_eq_bind,
        Option.bind_some, hRest]
      simp [callsText]

theorem addAll_none
    (calls : List (Option Text))
    (buf : JsonBuf)
    (hSize : IsBufSize buf.size)
    (hLong :
      buf.text.length + 10 ≤ 2 ^ 30 ∧
        2 ^ 30 <
          buf.text.length + (callsText calls).length + 10) :
    calls.foldlM addToBuf buf = none := by
  induction calls generalizing buf with
  | nil =>
      have hNil : (callsText []).length = 0 := rfl
      omega
  | cons call calls ih =>
      rw [List.foldlM_cons]
      cases call with
      | none => rfl
      | some add =>
          have hLength :
              (callsText (some add :: calls)).length =
                add.length + (callsText calls).length := by
            simp [callsText]
          rw [hLength] at hLong
          by_cases hFits :
              buf.text.length + add.length + 10 ≤ 2 ^ 30
          · rcases addToBuf_of_le hSize hFits with
              ⟨size, hIs, hAdd⟩
            rw [hAdd, Option.bind_eq_bind, Option.bind_some]
            apply ih _ hIs
            simp only [List.length_append]
            omega
          · rw [addToBuf_of_lt hSize (by omega)]
            rfl

theorem addAll_null
    (calls : List (Option Text))
    (buf : JsonBuf)
    (hNull : none ∈ calls) :
    calls.foldlM addToBuf buf = none := by
  induction calls generalizing buf with
  | nil => exact nomatch hNull
  | cons call calls ih =>
      rw [List.foldlM_cons, Option.bind_eq_bind]
      rcases List.mem_cons.mp hNull with rfl | hLater
      · rfl
      · cases addToBuf buf call with
        | none => rfl
        | some buf' => exact ih buf' hLater

------------------------------------------------------------
-- The Document
------------------------------------------------------------

/- The name of a member. -/
def key (name : String) : Text :=
  Text.ascii name.toList

def jsonInt
    (value : Int) : Json :=
  .number (Text.ofInt value)

def jsonUint
    (value : UInt64) : Json :=
  .number (Text.ofNat value.toNat)

/- The type of a service, as the document names it. -/
def ServiceKind.name : ServiceKind → String
  | .none => "none"
  | .socks => "SOCKS"
  | .portForward _ _ => "portForward"
  | .http _ => "HTTP"

def serviceMembers
    (srv : Service) : List (Text × Json) :=
  [(key "serviceId", jsonUint srv.id),
    (key "type", .string (key srv.kind.name))] ++
  (match srv.kind with
    | .portForward remoteHost remotePort =>
        [(key "remoteAddress", .string remoteHost.text),
          (key "remotePort", jsonInt remotePort)]
    | .http baseDir =>
        [(key "baseDir", .string baseDir.text)]
    | _ => []) ++
  [(key "localAddress", .string srv.bindAddress.text)] ++
  [(key "localPort", jsonInt srv.port)]

/- The id of a service is the name of its member. -/
def serviceMember
    (srv : Service) : Text × Json :=
  (Text.ofNat srv.id.toNat, .object (serviceMembers srv))

/- A string that is shown under a condition. -/
def stringIf
    (shown : Bool)
    (name : String)
    (value : Text) : List (Text × Json) :=
  if shown then [(key name, .string value)] else []

def hostMembers
    (host : HostId)
    (name address port : String) : List (Text × Json) :=
  stringIf host.hasName name host.name.text ++
  stringIf host.hasAddr address (host.addrStr.getD []) ++
  [(key port, jsonInt host.port)]

/- The tunnel of a connection, if it is shown. -/
def ConnectionSnapshot.route
    (snap : ConnectionSnapshot) : Option SshTunnel :=
  if snap.srv.kind.hasRoute then snap.con.tunnel else none

def connectionMembers
    (snap : ConnectionSnapshot) : List (Text × Json) :=
  let con := snap.con
  [(key "connectionId", jsonUint snap.id),
    (key "service", jsonUint snap.srv.id)] ++
  (match snap.route with
    | some tunnel =>
        [(key "route", .string tunnel.name.text),
          (key "socksVersion", jsonInt con.socksVersion),
          (key "socksCommand", jsonInt con.socksCommand)]
    | none => []) ++
  hostMembers con.dstHostOriginal "remoteName"
    "remoteAddress" "remotePort" ++
  hostMembers con.dstHost "remoteNameEffective"
    "remoteAddressEffective" "remotePortEffective" ++
  [(key "status", jsonInt con.status)] ++
  stringIf (con.statusName.text ≠ []) "statusName"
    con.statusName.text ++
  stringIf (con.statusDescription.text ≠ [])
    "statusDescription" con.statusDescription.text ++
  [(key "bytesTx", jsonUint con.bytesTx),
    (key "bytesRx", jsonUint con.bytesRx)] ++
  stringIf
    (snap.srv.kind.isHttp && 0 < snap.urlPath.text.length)
    "urlPath" snap.urlPath.text ++
  stringIf snap.srcHost.hasName "sourceName"
    snap.srcHost.name.text ++
  [(key "sourceAddress",
      .string (snap.srcHost.addrStr.getD [])),
    (key "sourcePort", jsonInt snap.srcHost.port)] ++
  (if 0 < con.endTime then
    [(key "timeEnd", jsonUint (asUint con.endTime))]
  else []) ++
  [(key "timeStart", jsonUint (asUint snap.startTime))]

def connectionMember
    (snap : ConnectionSnapshot) : Text × Json :=
  (Text.ofNat snap.id.toNat, .object (connectionMembers snap))

def proxyMembers
    (proxy : ProxyInstance) : List (Text × Json) :=
  [(key "name", .string proxy.name.text),
    (key "logLevel",
      .string ((logLevelStr proxy.logLevel).getD [])),
    (key "logFilename",
      .string
        (match proxy.logFile with
          | some fileName => fileName.text
          | none => key "-")),
    (key "service",
      .object (proxy.serviceList.map serviceMember))] ++
  [(key "connection",
    .object (proxy.clientConnectionList.map
      connectionMember))]

def proxyMember
    (proxy : ProxyInstance) : Text × Json :=
  (proxy.name.text, .object (proxyMembers proxy))

def tunnelMembers
    (ssh : TunnelSnapshot) : List (Text × Json) :=
  [(key "name", .string ssh.tunnel.name.text)] ++
  (if 0 < ssh.runtime.pid then
    [(key "pid", jsonUint (asUint ssh.runtime.pid)),
      (key "timeStart",
        jsonUint (asUint ssh.runtime.startTime)),
      (key "numConnections",
        jsonUint (asUint ssh.runtime.connectionCount))]
  else []) ++
  [(key "socksPort", jsonInt ssh.tunnel.socksPort)]

def tunnelMember
    (ssh : TunnelSnapshot) : Text × Json :=
  (ssh.tunnel.name.text, .object (tunnelMembers ssh))

/- The document that the status is meant to be. -/
def statusDocument
    (state : StatusState) : Json :=
  .object
    ([(key "currentTime", jsonInt state.currentTime),
      (key "proxyStartTime", jsonInt state.proxyStartTime),
      (key "version", .string state.version),
      (key "buildDate", .string state.buildDate),
      (key "gitHash", .string state.gitHash),
      (key "proxyInstance",
        .object (state.proxyInstanceList.map proxyMember))] ++
    [(key "sshTunnel",
      .object ((shownTunnels state).map tunnelMember))])

------------------------------------------------------------
-- The Text
------------------------------------------------------------

/- Members that are followed by commas. -/
def terminated
    (members : List (Text × Json)) : Text :=
  members.flatMap fun member =>
    Json.plainMember member ++ [44]

theorem plainMore_append
    (members : List (Text × Json))
    (last : Text × Json) :
    44 :: (terminated members ++ Json.plainMember last) =
      Json.plainMore (members ++ [last]) := by
  induction members with
  | nil => simp [terminated, Json.plainMore]
  | cons member members ih =>
      rw [List.cons_append, Json.plainMore, ← ih]
      simp [terminated]

theorem plainMembers_append
    (members : List (Text × Json))
    (last : Text × Json) :
    Json.plainMembers (members ++ [last]) =
      terminated members ++ Json.plainMember last := by
  cases members with
  | nil => simp [terminated, Json.plainMembers, Json.plainMore]
  | cons member members =>
      rw [List.cons_append, Json.plainMembers,
        ← plainMore_append]
      simp [terminated]

theorem callsText_append
    (left right : List (Option Text)) :
    callsText (left ++ right) =
      callsText left ++ callsText right :=
  List.flatMap_append

theorem callsText_cons
    (call : Option Text)
    (calls : List (Option Text)) :
    callsText (call :: calls) =
      call.getD [] ++ callsText calls :=
  List.flatMap_cons

theorem terminated_append
    (left right : List (Text × Json)) :
    terminated (left ++ right) =
      terminated left ++ terminated right :=
  List.flatMap_append

/- The elements of a list, with commas between them. -/
theorem callsText_addList
    {α : Type}
    {calls : α → List (Option Text)}
    {member : α → Text × Json}
    (hEach :
      ∀ a, callsText (calls a) = Json.plainMember (member a))
    (as : List α) :
    callsText (addList (as.map calls)) =
      Json.plainMembers (as.map member) := by
  have hMore : ∀ as : List α,
      callsText
          ((as.map calls).flatMap fun cs => lit "," :: cs) =
        Json.plainMore (as.map member) := by
    intro as
    induction as with
    | nil => rfl
    | cons a as ih =>
        rw [List.map_cons, List.map_cons, List.flatMap_cons,
          callsText_append, callsText_cons, hEach, ih,
          Json.plainMore]
        rfl
  cases as with
  | nil => rfl
  | cons a as =>
      rw [List.map_cons, List.map_cons, addList,
        callsText_append, hEach, hMore, Json.plainMembers]

/- A string and its comma. -/
theorem callsText_addString_comma
    (name : String)
    (value : Option Text) :
    callsText (addString name value ++ addComma) =
      terminated [(key name, .string (value.getD []))] := by
  simp [callsText, addString, addComma, terminated, lit,
    Json.plainMember, Json.plain, quote, key, Text.ascii]

theorem callsText_addInt_comma
    (name : String)
    (value : Int) :
    callsText (addInt name value ++ addComma) =
      terminated [(key name, jsonInt value)] := by
  simp [callsText, addInt, addToBufInt, addComma, terminated,
    lit, Json.plainMember, Json.plain, quote, key, jsonInt,
    Text.ascii]

/- A string and its comma, under a condition. -/
theorem callsText_stringIf
    (shown : Bool)
    (name : String)
    (value : Option Text) :
    callsText
        (if shown then addString name value ++ addComma
        else []) =
      terminated (stringIf shown name (value.getD [])) := by
  cases shown with
  | true => exact callsText_addString_comma name value
  | false => rfl

theorem callsText_addHost
    (host : HostId)
    (name address port : String) :
    callsText (addHost host name address port) =
      terminated (hostMembers host name address port) := by
  unfold addHost hostMembers
  rw [List.append_assoc, callsText_append,
    callsText_append, callsText_stringIf, callsText_stringIf,
    callsText_addInt_comma, terminated_append,
    terminated_append]
  rfl

theorem callsText_addService
    (srv : Service) :
    callsText (addService srv) =
      Json.plainMember (serviceMember srv) := by
  unfold serviceMember serviceMembers addService
  simp only [Json.plainMember, Json.plain, plainMembers_append]
  cases srv.kind <;>
    simp [callsText, lit, addUint, addInt, addComma,
      addString, addToBufUint, addToBufInt, terminated,
      Json.plainMember, Json.plain, quote, key, jsonInt,
      jsonUint, Text.ascii, ServiceKind.name]

theorem callsText_addSshTunnel
    (ssh : TunnelSnapshot) :
    callsText (addSshTunnel ssh) =
      Json.plainMember (tunnelMember ssh) := by
  unfold tunnelMember tunnelMembers addSshTunnel
  simp only [Json.plainMember, Json.plain, plainMembers_append]
  split_ifs <;>
    simp [callsText, lit, addComma, addString,
      addToBufUint, addToBufInt, terminated,
      Json.plainMember, Json.plain, quote, key, jsonInt,
      jsonUint, Text.ascii]

/- The tunnel, for services that are routed. -/
theorem callsText_route
    (con : ClientConnection)
    (routed : Bool)
    (tunnel : SshTunnel) :
    callsText
        (if routed then
          [lit "\"route\":\"", some tunnel.name.text,
            lit "\","] ++
          addInt "socksVersion" con.socksVersion ++
          addComma ++
          addInt "socksCommand" con.socksCommand ++ addComma
        else []) =
      terminated
        (match (if routed then some tunnel else none) with
          | some tunnel =>
              [(key "route", .string tunnel.name.text),
                (key "socksVersion", jsonInt con.socksVersion),
                (key "socksCommand",
                  jsonInt con.socksCommand)]
          | none => []) := by
  cases routed with
  | false => rfl
  | true =>
      simp [callsText, lit, addInt, addComma, addToBufInt,
        terminated, Json.plainMember, Json.plain, quote, key,
        jsonInt, Text.ascii]

/- The end, for connections that have ended. -/
theorem callsText_timeEnd
    (endTime : Int) :
    callsText
        (if 0 < endTime then
          [lit "\"timeEnd\":"] ++
          addToBufUint (asUint endTime) ++ [lit ","]
        else []) =
      terminated
        (if 0 < endTime then
          [(key "timeEnd", jsonUint (asUint endTime))]
        else []) := by
  split_ifs <;>
    simp [callsText, lit, addToBufUint, terminated,
      Json.plainMember, Json.plain, quote, key, jsonUint,
      Text.ascii]

theorem callsText_addClientConnection
    (snap : ConnectionSnapshot) :
    callsText (addClientConnection snap) =
      Json.plainMember (connectionMember snap) := by
  have hIf :
      ∀ (p : Prop) [Decidable p] (name : String)
        (value : Option Text),
        callsText
            (if p then addString name value ++ addComma
            else []) =
          terminated (stringIf p name (value.getD [])) := by
    intro p _ name value
    by_cases hp : p
    · simp only [if_pos hp, stringIf, decide_eq_true hp]
      exact callsText_addString_comma name value
    · simp only [if_neg hp, stringIf, decide_eq_false hp]
      rfl
  have hUrl :
      callsText
          (if snap.srv.kind.isHttp then
            if 0 < snap.urlPath.text.length then
              addString "urlPath" (some snap.urlPath.text) ++
                addComma
            else []
          else []) =
        terminated
          (stringIf
            (snap.srv.kind.isHttp &&
              0 < snap.urlPath.text.length)
            "urlPath" snap.urlPath.text) := by
    cases snap.srv.kind.isHttp with
    | true => exact hIf _ _ _
    | false => rfl
  unfold connectionMember connectionMembers
    addClientConnection ConnectionSnapshot.route
  simp only [Json.plainMember, Json.plain,
    plainMembers_append, callsText_append, terminated_append,
    callsText_addHost, callsText_timeEnd, hIf, hUrl]
  cases snap.con.tunnel <;>
    simp only [callsText_route, ite_self]
  all_goals
    simp [callsText, lit, addUint, addInt, addComma,
      addString, addToBufUint, addToBufInt, terminated,
      Json.plainMember, Json.plain, quote, key, jsonInt,
      jsonUint, Text.ascii]

theorem callsText_addProxyInstance
    (proxy : ProxyInstance) :
    callsText (addProxyInstance proxy) =
      Json.plainMember (proxyMember proxy) := by
  have hServices :=
    callsText_addList callsText_addService proxy.serviceList
  have hConnections :=
    callsText_addList callsText_addClientConnection
      proxy.clientConnectionList
  unfold proxyMember proxyMembers addProxyInstance
  simp only [Json.plainMember, Json.plain,
    plainMembers_append, callsText_append, hServices,
    hConnections]
  cases proxy.logFile <;>
    simp [callsText, lit, addComma, addString, terminated,
      Json.plainMember, Json.plain, quote, key, Text.ascii]

/- The calls of build_json() write the document plainly. -/
theorem callsText_buildCalls
    (state : StatusState) :
    callsText (buildCalls state) =
      (statusDocument state).plain := by
  have hProxies :=
    callsText_addList callsText_addProxyInstance
      state.proxyInstanceList
  have hTunnels :=
    callsText_addList callsText_addSshTunnel
      (shownTunnels state)
  unfold statusDocument buildCalls
  simp only [Json.plain, plainMembers_append,
    callsText_append, hProxies, hTunnels]
  simp [callsText, lit, addComma, addString, addInt,
    addToBufInt, terminated, Json.plainMember, Json.plain,
    quote, key, jsonInt, Text.ascii]

end SmartSOCKSProxy
