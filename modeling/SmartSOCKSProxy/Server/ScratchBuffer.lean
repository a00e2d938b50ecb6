import SmartSOCKSProxy.Foundations.Stores
import SmartSOCKSProxy.Routing.Engine
import SmartSOCKSProxy.Server.HttpService

/-
  The scratch buffer of string_ends_with().

  The function copies its first argument to a buffer of 1000
  bytes without any check.  The strings that it is called with
  are short: names of requested files, which are in one line
  of a request, names of hosts, and texts of addresses.

  Key definitions include:
    * `stringEndsWithStores`
    * `contentTypeCalls`, `httpCalls`
    * `ruleCalls`, `ruleLoopCalls`, `routeCalls`

  Key theorems include:
    * `lowerStr_holds`
    * `length_inetNtop4_le`, `length_inetNtop6_le`
    * `stringEndsWith_inside`
-/

namespace SmartSOCKSProxy

------------------------------------------------------------
-- The Copy
------------------------------------------------------------

/- The stores into `lower_str`: the copy and its terminator. -/
def stringEndsWithStores
    (str : Text) : List Store :=
  storesAt 0 (Text.lower str) ++ [(str.length, 0)]

theorem stringEndsWithStores_inside
    {str : Text}
    (hShort : str.length < 1000) :
    Inside 1000 (stringEndsWithStores str) := by
  have hLength : (Text.lower str).length = str.length :=
    List.length_map _
  unfold stringEndsWithStores
  rw [inside_append, inside_storesAt_iff, hLength]
  refine ⟨Or.inr (by omega), ?_⟩
  simpa using hShort

/- They leave the lower-case copy, which is compared. -/
theorem lowerStr_holds
    (buf : Buffer)
    (str : Text) :
    (buf.putAll (stringEndsWithStores str)).Holds
      (Text.lower str) := by
  have hLength : (Text.lower str).length = str.length :=
    List.length_map _
  have hBuf :
      buf.putAll (stringEndsWithStores str) =
        (buf.store 0 (Text.lower str)).put (str.length, 0) := by
    unfold stringEndsWithStores Buffer.putAll
    rw [List.foldl_append]
    exact congrArg (Buffer.put · (str.length, 0))
      (Buffer.putAll_storesAt buf 0 (Text.lower str))
  rw [hBuf]
  constructor
  · rw [Buffer.load_put_of_le _ hLength.le]
    have hLoad := Buffer.load_store buf 0 (Text.lower str)
    rwa [Nat.zero_add] at hLoad
  · simp [Buffer.put, hLength]

------------------------------------------------------------
-- Calls of the HTTP Service
------------------------------------------------------------

/- The endings are tried until one is met. -/
def endsWithCalls
    (filename : Text) :
    List (String × String) → List (Text × Text)
  | [] => []
  | entry :: entries =>
      let ending := Text.ascii entry.1.toList
      (filename, ending) ::
        if stringEndsWith filename ending then []
        else endsWithCalls filename entries

/- The calls that return_file_contents() makes. -/
def contentTypeCalls
    (request : Text) : List (Text × Text) :=
  endsWithCalls (requestedFilename request) contentTypes

/- The calls that answer what the client sends. -/
def httpCalls
    (w : World) : List (Text × Text) :=
  let (rc, line, _) := readOneLineSafely w (1000 - 1)
  if rc ≤ 0 then []
  else
    let request := Text.cstr line
    if stringStartsWith request
        (Text.ascii "GET /status.json ".toList) then []
    else if stringStartsWith request
        (Text.ascii "GET /".toList) then
      contentTypeCalls request
    else []

theorem endsWithCalls_fst
    {filename : Text}
    {entries : List (String × String)}
    {call : Text × Text}
    (hCall : call ∈ endsWithCalls filename entries) :
    call.1 = filename := by
  induction entries with
  | nil => exact nomatch hCall
  | cons entry entries ih =>
      rw [endsWithCalls] at hCall
      rcases List.mem_cons.mp hCall with rfl | hLater
      · rfl
      · split at hLater
        · exact nomatch hLater
        · exact ih hLater

theorem httpCalls_short
    (w : World)
    {call : Text × Text}
    (hCall : call ∈ httpCalls w) :
    call.1.length < 1000 := by
  have hLine := length_readOneLineSafely_le w (1000 - 1)
  unfold httpCalls at hCall
  generalize readOneLineSafely w (1000 - 1) = run
    at hLine hCall
  rcases run with ⟨rc, line, w'⟩
  dsimp only at hCall hLine
  have hRequest := Text.length_cstr_le line
  have hName := length_requestedFilename_le (Text.cstr line)
  split at hCall
  · exact nomatch hCall
  split at hCall
  · exact nomatch hCall
  split at hCall
  · rw [endsWithCalls_fst hCall]
    omega
  · exact nomatch hCall

------------------------------------------------------------
-- Calls of the Rules Engine
------------------------------------------------------------

/-
  The calls for one rule, when it gets to that criterion: with
  the name, and with the address.
-/
def ruleCalls
    (route : RouteRule)
    (c : DstCache) : List (Text × Text) :=
  if matchIsApplies route c ∧ matchStartsWithApplies route c ∧
      route.matchEndsWith.text ≠ [] then
    (c.name.toList ++ c.ipaddr.toList).map fun str =>
      (str, route.matchEndsWith.text)
  else []

/- The calls of the loop over the rules. -/
def ruleLoopCalls
    (port : Int) :
    List RouteRule → EngineState → List (Text × Text)
  | [], _ => []
  | route :: routes, st =>
      ruleCalls route st.cache ++
        if thisRouteApplies route st.cache port then
          let st := applyResolveDns route (applyTo route st)
          if route.hasTunnel then []
          else ruleLoopCalls port routes st
        else ruleLoopCalls port routes st

/- The calls of decide_applicable_rule(). -/
def routeCalls
    (routeRuleList : List RouteRule)
    (con : ClientConnection)
    (dns : Resolver) : List (Text × Text) :=
  ruleLoopCalls con.dstHost.port routeRuleList
    { con := con
      dns := dns
      cache := DstCache.load con.dstHost }

------------------------------------------------------------
-- Texts of Addresses
------------------------------------------------------------

theorem length_intercalate_le
    {chr : UInt8}
    {texts : List Text}
    {k : Nat}
    (hShort : ∀ text ∈ texts, text.length ≤ k) :
    ([chr].intercalate texts).length ≤
      (k + 1) * texts.length := by
  induction texts with
  | nil => exact Nat.zero_le _
  | cons text texts ih =>
      have hHere := hShort text List.mem_cons_self
      have hRest := ih fun t ht =>
        hShort t (List.mem_cons_of_mem text ht)
      cases texts with
      | nil =>
          rw [List.intercalate_singleton, List.length_singleton]
          omega
      | cons next texts =>
          rw [List.intercalate_cons_cons, List.length_append,
            List.length_append, List.length_singleton,
            List.length_cons, Nat.mul_succ]
          omega

theorem length_octetText_le
    (b : UInt8) :
    (octetText b).length ≤ 3 := by
  unfold octetText
  split
  · simp
  · split
    · simp
    · simp

theorem length_octets_le
    (octets : List UInt8) :
    (([46] : Text).intercalate (octets.map octetText)).length ≤
      4 * octets.length := by
  have hShort :
      ∀ text ∈ octets.map octetText, text.length ≤ 3 := by
    intro text hText
    rcases List.mem_map.mp hText with ⟨b, _, rfl⟩
    exact length_octetText_le b
  refine (length_intercalate_le hShort).trans ?_
  rw [List.length_map]

theorem length_inetNtop4_le
    (addr : UInt32) :
    (inetNtop4 addr).length ≤ 16 :=
  length_octets_le (ipv4Octets addr)

theorem length_hexGroup_le
    (n : Nat) :
    (hexGroup n).length ≤ 4 := by
  have hLe := List.length_dropWhile_le
    (fun digit => decide (digit = 0))
    [n / 4096 % 16, n / 256 % 16, n / 16 % 16, n % 16]
  unfold hexGroup
  dsimp only
  generalize List.dropWhile (fun digit => decide (digit = 0))
    [n / 4096 % 16, n / 256 % 16, n / 16 % 16, n % 16] = digits
    at hLe ⊢
  cases digits with
  | nil => simp
  | cons digit digits => simpa using hLe

theorem length_groups_le
    (groups : List Nat) :
    (([58] : Text).intercalate (groups.map hexGroup)).length ≤
      5 * groups.length := by
  have hShort :
      ∀ text ∈ groups.map hexGroup, text.length ≤ 4 := by
    intro text hText
    rcases List.mem_map.mp hText with ⟨n, _, rfl⟩
    exact length_hexGroup_le n
  refine (length_intercalate_le hShort).trans ?_
  rw [List.length_map]

theorem length_embedded4_le
    (addr : Vector UInt8 16) :
    (embedded4 addr).length ≤ 16 := by
  have hLe := length_octets_le (addr.toList.drop 12)
  rwa [List.length_drop, Vector.length_toList] at hLe

theorem length_inetNtop6_le
    (addr : Vector UInt8 16) :
    (inetNtop6 addr).length ≤ 82 := by
  have hGroups : (ipv6Groups addr).length = 8 := by
    simp [ipv6Groups]
  have hEmbedded := length_embedded4_le addr
  have hMapped := length_hexGroup_le 65535
  unfold inetNtop6
  generalize ipv6Groups addr = groups at hGroups ⊢
  dsimp only
  split
  · have hAll := length_groups_le groups
    omega
  · rename_i base len _
    have hFront := length_groups_le (groups.take base)
    have hRest := length_groups_le (groups.drop (base + len))
    rw [List.length_take] at hFront
    rw [List.length_drop] at hRest
    split
    · simp only [List.length_append, List.length_singleton]
      omega
    · split
      · simp only [List.length_append, List.length_singleton]
        omega
      · simp only [List.length_append, List.length_singleton]
        omega

------------------------------------------------------------
-- Bounds
------------------------------------------------------------

/- The strings of a destination that are compared. -/
def ShortCache
    (c : DstCache) : Prop :=
  ∀ str ∈ c.name.toList ++ c.ipaddr.toList, str.length < 1000

theorem shortCache_load
    (dst : HostId) :
    ShortCache (DstCache.load dst) := by
  intro str hMem
  rcases List.mem_append.mp hMem with hName | hAddr
  · have hFits : dst.name.text.length ≤ 259 := dst.name.fits
    simp only [DstCache.load, rreGetHostIdName,
      Option.mem_toList] at hName
    split at hName
    · cases hName
      omega
    · exact nomatch hName
  · simp only [DstCache.load, rreGetHostIdAddr,
      Option.mem_toList] at hAddr
    cases hKind : dst.addr with
    | unspec =>
        rw [hKind] at hAddr
        exact nomatch hAddr
    | inet sinPort sinAddr =>
        rw [hKind] at hAddr
        cases hAddr
        exact (length_inetNtop4_le sinAddr).trans_lt (by decide)
    | inet6 sin6Port sin6Addr =>
        rw [hKind] at hAddr
        cases hAddr
        exact (length_inetNtop6_le sin6Addr).trans_lt (by decide)

/- The rules only leave caches of a destination. -/
theorem shortCache_permuted
    (route : RouteRule)
    {st : EngineState}
    (hShort : ShortCache st.cache) :
    ShortCache
      (applyResolveDns route (applyTo route st)).cache := by
  have hTo : ShortCache (applyTo route st).cache := by
    unfold applyTo
    split
    · exact shortCache_load _
    · exact hShort
  unfold applyResolveDns
  split
  · exact shortCache_load _
  · exact hTo

theorem ruleLoopCalls_short
    (port : Int)
    (routes : List RouteRule)
    {st : EngineState}
    (hShort : ShortCache st.cache)
    {call : Text × Text}
    (hCall : call ∈ ruleLoopCalls port routes st) :
    call.1.length < 1000 := by
  induction routes generalizing st with
  | nil => exact nomatch hCall
  | cons route routes ih =>
      rw [ruleLoopCalls] at hCall
      rcases List.mem_append.mp hCall with hHere | hLater
      · unfold ruleCalls at hHere
        split at hHere
        · rcases List.mem_map.mp hHere with ⟨str, hMem, rfl⟩
          exact hShort str hMem
        · exact nomatch hHere
      · split at hLater
        · split at hLater
          · exact nomatch hLater
          · exact ih (shortCache_permuted route hShort) hLater
        · exact ih hShort hLater

/-
  Every call, for whatever the client sends and for every
  destination and list of rules, stays inside the buffer.
-/
theorem stringEndsWith_inside :
    (∀ w, ∀ call ∈ httpCalls w,
      call.1.length < 1000 ∧
        Inside 1000 (stringEndsWithStores call.1)) ∧
    ∀ routeRuleList con dns,
      ∀ call ∈ routeCalls routeRuleList con dns,
        call.1.length < 1000 ∧
          Inside 1000 (stringEndsWithStores call.1) := by
  constructor
  · intro w call hCall
    have hShort := httpCalls_short w hCall
    exact ⟨hShort, stringEndsWithStores_inside hShort⟩
  · intro routeRuleList con dns call hCall
    have hShort : call.1.length < 1000 :=
      ruleLoopCalls_short con.dstHost.port routeRuleList
        (shortCache_load con.dstHost) hCall
    exact ⟨hShort, stringEndsWithStores_inside hShort⟩

end SmartSOCKSProxy
