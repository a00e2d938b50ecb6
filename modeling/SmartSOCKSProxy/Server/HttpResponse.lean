import SmartSOCKSProxy.Foundations.HttpMessage
import SmartSOCKSProxy.Server.HttpService
import SmartSOCKSProxy.Socks.Outcome

/-
  What the HTTP service writes.

  Every answer is a single response, with a file or with
  nothing behind its head, except that to a request for the
  status document: its first line has the version twice.

  Key definitions include:
    * `AsksStatus`, `IsAnswer`, `bytesSent`
    * `responseHead`

  Key theorems include:
    * `responseHead_isResponse`
    * `answerRequest_exchange`
    * `serviceHttpConnectionHandler_answers_iff`
    * `serviceHttpConnectionHandler_twice`
-/

namespace SmartSOCKSProxy

------------------------------------------------------------
-- Requests and Answers
------------------------------------------------------------

def httpVersion : Text :=
  Text.ascii "HTTP/1.1 ".toList

def statusRequest : Text :=
  Text.ascii "GET /status.json ".toList

/- The reads deliver a first line for the document. -/
def AsksStatus
    (s : Source) : Prop :=
  ∃ line, s.HasLine (1000 - 1) line ∧ statusRequest <+: line

/-
  Nothing, or a single response.  Its body is empty, or the
  content of a file up to some byte, or the document.
-/
def IsAnswer
    (files : FileSystem)
    (looks : StatusLooks)
    (bytes : Text) : Prop :=
  bytes = [] ∨ ∃ body, IsResponse httpVersion body bytes ∧
    (body = [] ∨
      (∃ path fd file,
        files.openRdonly path = .ok (fd, file) ∧
          body <+: file.pending) ∨
      looks.document = some body)

/- What was written to the client between two moments. -/
def bytesSent
    (w w' : World) : Text :=
  (sentTo .client w'.trace).drop
    (sentTo .client w.trace).length

theorem bytesSent_of_exchange
    {w w' : World}
    {got put : List UInt8}
    (hExchange : Exchange .client w got put w') :
    bytesSent w w' = put := by
  unfold bytesSent
  rw [hExchange.sent, List.drop_left]

------------------------------------------------------------
-- Heads
------------------------------------------------------------

/- What basic_response() sends in all. -/
def responseHead
    (responseStr : String)
    (contentType : Option String) : Text :=
  (basicResponseStrings responseStr contentType).flatten

/- The response strings of the service. -/
def responseStrs : List String :=
  ["200 OK", "404 Not Found", "400 Bad Request",
    "503 Service Unavailable"]

/- A text in a line, without the first letter of the version. -/
def InLine
    (text : Text) : Prop :=
  10 ∉ text ∧ 13 ∉ text ∧ 72 ∉ text

instance : DecidablePred InLine := by
  intro text
  unfold InLine
  infer_instance

theorem inLine_of_mem_responseStrs
    {responseStr : String}
    (hMem : responseStr ∈ responseStrs) :
    InLine (Text.ascii responseStr.toList) := by
  have hAll :
      ∀ str ∈ responseStrs, InLine (Text.ascii str.toList) := by
    decide
  exact hAll responseStr hMem

theorem isStatus_of_mem_responseStrs
    {responseStr : String}
    (hMem : responseStr ∈ responseStrs) :
    IsStatus (Text.ascii responseStr.toList) := by
  simp only [responseStrs, List.mem_cons, List.not_mem_nil,
    or_false] at hMem
  rcases hMem with rfl | rfl | rfl | rfl
  · exact ⟨Text.ascii "200".toList, Text.ascii "OK".toList,
      by decide⟩
  · exact ⟨Text.ascii "404".toList,
      Text.ascii "Not Found".toList, by decide⟩
  · exact ⟨Text.ascii "400".toList,
      Text.ascii "Bad Request".toList, by decide⟩
  · exact ⟨Text.ascii "503".toList,
      Text.ascii "Service Unavailable".toList, by decide⟩

/- Every content type fits in a header line. -/
theorem inLine_contentTypeOf
    {filename : Text}
    {type : String}
    (hType : contentTypeOf filename = some type) :
    InLine (Text.ascii type.toList) := by
  have hAll :
      ∀ entry ∈ contentTypes,
        InLine (Text.ascii entry.2.toList) := by
    decide
  rcases Option.map_eq_some_iff.mp hType with
    ⟨entry, hFind, rfl⟩
  exact hAll entry (List.mem_of_find?_eq_some hFind)

/- The header lines of a response. -/
def responseHeaders
    (contentType : Option String) : List Text :=
  [Text.ascii "Server: SmartSOCKSProxy/1.0".toList,
    Text.ascii "Connection: Closed".toList,
    Text.ascii "Transfer-Encoding: identity".toList] ++
  contentType.toList.map fun type =>
    Text.ascii "Content-Type: ".toList ++
      Text.ascii type.toList

theorem responseHead_eq
    (responseStr : String)
    (contentType : Option String) :
    responseHead responseStr contentType =
      withFeed (httpVersion ++ Text.ascii responseStr.toList) ++
        (responseHeaders contentType).flatMap withFeed ++
          withFeed [] := by
  have hServer :
      Text.ascii "Server: SmartSOCKSProxy/1.0\n".toList =
        withFeed
          (Text.ascii "Server: SmartSOCKSProxy/1.0".toList) :=
    rfl
  have hConnection :
      Text.ascii "Connection: Closed\n".toList =
        withFeed (Text.ascii "Connection: Closed".toList) :=
    rfl
  have hEncoding :
      Text.ascii "Transfer-Encoding: identity\n".toList =
        withFeed
          (Text.ascii "Transfer-Encoding: identity".toList) :=
    rfl
  have hEnd : Text.ascii "\n".toList = [10] := rfl
  unfold responseHead basicResponseStrings basicResponse
    responseHeaders
  cases contentType with
  | none =>
      simp only [List.map_append, List.map_cons,
        List.map_nil, Sent.bytes, hServer, hConnection,
        hEncoding, hEnd]
      simp [withFeed, httpVersion]
  | some type =>
      simp only [List.map_append, List.map_cons,
        List.map_nil, Sent.bytes, hServer, hConnection,
        hEncoding, hEnd]
      simp [withFeed, httpVersion]

theorem isHeaderLine_of_mem
    {contentType : Option String}
    (hType : ∀ type, contentType = some type →
      InLine (Text.ascii type.toList))
    {line : Text}
    (hMem : line ∈ responseHeaders contentType) :
    IsHeaderLine line ∧ 72 ∉ line := by
  unfold responseHeaders at hMem
  simp only [List.cons_append, List.nil_append,
    List.mem_cons, List.mem_map, Option.mem_toList] at hMem
  rcases hMem with rfl | rfl | rfl | ⟨type, hSome, rfl⟩
  · exact ⟨⟨Text.ascii "Server".toList,
      Text.ascii " SmartSOCKSProxy/1.0".toList, by decide⟩,
      by decide⟩
  · exact ⟨⟨Text.ascii "Connection".toList,
      Text.ascii " Closed".toList, by decide⟩, by decide⟩
  · exact ⟨⟨Text.ascii "Transfer-Encoding".toList,
      Text.ascii " identity".toList, by decide⟩, by decide⟩
  · have hName :
        Text.ascii "Content-Type: ".toList =
          Text.ascii "Content-Type".toList ++ [58, 32] := rfl
    have hNot :
        (72 : UInt8) ∉ Text.ascii "Content-Type: ".toList := by
      decide
    rcases hType type hSome with ⟨hFeed, hReturn, hVersion⟩
    refine ⟨⟨Text.ascii "Content-Type".toList,
      32 :: Text.ascii type.toList, ?_, by decide, by decide,
      ?_, ?_⟩, ?_⟩
    · rw [hName, List.append_assoc]
      rfl
    · simpa using hFeed
    · simpa using hReturn
    · exact fun hMem =>
        (List.mem_append.mp hMem).elim hNot hVersion

/- A head of the service starts a response. -/
theorem responseHead_isResponse
    {responseStr : String}
    {contentType : Option String}
    (hStr : responseStr ∈ responseStrs)
    (hType : ∀ type, contentType = some type →
      InLine (Text.ascii type.toList))
    (body : Text) :
    IsResponse httpVersion body
      (responseHead responseStr contentType ++ body) := by
  refine ⟨responseHead responseStr contentType, ?_, ?_, rfl⟩
  · exact ⟨Text.ascii responseStr.toList,
      responseHeaders contentType,
      isStatus_of_mem_responseStrs hStr,
      fun line hMem => (isHeaderLine_of_mem hType hMem).1,
      responseHead_eq responseStr contentType⟩
  · have hInLine := inLine_of_mem_responseStrs hStr
    have hHeaders :
        (72 : UInt8) ∉
          (responseHeaders contentType).flatMap withFeed := by
      simp only [List.mem_flatMap, not_exists, not_and]
      intro line hMem
      have hLine := (isHeaderLine_of_mem hType hMem).2
      simp [withFeed, hLine]
    have hVersion :
        httpVersion =
          72 :: Text.ascii "TTP/1.1 ".toList := rfl
    have hShape :
        responseHead responseStr contentType =
          72 :: Text.ascii "TTP/1.1 ".toList ++
            (withFeed (Text.ascii responseStr.toList) ++
              (responseHeaders contentType).flatMap withFeed ++
                withFeed []) := by
      rw [responseHead_eq, hVersion]
      simp only [withFeed, List.append_assoc]
    rw [hShape, hVersion]
    exact occurrences_once (by decide)
      (by simp [hInLine.2.2, hHeaders, withFeed])

------------------------------------------------------------
-- Writes
------------------------------------------------------------

/- An event that writes nothing. -/
theorem exchange_emit
    (w : World)
    {event : Event}
    (hSilent : ∀ peer, event.sentTo peer = []) :
    Exchange .client w [] [] (w.emit event) := by
  have hSpares : ∀ peer, w.Spares peer (w.emit event) :=
    fun peer => World.Spares.of_emit w (hSilent peer)
  refine ⟨rfl, List.suffix_rfl, List.suffix_rfl, ?_, rfl,
    (hSpares .server).sent, rfl⟩
  rw [(hSpares .client).sent, List.append_nil]

/- A call that fails and writes nothing. -/
theorem exchange_errno
    (w : World)
    (e : Int) :
    Exchange .client w [] [] { w with errno := e } :=
  ⟨rfl, List.suffix_rfl, List.suffix_rfl,
    (List.append_nil _).symm, rfl, rfl, rfl⟩

theorem sendString_of_reliable
    {w : World}
    (str : Text)
    (hReliable : (w.sink .client).Reliable) :
    ∃ w', sendString w str = (true, w') ∧
      Exchange .client w [] str w' := by
  rcases World.sbWriteLen_of_reliable str hReliable with
    ⟨w', hWrite, hExchange⟩
  refine ⟨w', ?_, hExchange⟩
  unfold sendString
  rw [hWrite]
  simp

theorem sendStrings_of_reliable
    {w : World}
    (strs : List Text)
    (hReliable : (w.sink .client).Reliable) :
    ∃ w', sendStrings w strs = (true, w') ∧
      Exchange .client w [] strs.flatten w' := by
  induction strs generalizing w with
  | nil => exact ⟨w, rfl, Exchange.refl _ w⟩
  | cons str strs ih =>
      rcases sendString_of_reliable str hReliable with
        ⟨w₁, hFirst, hExchange⟩
      rcases ih (hExchange.sink_reliable hReliable) with
        ⟨w₂, hRest, hExchange'⟩
      refine ⟨w₂, ?_, hExchange.trans hExchange'⟩
      rw [sendStrings, hFirst]
      exact hRest

theorem sendBasicResponse_of_reliable
    {w : World}
    (responseStr : String)
    (contentType : Option String)
    (hReliable : (w.sink .client).Reliable) :
    ∃ w', sendBasicResponse w responseStr contentType =
        (true, w') ∧
      Exchange .client w []
        (responseHead responseStr contentType) w' :=
  sendStrings_of_reliable _ hReliable

/- The loop writes the file up to some byte. -/
theorem sendFileLoop_of_reliable
    (fuel : Nat)
    (file : Source)
    {w : World}
    (hReliable : (w.sink .client).Reliable) :
    ∃ left body w',
      sendFileLoop fuel true file w = (left, w') ∧
        Exchange .client w [] body w' ∧
        body <+: file.pending := by
  induction fuel generalizing file w with
  | zero =>
      exact ⟨false, [], w, rfl, Exchange.refl _ w,
        List.nil_prefix⟩
  | succ fuel ih =>
      rw [sendFileLoop]
      rcases file.read_cases (1000 - 1) with
        ⟨chunk, file', hRead, hDelivers⟩ |
        ⟨e, file', hRead, hFails⟩
      · simp only [hRead]
        rcases World.sbWriteLen_of_reliable chunk hReliable with
          ⟨w₁, hWrite, hExchange⟩
        by_cases hChunk : 0 < chunk.length
        · rw [if_pos hChunk, hWrite]
          simp only [and_self, if_true]
          rcases ih file' (hExchange.sink_reliable hReliable)
            with ⟨left, body, w₂, hLoop, hRest, hBody⟩
          refine ⟨left, chunk ++ body, w₂, hLoop,
            hExchange.trans hRest, ?_⟩
          rw [hDelivers.pending]
          exact (List.prefix_append_right_inj chunk).mpr hBody
        · rw [if_neg hChunk]
          have hNil : chunk = [] :=
            List.length_eq_zero_iff.mp (by omega)
          have hPending : file.pending = file'.pending := by
            rw [hDelivers.pending, hNil, List.nil_append]
          by_cases hStale : w.errno = EINTR
          · rw [if_pos ⟨trivial, hStale⟩, hPending]
            exact ih file' hReliable
          · rw [if_neg (fun hGo => hStale hGo.2)]
            exact ⟨true, [], w, rfl, Exchange.refl _ w,
              List.nil_prefix⟩
      · simp only [hRead]
        have hErrno := exchange_errno w e
        by_cases hIntr : e = EINTR
        · rw [if_pos ⟨trivial, hIntr⟩]
          rcases ih file' (hErrno.sink_reliable hReliable) with
            ⟨left, body, w', hLoop, hRest, hBody⟩
          rw [hFails.pending] at hBody
          exact ⟨left, body, w', hLoop, hErrno.trans hRest,
            hBody⟩
        · rw [if_neg (fun hGo => hIntr hGo.2)]
          exact ⟨true, [], _, rfl, hErrno, List.nil_prefix⟩

------------------------------------------------------------
-- Answers
------------------------------------------------------------

variable {files : FileSystem}
variable {looks : StatusLooks}

/- A head alone is an answer. -/
theorem isAnswer_of_head
    {responseStr : String}
    (hStr : responseStr ∈ responseStrs) :
    IsAnswer files looks (responseHead responseStr none) := by
  have hResponse :
      IsResponse httpVersion []
        (responseHead responseStr none ++ []) :=
    responseHead_isResponse hStr (by simp) []
  rw [List.append_nil] at hResponse
  exact Or.inr ⟨[], hResponse, Or.inl rfl⟩

/- The file is missing, or cannot be opened. -/
theorem notFound_exchange
    {w : World}
    (e : Int)
    (hReliable : (w.sink .client).Reliable) :
    Exchange .client w []
      (responseHead "404 Not Found" none)
      (sendBasicResponse { w with errno := e }
        "404 Not Found" none).2 := by
  have hErrno := exchange_errno w e
  rcases sendBasicResponse_of_reliable "404 Not Found" none
      (hErrno.sink_reliable hReliable) with
    ⟨w', hSend, hExchange⟩
  rw [hSend]
  exact hErrno.trans hExchange

/- A file that is opened, as far as the loop gets. -/
theorem found_exchange
    (fuel fd : Nat)
    (file : Source)
    {w : World}
    (contentType : Option String)
    (hReliable : (w.sink .client).Reliable) :
    ∃ left body w₁ w₂,
      sendBasicResponse (w.emit (.opened fd)) "200 OK"
          contentType =
        (true, w₁) ∧
      sendFileLoop fuel true file w₁ = (left, w₂) ∧
      body <+: file.pending ∧
      Exchange .client w []
        (responseHead "200 OK" contentType ++ body) w₂ ∧
      Exchange .client w []
        (responseHead "200 OK" contentType ++ body)
        (w₂.emit (.closed fd)) := by
  have hOpened :
      Exchange .client w [] [] (w.emit (.opened fd)) :=
    exchange_emit w fun _ => rfl
  rcases sendBasicResponse_of_reliable "200 OK" contentType
      (hOpened.sink_reliable hReliable) with
    ⟨w₁, hSend, hHead⟩
  have hHeaded := hOpened.trans hHead
  rcases sendFileLoop_of_reliable fuel file
      (hHeaded.sink_reliable hReliable) with
    ⟨left, body, w₂, hLoop, hBody, hFile⟩
  have hSent := hHeaded.trans hBody
  have hClosed :
      Exchange .client w₂ [] [] (w₂.emit (.closed fd)) :=
    exchange_emit w₂ fun _ => rfl
  exact ⟨left, body, w₁, w₂, hSend, hLoop, hFile, hSent,
    by simpa using hSent.trans hClosed⟩

/- A file that is found, or none. -/
theorem returnFileContents_exchange
    (files : FileSystem)
    (looks : StatusLooks)
    (baseDir : CBuf 4096)
    (fuel : Nat)
    (request : Text)
    (con : HttpConnection)
    {w : World}
    (hReliable : (w.sink .client).Reliable) :
    ∃ put, IsAnswer files looks put ∧
      Exchange .client w [] put
        (returnFileContents files baseDir fuel request con
          w).2.2 := by
  have hMissing :
      IsAnswer files looks
        (responseHead "404 Not Found" none) :=
    isAnswer_of_head (by decide)
  unfold returnFileContents
  dsimp only
  generalize httpFilename baseDir (requestedFilename request)
    = path
  cases files.access path with
  | error e =>
      exact ⟨_, hMissing, notFound_exchange e hReliable⟩
  | ok found =>
      cases hOpen : files.openRdonly path with
      | error e =>
          exact ⟨_, hMissing, notFound_exchange e hReliable⟩
      | ok opened =>
          rcases opened with ⟨fd, file⟩
          rcases found_exchange fuel fd file
              (contentTypeOf (requestedFilename request))
              hReliable with
            ⟨left, body, w₁, w₂, hSend, hLoop, hFile, hSent,
              hClosed⟩
          have hStr : "200 OK" ∈ responseStrs := by decide
          have hResponse :
              IsResponse httpVersion body
                (responseHead "200 OK" (contentTypeOf
                  (requestedFilename request)) ++ body) :=
            responseHead_isResponse hStr
              (fun type hType => inLine_contentTypeOf hType)
              body
          refine ⟨_, Or.inr ⟨body, hResponse,
            Or.inr (Or.inl ⟨path, fd, file, hOpen, hFile⟩)⟩, ?_⟩
          simp only [hSend, hLoop]
          cases left with
          | false => exact hSent
          | true => exact hClosed

/- The document is written, or nothing. -/
theorem sendDocument_exchange
    (looks : StatusLooks)
    {w : World}
    (hReliable : (w.sink .client).Reliable) :
    ∃ body, Exchange .client w [] body
      (sendDocument looks true w) := by
  unfold sendDocument
  cases looks.document with
  | none => exact ⟨[], Exchange.refl _ w⟩
  | some document =>
      rcases sendString_of_reliable document hReliable with
        ⟨w', hSend, hExchange⟩
      by_cases hReady : looks.readyThen = true
      · simp only [hReady, and_self, if_true, hSend]
        exact ⟨document, hExchange⟩
      · simp only [hReady]
        exact ⟨[], Exchange.refl _ w⟩

/-
  With the document, the version is written once more before
  the head.
-/
theorem returnConnectionStateJson_exchange
    (looks : StatusLooks)
    (con : HttpConnection)
    {w : World}
    (hReliable : (w.sink .client).Reliable) :
    ∃ rest, Exchange .client w []
      (httpVersion ++ httpVersion ++ rest)
      (returnConnectionStateJson looks con w).2.2 := by
  have hThreadMsg :
      Exchange .client w [] [] (w.emit .threadMsg) :=
    exchange_emit w fun _ => rfl
  rcases sendString_of_reliable httpVersion
      (hThreadMsg.sink_reliable hReliable) with
    ⟨w₁, hVersion, hFirst⟩
  unfold returnConnectionStateJson
  unfold httpVersion at hVersion
  dsimp only
  rw [hVersion]
  generalize (if looks.readyFirst then "200 OK"
    else "503 Service Unavailable") = responseStr
  generalize (if looks.readyFirst then
    some " application/json" else none) = contentType
  have hVersioned := hThreadMsg.trans hFirst
  rcases sendBasicResponse_of_reliable responseStr contentType
      (hVersioned.sink_reliable hReliable) with
    ⟨w₂, hSend, hHead⟩
  have hHeaded := hVersioned.trans hHead
  rcases sendDocument_exchange looks
      (hHeaded.sink_reliable hReliable) with
    ⟨body, hBody⟩
  have hAll := hHeaded.trans hBody
  simp only [if_true, hSend]
  rw [responseHead_eq] at hAll
  refine ⟨Text.ascii responseStr.toList ++ [10] ++
    (responseHeaders contentType).flatMap withFeed ++
      withFeed [] ++ body, ?_⟩
  simpa [withFeed] using hAll

------------------------------------------------------------
-- The Handler
------------------------------------------------------------

/- A start without a zero byte is seen behind one, too. -/
theorem isPrefix_cstr_iff
    {start line : Text}
    (hNoNul : (0 : UInt8) ∉ start) :
    start <+: Text.cstr line ↔ start <+: line := by
  constructor
  · exact fun hStart =>
      hStart.trans (List.takeWhile_prefix _)
  · rintro ⟨rest, rfl⟩
    have hKept : ∀ b ∈ start, decide (b ≠ 0) = true := by
      intro b hMem
      have hNe : b ≠ 0 := by
        rintro rfl
        exact hNoNul hMem
      simpa using hNe
    unfold Text.cstr
    rw [List.takeWhile_append_of_pos hKept]
    exact List.prefix_append _ _

theorem startsStatus_iff
    (line : Text) :
    stringStartsWith (Text.cstr line)
        (Text.ascii "GET /status.json ".toList) = true ↔
      statusRequest <+: line :=
  (stringStartsWith_iff _ _).trans
    (isPrefix_cstr_iff (by decide))

/- The line that is read shows whether it asks for it. -/
theorem readRequest_exchange
    (w : World) :
    ∃ rc line got w',
      readOneLineSafely w (1000 - 1) = (rc, line, w') ∧
        Exchange .client w got [] w' ∧
        (AsksStatus (w.source .client) ↔
          0 < rc ∧ statusRequest <+: line) := by
  have hRoom : 1 ≤ 1000 - 1 := by decide
  rcases readOneLineSafely_spec hRoom w with
    ⟨rc, line, got, w', hRead, hExchange, hLine⟩
  refine ⟨rc, line, got, w', hRead, hExchange, ?_⟩
  unfold AsksStatus
  rcases hLine with ⟨rfl, hLine⟩ | ⟨hNone, hNoLine⟩
  · simp only [hLine, exists_eq_left]
    refine ⟨fun hStart => ⟨?_, hStart⟩, And.right⟩
    have hLength := hStart.length_le
    have hSome : 0 < statusRequest.length := by decide
    omega
  · simp [hNoLine, not_lt.mpr hNone]

/-
  What is written is an answer, unless the document was asked
  for.
-/
theorem answerRequest_exchange
    (files : FileSystem)
    (looks : StatusLooks)
    (baseDir : CBuf 4096)
    (fuel : Nat)
    (con : HttpConnection)
    {w : World}
    (hReliable : (w.sink .client).Reliable) :
    ∃ got put,
      Exchange .client w got put
        (answerRequest files looks baseDir fuel con w).2.2 ∧
      (AsksStatus (w.source .client) ∧
          (∃ rest, put = httpVersion ++ httpVersion ++ rest) ∨
        ¬AsksStatus (w.source .client) ∧
          IsAnswer files looks put) := by
  rcases readRequest_exchange w with
    ⟨rc, line, got, w₁, hRead, hExchange, hAsks⟩
  have hReliable₁ := hExchange.sink_reliable hReliable
  rw [hAsks]
  unfold answerRequest
  rw [hRead]
  dsimp only
  by_cases hNone : rc ≤ 0
  · rw [if_pos hNone]
    exact ⟨got, [], hExchange, Or.inr
      ⟨fun hThere => not_lt.mpr hNone hThere.1, Or.inl rfl⟩⟩
  · rw [if_neg hNone]
    by_cases hStatus : statusRequest <+: line
    · rw [if_pos ((startsStatus_iff line).mpr hStatus)]
      rcases returnConnectionStateJson_exchange looks
          { con with
            urlPath :=
              CBuf.copy (Text.ascii "status.json".toList) }
          hReliable₁ with
        ⟨rest, hSent⟩
      exact ⟨got ++ [], _, hExchange.trans hSent, Or.inl
        ⟨⟨not_le.mp hNone, hStatus⟩, rest, rfl⟩⟩
    · rw [if_neg (mt (startsStatus_iff line).mp hStatus)]
      have hNot : ¬(0 < rc ∧ statusRequest <+: line) :=
        fun hThere => hStatus hThere.2
      split_ifs with hGet
      · rcases returnFileContents_exchange files looks baseDir
            fuel (Text.cstr line) con hReliable₁ with
          ⟨put, hAnswer, hSent⟩
        exact ⟨got ++ [], put, hExchange.trans hSent,
          Or.inr ⟨hNot, hAnswer⟩⟩
      · rcases sendBasicResponse_of_reliable "400 Bad Request"
            none hReliable₁ with
          ⟨w₂, hSend, hSent⟩
        rw [hSend]
        exact ⟨got ++ [], _, hExchange.trans hSent,
          Or.inr ⟨hNot, isAnswer_of_head (by decide)⟩⟩

/- The end of the thread writes nothing. -/
theorem bytesSent_handler
    {baseDir : CBuf 4096}
    {fuel : Nat}
    {con : HttpConnection}
    {w : World}
    {got put : List UInt8}
    (hExchange : Exchange .client w got put
      (answerRequest files looks baseDir fuel con w).2.2) :
    bytesSent w
        (serviceHttpConnectionHandler files looks baseDir fuel
          con w).2.2 =
      put := by
  have hSame :
      sentTo .client
          (serviceHttpConnectionHandler files looks baseDir
            fuel con w).2.2.trace =
        sentTo .client
          (answerRequest files looks baseDir fuel con
            w).2.2.trace := by
    unfold serviceHttpConnectionHandler
    rcases answerRequest files looks baseDir fuel con w with
      ⟨responseStr, con', w'⟩
    cases responseStr with
    | none => rfl
    | some str =>
        exact serviceThreadShutdown_sent .client
          con'.toClientConnection w' 1
  rw [← bytesSent_of_exchange hExchange]
  unfold bytesSent
  rw [hSame]

/- The version twice does not start a response. -/
theorem not_isAnswer_twice
    (rest : Text) :
    ¬IsAnswer files looks
      (httpVersion ++ httpVersion ++ rest) := by
  rintro (hNil | ⟨body, hResponse, _⟩)
  · have hSome : httpVersion ≠ [] := by decide
    simp [hSome] at hNil
  · rcases hResponse.status_behind with
      ⟨chr, rest', hBytes, hDigit⟩
    have hVersion :
        httpVersion =
          72 :: Text.ascii "TTP/1.1 ".toList := rfl
    rw [List.append_assoc] at hBytes
    have hBehind := List.append_cancel_left hBytes
    rw [hVersion, List.cons_append] at hBehind
    cases hBehind
    exact absurd hDigit (by decide)

/-
  When writes succeed, the service writes nothing or a single
  response, exactly when the first line that it can read does
  not ask for the status document.
-/
theorem serviceHttpConnectionHandler_answers_iff
    (files : FileSystem)
    (looks : StatusLooks)
    (baseDir : CBuf 4096)
    (fuel : Nat)
    (con : HttpConnection)
    {w : World}
    (hWrites : (w.sink .client).Reliable) :
    IsAnswer files looks (bytesSent w
        (serviceHttpConnectionHandler files looks baseDir fuel
          con w).2.2) ↔
      ¬AsksStatus (w.source .client) := by
  rcases answerRequest_exchange files looks baseDir fuel con
      hWrites with
    ⟨got, put, hExchange, hPut⟩
  rw [bytesSent_handler hExchange]
  rcases hPut with ⟨hAsks, rest, rfl⟩ | ⟨hNot, hAnswer⟩
  · exact ⟨fun hAnswer =>
      absurd hAnswer (not_isAnswer_twice rest),
      fun hNot => absurd hAsks hNot⟩
  · exact ⟨fun _ => hNot, fun _ => hAnswer⟩

/- A server without files, and a client's first line. -/
def noFiles : FileSystem where
  access := fun _ => .error 2
  openRdonly := fun _ => .error 2

def firstLine
    (line : String) : World :=
  { (default : World) with
    socks := fun _ =>
      ⟨⟨Text.ascii line.toList ++ [10], []⟩, ⟨[]⟩⟩ }

/- The index that is not there. -/
theorem serviceHttpConnectionHandler_answers_index :
    IsAnswer noFiles ⟨false, false, none⟩
      (bytesSent (firstLine "GET / HTTP/1.1")
        (serviceHttpConnectionHandler noFiles
          ⟨false, false, none⟩ CBuf.empty 0 default
          (firstLine "GET / HTTP/1.1")).2.2) := by
  apply (serviceHttpConnectionHandler_answers_iff noFiles
    ⟨false, false, none⟩ CBuf.empty 0 default (by decide)).mpr
  rintro ⟨line, hLine, hStatus⟩
  have hNot :
      ¬statusRequest <+:
        Text.ascii "GET / HTTP/1.1".toList ++ [10] := by
    decide
  exact hNot (hStatus.trans hLine.starts)

/- The status document that is not ready in time. -/
theorem serviceHttpConnectionHandler_twice :
    ¬ ∀ (files : FileSystem) (looks : StatusLooks)
        (baseDir : CBuf 4096) (fuel : Nat)
        (con : HttpConnection) (w : World),
      (w.sink .client).Reliable →
        IsAnswer files looks (bytesSent w
          (serviceHttpConnectionHandler files looks baseDir
            fuel con w).2.2) := by
  intro hAll
  have hWrites :
      ((firstLine "GET /status.json HTTP/1.1").sink
        .client).Reliable := by
    decide
  have hLine :
      ((firstLine "GET /status.json HTTP/1.1").source
        .client).HasLine (1000 - 1)
          (Text.ascii "GET /status.json HTTP/1.1".toList) := by
    have hPlain :
        (Text.ascii "GET /status.json HTTP/1.1".toList).all
          (fun chr => decide ¬isLineEnd chr) = true := by
      decide
    refine ⟨?_, Or.inr ⟨by decide,
      ⟨10, by decide, List.prefix_rfl⟩, by decide, ?_⟩⟩
    · intro chr hMem
      exact of_decide_eq_true
        (List.all_eq_true.mp hPlain chr hMem)
    · simp [firstLine, World.source]
  have hAsks :
      AsksStatus
        ((firstLine "GET /status.json HTTP/1.1").source
          .client) :=
    ⟨_, hLine, by decide⟩
  rcases answerRequest_exchange noFiles ⟨false, false, none⟩
      CBuf.empty 0 default hWrites with
    ⟨got, put, hExchange, ⟨_, rest, rfl⟩ | ⟨hNot, _⟩⟩
  · have hAnswer := hAll noFiles ⟨false, false, none⟩
      CBuf.empty 0 default _ hWrites
    rw [bytesSent_handler hExchange] at hAnswer
    exact not_isAnswer_twice rest hAnswer
  · exact hNot hAsks

end SmartSOCKSProxy
