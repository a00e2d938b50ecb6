import SmartSOCKSProxy.Routing.String2
import SmartSOCKSProxy.Server.RequestLine
import SmartSOCKSProxy.Server.StatusRequest
import SmartSOCKSProxy.Socks.Handler

/-
  The HTTP service.

  A thread reads the first line of the request, answers with
  a file or with the status document, and closes the
  connection.  Log messages are left out.

  Key definitions include:
    * `sendString`, `sendBasicResponse`
    * `getSafeFilenameFromRequest`, `contentTypeOf`
    * `FileSystem`, `sendFileLoop`, `returnFileContents`
    * `StatusLooks`, `returnConnectionStateJson`
    * `serviceHttpConnectionHandler`
-/

namespace SmartSOCKSProxy

------------------------------------------------------------
-- Strings
------------------------------------------------------------

/- `send_string()`: whether all of the string was written. -/
def sendString
    (w : World)
    (str : Text) : Bool × World :=
  let (rc, w) := w.sbWriteLen .client str
  (rc = str.length, w)

/- One string after the other, `if (ok) ok=send_string(..)`. -/
def sendStrings : World → List Text → Bool × World
  | w, [] => (true, w)
  | w, str :: strs =>
      let (ok, w) := sendString w str
      if ok then sendStrings w strs else (false, w)

/- The bytes of what is sent, with the texts of documents. -/
def Sent.bytes
    (document : Nat → Text) : Sent → Text
  | .text str => Text.ascii str.toList
  | .status responseStr => Text.ascii responseStr.toList
  | .json str => document str

/- The strings that basic_response() sends. -/
def basicResponseStrings
    (responseStr : String)
    (contentType : Option String) : List Text :=
  (basicResponse responseStr contentType).map
    (Sent.bytes fun _ => [])

/- `basic_response()` -/
def sendBasicResponse
    (w : World)
    (responseStr : String)
    (contentType : Option String) : Bool × World :=
  sendStrings w
    (basicResponseStrings responseStr contentType)

------------------------------------------------------------
-- File Names
------------------------------------------------------------

/- The characters that are allowed in a file name. -/
def isSafeChar
    (chr : UInt8) : Bool :=
  (97 ≤ chr ∧ chr ≤ 122) ∨ (65 ≤ chr ∧ chr ≤ 90) ∨
    (48 ≤ chr ∧ chr ≤ 57) ∨ chr = 95 ∨ chr = 45 ∨
      chr = 46 ∨ chr = 43 ∨ chr = 58

/- What is stored from an index on; others are skipped. -/
def safeFilenameLoop
    (len : Nat) : Nat → Text → Text
  | _, [] => []
  | index, chr :: src =>
      if chr ≠ 32 ∧ index < len - 1 then
        if isSafeChar chr then
          chr :: safeFilenameLoop len (index + 1) src
        else safeFilenameLoop len index src
      else []

/- The name behind `GET /`, up to the next blank. -/
def getSafeFilenameFromRequest
    (request : Text)
    (len : Nat) : Text :=
  safeFilenameLoop len 0 (request.drop 5)

/- The endings that are tried, in order. -/
def contentTypes : List (String × String) :=
  [(".html", "text/html; charset=utf-8"),
    (".css", "text/css; charset=utf-8"),
    (".txt", "text/plain"),
    (".js", "application/javascript; charset=utf-8"),
    (".json", "application/javascript; charset=utf-8"),
    (".xml", "text/xml"),
    (".xhtml", "application/xhtml+xml"),
    (".gif", "image/gif"),
    (".png", "image/png"),
    (".jpg", "image/jpeg"),
    (".jpeg", "image/jpeg"),
    (".svg", "image/svg+xml")]

def contentTypeOf
    (filename : Text) : Option String :=
  (contentTypes.find? fun entry =>
    stringEndsWith filename (Text.ascii entry.1.toList)).map
      Prod.snd

/- `GET / ` asks for the index. -/
def isIndexRequest
    (request : Text) : Bool :=
  stringStartsWith request (Text.ascii "GET / ".toList)

def requestedFilename
    (request : Text) : Text :=
  if isIndexRequest request then
    Text.ascii "index.html".toList
  else getSafeFilenameFromRequest request (4096 - 1)

theorem length_safeFilenameLoop_le
    (len index : Nat)
    (src : Text) :
    (safeFilenameLoop len index src).length ≤ src.length := by
  induction src generalizing index with
  | nil => exact le_rfl
  | cons chr src ih =>
      rw [safeFilenameLoop]
      split
      · split
        · exact Nat.succ_le_succ (ih _)
        · exact (ih _).trans (Nat.le_succ _)
      · exact Nat.zero_le _

/- A file name is shorter than its request. -/
theorem length_requestedFilename_le
    (request : Text) :
    (requestedFilename request).length ≤
      max 10 (request.length - 5) := by
  unfold requestedFilename
  split
  · exact le_max_left _ _
  · refine le_trans ?_ (le_max_right _ _)
    unfold getSafeFilenameFromRequest
    refine (length_safeFilenameLoop_le _ _ _).trans ?_
    rw [List.length_drop]

/- `snprintf(full_filename,sizeof(full_filename)-1,"%s/%s")` -/
def httpFilename
    (baseDir : CBuf 4096)
    (filename : Text) : Text :=
  (baseDir.text ++ 47 :: filename).take (9000 - 1 - 1)

------------------------------------------------------------
-- Files
------------------------------------------------------------

/-
  What access(path,F_OK) and open(path,O_RDONLY) return: an
  error number, or a descriptor with what it will read.
-/
structure FileSystem where
  access : Text → Except Int Unit
  openRdonly : Text → Except Int (Nat × Source)

/-
  A connection with the fields that the HTTP service uses.
-/
structure HttpConnection extends ClientConnection where
  urlPath : CBuf 4096
  jsonStatusRequested : Bool
deriving Inhabited

/-
  The loop that sends a file; the first result says whether it
  was left.  It goes on while the read delivers, or while errno
  is EINTR, which a successful call does not reset.
-/
def sendFileLoop :
    Nat → Bool → Source → World → Bool × World
  | 0, _, _, w => (false, w)
  | fuel + 1, ok, file, w =>
      match file.read (1000 - 1) with
      | (.ok chunk, file) =>
          if 0 < chunk.length then
            let (rc, w) := w.sbWriteLen .client chunk
            if ok = true ∧ rc = chunk.length then
              sendFileLoop fuel true file w
            else (true, w)
          else if ok = true ∧ w.errno = EINTR then
            sendFileLoop fuel ok file w
          else (true, w)
      | (.error e, file) =>
          if ok = true ∧ e = EINTR then
            sendFileLoop fuel ok file { w with errno := e }
          else (true, { w with errno := e })

/-
  The response string, if the function returns within the
  rounds that are counted.
-/
def returnFileContents
    (files : FileSystem)
    (baseDir : CBuf 4096)
    (fuel : Nat)
    (request : Text)
    (con : HttpConnection)
    (w : World) : Option String × HttpConnection × World :=
  let filename := requestedFilename request
  let con :=
    if isIndexRequest request then con
    else { con with urlPath := CBuf.copy filename }
  let path := httpFilename baseDir filename
  match files.access path with
  | .error e =>
      let (_, w) := sendBasicResponse { w with errno := e }
        "404 Not Found" none
      (some "404 Not Found", con, w)
  | .ok () =>
      match files.openRdonly path with
      | .error e =>
          let (_, w) := sendBasicResponse
            { w with errno := e } "404 Not Found" none
          (some "404 Not Found", con, w)
      | .ok (fd, file) =>
          let (ok, w) := sendBasicResponse
            (w.emit (.opened fd)) "200 OK"
            (contentTypeOf filename)
          match sendFileLoop fuel ok file w with
          | (false, w) => (none, con, w)
          | (true, w) =>
              (some "200 OK", con, w.emit (.closed fd))

------------------------------------------------------------
-- The Status Document
------------------------------------------------------------

/-
  What the thread finds in the fields that the main thread
  fills: whether the document is ready before the status line
  and before the body, and the document.
-/
structure StatusLooks where
  readyFirst : Bool
  readyThen : Bool
  document : Option Text

/- The document is sent if it is ready and there is one. -/
def sendDocument
    (looks : StatusLooks)
    (ok : Bool)
    (w : World) : World :=
  match looks.document with
  | some document =>
      if looks.readyThen ∧ ok then (sendString w document).2
      else w
  | none => w

def returnConnectionStateJson
    (looks : StatusLooks)
    (con : HttpConnection)
    (w : World) : Option String × HttpConnection × World :=
  let con := { con with jsonStatusRequested := true }
  let (ok, w) := sendString (w.emit .threadMsg)
    (Text.ascii "HTTP/1.1 ".toList)
  let responseStr :=
    if looks.readyFirst then "200 OK"
    else "503 Service Unavailable"
  let contentType :=
    if looks.readyFirst then some " application/json"
    else none
  let (ok, w) :=
    if ok then sendBasicResponse w responseStr contentType
    else (false, w)
  (some responseStr, con, sendDocument looks ok w)

------------------------------------------------------------
-- The Handler
------------------------------------------------------------

/- The answer to the first line of the request. -/
def answerRequest
    (files : FileSystem)
    (looks : StatusLooks)
    (baseDir : CBuf 4096)
    (fuel : Nat)
    (con : HttpConnection)
    (w : World) : Option String × HttpConnection × World :=
  let (rc, line, w) := readOneLineSafely w (1000 - 1)
  if rc ≤ 0 then
    (some "500 Internal Server Error", con, w)
  else
    let request := Text.cstr line
    if stringStartsWith request
        (Text.ascii "GET /status.json ".toList) then
      let con :=
        { con with
          urlPath :=
            CBuf.copy (Text.ascii "status.json".toList) }
      returnConnectionStateJson looks con w
    else if stringStartsWith request
        (Text.ascii "GET /".toList) then
      returnFileContents files baseDir fuel request con w
    else
      let (_, w) := sendBasicResponse w "400 Bad Request" none
      (some "400 Bad Request", con, w)

/- Whether the thread comes to its end, and what it leaves. -/
def serviceHttpConnectionHandler
    (files : FileSystem)
    (looks : StatusLooks)
    (baseDir : CBuf 4096)
    (fuel : Nat)
    (con : HttpConnection)
    (w : World) : Bool × HttpConnection × World :=
  match answerRequest files looks baseDir fuel con w with
  | (none, con, w) => (false, con, w)
  | (some _, con, w) =>
      let (closed, w) :=
        serviceThreadShutdown con.toClientConnection w 1
      (true, { con with toClientConnection := closed }, w)

end SmartSOCKSProxy
