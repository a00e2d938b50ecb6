import SmartSOCKSProxy.Foundations.Transition

/-
  A request for the status document.

  The thread of an HTTP connection asks the main thread for
  the document, and waits for it for a while.  Every access to
  a shared field is one step of either thread.

  Key definitions include:
    * `Handover`, `httpMove`, `mainMove`
    * `statusHandover`
-/

namespace SmartSOCKSProxy

------------------------------------------------------------
-- The Connection
------------------------------------------------------------

/-
  The fields both threads use.  A string is the number of the
  strdup() that allocated it.
-/
structure StatusFields where
  jsonStatusRequested : Bool
  jsonStatusReady : Bool
  jsonStatusStr : Option Nat
  jsonStatusLen : Int
  endTime : Int
  threadHasExited : Bool
deriving DecidableEq

/- What is sent: a text, a status line, or a document. -/
inductive Sent where
| text (str : String)
| status (responseStr : String)
| json (str : Nat)
deriving DecidableEq

/-
  Where the HTTP thread is, from the request in
  return_connection_state_json() to service_thread_shutdown().
-/
inductive HttpPc where
| request
| wake
| poll (i : Nat)
| sleep (i : Nat)
| version
| readStatus
| respond (contentType : Option String)
| testReady
| testStr
| sendJson
| testLeft
| freeLeft
| clearLeft
| testFinal
| freeFinal
| clearFinal
| endTime
| exit
| gone
deriving DecidableEq

/-
  Where the main thread is in its pass, as far as it looks at
  this connection.  A document is given by its length.
-/
inductive MainPc where
| cleanup
| loiter
| free
| needRequested
| needReady
| build
| fillRequested (json : Option Int)
| fillReady (json : Option Int)
| fillStr (json : Option Int)
| fillLen (json : Option Int)
| fillDone
| away
deriving DecidableEq

/-
  The two threads and their connection.  Besides what the
  program has, there are the strings that were stored in the
  connection and those that were freed, in order, and what was
  sent to the client.
-/
structure Handover where
  con : StatusFields
  pc : HttpPc
  ok : Bool
  responseStr : String
  main : MainPc
  strings : Nat
  stored : List Nat
  freed : List Nat
  sent : List Sent
deriving DecidableEq

------------------------------------------------------------
-- The HTTP Thread
------------------------------------------------------------

/- The pieces that basic_response() sends. -/
def basicResponse
    (responseStr : String)
    (contentType : Option String) : List Sent :=
  [.text "HTTP/1.1 ", .status responseStr, .text "\n",
    .text "Server: SmartSOCKSProxy/1.0\n",
    .text "Connection: Closed\n",
    .text "Transfer-Encoding: identity\n"] ++
  (match contentType with
    | some type =>
        [.text "Content-Type: ", .text type, .text "\n"]
    | none => []) ++
  [.text "\n"]

namespace Handover

/-
  Pieces are sent while the socket works; `n` of them can be
  sent before it fails.
-/
def send
    (s : Handover)
    (pieces : List Sent)
    (n : Nat) : Handover :=
  if s.ok then
    { s with
      sent := s.sent ++ pieces.take n
      ok := decide (pieces.length ≤ n) }
  else s

/-
  send_string() of the document.  A part of it may be sent
  even when the socket fails.
-/
def sendDocument
    (s : Handover)
    (n : Nat) : Handover :=
  match s.con.jsonStatusStr with
  | some str =>
      if s.ok then
        { s with
          sent := s.sent ++ [.json str]
          ok := decide (1 ≤ n) }
      else s
  | none => s

/- `free(con->JSONStatusStr)` -/
def freeStr
    (s : Handover) : Handover :=
  { s with freed := s.freed ++ s.con.jsonStatusStr.toList }

/- `con->JSONStatusStr=NULL` -/
def clearStr
    (s : Handover) : Handover :=
  { s with con := { s.con with jsonStatusStr := none } }

end Handover

/-
  One step of the HTTP thread.  `n` says how many pieces can
  be sent and `now` what time it is.
-/
def httpMove
    (s : Handover)
    (n : Nat)
    (now : Int) : Handover :=
  match s.pc with
  | .request =>
      { s with
        con := { s.con with jsonStatusRequested := true }
        pc := .wake }
  | .wake => { s with pc := .poll 0 }
  | .poll i =>
      if i < 100 ∧ s.con.jsonStatusReady = false then
        { s with pc := .sleep i }
      else { s with pc := .version }
  | .sleep i => { s with pc := .poll (i + 1) }
  | .version =>
      { s.send [.text "HTTP/1.1 "] n with pc := .readStatus }
  | .readStatus =>
      if s.con.jsonStatusReady then
        { s with
          responseStr := "200 OK"
          pc := .respond (some " application/json") }
      else
        { s with
          responseStr := "503 Service Unavailable"
          pc := .respond none }
  | .respond contentType =>
      { s.send (basicResponse s.responseStr contentType) n
          with pc := .testReady }
  | .testReady =>
      if s.con.jsonStatusReady then { s with pc := .testStr }
      else { s with pc := .testLeft }
  | .testStr =>
      if s.con.jsonStatusStr.isSome then
        { s with pc := .sendJson }
      else { s with pc := .testLeft }
  | .sendJson => { s.sendDocument n with pc := .testLeft }
  | .testLeft =>
      if s.con.jsonStatusStr.isSome then
        { s with pc := .freeLeft }
      else { s with pc := .testFinal }
  | .freeLeft => { s.freeStr with pc := .clearLeft }
  | .clearLeft => { s.clearStr with pc := .testFinal }
  | .testFinal =>
      if s.con.jsonStatusStr.isSome then
        { s with pc := .freeFinal }
      else { s with pc := .endTime }
  | .freeFinal => { s.freeStr with pc := .clearFinal }
  | .clearFinal => { s.clearStr with pc := .endTime }
  | .endTime =>
      { s with
        con := { s.con with endTime := now }
        pc := .exit }
  | .exit =>
      { s with
        con := { s.con with threadHasExited := true }
        pc := .gone }
  | .gone => s

------------------------------------------------------------
-- The Main Thread
------------------------------------------------------------

/-
  What a step of the main thread finds: whether a connection
  before this one in the lists, or one after it, waits for the
  document; what build_json() returns; whether strdup() can
  allocate; and the time.
-/
structure MainView where
  earlier : Bool
  later : Bool
  json : Option Int
  copied : Bool
  now : Int

namespace Handover

/- `con->JSONStatusStr=strdup(json)`, or NULL. -/
def fillStr
    (s : Handover)
    (json : Option Int)
    (copied : Bool) : Handover :=
  if json.isSome && copied then
    { s with
      con := { s.con with jsonStatusStr := some s.strings }
      strings := s.strings + 1
      stored := s.stored ++ [s.strings] }
  else s.clearStr

end Handover

/- One step of the main thread. -/
def mainMove
    (s : Handover)
    (view : MainView) : Handover :=
  match s.main with
  | .cleanup =>
      if s.con.threadHasExited then { s with main := .loiter }
      else { s with main := .needRequested }
  | .loiter =>
      if 4 < view.now - s.con.endTime then
        { s with main := .free }
      else { s with main := .needRequested }
  | .free => { s with main := .away }
  | .needRequested =>
      if view.earlier then { s with main := .build }
      else if s.con.jsonStatusRequested then
        { s with main := .needReady }
      else if view.later then { s with main := .build }
      else { s with main := .cleanup }
  | .needReady =>
      if s.con.jsonStatusReady = false ∨ view.later then
        { s with main := .build }
      else { s with main := .cleanup }
  | .build => { s with main := .fillRequested view.json }
  | .fillRequested json =>
      if s.con.jsonStatusRequested then
        { s with main := .fillReady json }
      else { s with main := .cleanup }
  | .fillReady json =>
      if s.con.jsonStatusReady then
        { s with main := .cleanup }
      else { s with main := .fillStr json }
  | .fillStr json =>
      { s.fillStr json view.copied with main := .fillLen json }
  | .fillLen json =>
      { s with
        con := { s.con with jsonStatusLen := json.getD 0 }
        main := .fillDone }
  | .fillDone =>
      { s with
        con := { s.con with jsonStatusReady := true }
        main := .cleanup }
  | .away => s

------------------------------------------------------------
-- Interleavings
------------------------------------------------------------

/- Who moves, and what the step finds. -/
inductive HandoverMove where
| http (n : Nat) (now : Int)
| main (view : MainView)

def handoverMove
    (s : Handover) :
    HandoverMove → Handover
  | .http n now => httpMove s n now
  | .main view => mainMove s view

/- A connection that was accepted, with its new thread. -/
def newHandover : Handover where
  con := ⟨false, false, none, 0, 0, false⟩
  pc := .request
  ok := true
  responseStr := "500 Internal Server Error"
  main := .cleanup
  strings := 0
  stored := []
  freed := []
  sent := []

/- All runs of the two threads. -/
def statusHandover : Transition Handover HandoverMove :=
  .moving (fun s => s = newHandover) handoverMove

end SmartSOCKSProxy
