import SmartSOCKSProxy.Relay.Shuttle
import SmartSOCKSProxy.Socks.Connect
import SmartSOCKSProxy.Socks.Handshake

/-
  The life of a session of the SOCKS service.

  Key definitions include:
    * `socks4Respond`, `socks5Respond`, `socksRespond`
    * `socksConnectShuttle`, `serviceThreadShutdown`
    * `prepareRelay`, `serviceSocksConnectionHandler`
-/

namespace SmartSOCKSProxy

------------------------------------------------------------
-- Replies to the Client
------------------------------------------------------------

/- `SOCKS4_CD_REQUEST_GRANTED` -/
def socks4CdRequestGranted : UInt8 := 90

/- `SOCKS4_CD_REQUEST_REJECTED_OR_FAILED` -/
def socks4CdRequestRejectedOrFailed : UInt8 := 91

/- A version 4 reply: port and address are zero. -/
def socks4Reply
    (failureType : Int) : List UInt8 :=
  [0,
    if failureType = socks5ReplySucceed then
      socks4CdRequestGranted
    else socks4CdRequestRejectedOrFailed,
    0, 0, 0, 0, 0, 0]

/- A version 5 reply for the address 0.0.0.0, port 0. -/
def socks5Reply
    (failureType : Int) : List UInt8 :=
  [5, UInt8.ofInt failureType, 0, 1, 0, 0, 0, 0, 0, 0]

def socks4Respond
    (w : World)
    (failureType : Int) : Int × World :=
  let (rc, w) := w.sbWriteLen .client
    (socks4Reply failureType)
  if rc ≠ 8 then (0, w) else (1, w)

def socks5Respond
    (w : World)
    (failureType : Int) : Int × World :=
  let (rc, w) := w.sbWriteLen .client
    (socks5Reply failureType)
  if rc ≠ 10 then (0, w) else (1, w)

def socksRespond
    (con : ClientConnection)
    (w : World)
    (failureType : Int) : Int × World :=
  if con.socksVersion = 4 then socks4Respond w failureType
  else socks5Respond w failureType

------------------------------------------------------------
-- Relay and Shutdown
------------------------------------------------------------

/- `con->tunnel == ssh_tunnel_null` -/
def usesNullTunnel
    (con : ClientConnection) : Bool :=
  con.tunnel.any SshTunnel.isNull

/- Without a return value the relay is still running. -/
def socksConnectShuttle
    (polls : List PollEvent)
    (con : ClientConnection)
    (w : World) : Option Int × ClientConnection × World :=
  if usesNullTunnel con then
    let (rc, con, w) := shuttleNullConnection con w
    (some rc, con, w)
  else
    let (rc, st) := shuttleDataBackAndForth polls con w
    (rc, st.con, st.w)

/-
  Close a descriptor, unless it is negative.  Once shutdown()
  has ended the stream nothing is left to read.
-/
def safeClose
    (w : World)
    (fd : Int) : World :=
  if 0 ≤ fd then w.emit (.closed fd) else w

def serviceThreadShutdown
    (con : ClientConnection)
    (w : World)
    (ok : Int) : ClientConnection × World :=
  let con :=
    if ok = 0 ∧ con.status = ccStatusOkay then
      setClientConnectionStatus con ccStatusError
        (some (Text.ascii "Error".toList))
        (some (Text.ascii
          "Unknown error; closing connction.".toList))
    else con
  let w := safeClose (safeClose w con.fdIn) con.fdOut
  ({ con with
      fdIn := -1
      fdOut := -1
      endTime := w.now
      threadHasExited := true },
    w)

------------------------------------------------------------
-- The Handler
------------------------------------------------------------

/-
  The state in which socks_connect() is called, when the
  request was accepted and a rule chosen.  The failure type
  is what the stack holds at its place.
-/
def startConnecting
    (rules : List RouteRule)
    (failureType : Int)
    (con : ClientConnection)
    (w : World) : Bool × Connecting :=
  match handshake (resetRequest con) w with
  | (false, con, w) => (false, ⟨con, w, failureType⟩)
  | (true, con, w) =>
      let (ok, con, dns) :=
        decideApplicableRule rules con w.dns
      (ok ≠ 0, ⟨con, { w with dns := dns }, failureType⟩)

/- Only accepted requests are connected. -/
theorem accepted_of_startConnecting
    {rules : List RouteRule}
    {failureType : Int}
    {con : ClientConnection}
    {w : World}
    {st : Connecting}
    (hStart :
      startConnecting rules failureType con w =
        (true, st)) :
    ∃ con₁ w₁,
      handshake (resetRequest con) w = (true, con₁, w₁) ∧
        st.con =
          (decideApplicableRule rules con₁ w₁.dns).2.1 := by
  unfold startConnecting at hStart
  rcases hRun : handshake (resetRequest con) w with
    ⟨_ | _, con₁, w₁⟩
  · rw [hRun] at hStart
    exact absurd (congrArg Prod.fst hStart)
      Bool.false_ne_true
  · rw [hRun] at hStart
    refine ⟨con₁, w₁, rfl, ?_⟩
    exact congrArg (fun out => out.2.con) hStart.symm

/- The handler up to the relay, and whether it gets there. -/
def prepareRelay
    (rules : List RouteRule)
    (failureType : Int)
    (con : ClientConnection)
    (w : World) : Bool × ClientConnection × World :=
  match startConnecting rules failureType con w with
  | (false, st) => (false, st.con, st.w)
  | (true, st) =>
      match socksConnect st with
      | (ok, st) =>
          if ok = 0 then (false, st.con, st.w)
          else
            let (rc, w) :=
              socksRespond st.con st.w st.failureType
            (rc = 1, st.con, w)

/-
  The whole session: whether it is over, the connection and
  the world.
-/
def serviceSocksConnectionHandler
    (rules : List RouteRule)
    (failureType : Int)
    (polls : List PollEvent)
    (con : ClientConnection)
    (w : World) : Bool × ClientConnection × World :=
  match prepareRelay rules failureType con w with
  | (false, con, w) =>
      (true, serviceThreadShutdown con w 0)
  | (true, con, w) =>
      match socksConnectShuttle polls con w with
      | (none, con, w) => (false, con, w)
      | (some ok, con, w) =>
          (true, serviceThreadShutdown con w ok)

end SmartSOCKSProxy
