import SmartSOCKSProxy.Socks.Client

/-
  Connecting a session to its destination.

  The tunnels of the chosen rule are tried in turn until one
  of them works, the destination refuses, or 101 attempts
  have failed.

  Key definitions include:
    * `connectNull`, `connectDirect`
    * `connectStep`, `connectLoop`, `socksConnect`
    * `AttemptStart`

  Key theorems include:
    * `connectLoop_enough`
    * `socksConnect_ends`, `socksConnect_of_attempt`
-/

namespace SmartSOCKSProxy

------------------------------------------------------------
-- Single Attempts
------------------------------------------------------------

/- The variables of a connection attempt. -/
structure Connecting where
  con : ClientConnection
  w : World
  failureType : Int

/- Nothing is done, not even to the failure type. -/
def connectNull
    (st : Connecting) : Int × Connecting :=
  (1, st)

/-
  A destination that has a name only gets an address: the one
  that the name spells, or the resolver's answer.
-/
def resolveDestination
    (con : ClientConnection)
    (w : World) : ClientConnection × World :=
  if con.dstHost.hasName ∧ ¬ con.dstHost.hasAddr then
    match inetPton4 con.dstHost.name.text with
    | some sinAddr =>
        ({ con with
            dstHost :=
              con.dstHost.setAddrIn
                (htons con.dstHost.port) sinAddr },
          w)
    | none =>
        let (_, dstHost, dns) :=
          resolveDnsForHostId con.dstHost w.dns
        ({ con with dstHost := dstHost },
          { w with dns := dns })
  else (con, w)

/- Only IPv4 destinations can be dialed. -/
def connectDirect
    (st : Connecting) : Int × Connecting :=
  let (con, w) := resolveDestination st.con st.w
  match con.dstHost.addr with
  | .unspec =>
      (0, ⟨con, w, socks5ReplyAddressTypeNotSupported⟩)
  | .inet6 _ _ =>
      (0, ⟨con, w, socks5ReplyAddressTypeNotSupported⟩)
  | .inet sinPort sinAddr =>
      let (result, w) := w.dialServer sinPort sinAddr
      let con := { con with fdOut := result.fdOut }
      match result with
      | .noSocket => (0, ⟨con, w, socks5ReplyServerFailure⟩)
      | .notConnected =>
          if w.errno = econnrefused ∨
              w.errno = econnreset then
            (0, ⟨con, w, socks5ReplyConnectionRefused⟩)
          else (0, ⟨con, w, socks5ReplyServerFailure⟩)
      | .connected _ => (1, ⟨con, w, socks5ReplySucceed⟩)

/- The attempt through one tunnel of the rule. -/
def attemptTunnel
    (tun : SshTunnel)
    (st : Connecting) : Int × Connecting :=
  let st :=
    { st with con := { st.con with tunnel := some tun } }
  if tun.isDirect then connectDirect st
  else if tun.isNull then connectNull st
  else
    let (ok, con, w, failureType) :=
      connectViaSshSocks5 st.con st.w tun
    (ok, ⟨con, w, failureType⟩)

/- What is undone after a failed attempt. -/
def abandonAttempt
    (st : Connecting) : Connecting :=
  let con := { st.con with tunnel := none }
  if 0 < con.fdOut then
    { st with
      con := { con with fdOut := -1 }
      w := st.w.emit (.closed con.fdOut) }
  else { st with con := con }

def noteRefusal
    (st : Connecting) : Connecting :=
  { st with
    con :=
      setClientConnectionStatus st.con ccStatusErrNetwork
        (some (Text.ascii "Connection Refused".toList))
        (some (Text.ascii
          ("Connection to remote host was " ++
            "refused.").toList)) }

------------------------------------------------------------
-- The Loop
------------------------------------------------------------

/- `tun = route->tunnel[connect_attempt % tun_max]` -/
def tunnelOfAttempt
    (tunnels : List SshTunnel)
    (connectAttempt : Nat) : SshTunnel :=
  tunnels.getD (connectAttempt % tunnels.length) default

/-
  One iteration.  A number is the return value, with which
  the loop ends.
-/
def connectStep
    (tunnels : List SshTunnel)
    (connectAttempt : Nat)
    (st : Connecting) : Option Int × Connecting :=
  let (created, st) :=
    attemptTunnel (tunnelOfAttempt tunnels connectAttempt) st
  if created ≠ 0 then (some 1, st)
  else if
      st.failureType = socks5ReplyConnectionRefused then
    (some 0, abandonAttempt (noteRefusal st))
  else if 100 ≤ connectAttempt then
    (some 0, abandonAttempt st)
  else (none, abandonAttempt st)

/- The fuel bounds the number of attempts. -/
def connectLoop
    (tunnels : List SshTunnel) :
    Nat → Nat → Connecting → Int × Connecting
  | 0, _, st => (0, st)
  | fuel + 1, connectAttempt, st =>
      match connectStep tunnels connectAttempt st with
      | (some rc, st) => (rc, st)
      | (none, st) =>
          connectLoop tunnels fuel (connectAttempt + 1) st

/- Whether an SSH child is needed for a tunnel. -/
def needsSsh
    (tun : SshTunnel) : Bool :=
  !tun.isDirect && !tun.isNull && tun.commandToRun.text ≠ []

/- The tunnels of the connection's route. -/
def routeTunnels
    (con : ClientConnection) : List SshTunnel :=
  match con.route with
  | some route => route.deref.tunnels
  | none => []

/- Wake the main thread when an SSH child is needed. -/
def notifyMainThread
    (tunnels : List SshTunnel)
    (st : Connecting) : Connecting :=
  if tunnels.any needsSsh then
    { st with w := st.w.emit .threadMsg }
  else st

/- Try the tunnels of the connection's route. -/
def socksConnect
    (st : Connecting) : Int × Connecting :=
  let tunnels := routeTunnels st.con
  if tunnels = [] then (0, st)
  else
    connectLoop tunnels 101 0 (notifyMainThread tunnels st)

------------------------------------------------------------
-- The Outcomes of an Attempt
------------------------------------------------------------

/- Attempt number `n` of the loop, made in state `st`. -/
def attemptAt
    (tunnels : List SshTunnel)
    (n : Nat)
    (st : Connecting) : Int × Connecting :=
  attemptTunnel (tunnelOfAttempt tunnels n) st

/-
  Everything that an iteration can do: end with a connection,
  with a refusal, with the last failure, or go on.
-/
theorem connectStep_cases
    (tunnels : List SshTunnel)
    (n : Nat)
    (st : Connecting) :
    (attemptAt tunnels n st).1 ≠ 0 ∧
        connectStep tunnels n st =
          (some 1, (attemptAt tunnels n st).2) ∨
      (attemptAt tunnels n st).1 = 0 ∧
        ((attemptAt tunnels n st).2.failureType =
            socks5ReplyConnectionRefused ∧
          connectStep tunnels n st =
            (some 0,
              abandonAttempt
                (noteRefusal (attemptAt tunnels n st).2)) ∨
        (attemptAt tunnels n st).2.failureType ≠
            socks5ReplyConnectionRefused ∧
          (100 ≤ n ∧
            connectStep tunnels n st =
              (some 0,
                abandonAttempt (attemptAt tunnels n st).2) ∨
          n < 100 ∧
            connectStep tunnels n st =
              (none,
                abandonAttempt
                  (attemptAt tunnels n st).2))) := by
  unfold connectStep attemptAt
  dsimp only
  by_cases hMade :
      (attemptTunnel (tunnelOfAttempt tunnels n) st).1 = 0
  · rw [if_neg (not_not.mpr hMade)]
    refine Or.inr ⟨hMade, ?_⟩
    split
    · exact Or.inl ⟨‹_›, rfl⟩
    · refine Or.inr ⟨‹_›, ?_⟩
      split
      · exact Or.inl ⟨‹_›, rfl⟩
      · exact Or.inr ⟨Nat.not_le.mp ‹_›, rfl⟩
  · rw [if_pos hMade]
    exact Or.inl ⟨hMade, rfl⟩

------------------------------------------------------------
-- The Bound on the Attempts
------------------------------------------------------------

/- The hundred and first attempt is the last one. -/
theorem connectStep_last
    (tunnels : List SshTunnel)
    {connectAttempt : Nat}
    (hLast : 100 ≤ connectAttempt)
    (st : Connecting) :
    (connectStep tunnels connectAttempt st).1 ≠ none := by
  rcases connectStep_cases tunnels connectAttempt st with
    ⟨_, hStep⟩ |
      ⟨_, ⟨_, hStep⟩ | ⟨_, ⟨_, hStep⟩ | ⟨hEarly, _⟩⟩⟩
  · simp [hStep]
  · simp [hStep]
  · simp [hStep]
  · omega

/- The loop ends before its fuel does. -/
theorem connectLoop_enough
    (tunnels : List SshTunnel)
    {fuel connectAttempt : Nat}
    (hFuel : 101 ≤ connectAttempt + fuel)
    (hPos : 0 < fuel)
    (st : Connecting) :
    connectLoop tunnels (fuel + 1) connectAttempt st =
      connectLoop tunnels fuel connectAttempt st := by
  induction fuel generalizing connectAttempt st with
  | zero => omega
  | succ fuel ih =>
      rw [connectLoop, connectLoop]
      rcases hStep :
          connectStep tunnels connectAttempt st with
        ⟨rc, st'⟩
      cases rc with
      | some rc => rfl
      | none =>
          have hEarly : connectAttempt < 100 := by
            by_contra hLate
            apply connectStep_last tunnels
              (Nat.not_lt.mp hLate) st
            rw [hStep]
          exact ih (by omega) (by omega) st'

------------------------------------------------------------
-- The States Between Attempts
------------------------------------------------------------

/-
  `AttemptStart st n st'`: called in state `st`, the loop
  starts its attempt `n` in state `st'`.
-/
inductive AttemptStart
    (st : Connecting) : Nat → Connecting → Prop
| first
    (hTunnels : routeTunnels st.con ≠ []) :
    AttemptStart st 0
      (notifyMainThread (routeTunnels st.con) st)
| retry
    {connectAttempt : Nat}
    {st₁ st₂ : Connecting}
    (hStart : AttemptStart st connectAttempt st₁)
    (hFailed :
      connectStep (routeTunnels st.con) connectAttempt st₁ =
        (none, st₂)) :
    AttemptStart st (connectAttempt + 1) st₂

/- From any attempt on, the loop gets to a last one. -/
theorem connectLoop_ends
    {st st₁ : Connecting}
    {fuel connectAttempt : Nat}
    (hStart : AttemptStart st connectAttempt st₁)
    (hFuel : connectAttempt + fuel = 100) :
    ∃ n st₂ rc st₃,
      AttemptStart st n st₂ ∧
        connectStep (routeTunnels st.con) n st₂ =
          (some rc, st₃) ∧
        connectLoop (routeTunnels st.con) (fuel + 1)
          connectAttempt st₁ = (rc, st₃) := by
  induction fuel generalizing connectAttempt st₁ with
  | zero =>
      rw [connectLoop]
      rcases hStep : connectStep (routeTunnels st.con)
          connectAttempt st₁ with
        ⟨_ | rc, st₃⟩
      · have hLate : 100 ≤ connectAttempt := by omega
        have hLast := connectStep_last
          (routeTunnels st.con) hLate st₁
        rw [hStep] at hLast
        exact absurd rfl hLast
      · exact ⟨connectAttempt, st₁, rc, st₃, hStart, hStep,
          rfl⟩
  | succ fuel ih =>
      rw [connectLoop]
      rcases hStep : connectStep (routeTunnels st.con)
          connectAttempt st₁ with
        ⟨_ | rc, st₃⟩
      · exact ih (hStart.retry hStep) (by omega)
      · exact ⟨connectAttempt, st₁, rc, st₃, hStart, hStep,
          rfl⟩

/- The last attempt determines the result. -/
theorem socksConnect_ends
    {st : Connecting}
    (hTunnels : routeTunnels st.con ≠ []) :
    ∃ n st₁ rc st₂,
      AttemptStart st n st₁ ∧
        connectStep (routeTunnels st.con) n st₁ =
          (some rc, st₂) ∧
        socksConnect st = (rc, st₂) := by
  unfold socksConnect
  dsimp only
  rw [if_neg hTunnels]
  exact connectLoop_ends (AttemptStart.first hTunnels) rfl

/- The loop goes on from the start of each of its attempts. -/
theorem socksConnect_from
    {st st₁ : Connecting}
    {connectAttempt : Nat}
    (hStart : AttemptStart st connectAttempt st₁) :
    ∃ fuel, connectAttempt + fuel = 100 ∧
      socksConnect st =
        connectLoop (routeTunnels st.con) (fuel + 1)
          connectAttempt st₁ := by
  induction hStart with
  | first hTunnels =>
      refine ⟨100, rfl, ?_⟩
      unfold socksConnect
      dsimp only
      rw [if_neg hTunnels]
  | @retry n st₂ st₃ _ hFailed ih =>
      rcases ih with ⟨fuel, hFuel, hRest⟩
      cases fuel with
      | zero =>
          have hLate : 100 ≤ n := by omega
          have hLast := connectStep_last
            (routeTunnels st.con) hLate st₂
          rw [hFailed] at hLast
          exact absurd rfl hLast
      | succ fuel =>
          refine ⟨fuel, by omega, ?_⟩
          rw [hRest, connectLoop, hFailed]

/- An attempt with which the loop ends gives the result. -/
theorem socksConnect_of_attempt
    {st st₁ st₂ : Connecting}
    {connectAttempt : Nat}
    {rc : Int}
    (hStart : AttemptStart st connectAttempt st₁)
    (hStep :
      connectStep (routeTunnels st.con) connectAttempt st₁ =
        (some rc, st₂)) :
    socksConnect st = (rc, st₂) := by
  rcases socksConnect_from hStart with ⟨fuel, _, hRun⟩
  rw [hRun, connectLoop, hStep]

end SmartSOCKSProxy
