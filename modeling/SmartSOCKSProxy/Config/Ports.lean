import SmartSOCKSProxy.Config.Services
import SmartSOCKSProxy.Socks.Destination

/-
  The ports of services.

  A port is what sscanf() makes of a token, and the program
  goes on with the low sixteen bits of it.  Both are right for
  decimal numerals of ports without leading zeros.

  Key definitions include:
    * `listenSocket`
    * `BindsOnly`, `ConnectsOnly`, `AsWritten`
    * `PortsReadRight`

  Key theorems include:
    * `listenSocket_binds`
    * `connectsOnly_of_isPort`
    * `portsAsWritten_iff`
    * `portsAsWritten_octal`
-/

namespace SmartSOCKSProxy

------------------------------------------------------------
-- Listening
------------------------------------------------------------

/-
  What the system calls of listen_socket() return.  A host
  name has an IPv4 address, or none.
-/
structure ListenCalls where
  socket : Int
  setReuseAddr : Int
  setReusePort : Int
  gethostbyname : Text → Option UInt32
  bind : Int
  listen : Int

/- It crashes where it dereferences NULL. -/
inductive ListenEnd where
| listening (listenFd : Int)
| exits (returnCode : Int)
| crashes
deriving DecidableEq

/- The addresses that are passed to bind(), and the end. -/
def listenSocket
    (calls : ListenCalls)
    (listenInterface : Text)
    (port : Int) :
    List (UInt16 × UInt32) × ListenEnd :=
  if calls.socket < 0 then ([], .exits 31)
  else if calls.setReuseAddr = -1 then ([], .exits 32)
  else if calls.setReusePort = -1 then ([], .exits 33)
  else if ¬ stringStartsWith listenInterface
      (Text.ascii "127.".toList) then
    ([], .exits 35)
  else
    match calls.gethostbyname listenInterface with
    | none => ([], .crashes)
    | some sinAddr =>
        let serverAddr := (htons port, sinAddr)
        if calls.bind < 0 then ([serverAddr], .exits 36)
        else if calls.listen < 0 then
          ([serverAddr], .exits 37)
        else ([serverAddr], .listening calls.socket)

/- What is bound is the port, at the interface's address. -/
theorem listenSocket_binds
    {calls : ListenCalls}
    {listenInterface : Text}
    {port : Int}
    {serverAddr : UInt16 × UInt32}
    (hBinds :
      serverAddr ∈
        (listenSocket calls listenInterface port).1) :
    serverAddr.1 = htons port ∧
      calls.gethostbyname listenInterface =
        some serverAddr.2 := by
  unfold listenSocket at hBinds
  split at hBinds
  · cases hBinds
  split at hBinds
  · cases hBinds
  split at hBinds
  · cases hBinds
  split at hBinds
  · cases hBinds
  split at hBinds
  · cases hBinds
  · rename_i sinAddr hHost
    have hSame : serverAddr = (htons port, sinAddr) := by
      split at hBinds
      · exact List.mem_singleton.mp hBinds
      split at hBinds
      · exact List.mem_singleton.mp hBinds
      · exact List.mem_singleton.mp hBinds
    rw [hSame]
    exact ⟨rfl, hHost⟩

/- Only this number is bound, whatever the calls return. -/
def BindsOnly
    (bindAddress : CBuf 300)
    (port p : Int) : Prop :=
  ∀ calls, ∀ serverAddr ∈
    (listenSocket calls bindAddress.text port).1,
      ntohs serverAddr.1 = p

theorem bindsOnly_of_isPort
    (bindAddress : CBuf 300)
    {port : Int}
    (hPort : IsPort port) :
    BindsOnly bindAddress port port := by
  intro calls serverAddr hBinds
  rw [(listenSocket_binds hBinds).1]
  exact ntohs_htons_of_isPort hPort

------------------------------------------------------------
-- Connecting
------------------------------------------------------------

/-
  In every session of the service, each attempt dials only
  this number, and only this number ends the command that is
  sent to a server.
-/
def ConnectsOnly
    (fwd : ServicePortForward)
    (p : Int) : Prop :=
  ∀ rules failureType fdIn junk w first n st,
    startForwarding fwd rules failureType
        (newClientConnection fdIn junk) w = (true, first) →
    AttemptStart first n st →
      DialsOnly st p (fun _ _ => True) ∧
        ∃ front hi lo, bePort hi lo = p ∧
          TellsServer st (front ++ [hi, lo])

theorem DialsOnly.anywhere
    {st : Connecting}
    {port : Int}
    {fits : Resolver → UInt32 → Prop}
    (hDials : DialsOnly st port fits) :
    DialsOnly st port (fun _ _ => True) := by
  intro tun hDirect
  rcases hDials tun hDirect with ⟨targets, hTrace, hFits⟩
  exact ⟨targets, hTrace, fun target hMem =>
    ⟨(hFits target hMem).1, trivial⟩⟩

/- The command for a destination ends with its port. -/
theorem commandFor_ends
    (cmd : Int)
    (d : HostId) :
    ∃ front, commandFor cmd d =
      front ++ [portHigh d.port, portLow d.port] := by
  unfold commandFor
  split
  · exact ⟨_, rfl⟩
  · exact ⟨_, rfl⟩

/- A port that fits the wire is the one that is used. -/
theorem connectsOnly_of_isPort
    {fwd : ServicePortForward}
    (hPort : IsPort fwd.remotePort) :
    ConnectsOnly fwd fwd.remotePort := by
  intro rules failureType fdIn junk w first n st hStart
    hAttempt
  let s : Session :=
    .portForward fwd rules failureType fdIn junk w
  let con :=
    portForwardRequest fwd (newClientConnection fdIn junk)
  have hRequests : s.Requests con w := ⟨rfl, rfl⟩
  have hBytes :
      bePort (portHigh fwd.remotePort)
          (portLow fwd.remotePort) =
        fwd.remotePort := by
    rw [bePort_portHigh_portLow]
    exact Int.emod_eq_of_lt hPort.1 hPort.2
  rcases s.dials_decided hRequests hPort hStart with
    ⟨⟨a, hLast⟩ | hNone, hRewritten, hRequested⟩
  · rcases (hRewritten a hLast).2.2 n st hAttempt with
      ⟨hDials, hTells⟩
    exact ⟨hDials.anywhere, _, _, _, hBytes, hTells⟩
  · rcases hRequested hNone n st hAttempt with
      ⟨hDials, hTells⟩
    rcases commandFor_ends con.socksCommand
        con.dstHostOriginal with
      ⟨front, hFront⟩
    rw [hFront] at hTells
    exact ⟨hDials.anywhere, front, _, _, hBytes, hTells⟩

------------------------------------------------------------
-- Ports As Written
------------------------------------------------------------

/-
  The token denotes a port in decimal, which is stored and
  used.
-/
structure AsWritten
    (token : Text)
    (port : Int)
    (Uses : Int → Prop) : Prop where
  numeral : token.IsNumeral
  inRange : token.decimal ≤ 65535
  stored : port = token.decimal
  used : Uses token.decimal

/-
  A decimal numeral of a port, without a leading zero unless
  the port is below eight.
-/
structure PortReadRight
    (token : Text) : Prop where
  numeral : token.IsNumeral
  inRange : token.decimal ≤ 65535
  leading : token.head? = some 48 → token.decimal ≤ 7

/- Tokens that are read right give ports as written. -/
theorem asWritten_iff
    {token : Text}
    {port : Int}
    {Uses : Int → Prop}
    (hScan : token.scanInt = some port)
    (hUses : IsPort port → Uses port) :
    AsWritten token port Uses ↔ PortReadRight token := by
  constructor
  · rintro ⟨hNumeral, hRange, rfl, -⟩
    exact ⟨hNumeral, hRange,
      (Text.scanInt_eq_decimal_iff hNumeral
        (by omega)).mp hScan⟩
  · rintro ⟨hNumeral, hRange, hLeading⟩
    have hRead :=
      (Text.scanInt_eq_decimal_iff hNumeral
        (by omega)).mpr hLeading
    rw [hScan, Option.some_inj] at hRead
    have hPort : IsPort port := by
      rw [hRead]
      constructor <;> omega
    exact ⟨hNumeral, hRange, hRead, hRead ▸ hUses hPort⟩

/-
  The specification has a wrong number of parts, or a port
  that does not start like an integer, or all its ports are
  read right.
-/
def PortsReadRight
    (parts : Nat)
    (ports : List Nat)
    (strIn : Text) : Prop :=
  (specTokens parts strIn).length ≠ parts ∨
    (∃ i ∈ ports, ¬ (specToken parts strIn i).StartsInteger) ∨
      ∀ i ∈ ports, PortReadRight (specToken parts strIn i)

def SocksPortAsWritten
    (strIn : Text) : Prop :=
  ∀ socks, parseServiceSocksSpec strIn = some socks →
    AsWritten (specToken 2 strIn 1) socks.port
      (BindsOnly socks.bindAddress socks.port)

def HttpPortAsWritten
    (strIn : Text) : Prop :=
  ∀ http, parseServiceHttpSpec strIn = some http →
    AsWritten (specToken 3 strIn 1) http.port
      (BindsOnly http.bindAddress http.port)

def PortForwardPortsAsWritten
    (strIn : Text) : Prop :=
  ∀ fwd, parseServicePortForwardSpec strIn = some fwd →
    AsWritten (specToken 4 strIn 1) fwd.port
        (BindsOnly fwd.bindAddress fwd.port) ∧
      AsWritten (specToken 4 strIn 3) fwd.remotePort
        (ConnectsOnly fwd)

/-
  What holds of a parser that accepts a specification exactly
  if its ports start like integers, and stores what they are
  read as.
-/
theorem portsReadRight_iff
    {α : Type}
    {parts : Nat}
    {ports : List Nat}
    {strIn : Text}
    {parsed : Option α}
    (portOf : α → Nat → Int)
    (Uses : α → Nat → Int → Prop)
    (hAccepts :
      parsed.isSome ↔
        (specTokens parts strIn).length = parts ∧
          ∀ i ∈ ports,
            (specToken parts strIn i).StartsInteger)
    (hScan : ∀ srv, parsed = some srv → ∀ i ∈ ports,
      (specToken parts strIn i).scanInt =
        some (portOf srv i))
    (hUses : ∀ srv, ∀ i ∈ ports, IsPort (portOf srv i) →
      Uses srv i (portOf srv i)) :
    (∀ srv, parsed = some srv → ∀ i ∈ ports,
      AsWritten (specToken parts strIn i) (portOf srv i)
        (Uses srv i)) ↔
      PortsReadRight parts ports strIn := by
  have hWritten : ∀ srv, parsed = some srv → ∀ i ∈ ports,
      (AsWritten (specToken parts strIn i) (portOf srv i)
        (Uses srv i) ↔
          PortReadRight (specToken parts strIn i)) :=
    fun srv hParsed i hMem =>
      asWritten_iff (hScan srv hParsed i hMem)
        (hUses srv i hMem)
  unfold PortsReadRight
  cases parsed with
  | none =>
      simp only [Option.isSome_none, Bool.false_eq_true,
        false_iff, not_and, not_forall] at hAccepts
      refine ⟨fun _ => ?_, fun _ => nofun⟩
      by_cases hLength :
          (specTokens parts strIn).length = parts
      · rcases hAccepts hLength with ⟨i, hMem, hNot⟩
        exact Or.inr (Or.inl ⟨i, hMem, hNot⟩)
      · exact Or.inl hLength
  | some srv =>
      rcases hAccepts.mp rfl with ⟨hLength, hStarts⟩
      constructor
      · intro hAll
        exact Or.inr (Or.inr fun i hMem =>
          (hWritten srv rfl i hMem).mp (hAll srv rfl i hMem))
      · rintro (hOther | ⟨i, hMem, hNot⟩ | hRight)
        · exact absurd hLength hOther
        · exact absurd (hStarts i hMem) hNot
        · intro srv' hSame i hMem
          exact (hWritten srv' hSame i hMem).mpr
            (hRight i hMem)

theorem socksPortAsWritten_iff
    (strIn : Text) :
    SocksPortAsWritten strIn ↔
      PortsReadRight 2 [1] strIn := by
  have hSpec := parseServiceSocksSpec_eq strIn
  have hAccepts :
      (parseServiceSocksSpec strIn).isSome ↔
        (specTokens 2 strIn).length = 2 ∧
          ∀ i ∈ [1], (specToken 2 strIn i).StartsInteger := by
    rw [hSpec]
    split <;> simp [Text.isSome_scanInt_iff, *]
  have hScan :
      ∀ socks, parseServiceSocksSpec strIn = some socks →
        ∀ i ∈ [1], (specToken 2 strIn i).scanInt =
          some socks.port := by
    intro socks hParsed
    rw [hSpec] at hParsed
    split at hParsed
    · rcases Option.map_eq_some_iff.mp hParsed with
        ⟨port, hScan, rfl⟩
      simpa using hScan
    · cases hParsed
  refine Iff.trans ?_ (portsReadRight_iff
    (fun socks _ => socks.port)
    (fun socks _ => BindsOnly socks.bindAddress socks.port)
    hAccepts hScan ?_)
  · simp [SocksPortAsWritten]
  · intro socks _ _ hPort
    exact bindsOnly_of_isPort socks.bindAddress hPort

theorem httpPortAsWritten_iff
    (strIn : Text) :
    HttpPortAsWritten strIn ↔
      PortsReadRight 3 [1] strIn := by
  have hSpec := parseServiceHttpSpec_eq strIn
  have hAccepts :
      (parseServiceHttpSpec strIn).isSome ↔
        (specTokens 3 strIn).length = 3 ∧
          ∀ i ∈ [1], (specToken 3 strIn i).StartsInteger := by
    rw [hSpec]
    split <;> simp [Text.isSome_scanInt_iff, *]
  have hScan : ∀ http, parseServiceHttpSpec strIn = some http →
      ∀ i ∈ [1], (specToken 3 strIn i).scanInt =
        some http.port := by
    intro http hParsed
    rw [hSpec] at hParsed
    split at hParsed
    · rcases Option.map_eq_some_iff.mp hParsed with
        ⟨port, hScan, rfl⟩
      simpa using hScan
    · cases hParsed
  refine Iff.trans ?_ (portsReadRight_iff
    (fun http _ => http.port)
    (fun http _ => BindsOnly http.bindAddress http.port)
    hAccepts hScan ?_)
  · simp [HttpPortAsWritten]
  · intro http _ _ hPort
    exact bindsOnly_of_isPort http.bindAddress hPort

theorem portForwardPortsAsWritten_iff
    (strIn : Text) :
    PortForwardPortsAsWritten strIn ↔
      PortsReadRight 4 [1, 3] strIn := by
  have hSpec := parseServicePortForwardSpec_eq strIn
  have hAccepts :
      (parseServicePortForwardSpec strIn).isSome ↔
        (specTokens 4 strIn).length = 4 ∧
          ∀ i ∈ [1, 3],
            (specToken 4 strIn i).StartsInteger := by
    simp only [List.forall_mem_cons,
      ← Text.isSome_scanInt_iff]
    rw [hSpec]
    split
    · rename_i hParts
      cases Text.scanInt (specToken 4 strIn 1) <;>
        cases Text.scanInt (specToken 4 strIn 3) <;>
          simp [hParts]
    · simp [*]
  have hScan :
      ∀ fwd, parseServicePortForwardSpec strIn = some fwd →
        ∀ i ∈ [1, 3], (specToken 4 strIn i).scanInt =
          some (if i = 1 then fwd.port
            else fwd.remotePort) := by
    intro fwd hParsed
    rw [hSpec] at hParsed
    split at hParsed
    · split at hParsed
      · rename_i port remotePort hPort hRemote
        cases hParsed
        simp [hPort, hRemote]
      · cases hParsed
    · cases hParsed
  refine Iff.trans ?_ (portsReadRight_iff
    (fun fwd i => if i = 1 then fwd.port else fwd.remotePort)
    (fun fwd i =>
      if i = 1 then BindsOnly fwd.bindAddress fwd.port
      else ConnectsOnly fwd)
    hAccepts hScan ?_)
  · simp [PortForwardPortsAsWritten]
  · intro fwd i hMem hPort
    split at hPort
    · rename_i hLocal
      rw [if_pos hLocal, if_pos hLocal]
      exact bindsOnly_of_isPort _ hPort
    · rename_i hRemote
      rw [if_neg hRemote, if_neg hRemote]
      exact connectsOnly_of_isPort hPort

/-
  Ports are used as written for the specifications whose ports
  are read right or that are rejected, and for no others.
-/
theorem portsAsWritten_iff
    (strIn : Text) :
    (SocksPortAsWritten strIn ↔
        PortsReadRight 2 [1] strIn) ∧
      (HttpPortAsWritten strIn ↔
        PortsReadRight 3 [1] strIn) ∧
      (PortForwardPortsAsWritten strIn ↔
        PortsReadRight 4 [1, 3] strIn) :=
  ⟨socksPortAsWritten_iff strIn, httpPortAsWritten_iff strIn,
    portForwardPortsAsWritten_iff strIn⟩

/- The port of `0100` is the octal one. -/
theorem portsAsWritten_octal :
    ¬ ∀ strIn,
      SocksPortAsWritten strIn ∧ HttpPortAsWritten strIn ∧
        PortForwardPortsAsWritten strIn := by
  intro hAll
  have hParsed :
      (parseServiceSocksSpec
        (Text.ascii "0100".toList)).map (·.port) =
          some 64 := by
    decide
  rcases Option.map_eq_some_iff.mp hParsed with
    ⟨socks, hSocks, hPort⟩
  have hStored := ((hAll _).1 socks hSocks).stored
  have hDecimal :
      (specToken 2 (Text.ascii "0100".toList) 1).decimal =
        100 := by
    decide
  rw [hPort, hDecimal] at hStored
  exact absurd hStored (by decide)

end SmartSOCKSProxy
