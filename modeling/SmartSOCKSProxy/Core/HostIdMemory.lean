import SmartSOCKSProxy.Core.HostId
import SmartSOCKSProxy.Foundations.Stores

/-
  Host identities in memory.

  The socket addresses share the bytes of a union: the length
  and the family are in the first two bytes, the port follows
  in network byte order, and then, each at its own place, the
  address of the family.

  Key definitions include:
    * `HostIdMem` and its operations
    * `HostIdOp`, `HostIdOp.apply`, `HostIdOp.on`
    * `Represents`, `lastAddr`

  Key theorems include:
    * `Represents.apply`, `Coherent.apply`
    * `represents_run`
    * `hostId_coherent`
-/

namespace SmartSOCKSProxy

------------------------------------------------------------
-- Memory
------------------------------------------------------------

def AF_UNSPEC : UInt8 := 0
def AF_INET : UInt8 := 2
def AF_INET6 : UInt8 := 30

/- `host_id`: `name[260]`, the union `addr`, and `port`. -/
structure HostIdMem where
  name : Buffer
  addr : Buffer
  port : Int

/- `strncpy(dst,src,n)` fills up what is left with zeros. -/
def strncpyBytes
    (src : Text)
    (n : Nat) : List UInt8 :=
  (Text.cstr src).take n ++
    List.replicate (n - (Text.cstr src).length) 0

namespace HostIdMem

/- `addr.sa.sa_family` -/
def saFamily
    (m : HostIdMem) : UInt8 :=
  m.addr 1

/- `ntohs(..)` of the port in the socket address. -/
def sinPort
    (m : HostIdMem) : Int :=
  bePort (m.addr 2) (m.addr 3)

/- The port is at the same place for both families. -/
def storePort
    (addr : Buffer)
    (port : Int) : Buffer :=
  addr.store 2 [portHigh port, portLow port]

/- `host_id_init()` -/
def init
    (m : HostIdMem) : HostIdMem where
  name := m.name.put (0, 0)
  addr := m.addr.put (1, AF_UNSPEC)
  port := 0

/- `host_id_set_name()` -/
def setName
    (m : HostIdMem)
    (name : Text) : HostIdMem :=
  { m with
    name :=
      (m.name.store 0 (strncpyBytes name maxDns)).put
        (maxDns - 1, 0) }

/- `host_id_set_port()` -/
def setPort
    (m : HostIdMem)
    (port : Int) : HostIdMem :=
  { m with
    port := port
    addr :=
      if m.saFamily = AF_INET then storePort m.addr port
      else if m.saFamily = AF_INET6 then storePort m.addr port
      else m.addr }

/- `host_id_set_addr_in()`, of a struct of 16 bytes -/
def setAddrIn
    (m : HostIdMem)
    (saIn : Vector UInt8 16) : HostIdMem :=
  { m with
    addr := m.addr.store 0 saIn.toList
    port := bePort saIn[2] saIn[3] }

/- `host_id_set_addr_in6()`, of a struct of 28 bytes -/
def setAddrIn6
    (m : HostIdMem)
    (saIn6 : Vector UInt8 28) : HostIdMem :=
  { m with
    addr := m.addr.store 0 saIn6.toList
    port := bePort saIn6[2] saIn6[3] }

/- The length and the family of a socket address. -/
def storeHeader
    (addr : Buffer)
    (len family : UInt8) : Buffer :=
  (addr.put (0, len)).put (1, family)

/- `host_id_set_addr_in_from_byte_array()` -/
def setAddrInFromByteArray
    (m : HostIdMem)
    (ipv4 : Vector UInt8 4)
    (port : Int) : HostIdMem :=
  let addr := storeHeader m.addr 16 AF_INET
  let addr := storePort addr port
  let sAddr := ipv4OfOctets ipv4[0] ipv4[1] ipv4[2] ipv4[3]
  { m with
    port := port
    addr := addr.store 4 (ipv4Octets sAddr) }

/- `host_id_set_addr_in6_from_byte_array()` -/
def setAddrIn6FromByteArray
    (m : HostIdMem)
    (ipv6 : Vector UInt8 16)
    (port : Int) : HostIdMem :=
  let addr := storeHeader m.addr 28 AF_INET6
  let addr := storePort addr port
  { m with
    port := port
    addr := addr.store 8 ipv6.toList }

/-
  `host_id_get_addr_as_byte_array()`: the return value, and
  the buffer of the caller.
-/
def getAddrAsByteArray
    (m : HostIdMem)
    (buf : Buffer)
    (buflen : Nat) : Int × Buffer :=
  if m.saFamily = AF_INET then
    if buflen < 4 then (0, buf)
    else
      let addr := ipv4OfOctets (m.addr 4) (m.addr 5) (m.addr 6)
        (m.addr 7)
      (4, buf.store 0 (ipv4Octets addr))
  else if m.saFamily = AF_INET6 then
    if buflen < 16 then (0, buf)
    else
      (16, buf.store 0
        ((List.range 16).map fun i => m.addr (8 + i)))
  else (0, buf)

end HostIdMem

------------------------------------------------------------
-- Operations
------------------------------------------------------------

/- The operations on one host identity, with their arguments. -/
inductive HostIdOp where
| init
| setName (name : Text)
| setPort (port : Int)
| setAddrIn (saIn : Vector UInt8 16)
| setAddrIn6 (saIn6 : Vector UInt8 28)
| setAddrInFromByteArray (ipv4 : Vector UInt8 4) (port : Int)
| setAddrIn6FromByteArray (ipv6 : Vector UInt8 16) (port : Int)

namespace HostIdOp

/-
  Ports are from 0 to 65535, and the socket addresses are of
  the family of their type.
-/
def Valid : HostIdOp → Prop
  | .init => True
  | .setName _ => True
  | .setPort port => IsPort port
  | .setAddrIn saIn => saIn[1] = AF_INET
  | .setAddrIn6 saIn6 => saIn6[1] = AF_INET6
  | .setAddrInFromByteArray _ port => IsPort port
  | .setAddrIn6FromByteArray _ port => IsPort port

/- What an operation does to memory. -/
def apply
    (m : HostIdMem) : HostIdOp → HostIdMem
  | .init => m.init
  | .setName name => m.setName name
  | .setPort port => m.setPort port
  | .setAddrIn saIn => m.setAddrIn saIn
  | .setAddrIn6 saIn6 => m.setAddrIn6 saIn6
  | .setAddrInFromByteArray ipv4 port =>
      m.setAddrInFromByteArray ipv4 port
  | .setAddrIn6FromByteArray ipv6 port =>
      m.setAddrIn6FromByteArray ipv6 port

/- The bytes of the address that an operation sets. -/
def addrBytes : HostIdOp → Option (List UInt8)
  | .setAddrIn saIn => some [saIn[4], saIn[5], saIn[6], saIn[7]]
  | .setAddrIn6 saIn6 => some ((saIn6.toList.drop 8).take 16)
  | .setAddrInFromByteArray ipv4 _ => some ipv4.toList
  | .setAddrIn6FromByteArray ipv6 _ => some ipv6.toList
  | _ => none

/- What it does to a host identity. -/
def on
    (id : HostId) : HostIdOp → HostId
  | .init => HostId.init
  | .setName name => id.setName name
  | .setPort port => id.setPort port
  | .setAddrIn saIn =>
      id.setAddrIn (htons (bePort saIn[2] saIn[3]))
        (ipv4OfOctets saIn[4] saIn[5] saIn[6] saIn[7])
  | .setAddrIn6 saIn6 =>
      let port := bePort saIn6[2] saIn6[3]
      { id with
        port := port
        addr := .inet6 (htons port)
          (Vector.ofFn fun i => saIn6[8 + i.val]) }
  | .setAddrInFromByteArray ipv4 port =>
      id.setAddrInFromByteArray ipv4.toList port
  | .setAddrIn6FromByteArray ipv6 port =>
      id.setAddrIn6FromByteArray ipv6.toList port

end HostIdOp

/- The address that is set after an operation. -/
def HostIdOp.note
    (last : Option (List UInt8)) :
    HostIdOp → Option (List UInt8)
  | .init => none
  | op => op.addrBytes.or last

/-
  The bytes that the most recent address setter was given, if
  there was one since the last host_id_init().
-/
def lastAddr
    (ops : List HostIdOp) : Option (List UInt8) :=
  ops.foldl HostIdOp.note none

------------------------------------------------------------
-- Representation
------------------------------------------------------------

/- The bytes of the union that tell the address. -/
def RepresentsAddr
    (addr : Buffer) : SockAddr → Prop
  | .unspec => addr 1 = AF_UNSPEC
  | .inet sinPort sinAddr =>
      addr 1 = AF_INET ∧
        bePort (addr 2) (addr 3) = ntohs sinPort ∧
        ipv4OfOctets (addr 4) (addr 5) (addr 6) (addr 7) =
          sinAddr
  | .inet6 sin6Port sin6Addr =>
      addr 1 = AF_INET6 ∧
        bePort (addr 2) (addr 3) = ntohs sin6Port ∧
        (List.range 16).map (fun i => addr (8 + i)) =
          sin6Addr.toList

/- Memory holds a host identity. -/
structure Represents
    (m : HostIdMem)
    (id : HostId) : Prop where
  name : m.name.Holds id.name.text
  port : m.port = id.port
  addr : RepresentsAddr m.addr id.addr

variable {m : HostIdMem}
variable {id : HostId}

theorem storePort_bePort
    (addr : Buffer)
    (port : Int) :
    bePort (HostIdMem.storePort addr port 2)
        (HostIdMem.storePort addr port 3) =
      ntohs (htons port) := by
  rw [ntohs_htons, ← bePort_portHigh_portLow]
  rfl

/- Bytes other than those of the port are kept. -/
theorem storePort_other
    (addr : Buffer)
    (port : Int)
    {i : Nat}
    (hLow : i ≠ 2)
    (hHigh : i ≠ 3) :
    HostIdMem.storePort addr port i = addr i := by
  unfold HostIdMem.storePort Buffer.store
  by_cases hBefore : 2 ≤ i
  · rw [if_pos hBefore, List.getD_eq_getElem?_getD,
      List.getElem?_eq_none (by simp; omega)]
    rfl
  · rw [if_neg hBefore]

/- The name is cut off and terminated. -/
theorem setName_holds
    (buf : Buffer)
    (name : Text) :
    ((buf.store 0 (strncpyBytes name maxDns)).put
      (maxDns - 1, 0)).Holds
        ((CBuf.copy name : CBuf maxDns).text) := by
  rw [CBuf.text_copy]
  unfold strncpyBytes
  generalize Text.cstr name = str
  have hCut :
      str.take maxDns =
        str.take (maxDns - 1) ++
          (str.drop (maxDns - 1)).take 1 :=
    List.take_add (i := maxDns - 1) (j := 1)
  constructor
  · rw [Buffer.load_put_of_le _ (List.length_take_le _ _), hCut,
      List.append_assoc]
    exact Buffer.load_store_front buf _ _
  · by_cases hLong : maxDns - 1 ≤ str.length
    · rw [List.length_take_of_le hLong]
      simp [Buffer.put]
    · have hHere : str.length ≠ maxDns - 1 := by omega
      have hLast : 0 < maxDns - str.length := by omega
      rw [List.take_of_length_le (by omega),
        List.take_of_length_le (by omega)]
      unfold Buffer.put
      rw [Function.update_of_ne hHere]
      simp [Buffer.store, hLast]

theorem store_vector
    {n : Nat}
    (addr : Buffer)
    (off : Nat)
    (v : Vector UInt8 n)
    {i : Nat}
    (hi : i < n) :
    addr.store off v.toList (off + i) = v[i] := by
  rw [Buffer.store_add _ _ (by simpa using hi)]
  simp

/- A struct that is copied to the start of the union. -/
theorem store_vector_front
    {n : Nat}
    (addr : Buffer)
    (v : Vector UInt8 n)
    {i : Nat}
    (hi : i < n) :
    addr.store 0 v.toList i = v[i] := by
  have hStored := store_vector addr 0 v hi
  rwa [Nat.zero_add] at hStored

theorem representsAddr_in
    (addr : Buffer)
    {saIn : Vector UInt8 16}
    (hFamily : saIn[1] = AF_INET) :
    RepresentsAddr (addr.store 0 saIn.toList)
      (.inet (htons (bePort saIn[2] saIn[3]))
        (ipv4OfOctets saIn[4] saIn[5] saIn[6] saIn[7])) := by
  have hByte : ∀ i (hi : i < 16),
      addr.store 0 saIn.toList i = saIn[i] :=
    fun _ => store_vector_front addr saIn
  refine ⟨?_, ?_, ?_⟩
  · rw [hByte 1 (by decide), hFamily]
  · rw [ntohs_htons_of_isPort (isPort_bePort _ _),
      hByte 2 (by decide), hByte 3 (by decide)]
  · rw [hByte 4 (by decide), hByte 5 (by decide),
      hByte 6 (by decide), hByte 7 (by decide)]

theorem representsAddr_in6
    (addr : Buffer)
    {saIn6 : Vector UInt8 28}
    (hFamily : saIn6[1] = AF_INET6) :
    RepresentsAddr (addr.store 0 saIn6.toList)
      (.inet6 (htons (bePort saIn6[2] saIn6[3]))
        (Vector.ofFn fun i => saIn6[8 + i.val])) := by
  have hByte : ∀ i (hi : i < 28),
      addr.store 0 saIn6.toList i = saIn6[i] :=
    fun _ => store_vector_front addr saIn6
  refine ⟨?_, ?_, ?_⟩
  · rw [hByte 1 (by decide), hFamily]
  · rw [ntohs_htons_of_isPort (isPort_bePort _ _),
      hByte 2 (by decide), hByte 3 (by decide)]
  · apply List.ext_getElem
    · simp
    · intro i hi _
      have hi : i < 16 := by simpa using hi
      simp [hByte (8 + i) (by omega)]

/- The header and the port, with an address behind them. -/
theorem storeHeader_family
    (addr : Buffer)
    (len family : UInt8)
    (port : Int)
    (off : Nat)
    (hOff : 4 ≤ off)
    (data : List UInt8) :
    let addr' := (HostIdMem.storePort
      (HostIdMem.storeHeader addr len family) port).store off
        data
    addr' 1 = family ∧
      bePort (addr' 2) (addr' 3) = ntohs (htons port) := by
  intro addr'
  have hSame : ∀ i < 4,
      addr' i =
        HostIdMem.storePort
          (HostIdMem.storeHeader addr len family) port i :=
    fun i hi => Buffer.store_of_lt _ _ (by omega)
  constructor
  · rw [hSame 1 (by decide),
      storePort_other _ _ (by decide) (by decide)]
    simp [HostIdMem.storeHeader, Buffer.put]
  · rw [hSame 2 (by decide), hSame 3 (by decide)]
    exact storePort_bePort _ port

theorem representsAddr_inFromByteArray
    (m : HostIdMem)
    (ipv4 : Vector UInt8 4)
    (port : Int) :
    RepresentsAddr (m.setAddrInFromByteArray ipv4 port).addr
      (.inet (htons port)
        (ipv4OfOctets ipv4[0] ipv4[1] ipv4[2] ipv4[3])) := by
  rcases storeHeader_family m.addr 16 AF_INET port 4 le_rfl
      (ipv4Octets
        (ipv4OfOctets ipv4[0] ipv4[1] ipv4[2] ipv4[3])) with
    ⟨hFamily, hPort⟩
  have hAddr :
      (m.setAddrInFromByteArray ipv4 port).addr =
        Buffer.store
          (HostIdMem.storePort
            (HostIdMem.storeHeader m.addr 16 AF_INET) port) 4
          [ipv4[0], ipv4[1], ipv4[2], ipv4[3]] :=
    congrArg (Buffer.store _ 4)
      (ipv4Octets_ipv4OfOctets _ _ _ _)
  refine ⟨hFamily, hPort, ?_⟩
  rw [hAddr]
  rfl

theorem representsAddr_in6FromByteArray
    (m : HostIdMem)
    (ipv6 : Vector UInt8 16)
    (port : Int) :
    RepresentsAddr (m.setAddrIn6FromByteArray ipv6 port).addr
      (.inet6 (htons port) ipv6) := by
  rcases storeHeader_family m.addr 28 AF_INET6 port 8
      (by decide) ipv6.toList with
    ⟨hFamily, hPort⟩
  refine ⟨hFamily, hPort, ?_⟩
  apply List.ext_getElem
  · simp
  · intro i hi _
    have hi : i < 16 := by simpa using hi
    simp only [List.getElem_map, List.getElem_range]
    exact (store_vector _ 8 ipv6 hi).trans (by simp)

/- The port is stored where the family has it. -/
theorem Represents.setPort
    (hRep : Represents m id)
    (port : Int) :
    Represents (m.setPort port) (id.setPort port) := by
  have hAddr := hRep.addr
  have hPort := storePort_bePort m.addr port
  refine ⟨hRep.name, rfl, ?_⟩
  unfold HostIdMem.setPort HostId.setPort
  dsimp only
  cases hKind : id.addr with
  | unspec =>
      rw [hKind] at hAddr
      have hFamily : m.saFamily = AF_UNSPEC := hAddr
      have hNot : m.saFamily ≠ AF_INET := by
        rw [hFamily]
        decide
      have hNot6 : m.saFamily ≠ AF_INET6 := by
        rw [hFamily]
        decide
      rw [if_neg hNot, if_neg hNot6]
      exact hFamily
  | inet sinPort sinAddr =>
      rw [hKind] at hAddr
      rcases hAddr with ⟨hFamily, _, hBytes⟩
      have hHere : m.saFamily = AF_INET := hFamily
      rw [if_pos hHere]
      refine ⟨?_, hPort, ?_⟩
      · rw [storePort_other _ _ (by decide) (by decide)]
        exact hFamily
      · rw [storePort_other _ _ (by decide) (by decide),
          storePort_other _ _ (by decide) (by decide),
          storePort_other _ _ (by decide) (by decide),
          storePort_other _ _ (by decide) (by decide)]
        exact hBytes
  | inet6 sin6Port sin6Addr =>
      rw [hKind] at hAddr
      rcases hAddr with ⟨hFamily, _, hBytes⟩
      have hHere : m.saFamily = AF_INET6 := hFamily
      have hNot : m.saFamily ≠ AF_INET := by
        rw [hHere]
        decide
      rw [if_neg hNot, if_pos hHere]
      refine ⟨?_, hPort, ?_⟩
      · rw [storePort_other _ _ (by decide) (by decide)]
        exact hFamily
      · rw [← hBytes]
        apply List.map_congr_left
        intro i _
        exact storePort_other _ _ (by omega) (by omega)

/-
  Every operation on memory is the operation on the host
  identity that it holds.
-/
theorem Represents.apply
    (hRep : Represents m id)
    {op : HostIdOp}
    (hValid : op.Valid) :
    Represents (op.apply m) (op.on id) := by
  cases op with
  | init =>
      refine ⟨Buffer.holds_nil m.name, rfl, ?_⟩
      change m.addr.put (1, AF_UNSPEC) 1 = AF_UNSPEC
      simp [Buffer.put]
  | setName name =>
      exact ⟨setName_holds m.name name, hRep.port, hRep.addr⟩
  | setPort port => exact hRep.setPort port
  | setAddrIn saIn =>
      have hPort :=
        ntohs_htons_of_isPort (isPort_bePort saIn[2] saIn[3])
      exact ⟨hRep.name, hPort.symm,
        representsAddr_in m.addr hValid⟩
  | setAddrIn6 saIn6 =>
      exact ⟨hRep.name, rfl,
        representsAddr_in6 m.addr hValid⟩
  | setAddrInFromByteArray ipv4 port =>
      refine ⟨hRep.name, rfl, ?_⟩
      have hBytes := representsAddr_inFromByteArray m ipv4 port
      change RepresentsAddr
        (m.setAddrInFromByteArray ipv4 port).addr _
      simpa [HostIdOp.on, HostId.setAddrInFromByteArray]
        using hBytes
  | setAddrIn6FromByteArray ipv6 port =>
      refine ⟨hRep.name, rfl, ?_⟩
      have hBytes := representsAddr_in6FromByteArray m ipv6 port
      have hSame :
          (Vector.ofFn fun i : Fin 16 =>
            ipv6.toList.getD i.val 0) = ipv6 := by
        ext i hi
        simp
      change RepresentsAddr _ (.inet6 _ _)
      rw [hSame]
      exact hBytes

------------------------------------------------------------
-- Coherence
------------------------------------------------------------

/-
  The port is the same in both places, and the address is the
  one that was set last.
-/
def Coherent
    (last : Option (List UInt8))
    (id : HostId) : Prop :=
  match id.addr with
  | .unspec => last = none
  | .inet sinPort sinAddr =>
      ntohs sinPort = id.port ∧
        last = some (ipv4Octets sinAddr)
  | .inet6 sin6Port sin6Addr =>
      ntohs sin6Port = id.port ∧
        last = some sin6Addr.toList

theorem Coherent.setPort
    {last : Option (List UInt8)}
    (hCoherent : Coherent last id)
    {port : Int}
    (hPort : IsPort port) :
    Coherent last (id.setPort port) := by
  have hSame := ntohs_htons_of_isPort hPort
  rcases id with ⟨name, addr, oldPort⟩
  cases addr with
  | unspec => exact hCoherent
  | inet sinPort sinAddr => exact ⟨hSame, hCoherent.2⟩
  | inet6 sin6Port sin6Addr => exact ⟨hSame, hCoherent.2⟩

theorem Coherent.apply
    {last : Option (List UInt8)}
    (hCoherent : Coherent last id)
    {op : HostIdOp}
    (hValid : op.Valid) :
    Coherent (op.note last) (op.on id) := by
  cases op with
  | init => rfl
  | setName name => exact hCoherent
  | setPort port => exact hCoherent.setPort hValid
  | setAddrIn saIn =>
      refine ⟨rfl, ?_⟩
      rw [ipv4Octets_ipv4OfOctets]
      rfl
  | setAddrIn6 saIn6 =>
      refine ⟨ntohs_htons_of_isPort (isPort_bePort _ _), ?_⟩
      refine congrArg some (List.ext_getElem (by simp) ?_)
      intro i _ _
      simp
  | setAddrInFromByteArray ipv4 port =>
      refine ⟨ntohs_htons_of_isPort hValid, ?_⟩
      rw [ipv4Octets_ipv4OfOctets]
      refine congrArg some (List.ext_getElem (by simp) ?_)
      intro i hi _
      have hi : i < 4 := by simpa using hi
      interval_cases i <;> simp
  | setAddrIn6FromByteArray ipv6 port =>
      refine ⟨ntohs_htons_of_isPort hValid, ?_⟩
      refine congrArg some (List.ext_getElem (by simp) ?_)
      intro i _ _
      simp

/- A run of operations. -/
theorem represents_run
    (ops : List HostIdOp)
    {last : Option (List UInt8)}
    (hRep : Represents m id)
    (hCoherent : Coherent last id)
    (hValid : ∀ op ∈ ops, op.Valid) :
    Represents (ops.foldl HostIdOp.apply m)
        (ops.foldl HostIdOp.on id) ∧
      Coherent (ops.foldl HostIdOp.note last)
        (ops.foldl HostIdOp.on id) := by
  induction ops generalizing m id last with
  | nil => exact ⟨hRep, hCoherent⟩
  | cons op ops ih =>
      have hHere := hValid op List.mem_cons_self
      exact ih (hRep.apply hHere) (hCoherent.apply hHere)
        fun op hMem => hValid op (List.mem_cons_of_mem _ hMem)

/-
  What reading the address back gives: nothing without one, or
  when the buffer is too short for it.
-/
def readBack
    (last : Option (List UInt8))
    (buf : Buffer)
    (buflen : Nat) : Int × Buffer :=
  match last with
  | none => (0, buf)
  | some bytes =>
      if buflen < bytes.length then (0, buf)
      else (bytes.length, buf.store 0 bytes)

theorem Represents.getAddr
    {last : Option (List UInt8)}
    (hRep : Represents m id)
    (hCoherent : Coherent last id)
    (buf : Buffer)
    (buflen : Nat) :
    m.getAddrAsByteArray buf buflen =
      readBack last buf buflen := by
  have hAddr := hRep.addr
  unfold Coherent at hCoherent
  unfold HostIdMem.getAddrAsByteArray
  cases hKind : id.addr with
  | unspec =>
      rw [hKind] at hAddr hCoherent
      have hFamily : m.saFamily = AF_UNSPEC := hAddr
      have hNone : last = none := hCoherent
      subst hNone
      simp [hFamily, AF_UNSPEC, AF_INET, AF_INET6, readBack]
  | inet sinPort sinAddr =>
      rw [hKind] at hAddr hCoherent
      rcases hAddr with ⟨hFamily, _, hBytes⟩
      have hHere : m.saFamily = AF_INET := hFamily
      rw [if_pos hHere, hBytes, hCoherent.2]
      rfl
  | inet6 sin6Port sin6Addr =>
      rw [hKind] at hAddr hCoherent
      rcases hAddr with ⟨hFamily, _, hBytes⟩
      have hHere : m.saFamily = AF_INET6 := hFamily
      have hNot : m.saFamily ≠ AF_INET := by
        rw [hHere]
        decide
      rw [if_neg hNot, if_pos hHere, hBytes, hCoherent.2]
      simp [readBack]

/- The family tells how long the address is. -/
theorem Represents.family
    {bytes : List UInt8}
    (hRep : Represents m id)
    (hCoherent : Coherent (some bytes) id) :
    m.saFamily = AF_INET ∧ bytes.length = 4 ∨
      m.saFamily = AF_INET6 ∧ bytes.length = 16 := by
  have hAddr := hRep.addr
  unfold Coherent at hCoherent
  cases hKind : id.addr with
  | unspec =>
      rw [hKind] at hCoherent
      exact nomatch hCoherent
  | inet sinPort sinAddr =>
      rw [hKind] at hAddr hCoherent
      left
      refine ⟨hAddr.1, ?_⟩
      rw [Option.some.inj hCoherent.2]
      rfl
  | inet6 sin6Port sin6Addr =>
      rw [hKind] at hAddr hCoherent
      right
      refine ⟨hAddr.1, ?_⟩
      rw [Option.some.inj hCoherent.2]
      simp

/- Both places of the port hold the same number. -/
theorem Represents.sinPort
    {last : Option (List UInt8)}
    (hRep : Represents m id)
    (hCoherent : Coherent last id)
    (hFamily : m.saFamily ≠ AF_UNSPEC) :
    m.sinPort = m.port := by
  have hAddr := hRep.addr
  unfold Coherent at hCoherent
  rw [hRep.port]
  unfold HostIdMem.sinPort
  cases hKind : id.addr with
  | unspec =>
      rw [hKind] at hAddr
      exact absurd hAddr hFamily
  | inet sinPort sinAddr =>
      rw [hKind] at hAddr hCoherent
      exact hAddr.2.1.trans hCoherent.1
  | inet6 sin6Port sin6Addr =>
      rw [hKind] at hAddr hCoherent
      exact hAddr.2.1.trans hCoherent.1

/-
  After host_id_init() and any operations the two ports agree,
  the name is terminated, and the address that was set last is
  read back.
-/
theorem hostId_coherent
    (m : HostIdMem)
    {ops : List HostIdOp}
    (hValid : ∀ op ∈ ops, op.Valid) :
    let m' := ops.foldl HostIdOp.apply m.init
    (m'.saFamily = AF_INET ∨ m'.saFamily = AF_INET6 →
      m'.sinPort = m'.port) ∧
    (∃ name : Text, m'.name.Holds name ∧
      (0 : UInt8) ∉ name ∧ name.length ≤ 259) ∧
    (∀ op : HostIdOp, op.addrBytes ≠ none →
      (op.apply m').name = m'.name) ∧
    (∀ buf buflen, m'.getAddrAsByteArray buf buflen =
      readBack (lastAddr ops) buf buflen) ∧
    ∀ bytes, lastAddr ops = some bytes →
      m'.saFamily = AF_INET ∧ bytes.length = 4 ∨
        m'.saFamily = AF_INET6 ∧ bytes.length = 16 := by
  intro m'
  have hStart : Represents m.init HostId.init := by
    refine ⟨Buffer.holds_nil m.name, rfl, ?_⟩
    change m.addr.put (1, AF_UNSPEC) 1 = AF_UNSPEC
    simp [Buffer.put]
  have hNone : Coherent none HostId.init := rfl
  rcases represents_run ops hStart hNone hValid with
    ⟨hRep, hCoherent⟩
  refine ⟨?_, ⟨_, hRep.name, CBuf.noNul _, CBuf.fits _⟩, ?_,
    hRep.getAddr hCoherent, ?_⟩
  · intro hFamily
    apply hRep.sinPort hCoherent
    rcases hFamily with hFamily | hFamily
    · rw [hFamily]
      decide
    · rw [hFamily]
      decide
  · intro op hSets
    cases op with
    | init => exact absurd rfl hSets
    | setName name => exact absurd rfl hSets
    | setPort port => exact absurd rfl hSets
    | setAddrIn saIn => rfl
    | setAddrIn6 saIn6 => rfl
    | setAddrInFromByteArray ipv4 port => rfl
    | setAddrIn6FromByteArray ipv6 port => rfl
  · intro bytes hLast
    unfold lastAddr at hLast
    rw [hLast] at hCoherent
    exact hRep.family hCoherent

/- An IPv6 address after an IPv4 one, and then another port. -/
theorem hostId_coherent_twoFamilies :
    let ops :=
      [HostIdOp.setAddrInFromByteArray #v[1, 2, 3, 4] 80,
        .setAddrIn6FromByteArray (Vector.replicate 16 7) 443,
        .setPort 8080]
    let m := ops.foldl HostIdOp.apply
      (HostIdMem.mk (fun _ => 9) (fun _ => 9) 5).init
    m.sinPort = m.port ∧
      ∀ buf, m.getAddrAsByteArray buf 16 =
        (16, buf.store 0 (List.replicate 16 7)) := by
  intro ops m
  have hValid : ∀ op ∈ ops, op.Valid := by
    intro op hMem
    simp only [ops, List.mem_cons, List.not_mem_nil, or_false]
      at hMem
    rcases hMem with rfl | rfl | rfl
    · exact ⟨by decide, by decide⟩
    · exact ⟨by decide, by decide⟩
    · exact ⟨by decide, by decide⟩
  rcases hostId_coherent
      (HostIdMem.mk (fun _ => 9) (fun _ => 9) 5) hValid with
    ⟨hPort, _, _, hAddr, _⟩
  exact ⟨hPort (Or.inr rfl), fun buf => hAddr buf 16⟩

end SmartSOCKSProxy
