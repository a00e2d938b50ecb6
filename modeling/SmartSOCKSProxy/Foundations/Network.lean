import SmartSOCKSProxy.Foundations.CString

/-
  Network byte order and the text form of addresses.

  Ports and IPv4 addresses are kept as numbers, so that
  htons(), ntohs(), htonl() and ntohl() only truncate.

  Key definitions include:
    * `htons`, `bePort`, `portHigh`, `portLow`
    * `ipv4OfOctets`, `ipv4Octets`
    * `inetNtop4`, `inetPton4`, `inetNtop6`

  Key theorems include:
    * `ipv4OfOctets_ipv4Octets`, `ipv4Octets_ipv4OfOctets`
    * `bePort_portHigh_portLow`
    * `inetPton4_inetNtop4`
-/

------------------------------------------------------------
-- Ports
------------------------------------------------------------

/- The 16 bits of a number that a port field stores. -/
def htons
    (port : Int) : UInt16 :=
  UInt16.ofInt port

/- The value of a port field. -/
def ntohs
    (port : UInt16) : Int :=
  port.toNat

/- `hi << 8 | lo` -/
def bePort
    (hi lo : UInt8) : Int :=
  ((hi.toNat <<< 8 ||| lo.toNat : Nat) : Int)

/- `(port >> 8) & 0x0FF` -/
def portHigh
    (port : Int) : UInt8 :=
  UInt8.ofInt (port >>> (8 : Nat))

/- `port & 0x0FF` -/
def portLow
    (port : Int) : UInt8 :=
  UInt8.ofInt port

/- A port that fits the sixteen bits of the wire. -/
def IsPort
    (port : Int) : Prop :=
  0 ≤ port ∧ port < 65536

instance
    (port : Int) :
    Decidable (IsPort port) := by
  unfold IsPort
  infer_instance

theorem bePort_eq
    (hi lo : UInt8) :
    bePort hi lo = hi.toNat * 256 + lo.toNat := by
  have hLo : lo.toNat < 2 ^ 8 := lo.toNat_lt
  have hOr := Nat.shiftLeft_add_eq_or_of_lt hLo hi.toNat
  rw [bePort, ← hOr, Nat.shiftLeft_eq]
  norm_num

theorem isPort_bePort
    (hi lo : UInt8) :
    IsPort (bePort hi lo) := by
  have hHi := hi.toNat_lt
  have hLo := lo.toNat_lt
  rw [bePort_eq]
  constructor <;> omega

theorem toNat_ofInt
    (v : Int) :
    ((UInt8.ofInt v).toNat : Int) = v % 256 := by
  have hNonneg : 0 ≤ v % 256 := Int.emod_nonneg v (by simp)
  have hLt : v % 256 < 256 := Int.emod_lt_of_pos v (by simp)
  simp [UInt8.ofInt]
  omega

/- Only the low sixteen bits of a port reach the wire. -/
theorem bePort_portHigh_portLow
    (port : Int) :
    bePort (portHigh port) (portLow port) =
      port % 65536 := by
  have hHi := toNat_ofInt (port >>> (8 : Nat))
  have hLo := toNat_ofInt port
  have hShift : port >>> (8 : Nat) = port / 256 :=
    Int.shiftRight_eq_div_pow port 8
  rw [hShift] at hHi
  rw [bePort_eq, portHigh, portLow, hShift]
  omega

theorem portHigh_bePort
    (hi lo : UInt8) :
    portHigh (bePort hi lo) = hi := by
  apply UInt8.toNat_inj.mp
  have hHi := toNat_ofInt (bePort hi lo >>> (8 : Nat))
  have hShift :
      bePort hi lo >>> (8 : Nat) = bePort hi lo / 256 :=
    Int.shiftRight_eq_div_pow _ 8
  have hHiLt := hi.toNat_lt
  have hLoLt := lo.toNat_lt
  rw [hShift, bePort_eq] at hHi
  rw [portHigh, hShift, bePort_eq]
  omega

theorem portLow_bePort
    (hi lo : UInt8) :
    portLow (bePort hi lo) = lo := by
  apply UInt8.toNat_inj.mp
  have hLo := toNat_ofInt (bePort hi lo)
  have hLoLt := lo.toNat_lt
  rw [bePort_eq] at hLo
  rw [portLow, bePort_eq]
  omega

/- A port survives its trip through a port field. -/
theorem ntohs_htons
    (port : Int) :
    ntohs (htons port) = port % 65536 := by
  have hNonneg : 0 ≤ port % 65536 :=
    Int.emod_nonneg port (by simp)
  have hLt : port % 65536 < 65536 :=
    Int.emod_lt_of_pos port (by simp)
  simp [ntohs, htons, UInt16.ofInt]
  omega

theorem ntohs_htons_of_isPort
    {port : Int}
    (hPort : IsPort port) :
    ntohs (htons port) = port := by
  rw [ntohs_htons]
  exact Int.emod_eq_of_lt hPort.1 hPort.2

theorem isPort_ntohs
    (port : UInt16) :
    IsPort (ntohs port) := by
  have hLt := port.toNat_lt
  constructor
  · simp [ntohs]
  · simp only [ntohs]
    omega

------------------------------------------------------------
-- IPv4 Addresses
------------------------------------------------------------

/- The number that four octets in network order denote. -/
def ipv4OfOctets
    (a b c d : UInt8) : UInt32 :=
  (((a.toUInt32 <<< 8 ||| b.toUInt32) <<< 8 |||
    c.toUInt32) <<< 8) ||| d.toUInt32

/- The four octets of an address, in network order. -/
def ipv4Octets
    (addr : UInt32) : List UInt8 :=
  [(addr >>> 24).toUInt8, (addr >>> 16).toUInt8,
    (addr >>> 8).toUInt8, addr.toUInt8]

theorem toNat_shift_or
    {x : UInt32}
    {b : UInt8}
    (hx : x.toNat < 2 ^ 24) :
    (x <<< 8 ||| b.toUInt32).toNat =
      x.toNat * 256 + b.toNat := by
  have hb : b.toNat < 2 ^ 8 := b.toNat_lt
  have hOr := Nat.shiftLeft_add_eq_or_of_lt hb x.toNat
  have hShift : (x <<< 8).toNat = x.toNat <<< 8 := by
    simp [UInt32.toNat_shiftLeft, Nat.shiftLeft_eq]
    omega
  rw [UInt32.toNat_or, hShift, UInt8.toNat_toUInt32,
    ← hOr, Nat.shiftLeft_eq]

theorem toNat_ipv4OfOctets
    (a b c d : UInt8) :
    (ipv4OfOctets a b c d).toNat =
      ((a.toNat * 256 + b.toNat) * 256 + c.toNat) * 256 +
        d.toNat := by
  have ha := a.toNat_lt
  have hb := b.toNat_lt
  have hc := c.toNat_lt
  have hA : a.toUInt32.toNat = a.toNat :=
    UInt8.toNat_toUInt32 a
  have hAB :=
    toNat_shift_or (x := a.toUInt32) (b := b) (by omega)
  have hABC :=
    toNat_shift_or (b := c)
      (x := a.toUInt32 <<< 8 ||| b.toUInt32) (by omega)
  rw [ipv4OfOctets, toNat_shift_or (by omega)]
  omega

theorem toNat_octet
    (addr k : UInt32)
    (hk : k.toNat < 32) :
    (addr >>> k).toUInt8.toNat =
      addr.toNat / 2 ^ k.toNat % 256 := by
  simp [Nat.shiftRight_eq_div_pow, Nat.mod_eq_of_lt hk]

/- The octets of a number are the octets it was made of. -/
theorem ipv4Octets_ipv4OfOctets
    (a b c d : UInt8) :
    ipv4Octets (ipv4OfOctets a b c d) = [a, b, c, d] := by
  have hNat := toNat_ipv4OfOctets a b c d
  have ha := a.toNat_lt
  have hb := b.toNat_lt
  have hc := c.toNat_lt
  have hd := d.toNat_lt
  simp only [ipv4Octets, List.cons.injEq, and_true,
    ← UInt8.toNat_inj]
  refine ⟨?_, ?_, ?_, ?_⟩
  · rw [toNat_octet _ 24 (by decide)]
    simp
    omega
  · rw [toNat_octet _ 16 (by decide)]
    simp
    omega
  · rw [toNat_octet _ 8 (by decide)]
    simp
    omega
  · simp
    omega

/- An address is the number that its octets denote. -/
theorem ipv4OfOctets_ipv4Octets
    (addr : UInt32) :
    ipv4OfOctets (addr >>> 24).toUInt8
      (addr >>> 16).toUInt8 (addr >>> 8).toUInt8
      addr.toUInt8 = addr := by
  have hAddr := addr.toNat_lt
  apply UInt32.toNat_inj.mp
  rw [toNat_ipv4OfOctets, toNat_octet _ 24 (by decide),
    toNat_octet _ 16 (by decide),
    toNat_octet _ 8 (by decide)]
  simp
  omega

------------------------------------------------------------
-- Dotted Quads
------------------------------------------------------------

/- The decimal text of an octet. -/
def octetText
    (b : UInt8) : Text :=
  if b < 10 then [b + 48]
  else if b < 100 then [b / 10 + 48, b % 10 + 48]
  else [b / 100 + 48, b / 10 % 10 + 48, b % 10 + 48]

/-
  The octet that a decimal token denotes: digits only, at
  most 255, and no leading zero.
-/
def parseOctet
    (t : Text) : Option UInt8 :=
  let value := Text.digitsValue 10 t
  if t ≠ [] ∧ t.all (Text.isDigit 10) ∧ value < 256 ∧
      (t.head? = some 48 → t.length = 1) then
    some (UInt8.ofNat value)
  else none

/- `inet_ntop(AF_INET, ...)` -/
def inetNtop4
    (addr : UInt32) : Text :=
  [46].intercalate ((ipv4Octets addr).map octetText)

/- `inet_pton(AF_INET, ...)`: `none` is a result other than 1. -/
def inetPton4
    (t : Text) : Option UInt32 :=
  match (t.splitOn 46).map parseOctet with
  | [some a, some b, some c, some d] =>
      some (ipv4OfOctets a b c d)
  | _ => none

theorem parseOctet_octetText
    (b : UInt8) :
    parseOctet (octetText b) = some b ∧
      46 ∉ octetText b := by
  have hAll :
      ∀ n : Fin 256,
        parseOctet (octetText (UInt8.ofNat n)) =
            some (UInt8.ofNat n) ∧
          46 ∉ octetText (UInt8.ofNat n) := by
    decide +kernel
  have hb := hAll ⟨b.toNat, b.toNat_lt⟩
  simpa using hb

/- The text form of an IPv4 address denotes that address. -/
theorem inetPton4_inetNtop4
    (addr : UInt32) :
    inetPton4 (inetNtop4 addr) = some addr := by
  have hSplit :
      (inetNtop4 addr).splitOn 46 =
        (ipv4Octets addr).map octetText := by
    apply List.splitOn_intercalate
    · intro t ht
      rcases List.mem_map.mp ht with ⟨b, _, rfl⟩
      exact (parseOctet_octetText b).2
    · simp [ipv4Octets]
  simp [inetPton4, hSplit, ipv4Octets,
    (parseOctet_octetText _).1, ipv4OfOctets_ipv4Octets]

------------------------------------------------------------
-- IPv6 Text
------------------------------------------------------------

/- The lower-case hexadecimal digit of a value below 16. -/
def hexDigit
    (n : Nat) : UInt8 :=
  if n < 10 then UInt8.ofNat (48 + n)
  else UInt8.ofNat (87 + n)

/- The hexadecimal text of a 16-bit group. -/
def hexGroup
    (n : Nat) : Text :=
  let digits :=
    [n / 4096 % 16, n / 256 % 16, n / 16 % 16, n % 16]
  match digits.dropWhile (· = 0) with
  | [] => [48]
  | ds => ds.map hexDigit

/- The eight groups of an IPv6 address. -/
def ipv6Groups
    (addr : Vector UInt8 16) : List Nat :=
  (List.range 8).map fun i =>
    (addr.toList.getD (2 * i) 0).toNat * 256 +
      (addr.toList.getD (2 * i + 1) 0).toNat

/- The number of zero groups from a position on. -/
def zeroRun
    (groups : List Nat)
    (i : Nat) : Nat :=
  ((groups.drop i).takeWhile (· = 0)).length

/- The first longest run of at least two zero groups. -/
def bestRun
    (groups : List Nat) : Option (Nat × Nat) :=
  (List.range 8).foldl
    (fun best i =>
      let len := zeroRun groups i
      if len ≥ 2 ∧ (best.map Prod.snd).getD 0 < len then
        some (i, len)
      else best) none

/-
  The dotted tail of an encapsulated IPv4 address, written
  for runs of six zero groups and for `::ffff:a.b.c.d`.
-/
def embedded4
    (addr : Vector UInt8 16) : Text :=
  [46].intercalate
    ((addr.toList.drop 12).map octetText)

/- `inet_ntop(AF_INET6, ...)` -/
def inetNtop6
    (addr : Vector UInt8 16) : Text :=
  let groups := ipv6Groups addr
  let colon : Text := [58]
  match bestRun groups with
  | none => colon.intercalate (groups.map hexGroup)
  | some (base, len) =>
      let front :=
        colon.intercalate ((groups.take base).map hexGroup)
      let rest := groups.drop (base + len)
      if base = 0 ∧ len = 6 then
        colon ++ colon ++ embedded4 addr
      else if base = 0 ∧ len = 5 ∧ rest.head? = some 65535 then
        colon ++ colon ++ hexGroup 65535 ++ colon ++
          embedded4 addr
      else
        front ++ colon ++ colon ++
          colon.intercalate (rest.map hexGroup)

example :
    inetNtop4 (ipv4OfOctets 10 0 20 255) =
      Text.ascii ['1', '0', '.', '0', '.', '2', '0', '.',
        '2', '5', '5'] := by decide
