import SmartSOCKSProxy.Foundations.BitMask
import SmartSOCKSProxy.Foundations.Numerals
import SmartSOCKSProxy.Routing.ClauseOrder
import SmartSOCKSProxy.Routing.Meaning

/-
  Networks of IPv4 addresses.

  The rules hold addresses and masks in 64-bit variables,
  which never have more than 32 bits in use.

  Key definitions include:
    * `netMask`, `maskOf`

  Key theorems include:
    * `inNetwork_iff`, `toAddr_eq_blend`
    * `netv4Argument_slash`, `prefixMask_eq`
    * `parseRouteRuleSpec_clauses`
-/

namespace SmartSOCKSProxy

------------------------------------------------------------
-- Words of 32 Bits in Variables of 64 Bits
------------------------------------------------------------

/- An address is in a network when the masked bits agree. -/
theorem inNetwork_iff
    (d : HostId)
    (net mask : UInt32) :
    d.InNetwork net.toUInt64 mask.toUInt64 ↔
      ∃ addr, d.ipv4 = some addr ∧
        addr &&& mask = net &&& mask := by
  unfold HostId.InNetwork
  simp only [← UInt32.toUInt64_and, UInt32.toUInt64_inj]

theorem and_eq_and_iff
    (addr addr' mask : UInt32) :
    addr &&& mask = addr' &&& mask ↔
      addr.toBitVec &&& mask.toBitVec =
        addr'.toBitVec &&& mask.toBitVec :=
  UInt32.toBitVec_inj.symm

/- The `to` rewrite blends two addresses. -/
theorem toBitVec_toAddr
    (route : RouteRule)
    (addr : UInt32) :
    (route.toAddr addr).toBitVec =
      BitVec.blend route.toIpv4Mask.toUInt32.toBitVec
        addr.toBitVec route.toIpv4Addr.toUInt32.toBitVec := by
  unfold RouteRule.toAddr BitVec.blend
  rw [UInt32.toBitVec_or, UInt32.toBitVec_and,
    UInt32.toBitVec_and, UInt32.toBitVec_not]

theorem toAddr_eq_blend
    {route : RouteRule}
    {net mask : UInt32}
    (hNet : route.toIpv4Addr = net.toUInt64)
    (hMask : route.toIpv4Mask = mask.toUInt64)
    (addr : UInt32) :
    (route.toAddr addr).toBitVec =
      BitVec.blend mask.toBitVec addr.toBitVec
        net.toBitVec := by
  rw [toBitVec_toAddr, hNet, hMask, UInt32.toUInt32_toUInt64,
    UInt32.toUInt32_toUInt64]

/- The rewritten destination, which has no name. -/
theorem rewriteTo_of_ipv4
    {route : RouteRule}
    (hTo : route.haveToIpv4 = true)
    {d : HostId}
    {addr : UInt32}
    (hAddr : d.ipv4 = some addr) :
    (route.rewriteTo d).ipv4 = some (route.toAddr addr) ∧
      (route.rewriteTo d).name = CBuf.empty := by
  unfold RouteRule.rewriteTo
  rw [hTo, hAddr]
  exact ⟨rfl, rfl⟩

/- The mask whose highest `p` bits are set. -/
def netMask
    (p : Nat) : UInt32 :=
  UInt32.ofBitVec (BitVec.highMask (32 - p))

/-
  The shift gives the mask of the prefix, but for a length of
  zero it gives that of a single address.
-/
theorem prefixMask_eq
    {p : Nat}
    (hLe : p ≤ 32) :
    prefixMask p =
      (netMask (if p = 0 then 32 else p)).toUInt64 := by
  have hAll :
      ∀ p : Fin 33, prefixMask (p.val : Int) =
        (netMask (if p.val = 0 then 32
          else p.val)).toUInt64 := by
    decide
  exact hAll ⟨p, Nat.lt_succ_of_le hLe⟩

------------------------------------------------------------
-- Arguments
------------------------------------------------------------

/- The mask that the text behind a slash stands for. -/
def maskOf
    (m : Text) : Option UInt64 :=
  let token := (m.splitOn 47).headD []
  match convertStringToIpv4Ulong token with
  | some mask => some mask
  | none => (Text.scanInt token).map prefixMask

/- An address, a slash and the text of a mask. -/
theorem netv4Argument_slash
    {a : Text}
    {addr : UInt32}
    (hAddr : inetPton4 a = some addr)
    (m : Text) :
    netv4Argument (a ++ 47 :: m) =
      (maskOf m).map fun mask => (addr.toUInt64, mask) := by
  have hSplit :
      (a ++ 47 :: m).splitOn 47 = a :: m.splitOn 47 :=
    List.splitOn_append_cons_self_of_not_mem
      (not_mem_of_inetPton4 hAddr).1 m
  unfold netv4Argument routeRuleGrabNetv4 maskOf
  rw [if_pos rfl, hSplit]
  dsimp only
  unfold convertStringToIpv4Ulong
  rw [hAddr, Option.map_some]
  cases hPieces : m.splitOn 47 with
  | nil => exact absurd hPieces (List.splitOn_ne_nil 47 m)
  | cons token tokens =>
      dsimp only [List.headD]
      cases inetPton4 token with
      | some mask => rfl
      | none =>
          dsimp only [Option.map_none]
          cases Text.scanInt token <;> rfl

/- A text without a slash is its own first piece. -/
theorem maskOf_of_not_mem
    {m : Text}
    (hSlash : 47 ∉ m) :
    maskOf m =
      match convertStringToIpv4Ulong m with
      | some mask => some mask
      | none => (Text.scanInt m).map prefixMask := by
  unfold maskOf
  rw [List.splitOn_eq_singleton hSlash]
  rfl

theorem maskOf_dottedQuad
    {m : Text}
    {mask : UInt32}
    (hQuad : inetPton4 m = some mask) :
    maskOf m = some mask.toUInt64 := by
  rw [maskOf_of_not_mem (not_mem_of_inetPton4 hQuad).1]
  unfold convertStringToIpv4Ulong
  rw [hQuad]
  rfl

theorem space_not_mem_slash
    {a m : Text}
    {addr : UInt32}
    (hAddr : inetPton4 a = some addr)
    (hSpace : 32 ∉ m) :
    (32 : UInt8) ∉ a ++ 47 :: m := by
  intro hMem
  rcases List.mem_append.mp hMem with hMem | hMem
  · exact (not_mem_of_inetPton4 hAddr).2 hMem
  · rcases List.mem_cons.mp hMem with hSlash | hMem
    · cases hSlash
    · exact hSpace hMem

/- A text of clauses without `via`. -/
theorem parseRouteRuleSpec_clauses
    {cs : List RuleClause}
    (hSome : cs ≠ [])
    (hSpaceless : ∀ c ∈ cs, c.Spaceless)
    (junk : Vector (Option SshTunnel)
      routeRuleMaxSshTunnelsPerRule)
    (filename : Option Text)
    (lineNum : Int)
    (sshTunnelList : List SshTunnel) :
    parseRouteRuleSpec junk (ruleSpec cs none) filename
        lineNum sshTunnelList =
      (storeAll cs (freshRule junk filename lineNum)).elim
        (.error .null) .ok := by
  have hVia :
      ∀ token ∈ viaTokens none, (32 : UInt8) ∉ token := by
    intro token hMem
    cases hMem
  rw [parseRouteRuleSpec_eq,
    splitOn_ruleSpec hSpaceless hVia (.inl hSome),
    parseTokens_clauses]
  congr 1

end SmartSOCKSProxy
