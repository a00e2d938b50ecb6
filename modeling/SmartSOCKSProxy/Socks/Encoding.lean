import SmartSOCKSProxy.Socks.Client
import SmartSOCKSProxy.Socks.Wire

/-
  The command that is sent to a tunnel's server.

  Key theorems include:
    * `commandMessage_ipv4`, `commandMessage_domain`
    * `socks5ClientSendCommand_exchange`
-/

namespace SmartSOCKSProxy

------------------------------------------------------------
-- The Bytes of a Command
------------------------------------------------------------

/- Two ranges that are written one after the other. -/
theorem load_store_from_zero
    (buf : Buffer)
    (data : List UInt8) :
    (buf.store 0 data).load data.length = data := by
  have hLoad := buf.load_store 0 data
  rwa [Nat.zero_add, Buffer.load_zero,
    List.nil_append] at hLoad

/- The command for an IPv4 address. -/
theorem commandMessage_ipv4
    {con : ClientConnection}
    {sinPort : UInt16}
    {sinAddr : UInt32}
    (hType : con.socksAddressType = socks5AddrTypeIpv4)
    (hAddr : con.dstHost.addr = .inet sinPort sinAddr)
    (buf : Buffer) :
    commandMessage con buf =
      some
        ([5, UInt8.ofInt con.socksCommand, 0, 1] ++
          ipv4Octets sinAddr ++
          [portHigh con.dstHost.port,
            portLow con.dstHost.port]) := by
  have hBytes :
      con.dstHost.getAddrAsByteArray 4 =
        ipv4Octets sinAddr := by
    simp [HostId.getAddrAsByteArray, hAddr]
  have hOne : UInt8.ofInt con.socksAddressType = 1 := by
    rw [hType]
    decide
  unfold commandMessage storeAddress
  dsimp only
  rw [if_pos hType, hBytes, hOne, Option.map_some]
  rfl

/- The command for a host name. -/
theorem commandMessage_domain
    {con : ClientConnection}
    (hType : con.socksAddressType = socks5AddrTypeDomain)
    (buf : Buffer) :
    commandMessage con buf =
      some
        ([5, UInt8.ofInt con.socksCommand, 0, 3] ++
          UInt8.ofNat con.dstHost.name.text.length ::
            con.dstHost.name.text ++
          [portHigh con.dstHost.port,
            portLow con.dstHost.port]) := by
  have hThree : UInt8.ofInt con.socksAddressType = 3 := by
    rw [hType]
    decide
  have hIpv4 :
      con.socksAddressType ≠ socks5AddrTypeIpv4 := by
    rw [hType]
    decide
  have hIpv6 :
      con.socksAddressType ≠ socks5AddrTypeIpv6 := by
    rw [hType]
    decide
  unfold commandMessage storeAddress
  dsimp only
  rw [if_neg hIpv4, if_neg hIpv6, if_pos hType, hThree,
    Option.map_some]
  congr 1
  let head : List UInt8 :=
    [5, UInt8.ofInt con.socksCommand, 0, 3]
  let name := con.dstHost.name.text
  have hHead : (buf.store 0 head).load 4 = head :=
    load_store_from_zero buf head
  have hLength :=
    (buf.store 0 head).load_store 4
      [UInt8.ofNat name.length]
  rw [hHead, List.length_singleton] at hLength
  have hName :=
    ((buf.store 0 head).store 4
      [UInt8.ofNat name.length]).load_store 5 name
  rw [hLength] at hName
  have hAll :=
    (((buf.store 0 head).store 4
      [UInt8.ofNat name.length]).store 5 name).load_store
        (5 + name.length)
        [portHigh con.dstHost.port,
          portLow con.dstHost.port]
  rw [hName] at hAll
  simpa [name, head] using hAll

/- A known address type has a command. -/
theorem commandMessage_isSome
    {con : ClientConnection}
    (hType :
      con.socksAddressType = socks5AddrTypeIpv4 ∨
        con.socksAddressType = socks5AddrTypeDomain ∨
        con.socksAddressType = socks5AddrTypeIpv6)
    (buf : Buffer) :
    ∃ message, commandMessage con buf = some message := by
  unfold commandMessage storeAddress
  rcases hType with hType | hType | hType <;>
    rw [hType] <;> exact ⟨_, rfl⟩

------------------------------------------------------------
-- Sending a Command
------------------------------------------------------------

/-
  Nothing but the command is sent, and all of it when the
  call succeeds, which it does on a reliable sink.
-/
theorem socks5ClientSendCommand_exchange
    {con : ClientConnection}
    {buf : Buffer}
    {message : List UInt8}
    (hMessage : commandMessage con buf = some message)
    (w : World) :
    ∃ rc put w',
      socks5ClientSendCommand con w buf = (rc, w') ∧
      Exchange .server w [] put w' ∧
      put <+: message ∧
      (rc ≠ 0 → put = message) ∧
      ((w.sink .server).Reliable → rc = 1) := by
  rcases w.sbWriteLen_exchange .server message with
    ⟨rc, put, w', hWrite, hExchange, hOutcome⟩
  unfold socks5ClientSendCommand
  simp only [hMessage, hWrite]
  rcases hOutcome with ⟨hPut, hRc⟩ | ⟨hPrefix, hRc, hFail⟩
  · rw [if_neg (by omega)]
    exact ⟨1, put, w', rfl, hExchange,
      hPut ▸ List.prefix_rfl, fun _ => hPut, fun _ => rfl⟩
  · rw [if_pos (by omega)]
    refine ⟨0, put, w', rfl, hExchange, hPrefix,
      fun hNe => absurd rfl hNe, ?_⟩
    intro hReliable
    exact absurd hFail hReliable.not_mayFail

end SmartSOCKSProxy
