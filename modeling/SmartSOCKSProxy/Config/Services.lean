import SmartSOCKSProxy.Core.Service
import SmartSOCKSProxy.Foundations.Numerals
import SmartSOCKSProxy.Socks.PortForward

/-
  The specifications of services.

  The parts of a specification are separated by colons, and
  the first one may be left out.  A text that is too long for
  its field is cut off here; the byte that ends it in memory
  is a matter of `Filled`.

  Key definitions include:
    * `specTokens`, `specToken`
    * `parseServiceSocksSpec`, `parseServiceHttpSpec`
    * `socksService`, `portForwardService`, `httpService`

  Key theorems include:
    * `parseServiceSocksSpec_eq`, `parseServiceHttpSpec_eq`
    * `parseServicePortForwardSpec_eq`
-/

namespace SmartSOCKSProxy

structure ServiceSocks where
  bindAddress : CBuf 300
  port : Int
deriving DecidableEq

structure ServiceHttp where
  bindAddress : CBuf 300
  port : Int
  baseDir : CBuf 4096
deriving DecidableEq

/-
  The tokens of a specification with so many parts, the first
  of which may be missing.
-/
def specTokens
    (parts : Nat)
    (strIn : Text) : List Text :=
  if strIn.count 58 + 2 = parts then
    defaultBindAddress :: strIn.splitOn 58
  else strIn.splitOn 58

/- `[bind_address:]local_port` -/
def parseServiceSocksSpec
    (strIn : Text) : Option ServiceSocks :=
  match specTokens 2 strIn with
  | [bindAddress, port] =>
      (Text.scanInt port).map fun port =>
        { bindAddress := CBuf.copy bindAddress
          port }
  | _ => none

/- `[bind_address:]local_port:base_directory` -/
def parseServiceHttpSpec
    (strIn : Text) : Option ServiceHttp :=
  match specTokens 3 strIn with
  | [bindAddress, port, baseDir] =>
      (Text.scanInt port).map fun port =>
        { bindAddress := CBuf.copy bindAddress
          port
          baseDir := CBuf.copy baseDir }
  | _ => none

------------------------------------------------------------
-- Tokens
------------------------------------------------------------

/- A part of a specification, with the default for the first. -/
def specToken
    (parts : Nat)
    (strIn : Text)
    (i : Nat) : Text :=
  (specTokens parts strIn).getD i []

theorem length_specTokens
    (parts : Nat)
    (strIn : Text) :
    (specTokens parts strIn).length =
      if strIn.count 58 + 2 = parts then parts
      else strIn.count 58 + 1 := by
  unfold specTokens
  split
  · rename_i hParts
    rw [List.length_cons, length_splitOn, ← hParts]
  · exact length_splitOn 58 strIn

theorem parseServiceSocksSpec_eq
    (strIn : Text) :
    parseServiceSocksSpec strIn =
      if (specTokens 2 strIn).length = 2 then
        (Text.scanInt (specToken 2 strIn 1)).map fun port =>
          { bindAddress := CBuf.copy (specToken 2 strIn 0)
            port }
      else none := by
  unfold parseServiceSocksSpec specToken
  rcases specTokens 2 strIn with
    - | ⟨bindAddress, - | ⟨port, - | ⟨c, tokens⟩⟩⟩ <;> simp

theorem parseServiceHttpSpec_eq
    (strIn : Text) :
    parseServiceHttpSpec strIn =
      if (specTokens 3 strIn).length = 3 then
        (Text.scanInt (specToken 3 strIn 1)).map fun port =>
          { bindAddress := CBuf.copy (specToken 3 strIn 0)
            port
            baseDir := CBuf.copy (specToken 3 strIn 2) }
      else none := by
  unfold parseServiceHttpSpec specToken
  rcases specTokens 3 strIn with
    - | ⟨bindAddress, - | ⟨port, - | ⟨baseDir, - |
      ⟨c, tokens⟩⟩⟩⟩ <;> simp

theorem parseServicePortForwardSpec_eq
    (strIn : Text) :
    parseServicePortForwardSpec strIn =
      if (specTokens 4 strIn).length = 4 then
        match Text.scanInt (specToken 4 strIn 1),
            Text.scanInt (specToken 4 strIn 3) with
        | some port, some remotePort =>
            some
              { bindAddress :=
                  CBuf.copy (specToken 4 strIn 0)
                port := port
                remoteHost :=
                  CBuf.copy (specToken 4 strIn 2)
                remotePort := remotePort }
        | _, _ => none
      else none := by
  have hLength := length_specTokens 4 strIn
  have hSame :
      (if strIn.count 58 + 1 = 3 then
        defaultBindAddress :: strIn.splitOn 58
      else strIn.splitOn 58) = specTokens 4 strIn := by
    unfold specTokens
    apply if_congr _ rfl rfl
    omega
  unfold parseServicePortForwardSpec
  dsimp only
  rw [hSame]
  by_cases hParts :
      strIn.count 58 + 1 < 3 ∨ 4 < strIn.count 58 + 1
  · have hOther : (specTokens 4 strIn).length ≠ 4 := by
      rw [hLength]
      split <;> omega
    rw [if_pos hParts, if_neg hOther]
  · rw [if_neg hParts]
    unfold specToken
    rcases specTokens 4 strIn with
      - | ⟨bindAddress, - | ⟨port, - | ⟨remoteHost, - |
        ⟨remotePort, - | ⟨c, tokens⟩⟩⟩⟩⟩
    case cons.cons.cons.cons.nil => rfl
    all_goals simp

------------------------------------------------------------
-- Services of a Specification
------------------------------------------------------------

section Services

variable (strIn : Text)

/- The id of the service that was allocated last. -/
variable (serviceIdPool : UInt64)

/-
  parse_service_socks_spec() allocates two services and uses
  the second one.
-/
def socksService : Option Service :=
  (parseServiceSocksSpec strIn).map fun socks =>
    ⟨serviceIdPool + 2, .socks, socks.bindAddress, socks.port⟩

def portForwardService : Option Service :=
  (parseServicePortForwardSpec strIn).map fun fwd =>
    ⟨serviceIdPool + 1,
      .portForward fwd.remoteHost fwd.remotePort,
      fwd.bindAddress, fwd.port⟩

def httpService : Option Service :=
  (parseServiceHttpSpec strIn).map fun http =>
    ⟨serviceIdPool + 1, .http http.baseDir, http.bindAddress,
      http.port⟩

end Services

end SmartSOCKSProxy
