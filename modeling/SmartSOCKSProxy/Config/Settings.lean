import SmartSOCKSProxy.Config.Lines
import SmartSOCKSProxy.Routing.String2

/-
  Settings of a configuration line.

  Key definitions include:
    * `Setting`, `matchStart`
    * `configSetString`, `configSetInt`, `configSetLong`
-/

namespace SmartSOCKSProxy

/-
  What a config_set function finds: another field or a value
  that it rejects, a value, or a value that leaves its buffer
  without a terminator.
-/
inductive Setting
    (α : Type) where
| unset
| overrun
| value (a : α)
deriving DecidableEq, Repr

/- The text behind the start of the line. -/
def matchStart
    (line field : Text) : Option Text :=
  if stringStartsWith line field then
    some (line.drop field.length)
  else none

/-
  `strncpy(dst, src, size - 1)` into a buffer whose last byte
  was never set.
-/
def fillBuf
    (size : Nat)
    (src : Text) : Setting (CBuf size) :=
  if src.length < size - 1 then .value (CBuf.copy src)
  else .overrun

def configSetString
    (size : Nat)
    (line field : Text) : Setting (CBuf size) :=
  match matchStart line field with
  | none => .unset
  | some value =>
      if value = [] then .unset else fillBuf size value

def configSetInt
    (line field : Text) : Setting Int :=
  match (matchStart line field).bind Text.scanInt with
  | none => .unset
  | some v => .value v

/-
  `sscanf(t, "%li", &v)`: the conversion saturates at the
  range of a long.
-/
def scanLong
    (t : Text) : Option Int :=
  let (negative, unsigned) :=
    Text.scanSign (t.dropWhile Text.isSpace)
  let (base, rest) := Text.scanBase unsigned
  let digits := rest.takeWhile (Text.isDigit base)
  if digits = [] then none
  else
    let v : Int := Text.digitsValue base digits
    if negative then some (max (-v) (-(2 ^ 63)))
    else some (min v (2 ^ 63 - 1))

def configSetLong
    (line field : Text) : Setting Int :=
  match (matchStart line field).bind scanLong with
  | none => .unset
  | some v => .value v

/- A keyword and the space behind it. -/
def field
    (name : String) : Text :=
  Text.ascii name.toList

end SmartSOCKSProxy
