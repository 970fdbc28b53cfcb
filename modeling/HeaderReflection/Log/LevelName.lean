import HeaderReflection.Log
import HeaderReflection.Text.Number

/-!
# Names of log levels

A level is given by name in any case, optionally with a signed distance behind it: `warn`, `Debug+1`, `ERROR-2`. The
lowest level has a name of its own, which takes no distance. Levels are kept to 64 bits.

## Main definitions

- `LogLevel.ofName?`: the level of a name with its distance.
- `LogLevel.parse`: the same, with the failure that is told to the user.
-/

namespace HeaderReflection

open Text (byte)

namespace LogLevel

/-- The named levels. -/
def named : List (Text × LogLevel) :=
  [("DEBUG", debug), ("INFO", info), ("WARN", warn), ("ERROR", error)]

/-- A name in capitals. The dotless small i, which is two bytes, has the plain capital. -/
def capitals : Text → Text
  | [] => []
  | [b] => [Text.upperByte b]
  | b :: c :: text =>
    if b = 0xC4 ∧ c = 0xB1 then byte 'I' :: capitals text else Text.upperByte b :: capitals (c :: text)

/-- The level of a name without distance, in any case. -/
def ofPlainName? (name : Text) : Option LogLevel := (named.find? (·.1 = capitals name)).map (·.2)

/-- The level that is some distance away; levels wrap around at 64 bits. -/
def shifted (level : LogLevel) (distance : Int) : LogLevel := Int.bmod (level + distance) 18446744073709551616

/-- Whether a byte is a sign. -/
def isSign (b : UInt8) : Bool := b = byte '+' || b = byte '-'

/-- The level of a name, optionally with a signed distance behind it. -/
def ofName? (name : Text) : Option LogLevel :=
  if Text.asciiUpper name = ("TRACE" : Text) then some trace
  else
    let base := name.takeWhile (!isSign ·)
    match name.dropWhile (!isSign ·) with
    | [] => ofPlainName? base
    | sign :: digits => do
      let distance ← Text.integer? (sign :: digits)
      return shifted (← ofPlainName? base) distance

end LogLevel

/-- A text that names no log level. -/
structure UnknownLevel where
  name : Text
  deriving DecidableEq, Repr, Inhabited

/-- The wording of an unknown level. -/
def UnknownLevel.message (e : UnknownLevel) : Text := "invalid log level: " ++ e.name

/-- The level that a text names. -/
def LogLevel.parse (name : Text) : Except UnknownLevel LogLevel :=
  match ofName? name with
  | some level => .ok level
  | none => .error { name }

end HeaderReflection
