import HeaderReflection.Number.Binary64

/-!
# Durations

Spans of time in whole nanoseconds, written as numbers with units: `1h30m`, `2s`, `1.5ms`. They are kept to 64 bits.

## Main definitions

- `Duration`: a span of time.
- `Duration.render`: its text, from hours down to a decimal fraction of the smallest unit used.
- `Duration.parse`: from text; parts with different units add up.
-/

namespace HeaderReflection

open Text (byte isDigit)

/-- A span of time. -/
structure Duration where
  nanoseconds : Int
  deriving DecidableEq, Repr, Inhabited

namespace Duration

/-- The nanoseconds of a microsecond. -/
def microsecond : Nat := 1000

/-- The nanoseconds of a millisecond. -/
def millisecond : Nat := 1000000

/-- The nanoseconds of a second. -/
def second : Nat := 1000000000

/-- Some milliseconds. -/
def ofMilliseconds (n : Int) : Duration := { nanoseconds := n * millisecond }

/-! ## §1 Writing -/

/-- A number of small units as a decimal fraction of a unit that is a power of ten of them; zeros at the end are left
out. -/
def fraction (places n : Nat) : Text :=
  let part := Text.trimEndOf [byte '0'] (Text.padded places (n % Nat.pow 10 places))
  Text.decimal (n / Nat.pow 10 places) ++ (if part = [] then [] else byte '.' :: part)

/-- The text of a span below a second. -/
def renderShort (n : Nat) : Text :=
  if n = 0 then "0s"
  else if n < microsecond then Text.decimal n ++ "ns"
  else if n < millisecond then fraction 3 n ++ "µs"
  else fraction 6 n ++ "ms"

/-- The text of a span of at least a second. -/
def renderLong (n : Nat) : Text :=
  let minutes := n / (60 * second)
  let seconds := fraction 9 (n % (60 * second)) ++ "s"
  if minutes = 0 then seconds
  else
    let withMinutes := Text.decimal (minutes % 60) ++ "m" ++ seconds
    if minutes / 60 = 0 then withMinutes else Text.decimal (minutes / 60) ++ "h" ++ withMinutes

/-- The text of a span that is not negative. -/
def renderNat (n : Nat) : Text := if n < second then renderShort n else renderLong n

/-- The text of a span. -/
def render (d : Duration) : Text :=
  if d.nanoseconds < 0 then byte '-' :: renderNat d.nanoseconds.natAbs else renderNat d.nanoseconds.natAbs

/-! ## §2 Reading -/

/-- Why a text is no span. -/
inductive Fault where
  | malformed (text : Text)
  | missingUnit (text : Text)
  | unknownUnit (unit text : Text)
  deriving DecidableEq, Repr, Inhabited

/-- A byte inside quotes: quote and backslash are escaped, and what is not printable ASCII is written as a number. -/
def quotedByte (b : UInt8) : Text :=
  if b ≥ 128 ∨ b < 32 then
    "\\x" ++ ((Nat.toDigits 16 (b.toNat / 16) ++ Nat.toDigits 16 (b.toNat % 16)).map Char.toUInt8)
  else if b = byte '"' ∨ b = byte '\\' then [byte '\\', b]
  else [b]

/-- A text inside quotes. -/
def quoted (text : Text) : Text := "\"" ++ text.flatMap quotedByte ++ "\""

/-- The wording of a fault. -/
def Fault.message : Fault → Text
  | .malformed text => "time: invalid duration " ++ quoted text
  | .missingUnit text => "time: missing unit in duration " ++ quoted text
  | .unknownUnit unit text => "time: unknown unit " ++ quoted unit ++ " in duration " ++ quoted text

/-- The units with their nanoseconds; microseconds may be written with either of two letters. -/
def units : List (Text × Nat) :=
  [("ns", 1), ("us", microsecond), ("µs", microsecond), ("μs", microsecond), ("ms", millisecond), ("s", second),
   ("m", 60 * second), ("h", 3600 * second)]

/-- The largest number of nanoseconds, counted without the sign. -/
def limit : Nat := 9223372036854775808

/-- Whether a byte belongs to a number. -/
def isNumeric (b : UInt8) : Bool := b = byte '.' || isDigit b

/-- The digits behind the point of a number, and what follows. -/
def afterPoint (text : Text) : Text × Text :=
  match text with
  | b :: rest => if b = byte '.' then (rest.takeWhile isDigit, rest.dropWhile isDigit) else ([], text)
  | [] => ([], [])

/-- The digits of a fraction that are counted, as a number, and how many they are. Digits that would lead beyond the
limit are dropped, and so are all behind them. -/
def leadingFraction : Nat → Nat → Text → Nat × Nat
  | value, count, [] => (value, count)
  | value, count, b :: digits =>
    let next := value * 10 + (b.toNat - 48)
    if (limit - 1) / 10 < value ∨ limit < next then (value, count) else leadingFraction next (count + 1) digits

/-- A power of ten that is reached by multiplying step by step, where each product is rounded; none if it is too
large. -/
def roundedPowerOfTen? : Nat → Option (Nat × Nat)
  | 0 => some (1, 1)
  | n + 1 => (roundedPowerOfTen? n).bind fun (num, den) => Binary64.roundedRatio? (num * 10) den

/-- The nanoseconds of a fraction of a unit, from rounded numbers. Fractions of a nanosecond are dropped. -/
def fractionValue (part : Text) (unit : Nat) : Nat :=
  let (value, count) := leadingFraction 0 0 part
  let product := do
    let (scale, divisor) ← roundedPowerOfTen? count
    let (a, b) ← Binary64.roundedRatio? (unit * divisor) scale
    let (c, d) ← Binary64.roundedRatio? value 1
    Binary64.roundedRatio? (a * c) (b * d)
  match product with
  | some (num, den) => num / den
  | none => 0

/-- The nanoseconds of a number with a unit. -/
def partValue? (whole : Nat) (part : Text) (unit : Nat) : Option Nat :=
  if limit / unit < whole then none
  else
    let n := whole * unit + fractionValue part unit
    if limit < n then none else some n

/-- Add up the parts of a span. -/
def sumParts (text : Text) : Nat → Nat → Text → Except Fault Nat
  | _, sum, [] => .ok sum
  | 0, _, _ :: _ => .error (.malformed text)
  | fuel + 1, sum, b :: rest =>
    let whole := (b :: rest).takeWhile isDigit
    let (part, after) := afterPoint ((b :: rest).dropWhile isDigit)
    if !isNumeric b ∨ (whole = [] ∧ part = []) ∨ limit < Text.digitsValue whole then .error (.malformed text)
    else
      let unit := after.takeWhile (!isNumeric ·)
      if unit = [] then .error (.missingUnit text)
      else match units.find? (·.1 = unit) with
        | none => .error (.unknownUnit unit text)
        | some (_, nanoseconds) =>
          match partValue? (Text.digitsValue whole) part nanoseconds with
          | none => .error (.malformed text)
          | some n =>
            if limit < sum + n then .error (.malformed text)
            else sumParts text fuel (sum + n) (after.dropWhile (!isNumeric ·))

/-- A span from its text. -/
def parse (text : Text) : Except Fault Duration :=
  let negative := text.head? = some (byte '-')
  let unsigned := if negative ∨ text.head? = some (byte '+') then text.drop 1 else text
  if unsigned = ("0" : Text) then .ok { nanoseconds := 0 }
  else if unsigned = [] then .error (.malformed text)
  else do
    let n ← sumParts text unsigned.length 0 unsigned
    if negative then .ok { nanoseconds := -n }
    else if limit ≤ n then .error (.malformed text)
    else .ok { nanoseconds := n }

end Duration

end HeaderReflection
