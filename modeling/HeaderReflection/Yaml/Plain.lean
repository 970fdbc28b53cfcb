import HeaderReflection.Calendar
import HeaderReflection.Number.Binary64
import HeaderReflection.Text.Base64
import HeaderReflection.Yaml.Document

/-!
# What scalars stand for

A plain scalar may stand for nothing, a truth value, a number or a moment; any other scalar is a text. A tag in front
of a scalar demands a kind, and a scalar of another kind is then a fault.

## Main definitions

- `Yaml.integer?`, `Yaml.fraction?`, `Yaml.moment?`: numbers and moments.
- `Yaml.Value`, `Yaml.plainValue`: what a plain scalar stands for.
- `Yaml.scalarValue?`: what a scalar with its quotes and its tag stands for.
-/

namespace HeaderReflection.Yaml

open Text (byte isDigit)

/-! ## §1 Numbers -/

/-- A text without its sign. -/
def unsigned : Text → Text
  | b :: rest => if b = byte '+' ∨ b = byte '-' then rest else b :: rest
  | [] => []

/-- The value of a digit, of which letters of both cases are some. -/
def digitValue? (b : UInt8) : Option Nat :=
  if isDigit b then some (b.toNat - 48)
  else if byte 'a' ≤ b ∧ b ≤ byte 'z' then some (b.toNat - 87)
  else if byte 'A' ≤ b ∧ b ≤ byte 'Z' then some (b.toNat - 55)
  else none

/-- The number that digits of a base stand for. -/
def digitsInBase? (base : Nat) (digits : Text) : Option Nat :=
  digits.foldlM (fun n b => (digitValue? b).bind fun d => if d < base then some (n * base + d) else none) 0

/-- The number that digits without sign stand for. A mark in front tells the base, a zero in front means base eight. -/
def natural? : Text → Option Nat
  | [] => none
  | a :: rest =>
    if a ≠ byte '0' then digitsInBase? 10 (a :: rest)
    else match rest with
      | b :: c :: digits =>
        if b = byte 'x' ∨ b = byte 'X' then digitsInBase? 16 (c :: digits)
        else if b = byte 'b' ∨ b = byte 'B' then digitsInBase? 2 (c :: digits)
        else if b = byte 'o' ∨ b = byte 'O' then digitsInBase? 8 (c :: digits)
        else digitsInBase? 8 rest
      | _ => digitsInBase? 8 rest

/-- The first number that does not fit into 64 bits. -/
def wordLimit : Nat := 18446744073709551616

/-- A number with a sign, if it fits into 64 bits. Without a sign it may take the bit of the sign. -/
def signed? (text : Text) (magnitude : Nat) : Option Int :=
  if Text.beginsWith "-" text then Text.word? (-(magnitude : Int))
  else if Text.beginsWith "+" text ∨ wordLimit ≤ magnitude then Text.word? magnitude
  else some magnitude

/-- A number in base two or eight with its sign behind the mark. -/
def lateSigned? (text : Text) : Option Int := do
  let (base, digits) ←
    match Text.stripPrefix? "0b" text, Text.stripPrefix? "0o" text with
    | some digits, _ => some (2, digits)
    | none, some digits => some (8, digits)
    | none, none => none
  guard (unsigned digits ≠ [] && unsigned digits ≠ digits)
  signed? digits (← digitsInBase? base (unsigned digits))

/-- An integer; underscores between its digits have been taken out. -/
def integer? (text : Text) : Option Int := (natural? (unsigned text)).bind (signed? text)

/-- Whether a text is one or more decimal digits. -/
def areDigits (text : Text) : Bool := text ≠ [] && text.all isDigit

/-- Whether a text is an exponent, or nothing. -/
def isExponent : Text → Bool
  | [] => true
  | b :: rest => (b = byte 'e' || b = byte 'E') && areDigits (unsigned rest)

/-- Whether a text without sign is a decimal: digits, a point with or without digits behind it, and an exponent; a point
in front needs digits behind it. -/
def isDecimal (text : Text) : Bool :=
  let whole := text.takeWhile isDigit
  match text.dropWhile isDigit with
  | [] => whole ≠ []
  | b :: rest =>
    if b = byte '.' then
      (whole ≠ [] || (rest.takeWhile isDigit) ≠ []) && isExponent (rest.dropWhile isDigit)
    else whole ≠ [] && isExponent (b :: rest)

/-- A decimal that is not too large. -/
def fraction? (text : Text) : Option Binary64 :=
  if isDecimal (unsigned text) then Binary64.ofSpelling? text else none

/-- Whether every underscore stands between two digits; `before` tells whether a digit stands before the text. -/
def underscoresInside (before : Bool) : Text → Bool
  | [] => true
  | b :: rest =>
    if b = byte '_' then before && rest.head?.any isDigit && underscoresInside false rest
    else underscoresInside (isDigit b) rest

/-! ## §2 Moments -/

/-- One or two digits at the start of a text, as a number, and the rest. -/
def shortNumber? (text : Text) : Option (Nat × Text) :=
  match text.takeWhile isDigit with
  | [] => none
  | [a] => some (Text.digitsValue [a], text.drop 1)
  | a :: b :: _ => some (Text.digitsValue [a, b], text.drop 2)

/-- A date with a year of four digits, and the rest. -/
def date? (text : Text) : Option (Date × Text) := do
  guard (areDigits (text.take 4))
  let rest ← Text.stripPrefix? "-" (text.drop 4)
  let (month, rest) ← shortNumber? rest
  let rest ← Text.stripPrefix? "-" rest
  let (day, rest) ← shortNumber? rest
  let date : Date := { year := Text.digitsValue (text.take 4), month, day }
  guard date.isValid
  return (date, rest)

/-- A time of day, with or without a fraction behind a point or a comma, and the rest. -/
def timeOfDay? (text : Text) : Option (TimeOfDay × Text) := do
  let (hour, rest) ← shortNumber? text
  let rest ← Text.stripPrefix? ":" rest
  let (minute, rest) ← shortNumber? rest
  let rest ← Text.stripPrefix? ":" rest
  let (second, rest) ← shortNumber? rest
  guard (hour < 24 && minute < 60 && second < 60)
  let part := (rest.drop 1).takeWhile isDigit
  if (Text.beginsWith "." rest || Text.beginsWith "," rest) && part ≠ [] then
    return ({ hour, minute, second, nanosecond := TimeOfDay.nanosecondsOf part }, rest.drop (part.length + 1))
  else return ({ hour, minute, second }, rest)

/-- The minutes of a time zone: the letter of none, or hours and minutes with a sign. -/
def zone? (text : Text) : Option Int :=
  match text with
  | [b] => if b = byte 'Z' then some 0 else none
  | [s, a, b, c, d, e] => do
    guard (areDigits [a, b] && c = byte ':' && areDigits [d, e])
    let hours := Text.digitsValue [a, b]
    let minutes := Text.digitsValue [d, e]
    guard (hours ≤ 24 && minutes ≤ 60)
    let offset : Int := hours * 60 + minutes
    if s = byte '+' then return offset else if s = byte '-' then return -offset else none
  | _ => none

/-- A moment: a date, a date and a time behind spaces, or a date and a time with a letter between them and a time
zone. -/
def moment? (text : Text) : Option Moment := do
  let (date, rest) ← date? text
  match rest with
  | [] => return { date }
  | b :: after =>
    if b = byte 'T' ∨ b = byte 't' then
      let (time, zone) ← timeOfDay? after
      return { date, time, offset := ← zone? zone }
    else
      guard (b = byte ' ')
      let (time, rest) ← timeOfDay? (after.dropWhile (· = byte ' '))
      guard (rest = [])
      return { date, time }

/-! ## §3 Values -/

/-- What a scalar stands for. -/
inductive Value where
  | null
  | truth (value : Bool)
  | integer (value : Int)
  | fraction (value : Binary64)
  | moment (value : Moment)
  | text (content : Text)
  deriving DecidableEq, Repr, Inhabited

/-- The scalars with a meaning of their own. -/
def words : List (Text × Value) :=
  [("", .null), ("~", .null), ("null", .null), ("Null", .null), ("NULL", .null),
   ("true", .truth true), ("True", .truth true), ("TRUE", .truth true),
   ("false", .truth false), ("False", .truth false), ("FALSE", .truth false),
   (".nan", .fraction .notNumber), (".NaN", .fraction .notNumber), (".NAN", .fraction .notNumber),
   (".inf", .fraction (.infinite false)), (".Inf", .fraction (.infinite false)),
   (".INF", .fraction (.infinite false)), ("+.inf", .fraction (.infinite false)),
   ("+.Inf", .fraction (.infinite false)), ("+.INF", .fraction (.infinite false)),
   ("-.inf", .fraction (.infinite true)), ("-.Inf", .fraction (.infinite true)),
   ("-.INF", .fraction (.infinite true))]

/-- The value of a scalar that starts with a digit or a sign. -/
def numericValue? (content : Text) : Option Value :=
  let digits := content.filter (· ≠ byte '_')
  (moment? content).map .moment
    <|> (integer? digits).map .integer
    <|> (fraction? digits).map .fraction
    <|> (lateSigned? digits).map .integer

/-- What a plain scalar stands for. -/
def plainValue (content : Text) : Value :=
  match words.find? (·.1 = content) with
  | some (_, value) => value
  | none =>
    match content with
    | [] => .null
    | b :: _ =>
      if b = byte '.' then
        match if underscoresInside false content then fraction? (content.filter (· ≠ byte '_')) else none with
        | some value => .fraction value
        | none => .text content
      else if isDigit b ∨ b = byte '+' ∨ b = byte '-' then (numericValue? content).getD (.text content)
      else .text content

/-- A value where a tag demands a number with a fraction. -/
def Value.asFraction? : Value → Option Value
  | .fraction value => some (.fraction value)
  | .integer value => do
    let (mantissa, exponent) ← if (Text.word? value).isSome then Binary64.nearest? value.natAbs 1 else none
    return .fraction (.finite (value < 0) mantissa exponent)
  | _ => none

/-- The tags that demand a kind of values, with the test of it. -/
def tagTests : List (Text × (Value → Option Value)) :=
  [("!!null", fun | .null => some .null | _ => none),
   ("!!bool", fun | .truth b => some (.truth b) | _ => none),
   ("!!int", fun | .integer n => some (.integer n) | _ => none),
   ("!!float", Value.asFraction?),
   ("!!timestamp", fun | .moment m => some (.moment m) | _ => none)]

/-- What a scalar stands for. A tag that is not known asks for nothing. -/
def scalarValue? (content : Text) (isPlain : Bool) (tag : Option Text) : Option Value :=
  match tag with
  | none => some (if isPlain ∧ content ≠ ("<<" : Text) then plainValue content else .text content)
  | some tag =>
    if tag = ("!!binary" : Text) then (Text.ofBase64? content).map .text
    else match tagTests.find? (·.1 = tag) with
      | some (_, test) => test (plainValue content)
      | none => some (.text content)

/-- The text of a scalar where a text is asked for: as it is written, unless it stands for bytes. Nothing if it stands
for nothing. -/
def scalarText? (content : Text) (isPlain : Bool) (tag : Option Text) : Option (Option Text) :=
  (scalarValue? content isPlain tag).map fun
    | .null => none
    | .text content => some content
    | _ => some content

end HeaderReflection.Yaml
