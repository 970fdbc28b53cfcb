import HeaderReflection.Settings.Value
import HeaderReflection.Text.Utf16

/-!
# Settings in JSON

The root of a document is an object from names to values. All numbers are binary numbers of 64 bits. Of two values of
one name the later one counts. What is no character in a text is replaced.

## Main definitions

- `Json.text?`, `Json.number?`, `Json.value?`: the values, with what follows them.
- `Json.settings?`: the settings in the text of a document.
-/

namespace HeaderReflection.Json

open Text (byte isDigit)

/-- Whether a byte is white space. -/
def isSpace (b : UInt8) : Bool := b = byte ' ' || b = byte '\t' || b = byte '\r' || b = Text.lineFeed

/-- A text without the white space at its start. -/
def skipSpace (text : Text) : Text := text.dropWhile isSpace

/-! ## §1 Texts -/

/-- The value of a hexadecimal digit. -/
def hexDigit? (b : UInt8) : Option Nat :=
  if isDigit b then some (b.toNat - 48)
  else if byte 'a' ≤ b ∧ b ≤ byte 'f' then some (b.toNat - 87)
  else if byte 'A' ≤ b ∧ b ≤ byte 'F' then some (b.toNat - 55)
  else none

/-- The value of four hexadecimal digits. -/
def hexWord? (digits : Text) : Option Nat :=
  if digits.length = 4 then digits.foldlM (fun n b => (hexDigit? b).map (n * 16 + ·)) 0 else none

/-- What a letter behind a backslash stands for. -/
def escapeValue? (letter : UInt8) : Option UInt8 :=
  let table : List (Char × Nat) :=
    [('"', 34), ('\\', 92), ('/', 47), ('b', 8), ('f', 12), ('n', 10), ('r', 13), ('t', 9)]
  (table.find? (byte ·.1 = letter)).map fun (_, value) => UInt8.ofNat value

/-- The value of the escape of a word of 16 bits at the start of a text, behind its backslash. -/
def escapedWord? (text : Text) : Option Nat := do
  guard (text.head? = some (byte 'u'))
  hexWord? ((text.drop 1).take 4)

/-- The code point of an escape, and the number of bytes behind its backslash. Two words may form one code point; a word
that forms none is replaced. -/
def escapedCode? (text : Text) : Option (Nat × Nat) := do
  let high ← escapedWord? text
  if !Text.isHighSurrogate high && !Text.isLowSurrogate high then return (high, 5)
  else
    let low := if (text.drop 5).head? = some (byte '\\') then (escapedWord? (text.drop 6)).getD 0 else 0
    if Text.isHighSurrogate high && Text.isLowSurrogate low then return (Text.surrogatePair high low, 11)
    else return (Text.replacement, 5)

/-- The inside of a text up to the closing quote, and what follows it. -/
def textFrom? : Nat → Text → Text → Option (Text × Text)
  | 0, _, _ => none
  | fuel + 1, taken, text =>
    match text with
    | [] => none
    | b :: rest =>
      if b = byte '"' then some (taken, rest)
      else if b < 32 then none
      else if b = byte '\\' then
        match rest.head?.bind escapeValue? with
        | some value => textFrom? fuel (taken ++ [value]) (rest.drop 1)
        | none => do
          let (code, width) ← escapedCode? rest
          textFrom? fuel (taken ++ Text.ofCodePoint code) (rest.drop width)
      else match Text.codePoint? text with
        | some (code, width) => textFrom? fuel (taken ++ Text.ofCodePoint code) (text.drop width)
        | none => textFrom? fuel (taken ++ Text.ofCodePoint Text.replacement) rest

/-- A text in quotes, behind the opening quote. -/
def text? (text : Text) : Option (Text × Text) := textFrom? (text.length + 1) [] text

/-! ## §2 Numbers -/

/-- The digits of an exponent with its mark, and what follows; nothing if there is no mark. -/
def exponent? (text : Text) : Option (Text × Text) :=
  match text with
  | b :: rest =>
    if b = byte 'e' ∨ b = byte 'E' then
      let sign := rest.takeWhile fun c => c = byte '+' || c = byte '-'
      let digits := (rest.drop sign.length).takeWhile isDigit
      if sign.length ≤ 1 ∧ digits ≠ [] then
        some (b :: sign ++ digits, rest.drop (sign.length + digits.length))
      else none
    else some ([], text)
  | [] => some ([], [])

/-- The digits behind a point, with the point, and what follows; nothing if there is no point. -/
def places? (text : Text) : Option (Text × Text) :=
  match text with
  | b :: rest =>
    if b = byte '.' then
      let digits := rest.takeWhile isDigit
      if digits = [] then none else some (b :: digits, rest.drop digits.length)
    else some ([], text)
  | [] => some ([], [])

/-- A number, and what follows it. A zero in front stands alone. -/
def number? (text : Text) : Option (Binary64 × Text) := do
  let sign : Text := if Text.beginsWith "-" text then "-" else []
  let unsigned := text.drop sign.length
  let whole := if Text.beginsWith "0" unsigned then [byte '0'] else unsigned.takeWhile isDigit
  guard (whole ≠ [])
  let (places, rest) ← places? (unsigned.drop whole.length)
  let (exponent, rest) ← exponent? rest
  let value ← Binary64.ofSpelling? (sign ++ whole ++ places ++ exponent)
  return (value, rest)

/-! ## §3 Values -/

/-- The deepest nesting that is read. -/
def depthLimit : Nat := 10000

/-- A word with a value of its own. -/
def word? (text : Text) : Option (Setting × Text) :=
  let table : List (Text × Setting) := [("true", .truth true), ("false", .truth false), ("null", .nothing)]
  table.findSome? fun (word, value) => (Text.stripPrefix? word text).map (value, ·)

mutual

/-- A value, and what follows it; `depth` is the number of values around it. -/
def value? (depth : Nat) : Nat → Text → Option (Setting × Text)
  | 0, _ => none
  | fuel + 1, text =>
    match skipSpace text with
    | [] => none
    | b :: rest =>
      if b = byte '"' then (text? rest).map fun (content, rest) => (.text content, rest)
      else if b = byte '{' then
        if depthLimit ≤ depth then none
        else match Text.stripPrefix? "\x7d" (skipSpace rest) with
          | some rest => some (.table [], rest)
          | none => pairs? (depth + 1) [] fuel rest
      else if b = byte '[' then
        if depthLimit ≤ depth then none
        else match Text.stripPrefix? "]" (skipSpace rest) with
          | some rest => some (.list [], rest)
          | none => items? (depth + 1) [] fuel rest
      else if b = byte '-' ∨ isDigit b then (number? (b :: rest)).map fun (value, rest) => (.fraction value, rest)
      else word? (b :: rest)

/-- The items of a list up to its closing bracket, those that have been taken latest first. -/
def items? (depth : Nat) (items : List Setting) : Nat → Text → Option (Setting × Text)
  | 0, _ => none
  | fuel + 1, text => do
    let (item, rest) ← value? depth fuel text
    match skipSpace rest with
    | b :: rest =>
      if b = byte ',' then items? depth (item :: items) fuel rest
      else if b = byte ']' then some (.list (item :: items).reverse, rest)
      else none
    | [] => none

/-- The pairs of an object up to its closing brace. -/
def pairs? (depth : Nat) (pairs : List (Text × Setting)) : Nat → Text → Option (Setting × Text)
  | 0, _ => none
  | fuel + 1, text => do
    let rest ← Text.stripPrefix? "\"" (skipSpace text)
    let (name, rest) ← text? rest
    let rest ← Text.stripPrefix? ":" (skipSpace rest)
    let (value, rest) ← value? depth fuel rest
    let pairs := Setting.put pairs name value
    match skipSpace rest with
    | b :: rest =>
      if b = byte ',' then pairs? depth pairs fuel rest
      else if b = byte '}' then some (.table pairs, rest)
      else none
    | [] => none

end

/-- The settings in the text of a document. A document that stands for nothing has none. -/
def settings? (text : Text) : Option (List (Text × Setting)) := do
  let (value, rest) ← value? 0 (2 * text.length + 2) text
  guard (skipSpace rest = [])
  match value with
  | .table pairs => return pairs
  | .nothing => return []
  | _ => none

end HeaderReflection.Json
