import HeaderReflection.Log
import HeaderReflection.Text.CodePoint
import HeaderReflection.Text.Quoted

/-!
# Log records as JSON

A record is printed as a JSON object on one line: its level, its message and its attributes in order. Bytes that are no
text become the replacement character.

## Main definitions

- `Text.json`: a text as a JSON string.
- `LogRecord.json`: a record as a JSON object.
-/

namespace HeaderReflection

open Text (byte)

/-- How a code point is written in a JSON string. -/
def jsonCodePoint (c : Nat) : Text :=
  if c = 34 ∨ c = 92 then [byte '\\', UInt8.ofNat c]
  else if c = 10 then "\\n"
  else if c = 13 then "\\r"
  else if c = 9 then "\\t"
  else if c < 32 ∨ c = 0x2028 ∨ c = 0x2029 then "\\u" ++ Text.hex 4 c
  else if 0x110000 ≤ c then "\\ufffd"
  else Text.ofCodePoint c

/-- A text as a JSON string. -/
def Text.json (text : Text) : Text := "\"" ++ text.codePoints.flatMap jsonCodePoint ++ "\""

/-- The value of an attribute. -/
def LogValue.json : LogValue → Text
  | .text value => value.json
  | .number value => Text.decimalInt value
  | .texts values => "[" ++ Text.joinWith "," (values.map Text.json) ++ "]"

/-- A name with its value. -/
def jsonField (name value : Text) : Text := name.json ++ ":" ++ value

/-- A record as a JSON object. -/
def LogRecord.json (r : LogRecord) : Text :=
  let fields : List Text := [jsonField "level" (Text.json r.level.name), jsonField "msg" (Text.json r.message)]
  "\x7b" ++ Text.joinWith "," (fields ++ r.attributes.map fun (name, value) => jsonField name value.json) ++ "\x7d"

end HeaderReflection
