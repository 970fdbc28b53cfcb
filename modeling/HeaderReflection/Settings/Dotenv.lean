import HeaderReflection.Settings.Value
import HeaderReflection.Text.Blank
import HeaderReflection.Text.Utf16

/-!
# Settings as variables

A line gives a variable its value: `NAME=value` or `NAME: value`, with `export` in front or not. A value may stand in
quotes, and then take several lines. Outside of single quotes a dollar sign with a name in capitals stands for the value
of that variable, in the environment or on a line above.

## Main definitions

- `Dotenv.lines`: the lines of a file.
- `Dotenv.assignment?`: the name and the raw value on a line.
- `Dotenv.expand`: values of variables inside a value.
- `Dotenv.assignments?`, `Dotenv.settings?`: the variables of a file.
-/

namespace HeaderReflection.Dotenv

open Text (byte)

/-! ## §1 Lines -/

/-- The characters of a file. A byte order mark tells the encoding. -/
def decoded (text : Text) : Text :=
  match text with
  | 0xEF :: 0xBB :: 0xBF :: rest => Text.repaired rest
  | 0xFF :: 0xFE :: rest => Text.ofWords (Text.words false rest)
  | 0xFE :: 0xFF :: rest => Text.ofWords (Text.words true rest)
  | _ => text

/-- The lines of a text. A line ends with a carriage return, a line feed, or both. -/
def lines : Text → List Text
  | [] => [[]]
  | b :: text =>
    if b = byte '\r' then
      match text with
      | c :: rest => if c = Text.lineFeed then [] :: lines rest else [] :: lines (c :: rest)
      | [] => [[], []]
    else if b = Text.lineFeed then [] :: lines text
    else Text.consHead b (lines text)

/-- The text after the first occurrence of a byte that is neither at the start nor at the end. -/
def afterInner? (b : UInt8) (text : Text) : Option (Option Text) :=
  if text.contains b then
    let after := (text.dropWhile (· ≠ b)).drop 1
    some (if text.head? = some b ∨ after = [] then none else some after)
  else none

/-- The place of the last occurrence of a byte. -/
def lastIndex? (b : UInt8) (text : Text) : Option Nat :=
  (text.reverse.findIdx? (· = b)).map fun n => text.length - 1 - n

/-- The quote that is open at the end of a line, if there is one. -/
def openQuote? (line : Text) : Option UInt8 := do
  let after ← (afterInner? (byte '=') line <|> afterInner? (byte ':') line).join
  let value := Text.trim after
  let quote ← value.head?
  guard (quote = byte '"' || quote = 39)
  match lastIndex? quote (Text.trim (value.drop 1)) with
  | some index => if value[index]? = some (byte '\\') then some quote else none
  | none => some quote

/-- Whether a line closes a quote. -/
def closes (quote : UInt8) (text : Text) : Bool :=
  match lastIndex? quote text with
  | some 0 => true
  | some (n + 1) => text[n]? ≠ some (byte '\\')
  | none => false

/-- A line with the lines up to the one that closes a quote, and the lines behind them. -/
def untilClosed? (quote : UInt8) (line : Text) : List Text → Option (Text × List Text)
  | [] => none
  | next :: rest =>
    let line := line ++ [Text.lineFeed] ++ next
    if closes quote next then some (line, rest) else untilClosed? quote line rest

/-! ## §2 Assignments -/

/-- Whether a byte is white space between the parts of a line. -/
def isSpace (b : UInt8) : Bool := b = 9 || b = 10 || b = 12 || b = 13 || b = 32

/-- Whether a byte may stand in a name. -/
def isNameByte (b : UInt8) : Bool :=
  Text.isDigit b || (byte 'a' ≤ b && b ≤ byte 'z') || (byte 'A' ≤ b && b ≤ byte 'Z') || b = byte '_' || b = byte '.'

/-- Whether nothing but white space and a comment is left. -/
def isRest (text : Text) : Bool :=
  match text.dropWhile isSpace with
  | [] => true
  | b :: comment => b = byte '#' && !comment.contains Text.lineFeed

/-- The longest beginning of a text in quotes that ends with the quote and leaves nothing but a comment. -/
def quoted? (text : Text) : Option Text := do
  let quote ← text.head?
  guard (quote = byte '"' || quote = 39)
  let lengths := (List.range (text.length + 1)).reverse.filter fun n => 2 ≤ n && text[n - 1]? = some quote
  let length ← lengths.find? fun n => isRest (text.drop n)
  return text.take length

/-- The value at the start of a text, if nothing but a comment follows it. -/
def value? (text : Text) : Option Text :=
  let word := text.takeWhile fun b => b ≠ byte '#' && b ≠ Text.lineFeed
  quoted? text
    <|> (if word ≠ [] && isRest (text.drop word.length) then some word else none)
    <|> (if isRest text then some [] else none)

/-- The value behind a colon and at least one space. The fewest spaces with which a value is found are passed. -/
def valueAfterColon? (text : Text) : Option Text :=
  let gap := (text.takeWhile isSpace).length
  ((List.range gap).map (· + 1)).findSome? fun n => value? (text.drop n)

/-- The name and the value on a line that starts with a name. -/
def named? (text : Text) : Option (Text × Text) := do
  let name := text.takeWhile isNameByte
  guard (name ≠ [])
  let rest := text.drop name.length
  let value ←
    match Text.stripPrefix? "=" (rest.dropWhile isSpace), Text.stripPrefix? ":" rest with
    | some after, _ => value? (after.dropWhile isSpace)
    | none, some after => valueAfterColon? after
    | none, none => none
  return (name, Text.trim value)

/-- The name and the value on a line. -/
def assignment? (line : Text) : Option (Text × Text) :=
  let line := line.dropWhile isSpace
  let exported :=
    match Text.stripPrefix? "export" line with
    | some rest => if rest.head?.any isSpace then named? (rest.dropWhile isSpace) else none
    | none => none
  exported <|> named? line

/-! ## §3 Values -/

/-- A text in which every occurrence of one text is another one. -/
def replaced (old new text : Text) : Text := Text.joinWith new (Text.splitOnText old text)

/-- A text without the backslashes that stand before something else than a dollar sign. -/
def unescaped : Text → Text
  | [] => []
  | [b] => [b]
  | b :: c :: text =>
    if b = byte '\\' ∧ c ≠ byte '$' then c :: unescaped text else b :: unescaped (c :: text)

/-- Whether a byte may stand in the name of a variable inside a value. -/
def isVariableByte (b : UInt8) : Bool := Text.isDigit b || (byte 'A' ≤ b && b ≤ byte 'Z') || b = byte '_'

/-- A value with the values of the variables in it. A dollar sign behind a backslash stands for itself, and so does one
without a name. -/
def expand (lookup : Text → Text) : Nat → Text → Text
  | 0, text => text
  | _ + 1, [] => []
  | fuel + 1, b :: text =>
    let sign := if b = byte '\\' then text else b :: text
    if sign.head? ≠ some (byte '$') then b :: expand lookup fuel text
    else
      let brace := Text.beginsWith "\x7b" (sign.drop 1)
      let behind := sign.drop (if brace then 2 else 1)
      let name := behind.takeWhile isVariableByte
      let closing := Text.beginsWith "\x7d" (behind.drop name.length)
      let width := 1 + (if brace then 1 else 0) + name.length + (if closing then 1 else 0)
      let found := if b = byte '\\' ∨ name = [] then sign.take width else lookup name
      found ++ expand lookup fuel (sign.drop width)

/-- The value of a variable, without its quotes. -/
def meaning (lookup : Text → Text) (value : Text) : Text :=
  let inQuotes (quote : UInt8) : Bool :=
    2 ≤ value.length && value.head? = some quote && value.getLast? = some quote
  let inside := (value.drop 1).dropLast
  if inQuotes 39 then inside
  else if inQuotes (byte '"') then
    let inside := unescaped (replaced "\\r" "\r" (replaced "\\n" "\n" inside))
    expand lookup inside.length inside
  else expand lookup value.length value

/-- Give a variable a value. -/
def assign (environment : List (Text × Text)) (found : List (Text × Text)) (name value : Text) :
    List (Text × Text) :=
  let lookup (name : Text) : Text :=
    (((environment ++ found).find? (·.1 = name)).map (·.2)).getD []
  found.filter (·.1 ≠ name) ++ [(name, meaning lookup value)]

/-- The variables on some lines. -/
def assignAll? (environment : List (Text × Text)) :
    Nat → List (Text × Text) → List Text → Option (List (Text × Text))
  | 0, _, _ => none
  | _ + 1, found, [] => some found
  | fuel + 1, found, line :: rest => do
    let line := Text.trim line
    if line = [] ∨ line.head? = some (byte '#') then assignAll? environment fuel found rest
    else
      let (line, rest) ← match openQuote? line with
        | some quote => untilClosed? quote line rest
        | none => some (line, rest)
      let (name, value) ← assignment? line
      assignAll? environment fuel (assign environment found name value) rest

/-- The variables of a file. -/
def assignments? (environment : List (Text × Text)) (text : Text) : Option (List (Text × Text)) :=
  let all := lines (decoded text)
  assignAll? environment (all.length + 1) [] all

/-- The variables of a file as settings. -/
def settings? (environment : List (Text × Text)) (text : Text) : Option (List (Text × Setting)) :=
  (assignments? environment text).map (·.map fun (name, value) => (name, .text value))

end HeaderReflection.Dotenv
