import HeaderReflection.Text.Quoted
import HeaderReflection.Yaml.Plain

/-!
# Writing scalars

How a text has to be written so that it is read back as that text: plain where that is possible, in double quotes where
it would be read as something else, in single quotes where its characters mean something to the format, and as an
indented block where it has several lines. Bytes that are no text are written in base 64.

## Main definitions

- `Yaml.readsAsText`: whether a plain scalar stands for its own text.
- `Yaml.plainAllowed`, `Yaml.singleQuotedAllowed`, `Yaml.blockAllowed`: what the characters of a text allow.
- `Yaml.scalarLine`: a text as a scalar, with the end of its line.
-/

namespace HeaderReflection.Yaml

open Text (byte isDigit)

/-! ## §1 What readers take for a text -/

/-- Whether a text is sexagesimal: groups of digits with colons between them, the later ones below sixty. -/
def isSexagesimal (text : Text) : Bool :=
  match Text.splitOn (byte ':') (unsigned text) with
  | first :: group :: groups =>
    let last := (group :: groups).getLastD []
    let plainGroups := (group :: groups).dropLast ++ [last.takeWhile isDigit]
    let small (g : Text) : Bool :=
      match g with
      | [a] => isDigit a
      | [a, b] => byte '0' ≤ a && a ≤ byte '5' && isDigit b
      | _ => false
    (match first with
      | a :: rest => isDigit a && rest.all fun b => isDigit b || b = byte '_'
      | [] => false) &&
    plainGroups.all small &&
    (match last.dropWhile isDigit with
      | [] => true
      | b :: rest => b = byte '.' && rest.all fun b => isDigit b || b = byte '_')
  | _ => false

/-- The words that older readers take for a Boolean value. -/
def oldBooleans : List Text :=
  ["y", "Y", "yes", "Yes", "YES", "on", "On", "ON", "n", "N", "no", "No", "NO", "off", "Off", "OFF"]

/-- Whether a plain scalar stands for its own text. -/
def isPlainText (text : Text) : Bool :=
  match plainValue text with
  | .text _ => true
  | _ => false

/-- Whether every reader takes a plain scalar for a text. -/
def readsAsText (text : Text) : Bool :=
  isPlainText text && !isSexagesimal text && !oldBooleans.contains text

/-! ## §2 What characters allow -/

/-- Whether a code point may stand in a document as it is. -/
def isWritable (c : Nat) : Bool :=
  c = 10 || (0x20 ≤ c && c ≤ 0x7E) || (0xA0 ≤ c && c ≤ 0xD7FF) ||
    (0xE000 ≤ c && c ≤ 0xFFFD && c ≠ 0xFEFF)

/-- The characters that mean something at the start of a plain scalar. -/
def startIndicators : List Nat := "#,[]\x7b\x7d&*!|>'\"%@\x60".toList.map Char.toNat

/-- Whether the first character of a text, followed by the given ones, has a meaning of its own in a document. -/
def startIsIndicator (c : Nat) (after : List Nat) : Bool :=
  let beforeGap := after.head?.all fun d => d = 32 || d = 9
  startIndicators.contains c ||
    ((c = '?'.toNat || c = ':'.toNat || c = '-'.toNat) && beforeGap)

/-- Whether a later character starts a comment or ends a key. -/
def hasInnerIndicator : List Nat → Bool
  | a :: b :: rest =>
    let beforeGap := rest.head?.all fun d => d = 32 || d = 9
    (b = ':'.toNat && beforeGap) || (b = '#'.toNat && isGap a) || hasInnerIndicator (b :: rest)
  | _ => false

/-- Whether a text looks like a document marker. -/
def startsLikeMarker (text : Text) : Bool := Text.beginsWith "---" text || Text.beginsWith "..." text

/-- Whether one code point of the first kind stands directly before one of the second. -/
def hasPair (first second : Nat → Bool) : List Nat → Bool
  | a :: b :: rest => (first a && second b) || hasPair first second (b :: rest)
  | _ => false

/-- Whether a text holds something that only escapes can express. -/
def needsEscapes (characters : List Nat) : Bool :=
  characters.any (fun c => c ≠ 9 && !isWritable c) || hasPair (· = 32) isLineBreak characters

/-- Whether the characters of a text can stand without quotes. -/
def plainAllowed (text : Text) : Bool :=
  match text.codePoints with
  | [] => true
  | c :: rest =>
    let characters := c :: rest
    let last := characters.getLastD 0
    !(c = 32 || isLineBreak c || last = 32 || isLineBreak last || characters.any isLineBreak ||
      characters.contains 9 || needsEscapes characters || startsLikeMarker text || startIsIndicator c rest ||
      hasInnerIndicator characters)

/-- Whether a text can stand in single quotes. -/
def singleQuotedAllowed (text : Text) : Bool :=
  let characters := text.codePoints
  !(characters.contains 9 || needsEscapes characters || hasPair isLineBreak (· = 32) characters)

/-- Whether a text can be written as a block. -/
def blockAllowed (text : Text) : Bool :=
  let characters := text.codePoints
  !(characters.getLastD 0 = 32 || needsEscapes characters)

/-! ## §3 Quotes -/

/-- The single quote. -/
abbrev apostrophe : UInt8 := 39

/-- Some spaces. -/
def spaces (n : Nat) : Text := List.replicate n (byte ' ')

/-- The inside of single quotes. A quote is written twice, and what follows a line break is indented. -/
def singleQuotedFrom (indent : Nat) (afterBreak : Bool) : List Nat → Text
  | [] => []
  | c :: rest =>
    if isLineBreak c then Text.ofCodePoint c ++ singleQuotedFrom indent true rest
    else
      (if afterBreak then spaces indent else []) ++ (if c = 39 then [apostrophe] else []) ++ Text.ofCodePoint c ++
        singleQuotedFrom indent false rest

/-- A text in single quotes. -/
def singleQuoted (indent : Nat) (text : Text) : Text :=
  apostrophe :: singleQuotedFrom indent false text.codePoints ++ [apostrophe]

/-- Upper-case hexadecimal digits. -/
def upperHex (width n : Nat) : Text :=
  (Text.hex width n).map fun b => if byte 'a' ≤ b ∧ b ≤ byte 'f' then b - 32 else b

/-- The letter that stands for a code point after a backslash. -/
def escapeLetter? (c : Nat) : Option Char :=
  match c with
  | 0 => some '0'
  | 7 => some 'a'
  | 8 => some 'b'
  | 9 => some 't'
  | 10 => some 'n'
  | 11 => some 'v'
  | 12 => some 'f'
  | 13 => some 'r'
  | 27 => some 'e'
  | 34 => some '"'
  | 92 => some '\\'
  | 0x85 => some 'N'
  | 0xA0 => some '_'
  | 0x2028 => some 'L'
  | 0x2029 => some 'P'
  | _ => none

/-- A code point as an escape. -/
def escaped (c : Nat) : Text :=
  match escapeLetter? c with
  | some letter => [byte '\\', byte letter]
  | none =>
    if c ≤ 0xFF then [byte '\\', byte 'x'] ++ upperHex 2 c
    else if c ≤ 0xFFFF then [byte '\\', byte 'u'] ++ upperHex 4 c
    else [byte '\\', byte 'U'] ++ upperHex 8 c

/-- Whether a code point stands for itself in double quotes. -/
def isVerbatim (c : Nat) : Bool := isWritable c && !isLineBreak c && c ≠ 34 && c ≠ 92

/-- A text in double quotes. All of a text that starts with a byte order mark is escaped. -/
def doubleQuoted (text : Text) : Text :=
  let characters := text.codePoints
  let marked := characters.head? = some 0xFEFF
  "\"" ++ characters.flatMap (fun c => if isVerbatim c ∧ !marked then Text.ofCodePoint c else escaped c) ++ "\""

/-! ## §4 Blocks -/

/-- The mark behind a block's indicator that tells what becomes of the line ends at its end. -/
def chompingMark (characters : List Nat) : Text :=
  match characters.reverse with
  | a :: b :: _ => if !isLineBreak a then "-" else if isLineBreak b then "+" else []
  | [a] => if isLineBreak a then "+" else "-"
  | [] => "-"

/-- The lines of a block at an indentation. A break at its start ends the line of the indicator; otherwise that line is
still open before the first character. -/
def blockFrom (indent : Nat) (isOpen afterBreak : Bool) : List Nat → Text
  | [] => []
  | c :: rest =>
    if isLineBreak c then Text.ofCodePoint c ++ blockFrom indent false true rest
    else
      (if isOpen then [Text.lineFeed] else []) ++ (if afterBreak then spaces indent else []) ++ Text.ofCodePoint c ++
        blockFrom indent false false rest

/-- A text as a block, with the end of its last line. -/
def blockLine (indent : Nat) (text : Text) : Text :=
  let characters := text.codePoints
  let hint : Text := if characters.head?.any fun c => c = 32 || isLineBreak c then "4" else []
  let ending : Text := if characters.getLast?.any isLineBreak then [] else "\n"
  "|" ++ hint ++ chompingMark characters ++ blockFrom indent true true characters ++ ending

/-! ## §5 Scalars -/

/-- The length of the lines of base 64. -/
def base64Width : Nat := 70

/-- Digits in lines of a width, each with its end. -/
def linesOfWidth (width : Nat) : Nat → Text → Text
  | 0, digits => digits
  | _ + 1, [] => []
  | fuel + 1, digits => digits.take width ++ "\n" ++ linesOfWidth width fuel (digits.drop width)

/-- Bytes as a scalar with a tag. Many of them take several lines. -/
def binaryLine (indent : Nat) (bytes : Text) : Text :=
  let digits := Text.base64 bytes
  "!!binary " ++
    if digits.length < base64Width then digits ++ "\n"
    else blockLine indent (linesOfWidth base64Width digits.length digits)

/-- A text as a scalar, with the end of its last line; `indent` is the indentation of all its lines but the first. -/
def scalarLine (indent : Nat) (text : Text) : Text :=
  if !text.isUtf8 then binaryLine indent text
  else if text.contains Text.lineFeed then
    if blockAllowed text then blockLine indent text else doubleQuoted text ++ "\n"
  else if !readsAsText text then doubleQuoted text ++ "\n"
  else if plainAllowed text then text ++ "\n"
  else if singleQuotedAllowed text then singleQuoted indent text ++ "\n"
  else doubleQuoted text ++ "\n"

end HeaderReflection.Yaml
