import HeaderReflection.Text.Utf16

/-!
# Places in a document

A document is a stream of code points, in UTF-8 or, after a byte order mark, in UTF-16. The bytes are looked at in
blocks, so a fault in a block that nobody asks for does no harm. A cursor is a place in the stream; it knows its line
and column, and how many lines have ended since the last character that was no blank.

## Main definitions

- `Yaml.Stream`, `Yaml.Stream.ofText`: the characters of a document, up to the first faulty block.
- `Yaml.isBlank`, `Yaml.isLineBreak`, `Yaml.isGap`: classes of characters.
- `Yaml.Cursor`: a place, with the steps it can make.
- `Yaml.Cursor.skipComments`, `Yaml.Cursor.skipLineComment`: moving past comments.
-/

namespace HeaderReflection.Yaml

/-! ## §1 Streams -/

/-- The characters of a document. -/
structure Stream where
  characters : List Nat
  /-- Whether these are all characters; otherwise a fault follows. -/
  complete : Bool
  deriving DecidableEq, Repr, Inhabited

/-- Whether a code point may stand in a document. -/
def isReadable (c : Nat) : Bool :=
  c = 9 || c = 10 || c = 13 || (0x20 ≤ c && c ≤ 0x7E) || c = 0x85 || (0xA0 ≤ c && c ≤ 0xD7FF) ||
    (0xE000 ≤ c && c ≤ 0xFFFD) || (0x10000 ≤ c && c ≤ 0x10FFFF)

/-- The number of bytes in a block. -/
def blockSize : Nat := 512

/-- Characters that are being read, block by block. -/
structure Blocks where
  /-- The characters of all blocks before the current one, latest first. -/
  before : List Nat := []
  /-- The characters of the current block, latest first. -/
  current : List Nat := []
  /-- The bytes left in the current block. -/
  left : Nat := blockSize
  deriving Repr, Inhabited

namespace Blocks

/-- Add a character of some bytes. One that does not fit into the current block starts the next one. -/
def add (b : Blocks) (c width : Nat) : Blocks :=
  if b.left < width then { before := b.current ++ b.before, current := [c], left := blockSize - width }
  else { b with current := c :: b.current, left := b.left - width }

/-- The stream that ends here. -/
def finish (b : Blocks) : Stream := { characters := (b.current ++ b.before).reverse, complete := true }

/-- The stream with a fault here, which takes the whole block with it. -/
def fail (b : Blocks) : Stream :=
  { characters := (if b.left = 0 then b.current ++ b.before else b.before).reverse, complete := false }

/-- Read UTF-8; the first `inside` bytes end a character that has already been read. -/
def readBytes : Nat → Blocks → Text → Stream
  | _, b, [] => b.finish
  | inside + 1, b, _ :: text => readBytes inside b text
  | 0, b, byte :: text =>
    match Text.codePoint? (byte :: text) with
    | some (c, width) => if isReadable c then readBytes (width - 1) (b.add c width) text else b.fail
    | none => b.fail

/-- Read words of 16 bits; two of them may form one character. `whole` tells that no byte is left behind them. -/
def readWords (whole : Bool) : Blocks → List Nat → Stream
  | b, [] => if whole then b.finish else b.fail
  | b, high :: words =>
    if Text.isHighSurrogate high then
      match words with
      | low :: words =>
        if Text.isLowSurrogate low then readWords whole (b.add (Text.surrogatePair high low) 4) words
        else b.fail
      | [] => b.fail
    else if isReadable high then readWords whole (b.add high 2) words
    else b.fail

end Blocks

/-- The characters of a document. A byte order mark at its start tells the encoding; an empty document is an empty
line. -/
def Stream.ofText (text : Text) : Stream :=
  let wide (largeFirst : Bool) (rest : Text) : Stream :=
    Blocks.readWords (rest.length % 2 = 0) { left := blockSize - 2 } (Text.words largeFirst rest)
  match text with
  | [] => { characters := [10], complete := true }
  | 0xFF :: 0xFE :: rest => wide false rest
  | 0xFE :: 0xFF :: rest => wide true rest
  | 0xEF :: 0xBB :: 0xBF :: rest => Blocks.readBytes 0 { left := blockSize - 3 } rest
  | _ => Blocks.readBytes 0 {} text

/-! ## §2 Classes of characters -/

/-- Whether a character is a space or a tab. -/
def isBlank (c : Nat) : Bool := c = 32 || c = 9

/-- Whether a character ends a line. -/
def isLineBreak (c : Nat) : Bool := c = 10 || c = 13 || c = 0x85 || c = 0x2028 || c = 0x2029

/-- Whether a character is a space, a tab or a line break. -/
def isGap (c : Nat) : Bool := isBlank c || isLineBreak c

/-- What a line break is in the value of a scalar: the line and the paragraph separator stay, all others are line
feeds. -/
def breakValue (c : Nat) : Nat := if c = 0x2028 ∨ c = 0x2029 then c else 10

/-- Whether a character may stand in the name of an anchor. -/
def isNameCharacter (c : Nat) : Bool :=
  (0x30 ≤ c && c ≤ 0x39) || (0x41 ≤ c && c ≤ 0x5A) || (0x61 ≤ c && c ≤ 0x7A) || c = 0x5F || c = 0x2D

/-! ## §3 Cursors -/

/-- A place in a stream. -/
structure Cursor where
  rest : List Nat
  index : Nat := 0
  line : Nat := 0
  column : Nat := 0
  /-- The lines that have ended since the last character that is no blank. -/
  freshLines : Nat := 0
  /-- Whether the stream starts with a byte order mark of its own. -/
  marked : Bool := false
  deriving Repr, Inhabited

namespace Cursor

/-- The start of a stream. -/
def ofCharacters (characters : List Nat) : Cursor :=
  { rest := characters, marked := characters.head? = some 0xFEFF }

/-- Whether a given character stands some places ahead. -/
def sees (c : Cursor) (ahead : Nat) (character : Char) : Bool := c.rest[ahead]? = some character.toNat

/-- Whether a blank stands some places ahead. -/
def seesBlank (c : Cursor) (ahead : Nat) : Bool := (c.rest[ahead]?).any isBlank

/-- Whether a line break stands here. -/
def atBreak (c : Cursor) : Bool := c.rest.head?.any isLineBreak

/-- Whether a blank, a line break or the end of the stream is some places ahead. -/
def seesGap (c : Cursor) (ahead : Nat) : Bool := (c.rest[ahead]?).all isGap

/-- Whether a line break or the end of the stream is here. -/
def atLineEnd (c : Cursor) : Bool := c.rest.head?.all isLineBreak

/-- Whether a document marker starts here: three dashes or three dots at the start of a line. -/
def atMarker (c : Cursor) : Bool :=
  let three (character : Char) : Bool := c.sees 0 character && c.sees 1 character && c.sees 2 character
  c.column = 0 && (three '-' || three '.') && c.seesGap 3

/-- Move on by some characters of a line. -/
def steps (c : Cursor) (n : Nat) : Cursor :=
  { c with
    rest := c.rest.drop n
    index := c.index + n
    column := c.column + n
    freshLines := if (c.rest.take n).all isBlank then c.freshLines else 0 }

/-- Move on past the characters of a class. -/
def stepWhile (c : Cursor) (test : Nat → Bool) : Cursor := c.steps (c.rest.takeWhile test).length

/-- Move on past a line break, if there is one. A carriage return and a line feed are one break. -/
def nextLine (c : Cursor) : Cursor :=
  let after (rest : List Nat) (n : Nat) : Cursor :=
    { c with rest, index := c.index + n, line := c.line + 1, column := 0, freshLines := c.freshLines + 1 }
  match c.rest with
  | 13 :: 10 :: rest => after rest 2
  | b :: rest => if isLineBreak b then after rest 1 else c
  | [] => c

/-- Move on to the end of the line. -/
def toLineEnd (c : Cursor) : Cursor := c.stepWhile (!isLineBreak ·)

/-! ## §4 Comments -/

/-- The number of characters that are looked at to find a comment. -/
def commentReach : Nat := 512

/-- Move on past blanks and line breaks. -/
def passGap : Nat → Cursor → Cursor
  | 0, c => c
  | fuel + 1, c =>
    if c.atBreak then passGap fuel c.nextLine else if c.seesBlank 0 then passGap fuel (c.steps 1) else c

/-- Move on to the end of a comment. Comments on the lines below, with nothing but blanks around them, are passed
too. -/
def skipComments : Nat → Cursor → Cursor
  | 0, c => c
  | fuel + 1, c =>
    let c := c.toLineEnd
    let gap := ((c.rest.drop 1).takeWhile isGap).length
    if gap + 1 < commentReach ∧ c.sees (gap + 1) '#' then skipComments fuel (passGap (gap + 1) c) else c

/-- Move on to the end of a comment that follows on the same line. -/
def skipLineComment (c : Cursor) : Cursor :=
  let blanks := (c.rest.takeWhile isBlank).length
  if c.freshLines = 0 ∧ blanks < commentReach ∧ c.sees blanks '#' then c.toLineEnd else c

/-- Move on past blanks and a comment to the end of the line, which must be there. -/
def restOfLine? (c : Cursor) : Option Cursor :=
  let c := c.stepWhile isBlank
  let c := if c.sees 0 '#' then c.toLineEnd else c
  if c.atLineEnd then some c.nextLine else none

end Cursor

end HeaderReflection.Yaml
