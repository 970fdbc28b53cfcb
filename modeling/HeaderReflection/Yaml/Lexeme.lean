import HeaderReflection.Yaml.Cursor

/-!
# Scalars, names and tags

What stands between the marks of a document: scalars in their five styles, the names of anchors, tags and directives. A
line end inside a scalar is folded: a single one becomes a space, and of several ones the first is dropped.

## Main definitions

- `Yaml.Gap`: blanks and line ends inside a scalar.
- `Yaml.plain?`, `Yaml.quoted?`, `Yaml.block?`: scalars without quotes, in quotes and in blocks.
- `Yaml.anchorName?`, `Yaml.tag?`: names of nodes and of their types.
- `Yaml.directive?`: a line that tells something about the document.
-/

namespace HeaderReflection.Yaml

/-- The text of some characters. -/
def textOf (characters : List Nat) : Text := characters.flatMap Text.ofCodePoint

/-! ## §1 Gaps -/

/-- The blanks and line ends that separate two words of a scalar. -/
structure Gap where
  /-- Whether a line has ended. -/
  broken : Bool := false
  /-- The blanks on the line of the first word. -/
  blanks : List Nat := []
  /-- The first line break, if it counts. -/
  first : Option Nat := none
  /-- All further line breaks. -/
  others : List Nat := []
  deriving Repr, Inhabited

namespace Gap

/-- What a gap becomes between two words. -/
def joint (g : Gap) : List Nat :=
  if g.broken then
    match g.first with
    | some 10 => if g.others = [] then [32] else g.others
    | some c => c :: g.others
    | none => g.others
  else g.blanks

/-- Move on past a gap. Behind a line end no tab may stand before the given column. -/
def pass? (column : Nat) : Nat → Gap → Cursor → Option (Gap × Cursor)
  | 0, g, c => some (g, c)
  | fuel + 1, g, c =>
    match c.rest with
    | [] => some (g, c)
    | b :: _ =>
      if isBlank b then
        if !g.broken then pass? column fuel { g with blanks := g.blanks ++ [b] } (c.steps 1)
        else if b = 9 ∧ c.column < column then none
        else pass? column fuel g (c.steps 1)
      else if isLineBreak b then
        if g.broken then pass? column fuel { g with others := g.others ++ [breakValue b] } c.nextLine
        else pass? column fuel { broken := true, first := some (breakValue b) } c.nextLine
      else some (g, c)

end Gap

/-! ## §2 Plain scalars -/

/-- The characters that end a plain scalar between brackets. -/
def flowEnds : List Nat := [0x2C, 0x3F, 0x5B, 0x5D, 0x7B, 0x7D]

/-- The characters up to a gap, to a colon before a gap or, between brackets, to a mark. -/
def plainWord (inFlow : Bool) : List Nat → List Nat
  | [] => []
  | c :: rest =>
    if isGap c || (c = 0x3A && rest.head?.all isGap) || (inFlow && flowEnds.contains c) then []
    else c :: plainWord inFlow rest

/-- The words of a plain scalar, the characters that have been taken latest first. Lines that follow must be indented
to a column. The answer also tells whether the scalar ends behind a line end. -/
def plainWords? (inFlow : Bool) (column : Nat) : Nat → List Nat → Gap → Cursor → Option (List Nat × Bool × Cursor)
  | 0, _, _, _ => none
  | fuel + 1, taken, gap, c =>
    if c.atMarker || c.sees 0 '#' then some (taken.reverse, gap.broken, c)
    else
      let word := plainWord inFlow c.rest
      let taken := if word = [] then taken else word.reverse ++ (gap.joint.reverse ++ taken)
      let gap := if word = [] then gap else {}
      let c := c.steps word.length
      if c.rest = [] || !c.seesGap 0 then some (taken.reverse, gap.broken, c)
      else do
        let (gap, c) ← gap.pass? column c.rest.length c
        if !inFlow && c.column < column then some (taken.reverse, gap.broken, c)
        else plainWords? inFlow column fuel taken gap c

/-- A plain scalar. -/
def plain? (inFlow : Bool) (column : Nat) (c : Cursor) : Option (Text × Bool × Cursor) :=
  (plainWords? inFlow column (c.rest.length + 1) [] {} c).map fun (taken, broken, c) => (textOf taken, broken, c)

/-! ## §3 Scalars in quotes -/

/-- The value of a hexadecimal digit. -/
def hexDigit? (c : Nat) : Option Nat :=
  if 0x30 ≤ c ∧ c ≤ 0x39 then some (c - 0x30)
  else if 0x61 ≤ c ∧ c ≤ 0x66 then some (c - 0x57)
  else if 0x41 ≤ c ∧ c ≤ 0x46 then some (c - 0x37)
  else none

/-- The value of hexadecimal digits. -/
def hexValue? (digits : List Nat) : Option Nat :=
  digits.foldlM (fun n c => (hexDigit? c).map (n * 16 + ·)) 0

/-- Whether a number is a code point that is no surrogate. -/
def isScalarValue (c : Nat) : Bool := c ≤ 0x10FFFF && !(0xD800 ≤ c && c ≤ 0xDFFF)

/-- The number of hexadecimal digits behind a letter that follows a backslash. -/
def escapeWidth? (letter : Nat) : Option Nat :=
  if letter = 'x'.toNat then some 2 else if letter = 'u'.toNat then some 4
  else if letter = 'U'.toNat then some 8 else none

/-- What a character behind a backslash stands for. -/
def escapeValue? (letter : Nat) : Option Nat :=
  let table : List (Char × Nat) :=
    [('0', 0), ('a', 7), ('b', 8), ('t', 9), ('\t', 9), ('n', 10), ('v', 11), ('f', 12), ('r', 13), ('e', 27),
     (' ', 32), ('"', 34), ('\'', 39), ('\\', 92), ('N', 0x85), ('_', 0xA0), ('L', 0x2028), ('P', 0x2029)]
  (table.find? (·.1.toNat = letter)).map (·.2)

/-- The value of an escape, which starts behind the backslash, and the number of its characters. -/
def escape? : List Nat → Option (Nat × Nat)
  | [] => none
  | letter :: rest =>
    match escapeWidth? letter with
    | none => (escapeValue? letter).map (·, 1)
    | some width => do
      guard (width ≤ rest.length)
      let value ← hexValue? (rest.take width)
      guard (isScalarValue value)
      return (value, width + 1)

/-- The characters of a scalar in quotes up to the next gap or to the closing quote, latest first. The answer also tells
whether a backslash at a line end ends them. -/
def quotedWord? (quote : Nat) : Nat → List Nat → Cursor → Option (List Nat × Bool × Cursor)
  | 0, _, _ => none
  | fuel + 1, taken, c =>
    match c.rest with
    | [] => some (taken, false, c)
    | b :: rest =>
      if isGap b then some (taken, false, c)
      else if b = quote then
        if quote = 39 ∧ rest.head? = some 39 then quotedWord? quote fuel (39 :: taken) (c.steps 2)
        else some (taken, false, c)
      else if quote = 34 ∧ b = 92 then
        if rest.head?.any isLineBreak then some (taken, true, (c.steps 1).nextLine)
        else do
          let (value, width) ← escape? rest
          quotedWord? quote fuel (value :: taken) (c.steps (width + 1))
      else quotedWord? quote fuel (b :: taken) (c.steps 1)

/-- The words of a scalar in quotes up to the closing quote, the characters that have been taken latest first. -/
def quotedWords? (quote : Nat) : Nat → List Nat → Cursor → Option (List Nat × Cursor)
  | 0, _, _ => none
  | fuel + 1, taken, c =>
    if c.atMarker || c.rest = [] then none
    else do
      let (taken, broken, c) ← quotedWord? quote (c.rest.length + 1) taken c
      if c.rest.head? = some quote then some (taken.reverse, c.steps 1)
      else do
        let (gap, c) ← Gap.pass? 0 c.rest.length { broken } c
        quotedWords? quote fuel (gap.joint.reverse ++ taken) c

/-- A scalar in quotes; the opening quote is here. -/
def quoted? (c : Cursor) : Option (Text × Cursor) := do
  let quote ← c.rest.head?
  let (taken, c) ← quotedWords? quote (c.rest.length + 1) [] (c.steps 1)
  return (textOf taken, c)

/-! ## §4 Blocks -/

/-- What becomes of the line ends at the end of a block. -/
inductive Chomping where
  /-- One stays. -/
  | clip
  /-- None stays. -/
  | strip
  /-- All stay. -/
  | keep
  deriving DecidableEq, Repr, Inhabited

/-- The chomping that a sign tells. -/
def chomping? (c : Nat) : Option Chomping :=
  if c = '+'.toNat then some .keep else if c = '-'.toNat then some .strip else none

/-- The indentation that a digit tells. -/
def indentDigit? (c : Nat) : Option Nat := if 0x30 ≤ c ∧ c ≤ 0x39 then some (c - 0x30) else none

/-- The marks behind the sign of a block, in either order, and the number of their characters. An indentation of zero is
a fault, none is told as zero. -/
def blockMarks? (marks : List Nat) : Option (Chomping × Nat × Nat) :=
  let digit (rest : List Nat) : Option (Option Nat) :=
    match rest.head?.bind indentDigit? with
    | some 0 => none
    | found => some found
  match marks.head?.bind chomping? with
  | some chomping => do
    match ← digit (marks.drop 1) with
    | some n => return (chomping, n, 2)
    | none => return (chomping, 0, 1)
  | none => do
    match ← digit marks with
    | none => return (.clip, 0, 0)
    | some n =>
      match (marks.drop 1).head?.bind chomping? with
      | some chomping => return (chomping, n, 2)
      | none => return (.clip, n, 1)

/-- Move on past the empty lines of a block and the indentation of the next one. An indentation of zero is not known
yet; the deepest one that is seen is told, with the line breaks. -/
def blockBreaks? (indent : Nat) : Nat → Nat → List Nat → Cursor → Option (Nat × List Nat × Cursor)
  | 0, _, _, _ => none
  | fuel + 1, deepest, breaks, c =>
    let spaces := (c.rest.takeWhile (· = 32)).length
    let c := c.steps (if indent = 0 then spaces else min spaces (indent - c.column))
    let deepest := max deepest c.column
    if (indent = 0 ∨ c.column < indent) ∧ c.sees 0 '\t' then none
    else match c.rest with
      | b :: _ =>
        if isLineBreak b then blockBreaks? indent fuel deepest (breaks ++ [breakValue b]) c.nextLine
        else some (deepest, breaks, c)
      | [] => some (deepest, breaks, c)

/-- The lines of a block, with what has been taken, latest first. -/
structure BlockLines where
  taken : List Nat := []
  /-- The break that ends the last line. -/
  lineBreak : Option Nat := none
  /-- The breaks of the empty lines behind it. -/
  emptyLines : List Nat := []
  /-- Whether the last line starts with a blank. -/
  blankStart : Bool := false
  deriving Repr, Inhabited

/-- What stands between the last line and the next one. A folded line end becomes a space, unless there are empty lines
or one of the lines starts with a blank. -/
def BlockLines.joint (b : BlockLines) (folded blankStart : Bool) : List Nat :=
  let first :=
    if folded && !b.blankStart && !blankStart && b.lineBreak = some 10 then
      if b.emptyLines = [] then [32] else []
    else b.lineBreak.toList
  first ++ b.emptyLines

/-- Read the lines of a block that are indented to a column. -/
def blockLines? (folded : Bool) (indent : Nat) : Nat → BlockLines → Cursor → Option (BlockLines × Cursor)
  | 0, _, _ => none
  | fuel + 1, b, c =>
    if c.column ≠ indent ∨ c.rest = [] then some (b, c)
    else do
      let blankStart := c.seesBlank 0
      let line := c.rest.takeWhile (!isLineBreak ·)
      let taken := line.reverse ++ ((b.joint folded blankStart).reverse ++ b.taken)
      let c := c.steps line.length
      let lineBreak := c.rest.head?.map breakValue
      let (_, emptyLines, c) ← blockBreaks? indent (c.rest.length + 1) 0 [] c.nextLine
      blockLines? folded indent fuel { taken, lineBreak, emptyLines, blankStart } c

/-- A scalar in a block; its sign is here. `outer` is the indentation around it. -/
def block? (outer : Int) (c : Cursor) : Option (Text × Cursor) := do
  let folded := c.sees 0 '>'
  let c := c.steps 1
  let (chomping, increment, width) ← blockMarks? (c.rest.take 2)
  let c ← (c.steps width).restOfLine?
  let told := if increment = 0 then 0 else (max outer 0).toNat + increment
  let (deepest, emptyLines, c) ← blockBreaks? told (c.rest.length + 1) 0 [] c
  let indent := if told = 0 then max (max deepest (outer + 1).toNat) 1 else told
  let (b, c) ← blockLines? folded indent (c.rest.length + 1) { emptyLines } c
  let tail := match chomping with
    | .strip => []
    | .clip => b.lineBreak.toList
    | .keep => b.lineBreak.toList ++ b.emptyLines
  return (textOf (b.taken.reverse ++ tail), c)

/-! ## §5 Names and tags -/

/-- Whether a name of an anchor may end here. -/
def endsName (c : Cursor) : Bool :=
  c.seesGap 0 || c.rest.head?.any fun b => "?:,]\x7d%@\x60".toList.any (·.toNat = b)

/-- The name of an anchor, behind its sign. -/
def anchorName? (c : Cursor) : Option (Text × Cursor) :=
  let c := c.steps 1
  let name := c.rest.takeWhile isNameCharacter
  let c := c.steps name.length
  if name = [] ∨ !endsName c then none else some (textOf name, c)

/-- Whether a character may stand in a tag. -/
def isTagCharacter (c : Nat) : Bool :=
  isNameCharacter c || (";/?:@&=+$.,!~*'()[]%".toList.any (·.toNat = c))

/-- The number of bytes of a character that starts with a byte, zero if none does. -/
def leadWidth (b : Nat) : Nat :=
  if b < 0x80 then 1 else if b < 0xC0 then 0 else if b < 0xE0 then 2 else if b < 0xF0 then 3
  else if b < 0xF8 then 4 else 0

/-- A byte in a tag, written with a percent sign and two hexadecimal digits. -/
def tagByte? (c : Cursor) : Option (Nat × Cursor) := do
  guard (c.sees 0 '%' && 3 ≤ c.rest.length)
  let value ← hexValue? ((c.rest.drop 1).take 2)
  return (value, c.steps 3)

/-- The further bytes of a character in a tag. -/
def tagBytes? : Nat → Text → Cursor → Option (Text × Cursor)
  | 0, taken, c => some (taken, c)
  | n + 1, taken, c => do
    let (b, c) ← tagByte? c
    guard (0x80 ≤ b && b < 0xC0)
    tagBytes? n (taken ++ [UInt8.ofNat b]) c

/-- The characters of a tag, behind those that have been taken. -/
def tagText? : Nat → Text → Cursor → Option (Text × Cursor)
  | 0, taken, c => some (taken, c)
  | fuel + 1, taken, c =>
    match c.rest with
    | [] => some (taken, c)
    | b :: _ =>
      if b = '%'.toNat then do
        let (lead, c) ← tagByte? c
        guard (leadWidth lead ≠ 0)
        let (taken, c) ← tagBytes? (leadWidth lead - 1) (taken ++ [UInt8.ofNat lead]) c
        tagText? fuel taken c
      else if isTagCharacter b then tagText? fuel (taken ++ Text.ofCodePoint b) (c.steps 1)
      else some (taken, c)

/-- The characters of a tag, of which there must be one unless some have been taken. -/
def someTagText? (taken : Text) (c : Cursor) : Option (Text × Cursor) := do
  let (text, after) ← tagText? c.rest.length taken c
  guard (taken ≠ [] || after.index ≠ c.index)
  return (text, after)

/-- A handle: an exclamation mark, name characters, and perhaps a second mark. -/
def handle? (c : Cursor) : Option (Text × Cursor) := do
  guard (c.sees 0 '!')
  let name := (c.rest.drop 1).takeWhile isNameCharacter
  let c := c.steps (name.length + 1)
  if c.sees 0 '!' then return ("!" ++ textOf name ++ "!", c.steps 1) else return ("!" ++ textOf name, c)

/-- A tag: its handle, empty if it is written out in full, and the rest. -/
def tag? (c : Cursor) : Option (Text × Text × Cursor) := do
  let (handle, suffix, c) ←
    if c.sees 1 '<' then do
      let (suffix, c) ← someTagText? [] (c.steps 2)
      guard (c.sees 0 '>')
      pure (([] : Text), suffix, c.steps 1)
    else do
      let (handle, c) ← handle? c
      if handle.length > 1 ∧ handle.getLast? = some (Text.byte '!') then do
        let (suffix, c) ← someTagText? [] c
        pure (handle, suffix, c)
      else do
        let (suffix, c) ← tagText? c.rest.length (handle.drop 1) c
        if suffix = [] then pure (([] : Text), handle, c) else pure (([Text.byte '!'] : Text), suffix, c)
  guard (c.seesGap 0)
  return (handle, suffix, c)

/-! ## §6 Directives -/

/-- A line that tells something about the document below it. -/
inductive Directive where
  | version (major minor : Nat)
  /-- What a handle of tags stands for. -/
  | tag (handle expansion : Text)
  deriving DecidableEq, Repr, Inhabited

/-- A number of at most two digits. -/
def versionNumber? (c : Cursor) : Option (Nat × Cursor) := do
  let digits := c.rest.takeWhile fun b => 0x30 ≤ b && b ≤ 0x39
  guard (digits ≠ [] && digits.length ≤ 2)
  return (digits.foldl (fun n b => n * 10 + (b - 0x30)) 0, c.steps digits.length)

/-- A directive, with the rest of its line. -/
def directive? (c : Cursor) : Option (Directive × Cursor) := do
  let name := (c.rest.drop 1).takeWhile isNameCharacter
  let c := c.steps (name.length + 1)
  guard (name ≠ [] && c.seesGap 0)
  let c := c.stepWhile isBlank
  if textOf name = ("YAML" : Text) then do
    let (major, c) ← versionNumber? c
    guard (c.sees 0 '.')
    let (minor, c) ← versionNumber? (c.steps 1)
    return (.version major minor, ← c.restOfLine?)
  else if textOf name = ("TAG" : Text) then do
    let (handle, c) ← handle? c
    guard (handle = ("!" : Text) || (handle.length > 1 && handle.getLast? = some (Text.byte '!')))
    guard (c.seesBlank 0)
    let (expansion, c) ← someTagText? [] (c.stepWhile isBlank)
    guard (c.seesGap 0)
    return (.tag handle expansion, ← c.restOfLine?)
  else none

end HeaderReflection.Yaml
