import HeaderReflection.Text.Basic

/-!
# Blanks

The white space of Unicode, as the byte spellings of its characters. A spelling starts with a byte that no
spelling has inside, so a text can be searched for blanks byte by byte, valid UTF-8 or not.

## Main definitions

- `Text.blankSpellings`: the blanks.
- `Text.marks`: each byte of a text with the note whether it belongs to a blank.
- `Text.trim`: a text without the blanks at its ends.
- `Text.fields`: the maximal runs without blanks.
-/

namespace HeaderReflection.Text

/-- The byte spellings of the white space characters: tab to carriage return, space, next line, no-break space, the
Ogham space, the spaces U+2000 to U+200A, the line and paragraph separators, the narrow and the mathematical
space and the ideographic space. -/
def blankSpellings : List Text :=
  [[9], [10], [11], [12], [13], [32], [0xC2, 0x85], [0xC2, 0xA0], [0xE1, 0x9A, 0x80],
   [0xE2, 0x80, 0x80], [0xE2, 0x80, 0x81], [0xE2, 0x80, 0x82], [0xE2, 0x80, 0x83], [0xE2, 0x80, 0x84],
   [0xE2, 0x80, 0x85], [0xE2, 0x80, 0x86], [0xE2, 0x80, 0x87], [0xE2, 0x80, 0x88], [0xE2, 0x80, 0x89],
   [0xE2, 0x80, 0x8A], [0xE2, 0x80, 0xA8], [0xE2, 0x80, 0xA9], [0xE2, 0x80, 0xAF], [0xE2, 0x81, 0x9F],
   [0xE3, 0x80, 0x80]]

/-- The number of bytes of the blank at the start of a text, zero if there is none. -/
def blankWidth (text : Text) : Nat :=
  match blankSpellings.find? (beginsWith · text) with
  | some spelling => spelling.length
  | none => 0

/-- Mark the bytes of a text, the first `inside` of which end a blank that has already begun. -/
def marksFrom : Nat → Text → List (UInt8 × Bool)
  | _, [] => []
  | inside + 1, b :: text => (b, true) :: marksFrom inside text
  | 0, b :: text =>
    match blankWidth (b :: text) with
    | 0 => (b, false) :: marksFrom 0 text
    | width + 1 => (b, true) :: marksFrom width text

/-- Each byte of a text, with the note whether it belongs to a blank. -/
def marks (text : Text) : List (UInt8 × Bool) := marksFrom 0 text

/-- A text without the blanks at both ends. -/
def trim (text : Text) : Text :=
  ((((marks text).dropWhile (·.2)).reverse.dropWhile (·.2)).reverse).map (·.1)

/-- Whether a text holds nothing but blanks. -/
def isBlank (text : Text) : Bool := (marks text).all (·.2)

/-- Cut a marked text at its blanks. -/
def cutMarked (marked : List (UInt8 × Bool)) : List Text :=
  marked.foldr (fun (b, blank) pieces => if blank then [] :: pieces else consHead b pieces) [[]]

/-- The maximal non-empty runs of a text without blanks. -/
def fields (text : Text) : List Text := (cutMarked (marks text)).filter (· ≠ [])

end HeaderReflection.Text
