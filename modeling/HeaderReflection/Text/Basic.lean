/-!
# Text as bytes

Header files, paths and generated sources are read and written as bytes, whether or not they are valid
UTF-8, and cutting a name may split a code point. So a text is the list of its bytes, and every operation
of this library works on that list.

## Main definitions

- `Text`: a list of bytes, with a coercion from string literals.
- `Text.splitOn`, `Text.joinWith`: lines and separators.
- `Text.stripPrefix?`, `Text.trimSuffix`, `Text.cut`: taking known pieces off a text.
- `Text.unixLines`: one convention for line ends.
- `Text.decimal`: the decimal spelling of a number.
-/

namespace HeaderReflection

/-- A text is the list of its bytes. -/
abbrev Text := List UInt8

namespace Text

/-- The UTF-8 bytes of a string. -/
def ofString (s : String) : Text := s.toUTF8.data.toList

instance : Coe String Text := ⟨ofString⟩

/-- The byte of an ASCII character. -/
abbrev byte (c : Char) : UInt8 := c.toUInt8

/-! ## §1 Separators -/

/-- Put a byte in front of the first piece of a list of pieces. -/
def consHead (b : UInt8) : List Text → List Text
  | [] => [[b]]
  | piece :: pieces => (b :: piece) :: pieces

/-- The pieces of a text between the occurrences of a separator byte. There is always at least one piece. -/
def splitOn (sep : UInt8) (text : Text) : List Text :=
  text.foldr (fun b pieces => if b = sep then [] :: pieces else consHead b pieces) [[]]

@[simp] theorem splitOn_nil (sep : UInt8) : splitOn sep [] = [[]] := rfl

theorem splitOn_cons (sep b : UInt8) (text : Text) :
    splitOn sep (b :: text) = if b = sep then [] :: splitOn sep text else consHead b (splitOn sep text) :=
  rfl

/-- The pieces written one after the other with the separator between them. -/
def joinWith (sep : Text) : List Text → Text
  | [] => []
  | [piece] => piece
  | piece :: next :: pieces => piece ++ sep ++ joinWith sep (next :: pieces)

/-- The line feed that ends a line. -/
abbrev lineFeed : UInt8 := 10

/-- Lines joined by line feeds, without a final one. -/
def unlines (lines : List Text) : Text := joinWith [lineFeed] lines

/-! ## §2 Known beginnings and ends -/

/-- The rest of a text after a given beginning, if the text begins so. -/
def stripPrefix? : Text → Text → Option Text
  | [], text => some text
  | _ :: _, [] => none
  | a :: beginning, b :: text => if a = b then stripPrefix? beginning text else none

/-- The part of a text before a given end, if the text ends so. -/
def stripSuffix? (ending text : Text) : Option Text :=
  (stripPrefix? ending.reverse text.reverse).map List.reverse

/-- Whether a text begins with the given bytes. -/
def beginsWith (beginning text : Text) : Bool := (stripPrefix? beginning text).isSome

/-- Whether a text ends with the given bytes. -/
def endsWith (ending text : Text) : Bool := (stripSuffix? ending text).isSome

/-- Take one occurrence of a beginning off a text that has it. -/
def trimPrefix (beginning text : Text) : Text := (stripPrefix? beginning text).getD text

/-- Take one occurrence of an end off a text that has it. -/
def trimSuffix (ending text : Text) : Text := (stripSuffix? ending text).getD text

/-- Take all bytes of a set off the start of a text. -/
def trimStartOf (set : Text) (text : Text) : Text := text.dropWhile set.contains

/-- Take all bytes of a set off the end of a text. -/
def trimEndOf (set : Text) (text : Text) : Text := (text.reverse.dropWhile set.contains).reverse

/-- Take all bytes of a set off both ends of a text. -/
def trimOf (set : Text) (text : Text) : Text := trimEndOf set (trimStartOf set text)

/-! ## §3 Searching -/

/-- The text before and the text after the first occurrence of a separator. -/
def cut (sep : Text) : Text → Option (Text × Text)
  | [] => if sep = [] then some ([], []) else none
  | b :: text =>
    match stripPrefix? sep (b :: text) with
    | some after => some ([], after)
    | none => (cut sep text).map fun (before, after) => (b :: before, after)

/-- The text after the last occurrence of a separator, if there is one. -/
def afterLast? (sep : Text) (text : Text) : Option Text :=
  (cut sep.reverse text.reverse).map fun (after, _) => after.reverse

/-- The pieces of a text between the occurrences of a separator text, found from left to right; `fuel` bounds
the number of separators. -/
def splitOnTextUpTo (sep : Text) : Nat → Text → List Text
  | 0, text => [text]
  | fuel + 1, text =>
    match cut sep text with
    | none => [text]
    | some (before, after) => before :: splitOnTextUpTo sep fuel after

/-- The pieces of a text between the occurrences of a non-empty separator text. -/
def splitOnText (sep text : Text) : List Text := splitOnTextUpTo sep text.length text

/-! ## §4 Line ends and numbers -/

/-- Every carriage return directly before a line feed is dropped. -/
def unixLines : Text → Text
  | [] => []
  | [b] => [b]
  | b :: c :: text =>
    if b = byte '\r' ∧ c = lineFeed then unixLines (c :: text) else b :: unixLines (c :: text)

/-- The decimal spelling of a natural number. -/
def decimal (n : Nat) : Text := (Nat.toDigits 10 n).map Char.toUInt8

/-- The decimal spelling of a natural number, filled up with zeros on the left to a given width. -/
def padded (width n : Nat) : Text :=
  let digits := decimal n
  List.replicate (width - digits.length) (byte '0') ++ digits

/-- The decimal spelling of an integer. -/
def decimalInt : Int → Text
  | .ofNat n => decimal n
  | .negSucc n => byte '-' :: decimal (n + 1)

/-- A text filled up with blanks on the right to a given width. -/
def padRight (width : Nat) (text : Text) : Text :=
  text ++ List.replicate (width - text.length) (byte ' ')

end Text

end HeaderReflection
