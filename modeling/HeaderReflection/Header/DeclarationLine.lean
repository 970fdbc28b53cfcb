import HeaderReflection.Text.Blank

/-!
# Declaration lines

What stands after a marker: the first line of a class, struct or external type, a field, a function or the signature
of a constructor.

## Main definitions

- `nameTokens`: the names in the first line of a type.
- `FieldLine.parse?`: a field's type, name and whether it has an initializer.
- `functionName?`: the name in front of a parameter list.
- `signature?`: a constructor's signature, the shortest balanced text.
-/

namespace HeaderReflection

/-! ## §1 Types -/

/-- Words in the first line of a type that name nothing. -/
def stopWords : List Text :=
  ["class", "struct", "public", "private", "protected", "virtual", "final", "AGEA_ar_external_define"]

/-- The bytes that separate names, besides blanks and single colons. -/
def isSeparator (b : UInt8) : Bool := (",\x7b\x7d;()\t\n" : Text).contains b

/-- A line with a space in the place of every separator. Colons are taken in pairs from left to right; a pair stays, a
single colon separates. -/
def spaced : Text → Text
  | [] => []
  | [b] => if b = Text.byte ':' ∨ isSeparator b then [Text.byte ' '] else [b]
  | b :: c :: rest =>
    if b = Text.byte ':' then
      if c = Text.byte ':' then b :: c :: spaced rest else Text.byte ' ' :: spaced (c :: rest)
    else (if isSeparator b then Text.byte ' ' else b) :: spaced (c :: rest)

/-- The names in the first line of a type; qualified names stay whole. -/
def nameTokens (line : Text) : List Text := (spaced line).fields.filter (!stopWords.contains ·)

/-! ## §2 Fields -/

/-- A field: its type, its name, and whether it has an initializer. -/
structure FieldLine where
  type : Text
  name : Text
  initialized : Bool
  deriving DecidableEq, Repr, Inhabited

namespace FieldLine

/-- A field's line without comment, blanks around it and final semicolon. -/
def body (line : Text) : Text :=
  let code := match Text.cut "//" line with
    | some (code, _) => code
    | none => line
  Text.trimSuffix ";" code.trim

/-- Whether a byte starts an initializer. -/
def startsInitializer (b : UInt8) : Bool := b = Text.byte '=' || b = Text.byte '{'

/-- Whether a field's line has an initializer: a brace, or something after an equals sign. -/
def isInitialized (line : Text) : Bool :=
  match (body line).dropWhile (!startsInitializer ·) with
  | [] => false
  | b :: value => b = Text.byte '{' || !Text.isBlank value

/-- Whether a byte is a pointer or reference sign. -/
def isSigil (b : UInt8) : Bool := b = Text.byte '*' || b = Text.byte '&'

/-- The type and the name of a field. Pointer and reference signs written against the name belong to the type. -/
def parse? (line : Text) : Option FieldLine :=
  let words := Text.fields ((body line).takeWhile (!startsInitializer ·))
  match words.reverse with
  | last :: typeWord :: typeWords =>
    match last.dropWhile isSigil with
    | [] => none
    | name => some {
        type := Text.joinWith " " (typeWord :: typeWords).reverse ++ last.takeWhile isSigil
        name
        initialized := isInitialized line }
  | _ => none

end FieldLine

/-! ## §3 Functions and constructors -/

/-- The word in front of the first parenthesis, without pointer and reference signs. -/
def functionName? (line : Text) : Option Text :=
  match Text.cut "(" line with
  | none => none
  | some (before, _) =>
    match before.fields.getLast? with
    | none => none
    | some word =>
      match word.dropWhile FieldLine.isSigil with
      | [] => none
      | name => some name

/-- How far a signature has been read: its bytes, latest first, the surplus of opening parentheses, and whether there
was one at all. -/
structure SignatureScan where
  taken : Text := []
  depth : Int := 0
  opened : Bool := false
  deriving DecidableEq, Repr

/-- Read a line of a signature, which ends at the parenthesis that balances it. -/
def SignatureScan.readLine (s : SignatureScan) : Text → Text ⊕ SignatureScan
  | [] => .inr s
  | b :: rest =>
    let taken := b :: s.taken
    if b = Text.byte '(' then readLine { taken, depth := s.depth + 1, opened := true } rest
    else if b = Text.byte ')' then
      if s.opened ∧ s.depth = 1 then .inl taken.reverse
      else readLine { s with taken, depth := s.depth - 1 } rest
    else readLine { s with taken } rest

/-- Read the lines of a signature after the first; `index` is the number of the next line. -/
def SignatureScan.readLines (s : SignatureScan) (index : Nat) : List Text → Option (Nat × Text)
  | [] => none
  | line :: lines =>
    match readLine { s with taken := Text.byte ' ' :: s.taken } line.trim with
    | .inl signature => some (index, signature)
    | .inr s => readLines s (index + 1) lines

/-- The signature that starts on the first of some lines: the text up to the parenthesis that balances it, lines
trimmed and joined by spaces, with the number of lines after the first on which it ends. -/
def signature? : List Text → Option (Nat × Text)
  | [] => none
  | line :: lines =>
    match SignatureScan.readLine {} line.trim with
    | .inl signature => some (0, signature)
    | .inr s => s.readLines 1 lines

end HeaderReflection
