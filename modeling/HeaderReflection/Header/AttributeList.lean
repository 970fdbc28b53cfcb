import HeaderReflection.Text.Blank

/-!
# Attribute lists

A marker carries a list of attributes in parentheses, separated by commas. The list may go on over several lines.
Taking it apart has two steps, each with its own view of quotes:

* *extraction* finds the parenthesis that closes the list; parentheses inside quotes do not count, and inside quotes a
  backslash takes the next byte of the line with it;
* *splitting* cuts the list at its commas; commas inside quotes, angle brackets or parentheses do not count.

## Main definitions

- `AttributeList.extract`: the attributes of a marker and the line on which its list ends.
- `AttributeList.split`: the attributes of the text between the parentheses.
- `unquote`, `keyValue?`, `valueList`: the parts of an attribute.
-/

namespace HeaderReflection

/-! ## §1 Single attributes -/

/-- A text without the blanks around it and without the quotes, spaces and tabs around what is left. -/
def unquote (text : Text) : Text := Text.trimOf "\" \t" text.trim

/-- The key and the value of an attribute, cut at its first equals sign. -/
def keyValue? (item : Text) : Option (Text × Text) :=
  (Text.cut "=" (unquote item)).map fun (key, value) => (unquote key, unquote value)

/-- The items of a value that is a comma separated list; empty items are left out. -/
def valueList (value : Text) : List Text :=
  ((Text.splitOn (Text.byte ',') value).map unquote).filter (· ≠ [])

namespace AttributeList

/-! ## §2 Splitting -/

/-- How far a list has been split. -/
structure Splitting where
  /-- The complete attributes, latest first. -/
  complete : List Text := []
  /-- The bytes of the current attribute, latest first. -/
  current : Text := []
  /-- The number of open angle brackets. -/
  angles : Nat := 0
  /-- The number of open parentheses. -/
  parens : Nat := 0
  /-- Whether a quote is open. -/
  quoted : Bool := false
  deriving DecidableEq, Repr

namespace Splitting

/-- End the current attribute; an attribute with nothing in it is left out. -/
def flush (s : Splitting) : Splitting :=
  let item := unquote s.current.reverse
  { s with
    current := []
    complete := if item = [] then s.complete else item :: s.complete }

/-- Add a byte to the current attribute. -/
def add (s : Splitting) (b : UInt8) : Splitting := { s with current := b :: s.current }

/-- Read a byte. A closing bracket that closes nothing is an ordinary byte. -/
def read (s : Splitting) (b : UInt8) : Splitting :=
  if s.quoted then
    if b = Text.byte '"' then { s.add b with quoted := false } else s.add b
  else if b = Text.byte '"' then { s.add b with quoted := true }
  else if b = Text.byte '<' then { s.add b with angles := s.angles + 1 }
  else if b = Text.byte '>' ∧ 0 < s.angles then { s.add b with angles := s.angles - 1 }
  else if b = Text.byte '(' then { s.add b with parens := s.parens + 1 }
  else if b = Text.byte ')' ∧ 0 < s.parens then { s.add b with parens := s.parens - 1 }
  else if b = Text.byte ',' ∧ s.angles = 0 ∧ s.parens = 0 then s.flush
  else s.add b

end Splitting

/-- The attributes of a list: the text between its outermost commas, without blanks and quotes around it. -/
def split (text : Text) : List Text :=
  (text.foldl Splitting.read {}).flush.complete.reverse

/-! ## §3 Extraction -/

/-- Why an attribute list cannot be extracted. -/
inductive Fault where
  /-- The marker's line has no parenthesis. -/
  | missing
  /-- No parenthesis closes the list. -/
  | unclosed
  deriving DecidableEq, Repr, Inhabited

/-- A list that has been opened and not yet closed. -/
structure Opened where
  /-- The bytes of the list so far, latest first. -/
  body : Text := []
  /-- The number of open parentheses. -/
  depth : Nat := 0
  /-- Whether a quote is open. -/
  quoted : Bool := false
  deriving DecidableEq, Repr

/-- Add a byte to the list. -/
def Opened.add (o : Opened) (b : UInt8) : Opened := { o with body := b :: o.body }

/-- Read the bytes of a line. The result is the text of the list if the line closes it, and else how the list stands at
the end of the line. -/
def scanLine (o : Opened) : Text → Text ⊕ Opened
  | [] => .inr o
  | b :: rest =>
    if o.quoted then
      if b = Text.byte '\\' then
        match rest with
        | [] => .inr (o.add b)
        | c :: rest => scanLine ((o.add b).add c) rest
      else if b = Text.byte '"' then scanLine { o.add b with quoted := false } rest
      else scanLine (o.add b) rest
    else if b = Text.byte '"' then scanLine { o.add b with quoted := true } rest
    else if b = Text.byte '(' then
      if o.depth = 0 then scanLine { o with depth := 1 } rest
      else scanLine { o.add b with depth := o.depth + 1 } rest
    else if b = Text.byte ')' then
      if o.depth ≤ 1 then .inl o.body.reverse
      else scanLine { o.add b with depth := o.depth - 1 } rest
    else scanLine (o.add b) rest

/-- Read the lines after the one that opens a list; `index` is the number of the next line. Lines are joined by
spaces. The result is the number of the line that closes the list and the text of the list. -/
def scanLines (o : Opened) (index : Nat) : List Text → Option (Nat × Text)
  | [] => none
  | line :: lines =>
    match scanLine (o.add (Text.byte ' ')) line with
    | .inl body => some (index, body)
    | .inr o => scanLines o (index + 1) lines

/-- The attributes of the marker on the first of some lines, with the number of lines after it on which the list
ends. -/
def extract : List Text → Except Fault (Nat × List Text)
  | [] => .error .missing
  | line :: lines =>
    match line.dropWhile (· ≠ Text.byte '(') with
    | [] => .error .missing
    | opening =>
      match scanLine {} opening with
      | .inl body => .ok (0, split body)
      | .inr o =>
        match scanLines o 1 lines with
        | some (index, body) => .ok (index, split body)
        | none => .error .unclosed

end AttributeList

end HeaderReflection
