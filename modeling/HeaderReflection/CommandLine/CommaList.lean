import HeaderReflection.Text.Blank

/-!
# Comma separated lists

A list on one line with commas between its items. An item in double quotes may hold commas and line ends; a quote inside
it is written twice. Only the first line with something on it counts.

## Main definitions

- `CommaList.Fault`: what can be wrong with a list.
- `CommaList.parse`: the items of a list.
- `CommaList.render`: a list from its items.
- `CommaList.reread`: what is left of items that are written and read again.
-/

namespace HeaderReflection.CommaList

open Text (byte)

/-- A place in a list. Lines and columns count from one. -/
structure Place where
  /-- The line on which the list starts. -/
  start : Nat
  line : Nat
  column : Nat
  deriving DecidableEq, Repr, Inhabited

/-- The place some columns further. -/
def Place.skip (p : Place) (columns : Nat) : Place := { p with column := p.column + columns }

/-- The start of the next line. -/
def Place.nextLine (p : Place) : Place := { p with line := p.line + 1, column := 1 }

/-- A place as it is told to the user. -/
def Place.message (p : Place) : Text :=
  let here := "parse error on line " ++ Text.decimal p.line ++ ", column " ++ Text.decimal p.column ++ ": "
  if p.start = p.line then here else "record on line " ++ Text.decimal p.start ++ "; " ++ here

/-- What can be wrong with a list. -/
inductive Fault where
  /-- There is no line with something on it. -/
  | empty
  /-- A quote in an item without quotes. -/
  | bareQuote (place : Place)
  /-- Something behind the closing quote of an item, or no closing quote. -/
  | quote (place : Place)
  deriving DecidableEq, Repr, Inhabited

/-- The wording of a fault. -/
def Fault.message : Fault → Text
  | .empty => "EOF"
  | .bareQuote place => place.message ++ "bare \" in non-quoted-field"
  | .quote place => place.message ++ "extraneous or missing \" in quoted-field"

/-! ## §1 Reading -/

/-- The items from a place on; `item` holds the bytes of the current one, latest first, and `inQuotes` tells whether it
has an open quote. -/
def itemsFrom (p : Place) (inQuotes : Bool) (item : Text) : Text → Except Fault (List Text)
  | [] => if inQuotes then .error (.quote p) else .ok [item.reverse]
  | b :: rest =>
    if inQuotes then
      if b = byte '"' then
        match rest with
        | [] => .ok [item.reverse]
        | c :: after =>
          if c = byte '"' then itemsFrom (p.skip 2) true (c :: item) after
          else if c = byte ',' then
            match after with
            | d :: more =>
              if d = byte '"' then (itemsFrom (p.skip 3) true [] more).map (item.reverse :: ·)
              else (itemsFrom (p.skip 2) false [] (d :: more)).map (item.reverse :: ·)
            | [] => .ok [item.reverse, []]
          else if c = Text.lineFeed then .ok [item.reverse]
          else .error (.quote p)
      else if b = Text.lineFeed ∧ rest ≠ [] then itemsFrom p.nextLine true (b :: item) rest
      else itemsFrom (p.skip 1) true (b :: item) rest
    else if b = byte '"' then .error (.bareQuote p)
    else if b = Text.lineFeed then .ok [item.reverse]
    else if b = byte ',' then
      match rest with
      | c :: after =>
        if c = byte '"' then (itemsFrom (p.skip 2) true [] after).map (item.reverse :: ·)
        else (itemsFrom (p.skip 1) false [] (c :: after)).map (item.reverse :: ·)
      | [] => .ok [item.reverse, []]
    else itemsFrom (p.skip 1) false (b :: item) rest

/-- The items of a list. The empty text is the empty list. -/
def parse (text : Text) : Except Fault (List Text) :=
  if text = [] then .ok []
  else
    let lines := Text.trimSuffix "\r" text.unixLines
    let line := (lines.takeWhile (· = Text.lineFeed)).length + 1
    let p : Place := { start := line, line, column := 1 }
    match lines.dropWhile (· = Text.lineFeed) with
    | [] => .error .empty
    | b :: rest => if b = byte '"' then itemsFrom (p.skip 1) true [] rest else itemsFrom p false [] (b :: rest)

/-! ## §2 Writing -/

/-- Whether an item is written in quotes. -/
def needsQuotes (item : Text) : Bool :=
  item.any (fun b => b = byte ',' || b = byte '"' || b = byte '\r' || b = Text.lineFeed) ||
    item = "\\." || 0 < Text.blankWidth item

/-- An item of a list. -/
def renderItem (item : Text) : Text :=
  if needsQuotes item then "\"" ++ item.flatMap (fun b => if b = byte '"' then [b, b] else [b]) ++ "\"" else item

/-- A list from its items. -/
def render (items : List Text) : Text := Text.joinWith "," (items.map renderItem)

/-- What is left of items that are written and read again: a single empty item is lost, and line ends are made short. -/
def reread (items : List Text) : List Text := (parse (render items)).toOption.getD []

end HeaderReflection.CommaList
