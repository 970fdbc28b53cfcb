import HeaderReflection.Settings.Value

/-!
# Settings in TOML

A line gives a name its value, and a line with a name in brackets opens a table for the lines below it; with two
brackets the table is one more item of a list. Values are texts in quotes, numbers, truth values, dates and times,
lists in brackets and tables in braces. Names may have several parts with dots between them. Nothing may be given
twice, and a table that is complete takes nothing more.

## Main definitions

- `Toml.basicText?`, `Toml.literalText?`: texts in quotes.
- `Toml.integer?`, `Toml.fraction?`, `Toml.calendar?`: numbers and dates.
- `Toml.value?`: a value and what follows it.
- `Toml.Outline`: what has been given so far.
- `Toml.settings?`: the settings in the text of a document.
-/

namespace HeaderReflection.Toml

open Text (byte isDigit)

/-- The single quote. -/
abbrev apostrophe : UInt8 := 39

/-! ## §1 Gaps -/

/-- Whether a byte is a space or a tab. -/
def isSpace (b : UInt8) : Bool := b = byte ' ' || b = byte '\t'

/-- A text without the spaces and tabs at its start. -/
def skipSpaces (text : Text) : Text := text.dropWhile isSpace

/-- The number of bytes of the character at the start of a text; none if it may not stand in a document. -/
def characterWidth? (text : Text) : Option Nat := do
  let (c, width) ← Text.codePoint? text
  guard (!(c < 9 || c = 11 || c = 12 || (14 ≤ c && c < 32) || c = 127))
  return width

/-- What follows a line end, which is a line feed with or without a carriage return before it. -/
def afterLineEnd? : Text → Option Text
  | 10 :: rest => some rest
  | 13 :: 10 :: rest => some rest
  | _ => none

/-- What follows a comment, from its line end on. -/
def afterComment? : Nat → Text → Option Text
  | 0, _ => none
  | fuel + 1, text =>
    match text with
    | [] => some []
    | b :: _ =>
      if b = 10 ∨ b = 13 then if (afterLineEnd? text).isSome then some text else none
      else (characterWidth? text).bind fun width => afterComment? fuel (text.drop width)

/-- A text without the comment at its start, if there is one. -/
def skipComment? (text : Text) : Option Text :=
  if Text.beginsWith "#" text then afterComment? text.length (text.drop 1) else some text

/-- A text without the spaces, line ends and comments at its start. -/
def skipGaps? : Nat → Text → Option Text
  | 0, text => some text
  | fuel + 1, text => do
    let text ← skipComment? (skipSpaces text)
    match text with
    | b :: _ => if b = 10 ∨ b = 13 then (afterLineEnd? text).bind (skipGaps? fuel) else return text
    | [] => return []

/-! ## §2 Texts in quotes -/

/-- The value of hexadecimal digits. -/
def hexValue? (digits : Text) : Option Nat :=
  digits.foldlM
    (fun n b =>
      if isDigit b then some (n * 16 + (b.toNat - 48))
      else if byte 'a' ≤ b ∧ b ≤ byte 'f' then some (n * 16 + (b.toNat - 87))
      else if byte 'A' ≤ b ∧ b ≤ byte 'F' then some (n * 16 + (b.toNat - 55))
      else none)
    0

/-- The code point of some hexadecimal digits at the start of a text. -/
def hexCode? (width : Nat) (text : Text) : Option Nat := do
  guard (width ≤ text.length)
  let code ← hexValue? (text.take width)
  guard (code ≤ 0x10FFFF && !(0xD800 ≤ code && code ≤ 0xDFFF))
  return code

/-- What a letter behind a backslash stands for. -/
def escapeValue? (letter : UInt8) : Option Nat :=
  let table : List (Char × Nat) :=
    [('"', 34), ('\\', 92), ('b', 8), ('f', 12), ('n', 10), ('r', 13), ('t', 9), ('e', 27)]
  (table.find? (byte ·.1 = letter)).map (·.2)

/-- The text of an escape, behind its backslash, and what follows it. -/
def escape? (text : Text) : Option (Text × Text) :=
  match text with
  | [] => none
  | letter :: rest =>
    let coded (width : Nat) : Option (Text × Text) :=
      (hexCode? width rest).map fun code => (Text.ofCodePoint code, rest.drop width)
    if letter = byte 'u' then coded 4
    else if letter = byte 'U' then coded 8
    else (escapeValue? letter).map fun code => (Text.ofCodePoint code, rest)

/-- The inside of a text on one line, up to its quote, and what follows it. Only double quotes know escapes. -/
def lineText? (quote : UInt8) : Nat → Text → Text → Option (Text × Text)
  | 0, _, _ => none
  | fuel + 1, taken, text =>
    match text with
    | [] => none
    | b :: rest =>
      if b = quote then some (taken, rest)
      else if b = 10 ∨ b = 13 then none
      else if b = byte '\\' ∧ quote = byte '"' then do
        let (content, rest) ← escape? rest
        lineText? quote fuel (taken ++ content) rest
      else do
        let width ← characterWidth? text
        lineText? quote fuel (taken ++ text.take width) (text.drop width)

/-- A text without the spaces and line ends at its start. -/
def skipLines : Nat → Text → Text
  | 0, text => text
  | fuel + 1, text =>
    let text := skipSpaces text
    match afterLineEnd? text with
    | some rest => skipLines fuel rest
    | none => text

/-- The inside of a text of several lines, up to three quotes, and what follows it. One or two more quotes belong to the
text. With double quotes there are escapes, and a backslash at a line end takes all white space behind it away. -/
def linesText? (quote : UInt8) : Nat → Text → Text → Option (Text × Text)
  | 0, _, _ => none
  | fuel + 1, taken, text =>
    match text with
    | [] => none
    | b :: rest =>
      let quotes := (text.takeWhile (· = quote)).length
      if 5 < quotes then none
      else if 3 ≤ quotes then some (taken ++ List.replicate (quotes - 3) quote, text.drop quotes)
      else if b = 13 then
        (afterLineEnd? text).bind fun after => linesText? quote fuel (taken ++ [13, 10]) after
      else if b = byte '\\' ∧ quote = byte '"' then
        if (afterLineEnd? (skipSpaces rest)).isSome then linesText? quote fuel taken (skipLines rest.length rest)
        else do
          let (content, rest) ← escape? rest
          linesText? quote fuel (taken ++ content) rest
      else do
        let width ← characterWidth? text
        linesText? quote fuel (taken ++ text.take width) (text.drop width)

/-- A text on one line in quotes, and what follows it. -/
def lineQuoted? (text : Text) : Option (Text × Text) := do
  let quote ← text.head?
  guard (quote = byte '"' || quote = apostrophe)
  lineText? quote text.length [] (text.drop 1)

/-- A text in quotes, and what follows it. A line end directly behind three quotes is dropped. -/
def quoted? (text : Text) : Option (Text × Text) := do
  let quote ← text.head?
  guard (quote = byte '"' || quote = apostrophe)
  if Text.beginsWith [quote, quote, quote] text then
    let inside := text.drop 3
    linesText? quote text.length [] ((afterLineEnd? inside).getD inside)
  else lineQuoted? text

/-! ## §3 Names -/

/-- Whether a byte may stand in a name without quotes. -/
def isBare (b : UInt8) : Bool :=
  isDigit b || (byte 'a' ≤ b && b ≤ byte 'z') || (byte 'A' ≤ b && b ≤ byte 'Z') || b = byte '_' || b = byte '-'

/-- One part of a name, and what follows it. -/
def part? (text : Text) : Option (Text × Text) :=
  let bare := text.takeWhile isBare
  if bare ≠ [] then some (bare, text.drop bare.length) else lineQuoted? text

/-- A name with its parts, and what follows it. -/
def name? : Nat → Text → Option (List Text × Text)
  | 0, _ => none
  | fuel + 1, text => do
    let (part, after) ← part? text
    match Text.stripPrefix? "." (skipSpaces after) with
    | some rest =>
      let (parts, after) ← name? fuel (skipSpaces rest)
      return (part :: parts, after)
    | none => return ([part], skipSpaces after)

/-! ## §4 Numbers -/

/-- The digits of a number without the underscores, each of which must stand between two digits. -/
def withoutUnderscores? (isDigit : UInt8 → Bool) (digits : Text) : Option Text :=
  let groups := Text.splitOn (byte '_') digits
  let inner := (groups.dropLast.all fun g => g.getLast?.any isDigit) && (groups.drop 1).all fun g => g.head?.any isDigit
  if inner then some groups.flatten else none

/-- Whether a byte is a digit of a base up to sixteen. -/
def isDigitOf (base : Nat) (b : UInt8) : Bool :=
  if isDigit b then b.toNat - 48 < base
  else base = 16 && ((byte 'a' ≤ b && b ≤ byte 'f') || (byte 'A' ≤ b && b ≤ byte 'F'))

/-- The value of digits of a base up to sixteen. -/
def digitsInBase (base : Nat) (digits : Text) : Nat :=
  digits.foldl
    (fun n b => n * base + (if isDigit b then b.toNat - 48 else if byte 'a' ≤ b then b.toNat - 87 else b.toNat - 55)) 0

/-- An integer in decimal digits, without zeros in front. -/
def integer? (text : Text) : Option Int := do
  let sign : Text := if Text.beginsWith "+" text || Text.beginsWith "-" text then text.take 1 else []
  let digits ← withoutUnderscores? isDigit (text.drop sign.length)
  guard (!(Text.beginsWith "0" digits && 1 < digits.length))
  Text.integer? (sign ++ digits)

/-- A number in another base, and what follows it. -/
def basedInteger? (base : Nat) (text : Text) : Option (Int × Text) := do
  let digits := text.takeWhile fun b => isDigitOf base b || b = byte '_'
  let plain ← withoutUnderscores? (isDigitOf base) digits
  guard (plain ≠ [])
  let value ← Text.word? (digitsInBase base plain)
  return (value, text.drop digits.length)

/-- A number with a fraction or an exponent, in its exact form: digits on both sides of the point, no zeros in front. -/
def fraction? (text : Text) : Option Binary64 := do
  let sign : Text := if Text.beginsWith "+" text || Text.beginsWith "-" text then text.take 1 else []
  let unsigned := text.drop sign.length
  if unsigned = ("nan" : Text) then return .notNumber
  else if unsigned = ("inf" : Text) then return .infinite (sign = ("-" : Text))
  else do
    let plain ← withoutUnderscores? isDigit unsigned
    let whole := plain.takeWhile isDigit
    guard (whole ≠ [] && !(Text.beginsWith "0" whole && 1 < whole.length))
    let rest := plain.drop whole.length
    let places := if Text.beginsWith "." rest then (rest.drop 1).takeWhile isDigit else []
    guard (!(Text.beginsWith "." rest && places = []))
    let exponent := if Text.beginsWith "." rest then rest.drop (places.length + 1) else rest
    match exponent with
    | [] => Binary64.ofSpelling? (sign ++ plain)
    | mark :: power =>
      let digits := if Text.beginsWith "+" power || Text.beginsWith "-" power then power.drop 1 else power
      guard ((mark = byte 'e' || mark = byte 'E') && digits ≠ [] && digits.all isDigit)
      Binary64.ofSpelling? (sign ++ plain)

/-- Whether a byte may stand in a number. -/
def isNumeric (b : UInt8) : Bool :=
  isDigit b || b = byte '+' || b = byte '-' || b = byte '_' || b = byte '.' || b = byte 'e' || b = byte 'E'

/-- A number, and what follows it. A zero in front of a digit stands alone. -/
def number? (text : Text) : Option (Setting × Text) :=
  match text with
  | 48 :: b :: c :: rest =>
    let based (base : Nat) : Option (Setting × Text) :=
      (basedInteger? base (c :: rest)).map fun (value, rest) => (.integer value, rest)
    if b = byte 'x' then based 16
    else if b = byte 'o' then based 8
    else if b = byte 'b' then based 2
    else if b = byte '.' ∨ b = byte 'e' ∨ b = byte 'E' then plainNumber?
    else some (.integer 0, b :: c :: rest)
  | _ => plainNumber?
where
  /-- A number in decimal digits, and what follows it. -/
  plainNumber? : Option (Setting × Text) := do
    let word := text.takeWhile isNumeric
    let rest := text.drop word.length
    if Text.beginsWith "inf" rest || Text.beginsWith "nan" rest then
      let value ← fraction? (word ++ rest.take 3)
      return (.fraction value, rest.drop 3)
    else if word.any fun b => b = byte '.' || b = byte 'e' || b = byte 'E' then
      let value ← fraction? word
      return (.fraction value, rest)
    else
      let value ← integer? word
      return (.integer value, rest)

/-! ## §5 Dates and times -/

/-- The number of two digits at a place of a text. -/
def twoDigits? (text : Text) (place : Nat) : Option Nat :=
  let digits := (text.drop place).take 2
  if digits.length = 2 then Text.natural? digits else none

/-- A date. -/
def date? (text : Text) : Option Date := do
  guard (text.length = 10 && text[4]? = some (byte '-') && text[7]? = some (byte '-'))
  let date : Date :=
    { year := ← Text.natural? (text.take 4), month := ← twoDigits? text 5, day := ← twoDigits? text 8 }
  guard date.isValid
  return date

/-- A time of day with the digits of its fraction, and what follows it. -/
def timeOfDay? (text : Text) : Option (TimeOfDay × Text × Text) := do
  guard (8 ≤ text.length && text[2]? = some (byte ':') && text[5]? = some (byte ':'))
  let hour ← twoDigits? text 0
  let minute ← twoDigits? text 3
  let second ← twoDigits? text 6
  guard (hour ≤ 23 && minute ≤ 59 && second ≤ 60)
  let rest := text.drop 8
  if Text.beginsWith "." rest then
    let part := (rest.drop 1).takeWhile isDigit
    guard (part ≠ [])
    let time : TimeOfDay := { hour, minute, second, nanosecond := TimeOfDay.nanosecondsOf part }
    return (time, part.take 9, rest.drop (part.length + 1))
  else return ({ hour, minute, second }, [], rest)

/-- A time of day with the digits of its fraction, as it is shown. -/
def shownTime (time : TimeOfDay) (part : Text) : Text :=
  time.clock ++ (if part = [] then [] else byte '.' :: part)

/-- The minutes of a time zone. -/
def zone? (text : Text) : Option Int :=
  match text with
  | [b] => if b = byte 'Z' ∨ b = byte 'z' then some 0 else none
  | [s, _, _, c, _, _] => do
    let hours ← twoDigits? text 1
    let minutes ← twoDigits? text 4
    guard (c = byte ':' && hours ≤ 23 && minutes ≤ 59)
    let offset : Int := hours * 60 + minutes
    if s = byte '+' then return offset else if s = byte '-' then return -offset else none
  | _ => none

/-- A date and a time, with what follows them. -/
def dateTime? (text : Text) : Option (Date × TimeOfDay × Text × Text) := do
  let date ← date? (text.take 10)
  let mark ← text[10]?
  guard (mark = byte 'T' || mark = byte 't' || mark = byte ' ')
  let (time, part, rest) ← timeOfDay? (text.drop 11)
  return (date, time, part, rest)

/-- The length of a date or a time at the start of a text. A space belongs to it if a digit follows. -/
def calendarLength : Nat → Bool → Nat → Text → Nat
  | 0, _, length, _ => length
  | _ + 1, _, length, [] => length
  | fuel + 1, hasSpace, length, b :: rest =>
    if isDigit b || "-Tt:.+Zz".toList.any (byte · = b) then calendarLength fuel hasSpace (length + 1) rest
    else if b = byte ' ' ∧ !hasSpace ∧ rest.head?.any isDigit then
      let width := min 2 rest.length
      calendarLength fuel true (length + 1 + width) (rest.drop width)
    else length

/-- A date, a time, or both, with or without a time zone. -/
def calendarValue? (word : Text) : Option Setting :=
  let has (marks : String) : Bool := marks.toList.any fun c => word.contains (byte c)
  let hasTime := has "Tt:. "
  let hasZone := has "+Zz" || (word.drop 8).contains (byte '-')
  if !hasTime then (date? word).map fun date => .calendar .date date.shown
  else if !has "-" then do
    let (time, part, rest) ← timeOfDay? word
    guard (rest = [])
    return .calendar .time (shownTime time part)
  else do
    let (date, time, part, rest) ← dateTime? word
    if hasZone then
      let moment : Moment := { date, time, offset := ← zone? rest }
      return .calendar .moment moment.carried.shown
    else
      guard (rest = [])
      return .calendar .dateTime (date.shown ++ "T" ++ shownTime time part)

/-- A date or a time, and what follows it. -/
def calendar? (text : Text) : Option (Setting × Text) := do
  let length := calendarLength text.length false 0 text
  let value ← calendarValue? (text.take length)
  return (value, text.drop length)

/-- Whether a text starts like a date or a time. -/
def startsCalendar (text : Text) : Bool :=
  let digits := (text.takeWhile isDigit).length
  2 < text.length && ((digits = 2 && text[2]? = some (byte ':')) || (digits = 4 && text[4]? = some (byte '-')))

/-! ## §6 What has been given -/

/-- What a name has been given. -/
inductive NameKind where
  | value
  | table
  | tableList
  deriving DecidableEq, Repr, Inhabited

/-- A name that has been given something. -/
structure Mark where
  kind : NameKind
  /-- Whether nothing more may be added to it. -/
  closed : Bool
  /-- Whether it comes from a name in front of a value. -/
  fromValue : Bool
  deriving DecidableEq, Repr, Inhabited

/-- The names that have been given something, by all their parts, and the open table. -/
structure Outline where
  marks : List (List Text × Mark) := []
  opened : List Text := []
  deriving Repr, Inhabited

namespace Outline

/-- What a name has been given. -/
def get? (o : Outline) (path : List Text) : Option Mark := (o.marks.find? (·.1 = path)).map (·.2)

/-- Give a name something. -/
def put (o : Outline) (path : List Text) (mark : Mark) : Outline :=
  { o with marks := (path, mark) :: o.marks.filter (·.1 ≠ path) }

/-- Whether a name is inside another one. -/
def isInside (outer path : List Text) : Bool := outer.isPrefixOf path && outer ≠ path

/-- Close the tables that names in front of values have made in the open table. -/
def close (o : Outline) : Outline :=
  { o with marks := o.marks.map fun (path, mark) =>
      if isInside o.opened path && mark.fromValue then (path, { mark with closed := true, fromValue := false })
      else (path, mark) }

/-- Note the tables around a table that is opened. -/
def openParents? (o : Outline) : List Text → List Text → Option Outline
  | _, [] => some o
  | _, [_] => some o
  | outer, part :: parts =>
    let path := outer ++ [part]
    match o.get? path with
    | none => (o.put path { kind := .table, closed := false, fromValue := false }).openParents? path parts
    | some mark => if mark.kind = .value then none else o.openParents? path parts

/-- Open a table. It may not have been opened before. -/
def openTable? (o : Outline) (path : List Text) : Option Outline := do
  let o ← o.close.openParents? [] path
  match o.get? path with
  | some mark => guard (mark.kind = .table && !mark.closed)
  | none => pure ()
  return { o.put path { kind := .table, closed := true, fromValue := false } with opened := path }

/-- Open one more table of a list. What the last one was given does not count for it. -/
def openItem? (o : Outline) (path : List Text) : Option Outline := do
  let o ← o.close.openParents? [] path
  match o.get? path with
  | some mark => guard (mark.kind = .tableList)
  | none => pure ()
  let o := { o with marks := o.marks.filter fun (p, _) => !isInside path p }
  return { o.put path { kind := .tableList, closed := true, fromValue := false } with opened := path }

/-- Note a value in the open table. -/
def giveFrom? (o : Outline) : List Text → List Text → Option Outline
  | _, [] => none
  | outer, [part] =>
    let path := outer ++ [part]
    if (o.get? path).isSome then none else some (o.put path { kind := .value, closed := false, fromValue := true })
  | outer, part :: parts =>
    let path := outer ++ [part]
    match o.get? path with
    | none => (o.put path { kind := .table, closed := false, fromValue := true }).giveFrom? path parts
    | some mark => if mark.kind = .table ∧ !mark.closed then o.giveFrom? path parts else none

/-- Note a value in the open table. -/
def give? (o : Outline) (path : List Text) : Option Outline := o.giveFrom? o.opened path

end Outline

/-- Change the value at a name with several parts. On the way, a list of tables stands for its last one. -/
def alter? (change : Option Setting → Option Setting) :
    List Text → List (Text × Setting) → Option (List (Text × Setting))
  | [], _ => none
  | [name], pairs => (change (Setting.get? pairs name)).map (Setting.put pairs name)
  | name :: path, pairs =>
    match Setting.get? pairs name with
    | none => (alter? change path []).map fun inner => Setting.put pairs name (.table inner)
    | some (.table inner) => (alter? change path inner).map fun inner => Setting.put pairs name (.table inner)
    | some (.list items) =>
      match items.getLast? with
      | some (.table inner) =>
        (alter? change path inner).map fun inner => Setting.put pairs name (.list (items.dropLast ++ [.table inner]))
      | _ => none
    | some _ => none

/-! ## §7 Values -/

mutual

/-- A value, and what follows it. -/
def value? : Nat → Text → Option (Setting × Text)
  | 0, _ => none
  | fuel + 1, text =>
    match text with
    | [] => none
    | b :: rest =>
      if b = byte '"' ∨ b = apostrophe then (quoted? text).map fun (content, rest) => (.text content, rest)
      else if b = byte 't' then (Text.stripPrefix? "true" text).map fun rest => (.truth true, rest)
      else if b = byte 'f' then (Text.stripPrefix? "false" text).map fun rest => (.truth false, rest)
      else if b = byte '[' then items? [] fuel rest
      else if b = byte '{' then
        match Text.stripPrefix? "\x7d" (skipSpaces rest) with
        | some rest => some (.table [], rest)
        | none => pairs? {} [] fuel (skipSpaces rest)
      else if startsCalendar text then calendar? text
      else number? text

/-- The items of a list up to its closing bracket, those that have been taken latest first. -/
def items? (items : List Setting) : Nat → Text → Option (Setting × Text)
  | 0, _ => none
  | fuel + 1, text => do
    let text ← skipGaps? text.length text
    match Text.stripPrefix? "]" text with
    | some rest => return (.list items.reverse, rest)
    | none =>
      let (item, rest) ← value? fuel text
      let rest ← skipGaps? rest.length rest
      match rest with
      | b :: after =>
        if b = byte ',' then items? (item :: items) fuel after
        else if b = byte ']' then return (.list (item :: items).reverse, after)
        else none
      | [] => none

/-- The pairs of a table up to its closing brace. -/
def pairs? (o : Outline) (pairs : List (Text × Setting)) : Nat → Text → Option (Setting × Text)
  | 0, _ => none
  | fuel + 1, text => do
    let (path, rest) ← name? text.length text
    let rest ← Text.stripPrefix? "=" rest
    let (value, rest) ← value? fuel (skipSpaces rest)
    let o ← o.give? path
    let pairs ← alter? (fun _ => some value) path pairs
    match skipSpaces rest with
    | b :: after =>
      if b = byte ',' then pairs? o pairs fuel (skipSpaces after)
      else if b = byte '}' then return (.table pairs, after)
      else none
    | [] => none

end

/-! ## §8 Documents -/

/-- A document that is being read. -/
structure Reading where
  outline : Outline := {}
  settings : List (Text × Setting) := []
  deriving Repr, Inhabited

namespace Reading

/-- Read a line that gives a name its value, and tell what follows. -/
def assignment? (r : Reading) (text : Text) : Option (Reading × Text) := do
  let (path, rest) ← name? text.length text
  let rest ← Text.stripPrefix? "=" rest
  let (value, rest) ← value? (2 * rest.length + 2) (skipSpaces rest)
  let outline ← r.outline.give? path
  let settings ← alter? (fun _ => some value) (outline.opened ++ path) r.settings
  return ({ outline, settings }, rest)

/-- The value of a table that is opened. -/
def openedTable : Option Setting → Option Setting
  | none => some (.table [])
  | some value => some value

/-- The value of a list of tables with one more of them. -/
def openedItem : Option Setting → Option Setting
  | none => some (.list [.table []])
  | some (.list items) => some (.list (items ++ [.table []]))
  | some _ => none

/-- Read a line that opens a table, and tell what follows. -/
def header? (r : Reading) (text : Text) : Option (Reading × Text) :=
  match Text.stripPrefix? "[[" text with
  | some rest => do
    let (path, rest) ← name? rest.length (skipSpaces rest)
    let rest ← Text.stripPrefix? "]]" rest
    let outline ← r.outline.openItem? path
    return ({ outline, settings := ← alter? openedItem path r.settings }, rest)
  | none => do
    let (path, rest) ← name? text.length (skipSpaces (text.drop 1))
    let rest ← Text.stripPrefix? "]" rest
    let outline ← r.outline.openTable? path
    return ({ outline, settings := ← alter? openedTable path r.settings }, rest)

/-- Read the lines of a document. -/
def lines? : Nat → Reading → Text → Option Reading
  | 0, _, _ => none
  | fuel + 1, r, text => do
    let text ← skipGaps? text.length text
    match text with
    | [] => return r
    | b :: _ =>
      let (r, rest) ← if b = byte '[' then r.header? text else r.assignment? text
      let rest ← skipComment? (skipSpaces rest)
      match rest with
      | [] => return r
      | _ => (afterLineEnd? rest).bind (lines? fuel r)

end Reading

/-- The settings in the text of a document. -/
def settings? (text : Text) : Option (List (Text × Setting)) :=
  (Reading.lines? (text.length + 1) {} text).map Reading.settings

end HeaderReflection.Toml
