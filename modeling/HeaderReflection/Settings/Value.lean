import HeaderReflection.Calendar
import HeaderReflection.Number.Binary64
import HeaderReflection.Text.Case
import HeaderReflection.Text.Order

/-!
# Settings

The values that a config file gives to names: texts, numbers, truth values, dates, lists and tables of further
settings. Names are compared without regard to case, so they are kept in small letters. A later file overrides an
earlier one, table by table.

## Main definitions

- `Setting`: a value.
- `Setting.find?`: the value at a dotted name.
- `Setting.merge`: overriding.
- `Setting.lowered`: names in small letters.
- `Setting.plainText?`, `Setting.option`, `Setting.optionList`: a value where a text or a list of texts is asked for.
-/

namespace HeaderReflection

open Text (byte)

/-- What a value of the calendar tells. -/
inductive CalendarKind where
  /-- A date and a time with a time zone. -/
  | moment
  | date
  | time
  /-- A date and a time without a time zone. -/
  | dateTime
  deriving DecidableEq, Repr, Inhabited

/-- A value that may be the key of a table. -/
inductive SettingKey where
  | nothing
  | truth (value : Bool)
  | fraction (value : Binary64)
  | integer (value : Int)
  | text (value : Text)
  | moment (shown : Text)
  deriving DecidableEq, Repr, Inhabited

/-- A value in a config file. -/
inductive Setting where
  /-- A name without a value. -/
  | nothing
  | text (value : Text)
  | integer (value : Int)
  | fraction (value : Binary64)
  | truth (value : Bool)
  /-- A value of the calendar, as it is shown to the user. -/
  | calendar (kind : CalendarKind) (shown : Text)
  | list (items : List Setting)
  /-- Further settings by their names. -/
  | table (pairs : List (Text × Setting))
  /-- Further values, the keys of which are not all texts. -/
  | keyed (pairs : List (SettingKey × Setting))
  deriving Repr, Inhabited

namespace Setting

/-! ## §1 Names -/

/-- The value of a name in a list of names. -/
def get? (pairs : List (Text × Setting)) (name : Text) : Option Setting := (pairs.find? (·.1 = name)).map (·.2)

/-- Whether there is a value. -/
def isSet : Setting → Bool
  | .nothing => false
  | _ => true

/-- The value at a name with several parts. Any number of leading parts may be written as one name with dots; the
longest such name comes first. `width` is the number of parts to try. -/
def findFrom (pairs : List (Text × Setting)) : Nat → Nat → List Text → Option Setting
  | 0, _, _ => none
  | _, 0, _ => none
  | depth + 1, width + 1, path =>
    let name := Text.joinWith "." (path.take (width + 1))
    let found := match get? pairs name with
      | some value =>
        if path.length ≤ width + 1 then some value
        else match value with
          | .table inner => findFrom inner depth (path.length - (width + 1)) (path.drop (width + 1))
          | _ => none
      | none => none
    match found with
    | some value => if value.isSet then some value else findFrom pairs (depth + 1) width path
    | none => findFrom pairs (depth + 1) width path

/-- The value at a name with several parts; a name without a value counts as missing. -/
def find? (pairs : List (Text × Setting)) (path : List Text) : Option Setting :=
  findFrom pairs path.length path.length path

/-- Give a name another value. -/
def put (pairs : List (Text × Setting)) (name : Text) (value : Setting) : List (Text × Setting) :=
  if pairs.any (·.1 = name) then pairs.map fun (n, v) => if n = name then (n, value) else (n, v)
  else pairs ++ [(name, value)]

/-- Settings overridden by others. Tables are merged; a table is not overridden by anything else. `depth` bounds how
deep tables are nested. -/
def mergeUpTo : Nat → List (Text × Setting) → List (Text × Setting) → List (Text × Setting)
  | 0, pairs, _ => pairs
  | depth + 1, pairs, others =>
    others.foldl
      (fun pairs (name, value) =>
        match get? pairs name, value with
        | some (.table inner), .table new => put pairs name (.table (mergeUpTo depth inner new))
        | some (.table _), _ => pairs
        | _, _ => put pairs name value)
      pairs

/-- The depth of the tables in some settings. -/
def depthOf : List (Text × Setting) → Nat
  | [] => 0
  | (_, .table inner) :: pairs => max (depthOf inner + 1) (depthOf pairs)
  | (_, _) :: pairs => depthOf pairs

/-- Settings overridden by others. -/
def merge (pairs others : List (Text × Setting)) : List (Text × Setting) :=
  mergeUpTo (depthOf others + 1) pairs others

/-! ## §2 Small letters -/

/-- The text of a key where names are asked for. -/
def nameOfKey : SettingKey → Text
  | .nothing => []
  | .truth value => if value then "true" else "false"
  | .fraction value => value.positional
  | .integer value => Text.decimalInt value
  | .text value => value
  | .moment shown => shown

mutual

/-- A value with the names inside it in small letters. Keys become names. -/
def lowered : Setting → Setting
  | .table pairs => .table (loweredPairs pairs)
  | .keyed pairs => .table (loweredKeys pairs)
  | .list items => .list (loweredItems items)
  | value => value

/-- Some values with the names inside them in small letters. -/
def loweredItems : List Setting → List Setting
  | [] => []
  | item :: items => lowered item :: loweredItems items

/-- Names in small letters; a later value of a name counts. -/
def loweredPairs : List (Text × Setting) → List (Text × Setting)
  | [] => []
  | (name, value) :: pairs =>
    let rest := loweredPairs pairs
    if rest.any (·.1 = Text.lowered name) then rest else (Text.lowered name, lowered value) :: rest

/-- Keys as names in small letters. Below them only tables are looked at, lists stay as they are. -/
def loweredKeys : List (SettingKey × Setting) → List (Text × Setting)
  | [] => []
  | (key, value) :: pairs =>
    let rest := loweredKeys pairs
    let name := Text.lowered (nameOfKey key)
    if rest.any (·.1 = name) then rest else (name, loweredTables value) :: rest

/-- A value with the names of its tables in small letters, as far as no list is between them. -/
def loweredTables : Setting → Setting
  | .table pairs => .table (loweredNames pairs)
  | .keyed pairs => .table (loweredKeys pairs)
  | value => value

/-- Names in small letters, where lists stay as they are. -/
def loweredNames : List (Text × Setting) → List (Text × Setting)
  | [] => []
  | (name, value) :: pairs =>
    let rest := loweredNames pairs
    if rest.any (·.1 = Text.lowered name) then rest else (Text.lowered name, loweredTables value) :: rest

end

/-! ## §3 Texts -/

/-- The text of a scalar as a user would write it; lists and tables have none. -/
def plainText? : Setting → Option Text
  | .nothing => some []
  | .text value => some value
  | .integer value => some (Text.decimalInt value)
  | .fraction value => some value.positional
  | .truth value => some (if value then "true" else "false")
  | .calendar _ shown => some shown
  | .list _ | .table _ | .keyed _ => none

/-- The text of a scalar where an option asks for one: a truth value counts as a digit, a date does not count. -/
def optionText? : Setting → Option Text
  | .truth value => some (if value then "1" else "0")
  | .calendar _ _ => none
  | value => value.plainText?

/-- A key as it is shown to the user. -/
def shownKey : SettingKey → Text
  | .nothing => "<nil>"
  | .fraction value => value.shown
  | key => nameOfKey key

/-- The place of a kind of keys among all kinds. -/
def keyRank : SettingKey → Nat
  | .nothing => 0
  | .truth _ => 1
  | .fraction _ => 2
  | .integer _ => 3
  | .text _ => 4
  | .moment _ => 5

/-- Not after, for keys: by kind, and numbers by their size. -/
def keyLe (a b : SettingKey) : Bool :=
  match a, b with
  | .integer m, .integer n => m ≤ n
  | .truth m, .truth n => !m || n
  | a, b =>
    if keyRank a = keyRank b then Text.le (shownKey a) (shownKey b) else keyRank a < keyRank b

mutual

/-- A value as it is shown to the user. -/
def shown : Setting → Text
  | .nothing => "<nil>"
  | .text value => value
  | .integer value => Text.decimalInt value
  | .fraction value => value.shown
  | .truth value => if value then "true" else "false"
  | .calendar _ shown => shown
  | .list items => "[" ++ Text.joinWith " " (shownItems items) ++ "]"
  | .table pairs =>
    let sorted := sortBy (fun a b => Text.le a.1 b.1) (shownPairs pairs)
    "map[" ++ Text.joinWith " " (sorted.map fun (name, value) => name ++ ":" ++ value) ++ "]"
  | .keyed pairs =>
    let sorted := sortBy (fun a b => keyLe a.1 b.1) (shownKeyed pairs)
    "map[" ++ Text.joinWith " " (sorted.map fun (key, value) => shownKey key ++ ":" ++ value) ++ "]"

/-- Some values as they are shown to the user. -/
def shownItems : List Setting → List Text
  | [] => []
  | item :: items => shown item :: shownItems items

/-- Some names with their values as they are shown to the user. -/
def shownPairs : List (Text × Setting) → List (Text × Text)
  | [] => []
  | (name, value) :: pairs => (name, shown value) :: shownPairs pairs

/-- Some keys with their values as they are shown to the user. -/
def shownKeyed : List (SettingKey × Setting) → List (SettingKey × Text)
  | [] => []
  | (key, value) :: pairs => (key, shown value) :: shownKeyed pairs

end

/-- A value that cannot stand where a text is asked for. -/
structure NoText where
  /-- The name that has the value. -/
  name : Text
  value : Setting
  deriving Repr, Inhabited

/-- The name of a kind of values that are no texts. -/
def kindName : Setting → Text
  | .table _ => "map[string]interface \x7b\x7d"
  | .keyed _ => "map[interface \x7b\x7d]interface \x7b\x7d"
  | .calendar .moment _ => "time.Time"
  | .calendar .date _ => "toml.LocalDate"
  | .calendar .time _ => "toml.LocalTime"
  | .calendar .dateTime _ => "toml.LocalDateTime"
  | _ => "[]interface \x7b\x7d"

/-- The wording of a value that is no text. -/
def NoText.message (e : NoText) : Text :=
  "'" ++ e.name ++ "' expected type 'string', got unconvertible type '" ++ e.value.kindName ++ "', value: '" ++
    e.value.shown ++ "'"

/-- A value where an option asks for a text. -/
def option (name : Text) (value : Setting) : Except (List NoText) Text :=
  match value.optionText? with
  | some content => .ok content
  | none => .error [{ name, value }]

/-- The texts of list items, which are numbered for the user. All items that are no texts are told together. -/
def optionItems (name : Text) : Nat → List Setting → Except (List NoText) (List Text)
  | _, [] => .ok []
  | index, item :: items =>
    match option (name ++ "[" ++ Text.decimal index ++ "]") item, optionItems name (index + 1) items with
    | .ok content, .ok contents => .ok (content :: contents)
    | .ok _, .error faults => .error faults
    | .error faults, .ok _ => .error faults
    | .error first, .error faults => .error (first ++ faults)

/-- A value where an option asks for a list of texts: a text is cut at its commas, and any other value that is no list
is a list of one. -/
def optionList (name : Text) : Setting → Except (List NoText) (List Text)
  | .list items => optionItems name 0 items
  | .text value => .ok (if value = [] then [] else Text.splitOn (byte ',') value)
  | .table [] | .keyed [] => .ok []
  | value => optionItems name 0 [value]

end Setting

end HeaderReflection
