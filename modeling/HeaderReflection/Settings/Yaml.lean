import HeaderReflection.Settings.Value
import HeaderReflection.Yaml.Entries

/-!
# Settings in YAML

The root of a document is a mapping from names to values. A mapping inside it is a table if all its keys are texts, and
otherwise a table with keys of other kinds.

## Main definitions

- `Yaml.setting`: the value of a node.
- `Yaml.settings?`: the settings in the text of a document.
-/

namespace HeaderReflection.Yaml

/-- A scalar as a setting. -/
def Value.setting : Value → Setting
  | .null => .nothing
  | .truth value => .truth value
  | .integer value => .integer value
  | .fraction value => .fraction value
  | .moment value => .calendar .moment value.shown
  | .text content => .text content

/-- A scalar as a key. -/
def Value.settingKey : Value → SettingKey
  | .null => .nothing
  | .truth value => .truth value
  | .integer value => .integer value
  | .fraction value => .fraction value
  | .moment value => .moment value.shown
  | .text content => .text content

/-- A table of entries; a later value of a key counts. -/
def tableOf (entries : List (Value × Setting)) : List (Text × Setting) :=
  entries.foldl (fun pairs (key, value) => Setting.put pairs (Setting.nameOfKey key.settingKey) value) []

/-- A table of entries with keys of any kind; a later value of a key counts. -/
def keyedOf (entries : List (Value × Setting)) : List (SettingKey × Setting) :=
  entries.foldl
    (fun pairs (key, value) => pairs.filter (·.1 ≠ key.settingKey) ++ [(key.settingKey, value)]) []

/-- The value of a node. A node that is inside itself has none. -/
def setting (d : Document) : Nat → Bool → Node → Decode Setting
  | 0, _, _ => failure
  | fuel + 1, referred, node => do
    match ← Decode.follow d referred node with
    | (.sequence items, referred) => return .list (← items.mapM (setting d fuel referred))
    | (.mapping pairs, referred) =>
      let asText := pairs.all (isTextKey d ·.1)
      let found ← entries d asText referred pairs
      let values ← found.mapM fun entry => return (entry.key, ← setting d fuel entry.referred entry.node)
      return if asText then .table (tableOf values) else .keyed (keyedOf values)
    | (.scalar content isPlain tag, _) =>
      let some value := scalarValue? content isPlain tag | failure
      return value.setting
    | (.reference .., _) => failure

/-- The settings in a document. A document that stands for nothing has none. -/
def settings (d : Document) : Decode (List (Text × Setting)) := do
  let some root := d.root | return []
  Decode.visit false
  match ← Decode.follow d false root with
  | (.mapping pairs, referred) =>
    let found ← entries d true referred pairs
    let values ← found.mapM fun entry => return (entry.key, ← setting d d.bound entry.referred entry.node)
    return tableOf values
  | (.scalar content isPlain tag, _) =>
    if scalarValue? content isPlain tag = some .null then return [] else failure
  | _ => failure

/-- The settings in the text of a document. -/
def settings? (text : Text) : Option (List (Text × Setting)) := do
  let d ← Document.parse? text
  let (found, _) ← settings d {}
  return found

end HeaderReflection.Yaml
