import HeaderReflection.Yaml.Plain

/-!
# Entries of mappings

The keys of a mapping with their values. A mapping may take over the entries of others: the key `<<` names them, and
what the mapping has itself comes first. Following references could take very long, so the effort is counted and a
document that is mostly references is refused.

## Main definitions

- `Yaml.Effort`, `Yaml.Decode`: a step that decodes a node, with the effort so far.
- `Yaml.Entry`, `Yaml.entries`: the entries of a mapping.
- `Yaml.Document.bound`: how deep a document without circles can be followed.
-/

namespace HeaderReflection.Yaml

/-! ## §1 Effort -/

/-- How many nodes have been looked at, and how many of them through references. -/
structure Effort where
  nodes : Nat := 0
  referred : Nat := 0
  deriving DecidableEq, Repr, Inhabited

/-- Whether too many nodes have been looked at through references. In small documents 99 of 100 may be, in very large
ones 10 of 100. -/
def Effort.isExcessive (e : Effort) : Bool :=
  100 < e.referred && 1000 < e.nodes &&
    if e.nodes ≤ 400000 then 99 * e.nodes < 100 * e.referred
    else if 4000000 ≤ e.nodes then e.nodes < 10 * e.referred
    else e.nodes * (99 * 3600000 - 89 * (e.nodes - 400000)) < e.referred * 360000000

/-- A step that decodes a node, or fails. -/
abbrev Decode := StateT Effort Option

/-- Look at a node. -/
def Decode.visit (referred : Bool) : Decode Unit := do
  let e ← get
  let e : Effort := { nodes := e.nodes + 1, referred := if referred then e.referred + 1 else e.referred }
  if e.isExcessive then failure else set e

mutual

/-- The number of nodes in a node. -/
def Node.size : Node → Nat
  | .scalar .. | .reference .. => 1
  | .sequence items => Node.sizes items + 1
  | .mapping pairs => Node.pairSizes pairs + 1

/-- The number of nodes in some nodes. -/
def Node.sizes : List Node → Nat
  | [] => 0
  | node :: nodes => node.size + Node.sizes nodes

/-- The number of nodes in some pairs. -/
def Node.pairSizes : List (Node × Node) → Nat
  | [] => 0
  | (key, value) :: pairs => key.size + value.size + Node.pairSizes pairs

end

/-- How deep a document can be followed, unless a node is inside itself. -/
def Document.bound (d : Document) : Nat :=
  4 * ((d.root.map Node.size).getD 0 + Node.sizes (d.anchors.map (·.2))) + 16

/-! ## §2 Keys -/

/-- Whether two keys are written alike. All sequences are, and all mappings. -/
def sameKey : Node → Node → Bool
  | .scalar a _ _, .scalar b _ _ => a = b
  | .reference a _, .reference b _ => a = b
  | .sequence _, .sequence _ => true
  | .mapping _, .mapping _ => true
  | _, _ => false

/-- Whether no two keys are written alike. -/
def distinctKeys : List (Node × Node) → Bool
  | [] => true
  | (key, _) :: pairs => pairs.all (!sameKey key ·.1) && distinctKeys pairs

/-- Whether a key names mappings whose entries are taken over. -/
def isMergeKey : Node → Bool
  | .scalar content isPlain tag =>
    content = ("<<" : Text) && (tag = some "!!merge" || (tag = none && isPlain))
  | _ => false

/-- Whether a key is a text. -/
def isTextKey (d : Document) (key : Node) : Bool :=
  let ofScalar (content : Text) (isPlain : Bool) (tag : Option Text) : Bool :=
    match tag with
    | some tag => tag = ("!!str" : Text) || tag = ("!!merge" : Text)
    | none =>
      !isPlain || content = ("<<" : Text) ||
        match plainValue content with
        | .text _ => true
        | _ => false
  match key with
  | .scalar content isPlain tag => ofScalar content isPlain tag
  | .reference _ target =>
    match d.target? target with
    | some (.scalar content isPlain tag) => ofScalar content isPlain tag
    | _ => false
  | _ => false

/-- The value of a key. Where only texts can be keys, a key that stands for nothing is none. -/
def keyOf? (asText : Bool) : Node → Option (Option Value)
  | .scalar content isPlain tag =>
    if asText then (scalarText? content isPlain tag).map (·.map .text)
    else (scalarValue? content isPlain tag).map some
  | _ => none

/-- Look at a node, or at the one that a reference stands for, and tell whether there is a reference. -/
def Decode.follow (d : Document) (referred : Bool) (node : Node) : Decode (Node × Bool) := do
  Decode.visit referred
  match node with
  | .reference _ target =>
    Decode.visit true
    let some node := d.target? target | failure
    return (node, true)
  | _ => return (node, referred)

/-- Decode a key. -/
def decodeKey (d : Document) (asText referred : Bool) (key : Node) : Decode (Option Value) := do
  let (node, _) ← Decode.follow d referred key
  let some key := keyOf? asText node | failure
  return key

/-! ## §3 Entries -/

/-- An entry of a mapping. -/
structure Entry where
  key : Value
  node : Node
  /-- Whether it has been found through a reference. -/
  referred : Bool
  deriving Repr, Inhabited

/-- The entries that a mapping has itself. Where entries are taken over, keys that have been seen are passed over. -/
def ownEntries (d : Document) (asText referred : Bool) :
    Option (List Value) → List (Node × Node) → Decode (List Entry × Option (List Value))
  | seen, [] => return ([], seen)
  | seen, (key, node) :: pairs => do
    if isMergeKey key then ownEntries d asText referred seen pairs
    else
      match ← decodeKey d asText referred key with
      | none => ownEntries d asText referred seen pairs
      | some key =>
        match seen with
        | none =>
          let (entries, seen) ← ownEntries d asText referred none pairs
          return ({ key, node, referred } :: entries, seen)
        | some keys =>
          if keys.contains key then ownEntries d asText referred seen pairs
          else
            let (entries, seen) ← ownEntries d asText referred (some (key :: keys)) pairs
            return ({ key, node, referred } :: entries, seen)

/-- The keys of a mapping, which hide those that are taken over. -/
def hidingKeys (d : Document) (referred : Bool) : List (Node × Node) → Decode (List Value)
  | [] => return []
  | (key, _) :: pairs => do
    let some key ← decodeKey d false referred key | failure
    return key :: (← hidingKeys d referred pairs)

mutual

/-- The entries of a mapping, its own ones first, and the keys that have been seen. -/
def entriesUpTo (d : Document) (asText : Bool) :
    Nat → Bool → Option (List Value) → List (Node × Node) → Decode (List Entry × Option (List Value))
  | 0, _, _, _ => failure
  | fuel + 1, referred, seen, pairs => do
    if !distinctKeys pairs then failure
    let (own, seen) ← ownEntries d asText referred seen pairs
    match pairs.reverse.find? (isMergeKey ·.1) with
    | none => return (own, seen)
    | some (_, source) =>
      let keys ← match seen with
        | some keys => pure keys
        | none => hidingKeys d referred pairs
      let (more, keys) ← mergedEntries d asText fuel referred keys source
      return (own ++ more, seen.map fun _ => keys)

/-- The entries that are taken over from a mapping, or from several ones. -/
def mergedEntries (d : Document) (asText : Bool) :
    Nat → Bool → List Value → Node → Decode (List Entry × List Value)
  | 0, _, _, _ => failure
  | fuel + 1, referred, keys, source =>
    match source with
    | .sequence items => mergedFromAll d asText fuel referred keys items
    | _ => mergedFromOne d asText fuel referred keys source

/-- The entries that are taken over from several mappings; the first one comes first. -/
def mergedFromAll (d : Document) (asText : Bool) :
    Nat → Bool → List Value → List Node → Decode (List Entry × List Value)
  | 0, _, _, _ => failure
  | _, _, keys, [] => return ([], keys)
  | fuel + 1, referred, keys, source :: sources => do
    let (entries, keys) ← mergedFromOne d asText fuel referred keys source
    let (more, keys) ← mergedFromAll d asText fuel referred keys sources
    return (entries ++ more, keys)

/-- The entries that are taken over from a mapping or from a reference to one. -/
def mergedFromOne (d : Document) (asText : Bool) :
    Nat → Bool → List Value → Node → Decode (List Entry × List Value)
  | 0, _, _, _ => failure
  | fuel + 1, referred, keys, source => do
    match ← Decode.follow d referred source with
    | (.mapping pairs, referred) =>
      let (entries, seen) ← entriesUpTo d asText fuel referred (some keys) pairs
      return (entries, seen.getD [])
    | _ => failure

end

/-- The entries of a mapping. -/
def entries (d : Document) (asText referred : Bool) (pairs : List (Node × Node)) : Decode (List Entry) := do
  let (entries, _) ← entriesUpTo d asText d.bound referred none pairs
  return entries

end HeaderReflection.Yaml
