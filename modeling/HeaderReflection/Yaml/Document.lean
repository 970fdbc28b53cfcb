import HeaderReflection.Yaml.Token

/-!
# Documents

The first document of a stream as a tree of scalars, sequences and mappings. A node may have an anchor, and a reference
stands for the node that had the anchor of its name last. Nodes with anchors are kept beside the tree, so a node may
even refer to itself.

## Main definitions

- `Yaml.Node`, `Yaml.Document`: the tree, and the nodes that references stand for.
- `Yaml.Reading`, `Yaml.Parse`: a document that is being read.
- `Yaml.Parse.node`: a node with all that belongs to it.
- `Yaml.Document.parse?`: the first document of a text.
-/

namespace HeaderReflection.Yaml

/-- A node of a document. -/
inductive Node where
  /-- A scalar. `isPlain` tells that it has no quotes, `tag` is the type that is written in front of it. -/
  | scalar (content : Text) (isPlain : Bool) (tag : Option Text)
  | sequence (items : List Node)
  | mapping (pairs : List (Node × Node))
  /-- A name that stands for another node, which is given by its number. -/
  | reference (name : Text) (target : Nat)
  deriving Repr, Inhabited

/-- The node where nothing is written. -/
def Node.empty : Node := .scalar [] true none

/-- A document. -/
structure Document where
  /-- The root; none if nothing is written. -/
  root : Option Node
  /-- The nodes with anchors, by their numbers. -/
  anchors : List (Nat × Node) := []
  deriving Repr, Inhabited

/-- The node of a number. -/
def Document.target? (d : Document) (number : Nat) : Option Node := (d.anchors.find? (·.1 = number)).map (·.2)

/-! ## §1 Reading -/

/-- A document that is being read. -/
structure Reading where
  lexer : Lexer
  /-- What the handles of tags stand for. -/
  handles : List (Text × Text) := []
  /-- The names of anchors with the numbers of their nodes, latest first. -/
  names : List (Text × Nat) := []
  /-- The nodes with anchors that are complete. -/
  anchors : List (Nat × Node) := []
  deriving Repr, Inhabited

/-- A step that reads a part of a document, or fails. -/
abbrev Parse := StateT Reading Option

namespace Parse

/-- The next token. -/
def peek : Parse Token := fun r => (r.lexer.peek?).map fun (token, lexer) => (token, { r with lexer })

/-- Take the next token. -/
def drop : Parse Unit := modify fun r => { r with lexer := r.lexer.drop }

/-- What is written in front of a node. -/
structure Properties where
  anchor : Option Text := none
  /-- The handle and the rest of a tag. -/
  tag : Option (Text × Text) := none
  deriving DecidableEq, Repr, Inhabited

/-- Read an anchor, if there is one. -/
def anchor? : Parse (Option Text) := do
  match ← peek with
  | .anchor name =>
    drop
    return some name
  | _ => return none

/-- Read a tag, if there is one. -/
def tag? : Parse (Option (Text × Text)) := do
  match ← peek with
  | .tag handle suffix =>
    drop
    return some (handle, suffix)
  | _ => return none

/-- Read an anchor and a tag, in either order. -/
def properties : Parse Properties := do
  match ← anchor? with
  | some name => return { anchor := some name, tag := ← tag? }
  | none =>
    match ← tag? with
    | some tag => return { anchor := ← anchor?, tag := some tag }
    | none => return {}

/-- The beginning of the tags that every document knows. -/
def commonTags : Text := "tag:yaml.org,2002:"

/-- The short form of a tag. -/
def shortTag (tag : Text) : Text :=
  match Text.stripPrefix? commonTags tag with
  | some name => "!!" ++ name
  | none => tag

/-- The tag that a handle and a suffix stand for. An exclamation mark alone says nothing. -/
def expandTag (handle suffix : Text) : Parse (Option Text) := do
  let tag ← if handle = [] then pure suffix
    else do
      let some (_, expansion) := (← get).handles.find? (·.1 = handle) | failure
      pure (expansion ++ suffix)
  if tag = [] then failure
  else return (if tag = ("!" : Text) then none else some (shortTag tag))

/-- Give a node with an anchor its number. -/
def name (anchor : Option Text) : Parse (Option Nat) := do
  match anchor with
  | none => return none
  | some name =>
    let number := (← get).names.length
    modify fun r => { r with names := (name, number) :: r.names }
    return some number

/-- Keep a node that has a number. -/
def keep (number : Option Nat) (node : Node) : Parse Node := do
  match number with
  | none => return node
  | some number =>
    modify fun r => { r with anchors := (number, node) :: r.anchors }
    return node

/-- Read a name that stands for a node. -/
def reference (name : Text) : Parse Node := do
  drop
  let some (_, number) := (← get).names.find? (·.1 = name) | failure
  return .reference name number

/-! ## §2 Nodes -/

mutual

/-- Read a node. `inBlock` tells that it may be a block collection, `dashes` that it may be a sequence with no
indentation of its own. -/
def node (inBlock dashes : Bool) : Nat → Parse Node
  | 0 => failure
  | fuel + 1 => do
    match ← peek with
    | .reference name => reference name
    | _ =>
      let props ← properties
      let tag ← match props.tag with
        | none => pure none
        | some (handle, suffix) => expandTag handle suffix
      let token ← peek
      if token = .dash ∧ dashes then
        let number ← name props.anchor
        keep number (.sequence (← looseItems fuel))
      else match token with
        | .scalar content isPlain =>
          drop
          keep (← name props.anchor) (.scalar content isPlain tag)
        | .openBracket =>
          drop
          let number ← name props.anchor
          keep number (.sequence (← flowItems true fuel))
        | .openBrace =>
          drop
          let number ← name props.anchor
          keep number (.mapping (← flowPairs true fuel))
        | _ =>
          if token = .sequenceStart ∧ inBlock then
            drop
            let number ← name props.anchor
            keep number (.sequence (← blockItems fuel))
          else if token = .mappingStart ∧ inBlock then
            drop
            let number ← name props.anchor
            keep number (.mapping (← blockPairs fuel))
          else if props.anchor.isSome ∨ props.tag.isSome then
            keep (← name props.anchor) (.scalar [] true tag)
          else failure

/-- Read a node, unless one of the given tokens follows: then nothing is written. -/
def nodeUnless (inBlock dashes : Bool) (stops : List Token) : Nat → Parse Node
  | 0 => failure
  | fuel + 1 => do
    if stops.contains (← peek) then return .empty else node inBlock dashes fuel

/-- Read a value behind its colon, if there is one. -/
def valueOf (inBlock : Bool) (stops : List Token) : Nat → Parse Node
  | 0 => failure
  | fuel + 1 => do
    if (← peek) = .value then
      drop
      nodeUnless inBlock inBlock stops fuel
    else return .empty

/-- Read the items of a block sequence. -/
def blockItems : Nat → Parse (List Node)
  | 0 => failure
  | fuel + 1 => do
    match ← peek with
    | .dash =>
      drop
      let item ← nodeUnless true false [.dash, .blockEnd] fuel
      return item :: (← blockItems fuel)
    | .blockEnd =>
      drop
      return []
    | _ => failure

/-- Read the items of a sequence that has no indentation of its own. -/
def looseItems : Nat → Parse (List Node)
  | 0 => failure
  | fuel + 1 => do
    if (← peek) = .dash then
      drop
      let item ← nodeUnless true false [.dash, .key, .value, .blockEnd] fuel
      return item :: (← looseItems fuel)
    else return []

/-- Read the pairs of a block mapping. -/
def blockPairs : Nat → Parse (List (Node × Node))
  | 0 => failure
  | fuel + 1 => do
    match ← peek with
    | .key =>
      drop
      let stops := [.key, .value, .blockEnd]
      let key ← nodeUnless true true stops fuel
      let value ← valueOf true stops fuel
      return (key, value) :: (← blockPairs fuel)
    | .blockEnd =>
      drop
      return []
    | _ => failure

/-- Read the items between brackets. A key among them is a mapping with one pair. -/
def flowItems (isFirst : Bool) : Nat → Parse (List Node)
  | 0 => failure
  | fuel + 1 => do
    if (← peek) = .closeBracket then
      drop
      return []
    else
      if !isFirst then
        if (← peek) = .comma then drop else failure
      match ← peek with
      | .closeBracket =>
        drop
        return []
      | .key =>
        drop
        let stops := [.value, .comma, .closeBracket]
        let key ←
          if stops.contains (← peek) then do
            drop
            pure Node.empty
          else node false false fuel
        let value ← valueOf false [.comma, .closeBracket] fuel
        return .mapping [(key, value)] :: (← flowItems false fuel)
      | _ =>
        let item ← node false false fuel
        return item :: (← flowItems false fuel)

/-- Read the pairs between braces. What is no key has no value. -/
def flowPairs (isFirst : Bool) : Nat → Parse (List (Node × Node))
  | 0 => failure
  | fuel + 1 => do
    if (← peek) = .closeBrace then
      drop
      return []
    else
      if !isFirst then
        if (← peek) = .comma then drop else failure
      match ← peek with
      | .closeBrace =>
        drop
        return []
      | .key =>
        drop
        let key ← nodeUnless false false [.value, .comma, .closeBrace] fuel
        let value ← valueOf false [.comma, .closeBrace] fuel
        return (key, value) :: (← flowPairs false fuel)
      | _ =>
        let key ← node false false fuel
        let _ ← peek
        return (key, .empty) :: (← flowPairs false fuel)

end

/-! ## §3 Documents -/

/-- The handles that every document knows. -/
def commonHandles : List (Text × Text) := [("!", "!"), ("!!", commonTags)]

/-- Read the directives in front of a document. There may be one version, which is 1.1, and one expansion of each
handle. -/
def directives (hasVersion : Bool) : Nat → Parse Unit
  | 0 => failure
  | fuel + 1 => do
    match ← peek with
    | .directive (.version major minor) =>
      if hasVersion ∨ major ≠ 1 ∨ minor ≠ 1 then failure
      else
        drop
        directives true fuel
    | .directive (.tag handle expansion) =>
      if (← get).handles.any (·.1 = handle) then failure
      else
        modify fun r => { r with handles := r.handles ++ [(handle, expansion)] }
        drop
        directives hasVersion fuel
    | _ => modify fun r => { r with handles := r.handles ++ commonHandles }

/-- Whether a token cannot belong to the content of a document. -/
def isOutside : Token → Bool
  | .directive _ | .documentStart | .documentEnd | .streamEnd => true
  | _ => false

/-- Read the first document. -/
def document (fuel : Nat) : Parse (Option Node) := do
  let root ← match ← peek with
    | .streamEnd => return none
    | .directive _ | .documentStart =>
      directives false fuel
      if (← peek) = .documentStart then drop else failure
      if isOutside (← peek) then pure Node.empty else node true false fuel
    | _ =>
      modify fun r => { r with handles := commonHandles }
      node true false fuel
  let _ ← peek
  return some root

end Parse

/-- Whether a fault behind some characters goes unseen: enough of them are left. -/
def Lexer.isFarFromEnd (l : Lexer) : Bool := 4 ≤ l.cursor.rest.length

/-- The first document of a text. -/
def Document.parse? (text : Text) : Option Document := do
  let stream := Stream.ofText text
  let lexer : Lexer := { cursor := Cursor.ofCharacters stream.characters }
  let (root, r) ← Parse.document (8 * stream.characters.length + 32) { lexer }
  guard (stream.complete || r.lexer.isFarFromEnd)
  return { root, anchors := r.anchors }

end HeaderReflection.Yaml
