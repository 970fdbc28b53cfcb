import HeaderReflection.Log
import HeaderReflection.Module

/-!
# Lineage

The types of a module are put into an order in which every parent comes before its children, and get their ids. This
takes five steps:

1. what the package directive does not allow is dropped from the types;
2. the types are sorted by full name and kind, so that the order of the headers does not matter;
3. every type with a parent name is linked to the first other type of that short name; a parent that is not found
   belongs to another module;
4. the types are placed one after the other, each after its ancestors; a type that is its own ancestor makes this
   impossible;
5. types without an id get one from their names.

## Main definitions

- `typeId`: the id of a type.
- `Module.dropOverrides`, `Module.sorted`, `Module.linked`: the first three steps.
- `climb`, `placeAll`: the fourth step.
- `Module.resolve`: all steps; a module with a cycle keeps the result of the first three.
-/

namespace HeaderReflection

/-! ## §1 Ids -/

/-- The segments of qualified names that ids leave out. -/
def idFreeSegments : List Text := ["root", "std", "agea", ""]

/-- A segment of a qualified name in an id. -/
def idSegment (segment : Text) : Text := "_" ++ segment

/-- The id of a type. A qualified name contributes its segments. -/
def typeId (module name : Text) : Text :=
  match Text.splitOnText "::" name with
  | [_] => module ++ "__" ++ name
  | segments => module ++ "_" ++ (segments.filter (!idFreeSegments.contains ·)).flatMap idSegment

/-! ## §2 Overrides -/

/-- A type without handlers and architype. -/
def Entry.withoutHandlers (e : Entry) : Entry := { e with handlers := {}, architype := none }

/-- A type without render hooks. -/
def Entry.withoutRenderHooks (e : Entry) : Entry :=
  { e with renderConstructor := none, renderDestructor := none }

/-- A type with what its module allows. -/
def Entry.allowed (m : Module) (e : Entry) : Entry :=
  let e := if m.modelTypesOverrides then e else e.withoutHandlers
  if m.renderTypesOverrides ∧ e.kind = .classType then e else e.withoutRenderHooks

/-- A module whose types hold only what its package directive allows. -/
def Module.dropOverrides (m : Module) : Module := { m with entries := m.entries.map (Entry.allowed m) }

/-! ## §3 Sorting and linking -/

/-- The order of types before they are placed: by full name, then by kind. -/
def Entry.le (a b : Entry) : Bool :=
  if a.fullName = b.fullName then decide (a.kind.code ≤ b.kind.code) else Text.le a.fullName b.fullName

/-- A module with its types sorted. -/
def Module.sorted (m : Module) : Module := { m with entries := sortBy Entry.le m.entries }

/-- Whether a type waits for a link. -/
def Entry.isUnlinked (e : Entry) : Bool := e.parentName ≠ [] && e.parent.isNone

/-- The type that a type is to be linked to: the first other one with the parent's short name. -/
def parentAmong (entries : List Entry) (e : Entry) : Option Entry :=
  entries.find? fun other => other.serial ≠ e.serial && other.name = e.parentShortName

/-- A type with its link. -/
def Entry.linkedAmong (entries : List Entry) (e : Entry) : Entry :=
  if e.isUnlinked then { e with parent := (parentAmong entries e).map (·.serial) } else e

/-- A module with its types linked. -/
def Module.linked (m : Module) : Module := { m with entries := m.entries.map (Entry.linkedAmong m.entries) }

/-! ## §4 Placing -/

/-- A cycle of parents, from a type back to itself. -/
structure ParentCycle where
  names : List Text
  deriving DecidableEq, Repr, Inhabited

/-- The wording of a cycle. -/
def ParentCycle.message (cycle : ParentCycle) : Text :=
  "parent cycle: " ++ Text.joinWith " -> " cycle.names

/-- Whether a type is among some types. -/
def Entry.isAmong (e : Entry) (entries : List Entry) : Bool := entries.any (·.serial = e.serial)

/-- The parent that a type is linked to, among some types. -/
def Entry.parentIn? (entries : List Entry) (e : Entry) : Option Entry :=
  e.parent.bind fun serial => entries.find? (·.serial = serial)

/-- The cycle that a path closes when it comes back to a type; the path has its latest type first. -/
def closeCycle (path : List Entry) (e : Entry) : ParentCycle :=
  { names := ((path.takeWhile (·.serial ≠ e.serial)).reverse.map (·.name)).cons e.name ++ [e.name] }

/-- Climb from a type to its ancestors until there is no parent or the parent is already placed. The result is the way,
farthest ancestor first. The number of steps is bounded by the number of types, since a way that visits a type twice
is a cycle. -/
def climb (entries placed : List Entry) : Nat → List Entry → Entry → Except ParentCycle (List Entry)
  | 0, path, _ => .ok path
  | steps + 1, path, e =>
    if e.isAmong placed then .ok path
    else if e.isAmong path then .error (closeCycle path e)
    else match e.parentIn? entries with
      | none => .ok (e :: path)
      | some parent => climb entries placed steps (e :: path) parent

/-- Place a type behind the types that are placed, after those of its ancestors that are not. -/
def placeNext (entries placed : List Entry) (e : Entry) : Except ParentCycle (List Entry) := do
  let way ← climb entries placed (entries.length + 1) [] e
  return placed ++ way

/-- Types in an order in which every parent comes before its children. -/
def placeAll (entries : List Entry) : Except ParentCycle (List Entry) :=
  entries.foldlM (placeNext entries) []

/-! ## §5 Resolution -/

/-- A type with an id. -/
def Entry.identified (m : Module) (e : Entry) : Entry :=
  if e.id = [] then { e with id := typeId m.name e.name } else e

/-- A module after resolution, and the cycle that stopped it if there is one. -/
structure Resolution where
  module : Module
  cycle : Option ParentCycle
  deriving DecidableEq, Repr

/-- Resolve a module: drop what it does not allow, sort, link, place and name its types. -/
def Module.resolve (m : Module) : Resolution :=
  let m := m.dropOverrides.sorted.linked
  match placeAll m.entries with
  | .error cycle => ⟨m, some cycle⟩
  | .ok entries => ⟨{ m with entries := entries.map (Entry.identified m) }, none⟩

/-! ## §6 Records -/

/-- The records of the handlers and the architype that a type loses. -/
def Entry.handlerNotes (e : Entry) : List LogRecord :=
  [e.handlers.copy, e.handlers.compare, e.handlers.serialize, e.handlers.deserialize, e.handlers.toText,
   e.handlers.instantiate, e.handlers.loadDerive, e.architype].filterMap fun value =>
    value.map fun value => {
      level := .debug
      message := "type override ignored"
      attributes := [("type", .text e.fullName), ("value", .text value),
        ("reason", .text "model.has_types_overrides is not set")] }

/-- The records of the render hooks that a type loses. -/
def Entry.renderHookNotes (e : Entry) : List LogRecord :=
  [e.renderConstructor, e.renderDestructor].filterMap fun value =>
    value.map fun value => {
      level := .debug
      message := "render override ignored"
      attributes := [("type", .text e.fullName), ("value", .text value)] }

/-- The records of what a type loses. -/
def Entry.overrideNotes (m : Module) (e : Entry) : List LogRecord :=
  (if m.modelTypesOverrides then [] else e.handlerNotes) ++
  (if m.renderTypesOverrides ∧ e.kind = .classType then [] else e.renderHookNotes)

/-- The record of a parent that belongs to another module. -/
def Entry.linkNotes (entries : List Entry) (e : Entry) : List LogRecord :=
  if e.isUnlinked ∧ (parentAmong entries e).isNone then
    [{ level := .debug
       message := "parent outside module"
       attributes := [("type", .text e.fullName), ("parent", .text e.parentName)] }]
  else []

/-- The records of resolving a module. -/
def Module.resolveNotes (m : Module) : List LogRecord :=
  let sorted := m.dropOverrides.sorted.entries
  m.entries.flatMap (Entry.overrideNotes m) ++ sorted.flatMap (Entry.linkNotes sorted)

end HeaderReflection
