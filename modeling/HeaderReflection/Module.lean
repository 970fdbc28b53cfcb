import HeaderReflection.Declaration.Basic
import HeaderReflection.Text.Blank
import HeaderReflection.Text.Order

/-!
# Modules

A module gathers the types of its headers, together with what its package directive says. Every type of a module has a
serial number, which stays with it when the types are put into another order; links between types are serial numbers.

## Main definitions

- `Entry`: a declared type in a module, with its serial number, its linked parent and its id.
- `Module`: the types, the include set and the package directive.
- `Module.add`, `Module.addInclude`: growth.
- `Module.find?`, `Module.classes`, `Module.parentOf?`: views.
-/

namespace HeaderReflection

/-- A type of a module. -/
structure Entry extends Declaration where
  /-- The number that identifies the type in its module. -/
  serial : Nat
  /-- The serial number of the linked parent. -/
  parent : Option Nat := none
  /-- The id of the type, empty until one is given. -/
  id : Text := []
  deriving DecidableEq, Repr, Inhabited

/-- The types of a module and its package directive. -/
structure Module where
  name : Text
  /-- The namespace around the module, empty if there is none. -/
  scope : Text := []
  /-- The types in their current order. -/
  entries : List Entry := []
  /-- The headers of the module in strictly increasing byte order. -/
  includes : List Text := []
  /-- Whether types may replace default behaviour. -/
  modelTypesOverrides : Bool := false
  modelPropertiesOverrides : Bool := false
  /-- Whether classes may have render hooks. -/
  renderTypesOverrides : Bool := false
  renderCustomResources : Bool := false
  /-- The modules this one depends on. -/
  dependencies : List Text := []
  /-- The headers that hold model overrides. -/
  modelOverrides : List Text := []
  /-- The headers that hold render overrides. -/
  renderOverrides : List Text := []
  deriving DecidableEq, Repr, Inhabited

namespace Module

/-- A module without types; blanks around the names do not count. -/
def empty (name scope : Text) : Module := { name := name.trim, scope := scope.trim }

/-- The name of the module with its namespace. -/
def fullName (m : Module) : Text := if m.scope = [] then m.name else m.scope ++ "::" ++ m.name

/-- The full name of a type that the module declares. -/
def qualify (m : Module) (name : Text) : Text := m.fullName ++ "::" ++ name

/-- Add a type with an id behind the others. It gets the next serial number. -/
def addWithId (m : Module) (d : Declaration) (id : Text) : Module :=
  { m with entries := m.entries ++ [{ toDeclaration := d, serial := m.entries.length, id }] }

/-- Add a type that has no id yet behind the others. -/
def add (m : Module) (d : Declaration) : Module := m.addWithId d []

/-- Add some types behind the others. -/
def addAll (m : Module) (ds : List Declaration) : Module := ds.foldl (fun m d => m.add d) m

/-- Add a header to the include set. -/
def addInclude (m : Module) (path : Text) : Module :=
  { m with includes := Text.insertUnique path m.includes }

/-- Whether sources for rendering are generated. -/
def hasRender (m : Module) : Bool := m.renderTypesOverrides || m.renderCustomResources

/-- The first type with a short name. -/
def find? (m : Module) (name : Text) : Option Entry := m.entries.find? (·.name = name)

/-- The classes in their current order. -/
def classes (m : Module) : List Entry := m.entries.filter (·.kind = .classType)

/-- The type that a type is linked to. -/
def parentOf? (m : Module) (e : Entry) : Option Entry :=
  e.parent.bind fun serial => m.entries.find? (·.serial = serial)

end Module

end HeaderReflection
