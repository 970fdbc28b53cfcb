import HeaderReflection.Declaration.Kind

/-!
# Declarations

What a header says about a type and its members.

## Main definitions

- `Property`, `MemberFunction`, `TypeConstructor`: members.
- `TypeHandlers`, `PropertyHandlers`: the functions that replace default behaviour.
- `Declaration`: a declared type.
- `shortName`, `cutName`: names without qualification and without the storage marker.
-/

namespace HeaderReflection

/-- The last segment of a qualified name. -/
def shortName (name : Text) : Text := (Text.afterLast? "::" name).getD name

/-- A field name without its two byte storage marker (`m_`); a name that has nothing after it is cut to nothing. -/
def cutName (name : Text) : Text := name.drop 2

/-- The functions that replace the default behaviour of a property. -/
structure PropertyHandlers where
  serialize : Option Text := none
  deserialize : Option Text := none
  compare : Option Text := none
  copy : Option Text := none
  instantiate : Option Text := none
  loadDerive : Option Text := none
  deriving DecidableEq, Repr, Inhabited

/-- A reflected field of a class. -/
structure Property where
  /-- The type of the field as written. -/
  type : Text := []
  /-- The name of the field. -/
  name : Text := []
  /-- The part of the name that accessors use. -/
  fragment : Text := []
  /-- The short name of the class. -/
  owner : Text := []
  /-- The line of the field. -/
  line : Nat := 0
  access : Access := .no
  category : Text := []
  /-- Hints for editors, each already in quotes, separated by commas. -/
  hint : Text := []
  gpuData : Option Text := none
  serializable : Bool := false
  hasDefault : Bool := false
  copyable : Bool := true
  updatable : Bool := true
  ref : Bool := false
  /-- Setting the value it already has does nothing. -/
  checkNotSame : Bool := false
  invalidatesRender : Bool := false
  invalidatesTransform : Bool := false
  handlers : PropertyHandlers := {}
  deriving DecidableEq, Repr, Inhabited

/-- A function that scripts may call. -/
structure MemberFunction where
  name : Text
  line : Nat
  deriving DecidableEq, Repr, Inhabited

/-- A constructor that scripts may call. -/
structure TypeConstructor where
  signature : Text
  line : Nat
  deriving DecidableEq, Repr, Inhabited

/-- The functions that replace the default behaviour of a type. -/
structure TypeHandlers where
  copy : Option Text := none
  compare : Option Text := none
  serialize : Option Text := none
  deserialize : Option Text := none
  toText : Option Text := none
  instantiate : Option Text := none
  loadDerive : Option Text := none
  deriving DecidableEq, Repr, Inhabited

/-- A type as a header declares it. -/
structure Declaration where
  /-- The short name. -/
  name : Text
  /-- The name with its namespaces. -/
  fullName : Text
  kind : Kind
  /-- Whether an external type is referred to by its bare name. -/
  builtIn : Bool := false
  /-- The header that declares the type, as other headers include it. -/
  includePath : Text := []
  /-- The line of the marker. -/
  line : Nat := 0
  /-- The parent as written, empty if there is none. -/
  parentName : Text := []
  properties : List Property := []
  functions : List MemberFunction := []
  constructors : List TypeConstructor := []
  handlers : TypeHandlers := {}
  architype : Option Text := none
  /-- Whether scripts know an external type. -/
  scriptSupport : Bool := false
  renderConstructor : Option Text := none
  renderDestructor : Option Text := none
  deriving DecidableEq, Repr, Inhabited

namespace Declaration

/-- The name that generated sources refer to the type by. -/
def qualifiedName (d : Declaration) : Text := if d.builtIn then d.name else "::" ++ d.fullName

/-- Whether scripts get a handle for the type. -/
def scriptBound (d : Declaration) : Bool := d.kind ≠ .external || d.scriptSupport

/-- Whether a type has a template that binds its members for scripts: classes and structs do. -/
def isScripted (d : Declaration) : Bool := d.kind = .classType || d.kind = .structType

/-- The properties that take part in generated sources: only classes have any. -/
def reflectedProperties (d : Declaration) : List Property := if d.kind = .classType then d.properties else []

/-- The short name of the parent. -/
def parentShortName (d : Declaration) : Text := shortName d.parentName

end Declaration

end HeaderReflection
