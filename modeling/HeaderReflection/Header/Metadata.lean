import HeaderReflection.Header.AttributeList
import HeaderReflection.Header.Fault
import HeaderReflection.Module

/-!
# Metadata

What the attributes of a marker say about a type, a property or a package. Attributes are taken one after the other; a
later one replaces what an earlier one with the same key said.

## Main definitions

- `Declaration.withAttribute`, `Property.withAttribute`: one attribute of a type or property.
- `Module.withAttribute`: one attribute of a package, which takes effect even if a later one fails.
- `Declaration.withAttributes`, `Property.withAttributes`, `Module.withAttributes`: all attributes of a marker.
-/

namespace HeaderReflection

/-! ## §1 Boolean values -/

/-- A value that is `true` or `false`. -/
def trueFalse (key value : Text) : Except AttributeFault Bool :=
  if value = "true" then .ok true else if value = "false" then .ok false else .error (.notTrueFalse key value)

/-- A value that is `yes` or `no`. -/
def yesNo (key value : Text) : Except AttributeFault Bool :=
  if value = "yes" then .ok true else if value = "no" then .ok false else .error (.notYesNo key value)

/-- The key and value of an attribute. -/
def keyValue (item : Text) : Except AttributeFault (Text × Text) :=
  match keyValue? item with
  | some pair => .ok pair
  | none => .error (.notKeyValue item)

/-! ## §2 Types -/

/-- What a key says about a type. -/
def Declaration.withKey (d : Declaration) (key value : Text) : Except AttributeFault Declaration :=
  if key = "copy_handler" then .ok { d with handlers.copy := some value }
  else if key = "compare_handler" then .ok { d with handlers.compare := some value }
  else if key = "serialize_handler" then .ok { d with handlers.serialize := some value }
  else if key = "deserialize_handler" then .ok { d with handlers.deserialize := some value }
  else if key = "to_string_handler" then .ok { d with handlers.toText := some value }
  else if key = "instantiate_handler" then .ok { d with handlers.instantiate := some value }
  else if key = "load_derive_handler" then .ok { d with handlers.loadDerive := some value }
  else if key = "architype" then .ok { d with architype := some value }
  else if key = "render_constructor" then .ok { d with renderConstructor := some value }
  else if key = "render_destructor" then .ok { d with renderDestructor := some value }
  else if key = "built_in" then do
    let flag ← trueFalse key value
    if d.kind = .external then .ok { d with builtIn := flag } else .error (.onlyOnExternal key)
  else if key = "script_support" then do
    let flag ← trueFalse key value
    .ok { d with scriptSupport := flag }
  else .error (.unsupportedKey .type key)

/-- What an attribute says about a type. -/
def Declaration.withAttribute (d : Declaration) (item : Text) : Except AttributeFault Declaration := do
  let (key, value) ← keyValue item
  d.withKey key value

/-- What the attributes of a marker say about a type. -/
def Declaration.withAttributes (d : Declaration) (items : List Text) : Except AttributeFault Declaration :=
  items.foldlM withAttribute d

/-! ## §3 Properties -/

/-- One of the things that setting a property invalidates. -/
def Property.invalidating (p : Property) (item : Text) : Except AttributeFault Property :=
  if item = "render" then .ok { p with invalidatesRender := true }
  else if item = "transform" then .ok { p with invalidatesTransform := true }
  else .error (.badInvalidates item)

/-- One of the checks of a setter. -/
def Property.checking (p : Property) (item : Text) : Except AttributeFault Property :=
  if item = "not_same" then .ok { p with checkNotSame := true } else .error (.badCheck item)

/-- Hints in quotes, separated by commas. -/
def quotedHints (value : Text) : Text :=
  Text.joinWith "," ((valueList value).map fun hint => "\"" ++ hint ++ "\"")

/-- What a key says about a property. -/
def Property.withKey (p : Property) (key value : Text) : Except AttributeFault Property :=
  if key = "property_ser_handler" then .ok { p with handlers.serialize := some value }
  else if key = "property_des_handler" then .ok { p with handlers.deserialize := some value }
  else if key = "property_load_derive_handler" then .ok { p with handlers.loadDerive := some value }
  else if key = "property_compare_handler" then .ok { p with handlers.compare := some value }
  else if key = "property_copy_handler" then .ok { p with handlers.copy := some value }
  else if key = "property_instantiate_handler" then .ok { p with handlers.instantiate := some value }
  else if key = "gpu_data" then .ok { p with gpuData := some value }
  else if key = "category" then .ok { p with category := value }
  else if key = "access" then
    match Access.ofSpelling? value with
    | some access => .ok { p with access }
    | none => .error (.badAccess value)
  else if key = "serializable" then do
    let flag ← trueFalse key value
    .ok { p with serializable := flag }
  else if key = "default" then do
    let flag ← trueFalse key value
    .ok { p with hasDefault := flag }
  else if key = "ref" then do
    let flag ← trueFalse key value
    .ok { p with ref := flag }
  else if key = "copyable" then do
    let flag ← yesNo key value
    .ok { p with copyable := flag }
  else if key = "updatable" then do
    let flag ← yesNo key value
    .ok { p with updatable := flag }
  else if key = "invalidates" then (valueList value).foldlM Property.invalidating p
  else if key = "check" then (valueList value).foldlM Property.checking p
  else if key = "hint" then .ok { p with hint := quotedHints value }
  else .error (.unsupportedKey .property key)

/-- What an attribute says about a property. -/
def Property.withAttribute (p : Property) (item : Text) : Except AttributeFault Property := do
  let (key, value) ← keyValue item
  p.withKey key value

/-- What the attributes of a marker say about a property. -/
def Property.withAttributes (p : Property) (items : List Text) : Except AttributeFault Property :=
  items.foldlM withAttribute p

/-! ## §4 Packages -/

/-- The modules in a dependency list, which colons separate. -/
def dependencyList (value : Text) : List Text :=
  ((Text.splitOn (Text.byte ':') value).map Text.trim).filter (· ≠ [])

/-- Set a flag of a module from a value; a value that is neither `true` nor `false` clears the flag. -/
def Module.withFlag (set : Bool → Module) (key value : Text) : Module × Option AttributeFault :=
  match trueFalse key value with
  | .ok flag => (set flag, none)
  | .error fault => (set false, some fault)

/-- What a key says about a package. -/
def Module.withKey (m : Module) (key value : Text) : Module × Option AttributeFault :=
  if key = "model.has_types_overrides" then
    withFlag (fun flag => { m with modelTypesOverrides := flag }) key value
  else if key = "model.has_properties_overrides" then
    withFlag (fun flag => { m with modelPropertiesOverrides := flag }) key value
  else if key = "render.has_overrides" then
    withFlag (fun flag => { m with renderTypesOverrides := flag }) key value
  else if key = "render.has_resources" then
    withFlag (fun flag => { m with renderCustomResources := flag }) key value
  else if key = "dependancies" ∨ key = "dependencies" then
    ({ m with dependencies := dependencyList value }, none)
  else (m, some (.unsupportedKey .package key))

/-- What an attribute says about a package. -/
def Module.withAttribute (m : Module) (item : Text) : Module × Option AttributeFault :=
  match keyValue item with
  | .ok (key, value) => m.withKey key value
  | .error fault => (m, some fault)

/-- What the attributes of a marker say about a package, up to the first that fails. -/
def Module.withAttributes (m : Module) : List Text → Module × Option AttributeFault
  | [] => (m, none)
  | item :: items =>
    match m.withAttribute item with
    | (m, none) => m.withAttributes items
    | (m, some fault) => (m, some fault)

end HeaderReflection
