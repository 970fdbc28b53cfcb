import HeaderReflection.Artifact.Accessor
import HeaderReflection.Artifact.Registration

/-!
# Model source

The source that registers the types of a module and takes them down again. Registration follows the order of the types,
so that a parent is there before its children; taking down goes the other way.

## Main definitions

- `HandleDeclaration`, `HandleReset`: the handles of a type, declared and taken down.
- `ClassIntrinsics`: the functions that every class has.
- `UserType`: a type as scripts see it.
- `ModelSource`, `ModelSource.ofModule`, `ModelSource.render`: the whole source.
-/

namespace HeaderReflection

/-! ## §1 Handles -/

/-- A type that scripts know: its name and its qualified name. -/
structure ScriptHandle where
  name : Text
  qualified : Text
  deriving DecidableEq, Repr, Inhabited

/-- The handle of a type for scripts, if scripts know it. -/
def Declaration.scriptHandle? (d : Declaration) : Option ScriptHandle :=
  if d.scriptBound then some { name := d.name, qualified := d.qualifiedName } else none

/-- The declaration of the handles of a type. -/
structure HandleDeclaration where
  handle : Text
  script : Option ScriptHandle
  deriving DecidableEq, Repr, Inhabited

/-- The handles of a type of a module. -/
def HandleDeclaration.ofEntry (m : Module) (e : Entry) : HandleDeclaration where
  handle := reflectionHandle m e.name
  script := e.scriptHandle?

/-- The line that declares a script handle. -/
def ScriptHandle.line (s : ScriptHandle) : Text :=
  "static std::unique_ptr<sol::usertype<" ++ s.qualified ++ ">> " ++ scriptHandle s.name ++ ";"

/-- The lines that declare the handles of a type. -/
def HandleDeclaration.lines (h : HandleDeclaration) : List Text :=
  inOrder [
    ["static std::unique_ptr<::agea::reflection::reflection_type> " ++ h.handle ++ ";"],
    (h.script.map ScriptHandle.line).toList]

/-- The end of the handles of a type. -/
structure HandleReset where
  handle : Text
  /-- The name of the type, if scripts know it. -/
  script : Option Text
  deriving DecidableEq, Repr, Inhabited

/-- The end of the handles of a type of a module. -/
def HandleReset.ofEntry (m : Module) (e : Entry) : HandleReset where
  handle := reflectionHandle m e.name
  script := if e.scriptBound then some e.name else none

/-- The line that ends a script handle. -/
def HandleReset.scriptLine (name : Text) : Text := "    " ++ scriptHandle name ++ ".reset();"

/-- The lines that end the handles of a type. -/
def HandleReset.lines (h : HandleReset) : List Text :=
  inOrder [["    " ++ h.handle ++ ".reset();"], (h.script.map scriptLine).toList]

/-! ## §2 Classes and script types -/

/-- The functions that every class has. -/
structure ClassIntrinsics where
  name : Text
  handle : Text
  deriving DecidableEq, Repr, Inhabited

/-- The lines that define the functions that every class has. -/
def ClassIntrinsics.lines (c : ClassIntrinsics) : List Text := inOrder [
  ["",
   "const ::agea::reflection::reflection_type&",
   c.name ++ "::AR_TYPE_reflection()",
   "\x7b",
   "    return *" ++ c.handle ++ ";",
   "\x7d",
   "",
   "std::shared_ptr<::agea::root::smart_object>",
   c.name ++ "::AR_TYPE_create_empty_gen_obj(const ::agea::utils::id& id)",
   "\x7b",
   "    return " ++ c.name ++ "::AR_TYPE_create_empty_obj(id);",
   "\x7d",
   "",
   "std::shared_ptr<" ++ c.name ++ ">",
   c.name ++ "::AR_TYPE_create_empty_obj(const ::agea::utils::id& id)",
   "\x7b",
   "    auto s = std::make_shared<this_class>();",
   "    s->META_set_reflection_type(&this_class::AR_TYPE_reflection());",
   "    s->META_set_id(id);",
   "    return s;",
   "\x7d"],
  ["",
   "std::unique_ptr<::agea::root::base_construct_params>",
   c.name ++ "::AR_TYPE_create_gen_default_cparams()",
   "\x7b",
   "    return std::make_unique<" ++ c.name ++ "::construct_params>();",
   "\x7d",
   "",
   "::agea::utils::id",
   c.name ++ "::AR_TYPE_id()",
   "\x7b",
   "    return AID(\"" ++ c.name ++ "\");",
   "\x7d",
   "",
   "bool",
   c.name ++ "::META_construct(const ::agea::root::base_construct_params& i)",
   "\x7b",
   "    auto p = (this_class::construct_params*)&i;",
   "",
   "    return construct(*p);",
   "\x7d"]]

/-- How scripts make values of a type. -/
inductive UserTypeShape where
  /-- A class: values are looked up by id; the qualified name of the linked parent. -/
  | object (parent : Option Text)
  /-- A struct: values are made by its constructors. -/
  | value (signatures : List Text)
  deriving DecidableEq, Repr, Inhabited

/-- A type as scripts see it. -/
structure UserType where
  name : Text
  qualified : Text
  shape : UserTypeShape
  deriving DecidableEq, Repr, Inhabited

namespace UserType

/-- A class or struct of a module as scripts see it. -/
def ofEntry (m : Module) (e : Entry) : UserType where
  name := e.name
  qualified := e.qualifiedName
  shape :=
    if e.kind = .classType then .object ((m.parentOf? e).map (·.qualifiedName))
    else .value (e.constructors.map (·.signature))

/-- The lines of the function that looks an object up in a cache. -/
def lookupLines (u : UserType) (key cache : Text) : List Text :=
  ["            \"" ++ key ++ "\",",
   "            [](const char* id) -> " ++ u.qualified ++ "*",
   "            \x7b",
   "                auto item = ::agea::glob::glob_state()." ++ cache ++ "()->get_item(AID(id));",
   "                if (!item)",
   "                \x7b",
   "                    return nullptr;",
   "                \x7d",
   "                return item->as<" ++ u.qualified ++ ">();"]

/-- The lines that end the definition of a class; they name the linked parent. -/
def parentLines : Option Text → List Text
  | none => ["            \x7d);"]
  | some parent =>
    ["            \x7d,", "            sol::base_classes, sol::bases<" ++ parent ++ ">());"]

/-- The lines that define a type by its shape. -/
def shapeLines (u : UserType) : List Text :=
  match u.shape with
  | .object parent => inOrder [
      ["            \"" ++ u.name ++ "\", sol::no_constructor,"],
      u.lookupLines "i" "get_instance_objects_cache",
      ["            \x7d,"],
      u.lookupLines "c" "get_class_objects_cache",
      parentLines parent]
  | .value signatures =>
    ["            \"" ++ u.name ++ "\", sol::constructors<" ++ Text.joinWith ", " signatures ++ ">());"]

/-- The lines that make a type known to scripts. -/
def lines (u : UserType) : List Text :=
  inOrder [
    ["",
     "    \x7b",
     "        *" ++ scriptHandle u.name ++
       " = ::agea::glob::glob_state().get_lua()->state().new_usertype<" ++ u.qualified ++ ">("],
    u.shapeLines,
    ["",
     "        " ++ scriptTemplate u.name ++ "<sol::usertype<" ++ u.qualified ++ ">, " ++ u.qualified ++ ">(*" ++
       scriptHandle u.name ++ ");",
     "    \x7d"]]

end UserType

/-! ## §3 The source -/

/-- The source that registers the types of a module. -/
structure ModelSource where
  module : Text
  fullName : Text
  /-- The headers with model overrides. -/
  overrides : List Text
  dependencies : List Text
  handles : List HandleDeclaration
  intrinsics : List ClassIntrinsics
  registrations : List Registration
  userTypes : List UserType
  resets : List HandleReset
  /-- The classes that have default objects, by qualified name. -/
  defaultObjects : List Text
  accessors : List AccessorDefinition
  deriving DecidableEq, Repr, Inhabited

namespace ModelSource

/-- The model source of a module. -/
def ofModule (m : Module) : ModelSource where
  module := m.name
  fullName := m.fullName
  overrides := m.modelOverrides
  dependencies := m.dependencies
  handles := m.entries.map (HandleDeclaration.ofEntry m)
  intrinsics := m.classes.map fun e => { name := e.name, handle := reflectionHandle m e.name }
  registrations := m.entries.map (Registration.ofEntry m)
  userTypes := (m.entries.filter (·.isScripted)).map (UserType.ofEntry m)
  resets := (m.entries.map (HandleReset.ofEntry m)).reverse
  defaultObjects := m.classes.map (·.qualifiedName)
  accessors := m.classes.flatMap fun e => e.properties.flatMap Property.definedAccessors

/-- The lines in front of the module's own declarations. -/
def includeLines (s : ModelSource) : List Text :=
  inOrder [
    ["// Smart Object Autogenerated Reflection Layout",
     "",
     "// clang-format off",
     "",
     "#include \"glue/type_ids.ar.h\"",
     "",
     "#include \"packages/" ++ s.module ++ "/package." ++ s.module ++ ".h\"",
     "#include \"packages/" ++ s.module ++ "/types_resolvers.ar.h\"",
     "#include \"packages/" ++ s.module ++ "/types_script_importer.ar.h\""],
    s.overrides.map fun path => "#include <" ++ path ++ ">",
    s.dependencies.map fun module => "#include \"packages/" ++ module ++ "/types_resolvers.ar.h\"",
    ["",
     "#include <core/caches/caches_map.h>",
     "#include <core/reflection/reflection_type.h>",
     "#include <core/reflection/reflection_type_utils.h>",
     "#include <core/reflection/lua_api.h>",
     "#include <core/object_constructor.h>",
     "#include <core/package_manager.h>",
     "#include <core/package.h>",
     "#include <core/global_state.h>",
     "",
     "#include <sol2_unofficial/sol.h>",
     ""]]

/-- The lines that hook the package into the start of the program. -/
def scheduleLines (s : ModelSource) : List Text :=
  ["",
   "AGEA_gen__static_schedule(::agea::gs::state::state_stage::create,",
   "    [](agea::gs::state& s)",
   "    \x7b",
   "        package::instance().register_package_extention<package::package_types_builder>();",
   "        package::instance().register_package_extention<package::package_types_default_objects_builder>();",
   "    \x7d);",
   "",
   "AGEA_gen__static_schedule(::agea::gs::state::state_stage::connect,",
   "    [](agea::gs::state& s)",
   "    \x7b",
   "        s.get_pm()->register_static_package(::" ++ s.fullName ++ "::package::instance());",
   "    \x7d);",
   "",
   "bool",
   "package::package_model_enforcer()",
   "\x7b",
   "    volatile bool has_model_types = false;",
   "    return has_model_types;",
   "\x7d"]

/-- The line that names the package. -/
def packageLine (s : ModelSource) : Text := "    auto pkg = &::" ++ s.fullName ++ "::package::instance();"

/-- The lines that register the types. -/
def buildLines (s : ModelSource) : List Text :=
  inOrder [
    ["",
     "bool",
     "package::package_types_builder::build(static_package& sp)",
     "\x7b",
     s.packageLine],
    s.registrations.flatMap Registration.lines,
    s.userTypes.flatMap UserType.lines,
    ["",
     "    return true;",
     "\x7d"]]

/-- The lines that take the types down. -/
def destroyLines (s : ModelSource) : List Text :=
  inOrder [
    ["",
     "bool",
     "package::package_types_builder::destroy(static_package& sp)",
     "\x7b"],
    s.resets.flatMap HandleReset.lines,
    ["",
     "    return true;",
     "\x7d"]]

/-- The lines of a function that goes through the default objects. -/
def defaultObjectLines (s : ModelSource) (step operation : Text) : List Text :=
  inOrder [
    ["",
     "bool",
     "package::package_types_default_objects_builder::" ++ step ++ "(static_package& sp)",
     "\x7b",
     s.packageLine],
    s.defaultObjects.map fun qualified => "    pkg->" ++ operation ++ "<" ++ qualified ++ ">();",
    ["",
     "    return true;",
     "\x7d"]]

/-- The text of the model source. -/
def render (s : ModelSource) : Text :=
  sourceText [
    s.includeLines,
    ["namespace " ++ s.fullName,
     "\x7b",
     ""],
    s.handles.flatMap HandleDeclaration.lines,
    s.intrinsics.flatMap ClassIntrinsics.lines,
    s.scheduleLines,
    s.buildLines,
    s.destroyLines,
    s.defaultObjectLines "build" "create_default_class_obj",
    s.defaultObjectLines "destroy" "destroy_default_class_obj",
    s.accessors.flatMap AccessorDefinition.lines,
    ["",
     "\x7d"]]

end ModelSource

end HeaderReflection
