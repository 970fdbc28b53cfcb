import HeaderReflection.Artifact.Registration

/-!
# Render source

The source that a module with render overrides or custom resources has. It installs the render hooks of its classes.
-/

namespace HeaderReflection

/-- The render hooks of a class. -/
structure RenderHook where
  id : Text
  statements : List Statement
  deriving DecidableEq, Repr, Inhabited

/-- The lines that install the render hooks of a class. -/
def RenderHook.lines (h : RenderHook) : List Text :=
  inOrder [
    ["",
     "    \x7b",
     "        auto type_rt = ::agea::glob::glob_state().get_rm()->get_type(::agea::" ++ h.id ++ ");",
     "        AGEA_check(type_rt, \"Type is not defined!\");"],
    indented 8 h.statements,
    ["    \x7d"]]

/-- The source for rendering. -/
structure RenderSource where
  module : Text
  fullName : Text
  /-- The headers with render overrides. -/
  overrides : List Text
  customResources : Bool
  typesOverrides : Bool
  hooks : List RenderHook
  deriving DecidableEq, Repr, Inhabited

namespace RenderSource

/-- The render source of a module. -/
def ofModule (m : Module) : RenderSource where
  module := m.name
  fullName := m.fullName
  overrides := m.renderOverrides
  customResources := m.renderCustomResources
  typesOverrides := m.renderTypesOverrides
  hooks := (m.classes.filter (·.renderStatements ≠ [])).map fun e =>
    { id := e.id, statements := e.renderStatements }

/-- The lines that hook a builder into the start of the program. -/
def scheduleLines (builder : Text) : List Text :=
  ["",
   "AGEA_gen__static_schedule(::agea::gs::state::state_stage::connect,",
   "    [](::agea::gs::state& s)",
   "    \x7b",
   "        package::instance().register_package_extention<package::package_" ++ builder ++ "_builder>();",
   "    \x7d);"]

/-- The lines that install the render hooks of the classes. -/
def hookLines (s : RenderSource) : List Text :=
  inOrder [
    scheduleLines "render_types",
    ["",
     "bool",
     "package::package_render_types_builder::build(::agea::core::static_package& sp)",
     "\x7b",
     "    auto pkg = &::" ++ s.fullName ++ "::package::instance();"],
    s.hooks.flatMap RenderHook.lines,
    ["",
     "    return true;",
     "\x7d",
     "",
     "bool",
     "package::package_render_types_builder::destroy(::agea::core::static_package&)",
     "\x7b",
     "    return true;",
     "\x7d"]]

/-- The text of the render source. -/
def render (s : RenderSource) : Text :=
  sourceText [
    ["// Smart Object Autogenerated Reflection Layout",
     "",
     "// clang-format off",
     "",
     "#include \"packages/" ++ s.module ++ "/package." ++ s.module ++ ".h\"",
     "#include \"packages/" ++ s.module ++ "/types_resolvers.ar.h\"",
     "#include \"packages/" ++ s.module ++ "/types_script_importer.ar.h\""],
    s.overrides.map fun path => "#include <" ++ path ++ ">",
    ["",
     "#include <core/caches/caches_map.h>",
     "#include <core/reflection/reflection_type.h>",
     "#include <core/reflection/reflection_type_utils.h>",
     "#include <core/reflection/lua_api.h>",
     "#include <core/object_constructor.h>",
     "#include <core/package_manager.h>",
     "#include <core/package.h>",
     "#include <global_state/global_state.h>",
     "#include <glue/type_ids.ar.h>",
     "",
     "namespace " ++ s.fullName,
     "\x7b",
     "",
     "bool",
     "package::package_render_enforcer()",
     "\x7b",
     "    volatile bool has_render_types = false;",
     "    return has_render_types;",
     "\x7d"],
    if s.customResources then scheduleLines "render_custom_resource" else [],
    if s.typesOverrides then s.hookLines else [],
    ["",
     "\x7d"]]

end RenderSource

end HeaderReflection
