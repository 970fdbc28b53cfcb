import HeaderReflection.Artifact.Source
import HeaderReflection.Module

/-!
# Package headers

Two headers that every module has: one defines the macro that a package class uses, the other names its builders.
-/

namespace HeaderReflection

/-- The header with the macro of a package, which declares the builders the package has. -/
structure PackageHeader where
  module : Text
  /-- The builders for rendering, by the middle of their names. -/
  renderBuilders : List Text
  deriving DecidableEq, Repr, Inhabited

namespace PackageHeader

/-- The package header of a module. -/
def ofModule (m : Module) : PackageHeader where
  module := m.name
  renderBuilders :=
    (if m.renderTypesOverrides then [Text.ofString "render_types"] else []) ++
    (if m.renderCustomResources then [Text.ofString "render_custom_resource"] else [])

/-- The builders for the model, by the middle of their names. -/
def modelBuilders : List Text := ["types", "types_default_objects"]

/-- The lines that declare a builder in the macro. -/
def builderLines (name : Text) : List Text :=
  ["    struct package_" ++ name ++ "_builder : public ::agea::core::package_" ++ name ++ "_builder \\",
   "    \x7b \\",
   "    public: \\",
   "        virtual bool build(::agea::core::static_package& sp) override; \\",
   "        virtual bool destroy(::agea::core::static_package& sp) override; \\",
   "    \x7d; \\"]

/-- The name of the macro of a package, or of one of its parts. -/
def macroName (h : PackageHeader) (part : Text) : Text := "AGEA_gen_meta__" ++ h.module ++ "_package" ++ part

/-- The text of a package header. -/
def render (h : PackageHeader) : Text :=
  sourceText [
    ["#pragma once",
     "",
     "#define " ++ h.macroName "_model",
     "#define " ++ h.macroName "_render",
     "#define " ++ h.macroName "_builder",
     "",
     "#if defined(AGEA_build__model)"],
    ["#undef  " ++ h.macroName "_model",
     "#define " ++ h.macroName "_model" ++ " \\",
     "public: \\",
     "    static bool package_model_enforcer(); \\",
     "    static inline bool has_model_types = package_model_enforcer(); \\",
     "    static void \\",
     "    reset_instance() \\",
     "    \x7b \\",
     "        instance_impl().reset(); \\",
     "    \x7d \\",
     "    static void \\",
     "    init_instance() \\",
     "    \x7b \\",
     "        AGEA_check(!instance_impl(), \"using on existed\"); \\",
     "        instance_impl() = std::make_unique<package>(); \\",
     "    \x7d \\",
     "    static std::unique_ptr<package>& \\",
     "    instance_impl() \\",
     "    \x7b \\",
     "        static auto instance = std::make_unique<package>(); \\",
     "        return instance; \\",
     "    \x7d \\",
     "    static package& \\",
     "    instance() \\",
     "    \x7b \\",
     "        AGEA_check(instance_impl(), \"empty instance\"); \\",
     "        return *instance_impl(); \\",
     "    \x7d \\"],
    modelBuilders.flatMap builderLines,
    ["private:",
     "#endif",
     "",
     "#if defined(AGEA_build__render)",
     "#undef  " ++ h.macroName "_render",
     "#define " ++ h.macroName "_render" ++ " \\",
     "private: \\",
     "    static bool package_render_enforcer(); \\",
     "    static inline bool has_render_types = package_render_enforcer(); \\",
     "public: \\"],
    h.renderBuilders.flatMap builderLines,
    ["private:",
     "#endif",
     "",
     "#if defined(AGEA_build__builder)",
     "#undef  " ++ h.macroName "_builder",
     "#define " ++ h.macroName "_builder",
     "#endif",
     "",
     "#define " ++ h.macroName "" ++ " \\",
     "    " ++ h.macroName "_model" ++ " \\",
     "    " ++ h.macroName "_render" ++ " \\",
     "    " ++ h.macroName "_builder"]]

end PackageHeader

/-- The header that names the builders of a package. -/
structure BuilderHeader where
  module : Text
  fullName : Text
  deriving DecidableEq, Repr, Inhabited

namespace BuilderHeader

/-- The builder header of a module. -/
def ofModule (m : Module) : BuilderHeader where
  module := m.name
  fullName := m.fullName

/-- The text of a builder header. -/
def render (h : BuilderHeader) : Text :=
  sourceText [
    ["#pragma once",
     "",
     "#include \"packages/" ++ h.module ++ "/package." ++ h.module ++ ".h\"",
     "",
     "namespace " ++ h.fullName,
     "\x7b",
     "",
     "using package_types_builder                 = package::package_types_builder;",
     "using package_types_default_objects_builder = package::package_types_default_objects_builder;",
     "",
     "\x7d"]]

end BuilderHeader

end HeaderReflection
