import HeaderReflection.FilePath

/-!
# Layout of the output

Where the generated files of a module stand below the output directory: package headers, class headers, the sources
for model and render, and the tables that all modules share.
-/

namespace HeaderReflection

/-- The output directory and the module that is generated into it. -/
structure Layout where
  root : Text
  module : Text
  deriving DecidableEq, Repr, Inhabited

namespace Layout

/-- The directory of the module. -/
def packageDir (l : Layout) : Text := joinPath [l.root, "packages", l.module]

/-- The directory of the package headers. -/
def packageHeaderDir (l : Layout) : Text := joinPath [l.packageDir, "public", "include", "packages", l.module]

/-- The directory of the class headers. -/
def modelHeaderDir (l : Layout) : Text := joinPath [l.packageHeaderDir, "model"]

/-- The directory of the model source. -/
def modelSourceDir (l : Layout) : Text := joinPath [l.packageDir, "private", "model"]

/-- The directory of the render source. -/
def renderSourceDir (l : Layout) : Text := joinPath [l.packageDir, "private", "render"]

/-- The directory of the tables that all modules share. -/
def glueDir (l : Layout) : Text := joinPath [l.root, "packages", "glue", "public", "include", "glue"]

/-- The source that registers the types. -/
def modelSource (l : Layout) : Text := joinPath [l.modelSourceDir, "package." ++ l.module ++ ".ar.cpp"]

/-- The source that registers render hooks. -/
def renderSource (l : Layout) : Text := joinPath [l.renderSourceDir, "package." ++ l.module ++ ".render.ar.cpp"]

/-- The header that names the builders. -/
def typesBuilderHeader (l : Layout) : Text :=
  joinPath [l.packageHeaderDir, "package." ++ l.module ++ ".types_builder.ar.h"]

/-- The header of the package. -/
def packageHeader (l : Layout) : Text := joinPath [l.packageHeaderDir, "package.ar.h"]

/-- The header that resolves types to ids. -/
def typesResolvers (l : Layout) : Text := joinPath [l.packageHeaderDir, "types_resolvers.ar.h"]

/-- The header that binds members for scripts. -/
def scriptImporter (l : Layout) : Text := joinPath [l.packageHeaderDir, "types_script_importer.ar.h"]

/-- The header with the accessors of a class. -/
def classHeader (l : Layout) (name : Text) : Text := joinPath [l.modelHeaderDir, name ++ ".ar.h"]

/-- The shared table of type ids. -/
def typeIds (l : Layout) : Text := joinPath [l.glueDir, "type_ids.ar.h"]

/-- The shared table of dependencies. -/
def dependencies (l : Layout) : Text := joinPath [l.glueDir, "dependency_tree.ar.h"]

end Layout

end HeaderReflection
