import HeaderReflection.Artifact.ClassHeader
import HeaderReflection.Artifact.ModelSource
import HeaderReflection.Artifact.PackageHeader
import HeaderReflection.Artifact.RenderSource
import HeaderReflection.Artifact.Resolvers
import HeaderReflection.Artifact.ScriptImporter
import HeaderReflection.Layout
import HeaderReflection.Log

/-!
# Emission

All artifacts of a module: first as values, then as texts at their places. A module with a type of unknown kind has no
artifacts.

## Main definitions

- `Artifact`: one generated file as a value.
- `Module.artifacts`: the artifacts of a module in the order in which they are reported.
- `Module.emit`: the texts of the artifacts at their places.
-/

namespace HeaderReflection

/-- A generated file, before it is written out. -/
inductive Artifact where
  | modelSource (source : ModelSource)
  | typesResolvers (resolvers : TypeResolvers)
  | scriptImporter (importer : ScriptImporter)
  | packageHeader (header : PackageHeader)
  | builderHeader (header : BuilderHeader)
  | classHeader (header : ClassHeader)
  | renderSource (source : RenderSource)
  deriving DecidableEq, Repr, Inhabited

namespace Artifact

/-- The text of an artifact. -/
def render : Artifact → Text
  | .modelSource source => source.render
  | .typesResolvers resolvers => resolvers.render
  | .scriptImporter importer => importer.render
  | .packageHeader header => header.render
  | .builderHeader header => header.render
  | .classHeader header => header.render
  | .renderSource source => source.render

/-- The place of an artifact. -/
def path (layout : Layout) : Artifact → Text
  | .modelSource _ => layout.modelSource
  | .typesResolvers _ => layout.typesResolvers
  | .scriptImporter _ => layout.scriptImporter
  | .packageHeader _ => layout.packageHeader
  | .builderHeader _ => layout.typesBuilderHeader
  | .classHeader header => layout.classHeader header.name
  | .renderSource _ => layout.renderSource

end Artifact

/-- A type whose kind is unknown. -/
structure UnknownKind where
  fullName : Text
  kind : Kind
  deriving DecidableEq, Repr, Inhabited

/-- The wording of an unknown kind. -/
def UnknownKind.message (e : UnknownKind) : Text :=
  "unknown type kind: " ++ e.fullName ++ " is " ++ e.kind.name

namespace Module

/-- The artifacts of a module whose types all have a known kind. -/
def artifacts (m : Module) : List Artifact :=
  [.modelSource (ModelSource.ofModule m),
   .typesResolvers (TypeResolvers.ofModule m),
   .scriptImporter (ScriptImporter.ofModule m),
   .packageHeader (PackageHeader.ofModule m),
   .builderHeader (BuilderHeader.ofModule m)] ++
  m.classes.map (fun e => .classHeader (ClassHeader.ofDeclaration e.toDeclaration)) ++
  (if m.hasRender then [.renderSource (RenderSource.ofModule m)] else [])

/-- The first type of unknown kind. -/
def unknownKind? (m : Module) : Option UnknownKind :=
  (m.entries.find? (!·.kind.isKnown)).map fun e => { fullName := e.fullName, kind := e.kind }

/-- The texts of the artifacts of a module at their places, in the order in which they are reported. -/
def emit (m : Module) (layout : Layout) : Except UnknownKind (List (Text × Text)) :=
  match m.unknownKind? with
  | some unknown => .error unknown
  | none => .ok (m.artifacts.map fun a => (a.path layout, a.render))

/-- The records of emitting artifacts. -/
def emitNotes (m : Module) (files : List (Text × Text)) : List LogRecord :=
  files.map (fun (path, _) => {
    level := .debug
    message := "Rendered artifact"
    attributes := [("module", .text m.name), ("path", .text path)] }) ++
  [{ level := .info
     message := "Generated module sources"
     attributes := [("module", .text m.name), ("files", .number files.length),
       ("types", .number m.entries.length)] }]

end Module

end HeaderReflection
