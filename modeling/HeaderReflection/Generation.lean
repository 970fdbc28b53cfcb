import HeaderReflection.Artifact.Emission
import HeaderReflection.ArtifactSet
import HeaderReflection.Header.Reader
import HeaderReflection.Lineage
import HeaderReflection.Manifest
import HeaderReflection.Options
import HeaderReflection.Table.Shared

/-!
# Generation

A run takes the headers of a module through reading, resolution and emission, brings the shared tables and the manifest
up to date, and gathers all of it in an artifact set. Generating writes the set; checking only compares it with what is
there.

## Main definitions

- `RunError`: what ends a run.
- `Build`, `Options.build`: the artifact set of a run. Nothing is written.
- `Options.generate`: building and writing.
- `Report`, `Options.check`: building and comparing.
-/

namespace HeaderReflection

/-! ## §1 Failures -/

/-- What ends a run. -/
inductive RunError where
  | options (error : OptionsError)
  | headerList (error : HeaderListError)
  /-- A header cannot be read. -/
  | unreadableHeader (header : Text) (error : FileError)
  | faultyHeader (error : HeaderError)
  /-- The types of a module are their own ancestors. -/
  | unresolved (module : Text) (cycle : ParentCycle)
  /-- A module has a type of unknown kind. -/
  | unemitted (module : Text) (unknown : UnknownKind)
  | table (error : TableError)
  | manifest (failure : Manifest.Failure)
  /-- A generated file is not below the output directory. -/
  | outside (path base : Text)
  | artifacts (failure : ArtifactSet.Failure)
  deriving DecidableEq, Repr, Inhabited

/-- The wording of what ends a run. -/
def RunError.message : RunError → Text
  | .options error => error.message
  | .headerList error => error.message
  | .unreadableHeader header error => "read header " ++ header ++ ": " ++ error.message
  | .faultyHeader error => error.message
  | .unresolved module cycle => "resolve " ++ module ++ ": " ++ cycle.message
  | .unemitted module unknown => "emit " ++ module ++ ": " ++ unknown.message
  | .table error => error.message
  | .manifest failure => failure.message
  | .outside path base =>
    "manifest entry " ++ path ++ ": Rel: can't make " ++ path ++ " relative to " ++ base
  | .artifacts failure => failure.message

/-- A number of things, in words. -/
def counted (n : Nat) (one many : Text) : Text := Text.decimal n ++ " " ++ (if n = 1 then one else many)

/-! ## §2 Headers to module -/

namespace RunOptions

/-- Read the config list. -/
def listHeaders (o : RunOptions) (tree : FileTree) : Logged RunError (List Text) := do
  let headers ← (Logged.ofExcept (o.headers tree)).mapError RunError.headerList
  Logged.note {
    level := .debug
    message := "Read config list"
    attributes := [("file", .text o.configList), ("headers", .number headers.length)] }
  return headers

/-- Read one header into a module. -/
def readHeader (o : RunOptions) (tree : FileTree) (m : Module) (header : Text) : Logged RunError Module :=
  match tree.read (o.headerFile header) with
  | .error error => Logged.fail (.unreadableHeader header error)
  | .ok text => do
    let outcome := m.readHeader header text
    Logged.notes (outcome.notes header)
    match outcome.error with
    | some error => Logged.fail (.faultyHeader error)
    | none => return outcome.module

/-- Read headers into a module, one after the other. -/
def readHeaders (o : RunOptions) (tree : FileTree) : Module → List Text → Logged RunError Module
  | m, [] => pure m
  | m, header :: headers => do
    let m ← o.readHeader tree m header
    o.readHeaders tree m headers

end RunOptions

/-- Resolve a module whose types have no cycle. -/
def Module.resolved (m : Module) : Logged RunError Module := do
  Logged.notes m.resolveNotes
  match m.resolve.cycle with
  | some cycle => Logged.fail (.unresolved m.name cycle)
  | none => return m.resolve.module

/-- The texts of the artifacts of a module. -/
def Module.emitted (m : Module) (layout : Layout) : Logged RunError (List (Text × Text)) :=
  match m.emit layout with
  | .error unknown => Logged.fail (.unemitted m.name unknown)
  | .ok files => do
    Logged.notes (m.emitNotes files)
    return files

/-- The shared tables with what the module writes to them. -/
def Module.tableTexts (m : Module) (layout : Layout) (tree : FileTree) : Except TableError (List (Text × Text)) := do
  let typeIds ← updateTypeIds tree layout.typeIds m.name (m.entries.map (·.id))
  let dependencies ← updateDependencies tree layout.dependencies m.name m.dependencies
  return [(layout.typeIds, typeIds.text), (layout.dependencies, dependencies.text)]

/-! ## §3 The manifest -/

namespace RunOptions

/-- Whether a produced path belongs to the module alone and is not its manifest. -/
def owns (o : RunOptions) (path : Text) : Bool :=
  Text.beginsWith (o.layout.packageDir ++ "/") path && path ≠ o.manifest

/-- A path as the manifest lists it. -/
def manifestEntry (o : RunOptions) (path : Text) : Except RunError Text :=
  match relativePath? o.output path with
  | some entry => .ok entry
  | none => .error (.outside path o.output)

/-- What the manifest lists of a set. -/
def ownedEntries (o : RunOptions) (set : ArtifactSet) : Except RunError (List Text) :=
  (set.paths.filter o.owns).mapM o.manifestEntry

/-- The file of an entry of the manifest. -/
def entryFile (o : RunOptions) (entry : Text) : Text := joinPath [o.output, entry]

/-- The record of a stale file. -/
def staleNote (path : Text) : LogRecord where
  level := .debug
  message := "Removing stale file"
  attributes := [("file", .text path)]

/-- Take away what an earlier run has produced and this one has not, and produce the manifest. -/
def recorded (o : RunOptions) (tree : FileTree) (set : ArtifactSet) : Logged RunError ArtifactSet := do
  let earlier ← (Logged.ofExcept (Manifest.load tree o.manifest)).mapError RunError.manifest
  let entries ← Logged.ofExcept (o.ownedEntries set)
  let stale := (earlier.stale entries).map o.entryFile
  Logged.notes (stale.map staleNote)
  let next := ({ module := o.packageName, scope := o.scope } : Manifest).record entries
  return (stale.foldl ArtifactSet.remove set).add o.manifest next.encode

end RunOptions

/-! ## §4 Runs -/

/-- The outcome of a run before anything is written. -/
structure Build where
  options : RunOptions
  module : Module
  set : ArtifactSet
  deriving Repr

/-- The record of a finished build. -/
def Build.note (m : Module) (headers : List Text) : LogRecord where
  level := .info
  message := "Built module"
  attributes := [("summary", .text (counted m.entries.length "type" "types" ++ ", " ++
    counted m.classes.length "class" "classes" ++ " from " ++ counted headers.length "header" "headers"))]

/-- Build a module from options in normal form. -/
def RunOptions.build (o : RunOptions) (tree : FileTree) : Logged RunError Build := do
  let headers ← o.listHeaders tree
  let m ← o.readHeaders tree (Module.empty o.packageName o.scope) headers
  let m ← m.resolved
  let files ← m.emitted o.layout
  let tables ← (Logged.ofExcept (m.tableTexts o.layout tree)).mapError RunError.table
  let set ← o.recorded tree (ArtifactSet.addAll {} (files ++ tables))
  Logged.note (Build.note m headers)
  return { options := o, module := m, set }

namespace Options

/-- Build a module. All records of the build name the module. -/
def build (o : Options) (tree : FileTree) : Logged RunError Build :=
  match o.normalize with
  | .error error => Logged.fail (.options error)
  | .ok run => (run.build tree).within [("module", .text run.packageName)]

/-- The record of a finished generation. -/
def generatedNote (m : Module) (changes : List Change) : LogRecord :=
  if changes = [] then { level := .info, message := "No changes", attributes := [("module", .text m.name)] }
  else {
    level := .info
    message := "Updated module"
    attributes := [("module", .text m.name), ("changes", .text (counted changes.length "file" "files"))] }

/-- Build a module and write what has changed. -/
def generate (o : Options) (tree : FileTree) : FileTree × Logged RunError (List Change) :=
  let built := o.build tree
  match built.outcome with
  | .error error => (tree, { log := built.log, outcome := .error error })
  | .ok build =>
    let (tree, written) := build.set.commit tree
    (tree, do
      Logged.notes built.log
      let changes ← written.mapError RunError.artifacts
      Logged.note (generatedNote build.module changes)
      return changes)

end Options

/-! ## §5 Checks -/

/-- What a generation would change. -/
structure Report where
  changes : List Change
  deriving DecidableEq, Repr, Inhabited

namespace Report

/-- Whether nothing would change. -/
def isClean (r : Report) : Bool := r.changes.isEmpty

/-- The changes, one on a line. -/
def summary (r : Report) : List Text := r.changes.map Change.summary

/-- The lines of the summary that tell an effect. Of a path with several lines only the first one does. -/
def headings (r : Report) : List Text :=
  (r.summary.flatMap (Text.splitOn Text.lineFeed)).filter ChangeKind.startsLine

/-- What is told when something would change. -/
def outOfDateMessage (r : Report) : Text :=
  "generated files are out of date: " ++ Text.decimal r.changes.length ++ " file(s)"

end Report

/-- The record of a file that is out of date. -/
def outOfDateNote (c : Change) : LogRecord where
  level := .warn
  message := "Out of date"
  attributes := [("op", .text c.kind.name), ("file", .text c.path)]

/-- Build a module and compare it with what is there. -/
def Options.check (o : Options) (tree : FileTree) : Logged RunError Report := do
  let build ← o.build tree
  let changes ← (Logged.ofExcept (build.set.changes tree)).mapError RunError.artifacts
  Logged.notes (changes.map outOfDateNote)
  return { changes }

end HeaderReflection
