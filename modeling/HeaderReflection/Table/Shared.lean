import HeaderReflection.FileTree
import HeaderReflection.Table.Document

/-!
# Shared tables

Two tables are shared by all modules of an output directory: the enumeration of type ids and the lookup of
dependencies. A module replaces its own block in each and leaves those of the others alone. New blocks go before the
sentinel block.

## Main definitions

- `TableFile`: a block document that is loaded from a file or, while there is none, from a skeleton.
- `patchTable`: applying texts to such a file.
- `typeIdsBody`, `dependenciesBody`: what a module writes.
- `updateTypeIds`, `updateDependencies`: the tables after a module has written to them.
-/

namespace HeaderReflection

/-- The name of the block that new blocks go before. -/
def sentinelName : Text := "__end"

/-- The table of type ids without any module. -/
def typeIdsSkeleton : Text :=
  "#pragma once

// Generated by argen. Module blocks are rewritten on every run.

namespace agea
\x7b
enum type_ids
\x7b
    // block start __end
    type_ids_count
    // block end __end
\x7d;
\x7d  // namespace agea
"

/-- The table of dependencies without any module. -/
def dependenciesSkeleton : Text :=
  "#pragma once

// Generated by argen. Module blocks are rewritten on every run.

#include <string>
#include <vector>

namespace agea
\x7b
namespace glue
\x7b
inline std::vector<std::string>
get_dependencies(const std::string& id)
\x7b
    // block start __end
    return \x7b\x7d;
    // block end __end
\x7d
\x7d  // namespace glue
\x7d  // namespace agea
"

/-! ## §1 Loading -/

/-- Why a table cannot be loaded. -/
inductive TableError where
  /-- The file cannot be read. -/
  | unreadable (path : Text) (error : FileError)
  /-- The blocks of the file do not pair up. -/
  | malformed (path : Text) (fault : BlockFault)
  /-- The blocks of the skeleton do not pair up. -/
  | badSkeleton (path : Text) (fault : BlockFault)
  deriving DecidableEq, Repr, Inhabited

/-- The wording of a table error. -/
def TableError.message : TableError → Text
  | .unreadable path error => "read " ++ path ++ ": " ++ error.message
  | .malformed path fault => "parse " ++ path ++ ": " ++ fault.message
  | .badSkeleton path fault => "skeleton for " ++ path ++ ": " ++ fault.message

/-- A table with the text of its file, if there is a file. -/
structure TableFile where
  document : BlockDocument
  stored : Option Text
  deriving DecidableEq, Repr, Inhabited

/-- The new text of a table, and whether it differs from the file. -/
structure TableUpdate where
  text : Text
  changed : Bool
  deriving DecidableEq, Repr, Inhabited

/-- A table from the text of its file. -/
def TableFile.ofText (path stored : Text) : Except TableError TableFile :=
  match BlockDocument.parse stored with
  | .ok document => .ok { document, stored := some stored }
  | .error fault => .error (.malformed path fault)

/-- A table that has no file yet. -/
def TableFile.ofSkeleton (path skeleton : Text) : Except TableError TableFile :=
  match BlockDocument.parse skeleton with
  | .ok document => .ok { document, stored := none }
  | .error fault => .error (.badSkeleton path fault)

/-- Load a table from its file, or from its skeleton where there is no file. -/
def TableFile.load (tree : FileTree) (path skeleton : Text) : Except TableError TableFile :=
  match tree.read path with
  | .ok stored => ofText path stored
  | .error error =>
    if error.reason = .notExist then ofSkeleton path skeleton else .error (.unreadable path error)

/-- The text of a table whose document has changed. -/
def TableFile.updated (file : TableFile) (document : BlockDocument) : TableUpdate :=
  { text := document.render, changed := file.stored ≠ some document.render }

/-! ## §2 Updating -/

/-- Apply texts to a table. -/
def patchTable (tree : FileTree) (path : Text) (bodies : BlockDocument.Bodies) (skeleton sentinel : Text) :
    Except TableError TableUpdate := do
  let file ← TableFile.load tree path skeleton
  return file.updated (file.document.apply bodies sentinel)

/-- Replace the block of one module and keep those of the others. -/
def BlockDocument.replaceModule (d : BlockDocument) (module body : Text) : BlockDocument :=
  d.apply (d.bodies.set module body) sentinelName

/-- Replace the block of one module in a table. -/
def updateTable (tree : FileTree) (path skeleton module body : Text) : Except TableError TableUpdate := do
  let file ← TableFile.load tree path skeleton
  return file.updated (file.document.replaceModule module body)

/-- The enumerators of a module, in byte order. -/
def typeIdsBody (ids : List Text) : Text := (Text.sort ids).flatMap fun id => id ++ ",\n"

/-- The branch of the dependency lookup that answers for a module. -/
def dependenciesBody (module : Text) (dependencies : List Text) : Text :=
  "if (id == " ++ Text.quoted module ++ ")\n\x7b\n    return \x7b" ++
    Text.joinWith ", " (dependencies.map Text.quoted) ++ "\x7d;\n\x7d"

/-- The table of type ids with those of a module. -/
def updateTypeIds (tree : FileTree) (path module : Text) (ids : List Text) : Except TableError TableUpdate :=
  updateTable tree path typeIdsSkeleton module (typeIdsBody ids)

/-- The table of dependencies with those of a module. -/
def updateDependencies (tree : FileTree) (path module : Text) (dependencies : List Text) :
    Except TableError TableUpdate :=
  updateTable tree path dependenciesSkeleton module (dependenciesBody module dependencies)

end HeaderReflection
