import HeaderReflection.FilePath
import HeaderReflection.Text.Order

/-!
# File trees

The files and directories below and around the current directory, as a value. Reading and writing fail for three
reasons only: something does not exist, is a directory, or is no directory where one is needed.

Places are paths in normal form. The current directory, the directories above it and the root always exist.

## Main definitions

- `FileTree`: the nodes at their places.
- `FileTree.read`, `FileTree.write`, `FileTree.makeDirs`, `FileTree.remove`: what a program does with files.
- `FileTree.place`, `FileTree.placeDir`, `FileTree.prune`: edits that make room for themselves.
- `FileTree.files`: the files below the current directory, in byte order of their paths.
-/

namespace HeaderReflection

/-- Why a file operation fails. -/
inductive FileReason where
  | notExist
  | isDirectory
  | notDirectory
  deriving DecidableEq, Repr, Inhabited

/-- The wording of a reason. -/
def FileReason.message : FileReason → Text
  | .notExist => "no such file or directory"
  | .isDirectory => "is a directory"
  | .notDirectory => "not a directory"

/-- The operation that fails. -/
inductive FileAction where
  | open
  | read
  | makeDir
  deriving DecidableEq, Repr, Inhabited

/-- The wording of an operation. -/
def FileAction.message : FileAction → Text
  | .open => "open"
  | .read => "read"
  | .makeDir => "mkdir"

/-- A failed file operation: what was done, to which path, and why it failed. -/
structure FileError where
  action : FileAction
  path : Text
  reason : FileReason
  deriving DecidableEq, Repr, Inhabited

/-- The wording of a failed file operation. -/
def FileError.message (e : FileError) : Text :=
  e.action.message ++ " " ++ e.path ++ ": " ++ e.reason.message

/-- What stands at a place of a file tree. -/
inductive FileNode where
  | file (content : Text)
  | directory
  deriving DecidableEq, Repr, Inhabited

/-- A file tree: its nodes at their places. Of two nodes at one place the first counts. -/
structure FileTree where
  nodes : List (FilePath × FileNode) := []
  deriving Repr, Inhabited

namespace FileTree

/-! ## §1 Places -/

/-- Whether a place exists in every tree: the current directory, what is above it, and the root. -/
def isAlwaysThere (place : FilePath) : Bool := place.parts.all (· = FilePath.up)

/-- What stands at a place. -/
def node? (tree : FileTree) (place : FilePath) : Option FileNode :=
  if isAlwaysThere place then some .directory
  else (tree.nodes.find? (·.1 = place)).map (·.2)

/-- Step from a directory into a component. The parts are stored innermost first. -/
def enter (tree : FileTree) (rooted : Bool) (parts : List Text) (part : Text) : Except FileReason (List Text) :=
  match tree.node? { rooted, parts := parts.reverse } with
  | none => .error .notExist
  | some (.file _) => .error .notDirectory
  | some .directory => .ok (FilePath.push rooted parts part)

/-- The place that a path leads to, going through its components one by one. Every component but the last must be a
directory; the last need not exist. -/
def locate (tree : FileTree) (path : Text) : Except FileReason FilePath :=
  if path = [] then .error .notExist
  else
    let rooted := Text.beginsWith [FilePath.slash] path
    match (Text.splitOn FilePath.slash path).foldlM (tree.enter rooted) [] with
    | .ok parts => .ok { rooted, parts := parts.reverse }
    | .error reason => .error reason

/-- What a path leads to. -/
def lookup (tree : FileTree) (path : Text) : Except FileReason FileNode :=
  match tree.locate path with
  | .error reason => .error reason
  | .ok place =>
    match tree.node? place with
    | none => .error .notExist
    | some node => .ok node

/-! ## §2 Reading and writing -/

/-- The content of a file. -/
def read (tree : FileTree) (path : Text) : Except FileError Text :=
  match tree.lookup path with
  | .error reason => .error { action := .open, path, reason }
  | .ok .directory => .error { action := .read, path, reason := .isDirectory }
  | .ok (.file content) => .ok content

/-- Put a node at a place. -/
def put (tree : FileTree) (place : FilePath) (node : FileNode) : FileTree :=
  if tree.nodes.any (·.1 = place) then
    { nodes := tree.nodes.map fun (p, n) => if p = place then (p, node) else (p, n) }
  else { nodes := tree.nodes ++ [(place, node)] }

/-- Write a file whose directory exists. -/
def write (tree : FileTree) (path content : Text) : Except FileError FileTree :=
  match tree.locate path with
  | .error reason => .error { action := .open, path, reason }
  | .ok place =>
    match tree.node? place with
    | some .directory => .error { action := .open, path, reason := .isDirectory }
    | _ => .ok (tree.put place (.file content))

/-- Make a directory below one that exists, unless it is there already. -/
def makeDir (tree : FileTree) (place : FilePath) : Except FileError FileTree :=
  match tree.node? place with
  | some .directory => .ok tree
  | some (.file _) => .error { action := .makeDir, path := place.render, reason := .notDirectory }
  | none => .ok (tree.put place .directory)

/-- Make the directories of a path one after the other, outermost first. -/
def makeDirs (tree : FileTree) (path : Text) : Except FileError FileTree :=
  let place := FilePath.parse path
  (List.range (place.parts.length + 1)).foldlM
    (fun tree n => tree.makeDir { place with parts := place.parts.take n }) tree

/-- Take a file away. A path that leads to no file changes nothing. -/
def remove (tree : FileTree) (path : Text) : FileTree :=
  match tree.locate path with
  | .error _ => tree
  | .ok place =>
    match tree.node? place with
    | some (.file _) => { nodes := tree.nodes.filter (·.1 ≠ place) }
    | _ => tree

/-! ## §3 Edits -/

/-- Put the directories of a place into a tree, over whatever stands there. -/
def withDirs (tree : FileTree) (place : FilePath) : FileTree :=
  (List.range (place.parts.length + 1)).foldl
    (fun tree n =>
      let dir : FilePath := { place with parts := place.parts.take n }
      match tree.node? dir with
      | some .directory => tree
      | _ => tree.put dir .directory)
    tree

/-- Put a file into a tree, with the directories it needs. -/
def place (tree : FileTree) (path content : Text) : FileTree :=
  let place := FilePath.parse path
  (tree.withDirs { place with parts := place.parts.dropLast }).put place (.file content)

/-- Put an empty directory into a tree, with the directories it needs. -/
def placeDir (tree : FileTree) (path : Text) : FileTree := tree.withDirs (FilePath.parse path)

/-- Take a file, or a directory with all that is in it, out of a tree. -/
def prune (tree : FileTree) (path : Text) : FileTree :=
  let place := FilePath.parse path
  { nodes := tree.nodes.filter fun (p, _) => !(p.rooted = place.rooted && place.parts.isPrefixOf p.parts) }

/-! ## §4 Listing -/

/-- Whether a place lies below the current directory. -/
def isInside (place : FilePath) : Bool := !place.rooted && place.parts.head? ≠ some FilePath.up

/-- The files below the current directory with their contents, in byte order of their paths. -/
def files (tree : FileTree) : List (Text × Text) :=
  sortBy (fun a b => Text.le a.1 b.1) (tree.nodes.filterMap fun (place, node) =>
    match node with
    | .file content => if isInside place then some (place.render, content) else none
    | .directory => none)

end FileTree

end HeaderReflection
