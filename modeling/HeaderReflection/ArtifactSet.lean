import HeaderReflection.FileTree
import HeaderReflection.Log

/-!
# Artifact sets

The files that a run produces and the files that it takes away are gathered first and written in one go at the end. A
file that already has the right content is not written again.

## Main definitions

- `ArtifactSet`: produced files and removed paths, both by normal form of their paths.
- `Change`: what writing a set would do to one path.
- `ArtifactSet.changes`: the changes of a set against a file tree.
- `ArtifactSet.commit`: carrying them out.
-/

namespace HeaderReflection

/-- The effect of a change. -/
inductive ChangeKind where
  | create
  | update
  | delete
  deriving DecidableEq, Repr, Inhabited

/-- The word for an effect. -/
def ChangeKind.name : ChangeKind → Text
  | .create => "create"
  | .update => "update"
  | .delete => "delete"

/-- Whether a line starts with the word for an effect. -/
def ChangeKind.startsLine (line : Text) : Bool :=
  [ChangeKind.create, .update, .delete].any fun kind => Text.beginsWith (kind.name ++ " ") line

/-- What writing a set does to one path. A file that is not there before or after counts as empty. -/
structure Change where
  path : Text
  kind : ChangeKind
  old : Text
  new : Text
  deriving DecidableEq, Repr, Inhabited

/-- The lines of a content. A final line end does not start another line, and nothing has no lines. -/
def contentLines (content : Text) : List Text :=
  if content = [] then [] else Text.splitOn Text.lineFeed (Text.trimSuffix [Text.lineFeed] content)

/-- Whether a line by line comparison of a change has nothing to show. -/
def Change.sameLines (c : Change) : Bool := contentLines c.old = contentLines c.new

/-- A change in one line. -/
def Change.summary (c : Change) : Text := c.kind.name ++ " " ++ c.path

/-- The files that a run produces and the paths that it takes away. -/
structure ArtifactSet where
  /-- The produced files in strictly increasing byte order of their paths. -/
  files : List (Text × Text) := []
  /-- The removed paths in strictly increasing byte order. -/
  removed : List Text := []
  deriving DecidableEq, Repr, Inhabited

namespace ArtifactSet

/-! ## §1 Gathering -/

/-- Put a file at its place in a list that is ordered by path. -/
def insertFile (path text : Text) : List (Text × Text) → List (Text × Text)
  | [] => [(path, text)]
  | file :: files =>
    if Text.lt file.1 path then file :: insertFile path text files
    else if file.1 = path then (path, text) :: files
    else (path, text) :: file :: files

/-- Produce a file. Earlier content of the path is replaced, and the path is no longer removed. -/
def add (s : ArtifactSet) (path text : Text) : ArtifactSet :=
  let path := cleanPath path
  { files := insertFile path text s.files, removed := s.removed.filter (· ≠ path) }

/-- Produce several files one after the other. -/
def addAll (s : ArtifactSet) (files : List (Text × Text)) : ArtifactSet :=
  files.foldl (fun s (path, text) => s.add path text) s

/-- The content of a produced file. -/
def get? (s : ArtifactSet) (path : Text) : Option Text :=
  (s.files.find? (·.1 = cleanPath path)).map (·.2)

/-- Take a path away, unless it is produced. -/
def remove (s : ArtifactSet) (path : Text) : ArtifactSet :=
  if (s.get? path).isSome then s else { s with removed := Text.insertUnique (cleanPath path) s.removed }

/-- The produced paths in byte order. -/
def paths (s : ArtifactSet) : List Text := s.files.map (·.1)

/-! ## §2 Changes -/

/-- Why a set cannot be compared or written. -/
inductive Failure where
  /-- A path cannot be read. -/
  | unreadable (path : Text) (error : FileError)
  /-- The directory of a path cannot be made. -/
  | noDirectory (path : Text) (error : FileError)
  /-- A path cannot be written. -/
  | unwritable (path : Text) (error : FileError)
  deriving DecidableEq, Repr, Inhabited

/-- The wording of a failure. -/
def Failure.message : Failure → Text
  | .unreadable path error => "read " ++ path ++ ": " ++ error.message
  | .noDirectory path error => "create directory for " ++ path ++ ": " ++ error.message
  | .unwritable path error => "write " ++ path ++ ": " ++ error.message

/-- What is at a path: a content or nothing. -/
def stored (tree : FileTree) (path : Text) : Except Failure (Option Text) :=
  match tree.read path with
  | .ok content => .ok (some content)
  | .error error => if error.reason = .notExist then .ok none else .error (.unreadable path error)

/-- The change that producing a file makes, if there is one. -/
def produceChange (tree : FileTree) (file : Text × Text) : Except Failure (Option Change) := do
  match ← stored tree file.1 with
  | none => return some { path := file.1, kind := .create, old := [], new := file.2 }
  | some old =>
    if old = file.2 then return none
    else return some { path := file.1, kind := .update, old, new := file.2 }

/-- The change that removing a path makes, if there is one. -/
def removeChange (tree : FileTree) (path : Text) : Except Failure (Option Change) := do
  match ← stored tree path with
  | none => return none
  | some old => return some { path, kind := .delete, old, new := [] }

/-- The changes of a set against a file tree: produced files first, then removed paths. -/
def changes (s : ArtifactSet) (tree : FileTree) : Except Failure (List Change) := do
  let produced ← s.files.mapM (produceChange tree)
  let removed ← s.removed.mapM (removeChange tree)
  return (produced ++ removed).filterMap id

/-! ## §3 Committing -/

/-- Carry out a change. -/
def applyChange (tree : FileTree) (c : Change) : Except Failure FileTree :=
  match c.kind with
  | .delete => .ok (tree.remove c.path)
  | _ =>
    match tree.makeDirs (parentDir c.path) with
    | .error error => .error (.noDirectory c.path error)
    | .ok tree =>
      match tree.write c.path c.new with
      | .error error => .error (.unwritable c.path error)
      | .ok tree => .ok tree

/-- The record of a change that has been carried out. -/
def changeNote (c : Change) : LogRecord where
  level := .info
  message := "Generated file"
  attributes := [("op", .text c.kind.name), ("file", .text c.path)]

/-- Carry out changes one after the other, up to the first that fails. The tree keeps what has been done. -/
def applyChanges : FileTree → List Change → FileTree × Logged Failure Unit
  | tree, [] => (tree, pure ())
  | tree, c :: cs =>
    match applyChange tree c with
    | .error failure => (tree, Logged.fail failure)
    | .ok tree =>
      let (tree, rest) := applyChanges tree cs
      (tree, do Logged.note (changeNote c); rest)

/-- Write a set to a file tree. -/
def commit (s : ArtifactSet) (tree : FileTree) : FileTree × Logged Failure (List Change) :=
  match s.changes tree with
  | .error failure => (tree, Logged.fail failure)
  | .ok changes =>
    let (tree, done) := applyChanges tree changes
    (tree, do done; return changes)

end ArtifactSet

end HeaderReflection
