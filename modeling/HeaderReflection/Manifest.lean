import HeaderReflection.FileTree
import HeaderReflection.Yaml.Entries
import HeaderReflection.Yaml.Scalar

/-!
# Manifests

A manifest records which files a module has generated, relative to the output directory. What an earlier manifest lists
and a later run no longer produces is stale.

## Main definitions

- `Manifest`: the module and its files.
- `Manifest.encode`, `Manifest.decode?`: to and from the text of a YAML document.
- `Manifest.load`, `Manifest.save`: from and to a file.
- `Manifest.record`, `Manifest.stale`: the files of a run, and those that are no longer among them.
-/

namespace HeaderReflection

/-- The files that a module has generated. -/
structure Manifest where
  module : Text := []
  /-- The namespace around the module, empty if there is none. -/
  scope : Text := []
  files : List Text := []
  deriving DecidableEq, Repr, Inhabited

namespace Manifest

/-! ## §1 Text -/

/-- A key with a scalar. -/
def entryLine (key value : Text) : Text := key ++ ": " ++ Yaml.scalarLine 4 value

/-- A file in the list of files. -/
def fileLine (file : Text) : Text := "    - " ++ Yaml.scalarLine 6 file

/-- The list of files. -/
def fileLines (files : List Text) : Text :=
  if files = [] then "files: []\n" else "files:\n" ++ files.flatMap fileLine

/-- A manifest as a document. An empty namespace is left out. -/
def encode (m : Manifest) : Text :=
  entryLine "module" m.module ++ (if m.scope = [] then [] else entryLine "namespace" m.scope) ++ fileLines m.files

/-- The text of a scalar; none if it stands for nothing. -/
def decodeText (d : Yaml.Document) (referred : Bool) (node : Yaml.Node) : Yaml.Decode (Option Text) := do
  match ← Yaml.Decode.follow d referred node with
  | (.scalar content isPlain tag, _) =>
    let some text := Yaml.scalarText? content isPlain tag | failure
    return text
  | _ => failure

/-- The texts of a list of scalars. Null stands for no list, and null items are left out. -/
def decodeTexts (d : Yaml.Document) (referred : Bool) (node : Yaml.Node) : Yaml.Decode (List Text) := do
  match ← Yaml.Decode.follow d referred node with
  | (.sequence items, referred) =>
    let texts ← items.mapM (decodeText d referred)
    return texts.filterMap id
  | (.scalar content isPlain tag, _) =>
    if Yaml.scalarValue? content isPlain tag = some .null then return [] else failure
  | _ => failure

/-- Take one entry of a document into a manifest. Keys that mean nothing are passed over. -/
def withEntry (d : Yaml.Document) (m : Manifest) (entry : Yaml.Entry) : Yaml.Decode Manifest := do
  if entry.key = .text "module" then
    let text ← decodeText d entry.referred entry.node
    return { m with module := text.getD m.module }
  else if entry.key = .text "namespace" then
    let text ← decodeText d entry.referred entry.node
    return { m with scope := text.getD m.scope }
  else if entry.key = .text "files" then
    return { m with files := ← decodeTexts d entry.referred entry.node }
  else return m

/-- Whether a key that means something comes twice. -/
def hasTwice (entries : List Yaml.Entry) : Bool :=
  let count (key : Text) : Nat := (entries.filter (·.key = .text key)).length
  1 < count "module" || 1 < count "namespace" || 1 < count "files"

/-- The manifest in a document. A document with nothing in it is the empty manifest. -/
def ofDocument (d : Yaml.Document) : Yaml.Decode Manifest := do
  let some root := d.root | return {}
  Yaml.Decode.visit false
  match ← Yaml.Decode.follow d false root with
  | (.mapping pairs, referred) =>
    let entries ← Yaml.entries d true referred pairs
    if hasTwice entries then failure else entries.foldlM (withEntry d) {}
  | (.scalar content isPlain tag, _) =>
    if Yaml.scalarValue? content isPlain tag = some .null then return {} else failure
  | _ => failure

/-- The manifest in the text of a document. -/
def decode? (text : Text) : Option Manifest := do
  let d ← Yaml.Document.parse? text
  let (m, _) ← ofDocument d {}
  return m

/-! ## §2 Files -/

/-- What can go wrong with a manifest file. -/
inductive Failure where
  /-- The file cannot be read. -/
  | unreadable (error : FileError)
  /-- The file holds no manifest. -/
  | undecodable
  /-- The directory of the file cannot be made. -/
  | noDirectory (error : FileError)
  /-- The file cannot be written. -/
  | unwritable (error : FileError)
  deriving DecidableEq, Repr, Inhabited

/-- The wording of a failure. -/
def Failure.message : Failure → Text
  | .unreadable error => "read manifest: " ++ error.message
  | .undecodable => "unmarshal manifest"
  | .noDirectory error => "create manifest directory: " ++ error.message
  | .unwritable error => "write manifest: " ++ error.message

/-- The manifest in a file; where there is no file, the empty manifest. -/
def load (tree : FileTree) (path : Text) : Except Failure Manifest :=
  match tree.read path with
  | .error error => if error.reason = .notExist then .ok {} else .error (.unreadable error)
  | .ok text =>
    match decode? text with
    | some m => .ok m
    | none => .error .undecodable

/-- Write a manifest to a file, with the directories it needs. -/
def save (m : Manifest) (tree : FileTree) (path : Text) : Except Failure FileTree :=
  match tree.makeDirs (parentDir path) with
  | .error error => .error (.noDirectory error)
  | .ok tree =>
    match tree.write path m.encode with
    | .error error => .error (.unwritable error)
    | .ok tree => .ok tree

/-! ## §3 Runs -/

/-- The recorded files that are not among the given ones, in byte order. -/
def stale (m : Manifest) (files : List Text) : List Text := Text.sort (m.files.filter (!files.contains ·))

/-- The manifest with the given files, each once and in byte order. -/
def record (m : Manifest) (files : List Text) : Manifest := { m with files := Text.sort (Text.dedup files) }

end Manifest

end HeaderReflection
