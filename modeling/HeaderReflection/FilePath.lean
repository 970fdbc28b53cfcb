import HeaderReflection.Text.Basic

/-!
# File paths

A path is a text with slashes. Its normal form has no empty or dot component, keeps `..` only at the start of a
relative path, and writes the empty relative path as a dot. Two paths with the same normal form name the same file
in a tree without links.

## Main definitions

- `FilePath`: a path in normal form, rooted or not, as a list of components.
- `FilePath.parse`, `FilePath.render`: from and to text.
- `cleanPath`, `joinPath`, `parentDir`: normal form, composition and parent of paths as texts.
- `relativePath?`: the way from one path to another.
-/

namespace HeaderReflection

/-- A path in normal form. -/
structure FilePath where
  /-- Whether the path starts at the root of the file system. -/
  rooted : Bool
  /-- The components, outermost first. -/
  parts : List Text
  deriving DecidableEq, Repr, Inhabited

namespace FilePath

/-- The byte between components. -/
abbrev slash : UInt8 := Text.byte '/'

/-- The component that means the directory itself. -/
def here : Text := "."

/-- The component that means the parent directory. -/
def up : Text := ".."

/-- Add a component to components that are stored innermost first. An empty component and a dot add nothing; `..`
takes the component before it away, stays at the start of a relative path and vanishes at the root. -/
def push (rooted : Bool) (parts : List Text) (part : Text) : List Text :=
  if part = [] ∨ part = here then parts
  else if part = up then
    match parts with
    | [] => if rooted then [] else [up]
    | last :: rest => if last = up then up :: last :: rest else rest
  else part :: parts

/-- The normal form of a path. -/
def parse (text : Text) : FilePath :=
  let rooted := Text.beginsWith [slash] text
  { rooted, parts := ((Text.splitOn slash text).foldl (push rooted) []).reverse }

/-- A normal form as text. -/
def render (path : FilePath) : Text :=
  let joined := Text.joinWith [slash] path.parts
  if path.rooted then slash :: joined else if path.parts = [] then here else joined

end FilePath

/-- The normal form of a path, as text. -/
def cleanPath (text : Text) : Text := (FilePath.parse text).render

/-- The parts of a path one below the other; leading empty parts are left out, and no part at all gives the empty
text. -/
def joinPath (parts : List Text) : Text :=
  match parts.dropWhile (· = []) with
  | [] => []
  | rest => cleanPath (Text.joinWith [FilePath.slash] rest)

/-- The directory that holds a path. -/
def parentDir (text : Text) : Text :=
  cleanPath (text.reverse.dropWhile (· ≠ FilePath.slash)).reverse

/-- The components that two lists do not share at their starts. -/
def afterCommon : List Text → List Text → List Text × List Text
  | a :: as, b :: bs => if a = b then afterCommon as bs else (a :: as, b :: bs)
  | as, bs => (as, bs)

/-- The relative path that leads from a base to a target. There is none between a rooted and a relative path, and none
from a base that leaves the common ancestor by an unknown way. -/
def relativePath? (base target : Text) : Option Text :=
  let b := FilePath.parse base
  let t := FilePath.parse target
  if b.rooted ≠ t.rooted then none
  else
    let (ups, downs) := afterCommon b.parts t.parts
    if ups.head? = some FilePath.up then none
    else some ({ rooted := false, parts := ups.map (fun _ => FilePath.up) ++ downs : FilePath }.render)

end HeaderReflection
