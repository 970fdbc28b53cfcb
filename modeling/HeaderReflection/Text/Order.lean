import HeaderReflection.Text.Basic

/-!
# Byte order and sorted lists

Names and paths are ordered by their bytes, a proper beginning first. Lists are sorted by insertion, which is
stable: elements that compare equal keep their order.

## Main definitions

- `Text.lt`, `Text.le`: the byte order.
- `sortBy`: stable sorting by an order given as a Boolean.
- `Text.sort`: a list of texts in byte order.
- `Text.insertUnique`: insertion into a strictly increasing list.
-/

namespace HeaderReflection

/-- Insert before the first element that the new one may precede. -/
def insertBy (le : α → α → Bool) (a : α) : List α → List α
  | [] => [a]
  | b :: rest => if le a b then a :: b :: rest else b :: insertBy le a rest

/-- Stable sorting: elements that may precede each other keep their order. -/
def sortBy (le : α → α → Bool) (xs : List α) : List α := xs.foldr (insertBy le) []

namespace Text

/-- The byte order: the first differing byte decides, and a proper beginning comes first. -/
def lt : Text → Text → Bool
  | _, [] => false
  | [], _ :: _ => true
  | a :: s, b :: t => a < b || (a == b && lt s t)

/-- Not after, in byte order. -/
def le (s t : Text) : Bool := !lt t s

/-- A list of texts in byte order. -/
def sort (texts : List Text) : List Text := sortBy le texts

/-- Insert a text into a strictly increasing list; a text that is already there is not repeated. -/
def insertUnique (t : Text) : List Text → List Text
  | [] => [t]
  | s :: rest => if lt s t then s :: insertUnique t rest else if s = t then s :: rest else t :: s :: rest

/-- Each text once, at the place of its first occurrence. -/
def dedup (texts : List Text) : List Text :=
  texts.foldl (fun seen t => if seen.contains t then seen else seen ++ [t]) []

end Text

end HeaderReflection
