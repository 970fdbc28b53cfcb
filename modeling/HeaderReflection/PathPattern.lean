import HeaderReflection.PathPattern.Plan

/-!
# Path patterns

Patterns that pick header paths. A pattern is read once from its text, and then fits a path or does not.

## Main definitions

- `PathPattern.ofText?`: a pattern from its text.
- `PathPattern.fits`: whether a pattern fits a whole path.
-/

namespace HeaderReflection

/-- A pattern for paths. -/
structure PathPattern where
  pieces : List PathPattern.Piece
  deriving Repr, Inhabited

namespace PathPattern

/-- A pattern from its text, if its brackets are well formed. -/
def ofText? (text : Text) : Option PathPattern := (pieces? text).map fun pieces => { pieces }

/-- The matcher of a pattern. -/
def matcher (pattern : PathPattern) : Matcher := plan pattern.pieces

/-- Whether a pattern fits a whole path. -/
def fits (pattern : PathPattern) (path : Text) : Bool := pattern.matcher.fits path

end PathPattern

end HeaderReflection
