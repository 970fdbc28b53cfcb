import HeaderReflection.Text.Basic

/-!
# Source text

Generated sources are lists of lines. Statements are kept apart from their layout: what is assigned to what is a value,
and its alignment and indentation come last.

## Main definitions

- `Statement`: a statement of a generated function, and `Statement.render`.
- `indented`: statements as lines.
- `inOrder`, `sourceText`: groups of lines, and groups of lines as a file.
-/

namespace HeaderReflection

/-- A statement of a generated function. -/
inductive Statement where
  /-- An assignment; the left side is filled up to a common width. -/
  | assign (target value : Text)
  /-- The allocation of the script handle of a type. -/
  | allocate (name qualified : Text)
  /-- Anything else, as written. -/
  | plain (text : Text)
  deriving DecidableEq, Repr, Inhabited

/-- The name of the variable that holds the script handle of a type. -/
def scriptHandle (name : Text) : Text := name ++ "_lua_type"

/-- The name of the template that binds the members of a type for scripts. -/
def scriptTemplate (name : Text) : Text := name ++ "__lua_script_extention"

namespace Statement

/-- The width to which the left sides of assignments are filled. -/
def targetWidth : Nat := 24

/-- The text of a statement. -/
def render : Statement → Text
  | .assign target value => Text.padRight targetWidth target ++ " = " ++ value ++ ";"
  | .allocate name qualified =>
    scriptHandle name ++ " = std::make_unique<sol::usertype<" ++ qualified ++ ">>();"
  | .plain text => text

/-- An assignment if there is something to assign. -/
def assignSome (target : Text) (value : Option Text) : List Statement :=
  (value.map (Statement.assign target)).toList

end Statement

/-- A line moved to the right; an empty line stays empty. -/
def indentBy (width : Nat) (line : Text) : Text :=
  if line = [] then [] else List.replicate width (Text.byte ' ') ++ line

/-- Statements as lines at an indentation. -/
def indented (width : Nat) (statements : List Statement) : List Text :=
  statements.flatMap fun s => (Text.splitOn Text.lineFeed s.render).map (indentBy width)

/-- Groups of lines, one after the other. -/
def inOrder (groups : List (List Text)) : List Text := groups.flatten

/-- Groups of lines as a file: every line has its end. -/
def sourceText (groups : List (List Text)) : Text := (inOrder groups).flatMap (· ++ [Text.lineFeed])

end HeaderReflection
