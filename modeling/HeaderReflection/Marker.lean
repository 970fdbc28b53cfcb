import HeaderReflection.Text.Blank

/-!
# Markers

A marker is a macro call that annotates the declaration after it. A line opens a marker when, blanks aside, it starts
with the marker's name and the name ends there: a longer macro name that begins alike is no marker.

## Main definitions

- `Marker`, `Marker.name`: the markers and their names.
- `Marker.ofLine?`: the marker a line opens.
-/

namespace HeaderReflection

/-- The annotations of a header. -/
inductive Marker where
  | modelOverrides
  | renderOverrides
  | classType
  | structType
  | function
  | property
  | constructor
  | externalType
  | package
  deriving DecidableEq, Repr, Inhabited

namespace Marker

/-- The markers in the order in which a line is compared with them. -/
def all : List Marker :=
  [.modelOverrides, .renderOverrides, .classType, .structType, .function, .property, .constructor, .externalType,
   .package]

/-- The macro name of a marker. -/
def name : Marker → Text
  | .modelOverrides => "AGEA_ar_model_overrides"
  | .renderOverrides => "AGEA_ar_render_overrides"
  | .classType => "AGEA_ar_class"
  | .structType => "AGEA_ar_struct"
  | .function => "AGEA_ar_function"
  | .property => "AGEA_ar_property"
  | .constructor => "AGEA_ar_ctor"
  | .externalType => "AGEA_ar_external_type"
  | .package => "AGEA_ar_package"

/-- The name of a marker, or a word for no marker. -/
def nameOrNone : Option Marker → Text
  | some marker => marker.name
  | none => "none"

/-- Whether a macro name ends before this text: at its end, at a parenthesis, a space or a tab. -/
def endsName : Text → Bool
  | [] => true
  | b :: _ => b = Text.byte '(' || b = Text.byte ' ' || b = Text.byte '\t'

/-- Whether a trimmed line opens this marker. -/
def opens (marker : Marker) (line : Text) : Bool :=
  match Text.stripPrefix? marker.name line with
  | some rest => endsName rest
  | none => false

/-- The marker a line opens. -/
def ofLine? (line : Text) : Option Marker :=
  let line := line.trim
  all.find? (opens · line)

end Marker

end HeaderReflection
