import HeaderReflection.Artifact.Accessor

/-!
# Class headers

The header of a class defines a macro that declares the accessors of its properties.
-/

namespace HeaderReflection

/-- The header of a class: its name and the accessors it declares. -/
structure ClassHeader where
  name : Text
  accessors : List Accessor
  deriving DecidableEq, Repr, Inhabited

namespace ClassHeader

/-- The header of a declared class. -/
def ofDeclaration (d : Declaration) : ClassHeader where
  name := d.name
  accessors := d.properties.flatMap Property.declaredAccessors

/-- The text of a class header. -/
def render (h : ClassHeader) : Text :=
  sourceText [
    ["#pragma once",
     "",
     "#define AGEA_gen_meta__" ++ h.name ++ "() \\",
     "    friend class package; \\"],
    h.accessors.flatMap Accessor.declarationLines,
    ["private:"]]

end ClassHeader

end HeaderReflection
