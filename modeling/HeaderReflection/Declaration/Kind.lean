import HeaderReflection.Text.Basic

/-!
# Kinds of types and access of properties

## Main definitions

- `Kind`: class, struct or external type, and the numbers that stand for them.
- `Access`: who may read and write a property, and which accessors follow from it.
-/

namespace HeaderReflection

/-- What a declared type is. -/
inductive Kind where
  /-- A polymorphic object with single inheritance and properties. -/
  | classType
  /-- A value type with constructors. -/
  | structType
  /-- A type that exists elsewhere and only gets an id. -/
  | external
  /-- A number that stands for no kind. -/
  | unknown (code : Int)
  deriving DecidableEq, Repr, Inhabited

namespace Kind

/-- The number of a kind; kinds are ordered by it. -/
def code : Kind → Int
  | .classType => 1
  | .structType => 2
  | .external => 3
  | .unknown code => code

/-- The kind with a number. -/
def ofCode (code : Int) : Kind :=
  if code = 1 then .classType else if code = 2 then .structType else if code = 3 then .external else .unknown code

/-- The enumerator that stands for the kind in generated sources. -/
def name : Kind → Text
  | .classType => "agea_class"
  | .structType => "agea_struct"
  | .external => "agea_external"
  | .unknown code => "Kind(" ++ Text.decimalInt code ++ ")"

/-- Whether this is a kind that sources can be generated for. -/
def isKnown : Kind → Bool
  | .unknown _ => false
  | _ => true

end Kind

/-- Who may read and write a property. -/
inductive Access where
  | no
  | cppReadOnly
  | cppOnly
  | cppWriteOnly
  | scriptReadOnly
  | scriptWriteOnly
  | readOnly
  | writeOnly
  | all
  /-- A spelling that stands for no access mode; it allows nothing. -/
  | unknown (spelling : Text)
  deriving DecidableEq, Repr, Inhabited

namespace Access

/-- The access modes, in the order in which they are listed to the user. -/
def modes : List Access :=
  [.no, .cppReadOnly, .cppOnly, .cppWriteOnly, .scriptReadOnly, .scriptWriteOnly, .readOnly, .writeOnly, .all]

/-- The spelling of an access mode. -/
def spelling : Access → Text
  | .no => "no"
  | .cppReadOnly => "cpp_readonly"
  | .cppOnly => "cpp_only"
  | .cppWriteOnly => "cpp_writeonly"
  | .scriptReadOnly => "script_readonly"
  | .scriptWriteOnly => "script_writeonly"
  | .readOnly => "read_only"
  | .writeOnly => "write_only"
  | .all => "all"
  | .unknown spelling => spelling

/-- The access mode with a spelling, if there is one. -/
def ofSpelling? (text : Text) : Option Access := modes.find? (·.spelling = text)

/-- The access that a spelling stands for, known or not. -/
def ofSpelling (text : Text) : Access := (ofSpelling? text).getD (.unknown text)

/-- Whether the property has a getter. -/
def hasGetter : Access → Bool
  | .cppReadOnly | .cppOnly | .scriptReadOnly | .readOnly | .all => true
  | _ => false

/-- Whether the property has a setter. -/
def hasSetter : Access → Bool
  | .cppOnly | .cppWriteOnly | .scriptWriteOnly | .writeOnly | .all => true
  | _ => false

/-- Whether scripts may call the getter. -/
def scriptGetter : Access → Bool
  | .scriptReadOnly | .readOnly | .all => true
  | _ => false

/-- Whether scripts may call the setter. -/
def scriptSetter : Access → Bool
  | .scriptWriteOnly | .writeOnly | .all => true
  | _ => false

end Access

end HeaderReflection
