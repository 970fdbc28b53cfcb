import HeaderReflection.Marker
import HeaderReflection.Declaration.Kind
import HeaderReflection.Text.Quoted

/-!
# Faults in headers

What can be wrong with a header, and how it is told to the user: where, what rule is broken, and a detail.

## Main definitions

- `HeaderFault`: the causes.
- `HeaderFault.rule`, `HeaderFault.detail`: the broken rule and the detail.
- `HeaderError`: a fault at its place, with `HeaderError.message`.
-/

namespace HeaderReflection

/-- The declarations that are open at a place of a header. -/
structure OpenContext where
  inClass : Bool
  inStruct : Bool
  deriving DecidableEq, Repr, Inhabited

/-- The wording of a context. -/
def OpenContext.message : OpenContext → Text
  | ⟨false, false⟩ => "idle"
  | ⟨true, false⟩ => "in class"
  | ⟨false, true⟩ => "in struct"
  | ⟨true, true⟩ => "in class and struct"

/-- The things attributes can be about. -/
inductive AttributeSubject where
  | type
  | property
  | package
  deriving DecidableEq, Repr, Inhabited

/-- The wording of a subject. -/
def AttributeSubject.message : AttributeSubject → Text
  | .type => "type"
  | .property => "property"
  | .package => "package"

/-- What can be wrong with attributes. -/
inductive AttributeFault where
  /-- An attribute without equals sign. -/
  | notKeyValue (item : Text)
  /-- A key that the subject does not have. -/
  | unsupportedKey (subject : AttributeSubject) (key : Text)
  /-- A key that only external types have. -/
  | onlyOnExternal (key : Text)
  /-- A value that is no access mode. -/
  | badAccess (value : Text)
  /-- A value that should be `true` or `false`. -/
  | notTrueFalse (key value : Text)
  /-- A value that should be `yes` or `no`. -/
  | notYesNo (key value : Text)
  /-- Something that cannot be invalidated. -/
  | badInvalidates (value : Text)
  /-- An unknown check. -/
  | badCheck (value : Text)
  deriving DecidableEq, Repr, Inhabited

/-- What can be wrong with a header. -/
inductive HeaderFault where
  /-- A marker without attribute list. -/
  | missingAttributes (marker : Marker)
  /-- A marker whose attribute list does not end. -/
  | unclosedAttributes (marker : Marker)
  /-- A marker with no declaration after it. -/
  | noDeclaration (marker : Marker)
  /-- A function marker with no parameter list after it. -/
  | noSignature
  /-- A constructor whose parentheses do not balance. -/
  | unbalancedConstructor
  /-- A class in a class or a struct in a struct; the open one and its line. -/
  | nested (marker : Marker) (context : OpenContext) (name : Text) (line : Nat)
  /-- A member outside the declaration it belongs to. -/
  | outsideContext (marker : Marker) (context : OpenContext)
  /-- A type line without a name. -/
  | malformedType (line : Text)
  /-- A line that is no field. -/
  | malformedField (line : Text)
  /-- A line that is no function. -/
  | malformedFunction (line : Text)
  /-- A second package directive in one header. -/
  | secondPackage (module : Text)
  /-- A property that asks for a default value and has no initializer. -/
  | missingDefault (property : Text)
  /-- Something wrong with an attribute. -/
  | inAttributes (fault : AttributeFault)
  deriving DecidableEq, Repr, Inhabited

namespace AttributeFault

/-- Whether the fault is about a Boolean value. -/
def isBool : AttributeFault → Bool
  | .notTrueFalse _ _ | .notYesNo _ _ => true
  | _ => false

/-- The access modes as they are listed to the user. -/
def accessModes : Text := "[" ++ Text.joinWith " " (Access.modes.map Access.spelling) ++ "]"

/-- The detail of an attribute fault. -/
def detail : AttributeFault → Text
  | .notKeyValue item => "expected key=value, got '" ++ item ++ "'"
  | .unsupportedKey subject key => "unsupported " ++ subject.message ++ " key: '" ++ key ++ "'"
  | .onlyOnExternal key => key ++ " is only valid on external types"
  | .badAccess value => "access must be one of " ++ accessModes ++ ", got '" ++ value ++ "'"
  | .notTrueFalse key value => key ++ " must be 'true' or 'false', got '" ++ value ++ "'"
  | .notYesNo key value => key ++ " must be 'yes' or 'no', got '" ++ value ++ "'"
  | .badInvalidates value => "invalidates must list render or transform, got '" ++ value ++ "'"
  | .badCheck value => "check must be not_same, got '" ++ value ++ "'"

end AttributeFault

namespace HeaderFault

/-- The rule that is broken. -/
def rule : HeaderFault → Text
  | .missingAttributes _ => "missing attribute list"
  | .unclosedAttributes _ => "unclosed attribute list"
  | .noDeclaration _ | .noSignature | .unbalancedConstructor => "unexpected end of file"
  | .nested marker context _ _ =>
    "nested declaration not allowed: " ++ marker.name ++ " while " ++ context.message
  | .outsideContext marker context =>
    "declaration outside of its context: " ++ marker.name ++ " while " ++ context.message
  | .malformedType _ | .malformedField _ | .malformedFunction _ => "malformed declaration header"
  | .secondPackage _ => "duplicate package directive"
  | .missingDefault _ => "invalid property"
  | .inAttributes fault =>
    if fault.isBool then "invalid property: invalid boolean value" else "invalid property"

/-- What exactly breaks the rule; empty if the rule says it all. -/
def detail : HeaderFault → Text
  | .missingAttributes marker | .unclosedAttributes marker => marker.name
  | .noDeclaration marker => marker.name ++ " has no declaration"
  | .noSignature => Marker.function.name ++ " has no signature"
  | .unbalancedConstructor => "unbalanced constructor signature"
  | .nested _ _ name line => name ++ " is still open (line " ++ Text.decimal line ++ ")"
  | .outsideContext _ _ => []
  | .malformedType line => Text.quoted line
  | .malformedField line => "field " ++ Text.quoted line
  | .malformedFunction line => "function " ++ Text.quoted line
  | .secondPackage module => "module " ++ module
  | .missingDefault property => "property " ++ property ++ " has 'default' metadata but no default value"
  | .inAttributes fault => fault.detail

end HeaderFault

/-- A fault at its place in a header; lines count from one. -/
structure HeaderError where
  file : Text
  line : Nat
  fault : HeaderFault
  deriving DecidableEq, Repr, Inhabited

/-- The wording of a fault at its place. -/
def HeaderError.message (e : HeaderError) : Text :=
  let place := e.file ++ ":" ++ Text.decimal e.line ++ ": " ++ e.fault.rule
  if e.fault.detail = [] then place else place ++ ": " ++ e.fault.detail

end HeaderReflection
