import HeaderReflection.Header.DeclarationLine
import HeaderReflection.Header.Lines
import HeaderReflection.Header.Metadata
import HeaderReflection.Log

/-!
# Reading headers

A header is read once, line by line. A line that opens a marker is taken together with the marker's attribute list and
the declaration after it; all other lines are passed over. A header declares any number of external types, at most one
class and at most one struct; members belong to them as follows:

* a property to the class,
* a constructor to the struct,
* a function to the class or struct that was opened last.

External types join the module at once, the class and the struct at the end of the header. The first fault ends the
reading, and the module keeps what it has got by then.

## Main definitions

- `HeaderReading`: what is known at a line of a header.
- `HeaderReading.dispatch`: taking a marker with its declaration.
- `HeaderReading.readFrom`: the lines one by one.
- `Module.readHeader`: a whole header.
- `includePathOf`: how other headers include a header.
-/

namespace HeaderReflection

/-- The path by which a header is included: what follows the first `include` directory. -/
def includePathOf (path : Text) : Text :=
  match Text.stripPrefix? "include/" path with
  | some rest => rest
  | none =>
    match Text.cut "/include/" path with
    | some (_, rest) => rest
    | none => path

/-! ## §1 Single markers

The lines given to these functions start with the marker's own line. A fault comes with its distance from that line, a
result with the distance of the last line that belongs to the marker. -/

/-- A result, or a fault with its distance from the marker's line. -/
abbrev AtMarker := Except (Nat × HeaderFault)

/-- The attributes of a marker and the line on which the list ends. -/
def attributesAt (marker : Marker) (lines : List Text) : AtMarker (Nat × List Text) :=
  match AttributeList.extract lines with
  | .ok result => .ok result
  | .error .missing => .error (0, .missingAttributes marker)
  | .error .unclosed => .error (0, .unclosedAttributes marker)

/-- Whether a line declares nothing: it is blank or a comment. -/
def isIdleLine (line : Text) : Bool :=
  let line := line.trim
  line = [] || Text.beginsWith "//" line

/-- The first line that passes a test, with its number; `index` is the number of the first line. -/
def findLine? (test : Text → Bool) (index : Nat) : List Text → Option (Nat × Text)
  | [] => none
  | line :: lines => if test line then some (index, line) else findLine? test (index + 1) lines

/-- The line of the declaration after an attribute list. -/
def declarationAt (marker : Marker) (listEnd : Nat) (lines : List Text) : AtMarker (Nat × Text) :=
  match findLine? (!isIdleLine ·) (listEnd + 1) (lines.drop (listEnd + 1)) with
  | some result => .ok result
  | none => .error (0, .noDeclaration marker)

/-- The names in the declaration line of a type, of which there is at least one. -/
def typeNamesAt (index : Nat) (line : Text) : AtMarker (Text × List Text) :=
  match nameTokens line with
  | [] => .error (index, .malformedType line.trim)
  | name :: names => .ok (name, names)

/-- A fault in the attributes of a marker, at the marker's line. -/
def atAttributes (result : Except AttributeFault α) : AtMarker α :=
  result.mapError fun fault => (0, .inAttributes fault)

/-- The class or struct that a marker declares; `number` is the number of the marker's line. -/
def readType (m : Module) (includePath : Text) (marker : Marker) (kind : Kind) (number : Nat)
    (lines : List Text) : AtMarker (Nat × Declaration) := do
  let (listEnd, attributes) ← attributesAt marker lines
  let (index, line) ← declarationAt marker listEnd lines
  let (name, others) ← typeNamesAt index line
  let declared : Declaration := {
    name := shortName name
    fullName := m.qualify (shortName name)
    kind
    includePath
    line := number
    parentName := if kind = .classType then others.headD [] else [] }
  let declared ← atAttributes (declared.withAttributes attributes)
  return (index, declared)

/-- The external type that a marker declares. -/
def readExternal (includePath : Text) (number : Nat) (lines : List Text) : AtMarker (Nat × Declaration) := do
  let (listEnd, attributes) ← attributesAt .externalType lines
  let (index, line) ← declarationAt .externalType listEnd lines
  let (name, _) ← typeNamesAt index line
  let fullName := Text.trimPrefix "::" name
  let declared : Declaration := {
    name := shortName fullName
    fullName
    kind := .external
    includePath
    line := number }
  let declared ← atAttributes (declared.withAttributes attributes)
  return (index, declared)

/-- The property that a marker declares. -/
def readProperty (owner : Text) (number : Nat) (lines : List Text) : AtMarker (Nat × Property) := do
  let (listEnd, attributes) ← attributesAt .property lines
  let (index, line) ← declarationAt .property listEnd lines
  match FieldLine.parse? line with
  | none => .error (index, .malformedField line.trim)
  | some field =>
    let property : Property := {
      type := field.type
      name := field.name
      fragment := cutName field.name
      owner
      line := number + index }
    let property ← atAttributes (property.withAttributes attributes)
    if property.hasDefault ∧ ¬ field.initialized then .error (0, .missingDefault property.name)
    else .ok (index, property)

/-- The function that a marker declares: the first line with a parenthesis names it. -/
def readFunction (number : Nat) (lines : List Text) : AtMarker (Nat × MemberFunction) := do
  let (listEnd, _) ← attributesAt .function lines
  match findLine? (·.contains (Text.byte '(')) (listEnd + 1) (lines.drop (listEnd + 1)) with
  | none => .error (0, .noSignature)
  | some (index, line) =>
    match functionName? line with
    | none => .error (index, .malformedFunction line.trim)
    | some name => .ok (index, { name, line := number + index })

/-- The constructor that a marker declares. -/
def readConstructor (number : Nat) (lines : List Text) : AtMarker (Nat × TypeConstructor) := do
  let (listEnd, _) ← attributesAt .constructor lines
  let (index, _) ← declarationAt .constructor listEnd lines
  match signature? (lines.drop index) with
  | none => .error (index, .unbalancedConstructor)
  | some (length, signature) => .ok (index + length, { signature, line := number + index })

/-! ## §2 A header -/

/-- Which of the two declarations was opened last. -/
inductive Latest where
  | classType
  | structType
  deriving DecidableEq, Repr, Inhabited

/-- What is known at a line of a header. -/
structure HeaderReading where
  /-- The module with what this header has added to it so far. -/
  module : Module
  /-- The path by which this header is included. -/
  includePath : Text
  /-- The external types of this header so far. -/
  externals : List Declaration := []
  /-- The open class. -/
  openClass : Option Declaration := none
  /-- The open struct. -/
  openStruct : Option Declaration := none
  /-- Which of them was opened last, if there is one. -/
  latest : Option Latest := none
  /-- Whether this header has a package directive. -/
  packageSeen : Bool := false
  deriving DecidableEq, Repr

namespace HeaderReading

/-- The declarations that are open. -/
def context (r : HeaderReading) : OpenContext := ⟨r.openClass.isSome, r.openStruct.isSome⟩

/-- A reading after a marker: with the distance of the marker's last line, or with a fault and its distance. -/
abbrev Step := HeaderReading × AtMarker Nat

/-- Continue with the result of a marker, or stop with its fault. -/
def step (r : HeaderReading) (result : AtMarker (Nat × α)) (next : α → HeaderReading) : Step :=
  match result with
  | .error fault => (r, .error fault)
  | .ok (index, a) => (next a, .ok index)

/-- Stop with a fault at the marker's line. -/
def stop (r : HeaderReading) (fault : HeaderFault) : Step := (r, .error (0, fault))

/-- Take the package directive, of which a header has at most one. -/
def readPackage (r : HeaderReading) (lines : List Text) : Step :=
  if r.packageSeen then r.stop (.secondPackage r.module.name)
  else
    let r := { r with packageSeen := true }
    match attributesAt .package lines with
    | .error fault => (r, .error fault)
    | .ok (listEnd, attributes) =>
      match r.module.withAttributes attributes with
      | (module, none) => ({ r with module }, .ok listEnd)
      | (module, some fault) => ({ r with module }, .error (0, .inAttributes fault))

/-- Take a marker with what belongs to it. The marker's line is the first of the lines and has the given number. -/
def dispatch (r : HeaderReading) (marker : Marker) (number : Nat) (lines : List Text) : Step :=
  match marker with
  | .modelOverrides =>
    let module := { r.module with modelOverrides := r.module.modelOverrides ++ [r.includePath] }
    ({ r with module := module.addInclude r.includePath }, .ok 0)
  | .renderOverrides =>
    let module := { r.module with renderOverrides := r.module.renderOverrides ++ [r.includePath] }
    ({ r with module := module.addInclude r.includePath }, .ok 0)
  | .package => r.readPackage lines
  | .externalType =>
    r.step (readExternal r.includePath number lines) fun declared =>
      { r with module := r.module.add declared, externals := r.externals ++ [declared] }
  | .classType =>
    match r.openClass with
    | some outer => r.stop (.nested .classType r.context outer.name outer.line)
    | none =>
      r.step (readType r.module r.includePath .classType .classType number lines) fun declared =>
        { r with openClass := some declared, latest := some .classType }
  | .structType =>
    match r.openStruct with
    | some outer => r.stop (.nested .structType r.context outer.name outer.line)
    | none =>
      r.step (readType r.module r.includePath .structType .structType number lines) fun declared =>
        { r with openStruct := some declared, latest := some .structType }
  | .property =>
    match r.openClass with
    | none => r.stop (.outsideContext .property r.context)
    | some outer =>
      r.step (readProperty outer.name number lines) fun property =>
        { r with openClass := some { outer with properties := outer.properties ++ [property] } }
  | .constructor =>
    match r.openStruct with
    | none => r.stop (.outsideContext .constructor r.context)
    | some outer =>
      r.step (readConstructor number lines) fun declared =>
        { r with openStruct := some { outer with constructors := outer.constructors ++ [declared] } }
  | .function =>
    match r.latest, r.openClass, r.openStruct with
    | some .classType, some outer, _ =>
      r.step (readFunction number lines) fun declared =>
        { r with openClass := some { outer with functions := outer.functions ++ [declared] } }
    | some .structType, _, some outer =>
      r.step (readFunction number lines) fun declared =>
        { r with openStruct := some { outer with functions := outer.functions ++ [declared] } }
    | _, _, _ => r.stop (.outsideContext .function r.context)

/-- The class and the struct of a header, in this order. -/
def opened (r : HeaderReading) : List Declaration := r.openClass.toList ++ r.openStruct.toList

/-- Read lines, of which the first `taken` belong to a marker before them and the first has the given number. The
result is the reading at the end, or at the first fault with the number of its line. -/
def readFrom (r : HeaderReading) : (taken number : Nat) → List Text → HeaderReading × Option (Nat × HeaderFault)
  | _, _, [] => (r, none)
  | taken + 1, number, _ :: lines => readFrom r taken (number + 1) lines
  | 0, number, line :: lines =>
    match Marker.ofLine? line with
    | none => readFrom r 0 (number + 1) lines
    | some marker =>
      match r.dispatch marker number (line :: lines) with
      | (r, .ok taken) => readFrom r taken (number + 1) lines
      | (r, .error (distance, fault)) => (r, some (number + distance, fault))

end HeaderReading

/-- What reading a header gives: the module with what was added to it, the types that were added, and the fault that
ended the reading, if there was one. -/
structure HeaderOutcome where
  module : Module
  declared : List Declaration
  error : Option HeaderError
  deriving DecidableEq, Repr

/-- Read a header into a module. -/
def Module.readHeader (m : Module) (path text : Text) : HeaderOutcome :=
  let includePath := includePathOf path
  match HeaderReading.readFrom { module := m, includePath } 0 1 (Header.lines text) with
  | (r, some (line, fault)) => ⟨r.module, r.externals, some { file := path, line, fault }⟩
  | (r, none) => ⟨(r.module.addAll r.opened).addInclude includePath, r.externals ++ r.opened, none⟩

/-! ## §3 Records -/

/-- The record of a declared type. -/
def Declaration.note (path : Text) (d : Declaration) : LogRecord where
  level := .debug
  message := "declared type"
  attributes :=
    [("kind", .text d.kind.name), ("name", .text d.fullName)] ++
    (if d.kind = .external then [] else [("properties", LogValue.number d.properties.length)]) ++
    [("file", LogValue.text path)]

/-- The records of reading a header: one for each type, and one for the header if it has no fault. -/
def HeaderOutcome.notes (path : Text) (outcome : HeaderOutcome) : List LogRecord :=
  outcome.declared.map (Declaration.note path) ++
  match outcome.error with
  | some _ => []
  | none => [{
      level := .trace
      message := "parsed header"
      attributes := [("file", .text path), ("include", .text (includePathOf path))] }]

end HeaderReflection
