import HeaderReflection.Proofs.Header.Annotations
import HeaderReflection.Proofs.Header.MarkedText

/-!
# Headers are read back

A header is written as a sequence of parts: markers with their declarations, in any order in which members follow the
type that they belong to, and other lines between them. Reading the text adds to a module what the parts describe and
nothing else.

The reading goes over the parts one by one. A step lemma says what one part does to a reading, an induction over the
parts what all of them do, and the types of the final reading are then compared with their description, which goes over
the parts in another way: it looks for the type first and gathers the members behind it.

## Main definitions

- `HeaderPart`: a marker with its declaration, or another line.
- `WellScoped`: members follow the type that they belong to.
- `HeaderText`: a written header; `HeaderText.declared` are the types that it describes.

## Main results

- `HeaderReading.readFrom_part`, `HeaderReading.readFrom_parts`: what one part does, and what all of them do.
- `Header.lines_unlines`: the lines of a written header.
- `readHeader_text`: a written header is read back.
-/

namespace HeaderReflection

/-! ## §1 Parts -/

/-- What a header is made of: markers with their declarations, and other lines. -/
inductive HeaderPart where
  | other (line : Text)
  | externalType (marker : MarkerText TypeAttribute) (line : TypeLine)
  | classType (marker : MarkerText TypeAttribute) (line : ClassLine)
  | structType (marker : MarkerText TypeAttribute) (line : TypeLine)
  | property (marker : MarkerText PropertyAttribute) (field : FieldText)
  | function (marker : MarkerText Text) (line : FunctionLine)
  | constructor (marker : MarkerText Text) (signature : SignatureText)

namespace HeaderPart

def lines : HeaderPart → List Text
  | other line => [line]
  | externalType marker line => marker.lines TypeAttribute.spell .externalType ++ [line.text]
  | classType marker line => marker.lines TypeAttribute.spell .classType ++ [line.text]
  | structType marker line => marker.lines TypeAttribute.spell .structType ++ [line.text]
  | property marker field => marker.lines PropertyAttribute.spell .property ++ [field.text]
  | function marker line => marker.lines id .function ++ [line.text]
  | constructor marker signature => marker.lines id .constructor ++ signature.text

/-- What a part has to be like. A property with a default needs an initializer, and other lines open no marker. -/
def Legal : HeaderPart → Prop
  | other line => OneLine line ∧ Marker.ofLine? line = none
  | externalType marker line => marker.Legal (LegalTypeAttributes .external) IsIdle ∧ line.Legal
  | classType marker line => marker.Legal (LegalTypeAttributes .classType) IsIdle ∧ line.Legal
  | structType marker line => marker.Legal (LegalTypeAttributes .structType) IsIdle ∧ line.Legal
  | property marker field => marker.Legal LegalPropertyAttributes IsIdle ∧ field.Legal ∧
      (PropertyAttribute.flag .default true ∈ marker.attributes.contents → field.ending.initialized = true)
  -- a function's line is the first with a parenthesis, so comments before it may not have one
  | function marker line => marker.Legal AreQuoted IsBeforeFunction ∧ line.Legal
  | constructor marker signature => marker.Legal AreQuoted IsIdle ∧ signature.Legal

end HeaderPart

/-- A header whose members follow the type that they belong to, and that opens at most one class and one struct. It goes
on where a class and a struct may be open already. -/
def WellScoped : (hasClass hasStruct : Bool) → List HeaderPart → Prop
  | _, _, [] => True
  | hasClass, hasStruct, .classType _ _ :: parts => hasClass = false ∧ WellScoped true hasStruct parts
  | hasClass, hasStruct, .structType _ _ :: parts => hasStruct = false ∧ WellScoped hasClass true parts
  | hasClass, hasStruct, .property _ _ :: parts => hasClass = true ∧ WellScoped hasClass hasStruct parts
  | hasClass, hasStruct, .constructor _ _ :: parts => hasStruct = true ∧ WellScoped hasClass hasStruct parts
  | hasClass, hasStruct, .function _ _ :: parts =>
    (hasClass = true ∨ hasStruct = true) ∧ WellScoped hasClass hasStruct parts
  | hasClass, hasStruct, .other _ :: parts => WellScoped hasClass hasStruct parts
  | hasClass, hasStruct, .externalType _ _ :: parts => WellScoped hasClass hasStruct parts

/-! ## §2 One part -/

/-- A property has a default exactly if an attribute says so. -/
theorem hasDefault_property (owner : Text) (line : Nat) (as : List PropertyAttribute) (field : FieldText)
    (h : (field.property owner line as).hasDefault = true) : PropertyAttribute.flag .default true ∈ as := by
  have hflag : (as.findSome? (PropertyAttribute.flag? .default)).getD false = true := h
  cases hfind : as.findSome? (PropertyAttribute.flag? .default) with
  | none =>
    rw [hfind] at hflag
    cases hflag
  | some flag =>
    rw [hfind] at hflag
    obtain rfl : flag = true := hflag
    obtain ⟨a, ha, hvalue⟩ := List.exists_of_findSome?_eq_some hfind
    cases a <;> simp [PropertyAttribute.flag?] at hvalue
    obtain ⟨rfl, rfl⟩ := hvalue
    exact ha

namespace HeaderReading

/-- The reading behind a part that begins on a line. -/
def take (r : HeaderReading) (number : Nat) : HeaderPart → HeaderReading
  | .other _ => r
  | .externalType marker line =>
    let declared := line.external r.includePath number marker.attributes.contents
    { r with module := r.module.add declared, externals := r.externals ++ [declared] }
  | .classType marker line =>
    { r with
      openClass := some (line.opened r.module r.includePath number marker.attributes.contents)
      latest := some .classType }
  | .structType marker line =>
    { r with
      openStruct := some (line.opened r.module r.includePath number marker.attributes.contents)
      latest := some .structType }
  | .property marker field =>
    { r with openClass := r.openClass.map fun outer =>
        let line := number + marker.distance PropertyAttribute.spell
        { outer with properties := outer.properties ++ [field.property outer.name line marker.attributes.contents] } }
  | .constructor marker signature =>
    { r with openStruct := r.openStruct.map fun outer =>
        { outer with constructors := outer.constructors ++ [signature.constructor (number + marker.distance id)] } }
  | .function marker line =>
    let addTo : Declaration → Declaration := fun outer =>
      { outer with functions := outer.functions ++ [line.function (number + marker.distance id)] }
    { r with
      openClass := if r.latest = some .classType then r.openClass.map addTo else r.openClass
      openStruct := if r.latest = some .structType then r.openStruct.map addTo else r.openStruct }

/-- A marker is taken together with all lines that belong to it. -/
theorem readFrom_marked {α : Type} {spell : α → Text} {marker : Marker} {t : MarkerText α} {declaration : List Text}
    {r next : HeaderReading} {number taken : Nat} {rest : List Text}
    (hdispatch : r.dispatch marker number (t.lines spell marker ++ (declaration ++ rest)) = (next, .ok taken))
    (htaken : taken + 1 = (t.lines spell marker ++ declaration).length) :
    r.readFrom 0 number (t.lines spell marker ++ declaration ++ rest) =
      next.readFrom 0 (number + (t.lines spell marker ++ declaration).length) rest := by
  obtain ⟨first, others, hlines, hfirst⟩ := MarkerText.ofLine?_lines spell marker t
  rw [hlines] at hdispatch htaken ⊢
  -- the lines behind the marker's own are exactly those that are counted as taken
  obtain rfl : taken = (others ++ declaration).length := by simpa using htaken
  rw [List.append_assoc, List.cons_append, readFrom, hfirst]
  rw [List.cons_append] at hdispatch
  dsimp only
  rw [hdispatch]
  dsimp only
  rw [← List.append_assoc, readFrom_taken]
  congr 1
  simp
  omega

theorem succ_distance {α : Type} {spell : α → Text} {t : MarkerText α} (htail : OneLine t.tail) (marker : Marker)
    (line : Text) : t.distance spell + 1 = (t.lines spell marker ++ [line]).length := by
  rw [List.length_append, MarkerText.length_lines marker htail]
  rfl

/-- A function joins the type that was opened last, which is there when a function is in scope. -/
theorem dispatch_function {r : HeaderReading} {marker : MarkerText Text} {line : FunctionLine}
    {hasClass hasStruct : Bool} (hmarker : marker.Legal AreQuoted IsBeforeFunction) (hline : line.Legal)
    (hscope : r.Scoped hasClass hasStruct) (hopen : hasClass = true ∨ hasStruct = true) (number : Nat)
    (rest : List Text) :
    r.dispatch .function number (marker.lines id .function ++ ([line.text] ++ rest)) =
      (r.take number (.function marker line), .ok (marker.distance id)) := by
  have hread := readFunction_lines hmarker hline number rest
  have hlatest := hscope.latest
  cases hr : r.latest with
  | none =>
    rw [hr] at hlatest
    obtain ⟨rfl, rfl⟩ := hlatest
    exact absurd hopen (by decide)
  | some type =>
    rw [hr] at hlatest
    cases type with
    | classType =>
      obtain ⟨outer, houter⟩ := Option.isSome_iff_exists.mp (hscope.openClass.trans hlatest)
      simp only [dispatch, step, hr, houter, List.singleton_append, hread, take, Option.map_some, if_true]
      rfl
    | structType =>
      obtain ⟨outer, houter⟩ := Option.isSome_iff_exists.mp (hscope.openStruct.trans hlatest)
      simp only [dispatch, step, hr, houter, List.singleton_append, hread, take, Option.map_some, if_true]
      rfl

/-- **One part of a header** does to a reading what `take` says, and the reading goes on behind it. -/
theorem readFrom_part {r : HeaderReading} {part : HeaderPart} {parts : List HeaderPart} {hasClass hasStruct : Bool}
    (hlegal : part.Legal) (hscope : r.Scoped hasClass hasStruct)
    (hscoped : WellScoped hasClass hasStruct (part :: parts)) (number : Nat) (rest : List Text) :
    r.readFrom 0 number (part.lines ++ rest) = (r.take number part).readFrom 0 (number + part.lines.length) rest := by
  cases part with
  | other line =>
    show r.readFrom 0 number (line :: rest) = _
    rw [readFrom, hlegal.2]
    rfl
  | externalType marker line =>
    obtain ⟨hmarker, hline⟩ := hlegal
    refine readFrom_marked ?_ (succ_distance hmarker.tail _ _)
    simp only [dispatch, step, List.singleton_append, readExternal_lines hmarker hline]
    rfl
  | classType marker line =>
    obtain ⟨hmarker, hline⟩ := hlegal
    have hnone : r.openClass = none := by
      rw [← Option.not_isSome_iff_eq_none, hscope.openClass, hscoped.1]
      decide
    refine readFrom_marked ?_ (succ_distance hmarker.tail _ _)
    simp only [dispatch, step, hnone, List.singleton_append, readType_class hmarker hline]
    rfl
  | structType marker line =>
    obtain ⟨hmarker, hline⟩ := hlegal
    have hnone : r.openStruct = none := by
      rw [← Option.not_isSome_iff_eq_none, hscope.openStruct, hscoped.1]
      decide
    refine readFrom_marked ?_ (succ_distance hmarker.tail _ _)
    simp only [dispatch, step, hnone, List.singleton_append, readType_struct hmarker hline]
    rfl
  | property marker field =>
    -- in scope, there is a class that the property belongs to
    obtain ⟨hmarker, hfield, hdefault⟩ := hlegal
    obtain ⟨outer, houter⟩ := Option.isSome_iff_exists.mp (hscope.openClass.trans hscoped.1)
    have hread := readProperty_lines hmarker hfield outer.name number
      (fun h => hdefault (hasDefault_property _ _ _ _ h)) rest
    refine readFrom_marked ?_ (succ_distance hmarker.tail _ _)
    simp only [dispatch, step, houter, List.singleton_append, hread, take, Option.map_some]
  | function marker line =>
    obtain ⟨hmarker, hline⟩ := hlegal
    exact readFrom_marked (dispatch_function hmarker hline hscope hscoped.1 number rest)
      (succ_distance hmarker.tail _ _)
  | constructor marker signature =>
    obtain ⟨hmarker, hsignature⟩ := hlegal
    obtain ⟨outer, houter⟩ := Option.isSome_iff_exists.mp (hscope.openStruct.trans hscoped.1)
    have hread := readConstructor_lines hmarker hsignature number rest
    -- a signature may go on over several lines, and all of them are taken
    have htaken : marker.distance id + signature.lines.length + 1 =
        (marker.lines id .constructor ++ signature.text).length := by
      rw [List.length_append, MarkerText.length_lines _ hmarker.tail]
      simp [SignatureText.text]
      omega
    refine readFrom_marked ?_ htaken
    simp only [dispatch, step, houter, hread, take, Option.map_some]

theorem Scoped.take {r : HeaderReading} {part : HeaderPart} {parts : List HeaderPart} {hasClass hasStruct : Bool}
    (h : r.Scoped hasClass hasStruct) (hscoped : WellScoped hasClass hasStruct (part :: parts)) (number : Nat) :
    ∃ nextClass nextStruct,
      (r.take number part).Scoped nextClass nextStruct ∧ WellScoped nextClass nextStruct parts := by
  obtain ⟨hclass, hstruct, hlatest⟩ := h
  cases part with
  | other line => exact ⟨_, _, ⟨hclass, hstruct, hlatest⟩, hscoped⟩
  | externalType marker line => exact ⟨_, _, ⟨hclass, hstruct, hlatest⟩, hscoped⟩
  | classType marker line => exact ⟨_, _, ⟨rfl, hstruct, rfl⟩, hscoped.2⟩
  | structType marker line => exact ⟨_, _, ⟨hclass, rfl, rfl⟩, hscoped.2⟩
  | property marker field =>
    exact ⟨_, _, ⟨by simpa [HeaderReading.take] using hclass, hstruct, hlatest⟩, hscoped.2⟩
  | constructor marker signature =>
    exact ⟨_, _, ⟨hclass, by simpa [HeaderReading.take] using hstruct, hlatest⟩, hscoped.2⟩
  | function marker line =>
    have hkeeps : ∀ (o : Option Declaration) (addTo : Declaration → Declaration) (opened : Prop) [Decidable opened],
        (if opened then o.map addTo else o).isSome = o.isSome := by
      intro o addTo opened _
      split <;> simp
    exact ⟨_, _, ⟨(hkeeps _ _ _).trans hclass, (hkeeps _ _ _).trans hstruct, hlatest⟩, hscoped.2⟩

def takeAll (r : HeaderReading) (number : Nat) : List HeaderPart → HeaderReading
  | [] => r
  | part :: parts => (r.take number part).takeAll (number + part.lines.length) parts

/-- **All parts of a header**: the reading takes them one after the other. -/
theorem readFrom_parts {r : HeaderReading} {parts : List HeaderPart} {hasClass hasStruct : Bool}
    (hlegal : ∀ part ∈ parts, part.Legal) (hscope : r.Scoped hasClass hasStruct)
    (hscoped : WellScoped hasClass hasStruct parts) (number : Nat) :
    r.readFrom 0 number (parts.flatMap HeaderPart.lines) = (r.takeAll number parts, none) := by
  induction parts generalizing r number hasClass hasStruct with
  | nil => rfl
  | cons part parts ih =>
    obtain ⟨nextClass, nextStruct, hnext, hrest⟩ := hscope.take hscoped number
    rw [List.flatMap_cons, readFrom_part (hlegal part List.mem_cons_self) hscope hscoped]
    exact ih (fun p hp => hlegal p (List.mem_cons_of_mem _ hp)) hnext hrest _

end HeaderReading

/-! ## §3 The described types -/

/-- The parts of a header, each with the number of its first line. -/
def numbered (number : Nat) : List HeaderPart → List (Nat × HeaderPart)
  | [] => []
  | part :: parts => (number, part) :: numbered (number + part.lines.length) parts

def externalsOf (includePath : Text) (parts : List (Nat × HeaderPart)) : List Declaration :=
  parts.filterMap fun
    | (number, .externalType marker line) => some (line.external includePath number marker.attributes.contents)
    | _ => none

def propertiesOf (owner : Text) (parts : List (Nat × HeaderPart)) : List Property :=
  parts.filterMap fun
    | (number, .property marker field) =>
      some (field.property owner (number + marker.distance PropertyAttribute.spell) marker.attributes.contents)
    | _ => none

def constructorsOf (parts : List (Nat × HeaderPart)) : List TypeConstructor :=
  parts.filterMap fun
    | (number, .constructor marker signature) => some (signature.constructor (number + marker.distance id))
    | _ => none

/-- The functions of the class or of the struct, where one of the two was opened last. -/
def functionsOf (type : Latest) : Latest → List (Nat × HeaderPart) → List MemberFunction
  | _, [] => []
  | _, (_, .classType _ _) :: parts => functionsOf type .classType parts
  | _, (_, .structType _ _) :: parts => functionsOf type .structType parts
  | latest, (number, .function marker line) :: parts =>
    (if latest = type then [line.function (number + marker.distance id)] else []) ++ functionsOf type latest parts
  | latest, _ :: parts => functionsOf type latest parts

/-- The class that parts describe: where it is opened, with the members behind it. -/
def classOf (m : Module) (includePath : Text) : List (Nat × HeaderPart) → Option Declaration
  | [] => none
  | (number, .classType marker line) :: parts =>
    let opened := line.opened m includePath number marker.attributes.contents
    some { opened with
      properties := propertiesOf opened.name parts
      functions := functionsOf .classType .classType parts }
  | _ :: parts => classOf m includePath parts

/-- The struct that parts describe: where it is opened, with the members behind it. -/
def structOf (m : Module) (includePath : Text) : List (Nat × HeaderPart) → Option Declaration
  | [] => none
  | (number, .structType marker line) :: parts =>
    let opened := line.opened m includePath number marker.attributes.contents
    some { opened with
      functions := functionsOf .structType .structType parts
      constructors := constructorsOf parts }
  | _ :: parts => structOf m includePath parts

namespace HeaderReading

theorem externals_takeAll (r : HeaderReading) (number : Nat) (parts : List HeaderPart) :
    (r.takeAll number parts).externals = r.externals ++ externalsOf r.includePath (numbered number parts) := by
  induction parts generalizing r number with
  | nil => simp [takeAll, numbered, externalsOf]
  | cons part parts ih =>
    rw [takeAll, ih]
    cases part with
    | externalType marker line => simp [take, numbered, externalsOf]
    | _ => rfl

/-- External types join the module, and nothing else changes it. -/
theorem module_takeAll (r : HeaderReading) (number : Nat) (parts : List HeaderPart) :
    (r.takeAll number parts).module = r.module.addAll (externalsOf r.includePath (numbered number parts)) := by
  induction parts generalizing r number with
  | nil => rfl
  | cons part parts ih =>
    rw [takeAll, ih]
    cases part <;> rfl

/-- **An open class** gets the properties behind it, and the functions as long as it was opened last. -/
theorem openClass_takeAll {r : HeaderReading} {c : Declaration} {latest : Latest} (hclass : r.openClass = some c)
    (hlatest : r.latest = some latest) {parts : List HeaderPart} {hasStruct : Bool}
    (hscoped : WellScoped true hasStruct parts) (number : Nat) :
    (r.takeAll number parts).openClass = some { c with
      properties := c.properties ++ propertiesOf c.name (numbered number parts)
      functions := c.functions ++ functionsOf .classType latest (numbered number parts) } := by
  -- the type that was opened last may change to the struct on the way, but not back: there is one class
  induction parts generalizing r c latest number hasStruct with
  | nil => simp [takeAll, numbered, propertiesOf, functionsOf, hclass]
  | cons part parts ih =>
    rw [takeAll]
    cases part with
    | other line => exact ih (r := r.take number (.other line)) hclass hlatest hscoped _
    | externalType marker line => exact ih (r := r.take number (.externalType marker line)) hclass hlatest hscoped _
    | classType marker line => exact absurd hscoped.1 (by decide)
    | structType marker line => exact ih (r := r.take number (.structType marker line)) hclass rfl hscoped.2 _
    | constructor marker signature =>
      exact ih (r := r.take number (.constructor marker signature)) hclass hlatest hscoped.2 _
    | property marker field =>
      have hnext : (r.take number (.property marker field)).openClass = some { c with properties := c.properties ++
          [field.property c.name (number + marker.distance PropertyAttribute.spell) marker.attributes.contents] } := by
        simp [take, hclass]
      rw [ih hnext hlatest hscoped.2]
      simp [numbered, propertiesOf, functionsOf]
    | function marker line =>
      cases latest with
      | classType =>
        have hnext : (r.take number (.function marker line)).openClass = some { c with functions := c.functions ++
            [line.function (number + marker.distance id)] } := by
          simp [take, hclass, hlatest]
        rw [ih hnext hlatest hscoped.2]
        simp [numbered, propertiesOf, functionsOf]
      | structType =>
        have hnext : (r.take number (.function marker line)).openClass = some c := by simp [take, hclass, hlatest]
        rw [ih hnext hlatest hscoped.2]
        simp [numbered, propertiesOf, functionsOf]

theorem openClass_takeAll_of_none {r : HeaderReading} (hnone : r.openClass = none) {m : Module}
    (hqualify : ∀ name, r.module.qualify name = m.qualify name) {parts : List HeaderPart} {hasStruct : Bool}
    (hscoped : WellScoped false hasStruct parts) (number : Nat) :
    (r.takeAll number parts).openClass = classOf m r.includePath (numbered number parts) := by
  induction parts generalizing r number hasStruct with
  | nil => exact hnone
  | cons part parts ih =>
    rw [takeAll]
    cases part with
    | other line => exact ih (r := r.take number (.other line)) hnone hqualify hscoped _
    | externalType marker line => exact ih (r := r.take number (.externalType marker line)) hnone hqualify hscoped _
    | classType marker line =>
      -- from here on the class is open, without members so far
      rw [openClass_takeAll rfl rfl hscoped.2]
      simp [numbered, classOf, ClassLine.opened, hqualify, Declaration.described]
    | structType marker line => exact ih (r := r.take number (.structType marker line)) hnone hqualify hscoped.2 _
    | property marker field => exact absurd hscoped.1 (by decide)
    | constructor marker signature =>
      exact ih (r := r.take number (.constructor marker signature)) hnone hqualify hscoped.2 _
    | function marker line =>
      have hnext : (r.take number (.function marker line)).openClass = none := by simp [take, hnone]
      exact ih hnext hqualify hscoped.2 _

/-- **An open struct** gets the constructors behind it, and the functions as long as it was opened last. -/
theorem openStruct_takeAll {r : HeaderReading} {s : Declaration} {latest : Latest} (hstruct : r.openStruct = some s)
    (hlatest : r.latest = some latest) {parts : List HeaderPart} {hasClass : Bool}
    (hscoped : WellScoped hasClass true parts) (number : Nat) :
    (r.takeAll number parts).openStruct = some { s with
      functions := s.functions ++ functionsOf .structType latest (numbered number parts)
      constructors := s.constructors ++ constructorsOf (numbered number parts) } := by
  -- as for the class: the class may be opened on the way, but no second struct
  induction parts generalizing r s latest number hasClass with
  | nil => simp [takeAll, numbered, constructorsOf, functionsOf, hstruct]
  | cons part parts ih =>
    rw [takeAll]
    cases part with
    | other line => exact ih (r := r.take number (.other line)) hstruct hlatest hscoped _
    | externalType marker line => exact ih (r := r.take number (.externalType marker line)) hstruct hlatest hscoped _
    | classType marker line => exact ih (r := r.take number (.classType marker line)) hstruct rfl hscoped.2 _
    | structType marker line => exact absurd hscoped.1 (by decide)
    | property marker field => exact ih (r := r.take number (.property marker field)) hstruct hlatest hscoped.2 _
    | constructor marker signature =>
      have hnext : (r.take number (.constructor marker signature)).openStruct = some { s with constructors :=
          s.constructors ++ [signature.constructor (number + marker.distance id)] } := by
        simp [take, hstruct]
      rw [ih hnext hlatest hscoped.2]
      simp [numbered, constructorsOf, functionsOf]
    | function marker line =>
      cases latest with
      | classType =>
        have hnext : (r.take number (.function marker line)).openStruct = some s := by simp [take, hstruct, hlatest]
        rw [ih hnext hlatest hscoped.2]
        simp [numbered, constructorsOf, functionsOf]
      | structType =>
        have hnext : (r.take number (.function marker line)).openStruct = some { s with functions := s.functions ++
            [line.function (number + marker.distance id)] } := by
          simp [take, hstruct, hlatest]
        rw [ih hnext hlatest hscoped.2]
        simp [numbered, constructorsOf, functionsOf]

theorem openStruct_takeAll_of_none {r : HeaderReading} (hnone : r.openStruct = none) {m : Module}
    (hqualify : ∀ name, r.module.qualify name = m.qualify name) {parts : List HeaderPart} {hasClass : Bool}
    (hscoped : WellScoped hasClass false parts) (number : Nat) :
    (r.takeAll number parts).openStruct = structOf m r.includePath (numbered number parts) := by
  induction parts generalizing r number hasClass with
  | nil => exact hnone
  | cons part parts ih =>
    rw [takeAll]
    cases part with
    | other line => exact ih (r := r.take number (.other line)) hnone hqualify hscoped _
    | externalType marker line => exact ih (r := r.take number (.externalType marker line)) hnone hqualify hscoped _
    | classType marker line => exact ih (r := r.take number (.classType marker line)) hnone hqualify hscoped.2 _
    | structType marker line =>
      -- from here on the struct is open, without members so far
      rw [openStruct_takeAll rfl rfl hscoped.2]
      simp [numbered, structOf, TypeLine.opened, hqualify, Declaration.described]
    | property marker field => exact ih (r := r.take number (.property marker field)) hnone hqualify hscoped.2 _
    | constructor marker signature => exact absurd hscoped.1 (by decide)
    | function marker line =>
      have hnext : (r.take number (.function marker line)).openStruct = none := by simp [take, hnone]
      exact ih hnext hqualify hscoped.2 _

end HeaderReading

/-! ## §4 Line ends -/

namespace Text

/-- A text in which no line end is changed, whatever stands behind it. -/
def KeepsLineEnds (text : Text) : Prop := ∀ rest, unixLines (text ++ rest) = text ++ unixLines rest

theorem keepsLineEnds_nil : KeepsLineEnds [] := fun _ => rfl

theorem KeepsLineEnds.append {a b : Text} (ha : KeepsLineEnds a) (hb : KeepsLineEnds b) : KeepsLineEnds (a ++ b) := by
  intro rest
  rw [List.append_assoc, ha, hb, List.append_assoc]

theorem KeepsLineEnds.unixLines_eq {text : Text} (h : KeepsLineEnds text) : unixLines text = text := by
  have hrest := h []
  rwa [List.append_nil, show unixLines [] = [] from rfl, List.append_nil] at hrest

theorem keepsLineEnds_of_not_mem {text : Text} (h : byte '\r' ∉ text) : KeepsLineEnds text := by
  intro rest
  induction text with
  | nil => rfl
  | cons b text ih =>
    rw [List.mem_cons, not_or] at h
    rw [List.cons_append, unixLines_cons (Or.inl (Ne.symm h.1)), ih h.2, List.cons_append]

/-- A carriage return between quotes is kept: no line ends there. -/
theorem keepsLineEnds_quoted {text : Text} (h : lineFeed ∉ text) :
    KeepsLineEnds (byte '"' :: text ++ [byte '"']) := by
  intro rest
  have hquote : unixLines (byte '"' :: rest) = byte '"' :: unixLines rest := unixLines_cons (Or.inl (by decide))
  have hinside : unixLines (text ++ byte '"' :: rest) = text ++ byte '"' :: unixLines rest := by
    induction text with
    | nil => exact hquote
    | cons b text ih =>
      rw [List.mem_cons, not_or] at h
      -- what comes next is in the text or the quote, and neither is a line feed
      have hnext : (text ++ byte '"' :: rest).head? ≠ some lineFeed := by
        cases text with
        | nil => exact fun hquote => absurd (Option.some.inj hquote) (by decide)
        | cons c text => simpa using fun hc : c = lineFeed => h.2 (hc ▸ List.mem_cons_self)
      rw [List.cons_append, unixLines_cons (Or.inr hnext), ih h.2, List.cons_append]
  rw [List.append_assoc, List.singleton_append, List.cons_append, unixLines_cons (Or.inl (by decide)), hinside]
  simp

theorem keepsLineEnds_joinWith {sep : Text} (hsep : KeepsLineEnds sep) {pieces : List Text}
    (h : ∀ piece ∈ pieces, KeepsLineEnds piece) : KeepsLineEnds (joinWith sep pieces) := by
  induction pieces with
  | nil => exact keepsLineEnds_nil
  | cons piece pieces ih =>
    have hpiece := h piece List.mem_cons_self
    by_cases hne : pieces = []
    · rw [hne]
      exact hpiece
    · rw [joinWith_cons _ _ hne]
      exact (hpiece.append hsep).append (ih fun p hp => h p (List.mem_cons_of_mem _ hp))

end Text

theorem OneLine.keepsLineEnds {text : Text} (h : OneLine text) : Text.KeepsLineEnds text :=
  Text.keepsLineEnds_of_not_mem fun hmem => (h _ hmem).2 rfl

theorem White.keepsLineEnds (white : White) : Text.KeepsLineEnds white.text := by
  apply Text.keepsLineEnds_of_not_mem
  intro hmem
  exact absurd (List.all_eq_true.mp white.blank _ hmem) (by decide)

theorem Attributes.keepsLineEnds {α : Type} {spell : α → Text} (list : Attributes α)
    (h : ∀ a ∈ list.contents, QuotedText (spell a)) : Text.KeepsLineEnds (list.text spell) := by
  unfold Attributes.text
  split
  · exact White.keepsLineEnds _
  · apply Text.keepsLineEnds_joinWith (Text.keepsLineEnds_of_not_mem (by decide))
    intro piece hpiece
    obtain ⟨item, hitem, rfl⟩ := List.mem_map.mp hpiece
    have hquoted := h _ (List.mem_map_of_mem hitem)
    have hparts : item.text spell =
        item.before.text ++ (Text.byte '"' :: spell item.content ++ [Text.byte '"']) ++ item.after.text := by
      simp [Spaced.text]
    rw [hparts]
    exact ((White.keepsLineEnds _).append (Text.keepsLineEnds_quoted hquoted.2.2)).append (White.keepsLineEnds _)

/-- Lines that are found again in the text that they make up. -/
structure AreLines (lines : List Text) : Prop where
  lineFeed : ∀ line ∈ lines, Text.lineFeed ∉ line
  kept : Text.KeepsLineEnds (Text.unlines lines)

theorem areLines_nil : AreLines [] where
  lineFeed _ hline := by cases hline
  kept := Text.keepsLineEnds_nil

theorem AreLines.append {before after : List Text} (hbefore : AreLines before) (hafter : AreLines after) :
    AreLines (before ++ after) where
  lineFeed line hline := (List.mem_append.mp hline).elim (hbefore.lineFeed line) (hafter.lineFeed line)
  kept := by
    by_cases hb : before = []
    · simpa [hb] using hafter.kept
    by_cases ha : after = []
    · simpa [ha] using hbefore.kept
    rw [Text.unlines, Text.joinWith_append _ hb ha]
    exact (hbefore.kept.append (Text.keepsLineEnds_of_not_mem (by decide))).append hafter.kept

theorem areLines_of_oneLine {lines : List Text} (h : ∀ line ∈ lines, OneLine line) : AreLines lines where
  lineFeed line hline := (h line hline).lineFeed_not_mem
  kept := Text.keepsLineEnds_joinWith (Text.keepsLineEnds_of_not_mem (by decide)) fun line hline =>
    (h line hline).keepsLineEnds

theorem areLines_splitOn {text : Text} (h : Text.KeepsLineEnds text) : AreLines (Text.splitOn Text.lineFeed text) where
  lineFeed _ hline := Text.not_mem_of_mem_splitOn hline
  kept := by rwa [Text.unlines, Text.joinWith_splitOn]

theorem MarkerText.areLines {α : Type} {spell : α → Text} {t : MarkerText α} (marker : Marker) (htail : OneLine t.tail)
    (hquoted : ∀ a ∈ t.attributes.contents, QuotedText (spell a)) (hbetween : ∀ line ∈ t.between, OneLine line) :
    AreLines (t.lines spell marker) := by
  have hname : Text.byte '\r' ∉ marker.name := by cases marker <;> decide
  have htext : Text.KeepsLineEnds (t.text spell marker) := by
    have hparts : t.text spell marker = t.indent.text ++ marker.name ++ t.gap.text ++ [Text.byte '('] ++
        t.attributes.text spell ++ [Text.byte ')'] ++ t.tail := by simp [text]
    rw [hparts]
    exact (((((t.indent.oneLine.keepsLineEnds.append (Text.keepsLineEnds_of_not_mem hname)).append
      t.gap.oneLine.keepsLineEnds).append (Text.keepsLineEnds_of_not_mem (by decide))).append
      (t.attributes.keepsLineEnds hquoted)).append (Text.keepsLineEnds_of_not_mem (by decide))).append
      htail.keepsLineEnds
  exact (areLines_splitOn htext).append (areLines_of_oneLine hbetween)

theorem HeaderPart.Legal.areLines {part : HeaderPart} (h : part.Legal) : AreLines part.lines := by
  have hone : ∀ {line : Text}, OneLine line → AreLines [line] := fun hline =>
    areLines_of_oneLine (by simpa using hline)
  have htype : ∀ {t : MarkerText TypeAttribute} {kind : Kind} (marker : Marker),
      t.Legal (LegalTypeAttributes kind) IsIdle → AreLines (t.lines TypeAttribute.spell marker) := by
    intro t kind marker ht
    refine MarkerText.areLines marker ht.tail (fun a ha => ?_) fun line hline => (ht.between line hline).oneLine
    exact (attributeText_keyed a.isIdentifier_key (ht.attributes.legal a ha).isValue).quoted
  cases part with
  | other line => exact hone h.1
  | externalType marker line => exact (htype _ h.1).append (hone (line.oneLine_text h.2))
  | classType marker line => exact (htype _ h.1).append (hone (line.oneLine_text h.2))
  | structType marker line => exact (htype _ h.1).append (hone (line.oneLine_text h.2))
  | property marker field =>
    obtain ⟨hmarker, hfield, -⟩ := h
    have hquoted : ∀ a ∈ marker.attributes.contents, QuotedText (PropertyAttribute.spell a) := fun a ha =>
      (attributeText_keyed a.isIdentifier_key (hmarker.attributes.legal a ha).isValue).quoted
    exact (MarkerText.areLines _ hmarker.tail hquoted fun l hl => (hmarker.between l hl).oneLine).append
      (hone (field.oneLine_text hfield))
  | function marker line =>
    exact (MarkerText.areLines _ h.1.tail h.1.attributes fun l hl => (h.1.between l hl).oneLine).append
      (hone (line.oneLine_text h.2))
  | constructor marker signature =>
    exact (MarkerText.areLines _ h.1.tail h.1.attributes fun l hl => (h.1.between l hl).oneLine).append
      (areLines_of_oneLine (signature.oneLine_text h.2))

/-- The last line end of a written header is dropped, and a line end that is not there is not missed: a text without one
at its end does not end with one, because its last line is not empty. -/
theorem trimSuffix_unlines {lines : List Text} (h : AreLines lines) (ended : Bool)
    (hended : ended = false → lines.getLast? ≠ some []) :
    Text.trimSuffix [Text.lineFeed] (Text.unlines lines ++ if ended then [Text.lineFeed] else []) =
      Text.unlines lines := by
  cases ended with
  | true => exact Text.trimSuffix_append _ _
  | false =>
    rw [if_neg (by decide), List.append_nil]
    cases hstrip : Text.stripSuffix? [Text.lineFeed] (Text.unlines lines) with
    | none => simp [Text.trimSuffix, hstrip]
    | some before =>
      have hlines := Text.stripSuffix?_eq_some_iff.mp hstrip
      have hne : lines ≠ [] := by
        rintro rfl
        simp [Text.unlines] at hlines
      have hsplit := Text.splitOn_unlines hne h.lineFeed
      rw [hlines, Text.splitOn_append_sep] at hsplit
      exact absurd (by rw [← hsplit]; simp [Text.splitOn]) (hended rfl)

/-- **The lines of a written header**, whether or not the last one has a line end. A single empty line does not
count. -/
theorem Header.lines_unlines {lines : List Text} (h : AreLines lines) (ended : Bool)
    (hended : ended = false → lines.getLast? ≠ some []) :
    Header.lines (Text.unlines lines ++ if ended then [Text.lineFeed] else []) = lines ∨
      lines = [[]] ∧ Header.lines (Text.unlines lines ++ if ended then [Text.lineFeed] else []) = [] := by
  have hend : Text.KeepsLineEnds (if ended then [Text.lineFeed] else []) := by
    cases ended <;> exact Text.keepsLineEnds_of_not_mem (by decide)
  unfold Header.lines
  rw [(h.kept.append hend).unixLines_eq, trimSuffix_unlines h ended hended]
  cases hbody : Text.unlines lines with
  | nil =>
    -- an empty text comes from no line, or from one empty line
    cases lines with
    | nil => exact Or.inl rfl
    | cons line lines =>
      have hsplit := Text.splitOn_unlines (by simp) h.lineFeed
      rw [hbody] at hsplit
      exact Or.inr ⟨hsplit.symm, rfl⟩
  | cons b body =>
    left
    dsimp only
    rw [← hbody]
    apply Text.splitOn_unlines _ h.lineFeed
    rintro rfl
    cases hbody

/-! ## §5 Whole headers -/

/-- A header as it is written. -/
structure HeaderText where
  parts : List HeaderPart
  /-- Whether the last line has a line end. -/
  ended : Bool := true

namespace HeaderText

def lines (h : HeaderText) : List Text := h.parts.flatMap HeaderPart.lines

def text (h : HeaderText) : Text := Text.unlines h.lines ++ if h.ended then [Text.lineFeed] else []

/-- What a header has to be like. A last line without a line end is not empty: it would be no line. -/
structure Legal (h : HeaderText) : Prop where
  parts : ∀ part ∈ h.parts, part.Legal
  inScope : WellScoped false false h.parts
  ended : h.ended = false → h.lines.getLast? ≠ some []

/-- The types that a header describes: external types in the order of the file, then the class, then the struct. -/
def declared (m : Module) (path : Text) (h : HeaderText) : List Declaration :=
  let includePath := includePathOf path
  let parts := numbered 1 h.parts
  externalsOf includePath parts ++ (classOf m includePath parts).toList ++ (structOf m includePath parts).toList

theorem areLines_lines {parts : List HeaderPart} (h : ∀ part ∈ parts, part.Legal) :
    AreLines (parts.flatMap HeaderPart.lines) := by
  induction parts with
  | nil => exact areLines_nil
  | cons part parts ih =>
    rw [List.flatMap_cons]
    exact (h part List.mem_cons_self).areLines.append (ih fun p hp => h p (List.mem_cons_of_mem _ hp))

theorem headerReading_text (m : Module) (path : Text) {h : HeaderText} (hlegal : h.Legal) :
    m.headerReading path h.text =
      (HeaderReading.takeAll { module := m, includePath := includePathOf path } 1 h.parts, none) := by
  have hstart : HeaderReading.Scoped { module := m, includePath := includePathOf path } false false :=
    ⟨rfl, rfl, rfl, rfl⟩
  have hread := HeaderReading.readFrom_parts hlegal.parts hstart hlegal.inScope 1
  unfold Module.headerReading
  rcases Header.lines_unlines (areLines_lines hlegal.parts) h.ended hlegal.ended with hlines | ⟨hempty, hlines⟩
  · rw [text, lines, hlines]
    exact hread
  · -- a single empty line is read like no line at all
    rw [hempty] at hread
    rw [text, lines, hlines]
    exact hread

end HeaderText

/-- **A written header is read back.** Reading it succeeds, and adds exactly the types that it describes. -/
theorem readHeader_text (m : Module) (path : Text) {h : HeaderText} (hlegal : h.Legal) :
    m.readHeader path h.text =
      ⟨(m.addAll (h.declared m path)).addInclude (includePathOf path), h.declared m path, none⟩ := by
  have hopened : (HeaderReading.takeAll { module := m, includePath := includePathOf path } 1 h.parts).opened =
      (classOf m (includePathOf path) (numbered 1 h.parts)).toList ++
        (structOf m (includePathOf path) (numbered 1 h.parts)).toList := by
    unfold HeaderReading.opened
    rw [HeaderReading.openClass_takeAll_of_none rfl (fun _ => rfl) hlegal.inScope,
      HeaderReading.openStruct_takeAll_of_none rfl (fun _ => rfl) hlegal.inScope]
  rw [Module.readHeader_of_read (HeaderText.headerReading_text m path hlegal), hopened,
    HeaderReading.externals_takeAll, HeaderReading.module_takeAll]
  simp [HeaderText.declared, Module.addAll]

/-- A header with a part of every kind. -/
def meshHeader : HeaderText where
  parts := [
    .other "#pragma once",
    .externalType
      { attributes := { items := [{ content := .builtIn true }] }, tail := ";" }
      { lead := [("AGEA_ar_external_define", ("(" : Text))]
        name := { rooted := true, scopes := ["glm"], last := "vec3" }, tail := ");" },
    .classType
      { attributes := { items := [
          { content := .text .architype "mesh" },
          { before := { text := "\n    " }, content := .text .renderConstructor "make(mesh, 1)" }] }
        tail := ";", between := ["", "// drawn, every frame"] }
      { lead := [("class", (" " : Text))], name := { last := "mesh" },
        ending := .parent " : " [("public", (" " : Text))] { last := "component" } "" },
    .other "\x7b",
    .property
      { indent := { text := "    " }
        attributes := { items := [
          { content := .access .all }, { before := { text := " " }, content := .flag .default true },
          { before := { text := " " }, content := .hint { items := [
              { content := "min" }, { before := { text := " " }, content := "max" }] } }] } }
      { indent := { text := "    " }, words := [("float", { text := " " })], sigils := "*", name := "m_scale",
        ending := .assigned { text := " " } { text := " " } (Text.byte '&') "one; // unit" },
    .function
      { indent := { text := "    " } }
      { before := "    void ", name := "update", tail := "float dt);" },
    .other "\x7d;",
    .structType {} { lead := [("struct", (" " : Text))], name := { last := "pair" } },
    .constructor
      { indent := { text := "    " } }
      { lines := [({ text := "    " }, Text.ofString "pair(int (*f)(int),", {})], indent := { text := "         " },
        last := "int b", tail := ";" },
    .function
      { attributes := { items := [{ content := "category=math" }] } }
      { before := "    int ", name := "sum", tail := ") const;" }]

/-- The lines of that header. -/
def meshLines : List Text := [
  "#pragma once",
  "AGEA_ar_external_type(\"built_in=true\");",
  "AGEA_ar_external_define(::glm::vec3);",
  "AGEA_ar_class(\"architype=mesh\",",
  "    \"render_constructor=make(mesh, 1)\");",
  "",
  "// drawn, every frame",
  "class mesh : public component",
  "\x7b",
  "    AGEA_ar_property(\"access=all\", \"default=true\", \"hint=min, max\")",
  "    float *m_scale = &one; // unit",
  "    AGEA_ar_function()",
  "    void update(float dt);",
  "\x7d;",
  "AGEA_ar_struct()",
  "struct pair",
  "    AGEA_ar_ctor()",
  "    pair(int (*f)(int),",
  "         int b);",
  "AGEA_ar_function(\"category=math\")",
  "    int sum() const;"]

/-- The types that it describes. -/
def meshTypes : List Declaration := [
  { name := "vec3", fullName := "glm::vec3", kind := .external, includePath := "render/mesh.h", line := 2
    builtIn := true },
  { name := "mesh", fullName := "agea::render::mesh", kind := .classType, includePath := "render/mesh.h", line := 4
    parentName := "component"
    properties := [{
      type := "float*", name := "m_scale", fragment := "scale", owner := "mesh", line := 11
      access := .all, hasDefault := true, hint := "\"min\",\"max\"" }]
    functions := [{ name := "update", line := 13 }]
    architype := some "mesh"
    renderConstructor := some "make(mesh, 1)" },
  { name := "pair", fullName := "agea::render::pair", kind := .structType, includePath := "render/mesh.h", line := 15
    functions := [{ name := "sum", line := 21 }]
    constructors := [{ signature := "pair(int (*f)(int), int b)", line := 18 }] }]

theorem legal_meshHeader : meshHeader.Legal where
  parts := by
    simp only [meshHeader, List.forall_mem_cons, List.not_mem_nil, false_implies, implies_true, and_true]
    refine ⟨?_, ?_, ?_, ?_, ?_, ?_, ?_, ?_, ?_, ?_⟩
    · exact ⟨by decide, by decide⟩
    -- the external type, and the class with its property and function
    · exact ⟨⟨⟨by simp [Attributes.contents, TypeAttribute.Legal], by decide⟩, by decide, by simp⟩,
        ⟨⟨by decide, by decide⟩, ⟨by decide, by decide⟩, by decide, by decide, by decide⟩⟩
    · refine ⟨⟨⟨?_, by decide⟩, by decide, ?_⟩, ⟨by decide, by decide⟩, ⟨by decide, by decide⟩, by decide, ?_⟩
      · simp only [Attributes.contents, List.map_cons, List.map_nil, List.forall_mem_cons, TypeAttribute.Legal]
        exact ⟨⟨by decide, by decide⟩, ⟨by decide, by decide⟩, by simp⟩
      · simp only [List.forall_mem_cons]
        exact ⟨.blank {}, .comment {} (by decide), by simp⟩
      · exact ⟨by decide, ⟨by decide, by decide⟩, ⟨⟨by decide, by decide⟩, by decide⟩, by decide, by decide⟩
    · exact ⟨by decide, by decide⟩
    · refine ⟨⟨⟨?_, by decide⟩, by decide, by simp⟩, ⟨by decide, ?_, by decide, by decide, ?_⟩, fun _ => rfl⟩
      · simp only [Attributes.contents, List.map_cons, List.map_nil, List.forall_mem_cons, PropertyAttribute.Legal]
        refine ⟨by decide, trivial, ⟨by decide, ?_⟩, by simp⟩
        simp only [ListValue.contents, List.map_cons, List.map_nil, List.forall_mem_cons]
        exact ⟨⟨⟨by decide, by decide⟩, by decide, by decide⟩, ⟨⟨by decide, by decide⟩, by decide, by decide⟩, by simp⟩
      · simp only [List.forall_mem_cons]
        exact ⟨⟨⟨(isToken_of_isIdentifier (by decide)).toIsBare, by decide, by decide, by decide⟩, by decide⟩, by simp⟩
      · exact ⟨⟨Text.beginsVisibly_cons (by decide) (by decide) _, by decide⟩, by decide, by decide⟩
    · exact ⟨⟨by simp [Attributes.contents, AreQuoted], by decide, by simp⟩,
        ⟨by decide, by decide, by decide, by decide, by decide, by decide⟩⟩
    · exact ⟨by decide, by decide⟩
    -- the struct with its constructor and function
    · exact ⟨⟨⟨by simp [Attributes.contents], by decide⟩, by decide, by simp⟩,
        ⟨⟨by decide, by decide⟩, ⟨by decide, by decide⟩, by decide, by decide, by decide⟩⟩
    · exact ⟨⟨by simp [Attributes.contents, AreQuoted], by decide, by simp⟩,
        ⟨⟨"pair", "int (*f)(int), int b", by decide, by decide, by decide⟩, by decide, by decide, by decide, by decide,
          Text.beginsVisibly_cons (by decide) (by decide) _, by decide, by decide⟩⟩
    · exact ⟨⟨by simp [Attributes.contents, AreQuoted]; decide, by decide, by simp⟩,
        ⟨by decide, by decide, by decide, by decide, by decide, by decide⟩⟩
  inScope := ⟨rfl, rfl, Or.inl rfl, rfl, rfl, Or.inl rfl, trivial⟩
  ended := fun h => by cases h

theorem readHeader_of_meshHeader :
    (meshHeader.Legal ∧ meshHeader.lines = meshLines) ∧
      (Module.empty "render" "agea").readHeader "engine/include/render/mesh.h"
          (Text.unlines meshLines ++ [Text.lineFeed]) =
        ⟨((Module.empty "render" "agea").addAll meshTypes).addInclude "render/mesh.h", meshTypes, none⟩ := by
  have hlines : meshHeader.lines = meshLines := by decide +kernel
  have hdeclared : meshHeader.declared (Module.empty "render" "agea") "engine/include/render/mesh.h" = meshTypes := by
    decide +kernel
  have hpath : includePathOf "engine/include/render/mesh.h" = "render/mesh.h" := by decide
  have hread := readHeader_text (Module.empty "render" "agea") "engine/include/render/mesh.h" legal_meshHeader
  rw [hdeclared, hpath, HeaderText.text, hlines] at hread
  exact ⟨⟨legal_meshHeader, hlines⟩, hread⟩

end HeaderReflection
