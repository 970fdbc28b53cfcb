import HeaderReflection.Proofs.Header.MarkedLines
import Mathlib.Logic.Relation

/-!
# Reading by line numbers

A header can also be read with a cursor: every line is asked for by its index, and the open declarations are looked up
when a member needs one. Such a reader can make missteps that one over lists cannot even state. It can ask for a line
that the header does not have, and it can need a declaration that is not set. Its cursor could also stand still.

It does none of this. The state that decides which markers are allowed is kept beside the open declarations and is
changed at another place; that the two agree, and that the declaration opened last is one of those that are open, is the
invariant behind it. With it the cursor does what the reader over lists does, so that it comes to the same outcome.

## Main definitions

- `AtIndex`, `lineAt`, `scanAt`: reading by indices, where a line that is missing is a misstep.
- `OpenContext.advance`: which markers are allowed in a state, and to which state they lead.
- `Cursor`, `Cursor.turn`: a reader with an index, and one turn of its loop.
- `Cursor.Sound`: the invariant.

## Main results

- `typeByIndex_eq` and its like: the parts of a marker by indices are those over lists.
- `Cursor.turn_of_sound`: one turn.
- `Module.error_placed`: where a fault of a header is.
- `Module.readHeader_by_index`: all turns.
-/

namespace HeaderReflection

/-! ## §1 Lines by their indices -/

/-- What a reader must never do. -/
inductive Misstep where
  /-- Asking for a line that the header does not have. -/
  | noLine (index : Nat)
  /-- Using the declaration that a marker is about when it is not set. -/
  | notSet (marker : Marker)
  deriving DecidableEq, Repr

/-- Why a reader stops: by a misstep, or at a fault, with the number of its line. -/
inductive Halt where
  | misstep (misstep : Misstep)
  | fault (line : Nat) (fault : HeaderFault)
  deriving DecidableEq, Repr

/-- What is read by indices, which count from zero. -/
abbrev AtIndex := Except Halt

/-- The line with an index. -/
def lineAt (lines : List Text) (index : Nat) : AtIndex Text :=
  match lines[index]? with
  | some line => .ok line
  | none => .error (.misstep (.noLine index))

/-- A fault on the line with an index. The numbers of lines count from one. -/
def faultAt {α : Type} (index : Nat) (fault : HeaderFault) : AtIndex α := .error (.fault (index + 1) fault)

theorem ok_bind {α β : Type} (a : α) (next : α → AtIndex β) : (.ok a >>= next) = next a := rfl

section Scan

variable {σ β : Type}

/-- Go over lines with a state, from an index on, up to the line that gives a result. -/
def scanAt (step : σ → Text → β ⊕ σ) (lines : List Text) (s : σ) (index : Nat) : AtIndex (Option (Nat × β)) :=
  if index < lines.length then
    lineAt lines index >>= fun line =>
      match step s line with
      | .inl b => .ok (some (index, b))
      | .inr s => scanAt step lines s (index + 1)
  else .ok none
termination_by lines.length - index

theorem lineAt_of_lt {lines : List Text} {index : Nat} (h : index < lines.length) :
    lineAt lines index = .ok lines[index] := by
  rw [lineAt, List.getElem?_eq_getElem h]

/-- **A scan by indices asks for no line behind the last one**, and finds what the function over lists finds that it is
made after. -/
theorem scanAt_eq {step : σ → Text → β ⊕ σ} (scan : σ → Nat → List Text → Option (Nat × β))
    (hnil : ∀ s number, scan s number [] = none)
    (hcons : ∀ s number line rest, scan s number (line :: rest) =
      match step s line with
      | .inl b => some (number, b)
      | .inr s => scan s (number + 1) rest)
    (lines : List Text) (s : σ) (start number : Nat) :
    scanAt step lines s (start + number) =
      .ok ((scan s number (lines.drop (start + number))).map fun found => (start + found.1, found.2)) := by
  -- by induction on the lines that are left, of which the list in the function over lists consists
  induction hleft : lines.length - (start + number) generalizing s number with
  | zero =>
    have hend : lines.length ≤ start + number := by omega
    rw [scanAt, if_neg (Nat.not_lt.mpr hend), List.drop_eq_nil_of_le hend, hnil]
    rfl
  | succ left ih =>
    have hlt : start + number < lines.length := by omega
    rw [scanAt, if_pos hlt, lineAt_of_lt hlt, ok_bind, List.drop_eq_getElem_cons hlt, hcons]
    cases step s lines[start + number] with
    | inl b => rfl
    | inr s => exact ih s (number + 1) (by omega)

end Scan

/-! ## §2 The parts of a marker by indices -/

namespace AtMarker

variable {α β γ δ : Type}

/-- The same result by indices, for a marker on the line with the index `start`. -/
def placed (start : Nat) (place : α → β) : AtMarker α → AtIndex β
  | .ok a => .ok (place a)
  | .error (distance, fault) => faultAt (start + distance) fault

theorem placed_bind {start : Nat} {place : α → β} {place' : γ → δ} {result : AtMarker α} {next : α → AtMarker γ}
    {next' : β → AtIndex δ} (h : ∀ a, result = .ok a → next' (place a) = (next a).placed start place') :
    (result.placed start place >>= next') = (result >>= next).placed start place' := by
  cases result with
  | error fault => rfl
  | ok a => exact h a rfl

end AtMarker

/-- What has been found at a distance from the line with the index `start`. -/
def foundFrom {α : Type} (start : Nat) (found : Nat × α) : Nat × α := (start + found.1, found.2)

section Parts

variable (lines : List Text)

/-- A fault that names the marker on a line, which is asked for again for its name. -/
def faultOfMarker {α : Type} (start : Nat) (fault : HeaderFault) : AtIndex α :=
  lineAt lines start >>= fun _ => faultAt start fault

/-- Read one more line of an attribute list, behind a space. -/
def AttributeList.scanNext (o : AttributeList.Opened) (line : Text) : Text ⊕ AttributeList.Opened :=
  AttributeList.scanLine (o.add (Text.byte ' ')) line

/-- The attributes of the marker on a line and the index of the line on which the list ends. -/
def attributesByIndex (marker : Marker) (start : Nat) : AtIndex (Nat × List Text) :=
  lineAt lines start >>= fun line =>
    match line.dropWhile (· ≠ Text.byte '(') with
    | [] => faultOfMarker lines start (.missingAttributes marker)
    | opening =>
      match AttributeList.scanLine {} opening with
      | .inl body => .ok (start, AttributeList.split body)
      | .inr o =>
        scanAt AttributeList.scanNext lines o (start + 1) >>= fun
        | some (index, body) => .ok (index, AttributeList.split body)
        | none => faultOfMarker lines start (.unclosedAttributes marker)

/-- The first line from an index on that passes a test. -/
def findAt (test : Text → Bool) (index : Nat) : AtIndex (Option (Nat × Text)) :=
  scanAt (fun _ line => if test line then .inl line else .inr ()) lines () index

/-- The index of the first line from one on that declares something. -/
def declarationByIndex (marker : Marker) (start index : Nat) : AtIndex Nat :=
  findAt lines (!isIdleLine ·) index >>= fun
    | some (found, _) => .ok found
    | none => faultOfMarker lines start (.noDeclaration marker)

/-- The names on the line with an index, of which there is at least one. -/
def typeNamesByIndex (index : Nat) : AtIndex (Text × List Text) :=
  lineAt lines index >>= fun line =>
    match nameTokens line with
    | [] => lineAt lines index >>= fun line => faultAt index (.malformedType line.trim)
    | name :: names => .ok (name, names)

/-- The class or struct of the marker on a line. -/
def typeByIndex (m : Module) (includePath : Text) (marker : Marker) (kind : Kind) (start : Nat) :
    AtIndex (Nat × Declaration) := do
  let (listEnd, attributes) ← attributesByIndex lines marker start
  let index ← declarationByIndex lines marker start (listEnd + 1)
  let (name, others) ← typeNamesByIndex lines index
  let declared : Declaration := {
    name := shortName name
    fullName := m.qualify (shortName name)
    kind
    includePath
    line := start + 1
    parentName := if kind = .classType then others.headD [] else [] }
  let declared ← (atAttributes (declared.withAttributes attributes)).placed start id
  return (index, declared)

/-- The external type of the marker on a line. -/
def externalByIndex (includePath : Text) (start : Nat) : AtIndex (Nat × Declaration) := do
  let (listEnd, attributes) ← attributesByIndex lines .externalType start
  let index ← declarationByIndex lines .externalType start (listEnd + 1)
  let (name, _) ← typeNamesByIndex lines index
  let fullName := Text.trimPrefix "::" name
  let declared : Declaration := {
    name := shortName fullName
    fullName
    kind := .external
    includePath
    line := start + 1 }
  let declared ← (atAttributes (declared.withAttributes attributes)).placed start id
  return (index, declared)

/-- The property of the marker on a line. -/
def propertyByIndex (owner : Text) (start : Nat) : AtIndex (Nat × Property) := do
  let (listEnd, attributes) ← attributesByIndex lines .property start
  let index ← declarationByIndex lines .property start (listEnd + 1)
  let line ← lineAt lines index
  match FieldLine.parse? line with
  | none =>
    let line ← lineAt lines index
    faultAt index (.malformedField line.trim)
  | some field =>
    let property : Property := {
      type := field.type
      name := field.name
      fragment := cutName field.name
      owner
      line := index + 1 }
    let property ← (atAttributes (property.withAttributes attributes)).placed start id
    if property.hasDefault ∧ ¬ field.initialized then faultAt start (.missingDefault property.name)
    else .ok (index, property)

/-- The function of the marker on a line. -/
def functionByIndex (start : Nat) : AtIndex (Nat × MemberFunction) := do
  let (listEnd, _) ← attributesByIndex lines .function start
  match ← findAt lines (·.contains (Text.byte '(')) (listEnd + 1) with
  | none => faultAt start .noSignature
  | some (index, line) =>
    match functionName? line with
    | none => faultAt index (.malformedFunction line.trim)
    | some name => .ok (index, { name, line := index + 1 })

/-- Read one more line of a signature, behind a space. -/
def SignatureScan.readNext (s : SignatureScan) (line : Text) : Text ⊕ SignatureScan :=
  readLine { s with taken := Text.byte ' ' :: s.taken } line.trim

/-- The signature that starts on the line with an index, and the index of the line on which it ends. -/
def signatureByIndex (index : Nat) : AtIndex (Option (Nat × Text)) :=
  if index < lines.length then
    lineAt lines index >>= fun line =>
      match SignatureScan.readLine {} line.trim with
      | .inl signature => .ok (some (index, signature))
      | .inr s =>
        scanAt SignatureScan.readNext lines s (index + 1)
  else .ok none

/-- The constructor of the marker on a line. -/
def constructorByIndex (start : Nat) : AtIndex (Nat × TypeConstructor) := do
  let (listEnd, _) ← attributesByIndex lines .constructor start
  let index ← declarationByIndex lines .constructor start (listEnd + 1)
  match ← signatureByIndex lines index with
  | none => faultAt index .unbalancedConstructor
  | some (last, signature) => .ok (last, { signature, line := index + 1 })

end Parts

/-! ## §3 Agreement of the parts -/

section Agreement

variable {lines : List Text} {start : Nat}

theorem faultOfMarker_eq {α : Type} (hstart : start < lines.length) (fault : HeaderFault) :
    faultOfMarker lines start fault = (faultAt start fault : AtIndex α) := by
  rw [faultOfMarker, lineAt_of_lt hstart]
  rfl

theorem findAt_eq (test : Text → Bool) (number : Nat) :
    findAt lines test (start + number) =
      .ok ((findLine? test number (lines.drop (start + number))).map (foundFrom start)) := by
  refine scanAt_eq (fun _ => findLine? test) (fun _ _ => rfl) (fun _ number line rest => ?_) lines () start number
  rw [findLine?]
  split <;> rfl

theorem scanNext_eq (o : AttributeList.Opened) (number : Nat) :
    scanAt AttributeList.scanNext lines o (start + number) =
      .ok ((AttributeList.scanLines o number (lines.drop (start + number))).map (foundFrom start)) := by
  refine scanAt_eq AttributeList.scanLines (fun _ _ => rfl) (fun o number line rest => ?_) lines o start number
  rw [AttributeList.scanLines, AttributeList.scanNext]
  cases AttributeList.scanLine _ line <;> rfl

theorem attributesByIndex_eq (hstart : start < lines.length) (marker : Marker) :
    attributesByIndex lines marker start = (attributesAt marker (lines.drop start)).placed start (foundFrom start) := by
  unfold attributesByIndex attributesAt
  rw [lineAt_of_lt hstart, ok_bind, List.drop_eq_getElem_cons hstart, AttributeList.extract]
  cases hopening : lines[start].dropWhile (· ≠ Text.byte '(') with
  | nil => exact faultOfMarker_eq hstart _
  | cons b rest =>
    dsimp only
    cases hscan : AttributeList.scanLine {} (b :: rest) with
    | inl body => rfl
    | inr o =>
      dsimp only
      rw [scanNext_eq]
      -- the list ends on a later line, or on none
      cases AttributeList.scanLines o 1 (lines.drop (start + 1)) with
      | none => exact faultOfMarker_eq hstart _
      | some found => rfl

theorem declarationByIndex_eq (hstart : start < lines.length) (marker : Marker) (listEnd : Nat) :
    declarationByIndex lines marker start (start + listEnd + 1) =
      (declarationAt marker listEnd (lines.drop start)).placed start fun found => start + found.1 := by
  unfold declarationByIndex declarationAt
  rw [Nat.add_assoc, findAt_eq, List.drop_drop]
  cases findLine? (!isIdleLine ·) (listEnd + 1) (lines.drop (start + (listEnd + 1))) with
  | none => exact faultOfMarker_eq hstart _
  | some found => rfl

theorem findLine?_drop {test : Text → Bool} {number index : Nat} {line : Text}
    (h : findLine? test number (lines.drop (start + number)) = some (index, line)) :
    lines[start + index]? = some line := by
  induction hleft : lines.length - (start + number) generalizing number with
  | zero =>
    rw [List.drop_eq_nil_of_le (by omega)] at h
    cases h
  | succ left ih =>
    have hlt : start + number < lines.length := by omega
    rw [List.drop_eq_getElem_cons hlt, findLine?] at h
    split at h
    · cases h
      exact List.getElem?_eq_getElem hlt
    · exact ih h (by omega)

/-- The line of a declaration can be asked for by its index. -/
theorem lineAt_of_declarationAt {marker : Marker} {listEnd index : Nat} {line : Text}
    (h : declarationAt marker listEnd (lines.drop start) = .ok (index, line)) :
    lineAt lines (start + index) = .ok line := by
  unfold declarationAt at h
  rw [List.drop_drop] at h
  split at h
  · next found hfind =>
    cases h
    rw [lineAt, findLine?_drop hfind]
  · cases h

theorem typeNamesByIndex_eq {index : Nat} {line : Text} (hline : lineAt lines (start + index) = .ok line) :
    typeNamesByIndex lines (start + index) = (typeNamesAt index line).placed start id := by
  unfold typeNamesByIndex typeNamesAt
  rw [hline, ok_bind]
  cases nameTokens line with
  | nil => rfl
  | cons name names => rfl

theorem typeByIndex_eq (hstart : start < lines.length) (m : Module) (includePath : Text) (marker : Marker) (kind : Kind) :
    typeByIndex lines m includePath marker kind start =
      (readType m includePath marker kind (start + 1) (lines.drop start)).placed start (foundFrom start) := by
  unfold typeByIndex readType
  rw [attributesByIndex_eq hstart]
  refine AtMarker.placed_bind fun ⟨listEnd, attributes⟩ _ => ?_
  dsimp only [foundFrom]
  rw [declarationByIndex_eq hstart]
  refine AtMarker.placed_bind fun ⟨index, line⟩ hline => ?_
  dsimp only
  -- the names are on the line that has just been found, and the metadata need no line
  rw [typeNamesByIndex_eq (lineAt_of_declarationAt hline)]
  refine AtMarker.placed_bind fun ⟨name, others⟩ _ => ?_
  exact AtMarker.placed_bind fun declared _ => rfl

theorem externalByIndex_eq (hstart : start < lines.length) (includePath : Text) :
    externalByIndex lines includePath start =
      (readExternal includePath (start + 1) (lines.drop start)).placed start (foundFrom start) := by
  unfold externalByIndex readExternal
  rw [attributesByIndex_eq hstart]
  refine AtMarker.placed_bind fun ⟨listEnd, attributes⟩ _ => ?_
  dsimp only [foundFrom]
  rw [declarationByIndex_eq hstart]
  refine AtMarker.placed_bind fun ⟨index, line⟩ hline => ?_
  dsimp only
  rw [typeNamesByIndex_eq (lineAt_of_declarationAt hline)]
  refine AtMarker.placed_bind fun ⟨name, others⟩ _ => ?_
  exact AtMarker.placed_bind fun declared _ => rfl

theorem propertyByIndex_eq (hstart : start < lines.length) (owner : Text) :
    propertyByIndex lines owner start =
      (readProperty owner (start + 1) (lines.drop start)).placed start (foundFrom start) := by
  unfold propertyByIndex readProperty
  rw [attributesByIndex_eq hstart]
  refine AtMarker.placed_bind fun ⟨listEnd, attributes⟩ _ => ?_
  dsimp only [foundFrom]
  rw [declarationByIndex_eq hstart]
  refine AtMarker.placed_bind fun ⟨index, line⟩ hline => ?_
  dsimp only
  rw [lineAt_of_declarationAt hline, ok_bind]
  cases FieldLine.parse? line with
  | none => rfl
  | some field =>
    dsimp only
    rw [Nat.add_right_comm start 1 index]
    refine AtMarker.placed_bind fun property _ => ?_
    dsimp only [id]
    split <;> rfl

theorem functionByIndex_eq (hstart : start < lines.length) :
    functionByIndex lines start = (readFunction (start + 1) (lines.drop start)).placed start (foundFrom start) := by
  unfold functionByIndex readFunction
  rw [attributesByIndex_eq hstart]
  refine AtMarker.placed_bind fun ⟨listEnd, attributes⟩ _ => ?_
  dsimp only [foundFrom]
  rw [Nat.add_assoc, findAt_eq, ok_bind, List.drop_drop]
  cases findLine? (·.contains (Text.byte '(')) (listEnd + 1) (lines.drop (start + (listEnd + 1))) with
  | none => rfl
  | some found =>
    obtain ⟨index, line⟩ := found
    dsimp only [Option.map_some, foundFrom]
    cases functionName? line with
    | none => rfl
    | some name =>
      rw [Nat.add_right_comm start 1 index]
      rfl

theorem readNext_eq (s : SignatureScan) (number : Nat) :
    scanAt SignatureScan.readNext lines s (start + number) =
      .ok ((s.readLines number (lines.drop (start + number))).map (foundFrom start)) := by
  refine scanAt_eq SignatureScan.readLines (fun _ _ => rfl) (fun s number line rest => ?_) lines s start number
  rw [SignatureScan.readLines, SignatureScan.readNext]
  cases SignatureScan.readLine _ line.trim <;> rfl

theorem signatureByIndex_eq (index : Nat) :
    signatureByIndex lines index = .ok ((signature? (lines.drop index)).map (foundFrom index)) := by
  unfold signatureByIndex
  split
  · next hlt =>
    rw [lineAt_of_lt hlt, ok_bind, List.drop_eq_getElem_cons hlt, signature?]
    cases SignatureScan.readLine {} lines[index].trim with
    | inl signature => rfl
    | inr s => exact readNext_eq s 1
  · next hend =>
    rw [List.drop_eq_nil_of_le (Nat.le_of_not_lt hend)]
    rfl

theorem constructorByIndex_eq (hstart : start < lines.length) :
    constructorByIndex lines start = (readConstructor (start + 1) (lines.drop start)).placed start (foundFrom start) := by
  unfold constructorByIndex readConstructor
  rw [attributesByIndex_eq hstart]
  refine AtMarker.placed_bind fun ⟨listEnd, attributes⟩ _ => ?_
  dsimp only [foundFrom]
  rw [declarationByIndex_eq hstart]
  refine AtMarker.placed_bind fun ⟨index, line⟩ _ => ?_
  dsimp only
  rw [signatureByIndex_eq, List.drop_drop]
  cases signature? (lines.drop (start + index)) with
  | none => rfl
  | some found =>
    obtain ⟨length, signature⟩ := found
    show Except.ok (start + index + length, _) = Except.ok (start + (index + length), _)
    rw [Nat.add_right_comm start 1 index, Nat.add_assoc start index length]

end Agreement

/-! ## §4 The state of a header -/

/-- Why a marker is not allowed in a state. -/
inductive Refusal where
  /-- What the marker needs is not open. -/
  | outside
  /-- What the marker opens is open already. -/
  | nested
  deriving DecidableEq, Repr

/-- The state behind a marker, where the marker is allowed. -/
def OpenContext.advance (state : OpenContext) : Marker → Except Refusal OpenContext
  | .classType => if state.inClass then .error .nested else .ok { state with inClass := true }
  | .structType => if state.inStruct then .error .nested else .ok { state with inStruct := true }
  | .property => if state.inClass then .ok state else .error .outside
  | .constructor => if state.inStruct then .ok state else .error .outside
  | .function => if state.inClass || state.inStruct then .ok state else .error .outside
  | _ => .ok state

namespace HeaderReading

/-- The declaration that a member belongs to. -/
def target? (r : HeaderReading) : Marker → Option Declaration
  | .property => r.openClass
  | .constructor => r.openStruct
  | .function =>
    match r.latest with
    | some .classType => r.openClass
    | some .structType => r.openStruct
    | none => none
  | _ => none

/-- The declaration that the declaration of a marker would be nested in. -/
def outer? (r : HeaderReading) : Marker → Option Declaration
  | .classType => r.openClass
  | .structType => r.openStruct
  | _ => none

/-- Why the reader stops at a marker that is not allowed. -/
def refuse (r : HeaderReading) (state : OpenContext) (marker : Marker) (start : Nat) : Refusal → Halt
  | .outside => .fault (start + 1) (.outsideContext marker state)
  | .nested =>
    match r.outer? marker with
    | some outer => .fault (start + 1) (.nested marker state outer.name outer.line)
    | none => .misstep (.notSet marker)

/-- Continue with the result of a marker, or stop. -/
def stepAt {α : Type} (r : HeaderReading) (result : AtIndex (Nat × α)) (next : α → HeaderReading) :
    HeaderReading × AtIndex Nat :=
  match result with
  | .error halt => (r, .error halt)
  | .ok (last, a) => (next a, .ok last)

/-- Take a member of an open declaration, which has to be set. -/
def memberAt {α : Type} (r : HeaderReading) (marker : Marker) (target : Option Declaration)
    (read : Declaration → AtIndex (Nat × α)) (next : Declaration → α → HeaderReading) : HeaderReading × AtIndex Nat :=
  match target with
  | some outer => r.stepAt (read outer) (next outer)
  | none => (r, .error (.misstep (.notSet marker)))

/-- Take the package directive on a line. -/
def packageAt (r : HeaderReading) (lines : List Text) (start : Nat) : HeaderReading × AtIndex Nat :=
  if r.packageSeen then (r, faultAt start (.secondPackage r.module.name))
  else
    let r := { r with packageSeen := true }
    match attributesByIndex lines .package start with
    | .error halt => (r, .error halt)
    | .ok (listEnd, attributes) =>
      match r.module.withAttributes attributes with
      | (module, none) => ({ r with module }, .ok listEnd)
      | (module, some fault) => ({ r with module }, faultAt start (.inAttributes fault))

/-- Take the marker on a line. The result is the reading behind it and the index of its last line. -/
def takeAt (r : HeaderReading) (lines : List Text) (start : Nat) : Marker → HeaderReading × AtIndex Nat
  | .modelOverrides =>
    let module := { r.module with modelOverrides := r.module.modelOverrides ++ [r.includePath] }
    ({ r with module := module.addInclude r.includePath }, .ok start)
  | .renderOverrides =>
    let module := { r.module with renderOverrides := r.module.renderOverrides ++ [r.includePath] }
    ({ r with module := module.addInclude r.includePath }, .ok start)
  | .package => r.packageAt lines start
  | .externalType =>
    r.stepAt (externalByIndex lines r.includePath start) fun declared =>
      { r with module := r.module.add declared, externals := r.externals ++ [declared] }
  | .classType =>
    r.stepAt (typeByIndex lines r.module r.includePath .classType .classType start) fun declared =>
      { r with openClass := some declared, latest := some .classType }
  | .structType =>
    r.stepAt (typeByIndex lines r.module r.includePath .structType .structType start) fun declared =>
      { r with openStruct := some declared, latest := some .structType }
  | .property =>
    r.memberAt .property (r.target? .property) (fun outer => propertyByIndex lines outer.name start) fun outer property =>
      { r with openClass := some { outer with properties := outer.properties ++ [property] } }
  | .constructor =>
    r.memberAt .constructor (r.target? .constructor) (fun _ => constructorByIndex lines start) fun outer declared =>
      { r with openStruct := some { outer with constructors := outer.constructors ++ [declared] } }
  | .function =>
    r.memberAt .function (r.target? .function) (fun _ => functionByIndex lines start) fun outer declared =>
      let outer := { outer with functions := outer.functions ++ [declared] }
      if r.latest = some .classType then { r with openClass := some outer } else { r with openStruct := some outer }

end HeaderReading

/-! ## §5 A reader with a cursor -/

/-- A reader between two turns: what it has read, the state by which it allows markers, and the index of its line. -/
structure Cursor where
  reading : HeaderReading
  state : OpenContext
  index : Nat

/-- What a turn leads to. -/
inductive Turn where
  | goesOn (next : Cursor)
  | ends (outcome : HeaderOutcome)
  | missteps (misstep : Misstep)

/-- The outcome of a reading: what it has declared when it has no fault, and else what it has got by then. -/
def HeaderReading.outcome (path : Text) : HeaderReading × Option (Nat × HeaderFault) → HeaderOutcome
  | (r, some (line, fault)) => ⟨r.module, r.externals, some { file := path, line, fault }⟩
  | (r, none) => ⟨(r.module.addAll r.opened).addInclude (includePathOf path), r.externals ++ r.opened, none⟩

/-- A turn that stops. -/
def HeaderReading.halt (r : HeaderReading) (path : Text) : Halt → Turn
  | .misstep misstep => .missteps misstep
  | .fault line fault => .ends (outcome path (r, some (line, fault)))

namespace Cursor

variable (path : Text) (lines : List Text)

/-- A reader before its first turn. -/
def start (m : Module) : Cursor := ⟨{ module := m, includePath := includePathOf path }, ⟨false, false⟩, 0⟩

/-- One turn: the reading ends behind the last line, passes over a line without a marker, or takes a marker that is
allowed, and goes on behind the last line of it. -/
def turn (c : Cursor) : Turn :=
  if lines.length ≤ c.index then .ends (HeaderReading.outcome path (c.reading, none))
  else
    match lineAt lines c.index with
    | .error halt => c.reading.halt path halt
    | .ok line =>
      match Marker.ofLine? line with
      | none => .goesOn { c with index := c.index + 1 }
      | some marker =>
        match c.state.advance marker with
        | .error refusal => c.reading.halt path (c.reading.refuse c.state marker c.index refusal)
        | .ok state =>
          match c.reading.takeAt lines c.index marker with
          | (r, .error halt) => r.halt path halt
          | (r, .ok last) => .goesOn ⟨r, state, last + 1⟩

/-- The marker that is taken in a turn. -/
def Dispatches (c : Cursor) (marker : Marker) : Prop :=
  ∃ line state, lines[c.index]? = some line ∧ Marker.ofLine? line = some marker ∧ c.state.advance marker = .ok state

/-- From one reader to another in any number of turns. -/
def Reaches : Cursor → Cursor → Prop := Relation.ReflTransGen fun c next => c.turn path lines = .goesOn next

/-- The invariant of a reader: the state tells what is open, the declaration opened last is open, and the index is not
beyond the end. -/
structure Sound (c : Cursor) : Prop where
  state : c.reading.Scoped c.state.inClass c.state.inStruct
  index : c.index ≤ lines.length

/-- What reading the lines from the index on leads to. -/
def outcome (c : Cursor) : HeaderOutcome :=
  HeaderReading.outcome path (c.reading.readFrom 0 (c.index + 1) (lines.drop c.index))

end Cursor

/-! ## §6 One turn -/

namespace HeaderReading

variable {r after : HeaderReading} {marker : Marker} {state next : OpenContext} {lines : List Text} {start : Nat}

/-- The same step of a reading by indices. -/
def Step.placed (start : Nat) (step : Step) : HeaderReading × AtIndex Nat := (step.1, step.2.placed start (start + ·))

theorem stepAt_eq {α : Type} (result : AtMarker (Nat × α)) (next : α → HeaderReading) :
    r.stepAt (result.placed start (foundFrom start)) next = (r.step result next).placed start := by
  cases result with
  | error fault => rfl
  | ok found => rfl

theorem packageAt_eq (hstart : start < lines.length) :
    r.packageAt lines start = (r.readPackage (lines.drop start)).placed start := by
  unfold packageAt readPackage
  split
  · rfl
  · dsimp only
    rw [attributesByIndex_eq hstart]
    cases attributesAt .package (lines.drop start) with
    | error fault => rfl
    | ok found =>
      dsimp only [AtMarker.placed, foundFrom]
      -- the attributes are taken from the same list, with the same fault or none
      cases r.module.withAttributes found.2 with
      | mk module fault =>
        cases fault with
        | none => rfl
        | some fault => rfl

/-- What an allowed marker finds in a reading, and the state behind it. -/
inductive Allowed (r : HeaderReading) (state : OpenContext) : Marker → OpenContext → Prop where
  | modelOverrides : Allowed r state .modelOverrides state
  | renderOverrides : Allowed r state .renderOverrides state
  | package : Allowed r state .package state
  | externalType : Allowed r state .externalType state
  | classType (closed : r.openClass = none) : Allowed r state .classType { state with inClass := true }
  | structType (closed : r.openStruct = none) : Allowed r state .structType { state with inStruct := true }
  | property {outer : Declaration} (opened : r.openClass = some outer) : Allowed r state .property state
  | constructor {outer : Declaration} (opened : r.openStruct = some outer) : Allowed r state .constructor state
  | functionOfClass {outer : Declaration} (latest : r.latest = some .classType) (opened : r.openClass = some outer) :
      Allowed r state .function state
  | functionOfStruct {outer : Declaration} (latest : r.latest = some .structType) (opened : r.openStruct = some outer) :
      Allowed r state .function state

/-- **An allowed marker has what it needs**: the state tells what is open, and what was opened last is open. -/
theorem allowed_of_advance (hscope : r.Scoped state.inClass state.inStruct) (h : state.advance marker = .ok next) :
    r.Allowed state marker next := by
  cases marker with
  | modelOverrides => cases h; exact .modelOverrides
  | renderOverrides => cases h; exact .renderOverrides
  | package => cases h; exact .package
  | externalType => cases h; exact .externalType
  | classType =>
    rw [OpenContext.advance] at h
    split at h
    · cases h
    · next hstate =>
      cases h
      exact .classType (hscope.openClass_eq_none hstate)
  | structType =>
    rw [OpenContext.advance] at h
    split at h
    · cases h
    · next hstate =>
      cases h
      exact .structType (hscope.openStruct_eq_none hstate)
  | property =>
    rw [OpenContext.advance] at h
    split at h
    · next hstate =>
      cases h
      obtain ⟨outer, houter⟩ := hscope.exists_openClass hstate
      exact .property houter
    · cases h
  | constructor =>
    rw [OpenContext.advance] at h
    split at h
    · next hstate =>
      cases h
      obtain ⟨outer, houter⟩ := hscope.exists_openStruct hstate
      exact .constructor houter
    · cases h
  | function =>
    rw [OpenContext.advance] at h
    split at h
    · next hstate =>
      cases h
      have hlatest := hscope.latest
      cases hkind : r.latest with
      | none =>
        -- nothing was opened last only if nothing is open
        rw [hkind] at hlatest
        rw [hlatest.1, hlatest.2] at hstate
        cases hstate
      | some kind =>
        rw [hkind] at hlatest
        cases kind with
        | classType =>
          obtain ⟨outer, houter⟩ := hscope.exists_openClass hlatest
          exact .functionOfClass hkind houter
        | structType =>
          obtain ⟨outer, houter⟩ := hscope.exists_openStruct hlatest
          exact .functionOfStruct hkind houter
    · cases h

/-- **An allowed marker is taken by indices as it is over lists.** -/
theorem Allowed.takeAt_eq (h : r.Allowed state marker next) (hstart : start < lines.length) :
    r.takeAt lines start marker = (r.dispatch marker (start + 1) (lines.drop start)).placed start := by
  cases h with
  | modelOverrides => rfl
  | renderOverrides => rfl
  | package => exact packageAt_eq hstart
  | externalType =>
    rw [takeAt, externalByIndex_eq hstart]
    exact stepAt_eq _ _
  | classType closed =>
    rw [takeAt, typeByIndex_eq hstart, dispatch, closed]
    exact stepAt_eq _ _
  | structType closed =>
    rw [takeAt, typeByIndex_eq hstart, dispatch, closed]
    exact stepAt_eq _ _
  | property opened =>
    rw [takeAt, dispatch, target?, opened, memberAt, propertyByIndex_eq hstart]
    exact stepAt_eq _ _
  | constructor opened =>
    rw [takeAt, dispatch, target?, opened, memberAt, constructorByIndex_eq hstart]
    exact stepAt_eq _ _
  | functionOfClass latest opened =>
    simp only [takeAt, dispatch, target?, latest, opened, memberAt, functionByIndex_eq hstart]
    exact stepAt_eq _ _
  | functionOfStruct latest opened =>
    simp only [takeAt, dispatch, target?, latest, opened, memberAt, functionByIndex_eq hstart]
    exact stepAt_eq _ _

theorem Allowed.target (h : r.Allowed state marker next) (hmember : marker ∈ [.property, .constructor, .function]) :
    ∃ outer, r.target? marker = some outer := by
  cases h with
  | property opened => exact ⟨_, opened⟩
  | constructor opened => exact ⟨_, opened⟩
  | functionOfClass latest opened => exact ⟨_, by rw [target?, latest, opened]⟩
  | functionOfStruct latest opened => exact ⟨_, by rw [target?, latest, opened]⟩
  | _ => simp at hmember

/-- The state goes along with the open declarations. -/
theorem Allowed.scoped {number taken : Nat} (h : r.Allowed state marker next)
    (hscope : r.Scoped state.inClass state.inStruct) (htakes : r.Takes number lines marker after taken) :
    after.Scoped next.inClass next.inStruct := by
  obtain ⟨hclass, hstruct, hlatest⟩ := hscope
  -- only a class or a struct changes what is open; a member changes the declaration and leaves it open
  cases htakes with
  | modelOverrides => cases h; exact ⟨hclass, hstruct, hlatest⟩
  | renderOverrides => cases h; exact ⟨hclass, hstruct, hlatest⟩
  | package first list metadata => cases h; exact ⟨hclass, hstruct, hlatest⟩
  | externalType read => cases h; exact ⟨hclass, hstruct, hlatest⟩
  | classType closed read => cases h; exact ⟨rfl, hstruct, rfl⟩
  | structType closed read => cases h; exact ⟨hclass, rfl, rfl⟩
  | property opened read =>
    rw [opened] at hclass
    cases h; exact ⟨hclass, hstruct, hlatest⟩
  | constructor opened read =>
    rw [opened] at hstruct
    cases h; exact ⟨hclass, hstruct, hlatest⟩
  | functionOfClass latest opened read =>
    rw [opened] at hclass
    cases h <;> exact ⟨hclass, hstruct, hlatest⟩
  | functionOfStruct latest opened read =>
    rw [opened] at hstruct
    cases h <;> exact ⟨hclass, hstruct, hlatest⟩

/-- What a marker that is not allowed finds in a reading, and the fault that it has. -/
inductive Refused (r : HeaderReading) (state : OpenContext) : Marker → Refusal → HeaderFault → Prop where
  | classType {outer : Declaration} (opened : r.openClass = some outer) :
      Refused r state .classType .nested (.nested .classType state outer.name outer.line)
  | structType {outer : Declaration} (opened : r.openStruct = some outer) :
      Refused r state .structType .nested (.nested .structType state outer.name outer.line)
  | property (closed : r.openClass = none) : Refused r state .property .outside (.outsideContext .property state)
  | constructor (closed : r.openStruct = none) :
      Refused r state .constructor .outside (.outsideContext .constructor state)
  | function (noClass : r.openClass = none) (noStruct : r.openStruct = none) :
      Refused r state .function .outside (.outsideContext .function state)

section Refused

variable {refusal : Refusal} {fault : HeaderFault}

/-- **A marker that is not allowed is refused**: what it would be nested in is open, or nothing that it needs. -/
theorem refused_of_advance (hscope : r.Scoped state.inClass state.inStruct) (h : state.advance marker = .error refusal) :
    ∃ fault, r.Refused state marker refusal fault := by
  cases marker with
  | modelOverrides => cases h
  | renderOverrides => cases h
  | package => cases h
  | externalType => cases h
  | classType =>
    rw [OpenContext.advance] at h
    split at h
    · next hstate =>
      cases h
      obtain ⟨outer, houter⟩ := hscope.exists_openClass hstate
      exact ⟨_, .classType houter⟩
    · cases h
  | structType =>
    rw [OpenContext.advance] at h
    split at h
    · next hstate =>
      cases h
      obtain ⟨outer, houter⟩ := hscope.exists_openStruct hstate
      exact ⟨_, .structType houter⟩
    · cases h
  | property =>
    rw [OpenContext.advance] at h
    split at h
    · cases h
    · next hstate =>
      cases h
      exact ⟨_, .property (hscope.openClass_eq_none hstate)⟩
  | constructor =>
    rw [OpenContext.advance] at h
    split at h
    · cases h
    · next hstate =>
      cases h
      exact ⟨_, .constructor (hscope.openStruct_eq_none hstate)⟩
  | function =>
    rw [OpenContext.advance] at h
    split at h
    · cases h
    · next hstate =>
      cases h
      rw [Bool.or_eq_true, not_or] at hstate
      exact ⟨_, .function (hscope.openClass_eq_none hstate.1) (hscope.openStruct_eq_none hstate.2)⟩

/-- **A refused marker has its fault over lists**, whatever its lines are. -/
theorem Refused.dispatch_eq (h : r.Refused state marker refusal fault) (hcontext : r.context = state) (number : Nat)
    (lines : List Text) : r.dispatch marker number lines = r.stop fault := by
  cases h with
  | classType opened => rw [dispatch, opened, hcontext]
  | structType opened => rw [dispatch, opened, hcontext]
  | property closed => rw [dispatch, closed, hcontext]
  | constructor closed => rw [dispatch, closed, hcontext]
  | function noClass noStruct =>
    simp only [dispatch, noClass, noStruct, hcontext]
    -- with nothing open it does not matter what was opened last
    split <;> first | contradiction | rfl

/-- A refused marker has its fault by indices, since the declaration that it would be nested in is set. -/
theorem Refused.refuse_eq (h : r.Refused state marker refusal fault) (start : Nat) :
    r.refuse state marker start refusal = .fault (start + 1) fault := by
  cases h with
  | classType opened => rw [refuse, outer?, opened]
  | structType opened => rw [refuse, outer?, opened]
  | property closed => rfl
  | constructor closed => rfl
  | function noClass noStruct => rfl

end Refused

theorem readFrom_drop (r : HeaderReading) {taken : Nat} (htaken : taken ≤ lines.length) (number : Nat) :
    r.readFrom taken number lines = r.readFrom 0 (number + taken) (lines.drop taken) := by
  have h := readFrom_taken r number (lines.take taken) (lines.drop taken)
  rwa [List.take_append_drop, List.length_take_of_le htaken] at h

end HeaderReading

namespace Cursor

variable {path : Text} {lines : List Text} {c next : Cursor}

/-- **A turn of a sound reader** makes no misstep. It ends with the outcome of the lines from its index on, or leads to a
sound reader further on, whose lines have the same outcome. -/
theorem turn_of_sound (path : Text) (hsound : c.Sound lines) :
    c.turn path lines = .ends (c.outcome path lines) ∨
    ∃ next, c.turn path lines = .goesOn next ∧ next.Sound lines ∧ c.index < next.index ∧
      next.outcome path lines = c.outcome path lines := by
  unfold turn outcome
  split
  · next hend =>
    left
    rw [List.drop_eq_nil_of_le hend, HeaderReading.readFrom]
  · next hlt =>
    have hlt : c.index < lines.length := Nat.lt_of_not_le hlt
    rw [lineAt_of_lt hlt, List.drop_eq_getElem_cons hlt]
    dsimp only
    rw [HeaderReading.readFrom]
    cases hmarker : Marker.ofLine? lines[c.index] with
    | none =>
      right
      exact ⟨_, rfl, ⟨hsound.state, hlt⟩, Nat.lt_succ_self _, rfl⟩
    | some marker =>
      dsimp only
      rw [← List.drop_eq_getElem_cons hlt]
      cases hadvance : c.state.advance marker with
      | error refusal =>
        -- the reader over lists has no state to ask, and comes upon the same fault in what is open
        left
        obtain ⟨fault, hrefused⟩ := HeaderReading.refused_of_advance hsound.state hadvance
        dsimp only
        rw [hrefused.refuse_eq, hrefused.dispatch_eq hsound.state.context]
        rfl
      | ok state =>
        have hallowed := HeaderReading.allowed_of_advance hsound.state hadvance
        have hrest : 0 < (lines.drop c.index).length := by
          rw [List.length_drop]
          omega
        have hwithin := HeaderReading.dispatch_within hrest c.reading marker (c.index + 1)
        dsimp only
        rw [hallowed.takeAt_eq hlt]
        cases hdispatch : c.reading.dispatch marker (c.index + 1) (lines.drop c.index) with
        | mk after result =>
          rw [hdispatch] at hwithin
          cases result with
          | error fault =>
            left
            show Turn.ends (HeaderReading.outcome path (after, some (c.index + fault.1 + 1, fault.2))) = _
            rw [Nat.add_right_comm]
          | ok taken =>
            have htaken : taken < lines.length - c.index := by simpa using hwithin.found taken rfl
            refine Or.inr ⟨⟨after, state, c.index + taken + 1⟩, rfl, ⟨?_, ?_⟩, ?_, ?_⟩
            · exact hallowed.scoped hsound.state (HeaderReading.takes_of_dispatch hdispatch)
            · dsimp only; omega
            · dsimp only; omega
            · -- the reader over lists passes over the lines that the cursor skips
              dsimp only
              have hskipped : taken ≤ (lines.drop (c.index + 1)).length := by
                rw [List.length_drop]
                omega
              rw [HeaderReading.readFrom_drop after hskipped, List.drop_drop,
                show c.index + 1 + 1 + taken = c.index + taken + 1 + 1 by omega,
                show c.index + 1 + taken = c.index + taken + 1 by omega]

/-! ## §7 All turns -/

theorem sound_start (path : Text) (lines : List Text) (m : Module) : (start path m).Sound lines :=
  ⟨⟨rfl, rfl, rfl, rfl⟩, Nat.zero_le _⟩

/-- The invariant and the outcome are kept from turn to turn. -/
theorem sound_of_reaches (hsound : c.Sound lines) (h : Reaches path lines c next) :
    next.Sound lines ∧ next.outcome path lines = c.outcome path lines := by
  induction h with
  | refl => exact ⟨hsound, rfl⟩
  | @tail last next _ hturn ih =>
    obtain ⟨hlast, houtcome⟩ := ih
    rcases turn_of_sound path hlast with hends | ⟨next', hgoes, hnext, -, hnextOutcome⟩
    · -- a turn that ends leads to no other
      rw [hends] at hturn
      cases hturn
    · rw [hgoes] at hturn
      cases hturn
      exact ⟨hnext, hnextOutcome.trans houtcome⟩

/-- **The turns come to an end**, since each leaves fewer lines. -/
theorem exists_end (path : Text) (hsound : c.Sound lines) :
    ∃ last, Reaches path lines c last ∧ last.turn path lines = .ends (c.outcome path lines) := by
  -- a turn may leave out any number of lines, those that belong to its marker
  induction hleft : lines.length - c.index using Nat.strong_induction_on generalizing c with
  | _ left ih =>
    rcases turn_of_sound path hsound with hends | ⟨next, hgoes, hnext, hlt, houtcome⟩
    · exact ⟨c, Relation.ReflTransGen.refl, hends⟩
    · have hindex := hnext.index
      obtain ⟨last, hreaches, hends⟩ := ih (lines.length - next.index) (by omega) hnext rfl
      rw [houtcome] at hends
      exact ⟨last, Relation.ReflTransGen.head hgoes hreaches, hends⟩

/-- What holds of a reader whose turn makes no misstep. -/
structure Safe (path : Text) (lines : List Text) (c : Cursor) : Prop where
  /-- No line is asked for that the header does not have, and no declaration is used that is not set. -/
  noMisstep : ∀ misstep, c.turn path lines ≠ .missteps misstep
  /-- A member is only taken when the declaration that it belongs to is set. -/
  target : ∀ marker ∈ [Marker.property, .constructor, .function], c.Dispatches lines marker →
    ∃ outer, c.reading.target? marker = some outer
  /-- The cursor goes forward, and not beyond the end of the header. -/
  forward : ∀ next, c.turn path lines = .goesOn next → c.index < next.index ∧ next.index ≤ lines.length

theorem Sound.safe (hsound : c.Sound lines) : c.Safe path lines where
  noMisstep := by
    intro misstep hmisstep
    rcases turn_of_sound path hsound with hends | ⟨next, hgoes, -⟩
    · rw [hends] at hmisstep
      cases hmisstep
    · rw [hgoes] at hmisstep
      cases hmisstep
  target := by
    rintro marker hmember ⟨line, state, -, -, hadvance⟩
    exact (HeaderReading.allowed_of_advance hsound.state hadvance).target hmember
  forward := by
    intro next hnext
    rcases turn_of_sound path hsound with hends | ⟨next', hgoes, hsound', hlt, -⟩
    · rw [hends] at hnext
      cases hnext
    · rw [hgoes] at hnext
      cases hnext
      exact ⟨hlt, hsound'.index⟩

end Cursor

/-! ## §8 Headers -/

/-- **Where a fault of a header is**: in the file that is read, on one of its lines. -/
theorem Module.error_placed {m : Module} {path text : Text} {error : HeaderError}
    (h : (m.readHeader path text).error = some error) :
    error.file = path ∧ 1 ≤ error.line ∧ error.line ≤ (Header.lines text).length := by
  obtain ⟨before, s, behind, middle, after, distance, hsplit, -, hstop, hfile, hline, -⟩ := Module.exists_stop_of_error h
  -- the marked line is a line of the header, and the fault is not behind the last line from there on
  have hmarked : s ∈ markedFrom 0 1 (Header.lines text) := by
    rw [← Header.marked, hsplit]
    exact List.mem_append_right _ List.mem_cons_self
  obtain ⟨hlies, -⟩ := markedFrom_places hmarked
  have hcount := hlies.number_le
  obtain ⟨first, rest, hlines, -⟩ := hlies.opens
  have hrest : 0 < s.lines.length := by simp [hlines]
  have hwithin := HeaderReading.dispatch_within hrest middle s.marker s.number
  rw [hstop] at hwithin
  have hdistance : distance < s.lines.length := hwithin.fault _ rfl
  have hnumber := hlies.le
  exact ⟨hfile, by omega, by omega⟩

/-- **A header is read to its end with its lines asked for by numbers.** For every module, path and text, a reader with a
cursor makes no misstep in any turn: it asks for no line that is missing and uses no declaration that is not set, and it
takes a property, a constructor or a function only when the declaration that it belongs to is set. Each turn that goes on
moves the cursor forward. So the turns come to an end, with the outcome that the header has by definition. A fault is
noted with the path of the header and with the number of one of its lines. -/
theorem Module.readHeader_by_index (m : Module) (path text : Text) :
    let lines := Header.lines text
    let start := Cursor.start path m
    (∀ c, Cursor.Reaches path lines start c → c.Safe path lines) ∧
    (∃ last, Cursor.Reaches path lines start last ∧ last.turn path lines = .ends (m.readHeader path text)) ∧
    (∀ c outcome, Cursor.Reaches path lines start c → c.turn path lines = .ends outcome →
      outcome = m.readHeader path text) ∧
    ∀ error, (m.readHeader path text).error = some error →
      error.file = path ∧ 1 ≤ error.line ∧ error.line ≤ lines.length := by
  intro lines start
  have hstart : start.Sound lines := Cursor.sound_start path lines m
  have houtcome : start.outcome path lines = m.readHeader path text := by
    show HeaderReading.outcome path (m.headerReading path text) = _
    cases hreading : m.headerReading path text with
    | mk after result =>
      cases result with
      | none => exact (Module.readHeader_of_read hreading).symm
      | some fault => exact (Module.readHeader_of_fault hreading).symm
  refine ⟨?_, ?_, ?_, fun error herror => Module.error_placed herror⟩
  · intro c hreaches
    exact (Cursor.sound_of_reaches hstart hreaches).1.safe
  · obtain ⟨last, hreaches, hends⟩ := Cursor.exists_end path hstart
    rw [houtcome] at hends
    exact ⟨last, hreaches, hends⟩
  · intro c outcome hreaches hends
    obtain ⟨hsound, hsame⟩ := Cursor.sound_of_reaches hstart hreaches
    rcases Cursor.turn_of_sound path hsound with h | ⟨next, h, -⟩
    · rw [h] at hends
      cases hends
      -- wherever the turns come to an end, the outcome is that of the start
      exact hsame.trans houtcome
    · rw [h] at hends
      cases hends

end HeaderReflection
