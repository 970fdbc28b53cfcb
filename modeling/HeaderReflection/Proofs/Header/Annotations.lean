import HeaderReflection.Proofs.Header.Declared
import Mathlib.Algebra.GroupWithZero.Nat

/-!
# Annotations of a header

What becomes of every marker line of a header. A marker takes the lines of its attribute list with it, and behind them
the lines of its declaration, up to the one that it finds what it needs on; it does not look whether there is a marker
among them. So a marker line is taken as a marker, or it stands in the list of another marker, or it is swallowed: it is
read as part of the declaration of the marker before it, which has none of its own.

Which of the three it is can be told from the lines alone. Of a header that is read without a fault, the types and the
members that are declared are as many as the marker lines outside attribute lists, less those that are swallowed.

## Main definitions

- `Marker.span`: how many lines a marker takes behind its own.
- `LineRole`, `rolesOf`: what each line of a header is.
- `NothingSwallowed`: no declaration holds a marker line.
- `HeaderReading.replay`: taking the markers of a header, and no other lines.
- `HeaderReading.Takes`: what a marker does to a reading.
- `HeaderReading.Course`: how a reading goes over its lines.
- `HeaderReading.Scoped`: what is open in a reading.

## Main results

- `takes_of_dispatch`: a marker without a fault does one of these things.
- `Takes.span`, `Takes.count`: it takes the lines of its span, and declares one thing of its kind.
- `course_of_readFrom`, `readFrom_eq_replay`, `count_readFrom`: all lines of a header.
- `declared_of_annotations`: all of a header without a fault.
-/

namespace HeaderReflection

/-! ## §1 What the lines of a header are -/

/-- The number of lines behind the first one on which its attribute list ends. -/
def AttributeList.endOf (lines : List Text) : Nat :=
  match extract lines with
  | .ok (listEnd, _) => listEnd
  | .error _ => 0

/-- The number of the first line behind an attribute list that passes a test, or of the last line of the list. -/
def lineBehind (test : Text → Bool) (lines : List Text) : Nat :=
  let listEnd := AttributeList.endOf lines
  match findLine? test (listEnd + 1) (lines.drop (listEnd + 1)) with
  | some (index, _) => index
  | none => listEnd

namespace Marker

/-- How many lines the attribute list of a marker takes behind its own. Overrides are read without a list. -/
def listLength (marker : Marker) (lines : List Text) : Nat :=
  match marker with
  | .modelOverrides => 0
  | .renderOverrides => 0
  | _ => AttributeList.endOf lines

/-- How many lines a marker takes behind its own, of lines that begin with its own:

* a type or a property, up to the first line behind its list that is neither blank nor a comment;
* a function, up to the first line behind its list with a parenthesis;
* a constructor, from the first line behind its list that is neither blank nor a comment, up to the parenthesis that
  balances it;
* the others, nothing behind their lists. -/
def span (marker : Marker) (lines : List Text) : Nat :=
  match marker with
  | .modelOverrides => 0
  | .renderOverrides => 0
  | .package => AttributeList.endOf lines
  | .function => lineBehind (·.contains (Text.byte '(')) lines
  | .constructor =>
    let index := lineBehind (!isIdleLine ·) lines
    match signature? (lines.drop index) with
    | some (length, _) => index + length
    | none => index
  | _ => lineBehind (!isIdleLine ·) lines

/-- Whether a marker declares a type or a member. -/
def declares : Marker → Bool
  | .modelOverrides => false
  | .renderOverrides => false
  | .package => false
  | _ => true

/-- How many things a type has that a marker declares, itself among them. -/
def countIn : Marker → Declaration → Nat
  | .externalType, d => if d.kind = .external then 1 else 0
  | .classType, d => if d.kind = .classType then 1 else 0
  | .structType, d => if d.kind = .structType then 1 else 0
  | .property, d => d.properties.length
  | .function, d => d.functions.length
  | .constructor, d => d.constructors.length
  | _, _ => 0

/-- How many things some types have that a marker declares. -/
def count (marker : Marker) (ds : List Declaration) : Nat := (ds.map marker.countIn).sum

end Marker

/-- What a line of a header is. -/
inductive LineRole where
  /-- Passed over. -/
  | other
  /-- Taken as a marker. -/
  | marker (marker : Marker)
  /-- In the attribute list of a marker, behind its own line. -/
  | list (marker : Marker)
  /-- In the declaration of a marker. -/
  | declaration (marker : Marker)
  deriving DecidableEq, Repr

namespace LineRole

/-- Whether a line is outside attribute lists. -/
def outsideLists : LineRole → Bool
  | .list _ => false
  | _ => true

/-- Whether a line is in a declaration. -/
def inDeclaration : LineRole → Bool
  | .declaration _ => true
  | _ => false

end LineRole

/-- What the lines behind a marker are that it takes with it. -/
def Marker.rolesBehind (marker : Marker) (lines : List Text) : List LineRole :=
  List.replicate (marker.listLength lines) (.list marker) ++
    List.replicate (marker.span lines - marker.listLength lines) (.declaration marker)

/-- What each line of a header is, where the first lines are known already. -/
def rolesOf : List LineRole → List Text → List LineRole
  | _, [] => []
  | role :: known, _ :: lines => role :: rolesOf known lines
  | [], line :: lines =>
    match Marker.ofLine? line with
    | none => .other :: rolesOf [] lines
    | some marker => .marker marker :: rolesOf (marker.rolesBehind (line :: lines)) lines

/-- How many lines of a header open a marker and have a role that passes a test. -/
def countLines (marker : Marker) (test : LineRole → Bool) (lines : List Text) (roles : List LineRole) : Nat :=
  (lines.zip roles).countP fun entry => Marker.ofLine? entry.1 = some marker && test entry.2

/-- No declaration holds a marker line. -/
def NothingSwallowed (lines : List Text) (roles : List LineRole) : Prop :=
  ∀ entry ∈ lines.zip roles, entry.2.inDeclaration = true → Marker.ofLine? entry.1 = none

instance (lines : List Text) (roles : List LineRole) : Decidable (NothingSwallowed lines roles) :=
  List.decidableBAll _ _

/-! ## §2 Spans -/

theorem le_of_findLine? {test : Text → Bool} {start index : Nat} {line : Text} {lines : List Text}
    (h : findLine? test start lines = some (index, line)) : start ≤ index := by
  induction lines generalizing start with
  | nil => cases h
  | cons first lines ih =>
    rw [findLine?] at h
    split at h
    · cases h
      exact le_rfl
    · exact (Nat.le_succ start).trans (ih h)

theorem endOf_le_lineBehind (test : Text → Bool) (lines : List Text) :
    AttributeList.endOf lines ≤ lineBehind test lines := by
  unfold lineBehind
  dsimp only
  split
  · next hfind => exact (Nat.le_succ _).trans (le_of_findLine? hfind)
  · exact le_rfl

/-- A marker takes all of its list. -/
theorem Marker.listLength_le_span (marker : Marker) (lines : List Text) :
    marker.listLength lines ≤ marker.span lines := by
  cases marker with
  | modelOverrides => exact le_rfl
  | renderOverrides => exact le_rfl
  | package => exact le_rfl
  | function => exact endOf_le_lineBehind _ lines
  | constructor =>
    have hle := endOf_le_lineBehind (!isIdleLine ·) lines
    simp only [listLength, span]
    split
    · omega
    · exact hle
  | classType => exact endOf_le_lineBehind _ lines
  | structType => exact endOf_le_lineBehind _ lines
  | externalType => exact endOf_le_lineBehind _ lines
  | property => exact endOf_le_lineBehind _ lines

theorem Marker.length_rolesBehind (marker : Marker) (lines : List Text) :
    (marker.rolesBehind lines).length = marker.span lines := by
  have hle := marker.listLength_le_span lines
  rw [rolesBehind, List.length_append, List.length_replicate, List.length_replicate]
  omega

/-- Lines that a marker takes with it: each is in an attribute list or in a declaration. -/
def Carried (known : List LineRole) : Prop := ∀ role ∈ known, role.outsideLists = false ∨ role.inDeclaration = true

theorem carried_nil : Carried [] := by
  intro role hrole
  cases hrole

theorem Carried.of_cons {role : LineRole} {known : List LineRole} (h : Carried (role :: known)) : Carried known :=
  fun role hrole => h role (List.mem_cons_of_mem _ hrole)

theorem Marker.carried_rolesBehind (marker : Marker) (lines : List Text) : Carried (marker.rolesBehind lines) := by
  intro role hrole
  rcases List.mem_append.mp hrole with hrole | hrole
  · exact Or.inl (by rw [List.eq_of_mem_replicate hrole]; rfl)
  · exact Or.inr (by rw [List.eq_of_mem_replicate hrole]; rfl)

theorem endOf_of_attributesAt {marker : Marker} {lines attributes : List Text} {listEnd : Nat}
    (h : attributesAt marker lines = .ok (listEnd, attributes)) : AttributeList.endOf lines = listEnd := by
  unfold attributesAt at h
  unfold AttributeList.endOf
  split at h
  · next result hextract =>
    cases h
    rw [hextract]
  · cases h
  · cases h

theorem lineBehind_of_findLine? {marker : Marker} {test : Text → Bool} {lines attributes : List Text}
    {listEnd index : Nat} {line : Text} (h : attributesAt marker lines = .ok (listEnd, attributes))
    (hfind : findLine? test (listEnd + 1) (lines.drop (listEnd + 1)) = some (index, line)) :
    lineBehind test lines = index := by
  unfold lineBehind
  dsimp only
  rw [endOf_of_attributesAt h, hfind]

theorem lineBehind_of_declarationAt {marker : Marker} {lines attributes : List Text} {listEnd index : Nat} {line : Text}
    (h : attributesAt marker lines = .ok (listEnd, attributes))
    (hdeclared : declarationAt marker listEnd lines = .ok (index, line)) :
    lineBehind (!isIdleLine ·) lines = index := by
  unfold declarationAt at hdeclared
  split at hdeclared
  · next result hfind =>
    cases hdeclared
    exact lineBehind_of_findLine? h hfind
  · cases hdeclared

/-! ## §3 What a marker reads -/

/-- A type that has just been declared has its kind and no members. -/
structure Declaration.Fresh (kind : Kind) (d : Declaration) : Prop where
  kind : d.kind = kind
  members : d.members = ([], [], [])

/-- A type that has just been declared counts like any other one of its kind without members. -/
theorem Declaration.Fresh.countIn {kind : Kind} {d : Declaration} (h : d.Fresh kind) (marker : Marker) :
    marker.countIn d = marker.countIn { name := [], fullName := [], kind } := by
  obtain ⟨hproperties, hfunctions, hconstructors⟩ : d.properties = [] ∧ d.functions = [] ∧ d.constructors = [] := by
    simpa [Declaration.members] using h.members
  cases marker <;> simp [Marker.countIn, h.kind, hproperties, hfunctions, hconstructors]

theorem readType_ok {m : Module} {includePath : Text} {marker : Marker} {kind : Kind} {number index : Nat}
    {lines : List Text} {d : Declaration} (h : readType m includePath marker kind number lines = .ok (index, d)) :
    lineBehind (!isIdleLine ·) lines = index ∧ d.Fresh kind := by
  obtain ⟨⟨listEnd, attributes⟩, hlist, h⟩ := bind_ok h
  obtain ⟨⟨index', line⟩, hline, h⟩ := bind_ok h
  obtain ⟨⟨name, others⟩, -, h⟩ := bind_ok h
  obtain ⟨declared, hattributes, h⟩ := bind_ok h
  cases h
  obtain ⟨-, -, hkind, hmembers⟩ := Declaration.withAttributes_keeps _ _ _ (atAttributes_ok hattributes)
  exact ⟨lineBehind_of_declarationAt hlist hline, hkind, hmembers⟩

theorem readExternal_ok {includePath : Text} {number index : Nat} {lines : List Text} {d : Declaration}
    (h : readExternal includePath number lines = .ok (index, d)) :
    lineBehind (!isIdleLine ·) lines = index ∧ d.Fresh .external := by
  obtain ⟨⟨listEnd, attributes⟩, hlist, h⟩ := bind_ok h
  obtain ⟨⟨index', line⟩, hline, h⟩ := bind_ok h
  obtain ⟨⟨name, others⟩, -, h⟩ := bind_ok h
  obtain ⟨declared, hattributes, h⟩ := bind_ok h
  cases h
  obtain ⟨-, -, hkind, hmembers⟩ := Declaration.withAttributes_keeps _ _ _ (atAttributes_ok hattributes)
  exact ⟨lineBehind_of_declarationAt hlist hline, hkind, hmembers⟩

theorem readProperty_ok {owner : Text} {number index : Nat} {lines : List Text} {property : Property}
    (h : readProperty owner number lines = .ok (index, property)) : lineBehind (!isIdleLine ·) lines = index := by
  obtain ⟨⟨listEnd, attributes⟩, hlist, h⟩ := bind_ok h
  obtain ⟨⟨index', line⟩, hline, h⟩ := bind_ok h
  dsimp only at h
  split at h
  · cases h
  · obtain ⟨property', -, h⟩ := bind_ok h
    split at h
    · cases h
    · cases h
      exact lineBehind_of_declarationAt hlist hline

theorem readFunction_ok {number index : Nat} {lines : List Text} {declared : MemberFunction}
    (h : readFunction number lines = .ok (index, declared)) :
    lineBehind (·.contains (Text.byte '(')) lines = index := by
  obtain ⟨⟨listEnd, attributes⟩, hlist, h⟩ := bind_ok h
  dsimp only at h
  split at h
  · cases h
  · next hfind =>
    split at h
    · cases h
    · cases h
      exact lineBehind_of_findLine? hlist hfind

theorem readConstructor_ok {number taken : Nat} {lines : List Text} {declared : TypeConstructor}
    (h : readConstructor number lines = .ok (taken, declared)) : Marker.span .constructor lines = taken := by
  obtain ⟨⟨listEnd, attributes⟩, hlist, h⟩ := bind_ok h
  obtain ⟨⟨index, line⟩, hline, h⟩ := bind_ok h
  dsimp only at h
  split at h
  · cases h
  · next length signature hsignature =>
    cases h
    rw [Marker.span, lineBehind_of_declarationAt hlist hline, hsignature]

namespace HeaderReading

/-! ## §4 What a marker does -/

variable {r after : HeaderReading} {marker : Marker} {number taken : Nat} {lines : List Text}

/-- What a marker does to a reading when it has no fault, and how many lines it takes behind its own. -/
inductive Takes (r : HeaderReading) (number : Nat) (lines : List Text) : Marker → HeaderReading → Nat → Prop where
  | modelOverrides : Takes r number lines .modelOverrides
      { r with module :=
          { r.module with modelOverrides := r.module.modelOverrides ++ [r.includePath] }.addInclude r.includePath } 0
  | renderOverrides : Takes r number lines .renderOverrides
      { r with module :=
          { r.module with renderOverrides := r.module.renderOverrides ++ [r.includePath] }.addInclude r.includePath } 0
  | package {listEnd : Nat} {attributes : List Text} {module : Module} (first : r.packageSeen = false)
      (list : attributesAt .package lines = .ok (listEnd, attributes))
      (metadata : r.module.withAttributes attributes = (module, none)) :
      Takes r number lines .package { r with module, packageSeen := true } listEnd
  | externalType {index : Nat} {d : Declaration} (read : readExternal r.includePath number lines = .ok (index, d)) :
      Takes r number lines .externalType { r with module := r.module.add d, externals := r.externals ++ [d] } index
  | classType {index : Nat} {d : Declaration} (closed : r.openClass = none)
      (read : readType r.module r.includePath .classType .classType number lines = .ok (index, d)) :
      Takes r number lines .classType { r with openClass := some d, latest := some .classType } index
  | structType {index : Nat} {d : Declaration} (closed : r.openStruct = none)
      (read : readType r.module r.includePath .structType .structType number lines = .ok (index, d)) :
      Takes r number lines .structType { r with openStruct := some d, latest := some .structType } index
  | property {index : Nat} {outer : Declaration} {property : Property} (opened : r.openClass = some outer)
      (read : readProperty outer.name number lines = .ok (index, property)) :
      Takes r number lines .property
        { r with openClass := some { outer with properties := outer.properties ++ [property] } } index
  | constructor {index : Nat} {outer : Declaration} {declared : TypeConstructor} (opened : r.openStruct = some outer)
      (read : readConstructor number lines = .ok (index, declared)) :
      Takes r number lines .constructor
        { r with openStruct := some { outer with constructors := outer.constructors ++ [declared] } } index
  | functionOfClass {index : Nat} {outer : Declaration} {declared : MemberFunction}
      (latest : r.latest = some .classType) (opened : r.openClass = some outer)
      (read : readFunction number lines = .ok (index, declared)) :
      Takes r number lines .function
        { r with openClass := some { outer with functions := outer.functions ++ [declared] } } index
  | functionOfStruct {index : Nat} {outer : Declaration} {declared : MemberFunction}
      (latest : r.latest = some .structType) (opened : r.openStruct = some outer)
      (read : readFunction number lines = .ok (index, declared)) :
      Takes r number lines .function
        { r with openStruct := some { outer with functions := outer.functions ++ [declared] } } index

/-- What is open in a reading. One of the open types was opened last. -/
structure Scoped (r : HeaderReading) (hasClass hasStruct : Bool) : Prop where
  openClass : r.openClass.isSome = hasClass
  openStruct : r.openStruct.isSome = hasStruct
  latest : match r.latest with
    | none => hasClass = false ∧ hasStruct = false
    | some .classType => hasClass = true
    | some .structType => hasStruct = true

section Scoped

variable {hasClass hasStruct : Bool} (h : r.Scoped hasClass hasStruct)

include h

theorem Scoped.context : r.context = ⟨hasClass, hasStruct⟩ := by
  rw [HeaderReading.context, h.openClass, h.openStruct]

theorem Scoped.openClass_eq_none (hclass : ¬ hasClass = true) : r.openClass = none := by
  rwa [← h.openClass, Option.not_isSome_iff_eq_none] at hclass

theorem Scoped.openStruct_eq_none (hstruct : ¬ hasStruct = true) : r.openStruct = none := by
  rwa [← h.openStruct, Option.not_isSome_iff_eq_none] at hstruct

theorem Scoped.exists_openClass (hclass : hasClass = true) : ∃ outer, r.openClass = some outer := by
  rwa [← h.openClass, Option.isSome_iff_exists] at hclass

theorem Scoped.exists_openStruct (hstruct : hasStruct = true) : ∃ outer, r.openStruct = some outer := by
  rwa [← h.openStruct, Option.isSome_iff_exists] at hstruct

end Scoped

theorem step_ok {α : Type} {result : AtMarker (Nat × α)} {next : α → HeaderReading}
    (h : r.step result next = (after, .ok taken)) : ∃ a, result = .ok (taken, a) ∧ next a = after := by
  cases result with
  | error fault => cases h
  | ok found => cases h; exact ⟨found.2, rfl, rfl⟩

/-- **A marker without a fault** does what markers of its kind do. -/
theorem takes_of_dispatch (h : r.dispatch marker number lines = (after, .ok taken)) :
    r.Takes number lines marker after taken := by
  -- a marker is taken if no branch has stopped the reading; what the branches have found out on the way is kept
  cases marker with
  | modelOverrides => cases h; exact .modelOverrides
  | renderOverrides => cases h; exact .renderOverrides
  | package =>
    change r.readPackage lines = _ at h
    unfold readPackage at h
    split at h
    · cases h
    · next hfirst =>
      dsimp only at h
      split at h
      · cases h
      · next listEnd attributes hlist =>
        split at h
        · next module hmetadata =>
          cases h
          exact .package (Bool.not_eq_true _ ▸ hfirst) hlist hmetadata
        · cases h
  | externalType =>
    obtain ⟨d, hread, rfl⟩ := step_ok h
    exact .externalType hread
  | classType =>
    simp only [dispatch] at h
    split at h
    · cases h
    · next hopen =>
      obtain ⟨d, hread, rfl⟩ := step_ok h
      exact .classType hopen hread
  | structType =>
    simp only [dispatch] at h
    split at h
    · cases h
    · next hopen =>
      obtain ⟨d, hread, rfl⟩ := step_ok h
      exact .structType hopen hread
  | property =>
    simp only [dispatch] at h
    split at h
    · cases h
    · next outer hopen =>
      obtain ⟨property, hread, rfl⟩ := step_ok h
      exact .property hopen hread
  | constructor =>
    simp only [dispatch] at h
    split at h
    · cases h
    · next outer hopen =>
      obtain ⟨declared, hread, rfl⟩ := step_ok h
      exact .constructor hopen hread
  | function =>
    simp only [dispatch] at h
    split at h
    · next outer hlatest hopen =>
      obtain ⟨declared, hread, rfl⟩ := step_ok h
      exact .functionOfClass hlatest hopen hread
    · next outer hlatest hopen =>
      obtain ⟨declared, hread, rfl⟩ := step_ok h
      exact .functionOfStruct hlatest hopen hread
    · cases h

/-- **How many lines a marker takes** can be told from the lines alone. -/
theorem Takes.span (h : r.Takes number lines marker after taken) : marker.span lines = taken := by
  cases h with
  | modelOverrides => rfl
  | renderOverrides => rfl
  | package first list metadata => exact endOf_of_attributesAt list
  | externalType read => exact (readExternal_ok read).1
  | classType closed read => exact (readType_ok read).1
  | structType closed read => exact (readType_ok read).1
  | property opened read => exact readProperty_ok read
  | constructor opened read => exact readConstructor_ok read
  | functionOfClass latest opened read => exact readFunction_ok read
  | functionOfStruct latest opened read => exact readFunction_ok read

/-- How many things a reading has declared so far that a marker declares. -/
def count (r : HeaderReading) (marker : Marker) : Nat := marker.count (r.externals ++ r.opened)

theorem count_eq (r : HeaderReading) (marker : Marker) :
    r.count marker =
      marker.count r.externals + (marker.count r.openClass.toList + marker.count r.openStruct.toList) := by
  simp [count, opened, Marker.count]

/-- **A marker declares one thing of its kind**, and nothing of any other. -/
theorem Takes.count (h : r.Takes number lines marker after taken) {other : Marker} (hother : other.declares = true) :
    after.count other = r.count other + if marker = other then 1 else 0 := by
  have hnone : other.count [] = 0 := rfl
  have hone : ∀ d, other.count [d] = other.countIn d := fun d => Nat.add_zero _
  have hsnoc : ∀ ds d, other.count (ds ++ [d]) = other.count ds + other.countIn d := by simp [Marker.count]
  -- a function is one more of its kind in whichever type it belongs to
  have hfunction : ∀ (outer : Declaration) (declared : MemberFunction),
      other.countIn { outer with functions := outer.functions ++ [declared] } =
        other.countIn outer + if Marker.function = other then 1 else 0 := by
    intro outer declared
    cases other <;> simp [Marker.countIn]
  -- each marker changes at most one of three parts: the external types, the open class, the open struct
  simp only [count_eq]
  cases h with
  | modelOverrides =>
    rw [if_neg (by rintro rfl; cases hother)]
    rfl
  | renderOverrides =>
    rw [if_neg (by rintro rfl; cases hother)]
    rfl
  | package first list metadata =>
    rw [if_neg (by rintro rfl; cases hother)]
    rfl
  | externalType read =>
    have hnew : other.countIn _ = if Marker.externalType = other then 1 else 0 :=
      ((readExternal_ok read).2.countIn other).trans (by cases other <;> rfl)
    rw [hsnoc, hnew, Nat.add_right_comm]
  | classType closed read =>
    have hnew : other.countIn _ = if Marker.classType = other then 1 else 0 :=
      ((readType_ok read).2.countIn other).trans (by cases other <;> rfl)
    dsimp only
    rw [closed, Option.toList_some, Option.toList_none, hnone, hone, hnew]
    omega
  | structType closed read =>
    have hnew : other.countIn _ = if Marker.structType = other then 1 else 0 :=
      ((readType_ok read).2.countIn other).trans (by cases other <;> rfl)
    dsimp only
    rw [closed, Option.toList_some, Option.toList_none, hnone, hone, hnew]
    omega
  | @property _ outer property opened _ =>
    have hmore : other.countIn { outer with properties := outer.properties ++ [property] } =
        other.countIn outer + if Marker.property = other then 1 else 0 := by
      cases other <;> simp [Marker.countIn]
    dsimp only
    rw [opened, Option.toList_some, Option.toList_some, hone, hone, hmore]
    omega
  | @constructor _ outer declared opened _ =>
    have hmore : other.countIn { outer with constructors := outer.constructors ++ [declared] } =
        other.countIn outer + if Marker.constructor = other then 1 else 0 := by
      cases other <;> simp [Marker.countIn]
    dsimp only
    rw [opened, Option.toList_some, Option.toList_some, hone, hone, hmore]
    omega
  | @functionOfClass _ outer declared _ opened _ =>
    dsimp only
    rw [opened, Option.toList_some, Option.toList_some, hone, hone, hfunction]
    omega
  | @functionOfStruct _ outer declared _ opened _ =>
    dsimp only
    rw [opened, Option.toList_some, Option.toList_some, hone, hone, hfunction]
    omega

/-! ## §5 Headers -/

theorem readFrom_skip (r : HeaderReading) (number taken : Nat) (lines rest : List Text) :
    r.readFrom (lines.length + taken) number (lines ++ rest) = r.readFrom taken (number + lines.length) rest := by
  induction lines generalizing number with
  | nil => rw [List.length_nil, Nat.zero_add, List.nil_append, Nat.add_zero]
  | cons line lines ih =>
    rw [List.length_cons, Nat.add_right_comm, List.cons_append, readFrom, ih]
    congr 1
    omega

theorem readFrom_taken (r : HeaderReading) (number : Nat) (lines rest : List Text) :
    r.readFrom lines.length number (lines ++ rest) = r.readFrom 0 (number + lines.length) rest :=
  r.readFrom_skip number 0 lines rest

/-- Take the markers of some lines, the first of which has the given number, and no other lines. -/
def replay (r : HeaderReading) : (number : Nat) → List Text → List LineRole → HeaderReading
  | number, line :: lines, .marker marker :: roles =>
    replay (r.dispatch marker number (line :: lines)).1 (number + 1) lines roles
  | number, _ :: lines, _ :: roles => replay r (number + 1) lines roles
  | _, _, _ => r

/-- How the reader goes over some lines without a fault, where the first ones are carried by a marker before them: it
passes over a line that is carried and over one that opens no marker, and takes any other line as a marker, which carries
the lines of its span. -/
inductive Course (after : HeaderReading) : HeaderReading → Nat → List LineRole → List Text → Prop where
  | finished {r : HeaderReading} {number : Nat} {known : List LineRole} (same : r = after) :
      Course after r number known []
  | carried {r : HeaderReading} {number : Nat} {role : LineRole} {known : List LineRole} {line : Text}
      {lines : List Text} (hidden : role.outsideLists = false ∨ role.inDeclaration = true)
      (rest : Course after r (number + 1) known lines) : Course after r number (role :: known) (line :: lines)
  | other {r : HeaderReading} {number : Nat} {line : Text} {lines : List Text} (plain : Marker.ofLine? line = none)
      (rest : Course after r (number + 1) [] lines) : Course after r number [] (line :: lines)
  | marker {r next : HeaderReading} {number taken : Nat} {marker : Marker} {line : Text} {lines : List Text}
      (opens : Marker.ofLine? line = some marker)
      (dispatched : r.dispatch marker number (line :: lines) = (next, .ok taken))
      (rest : Course after next (number + 1) (marker.rolesBehind (line :: lines)) lines) :
      Course after r number [] (line :: lines)

/-- **A reading without a fault** goes over its lines in this way. -/
theorem course_of_readFrom {known : List LineRole} (hknown : Carried known)
    (h : r.readFrom known.length number lines = (after, none)) : Course after r number known lines := by
  induction lines generalizing r known number with
  | nil =>
    rw [readFrom] at h
    cases h
    exact .finished rfl
  | cons line lines ih =>
    cases known with
    | cons role known =>
      rw [List.length_cons, readFrom] at h
      exact .carried (hknown role List.mem_cons_self) (ih hknown.of_cons h)
    | nil =>
      rw [List.length_nil, readFrom] at h
      cases hmarker : Marker.ofLine? line with
      | none =>
        rw [hmarker] at h
        exact .other hmarker (ih carried_nil h)
      | some marker =>
        rw [hmarker] at h
        dsimp only at h
        cases hdispatch : r.dispatch marker number (line :: lines) with
        | mk next result =>
          rw [hdispatch] at h
          cases result with
          | error fault => cases h
          | ok taken =>
            -- the lines that the marker has taken are those of its span
            rw [← (takes_of_dispatch hdispatch).span, ← marker.length_rolesBehind] at h
            exact .marker hmarker hdispatch (ih (marker.carried_rolesBehind _) h)

/-- **The reader takes as markers** what are markers from the lines alone, and nothing else. -/
theorem readFrom_eq_replay {known : List LineRole} (hknown : Carried known)
    (h : r.readFrom known.length number lines = (after, none)) : r.replay number lines (rolesOf known lines) = after := by
  have hcourse := course_of_readFrom hknown h
  clear hknown h
  induction hcourse with
  | @finished _ _ known same => cases known <;> exact same
  | @carried _ _ role _ _ _ hidden _ ih =>
    cases role with
    | marker marker => simp [LineRole.outsideLists, LineRole.inDeclaration] at hidden
    | other => exact ih
    | list marker => exact ih
    | declaration marker => exact ih
  | other plain _ ih =>
    rw [rolesOf, plain]
    exact ih
  | marker opens dispatched _ ih =>
    rw [rolesOf, opens]
    dsimp only
    rw [replay, dispatched]
    exact ih

theorem countLines_cons (marker : Marker) (test : LineRole → Bool) (line : Text) (role : LineRole) (lines : List Text)
    (roles : List LineRole) :
    countLines marker test (line :: lines) (role :: roles) =
      countLines marker test lines roles + if Marker.ofLine? line = some marker ∧ test role = true then 1 else 0 := by
  simp [countLines, List.countP_cons]

/-- **Nothing gets lost but what is swallowed.** What has been declared at the end of some lines, together with what is
swallowed in them, is what has been declared before them, together with what opens a marker in them outside attribute
lists. -/
theorem count_readFrom {known : List LineRole} (hknown : Carried known)
    (h : r.readFrom known.length number lines = (after, none)) {marker : Marker} (hmarker : marker.declares = true) :
    after.count marker + countLines marker LineRole.inDeclaration lines (rolesOf known lines) =
      r.count marker + countLines marker LineRole.outsideLists lines (rolesOf known lines) := by
  have hcourse := course_of_readFrom hknown h
  clear hknown h
  induction hcourse with
  | @finished _ _ known same =>
    subst same
    cases known <;> rfl
  | @carried _ _ role _ _ _ hidden _ ih =>
    rw [rolesOf, countLines_cons, countLines_cons]
    -- a line of a declaration counts on both sides if it opens the marker, and a line of a list on neither
    cases role with
    | marker marker => simp [LineRole.outsideLists, LineRole.inDeclaration] at hidden
    | other => simp [LineRole.outsideLists, LineRole.inDeclaration] at hidden
    | list _ =>
      rw [if_neg (by simp [LineRole.inDeclaration]), if_neg (by simp [LineRole.outsideLists])]
      exact ih
    | declaration _ =>
      simp only [LineRole.inDeclaration, LineRole.outsideLists, and_true]
      omega
  | other plain _ ih =>
    rw [rolesOf, plain]
    dsimp only
    rw [countLines_cons, countLines_cons, plain]
    simpa using ih
  | marker opens dispatched _ ih =>
    have hcount := (takes_of_dispatch dispatched).count hmarker
    rw [rolesOf, opens]
    dsimp only
    rw [countLines_cons, countLines_cons, opens]
    simp only [Option.some.injEq, LineRole.inDeclaration, LineRole.outsideLists, and_true,
      Bool.false_eq_true, and_false, if_false]
    omega

end HeaderReading

/-! ## §6 What is swallowed -/

theorem length_rolesOf (known : List LineRole) (lines : List Text) : (rolesOf known lines).length = lines.length := by
  induction lines generalizing known with
  | nil => cases known <;> rfl
  | cons line lines ih =>
    cases known with
    | cons role known => simp [rolesOf, ih]
    | nil =>
      rw [rolesOf]
      split <;> simp [ih]

/-- Whether a line can have a role: what is taken as a marker opens one, and what is passed over opens none. -/
def LineRole.Fits : Text → LineRole → Prop
  | line, .other => Marker.ofLine? line = none
  | line, .marker opened => Marker.ofLine? line = some opened
  | _, .list _ => True
  | _, .declaration _ => True

theorem fits_of_mem_zip {known : List LineRole} (hknown : Carried known) (lines : List Text) :
    ∀ entry ∈ lines.zip (rolesOf known lines), entry.2.Fits entry.1 := by
  -- what is carried into a line is the role of a list or a declaration, and these fit any line
  induction lines generalizing known with
  | nil => simp
  | cons line lines ih =>
    cases known with
    | cons role known =>
      rw [rolesOf, List.zip_cons_cons, List.forall_mem_cons]
      refine ⟨?_, ih hknown.of_cons⟩
      have hcarried := hknown role List.mem_cons_self
      cases role with
      | marker marker => simp [LineRole.outsideLists, LineRole.inDeclaration] at hcarried
      | other => simp [LineRole.outsideLists, LineRole.inDeclaration] at hcarried
      | list _ => trivial
      | declaration _ => trivial
    | nil =>
      rw [rolesOf]
      cases hmarker : Marker.ofLine? line with
      | none =>
        rw [List.zip_cons_cons, List.forall_mem_cons]
        exact ⟨hmarker, ih carried_nil⟩
      | some marker =>
        rw [List.zip_cons_cons, List.forall_mem_cons]
        exact ⟨hmarker, ih (marker.carried_rolesBehind _)⟩

/-- **Every marker line outside attribute lists is taken as a marker** exactly when nothing is swallowed. -/
theorem all_taken_iff (lines : List Text) :
    (∀ entry ∈ lines.zip (rolesOf [] lines), ∀ marker, Marker.ofLine? entry.1 = some marker →
        entry.2.outsideLists = true → entry.2 = .marker marker) ↔
      NothingSwallowed lines (rolesOf [] lines) := by
  constructor
  · intro h entry hentry hdeclared
    rw [Option.eq_none_iff_forall_ne_some]
    intro marker hmarker
    have houtside : entry.2.outsideLists = true := by
      cases hrole : entry.2 <;> simp [hrole, LineRole.inDeclaration] at hdeclared
      rfl
    rw [h entry hentry marker hmarker houtside] at hdeclared
    cases hdeclared
  · intro h entry hentry marker hmarker houtside
    have hfits := fits_of_mem_zip carried_nil lines entry hentry
    cases hrole : entry.2 with
    | other =>
      rw [hrole, LineRole.Fits, hmarker] at hfits
      cases hfits
    | marker other =>
      rw [hrole, LineRole.Fits, hmarker, Option.some.injEq] at hfits
      rw [hfits]
    | list _ =>
      rw [hrole] at houtside
      cases houtside
    | declaration _ =>
      have hnone := h entry hentry (by rw [hrole]; rfl)
      rw [hmarker] at hnone
      cases hnone

theorem NothingSwallowed.countLines {lines : List Text} {roles : List LineRole} (h : NothingSwallowed lines roles)
    (marker : Marker) : countLines marker LineRole.inDeclaration lines roles = 0 := by
  rw [HeaderReflection.countLines, List.countP_eq_zero]
  intro entry hentry hswallowed
  simp only [Bool.and_eq_true, decide_eq_true_eq] at hswallowed
  rw [h entry hentry hswallowed.2] at hswallowed
  cases hswallowed.1

/-- **The annotations of a header.** For every header that is read without a fault, the reader takes as markers what are
markers from the lines alone. Whatever a marker declares, there are as many of it among the declared types and their
members as there are lines that open the marker outside attribute lists, less those that are swallowed. Every marker line
outside attribute lists is taken as a marker exactly when nothing is swallowed, and then all of them have declared
something. -/
theorem declared_of_annotations {m : Module} {path text : Text} (h : (m.readHeader path text).error = none) :
    let lines := Header.lines text
    let roles := rolesOf [] lines
    let start : HeaderReading := { module := m, includePath := includePathOf path }
    let declared := (m.readHeader path text).declared
    roles.length = lines.length ∧
    start.readFrom 0 1 lines = (start.replay 1 lines roles, none) ∧
    (∀ marker : Marker, marker.declares = true →
      marker.count declared + countLines marker LineRole.inDeclaration lines roles =
        countLines marker LineRole.outsideLists lines roles) ∧
    ((∀ entry ∈ lines.zip roles, ∀ marker, Marker.ofLine? entry.1 = some marker → entry.2.outsideLists = true →
        entry.2 = .marker marker) ↔ NothingSwallowed lines roles) ∧
    (NothingSwallowed lines roles → ∀ marker : Marker, marker.declares = true →
      marker.count declared = countLines marker LineRole.outsideLists lines roles) := by
  intro lines roles start declared
  obtain ⟨after, hread, hdeclared⟩ : ∃ after, start.readFrom 0 1 lines = (after, none) ∧
      declared = after.externals ++ after.opened := by
    unfold Module.readHeader at h
    dsimp only at h
    split at h
    · cases h
    · next after hread =>
      refine ⟨after, hread, ?_⟩
      show (m.readHeader path text).declared = _
      rw [Module.readHeader, hread]
  have hcounts : ∀ marker : Marker, marker.declares = true →
      marker.count declared + countLines marker LineRole.inDeclaration lines roles =
        countLines marker LineRole.outsideLists lines roles := by
    intro marker hmarker
    have hcount := HeaderReading.count_readFrom carried_nil hread hmarker
    have hstart : start.count marker = 0 := rfl
    rw [hstart, Nat.zero_add] at hcount
    rw [hdeclared]
    exact hcount
  refine ⟨length_rolesOf [] lines, ?_, hcounts, all_taken_iff lines, fun hnothing marker hmarker => ?_⟩
  · -- nothing is carried into the first line
    rw [hread, HeaderReading.readFrom_eq_replay carried_nil hread]
  · rw [← hcounts marker hmarker, hnothing.countLines marker, Nat.add_zero]

/-- A marker line in the attribute list of another marker, which is not swallowed, and a declaration behind a blank line
and a comment. -/
theorem declared_of_listed_marker :
    let text : Text := "AGEA_ar_class(\"architype=\nAGEA_ar_struct x\")\nclass A\n" ++
      "AGEA_ar_property(\"category=c\")\n\n// x\nint x;\nAGEA_ar_function()\nvoid f();\n"
    let m := Module.empty "m" ""
    (m.readHeader "a.h" text).error = none ∧ NothingSwallowed (Header.lines text) (rolesOf [] (Header.lines text)) ∧
      [Marker.classType, .structType, .property, .function].map (·.count (m.readHeader "a.h" text).declared) =
        [1, 0, 1, 1] := by
  intro text m
  have hread : (m.readHeader "a.h" text).error = none := by decide +kernel
  have hnothing : NothingSwallowed (Header.lines text) (rolesOf [] (Header.lines text)) := by decide +kernel
  have hcounts := (declared_of_annotations hread).2.2.2.2 hnothing
  refine ⟨hread, hnothing, ?_⟩
  rw [List.map_cons, List.map_cons, List.map_cons, List.map_cons, List.map_nil, hcounts .classType rfl,
    hcounts .structType rfl, hcounts .property rfl, hcounts .function rfl]
  decide +kernel

/-- **Markers can be swallowed.** A class without a declaration takes the marker of the struct behind it for one: there is
no struct, but a class with the name of the marker. A function takes over the marker behind it on its way to the first
line with a parenthesis, and the header is not noted as one of overrides. Both headers are read without a fault. -/
theorem swallowed_markers :
    let m := Module.empty "m" ""
    let twoTypes : Text := "AGEA_ar_class()\nAGEA_ar_struct()\nstruct S\n"
    let overrides : Text := "AGEA_ar_struct()\nstruct S\nAGEA_ar_function()\nAGEA_ar_model_overrides\nvoid f();\n"
    (m.readHeader "t.h" twoTypes).error = none ∧
    rolesOf [] (Header.lines twoTypes) = [.marker .classType, .declaration .classType, .other] ∧
    countLines .structType LineRole.outsideLists (Header.lines twoTypes) (rolesOf [] (Header.lines twoTypes)) = 1 ∧
    (m.readHeader "t.h" twoTypes).declared.map (fun d => (d.kind, d.name)) = [(.classType, ("AGEA_ar_struct" : Text))] ∧
    (m.readHeader "t.h" overrides).error = none ∧
    rolesOf [] (Header.lines overrides) = [.marker .structType, .declaration .structType, .marker .function,
      .declaration .function, .declaration .function] ∧
    Marker.ofLine? "AGEA_ar_model_overrides" = some .modelOverrides ∧
    (m.readHeader "t.h" overrides).module.modelOverrides = [] := by
  refine ⟨?_, ?_, ?_, ?_, ?_, ?_, ?_, ?_⟩ <;> decide +kernel

end HeaderReflection
