import HeaderReflection.Proofs.Header.Cursor

/-!
# Markers in context

Whether a header has a fault depends on two things. Each marker needs an attribute list, a declaration and metadata of
its own that are well-formed, which can be seen from the lines of the marker alone. And each marker needs to stand in
context: there is at most one class, one struct and one package directive, and members stand behind what they belong to,
which can be seen from the markers alone, without their lines.

The state of the reader is then what the markers so far say, and so are the members of the open declarations: the class
has the properties, the struct the constructors, and a function goes to whichever of the two was opened last.

## Main definitions

- `InContext`, `Marker.MayFollow`: the conditions on the markers of a header, and on the next one.
- `Marker.WellFormed`: what a marker needs of its own.
- `propertiesAt`, `constructorsAt`, `functionsAt`: the members that stand at the marked lines of a header.
- `Gathered`: what a reading has got from marked lines.
- `OutOfContext`: the fault of a marker that is out of context.

## Main results

- `inContext_concat`: one marker more.
- `readProperty_of_accepted` and its like: well-formed markers are read, wherever they stand.
- `Gathered.step`, `Gathered.dispatch_ok`, `Gathered.dispatch_stop`: one marked line.
- `context_conditions`: all of a header.
-/

namespace HeaderReflection

/-! ## §1 Markers in context -/

/-- **The context conditions**: at most one class, one struct and one package directive; properties behind the class,
constructors behind the struct, and functions behind one of them. -/
structure InContext (markers : List Marker) : Prop where
  oneClass : markers.count .classType ≤ 1
  oneStruct : markers.count .structType ≤ 1
  onePackage : markers.count .package ≤ 1
  property : ∀ before behind, markers = before ++ .property :: behind → Marker.classType ∈ before
  constructor : ∀ before behind, markers = before ++ .constructor :: behind → Marker.structType ∈ before
  function : ∀ before behind, markers = before ++ .function :: behind →
    Marker.classType ∈ before ∨ Marker.structType ∈ before

/-- Whether a marker may stand behind others. -/
def Marker.MayFollow (before : List Marker) : Marker → Prop
  | .classType => Marker.classType ∉ before
  | .structType => Marker.structType ∉ before
  | .package => Marker.package ∉ before
  | .property => Marker.classType ∈ before
  | .constructor => Marker.structType ∈ before
  | .function => Marker.classType ∈ before ∨ Marker.structType ∈ before
  | _ => True

theorem count_concat_le_one {α : Type} [DecidableEq α] (l : List α) (a x : α) :
    (l ++ [x]).count a ≤ 1 ↔ l.count a ≤ 1 ∧ (x = a → a ∉ l) := by
  rw [List.count_append, List.count_singleton, ← List.count_eq_zero]
  by_cases hx : x = a
  · simp [hx]
    omega
  · simp [hx]

/-- What holds of everything before an element, wherever it stands in a list with one more element. -/
theorem forall_split_concat {α : Type} {P : List α → Prop} {l : List α} {a x : α} :
    (∀ before behind, l ++ [x] = before ++ a :: behind → P before) ↔
      (∀ before behind, l = before ++ a :: behind → P before) ∧ (x = a → P l) := by
  constructor
  · intro h
    refine ⟨fun before behind hl => h before (behind ++ [x]) (by rw [hl]; simp), ?_⟩
    rintro rfl
    exact h l [] rfl
  · rintro ⟨hl, hx⟩ before behind hsplit
    -- the element is the last one, or it is one of the others
    rcases List.eq_nil_or_concat behind with rfl | ⟨behind, y, rfl⟩
    · obtain ⟨rfl, hlast⟩ := List.append_inj' hsplit rfl
      cases hlast
      exact hx rfl
    · rw [List.concat_eq_append, ← List.cons_append, ← List.append_assoc] at hsplit
      obtain ⟨hsplit, -⟩ := List.append_inj' hsplit rfl
      exact hl before behind hsplit

/-- **One marker more.** -/
theorem inContext_concat (markers : List Marker) (marker : Marker) :
    InContext (markers ++ [marker]) ↔ InContext markers ∧ marker.MayFollow markers := by
  constructor
  · rintro ⟨hclass, hstruct, hpackage, hproperty, hconstructor, hfunction⟩
    rw [count_concat_le_one] at hclass hstruct hpackage
    rw [forall_split_concat] at hproperty hconstructor hfunction
    refine ⟨⟨hclass.1, hstruct.1, hpackage.1, hproperty.1, hconstructor.1, hfunction.1⟩, ?_⟩
    -- each condition is about one marker, and says what the last one needs if it is that marker
    cases marker with
    | modelOverrides => trivial
    | renderOverrides => trivial
    | externalType => trivial
    | classType => exact hclass.2 rfl
    | structType => exact hstruct.2 rfl
    | package => exact hpackage.2 rfl
    | property => exact hproperty.2 rfl
    | constructor => exact hconstructor.2 rfl
    | function => exact hfunction.2 rfl
  · rintro ⟨⟨hclass, hstruct, hpackage, hproperty, hconstructor, hfunction⟩, hmay⟩
    constructor
    · exact (count_concat_le_one _ _ _).mpr ⟨hclass, by rintro rfl; exact hmay⟩
    · exact (count_concat_le_one _ _ _).mpr ⟨hstruct, by rintro rfl; exact hmay⟩
    · exact (count_concat_le_one _ _ _).mpr ⟨hpackage, by rintro rfl; exact hmay⟩
    · exact forall_split_concat.mpr ⟨hproperty, by rintro rfl; exact hmay⟩
    · exact forall_split_concat.mpr ⟨hconstructor, by rintro rfl; exact hmay⟩
    · exact forall_split_concat.mpr ⟨hfunction, by rintro rfl; exact hmay⟩

theorem inContext_nil : InContext [] := by
  constructor
  case oneClass => exact Nat.zero_le _
  case oneStruct => exact Nat.zero_le _
  case onePackage => exact Nat.zero_le _
  all_goals
    intro before behind h
    exact absurd h (by simp)

theorem InContext.of_append {markers others : List Marker} (h : InContext (markers ++ others)) : InContext markers := by
  induction others using List.reverseRecOn with
  | nil => rwa [List.append_nil] at h
  | append_singleton others marker ih =>
    rw [← List.append_assoc, inContext_concat] at h
    exact ih h.1

/-- There are no properties without a class. -/
theorem InContext.property_not_mem {markers : List Marker} (h : InContext markers)
    (hclass : Marker.classType ∉ markers) : Marker.property ∉ markers := by
  intro hmem
  obtain ⟨before, behind, rfl⟩ := List.append_of_mem hmem
  exact hclass (List.mem_append_left _ (h.property before behind rfl))

/-- There are no constructors without a struct. -/
theorem InContext.constructor_not_mem {markers : List Marker} (h : InContext markers)
    (hstruct : Marker.structType ∉ markers) : Marker.constructor ∉ markers := by
  intro hmem
  obtain ⟨before, behind, rfl⟩ := List.append_of_mem hmem
  exact hstruct (List.mem_append_left _ (h.constructor before behind rfl))

/-! ## §2 Metadata of its own -/

/-- Outcomes that fail alike, or succeed with related values. -/
inductive Alike {ε α β : Type} (R : α → β → Prop) : Except ε α → Except ε β → Prop where
  | ok {a : α} {b : β} (h : R a b) : Alike R (.ok a) (.ok b)
  | error (e : ε) : Alike R (.error e) (.error e)

namespace Alike

variable {ε α β γ : Type} {R : α → β → Prop}

theorem ite {c : Prop} [Decidable c] {a a' : Except ε α} {b b' : Except ε β} (h : Alike R a b) (h' : Alike R a' b') :
    Alike R (if c then a else a') (if c then b else b') := by
  split
  · exact h
  · exact h'

theorem bind (x : Except ε γ) {next : γ → Except ε α} {next' : γ → Except ε β} (h : ∀ c, Alike R (next c) (next' c)) :
    Alike R (x >>= next) (x >>= next') := by
  cases x with
  | error e => exact .error e
  | ok c => exact h c

theorem foldlM {next : α → γ → Except ε α} {next' : β → γ → Except ε β}
    (h : ∀ a b c, R a b → Alike R (next a c) (next' b c)) (items : List γ) {a : α} {b : β} (hab : R a b) :
    Alike R (items.foldlM next a) (items.foldlM next' b) := by
  induction items generalizing a b with
  | nil => exact .ok hab
  | cons item items ih =>
    rw [List.foldlM_cons, List.foldlM_cons]
    generalize hx : next a item = x
    generalize hy : next' b item = y
    have hitem := h a b item hab
    rw [hx, hy] at hitem
    cases hitem with
    | error e => exact .error e
    | ok hab' => exact ih hab'

theorem exists_ok {x : Except ε α} {y : Except ε β} (h : Alike R x y) {b : β} (hy : y = .ok b) :
    ∃ a, x = .ok a ∧ R a b := by
  cases h with
  | ok hab =>
    cases hy
    exact ⟨_, rfl, hab⟩
  | error e => cases hy

end Alike

/-- **Metadata are taken alike by all types of a kind.** -/
theorem Declaration.withAttributes_alike (items : List Text) {d e : Declaration} (h : d.kind = e.kind) :
    Alike (fun d e : Declaration => d.kind = e.kind) (d.withAttributes items) (e.withAttributes items) := by
  refine Alike.foldlM (fun d e item h => Alike.bind (keyValue item) fun (key, value) => ?_) items h
  dsimp only
  unfold Declaration.withKey
  -- ten keys with a text, which always fits, and then the two with a flag
  iterate 10 refine Alike.ite (.ok h) ?_
  refine Alike.ite (Alike.bind _ fun flag => ?_) ?_
  · -- the only key that looks at the type, and it looks at nothing but the kind
    rw [h]
    exact Alike.ite (.ok rfl) (.error _)
  · exact Alike.ite (Alike.bind _ fun flag => .ok h) (.error _)

theorem Property.invalidating_alike (item : Text) {p q : Property} (h : p.hasDefault = q.hasDefault) :
    Alike (fun p q : Property => p.hasDefault = q.hasDefault) (p.invalidating item) (q.invalidating item) :=
  Alike.ite (.ok h) (Alike.ite (.ok h) (.error _))

theorem Property.checking_alike (item : Text) {p q : Property} (h : p.hasDefault = q.hasDefault) :
    Alike (fun p q : Property => p.hasDefault = q.hasDefault) (p.checking item) (q.checking item) :=
  Alike.ite (.ok h) (.error _)

/-- **Metadata are taken alike by all properties.** -/
theorem Property.withAttributes_alike (items : List Text) {p q : Property} (h : p.hasDefault = q.hasDefault) :
    Alike (fun p q : Property => p.hasDefault = q.hasDefault) (p.withAttributes items) (q.withAttributes items) := by
  refine Alike.foldlM (fun p q item h => Alike.bind (keyValue item) fun (key, value) => ?_) items h
  dsimp only
  unfold Property.withKey
  -- eight keys with a text, which always fits, and then the others one by one
  iterate 8 refine Alike.ite (.ok h) ?_
  refine Alike.ite ?_ ?_
  · cases Access.ofSpelling? value with
    | some access => exact .ok h
    | none => exact .error _
  refine Alike.ite (Alike.bind _ fun flag => .ok h) ?_
  refine Alike.ite (Alike.bind _ fun flag => .ok rfl) ?_
  iterate 3 refine Alike.ite (Alike.bind _ fun flag => .ok h) ?_
  refine Alike.ite (Alike.foldlM (fun p q item h => invalidating_alike item h) _ h) ?_
  refine Alike.ite (Alike.foldlM (fun p q item h => checking_alike item h) _ h) ?_
  exact Alike.ite (.ok h) (.error _)

theorem Module.withAttributes_alike {attributes : List Text} {m m' : Module}
    (h : m.withAttributes attributes = (m', none)) (n : Module) : ∃ n', n.withAttributes attributes = (n', none) := by
  obtain ⟨set, fault, hset⟩ := Module.withAttributes_eq attributes
  rw [hset] at h
  cases h
  exact ⟨_, hset n⟩

/-! ## §3 Well-formed markers -/

/-- Whether types of a kind take metadata. -/
def Kind.Accepts (kind : Kind) (attributes : List Text) : Prop :=
  ∃ d d' : Declaration, d.kind = kind ∧ d.withAttributes attributes = .ok d'

/-- Whether a field takes metadata. Asking for a default value needs an initializer. -/
def FieldLine.Accepts (field : FieldLine) (attributes : List Text) : Prop :=
  ∃ p p' : Property, p.hasDefault = false ∧ p.withAttributes attributes = .ok p' ∧
    (p'.hasDefault = true → field.initialized = true)

/-- Whether a package directive takes metadata. -/
def PackageAccepts (attributes : List Text) : Prop := ∃ m m' : Module, m.withAttributes attributes = (m', none)

namespace Marker

/-- Whether a marker has an attribute list, and a line behind it that declares something, which fit. -/
def HasDeclaration (marker : Marker) (lines : List Text)
    (fits : (attributes : List Text) → (index : Nat) → (line : Text) → Prop) : Prop :=
  ∃ listEnd attributes index line, attributesAt marker lines = .ok (listEnd, attributes) ∧
    declarationAt marker listEnd lines = .ok (index, line) ∧ fits attributes index line

/-- **What a marker needs of its own**: an attribute list, a declaration and metadata that are well-formed. Overrides need
nothing, and a package directive has no declaration. The lines begin with the marker's own. -/
def WellFormed (marker : Marker) (lines : List Text) : Prop :=
  match marker with
  | .modelOverrides => True
  | .renderOverrides => True
  | .package => ∃ listEnd attributes, attributesAt .package lines = .ok (listEnd, attributes) ∧ PackageAccepts attributes
  | .externalType => HasDeclaration .externalType lines fun attributes _ line =>
      nameTokens line ≠ [] ∧ Kind.external.Accepts attributes
  | .classType => HasDeclaration .classType lines fun attributes _ line =>
      nameTokens line ≠ [] ∧ Kind.classType.Accepts attributes
  | .structType => HasDeclaration .structType lines fun attributes _ line =>
      nameTokens line ≠ [] ∧ Kind.structType.Accepts attributes
  | .property => HasDeclaration .property lines fun attributes _ line =>
      ∃ field, FieldLine.parse? line = some field ∧ field.Accepts attributes
  | .constructor => HasDeclaration .constructor lines fun _ index _ =>
      ∃ found, signature? (lines.drop index) = some found
  | .function => ∃ listEnd attributes index line name, attributesAt .function lines = .ok (listEnd, attributes) ∧
      findLine? (·.contains (Text.byte '(')) (listEnd + 1) (lines.drop (listEnd + 1)) = some (index, line) ∧
      functionName? line = some name

end Marker

theorem exists_bind_ok {ε α β : Type} {x : Except ε α} {a : α} {next : α → Except ε β} (hx : x = .ok a)
    (h : ∃ b, next a = .ok b) : ∃ b, (x >>= next) = .ok b := by
  rw [hx]
  exact h

theorem exists_bind {ε α β : Type} {x : Except ε α} {next : α → Except ε β} (hx : ∃ a, x = .ok a)
    (h : ∀ a, x = .ok a → ∃ b, next a = .ok b) : ∃ b, (x >>= next) = .ok b := by
  obtain ⟨a, ha⟩ := hx
  exact exists_bind_ok ha (h a ha)

theorem exists_atAttributes {α : Type} {result : Except AttributeFault α} (h : ∃ a, result = .ok a) :
    ∃ a, atAttributes result = .ok a := by
  obtain ⟨a, rfl⟩ := h
  exact ⟨a, rfl⟩

theorem Kind.Accepts.ok {kind : Kind} {attributes : List Text} (h : kind.Accepts attributes) {d : Declaration}
    (hd : d.kind = kind) : ∃ d', d.withAttributes attributes = .ok d' := by
  obtain ⟨e, e', hkind, hmetadata⟩ := h
  obtain ⟨d', hd', -⟩ := (Declaration.withAttributes_alike attributes (hd.trans hkind.symm)).exists_ok hmetadata
  exact ⟨d', hd'⟩

theorem FieldLine.Accepts.ok {field : FieldLine} {attributes : List Text} (h : field.Accepts attributes) {p : Property}
    (hp : p.hasDefault = false) :
    ∃ p', p.withAttributes attributes = .ok p' ∧ (p'.hasDefault = true → field.initialized = true) := by
  obtain ⟨q, q', hdefault, hmetadata, hinitialized⟩ := h
  obtain ⟨p', hp', hsame⟩ := (Property.withAttributes_alike attributes (hp.trans hdefault.symm)).exists_ok hmetadata
  exact ⟨p', hp', by rwa [hsame]⟩

theorem typeNamesAt_ok (index : Nat) {line : Text} (h : nameTokens line ≠ []) :
    ∃ name others, typeNamesAt index line = .ok (name, others) := by
  unfold typeNamesAt
  cases hnames : nameTokens line with
  | nil => exact absurd hnames h
  | cons name others => exact ⟨name, others, rfl⟩

theorem nameTokens_of_typeNamesAt {index : Nat} {line : Text} {found : Text × List Text}
    (h : typeNamesAt index line = .ok found) : nameTokens line ≠ [] := by
  unfold typeNamesAt at h
  intro hnames
  rw [hnames] at h
  cases h

section Read

variable {lines : List Text}

/-- What types of all kinds have in common: their names, whatever is made of them, and their metadata. -/
theorem declares_ok_iff {marker : Marker} {kind : Kind} {build : Text × List Text → Declaration}
    (hkind : ∀ names, (build names).kind = kind) :
    (∃ found, (attributesAt marker lines >>= fun list => declarationAt marker list.1 lines >>= fun declared =>
        typeNamesAt declared.1 declared.2 >>= fun names => atAttributes ((build names).withAttributes list.2) >>=
          fun d => (pure (declared.1, d) : AtMarker (Nat × Declaration))) = .ok found) ↔
      marker.HasDeclaration lines fun attributes _ line => nameTokens line ≠ [] ∧ kind.Accepts attributes := by
  constructor
  · rintro ⟨found, h⟩
    obtain ⟨⟨listEnd, attributes⟩, hlist, h⟩ := bind_ok h
    obtain ⟨⟨index, line⟩, hline, h⟩ := bind_ok h
    obtain ⟨names, hnames, h⟩ := bind_ok h
    obtain ⟨d, hmetadata, -⟩ := bind_ok h
    exact ⟨listEnd, attributes, index, line, hlist, hline, nameTokens_of_typeNamesAt hnames, _, d, hkind names,
      atAttributes_ok hmetadata⟩
  · rintro ⟨listEnd, attributes, index, line, hlist, hline, hnames, haccepts⟩
    obtain ⟨name, others, hnames⟩ := typeNamesAt_ok index hnames
    refine exists_bind_ok hlist (exists_bind_ok hline (exists_bind_ok hnames ?_))
    exact exists_bind (exists_atAttributes (haccepts.ok (hkind _))) fun d _ => ⟨_, rfl⟩

/-- **A type is read, wherever it stands, exactly when its marker is well-formed.** -/
theorem readType_ok_iff (m : Module) (includePath : Text) (marker : Marker) (kind : Kind) (number : Nat) :
    (∃ found, readType m includePath marker kind number lines = .ok found) ↔
      marker.HasDeclaration lines fun attributes _ line => nameTokens line ≠ [] ∧ kind.Accepts attributes :=
  declares_ok_iff fun _ => rfl

theorem readExternal_ok_iff (includePath : Text) (number : Nat) :
    (∃ found, readExternal includePath number lines = .ok found) ↔ Marker.externalType.WellFormed lines :=
  declares_ok_iff fun _ => rfl

theorem readProperty_ok_iff (owner : Text) (number : Nat) :
    (∃ found, readProperty owner number lines = .ok found) ↔ Marker.property.WellFormed lines := by
  -- the owner and the line are written down, but have no part in whether the property can be read
  constructor
  · rintro ⟨found, h⟩
    obtain ⟨⟨listEnd, attributes⟩, hlist, h⟩ := bind_ok h
    obtain ⟨⟨index, line⟩, hline, h⟩ := bind_ok h
    refine ⟨listEnd, attributes, index, line, hlist, hline, ?_⟩
    dsimp only at h
    split at h
    · cases h
    · next field hfield =>
      obtain ⟨property, hmetadata, h⟩ := bind_ok h
      split at h
      · cases h
      · next hinitialized =>
        refine ⟨field, hfield, _, property, rfl, atAttributes_ok hmetadata, fun hdefault => ?_⟩
        by_contra hnone
        exact hinitialized ⟨hdefault, hnone⟩
  · rintro ⟨listEnd, attributes, index, line, hlist, hline, field, hfield, haccepts⟩
    refine exists_bind_ok hlist (exists_bind_ok hline ?_)
    dsimp only
    rw [hfield]
    dsimp only
    obtain ⟨property, hmetadata, hinitialized⟩ := haccepts.ok (p := {
      type := field.type, name := field.name, fragment := cutName field.name, owner, line := number + index }) rfl
    rw [hmetadata]
    refine ⟨(index, property), ?_⟩
    show (if property.hasDefault ∧ ¬ field.initialized then _ else _) = _
    rw [if_neg fun h => h.2 (hinitialized h.1)]

theorem readFunction_ok_iff (number : Nat) :
    (∃ found, readFunction number lines = .ok found) ↔ Marker.function.WellFormed lines := by
  constructor
  · rintro ⟨found, h⟩
    obtain ⟨⟨listEnd, attributes⟩, hlist, h⟩ := bind_ok h
    dsimp only at h
    split at h
    · cases h
    · next index line hfind =>
      split at h
      · cases h
      · next name hname => exact ⟨listEnd, attributes, index, line, name, hlist, hfind, hname⟩
  · rintro ⟨listEnd, attributes, index, line, name, hlist, hfind, hname⟩
    refine exists_bind_ok hlist ?_
    dsimp only
    rw [hfind]
    dsimp only
    rw [hname]
    exact ⟨_, rfl⟩

theorem readConstructor_ok_iff (number : Nat) :
    (∃ found, readConstructor number lines = .ok found) ↔ Marker.constructor.WellFormed lines := by
  constructor
  · rintro ⟨found, h⟩
    obtain ⟨⟨listEnd, attributes⟩, hlist, h⟩ := bind_ok h
    obtain ⟨⟨index, line⟩, hline, h⟩ := bind_ok h
    refine ⟨listEnd, attributes, index, line, hlist, hline, ?_⟩
    dsimp only at h
    split at h
    · cases h
    · next length signature hsignature => exact ⟨_, hsignature⟩
  · rintro ⟨listEnd, attributes, index, line, hlist, hline, found, hsignature⟩
    refine exists_bind_ok hlist (exists_bind_ok hline ?_)
    dsimp only
    rw [hsignature]
    exact ⟨_, rfl⟩

end Read

/-! ## §4 The members at marked lines -/

/-- What has been found, if there is anything. -/
def AtMarker.found {α : Type} : AtMarker (Nat × α) → List α
  | .ok (_, a) => [a]
  | .error _ => []

/-- The markers of marked lines. -/
def markersOf (marked : List MarkedLine) : List Marker := marked.map (·.marker)

/-- The properties at marked lines, of a class with the given name. -/
def propertiesAt (owner : Text) (marked : List MarkedLine) : List Property :=
  marked.flatMap fun s => if s.marker = .property then (readProperty owner s.number s.lines).found else []

/-- The constructors at marked lines. -/
def constructorsAt (marked : List MarkedLine) : List TypeConstructor :=
  marked.flatMap fun s => if s.marker = .constructor then (readConstructor s.number s.lines).found else []

/-- Which of class and struct was opened last behind a marker. -/
def latestBehind (latest : Option Latest) : Marker → Option Latest
  | .classType => some .classType
  | .structType => some .structType
  | _ => latest

/-- The functions at marked lines that stand where the given one of class and struct was opened last. Before the lines it
is `latest` that was opened last. -/
def functionsAt (owner : Latest) : (latest : Option Latest) → List MarkedLine → List MemberFunction
  | _, [] => []
  | latest, s :: marked =>
    (if s.marker = .function ∧ latest = some owner then (readFunction s.number s.lines).found else []) ++
      functionsAt owner (latestBehind latest s.marker) marked

/-- Which of class and struct was opened last behind marked lines. -/
def latestOf (latest : Option Latest) (marked : List MarkedLine) : Option Latest :=
  (markersOf marked).foldl latestBehind latest

section Members

variable (marked : List MarkedLine) (s : MarkedLine)

@[simp] theorem markersOf_concat : markersOf (marked ++ [s]) = markersOf marked ++ [s.marker] := List.map_append

theorem propertiesAt_concat (owner : Text) :
    propertiesAt owner (marked ++ [s]) = propertiesAt owner marked ++
      if s.marker = .property then (readProperty owner s.number s.lines).found else [] := by
  simp [propertiesAt]

theorem constructorsAt_concat :
    constructorsAt (marked ++ [s]) = constructorsAt marked ++
      if s.marker = .constructor then (readConstructor s.number s.lines).found else [] := by
  simp [constructorsAt]

theorem latestOf_concat (latest : Option Latest) :
    latestOf latest (marked ++ [s]) = latestBehind (latestOf latest marked) s.marker := by
  simp [latestOf]

theorem functionsAt_concat (owner : Latest) (latest : Option Latest) :
    functionsAt owner latest (marked ++ [s]) = functionsAt owner latest marked ++
      if s.marker = .function ∧ latestOf latest marked = some owner then (readFunction s.number s.lines).found
      else [] := by
  induction marked generalizing latest with
  | nil => exact List.append_nil _
  | cons t marked ih =>
    rw [List.cons_append, functionsAt, functionsAt, ih, List.append_assoc]
    rfl

variable {marked}

theorem propertiesAt_eq_nil (owner : Text) (h : Marker.property ∉ markersOf marked) : propertiesAt owner marked = [] := by
  refine List.flatMap_eq_nil_iff.mpr fun s hs => if_neg fun hmarker => ?_
  exact h (hmarker ▸ List.mem_map_of_mem hs)

theorem constructorsAt_eq_nil (h : Marker.constructor ∉ markersOf marked) : constructorsAt marked = [] := by
  refine List.flatMap_eq_nil_iff.mpr fun s hs => if_neg fun hmarker => ?_
  exact h (hmarker ▸ List.mem_map_of_mem hs)

end Members

/-- The marker that opens a class or a struct. -/
def Latest.marker : Latest → Marker
  | .classType => .classType
  | .structType => .structType

theorem functionsAt_eq_nil (owner : Latest) {marked : List MarkedLine} (h : owner.marker ∉ markersOf marked)
    {latest : Option Latest} (hlatest : latest ≠ some owner) : functionsAt owner latest marked = [] := by
  induction marked generalizing latest with
  | nil => rfl
  | cons s marked ih =>
    obtain ⟨marker, number, lines⟩ := s
    obtain ⟨hs, hmarked⟩ : owner.marker ≠ marker ∧ owner.marker ∉ markersOf marked := by
      simpa [markersOf] using h
    rw [functionsAt, if_neg fun hfunction => hlatest hfunction.2, List.nil_append]
    apply ih hmarked
    -- only the marker of the owner could make it the one that was opened last
    cases marker with
    | classType =>
      cases owner with
      | classType => exact absurd rfl hs
      | structType => simp [latestBehind]
    | structType =>
      cases owner with
      | classType => simp [latestBehind]
      | structType => exact absurd rfl hs
    | _ => exact hlatest

/-! ## §5 What has been gathered -/

/-- The state behind marked lines. -/
def stateOf (marked : List MarkedLine) : OpenContext :=
  ⟨Marker.classType ∈ markersOf marked, Marker.structType ∈ markersOf marked⟩

/-- **The state allows the markers that may follow**, and any package directive, for which there is a flag. -/
theorem exists_advance_iff (marked : List MarkedLine) (marker : Marker) :
    (∃ next, (stateOf marked).advance marker = .ok next) ↔
      marker = .package ∨ marker.MayFollow (markersOf marked) := by
  -- the state knows of the markers whether there is a class, and whether there is a struct
  by_cases hclass : Marker.classType ∈ markersOf marked <;> by_cases hstruct : Marker.structType ∈ markersOf marked <;>
    cases marker <;> simp [OpenContext.advance, stateOf, Marker.MayFollow, hclass, hstruct]

/-- **What a reading has got from marked lines** that are in context: what is open is told by the markers, and so is which
members the class and the struct have. External types have none. -/
structure Gathered (m : Module) (marked : List MarkedLine) (r : HeaderReading) : Prop where
  inContext : InContext (markersOf marked)
  name : r.module.name = m.name
  state : r.Scoped (stateOf marked).inClass (stateOf marked).inStruct
  latest : r.latest = latestOf none marked
  package : r.packageSeen = true ↔ Marker.package ∈ markersOf marked
  externals : ∀ d ∈ r.externals, d.kind = .external ∧ d.members = ([], [], [])
  ofClass : ∀ d, r.openClass = some d → d.kind = .classType ∧
    d.members = (propertiesAt d.name marked, functionsAt .classType none marked, [])
  ofStruct : ∀ d, r.openStruct = some d → d.kind = .structType ∧
    d.members = ([], functionsAt .structType none marked, constructorsAt marked)

namespace Gathered

variable {m : Module} {marked : List MarkedLine} {s : MarkedLine} {r after : HeaderReading} {taken : Nat}

theorem start (m : Module) (includePath : Text) : Gathered m [] { module := m, includePath } where
  inContext := inContext_nil
  name := rfl
  state := ⟨rfl, rfl, rfl, rfl⟩
  latest := rfl
  package := by simp [markersOf]
  externals := by
    intro d hd
    cases hd
  ofClass := by
    intro d hd
    cases hd
  ofStruct := by
    intro d hd
    cases hd

theorem openClass_iff (h : Gathered m marked r) : r.openClass.isSome = true ↔ Marker.classType ∈ markersOf marked := by
  rw [h.state.openClass, stateOf, decide_eq_true_iff]

theorem openStruct_iff (h : Gathered m marked r) : r.openStruct.isSome = true ↔ Marker.structType ∈ markersOf marked := by
  rw [h.state.openStruct, stateOf, decide_eq_true_iff]

/-- A marker that may stand where it stands is allowed. -/
theorem exists_allowed (h : Gathered m marked r) (hmay : s.marker.MayFollow (markersOf marked)) :
    ∃ next, r.Allowed (stateOf marked) s.marker next := by
  obtain ⟨next, hnext⟩ := (exists_advance_iff marked s.marker).mpr (.inr hmay)
  exact ⟨next, HeaderReading.allowed_of_advance h.state hnext⟩

/-- A marker that has been taken may stand where it stands. -/
theorem mayFollow (h : Gathered m marked r) (htakes : r.Takes s.number s.lines s.marker after taken) :
    s.marker.MayFollow (markersOf marked) := by
  have hclass := h.openClass_iff
  have hstruct := h.openStruct_iff
  generalize s.marker = marker at htakes
  -- what may not come twice has not been seen or is not open; what needs a type around it finds one
  cases htakes with
  | modelOverrides => trivial
  | renderOverrides => trivial
  | externalType read => trivial
  | package first list metadata =>
    intro hmem
    rw [h.package.mpr hmem] at first
    cases first
  | classType closed read =>
    intro hmem
    rw [← hclass, closed] at hmem
    cases hmem
  | structType closed read =>
    intro hmem
    rw [← hstruct, closed] at hmem
    cases hmem
  | property opened read => exact hclass.mp (by rw [opened]; rfl)
  | constructor opened read => exact hstruct.mp (by rw [opened]; rfl)
  | functionOfClass latest opened read => exact Or.inl (hclass.mp (by rw [opened]; rfl))
  | functionOfStruct latest opened read => exact Or.inr (hstruct.mp (by rw [opened]; rfl))

theorem stateOf_concat {next : OpenContext} (h : r.Allowed (stateOf marked) s.marker next) :
    next = stateOf (marked ++ [s]) := by
  unfold stateOf
  rw [markersOf_concat]
  generalize s.marker = marker at h ⊢
  cases h <;> simp [stateOf]

theorem name_of_takes (htakes : r.Takes s.number s.lines s.marker after taken) : after.module.name = r.module.name := by
  generalize s.marker = marker at htakes
  cases htakes with
  | @package _ attributes module first list metadata =>
    have hname := Module.part_withAttributes r.module Module.name (fun _ _ => rfl) attributes
    rwa [metadata] at hname
  | _ => rfl

theorem latest_of_takes (htakes : r.Takes s.number s.lines s.marker after taken) :
    after.latest = latestBehind r.latest s.marker := by
  generalize s.marker = marker at htakes ⊢
  cases htakes <;> rfl

theorem packageSeen_of_takes (htakes : r.Takes s.number s.lines s.marker after taken) :
    after.packageSeen = (r.packageSeen || s.marker = .package) := by
  generalize s.marker = marker at htakes ⊢
  cases htakes <;> simp

theorem externals_of_takes (h : Gathered m marked r) (htakes : r.Takes s.number s.lines s.marker after taken) :
    ∀ d ∈ after.externals, d.kind = .external ∧ d.members = ([], [], []) := by
  generalize s.marker = marker at htakes
  cases htakes with
  | @externalType _ new read =>
    intro d hd
    rcases List.mem_append.mp hd with hd | hd
    · exact h.externals d hd
    · rw [List.mem_singleton.mp hd]
      exact ⟨(readExternal_ok read).2.kind, (readExternal_ok read).2.members⟩
  | _ => exact h.externals

/-- The class has the properties at the marked lines, and the functions that stand where it was opened last. -/
theorem ofClass_of_takes (h : Gathered m marked r) (htakes : r.Takes s.number s.lines s.marker after taken) :
    ∀ d, after.openClass = some d → d.kind = .classType ∧
      d.members = (propertiesAt d.name (marked ++ [s]), functionsAt .classType none (marked ++ [s]), []) := by
  have hmay := h.mayFollow htakes
  have hlatest := h.latest
  obtain ⟨marker, number, lines⟩ := s
  intro d hd
  rw [propertiesAt_concat, functionsAt_concat]
  cases htakes with
  | classType closed read =>
    -- before it is opened there are no members for it
    cases hd
    obtain ⟨hkind, hmembers⟩ := (readType_ok read).2
    have hfunctions : functionsAt .classType none marked = [] := functionsAt_eq_nil .classType hmay (by simp)
    refine ⟨hkind, ?_⟩
    rw [hmembers, propertiesAt_eq_nil _ (h.inContext.property_not_mem hmay), hfunctions]
    rfl
  | @property _ outer property opened read =>
    cases hd
    obtain ⟨hkind, hmembers⟩ := h.ofClass outer opened
    refine ⟨hkind, ?_⟩
    rw [Declaration.members, Prod.mk.injEq, Prod.mk.injEq] at hmembers ⊢
    obtain ⟨hproperties, hfunctions, hconstructors⟩ := hmembers
    exact ⟨by simp [hproperties, read, AtMarker.found], by simp [hfunctions], hconstructors⟩
  | @functionOfClass _ outer declared latest opened read =>
    cases hd
    obtain ⟨hkind, hmembers⟩ := h.ofClass outer opened
    refine ⟨hkind, ?_⟩
    rw [Declaration.members, Prod.mk.injEq, Prod.mk.injEq] at hmembers ⊢
    obtain ⟨hproperties, hfunctions, hconstructors⟩ := hmembers
    rw [latest] at hlatest
    exact ⟨by simp [hproperties], by simp [hfunctions, read, AtMarker.found, ← hlatest], hconstructors⟩
  | functionOfStruct latest opened read =>
    -- the function goes to the struct
    rw [latest] at hlatest
    simpa [← hlatest] using h.ofClass d hd
  | _ => simpa using h.ofClass d hd

/-- The struct has the constructors at the marked lines, and the functions that stand where it was opened last. -/
theorem ofStruct_of_takes (h : Gathered m marked r) (htakes : r.Takes s.number s.lines s.marker after taken) :
    ∀ d, after.openStruct = some d → d.kind = .structType ∧
      d.members = ([], functionsAt .structType none (marked ++ [s]), constructorsAt (marked ++ [s])) := by
  have hmay := h.mayFollow htakes
  have hlatest := h.latest
  obtain ⟨marker, number, lines⟩ := s
  intro d hd
  rw [constructorsAt_concat, functionsAt_concat]
  -- a new struct has no members, a constructor or a function adds one, and no other marker reaches the struct
  cases htakes with
  | structType closed read =>
    cases hd
    obtain ⟨hkind, hmembers⟩ := (readType_ok read).2
    have hfunctions : functionsAt .structType none marked = [] := functionsAt_eq_nil .structType hmay (by simp)
    refine ⟨hkind, ?_⟩
    rw [hmembers, constructorsAt_eq_nil (h.inContext.constructor_not_mem hmay), hfunctions]
    rfl
  | @constructor _ outer declared opened read =>
    cases hd
    obtain ⟨hkind, hmembers⟩ := h.ofStruct outer opened
    refine ⟨hkind, ?_⟩
    rw [Declaration.members, Prod.mk.injEq, Prod.mk.injEq] at hmembers ⊢
    obtain ⟨hproperties, hfunctions, hconstructors⟩ := hmembers
    exact ⟨hproperties, by simp [hfunctions], by simp [hconstructors, read, AtMarker.found]⟩
  | @functionOfStruct _ outer declared latest opened read =>
    cases hd
    obtain ⟨hkind, hmembers⟩ := h.ofStruct outer opened
    refine ⟨hkind, ?_⟩
    rw [Declaration.members, Prod.mk.injEq, Prod.mk.injEq] at hmembers ⊢
    obtain ⟨hproperties, hfunctions, hconstructors⟩ := hmembers
    rw [latest] at hlatest
    exact ⟨hproperties, by simp [hfunctions, read, AtMarker.found, ← hlatest], by simp [hconstructors]⟩
  | functionOfClass latest opened read =>
    rw [latest] at hlatest
    simpa [← hlatest] using h.ofStruct d hd
  | _ => simpa using h.ofStruct d hd

/-- **One marked line more.** -/
theorem step (h : Gathered m marked r) (htakes : r.Takes s.number s.lines s.marker after taken) :
    Gathered m (marked ++ [s]) after where
  inContext := by
    rw [markersOf_concat, inContext_concat]
    exact ⟨h.inContext, h.mayFollow htakes⟩
  name := by rw [name_of_takes htakes, h.name]
  state := by
    obtain ⟨next, hallowed⟩ := h.exists_allowed (h.mayFollow htakes)
    rw [← stateOf_concat hallowed]
    exact hallowed.scoped h.state htakes
  latest := by rw [latest_of_takes htakes, latestOf_concat, h.latest]
  package := by
    rw [packageSeen_of_takes htakes, markersOf_concat, Bool.or_eq_true, h.package]
    simp [eq_comm]
  externals := h.externals_of_takes htakes
  ofClass := h.ofClass_of_takes htakes
  ofStruct := h.ofStruct_of_takes htakes

/-- **A well-formed marker that may stand where it stands is taken.** -/
theorem dispatch_ok (h : Gathered m marked r) (hmay : s.marker.MayFollow (markersOf marked))
    (hwell : s.marker.WellFormed s.lines) : ∃ after taken, r.dispatch s.marker s.number s.lines = (after, .ok taken) := by
  obtain ⟨next, hallowed⟩ := h.exists_allowed hmay
  obtain ⟨marker, number, lines⟩ := s
  dsimp only at hallowed hwell ⊢
  -- the marker finds open what it needs, and its lines are well-formed, so that no branch stops the reading
  cases hallowed with
  | modelOverrides => exact ⟨_, _, rfl⟩
  | renderOverrides => exact ⟨_, _, rfl⟩
  | package =>
    obtain ⟨listEnd, attributes, hlist, n, n', hmetadata⟩ := hwell
    obtain ⟨module, hmodule⟩ := Module.withAttributes_alike hmetadata r.module
    have hfirst : ¬ r.packageSeen = true := fun hseen => hmay (h.package.mp hseen)
    refine ⟨{ r with packageSeen := true, module }, listEnd, ?_⟩
    show r.readPackage lines = _
    rw [HeaderReading.readPackage, if_neg hfirst, hlist]
    dsimp only
    rw [hmodule]
  | externalType =>
    obtain ⟨found, hread⟩ := (readExternal_ok_iff r.includePath number).mpr hwell
    rw [HeaderReading.dispatch, hread]
    exact ⟨_, _, rfl⟩
  | classType closed =>
    obtain ⟨found, hread⟩ := (readType_ok_iff r.module r.includePath .classType .classType number).mpr hwell
    rw [HeaderReading.dispatch, closed, hread]
    exact ⟨_, _, rfl⟩
  | structType closed =>
    obtain ⟨found, hread⟩ := (readType_ok_iff r.module r.includePath .structType .structType number).mpr hwell
    rw [HeaderReading.dispatch, closed, hread]
    exact ⟨_, _, rfl⟩
  | @property outer opened =>
    obtain ⟨found, hread⟩ := (readProperty_ok_iff outer.name number).mpr hwell
    simp only [HeaderReading.dispatch, opened, hread]
    exact ⟨_, _, rfl⟩
  | constructor opened =>
    obtain ⟨found, hread⟩ := (readConstructor_ok_iff number).mpr hwell
    rw [HeaderReading.dispatch, opened, hread]
    exact ⟨_, _, rfl⟩
  | functionOfClass latest opened =>
    obtain ⟨found, hread⟩ := (readFunction_ok_iff number).mpr hwell
    rw [HeaderReading.dispatch, latest, opened, hread]
    exact ⟨_, _, rfl⟩
  | functionOfStruct latest opened =>
    obtain ⟨found, hread⟩ := (readFunction_ok_iff number).mpr hwell
    simp only [HeaderReading.dispatch, latest, opened, hread]
    exact ⟨_, _, rfl⟩

/-- A marker that has been taken is well-formed. -/
theorem wellFormed_of_takes (htakes : r.Takes s.number s.lines s.marker after taken) :
    s.marker.WellFormed s.lines := by
  obtain ⟨marker, number, lines⟩ := s
  dsimp only at htakes ⊢
  cases htakes with
  | modelOverrides => trivial
  | renderOverrides => trivial
  | package first list metadata => exact ⟨_, _, list, _, _, metadata⟩
  | externalType read => exact (readExternal_ok_iff _ _).mp ⟨_, read⟩
  | classType closed read => exact (readType_ok_iff _ _ .classType .classType _).mp ⟨_, read⟩
  | structType closed read => exact (readType_ok_iff _ _ .structType .structType _).mp ⟨_, read⟩
  | property opened read => exact (readProperty_ok_iff _ _).mp ⟨_, read⟩
  | constructor opened read => exact (readConstructor_ok_iff _).mp ⟨_, read⟩
  | functionOfClass latest opened read => exact (readFunction_ok_iff _).mp ⟨_, read⟩
  | functionOfStruct latest opened read => exact (readFunction_ok_iff _).mp ⟨_, read⟩

end Gathered

/-- The fault of a marker that may not stand behind some marked lines: a class or struct is nested, a member is outside of
its context, or a package directive is not the first of the package. -/
inductive OutOfContext (package : Text) (marked : List MarkedLine) : Marker → HeaderFault → Prop where
  | classType (name : Text) (line : Nat) :
      OutOfContext package marked .classType (.nested .classType (stateOf marked) name line)
  | structType (name : Text) (line : Nat) :
      OutOfContext package marked .structType (.nested .structType (stateOf marked) name line)
  | property : OutOfContext package marked .property (.outsideContext .property (stateOf marked))
  | constructor : OutOfContext package marked .constructor (.outsideContext .constructor (stateOf marked))
  | function : OutOfContext package marked .function (.outsideContext .function (stateOf marked))
  | package : OutOfContext package marked .package (.secondPackage package)

/-- **A marker that may not stand where it stands is at fault for this**, whatever else may be wrong with it. -/
theorem Gathered.dispatch_stop {m : Module} {marked : List MarkedLine} {s : MarkedLine} {r : HeaderReading}
    (h : Gathered m marked r) (hmay : ¬ s.marker.MayFollow (markersOf marked)) :
    ∃ fault, r.dispatch s.marker s.number s.lines = r.stop fault ∧ OutOfContext m.name marked s.marker fault := by
  by_cases hpackage : s.marker = .package
  · -- the state knows nothing of package directives
    rw [hpackage] at hmay ⊢
    refine ⟨.secondPackage m.name, ?_, .package⟩
    show r.readPackage s.lines = _
    rw [HeaderReading.readPackage, if_pos (h.package.mpr (not_not.mp hmay)), h.name]
  · cases hadvance : (stateOf marked).advance s.marker with
    | ok next =>
      have hallowed := (exists_advance_iff marked s.marker).mp ⟨next, hadvance⟩
      exact absurd hallowed (not_or.mpr ⟨hpackage, hmay⟩)
    | error refusal =>
      obtain ⟨fault, hrefused⟩ := HeaderReading.refused_of_advance h.state hadvance
      refine ⟨fault, hrefused.dispatch_eq h.state.context s.number s.lines, ?_⟩
      generalize s.marker = marker at hrefused ⊢
      cases hrefused with
      | classType opened => exact .classType _ _
      | structType opened => exact .structType _ _
      | property closed => exact .property
      | constructor closed => exact .constructor
      | function noClass noStruct => exact .function

/-! ## §6 Headers -/

section Run

variable {m : Module} {includePath : Text} {marked : List MarkedLine} {after : HeaderReading}

/-- **What a reading without a fault has got.** -/
theorem gathered_of_read (h : HeaderReading.readMarked { module := m, includePath } marked = (after, none)) :
    Gathered m marked after ∧ ∀ s ∈ marked, s.marker.WellFormed s.lines := by
  induction marked using List.reverseRecOn generalizing after with
  | nil =>
    cases h
    exact ⟨Gathered.start m includePath, by simp⟩
  | append_singleton marked s ih =>
    -- the last marked line is taken by the reading that has gathered those before it
    obtain ⟨middle, taken, hmarked, hdispatch⟩ := HeaderReading.readMarked_concat.mp h
    obtain ⟨hgathered, hwell⟩ := ih hmarked
    have htakes := HeaderReading.takes_of_dispatch hdispatch
    refine ⟨hgathered.step htakes, fun t ht => ?_⟩
    rcases List.mem_append.mp ht with ht | ht
    · exact hwell t ht
    · rw [List.mem_singleton.mp ht]
      exact Gathered.wellFormed_of_takes htakes

/-- **Well-formed markers in context are read.** -/
theorem exists_read (m : Module) (includePath : Text) (hcontext : InContext (markersOf marked))
    (hwell : ∀ s ∈ marked, s.marker.WellFormed s.lines) :
    ∃ after, HeaderReading.readMarked { module := m, includePath } marked = (after, none) := by
  induction marked using List.reverseRecOn with
  | nil => exact ⟨_, rfl⟩
  | append_singleton marked s ih =>
    rw [markersOf_concat, inContext_concat] at hcontext
    obtain ⟨middle, hmarked⟩ := ih hcontext.1 fun t ht => hwell t (List.mem_append_left _ ht)
    obtain ⟨after, taken, hdispatch⟩ := (gathered_of_read hmarked).1.dispatch_ok hcontext.2
      (hwell s (List.mem_append_right _ (List.mem_singleton_self s)))
    exact ⟨after, HeaderReading.readMarked_concat.mpr ⟨middle, taken, hmarked, hdispatch⟩⟩

/-- The first marked line that is out of context. -/
theorem exists_first (h : ¬ InContext (markersOf marked)) :
    ∃ before s behind, marked = before ++ s :: behind ∧ InContext (markersOf before) ∧
      ¬ s.marker.MayFollow (markersOf before) := by
  induction marked using List.reverseRecOn with
  | nil => exact absurd inContext_nil h
  | append_singleton marked s ih =>
    -- the last marked line is the first one out of context only when all before it are in context
    by_cases hmarked : InContext (markersOf marked)
    · refine ⟨marked, s, [], rfl, hmarked, fun hmay => h ?_⟩
      rw [markersOf_concat, inContext_concat]
      exact ⟨hmarked, hmay⟩
    · obtain ⟨before, t, behind, rfl, hbefore, hmay⟩ := ih hmarked
      exact ⟨before, t, behind ++ [s], by simp, hbefore, hmay⟩

end Run

/-- **What marked lines declare**: external types, which have no members, and a class and a struct where there are markers
of them. The class has all properties, the struct has all constructors, and a function belongs to whichever of them was
opened last. -/
structure MembersOf (marked : List MarkedLine) (externals : List Declaration)
    (openClass openStruct : Option Declaration) : Prop where
  ofExternal : ∀ d ∈ externals, d.kind = .external ∧ d.members = ([], [], [])
  hasClass : openClass.isSome = true ↔ Marker.classType ∈ markersOf marked
  ofClass : ∀ d, openClass = some d → d.kind = .classType ∧
    d.members = (propertiesAt d.name marked, functionsAt .classType none marked, [])
  hasStruct : openStruct.isSome = true ↔ Marker.structType ∈ markersOf marked
  ofStruct : ∀ d, openStruct = some d → d.kind = .structType ∧
    d.members = ([], functionsAt .structType none marked, constructorsAt marked)

theorem Gathered.membersOf {m : Module} {marked : List MarkedLine} {r : HeaderReading} (h : Gathered m marked r) :
    MembersOf marked r.externals r.openClass r.openStruct where
  ofExternal := h.externals
  hasClass := h.openClass_iff
  ofClass := h.ofClass
  hasStruct := h.openStruct_iff
  ofStruct := h.ofStruct

/-- A header is read without a fault exactly when all its marked lines are well-formed and in context. -/
theorem readHeader_ok_iff (m : Module) (path text : Text) :
    (m.readHeader path text).error = none ↔
      InContext (markersOf (Header.marked text)) ∧ ∀ s ∈ Header.marked text, s.marker.WellFormed s.lines := by
  constructor
  · intro h
    obtain ⟨after, hread, -⟩ := Module.exists_read_of_ok h
    obtain ⟨hgathered, hwell⟩ := gathered_of_read hread
    exact ⟨hgathered.inContext, hwell⟩
  · rintro ⟨hcontext, hwell⟩
    obtain ⟨after, hread⟩ := exists_read m (includePathOf path) hcontext hwell
    rw [← HeaderReading.headerReading_eq_readMarked] at hread
    rw [Module.readHeader_of_read hread]

/-- **The context conditions are exact.** Let every marked line of a header be well-formed that stands in context
together with those before it; a line out of context stops the reading, and what is behind it need not be well-formed.
Then the header is read without a fault exactly when its markers are in context. Otherwise the fault is on the first
marked line that is out of context, and it says so. When there is no fault, members belong to what they stand behind. -/
theorem context_conditions {m : Module} {path text : Text}
    (h : ∀ before s behind, Header.marked text = before ++ s :: behind → InContext (markersOf (before ++ [s])) →
      s.marker.WellFormed s.lines) :
    ((m.readHeader path text).error = none ↔ InContext (markersOf (Header.marked text))) ∧
    (¬ InContext (markersOf (Header.marked text)) →
      ∃ before s behind, Header.marked text = before ++ s :: behind ∧ InContext (markersOf before) ∧
        ¬ InContext (markersOf (before ++ [s])) ∧
        ∃ fault, OutOfContext m.name before s.marker fault ∧
          (m.readHeader path text).error = some { file := path, line := s.number, fault }) ∧
    ((m.readHeader path text).error = none →
      ∃ externals openClass openStruct,
        (m.readHeader path text).declared = externals ++ (openClass.toList ++ openStruct.toList) ∧
        MembersOf (Header.marked text) externals openClass openStruct) := by
  have hwellBefore : ∀ before behind, Header.marked text = before ++ behind → InContext (markersOf before) →
      ∀ s ∈ before, s.marker.WellFormed s.lines := by
    intro before behind hsplit hcontext s hs
    obtain ⟨earlier, later, rfl⟩ := List.append_of_mem hs
    refine h earlier s (later ++ behind) (by rw [hsplit]; simp) ?_
    rw [List.append_cons earlier s later, markersOf, List.map_append] at hcontext
    exact hcontext.of_append
  refine ⟨?_, fun hnot => ?_, fun hok => ?_⟩
  · rw [readHeader_ok_iff]
    exact ⟨And.left, fun hcontext => ⟨hcontext, hwellBefore _ [] (by simp) hcontext⟩⟩
  · -- what is before the first marked line out of context is read, so that this line gets its turn
    obtain ⟨before, s, behind, hsplit, hbefore, hmay⟩ := exists_first hnot
    obtain ⟨middle, hread⟩ := exists_read m (includePathOf path) hbefore
      (hwellBefore before (s :: behind) hsplit hbefore)
    obtain ⟨fault, hstop, hfault⟩ := (gathered_of_read hread).1.dispatch_stop hmay
    refine ⟨before, s, behind, hsplit, hbefore, ?_, fault, hfault, ?_⟩
    · rw [markersOf_concat, inContext_concat]
      exact fun hcontext => hmay hcontext.2
    · have hreading : m.headerReading path text = (middle, some (s.number + 0, fault)) := by
        rw [HeaderReading.headerReading_eq_readMarked, hsplit, HeaderReading.readMarked_append_of_read hread]
        exact HeaderReading.readMarked_cons_of_error hstop
      rw [Module.readHeader_of_fault hreading]
      rfl
  · obtain ⟨after, hread, houtcome⟩ := Module.exists_read_of_ok hok
    refine ⟨after.externals, after.openClass, after.openStruct, ?_, (gathered_of_read hread).1.membersOf⟩
    rw [houtcome]
    rfl

/-- A class and a struct with a member each, and a second class, which is at fault for being nested, and not for having no
declaration. -/
theorem context_of_second_class :
    let text : Text := "AGEA_ar_class()\nclass A\nAGEA_ar_struct()\nstruct S\n" ++
      "AGEA_ar_property(\"access=all\")\nint x;\nAGEA_ar_function()\nvoid f();\nAGEA_ar_class()\n"
    let m := Module.empty "m" ""
    (∀ before s behind, Header.marked text = before ++ s :: behind → InContext (markersOf (before ++ [s])) →
      s.marker.WellFormed s.lines) ∧
    markersOf (Header.marked text) = [.classType, .structType, .property, .function, .classType] ∧
    (∃ before s behind, Header.marked text = before ++ s :: behind ∧ InContext (markersOf before) ∧
      ¬ InContext (markersOf (before ++ [s])) ∧ ∃ fault, OutOfContext m.name before s.marker fault ∧
        (m.readHeader "a.h" text).error = some { file := "a.h", line := s.number, fault }) ∧
    (m.readHeader "a.h" text).error =
      some { file := "a.h", line := 9, fault := .nested .classType ⟨true, true⟩ "A" 1 } := by
  intro text m
  have hmarkers : markersOf (Header.marked text) = [.classType, .structType, .property, .function, .classType] := by
    decide +kernel
  have hnot : ¬ InContext (markersOf (Header.marked text)) := by
    intro hcontext
    have hcount := hcontext.oneClass
    rw [hmarkers] at hcount
    exact absurd hcount (by decide)
  -- all marked lines but the last are read
  obtain ⟨first, last, hsplit, hfirst⟩ : ∃ first last, Header.marked text = first ++ [last] ∧
      (HeaderReading.readMarked { module := m, includePath := "a.h" } first).2 = none :=
    ⟨(Header.marked text).take 4, (Header.marked text).getLastD ⟨.classType, 0, []⟩, by decide +kernel, by decide +kernel⟩
  have hwell : ∀ s ∈ first, s.marker.WellFormed s.lines := (gathered_of_read (Prod.ext rfl hfirst)).2
  have h : ∀ before s behind, Header.marked text = before ++ s :: behind → InContext (markersOf (before ++ [s])) →
      s.marker.WellFormed s.lines := by
    intro before s behind hs hcontext
    rcases List.eq_nil_or_concat behind with rfl | ⟨behind, t, rfl⟩
    · rw [← hs] at hcontext
      exact absurd hcontext hnot
    · rw [hsplit, List.concat_eq_append, ← List.cons_append, ← List.append_assoc] at hs
      rw [(List.append_inj' hs rfl).1] at hwell
      exact hwell s (List.mem_append_right _ List.mem_cons_self)
  exact ⟨h, hmarkers, (context_conditions h).2.1 hnot, by decide +kernel⟩

end HeaderReflection
