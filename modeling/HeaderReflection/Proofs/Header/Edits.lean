import HeaderReflection.Header.Reader
import HeaderReflection.Proofs.Text.Order

/-!
# Headers as edits

Reading a header does not look at what a module already holds, apart from its name and its namespace. So a header stands
for a list of edits, and reading it into a module carries them out.

## Main definitions

- `ModuleEdit`, `Module.edited`: what a header can do to a module.
- `PackageSettings`: what a package directive sets.
- `Module.readAll`: headers read one after the other.
- `entriesOf`: the types of a module that has got the given declarations, one after the other.

## Main results

- `Module.withAttributes_eq`: a package directive changes settings only, and fails for its own reasons only.
- `HeaderReading.dispatch_edits`, `HeaderReading.readFrom_edits`: a marker, and the lines of a header, as edits.
- `Module.readHeader_edits`: a header as edits.
- `Module.readAll_edited`: reading headers is carrying out their edits.
- `entries_edited`, `includes_edited` and others: what edits leave behind.
-/

namespace HeaderReflection

/-! ## §1 Package directives -/

/-- What a package directive sets. -/
structure PackageSettings where
  modelTypesOverrides : Bool
  modelPropertiesOverrides : Bool
  renderTypesOverrides : Bool
  renderCustomResources : Bool
  dependencies : List Text
  deriving DecidableEq, Repr

/-- The settings of a module. -/
def Module.settings (m : Module) : PackageSettings where
  modelTypesOverrides := m.modelTypesOverrides
  modelPropertiesOverrides := m.modelPropertiesOverrides
  renderTypesOverrides := m.renderTypesOverrides
  renderCustomResources := m.renderCustomResources
  dependencies := m.dependencies

/-- A module with other settings. -/
def Module.withSettings (m : Module) (s : PackageSettings) : Module :=
  { m with
    modelTypesOverrides := s.modelTypesOverrides
    modelPropertiesOverrides := s.modelPropertiesOverrides
    renderTypesOverrides := s.renderTypesOverrides
    renderCustomResources := s.renderCustomResources
    dependencies := s.dependencies }

@[simp] theorem Module.settings_withSettings (m : Module) (s : PackageSettings) : (m.withSettings s).settings = s := rfl

/-- What an attribute of a package directive does to the settings, and whether it fails, is the same in every module. -/
theorem Module.withAttribute_eq (item : Text) :
    ∃ (set : PackageSettings → PackageSettings) (fault : Option AttributeFault),
      ∀ m : Module, m.withAttribute item = (m.withSettings (set m.settings), fault) := by
  unfold Module.withAttribute
  cases keyValue item with
  | error fault => exact ⟨id, some fault, fun m => rfl⟩
  | ok pair =>
    obtain ⟨key, value⟩ := pair
    -- four keys set a flag, and a flag is set to false even where its value is at fault
    have hflag : ∀ set : Module → Bool → Module, (∃ put : PackageSettings → Bool → PackageSettings,
        ∀ m flag, set m flag = m.withSettings (put m.settings flag)) →
        ∃ (set' : PackageSettings → PackageSettings) (fault : Option AttributeFault),
          ∀ m : Module, Module.withFlag (set m) key value = (m.withSettings (set' m.settings), fault) := by
      rintro set ⟨put, hput⟩
      unfold Module.withFlag
      cases trueFalse key value with
      | ok flag => exact ⟨fun s => put s flag, none, fun m => by simp [hput]⟩
      | error fault => exact ⟨fun s => put s false, some fault, fun m => by simp [hput]⟩
    dsimp only [Module.withKey]
    split
    · exact hflag _ ⟨fun s flag => { s with modelTypesOverrides := flag }, fun _ _ => rfl⟩
    · split
      · exact hflag _ ⟨fun s flag => { s with modelPropertiesOverrides := flag }, fun _ _ => rfl⟩
      · split
        · exact hflag _ ⟨fun s flag => { s with renderTypesOverrides := flag }, fun _ _ => rfl⟩
        · split
          · exact hflag _ ⟨fun s flag => { s with renderCustomResources := flag }, fun _ _ => rfl⟩
          · split
            · exact ⟨fun s => { s with dependencies := dependencyList value }, none, fun _ => rfl⟩
            · exact ⟨id, _, fun _ => rfl⟩

/-- **A package directive changes settings only**, and whether it fails does not depend on the module. -/
theorem Module.withAttributes_eq (items : List Text) :
    ∃ (set : PackageSettings → PackageSettings) (fault : Option AttributeFault),
      ∀ m : Module, m.withAttributes items = (m.withSettings (set m.settings), fault) := by
  induction items with
  | nil => exact ⟨id, none, fun m => rfl⟩
  | cons item items ih =>
    obtain ⟨first, fault, hfirst⟩ := Module.withAttribute_eq item
    obtain ⟨rest, fault', hrest⟩ := ih
    cases fault with
    | some fault =>
      refine ⟨first, some fault, fun m => ?_⟩
      rw [Module.withAttributes, hfirst]
    | none =>
      refine ⟨fun s => rest (first s), fault', fun m => ?_⟩
      rw [Module.withAttributes, hfirst]
      exact hrest _

/-! ## §2 Edits -/

/-- What a header can do to a module. -/
inductive ModuleEdit where
  | declare (d : Declaration)
  | header (path : Text)
  | modelOverrides (path : Text)
  | renderOverrides (path : Text)
  | package (attributes : List Text)

namespace ModuleEdit

/-- Carry out an edit. -/
def apply (m : Module) : ModuleEdit → Module
  | declare d => m.add d
  | header path => m.addInclude path
  | modelOverrides path => { m with modelOverrides := m.modelOverrides ++ [path] }.addInclude path
  | renderOverrides path => { m with renderOverrides := m.renderOverrides ++ [path] }.addInclude path
  | package attributes => (m.withAttributes attributes).1

/-- The type that an edit declares. -/
def declared? : ModuleEdit → Option Declaration
  | declare d => some d
  | _ => none

/-- The header that an edit adds to the include set. -/
def included? : ModuleEdit → Option Text
  | header path | modelOverrides path | renderOverrides path => some path
  | _ => none

/-- The header that an edit adds to those with model overrides. -/
def modelOverrides? : ModuleEdit → Option Text
  | modelOverrides path => some path
  | _ => none

/-- The header that an edit adds to those with render overrides. -/
def renderOverrides? : ModuleEdit → Option Text
  | renderOverrides path => some path
  | _ => none

/-- The attributes of the package directive that an edit carries out. -/
def package? : ModuleEdit → Option (List Text)
  | package attributes => some attributes
  | _ => none

end ModuleEdit

/-- A module after some edits. -/
def Module.edited (m : Module) (edits : List ModuleEdit) : Module := edits.foldl ModuleEdit.apply m

@[simp] theorem Module.edited_nil (m : Module) : m.edited [] = m := rfl

theorem Module.edited_cons (m : Module) (edit : ModuleEdit) (edits : List ModuleEdit) :
    m.edited (edit :: edits) = (edit.apply m).edited edits := rfl

theorem Module.edited_append (m : Module) (edits edits' : List ModuleEdit) :
    m.edited (edits ++ edits') = (m.edited edits).edited edits' := List.foldl_append

theorem Module.addAll_eq_edited (m : Module) (ds : List Declaration) : m.addAll ds = m.edited (ds.map .declare) := by
  rw [Module.addAll, Module.edited, List.foldl_map]
  rfl

/-- The types of a module that has got the given declarations one after the other. -/
def entriesOf (ds : List Declaration) : List Entry :=
  ds.zipIdx.map fun (d, serial) => { toDeclaration := d, serial }

theorem entriesOf_concat (ds : List Declaration) (d : Declaration) :
    entriesOf (ds ++ [d]) = entriesOf ds ++ [{ toDeclaration := d, serial := (entriesOf ds).length }] := by
  simp [entriesOf, List.zipIdx_append]

/-! ## §3 What edits leave behind -/

namespace Module

variable (m : Module) (edits : List ModuleEdit)

/-- A part of a module that every edit either leaves alone or grows by one thing is grown by all these things. -/
theorem part_edited {β γ : Type} (part : Module → β) (thing? : ModuleEdit → Option γ) (put : β → γ → β)
    (h : ∀ m edit, part (edit.apply m) = (thing? edit).elim (part m) (put (part m))) :
    part (m.edited edits) = (edits.filterMap thing?).foldl put (part m) := by
  induction edits generalizing m with
  | nil => rfl
  | cons edit edits ih =>
    rw [edited_cons, ih, h]
    cases hthing : thing? edit with
    | none => simp [hthing]
    | some thing => simp [hthing]

/-- A part of a module that holds no setting is left alone by package directives. -/
theorem part_withAttributes {β : Type} (part : Module → β) (h : ∀ m s, part (m.withSettings s) = part m)
    (attributes : List Text) : part (m.withAttributes attributes).1 = part m := by
  obtain ⟨set, fault, hset⟩ := withAttributes_eq attributes
  rw [hset]
  exact h m _

/-- A part of a module that no edit changes. -/
theorem part_edited_of_apply {β : Type} (part : Module → β) (h : ∀ m edit, part (ModuleEdit.apply m edit) = part m) :
    part (m.edited edits) = part m := by
  induction edits generalizing m with
  | nil => rfl
  | cons edit edits ih => rw [edited_cons, ih, h]

@[simp] theorem name_edited : (m.edited edits).name = m.name := by
  apply part_edited_of_apply
  intro m edit
  cases edit with
  | package attributes => exact part_withAttributes m Module.name (fun _ _ => rfl) attributes
  | _ => rfl

@[simp] theorem scope_edited : (m.edited edits).scope = m.scope := by
  apply part_edited_of_apply
  intro m edit
  cases edit with
  | package attributes => exact part_withAttributes m Module.scope (fun _ _ => rfl) attributes
  | _ => rfl

theorem entries_edited {ds : List Declaration} (hentries : m.entries = entriesOf ds) :
    (m.edited edits).entries = entriesOf (ds ++ edits.filterMap ModuleEdit.declared?) := by
  rw [part_edited m edits Module.entries ModuleEdit.declared?
    (fun es d => es ++ [{ toDeclaration := d, serial := es.length }])]
  · rw [hentries]
    generalize edits.filterMap ModuleEdit.declared? = added
    clear hentries
    induction added generalizing ds with
    | nil => simp
    | cons d added ih => rw [List.foldl_cons, ← entriesOf_concat, ih, List.append_assoc, List.singleton_append]
  · intro m edit
    cases edit with
    | package attributes => exact part_withAttributes m Module.entries (fun _ _ => rfl) attributes
    | _ => rfl

theorem includes_edited :
    (m.edited edits).includes =
      (edits.filterMap ModuleEdit.included?).foldl (fun set path => Text.insertUnique path set) m.includes := by
  apply part_edited
  intro m edit
  cases edit with
  | package attributes => exact part_withAttributes m Module.includes (fun _ _ => rfl) attributes
  | _ => rfl

theorem foldl_concat {α : Type} (xs ys : List α) : ys.foldl (fun zs a => zs ++ [a]) xs = xs ++ ys := by
  induction ys generalizing xs with
  | nil => simp
  | cons y ys ih => rw [List.foldl_cons, ih, List.append_assoc, List.singleton_append]

theorem modelOverrides_edited :
    (m.edited edits).modelOverrides = m.modelOverrides ++ edits.filterMap ModuleEdit.modelOverrides? := by
  rw [part_edited m edits Module.modelOverrides ModuleEdit.modelOverrides? (fun paths path => paths ++ [path])]
  · exact foldl_concat _ _
  · intro m edit
    cases edit with
    | package attributes => exact part_withAttributes m Module.modelOverrides (fun _ _ => rfl) attributes
    | _ => rfl

theorem renderOverrides_edited :
    (m.edited edits).renderOverrides = m.renderOverrides ++ edits.filterMap ModuleEdit.renderOverrides? := by
  rw [part_edited m edits Module.renderOverrides ModuleEdit.renderOverrides? (fun paths path => paths ++ [path])]
  · exact foldl_concat _ _
  · intro m edit
    cases edit with
    | package attributes => exact part_withAttributes m Module.renderOverrides (fun _ _ => rfl) attributes
    | _ => rfl

/-- The settings after a package directive. -/
def settingsAfter (s : PackageSettings) (attributes : List Text) : PackageSettings :=
  (({ name := [] } : Module).withSettings s |>.withAttributes attributes).1.settings

theorem settings_edited :
    (m.edited edits).settings = (edits.filterMap ModuleEdit.package?).foldl settingsAfter m.settings := by
  apply part_edited
  intro m edit
  cases edit with
  | package attributes =>
    obtain ⟨set, fault, hset⟩ := withAttributes_eq attributes
    simp only [ModuleEdit.apply, ModuleEdit.package?, settingsAfter, hset, settings_withSettings, Option.elim_some]
  | _ => rfl

end Module

/-! ## §4 A marker as edits -/

namespace HeaderReading

/-- A reading whose module is another one. -/
def on (r : HeaderReading) (m : Module) : HeaderReading := { r with module := m }

/-- What a part of a reading does, apart from its result: the edits of the module, and the reading behind it. What it
declares joins the external types, and a package directive is remembered. -/
structure Progress (r : HeaderReading) where
  edits : List ModuleEdit
  after : HeaderReading
  module : after.module = r.module
  includePath : after.includePath = r.includePath
  externals : after.externals = r.externals ++ edits.filterMap ModuleEdit.declared?
  packageSeen : edits.filterMap ModuleEdit.package? ≠ [] ∨ r.packageSeen = true → after.packageSeen = true

/-- A part of a reading acts on every module of the same name and namespace by the same edits. -/
def Progress.describes {r : HeaderReading} {β : Type} (p : r.Progress) (run : HeaderReading → HeaderReading × β)
    (result : β) : Prop :=
  ∀ m : Module, m.name = r.module.name → m.scope = r.module.scope →
    run (r.on m) = (p.after.on (m.edited p.edits), result)

/-- A marker that only changes what is open. -/
def Progress.quiet (r after : HeaderReading) (module : after.module = r.module)
    (includePath : after.includePath = r.includePath) (externals : after.externals = r.externals)
    (packageSeen : after.packageSeen = r.packageSeen) : r.Progress where
  edits := []
  after := after
  module := module
  includePath := includePath
  externals := by simp [externals]
  packageSeen := by simp [packageSeen]

/-- A reading that stays as it is. -/
def Progress.still (r : HeaderReading) : r.Progress := Progress.quiet r r rfl rfl rfl rfl

theorem readPackage_edits (r : HeaderReading) (lines : List Text) :
    ∃ (p : r.Progress) (result : AtMarker Nat), p.describes (fun r => r.readPackage lines) result := by
  by_cases hseen : r.packageSeen = true
  · refine ⟨Progress.still r, .error (0, .secondPackage r.module.name), ?_⟩
    intro m hname _
    have hseen' : (r.on m).packageSeen = true := hseen
    show (r.on m).readPackage lines = _
    rw [readPackage, if_pos hseen', ← hname]
    rfl
  · have hopen : ∀ m, ¬ (r.on m).packageSeen = true := fun _ => hseen
    cases hattributes : attributesAt .package lines with
    | error fault =>
      -- the directive counts as seen from here on, whether or not its attributes can be read
      refine ⟨⟨[], { r with packageSeen := true }, rfl, rfl, by simp, fun _ => rfl⟩, .error fault, ?_⟩
      intro m _ _
      show (r.on m).readPackage lines = _
      rw [readPackage, if_neg (hopen m), hattributes]
      rfl
    | ok list =>
      obtain ⟨listEnd, attributes⟩ := list
      obtain ⟨set, fault, hset⟩ := Module.withAttributes_eq attributes
      refine ⟨⟨[.package attributes], { r with packageSeen := true }, rfl, rfl,
        by simp [ModuleEdit.declared?], fun _ => rfl⟩,
        match fault with
        | none => .ok listEnd
        | some fault => .error (0, .inAttributes fault), ?_⟩
      intro m _ _
      show (r.on m).readPackage lines = _
      rw [readPackage, if_neg (hopen m), hattributes]
      simp only [on, hset]
      cases fault <;> simp [Module.edited, ModuleEdit.apply, hset]

/-- A step that leaves the module, the external types and the package directive alone, in whatever module it is. -/
def IsQuiet (r : HeaderReading) (run : HeaderReading → Step) : Prop :=
  ∃ (after : HeaderReading) (result : AtMarker Nat),
    (after.module = r.module ∧ after.includePath = r.includePath ∧ after.externals = r.externals ∧
      after.packageSeen = r.packageSeen) ∧
    ∀ m : Module, m.name = r.module.name → m.scope = r.module.scope → run (r.on m) = (after.on m, result)

theorem IsQuiet.edits {r : HeaderReading} {run : HeaderReading → Step} (h : r.IsQuiet run) :
    ∃ (p : r.Progress) (result : AtMarker Nat), p.describes run result := by
  obtain ⟨after, result, ⟨hmodule, hpath, hexternals, hseen⟩, hrun⟩ := h
  exact ⟨Progress.quiet r after hmodule hpath hexternals hseen, result, hrun⟩

theorem isQuiet_stop (r : HeaderReading) {run : HeaderReading → Step} (fault : HeaderFault)
    (h : ∀ m, run (r.on m) = (r.on m).stop fault) : r.IsQuiet run :=
  ⟨r, .error (0, fault), ⟨rfl, rfl, rfl, rfl⟩, fun m _ _ => h m⟩

/-- A marker that changes what is open, as the result of reading its declaration says. -/
theorem isQuiet_step {α : Type} {r : HeaderReading} {run : HeaderReading → Step} (result : AtMarker (Nat × α))
    (next : α → HeaderReading → HeaderReading)
    (hnext : ∀ a, (next a r).module = r.module ∧ (next a r).includePath = r.includePath ∧
      (next a r).externals = r.externals ∧ (next a r).packageSeen = r.packageSeen)
    (hrun : ∀ m : Module, m.name = r.module.name → m.scope = r.module.scope →
      run (r.on m) = (r.on m).step result fun a => (next a r).on m) : r.IsQuiet run := by
  cases result with
  | error fault => exact ⟨r, .error fault, ⟨rfl, rfl, rfl, rfl⟩, hrun⟩
  | ok pair => exact ⟨next pair.2 r, .ok pair.1, hnext pair.2, hrun⟩

/-- Classes and structs are read for their module's name and namespace only. -/
theorem readType_congr {m m' : Module} (hname : m.name = m'.name) (hscope : m.scope = m'.scope) :
    readType m = readType m' := by
  have hqualify : m.qualify = m'.qualify := by
    funext name
    simp only [Module.qualify, Module.fullName, hname, hscope]
  funext includePath marker kind number lines
  simp only [readType, hqualify]

/-- A function belongs to the type that was opened last, if that is still open. -/
theorem isQuiet_function (r : HeaderReading) (number : Nat) (lines : List Text) :
    r.IsQuiet (·.dispatch .function number lines) := by
  have hstop : (∀ m, (r.on m).dispatch .function number lines =
      (r.on m).stop (.outsideContext .function r.context)) → r.IsQuiet (·.dispatch .function number lines) :=
    fun h => isQuiet_stop r _ h
  -- a function belongs to the type that was opened last, and is refused if this type is not open
  cases hlatest : r.latest with
  | none =>
    refine hstop fun m => ?_
    simp only [dispatch, on, hlatest, context]
  | some latest =>
    cases latest with
    | classType =>
      cases hopen : r.openClass with
      | none =>
        refine hstop fun m => ?_
        simp only [dispatch, on, hlatest, hopen, context]
      | some outer =>
        refine isQuiet_step (readFunction number lines)
          (fun declared r => { r with openClass := some { outer with functions := outer.functions ++ [declared] } })
          (fun _ => ⟨rfl, rfl, rfl, rfl⟩) fun m _ _ => ?_
        simp only [dispatch, on, hlatest, hopen]
    | structType =>
      cases hopen : r.openStruct with
      | none =>
        refine hstop fun m => ?_
        simp only [dispatch, on, hlatest, hopen, context]
      | some outer =>
        refine isQuiet_step (readFunction number lines)
          (fun declared r => { r with openStruct := some { outer with functions := outer.functions ++ [declared] } })
          (fun _ => ⟨rfl, rfl, rfl, rfl⟩) fun m _ _ => ?_
        simp only [dispatch, on, hlatest, hopen]

/-- **A marker as edits.** -/
theorem dispatch_edits (r : HeaderReading) (marker : Marker) (number : Nat) (lines : List Text) :
    ∃ (p : r.Progress) (result : AtMarker Nat), p.describes (fun r => r.dispatch marker number lines) result := by
  -- external types, overrides and the package directive are edits; all other markers only change what is open
  cases marker with
  | modelOverrides =>
    exact ⟨⟨[.modelOverrides r.includePath], r, rfl, rfl, by simp [ModuleEdit.declared?],
      by simp [ModuleEdit.package?]⟩, .ok 0, fun m _ _ => rfl⟩
  | renderOverrides =>
    exact ⟨⟨[.renderOverrides r.includePath], r, rfl, rfl, by simp [ModuleEdit.declared?],
      by simp [ModuleEdit.package?]⟩, .ok 0, fun m _ _ => rfl⟩
  | package => exact readPackage_edits r lines
  | externalType =>
    cases hread : readExternal r.includePath number lines with
    | error fault =>
      refine ⟨Progress.still r, .error fault, fun m _ _ => ?_⟩
      simp only [dispatch, on, hread, step]
      rfl
    | ok pair =>
      obtain ⟨index, declared⟩ := pair
      refine ⟨⟨[.declare declared], { r with externals := r.externals ++ [declared] }, rfl, rfl,
        by simp [ModuleEdit.declared?], by simp [ModuleEdit.package?]⟩, .ok index, fun m _ _ => ?_⟩
      simp only [dispatch, on, hread, step]
      rfl
  | classType =>
    apply IsQuiet.edits
    cases hopen : r.openClass with
    | some outer =>
      refine isQuiet_stop r (.nested .classType r.context outer.name outer.line) fun m => ?_
      simp only [dispatch, on, hopen, context]
    | none =>
      refine isQuiet_step (readType r.module r.includePath .classType .classType number lines)
        (fun declared r => { r with openClass := some declared, latest := some .classType })
        (fun _ => ⟨rfl, rfl, rfl, rfl⟩) fun m hname hscope => ?_
      simp only [dispatch, on, hopen, readType_congr hname hscope]
  | structType =>
    apply IsQuiet.edits
    cases hopen : r.openStruct with
    | some outer =>
      refine isQuiet_stop r (.nested .structType r.context outer.name outer.line) fun m => ?_
      simp only [dispatch, on, hopen, context]
    | none =>
      refine isQuiet_step (readType r.module r.includePath .structType .structType number lines)
        (fun declared r => { r with openStruct := some declared, latest := some .structType })
        (fun _ => ⟨rfl, rfl, rfl, rfl⟩) fun m hname hscope => ?_
      simp only [dispatch, on, hopen, readType_congr hname hscope]
  | property =>
    apply IsQuiet.edits
    cases hopen : r.openClass with
    | none =>
      refine isQuiet_stop r (.outsideContext .property r.context) fun m => ?_
      simp only [dispatch, on, hopen, context]
    | some outer =>
      refine isQuiet_step (readProperty outer.name number lines)
        (fun property r => { r with openClass := some { outer with properties := outer.properties ++ [property] } })
        (fun _ => ⟨rfl, rfl, rfl, rfl⟩) fun m _ _ => ?_
      simp only [dispatch, on, hopen]
  | constructor =>
    apply IsQuiet.edits
    cases hopen : r.openStruct with
    | none =>
      refine isQuiet_stop r (.outsideContext .constructor r.context) fun m => ?_
      simp only [dispatch, on, hopen, context]
    | some outer =>
      refine isQuiet_step (readConstructor number lines)
        (fun declared r =>
          { r with openStruct := some { outer with constructors := outer.constructors ++ [declared] } })
        (fun _ => ⟨rfl, rfl, rfl, rfl⟩) fun m _ _ => ?_
      simp only [dispatch, on, hopen]
  | function => exact (isQuiet_function r number lines).edits

/-! ## §5 A header as edits -/

/-- One part of a reading after another. -/
def Progress.trans {r : HeaderReading} (p : r.Progress) (q : p.after.Progress) : r.Progress where
  edits := p.edits ++ q.edits
  after := q.after
  module := q.module.trans p.module
  includePath := q.includePath.trans p.includePath
  externals := by rw [q.externals, p.externals, List.filterMap_append, List.append_assoc]
  packageSeen := by
    intro h
    apply q.packageSeen
    rw [List.filterMap_append, ne_eq, List.append_eq_nil_iff, not_and_or] at h
    rcases h with (h | h) | h
    · exact Or.inr (p.packageSeen (Or.inl h))
    · exact Or.inl h
    · exact Or.inr (p.packageSeen (Or.inr h))

/-- **The lines of a header as edits.** -/
theorem readFrom_edits (r : HeaderReading) (taken number : Nat) (lines : List Text) :
    ∃ (p : r.Progress) (result : Option (Nat × HeaderFault)), p.describes (·.readFrom taken number lines) result := by
  -- the reading goes on from where a marker has led, with the module as its edits have left it
  induction lines generalizing r taken number with
  | nil =>
    refine ⟨Progress.still r, none, fun m _ _ => ?_⟩
    show (r.on m).readFrom taken number [] = _
    rw [readFrom]
    rfl
  | cons line lines ih =>
    cases taken with
    | succ taken =>
      obtain ⟨p, result, h⟩ := ih r taken (number + 1)
      refine ⟨p, result, fun m hname hscope => ?_⟩
      show (r.on m).readFrom (taken + 1) number (line :: lines) = _
      rw [readFrom]
      exact h m hname hscope
    | zero =>
      cases hmarker : Marker.ofLine? line with
      | none =>
        obtain ⟨p, result, h⟩ := ih r 0 (number + 1)
        refine ⟨p, result, fun m hname hscope => ?_⟩
        show (r.on m).readFrom 0 number (line :: lines) = _
        rw [readFrom, hmarker]
        exact h m hname hscope
      | some marker =>
        obtain ⟨p, step, hp⟩ := dispatch_edits r marker number (line :: lines)
        have hdispatch : ∀ m : Module, m.name = r.module.name → m.scope = r.module.scope →
            (r.on m).dispatch marker number (line :: lines) = (p.after.on (m.edited p.edits), step) := hp
        cases step with
        | error fault =>
          refine ⟨p, some (number + fault.1, fault.2), fun m hname hscope => ?_⟩
          show (r.on m).readFrom 0 number (line :: lines) = _
          rw [readFrom, hmarker]
          simp only [hdispatch m hname hscope]
        | ok taken =>
          obtain ⟨q, result, hq⟩ := ih p.after taken (number + 1)
          refine ⟨p.trans q, result, fun m hname hscope => ?_⟩
          show (r.on m).readFrom 0 number (line :: lines) = _
          rw [readFrom, hmarker]
          simp only [hdispatch m hname hscope]
          -- no edit touches the name or the namespace, so that the rest is read alike as well
          have hrest := hq (m.edited p.edits) (by rw [Module.name_edited, p.module, hname])
            (by rw [Module.scope_edited, p.module, hscope])
          rw [← Module.edited_append] at hrest
          exact hrest

end HeaderReading

/-- The reading of a whole header. -/
def Module.headerReading (m : Module) (path text : Text) : HeaderReading × Option (Nat × HeaderFault) :=
  HeaderReading.readFrom { module := m, includePath := includePathOf path } 0 1 (Header.lines text)

theorem Module.readHeader_of_fault {m : Module} {path text : Text} {r : HeaderReading} {line : Nat}
    {fault : HeaderFault} (h : m.headerReading path text = (r, some (line, fault))) :
    m.readHeader path text = ⟨r.module, r.externals, some { file := path, line, fault }⟩ := by
  unfold Module.headerReading at h
  unfold Module.readHeader
  dsimp only
  rw [h]

theorem Module.readHeader_of_read {m : Module} {path text : Text} {r : HeaderReading}
    (h : m.headerReading path text = (r, none)) :
    m.readHeader path text =
      ⟨(r.module.addAll r.opened).addInclude (includePathOf path), r.externals ++ r.opened, none⟩ := by
  unfold Module.headerReading at h
  unfold Module.readHeader
  dsimp only
  rw [h]

/-- **A header as edits**: what it does to a module and which types it declares depends on the name and the namespace of
the module alone. -/
theorem Module.readHeader_edits (m₀ : Module) (path text : Text) (herror : (m₀.readHeader path text).error = none) :
    ∃ edits : List ModuleEdit,
      (∀ m : Module, m.name = m₀.name → m.scope = m₀.scope →
        (m.readHeader path text).module = m.edited edits ∧ (m.readHeader path text).error = none) ∧
      edits.filterMap ModuleEdit.declared? = (m₀.readHeader path text).declared ∧
      (edits.filterMap ModuleEdit.package? ≠ [] → (m₀.headerReading path text).1.packageSeen = true) := by
  obtain ⟨p, result, hp⟩ :=
    HeaderReading.readFrom_edits { module := m₀, includePath := includePathOf path } 0 1 (Header.lines text)
  have hreading : ∀ m : Module, m.name = m₀.name → m.scope = m₀.scope →
      m.headerReading path text = (p.after.on (m.edited p.edits), result) := hp
  cases result with
  | some fault =>
    rw [Module.readHeader_of_fault (hreading m₀ rfl rfl)] at herror
    cases herror
  | none =>
    -- external types join the module as they are read, the open types and the include when all lines have been read
    refine ⟨p.edits ++ p.after.opened.map .declare ++ [.header (includePathOf path)], ?_, ?_, ?_⟩
    · intro m hname hscope
      rw [Module.readHeader_of_read (hreading m hname hscope)]
      refine ⟨?_, rfl⟩
      rw [Module.edited_append, Module.edited_append, ← Module.addAll_eq_edited]
      rfl
    · rw [Module.readHeader_of_read (hreading m₀ rfl rfl)]
      have hexternals : p.after.externals = p.edits.filterMap ModuleEdit.declared? := by
        rw [p.externals, List.nil_append]
      have hdeclared : (p.after.opened.map ModuleEdit.declare).filterMap ModuleEdit.declared? = p.after.opened := by
        rw [List.filterMap_map]
        exact List.filterMap_some
      have hon : (p.after.on (m₀.edited p.edits)).externals = p.after.externals := rfl
      simp only [List.filterMap_append, hdeclared, hon, hexternals]
      simp [ModuleEdit.declared?, HeaderReading.opened, HeaderReading.on]
    · intro hpackage
      rw [hreading m₀ rfl rfl]
      apply p.packageSeen
      left
      simpa [List.filterMap_append, ModuleEdit.package?, List.filterMap_map, Function.comp_def] using hpackage

/-! ## §6 Headers one after the other -/

/-- Read headers, each with its path, into a module one after the other, up to the first that has a fault. -/
def Module.readAll (m : Module) : List (Text × Text) → Except HeaderError Module
  | [] => .ok m
  | (path, text) :: headers =>
    match (m.readHeader path text).error with
    | some error => .error error
    | none => (m.readHeader path text).module.readAll headers

/-- **Reading headers is carrying out their edits**, which do not depend on the headers before them. -/
theorem Module.readAll_edited {m₀ : Module} {headers : List (Text × Text)}
    {edits : Text × Text → List ModuleEdit}
    (h : ∀ header ∈ headers, ∀ m : Module, m.name = m₀.name → m.scope = m₀.scope →
      (m.readHeader header.1 header.2).module = m.edited (edits header) ∧
      (m.readHeader header.1 header.2).error = none) :
    m₀.readAll headers = .ok (m₀.edited (headers.flatMap edits)) := by
  -- no edit changes the name or the namespace, so that a header has the same edits behind the others
  have hrun : ∀ m : Module, m.name = m₀.name → m.scope = m₀.scope →
      m.readAll headers = .ok (m.edited (headers.flatMap edits)) := by
    induction headers with
    | nil => intro m _ _; rfl
    | cons header headers ih =>
      intro m hname hscope
      obtain ⟨hmodule, herror⟩ := h header List.mem_cons_self m hname hscope
      rw [Module.readAll, herror]
      show (m.readHeader header.1 header.2).module.readAll headers = _
      rw [hmodule, List.flatMap_cons, Module.edited_append]
      apply ih
      · exact fun header' hmem => h header' (List.mem_cons_of_mem _ hmem)
      · rw [Module.name_edited, hname]
      · rw [Module.scope_edited, hscope]
  exact hrun m₀ rfl rfl

end HeaderReflection
