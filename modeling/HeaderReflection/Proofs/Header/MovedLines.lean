import HeaderReflection.Proofs.Header.AttributeOrder
import HeaderReflection.Proofs.Header.MarkedLines

/-!
# Markers on other lines

What a marker declares depends on its attribute list and on the lines of its declaration. If these are found in another
header as well, on other lines and perhaps farther apart, then the marker declares the same there, and only the line
numbers are others.

## Main definitions

- `Declaration.moved`, `Module.moved`, `HeaderReading.moved`, `HeaderOutcome.moved`: the same with other line numbers.
- `Marker.declarationTest`: what the line of a declaration passes.
- `Marker.Moves`: a marker that finds its list and its declaration on other lines.

## Main results

- `Declaration.withAttributes_moved`, `Property.withAttributes_moved`: metadata has no part in it.
- `readType_moved`, `readProperty_moved` and others: what a marker reads.
- `Takes.moved`: what a marker does to a reading.
- `readFrom_moved`: lines that all have other numbers.
-/

namespace HeaderReflection

/-! ## §1 Other line numbers -/

section Moved

variable (move : Nat → Nat)

def Property.moved (p : Property) : Property := p.onLine (move p.line)

def MemberFunction.moved (f : MemberFunction) : MemberFunction := { f with line := move f.line }

def TypeConstructor.moved (c : TypeConstructor) : TypeConstructor := { c with line := move c.line }

/-- A type with its own line number and those of its members moved. -/
def Declaration.moved (d : Declaration) : Declaration :=
  { d with
    line := move d.line
    properties := d.properties.map (Property.moved move)
    functions := d.functions.map (MemberFunction.moved move)
    constructors := d.constructors.map (TypeConstructor.moved move) }

def Entry.moved (e : Entry) : Entry := { e with toDeclaration := e.toDeclaration.moved move }

/-- A module with the types moved that stand behind the first ones. -/
def Module.moved (kept : Nat) (m : Module) : Module :=
  { m with entries := m.entries.take kept ++ (m.entries.drop kept).map (Entry.moved move) }

/-- A reading with what its header has declared moved; the types that the module has had before are kept. -/
def HeaderReading.moved (kept : Nat) (r : HeaderReading) : HeaderReading :=
  { r with
    module := r.module.moved move kept
    externals := r.externals.map (Declaration.moved move)
    openClass := r.openClass.map (Declaration.moved move)
    openStruct := r.openStruct.map (Declaration.moved move) }

/-- What reading a header gives, with what the header has declared moved. -/
def HeaderOutcome.moved (kept : Nat) (o : HeaderOutcome) : HeaderOutcome :=
  { o with
    module := o.module.moved move kept
    declared := o.declared.map (Declaration.moved move) }

variable {move} {kept : Nat}

theorem Module.moved_of_kept (m : Module) : m.moved move m.entries.length = m := by
  simp [Module.moved]

theorem Module.length_entries_moved (m : Module) : (m.moved move kept).entries.length = m.entries.length := by
  simp only [Module.moved, List.length_append, List.length_map, List.length_take, List.length_drop]
  omega

theorem Module.moved_add {m : Module} (h : kept ≤ m.entries.length) (d : Declaration) :
    (m.add d).moved move kept = (m.moved move kept).add (d.moved move) := by
  have hlength : (m.moved move kept).entries.length = m.entries.length := m.length_entries_moved
  simp only [Module.add, Module.addWithId, hlength]
  simp only [Module.moved, List.take_append_of_le_length h, List.drop_append_of_le_length h, List.map_append,
    List.append_assoc]
  rfl

theorem Module.moved_addAll {m : Module} (h : kept ≤ m.entries.length) (ds : List Declaration) :
    (m.addAll ds).moved move kept = (m.moved move kept).addAll (ds.map (Declaration.moved move)) := by
  induction ds generalizing m with
  | nil => rfl
  | cons d ds ih =>
    have hmore : kept ≤ (m.add d).entries.length := by
      simp only [Module.add, Module.addWithId, List.length_append]
      omega
    have hstep : (m.addAll (d :: ds)).moved move kept = ((m.add d).addAll ds).moved move kept := rfl
    rw [hstep, ih hmore, Module.moved_add h]
    rfl

/-- A package directive does the same whatever types there are. -/
theorem Module.withAttributes_moved {m module : Module} {attributes : List Text}
    (h : m.withAttributes attributes = (module, none)) :
    (m.moved move kept).withAttributes attributes = (module.moved move kept, none) := by
  obtain ⟨set, fault, hset⟩ := Module.withAttributes_eq attributes
  rw [hset] at h ⊢
  cases h
  rfl

variable (move) in
theorem Declaration.withAttributes_moved {d d' : Declaration} {items : List Text}
    (h : d.withAttributes items = .ok d') : (d.moved move).withAttributes items = .ok (d'.moved move) := by
  refine (typeHandling d.kind).takeAll_map (Declaration.moved move) (fun _ hkind => hkind) (fun a d => ?_) rfl h
  cases a with
  | text key value => cases key <;> rfl
  | builtIn flag => rfl
  | scriptSupport flag => rfl

variable (move) in
theorem Property.withAttributes_moved {p p' : Property} {items : List Text} (h : p.withAttributes items = .ok p') :
    (p.moved move).withAttributes items = .ok (p'.moved move) := by
  refine propertyHandling.takeAll_map (Property.moved move) (fun _ _ => trivial) (fun a p => ?_) trivial h
  cases a with
  | text key value => cases key <;> rfl
  | flag key value => cases key <;> rfl
  | _ => rfl

end Moved

/-! ## §2 Lists and declarations on other lines -/

/-- Whether the attribute list of a marker is read. -/
def Marker.hasList : Marker → Bool
  | .modelOverrides => false
  | .renderOverrides => false
  | _ => true

theorem Marker.hasList_of_declares {marker : Marker} (h : marker.declares = true) : marker.hasList = true := by
  cases marker <;> first | rfl | cases h

/-- What the line of a marker's declaration passes: functions are looked for by their parentheses. -/
def Marker.declarationTest : Marker → Text → Bool
  | .function => (·.contains (Text.byte '('))
  | _ => (!isIdleLine ·)

/-- The first line behind the attribute list that passes for the declaration of a marker. -/
def Marker.declaration? (marker : Marker) (listEnd : Nat) (lines : List Text) : Option (Nat × Text) :=
  findLine? marker.declarationTest (listEnd + 1) (lines.drop (listEnd + 1))

/-- A marker finds the same attribute list on other lines, and the same declaration some lines farther away. The lines
from which something is recorded are moved. -/
structure Marker.Moves (marker : Marker) (move : Nat → Nat) (number gap : Nat) (lines lines' : List Text) : Prop where
  list : marker.hasList = true → ∀ found, AttributeList.extract lines = .ok found →
    AttributeList.extract lines' = .ok found
  declaration : marker.declares = true → ∀ listEnd items index line,
    AttributeList.extract lines = .ok (listEnd, items) → marker.declaration? listEnd lines = some (index, line) →
      marker.declaration? listEnd lines' = some (index + gap, line) ∧
      move (number + index) = move number + (index + gap) ∧
      (marker = .constructor → ∀ found, signature? (lines.drop index) = some found →
        signature? (lines'.drop (index + gap)) = some found)
  other : marker.declares = false → gap = 0

theorem attributesAt_eq_ok_iff {marker : Marker} {lines : List Text} {found : Nat × List Text} :
    attributesAt marker lines = .ok found ↔ AttributeList.extract lines = .ok found := by
  unfold attributesAt
  split
  · next result hextract => rw [hextract]; simp
  · next hextract => simp [hextract]
  · next hextract => simp [hextract]

/-- The line of a declaration that is not that of a function. -/
theorem declarationAt_eq_ok_iff {marker : Marker} (hmarker : marker ≠ .function) {listEnd : Nat} {lines : List Text}
    {found : Nat × Text} :
    declarationAt marker listEnd lines = .ok found ↔ marker.declaration? listEnd lines = some found := by
  have htest : marker.declarationTest = (!isIdleLine ·) := by
    cases marker <;> first | rfl | exact absurd rfl hmarker
  unfold declarationAt Marker.declaration?
  rw [htest]
  cases findLine? (!isIdleLine ·) (listEnd + 1) (lines.drop (listEnd + 1)) with
  | none => simp
  | some result => simp

section Readers

variable {move : Nat → Nat} {number gap : Nat} {lines lines' : List Text}

/-- What types of all kinds have in common: they are recorded with the line of their marker. -/
theorem declares_moved {marker : Marker} (hmarker : marker ≠ .function) (hdeclares : marker.declares = true)
    (hmoves : marker.Moves move number gap lines lines') {build build' : Text × List Text → Declaration}
    (hbuild : ∀ names, build' names = (build names).moved move) {index : Nat} {d : Declaration}
    (h : (attributesAt marker lines >>= fun list => declarationAt marker list.1 lines >>= fun declared =>
      typeNamesAt declared.1 declared.2 >>= fun names => atAttributes ((build names).withAttributes list.2) >>=
        fun d => (pure (declared.1, d) : AtMarker (Nat × Declaration))) = .ok (index, d)) :
    (attributesAt marker lines' >>= fun list => declarationAt marker list.1 lines' >>= fun declared =>
      typeNamesAt declared.1 declared.2 >>= fun names => atAttributes ((build' names).withAttributes list.2) >>=
        fun d => (pure (declared.1, d) : AtMarker (Nat × Declaration))) = .ok (index + gap, d.moved move) := by
  obtain ⟨⟨listEnd, items⟩, hlist, h⟩ := bind_ok h
  obtain ⟨⟨found, line⟩, hline, h⟩ := bind_ok h
  obtain ⟨names, hnames, h⟩ := bind_ok h
  obtain ⟨declared, hattributes, h⟩ := bind_ok h
  cases h
  rw [attributesAt_eq_ok_iff] at hlist
  rw [declarationAt_eq_ok_iff hmarker] at hline
  have hfound := (hmoves.declaration hdeclares _ _ _ _ hlist hline).1
  have hmetadata := Declaration.withAttributes_moved move (atAttributes_ok hattributes)
  -- only the fault of a line without names tells its distance
  have hnames' : typeNamesAt (found + gap) line = .ok names := by
    unfold typeNamesAt at hnames ⊢
    cases htokens : nameTokens line with
    | nil =>
      rw [htokens] at hnames
      cases hnames
    | cons name others =>
      rw [htokens] at hnames
      exact hnames
  refine bind_eq_ok.mpr ⟨_, attributesAt_eq_ok_iff.mpr (hmoves.list (Marker.hasList_of_declares hdeclares) _ hlist), ?_⟩
  refine bind_eq_ok.mpr ⟨_, (declarationAt_eq_ok_iff hmarker).mpr hfound, ?_⟩
  refine bind_eq_ok.mpr ⟨_, hnames', ?_⟩
  refine bind_eq_ok.mpr ⟨d.moved move, ?_, rfl⟩
  rw [hbuild, hmetadata]
  rfl

theorem readType_moved {m m' : Module} (hname : m'.fullName = m.fullName) {includePath : Text} {marker : Marker}
    (hmarker : marker ≠ .function) (hdeclares : marker.declares = true) {kind : Kind}
    (hmoves : marker.Moves move number gap lines lines') {index : Nat} {d : Declaration}
    (h : readType m includePath marker kind number lines = .ok (index, d)) :
    readType m' includePath marker kind (move number) lines' = .ok (index + gap, d.moved move) := by
  refine declares_moved hmarker hdeclares hmoves (fun names => ?_) h
  simp only [Module.qualify, hname]
  rfl

theorem readExternal_moved {includePath : Text} (hmoves : Marker.externalType.Moves move number gap lines lines')
    {index : Nat} {d : Declaration} (h : readExternal includePath number lines = .ok (index, d)) :
    readExternal includePath (move number) lines' = .ok (index + gap, d.moved move) := by
  refine declares_moved (by decide) rfl hmoves (fun names => ?_) h
  rfl

theorem readProperty_moved {owner : Text} (hmoves : Marker.property.Moves move number gap lines lines') {index : Nat}
    {p : Property} (h : readProperty owner number lines = .ok (index, p)) :
    readProperty owner (move number) lines' = .ok (index + gap, p.moved move) := by
  obtain ⟨⟨listEnd, items⟩, hlist, h⟩ := bind_ok h
  obtain ⟨⟨found, line⟩, hline, h⟩ := bind_ok h
  rw [attributesAt_eq_ok_iff] at hlist
  rw [declarationAt_eq_ok_iff (by decide)] at hline
  obtain ⟨hfound, hmove, -⟩ := hmoves.declaration rfl _ _ _ _ hlist hline
  refine bind_eq_ok.mpr ⟨_, attributesAt_eq_ok_iff.mpr (hmoves.list rfl _ hlist), ?_⟩
  refine bind_eq_ok.mpr ⟨_, (declarationAt_eq_ok_iff (by decide)).mpr hfound, ?_⟩
  dsimp only at h ⊢
  split at h
  · cases h
  · next field =>
    obtain ⟨property, hattributes, h⟩ := bind_ok h
    split at h
    · cases h
    · next hdefault =>
      cases h
      -- of all parts of a property, its line number alone depends on the distance
      have hmetadata := Property.withAttributes_moved move (atAttributes_ok hattributes)
      simp only [Property.moved, Property.onLine, hmove] at hmetadata
      refine bind_eq_ok.mpr ⟨p.moved move, ?_, ?_⟩
      · rw [hmetadata]
        rfl
      · exact if_neg hdefault

theorem readFunction_moved (hmoves : Marker.function.Moves move number gap lines lines') {index : Nat}
    {declared : MemberFunction} (h : readFunction number lines = .ok (index, declared)) :
    readFunction (move number) lines' = .ok (index + gap, declared.moved move) := by
  obtain ⟨⟨listEnd, items⟩, hlist, h⟩ := bind_ok h
  rw [attributesAt_eq_ok_iff] at hlist
  refine bind_eq_ok.mpr ⟨_, attributesAt_eq_ok_iff.mpr (hmoves.list rfl _ hlist), ?_⟩
  dsimp only at h ⊢
  split at h
  · cases h
  · next found line hline =>
    obtain ⟨hfound, hmove, -⟩ := hmoves.declaration rfl _ _ _ _ hlist hline
    have hfound : findLine? (·.contains (Text.byte '(')) (listEnd + 1) (lines'.drop (listEnd + 1)) =
        some (found + gap, line) := hfound
    rw [hfound]
    dsimp only
    split at h
    · cases h
    · next name =>
      cases h
      simp only [MemberFunction.moved, hmove]

theorem readConstructor_moved (hmoves : Marker.constructor.Moves move number gap lines lines') {taken : Nat}
    {declared : TypeConstructor} (h : readConstructor number lines = .ok (taken, declared)) :
    readConstructor (move number) lines' = .ok (taken + gap, declared.moved move) := by
  obtain ⟨⟨listEnd, items⟩, hlist, h⟩ := bind_ok h
  obtain ⟨⟨found, line⟩, hline, h⟩ := bind_ok h
  rw [attributesAt_eq_ok_iff] at hlist
  rw [declarationAt_eq_ok_iff (by decide)] at hline
  obtain ⟨hfound, hmove, hsignature⟩ := hmoves.declaration rfl _ _ _ _ hlist hline
  refine bind_eq_ok.mpr ⟨_, attributesAt_eq_ok_iff.mpr (hmoves.list rfl _ hlist), ?_⟩
  refine bind_eq_ok.mpr ⟨_, (declarationAt_eq_ok_iff (by decide)).mpr hfound, ?_⟩
  dsimp only at h ⊢
  split at h
  · cases h
  · next length signature hread =>
    cases h
    rw [hsignature rfl _ hread]
    simp only [TypeConstructor.moved, hmove, Nat.add_right_comm]

end Readers

namespace HeaderReading

/-! ## §3 Readings -/

variable {r after : HeaderReading} {marker : Marker} {number taken gap kept : Nat} {lines lines' : List Text}
  {move : Nat → Nat}

/-- What a marker does is what it is dispatched to. -/
theorem Takes.dispatch (h : r.Takes number lines marker after taken) :
    r.dispatch marker number lines = (after, .ok taken) := by
  cases h with
  | modelOverrides => rfl
  | renderOverrides => rfl
  | package first list metadata =>
    simp [HeaderReading.dispatch, readPackage, first, list, metadata]
  | externalType read => simp [HeaderReading.dispatch, step, read]
  | classType closed read => simp [HeaderReading.dispatch, step, closed, read]
  | structType closed read => simp [HeaderReading.dispatch, step, closed, read]
  | property opened read => simp [HeaderReading.dispatch, step, opened, read]
  | constructor opened read => simp [HeaderReading.dispatch, step, opened, read]
  | functionOfClass latest opened read => simp [HeaderReading.dispatch, step, latest, opened, read]
  | functionOfStruct latest opened read => simp [HeaderReading.dispatch, step, latest, opened, read]

/-- A module only gets more types. -/
theorem Takes.entries_le (h : r.Takes number lines marker after taken) :
    r.module.entries.length ≤ after.module.entries.length := by
  cases h with
  | @package _ attributes module first list metadata =>
    have hentries := Module.part_withAttributes r.module Module.entries (fun _ _ => rfl) attributes
    rw [metadata] at hentries
    exact (congrArg List.length hentries).ge
  | externalType read => simp [Module.add, Module.addWithId]
  | _ => exact le_rfl

/-- **A marker does the same on other lines**, with the line numbers moved. -/
theorem Takes.moved (h : r.Takes number lines marker after taken) (hmoves : marker.Moves move number gap lines lines')
    (hkept : kept ≤ r.module.entries.length) :
    (r.moved move kept).Takes (move number) lines' marker (after.moved move kept) (taken + gap) := by
  cases h with
  | modelOverrides =>
    rw [hmoves.other rfl]
    exact .modelOverrides
  | renderOverrides =>
    rw [hmoves.other rfl]
    exact .renderOverrides
  | package first list metadata =>
    -- a package directive looks for nothing behind its list
    rw [hmoves.other rfl]
    rw [attributesAt_eq_ok_iff] at list
    exact .package first (attributesAt_eq_ok_iff.mpr (hmoves.list rfl _ list)) (Module.withAttributes_moved metadata)
  | externalType read =>
    -- the type joins the module at once, behind those that are kept
    have htakes := Takes.externalType (r := r.moved move kept) (readExternal_moved hmoves read)
    simpa only [HeaderReading.moved, Module.moved_add hkept, List.map_append, List.map_singleton] using htakes
  | classType closed read =>
    exact .classType (by simp [HeaderReading.moved, closed]) (readType_moved rfl (by decide) rfl hmoves read)
  | structType closed read =>
    exact .structType (by simp [HeaderReading.moved, closed]) (readType_moved rfl (by decide) rfl hmoves read)
  | @property _ outer property opened read =>
    have hopened : (r.moved move kept).openClass = some (outer.moved move) := by simp [HeaderReading.moved, opened]
    have htakes := Takes.property hopened (readProperty_moved hmoves read)
    simpa [HeaderReading.moved, Declaration.moved] using htakes
  | @constructor _ outer declared opened read =>
    have hopened : (r.moved move kept).openStruct = some (outer.moved move) := by simp [HeaderReading.moved, opened]
    have htakes := Takes.constructor hopened (readConstructor_moved hmoves read)
    simpa [HeaderReading.moved, Declaration.moved] using htakes
  | @functionOfClass _ outer declared latest opened read =>
    have hopened : (r.moved move kept).openClass = some (outer.moved move) := by simp [HeaderReading.moved, opened]
    have htakes := Takes.functionOfClass (r := r.moved move kept) latest hopened (readFunction_moved hmoves read)
    simpa [HeaderReading.moved, Declaration.moved] using htakes
  | @functionOfStruct _ outer declared latest opened read =>
    have hopened : (r.moved move kept).openStruct = some (outer.moved move) := by simp [HeaderReading.moved, opened]
    have htakes := Takes.functionOfStruct (r := r.moved move kept) latest hopened (readFunction_moved hmoves read)
    simpa [HeaderReading.moved, Declaration.moved] using htakes

/-- Behind a marker without a fault, the lines go on that it has not taken. -/
theorem Takes.readFrom {line : Text} (hmarker : Marker.ofLine? line = some marker)
    (h : r.Takes number (line :: lines) marker after taken) :
    r.readFrom 0 number (line :: lines) = after.readFrom taken (number + 1) lines := by
  rw [HeaderReading.readFrom, hmarker]
  dsimp only
  rw [h.dispatch]

/-- A marker in lines that are read without a fault has no fault. -/
theorem exists_takes {line : Text} (hmarker : Marker.ofLine? line = some marker)
    (h : r.readFrom 0 number (line :: lines) = (after, none)) :
    ∃ next taken, r.Takes number (line :: lines) marker next taken ∧
      next.readFrom taken (number + 1) lines = (after, none) := by
  rw [readFrom, hmarker] at h
  dsimp only at h
  split at h
  · next next taken hdispatch => exact ⟨next, taken, takes_of_dispatch hdispatch, h⟩
  · cases h

/-- **Lines that all have other numbers** are read alike. -/
theorem readFrom_moved {count : Nat} (h : r.readFrom taken number lines = (after, none))
    (hmove : ∀ k, number ≤ k → move k = k + count) (hkept : kept ≤ r.module.entries.length) :
    (r.moved move kept).readFrom taken (number + count) lines = (after.moved move kept, none) := by
  induction lines generalizing r taken number with
  | nil =>
    rw [readFrom] at h ⊢
    cases h
    rfl
  | cons line lines ih =>
    have hnext : ∀ k, number + 1 ≤ k → move k = k + count := fun k hk => hmove k (by omega)
    cases taken with
    | succ taken =>
      rw [readFrom] at h ⊢
      rw [Nat.add_right_comm]
      exact ih h hnext hkept
    | zero =>
      cases hmarker : Marker.ofLine? line with
      | none =>
        rw [readFrom, hmarker] at h ⊢
        rw [Nat.add_right_comm]
        exact ih h hnext hkept
      | some marker =>
        obtain ⟨next, taken, htakes, h⟩ := exists_takes hmarker h
        -- the lines are the same, and all of them have moved by the same number
        have hmoves : marker.Moves move number 0 (line :: lines) (line :: lines) := by
          refine ⟨fun _ _ => id, fun _ listEnd items index found _ hfound => ⟨hfound, ?_, fun _ _ => id⟩, fun _ => rfl⟩
          rw [hmove _ (Nat.le_add_right _ _), hmove _ le_rfl]
          omega
        have htakes' := htakes.moved hmoves hkept
        rw [hmove number le_rfl] at htakes'
        rw [htakes'.readFrom hmarker, Nat.add_right_comm]
        exact ih h hnext (hkept.trans htakes.entries_le)

theorem opened_moved (r : HeaderReading) : (r.moved move kept).opened = r.opened.map (Declaration.moved move) := by
  simp [opened, HeaderReading.moved, Option.toList_map]

/-- What a reading gives at the end of its header, with its line numbers moved. -/
theorem outcome_moved (hkept : kept ≤ r.module.entries.length) (path : Text) :
    (⟨((r.moved move kept).module.addAll (r.moved move kept).opened).addInclude path,
        (r.moved move kept).externals ++ (r.moved move kept).opened, none⟩ : HeaderOutcome) =
      HeaderOutcome.moved move kept ⟨(r.module.addAll r.opened).addInclude path, r.externals ++ r.opened, none⟩ := by
  have hmodule : (r.moved move kept).module = r.module.moved move kept := rfl
  have hexternals : (r.moved move kept).externals = r.externals.map (Declaration.moved move) := rfl
  rw [opened_moved, hmodule, hexternals, ← Module.moved_addAll hkept, ← List.map_append]
  rfl

end HeaderReading

end HeaderReflection
