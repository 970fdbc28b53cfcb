import HeaderReflection.Proofs.Header.Declared
import HeaderReflection.Proofs.Lineage.Renumbering

/-!
# The order of the headers

The headers of a module can be read in any order: resolution sorts the types, and what it makes of them does not depend
on the numbers they have got on the way. What no sorting repairs, the package directive and the overrides, may stand in
one header only.

## Main definitions

- `Declaration.le`: the order of types, on their declarations.

## Main results

- `sorted_entriesOf`: sorted types are the sorted declarations, up to their numbers.
- `inOrder_congr`: permuted declarations are put into the same order.
- `scan_order_irrelevant`: the order of the headers does not matter.
-/

namespace HeaderReflection

/-! ## §1 Sorted types -/

/-- The order of types, on their declarations. -/
def Declaration.le (a b : Declaration) : Bool :=
  Entry.le { toDeclaration := a, serial := 0 } { toDeclaration := b, serial := 0 }

theorem Declaration.le_iff {a b : Declaration} :
    a.le b = true ↔ if a.fullName = b.fullName then a.kind.code ≤ b.kind.code else Text.le a.fullName b.fullName := by
  unfold Declaration.le Entry.le
  split <;> simp

theorem Declaration.le_total (a b : Declaration) : a.le b = true ∨ b.le a = true := by
  rw [Declaration.le_iff, Declaration.le_iff]
  by_cases h : a.fullName = b.fullName
  · rw [if_pos h, if_pos h.symm]
    exact Int.le_total _ _
  · rw [if_neg h, if_neg (Ne.symm h)]
    exact Text.le_total _ _

theorem Declaration.le_trans (a b c : Declaration) (hab : a.le b = true) (hbc : b.le c = true) : a.le c = true := by
  rw [Declaration.le_iff] at hab hbc ⊢
  by_cases hab' : a.fullName = b.fullName
  · rw [if_pos hab'] at hab
    rw [hab']
    by_cases hbc' : b.fullName = c.fullName
    · rw [if_pos hbc'] at hbc ⊢
      omega
    · rwa [if_neg hbc'] at hbc ⊢
  · rw [if_neg hab'] at hab
    by_cases hbc' : b.fullName = c.fullName
    · rwa [← hbc', if_neg hab']
    · rw [if_neg hbc'] at hbc
      have hac : a.fullName ≠ c.fullName := by
        intro hac
        rw [← hac] at hbc
        exact hab' (Text.le_antisymm hab hbc)
      rw [if_neg hac]
      exact Text.le_trans hab hbc

theorem Kind.eq_of_code_eq {k k' : Kind} (hk : k.isKnown = true) (hk' : k'.isKnown = true) (h : k.code = k'.code) :
    k = k' := by
  cases k <;> cases k' <;> simp_all [Kind.code, Kind.isKnown]

/-- Types of known kind that may precede each other have the same full name and kind. -/
theorem Declaration.key_eq_of_le {a b : Declaration} (ha : a.kind.isKnown = true) (hb : b.kind.isKnown = true)
    (hab : a.le b = true) (hba : b.le a = true) : (a.fullName, a.kind) = (b.fullName, b.kind) := by
  rw [Declaration.le_iff] at hab hba
  by_cases h : a.fullName = b.fullName
  · rw [if_pos h] at hab
    rw [if_pos h.symm] at hba
    rw [h, Kind.eq_of_code_eq ha hb (Int.le_antisymm hab hba)]
  · rw [if_neg h] at hab
    rw [if_neg (Ne.symm h)] at hba
    exact absurd (Text.le_antisymm hab hba) h

theorem map_toDeclaration_entriesOf (ds : List Declaration) : (entriesOf ds).map (·.toDeclaration) = ds := by
  rw [entriesOf, List.map_map]
  exact List.zipIdx_map_fst 0 ds

theorem map_serial_entriesOf (ds : List Declaration) : (entriesOf ds).map (·.serial) = List.range ds.length := by
  rw [entriesOf, List.map_map, List.range_eq_range']
  exact List.zipIdx_map_snd 0 ds

theorem mem_entriesOf {ds : List Declaration} {e : Entry} (h : e ∈ entriesOf ds) : e.parent = none ∧ e.id = [] := by
  obtain ⟨pair, -, rfl⟩ := List.mem_map.mp h
  exact ⟨rfl, rfl⟩

@[simp] theorem length_entriesOf (ds : List Declaration) : (entriesOf ds).length = ds.length := by
  simp [entriesOf]

theorem getElem_entriesOf (ds : List Declaration) (i : Nat) (h : i < ds.length) (h' : i < (entriesOf ds).length) :
    (entriesOf ds)[i] = { toDeclaration := ds[i], serial := i } := by
  simp [entriesOf]

/-- A list that holds the first numbers, each once, numbers them anew. -/
theorem exists_renumbering {serials : List Nat} {n : Nat} (h : serials.Perm (List.range n)) :
    ∃ f : Nat → Nat, Function.Injective f ∧ ∀ i (hi : i < serials.length), f i = serials[i] := by
  have hlength : serials.length = n := by simpa using h.length_eq
  have hnodup : serials.Nodup := h.nodup_iff.mpr List.nodup_range
  have hlt : ∀ i (hi : i < serials.length), serials[i] < n := by
    intro i hi
    exact List.mem_range.mp (h.mem_iff.mp (List.getElem_mem hi))
  refine ⟨fun i => if hi : i < serials.length then serials[i] else i, ?_, fun i hi => dif_pos hi⟩
  -- below the length the list decides, above it every number stays; the two never meet
  intro i j hij
  dsimp only at hij
  by_cases hi : i < serials.length
  · have hbound := hlt i hi
    by_cases hj : j < serials.length
    · rw [dif_pos hi, dif_pos hj] at hij
      exact (List.Nodup.getElem_inj_iff hnodup).mp hij
    · rw [dif_pos hi, dif_neg hj] at hij
      omega
  · by_cases hj : j < serials.length
    · have hbound := hlt j hj
      rw [dif_neg hi, dif_pos hj] at hij
      omega
    · rwa [dif_neg hi, dif_neg hj] at hij

/-- **Sorted types are the sorted declarations**, up to their numbers. -/
theorem sorted_entriesOf (ds : List Declaration) :
    ∃ f : Nat → Nat, Function.Injective f ∧
      sortBy Entry.le (entriesOf ds) = (entriesOf (sortBy Declaration.le ds)).map (Entry.renumber f) := by
  have hperm := sortBy_perm Entry.le (entriesOf ds)
  have hserials : ((sortBy Entry.le (entriesOf ds)).map (·.serial)).Perm (List.range ds.length) := by
    rw [← map_serial_entriesOf]
    exact hperm.map _
  have hdeclarations : (sortBy Entry.le (entriesOf ds)).map (·.toDeclaration) = sortBy Declaration.le ds := by
    have hle : ∀ a b : Entry, Declaration.le a.toDeclaration b.toDeclaration = Entry.le a b := fun _ _ => rfl
    rw [map_sortBy _ hle, map_toDeclaration_entriesOf]
  obtain ⟨f, hf, hnumbers⟩ := exists_renumbering hserials
  refine ⟨f, hf, ?_⟩
  -- both lists have the same declarations in the same order, and `f` gives a position the number of its type
  apply List.ext_getElem
  · rw [List.length_map, length_entriesOf, ← hdeclarations, List.length_map]
  · intro i hi hi'
    have hfresh := mem_entriesOf (hperm.mem_iff.mp (List.getElem_mem hi))
    have hserial : f i = (sortBy Entry.le (entriesOf ds))[i].serial := by
      rw [hnumbers i (by simpa using hi), List.getElem_map]
    have hbound : i < (sortBy Declaration.le ds).length := by simpa using hi'
    have hdeclaration : (sortBy Declaration.le ds)[i] = (sortBy Entry.le (entriesOf ds))[i].toDeclaration := by
      simp only [← hdeclarations, List.getElem_map]
    rw [List.getElem_map, getElem_entriesOf _ i hbound, hdeclaration]
    cases hentry : (sortBy Entry.le (entriesOf ds))[i] with
    | mk declaration serial parent id =>
      rw [hentry] at hfresh hserial
      obtain ⟨rfl, rfl⟩ := hfresh
      simp [Entry.renumber, hserial]

/-! ## §2 Resolution of permuted types -/

/-- A declaration with what a module allows. -/
def Declaration.allowed (m : Module) (d : Declaration) : Declaration :=
  (Entry.allowed m { toDeclaration := d, serial := 0 }).toDeclaration

theorem allowed_entriesOf (m : Module) (ds : List Declaration) :
    (entriesOf ds).map (Entry.allowed m) = entriesOf (ds.map (Declaration.allowed m)) := by
  have hentry : ∀ d serial, Entry.allowed m { toDeclaration := d, serial } =
      { toDeclaration := d.allowed m, serial } := by
    intro d serial
    unfold Declaration.allowed Entry.allowed
    by_cases hmodel : m.modelTypesOverrides = true <;>
      by_cases hrender : m.renderTypesOverrides = true ∧ d.kind = .classType <;>
      simp [hmodel, hrender, Entry.withoutHandlers, Entry.withoutRenderHooks]
  unfold entriesOf
  rw [List.map_map, List.zipIdx_map, List.map_map]
  refine List.map_congr_left ?_
  rintro ⟨d, serial⟩ -
  exact hentry d serial

theorem Declaration.key_allowed (m : Module) (d : Declaration) :
    (d.allowed m).fullName = d.fullName ∧ (d.allowed m).kind = d.kind := by
  unfold Declaration.allowed Entry.allowed
  dsimp only
  split <;> split <;> exact ⟨rfl, rfl⟩

theorem Declaration.allowed_congr {m m' : Module} (h : m.settings = m'.settings) :
    Declaration.allowed m = Declaration.allowed m' := by
  have hmodel : m.modelTypesOverrides = m'.modelTypesOverrides := congrArg PackageSettings.modelTypesOverrides h
  have hrender : m.renderTypesOverrides = m'.renderTypesOverrides := congrArg PackageSettings.renderTypesOverrides h
  funext d
  unfold Declaration.allowed Entry.allowed
  rw [hmodel, hrender]

/-- A module with other types. -/
def Module.withEntries (m : Module) (entries : List Entry) : Module := { m with entries }

/-- Two modules that agree in everything but their types. -/
structure Module.SameFrame (m m' : Module) : Prop where
  name : m.name = m'.name
  scope : m.scope = m'.scope
  includes : m.includes = m'.includes
  settings : m.settings = m'.settings
  modelOverrides : m.modelOverrides = m'.modelOverrides
  renderOverrides : m.renderOverrides = m'.renderOverrides

theorem Module.SameFrame.withEntries {m m' : Module} (h : m.SameFrame m') (entries : List Entry) :
    m.withEntries entries = m'.withEntries entries := by
  obtain ⟨hname, hscope, hincludes, hsettings, hmodel, hrender⟩ := h
  simp only [Module.settings, PackageSettings.mk.injEq] at hsettings
  unfold Module.withEntries
  rw [hname, hscope, hincludes, hmodel, hrender, hsettings.1, hsettings.2.1, hsettings.2.2.1, hsettings.2.2.2.1,
    hsettings.2.2.2.2]

/-- A module with the given declarations as far as it allows them, sorted and numbered in this order. -/
def Module.inOrder (m : Module) (ds : List Declaration) : Module :=
  m.withEntries (entriesOf (sortBy Declaration.le (ds.map (Declaration.allowed m))))

theorem resolve_entriesOf {m : Module} {ds : List Declaration} (hentries : m.entries = entriesOf ds) :
    ∃ f : Nat → Nat, Function.Injective f ∧
      m.resolve = ⟨(m.inOrder ds).placed.module.renumber f, (m.inOrder ds).placed.cycle⟩ := by
  obtain ⟨f, hf, hsorted⟩ := sorted_entriesOf (ds.map (Declaration.allowed m))
  refine ⟨f, hf, ?_⟩
  have hmodule : m.dropOverrides.sorted = (m.inOrder ds).renumber f := by
    unfold Module.sorted Module.dropOverrides Module.renumber Module.inOrder Module.withEntries
    rw [hentries, allowed_entriesOf, hsorted]
  rw [Module.resolve_eq, hmodule, Module.placed_renumber hf]

/-- Permuted declarations with distinct full names and kinds have the same order when they are sorted. -/
theorem inOrder_congr {m m' : Module} {ds ds' : List Declaration} (hperm : ds.Perm ds') (hframe : m.SameFrame m')
    (hknown : ∀ d ∈ ds, d.kind.isKnown = true) (hdistinct : (ds.map fun d => (d.fullName, d.kind)).Nodup) :
    m.inOrder ds = m'.inOrder ds' := by
  have hantisymm : ∀ a ∈ ds.map (Declaration.allowed m), ∀ b ∈ ds.map (Declaration.allowed m),
      a.le b = true → b.le a = true → a = b := by
    intro a ha b hb hab hba
    obtain ⟨d, hd, rfl⟩ := List.mem_map.mp ha
    obtain ⟨d', hd', rfl⟩ := List.mem_map.mp hb
    have hkey := d.key_allowed m
    have hkey' := d'.key_allowed m
    have hsame := Declaration.key_eq_of_le (hkey.2 ▸ hknown d hd) (hkey'.2 ▸ hknown d' hd') hab hba
    rw [hkey.1, hkey.2, hkey'.1, hkey'.2] at hsame
    rw [List.inj_on_of_nodup_map hdistinct hd hd' hsame]
  have hsort : sortBy Declaration.le (ds.map (Declaration.allowed m)) =
      sortBy Declaration.le (ds'.map (Declaration.allowed m')) := by
    rw [← Declaration.allowed_congr hframe.settings]
    exact sortBy_congr Declaration.le_total Declaration.le_trans hantisymm (hperm.map _)
  unfold Module.inOrder
  rw [hsort]
  exact hframe.withEntries _

/-! ## §3 Permuted headers -/

/-- Permuted lists agree in what at most one of their elements contributes to. -/
theorem flatMap_of_perm {α β : Type} {f : α → List β} {p : α → Bool} {xs ys : List α} (hperm : xs.Perm ys)
    (hone : (xs.filter p).length ≤ 1) (hp : ∀ a ∈ xs, f a ≠ [] → p a = true) : xs.flatMap f = ys.flatMap f := by
  have hfilter : ∀ zs : List α, (∀ a ∈ zs, f a ≠ [] → p a = true) → (zs.filter p).flatMap f = zs.flatMap f := by
    intro zs hzs
    induction zs with
    | nil => rfl
    | cons z zs ih =>
      have hrest := ih fun a ha => hzs a (List.mem_cons_of_mem _ ha)
      by_cases hz : p z = true
      · rw [List.filter_cons_of_pos hz, List.flatMap_cons, List.flatMap_cons, hrest]
      · have hnone : f z = [] := by
          by_contra hne
          exact hz (hzs z List.mem_cons_self hne)
        rw [List.filter_cons_of_neg hz, List.flatMap_cons, hnone, hrest, List.nil_append]
  -- what is left of the two lists are permutations of at most one element, and so the same list
  have hsame : xs.filter p = ys.filter p := by
    have hfiltered := hperm.filter p
    cases hxs : xs.filter p with
    | nil =>
      rw [hxs] at hfiltered
      exact hfiltered.nil_eq
    | cons x rest =>
      have hsingle : xs.filter p = [x] := by
        rw [hxs] at hone ⊢
        simpa using hone
      rw [hxs] at hsingle
      rw [hxs, hsingle] at hfiltered
      rw [hsingle]
      exact List.singleton_perm.mp hfiltered
  rw [← hfilter xs hp, ← hfilter ys fun a ha => hp a (hperm.mem_iff.mpr ha), hsame]

/-- The include set does not depend on the order in which headers join it. -/
theorem foldl_insertUnique_of_perm {paths paths' : List Text} (hperm : paths.Perm paths') :
    paths.foldl (fun set path => Text.insertUnique path set) [] =
      paths'.foldl (fun set path => Text.insertUnique path set) [] := by
  -- strictly increasing lists with the same elements are equal
  apply Text.eq_of_pairwise_lt (Text.pairwise_foldl_insertUnique List.Pairwise.nil paths)
    (Text.pairwise_foldl_insertUnique List.Pairwise.nil paths')
  intro t
  rw [Text.mem_foldl_insertUnique, Text.mem_foldl_insertUnique, hperm.mem_iff]

/-! ## §4 Kinds after resolution -/

theorem mem_of_climb {entries placed : List Entry} {steps : Nat} {path way : List Entry} {e : Entry}
    (h : climb entries placed steps path e = .ok way) (he : e ∈ entries) (hpath : ∀ a ∈ path, a ∈ entries) :
    ∀ a ∈ way, a ∈ entries := by
  induction steps generalizing path e with
  | zero =>
    cases h
    exact hpath
  | succ steps ih =>
    have hlonger : ∀ a ∈ e :: path, a ∈ entries := List.forall_mem_cons.mpr ⟨he, hpath⟩
    unfold climb at h
    split at h
    · cases h
      exact hpath
    · split at h
      · cases h
      · split at h
        · cases h
          exact hlonger
        · next parent hparent =>
          obtain ⟨serial, -, hfind⟩ := Option.bind_eq_some_iff.mp hparent
          exact ih h (List.mem_of_find?_eq_some hfind) hlonger

/-- Placing adds no type. -/
theorem mem_of_placeAll {entries placed : List Entry} (h : placeAll entries = .ok placed) :
    ∀ e ∈ placed, e ∈ entries := by
  have hrun : ∀ rest before after : List Entry, rest.foldlM (placeNext entries) before = .ok after →
      (∀ e ∈ rest, e ∈ entries) → (∀ e ∈ before, e ∈ entries) → ∀ e ∈ after, e ∈ entries := by
    intro rest
    induction rest with
    | nil =>
      intro before after hrun _ hbefore
      cases hrun
      exact hbefore
    | cons e rest ih =>
      intro before after hrun hrest hbefore
      rw [List.foldlM_cons] at hrun
      obtain ⟨next, hnext, hrun⟩ := bind_ok hrun
      obtain ⟨way, hway, hplaced⟩ := bind_ok hnext
      cases hplaced
      refine ih _ after hrun (fun a ha => hrest a (List.mem_cons_of_mem _ ha)) fun a ha => ?_
      rcases List.mem_append.mp ha with ha | ha
      · exact hbefore a ha
      · exact mem_of_climb hway (hrest e List.mem_cons_self) (by simp) a ha
  exact hrun entries [] placed h (fun _ he => he) (by simp)

/-- **Resolution invents no type**: every type comes from one that was declared, with its name and its kind. A type
without an id gets the one that goes with its name, unless a cycle ends the resolution before. -/
theorem exists_of_mem_resolve {m : Module} {e : Entry} (he : e ∈ m.resolve.module.entries) :
    ∃ e' ∈ m.entries, e.name = e'.name ∧ e.kind = e'.kind ∧
      (m.resolve.cycle = none → e'.id = [] → e.id = typeId m.name e'.name) := by
  have hlinked : ∀ e ∈ m.dropOverrides.sorted.linked.entries,
      ∃ e' ∈ m.entries, e.name = e'.name ∧ e.kind = e'.kind ∧ e.id = e'.id := by
    intro e he
    obtain ⟨sorted, hsorted, rfl⟩ := List.mem_map.mp he
    obtain ⟨e', he', rfl⟩ := List.mem_map.mp (mem_sortBy.mp hsorted)
    refine ⟨e', he', ?_⟩
    unfold Entry.linkedAmong Entry.allowed
    dsimp only
    split <;> split <;> split <;> exact ⟨rfl, rfl, rfl⟩
  rw [Module.resolve_eq, Module.placed] at he ⊢
  split at he
  · -- a cycle leaves the types as they have been linked, without ids
    obtain ⟨e', he', hname, hkind, -⟩ := hlinked e he
    refine ⟨e', he', hname, hkind, ?_⟩
    intro hcycle
    cases hcycle
  · next placed hplaced =>
    obtain ⟨p, hp, rfl⟩ := List.mem_map.mp he
    obtain ⟨e', he', hname, hkind, hid⟩ := hlinked p (mem_of_placeAll hplaced p hp)
    have hsame : (Entry.identified m.dropOverrides.sorted.linked p).name = p.name ∧
        (Entry.identified m.dropOverrides.sorted.linked p).kind = p.kind := by
      unfold Entry.identified
      split <;> exact ⟨rfl, rfl⟩
    refine ⟨e', he', by rw [hsame.1, hname], by rw [hsame.2, hkind], fun _ hnoId => ?_⟩
    unfold Entry.identified
    rw [if_pos (hid.trans hnoId), ← hname]
    rfl

theorem isKnown_of_resolve {m : Module} (hknown : ∀ e ∈ m.entries, e.kind.isKnown = true) :
    ∀ e ∈ m.resolve.module.entries, e.kind.isKnown = true := by
  intro e he
  obtain ⟨e', he', -, hkind, -⟩ := exists_of_mem_resolve he
  rw [hkind]
  exact hknown e' he'

theorem Module.emit_ok {m : Module} (hknown : ∀ e ∈ m.entries, e.kind.isKnown = true) (layout : Layout) :
    ∃ files, m.emit layout = .ok files := by
  have hnone : m.unknownKind? = none := by
    unfold Module.unknownKind?
    rw [Option.map_eq_none_iff, List.find?_eq_none]
    intro e he
    simp [hknown e he]
  unfold Module.emit
  rw [hnone]
  exact ⟨_, rfl⟩

/-! ## §5 The order of the headers -/

/-- A header read on its own, into a module without types. -/
def readAlone (name scope : Text) (header : Text × Text) : HeaderOutcome :=
  (Module.empty name scope).readHeader header.1 header.2

/-- Whether a header has a package directive. -/
def hasPackage (name scope : Text) (header : Text × Text) : Bool :=
  ((Module.empty name scope).headerReading header.1 header.2).1.packageSeen

/-- Headers whose order does not matter: none has a fault, their types differ in full name or kind, and no two of them
have a package directive, model overrides or render overrides. -/
structure Scannable (name scope : Text) (headers : List (Text × Text)) : Prop where
  faultless : ∀ header ∈ headers, (readAlone name scope header).error = none
  distinct : ((headers.flatMap fun header => (readAlone name scope header).declared).map
    fun d => (d.fullName, d.kind)).Nodup
  onePackage : (headers.filter (hasPackage name scope)).length ≤ 1
  oneModel : (headers.filter fun header => (readAlone name scope header).module.modelOverrides ≠ []).length ≤ 1
  oneRender : (headers.filter fun header => (readAlone name scope header).module.renderOverrides ≠ []).length ≤ 1

/-- Reading permuted headers gives modules that differ in the order of their types only. -/
theorem Scannable.readAll {name scope : Text} {headers headers' : List (Text × Text)}
    (h : Scannable name scope headers) (hperm : headers.Perm headers') :
    ∃ m m', (Module.empty name scope).readAll headers = .ok m ∧ (Module.empty name scope).readAll headers' = .ok m' ∧
      m.SameFrame m' ∧
      m.entries = entriesOf (headers.flatMap fun header => (readAlone name scope header).declared) ∧
      m'.entries = entriesOf (headers'.flatMap fun header => (readAlone name scope header).declared) := by
  -- one list of edits for each header, chosen once for both orders
  have hedits : ∀ header : Text × Text, ∃ edits : List ModuleEdit, header ∈ headers →
      (∀ m : Module, m.name = (Module.empty name scope).name → m.scope = (Module.empty name scope).scope →
        (m.readHeader header.1 header.2).module = m.edited edits ∧ (m.readHeader header.1 header.2).error = none) ∧
      edits.filterMap ModuleEdit.declared? = (readAlone name scope header).declared ∧
      (edits.filterMap ModuleEdit.package? ≠ [] → hasPackage name scope header = true) := by
    intro header
    by_cases hmem : header ∈ headers
    · obtain ⟨edits, hheader⟩ := Module.readHeader_edits _ _ _ (h.faultless header hmem)
      exact ⟨edits, fun _ => hheader⟩
    · exact ⟨[], fun hmem' => absurd hmem' hmem⟩
  choose edits hedits using hedits
  have hread : ∀ hs : List (Text × Text), (∀ header ∈ hs, header ∈ headers) →
      (Module.empty name scope).readAll hs = .ok ((Module.empty name scope).edited (hs.flatMap edits)) :=
    fun hs hhs => Module.readAll_edited fun header hmem => (hedits header (hhs header hmem)).1
  have hmem' : ∀ header ∈ headers', header ∈ headers := fun header hmem => hperm.mem_iff.mpr hmem
  have hentries : ∀ hs : List (Text × Text), (∀ header ∈ hs, header ∈ headers) →
      ((Module.empty name scope).edited (hs.flatMap edits)).entries =
        entriesOf (hs.flatMap fun header => (readAlone name scope header).declared) := by
    intro hs hhs
    have hempty : (Module.empty name scope).entries = entriesOf [] := by simp [Module.empty, entriesOf]
    rw [Module.entries_edited _ _ hempty, List.nil_append, List.filterMap_flatMap]
    congr 1
    exact List.flatMap_congr fun header hmem => (hedits header (hhs header hmem)).2.1
  have hmodule : ∀ header ∈ headers, (readAlone name scope header).module =
      (Module.empty name scope).edited (edits header) :=
    fun header hmem => ((hedits header hmem).1 _ rfl rfl).1
  refine ⟨_, _, hread headers (fun _ hmem => hmem), hread headers' hmem', ?_, hentries _ (fun _ hmem => hmem),
    hentries _ hmem'⟩
  -- the include set is a set; of the settings and the overrides at most one header has any
  constructor
  · simp
  · simp
  · rw [Module.includes_edited, Module.includes_edited]
    exact foldl_insertUnique_of_perm ((hperm.flatMap_right edits).filterMap _)
  · rw [Module.settings_edited, Module.settings_edited, List.filterMap_flatMap, List.filterMap_flatMap]
    congr 1
    exact flatMap_of_perm hperm h.onePackage fun header hmem => (hedits header hmem).2.2
  · rw [Module.modelOverrides_edited, Module.modelOverrides_edited, List.filterMap_flatMap, List.filterMap_flatMap]
    congr 1
    refine flatMap_of_perm hperm h.oneModel fun header hmem hne => ?_
    rw [hmodule header hmem, Module.modelOverrides_edited]
    simpa [Module.empty] using hne
  · rw [Module.renderOverrides_edited, Module.renderOverrides_edited, List.filterMap_flatMap, List.filterMap_flatMap]
    congr 1
    refine flatMap_of_perm hperm h.oneRender fun header hmem hne => ?_
    rw [hmodule header hmem, Module.renderOverrides_edited]
    simpa [Module.empty] using hne

/-- **The order of the headers does not matter.** Both orders are read without a fault. Either both modules have the same
cycle of parents, or the same artifacts are generated from them at the same places, and their types stand in the same
order with the same ids and the same parents. -/
theorem scan_order_irrelevant {name scope : Text} {headers headers' : List (Text × Text)}
    (h : Scannable name scope headers) (hperm : headers.Perm headers') (layout : Layout) :
    ∃ m m', (Module.empty name scope).readAll headers = .ok m ∧ (Module.empty name scope).readAll headers' = .ok m' ∧
      ((∃ cycle, m.resolve.cycle = some cycle ∧ m'.resolve.cycle = some cycle) ∨
        (m.resolve.cycle = none ∧ m'.resolve.cycle = none ∧
          (∃ files, m.resolve.module.emit layout = .ok files ∧ m'.resolve.module.emit layout = .ok files) ∧
          m.resolve.module.lineage = m'.resolve.module.lineage)) := by
  obtain ⟨m, m', hread, hread', hframe, hentries, hentries'⟩ := h.readAll hperm
  have hknown : ∀ d ∈ headers.flatMap fun header => (readAlone name scope header).declared, d.kind.isKnown = true := by
    intro d hd
    obtain ⟨header, -, hd⟩ := List.mem_flatMap.mp hd
    exact (Module.isRead_of_mem_declared hd).kind
  -- both modules resolve to the one that has its types in order from the start, each up to its own numbers
  have hsame := inOrder_congr (hperm.flatMap_right _) hframe hknown h.distinct
  obtain ⟨f, hf, hresolve⟩ := resolve_entriesOf hentries
  obtain ⟨f', hf', hresolve'⟩ := resolve_entriesOf hentries'
  rw [← hsame] at hresolve'
  refine ⟨m, m', hread, hread', ?_⟩
  cases hcycle : (m.inOrder (headers.flatMap fun header => (readAlone name scope header).declared)).placed.cycle with
  | some cycle => exact Or.inl ⟨cycle, by rw [hresolve, hcycle], by rw [hresolve', hcycle]⟩
  | none =>
    obtain ⟨files, hfiles⟩ : ∃ files, m.resolve.module.emit layout = .ok files := by
      apply Module.emit_ok
      apply isKnown_of_resolve
      rw [hentries]
      intro e he
      exact hknown _ (by rw [← map_toDeclaration_entriesOf (headers.flatMap _)]; exact List.mem_map_of_mem he)
    -- neither artifacts nor the lineage show numbers
    refine Or.inr ⟨by rw [hresolve, hcycle], by rw [hresolve', hcycle], ⟨files, hfiles, ?_⟩, ?_⟩
    · rw [hresolve, Module.emit_renumber hf] at hfiles
      rw [hresolve', Module.emit_renumber hf', hfiles]
    · rw [hresolve, hresolve', Module.lineage_renumber hf, Module.lineage_renumber hf']

/-- A child and its parent in two headers, the second of which also has the package directive and overrides. -/
theorem scan_order_of_child_and_parent :
    ∃ child parent : Text × Text, Scannable "m" "" [child, parent] ∧
      ∃ m m', (Module.empty "m" "").readAll [child, parent] = .ok m ∧
        (Module.empty "m" "").readAll [parent, child] = .ok m' ∧
        (∃ files, m.resolve.module.emit ⟨"out", "m"⟩ = .ok files ∧ m'.resolve.module.emit ⟨"out", "m"⟩ = .ok files) ∧
        m.resolve.module.lineage = m'.resolve.module.lineage ∧
        m.resolve.module.entries.map (·.name) = ["a", "b"] := by
  let child : Text × Text := ("b.h", "AGEA_ar_class()\nclass b : public a\n")
  let parent : Text × Text :=
    ("a.h", "AGEA_ar_package(dependencies = c)\nAGEA_ar_model_overrides()\nAGEA_ar_class()\nclass a\n")
  have hscannable : Scannable "m" "" [child, parent] := by
    constructor <;> decide +kernel
  have hresolved : ((Module.empty "m" "").readAll [child, parent]).map
      (fun m => (m.resolve.cycle, m.resolve.module.entries.map (·.name))) = .ok (none, ["a", "b"]) := by
    decide +kernel
  obtain ⟨m, m', hread, hread', hcycle | ⟨-, -, hfiles, hlineage⟩⟩ :=
    scan_order_irrelevant hscannable (List.Perm.swap parent child []) ⟨"out", "m"⟩
  · obtain ⟨cycle, hcycle, -⟩ := hcycle
    rw [hread, Except.map, hcycle] at hresolved
    simp at hresolved
  · rw [hread, Except.map] at hresolved
    exact ⟨child, parent, hscannable, m, m', hread, hread', hfiles, hlineage,
      congrArg Prod.snd (Except.ok.inj hresolved)⟩

end HeaderReflection
