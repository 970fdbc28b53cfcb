import HeaderReflection.Proofs.Header.Context

/-!
# Reading only appends

What a header leaves in a module, with a fault and without one. Types, overrides and includes that the module has already
stay as they are, and what the header adds is told by its marked lines up to the fault. External types and overrides join
the module at once, the class and the struct only at the end. The header is registered as an include at the end as well,
but by a marker of overrides at once, so that a fault behind such a marker leaves it registered.

None of this depends on what the module has got before, apart from its name and its namespace.

## Main definitions

- `entriesFrom`: types that join a module.
- `externalsAt`: the external types at marked lines.
- `Module.GrownBy`: a module and what it has become by some marked lines.

## Main results

- `HeaderReading.stopped_of_dispatch`: what a marker with a fault leaves behind.
- `Grown.step`: what a marker without a fault adds.
- `readHeader_uniform`: what a header adds is the same for all modules of a name and a namespace.
- `readHeader_appends`: all of a header.
-/

namespace HeaderReflection

/-! ## §1 Includes -/

namespace Text

/-- Nothing gets lost from a set when a text is added. -/
theorem sublist_insertUnique (t : Text) (set : List Text) : set.Sublist (insertUnique t set) := by
  induction set with
  | nil => exact List.nil_sublist _
  | cons s set ih =>
    rw [insertUnique]
    split
    · exact ih.cons_cons s
    · split
      · exact List.Sublist.refl _
      · exact List.sublist_cons_self t _

theorem insertUnique_insertUnique (t : Text) (set : List Text) :
    insertUnique t (insertUnique t set) = insertUnique t set := by
  have hself : ∀ rest, insertUnique t (t :: rest) = t :: rest := by
    intro rest
    rw [insertUnique, if_neg (by simp [lt_irrefl]), if_pos rfl]
  -- the text is found where it was put: behind those that are less, and before the others
  induction set with
  | nil => exact hself []
  | cons s set ih =>
    rw [insertUnique]
    split
    · next hlt => rw [insertUnique, if_pos hlt, ih]
    · next hlt =>
      split
      · next heq =>
        rw [heq]
        exact hself set
      · exact hself _

end Text

/-! ## §2 Types that join a module -/

/-- Types in a module that have joined it one after the other, the first with the given serial number. -/
def entriesFrom (serial : Nat) (ds : List Declaration) : List Entry :=
  (ds.zipIdx serial).map fun (d, serial) => { toDeclaration := d, serial }

theorem entriesFrom_append (serial : Nat) (ds es : List Declaration) :
    entriesFrom serial (ds ++ es) = entriesFrom serial ds ++ entriesFrom (serial + ds.length) es := by
  rw [entriesFrom, List.zipIdx_append, List.map_append]
  rfl

theorem length_entriesFrom (serial : Nat) (ds : List Declaration) : (entriesFrom serial ds).length = ds.length := by
  rw [entriesFrom, List.length_map, List.length_zipIdx]

theorem Module.entries_addAll (m : Module) (ds : List Declaration) :
    (m.addAll ds).entries = m.entries ++ entriesFrom m.entries.length ds := by
  induction ds generalizing m with
  | nil => exact (List.append_nil _).symm
  | cons d ds ih =>
    show ((m.add d).addAll ds).entries = _
    rw [ih]
    simp [Module.add, Module.addWithId, entriesFrom]

/-- Adding types changes nothing but the types. -/
theorem Module.addAll_keeps (m : Module) (ds : List Declaration) :
    (m.addAll ds).includes = m.includes ∧ (m.addAll ds).modelOverrides = m.modelOverrides ∧
      (m.addAll ds).renderOverrides = m.renderOverrides := by
  induction ds generalizing m with
  | nil => exact ⟨rfl, rfl, rfl⟩
  | cons d ds ih => exact ih (m.add d)

/-- The external types at marked lines. -/
def externalsAt (includePath : Text) (marked : List MarkedLine) : List Declaration :=
  marked.flatMap fun s => if s.marker = .externalType then (readExternal includePath s.number s.lines).found else []

theorem externalsAt_append (includePath : Text) (marked others : List MarkedLine) :
    externalsAt includePath (marked ++ others) = externalsAt includePath marked ++ externalsAt includePath others :=
  List.flatMap_append

/-! ## §3 What a marker leaves behind -/

/-- Whether a marker is one of overrides. -/
def Marker.isOverrides (marker : Marker) : Bool := marker = .modelOverrides || marker = .renderOverrides

namespace HeaderReading

variable {r after : HeaderReading} {marker : Marker} {number : Nat} {lines : List Text} {fault : Nat × HeaderFault}

theorem step_error {α : Type} {result : AtMarker (Nat × α)} {next : α → HeaderReading}
    (h : r.step result next = (after, .error fault)) : after = r := by
  cases result with
  | error fault =>
    cases h
    rfl
  | ok found => cases h

theorem stopped_of_readPackage (h : r.readPackage lines = (after, .error fault)) :
    ∃ settings packageSeen, after = { r with module := r.module.withSettings settings, packageSeen } := by
  unfold readPackage at h
  split at h
  · cases h
    exact ⟨r.module.settings, r.packageSeen, rfl⟩
  · dsimp only at h
    split at h
    · cases h
      exact ⟨r.module.settings, true, rfl⟩
    · next listEnd attributes hlist =>
      -- the attributes before the one with the fault have been taken
      obtain ⟨set, fault', hset⟩ := Module.withAttributes_eq attributes
      rw [hset] at h
      split at h
      · cases h
      · next module fault'' hmodule =>
        cases hmodule
        cases h
        exact ⟨set r.module.settings, true, rfl⟩

/-- **What a marker with a fault leaves behind**: nothing, but for a package directive, which may have set something
already. -/
theorem stopped_of_dispatch (h : r.dispatch marker number lines = (after, .error fault)) :
    ∃ settings packageSeen, after = { r with module := r.module.withSettings settings, packageSeen } := by
  by_cases hmarker : marker = .package
  · subst hmarker
    exact stopped_of_readPackage h
  · -- any other marker with a fault has been refused, or what was read for it has the fault
    have hform := form_of_dispatch r hmarker number lines
    rw [h] at hform
    generalize hstep : (after, Except.error fault) = step at hform
    cases hform with
    | taken after => cases hstep
    | refused fault =>
      cases hstep
      exact ⟨r.module.settings, r.packageSeen, rfl⟩
    | read next within =>
      rw [step_error hstep.symm]
      exact ⟨r.module.settings, r.packageSeen, rfl⟩

end HeaderReading

/-- What a marked line adds: an external type, or the header as one of overrides, which also makes it an include. -/
structure Adds (s : MarkedLine) (r after : HeaderReading) : Prop where
  includePath : after.includePath = r.includePath
  externals : after.externals = r.externals ++ externalsAt r.includePath [s]
  entries : after.module.entries =
    r.module.entries ++ entriesFrom r.module.entries.length (externalsAt r.includePath [s])
  includes : after.module.includes =
    if s.marker.isOverrides then Text.insertUnique r.includePath r.module.includes else r.module.includes
  modelOverrides : after.module.modelOverrides =
    r.module.modelOverrides ++ List.replicate ([s.marker].count .modelOverrides) r.includePath
  renderOverrides : after.module.renderOverrides =
    r.module.renderOverrides ++ List.replicate ([s.marker].count .renderOverrides) r.includePath

/-- Nothing is added where no more than settings of the module are changed. -/
theorem adds_nothing {s : MarkedLine} {r after : HeaderReading} (hoverrides : s.marker.isOverrides = false)
    (hexternal : s.marker ≠ .externalType) {settings : PackageSettings}
    (hmodule : after.module = r.module.withSettings settings) (hpath : after.includePath = r.includePath)
    (hexternals : after.externals = r.externals) : Adds s r after := by
  have hnone : externalsAt r.includePath [s] = [] := by
    rw [externalsAt, List.flatMap_singleton, if_neg hexternal]
  have hcount : ∀ marker : Marker, marker.isOverrides = true → [s.marker].count marker = 0 := by
    intro marker hmarker
    refine List.count_eq_zero.mpr fun hmem => ?_
    rw [List.mem_singleton.mp hmem, hoverrides] at hmarker
    cases hmarker
  constructor
  case includePath => exact hpath
  case externals => rw [hnone, List.append_nil, hexternals]
  case entries =>
    rw [hnone, hmodule]
    exact (List.append_nil _).symm
  case includes =>
    rw [hoverrides, hmodule]
    rfl
  case modelOverrides =>
    rw [hcount _ rfl, hmodule]
    exact (List.append_nil _).symm
  case renderOverrides =>
    rw [hcount _ rfl, hmodule]
    exact (List.append_nil _).symm

/-- **What a marker without a fault adds.** -/
theorem adds_of_takes {s : MarkedLine} {r after : HeaderReading} {taken : Nat}
    (h : r.Takes s.number s.lines s.marker after taken) : Adds s r after := by
  have hsame : r.module = r.module.withSettings r.module.settings := rfl
  obtain ⟨marker, number, lines⟩ := s
  -- only overrides, the package directive and external types reach the module
  cases h with
  | modelOverrides => exact ⟨rfl, (List.append_nil _).symm, (List.append_nil _).symm, rfl, rfl, (List.append_nil _).symm⟩
  | renderOverrides => exact ⟨rfl, (List.append_nil _).symm, (List.append_nil _).symm, rfl, (List.append_nil _).symm, rfl⟩
  | @package _ attributes module first list metadata =>
    obtain ⟨set, fault, hset⟩ := Module.withAttributes_eq attributes
    rw [hset] at metadata
    cases metadata
    exact adds_nothing rfl (by simp) rfl rfl rfl
  | @externalType _ d read =>
    have hnew : externalsAt r.includePath [⟨.externalType, number, lines⟩] = [d] := by
      rw [externalsAt, List.flatMap_singleton, if_pos rfl, read]
      rfl
    exact ⟨rfl, by rw [hnew], by rw [hnew]; rfl, rfl, (List.append_nil _).symm, (List.append_nil _).symm⟩
  | classType closed read => exact adds_nothing rfl (by simp) hsame rfl rfl
  | structType closed read => exact adds_nothing rfl (by simp) hsame rfl rfl
  | property opened read => exact adds_nothing rfl (by simp) hsame rfl rfl
  | constructor opened read => exact adds_nothing rfl (by simp) hsame rfl rfl
  | functionOfClass latest opened read => exact adds_nothing rfl (by simp) hsame rfl rfl
  | functionOfStruct latest opened read => exact adds_nothing rfl (by simp) hsame rfl rfl

/-! ## §4 What marked lines add -/

/-- **What a reading has added to a module at some marked lines**: external types and overrides in their order, and the
header as an include if there are overrides among them. -/
structure Grown (m : Module) (path : Text) (marked : List MarkedLine) (r : HeaderReading) : Prop where
  includePath : r.includePath = path
  externals : r.externals = externalsAt path marked
  entries : r.module.entries = m.entries ++ entriesFrom m.entries.length (externalsAt path marked)
  includes : r.module.includes =
    if (markersOf marked).any Marker.isOverrides then Text.insertUnique path m.includes else m.includes
  modelOverrides : r.module.modelOverrides =
    m.modelOverrides ++ List.replicate ((markersOf marked).count .modelOverrides) path
  renderOverrides : r.module.renderOverrides =
    m.renderOverrides ++ List.replicate ((markersOf marked).count .renderOverrides) path

namespace Grown

variable {m : Module} {path : Text} {marked : List MarkedLine} {s : MarkedLine} {r after : HeaderReading}

theorem start (m : Module) (path : Text) : Grown m path [] { module := m, includePath := path } where
  includePath := rfl
  externals := rfl
  entries := (List.append_nil _).symm
  includes := rfl
  modelOverrides := (List.append_nil _).symm
  renderOverrides := (List.append_nil _).symm

/-- **One marked line more.** -/
theorem step (h : Grown m path marked r) (hadds : Adds s r after) : Grown m path (marked ++ [s]) after where
  includePath := by rw [hadds.includePath, h.includePath]
  externals := by rw [hadds.externals, h.includePath, h.externals, externalsAt_append]
  entries := by
    rw [hadds.entries, h.includePath, h.entries, externalsAt_append, entriesFrom_append, List.append_assoc,
      List.length_append, length_entriesFrom]
  includes := by
    rw [hadds.includes, h.includePath, h.includes, markersOf_concat, List.any_append, List.any_cons, List.any_nil,
      Bool.or_false]
    -- a header that is registered already is not registered again
    cases (markersOf marked).any Marker.isOverrides <;> cases s.marker.isOverrides <;>
      simp [Text.insertUnique_insertUnique]
  modelOverrides := by
    rw [hadds.modelOverrides, h.includePath, h.modelOverrides, markersOf_concat, List.count_append, List.replicate_add,
      List.append_assoc]
  renderOverrides := by
    rw [hadds.renderOverrides, h.includePath, h.renderOverrides, markersOf_concat, List.count_append,
      List.replicate_add, List.append_assoc]

end Grown

theorem grown_of_read {m : Module} {path : Text} {marked : List MarkedLine} {after : HeaderReading}
    (h : HeaderReading.readMarked { module := m, includePath := path } marked = (after, none)) :
    Grown m path marked after := by
  induction marked using List.reverseRecOn generalizing after with
  | nil =>
    cases h
    exact Grown.start m path
  | append_singleton marked s ih =>
    obtain ⟨middle, taken, hmarked, hdispatch⟩ := HeaderReading.readMarked_concat.mp h
    exact (ih hmarked).step (adds_of_takes (HeaderReading.takes_of_dispatch hdispatch))

/-! ## §5 Headers -/

/-- **What a header adds is the same for all modules of a name and a namespace**, and so is its fault, if it has one. -/
theorem Module.readHeader_uniform (m : Module) (path text : Text) :
    ∃ edits : List ModuleEdit, ∀ other : Module, other.name = m.name → other.scope = m.scope →
      other.readHeader path text =
        ⟨other.edited edits, (m.readHeader path text).declared, (m.readHeader path text).error⟩ := by
  -- reading is a list of edits, which does not depend on the rest of the module
  obtain ⟨p, result, hp⟩ :=
    HeaderReading.readFrom_edits { module := m, includePath := includePathOf path } 0 1 (Header.lines text)
  have hreading : ∀ other : Module, other.name = m.name → other.scope = m.scope →
      other.headerReading path text = (p.after.on (other.edited p.edits), result) := hp
  cases result with
  | some fault =>
    refine ⟨p.edits, fun other hname hscope => ?_⟩
    rw [Module.readHeader_of_fault (hreading other hname hscope), Module.readHeader_of_fault (hreading m rfl rfl)]
    rfl
  | none =>
    refine ⟨p.edits ++ p.after.opened.map .declare ++ [.header (includePathOf path)], fun other hname hscope => ?_⟩
    rw [Module.readHeader_of_read (hreading other hname hscope), Module.readHeader_of_read (hreading m rfl rfl),
      Module.edited_append, Module.edited_append, ← Module.addAll_eq_edited]
    rfl

/-- What a module keeps and gets by the types and overrides of some marked lines. The types that it had come first, the
same as they were, and so do its overrides; its includes are still there. -/
structure Module.GrownBy (m : Module) (includePath : Text) (marked : List MarkedLine) (declared : List Declaration)
    (grown : Module) : Prop where
  entries : grown.entries = m.entries ++ entriesFrom m.entries.length declared
  keptIncludes : m.includes.Sublist grown.includes
  modelOverrides : grown.modelOverrides =
    m.modelOverrides ++ List.replicate ((markersOf marked).count .modelOverrides) includePath
  renderOverrides : grown.renderOverrides =
    m.renderOverrides ++ List.replicate ((markersOf marked).count .renderOverrides) includePath

/-- What a header leaves behind that has a fault on a line: the external types and overrides of the marked lines before
it. The header is a new include only if there are overrides among them. -/
structure LeftBefore (m : Module) (path : Text) (taken : List MarkedLine) (line : Nat) (outcome : HeaderOutcome) :
    Prop where
  before : ∀ s ∈ taken, s.number + s.marker.span s.lines < line
  declared : outcome.declared = externalsAt (includePathOf path) taken
  kind : ∀ d ∈ outcome.declared, d.kind = .external
  grown : m.GrownBy (includePathOf path) taken outcome.declared outcome.module
  includes : outcome.module.includes =
    if (markersOf taken).any Marker.isOverrides then Text.insertUnique (includePathOf path) m.includes else m.includes

/-- What a header adds that has no fault: its external types in their order, then the class, then the struct, and all of
its overrides. The header is an include. -/
structure AddedBy (m : Module) (path : Text) (marked : List MarkedLine) (outcome : HeaderOutcome) : Prop where
  declared : ∃ openClass openStruct, MembersOf marked (externalsAt (includePathOf path) marked) openClass openStruct ∧
    outcome.declared = externalsAt (includePathOf path) marked ++ (openClass.toList ++ openStruct.toList)
  grown : m.GrownBy (includePathOf path) marked outcome.declared outcome.module
  includes : outcome.module.includes = Text.insertUnique (includePathOf path) m.includes

theorem Grown.keptIncludes {m : Module} {path : Text} {marked : List MarkedLine} {r : HeaderReading}
    (h : Grown m path marked r) : m.includes.Sublist r.module.includes := by
  rw [h.includes]
  split
  · exact Text.sublist_insertUnique path m.includes
  · exact List.Sublist.refl _

/-- **Where a header has a fault**, what is before the fault stays. -/
theorem leftBefore_of_fault {m : Module} {path text : Text} {error : HeaderError}
    (h : (m.readHeader path text).error = some error) :
    ∃ taken s behind, Header.marked text = taken ++ s :: behind ∧ s.number ≤ error.line ∧
      LeftBefore m path taken error.line (m.readHeader path text) := by
  obtain ⟨taken, s, behind, middle, after, distance, hsplit, htaken, hstop, -, hline, houtcome⟩ :=
    Module.exists_stop_of_error h
  obtain ⟨settings, packageSeen, rfl⟩ := HeaderReading.stopped_of_dispatch hstop
  have hgrown := grown_of_read htaken
  refine ⟨taken, s, behind, hsplit, by omega, ?_⟩
  rw [houtcome]
  constructor
  case before =>
    -- what has been taken ends before the marked line with the fault
    have hpairs := pairwise_markedFrom 0 1 (Header.lines text)
    rw [← Header.marked, hsplit, List.pairwise_append] at hpairs
    intro t ht
    have hlt := hpairs.2.2 t ht s List.mem_cons_self
    omega
  case declared => exact hgrown.externals
  case kind =>
    intro d hd
    exact ((gathered_of_read htaken).1.externals d hd).1
  case grown =>
    constructor
    case entries =>
      dsimp only
      rw [hgrown.externals]
      exact hgrown.entries
    case keptIncludes => exact hgrown.keptIncludes
    case modelOverrides => exact hgrown.modelOverrides
    case renderOverrides => exact hgrown.renderOverrides
  case includes => exact hgrown.includes

/-- **Where a header has no fault**, all of it is added. -/
theorem addedBy_of_ok {m : Module} {path text : Text} (h : (m.readHeader path text).error = none) :
    AddedBy m path (Header.marked text) (m.readHeader path text) := by
  obtain ⟨after, hread, houtcome⟩ := Module.exists_read_of_ok h
  have hgrown := grown_of_read hread
  obtain ⟨hincludes, hmodel, hrender⟩ := after.module.addAll_keeps after.opened
  have hregistered : Text.insertUnique (includePathOf path) (after.module.addAll after.opened).includes =
      Text.insertUnique (includePathOf path) m.includes := by
    rw [hincludes, hgrown.includes]
    -- a marker of overrides may have registered the header already
    split
    · exact Text.insertUnique_insertUnique _ _
    · rfl
  rw [houtcome]
  constructor
  case declared =>
    have hmembers := (gathered_of_read hread).1.membersOf
    rw [hgrown.externals] at hmembers
    refine ⟨after.openClass, after.openStruct, hmembers, ?_⟩
    dsimp only
    rw [hgrown.externals]
    rfl
  case grown =>
    constructor
    case entries =>
      show (after.module.addAll after.opened).entries = m.entries ++ entriesFrom m.entries.length _
      rw [Module.entries_addAll, hgrown.entries, hgrown.externals, entriesFrom_append, List.append_assoc,
        List.length_append, length_entriesFrom]
    case keptIncludes =>
      show m.includes.Sublist (Text.insertUnique (includePathOf path) (after.module.addAll after.opened).includes)
      rw [hregistered]
      exact Text.sublist_insertUnique _ _
    case modelOverrides => exact hmodel.trans hgrown.modelOverrides
    case renderOverrides => exact hrender.trans hgrown.renderOverrides
  case includes => exact hregistered

/-- **Reading only appends.** Whatever a module holds and whatever a header is like, the module keeps its types as the
first of its types, its overrides as the first of its overrides, and its includes. A header with a fault has added no more
than the external types and overrides of the marked lines before the fault, and is a new include only if there are
overrides among them. A header without a fault has added its external types, then its class, then its struct, and is an
include. What is added, and the fault, depend on the name and the namespace of the module alone. -/
theorem readHeader_appends (m : Module) (path text : Text) :
    (∀ error, (m.readHeader path text).error = some error →
      ∃ taken s behind, Header.marked text = taken ++ s :: behind ∧ s.number ≤ error.line ∧
        LeftBefore m path taken error.line (m.readHeader path text)) ∧
    ((m.readHeader path text).error = none → AddedBy m path (Header.marked text) (m.readHeader path text)) ∧
    ∃ edits : List ModuleEdit, ∀ other : Module, other.name = m.name → other.scope = m.scope →
      other.readHeader path text =
        ⟨other.edited edits, (m.readHeader path text).declared, (m.readHeader path text).error⟩ :=
  ⟨fun _ herror => leftBefore_of_fault herror, addedBy_of_ok, m.readHeader_uniform path text⟩

end HeaderReflection
