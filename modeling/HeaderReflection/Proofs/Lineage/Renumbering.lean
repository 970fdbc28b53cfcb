import HeaderReflection.Artifact.Emission
import HeaderReflection.Lineage
import HeaderReflection.Proofs.Text.Order
import Mathlib.Logic.Function.Basic

/-!
# Renumbering

The serial numbers of types only tell types apart. Giving other numbers to them, by an injective function, commutes with
every step of resolution and does not show in the artifacts.

## Main definitions

- `Entry.renumber`, `Module.renumber`: types with other serial numbers.
- `Renumbers`: maps of types that placing sees as a renumbering.
- `Module.placed`: the steps of resolution after sorting.
- `Module.lineage`: the types in their order, with their ids and their parents.

## Main results

- `Renumbers.placeAll`: placing commutes with such maps.
- `Module.placed_renumber`: resolution commutes with renumbering.
- `Module.emit_renumber`: artifacts do not depend on serial numbers.
-/

namespace HeaderReflection

/-! ## §1 Other serial numbers -/

/-- A type with another serial number, its link included. -/
def Entry.renumber (f : Nat → Nat) (e : Entry) : Entry :=
  { e with serial := f e.serial, parent := e.parent.map f }

/-- A module whose types have other serial numbers. -/
def Module.renumber (f : Nat → Nat) (m : Module) : Module := { m with entries := m.entries.map (Entry.renumber f) }

section

variable (f : Nat → Nat)

@[simp] theorem Entry.toDeclaration_renumber (e : Entry) : (e.renumber f).toDeclaration = e.toDeclaration := rfl

@[simp] theorem Entry.serial_renumber (e : Entry) : (e.renumber f).serial = f e.serial := rfl

@[simp] theorem Entry.parent_renumber (e : Entry) : (e.renumber f).parent = e.parent.map f := rfl

@[simp] theorem Entry.id_renumber (e : Entry) : (e.renumber f).id = e.id := rfl

@[simp] theorem Module.entries_renumber (m : Module) : (m.renumber f).entries = m.entries.map (Entry.renumber f) := rfl

end

/-- A map of types that gives them other serial numbers, links included, and keeps their names. What else it does to a
type has no part in placing. -/
structure Renumbers (f : Nat → Nat) (g : Entry → Entry) : Prop where
  serial : ∀ e, (g e).serial = f e.serial
  parent : ∀ e, (g e).parent = e.parent.map f
  name : ∀ e, (g e).name = e.name

theorem renumbers_renumber (f : Nat → Nat) : Renumbers f (Entry.renumber f) :=
  ⟨fun _ => rfl, fun _ => rfl, fun _ => rfl⟩

/-- The first element of a list of images that passes a test. -/
theorem find?_map_of_test {α β : Type} {g : α → β} {p : β → Bool} {q : α → Bool} (h : ∀ a, p (g a) = q a)
    (xs : List α) : (xs.map g).find? p = (xs.find? q).map g := by
  have htest : p ∘ g = q := funext h
  rw [List.find?_map, htest]

/-! ## §2 Linking -/

section Linking

variable {f : Nat → Nat} (hf : Function.Injective f)

include hf

theorem parentAmong_renumber (entries : List Entry) (e : Entry) :
    parentAmong (entries.map (Entry.renumber f)) (e.renumber f) =
      (parentAmong entries e).map (Entry.renumber f) := by
  apply find?_map_of_test
  intro other
  show (decide (f other.serial ≠ f e.serial) && decide (other.name = e.parentShortName)) = _
  simp only [ne_eq, hf.eq_iff]

theorem linkedAmong_renumber (entries : List Entry) (e : Entry) :
    (e.renumber f).linkedAmong (entries.map (Entry.renumber f)) = (e.linkedAmong entries).renumber f := by
  have hunlinked : (e.renumber f).isUnlinked = e.isUnlinked := by
    show (decide (e.parentName ≠ []) && (e.parent.map f).isNone) = _
    rw [Option.isNone_map]
    rfl
  unfold Entry.linkedAmong
  rw [hunlinked, parentAmong_renumber hf]
  by_cases h : e.isUnlinked = true
  · rw [if_pos h, if_pos h]
    cases parentAmong entries e <;> rfl
  · rw [if_neg h, if_neg h]

theorem linked_renumber (m : Module) : (m.renumber f).linked = m.linked.renumber f := by
  unfold Module.linked Module.renumber
  simp only [List.map_map, Function.comp_def, linkedAmong_renumber hf]

end Linking

/-! ## §3 Placing -/

namespace Renumbers

variable {f : Nat → Nat} {g : Entry → Entry} (hg : Renumbers f g) (hf : Function.Injective f)

include hg hf

theorem find?_serial (entries : List Entry) (serial : Nat) :
    (entries.map g).find? (·.serial = f serial) = (entries.find? (·.serial = serial)).map g := by
  apply find?_map_of_test
  intro e
  simp [hg.serial, hf.eq_iff]

theorem parentIn? (entries : List Entry) (e : Entry) :
    (g e).parentIn? (entries.map g) = (e.parentIn? entries).map g := by
  unfold Entry.parentIn?
  rw [hg.parent]
  cases e.parent with
  | none => rfl
  | some serial => exact hg.find?_serial hf entries serial

theorem isAmong (entries : List Entry) (e : Entry) : (g e).isAmong (entries.map g) = e.isAmong entries := by
  simp only [Entry.isAmong, List.any_map, Function.comp_def, hg.serial, hf.eq_iff]

theorem closeCycle (path : List Entry) (e : Entry) : closeCycle (path.map g) (g e) = closeCycle path e := by
  have hwhile : ((path.map g).takeWhile (·.serial ≠ (g e).serial)) =
      (path.takeWhile (·.serial ≠ e.serial)).map g := by
    rw [List.takeWhile_map]
    congr 2
    funext a
    rw [Bool.eq_iff_iff]
    simp [hg.serial, hf.eq_iff]
  have hnames : (fun e : Entry => e.name) ∘ g = fun e => e.name := funext hg.name
  unfold HeaderReflection.closeCycle
  rw [hwhile, ← List.map_reverse, List.map_map, hnames, hg.name]

/-- Climbing meets the same types on the way. -/
theorem climb (entries placed : List Entry) (steps : Nat) (path : List Entry) (e : Entry) :
    climb (entries.map g) (placed.map g) steps (path.map g) (g e) =
      (climb entries placed steps path e).map (List.map g) := by
  induction steps generalizing path e with
  | zero => rfl
  | succ steps ih =>
    unfold HeaderReflection.climb
    rw [hg.isAmong hf, hg.isAmong hf, hg.closeCycle hf, hg.parentIn? hf]
    by_cases hplaced : e.isAmong placed = true
    · simp [hplaced, Except.map]
    · by_cases hpath : e.isAmong path = true
      · simp [hplaced, hpath, Except.map]
      · cases hparent : e.parentIn? entries with
        | none => simp [hplaced, hpath, Except.map]
        | some parent => simpa [hplaced, hpath] using ih (e :: path) parent

theorem placeNext (entries placed : List Entry) (e : Entry) :
    placeNext (entries.map g) (placed.map g) (g e) = (placeNext entries placed e).map (List.map g) := by
  have hclimb := hg.climb hf entries placed (entries.length + 1) [] e
  unfold HeaderReflection.placeNext
  rw [List.length_map]
  rw [List.map_nil] at hclimb
  rw [hclimb]
  cases HeaderReflection.climb entries placed (entries.length + 1) [] e with
  | error cycle => rfl
  | ok way => simp [Except.map, bind, Except.bind, pure, Except.pure]

/-- **Types are placed alike** under other numbers. -/
theorem placeAll (entries : List Entry) : placeAll (entries.map g) = (placeAll entries).map (List.map g) := by
  -- the types that are still to be placed shrink, while those to choose parents from stay
  have hrun : ∀ rest placed : List Entry,
      (rest.map g).foldlM (HeaderReflection.placeNext (entries.map g)) (placed.map g) =
        (rest.foldlM (HeaderReflection.placeNext entries) placed).map (List.map g) := by
    intro rest
    induction rest with
    | nil => intro placed; rfl
    | cons e rest ih =>
      intro placed
      simp only [List.map_cons, List.foldlM_cons, hg.placeNext hf]
      cases HeaderReflection.placeNext entries placed e with
      | error cycle => rfl
      | ok placed => exact ih placed
  exact hrun entries []

end Renumbers

/-- A module whose types have been sorted, linked, placed and named. -/
def Module.placed (m : Module) : Resolution :=
  match placeAll m.linked.entries with
  | .error cycle => ⟨m.linked, some cycle⟩
  | .ok entries => ⟨{ m.linked with entries := entries.map (Entry.identified m.linked) }, none⟩

theorem Module.resolve_eq (m : Module) : m.resolve = m.dropOverrides.sorted.placed := rfl

/-- **Resolution commutes with renumbering.** -/
theorem Module.placed_renumber {f : Nat → Nat} (hf : Function.Injective f) (m : Module) :
    (m.renumber f).placed = ⟨m.placed.module.renumber f, m.placed.cycle⟩ := by
  have hidentified : ∀ e : Entry, (e.renumber f).identified (m.linked.renumber f) =
      (e.identified m.linked).renumber f := by
    intro e
    unfold Entry.identified
    rw [Entry.id_renumber]
    by_cases h : e.id = []
    · rw [if_pos h, if_pos h]
      rfl
    · rw [if_neg h, if_neg h]
  unfold Module.placed
  rw [linked_renumber hf, Module.entries_renumber, (renumbers_renumber f).placeAll hf]
  cases placeAll m.linked.entries with
  | error cycle => rfl
  | ok entries =>
    simp only [Except.map, Module.renumber, List.map_map, Function.comp_def]
    simp only [← hidentified]
    rfl

/-! ## §4 Artifacts -/

section Artifacts

variable {f : Nat → Nat}

theorem classes_renumber (m : Module) : (m.renumber f).classes = m.classes.map (Entry.renumber f) := by
  unfold Module.classes
  rw [Module.entries_renumber, List.filter_map]
  rfl

theorem parentOf?_renumber (hf : Function.Injective f) (m : Module) (e : Entry) :
    (m.renumber f).parentOf? (e.renumber f) = (m.parentOf? e).map (Entry.renumber f) :=
  (renumbers_renumber f).parentIn? hf m.entries e

theorem registration_renumber (hf : Function.Injective f) (m : Module) (e : Entry) :
    Registration.ofEntry (m.renumber f) (e.renumber f) = Registration.ofEntry m e := by
  have hparent : (e.renumber f).parentStatements (m.renumber f) = e.parentStatements m := by
    unfold Entry.parentStatements
    rw [parentOf?_renumber hf]
    cases m.parentOf? e <;> rfl
  have hstatements : (e.renumber f).statements (m.renumber f) = e.statements m := by
    unfold Entry.statements
    rw [hparent]
    rfl
  unfold Registration.ofEntry
  rw [hstatements]
  rfl

theorem userType_renumber (hf : Function.Injective f) (m : Module) (e : Entry) :
    UserType.ofEntry (m.renumber f) (e.renumber f) = UserType.ofEntry m e := by
  unfold UserType.ofEntry
  rw [parentOf?_renumber hf]
  cases m.parentOf? e <;> rfl

theorem scriptTemplate_renumber (hf : Function.Injective f) (m : Module) (e : Entry) :
    ScriptTemplate.ofEntry (m.renumber f) (e.renumber f) = ScriptTemplate.ofEntry m e := by
  unfold ScriptTemplate.ofEntry
  rw [parentOf?_renumber hf]
  cases m.parentOf? e <;> rfl

theorem modelSource_renumber (hf : Function.Injective f) (m : Module) :
    ModelSource.ofModule (m.renumber f) = ModelSource.ofModule m := by
  unfold ModelSource.ofModule
  rw [classes_renumber, Module.entries_renumber]
  simp only [List.map_map, List.flatMap_map, List.filter_map, Function.comp_def, registration_renumber hf,
    userType_renumber hf]
  rfl

theorem scriptImporter_renumber (hf : Function.Injective f) (m : Module) :
    ScriptImporter.ofModule (m.renumber f) = ScriptImporter.ofModule m := by
  unfold ScriptImporter.ofModule
  rw [Module.entries_renumber]
  simp only [List.map_map, List.filter_map, Function.comp_def, scriptTemplate_renumber hf]
  rfl

theorem typeResolvers_renumber (m : Module) : TypeResolvers.ofModule (m.renumber f) = TypeResolvers.ofModule m := by
  unfold TypeResolvers.ofModule
  rw [Module.entries_renumber, ← map_sortBy (Entry.renumber f) (fun _ _ => rfl), List.map_map]
  rfl

theorem renderSource_renumber (m : Module) : RenderSource.ofModule (m.renumber f) = RenderSource.ofModule m := by
  unfold RenderSource.ofModule
  rw [classes_renumber]
  simp only [List.map_map, List.filter_map, Function.comp_def]
  rfl

theorem artifacts_renumber (hf : Function.Injective f) (m : Module) : (m.renumber f).artifacts = m.artifacts := by
  unfold Module.artifacts
  rw [modelSource_renumber hf, typeResolvers_renumber, scriptImporter_renumber hf, renderSource_renumber,
    classes_renumber, List.map_map]
  rfl

/-- **Artifacts do not depend on serial numbers.** -/
theorem Module.emit_renumber (hf : Function.Injective f) (m : Module) (layout : Layout) :
    (m.renumber f).emit layout = m.emit layout := by
  have hunknown : (m.renumber f).unknownKind? = m.unknownKind? := by
    unfold Module.unknownKind?
    rw [Module.entries_renumber, List.find?_map, Option.map_map]
    rfl
  unfold Module.emit
  rw [hunknown, artifacts_renumber hf]

end Artifacts

/-- The types of a module in their order, each with its id and the type it is linked to. -/
def Module.lineage (m : Module) : List (Declaration × Text × Option Declaration) :=
  m.entries.map fun e => (e.toDeclaration, e.id, (m.parentOf? e).map (·.toDeclaration))

theorem Module.lineage_renumber {f : Nat → Nat} (hf : Function.Injective f) (m : Module) :
    (m.renumber f).lineage = m.lineage := by
  unfold Module.lineage
  rw [Module.entries_renumber, List.map_map]
  refine List.map_congr_left ?_
  intro e _
  simp only [Function.comp_apply, parentOf?_renumber hf, Option.map_map]
  rfl

end HeaderReflection
