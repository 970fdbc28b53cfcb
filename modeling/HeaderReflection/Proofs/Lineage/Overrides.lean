import HeaderReflection.Generation
import HeaderReflection.Proofs.Outcome

/-!
# Overrides without permission

A module that does not let its types replace default behaviour gets the same artifacts whatever its types would like to
replace. Every override is dropped before the types are sorted, and nothing that comes later reads what was there: two
modules that tell a difference only in overrides that are not allowed resolve to one and the same module.

## Main definitions

- `Module.generated`: a module taken through resolution and emission.
- `Entry.SameButHandlers`, `Entry.SameButRenderHooks`: types that may differ in their overrides and in nothing else.
- `Module.SameBut`: modules whose types differ in a given way and that agree in everything else.

## Main results

- `Entry.allowed_of_sameButHandlers`, `Entry.allowed_of_sameButRenderHooks`: what a type loses.
- `Module.resolve_of_sameBut`: differences that every type loses do not show after resolution.
- `generated_without_permission`: overrides that are not allowed do not show in the artifacts.
-/

namespace HeaderReflection

/-- The texts of the artifacts of a module, from its types as they have been read. -/
def Module.generated (m : Module) (layout : Layout) : Logged RunError (List (Text × Text)) := do
  let resolved ← m.resolved
  resolved.emitted layout

/-! ## §1 Modules that differ in overrides -/

namespace Entry

/-- Types that are the same but for their handlers and their architype. -/
def SameButHandlers (e e' : Entry) : Prop :=
  ∃ (handlers : TypeHandlers) (architype : Option Text), e' = { e with handlers, architype }

/-- Types that are the same but for their render hooks. -/
def SameButRenderHooks (e e' : Entry) : Prop :=
  ∃ renderConstructor renderDestructor : Option Text, e' = { e with renderConstructor, renderDestructor }

end Entry

/-- Modules that are the same but for a difference between their types, one type at a time. -/
def Module.SameBut (Differ : Entry → Entry → Prop) (m m' : Module) : Prop :=
  ∃ entries, List.Forall₂ Differ m.entries entries ∧ m' = { m with entries }

/-! ## §2 What a type loses -/

namespace Entry

variable {m m' : Module} {e e' : Entry}

/-- What a type may keep depends on two permissions of its module and on nothing else of it. -/
theorem allowed_congr (hmodel : m.modelTypesOverrides = m'.modelTypesOverrides)
    (hrender : m.renderTypesOverrides = m'.renderTypesOverrides) (e : Entry) : e.allowed m = e.allowed m' := by
  unfold allowed
  rw [hmodel, hrender]

theorem allowed_of_sameButHandlers (hmodel : m.modelTypesOverrides = false) (h : e.SameButHandlers e') :
    e.allowed m = e'.allowed m := by
  obtain ⟨handlers, architype, rfl⟩ := h
  -- the seven handlers and the architype go together, so the two types are one before the render hooks are looked at
  unfold allowed withoutHandlers
  simp only [hmodel, Bool.false_eq_true, if_false]

theorem allowed_of_sameButRenderHooks (hrender : m.renderTypesOverrides = false ∨ e.kind ≠ .classType)
    (h : e.SameButRenderHooks e') : e.allowed m = e'.allowed m := by
  obtain ⟨renderConstructor, renderDestructor, rfl⟩ := h
  have hdropped : ¬(m.renderTypesOverrides = true ∧ e.kind = .classType) := by
    rintro ⟨hallowed, hclass⟩
    rcases hrender with hfalse | hother
    · rw [hfalse] at hallowed
      cases hallowed
    · exact hother hclass
  -- dropping the handlers or not leaves the kind as it is, so both types lose their hooks
  unfold allowed withoutRenderHooks withoutHandlers
  cases m.modelTypesOverrides <;> simp [hdropped]

end Entry

/-! ## §3 What a module loses -/

namespace Module

variable {m m' : Module} {Differ : Entry → Entry → Prop}

theorem dropOverrides_of_sameBut (h : m.SameBut Differ m')
    (hlost : ∀ e e', Differ e e' → e.allowed m = e'.allowed m) : m.dropOverrides = m'.dropOverrides := by
  obtain ⟨entries, hdiffer, rfl⟩ := h
  have hsettings : Entry.allowed { m with entries } = Entry.allowed m := by
    funext e
    exact Entry.allowed_congr rfl rfl e
  have hentries : m.entries.map (Entry.allowed m) = entries.map (Entry.allowed m) := by
    rw [← List.forall₂_eq_eq_eq, List.forall₂_map_left_iff, List.forall₂_map_right_iff]
    exact hdiffer.imp hlost
  unfold dropOverrides
  rw [hsettings, hentries]

/-- **Differences that every type loses do not show after resolution**: the order, the links, the ids and the cycle are
found when the overrides are gone. -/
theorem resolve_of_sameBut (h : m.SameBut Differ m') (hlost : ∀ e e', Differ e e' → e.allowed m = e'.allowed m) :
    m.resolve = m'.resolve := by
  unfold resolve
  rw [dropOverrides_of_sameBut h hlost]

theorem outcome_generated (m : Module) (layout : Layout) :
    (m.generated layout).outcome =
      match m.resolve.cycle with
      | some cycle => .error (.unresolved m.name cycle)
      | none => (m.resolve.module.emitted layout).outcome := by
  unfold generated resolved
  cases m.resolve.cycle with
  | some cycle => rfl
  | none => rfl

theorem outcome_generated_of_sameBut (h : m.SameBut Differ m')
    (hlost : ∀ e e', Differ e e' → e.allowed m = e'.allowed m) (layout : Layout) :
    (m.generated layout).outcome = (m'.generated layout).outcome := by
  have hname : m'.name = m.name := by
    obtain ⟨entries, -, rfl⟩ := h
    rfl
  rw [outcome_generated, outcome_generated, resolve_of_sameBut h hlost, hname]

/-- A difference that both of two relations allow. -/
theorem SameBut.and {Other : Entry → Entry → Prop} (h : m.SameBut Differ m')
    (hother : List.Forall₂ Other m.entries m'.entries) :
    m.SameBut (fun e e' => Differ e e' ∧ Other e e') m' := by
  obtain ⟨entries, hdiffer, rfl⟩ := h
  refine ⟨entries, List.forall₂_iff_zip.mpr ⟨hdiffer.length_eq, ?_⟩, rfl⟩
  intro e e' hmem
  exact ⟨List.forall₂_zip hdiffer hmem, List.forall₂_zip hother hmem⟩

end Module

/-! ## §4 Artifacts -/

/-- **Overrides that are not allowed do not show in the artifacts.** Two modules that are the same but for the handlers
and the architypes of their types get the same artifacts, byte for byte, or fail alike, when they do not let their types
replace default behaviour. Two modules that are the same but for the render hooks of their types do so when they do not
let their classes have any, and also when no class differs. -/
theorem generated_without_permission (m m' : Module) (layout : Layout) :
    (m.SameBut Entry.SameButHandlers m' → m.modelTypesOverrides = false →
      (m.generated layout).outcome = (m'.generated layout).outcome) ∧
    (m.SameBut Entry.SameButRenderHooks m' →
      m.renderTypesOverrides = false ∨
        List.Forall₂ (fun e e' => e.kind = .classType → e = e') m.entries m'.entries →
      (m.generated layout).outcome = (m'.generated layout).outcome) := by
  constructor
  · intro h hmodel
    exact Module.outcome_generated_of_sameBut h (fun e e' => Entry.allowed_of_sameButHandlers hmodel) layout
  · rintro h (hrender | hclasses)
    · exact Module.outcome_generated_of_sameBut h
        (fun e e' => Entry.allowed_of_sameButRenderHooks (.inl hrender)) layout
    · refine Module.outcome_generated_of_sameBut (h.and hclasses) ?_ layout
      rintro e e' ⟨hhooks, hclass⟩
      by_cases hkind : e.kind = .classType
      · rw [hclass hkind]
      · exact Entry.allowed_of_sameButRenderHooks (.inr hkind) hhooks

/-- A module with a class and a struct that replace some behaviour. -/
def Module.ofOverrides (model render : Bool) (copy classHook structHook : Option Text) : Module where
  name := "m"
  modelTypesOverrides := model
  renderTypesOverrides := render
  entries := [
    { name := "C", fullName := "m::C", kind := .classType, serial := 0, handlers.copy := copy
      renderConstructor := classHook },
    { name := "S", fullName := "m::S", kind := .structType, serial := 1, architype := copy
      renderConstructor := structHook }]

/-- A module that allows nothing gets the artifacts of one that wants nothing; the hook of a struct does not show even
where classes may have some. What is allowed does show, so the permissions tell something. -/
theorem generated_of_class_and_struct :
    let generated (model render : Bool) (copy classHook structHook : Option Text) :=
      ((Module.ofOverrides model render copy classHook structHook).generated ⟨"out", "m"⟩).outcome
    (generated false false (some "f") none none = generated false false none none none ∧
      generated false false none (some "f") (some "f") = generated false false none none none ∧
      generated false true none (some "f") (some "g") = generated false true none (some "f") none) ∧
    (∃ files, generated false false none none none = .ok files) ∧
    generated true false (some "f") none none ≠ generated true false none none none ∧
    generated false true none (some "f") none ≠ generated false true none none none := by
  intro generated
  have hhandlers := (generated_without_permission (Module.ofOverrides false false none none none)
    (Module.ofOverrides false false (some "f") none none) ⟨"out", "m"⟩).1
    ⟨_, .cons ⟨_, _, rfl⟩ (.cons ⟨_, _, rfl⟩ .nil), rfl⟩ rfl
  have hhooks := (generated_without_permission (Module.ofOverrides false false none none none)
    (Module.ofOverrides false false none (some "f") (some "f")) ⟨"out", "m"⟩).2
    ⟨_, .cons ⟨_, _, rfl⟩ (.cons ⟨_, _, rfl⟩ .nil), rfl⟩ (.inl rfl)
  have hstruct := (generated_without_permission (Module.ofOverrides false true none (some "f") none)
    (Module.ofOverrides false true none (some "f") (some "g")) ⟨"out", "m"⟩).2
    ⟨_, .cons ⟨_, _, rfl⟩ (.cons ⟨_, _, rfl⟩ .nil), rfl⟩ (.inr (.cons (fun _ => rfl) (.cons (fun h => nomatch h) .nil)))
  have hfiles : (generated false false none none none).isOk = true := by decide +kernel
  -- the first artifact registers types and the last one registers render hooks; a call more makes them longer
  let firstLength (generated : Except RunError (List (Text × Text))) :=
    generated.toOption.bind (·.head?.map (·.2.length))
  let lastLength (generated : Except RunError (List (Text × Text))) :=
    generated.toOption.bind (·.getLast?.map (·.2.length))
  have hcopy : firstLength (generated true false (some "f") none none) ≠
      firstLength (generated true false none none none) := by decide +kernel
  have hhook : lastLength (generated false true none (some "f") none) ≠
      lastLength (generated false true none none none) := by decide +kernel
  refine ⟨⟨hhandlers.symm, hhooks.symm, hstruct.symm⟩, ?_, ne_of_apply_ne firstLength hcopy,
    ne_of_apply_ne lastLength hhook⟩
  cases hgenerated : generated false false none none none with
  | error error => rw [hgenerated] at hfiles; cases hfiles
  | ok files => exact ⟨files, rfl⟩

end HeaderReflection
