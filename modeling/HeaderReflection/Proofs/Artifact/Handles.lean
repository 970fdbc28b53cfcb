import HeaderReflection.Proofs.Artifact.ParentCalls

/-!
# Handles in the model source

The model source keeps a reflection handle for every type and a script handle for every type that scripts know. It goes
through the types five times: it declares the handles, creates and allocates them when the package is built, binds
classes and structs for scripts, and resets the handles when the package is destroyed. The five agree on the types and
on what scripts know, and the last one goes through the types from the end, so that what was created after its ancestors
is gone before them.

## Main definitions

- `Entry.declarationLines`, `Entry.creationLines`, `Entry.resetLines`: what is written for the handles of one type.
- `Entry.bindingLines`: what is written to make a type known to scripts.

## Main results

- `allocations_statements`: the script handle of a type is allocated once if scripts know it, and else not at all.
- `ModelSource.render_ofModule`: the text of a model source, type by type.
- `handles_mirrored`: registration and destruction mirror each other.
-/

namespace HeaderReflection

/-! ## §1 The handles of one type -/

namespace Entry

/-- Lines that are written for a type only if scripts know it. -/
def scriptLines (e : Entry) (lines : List Text) : List Text := if e.scriptBound then lines else []

/-- The line that declares the script handle of a type. -/
def scriptDeclaration (e : Entry) : Text :=
  "static std::unique_ptr<sol::usertype<" ++ e.qualifiedName ++ ">> " ++ scriptHandle e.name ++ ";"

/-- The lines that declare the handles of a type. -/
def declarationLines (m : Module) (e : Entry) : List Text :=
  inOrder [
    ["static std::unique_ptr<::agea::reflection::reflection_type> " ++ reflectionHandle m e.name ++ ";"],
    e.scriptLines [e.scriptDeclaration]]

/-- The lines that create the reflection handle of a type, followed by its statements and by what describes its
properties. -/
def creationLines (m : Module) (e : Entry) : List Text :=
  inOrder [
    ["",
     "    \x7b",
     "        const int type_id = ::agea::reflection::type_resolver<" ++ e.qualifiedName ++ ">::value;",
     "        AGEA_check(type_id != -1, \"Type is not defined!\");",
     "        " ++ reflectionHandle m e.name ++
       " = std::make_unique<::agea::reflection::reflection_type>(type_id, AID(\"" ++ e.name ++ "\"));",
     "        auto& rt = *add(sp, " ++ reflectionHandle m e.name ++ ".get());"],
    indented 8 (e.statements m),
    e.reflectedProperties.flatMap fun p =>
      (Registration.ofEntry m e).propertyLines (PropertyRegistration.ofProperty p),
    ["    \x7d"]]

/-- The lines that reset the handles of a type. -/
def resetLines (m : Module) (e : Entry) : List Text :=
  inOrder [
    ["    " ++ reflectionHandle m e.name ++ ".reset();"],
    e.scriptLines ["    " ++ scriptHandle e.name ++ ".reset();"]]

/-- The lines that make a type known to scripts, around those that depend on its shape. -/
def bindingLines (e : Entry) (shape : List Text) : List Text :=
  inOrder [
    ["",
     "    \x7b",
     "        *" ++ scriptHandle e.name ++
       " = ::agea::glob::glob_state().get_lua()->state().new_usertype<" ++ e.qualifiedName ++ ">("],
    shape,
    ["",
     "        " ++ scriptTemplate e.name ++ "<sol::usertype<" ++ e.qualifiedName ++ ">, " ++ e.qualifiedName ++ ">(*" ++
       scriptHandle e.name ++ ");",
     "    \x7d"]]

end Entry

theorem HandleDeclaration.lines_ofEntry (m : Module) (e : Entry) :
    (HandleDeclaration.ofEntry m e).lines = e.declarationLines m := by
  unfold HandleDeclaration.lines HandleDeclaration.ofEntry Declaration.scriptHandle? Entry.declarationLines
    Entry.scriptLines
  cases e.scriptBound <;> rfl

theorem HandleReset.lines_ofEntry (m : Module) (e : Entry) : (HandleReset.ofEntry m e).lines = e.resetLines m := by
  unfold HandleReset.lines HandleReset.ofEntry Entry.resetLines Entry.scriptLines
  cases e.scriptBound <;> rfl

theorem UserType.lines_ofEntry (m : Module) (e : Entry) :
    (UserType.ofEntry m e).lines = e.bindingLines (UserType.ofEntry m e).shapeLines := rfl

theorem Registration.lines_ofEntry (m : Module) (e : Entry) :
    (Registration.ofEntry m e).lines = e.creationLines m := by
  unfold Registration.lines Entry.creationLines
  simp [Registration.ofEntry, List.flatMap_map]

/-! ## §2 Allocations -/

/-- The script handle that a statement allocates. -/
def Statement.allocated? : Statement → Option ScriptHandle
  | .allocate name qualified => some { name, qualified }
  | _ => none

/-- The script handles that some statements allocate, in order. -/
def allocations (statements : List Statement) : List ScriptHandle := statements.filterMap Statement.allocated?

@[simp] theorem allocations_nil : allocations [] = [] := rfl

@[simp] theorem allocations_append (first second : List Statement) :
    allocations (first ++ second) = allocations first ++ allocations second := List.filterMap_append

@[simp] theorem allocations_assign (target value : Text) (rest : List Statement) :
    allocations (.assign target value :: rest) = allocations rest := rfl

@[simp] theorem allocations_allocate (name qualified : Text) (rest : List Statement) :
    allocations (.allocate name qualified :: rest) = { name, qualified } :: allocations rest := rfl

@[simp] theorem allocations_assignSome (target : Text) (value : Option Text) :
    allocations (Statement.assignSome target value) = [] := by
  cases value <;> rfl

theorem allocations_parentStatements (m : Module) (e : Entry) : allocations (e.parentStatements m) = [] := by
  unfold Entry.parentStatements
  split <;> rfl

theorem allocations_handlers (h : TypeHandlers) : allocations h.statements = [] := by
  simp [TypeHandlers.statements]

/-- **The script handle of a type** is allocated once if scripts know the type, and else not at all. -/
theorem allocations_statements (m : Module) (e : Entry) : allocations (e.statements m) = e.scriptHandle?.toList := by
  unfold Entry.statements Declaration.scriptHandle?
  by_cases hkind : e.kind = .classType <;> by_cases hbound : e.scriptBound = true <;>
    simp [hkind, hbound, allocations_parentStatements, allocations_handlers]

theorem allocations_property (p : Property) : allocations p.statements = [] := by
  unfold Property.statements
  simp [apply_ite allocations, PropertyHandlers.statements]

/-! ## §3 The whole source -/

/-- The lines that end a function which tells success. -/
def functionEnd : List Text := ["", "    return true;", "\x7d"]

/-- **The text of a model source, type by type.** -/
theorem ModelSource.render_ofModule (m : Module) :
    (ModelSource.ofModule m).render = sourceText [
      (ModelSource.ofModule m).includeLines,
      ["namespace " ++ m.fullName, "\x7b", ""],
      m.entries.flatMap (Entry.declarationLines m),
      (ModelSource.ofModule m).intrinsics.flatMap ClassIntrinsics.lines,
      (ModelSource.ofModule m).scheduleLines,
      ["", "bool", "package::package_types_builder::build(static_package& sp)", "\x7b",
       (ModelSource.ofModule m).packageLine],
      m.entries.flatMap (Entry.creationLines m),
      m.scripted.flatMap fun e => e.bindingLines (UserType.ofEntry m e).shapeLines,
      functionEnd,
      ["", "bool", "package::package_types_builder::destroy(static_package& sp)", "\x7b"],
      m.entries.reverse.flatMap (Entry.resetLines m),
      functionEnd,
      (ModelSource.ofModule m).defaultObjectLines "build" "create_default_class_obj",
      (ModelSource.ofModule m).defaultObjectLines "destroy" "destroy_default_class_obj",
      (ModelSource.ofModule m).accessors.flatMap AccessorDefinition.lines,
      ["", "\x7d"]] := by
  have hhandles : (ModelSource.ofModule m).handles.flatMap HandleDeclaration.lines =
      m.entries.flatMap (Entry.declarationLines m) := by
    simp only [ModelSource.ofModule, List.flatMap_map, HandleDeclaration.lines_ofEntry]
  have hregistrations : (ModelSource.ofModule m).registrations.flatMap Registration.lines =
      m.entries.flatMap (Entry.creationLines m) := by
    simp only [ModelSource.ofModule, List.flatMap_map, Registration.lines_ofEntry]
  have hbindings : (ModelSource.ofModule m).userTypes.flatMap UserType.lines =
      m.scripted.flatMap fun e => e.bindingLines (UserType.ofEntry m e).shapeLines := by
    simp only [ModelSource.ofModule, List.flatMap_map, UserType.lines_ofEntry]
    rfl
  have hresets : (ModelSource.ofModule m).resets.flatMap HandleReset.lines =
      m.entries.reverse.flatMap (Entry.resetLines m) := by
    simp only [ModelSource.ofModule, ← List.map_reverse, List.flatMap_map, HandleReset.lines_ofEntry]
  -- the other parts are the same lines, which are put together in several steps
  unfold render buildLines destroyLines
  rw [hhandles, hregistrations, hbindings, hresets]
  simp only [sourceText, inOrder, functionEnd, List.flatten_cons, List.flatten_nil, List.append_assoc, List.append_nil]
  rfl

/-- What scripts see of a module has script handles: classes and structs are known to scripts. -/
theorem Declaration.scriptBound_of_isScripted {d : Declaration} (h : d.isScripted = true) : d.scriptBound = true := by
  have hkind : d.kind ≠ .external := by
    intro hexternal
    simp [isScripted, hexternal] at h
  simp [scriptBound, hkind]

/-- **Registration and destruction mirror each other.** For every module that is resolved and whose artifacts are
emitted, the model source declares, creates and resets one reflection handle for each type: it is created behind those
of the ancestors of the type, and resets come in the reverse order, so before those of the ancestors. Script handles are
declared, allocated and reset for the types that scripts know and for no others, and every type that is bound for
scripts is bound to a handle of its own name and qualified name, which is declared and allocated. -/
theorem handles_mirrored {m : Module} (hn : Numbered m.entries) (hcycle : m.resolve.cycle = none) {layout : Layout}
    {files : List (Text × Text)} (hemit : m.resolve.module.emit layout = .ok files) :
    (layout.modelSource, (ModelSource.ofModule m.resolve.module).render) ∈ files ∧
    (ModelSource.ofModule m.resolve.module).render = sourceText [
      (ModelSource.ofModule m.resolve.module).includeLines,
      ["namespace " ++ m.resolve.module.fullName, "\x7b", ""],
      m.resolve.module.entries.flatMap (Entry.declarationLines m.resolve.module),
      (ModelSource.ofModule m.resolve.module).intrinsics.flatMap ClassIntrinsics.lines,
      (ModelSource.ofModule m.resolve.module).scheduleLines,
      ["", "bool", "package::package_types_builder::build(static_package& sp)", "\x7b",
       (ModelSource.ofModule m.resolve.module).packageLine],
      m.resolve.module.entries.flatMap (Entry.creationLines m.resolve.module),
      m.resolve.module.scripted.flatMap fun e => e.bindingLines (UserType.ofEntry m.resolve.module e).shapeLines,
      functionEnd,
      ["", "bool", "package::package_types_builder::destroy(static_package& sp)", "\x7b"],
      m.resolve.module.entries.reverse.flatMap (Entry.resetLines m.resolve.module),
      functionEnd,
      (ModelSource.ofModule m.resolve.module).defaultObjectLines "build" "create_default_class_obj",
      (ModelSource.ofModule m.resolve.module).defaultObjectLines "destroy" "destroy_default_class_obj",
      (ModelSource.ofModule m.resolve.module).accessors.flatMap AccessorDefinition.lines,
      ["", "\x7d"]] ∧
    m.resolve.module.entries.Nodup ∧
    (∀ e ∈ m.resolve.module.entries, ∀ p, m.resolve.module.IsAncestor p e →
      [p, e].Sublist m.resolve.module.entries ∧ [e, p].Sublist m.resolve.module.entries.reverse) ∧
    (∀ e ∈ m.resolve.module.entries,
      allocations (e.statements m.resolve.module) =
        (if e.scriptBound then [{ name := e.name, qualified := e.qualifiedName }] else []) ∧
      ∀ p ∈ e.reflectedProperties, allocations p.statements = []) ∧
    ∀ e ∈ m.resolve.module.scripted, e ∈ m.resolve.module.entries ∧
      e.scriptDeclaration ∈ e.declarationLines m.resolve.module ∧
      { name := e.name, qualified := e.qualifiedName } ∈ allocations (e.statements m.resolve.module) := by
  have hallocated : ∀ e : Entry, allocations (e.statements m.resolve.module) =
      if e.scriptBound then [{ name := e.name, qualified := e.qualifiedName }] else [] := by
    intro e
    rw [allocations_statements, Declaration.scriptHandle?]
    split <;> rfl
  refine ⟨?_, ModelSource.render_ofModule m.resolve.module, (m.numbered_resolve hn hcycle).nodup, ?_, ?_, ?_⟩
  · rw [Module.files_of_emit hemit]
    exact List.mem_map.mpr ⟨.modelSource (ModelSource.ofModule m.resolve.module), by simp [Module.artifacts], rfl⟩
  · intro e he p hancestor
    have hpair := m.sublist_of_ancestor hn hcycle he hancestor
    exact ⟨hpair, by simpa using hpair.reverse⟩
  · intro e _
    exact ⟨hallocated e, fun p _ => allocations_property p⟩
  · intro e he
    obtain ⟨hmem, hscripted⟩ := Module.mem_scripted.mp he
    have hbound := Declaration.scriptBound_of_isScripted hscripted
    refine ⟨hmem, ?_, ?_⟩
    · simp [Entry.declarationLines, Entry.scriptLines, hbound, inOrder]
    · rw [hallocated, if_pos hbound]
      exact List.mem_singleton_self _

/-- A class with a parent, a struct, an external type that scripts know and one that they do not know. -/
def fourTypes : Module :=
  (Module.empty "m" "").addAll
    [{ name := "a", fullName := "m::a", kind := .classType, parentName := "b" },
     { name := "b", fullName := "m::b", kind := .structType },
     { name := "known", fullName := "x::known", kind := .external, scriptSupport := true },
     { name := "other", fullName := "x::other", kind := .external }]

theorem handles_of_fourTypes :
    ∃ files, fourTypes.resolve.module.emit ⟨"out", "m"⟩ = .ok files ∧
      (fourTypes.resolve.module.entries.flatMap (Entry.declarationLines fourTypes.resolve.module)).length = 7 ∧
      fourTypes.resolve.module.entries.reverse.flatMap (Entry.resetLines fourTypes.resolve.module) =
        (["    m_other_rt.reset();", "    m_known_rt.reset();", "    known_lua_type.reset();", "    m_a_rt.reset();",
          "    a_lua_type.reset();", "    m_b_rt.reset();", "    b_lua_type.reset();"] : List Text) ∧
      ∃ a b, a ∈ fourTypes.resolve.module.entries ∧ fourTypes.resolve.module.IsAncestor b a ∧
        [a, b].Sublist fourTypes.resolve.module.entries.reverse := by
  have hn : Numbered fourTypes.entries := by
    unfold Numbered
    decide +kernel
  have hcycle : fourTypes.resolve.cycle = none := by decide +kernel
  cases hemit : fourTypes.resolve.module.emit ⟨"out", "m"⟩ with
  | error unknown =>
    have hknown : fourTypes.resolve.module.unknownKind? = none := by decide +kernel
    rw [Module.emit, hknown] at hemit
    cases hemit
  | ok files =>
    refine ⟨files, rfl, by decide +kernel, by decide +kernel, ?_⟩
    have hlink : ∃ a ∈ fourTypes.resolve.module.entries, (fourTypes.resolve.module.parentOf? a).isSome = true := by
      decide +kernel
    obtain ⟨a, ha, hparent⟩ := hlink
    obtain ⟨b, hb⟩ := Option.isSome_iff_exists.mp hparent
    have hancestor : fourTypes.resolve.module.IsAncestor b a := Relation.TransGen.single hb
    exact ⟨a, b, ha, hancestor, ((handles_mirrored hn hcycle hemit).2.2.2.1 a ha b hancestor).2⟩

end HeaderReflection
