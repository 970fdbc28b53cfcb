import HeaderReflection.Proofs.Generation.Places

/-!
# Accessors across artifacts

Three artifacts are about the accessors of a class: its header declares them, the model source defines them and the
script importer binds some of them. The three agree, for all lists of properties and whatever access these have, as long
as they are produced: the name of a class may lead to the place of another header, and of two texts for one place the
later one is kept.

## Main definitions

- `Accessor.result`, `Accessor.signature`: what the declaration and the definition of an accessor both spell.
- `ScriptBinding.role?`: which accessor a binding is for, if it is for one.
- `Module.classAt?`: the class whose header stands at a path.

## Main results

- `Accessor.declarationLines_eq`, `AccessorDefinition.lines_eq`: both spell the same signature.
- `Property.definedAccessors_eq`: the definitions of a property go with its declarations, one by one.
- `Property.declared_of_scriptBinding`: what is bound is declared.
- `Module.get?_modelSource`, `Module.get?_scriptImporter`, `Module.get?_classHeader`: when the three are produced.
- `accessors_agree`: the three artifacts of a class.
-/

namespace HeaderReflection

/-! ## §1 Signatures -/

namespace Accessor

/-- The type of what an accessor returns. -/
def result (a : Accessor) : Text :=
  match a.role with
  | .getter => a.type
  | .setter => "void"

/-- The name of an accessor with its parameters. -/
def signature (a : Accessor) : Text :=
  match a.role with
  | .getter => a.name ++ "() const"
  | .setter => a.name ++ "(" ++ a.type ++ " v)"

theorem declarationLines_eq (a : Accessor) :
    a.declarationLines = (["public: \\", "    " ++ a.result ++ " " ++ a.signature ++ "; \\"] : List Text) := by
  obtain ⟨role, type, fragment⟩ := a
  have hsplit : (Text.ofString "() const; \\") = "() const" ++ "; \\" ∧
      (Text.ofString " v); \\") = " v)" ++ "; \\" ∧ (Text.ofString "    void ") = "    " ++ "void" ++ " " := by decide
  obtain ⟨hconst, hvalue, hvoid⟩ := hsplit
  cases role with
  | getter => simp [declarationLines, result, signature, hconst]
  | setter => simp [declarationLines, result, signature, hvalue, hvoid]

end Accessor

/-- The definition of an accessor spells the signature that its declaration spells, in the scope of its class. -/
theorem AccessorDefinition.lines_eq (d : AccessorDefinition) :
    ∃ body, d.lines =
      inOrder [["", d.accessor.result, d.owner ++ "::" ++ d.accessor.signature, "\x7b"], body, ["\x7d"]] := by
  obtain ⟨owner, ⟨role, type, fragment⟩, body⟩ := d
  cases role with
  | getter =>
    refine ⟨body.map fun s => "    " ++ s.render, ?_⟩
    simp [lines, Accessor.result, Accessor.signature]
  | setter =>
    refine ⟨indented 4 body, ?_⟩
    simp [lines, Accessor.result, Accessor.signature]

/-! ## §2 One property -/

namespace Property

variable (p : Property)

/-- **The definitions of a property go with its declarations**, one by one. -/
theorem definedAccessors_eq : p.definedAccessors.map (·.accessor) = p.declaredAccessors := by
  unfold definedAccessors declaredAccessors
  cases p.access.hasGetter <;> cases p.access.hasSetter <;> rfl

theorem owner_of_mem_definedAccessors {d : AccessorDefinition} (h : d ∈ p.definedAccessors) : d.owner = p.owner := by
  unfold definedAccessors at h
  rcases List.mem_append.mp h with h | h
  · split at h
    · rw [List.mem_singleton.mp h]
    · cases h
  · split at h
    · rw [List.mem_singleton.mp h]
    · cases h

end Property

/-- Scripts call no getter that is not there. -/
theorem Access.hasGetter_of_scriptGetter {access : Access} (h : access.scriptGetter = true) :
    access.hasGetter = true := by
  cases access with
  | scriptReadOnly | readOnly | all => rfl
  | _ => cases h

/-- Scripts call no setter that is not there. -/
theorem Access.hasSetter_of_scriptSetter {access : Access} (h : access.scriptSetter = true) :
    access.hasSetter = true := by
  cases access with
  | scriptWriteOnly | writeOnly | all => rfl
  | _ => cases h

/-- The role of the accessor that a binding is for; functions are no accessors. -/
def ScriptBinding.role? : ScriptBinding → Option AccessorRole
  | .getter _ => some .getter
  | .setter _ => some .setter
  | .function _ => none

/-- **What is bound is declared**, under the name by which it is bound. -/
theorem Property.declared_of_scriptBinding (p : Property) {b : ScriptBinding} (h : b ∈ p.scriptBindings) :
    ∃ a ∈ p.declaredAccessors, b.role? = some a.role ∧ a.name = b.member := by
  unfold scriptBindings at h
  unfold declaredAccessors
  rcases List.mem_append.mp h with h | h
  · split at h
    · next hscript =>
      rw [List.mem_singleton.mp h, Access.hasGetter_of_scriptGetter hscript]
      exact ⟨⟨.getter, p.type, p.fragment⟩, by simp, rfl, rfl⟩
    · cases h
  · split at h
    · next hscript =>
      rw [List.mem_singleton.mp h, Access.hasSetter_of_scriptSetter hscript]
      exact ⟨⟨.setter, p.type, p.fragment⟩, by simp, rfl, rfl⟩
    · cases h

/-! ## §3 All classes -/

/-- What belongs to one of some things that have different names, among what belongs to all of them. -/
theorem filter_flatMap_of_owner {α β : Type} {name : α → Text} {owner : β → Text} {parts : α → List β} {xs : List α}
    (hnames : (xs.map name).Nodup) (howner : ∀ x ∈ xs, ∀ part ∈ parts x, owner part = name x) {x : α} (hx : x ∈ xs) :
    (xs.flatMap parts).filter (owner · = name x) = parts x := by
  induction xs with
  | nil => cases hx
  | cons first rest ih =>
    rw [List.map_cons, List.nodup_cons] at hnames
    obtain ⟨hfirst, hrest⟩ := List.forall_mem_cons.mp howner
    rw [List.flatMap_cons, List.filter_append]
    rcases List.mem_cons.mp hx with rfl | hx
    · -- the parts of the others have other owners
      have hothers : (rest.flatMap parts).filter (owner · = name x) = [] := by
        rw [List.filter_eq_nil_iff]
        intro part hpart
        obtain ⟨other, hother, hpart⟩ := List.mem_flatMap.mp hpart
        rw [decide_eq_true_eq, hrest other hother part hpart]
        intro hname
        exact hnames.1 (List.mem_map.mpr ⟨other, hother, hname⟩)
      rw [hothers, List.append_nil, List.filter_eq_self]
      intro part hpart
      exact decide_eq_true (hfirst part hpart)
    · have hnone : (parts first).filter (owner · = name x) = [] := by
        rw [List.filter_eq_nil_iff]
        intro part hpart
        rw [decide_eq_true_eq, hfirst part hpart]
        intro hname
        exact hnames.1 (List.mem_map.mpr ⟨x, hx, hname.symm⟩)
      rw [hnone, List.nil_append]
      exact ih hnames.2 hrest hx

/-- **The accessors that are defined for a class** are those that its header declares, in the same order. -/
theorem Module.definedAccessors_eq {m : Module} (hnames : (m.classes.map (·.name)).Nodup)
    (howners : ∀ e ∈ m.classes, ∀ p ∈ e.properties, p.owner = e.name) {e : Entry} (he : e ∈ m.classes) :
    ((ModelSource.ofModule m).accessors.filter (·.owner = e.name)).map (·.accessor) =
      (ClassHeader.ofDeclaration e.toDeclaration).accessors := by
  have howned : ∀ e ∈ m.classes, ∀ d ∈ e.properties.flatMap Property.definedAccessors, d.owner = e.name := by
    intro e he d hd
    obtain ⟨p, hp, hd⟩ := List.mem_flatMap.mp hd
    rw [p.owner_of_mem_definedAccessors hd, howners e he p hp]
  -- short names are different, so what the model source defines for one class is told by its owner
  have hfilter := filter_flatMap_of_owner hnames howned he
  unfold ModelSource.ofModule ClassHeader.ofDeclaration
  dsimp only
  rw [hfilter, List.map_flatMap]
  simp only [Property.definedAccessors_eq]

theorem Entry.declared_of_binding {m : Module} {e : Entry} {b : ScriptBinding} {role : AccessorRole}
    (hkind : e.kind = .classType) (hb : b ∈ (ScriptTemplate.ofEntry m e).bindings) (hrole : b.role? = some role) :
    ∃ a ∈ (ClassHeader.ofDeclaration e.toDeclaration).accessors, a.role = role ∧ a.name = b.member := by
  rcases List.mem_append.mp hb with hb | hb
  · obtain ⟨p, hp, hb⟩ := List.mem_flatMap.mp hb
    rw [Declaration.reflectedProperties, if_pos hkind] at hp
    obtain ⟨a, ha, harole, haname⟩ := p.declared_of_scriptBinding hb
    rw [hrole] at harole
    exact ⟨a, List.mem_flatMap.mpr ⟨p, hp, ha⟩, (Option.some.inj harole).symm, haname⟩
  · obtain ⟨f, -, rfl⟩ := List.mem_map.mp hb
    cases hrole

/-! ## §4 What is produced -/

namespace Artifact

/-- **No other artifact stands in the place of the model source.** -/
theorem path_ne_modelSource (l : Layout) (a : Artifact) (hsource : ∀ source, a ≠ .modelSource source) :
    a.path l ≠ l.modelSource := by
  intro heq
  have hnested := nested_of_path_eq l a (.modelSource default) heq
  cases a with
  | modelSource source => exact hsource source rfl
  | renderSource source =>
    -- the two sources end alike, but in front of these ends they have the same name
    have hlast := ((Artifact.renderSource source).lastPart_path l).symm.trans
      ((congrArg FilePath.lastPart heq).trans ((Artifact.modelSource default).lastPart_path l))
    have hending : Text.ofString ".render.ar.cpp" = ".ar.cpp" := List.append_cancel_left hlast
    exact absurd hending (by decide)
  | _ =>
    -- all others are headers, and no header ends like a source
    dsimp only [ending] at hnested
    exact absurd hnested (by decide)

/-- The render source stands in the place of no class header. -/
theorem renderSource_ne_classHeader (l : Layout) (name : Text) : l.renderSource ≠ l.classHeader name := by
  intro heq
  have hnested := nested_of_path_eq l (.renderSource default) (.classHeader { name, accessors := [] }) heq
  dsimp only [ending] at hnested
  exact absurd hnested (by decide)

end Artifact

namespace Module

variable {m : Module} {l : Layout} {files : List (Text × Text)}

/-- The class whose header stands at a path: the last one whose name leads there. -/
def classAt? (m : Module) (l : Layout) (path : Text) : Option Entry :=
  m.classes.reverse.find? (l.classHeader ·.name = path)

theorem classHeader_ne_of_classAt? {path : Text} (h : m.classAt? l path = none) {e : Entry} (he : e ∈ m.classes) :
    l.classHeader e.name ≠ path := by
  have hnone := List.find?_eq_none.mp h e (List.mem_reverse.mpr he)
  rwa [decide_eq_true_eq] at hnone

theorem exists_of_classAt? {path : Text} {e : Entry} (h : m.classAt? l path = some e) :
    l.classHeader e.name = path ∧ ∃ before after, m.classes = before ++ e :: after ∧
      ∀ later ∈ after, l.classHeader later.name ≠ path := by
  -- what the search goes past in the reversed list are the later classes
  obtain ⟨hpath, after, before, hreverse, hafter⟩ := List.find?_eq_some_iff_append.mp h
  refine ⟨of_decide_eq_true hpath, before.reverse, after.reverse, ?_, ?_⟩
  · rw [← List.reverse_reverse m.classes, hreverse]
    simp
  · intro later hlater
    simpa using hafter later (List.mem_reverse.mp hlater)

theorem mem_classes_of_classAt? {path : Text} {e : Entry} (h : m.classAt? l path = some e) : e ∈ m.classes :=
  List.mem_reverse.mp (List.mem_of_find?_eq_some h)

/-- **The model source is produced.** -/
theorem get?_modelSource (hemit : m.emit l = .ok files) (s : ArtifactSet) :
    (s.addAll files).get? l.modelSource = some (ModelSource.ofModule m).render := by
  obtain ⟨others, hartifacts, hothers⟩ : ∃ others : List Artifact,
      m.artifacts = [] ++ .modelSource (ModelSource.ofModule m) :: others ∧
      ∀ a ∈ others, ∀ source, a ≠ .modelSource source := by
    refine ⟨_, rfl, ?_⟩
    rintro _ ha source rfl
    simp at ha
  exact get?_artifact hemit s hartifacts fun a ha => a.path_ne_modelSource l (hothers a ha)

/-- **The script importer is produced**, unless the header of a class takes its place. -/
theorem get?_scriptImporter (hemit : m.emit l = .ok files) (s : ArtifactSet)
    (hnone : m.classAt? l l.scriptImporter = none) :
    (s.addAll files).get? l.scriptImporter = some (ScriptImporter.ofModule m).render := by
  obtain ⟨others, hartifacts, hothers⟩ : ∃ others : List Artifact,
      m.artifacts = [.modelSource (ModelSource.ofModule m), .typesResolvers (TypeResolvers.ofModule m)] ++
        .scriptImporter (ScriptImporter.ofModule m) :: others ∧
      ∀ a ∈ others, a.ending ≠ "types_script_importer.ar.h" := by
    refine ⟨_, rfl, fun a ha => ?_⟩
    cases a with
    | scriptImporter importer => simp at ha
    | _ => dsimp only [Artifact.ending]; decide
  exact get?_of_fixed hemit s hartifacts (List.mem_cons_of_mem _ List.mem_cons_self) hothers
    fun e he => classHeader_ne_of_classAt? hnone he

/-- **The header of a class is produced**, unless the name of a later class leads to its path. -/
theorem get?_classHeader (hemit : m.emit l = .ok files) (s : ArtifactSet) {path : Text} {e : Entry}
    (he : m.classAt? l path = some e) :
    (s.addAll files).get? path = some (ClassHeader.ofDeclaration e.toDeclaration).render := by
  obtain ⟨rfl, before, after, hclasses, hafter⟩ := exists_of_classAt? he
  obtain ⟨front, hartifacts⟩ : ∃ front, m.artifacts =
      front ++ .classHeader (ClassHeader.ofDeclaration e.toDeclaration) ::
        (after.map (fun e => .classHeader (ClassHeader.ofDeclaration e.toDeclaration)) ++
          if m.hasRender then [.renderSource (RenderSource.ofModule m)] else []) := by
    unfold artifacts
    rw [hclasses, List.map_append, List.map_cons, ← List.append_assoc, List.append_assoc, List.cons_append]
    exact ⟨_, rfl⟩
  -- behind the header come those of later classes, and the render source
  apply get?_artifact hemit s hartifacts
  rw [List.forall_mem_append, List.forall_mem_map]
  refine ⟨hafter, fun a ha => ?_⟩
  split at ha
  · rw [List.mem_singleton.mp ha]
    exact Artifact.renderSource_ne_classHeader l e.name
  · cases ha

end Module

/-- **The artifacts of a class agree on its accessors.** For every module whose artifacts are emitted, whose classes
have different short names and whose properties name their class as owner, and for every class that is the last one
whose name leads to the path of its header: the header of the class and the model source are produced, whatever the set
holds before; the accessors that the model source defines in the scope of the class are those that its header declares,
in the same order, and each is spelled with the same result, name and parameters. The script importer is produced as
well, unless the name of a class leads to its path, and every getter or setter that the template of the class binds in
it is declared in the header, under the name by which it is bound. -/
theorem accessors_agree {m : Module} {l : Layout} {files : List (Text × Text)} (hemit : m.emit l = .ok files)
    (hnames : (m.classes.map (·.name)).Nodup) (howners : ∀ e ∈ m.classes, ∀ p ∈ e.properties, p.owner = e.name)
    (s : ArtifactSet) {e : Entry} (he : m.classAt? l (l.classHeader e.name) = some e) :
    (s.addAll files).get? l.modelSource = some (ModelSource.ofModule m).render ∧
    (s.addAll files).get? (l.classHeader e.name) = some (ClassHeader.ofDeclaration e.toDeclaration).render ∧
    ((ModelSource.ofModule m).accessors.filter (·.owner = e.name)).map (·.accessor) =
      (ClassHeader.ofDeclaration e.toDeclaration).accessors ∧
    (∀ a ∈ (ClassHeader.ofDeclaration e.toDeclaration).accessors,
      a.declarationLines = (["public: \\", "    " ++ a.result ++ " " ++ a.signature ++ "; \\"] : List Text)) ∧
    (∀ d ∈ (ModelSource.ofModule m).accessors, d.owner = e.name → ∃ body, d.lines =
      inOrder [["", d.accessor.result, e.name ++ "::" ++ d.accessor.signature, "\x7b"], body, ["\x7d"]]) ∧
    (m.classAt? l l.scriptImporter = none →
      (s.addAll files).get? l.scriptImporter = some (ScriptImporter.ofModule m).render) ∧
    ScriptTemplate.ofEntry m e ∈ (ScriptImporter.ofModule m).templates ∧
    ∀ b ∈ (ScriptTemplate.ofEntry m e).bindings, ∀ role, b.role? = some role →
      ∃ a ∈ (ClassHeader.ofDeclaration e.toDeclaration).accessors, a.role = role ∧ a.name = b.member := by
  have hclass : e ∈ m.classes := Module.mem_classes_of_classAt? he
  obtain ⟨hmem, hkind⟩ := List.mem_filter.mp hclass
  have hkind : e.kind = .classType := of_decide_eq_true hkind
  -- which files are kept is told by the paths alone, what they say by the lists of accessors
  refine ⟨Module.get?_modelSource hemit s, Module.get?_classHeader hemit s he,
    Module.definedAccessors_eq hnames howners hclass, ?_, ?_, Module.get?_scriptImporter hemit s, ?_, ?_⟩
  · exact fun a _ => a.declarationLines_eq
  · intro d _ howner
    rw [← howner]
    exact d.lines_eq
  · exact List.mem_map_of_mem (List.mem_filter.mpr ⟨hmem, by simp [Declaration.isScripted, hkind]⟩)
  · exact fun b hb role hrole => Entry.declared_of_binding hkind hb hrole

/-- A module with the class `a` and another class, both with properties, as it is read from two headers and resolved. -/
def besideClass (other : Text) : Module :=
  let first := (Module.empty "m" "").readHeader "a.h"
    "AGEA_ar_class()\nclass a\nAGEA_ar_property(\"access=all\")\nint m_x;\n"
  let second := first.module.readHeader "b.h"
    ("AGEA_ar_class()\nclass " ++ other ++ "\nAGEA_ar_property(\"access=read_only\")\nfloat m_y;\n" ++
      "AGEA_ar_property(\"access=cpp_writeonly\")\nbool m_z;\nAGEA_ar_property(\"access=no\")\nbool m_w;\n")
  second.module.resolve.module

/-- The name of the other class leads to the header of `a`, and its header is the one that is kept there. -/
theorem accessors_of_shared_place :
    ∃ files, (besideClass "b/../a").emit ⟨"out", "m"⟩ = .ok files ∧
      (ArtifactSet.addAll {} files).get? (Layout.scriptImporter ⟨"out", "m"⟩) =
        some (ScriptImporter.ofModule (besideClass "b/../a")).render ∧
      ∃ e ∈ (besideClass "b/../a").classes,
        (ArtifactSet.addAll {} files).get? "out/packages/m/public/include/packages/m/model/a.ar.h" =
          some (ClassHeader.ofDeclaration e.toDeclaration).render ∧
        ((ModelSource.ofModule (besideClass "b/../a")).accessors.filter (·.owner = e.name)).map (·.accessor) =
          (ClassHeader.ofDeclaration e.toDeclaration).accessors ∧
        (ClassHeader.ofDeclaration e.toDeclaration).accessors.map (·.name) = ["get_y", "set_z"] := by
  have hfacts : ((besideClass "b/../a").unknownKind? = none ∧ ((besideClass "b/../a").classes.map (·.name)).Nodup ∧
      (∀ e ∈ (besideClass "b/../a").classes, ∀ p ∈ e.properties, p.owner = e.name) ∧
      (besideClass "b/../a").classAt? ⟨"out", "m"⟩ (Layout.scriptImporter ⟨"out", "m"⟩) = none) ∧
      ∃ e ∈ (besideClass "b/../a").classes,
        (besideClass "b/../a").classAt? ⟨"out", "m"⟩ (Layout.classHeader ⟨"out", "m"⟩ e.name) = some e ∧
        Layout.classHeader ⟨"out", "m"⟩ e.name = "out/packages/m/public/include/packages/m/model/a.ar.h" ∧
        (ClassHeader.ofDeclaration e.toDeclaration).accessors.map (·.name) = ["get_y", "set_z"] := by
    decide +kernel
  obtain ⟨⟨hknown, hnames, howners, hnone⟩, e, he, hkept, hpath, hdeclared⟩ := hfacts
  have hemit : (besideClass "b/../a").emit ⟨"out", "m"⟩ =
      .ok ((besideClass "b/../a").artifacts.map fun a => (a.path ⟨"out", "m"⟩, a.render)) := by
    rw [Module.emit, hknown]
  obtain ⟨-, hheader, haccessors, -, -, himporter, -, -⟩ := accessors_agree hemit hnames howners {} hkept
  rw [hpath] at hheader
  exact ⟨_, hemit, himporter hnone, e, he, hheader, haccessors, hdeclared⟩

/-- **Headers that are not kept.** The accessors of `a` are defined in the model source and bound in the script importer,
but the header at the path of its own declares those of the other class. The name of a class may lead to the script
importer just as well, and then nothing is bound. -/
theorem accessors_without_header :
    ((besideClass "b/../a").classes.map (·.name)).Nodup ∧
    (∀ e ∈ (besideClass "b/../a").classes, ∀ p ∈ e.properties, p.owner = e.name) ∧
    (∃ e ∈ (besideClass "b/../a").classes, e.name = "a" ∧
      ((ModelSource.ofModule (besideClass "b/../a")).accessors.filter (·.owner = e.name)).map (·.accessor) =
        [⟨.getter, "int", "x"⟩, ⟨.setter, "int", "x"⟩] ∧
      (ScriptTemplate.ofEntry (besideClass "b/../a") e).bindings = [.getter "x", .setter "x"]) ∧
    ((besideClass "b/../a").emit ⟨"out", "m"⟩).map (fun files =>
        (ArtifactSet.addAll {} files).get? (Layout.classHeader ⟨"out", "m"⟩ "a")) =
      .ok (some (ClassHeader.render ⟨"b/../a", [⟨.getter, "float", "y"⟩, ⟨.setter, "bool", "z"⟩]⟩)) ∧
    ((besideClass "../types_script_importer").emit ⟨"out", "m"⟩).map (fun files =>
        (ArtifactSet.addAll {} files).get? (Layout.scriptImporter ⟨"out", "m"⟩)) =
      .ok (some (ClassHeader.render
        ⟨"../types_script_importer", [⟨.getter, "float", "y"⟩, ⟨.setter, "bool", "z"⟩]⟩)) := by
  decide +kernel

end HeaderReflection
