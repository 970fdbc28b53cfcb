import HeaderReflection.Proofs.Generation.Places
import HeaderReflection.Proofs.Lineage.Ids

/-!
# Parent calls in the script importer

The template that binds the members of a type calls the template of the linked parent. Templates stand in the order of
the types, so the template of a parent stands before the one that calls it, if it has one: classes and structs do, but
external types do not, and links are made by short name to types of any kind.

## Main definitions

- `ScriptImporter.CallsDefined`: every template that is called stands before the one that calls it.

## Main results

- `ScriptImporter.render_split`: the text of a script importer around some of its templates.
- `Module.template_before`: the template of a parent stands before the one that calls it.
- `parent_calls_defined`: which calls lead to a template, and when all do.
-/

namespace HeaderReflection

/-! ## §1 Templates and their text -/

namespace ScriptTemplate

/-- The line that begins the definition of a template. -/
def headLine (name : Text) : Text := scriptTemplate name ++ "(T& lua_type)"

theorem headLine_mem_lines (t : ScriptTemplate) : headLine t.name ∈ t.lines := by
  simp [lines, inOrder, headLine]

theorem parentLine_mem_lines {t : ScriptTemplate} {parent : Text} (h : t.parent = some parent) :
    parentLine parent ∈ t.lines := by
  simp [lines, inOrder, h]

end ScriptTemplate

namespace ScriptImporter

/-- Every template that is called stands before the one that calls it. -/
def CallsDefined (s : ScriptImporter) : Prop :=
  ∀ (before after : List ScriptTemplate) (t : ScriptTemplate) (parent : Text),
    s.templates = before ++ t :: after → t.parent = some parent → ∃ callee ∈ before, callee.name = parent

/-- The text of a script importer around two of its templates. -/
theorem render_split {s : ScriptImporter} {before middle after : List ScriptTemplate} {callee caller : ScriptTemplate}
    (h : s.templates = before ++ callee :: middle ++ caller :: after) :
    s.render = sourceText [["#pragma once"], before.flatMap ScriptTemplate.lines, callee.lines,
      middle.flatMap ScriptTemplate.lines, caller.lines, after.flatMap ScriptTemplate.lines] := by
  unfold render
  rw [h]
  simp [sourceText, inOrder]

end ScriptImporter

/-! ## §2 The order of templates -/

namespace Module

variable {m : Module}

/-- The types that have a template, in their order. -/
def scripted (m : Module) : List Entry := m.entries.filter (·.isScripted)

theorem mem_scripted {e : Entry} : e ∈ m.scripted ↔ e ∈ m.entries ∧ e.isScripted = true := List.mem_filter

theorem templates_eq : (ScriptImporter.ofModule m).templates = m.scripted.map (ScriptTemplate.ofEntry m) := rfl

theorem sublist_scripted_iff {a b : Entry} :
    [a, b].Sublist m.scripted ↔ a.isScripted = true ∧ b.isScripted = true ∧ [a, b].Sublist m.entries := by
  constructor
  · intro h
    exact ⟨(mem_scripted.mp (h.subset (by simp))).2, (mem_scripted.mp (h.subset (by simp))).2,
      h.trans List.filter_sublist⟩
  · rintro ⟨ha, hb, h⟩
    simpa [scripted, ha, hb] using h.filter (·.isScripted)

section Resolution

variable (hn : Numbered m.entries) (hcycle : m.resolve.cycle = none)

include hn hcycle

/-- A linked parent stands before its children. -/
theorem sublist_of_parentOf? {e p : Entry} (he : e ∈ m.resolve.module.entries)
    (hp : m.resolve.module.parentOf? e = some p) : [p, e].Sublist m.resolve.module.entries :=
  m.sublist_of_ancestor hn hcycle he (Relation.TransGen.single hp)

/-- **The template of a parent stands before the one that calls it**, if the parent has one. -/
theorem template_before {e p : Entry} (he : e ∈ m.resolve.module.entries) (hscripted : e.isScripted = true)
    (hp : m.resolve.module.parentOf? e = some p) (hparent : p.isScripted = true) :
    ∃ before middle after, (ScriptImporter.ofModule m.resolve.module).templates =
      before ++ ScriptTemplate.ofEntry m.resolve.module p :: middle ++
        ScriptTemplate.ofEntry m.resolve.module e :: after := by
  have hpair := sublist_scripted_iff.mpr ⟨hparent, hscripted, sublist_of_parentOf? hn hcycle he hp⟩
  exact exists_split_of_sublist_pair (hpair.map (ScriptTemplate.ofEntry m.resolve.module))

/-- **When all calls lead to a template**: when every type that has a template and a linked parent stands behind a type
that has a template and the short name of the parent. -/
theorem callsDefined_iff :
    (ScriptImporter.ofModule m.resolve.module).CallsDefined ↔
      ∀ e ∈ m.resolve.module.entries, e.isScripted = true → ∀ p, m.resolve.module.parentOf? e = some p →
        ∃ e' : Entry, e'.isScripted = true ∧ e'.name = p.name ∧ [e', e].Sublist m.resolve.module.entries := by
  have hnodup : m.resolve.module.scripted.Nodup := (m.numbered_resolve hn hcycle).nodup.filter _
  constructor
  · intro hdefined e he hscripted p hp
    obtain ⟨before, after, hsplit⟩ := List.append_of_mem (mem_scripted.mpr ⟨he, hscripted⟩)
    -- the templates are split where the types are
    obtain ⟨callee, hcallee, hname⟩ := hdefined (before.map (ScriptTemplate.ofEntry m.resolve.module))
      (after.map (ScriptTemplate.ofEntry m.resolve.module)) (ScriptTemplate.ofEntry m.resolve.module e) p.name
      (by rw [templates_eq, hsplit, List.map_append, List.map_cons]) (by simp [ScriptTemplate.ofEntry, hp])
    obtain ⟨e', he', rfl⟩ := List.mem_map.mp hcallee
    have hpair : [e', e].Sublist m.resolve.module.scripted := by
      rw [hsplit]
      exact (List.singleton_sublist.mpr he').append (List.singleton_sublist.mpr List.mem_cons_self)
    obtain ⟨hscripted', -, hpair⟩ := sublist_scripted_iff.mp hpair
    exact ⟨e', hscripted', hname, hpair⟩
  · intro hearlier before after t parent hsplit hparent
    -- the place of the template is the place of its type, and no type stands twice
    obtain ⟨front, rest, hentries, rfl, hrest⟩ := List.map_eq_append_iff.mp hsplit
    obtain ⟨e, back, rfl, rfl, rfl⟩ := List.map_eq_cons_iff.mp hrest
    change m.resolve.module.scripted = front ++ e :: back at hentries
    have hmem : e ∈ m.resolve.module.scripted := by simp [hentries]
    obtain ⟨he, hscripted⟩ := mem_scripted.mp hmem
    obtain ⟨p, hp, rfl⟩ := Option.map_eq_some_iff.mp hparent
    obtain ⟨e', hscripted', hname, hpair⟩ := hearlier e he hscripted p hp
    have hpair := sublist_scripted_iff.mpr ⟨hscripted', hscripted, hpair⟩
    rw [hentries] at hpair hnodup
    exact ⟨_, List.mem_map_of_mem (mem_before_of_sublist_pair hnodup hpair), hname⟩

end Resolution

end Module

/-! ## §3 Modules that have been read -/

/-- Of the types that headers declare, all but the external ones have a template. -/
theorem Module.isScripted_iff {package : Text} {m : Module} (hm : m.ReadIn package) {e : Entry}
    (he : e ∈ m.resolve.module.entries) : e.isScripted = true ↔ e.kind ≠ .external := by
  obtain ⟨read, hread, -, hkind, -⟩ := exists_of_mem_resolve he
  have hknown : e.kind.isKnown = true := hkind ▸ (hm.named read hread).isRead.kind
  unfold Declaration.isScripted
  cases hk : e.kind with
  | unknown code =>
    rw [hk] at hknown
    cases hknown
  | _ => simp

/-- **Which parent calls lead to a template.** For headers that are read into one module, whatever they say, and a
resolution without a cycle: the script importer is among the artifacts; the template of a type that is linked to a class
or struct calls a template that stands before it in the text; and all calls lead to a template before them exactly when
every class or struct that is linked to an external type stands behind a class or struct of the same short name. -/
theorem parent_calls_defined {name scope : Text} {headers : List (Text × Text)} {m : Module}
    (hread : (Module.empty name scope).readAll headers = .ok m) (hcycle : m.resolve.cycle = none) (layout : Layout) :
    (∃ files, m.resolve.module.emit layout = .ok files ∧
      (layout.scriptImporter, (ScriptImporter.ofModule m.resolve.module).render) ∈ files) ∧
    (∀ e ∈ m.resolve.module.entries, e.isScripted = true → ∀ p, m.resolve.module.parentOf? e = some p →
      ScriptTemplate.parentLine p.name ∈ (ScriptTemplate.ofEntry m.resolve.module e).lines ∧
      (p.kind ≠ .external →
        ScriptTemplate.headLine p.name ∈ (ScriptTemplate.ofEntry m.resolve.module p).lines ∧
        ∃ before middle after : List ScriptTemplate, (ScriptImporter.ofModule m.resolve.module).render =
          sourceText [["#pragma once"], before.flatMap ScriptTemplate.lines,
            (ScriptTemplate.ofEntry m.resolve.module p).lines, middle.flatMap ScriptTemplate.lines,
            (ScriptTemplate.ofEntry m.resolve.module e).lines, after.flatMap ScriptTemplate.lines])) ∧
    ((ScriptImporter.ofModule m.resolve.module).CallsDefined ↔
      ∀ e ∈ m.resolve.module.entries, e.isScripted = true → ∀ p, m.resolve.module.parentOf? e = some p →
        p.kind = .external →
        ∃ e' : Entry, e'.isScripted = true ∧ e'.name = p.name ∧ [e', e].Sublist m.resolve.module.entries) := by
  have hm := Module.readIn_of_readAll hread
  have hparentMem : ∀ {e p : Entry}, m.resolve.module.parentOf? e = some p → p ∈ m.resolve.module.entries :=
    fun hp => (m.numbered_resolve hm.numbered hcycle).mem_of_parentIn? hp
  refine ⟨?_, ?_, ?_⟩
  · obtain ⟨files, hfiles⟩ := Module.emit_ok (isKnown_of_resolve fun e he => (hm.named e he).isRead.kind) layout
    refine ⟨files, hfiles, ?_⟩
    rw [Module.files_of_emit hfiles]
    exact List.mem_map.mpr ⟨.scriptImporter (ScriptImporter.ofModule m.resolve.module), by simp [Module.artifacts], rfl⟩
  · intro e he hscripted p hp
    refine ⟨ScriptTemplate.parentLine_mem_lines (by simp [ScriptTemplate.ofEntry, hp]), fun hkind => ?_⟩
    have hparent := (Module.isScripted_iff hm (hparentMem hp)).mpr hkind
    obtain ⟨before, middle, after, hsplit⟩ := Module.template_before hm.numbered hcycle he hscripted hp hparent
    exact ⟨ScriptTemplate.headLine_mem_lines (ScriptTemplate.ofEntry m.resolve.module p), before, middle, after,
      ScriptImporter.render_split hsplit⟩
  · rw [Module.callsDefined_iff hm.numbered hcycle]
    constructor
    · intro hearlier e he hscripted p hp _
      exact hearlier e he hscripted p hp
    · intro hearlier e he hscripted p hp
      by_cases hkind : p.kind = .external
      · exact hearlier e he hscripted p hp hkind
      · -- a parent that has a template is itself the earlier type
        have hparent := (Module.isScripted_iff hm (hparentMem hp)).mpr hkind
        exact ⟨p, hparent, rfl, Module.sublist_of_parentOf? hm.numbered hcycle he hp⟩

/-- A class under another one, beside an external type. -/
theorem parent_calls_of_class_chain :
    ∃ m, (Module.empty "m" "").readAll
        [("b.h", "AGEA_ar_class()\nclass b : public a\n"),
         ("a.h", "AGEA_ar_external_type()\nx::T\nAGEA_ar_class()\nclass a\n")] = .ok m ∧
      ScriptImporter.ofModule m.resolve.module = ⟨[⟨"a", none, []⟩, ⟨"b", some "a", []⟩]⟩ ∧
      (ScriptImporter.ofModule m.resolve.module).CallsDefined := by
  let headers : List (Text × Text) :=
    [("b.h", "AGEA_ar_class()\nclass b : public a\n"),
     ("a.h", "AGEA_ar_external_type()\nx::T\nAGEA_ar_class()\nclass a\n")]
  have hfacts : ((Module.empty "m" "").readAll headers).map
      (fun m => (m.resolve.cycle, ScriptImporter.ofModule m.resolve.module,
        m.resolve.module.entries.all fun e => (m.resolve.module.parentOf? e).all (·.kind ≠ .external))) =
      .ok (none, ⟨[⟨"a", none, []⟩, ⟨"b", some "a", []⟩]⟩, true) := by decide +kernel
  cases hread : (Module.empty "m" "").readAll headers with
  | error error => rw [hread] at hfacts; cases hfacts
  | ok m =>
    rw [hread, Except.map, Except.ok.injEq, Prod.mk.injEq, Prod.mk.injEq] at hfacts
    obtain ⟨hcycle, himporter, hlinks⟩ := hfacts
    refine ⟨m, rfl, himporter, (parent_calls_defined hread hcycle ⟨"out", "m"⟩).2.2.mpr ?_⟩
    intro e he _ p hp hkind
    have hlink := List.all_eq_true.mp hlinks e he
    rw [hp, Option.all_some, hkind] at hlink
    cases hlink

/-- **External types have no template.** A class that is linked to one by its short name calls a template that the text
does not define. -/
theorem parent_call_of_external :
    ∃ m, (Module.empty "m" "").readAll
        [("b.h", "AGEA_ar_external_type()\nx::base\nAGEA_ar_class()\nclass derived : public base\n")] = .ok m ∧
      m.resolve.cycle = none ∧
      (ScriptImporter.ofModule m.resolve.module).templates = [⟨"derived", some "base", []⟩] ∧
      (ScriptImporter.ofModule m.resolve.module).render =
        sourceText [["#pragma once", "", "template <typename T, typename K>", "void",
          "derived__lua_script_extention(T& lua_type)", "\x7b", "    base__lua_script_extention<T, K>(lua_type);",
          "\x7d"]] ∧
      ¬ (ScriptImporter.ofModule m.resolve.module).CallsDefined := by
  let headers : List (Text × Text) :=
    [("b.h", "AGEA_ar_external_type()\nx::base\nAGEA_ar_class()\nclass derived : public base\n")]
  have hfacts : ((Module.empty "m" "").readAll headers).map
      (fun m => (m.resolve.cycle, ScriptImporter.ofModule m.resolve.module)) =
      .ok (none, ⟨[⟨"derived", some "base", []⟩]⟩) := by decide +kernel
  cases hread : (Module.empty "m" "").readAll headers with
  | error error => rw [hread] at hfacts; cases hfacts
  | ok m =>
    rw [hread, Except.map, Except.ok.injEq, Prod.mk.injEq] at hfacts
    obtain ⟨hcycle, himporter⟩ := hfacts
    refine ⟨m, rfl, hcycle, by rw [himporter], by rw [himporter]; decide +kernel, ?_⟩
    rw [himporter]
    intro hdefined
    obtain ⟨callee, hcallee, -⟩ := hdefined [] [] ⟨"derived", some "base", []⟩ "base" rfl rfl
    cases hcallee

end HeaderReflection
