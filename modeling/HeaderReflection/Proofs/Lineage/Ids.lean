import HeaderReflection.Proofs.Header.Declared
import HeaderReflection.Proofs.Lineage.ParentsFirst
import HeaderReflection.Proofs.Table.Updates

/-!
# Ids of declared types

A type gets its id from the name of its module and its own short name, while types are told apart by their full names.
So the ids of a module are as different as the short names are: the full names of classes and structs add nothing to
their short names, but external types bring namespaces of their own, which the ids leave out.

## Main definitions

- `Module.ReadIn`: what holds of a module that has been read from headers.

## Main results

- `typeId_of_short`: the id of a type with a short name.
- `Module.perm_ids`: the ids that resolution gives.
- `ids_distinct_iff`: the ids are different exactly when the short names are.
-/

namespace HeaderReflection

/-! ## §1 Modules that have been read -/

/-- What holds of a module after headers have been read: its types are told apart by numbers, have neither links nor
ids yet, and are named in its package. -/
structure Module.ReadIn (package : Text) (m : Module) : Prop where
  numbered : Numbered m.entries
  unlinked : ∀ e ∈ m.entries, e.parent = none
  unidentified : ∀ e ∈ m.entries, e.id = []
  named : ∀ e ∈ m.entries, e.toDeclaration.NamedIn package

/-- **What headers leave in a module.** -/
theorem Module.readIn_of_readAll {name scope : Text} {headers : List (Text × Text)} {m : Module}
    (h : (Module.empty name scope).readAll headers = .ok m) : m.ReadIn (Module.empty name scope).fullName := by
  have hempty : (Module.empty name scope).entries = entriesOf [] := rfl
  obtain ⟨-, ds, hentries, hnamed⟩ := Module.readAll_entries h hempty
  rw [List.nil_append] at hentries
  constructor
  · unfold Numbered
    rw [hentries, map_serial_entriesOf]
    exact List.nodup_range
  · intro e he
    exact (mem_entriesOf (hentries ▸ he)).1
  · intro e he
    exact (mem_entriesOf (hentries ▸ he)).2
  · intro e he
    apply hnamed
    rw [← map_toDeclaration_entriesOf ds, ← hentries]
    exact List.mem_map_of_mem he

/-! ## §2 The id of a short name -/

theorem Text.splitOnText_of_cut_eq_none {sep text : Text} (h : cut sep text = none) :
    splitOnText sep text = [text] := by
  unfold splitOnText
  cases text.length with
  | zero => rfl
  | succ fuel => rw [splitOnTextUpTo, h]

theorem typeId_of_short {name : Text} (h : Text.cut "::" name = none) (module : Text) :
    typeId module name = module ++ "__" ++ name := by
  unfold typeId
  rw [Text.splitOnText_of_cut_eq_none h]

/-! ## §3 The ids of a module -/

theorem Module.id_resolvedEntry_of_nil (m : Module) {e : Entry} (h : e.id = []) :
    (m.resolvedEntry e).id = typeId m.name e.name := by
  have hname : (m.linkedEntry e).name = e.name := by
    rw [m.toDeclaration_linkedEntry, e.name_allowed]
  unfold resolvedEntry Entry.identified
  rw [if_pos (by rw [m.id_linkedEntry, h]), hname]

/-- A line of the table of type ids for every id, in some order; the lines repeat where the ids do. -/
theorem nodup_idLines {ids : List Text} : (idLines ids).Nodup ↔ ids.Nodup := by
  unfold idLines
  rw [List.nodup_map_iff (List.append_left_injective _), (Text.sort_perm ids).nodup_iff]

section Read

variable {package : Text} {m : Module} (hm : m.ReadIn package) (hcycle : m.resolve.cycle = none)

include hm hcycle

/-- **The ids that resolution gives** are made of the short names alone. -/
theorem Module.perm_ids :
    (m.resolve.module.entries.map (·.id)).Perm ((m.entries.map (·.name)).map (m.name ++ "__" ++ ·)) := by
  refine ((m.perm_resolve hm.numbered hcycle).map _).trans (List.Perm.of_eq ?_)
  rw [List.map_map, List.map_map]
  refine List.map_congr_left fun e he => ?_
  simp only [Function.comp_apply]
  rw [m.id_resolvedEntry_of_nil (hm.unidentified e he), typeId_of_short (hm.named e he).noColons]

theorem Module.nodup_ids : (m.resolve.module.entries.map (·.id)).Nodup ↔ (m.entries.map (·.name)).Nodup := by
  rw [(m.perm_ids hm hcycle).nodup_iff, List.nodup_map_iff (List.append_right_injective _)]

/-- A type after resolution is one that has been read, with the id that goes with its short name. -/
theorem Module.exists_read {e : Entry} (he : e ∈ m.resolve.module.entries) :
    ∃ read ∈ m.entries, e = m.resolvedEntry read ∧ e.name = read.name ∧ e.fullName = read.fullName ∧
      e.kind = read.kind ∧ e.id = m.name ++ "__" ++ read.name := by
  obtain ⟨read, hread, rfl⟩ := List.mem_map.mp ((m.perm_resolve hm.numbered hcycle).mem_iff.mp he)
  have hid := m.id_resolvedEntry_of_nil (hm.unidentified read hread)
  rw [typeId_of_short (hm.named read hread).noColons] at hid
  obtain ⟨_, _, _, _, hallowed⟩ := read.allowed_eq m
  have hdeclaration := m.toDeclaration_resolvedEntry read
  rw [hallowed] at hdeclaration
  exact ⟨read, hread, rfl, by rw [hdeclaration], by rw [hdeclaration], by rw [hdeclaration], hid⟩

/-- **Only external types share ids** with others, where full names are different: the full name of a class or struct
is its short name in the package. -/
theorem Module.external_of_same_id (hfull : (m.entries.map (·.fullName)).Nodup) {e e' : Entry}
    (he : e ∈ m.resolve.module.entries) (he' : e' ∈ m.resolve.module.entries) (hne : e ≠ e') (hid : e.id = e'.id) :
    e.name = e'.name ∧ (e.kind = .external ∨ e'.kind = .external) := by
  obtain ⟨read, hread, rfl, hname, hfullName, hkind, hreadId⟩ := m.exists_read hm hcycle he
  obtain ⟨read', hread', rfl, hname', hfullName', hkind', hreadId'⟩ := m.exists_read hm hcycle he'
  rw [hreadId, hreadId', List.append_cancel_left_eq] at hid
  refine ⟨by rw [hname, hname', hid], ?_⟩
  by_contra hown
  rw [not_or, hkind, hkind'] at hown
  -- the full names of two classes or structs are made of the same short name
  have hsame : read.fullName = read'.fullName := by
    rw [(hm.named read hread).fullName_of_own hown.1, (hm.named read' hread').fullName_of_own hown.2, hid]
  exact hne (by rw [List.inj_on_of_nodup_map hfull hread hread' hsame])

end Read

/-- **Ids are as different as short names.** For headers that are read into one module, whatever they say, and types
with different full names: after resolution the ids are different, and so are the lines that the module has in the table
of type ids, exactly when the short names are. Two types that share an id have the same short name, and one of them is
an external type. -/
theorem ids_distinct_iff {name scope : Text} {headers : List (Text × Text)} {m : Module}
    (hread : (Module.empty name scope).readAll headers = .ok m) (hfull : (m.entries.map (·.fullName)).Nodup)
    (hcycle : m.resolve.cycle = none) :
    ((m.resolve.module.entries.map (·.id)).Nodup ↔ (m.entries.map (·.name)).Nodup) ∧
    ((idLines (m.resolve.module.entries.map (·.id))).Nodup ↔ (m.entries.map (·.name)).Nodup) ∧
    typeIdsBody (m.resolve.module.entries.map (·.id)) =
      (idLines (m.resolve.module.entries.map (·.id))).flatMap (· ++ [Text.lineFeed]) ∧
    ∀ e ∈ m.resolve.module.entries, ∀ e' ∈ m.resolve.module.entries, e ≠ e' → e.id = e'.id →
      e.name = e'.name ∧ (e.kind = .external ∨ e'.kind = .external) := by
  have hm := Module.readIn_of_readAll hread
  have hids := m.nodup_ids hm hcycle
  refine ⟨hids, nodup_idLines.trans hids, typeIdsBody_eq _, ?_⟩
  intro e he e' he' hne hid
  exact m.external_of_same_id hm hcycle hfull he he' hne hid

/-- A class, a struct and an external type, with different short names. -/
theorem ids_of_three_kinds :
    ∃ m, (Module.empty "m" "a").readAll
        [("t.h", "AGEA_ar_external_type()\nx::T\nAGEA_ar_class()\nclass U\nAGEA_ar_struct()\nstruct V\n")] = .ok m ∧
      m.resolve.module.entries.map (·.fullName) = ["a::m::U", "a::m::V", "x::T"] ∧
      (m.resolve.module.entries.map (·.id)).Nodup := by
  let headers : List (Text × Text) :=
    [("t.h", "AGEA_ar_external_type()\nx::T\nAGEA_ar_class()\nclass U\nAGEA_ar_struct()\nstruct V\n")]
  have hfacts : ((Module.empty "m" "a").readAll headers).map
      (fun m => (m.resolve.cycle, m.resolve.module.entries.map (·.fullName),
        decide (m.entries.map (·.fullName)).Nodup, decide (m.entries.map (·.name)).Nodup)) =
      .ok (none, ["a::m::U", "a::m::V", "x::T"], true, true) := by decide +kernel
  cases hread : (Module.empty "m" "a").readAll headers with
  | error error => rw [hread] at hfacts; cases hfacts
  | ok m =>
    rw [hread, Except.map, Except.ok.injEq, Prod.mk.injEq, Prod.mk.injEq, Prod.mk.injEq] at hfacts
    obtain ⟨hcycle, hnames, hfull, hshort⟩ := hfacts
    exact ⟨m, rfl, hnames, (ids_distinct_iff hread (of_decide_eq_true hfull) hcycle).1.mpr (of_decide_eq_true hshort)⟩

/-- **Ids leave namespaces out.** Two external types with different full names get one id, and the module lists it
twice. -/
theorem ids_of_same_short_name :
    ∃ m, (Module.empty "m" "").readAll
        [("t.h", "AGEA_ar_external_type()\nx::T\nAGEA_ar_external_type()\ny::T\n")] = .ok m ∧
      m.entries.map (·.fullName) = ["x::T", "y::T"] ∧
      m.resolve.cycle = none ∧
      m.resolve.module.entries.map (·.id) = ["m__T", "m__T"] ∧
      typeIdsBody (m.resolve.module.entries.map (·.id)) = "m__T,\nm__T,\n" := by
  let headers : List (Text × Text) := [("t.h", "AGEA_ar_external_type()\nx::T\nAGEA_ar_external_type()\ny::T\n")]
  have hfacts : ((Module.empty "m" "").readAll headers).map
      (fun m => (m.entries.map (·.fullName), m.resolve.cycle, m.resolve.module.entries.map (·.id))) =
      .ok (["x::T", "y::T"], none, ["m__T", "m__T"]) := by decide +kernel
  cases hread : (Module.empty "m" "").readAll headers with
  | error error => rw [hread] at hfacts; cases hfacts
  | ok m =>
    rw [hread, Except.map, Except.ok.injEq, Prod.mk.injEq, Prod.mk.injEq] at hfacts
    obtain ⟨hfull, hcycle, hids⟩ := hfacts
    exact ⟨m, rfl, hfull, hcycle, hids, by rw [hids]; decide +kernel⟩

end HeaderReflection
