import HeaderReflection.Proofs.Lineage.Climbing
import HeaderReflection.Proofs.Lineage.ScanOrder
import Mathlib.Logic.Relation

/-!
# Parents first

Resolution loses no type, links every type to the parent it names, and puts parents before their children, for any list
of types. The one thing that keeps it from doing so is a cycle of parents, and it tells one that is there.

## Main definitions

- `LinksTo`: which type another one names as its parent.
- `Module.linkedEntry`, `Module.resolvedEntry`: what becomes of a type.
- `Module.IsAncestor`: the ancestors of a type, over links.

## Main results

- `linkedEntry_parent_eq_some_iff`: links lead to the parents that are named.
- `parents_first_of_resolve`: what resolution gives where there is no cycle.
- `cycle_iff_own_ancestor`: cycles are told exactly where there are some.
-/

namespace HeaderReflection

/-! ## §1 What becomes of a type -/

/-- The type that another one names as its parent: the first other type with the parent's short name, by full name and
kind. Of types that agree in both, the one that has joined the module earlier comes first. -/
structure LinksTo (entries : List Entry) (e p : Entry) : Prop where
  named : e.parentName ≠ []
  mem : p ∈ entries
  other : p.serial ≠ e.serial
  name : p.name = shortName e.parentName
  first : ∀ q ∈ entries, q.serial ≠ e.serial → q.name = shortName e.parentName → q ≠ p →
    p.le q = true ∧ (q.le p = true → [p, q].Sublist entries)

namespace Module

/-- A type after linking: with what the module allows, and with its link. -/
def linkedEntry (m : Module) (e : Entry) : Entry := (e.allowed m).linkedAmong m.dropOverrides.sorted.entries

/-- The types of a module after linking. -/
def linkedEntries (m : Module) : List Entry := (sortBy Entry.le m.entries).map m.linkedEntry

/-- A type after resolution. -/
def resolvedEntry (m : Module) (e : Entry) : Entry := (m.linkedEntry e).identified m

/-- Whether one type is an ancestor of another one, by one link or more. -/
def IsAncestor (m : Module) (p e : Entry) : Prop := Relation.TransGen (fun e p => m.parentOf? e = some p) e p

end Module

theorem Entry.allowed_eq (m : Module) (e : Entry) :
    ∃ (handlers : TypeHandlers) (architype renderConstructor renderDestructor : Option Text),
      e.allowed m = { e with handlers, architype, renderConstructor, renderDestructor } := by
  unfold Entry.allowed
  dsimp only
  split <;> split <;> exact ⟨_, _, _, _, rfl⟩

@[simp] theorem Entry.serial_allowed (m : Module) (e : Entry) : (e.allowed m).serial = e.serial := by
  obtain ⟨_, _, _, _, h⟩ := e.allowed_eq m
  rw [h]

@[simp] theorem Entry.id_allowed (m : Module) (e : Entry) : (e.allowed m).id = e.id := by
  obtain ⟨_, _, _, _, h⟩ := e.allowed_eq m
  rw [h]

@[simp] theorem Entry.parent_allowed (m : Module) (e : Entry) : (e.allowed m).parent = e.parent := by
  obtain ⟨_, _, _, _, h⟩ := e.allowed_eq m
  rw [h]

@[simp] theorem Entry.name_allowed (m : Module) (e : Entry) : (e.allowed m).name = e.name := by
  obtain ⟨_, _, _, _, h⟩ := e.allowed_eq m
  rw [h]

@[simp] theorem Entry.parentName_allowed (m : Module) (e : Entry) : (e.allowed m).parentName = e.parentName := by
  obtain ⟨_, _, _, _, h⟩ := e.allowed_eq m
  rw [h]

theorem Entry.le_allowed (m : Module) (a b : Entry) : (a.allowed m).le (b.allowed m) = a.le b := by
  obtain ⟨_, _, _, _, ha⟩ := a.allowed_eq m
  obtain ⟨_, _, _, _, hb⟩ := b.allowed_eq m
  rw [ha, hb]
  rfl

theorem Entry.linkedAmong_eq (entries : List Entry) (e : Entry) :
    ∃ parent, e.linkedAmong entries = { e with parent } := by
  unfold Entry.linkedAmong
  split <;> exact ⟨_, rfl⟩

theorem Entry.identified_eq (m : Module) (e : Entry) : ∃ id, e.identified m = { e with id } := by
  unfold Entry.identified
  split <;> exact ⟨_, rfl⟩

@[simp] theorem Entry.parent_identified (m : Module) (e : Entry) : (e.identified m).parent = e.parent := by
  obtain ⟨_, h⟩ := e.identified_eq m
  rw [h]

@[simp] theorem Entry.serial_identified (m : Module) (e : Entry) : (e.identified m).serial = e.serial := by
  obtain ⟨_, h⟩ := e.identified_eq m
  rw [h]

theorem typeId_ne_nil (module name : Text) : typeId module name ≠ [] := by
  have hbar : (Text.ofString "_") ≠ [] ∧ (Text.ofString "__") ≠ [] := by decide
  unfold typeId
  split <;> simp [hbar]

namespace Module

variable (m : Module)

@[simp] theorem serial_linkedEntry (e : Entry) : (m.linkedEntry e).serial = e.serial := by
  obtain ⟨_, h⟩ := (e.allowed m).linkedAmong_eq m.dropOverrides.sorted.entries
  rw [linkedEntry, h, e.serial_allowed]

@[simp] theorem id_linkedEntry (e : Entry) : (m.linkedEntry e).id = e.id := by
  obtain ⟨_, h⟩ := (e.allowed m).linkedAmong_eq m.dropOverrides.sorted.entries
  rw [linkedEntry, h, e.id_allowed]

theorem toDeclaration_linkedEntry (e : Entry) : (m.linkedEntry e).toDeclaration = (e.allowed m).toDeclaration := by
  obtain ⟨_, h⟩ := (e.allowed m).linkedAmong_eq m.dropOverrides.sorted.entries
  rw [linkedEntry, h]

theorem le_linkedEntry (a b : Entry) : (m.linkedEntry a).le (m.linkedEntry b) = a.le b := by
  obtain ⟨_, ha⟩ := (a.allowed m).linkedAmong_eq m.dropOverrides.sorted.entries
  obtain ⟨_, hb⟩ := (b.allowed m).linkedAmong_eq m.dropOverrides.sorted.entries
  rw [linkedEntry, linkedEntry, ha, hb, ← Entry.le_allowed m a b]
  rfl

theorem toDeclaration_resolvedEntry (e : Entry) :
    (m.resolvedEntry e).toDeclaration = (e.allowed m).toDeclaration := by
  obtain ⟨_, h⟩ := (m.linkedEntry e).identified_eq m
  rw [resolvedEntry, h, m.toDeclaration_linkedEntry]

/-- **Every type has an id** after resolution, and an id that a type has is kept. -/
theorem id_resolvedEntry (e : Entry) :
    (m.resolvedEntry e).id ≠ [] ∧ (e.id ≠ [] → (m.resolvedEntry e).id = e.id) := by
  unfold resolvedEntry Entry.identified
  by_cases hid : (m.linkedEntry e).id = []
  · rw [if_pos hid]
    refine ⟨typeId_ne_nil _ _, fun hne => ?_⟩
    rw [m.id_linkedEntry] at hid
    exact absurd hid hne
  · rw [if_neg hid]
    exact ⟨hid, fun _ => m.id_linkedEntry e⟩

/-! ## §2 Links -/

theorem entries_sorted : m.dropOverrides.sorted.entries = (sortBy Entry.le m.entries).map (Entry.allowed m) :=
  (map_sortBy (Entry.allowed m) (Entry.le_allowed m) m.entries).symm

theorem entries_linked : m.dropOverrides.sorted.linked.entries = m.linkedEntries := by
  show m.dropOverrides.sorted.entries.map (Entry.linkedAmong m.dropOverrides.sorted.entries) = _
  nth_rewrite 2 [m.entries_sorted]
  rw [List.map_map]
  rfl

theorem parentAmong_sorted (e : Entry) :
    parentAmong m.dropOverrides.sorted.entries (e.allowed m) =
      ((sortBy Entry.le m.entries).find? fun other =>
        other.serial ≠ e.serial && other.name = shortName e.parentName).map (Entry.allowed m) := by
  unfold parentAmong
  rw [m.entries_sorted]
  apply find?_map_of_test
  intro other
  simp only [Entry.serial_allowed, Entry.name_allowed, Declaration.parentShortName, Entry.parentName_allowed]

end Module

theorem Entry.le_total (a b : Entry) : a.le b = true ∨ b.le a = true :=
  Declaration.le_total a.toDeclaration b.toDeclaration

theorem Entry.le_trans (a b c : Entry) (hab : a.le b = true) (hbc : b.le c = true) : a.le c = true :=
  Declaration.le_trans a.toDeclaration b.toDeclaration c.toDeclaration hab hbc

theorem pairwise_sorted (entries : List Entry) : (sortBy Entry.le entries).Pairwise fun a b => a.le b = true :=
  pairwise_sortBy Entry.le_total Entry.le_trans entries

/-- Two elements of a list stand in it one before the other. -/
theorem sublist_pair_or {α : Type} {a b : α} {xs : List α} (ha : a ∈ xs) (hb : b ∈ xs) (hne : a ≠ b) :
    [a, b].Sublist xs ∨ [b, a].Sublist xs := by
  obtain ⟨before, after, rfl⟩ := List.append_of_mem ha
  rcases List.mem_append.mp hb with hb | hb
  · exact Or.inr (List.Sublist.append (List.singleton_sublist.mpr hb) (List.cons_sublist_cons.mpr (List.nil_sublist _)))
  · have hb : b ∈ after := (List.mem_cons.mp hb).resolve_left (Ne.symm hne)
    have hpair : [a, b].Sublist (a :: after) := List.cons_sublist_cons.mpr (List.singleton_sublist.mpr hb)
    exact Or.inl (hpair.trans (List.sublist_append_right before _))

/-- In a list without repetition one element is not both before and after another. -/
theorem not_sublist_pair {α : Type} {a b : α} {xs : List α} (hnodup : xs.Nodup) (hab : [a, b].Sublist xs) :
    ¬ [b, a].Sublist xs := by
  intro hba
  -- whichever of the two comes first would have to come once more
  induction xs with
  | nil => cases hab
  | cons x xs ih =>
    obtain ⟨hx, hxs⟩ := List.nodup_cons.mp hnodup
    cases hab with
    | cons _ hab =>
      cases hba with
      | cons _ hba => exact ih hxs hab hba
      | cons_cons _ hba => exact hx (hab.subset (by simp))
    | cons_cons _ hab =>
      cases hba with
      | cons _ hba => exact hx (hba.subset (by simp))
      | cons_cons _ hba => exact hx (hab.subset (by simp))

/-- Two elements that stand in a list one before the other, and what is around them. -/
theorem exists_split_of_sublist_pair {α : Type} {a b : α} {xs : List α} (h : [a, b].Sublist xs) :
    ∃ before middle after, xs = before ++ a :: middle ++ b :: after := by
  obtain ⟨front, back, rfl, ha, hb⟩ := List.cons_sublist_iff.mp h
  obtain ⟨before, middle, rfl⟩ := List.append_of_mem ha
  obtain ⟨middle', after, rfl⟩ := List.append_of_mem (List.singleton_sublist.mp hb)
  exact ⟨before, middle ++ middle', after, by simp⟩

/-- What stands before an element of a list without repetition is in front of the place of that element. -/
theorem mem_before_of_sublist_pair {α : Type} {a b : α} {before after : List α} (hnodup : (before ++ b :: after).Nodup)
    (h : [a, b].Sublist (before ++ b :: after)) : a ∈ before := by
  have hmem : a ∈ before ++ b :: after := h.subset (by simp)
  rcases List.mem_append.mp hmem with hmem | hmem
  · exact hmem
  · have hback : [b, a].Sublist (before ++ b :: after) := by
      rcases List.mem_cons.mp hmem with rfl | hmem
      · exact h
      · exact (List.cons_sublist_cons.mpr (List.singleton_sublist.mpr hmem)).trans (List.sublist_append_right _ _)
    exact absurd hback (not_sublist_pair hnodup h)

/-- **Sorting is stable**: of two types that may precede each other, the one that was first stays first. -/
theorem sublist_of_sublist_sorted {entries : List Entry} (hnodup : entries.Nodup) {p q : Entry}
    (h : [p, q].Sublist (sortBy Entry.le entries)) (hback : q.le p = true) : [p, q].Sublist entries := by
  have hsorted : (sortBy Entry.le entries).Nodup := (sortBy_perm Entry.le entries).nodup_iff.mpr hnodup
  have hne : p ≠ q := by simpa using hsorted.sublist h
  have hmem : ∀ e ∈ [p, q], e ∈ entries := fun e he => mem_sortBy.mp (h.subset he)
  rcases sublist_pair_or (hmem p (by simp)) (hmem q (by simp)) hne with hfirst | hfirst
  · exact hfirst
  · have hstable : [q, p].Sublist (sortBy Entry.le entries) := by
      rw [sortBy_eq_insertionSort]
      exact List.pair_sublist_insertionSort hback hfirst
    exact absurd hstable (not_sublist_pair hsorted h)

/-- **The first type that passes a test**, in order, is the least one that does. -/
theorem least_of_find?_sorted {entries : List Entry} (hnodup : entries.Nodup) {test : Entry → Bool} {p : Entry}
    (h : (sortBy Entry.le entries).find? test = some p) {q : Entry} (hq : q ∈ entries) (htest : test q = true)
    (hne : q ≠ p) : p.le q = true ∧ (q.le p = true → [p, q].Sublist entries) := by
  -- what comes before the first that passes does not pass, so the others come after it
  obtain ⟨-, before, after, hsplit, hbefore⟩ := List.find?_eq_some_iff_append.mp h
  have hafter : q ∈ after := by
    have hmem : q ∈ before ++ p :: after := hsplit ▸ mem_sortBy.mpr hq
    rcases List.mem_append.mp hmem with hmem | hmem
    · have hfails := hbefore q hmem
      rw [htest] at hfails
      cases hfails
    · exact (List.mem_cons.mp hmem).resolve_left hne
  have hpair : [p, q].Sublist (sortBy Entry.le entries) := by
    rw [hsplit]
    exact (List.cons_sublist_cons.mpr (List.singleton_sublist.mpr hafter)).trans (List.sublist_append_right _ _)
  have hsorted : [p, q].Pairwise fun a b => a.le b = true := (pairwise_sorted entries).sublist hpair
  exact ⟨by simpa using hsorted, sublist_of_sublist_sorted hnodup hpair⟩

theorem find?_sorted_eq_some_iff {entries : List Entry} (hnodup : entries.Nodup) {test : Entry → Bool} {p : Entry} :
    (sortBy Entry.le entries).find? test = some p ↔
      p ∈ entries ∧ test p = true ∧
        ∀ q ∈ entries, test q = true → q ≠ p → p.le q = true ∧ (q.le p = true → [p, q].Sublist entries) := by
  constructor
  · intro h
    exact ⟨mem_sortBy.mp (List.mem_of_find?_eq_some h), List.find?_some h, fun q => least_of_find?_sorted hnodup h⟩
  · rintro ⟨hp, htest, hfirst⟩
    cases hfind : (sortBy Entry.le entries).find? test with
    | none => exact absurd htest (List.find?_eq_none.mp hfind p (mem_sortBy.mpr hp))
    | some q =>
      by_contra hne
      have hne : q ≠ p := fun heq => hne (by rw [heq])
      have hq := mem_sortBy.mp (List.mem_of_find?_eq_some hfind)
      -- each of the two would be before the other
      obtain ⟨hqp, hqFirst⟩ := least_of_find?_sorted hnodup hfind hp htest (Ne.symm hne)
      obtain ⟨hpq, hpFirst⟩ := hfirst q hq (List.find?_some hfind) hne
      exact not_sublist_pair hnodup (hpFirst hqp) (hqFirst hpq)

section Linking

variable {m : Module} (hn : Numbered m.entries) (hunlinked : ∀ e ∈ m.entries, e.parent = none)

include hunlinked in
theorem Module.parent_linkedEntry {e : Entry} (he : e ∈ m.entries) :
    (m.linkedEntry e).parent =
      if e.parentName = [] then none
      else ((sortBy Entry.le m.entries).find? fun other =>
        other.serial ≠ e.serial && other.name = shortName e.parentName).map (·.serial) := by
  have hwaits : (e.allowed m).isUnlinked = decide (e.parentName ≠ []) := by
    unfold Entry.isUnlinked
    rw [Entry.parentName_allowed, Entry.parent_allowed, hunlinked e he]
    simp
  unfold linkedEntry Entry.linkedAmong
  rw [hwaits, m.parentAmong_sorted, Option.map_map]
  by_cases hname : e.parentName = []
  · simp [hname, hunlinked e he]
  · simp [hname, Function.comp_def]

include hn hunlinked in
/-- **Links lead to the parents that are named.** -/
theorem Module.parent_linkedEntry_eq_some_iff {e : Entry} (he : e ∈ m.entries) {serial : Nat} :
    (m.linkedEntry e).parent = some serial ↔ ∃ p, LinksTo m.entries e p ∧ p.serial = serial := by
  rw [Module.parent_linkedEntry hunlinked he]
  by_cases hname : e.parentName = []
  · rw [if_pos hname]
    constructor
    · intro h
      cases h
    · rintro ⟨p, hlink, -⟩
      exact absurd hname hlink.named
  · rw [if_neg hname, Option.map_eq_some_iff]
    refine exists_congr fun p => and_congr_left fun _ => ?_
    rw [find?_sorted_eq_some_iff hn.nodup]
    simp only [ne_eq, Bool.and_eq_true, decide_eq_true_eq]
    constructor
    · rintro ⟨hp, ⟨hother, hshort⟩, hfirst⟩
      exact ⟨hname, hp, hother, hshort, fun q hq hqOther hqShort => hfirst q hq ⟨hqOther, hqShort⟩⟩
    · intro hlink
      exact ⟨hlink.mem, ⟨hlink.other, hlink.name⟩, fun q hq hq' => hlink.first q hq hq'.1 hq'.2⟩

include hunlinked in
/-- **A type stays unlinked** exactly when it names no parent, or no other type has the name. -/
theorem Module.parent_linkedEntry_eq_none_iff {e : Entry} (he : e ∈ m.entries) :
    (m.linkedEntry e).parent = none ↔
      (e.parentName ≠ [] → ∀ p ∈ m.entries, p.serial ≠ e.serial → p.name ≠ shortName e.parentName) := by
  rw [Module.parent_linkedEntry hunlinked he]
  by_cases hname : e.parentName = []
  · simp [hname]
  · rw [if_neg hname, Option.map_eq_none_iff, List.find?_eq_none]
    constructor
    · intro hnone _ p hp hother hshort
      exact hnone p (mem_sortBy.mpr hp) (by simp [hother, hshort])
    · intro hnone p hp hboth
      simp only [ne_eq, Bool.and_eq_true, decide_eq_true_eq] at hboth
      exact hnone hname p (mem_sortBy.mp hp) hboth.1 hboth.2

end Linking

/-! ## §3 Parents first -/

/-- Each of some types stands once, behind its ancestors: one link leads to an earlier place. -/
theorem ParentsFirst.index_lt {entries placed : List Entry} (h : ParentsFirst entries placed) {i : Nat} {e p : Entry}
    (he : placed[i]? = some e) (hp : e.parentIn? entries = some p) : ∃ j < i, placed[j]? = some p := by
  obtain ⟨j, hj, hget⟩ := List.mem_take_iff_getElem.mp (h.parents i e p he hp)
  refine ⟨j, by omega, ?_⟩
  rw [← hget]
  exact List.getElem?_eq_getElem _

theorem Module.numbered_linkedEntries {m : Module} (hn : Numbered m.entries) : Numbered m.linkedEntries := by
  unfold Numbered Module.linkedEntries
  rw [List.map_map]
  have hserials : (fun e : Entry => e.serial) ∘ m.linkedEntry = fun e => e.serial := by
    funext e
    simp
  rw [hserials]
  exact ((sortBy_perm Entry.le m.entries).map _).nodup_iff.mpr hn

/-- Resolution is placing the linked types and naming them. -/
theorem Module.resolve_of_placeAll (m : Module) :
    m.resolve = match placeAll m.linkedEntries with
      | .error cycle => ⟨{ m with entries := m.linkedEntries }, some cycle⟩
      | .ok placed => ⟨{ m with entries := placed.map (Entry.identified m) }, none⟩ := by
  have hlinked : m.dropOverrides.sorted.linked = { m with entries := m.linkedEntries } := by
    rw [← m.entries_linked]
    rfl
  unfold Module.resolve
  rw [hlinked]
  rfl

section Resolution

variable {m : Module} (hn : Numbered m.entries)

include hn

/-- What resolution leaves where there is no cycle: the linked types, placed and named. -/
theorem Module.exists_placed (hcycle : m.resolve.cycle = none) :
    ∃ placed, m.resolve.module = { m with entries := placed.map (Entry.identified m) } ∧
      ParentsFirst m.linkedEntries placed ∧ placed.Perm m.linkedEntries := by
  rw [m.resolve_of_placeAll] at hcycle ⊢
  cases hplaced : placeAll m.linkedEntries with
  | error cycle => rw [hplaced] at hcycle; cases hcycle
  | ok placed =>
    obtain ⟨hfirst, hperm⟩ := placeAll_ok (m.numbered_linkedEntries hn) hplaced
    exact ⟨placed, rfl, hfirst, hperm⟩

/-- **No type is lost.** -/
theorem Module.perm_resolve (hcycle : m.resolve.cycle = none) :
    m.resolve.module.entries.Perm (m.entries.map m.resolvedEntry) := by
  obtain ⟨placed, hmodule, -, hperm⟩ := m.exists_placed hn hcycle
  rw [hmodule]
  refine (hperm.map (Entry.identified m)).trans ?_
  unfold Module.linkedEntries
  rw [List.map_map]
  exact (sortBy_perm Entry.le m.entries).map m.resolvedEntry

theorem Module.numbered_resolve (hcycle : m.resolve.cycle = none) : Numbered m.resolve.module.entries := by
  unfold Numbered
  rw [((m.perm_resolve hn hcycle).map _).nodup_iff, List.map_map]
  have hserials : (fun e : Entry => e.serial) ∘ m.resolvedEntry = fun e => e.serial := by
    funext e
    simp [Module.resolvedEntry]
  rw [hserials]
  exact hn

/-- **Ancestors come first**: a step over a link leads to an earlier place, and so do all of them together. -/
theorem Module.ancestor_before (hcycle : m.resolve.cycle = none) {p e : Entry}
    (h : m.resolve.module.IsAncestor p e) {j : Nat} (he : m.resolve.module.entries[j]? = some e) :
    ∃ i < j, m.resolve.module.entries[i]? = some p := by
  have hnumbered := m.numbered_resolve hn hcycle
  obtain ⟨placed, hmodule, hfirst, hperm⟩ := m.exists_placed hn hcycle
  have hstep : ∀ {e p : Entry} {j : Nat}, m.resolve.module.entries[j]? = some e →
      m.resolve.module.parentOf? e = some p → ∃ i < j, m.resolve.module.entries[i]? = some p := by
    intro e p j he hp
    obtain ⟨hmem, hparent⟩ := hnumbered.parentIn?_eq_some_iff.mp hp
    rw [hmodule] at he hmem ⊢
    -- the two types, as they were placed
    obtain ⟨child, hchild, rfl⟩ := Option.map_eq_some_iff.mp (List.getElem?_map .. ▸ he)
    obtain ⟨above, habove, rfl⟩ := List.mem_map.mp hmem
    rw [Entry.parent_identified, Entry.serial_identified] at hparent
    have hlink : child.parentIn? m.linkedEntries = some above :=
      (m.numbered_linkedEntries hn).parentIn?_eq_some_iff.mpr ⟨hperm.mem_iff.mp habove, hparent⟩
    obtain ⟨i, hi, hget⟩ := hfirst.index_lt hchild hlink
    exact ⟨i, hi, by rw [List.getElem?_map, hget]; rfl⟩
  induction h with
  | single hlink => exact hstep he hlink
  | tail _ hlink ih =>
    obtain ⟨i, hi, hget⟩ := ih
    obtain ⟨k, hk, hp⟩ := hstep hget hlink
    exact ⟨k, by omega, hp⟩

theorem Module.index_lt_of_ancestor (hcycle : m.resolve.cycle = none) {p e : Entry}
    (h : m.resolve.module.IsAncestor p e) {i j : Nat} (hp : m.resolve.module.entries[i]? = some p)
    (he : m.resolve.module.entries[j]? = some e) : i < j := by
  obtain ⟨k, hk, hget⟩ := m.ancestor_before hn hcycle h he
  -- no type stands twice, so the earlier place is the place of the ancestor
  have hbound : i < m.resolve.module.entries.length := (List.getElem?_eq_some_iff.mp hp).1
  have hsame : i = k := (List.getElem?_inj hbound (m.numbered_resolve hn hcycle).nodup).mp (hp.trans hget.symm)
  omega

/-- **An ancestor stands before its descendants.** -/
theorem Module.sublist_of_ancestor (hcycle : m.resolve.cycle = none) {p e : Entry}
    (he : e ∈ m.resolve.module.entries) (h : m.resolve.module.IsAncestor p e) :
    [p, e].Sublist m.resolve.module.entries := by
  obtain ⟨j, hj, hget⟩ := List.getElem_of_mem he
  have hplace : m.resolve.module.entries[j]? = some e := by rw [List.getElem?_eq_getElem hj, hget]
  obtain ⟨i, hi, hp⟩ := m.ancestor_before hn hcycle h hplace
  -- cut at the place of the descendant, where the ancestor is in front
  have hfront : p ∈ m.resolve.module.entries.take j := by
    obtain ⟨hlt, hget⟩ := List.getElem?_eq_some_iff.mp hp
    exact List.mem_take_iff_getElem.mpr ⟨i, by omega, hget⟩
  have hback : e ∈ m.resolve.module.entries.drop j := by
    rw [List.drop_eq_getElem_cons hj, hget]
    exact List.mem_cons_self
  have hpair := (List.singleton_sublist.mpr hfront).append (List.singleton_sublist.mpr hback)
  rwa [List.take_append_drop] at hpair

end Resolution

/-- **Parents first, without loss.** Where resolution finds no cycle, the types after it are those before it, each once,
with their links and ids; every type stands behind all its ancestors; a link leads to the first other type of the name
that is written, and where there is none the type stays unlinked; every type has an id, and an id that it had stays. -/
theorem parents_first_of_resolve {m : Module} (hn : Numbered m.entries) (hunlinked : ∀ e ∈ m.entries, e.parent = none)
    (hcycle : m.resolve.cycle = none) :
    m.resolve.module.entries.Perm (m.entries.map m.resolvedEntry) ∧
    (∀ e ∈ m.entries, (m.resolvedEntry e).serial = e.serial ∧
      (m.resolvedEntry e).toDeclaration = (e.allowed m).toDeclaration) ∧
    (∀ (i j : Nat) (p e : Entry), m.resolve.module.entries[i]? = some p → m.resolve.module.entries[j]? = some e →
      m.resolve.module.IsAncestor p e → i < j) ∧
    (∀ e ∈ m.entries, ∀ serial : Nat, (m.resolvedEntry e).parent = some serial ↔
      ∃ p, LinksTo m.entries e p ∧ p.serial = serial) ∧
    (∀ e ∈ m.entries, (m.resolvedEntry e).parent = none ↔
      (e.parentName ≠ [] → ∀ p ∈ m.entries, p.serial ≠ e.serial → p.name ≠ shortName e.parentName)) ∧
    ∀ e ∈ m.entries, (m.resolvedEntry e).id ≠ [] ∧ (e.id ≠ [] → (m.resolvedEntry e).id = e.id) := by
  have hparent : ∀ e, (m.resolvedEntry e).parent = (m.linkedEntry e).parent := by
    intro e
    simp [Module.resolvedEntry]
  refine ⟨m.perm_resolve hn hcycle, ?_, ?_, ?_, ?_, fun e _ => m.id_resolvedEntry e⟩
  · intro e _
    exact ⟨by simp [Module.resolvedEntry], m.toDeclaration_resolvedEntry e⟩
  · intro i j p e hp he hancestor
    exact m.index_lt_of_ancestor hn hcycle hancestor hp he
  · intro e he serial
    rw [hparent]
    exact Module.parent_linkedEntry_eq_some_iff hn hunlinked he
  · intro e he
    rw [hparent]
    exact Module.parent_linkedEntry_eq_none_iff hunlinked he

/-- A module whose types have joined children first: `c` under `b` under `a`, and a struct that shares the name of `a`
and comes behind it in order. -/
def childrenFirst : Module :=
  (Module.empty "m" "").addAll
    [{ name := "c", fullName := "m::c", kind := .classType, parentName := "m::b" },
     { name := "b", fullName := "m::b", kind := .classType, parentName := "a" },
     { name := "a", fullName := "x::a", kind := .structType },
     { name := "a", fullName := "m::a", kind := .classType, parentName := "a::gone" }]

theorem parents_first_of_childrenFirst :
    childrenFirst.resolve.module.entries.map (·.fullName) = ["m::a", "m::b", "m::c", "x::a"] ∧
      childrenFirst.resolve.module.entries.map (·.parent) = [none, some 3, some 1, none] ∧
      childrenFirst.resolve.module.entries.Perm (childrenFirst.entries.map childrenFirst.resolvedEntry) := by
  have hn : Numbered childrenFirst.entries := by
    unfold Numbered
    decide +kernel
  have hunlinked : ∀ e ∈ childrenFirst.entries, e.parent = none := by decide +kernel
  have hcycle : childrenFirst.resolve.cycle = none := by decide +kernel
  exact ⟨by decide +kernel, by decide +kernel, (parents_first_of_resolve hn hunlinked hcycle).1⟩

/-! ## §4 Cycles -/

/-- **A cycle that resolution tells** is there, and the linked types are left in the order in which they were sorted. -/
theorem Module.spellsCycle_of_resolve (m : Module) (hn : Numbered m.entries) {cycle : ParentCycle}
    (h : m.resolve.cycle = some cycle) :
    m.resolve.module = { m with entries := m.linkedEntries } ∧ SpellsCycle m.linkedEntries cycle.names := by
  rw [m.resolve_of_placeAll] at h ⊢
  cases hplaced : placeAll m.linkedEntries with
  | ok placed => rw [hplaced] at h; cases h
  | error found =>
    rw [hplaced] at h
    cases h
    exact ⟨rfl, placeAll_error (m.numbered_linkedEntries hn) hplaced⟩

/-- Types that are linked in a circle are their own ancestors. -/
theorem own_ancestor_of_spellsCycle {m : Module} {names : List Text} (h : SpellsCycle m.entries names) :
    ∃ e ∈ m.entries, m.IsAncestor e e := by
  obtain ⟨first, rest, hmem, -, hchain⟩ := h
  refine ⟨first, hmem first List.mem_cons_self, ?_⟩
  have hclosure : (first :: (rest ++ [first])).IsChain (Relation.TransGen fun e p => m.parentOf? e = some p) :=
    hchain.imp fun _ _ => Relation.TransGen.single
  have hself := hclosure.rel_cons (b := first) (by simp)
  exact hself

/-- **Cycles are told exactly.** Resolution tells a cycle if and only if some type is its own ancestor over links; the
names it tells are those of types each of which is linked to the next, from one back to itself; the module then has its
types in order of full name and kind, with their links and without new ids. Climbing to ancestors ends on its own, so
the bound on its steps plays no part. -/
theorem cycle_iff_own_ancestor {m : Module} (hn : Numbered m.entries) (hunlinked : ∀ e ∈ m.entries, e.parent = none) :
    (m.resolve.cycle ≠ none ↔ ∃ e ∈ m.resolve.module.entries, m.resolve.module.IsAncestor e e) ∧
    (∀ cycle, m.resolve.cycle = some cycle →
      SpellsCycle m.resolve.module.entries cycle.names ∧
      cycle.message = "parent cycle: " ++ Text.joinWith " -> " cycle.names ∧
      m.resolve.module = { m with entries := m.linkedEntries } ∧
      m.linkedEntries.Perm (m.entries.map m.linkedEntry) ∧
      m.linkedEntries.Pairwise (fun a b => a.le b = true) ∧
      ∀ e ∈ m.entries, (m.linkedEntry e).serial = e.serial ∧ (m.linkedEntry e).id = e.id ∧
        (m.linkedEntry e).toDeclaration = (e.allowed m).toDeclaration ∧
        ∀ serial : Nat, (m.linkedEntry e).parent = some serial ↔ ∃ p, LinksTo m.entries e p ∧ p.serial = serial) ∧
    ∀ placed : List Entry, ∀ e ∈ m.linkedEntries,
      Climbs m.linkedEntries placed [] e (climb m.linkedEntries placed (m.linkedEntries.length + 1) [] e) := by
  refine ⟨?_, ?_, ?_⟩
  · constructor
    · intro hne
      obtain ⟨cycle, hcycle⟩ := Option.ne_none_iff_exists'.mp hne
      obtain ⟨hmodule, hspells⟩ := m.spellsCycle_of_resolve hn hcycle
      rw [hmodule]
      exact own_ancestor_of_spellsCycle hspells
    · -- where all types are placed, an ancestor stands at an earlier place than its descendants
      rintro ⟨e, he, hself⟩ hcycle
      obtain ⟨j, hj, hget⟩ := List.getElem_of_mem he
      have hplace : m.resolve.module.entries[j]? = some e := by rw [List.getElem?_eq_getElem hj, hget]
      exact Nat.lt_irrefl j (m.index_lt_of_ancestor hn hcycle hself hplace hplace)
  · intro cycle hcycle
    obtain ⟨hmodule, hspells⟩ := m.spellsCycle_of_resolve hn hcycle
    refine ⟨by rw [hmodule]; exact hspells, rfl, hmodule, (sortBy_perm Entry.le m.entries).map _, ?_, ?_⟩
    · unfold Module.linkedEntries
      rw [List.pairwise_map]
      simp only [m.le_linkedEntry]
      exact pairwise_sorted m.entries
    · intro e he
      exact ⟨m.serial_linkedEntry e, m.id_linkedEntry e, m.toDeclaration_linkedEntry e,
        fun serial => Module.parent_linkedEntry_eq_some_iff hn hunlinked he⟩
  · intro placed e he
    exact climbs_start (m.numbered_linkedEntries hn) placed he

/-- A module in which the way from `d` leads into the circle of `a`, `b` and `c`. -/
def intoCircle : Module :=
  (Module.empty "m" "").addAll
    [{ name := "d", fullName := "m::d", kind := .classType, parentName := "b" },
     { name := "c", fullName := "m::c", kind := .classType, parentName := "a" },
     { name := "b", fullName := "m::b", kind := .classType, parentName := "m::c" },
     { name := "a", fullName := "x::a", kind := .classType, parentName := "b" }]

theorem cycle_of_intoCircle :
    intoCircle.resolve.cycle = some ⟨["b", "c", "a", "b"]⟩ ∧
      ∃ e ∈ intoCircle.resolve.module.entries, intoCircle.resolve.module.IsAncestor e e := by
  have hn : Numbered intoCircle.entries := by
    unfold Numbered
    decide +kernel
  have hunlinked : ∀ e ∈ intoCircle.entries, e.parent = none := by decide +kernel
  have hcycle : intoCircle.resolve.cycle = some ⟨["b", "c", "a", "b"]⟩ := by decide +kernel
  refine ⟨hcycle, (cycle_iff_own_ancestor hn hunlinked).1.mp ?_⟩
  rw [hcycle]
  simp

end HeaderReflection
