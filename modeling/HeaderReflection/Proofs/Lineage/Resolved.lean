import HeaderReflection.Proofs.Lineage.ParentsFirst

/-!
# Resolved modules

A module that has been resolved is resolved: to do it again changes nothing. Overrides that are not allowed are gone,
every type that finds a parent has one, and every type has an id. What remains is the order. The types are sorted again
before they are placed, and types of the same full name and kind may now stand in another order than the first time:
placing has put some of them before others that joined the module earlier. This does not matter. Wherever the placing
of sorted types stops, the next way leads to a type that comes first among those that are left; the second sorting
starts this way at another of its types at most, one that stands on it.

## Main definitions

- `Placeable`: a way that can be placed as it is.
- `InWays`: types that have been placed one way after the other, each to a type that comes first.

## Main results

- `climb_of_placeable`, `exists_placeable`: climbing finds the way that can be placed.
- `inWays_of_placeAll`: sorted types are placed in ways.
- `placeAll_sortBy`: types that have been placed are placed again in the same order.
- `resolve_again`: resolution is idempotent.
-/

namespace HeaderReflection

/-! ## §1 Ways that can be placed -/

/-- A way down to a type that can be placed as it is: the parent of its first type is placed, if it has one. -/
structure Placeable (entries placed way : List Entry) : Prop where
  ascent : Ascent entries placed way
  top : ∀ a ∈ way.head?, ∀ p, a.parentIn? entries = some p → p ∈ placed

namespace Placeable

variable {entries placed : List Entry}

/-- The first part of a way leads to its own last type. -/
theorem left {way rest : List Entry} (h : Placeable entries placed (way ++ rest)) : Placeable entries placed way where
  ascent :=
    { mem := fun a ha => h.ascent.mem a (List.mem_append_left rest ha)
      fresh := fun a ha => h.ascent.fresh a (List.mem_append_left rest ha)
      nodup := (List.nodup_append.mp h.ascent.nodup).1
      chain := (List.isChain_append.mp h.ascent.chain).1 }
  top := by
    intro a ha
    apply h.top a
    cases way with
    | nil => cases ha
    | cons b way => exact ha

/-- With the first part of a way placed, the rest can be placed. -/
theorem right {way rest : List Entry} (h : Placeable entries placed (way ++ rest)) :
    Placeable entries (placed ++ way) rest := by
  obtain ⟨hway, hrest, hdisjoint⟩ := List.nodup_append.mp h.ascent.nodup
  obtain ⟨-, hchain, hlink⟩ := List.isChain_append.mp h.ascent.chain
  refine ⟨⟨fun a ha => h.ascent.mem a (List.mem_append_right way ha), ?_, hrest, hchain⟩, ?_⟩
  · intro a ha hmem
    rcases List.mem_append.mp hmem with hmem | hmem
    · exact h.ascent.fresh a (List.mem_append_right way ha) hmem
    · exact hdisjoint a hmem a ha rfl
  · intro a ha p hp
    cases hlast : way.getLast? with
    | none =>
      -- nothing has been placed of the way
      rw [List.getLast?_eq_none_iff] at hlast
      subst hlast
      exact List.mem_append_left _ (h.top a ha p hp)
    | some last =>
      have hparent := hlink last hlast a ha
      rw [hp] at hparent
      cases hparent
      exact List.mem_append_right _ (List.mem_of_getLast? hlast)

end Placeable

section Climbing

variable {entries placed : List Entry} (hn : Numbered entries) (hplaced : ∀ a ∈ placed, a ∈ entries)

include hn hplaced

/-- **Climbing finds the way that can be placed**, from any type on it: what lies ahead is put in front of what has been
met. -/
theorem climb_of_placeable {ahead path : List Entry} {e : Entry} {steps : Nat}
    (h : Placeable entries placed (ahead ++ e :: path)) (hsteps : ahead.length + 1 < steps) :
    climb entries placed steps path e = .ok (ahead ++ e :: path) := by
  induction ahead using List.reverseRecOn generalizing e path steps with
  | nil =>
    obtain ⟨steps, rfl⟩ : ∃ n, steps = n + 2 := ⟨steps - 2, by simp at hsteps; omega⟩
    have he : e ∈ entries := h.ascent.mem e (by simp)
    have hfresh := (hn.isAmong_eq_false_iff he hplaced).mpr (h.ascent.fresh e (by simp))
    have hpath : e.isAmong path = false :=
      (hn.isAmong_eq_false_iff he fun a ha => h.ascent.mem a (by simp [ha])).mpr (List.nodup_cons.mp h.ascent.nodup).1
    cases hparent : e.parentIn? entries with
    | none => simp [climb, hfresh, hpath, hparent]
    | some parent =>
      -- the parent is placed, so the next step is the last one
      have hmem := h.top e rfl parent hparent
      have hend := (hn.isAmong_iff (hplaced parent hmem) hplaced).mpr hmem
      simp [climb, hfresh, hpath, hparent, hend]
  | append_singleton ahead parent ih =>
    obtain ⟨steps, rfl⟩ : ∃ n, steps = n + 1 := ⟨steps - 1, by omega⟩
    have hway : ahead ++ [parent] ++ e :: path = ahead ++ parent :: e :: path := by simp
    rw [hway] at h ⊢
    have hsuffix := List.nodup_cons.mp (List.nodup_append.mp h.ascent.nodup).2.1
    have he : e ∈ entries := h.ascent.mem e (by simp)
    have hfresh := (hn.isAmong_eq_false_iff he hplaced).mpr (h.ascent.fresh e (by simp))
    have hpath : e.isAmong path = false :=
      (hn.isAmong_eq_false_iff he fun a ha => h.ascent.mem a (by simp [ha])).mpr (List.nodup_cons.mp hsuffix.2).1
    have hparent : e.parentIn? entries = some parent :=
      (List.isChain_cons_cons.mp (List.isChain_append.mp h.ascent.chain).2.1).1
    have hrest : climb entries placed steps (e :: path) parent = .ok (ahead ++ parent :: e :: path) :=
      ih h (by simp at hsteps; omega)
    simpa [climb, hfresh, hpath, hparent] using hrest

theorem placeNext_of_placeable {way : List Entry} {e : Entry} (h : Placeable entries placed (way ++ [e])) :
    placeNext entries placed e = .ok (placed ++ (way ++ [e])) := by
  have hlength : (way ++ [e]).length ≤ entries.length :=
    (List.subperm_of_subset h.ascent.nodup h.ascent.mem).length_le
  rw [List.length_append, List.length_singleton] at hlength
  have hclimb : climb entries placed (entries.length + 1) [] e = .ok (way ++ [e]) :=
    climb_of_placeable hn hplaced h (by omega)
  unfold placeNext
  rw [hclimb]
  rfl

theorem placeNext_of_mem {e : Entry} (he : e ∈ placed) : placeNext entries placed e = .ok placed := by
  have hend := (hn.isAmong_iff (hplaced e he) hplaced).mpr he
  simp [placeNext, climb, hend]

/-- The way that a type is placed with can be placed, and ends in the type. -/
theorem exists_placeable {e : Entry} (he : e ∈ entries) (hfresh : e ∉ placed) {after : List Entry}
    (h : placeNext entries placed e = .ok after) :
    ∃ way, after = placed ++ (way ++ [e]) ∧ Placeable entries placed (way ++ [e]) := by
  obtain ⟨way, hway, hafter⟩ := bind_ok h
  cases hafter
  have hclimbs := climbs_start hn placed he
  rw [hway] at hclimbs
  obtain ⟨hascent, htop, -, hfound⟩ := hclimbs.ascent hn hplaced he (ascent_nil entries placed) (by simp)
  obtain ⟨ahead, rfl⟩ := hfound.resolve_left hfresh
  exact ⟨ahead, rfl, hascent, htop⟩

end Climbing

/-! ## §2 Placing in ways -/

/-- Types that have been placed in ways: wherever their list is cut, what follows begins with a way that can be placed
there, down to a type that comes first, by full name and kind, among all types that are left. -/
def InWays (entries placed : List Entry) : Prop :=
  ∀ before after, placed = before ++ after → after ≠ [] →
    ∃ way e rest, after = way ++ e :: rest ∧ Placeable entries before (way ++ [e]) ∧
      ∀ a ∈ entries, a ∉ before → e.le a = true

theorem inWays_nil (entries : List Entry) : InWays entries [] := by
  intro before after hsplit hne
  exact absurd (List.append_eq_nil_iff.mp hsplit.symm).2 hne

/-- **A step of placing in ways**: the way to a type that comes first among those that are left. -/
theorem InWays.append {entries placed way : List Entry} {e : Entry} (h : InWays entries placed)
    (hway : Placeable entries placed (way ++ [e])) (hfirst : ∀ a ∈ entries, a ∉ placed → e.le a = true) :
    InWays entries (placed ++ (way ++ [e])) := by
  -- a cut is in what was placed before, or in the new way, which then goes on to the same type
  have hlater : ∀ done after, way ++ [e] = done ++ after → after ≠ [] →
      ∃ way' e' rest, after = way' ++ e' :: rest ∧ Placeable entries (placed ++ done) (way' ++ [e']) ∧
        ∀ a ∈ entries, a ∉ placed ++ done → e'.le a = true := by
    intro done after hsplit hne
    obtain ⟨ahead, last, rfl⟩ := (List.eq_nil_or_concat' after).resolve_left hne
    rw [← List.append_assoc] at hsplit
    obtain ⟨rfl, hlast⟩ := List.append_inj' hsplit rfl
    cases hlast
    rw [List.append_assoc] at hway
    refine ⟨ahead, e, [], rfl, hway.right, fun a ha hfresh => hfirst a ha ?_⟩
    exact fun hmem => hfresh (List.mem_append_left _ hmem)
  intro before after hsplit hne
  rcases List.append_eq_append_iff.mp hsplit with ⟨done, rfl, hrest⟩ | ⟨kept, hkept, rfl⟩
  · exact hlater done after hrest hne
  · by_cases hnil : kept = []
    · subst hnil
      rw [List.append_nil] at hkept
      subst hkept
      simpa using hlater [] (way ++ [e]) rfl (by simp)
    · obtain ⟨way', e', rest, rfl, hplaceable, hleast⟩ := h before kept hkept hnil
      exact ⟨way', e', rest ++ (way ++ [e]), by simp, hplaceable, hleast⟩

/-- **Sorted types are placed in ways**: the next one that is not placed yet comes first among those that are left. -/
theorem inWays_of_foldlM {entries : List Entry} (hn : Numbered entries) {rest placed after : List Entry}
    (hrest : ∀ e ∈ rest, e ∈ entries) (hsorted : rest.Pairwise fun a b => a.le b = true)
    (hleft : ∀ e ∈ entries, e ∉ placed → e ∈ rest) (hplaced : ParentsFirst entries placed)
    (hways : InWays entries placed) (h : rest.foldlM (placeNext entries) placed = .ok after) :
    InWays entries after := by
  induction rest generalizing placed with
  | nil =>
    cases h
    exact hways
  | cons e rest ih =>
    obtain ⟨he, hlater⟩ := List.forall_mem_cons.mp hrest
    obtain ⟨hleast, hsorted⟩ := List.pairwise_cons.mp hsorted
    rw [List.foldlM_cons] at h
    obtain ⟨next, hnext, h⟩ := bind_ok h
    obtain ⟨hfirst, hkept, hmem⟩ := placeNext_ok hn hplaced he hnext
    have hleftNext : ∀ a ∈ entries, a ∉ next → a ∈ rest := by
      intro a ha hfresh
      have hcons := hleft a ha fun hin => hfresh (hkept hin)
      exact (List.mem_cons.mp hcons).resolve_left fun heq => hfresh (heq ▸ hmem)
    refine ih hlater hsorted hleftNext hfirst ?_ h
    -- a type that has been placed changes nothing; any other one leads a way, and is the least of those that are left
    by_cases hin : e ∈ placed
    · rw [placeNext_of_mem hn hplaced.mem hin] at hnext
      cases hnext
      exact hways
    · obtain ⟨way, rfl, hway⟩ := exists_placeable hn hplaced.mem he hin hnext
      refine hways.append hway fun a ha hfresh => ?_
      rcases List.mem_cons.mp (hleft a ha hfresh) with rfl | hrest
      · exact (Entry.le_total a a).elim id id
      · exact hleast a hrest

theorem inWays_of_placeAll {entries placed : List Entry} (hn : Numbered entries)
    (hsorted : entries.Pairwise fun a b => a.le b = true) (h : placeAll entries = .ok placed) :
    InWays entries placed :=
  inWays_of_foldlM hn (fun _ he => he) hsorted (fun _ he _ => he) (parentsFirst_nil entries) (inWays_nil entries) h

/-! ## §3 Placing again -/

/-- Parents are looked up by number, so the order of the types does not matter. -/
theorem Numbered.parentIn?_congr {entries entries' : List Entry} (hn : Numbered entries) (hperm : entries'.Perm entries)
    (e : Entry) : e.parentIn? entries' = e.parentIn? entries := by
  have hn' : Numbered entries' := (hperm.map _).nodup_iff.mpr hn
  ext p
  rw [hn'.parentIn?_eq_some_iff, hn.parentIn?_eq_some_iff, hperm.mem_iff]

theorem Placeable.congr {entries entries' placed way : List Entry} (hn : Numbered entries)
    (hperm : entries'.Perm entries) (h : Placeable entries placed way) : Placeable entries' placed way where
  ascent :=
    { mem := fun a ha => hperm.mem_iff.mpr (h.ascent.mem a ha)
      fresh := h.ascent.fresh
      nodup := h.ascent.nodup
      chain := by simpa only [hn.parentIn?_congr hperm] using h.ascent.chain }
  top := by simpa only [hn.parentIn?_congr hperm] using h.top

theorem InWays.congr {entries entries' placed : List Entry} (hn : Numbered entries) (hperm : entries'.Perm entries)
    (h : InWays entries placed) : InWays entries' placed := by
  intro before after hsplit hne
  obtain ⟨way, e, rest, hafter, hplaceable, hfirst⟩ := h before after hsplit hne
  exact ⟨way, e, rest, hafter, hplaceable.congr hn hperm, fun a ha => hfirst a (hperm.mem_iff.mp ha)⟩

section Again

variable {placed : List Entry} (hn : Numbered placed) (hways : InWays (sortBy Entry.le placed) placed)

include hn hways

/-- **The next type in order stands on the next way.** Where all types before it in order have been placed, a type that
is not placed comes first among those that are left; so does the one that the next way leads to, and sorting has not
put the two in another order than they have been placed in. -/
theorem InWays.exists_way {front rest before after : List Entry} {e : Entry}
    (hsorted : sortBy Entry.le placed = front ++ e :: rest) (hfront : ∀ a ∈ front, a ∈ before)
    (hsplit : placed = before ++ after) (hfresh : e ∉ before) :
    ∃ way later, after = way ++ e :: later ∧ Placeable (sortBy Entry.le placed) before (way ++ [e]) := by
  have he : e ∈ placed := mem_sortBy.mp (by rw [hsorted]; simp)
  have hafter : e ∈ after := by
    rw [hsplit] at he
    exact (List.mem_append.mp he).resolve_left hfresh
  obtain ⟨way, goal, later, rfl, hway, hfirst⟩ := hways before after hsplit (List.ne_nil_of_mem hafter)
  -- the type stands on the way or is where it leads to
  have hon : e ∈ way ++ [goal] := by
    by_cases hgoal : e = goal
    · simp [hgoal]
    · have hrest : goal ∈ rest := by
        have hmem : goal ∈ front ++ e :: rest := hsorted ▸ hway.ascent.mem goal (by simp)
        rcases List.mem_append.mp hmem with hmem | hmem
        · exact absurd (hfront goal hmem) (hway.ascent.fresh goal (by simp))
        · exact (List.mem_cons.mp hmem).resolve_left (Ne.symm hgoal)
      have hpair : [e, goal].Sublist (sortBy Entry.le placed) := by
        rw [hsorted]
        exact (List.cons_sublist_cons.mpr (List.singleton_sublist.mpr hrest)).trans (List.sublist_append_right _ _)
      have hplace := sublist_of_sublist_sorted hn.nodup hpair (hfirst e (mem_sortBy.mpr he) hfresh)
      have hcut : placed = (before ++ way) ++ goal :: later := by rw [hsplit, List.append_assoc]
      have hnodup := hn.nodup
      rw [hcut] at hplace hnodup
      have hearlier := mem_before_of_sublist_pair hnodup hplace
      exact List.mem_append_left _ ((List.mem_append.mp hearlier).resolve_left hfresh)
  obtain ⟨front, back, hparts⟩ := List.append_of_mem hon
  refine ⟨front, back ++ later, ?_, ?_⟩
  · have hway : way ++ goal :: later = (way ++ [goal]) ++ later := by simp
    rw [hway, hparts]
    simp
  · have hfirstPart : front ++ e :: back = (front ++ [e]) ++ back := by simp
    rw [hparts, hfirstPart] at hway
    exact hway.left

/-- Where some types have been placed in ways, sorting them and going on gives the rest of the ways. -/
theorem InWays.foldlM {front rest before after : List Entry} (hsorted : sortBy Entry.le placed = front ++ rest)
    (hfront : ∀ a ∈ front, a ∈ before) (hsplit : placed = before ++ after) :
    rest.foldlM (placeNext (sortBy Entry.le placed)) before = .ok placed := by
  have hnumbered : Numbered (sortBy Entry.le placed) := ((sortBy_perm Entry.le placed).map _).nodup_iff.mpr hn
  have hbefore : ∀ a ∈ before, a ∈ sortBy Entry.le placed := by
    intro a ha
    rw [mem_sortBy, hsplit]
    exact List.mem_append_left _ ha
  -- on the types that are still to come in order, with those placed so far as a first part of all
  induction rest generalizing front before after with
  | nil =>
    have hnone : after = [] := by
      rw [List.eq_nil_iff_forall_not_mem]
      intro a ha
      have hmem : a ∈ front := by
        rw [List.append_nil] at hsorted
        rw [← hsorted, mem_sortBy, hsplit]
        exact List.mem_append_right _ ha
      have hnodup := hn.nodup
      rw [hsplit] at hnodup
      exact (List.nodup_append.mp hnodup).2.2 a (hfront a hmem) a ha rfl
    rw [hnone, List.append_nil] at hsplit
    rw [hsplit]
    rfl
  | cons e rest ih =>
    have hsorted' : sortBy Entry.le placed = (front ++ [e]) ++ rest := by simpa using hsorted
    rw [List.foldlM_cons]
    by_cases hin : e ∈ before
    · rw [placeNext_of_mem hnumbered hbefore hin]
      refine ih hsorted' ?_ hsplit hbefore
      intro a ha
      rcases List.mem_append.mp ha with ha | ha
      · exact hfront a ha
      · rwa [List.mem_singleton.mp ha]
    · obtain ⟨way, later, rfl, hway⟩ := hways.exists_way hn hsorted hfront hsplit hin
      rw [placeNext_of_placeable hnumbered hbefore hway]
      have hsplit' : placed = (before ++ (way ++ [e])) ++ later := by simpa using hsplit
      refine ih hsorted' ?_ hsplit' ?_
      · intro a ha
        rcases List.mem_append.mp ha with ha | ha
        · exact List.mem_append_left _ (hfront a ha)
        · simp [List.mem_singleton.mp ha]
      · intro a ha
        rw [mem_sortBy, hsplit']
        exact List.mem_append_left _ ha

end Again

/-- **Types that have been placed are placed again in the same order**, though they are sorted in between. -/
theorem placeAll_sortBy {entries placed : List Entry} (hn : Numbered entries)
    (hsorted : entries.Pairwise fun a b => a.le b = true) (h : placeAll entries = .ok placed) :
    placeAll (sortBy Entry.le placed) = .ok placed := by
  obtain ⟨-, hperm⟩ := placeAll_ok hn h
  have hways := (inWays_of_placeAll hn hsorted h).congr hn ((sortBy_perm Entry.le placed).trans hperm)
  have hplaced : Numbered placed := (hperm.map _).nodup_iff.mpr hn
  have hnothing : ∀ a ∈ ([] : List Entry), a ∈ ([] : List Entry) := fun _ ha => ha
  exact hways.foldlM hplaced (List.nil_append _).symm hnothing (List.nil_append _).symm

/-! ## §4 Resolving again -/

theorem renumbers_identified (m : Module) : Renumbers id (Entry.identified m) where
  serial := Entry.serial_identified m
  parent := by simp
  name := by
    intro e
    obtain ⟨_, h⟩ := e.identified_eq m
    rw [h]

namespace Module

variable (m : Module)

theorem resolvedEntry_eq (e : Entry) : ∃ parent id, m.resolvedEntry e = { e.allowed m with parent, id } := by
  obtain ⟨id, hid⟩ := (m.linkedEntry e).identified_eq m
  obtain ⟨parent, hparent⟩ := (e.allowed m).linkedAmong_eq m.dropOverrides.sorted.entries
  refine ⟨parent, id, ?_⟩
  rw [resolvedEntry, hid, linkedEntry, hparent]

/-- What a type is left with is allowed. -/
theorem allowed_resolvedEntry (e : Entry) : (m.resolvedEntry e).allowed m = m.resolvedEntry e := by
  obtain ⟨parent, id, h⟩ := m.resolvedEntry_eq e
  rw [h]
  unfold Entry.allowed Entry.withoutHandlers Entry.withoutRenderHooks
  -- what the module does not let a type have is gone, whatever the kind of the type is
  by_cases hmodel : m.modelTypesOverrides = true <;>
    by_cases hrender : m.renderTypesOverrides = true ∧ e.kind = .classType <;>
    simp [hmodel, hrender]

theorem le_resolvedEntry (a b : Entry) : (m.resolvedEntry a).le (m.resolvedEntry b) = a.le b := by
  obtain ⟨_, ha⟩ := (m.linkedEntry a).identified_eq m
  obtain ⟨_, hb⟩ := (m.linkedEntry b).identified_eq m
  rw [resolvedEntry, resolvedEntry, ha, hb, ← m.le_linkedEntry a b]
  rfl

/-- A type that is without a link has found no other type with the name of its parent. -/
theorem not_named_of_unlinked {e : Entry} (h : (m.resolvedEntry e).isUnlinked = true) {other : Entry}
    (hother : other ∈ m.entries) (hserial : other.serial ≠ e.serial) : other.name ≠ e.parentShortName := by
  have hunlinked : e.parentName ≠ [] ∧ (m.linkedEntry e).parent = none := by
    have hname : (m.resolvedEntry e).parentName = e.parentName := by
      obtain ⟨_, _, h⟩ := m.resolvedEntry_eq e
      rw [h]
      exact e.parentName_allowed m
    have hparent : (m.resolvedEntry e).parent = (m.linkedEntry e).parent := by simp [resolvedEntry]
    simpa [Entry.isUnlinked, hname, hparent] using h
  -- so it has been looked for, and was not found
  have hwaits : (e.allowed m).isUnlinked = true := by
    by_contra hlinked
    have hkept : (m.linkedEntry e).parent = e.parent := by
      rw [linkedEntry, Entry.linkedAmong, if_neg hlinked, e.parent_allowed]
    rw [hkept] at hunlinked
    exact hlinked (by simp [Entry.isUnlinked, hunlinked])
  have hnone : parentAmong m.dropOverrides.sorted.entries (e.allowed m) = none := by
    have hparent := hunlinked.2
    rwa [linkedEntry, Entry.linkedAmong, if_pos hwaits, Option.map_eq_none_iff] at hparent
  rw [m.parentAmong_sorted, Option.map_eq_none_iff, List.find?_eq_none] at hnone
  intro hname
  exact hnone other (mem_sortBy.mpr hother) (by simpa [hserial, Declaration.parentShortName] using hname)

/-- The types of a module after resolution, before they are placed. -/
theorem placeAll_of_resolve (hcycle : m.resolve.cycle = none) :
    placeAll ((sortBy Entry.le m.entries).map m.resolvedEntry) = .ok m.resolve.module.entries := by
  have hids := (renumbers_identified m).placeAll Function.injective_id m.linkedEntries
  rw [m.resolve_of_placeAll] at hcycle ⊢
  cases hplaced : placeAll m.linkedEntries with
  | error cycle => rw [hplaced] at hcycle; cases hcycle
  | ok placed =>
    rw [hplaced, linkedEntries, List.map_map] at hids
    exact hids

section Resolution

variable {m} (hn : Numbered m.entries) (hcycle : m.resolve.cycle = none)

include hn hcycle

/-- **Links that are there stay, and where none was found none is found.** -/
theorem linkedAmong_resolve {e : Entry} (he : e ∈ m.resolve.module.entries) :
    e.linkedAmong (sortBy Entry.le m.resolve.module.entries) = e := by
  have hperm := m.perm_resolve hn hcycle
  obtain ⟨source, -, rfl⟩ := List.mem_map.mp (hperm.mem_iff.mp he)
  unfold Entry.linkedAmong
  split
  · next hunlinked =>
    have hnone : parentAmong (sortBy Entry.le m.resolve.module.entries) (m.resolvedEntry source) = none := by
      rw [parentAmong, List.find?_eq_none]
      intro other hother hboth
      obtain ⟨origin, horigin, rfl⟩ := List.mem_map.mp (hperm.mem_iff.mp (mem_sortBy.mp hother))
      obtain ⟨_, _, hsource⟩ := m.resolvedEntry_eq source
      obtain ⟨_, _, horiginal⟩ := m.resolvedEntry_eq origin
      have hnamed : origin.serial ≠ source.serial ∧ origin.name = source.parentShortName := by
        simpa [hsource, horiginal, Declaration.parentShortName] using hboth
      exact m.not_named_of_unlinked hunlinked horigin hnamed.1 hnamed.2
    have hparent : (m.resolvedEntry source).parent = none := by
      simpa [Entry.isUnlinked] using (Bool.and_eq_true_iff.mp hunlinked).2
    rw [hnone, Option.map_none, ← hparent]
  · rfl

theorem identified_resolve {e : Entry} (he : e ∈ m.resolve.module.entries) : e.identified m.resolve.module = e := by
  obtain ⟨source, -, rfl⟩ := List.mem_map.mp ((m.perm_resolve hn hcycle).mem_iff.mp he)
  exact if_neg (m.id_resolvedEntry source).1

/-- Dropping overrides, sorting and linking leave nothing to do but to sort. -/
theorem linkedEntries_resolve : m.resolve.module.linkedEntries = sortBy Entry.le m.resolve.module.entries := by
  have hallowed : ∀ e ∈ m.resolve.module.entries, e.allowed m.resolve.module = e := by
    intro e he
    obtain ⟨source, -, rfl⟩ := List.mem_map.mp ((m.perm_resolve hn hcycle).mem_iff.mp he)
    obtain ⟨placed, hmodule, -⟩ := m.exists_placed hn hcycle
    rw [hmodule]
    exact m.allowed_resolvedEntry source
  have hentries : m.resolve.module.dropOverrides.sorted.entries = sortBy Entry.le m.resolve.module.entries := by
    rw [entries_sorted]
    exact (List.map_congr_left fun e he => hallowed e (mem_sortBy.mp he)).trans (List.map_id _)
  have hlinked : ∀ e ∈ m.resolve.module.entries, m.resolve.module.linkedEntry e = e := by
    intro e he
    rw [linkedEntry, hallowed e he, hentries]
    exact linkedAmong_resolve hn hcycle he
  exact (List.map_congr_left fun e he => hlinked e (mem_sortBy.mp he)).trans (List.map_id _)

end Resolution

end Module

/-- **Resolution is idempotent.** A module that has been resolved is resolved again without a cycle, and nothing of it
changes: neither the order of its types nor their links, ids, handlers and render hooks, whatever kinds its types have,
whichever of them share full names or short names, had an id before or were linked before. -/
theorem resolve_again {m : Module} (hn : Numbered m.entries) (hcycle : m.resolve.cycle = none) :
    m.resolve.module.resolve = ⟨m.resolve.module, none⟩ := by
  have hlinked := Module.linkedEntries_resolve hn hcycle
  have hnumbered : Numbered ((sortBy Entry.le m.entries).map m.resolvedEntry) := by
    have hperm := ((sortBy_perm Entry.le m.entries).map m.resolvedEntry).trans (m.perm_resolve hn hcycle).symm
    exact (hperm.map _).nodup_iff.mpr (m.numbered_resolve hn hcycle)
  have hsorted : ((sortBy Entry.le m.entries).map m.resolvedEntry).Pairwise fun a b => a.le b = true := by
    rw [List.pairwise_map]
    simp only [m.le_resolvedEntry]
    exact pairwise_sorted m.entries
  have hplaced := placeAll_sortBy hnumbered hsorted (m.placeAll_of_resolve hcycle)
  have hids : m.resolve.module.entries.map (Entry.identified m.resolve.module) = m.resolve.module.entries :=
    (List.map_congr_left fun e he => Module.identified_resolve hn hcycle he).trans (List.map_id _)
  rw [m.resolve.module.resolve_of_placeAll, hlinked, hplaced]
  dsimp only
  rw [hids]

/-- A module that does not allow its overrides, with an id that was set before, and with two classes of one name: the
first of them is linked to the second, so that placing changes the order in which they were sorted. -/
def sameNames : Module :=
  ((Module.empty "m" "").addWithId
      { name := "a", fullName := "m::a", kind := .classType, parentName := "x::a", renderConstructor := some "make" }
      "kept").addAll
    [{ name := "a", fullName := "m::a", kind := .classType, handlers := { copy := some "copy" } },
     { name := "c", fullName := "a::c", kind := .structType, parentName := "b" },
     { name := "b", fullName := "m::b", kind := .external, parentName := "gone" }]

theorem resolve_again_of_sameNames :
    sameNames.dropOverrides.sorted.entries.map (·.serial) = [2, 0, 1, 3] ∧
      sameNames.resolve.module.entries.map (·.serial) = [3, 2, 1, 0] ∧
      sameNames.resolve.module.entries.map (·.parent) = [none, some 3, none, some 1] ∧
      sameNames.resolve.module.entries.map (·.id) = ["m__b", "m__c", "m__a", "kept"] ∧
      sameNames.resolve.module.resolve = ⟨sameNames.resolve.module, none⟩ := by
  have hn : Numbered sameNames.entries := by
    unfold Numbered
    decide +kernel
  have hcycle : sameNames.resolve.cycle = none := by decide +kernel
  exact ⟨by decide +kernel, by decide +kernel, by decide +kernel, by decide +kernel, resolve_again hn hcycle⟩

end HeaderReflection
