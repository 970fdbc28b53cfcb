import HeaderReflection.Lineage
import HeaderReflection.Proofs.Outcome
import HeaderReflection.Proofs.Text.Order
import Mathlib.Data.List.Chain
import Mathlib.Data.List.Nodup
import Mathlib.Data.List.Perm.Subperm

/-!
# Climbing to ancestors

Types are placed by climbing from each of them to its ancestors. Climbing needs no bound: a way that does not end comes
back to a type it has met, and is told as a cycle then. What a climb finds is said once, for the climb without a bound,
and what holds of the placed types follows step by step.

## Main definitions

- `Numbered`: types that are told apart by their numbers.
- `Climbs`: climbing without a bound.
- `Ascent`: a way from an ancestor down to a type.
- `SpellsCycle`: the names of a cycle of parents.
- `ParentsFirst`: placed types, every parent before its children.

## Main results

- `climbs_climb`: the bound on the steps of a climb is never reached.
- `Climbs.ascent`, `Climbs.spellsCycle`: what a climb finds.
- `placeAll_ok`, `placeAll_error`: all types are placed, parents first, or there is a cycle.
-/

namespace HeaderReflection

/-! ## §1 Types and their numbers -/

/-- Types that are told apart by their numbers. -/
def Numbered (entries : List Entry) : Prop := (entries.map (·.serial)).Nodup

namespace Numbered

variable {entries : List Entry}

theorem nodup (h : Numbered entries) : entries.Nodup := List.Nodup.of_map _ h

theorem eq_of_serial (h : Numbered entries) {a b : Entry} (ha : a ∈ entries) (hb : b ∈ entries)
    (hserial : a.serial = b.serial) : a = b :=
  List.inj_on_of_nodup_map h ha hb hserial

theorem isAmong_iff (h : Numbered entries) {e : Entry} (he : e ∈ entries) {some : List Entry}
    (hsome : ∀ a ∈ some, a ∈ entries) : e.isAmong some = true ↔ e ∈ some := by
  unfold Entry.isAmong
  rw [List.any_eq_true]
  constructor
  · rintro ⟨a, ha, hserial⟩
    rw [h.eq_of_serial he (hsome a ha) (of_decide_eq_true hserial).symm]
    exact ha
  · intro hmem
    exact ⟨e, hmem, by simp⟩

theorem isAmong_eq_false_iff (h : Numbered entries) {e : Entry} (he : e ∈ entries) {some : List Entry}
    (hsome : ∀ a ∈ some, a ∈ entries) : e.isAmong some = false ↔ e ∉ some := by
  rw [← h.isAmong_iff he hsome, Bool.not_eq_true]

/-- **The linked parent** is the type with the number that the link says. -/
theorem parentIn?_eq_some_iff (h : Numbered entries) {e p : Entry} :
    e.parentIn? entries = some p ↔ p ∈ entries ∧ e.parent = some p.serial := by
  unfold Entry.parentIn?
  rw [Option.bind_eq_some_iff]
  constructor
  · rintro ⟨serial, hparent, hfind⟩
    have hserial : p.serial = serial := by simpa using List.find?_some hfind
    exact ⟨List.mem_of_find?_eq_some hfind, by rw [hparent, hserial]⟩
  · rintro ⟨hp, hparent⟩
    refine ⟨p.serial, hparent, ?_⟩
    cases hfind : entries.find? (·.serial = p.serial) with
    | none =>
      have hnone := List.find?_eq_none.mp hfind p hp
      simp at hnone
    | some q =>
      have hserial : q.serial = p.serial := by simpa using List.find?_some hfind
      rw [h.eq_of_serial (List.mem_of_find?_eq_some hfind) hp hserial]

theorem mem_of_parentIn? (h : Numbered entries) {e p : Entry} (hparent : e.parentIn? entries = some p) : p ∈ entries :=
  (h.parentIn?_eq_some_iff.mp hparent).1

end Numbered

/-! ## §2 Climbing without a bound -/

/-- Climbing from a type to its ancestors, with the types met so far, without a bound on the steps. -/
inductive Climbs (entries placed : List Entry) : List Entry → Entry → Except ParentCycle (List Entry) → Prop where
  /-- A type that is placed ends the way. -/
  | placed {path : List Entry} {e : Entry} (hplaced : e.isAmong placed = true) : Climbs entries placed path e (.ok path)
  /-- A type that the way has met before closes a cycle. -/
  | cycle {path : List Entry} {e : Entry} (hplaced : e.isAmong placed = false) (hpath : e.isAmong path = true) :
      Climbs entries placed path e (.error (closeCycle path e))
  /-- A type without a parent ends the way, and belongs to it. -/
  | top {path : List Entry} {e : Entry} (hplaced : e.isAmong placed = false) (hpath : e.isAmong path = false)
      (hparent : e.parentIn? entries = none) : Climbs entries placed path e (.ok (e :: path))
  /-- From any other type the way goes on to its parent. -/
  | up {path : List Entry} {e parent : Entry} {result : Except ParentCycle (List Entry)}
      (hplaced : e.isAmong placed = false) (hpath : e.isAmong path = false)
      (hparent : e.parentIn? entries = some parent) (hrest : Climbs entries placed (e :: path) parent result) :
      Climbs entries placed path e result

/-- **The bound is never reached**: a way without repetition is no longer than the list of all types, so a climb that
may take one step more than there are types ends as it would without a bound. -/
theorem climbs_climb {entries : List Entry} (hn : Numbered entries) (placed : List Entry) {steps : Nat}
    {path : List Entry} {e : Entry} (he : e ∈ entries) (hmem : ∀ a ∈ path, a ∈ entries) (hnodup : path.Nodup)
    (hsteps : entries.length < path.length + steps) :
    Climbs entries placed path e (climb entries placed steps path e) := by
  induction steps generalizing path e with
  | zero =>
    -- no step is left only when the way has more types than there are
    have hlength : path.length ≤ entries.length := (List.subperm_of_subset hnodup hmem).length_le
    omega
  | succ steps ih =>
    unfold climb
    split
    · next hplaced => exact .placed hplaced
    · next hplaced =>
      rw [Bool.not_eq_true] at hplaced
      split
      · next hpath => exact .cycle hplaced hpath
      · next hpath =>
        rw [Bool.not_eq_true] at hpath
        split
        · next hparent => exact .top hplaced hpath hparent
        · next parent hparent =>
          refine .up hplaced hpath hparent (ih (hn.mem_of_parentIn? hparent) ?_ ?_ ?_)
          · exact List.forall_mem_cons.mpr ⟨he, hmem⟩
          · exact List.nodup_cons.mpr ⟨(hn.isAmong_eq_false_iff he hmem).mp hpath, hnodup⟩
          · simp only [List.length_cons]
            omega

theorem climbs_start {entries : List Entry} (hn : Numbered entries) (placed : List Entry) {e : Entry}
    (he : e ∈ entries) :
    Climbs entries placed [] e (climb entries placed (entries.length + 1) [] e) :=
  climbs_climb hn placed he (by simp) List.nodup_nil (by simp)

/-! ## §3 What a climb finds -/

/-- A way from an ancestor down to a type: each type is followed by a child of it, none is placed, none is met twice. -/
structure Ascent (entries placed path : List Entry) : Prop where
  mem : ∀ a ∈ path, a ∈ entries
  fresh : ∀ a ∈ path, a ∉ placed
  nodup : path.Nodup
  chain : path.IsChain fun p e => e.parentIn? entries = some p

theorem ascent_nil (entries placed : List Entry) : Ascent entries placed [] :=
  ⟨by simp, by simp, List.nodup_nil, List.isChain_nil⟩

/-- A way goes on to the parent of its first type. -/
theorem Ascent.cons {entries placed path : List Entry} (h : Ascent entries placed path) {e : Entry} (he : e ∈ entries)
    (hplaced : e ∉ placed) (hpath : e ∉ path) (hlink : ∀ a ∈ path.head?, a.parentIn? entries = some e) :
    Ascent entries placed (e :: path) where
  mem := List.forall_mem_cons.mpr ⟨he, h.mem⟩
  fresh := List.forall_mem_cons.mpr ⟨hplaced, h.fresh⟩
  nodup := List.nodup_cons.mpr ⟨hpath, h.nodup⟩
  chain := List.isChain_cons.mpr ⟨hlink, h.chain⟩

/-- A step of a climb, seen as a way: a type that is neither placed nor met is put in front. -/
theorem Ascent.step {entries placed path : List Entry} (h : Ascent entries placed path) (hn : Numbered entries)
    (hmem : ∀ a ∈ placed, a ∈ entries) {e : Entry} (he : e ∈ entries) (hplaced : e.isAmong placed = false)
    (hpath : e.isAmong path = false) (hlink : ∀ a ∈ path.head?, a.parentIn? entries = some e) :
    Ascent entries placed (e :: path) :=
  h.cons he ((hn.isAmong_eq_false_iff he hmem).mp hplaced) ((hn.isAmong_eq_false_iff he h.mem).mp hpath) hlink

/-- The names of a cycle of parents, from a type back to itself: each of its types is linked to the next one. -/
def SpellsCycle (entries : List Entry) (names : List Text) : Prop :=
  ∃ (first : Entry) (rest : List Entry), (∀ e ∈ first :: rest, e ∈ entries) ∧
    names = (first :: rest ++ [first]).map (·.name) ∧
    (first :: rest ++ [first]).IsChain fun e p => e.parentIn? entries = some p

/-- The first way back to a type is the cycle through it: a way has the type once, so the types since then are those in
front of it. -/
theorem Ascent.spellsCycle {entries placed path : List Entry} (h : Ascent entries placed path) (hn : Numbered entries)
    {e : Entry} (hmet : e ∈ path) (hlink : ∀ a ∈ path.head?, a.parentIn? entries = some e) :
    SpellsCycle entries (closeCycle path e).names := by
  obtain ⟨since, before, rfl⟩ := List.append_of_mem hmet
  have he : e ∈ entries := h.mem e hmet
  have hsince : ∀ a ∈ since, decide (a.serial ≠ e.serial) = true := by
    intro a ha
    rw [decide_eq_true_iff]
    intro hserial
    have hsame : a = e := hn.eq_of_serial (h.mem a (by simp [ha])) he hserial
    have hdisjoint := (List.nodup_append.mp h.nodup).2.2
    exact hdisjoint a ha e List.mem_cons_self hsame
  have hwhile : (since ++ e :: before).takeWhile (·.serial ≠ e.serial) = since := by
    rw [List.takeWhile_append_of_pos hsince]
    simp
  refine ⟨e, since.reverse, ?_, ?_, ?_⟩
  · intro a ha
    rcases List.mem_cons.mp ha with rfl | ha
    · exact he
    · exact h.mem a (by simp [List.mem_reverse.mp ha])
  · unfold closeCycle
    rw [hwhile]
    simp
  · -- read backwards, the cycle is the way since the first visit with the type in front
    have hchain : (e :: (since ++ e :: before)).IsChain fun p e => e.parentIn? entries = some p :=
      List.isChain_cons.mpr ⟨hlink, h.chain⟩
    have hsplit : e :: (since ++ e :: before) = (e :: since ++ [e]) ++ before := by simp
    rw [hsplit] at hchain
    have hbackwards : e :: since.reverse ++ [e] = (e :: since ++ [e]).reverse := by simp
    rw [hbackwards, List.isChain_reverse]
    exact (List.isChain_append.mp hchain).1

section Climbing

variable {entries placed : List Entry} (hn : Numbered entries) (hplaced : ∀ a ∈ placed, a ∈ entries)

include hn hplaced

/-- **A climb that ends** has found a way down to its type, from a type whose parent is placed or that has none. It
goes on where the types met so far end; the type itself is placed, or stands in front of these. -/
theorem Climbs.ascent {path way : List Entry} {e : Entry} (h : Climbs entries placed path e (.ok way))
    (he : e ∈ entries) (hpath : Ascent entries placed path)
    (hlink : ∀ a ∈ path.head?, a.parentIn? entries = some e) :
    Ascent entries placed way ∧ (∀ a ∈ way.head?, ∀ p, a.parentIn? entries = some p → p ∈ placed) ∧
      path <:+ way ∧ (e ∈ placed ∨ e :: path <:+ way) := by
  generalize hresult : (Except.ok way : Except ParentCycle (List Entry)) = result at h
  -- on the climb, for every way down to the type that it has reached
  induction h with
  | @placed path e hend =>
    cases hresult
    have hmem : e ∈ placed := (hn.isAmong_iff he hplaced).mp hend
    refine ⟨hpath, ?_, List.suffix_refl _, Or.inl hmem⟩
    intro a ha p hp
    rw [hlink a ha] at hp
    cases hp
    exact hmem
  | cycle => cases hresult
  | @top path e hend hfresh hparent =>
    cases hresult
    have hway := hpath.step hn hplaced he hend hfresh hlink
    refine ⟨hway, ?_, List.suffix_cons e path, Or.inr (List.suffix_refl _)⟩
    intro a ha p hp
    cases ha
    rw [hparent] at hp
    cases hp
  | @up path e parent result hend hfresh hparent hrest ih =>
    have hway := hpath.step hn hplaced he hend hfresh hlink
    have hnext : ∀ a ∈ (e :: path).head?, a.parentIn? entries = some parent := by
      intro a ha
      cases ha
      exact hparent
    obtain ⟨hascent, htop, hsuffix, -⟩ := ih (hn.mem_of_parentIn? hparent) hway hnext hresult
    exact ⟨hascent, htop, (List.suffix_cons e path).trans hsuffix, Or.inr hsuffix⟩

/-- **A climb that fails** has come back to a type that it had met. -/
theorem Climbs.spellsCycle {path : List Entry} {e : Entry} {cycle : ParentCycle}
    (h : Climbs entries placed path e (.error cycle)) (he : e ∈ entries) (hpath : Ascent entries placed path)
    (hlink : ∀ a ∈ path.head?, a.parentIn? entries = some e) : SpellsCycle entries cycle.names := by
  -- the outcome has a name, so that the ends of climbs without a cycle drop out of the induction
  generalize hresult : (Except.error cycle : Except ParentCycle (List Entry)) = result at h
  induction h with
  | placed => cases hresult
  | top => cases hresult
  | @cycle path e hend hmet =>
    cases hresult
    exact hpath.spellsCycle hn ((hn.isAmong_iff he hpath.mem).mp hmet) hlink
  | @up path e parent result hend hfresh hparent hrest ih =>
    have hway := hpath.step hn hplaced he hend hfresh hlink
    refine ih (hn.mem_of_parentIn? hparent) hway ?_ hresult
    intro a ha
    cases ha
    exact hparent

end Climbing

/-! ## §4 Placing -/

/-- Placed types: each once, and every parent before its children. -/
structure ParentsFirst (entries placed : List Entry) : Prop where
  mem : ∀ e ∈ placed, e ∈ entries
  nodup : placed.Nodup
  parents : ∀ (i : Nat) (e p : Entry), placed[i]? = some e → e.parentIn? entries = some p → p ∈ placed.take i

theorem parentsFirst_nil (entries : List Entry) : ParentsFirst entries [] := ⟨by simp, List.nodup_nil, by simp⟩

/-- A type is placed behind the others when its parent is among them. -/
theorem ParentsFirst.concat {entries placed : List Entry} (h : ParentsFirst entries placed) {e : Entry}
    (he : e ∈ entries) (hfresh : e ∉ placed) (hparent : ∀ p, e.parentIn? entries = some p → p ∈ placed) :
    ParentsFirst entries (placed ++ [e]) where
  mem := by
    intro a ha
    rcases List.mem_append.mp ha with ha | ha
    · exact h.mem a ha
    · rw [List.mem_singleton.mp ha]
      exact he
  nodup := by
    rw [List.nodup_append]
    refine ⟨h.nodup, by simp, ?_⟩
    intro a ha b hb hab
    rw [List.mem_singleton.mp hb] at hab
    exact hfresh (hab ▸ ha)
  parents := by
    intro i a p ha hp
    -- an earlier type has the same types in front of it, and the new one has all of the earlier ones
    by_cases hi : i < placed.length
    · rw [List.getElem?_append_left hi] at ha
      rw [List.take_append_of_le_length (Nat.le_of_lt hi)]
      exact h.parents i a p ha hp
    · have hlast : i = placed.length := by
        have hbound := (List.getElem?_eq_some_iff.mp ha).1
        simp only [List.length_append, List.length_singleton] at hbound
        omega
      subst hlast
      simp only [List.getElem?_append_right (Nat.le_refl _), Nat.sub_self, List.getElem?_cons_zero,
        Option.some.injEq] at ha
      subst ha
      rw [List.take_left]
      exact hparent p hp

/-- A whole way is placed, farthest ancestor first. -/
theorem ParentsFirst.append {entries placed way : List Entry} (h : ParentsFirst entries placed)
    (hway : Ascent entries placed way)
    (htop : ∀ a ∈ way.head?, ∀ p, a.parentIn? entries = some p → p ∈ placed) :
    ParentsFirst entries (placed ++ way) := by
  -- with the first type of the way placed, the rest is a way whose first type has its parent placed
  induction way generalizing placed with
  | nil => simpa using h
  | cons e way ih =>
    obtain ⟨hfresh, hfreshRest⟩ := List.forall_mem_cons.mp hway.fresh
    obtain ⟨hnotIn, hnodup⟩ := List.nodup_cons.mp hway.nodup
    obtain ⟨hlink, hchain⟩ := List.isChain_cons.mp hway.chain
    have hnext := h.concat (hway.mem e List.mem_cons_self) hfresh (htop e rfl)
    have hrest : Ascent entries (placed ++ [e]) way := by
      refine ⟨fun a ha => hway.mem a (List.mem_cons_of_mem _ ha), ?_, hnodup, hchain⟩
      intro a ha hmem
      rcases List.mem_append.mp hmem with hmem | hmem
      · exact hfreshRest a ha hmem
      · rw [List.mem_singleton.mp hmem] at ha
        exact hnotIn ha
    have happend : placed ++ e :: way = placed ++ [e] ++ way := by simp
    rw [happend]
    refine ih hnext hrest ?_
    intro a ha p hp
    rw [hlink a ha] at hp
    cases hp
    simp

section Placing

variable {entries placed : List Entry} (hn : Numbered entries) (hplaced : ParentsFirst entries placed)

include hn hplaced

/-- **One type is placed**: parents stay first, and the type is among the placed ones. -/
theorem placeNext_ok {e : Entry} (he : e ∈ entries) {after : List Entry} (h : placeNext entries placed e = .ok after) :
    ParentsFirst entries after ∧ placed ⊆ after ∧ e ∈ after := by
  obtain ⟨way, hway, hafter⟩ := bind_ok h
  cases hafter
  have hclimbs := climbs_start hn placed he
  rw [hway] at hclimbs
  obtain ⟨hascent, htop, -, hfound⟩ := hclimbs.ascent hn hplaced.mem he (ascent_nil entries placed) (by simp)
  have hmem : e ∈ placed ∨ e ∈ way := hfound.imp_right fun hsuffix => hsuffix.subset List.mem_cons_self
  exact ⟨hplaced.append hascent htop, List.subset_append_left _ _, List.mem_append.mpr hmem⟩

theorem placeNext_error {e : Entry} (he : e ∈ entries) {cycle : ParentCycle}
    (h : placeNext entries placed e = .error cycle) : SpellsCycle entries cycle.names := by
  have hclimbs := climbs_start hn placed he
  unfold placeNext at h
  cases hclimb : climb entries placed (entries.length + 1) [] e with
  | ok way => rw [hclimb] at h; cases h
  | error found =>
    rw [hclimb] at h hclimbs
    cases h
    exact hclimbs.spellsCycle hn hplaced.mem he (ascent_nil entries placed) (by simp)

/-- Types are placed one after the other, up to the first cycle. -/
theorem foldlM_placeNext (rest : List Entry) (hrest : ∀ e ∈ rest, e ∈ entries) :
    match rest.foldlM (placeNext entries) placed with
    | .ok after => ParentsFirst entries after ∧ placed ⊆ after ∧ rest ⊆ after
    | .error cycle => SpellsCycle entries cycle.names := by
  -- each type brings its ancestors along, and what has been placed stays placed
  induction rest generalizing placed with
  | nil => exact ⟨hplaced, fun a ha => ha, by simp⟩
  | cons e rest ih =>
    obtain ⟨he, hlater⟩ := List.forall_mem_cons.mp hrest
    rw [List.foldlM_cons]
    cases hnext : placeNext entries placed e with
    | error cycle => exact placeNext_error hn hplaced he hnext
    | ok next =>
      obtain ⟨hfirst, hkept, hmem⟩ := placeNext_ok hn hplaced he hnext
      have hrun := ih hfirst hlater
      show match rest.foldlM (placeNext entries) next with
        | .ok after => ParentsFirst entries after ∧ placed ⊆ after ∧ e :: rest ⊆ after
        | .error cycle => SpellsCycle entries cycle.names
      split
      · next after hafter =>
        rw [hafter] at hrun
        obtain ⟨hparents, hnextKept, hall⟩ := hrun
        refine ⟨hparents, fun a ha => hnextKept (hkept ha), ?_⟩
        intro a ha
        rcases List.mem_cons.mp ha with rfl | ha
        · exact hnextKept hmem
        · exact hall ha
      · next cycle hcycle =>
        rw [hcycle] at hrun
        exact hrun

end Placing

/-- **All types are placed**, each once and every parent before its children. -/
theorem placeAll_ok {entries placed : List Entry} (hn : Numbered entries) (h : placeAll entries = .ok placed) :
    ParentsFirst entries placed ∧ placed.Perm entries := by
  have hrun := foldlM_placeNext hn (parentsFirst_nil entries) entries fun _ he => he
  unfold placeAll at h
  rw [h] at hrun
  obtain ⟨hparents, -, hall⟩ := hrun
  refine ⟨hparents, (List.perm_ext_iff_of_nodup hparents.nodup hn.nodup).mpr fun e => ?_⟩
  exact ⟨hparents.mem e, fun he => hall he⟩

/-- **A cycle that is told is there.** -/
theorem placeAll_error {entries : List Entry} (hn : Numbered entries) {cycle : ParentCycle}
    (h : placeAll entries = .error cycle) : SpellsCycle entries cycle.names := by
  have hrun := foldlM_placeNext hn (parentsFirst_nil entries) entries fun _ he => he
  unfold placeAll at h
  rw [h] at hrun
  exact hrun

end HeaderReflection
