import HeaderReflection.Text.Order
import Mathlib.Data.List.Induction
import Mathlib.Data.List.Sort
import Mathlib.Order.Basic

/-!
# Byte order and sorted lists

The byte order is the lexicographic order of lists, so it is linear; sorting gives the one arrangement of a list that
is in order; and lists that grow by insertion stay strictly increasing.

## Main results

- `lt_iff`, `le_iff`: the byte order is the lexicographic one.
- `sortBy_perm`, `pairwise_sortBy`: sorting permutes and orders.
- `sort_eq_mergeSort`: sorted texts do not depend on how they are sorted.
- `pairwise_insertUnique`, `mem_insertUnique`: insertion into a strictly increasing list.
- `pairwise_foldl_insertUnique`, `mem_foldl_insertUnique`: insertion of several texts, one after the other.
- `mem_dedup`, `dedup_concat`: each text once, at its first place.
-/

namespace HeaderReflection

/-! ## §1 Sorting by an order -/

theorem sortBy_eq_insertionSort {α : Type} (le : α → α → Bool) (xs : List α) :
    sortBy le xs = xs.insertionSort (fun a b => le a b = true) := by
  have hinsert : ∀ (a : α) (ys : List α), insertBy le a ys = ys.orderedInsert (fun a b => le a b = true) a := by
    intro a ys
    induction ys with
    | nil => rfl
    | cons b ys ih => simp only [insertBy, List.orderedInsert, ih]
  induction xs with
  | nil => rfl
  | cons x xs ih =>
    rw [List.insertionSort_cons, ← ih, ← hinsert]
    rfl

theorem sortBy_perm {α : Type} (le : α → α → Bool) (xs : List α) : (sortBy le xs).Perm xs := by
  rw [sortBy_eq_insertionSort]
  exact List.perm_insertionSort _ xs

theorem mem_sortBy {α : Type} {le : α → α → Bool} {xs : List α} {a : α} : a ∈ sortBy le xs ↔ a ∈ xs :=
  (sortBy_perm le xs).mem_iff

/-- **Sorting orders**, for an order that compares any two elements and is transitive. -/
theorem pairwise_sortBy {α : Type} {le : α → α → Bool} (total : ∀ a b, le a b = true ∨ le b a = true)
    (trans : ∀ a b c, le a b = true → le b c = true → le a c = true) (xs : List α) :
    (sortBy le xs).Pairwise (fun a b => le a b = true) := by
  have : Std.Total (fun a b : α => le a b = true) := ⟨total⟩
  have : IsTrans α (fun a b : α => le a b = true) := ⟨trans⟩
  rw [sortBy_eq_insertionSort]
  exact List.pairwise_insertionSort _ xs

/-- Lists that are permuted are sorted alike, where no two of their elements may precede each other. -/
theorem sortBy_congr {α : Type} {le : α → α → Bool} (total : ∀ a b, le a b = true ∨ le b a = true)
    (trans : ∀ a b c, le a b = true → le b c = true → le a c = true) {xs ys : List α}
    (antisymm : ∀ a ∈ xs, ∀ b ∈ xs, le a b = true → le b a = true → a = b) (h : xs.Perm ys) :
    sortBy le xs = sortBy le ys := by
  have hperm : (sortBy le xs).Perm (sortBy le ys) := ((sortBy_perm le xs).trans h).trans (sortBy_perm le ys).symm
  refine hperm.eq_of_pairwise ?_ (pairwise_sortBy total trans xs) (pairwise_sortBy total trans ys)
  intro a b ha hb
  exact antisymm a (mem_sortBy.mp ha) b (h.mem_iff.mpr (mem_sortBy.mp hb))

/-- Sorting commutes with a map that keeps the order. -/
theorem map_sortBy {α β : Type} {le : α → α → Bool} {le' : β → β → Bool} (f : α → β)
    (h : ∀ a b, le' (f a) (f b) = le a b) (xs : List α) : (sortBy le xs).map f = sortBy le' (xs.map f) := by
  have hinsert : ∀ (a : α) (ys : List α), (insertBy le a ys).map f = insertBy le' (f a) (ys.map f) := by
    intro a ys
    induction ys with
    | nil => rfl
    | cons b ys ih =>
      simp only [insertBy, List.map_cons, h]
      split <;> simp [ih]
  induction xs with
  | nil => rfl
  | cons x xs ih =>
    change (insertBy le x (sortBy le xs)).map f = insertBy le' (f x) (sortBy le' (xs.map f))
    rw [hinsert, ih]

namespace Text

/-! ## §2 The byte order -/

/-- **The byte order is the lexicographic order.** -/
theorem lt_iff {s t : Text} : lt s t = true ↔ s < t := by
  induction s generalizing t with
  | nil => cases t <;> simp [lt]
  | cons a s ih =>
    cases t with
    | nil => simp [lt]
    | cons b t => simp [lt, List.cons_lt_cons_iff, ih]

theorem le_iff {s t : Text} : le s t = true ↔ s ≤ t := by
  rw [le, Bool.not_eq_true', ← Bool.not_eq_true, lt_iff]
  exact List.not_lt

theorem le_total (s t : Text) : le s t = true ∨ le t s = true := by
  rw [le_iff, le_iff]
  exact List.le_total s t

theorem le_trans {s t u : Text} (h : le s t = true) (h' : le t u = true) : le s u = true := by
  rw [le_iff] at h h' ⊢
  exact List.le_trans h h'

theorem le_antisymm {s t : Text} (h : le s t = true) (h' : le t s = true) : s = t := by
  rw [le_iff] at h h'
  exact List.le_antisymm h h'

@[simp] theorem lt_irrefl (s : Text) : lt s s = false := by
  rw [← Bool.not_eq_true, lt_iff]
  exact List.lt_irrefl s

theorem lt_trans {s t u : Text} (h : lt s t = true) (h' : lt t u = true) : lt s u = true := by
  rw [lt_iff] at h h' ⊢
  exact List.lt_trans h h'

theorem ne_of_lt {s t : Text} (h : lt s t = true) : s ≠ t := by
  rintro rfl
  simp at h

theorem lt_of_not_lt_of_ne {s t : Text} (h : ¬ lt s t = true) (hne : s ≠ t) : lt t s = true := by
  by_contra hts
  refine hne (le_antisymm ?_ ?_)
  · simpa [le] using hts
  · simpa [le] using h

theorem sort_perm (texts : List Text) : (sort texts).Perm texts := sortBy_perm le texts

theorem pairwise_sort (texts : List Text) : (sort texts).Pairwise (fun s t => le s t = true) :=
  pairwise_sortBy le_total (fun _ _ _ => le_trans) texts

/-- **Sorted texts** are the one arrangement in lexicographic order, however they are sorted. -/
theorem sort_eq_mergeSort (texts : List Text) : sort texts = texts.mergeSort (fun s t => decide (s ≤ t)) := by
  have hle : ∀ s t : Text, decide (s ≤ t) = le s t := by
    intro s t
    rw [Bool.eq_iff_iff, decide_eq_true_iff, le_iff]
  simp only [hle]
  have htrans : ∀ s t u : Text, le s t = true → le t u = true → le s u = true := fun _ _ _ => le_trans
  have htotal : ∀ s t : Text, (le s t || le t s) = true := by
    intro s t
    rw [Bool.or_eq_true]
    exact le_total s t
  have hmerge : (texts.mergeSort le).Pairwise (fun s t => le s t = true) :=
    List.pairwise_mergeSort htrans htotal texts
  have hperm : (sort texts).Perm (texts.mergeSort le) := (sort_perm texts).trans (List.mergeSort_perm texts le).symm
  exact hperm.eq_of_pairwise (fun _ _ _ _ => le_antisymm) (pairwise_sort texts) hmerge

/-! ## §3 Strictly increasing lists -/

theorem mem_insertUnique {t u : Text} {texts : List Text} :
    u ∈ insertUnique t texts ↔ u = t ∨ u ∈ texts := by
  induction texts with
  | nil => simp [insertUnique]
  | cons s texts ih =>
    rw [insertUnique]
    split
    · rw [List.mem_cons, ih, List.mem_cons]
      tauto
    · split
      · next hst =>
        subst hst
        simp
      · simp

/-- What is left out does not matter. -/
theorem filter_insertUnique {f : Text → Bool} {t : Text} (h : f t = false) (texts : List Text) :
    (insertUnique t texts).filter f = texts.filter f := by
  induction texts with
  | nil => simp [insertUnique, h]
  | cons s texts ih =>
    rw [insertUnique]
    split
    · rw [List.filter_cons, List.filter_cons, ih]
    · split
      · rfl
      · rw [List.filter_cons, if_neg (by simp [h])]

/-- **Insertion keeps a list strictly increasing.** -/
theorem pairwise_insertUnique {texts : List Text} (h : texts.Pairwise (fun s t => lt s t = true)) (t : Text) :
    (insertUnique t texts).Pairwise (fun s t => lt s t = true) := by
  induction texts with
  | nil => simp [insertUnique]
  | cons s texts ih =>
    have hs := List.pairwise_cons.mp h
    rw [insertUnique]
    split
    · next hlt =>
      refine List.pairwise_cons.mpr ⟨?_, ih hs.2⟩
      intro u hu
      rcases mem_insertUnique.mp hu with rfl | hu
      · exact hlt
      · exact hs.1 u hu
    · split
      · exact h
      · next hlt hne =>
        have hts : lt t s = true := lt_of_not_lt_of_ne hlt hne
        refine List.pairwise_cons.mpr ⟨?_, h⟩
        intro u hu
        rcases List.mem_cons.mp hu with rfl | hu
        · exact hts
        · exact lt_trans hts (hs.1 u hu)

theorem pairwise_foldl_insertUnique {set : List Text} (h : set.Pairwise (fun s t => lt s t = true))
    (texts : List Text) :
    (texts.foldl (fun set t => insertUnique t set) set).Pairwise (fun s t => lt s t = true) := by
  induction texts generalizing set with
  | nil => exact h
  | cons t texts ih => exact ih (pairwise_insertUnique h t)

theorem mem_foldl_insertUnique {u : Text} {texts set : List Text} :
    u ∈ texts.foldl (fun set t => insertUnique t set) set ↔ u ∈ texts ∨ u ∈ set := by
  induction texts generalizing set with
  | nil => simp
  | cons t texts ih =>
    simp only [List.foldl_cons, ih, mem_insertUnique, List.mem_cons]
    tauto

/-- Two strictly increasing lists with the same texts are equal. -/
theorem eq_of_pairwise_lt {texts texts' : List Text} (h : texts.Pairwise (fun s t => lt s t = true))
    (h' : texts'.Pairwise (fun s t => lt s t = true)) (hmem : ∀ t, t ∈ texts ↔ t ∈ texts') : texts = texts' := by
  have : Std.Irrefl (fun s t : Text => lt s t = true) := ⟨fun s => by simp⟩
  have : Std.Antisymm (fun s t : Text => lt s t = true) :=
    ⟨fun s t hst hts => absurd (lt_trans hst hts) (by simp)⟩
  exact h.eq_of_mem_iff h' hmem

/-! ## §4 Each text once -/

theorem dedup_nil : dedup [] = [] := rfl

/-- A further text joins the list of distinct ones unless it is there. -/
theorem dedup_concat (texts : List Text) (t : Text) :
    dedup (texts ++ [t]) = if t ∈ dedup texts then dedup texts else dedup texts ++ [t] := by
  simp [dedup, List.foldl_append]

theorem mem_dedup {texts : List Text} {t : Text} : t ∈ dedup texts ↔ t ∈ texts := by
  induction texts using List.reverseRecOn generalizing t with
  | nil => simp [dedup_nil]
  | append_singleton texts u ih =>
    rw [dedup_concat]
    split
    · next hu =>
      rw [ih, List.mem_append, List.mem_singleton]
      constructor
      · exact Or.inl
      · rintro (h | rfl)
        · exact h
        · exact ih.mp hu
    · rw [List.mem_append, ih, List.mem_append]

end Text

end HeaderReflection
