import HeaderReflection.Module
import HeaderReflection.Proofs.Text.Order

/-!
# Include sets

A module keeps its headers as a strictly increasing list without repetitions. The place of a new header may be looked
for from the start of the list, or by halving the part of it that is still in question; and room for it may be made by
moving what stands behind that place. All of this comes to the same, as long as the list increases, and every insertion
sees to that. So the list depends on which headers have been added, and on nothing else.

## Main definitions

- `Text.bisect`: the place of a text in an increasing list, found by halving.
- `Text.Brackets`: bounds for that place.
- `Text.shiftIn`, `Text.insertBisected`: insertion at a place.
- `Module.addIncludes`: a module after some calls.

## Main results

- `Text.Brackets.step`, `Text.Brackets.bisect`: what a step of the search keeps, and where the search ends.
- `Text.insertBisected_eq`: both ways of insertion agree on strictly increasing lists.
- `includes_of_calls`: the include set after any calls.
-/

namespace HeaderReflection

namespace Text

/-! ## §1 Searching by halves -/

/-- The place of a text in an increasing list, between two bounds, found by halving the distance between them. -/
def bisect (t : Text) (texts : List Text) (low high : Nat) : Nat :=
  if low < high then
    let middle := (low + high) / 2
    if lt (texts.getD middle []) t then bisect t texts (middle + 1) high else bisect t texts low middle
  else low
termination_by high - low

/-- Bounds for the place of a text in a list: what stands before the lower one is below the text, and what stands from
the upper one on is not. -/
structure Brackets (t : Text) (texts : List Text) (low high : Nat) : Prop where
  low_le : low ≤ high
  high_le : high ≤ texts.length
  below : ∀ s ∈ texts.take low, lt s t = true
  notBelow : ∀ s ∈ texts.drop high, lt s t = false

variable {t : Text} {texts : List Text} {low high place : Nat}

theorem brackets_all (t : Text) (texts : List Text) : Brackets t texts 0 texts.length where
  low_le := Nat.zero_le _
  high_le := Nat.le_refl _
  below := by simp
  notBelow := by simp

/-- **One step** of the search keeps the bounds, since the list increases. -/
theorem Brackets.step (h : Brackets t texts low high) (hsorted : texts.Pairwise (fun s t => lt s t = true))
    (middle : Nat) (hlow : low ≤ middle) (hhigh : middle < high) :
    if lt (texts.getD middle []) t then Brackets t texts (middle + 1) high else Brackets t texts low middle := by
  have hlength : middle < texts.length := Nat.lt_of_lt_of_le hhigh h.high_le
  have hsplit : texts = texts.take middle ++ texts[middle] :: texts.drop (middle + 1) := by simp
  rw [hsplit] at hsorted
  obtain ⟨-, hrest, hbefore⟩ := List.pairwise_append.mp hsorted
  have hafter := (List.pairwise_cons.mp hrest).1
  simp only [List.getD_eq_getElem?_getD, List.getElem?_eq_getElem hlength, Option.getD_some]
  split
  · next hlt =>
    refine ⟨hhigh, h.high_le, ?_, h.notBelow⟩
    intro s hs
    simp only [List.take_add_one, List.getElem?_eq_getElem hlength, Option.toList_some, List.mem_append,
      List.mem_singleton] at hs
    -- what stands before the middle is below the text there, and so below the one that is looked for
    rcases hs with hs | rfl
    · exact lt_trans (hbefore s hs _ List.mem_cons_self) hlt
    · exact hlt
  · next hlt =>
    refine ⟨hlow, hlength.le, h.below, ?_⟩
    intro s hs
    rw [List.drop_eq_getElem_cons hlength] at hs
    -- the text in the middle is below what stands behind it, which therefore cannot be below the one that is looked for
    rcases List.mem_cons.mp hs with rfl | hs
    · simpa using hlt
    · rw [← Bool.not_eq_true]
      intro hbelow
      exact hlt (lt_trans (hafter s hs) hbelow)

/-- **The search ends** where the bounds meet. -/
theorem Brackets.bisect (h : Brackets t texts low high) (hsorted : texts.Pairwise (fun s t => lt s t = true)) :
    Brackets t texts (bisect t texts low high) (bisect t texts low high) := by
  fun_induction Text.bisect t texts low high with
  | case1 low high hlt middle hbelow ih =>
    have hstep := h.step hsorted middle (by omega) (by omega)
    rw [if_pos hbelow] at hstep
    exact ih hstep
  | case2 low high hlt middle hbelow ih =>
    have hstep := h.step hsorted middle (by omega) (by omega)
    rw [if_neg hbelow] at hstep
    exact ih hstep
  | case3 low high hlt =>
    obtain rfl : low = high := Nat.le_antisymm h.low_le (Nat.le_of_not_lt hlt)
    exact h

/-! ## §2 Insertion at a place -/

/-- Put a text down at a place: the list gets one more place at its end, what stands from the place on moves by one, and
the text is written over what is left behind. -/
def shiftIn (t : Text) (place : Nat) (texts : List Text) : List Text :=
  let grown := texts ++ [[]]
  (grown.take (place + 1) ++ (grown.drop place).take (texts.length - place)).set place t

/-- Insert a text at the place that is found by halving, unless it stands there. -/
def insertBisected (t : Text) (texts : List Text) : List Text :=
  if texts[bisect t texts 0 texts.length]? = some t then texts
  else shiftIn t (bisect t texts 0 texts.length) texts

/-- Making room loses nothing, at either end of the list too. -/
theorem shiftIn_eq (t : Text) (h : place ≤ texts.length) :
    shiftIn t place texts = texts.take place ++ t :: texts.drop place := by
  have hmoved : ((texts ++ [[]]).drop place).take (texts.length - place) = texts.drop place := by
    rw [List.drop_append_of_le_length h]
    exact List.take_left' (by simp)
  have hkept : ((texts ++ [[]]).take (place + 1)).length = place + 1 := by
    simp only [List.length_take, List.length_append, List.length_singleton]
    omega
  have hinside : place < ((texts ++ [[]]).take (place + 1) ++ texts.drop place).length := by
    rw [List.length_append, hkept]
    omega
  simp only [shiftIn, hmoved]
  rw [List.set_eq_take_append_cons_drop, if_pos hinside, List.drop_left' hkept,
    List.take_append_of_le_length (by omega), List.take_take, List.take_append_of_le_length (by omega)]
  simp

theorem insertUnique_append {front : List Text} (h : ∀ s ∈ front, lt s t = true) (back : List Text) :
    insertUnique t (front ++ back) = front ++ insertUnique t back := by
  induction front with
  | nil => rfl
  | cons s front ih =>
    obtain ⟨hs, hfront⟩ := List.forall_mem_cons.mp h
    simp only [List.cons_append, insertUnique, hs, if_true, ih hfront]

theorem insertUnique_of_notBelow (h : ∀ s ∈ texts, lt s t = false) :
    insertUnique t texts = if texts.head? = some t then texts else t :: texts := by
  cases texts with
  | nil => rfl
  | cons s texts => simp [insertUnique, h s List.mem_cons_self]

/-- **Both ways of insertion agree** on strictly increasing lists. -/
theorem insertBisected_eq (h : texts.Pairwise (fun s t => lt s t = true)) (t : Text) :
    insertBisected t texts = insertUnique t texts := by
  have hplace := (brackets_all t texts).bisect h
  unfold insertBisected
  generalize bisect t texts 0 texts.length = place at hplace ⊢
  have hinsert : insertUnique t texts =
      texts.take place ++ if texts[place]? = some t then texts.drop place else t :: texts.drop place := by
    rw [← List.head?_drop, ← insertUnique_of_notBelow hplace.notBelow, ← insertUnique_append hplace.below,
      List.take_append_drop]
  rw [hinsert, shiftIn_eq t hplace.high_le]
  split
  · exact (List.take_append_drop place texts).symm
  · rfl

/-- Insertions from the empty list on meet strictly increasing lists only, so they agree in the long run as well. -/
theorem foldl_insertBisected (texts : List Text) :
    texts.foldl (fun set t => insertBisected t set) [] = texts.foldl (fun set t => insertUnique t set) [] := by
  induction texts using List.reverseRecOn with
  | nil => rfl
  | append_singleton texts t ih =>
    simp only [List.foldl_append, List.foldl_cons, List.foldl_nil, ih]
    exact insertBisected_eq (pairwise_foldl_insertUnique List.Pairwise.nil texts) t

end Text

/-! ## §3 Headers of a module -/

namespace Module

/-- The module after some headers have been added to its include set, one after the other. -/
def addIncludes (m : Module) (paths : List Text) : Module := paths.foldl (fun m path => m.addInclude path) m

variable {m : Module} {paths : List Text}

theorem includes_addIncludes (m : Module) (paths : List Text) :
    (m.addIncludes paths).includes = paths.foldl (fun set path => Text.insertUnique path set) m.includes := by
  induction paths generalizing m with
  | nil => rfl
  | cons path paths ih => exact ih (m.addInclude path)

/-- An include set that increases goes on doing so. -/
theorem pairwise_addIncludes (h : m.includes.Pairwise (fun s t => Text.lt s t = true)) (paths : List Text) :
    (m.addIncludes paths).includes.Pairwise (fun s t => Text.lt s t = true) := by
  rw [includes_addIncludes]
  exact Text.pairwise_foldl_insertUnique h paths

theorem mem_addIncludes {path : Text} : path ∈ (m.addIncludes paths).includes ↔ path ∈ paths ∨ path ∈ m.includes := by
  rw [includes_addIncludes, Text.mem_foldl_insertUnique]

end Module

/-- **The include set after any calls** is strictly increasing in the lexicographic order of bytes, and holds exactly the
headers that have been added. It is the list that insertion by halving and moving makes of the same calls. Two sequences
of calls lead to the same include set exactly if the same headers occur in them, in whatever order and however often. -/
theorem includes_of_calls (name scope : Text) (calls : List Text) :
    let set := ((Module.empty name scope).addIncludes calls).includes
    set.Pairwise (· < ·) ∧
    (∀ path, path ∈ set ↔ path ∈ calls) ∧
    set = calls.foldl (fun set path => Text.insertBisected path set) [] ∧
    ∀ others, ((Module.empty name scope).addIncludes others).includes = set ↔
      ∀ path, path ∈ others ↔ path ∈ calls := by
  have hsorted : ∀ paths, ((Module.empty name scope).addIncludes paths).includes.Pairwise
      (fun s t => Text.lt s t = true) := Module.pairwise_addIncludes List.Pairwise.nil
  have hmem : ∀ paths path, path ∈ ((Module.empty name scope).addIncludes paths).includes ↔ path ∈ paths := by
    intro paths path
    simp [Module.mem_addIncludes, Module.empty]
  refine ⟨?_, hmem calls, ?_, fun others => ⟨?_, ?_⟩⟩
  · exact (hsorted calls).imp Text.lt_iff.mp
  · rw [Text.foldl_insertBisected]
    exact Module.includes_addIncludes _ calls
  · intro hsame path
    rw [← hmem others, ← hmem calls, hsame]
  · intro hsame
    -- both lists increase, and so they are equal if they have the same elements
    apply Text.eq_of_pairwise_lt (hsorted others) (hsorted calls)
    intro path
    rw [hmem, hmem, hsame]

/-- Calls that add a header, one that goes in front of it, and the first one again. -/
def repeatedCalls : List Text := ["root/zeta.h", "root/alpha.h", "root/zeta.h"]

/-- Two headers come to the same in both orders, and with one of them added a second time. -/
theorem includes_of_repeatedCalls :
    repeatedCalls.foldl (fun set path => Text.insertBisected path set) [] =
        [Text.ofString "root/alpha.h", Text.ofString "root/zeta.h"] ∧
      ((Module.empty "root" "agea").addIncludes ["root/alpha.h", "root/zeta.h"]).includes =
        ((Module.empty "root" "agea").addIncludes repeatedCalls).includes := by
  obtain ⟨-, -, hbisected, hsame⟩ := includes_of_calls "root" "agea" repeatedCalls
  refine ⟨hbisected.symm.trans (by decide), (hsame _).mpr ?_⟩
  intro path
  simp only [repeatedCalls, List.mem_cons, List.not_mem_nil, or_false]
  tauto

end HeaderReflection
