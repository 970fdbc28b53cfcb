import HeaderReflection.Proofs.Text.Words
import Mathlib.Data.List.TakeWhile

/-!
# Texts put together

A text that has been put together from pieces comes apart again where a byte below 128 stands between them: no blank
reaches across such a byte. So blanks around a piece are trimmed, and the words of a text are those of its pieces,
whatever bytes the pieces hold.

## Main definitions

- `dropEnds`: a list without what passes a test at its ends.
- `BeginsPiece`: a byte that no blank reaches across.
- `IsBlanks`: nothing but blanks of a single byte.
- `IsBare`: a word, without any blank.

## Main results

- `marks_append`, `marks_append_cons`: marks up to a byte that begins a piece, such as one below 128.
- `trim_pad`, `trim_keeps`: trimming a piece with something around it.
- `marks_trim`, `trim_trim`: a trimmed text has nothing left to trim.
- `fields_append_blank`, `fields_bare`: the words of pieces between blanks.
- `cut_byte`, `cut_append_of_not_mem`: searching texts that are known well enough.
-/

namespace HeaderReflection.Text

/-! ## §1 Ends of lists -/

section DropEnds

variable {α : Type} {p : α → Bool}

/-- A list without the elements at its ends that pass a test. -/
def dropEnds (p : α → Bool) (xs : List α) : List α := ((xs.dropWhile p).reverse.dropWhile p).reverse

theorem dropEnds_sublist (p : α → Bool) (xs : List α) : (dropEnds p xs).Sublist xs := by
  have hback := (List.dropWhile_sublist (l := (xs.dropWhile p).reverse) p).reverse
  rw [List.reverse_reverse] at hback
  exact hback.trans (List.dropWhile_sublist p)

/-- Elements that pass the test do not count at the ends. -/
theorem dropEnds_pad {before after : List α} (hbefore : ∀ a ∈ before, p a = true) (hafter : ∀ a ∈ after, p a = true)
    (xs : List α) : dropEnds p (before ++ xs ++ after) = dropEnds p xs := by
  unfold dropEnds
  rw [List.append_assoc, List.dropWhile_append_of_pos hbefore, List.dropWhile_append]
  split
  · -- nothing in the middle stays either
    next hnil =>
    have hdrop : xs.dropWhile p = [] := by simpa using hnil
    have hall : after.dropWhile p = [] := List.dropWhile_eq_nil_iff.mpr hafter
    rw [hdrop, hall]
  · rw [List.reverse_append, List.dropWhile_append_of_pos (by simpa using hafter)]

theorem dropWhile_eq_self_iff {xs : List α} : xs.dropWhile p = xs ↔ ∀ a ∈ xs.head?, p a = false := by
  cases xs with
  | nil => simp
  | cons x xs =>
    rw [List.dropWhile_cons]
    split
    · next hx =>
      constructor
      · intro heq
        have hlength := congrArg List.length heq
        have hle := (List.dropWhile_sublist (l := xs) p).length_le
        rw [List.length_cons] at hlength
        omega
      · intro h
        rw [h x rfl] at hx
        cases hx
    · next hx => simpa using hx

/-- **Nothing is dropped** exactly when neither the first nor the last element passes the test. -/
theorem dropEnds_eq_self_iff {xs : List α} :
    dropEnds p xs = xs ↔ (∀ a ∈ xs.head?, p a = false) ∧ ∀ a ∈ xs.getLast?, p a = false := by
  constructor
  · intro h
    have hlength := congrArg List.length h
    unfold dropEnds at hlength
    rw [List.length_reverse] at hlength
    -- a list that keeps its length has lost nothing at either end
    have hstart : xs.dropWhile p = xs := by
      apply (List.dropWhile_sublist p).eq_of_length_le
      have hle := (List.dropWhile_sublist (l := (xs.dropWhile p).reverse) p).length_le
      rw [List.length_reverse] at hle
      omega
    refine ⟨dropWhile_eq_self_iff.mp hstart, ?_⟩
    have hend : xs.reverse.dropWhile p = xs.reverse := by
      unfold dropEnds at h
      rw [hstart] at h
      rw [← List.reverse_eq_iff, h]
    rw [← List.head?_reverse]
    exact dropWhile_eq_self_iff.mp hend
  · rintro ⟨hhead, hlast⟩
    unfold dropEnds
    rw [← List.head?_reverse] at hlast
    rw [dropWhile_eq_self_iff.mpr hhead, dropWhile_eq_self_iff.mpr hlast, List.reverse_reverse]

theorem dropEnds_append_cons {before after : List α} {c : α} (hbefore : ∀ a ∈ before.head?, p a = false)
    (hc : p c = false) (hafter : dropEnds p after = after) :
    dropEnds p (before ++ c :: after) = before ++ c :: after := by
  obtain ⟨-, hlast⟩ := dropEnds_eq_self_iff.mp hafter
  rw [dropEnds_eq_self_iff]
  constructor
  · cases before with
    | nil => simpa using hc
    | cons b before => simpa using hbefore
  · cases after with
    | nil => simpa using hc
    | cons a after =>
      rw [List.getLast?_append_cons, List.getLast?_cons_cons]
      exact hlast

theorem head?_dropWhile_eq_false {xs : List α} : ∀ a ∈ (xs.dropWhile p).head?, p a = false := by
  intro a ha
  have hhead := List.head?_dropWhile_not p xs
  rw [Option.mem_def.mp ha] at hhead
  exact hhead

theorem dropEnds_prefix (p : α → Bool) (xs : List α) : dropEnds p xs <+: xs.dropWhile p := by
  rw [← List.reverse_suffix, dropEnds, List.reverse_reverse]
  exact List.dropWhile_suffix p

/-- **Both ends are visible** when the ends have been dropped. -/
theorem ends_dropEnds (p : α → Bool) (xs : List α) :
    (∀ a ∈ (dropEnds p xs).head?, p a = false) ∧ ∀ a ∈ (dropEnds p xs).getLast?, p a = false := by
  constructor
  · intro a ha
    obtain ⟨rest, hrest⟩ := dropEnds_prefix p xs
    have hkept : a ∈ (xs.dropWhile p).head? := by
      rw [← hrest, List.head?_append, Option.mem_def.mp ha]
      rfl
    exact head?_dropWhile_eq_false a hkept
  · intro a ha
    rw [dropEnds, List.getLast?_reverse] at ha
    exact head?_dropWhile_eq_false a ha

/-- What is dropped stands around what is kept. -/
theorem exists_eq_append_dropEnds (p : α → Bool) (xs : List α) :
    ∃ before after, xs = before ++ dropEnds p xs ++ after := by
  obtain ⟨before, hbefore⟩ := List.dropWhile_suffix (l := xs) p
  obtain ⟨after, hafter⟩ := dropEnds_prefix p xs
  exact ⟨before, after, by rw [List.append_assoc, hafter, hbefore]⟩

/-- What is dropped is not counted by a test that it fails. -/
theorem countP_dropEnds {q : α → Bool} {xs : List α} (h : ∀ a ∈ xs, p a = true → q a = false) :
    (dropEnds p xs).countP q = xs.countP q := by
  have hdrop : ∀ ys : List α, (∀ a ∈ ys, p a = true → q a = false) → (ys.dropWhile p).countP q = ys.countP q := by
    intro ys hys
    have htaken : (ys.takeWhile p).countP q = 0 := by
      rw [List.countP_eq_zero]
      intro a ha
      simpa using hys a ((List.takeWhile_sublist p).mem ha) (List.mem_takeWhile_imp ha)
    have hsplit := congrArg (List.countP q) (List.takeWhile_append_dropWhile (p := p) (l := ys))
    rw [List.countP_append, htaken, Nat.zero_add] at hsplit
    exact hsplit
  rw [dropEnds, List.countP_reverse, hdrop, List.countP_reverse, hdrop xs h]
  intro a ha
  rw [List.mem_reverse] at ha
  exact h a ((List.dropWhile_sublist p).mem ha)

/-- Nothing is kept only if everything passes the test. -/
theorem forall_of_dropEnds_eq_nil {xs : List α} (h : dropEnds p xs = []) : ∀ a ∈ xs, p a = true := by
  rw [dropEnds, List.reverse_eq_nil_iff, List.dropWhile_eq_nil_iff] at h
  have hnil : xs.dropWhile p = [] := by
    by_contra hne
    obtain ⟨a, rest, hcons⟩ := List.exists_cons_of_ne_nil hne
    have hpass : p a = true := h a (by simp [hcons])
    have hhead : a ∈ (xs.dropWhile p).head? := by simp [hcons]
    have hfail := head?_dropWhile_eq_false a hhead
    rw [hpass] at hfail
    cases hfail
  exact List.dropWhile_eq_nil_iff.mp hnil

end DropEnds

theorem trim_eq (text : Text) : trim text = (dropEnds (·.2) (marks text)).map (·.1) := rfl

theorem trimOf_eq (set text : Text) : trimOf set text = dropEnds set.contains text := rfl

/-- A text has nothing to trim when none of its marks is dropped. -/
theorem trim_eq_self_iff {text : Text} : trim text = text ↔ dropEnds (·.2) (marks text) = marks text := by
  rw [trim_eq]
  constructor
  · intro h
    apply (dropEnds_sublist _ _).eq_of_length
    have hlength := congrArg List.length h
    have hmarks := congrArg List.length (map_fst_marks text)
    rw [List.length_map] at hlength hmarks
    rw [hlength, hmarks]
  · intro h
    rw [h, map_fst_marks]

/-! ## §2 Marks -/

theorem isSome_stripPrefix?_append {beginning : Text} {c : UInt8} (hc : c ∉ beginning) (before after : Text) :
    (stripPrefix? beginning (before ++ c :: after)).isSome = (stripPrefix? beginning before).isSome := by
  induction beginning generalizing before with
  | nil => rfl
  | cons b beginning ih =>
    rw [List.mem_cons, not_or] at hc
    cases before with
    | nil =>
      rw [List.nil_append, stripPrefix?_cons_of_ne (Ne.symm hc.1)]
      rfl
    | cons d before =>
      simp only [List.cons_append, stripPrefix?]
      split
      · exact ih hc.2 before
      · rfl

/-- All bytes of a blank but the first are above 127. -/
theorem high_of_mem_blankSpellings : ∀ spelling ∈ blankSpellings, spelling ≠ [] ∧ ∀ b ∈ spelling.tail, 128 ≤ b := by
  have hall : (blankSpellings.all fun spelling => !spelling.isEmpty && spelling.tail.all (128 ≤ ·)) = true := by decide
  intro spelling hspelling
  simpa using List.all_eq_true.mp hall spelling hspelling

/-- A byte that no blank has behind its first byte. So no blank that has begun before such a byte reaches across it. -/
def BeginsPiece (c : UInt8) : Prop := ∀ spelling ∈ blankSpellings, c ∉ spelling.tail

theorem beginsPiece_of_lt {c : UInt8} (hc : c < 128) : BeginsPiece c := by
  intro spelling hspelling hmem
  exact absurd ((high_of_mem_blankSpellings spelling hspelling).2 c hmem) (UInt8.not_le.mpr hc)

theorem blankWidth_append_cons {c : UInt8} (hc : BeginsPiece c) (b : UInt8) (before after : Text) :
    blankWidth (b :: before ++ c :: after) = blankWidth (b :: before) := by
  have hsame : ∀ spelling ∈ blankSpellings,
      beginsWith spelling (b :: before ++ c :: after) = beginsWith spelling (b :: before) := by
    intro spelling hspelling
    have hne := (high_of_mem_blankSpellings spelling hspelling).1
    have htail := hc spelling hspelling
    cases spelling with
    | nil => exact absurd rfl hne
    | cons first rest =>
      simp only [beginsWith, List.cons_append, stripPrefix?]
      split
      · exact isSome_stripPrefix?_append htail before after
      · rfl
  unfold blankWidth
  rw [← List.head?_filter, ← List.head?_filter, List.filter_congr hsame]

theorem blankWidth_le (text : Text) : blankWidth text ≤ text.length := by
  unfold blankWidth
  split
  · next spelling h =>
    have hbegins := List.find?_some h
    exact (beginsWith_iff.mp hbegins).length_le
  · exact Nat.zero_le _

/-- The first bytes of a text begin with the blank that the text begins with, if there are enough of them. -/
theorem blankWidth_of_prefix {start text : Text} (h : start <+: text) (hlength : blankWidth text ≤ start.length) :
    blankWidth start = blankWidth text := by
  have hlonger : ∀ spelling, beginsWith spelling start = true → beginsWith spelling text = true :=
    fun spelling hbegins => beginsWith_iff.mpr ((beginsWith_iff.mp hbegins).trans h)
  unfold blankWidth at hlength ⊢
  cases hfind : blankSpellings.find? (beginsWith · text) with
  | none =>
    rw [List.find?_eq_none] at hfind
    rw [List.find?_eq_none.mpr fun spelling hspelling => hfind spelling hspelling ∘ hlonger spelling]
  | some found =>
    rw [hfind] at hlength
    -- no spelling before the one that is found fits the text, and so none fits its first bytes
    obtain ⟨hbegins, before, after, hspellings, hbefore⟩ := List.find?_eq_some_iff_append.mp hfind
    have hstart : beginsWith found start = true :=
      beginsWith_iff.mpr (List.prefix_of_prefix_length_le (beginsWith_iff.mp hbegins) h hlength)
    have hfind' : blankSpellings.find? (beginsWith · start) = some found := by
      refine List.find?_eq_some_iff_append.mpr ⟨hstart, before, after, hspellings, fun spelling hspelling => ?_⟩
      have hnot := hbefore spelling hspelling
      rw [Bool.not_eq_true'] at hnot ⊢
      exact Bool.eq_false_iff.mpr fun hshort => Bool.eq_false_iff.mp hnot (hlonger spelling hshort)
    rw [hfind']

theorem marksFrom_append_cons {c : UInt8} (hc : BeginsPiece c) (after : Text) (inside : Nat) (before : Text)
    (h : inside ≤ before.length) :
    marksFrom inside (before ++ c :: after) = marksFrom inside before ++ marks (c :: after) := by
  -- a blank that has begun before the byte also ends before it
  induction before generalizing inside with
  | nil =>
    obtain rfl : inside = 0 := Nat.le_zero.mp h
    rfl
  | cons b before ih =>
    cases inside with
    | succ inside =>
      simp only [List.cons_append, marksFrom]
      rw [ih inside (Nat.le_of_succ_le_succ h)]
    | zero =>
      have hwidth := blankWidth_append_cons hc b before after
      have hle := blankWidth_le (b :: before)
      rw [List.cons_append] at hwidth ⊢
      rw [marksFrom, marksFrom, hwidth]
      cases hw : blankWidth (b :: before) with
      | zero => simp only [List.cons_append, ih 0 (Nat.zero_le _)]
      | succ width =>
        have hroom : width ≤ before.length := by
          rw [hw] at hle
          exact Nat.le_of_succ_le_succ hle
        simp only [List.cons_append, ih width hroom]

/-- **Marks of two pieces**, of which the second does not begin inside a blank. -/
theorem marks_append {after : Text} (h : ∀ c ∈ after.head?, BeginsPiece c) (before : Text) :
    marks (before ++ after) = marks before ++ marks after := by
  cases after with
  | nil => simp [marks, marksFrom]
  | cons c after => exact marksFrom_append_cons (h c rfl) after 0 before (Nat.zero_le _)

theorem marks_ne_nil {text : Text} (h : text ≠ []) : marks text ≠ [] := by
  intro hnil
  have hfst := map_fst_marks text
  rw [hnil] at hfst
  exact h hfst.symm

/-- **No blank reaches across a byte below 128.** -/
theorem marks_append_cons {c : UInt8} (hc : c < 128) (before after : Text) :
    marks (before ++ c :: after) = marks before ++ (c, isBlankByte c) :: marks after := by
  rw [marks, marksFrom_append_cons (beginsPiece_of_lt hc) after 0 before (Nat.zero_le _), marks_cons_of_lt hc]
  rfl

/-- A byte below 128 that is no blank is not marked as one. -/
theorem not_mem_marks {b : UInt8} (hlow : b < 128) (hb : isBlankByte b = false) (text : Text) :
    (b, true) ∉ marks text := by
  intro hmem
  obtain ⟨front, back, hmarks⟩ := List.append_of_mem hmem
  have htext : text = front.map (·.1) ++ b :: back.map (·.1) := by
    rw [← map_fst_marks text, hmarks]
    simp
  have hsplit := marks_append_cons hlow (front.map (·.1)) (back.map (·.1))
  rw [← htext, hmarks, hb] at hsplit
  have hlength : front.length = (marks (front.map (·.1))).length := by
    have hfront := congrArg List.length (map_fst_marks (front.map (·.1)))
    rw [List.length_map, List.length_map] at hfront
    exact hfront.symm
  have hhead := (List.cons.inj (List.append_inj hsplit hlength).2).1
  cases hhead

/-- Trimming takes nothing away but blanks. -/
theorem count_trim {b : UInt8} (hlow : b < 128) (hb : isBlankByte b = false) (text : Text) :
    (trim text).count b = text.count b := by
  have hmarks : (dropEnds (·.2) (marks text)).countP ((· == b) ∘ (·.1)) = (marks text).countP ((· == b) ∘ (·.1)) := by
    apply countP_dropEnds
    rintro ⟨c, blank⟩ hmem rfl
    have hne : c ≠ b := by
      rintro rfl
      exact not_mem_marks hlow hb text hmem
    simpa using hne
  rw [trim_eq, List.count, List.countP_map, hmarks, ← List.countP_map, map_fst_marks]

/-! ## §3 Blanks around a text -/

/-- Nothing but blanks of a single byte. -/
def IsBlanks (text : Text) : Prop := ∀ b ∈ text, isBlankByte b = true

theorem isBlanks_nil : IsBlanks [] := fun _ hb => by cases hb

theorem marks_of_isBlanks {text : Text} (h : IsBlanks text) : marks text = text.map fun b => (b, true) := by
  have hmarks := marks_append_of_lt (fun b hb => lt_of_isBlankByte (h b hb)) []
  rw [List.append_nil] at hmarks
  rw [hmarks]
  simp only [marks, marksFrom, List.append_nil]
  exact List.map_congr_left fun b hb => by rw [h b hb]

theorem marks_blanks_append {blanks : Text} (h : IsBlanks blanks) (text : Text) :
    marks (blanks ++ text) = blanks.map (fun b => (b, true)) ++ marks text := by
  rw [marks_append_of_lt fun b hb => lt_of_isBlankByte (h b hb)]
  congr 1
  exact List.map_congr_left fun b hb => by rw [h b hb]

theorem marks_append_blanks {blanks : Text} (h : IsBlanks blanks) (text : Text) :
    marks (text ++ blanks) = marks text ++ blanks.map fun b => (b, true) := by
  cases blanks with
  | nil => simp
  | cons b blanks =>
    have hb := h b List.mem_cons_self
    rw [marks_append_cons (lt_of_isBlankByte hb), hb, marks_of_isBlanks fun c hc => h c (List.mem_cons_of_mem _ hc)]
    rfl

/-- **Blanks around a text** are trimmed. -/
theorem trim_pad {before after : Text} (hbefore : IsBlanks before) (hafter : IsBlanks after) (text : Text) :
    trim (before ++ text ++ after) = trim text := by
  have hmarks : marks (before ++ text ++ after) =
      before.map (fun b => (b, true)) ++ marks text ++ after.map fun b => (b, true) := by
    rw [List.append_assoc, marks_blanks_append hbefore, marks_append_blanks hafter, List.append_assoc]
  rw [trim_eq, trim_eq, hmarks, dropEnds_pad]
  · simp
  · simp

theorem trim_of_isBlanks {text : Text} (h : IsBlanks text) : trim text = [] := by
  have hpad := trim_pad h isBlanks_nil []
  rw [List.append_nil, List.append_nil] at hpad
  exact hpad

theorem trim_blanks_append {before : Text} (hbefore : IsBlanks before) (text : Text) :
    trim (before ++ text) = trim text := by
  have hpad := trim_pad hbefore isBlanks_nil text
  rwa [List.append_nil] at hpad

/-- A text that does not begin with a blank. -/
def BeginsVisibly (text : Text) : Prop := (marks text).dropWhile (·.2) = marks text

theorem beginsVisibly_nil : BeginsVisibly [] := rfl

theorem beginsVisibly_cons {b : UInt8} (h : b < 128) (hb : isBlankByte b = false) (text : Text) :
    BeginsVisibly (b :: text) := by
  unfold BeginsVisibly
  rw [marks_cons_of_lt h, hb]
  rfl

theorem marks_cons_of_beginsVisibly {b : UInt8} {text : Text} (h : BeginsVisibly (b :: text)) :
    marks (b :: text) = (b, false) :: marks text := by
  unfold BeginsVisibly at h
  cases hwidth : blankWidth (b :: text) with
  | zero => simp only [marks, marksFrom, hwidth]
  | succ width =>
    -- a blank at the start would have been dropped
    have hmarks : marks (b :: text) = (b, true) :: marksFrom width text := by simp only [marks, marksFrom, hwidth]
    rw [hmarks] at h
    have hlength := congrArg List.length h
    have hle := (List.dropWhile_sublist (·.2) (l := marksFrom width text)).length_le
    rw [List.dropWhile_cons_of_pos rfl, List.length_cons] at hlength
    omega

/-- Cutting a text off behind its first byte does not make a blank of it. -/
theorem BeginsVisibly.of_start {b : UInt8} {text start : Text} (h : BeginsVisibly (b :: text))
    (hstart : start <+: text) :
    BeginsVisibly (b :: start) := by
  have hmarks := marks_cons_of_beginsVisibly h
  have hwidth : blankWidth (b :: text) = 0 := by
    cases hwidth : blankWidth (b :: text) with
    | zero => rfl
    | succ width => simp [marks, marksFrom, hwidth] at hmarks
  have hsame := blankWidth_of_prefix (List.prefix_cons_inj b |>.mpr hstart) (hwidth ▸ Nat.zero_le _)
  have hzero : blankWidth (b :: start) = 0 := hsame.trans hwidth
  simp [BeginsVisibly, marks, marksFrom, hzero]

/-- **What stands before a visible byte** is kept when the blanks behind that byte are trimmed. -/
theorem exists_trim_of_marks {before after : Text} {c : UInt8} (hbefore : BeginsVisibly before)
    (hmarks : marks (before ++ c :: after) = marks before ++ (c, false) :: marks after) :
    ∃ rest, rest <+: after ∧ trim (before ++ c :: after) = before ++ c :: rest := by
  have hdrop : (marks (before ++ c :: after)).dropWhile (·.2) = marks before ++ (c, false) :: marks after := by
    rw [hmarks, List.dropWhile_append, hbefore]
    split
    · next hnil =>
      have hnone : marks before = [] := by simpa using hnil
      rw [hnone]
      rfl
    · rfl
  refine ⟨(((marks after).reverse.dropWhile (·.2)).reverse).map (·.1), ?_, ?_⟩
  · have hkept : ((marks after).reverse.dropWhile (·.2)).reverse <+: marks after := by
      rw [← List.reverse_suffix, List.reverse_reverse]
      exact List.dropWhile_suffix _
    simpa using hkept.map (·.1)
  -- from behind, trimming goes as far as the visible byte at most
  have hback : ((marks before ++ (c, false) :: marks after).reverse.dropWhile (·.2)).reverse =
      marks before ++ (c, false) :: ((marks after).reverse.dropWhile (·.2)).reverse := by
    rw [List.reverse_append, List.reverse_cons, List.append_assoc, List.dropWhile_append]
    split
    · next hnil =>
      have hnone : (marks after).reverse.dropWhile (·.2) = [] := by simpa using hnil
      simp [hnone]
    · simp
  rw [trim, hdrop, hback]
  simp

theorem trim_keeps {before : Text} (hbefore : BeginsVisibly before) {c : UInt8} (hc : c < 128)
    (hvisible : isBlankByte c = false) (after : Text) : ∃ rest, trim (before ++ c :: after) = before ++ c :: rest := by
  obtain ⟨rest, -, hrest⟩ := exists_trim_of_marks hbefore
    (by rw [marks_append_cons hc before after, hvisible])
  exact ⟨rest, hrest⟩

theorem trim_concat {before : Text} (hbefore : BeginsVisibly before) {c : UInt8} (hc : c < 128)
    (hvisible : isBlankByte c = false) : trim (before ++ [c]) = before ++ [c] := by
  rw [trim_eq_self_iff, marks_append_cons hc, hvisible]
  exact dropEnds_append_cons (dropWhile_eq_self_iff.mp hbefore) rfl rfl

/-- A text that begins visibly goes on doing so with more behind it. -/
theorem BeginsVisibly.append {before after : Text} (hbefore : BeginsVisibly before) (hne : before ≠ [])
    (h : ∀ c ∈ after.head?, BeginsPiece c) : BeginsVisibly (before ++ after) := by
  unfold BeginsVisibly at hbefore ⊢
  rw [dropWhile_eq_self_iff] at hbefore ⊢
  rw [marks_append h, List.head?_append_of_ne_nil _ (marks_ne_nil hne)]
  exact hbefore

theorem beginsVisibly_append {before : Text} (hne : before ≠ []) (hbefore : BeginsVisibly before) {c : UInt8}
    (hc : c < 128) (after : Text) : BeginsVisibly (before ++ c :: after) :=
  hbefore.append hne (by simpa using beginsPiece_of_lt hc)

/-! ## §4 Texts that are trimmed -/

/-- A blank that has begun goes on to its end. -/
theorem mem_take_marksFrom (inside : Nat) (text : Text) : ∀ mark ∈ (marksFrom inside text).take inside, mark.2 = true := by
  induction text generalizing inside with
  | nil => cases inside <;> simp [marksFrom]
  | cons b text ih =>
    cases inside with
    | zero => simp
    | succ inside =>
      rw [marksFrom, List.take_succ_cons, List.forall_mem_cons]
      exact ⟨rfl, ih inside⟩

theorem lt_length_of_marksFrom {inside : Nat} {text : Text} {front back : List (UInt8 × Bool)}
    (h : marksFrom inside text = front ++ back) (hne : front ≠ []) (hlast : ∀ mark ∈ front.getLast?, mark.2 = false) :
    inside < front.length := by
  by_contra hshort
  -- all of the front would lie inside the blank, its visible last byte too
  have hinside := mem_take_marksFrom inside text (front.getLast hne)
  rw [h, List.take_append, List.take_of_length_le (Nat.le_of_not_lt hshort)] at hinside
  rw [hlast _ (List.getLast?_eq_some_getLast hne)] at hinside
  cases hinside (List.mem_append_left _ (List.getLast_mem hne))

/-- **Cutting a text off behind a visible byte** leaves the marks before it as they are. -/
theorem marksFrom_of_append {inside : Nat} {text : Text} {front back : List (UInt8 × Bool)}
    (h : marksFrom inside text = front ++ back) (hlast : ∀ mark ∈ front.getLast?, mark.2 = false) :
    marksFrom inside (front.map (·.1)) = front := by
  induction text generalizing inside front with
  | nil =>
    have hfront : front = [] := by
      cases inside <;> exact (List.append_eq_nil_iff.mp h.symm).1
    subst hfront
    cases inside <;> rfl
  | cons b text ih =>
    cases front with
    | nil => cases inside <;> rfl
    | cons mark front =>
      have hrest : ∀ mark ∈ front.getLast?, mark.2 = false := by
        intro last hmem
        cases front with
        | nil => cases hmem
        | cons next front =>
          apply hlast
          rwa [List.getLast?_cons_cons]
      cases inside with
      | succ inside =>
        obtain ⟨rfl, htail⟩ := List.cons.inj h
        simp only [List.map_cons, marksFrom, ih htail hrest]
      | zero =>
        -- the first blank fits in the front, since the front does not end inside a blank
        have hbegins : ∀ {width}, marksFrom width text = front ++ back → b :: front.map (·.1) <+: b :: text := by
          intro width hmarks
          have htext := map_fst_marksFrom width text
          rw [hmarks, List.map_append] at htext
          exact List.prefix_cons_inj b |>.mpr ⟨_, htext⟩
        rw [marksFrom] at h
        cases hwidth : blankWidth (b :: text) with
        | zero =>
          rw [hwidth] at h
          obtain ⟨rfl, htail⟩ := List.cons.inj h
          have hsame := blankWidth_of_prefix (hbegins htail) (hwidth ▸ Nat.zero_le _)
          rw [List.map_cons, marksFrom, hsame, hwidth]
          simp only [ih htail hrest]
        | succ width =>
          rw [hwidth] at h
          obtain ⟨rfl, htail⟩ := List.cons.inj h
          have hroom : width ≤ front.length := by
            by_cases hne : front = []
            · subst hne
              cases hlast (b, true) rfl
            · exact (lt_length_of_marksFrom htail hne hrest).le
          have hsame := blankWidth_of_prefix (hbegins htail) (by rw [hwidth]; simpa using hroom)
          rw [List.map_cons, marksFrom, hsame, hwidth]
          simp only [ih htail hrest]

/-- **Cutting a text off before a visible byte** leaves the marks behind it as they are. -/
theorem marks_of_append {inside : Nat} {text : Text} {front back : List (UInt8 × Bool)} {c : UInt8}
    (h : marksFrom inside text = front ++ (c, false) :: back) : marks (c :: back.map (·.1)) = (c, false) :: back := by
  induction text generalizing inside front with
  | nil => cases inside <;> simp [marksFrom] at h
  | cons b text ih =>
    cases front with
    | nil =>
      -- the visible byte is the first one, so no blank has begun before it
      have htext := map_fst_marksFrom inside (b :: text)
      rw [h] at htext
      cases inside with
      | succ inside => simp [marksFrom] at h
      | zero =>
        rw [show c :: back.map (·.1) = b :: text from htext]
        exact h
    | cons mark front =>
      cases inside with
      | succ inside => exact ih (List.cons.inj h).2
      | zero =>
        rw [marksFrom] at h
        split at h
        · exact ih (List.cons.inj h).2
        · exact ih (List.cons.inj h).2

/-- **The marks of a trimmed text** are those that are kept. -/
theorem marks_trim (text : Text) : marks (trim text) = dropEnds (·.2) (marks text) := by
  obtain ⟨before, after, hmarks⟩ := exists_eq_append_dropEnds (·.2) (marks text)
  obtain ⟨hhead, hlast⟩ := ends_dropEnds (·.2) (marks text)
  rw [trim_eq]
  generalize dropEnds (·.2) (marks text) = kept at *
  cases kept with
  | nil => rfl
  | cons mark kept =>
    obtain ⟨c, blank⟩ := mark
    obtain rfl : blank = false := hhead (c, blank) rfl
    rw [List.append_assoc, List.cons_append] at hmarks
    -- first what stands before it goes, then what stands behind it
    have hback := marks_of_append hmarks
    rw [← List.cons_append] at hback
    exact marksFrom_of_append hback hlast

/-- **Trimming a second time** takes nothing. -/
@[simp] theorem trim_trim (text : Text) : trim (trim text) = trim text := by
  rw [trim_eq_self_iff, marks_trim, dropEnds_eq_self_iff]
  exact ends_dropEnds _ _

/-- Trimming leaves something visible of a text that has it. -/
theorem isBlank_trim (text : Text) : isBlank (trim text) = isBlank text := by
  unfold isBlank
  rw [marks_trim, Bool.eq_iff_iff, List.all_eq_true, List.all_eq_true]
  constructor
  · intro h
    apply forall_of_dropEnds_eq_nil
    -- what is kept would start visibly, so nothing is kept
    cases hkept : dropEnds (·.2) (marks text) with
    | nil => rfl
    | cons mark kept =>
      have hvisible : mark.2 = false := (ends_dropEnds (·.2) (marks text)).1 mark (by rw [hkept]; rfl)
      rw [h mark (by rw [hkept]; exact List.mem_cons_self)] at hvisible
      cases hvisible
  · intro h mark hmark
    exact h mark ((dropEnds_sublist _ _).mem hmark)

/-- **Behind a blank in a trimmed text** something visible stands. -/
theorem trim_ne_nil_of_trim_eq {text before rest : Text} {c : UInt8} (hc : isBlankByte c = true)
    (h : trim text = before ++ c :: rest) : trim rest ≠ [] := by
  intro hnil
  have hmarks : marks (trim text) = marks before ++ (c, true) :: marks rest := by
    rw [h, marks_append_cons (lt_of_isBlankByte hc), hc]
  have hblank : ∀ mark ∈ (c, true) :: marks rest, mark.2 = true := by
    rw [List.forall_mem_cons]
    refine ⟨rfl, forall_of_dropEnds_eq_nil ?_⟩
    rwa [trim_eq, List.map_eq_nil_iff] at hnil
  -- the last mark would be one of a blank
  have hlast := (ends_dropEnds (·.2) (marks text)).2
  rw [← marks_trim, hmarks, List.getLast?_append_of_ne_nil _ (List.cons_ne_nil _ _)] at hlast
  have hend := hblank _ (List.getLast_mem (List.cons_ne_nil _ _))
  rw [hlast _ (List.getLast?_eq_some_getLast (List.cons_ne_nil _ _))] at hend
  cases hend

/-- A text with nothing to trim does not end in a blank of a single byte. -/
theorem getLast?_of_trim_eq_self {text : Text} (htrim : trim text = text) {c : UInt8} (hc : isBlankByte c = true) :
    text.getLast? ≠ some c := by
  intro hlast
  rw [← map_fst_marks text, List.getLast?_map] at hlast
  obtain ⟨mark, hmark, rfl⟩ := Option.map_eq_some_iff.mp hlast
  have hvisible : mark.2 = false := (dropEnds_eq_self_iff.mp (trim_eq_self_iff.mp htrim)).2 mark hmark
  have hmem : (mark.1, false) ∈ marks text := hvisible ▸ List.mem_of_getLast? hmark
  rw [isBlankByte_of_mem_marksFrom hmem] at hc
  cases hc

/-- A text with nothing to trim has nothing to trim behind a visible byte either. -/
theorem trim_append_of_trimmed {first : UInt8} {before text : Text} (hlow : ∀ b ∈ first :: before, b < 128)
    (hfirst : isBlankByte first = false) (hne : text ≠ []) (htrim : trim text = text) :
    trim (first :: before ++ text) = first :: before ++ text := by
  have hmarks : marks (first :: before ++ text) =
      (first, false) :: (before.map (fun b => (b, isBlankByte b)) ++ marks text) := by
    rw [marks_append_of_lt hlow, List.map_cons, hfirst]
    rfl
  rw [trim_eq_self_iff, hmarks, dropEnds_eq_self_iff]
  constructor
  · simp
  · rw [← List.cons_append, List.getLast?_append_of_ne_nil _ (marks_ne_nil hne)]
    exact (dropEnds_eq_self_iff.mp (trim_eq_self_iff.mp htrim)).2

/-! ## §5 Words -/

/-- A word: a text without blanks, with at least one byte. -/
structure IsBare (word : Text) : Prop where
  ne_nil : word ≠ []
  visible : ∀ mark ∈ marks word, mark.2 = false

theorem IsBare.marks_eq {word : Text} (h : IsBare word) : marks word = word.map fun b => (b, false) := by
  conv_rhs => rw [← map_fst_marks word, List.map_map]
  rw [List.map_congr_left (g := id)]
  · simp
  · intro mark hmark
    exact Prod.ext rfl (h.visible mark hmark).symm

theorem IsBare.beginsVisibly {word : Text} (h : IsBare word) : BeginsVisibly word := by
  unfold BeginsVisibly
  rw [h.marks_eq]
  cases word <;> rfl

theorem isBare_of_lt {word : Text} (hne : word ≠ []) (h : ∀ b ∈ word, b < 128 ∧ isBlankByte b = false) :
    IsBare word := by
  refine ⟨hne, ?_⟩
  have hmarks := marks_append_of_lt (fun b hb => (h b hb).1) []
  rw [List.append_nil] at hmarks
  rw [hmarks]
  simp only [marks, marksFrom, List.append_nil, List.mem_map]
  rintro mark ⟨b, hb, rfl⟩
  exact (h b hb).2

theorem cutMarked_ne_nil (marked : List (UInt8 × Bool)) : cutMarked marked ≠ [] := by
  cases marked with
  | nil => simp [cutMarked]
  | cons mark marked =>
    show (if mark.2 then [] :: cutMarked marked else consHead mark.1 (cutMarked marked)) ≠ []
    split
    · simp
    · exact consHead_ne_nil _ _

theorem cutMarked_append_blank (before after : List (UInt8 × Bool)) (c : UInt8) :
    cutMarked (before ++ (c, true) :: after) = cutMarked before ++ cutMarked after := by
  induction before with
  | nil => rfl
  | cons mark before ih =>
    show (if mark.2 then [] :: cutMarked (before ++ (c, true) :: after)
        else consHead mark.1 (cutMarked (before ++ (c, true) :: after))) =
      (if mark.2 then [] :: cutMarked before else consHead mark.1 (cutMarked before)) ++ cutMarked after
    rw [ih]
    split
    · rfl
    · exact consHead_append _ (cutMarked_ne_nil before) _

/-- **Words on both sides of a blank** are the words of the two sides. -/
theorem fields_append_blank {c : UInt8} (hc : isBlankByte c = true) (before after : Text) :
    fields (before ++ c :: after) = fields before ++ fields after := by
  unfold fields
  rw [marks_append_cons (lt_of_isBlankByte hc), hc, cutMarked_append_blank, List.filter_append]

@[simp] theorem fields_nil : fields [] = [] := rfl

theorem fields_blanks_append {blanks : Text} (h : IsBlanks blanks) (text : Text) :
    fields (blanks ++ text) = fields text := by
  induction blanks with
  | nil => rfl
  | cons b blanks ih =>
    have hfields := fields_append_blank (h b List.mem_cons_self) [] (blanks ++ text)
    rw [List.nil_append, fields_nil, List.nil_append] at hfields
    rw [List.cons_append, hfields, ih fun c hc => h c (List.mem_cons_of_mem _ hc)]

theorem fields_bare {word : Text} (h : IsBare word) : fields word = [word] := by
  have hcut : ∀ text : Text, cutMarked (text.map fun b => (b, false)) = [text] := by
    intro text
    induction text with
    | nil => rfl
    | cons b text ih =>
      show consHead b (cutMarked (text.map fun b => (b, false))) = _
      rw [ih]
      rfl
  unfold fields
  rw [h.marks_eq, hcut]
  simp [h.ne_nil]

theorem fields_bare_append {word : Text} (h : IsBare word) {blanks : Text} (hne : blanks ≠ [])
    (hblanks : IsBlanks blanks)
    (text : Text) : fields (word ++ blanks ++ text) = word :: fields text := by
  cases blanks with
  | nil => exact absurd rfl hne
  | cons c blanks =>
    rw [List.append_assoc, List.cons_append, fields_append_blank (hblanks c List.mem_cons_self), fields_bare h,
      fields_blanks_append fun b hb => hblanks b (List.mem_cons_of_mem _ hb)]
    rfl

/-! ## §6 Searching -/

theorem cut_byte {c : UInt8} {before : Text} (h : c ∉ before) (after : Text) :
    cut [c] (before ++ c :: after) = some (before, after) := by
  induction before with
  | nil => simp [cut, stripPrefix?]
  | cons b before ih =>
    have hne : c ≠ b := fun heq => h (heq ▸ List.mem_cons_self)
    rw [List.cons_append, cut, stripPrefix?_cons_of_ne hne]
    simp only [ih fun hmem => h (List.mem_cons_of_mem _ hmem)]
    rfl

/-- A text without the first byte of a separator is passed over. -/
theorem cut_append_of_not_mem {c : UInt8} {sep before : Text} (h : c ∉ before) (after : Text) :
    cut (c :: sep) (before ++ after) = (cut (c :: sep) after).map fun halves => (before ++ halves.1, halves.2) := by
  induction before with
  | nil => simp
  | cons b before ih =>
    have hne : c ≠ b := fun heq => h (heq ▸ List.mem_cons_self)
    rw [List.cons_append, cut, stripPrefix?_cons_of_ne hne]
    simp only [ih fun hmem => h (List.mem_cons_of_mem _ hmem), Option.map_map]
    rfl

end HeaderReflection.Text
