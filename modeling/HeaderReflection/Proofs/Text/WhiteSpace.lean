import HeaderReflection.Proofs.Text.Fields

/-!
# White space of any spelling

Blanks may be spelled with several bytes, and the bytes around them need not be valid. A blank nevertheless comes apart
from what stands before it, since no blank has the first byte of another one inside, and from what stands behind it,
since no blank is the beginning of another one. So white space of any kind is trimmed at the ends of a text, and
separates words. The words of a text hold none of it, not even across bytes that belong together otherwise.

## Main definitions

- `unmarked`: the marks of bytes that belong to no blank.

## Main results

- `marks_blank_append`, `beginsPiece_head_of_isBlank`: white space comes apart from what stands behind it and before it.
- `trim_padded`: white space around a text is trimmed.
- `fields_append_gap`: words on both sides of white space.
- `isBare_iff`: words are the texts in which no blank stands.
- `exists_of_mem_fields`: a word of a text stands in it whole.
-/

namespace HeaderReflection.Text

variable {blank gap text before after word : Text}

/-! ## §1 Marks -/

theorem exists_of_blankWidth_ne_zero (h : blankWidth text ≠ 0) :
    ∃ spelling ∈ blankSpellings, spelling <+: text ∧ blankWidth text = spelling.length := by
  unfold blankWidth at h ⊢
  cases hfind : blankSpellings.find? (beginsWith · text) with
  | none =>
    rw [hfind] at h
    exact absurd rfl h
  | some spelling =>
    have hbegins := List.find?_some hfind
    exact ⟨spelling, List.mem_of_find?_eq_some hfind, beginsWith_iff.mp hbegins, rfl⟩

theorem blankWidth_ne_zero (hblank : blank ∈ blankSpellings) (h : blank <+: text) : blankWidth text ≠ 0 := by
  unfold blankWidth
  cases hfind : blankSpellings.find? (beginsWith · text) with
  | none => exact absurd (beginsWith_iff.mpr h) (List.find?_eq_none.mp hfind blank hblank)
  | some found =>
    have hfound := (high_of_mem_blankSpellings found (List.mem_of_find?_eq_some hfind)).1
    exact fun hzero => hfound (List.length_eq_zero_iff.mp hzero)

/-- No blank is the beginning of another one. -/
theorem eq_of_prefix_of_mem_blankSpellings :
    ∀ a ∈ blankSpellings, ∀ b ∈ blankSpellings, a <+: b → a = b := by
  decide

/-- A blank at the start of a text is the same blank whatever follows. -/
theorem blankWidth_append (h : blankWidth text ≠ 0) (more : Text) : blankWidth (text ++ more) = blankWidth text := by
  obtain ⟨spelling, hspelling, hstart, -⟩ := exists_of_blankWidth_ne_zero h
  symm
  refine blankWidth_of_prefix (List.prefix_append text more) ?_
  by_cases hzero : blankWidth (text ++ more) = 0
  · omega
  obtain ⟨longer, hlonger, hlongerStart, hwidth⟩ := exists_of_blankWidth_ne_zero hzero
  -- of two blanks at the same place one begins with the other, so they are the same
  have hsame : longer = spelling := by
    rcases List.prefix_or_prefix_of_prefix hlongerStart (hstart.trans (List.prefix_append text more)) with h | h
    · exact eq_of_prefix_of_mem_blankSpellings _ hlonger _ hspelling h
    · exact (eq_of_prefix_of_mem_blankSpellings _ hspelling _ hlonger h).symm
  rw [hwidth, hsame]
  exact hstart.length_le

theorem marksFrom_append_of_blank {inside : Nat} (hinside : inside ≤ blank.length)
    (h : ∀ mark ∈ marksFrom inside blank, mark.2 = true) (more : Text) :
    marksFrom inside (blank ++ more) = marksFrom inside blank ++ marks more := by
  -- what is left of a blank of several bytes is never longer than the text, so that no blank is cut in two
  induction blank generalizing inside with
  | nil =>
    obtain rfl : inside = 0 := Nat.le_zero.mp hinside
    rfl
  | cons b blank ih =>
    cases inside with
    | succ inside =>
      simp only [marksFrom, List.forall_mem_cons] at h
      simp only [List.cons_append, marksFrom]
      rw [ih (Nat.le_of_succ_le_succ hinside) h.2]
    | zero =>
      have hle := blankWidth_le (b :: blank)
      rw [marksFrom] at h
      cases hwidth : blankWidth (b :: blank) with
      | zero =>
        rw [hwidth] at h
        cases (List.forall_mem_cons.mp h).1
      | succ width =>
        rw [hwidth] at h hle
        have hsame := blankWidth_append (by rw [hwidth]; simp) more
        rw [List.cons_append, hwidth] at hsame
        simp only [List.cons_append, marksFrom, hwidth, hsame]
        rw [ih (Nat.le_of_succ_le_succ hle) (List.forall_mem_cons.mp h).2]

theorem isBlank_iff : isBlank text = true ↔ ∀ mark ∈ marks text, mark.2 = true := List.all_eq_true

/-- **Marks behind white space** are those of what stands there. -/
theorem marks_blank_append (h : isBlank blank = true) (more : Text) :
    marks (blank ++ more) = marks blank ++ marks more :=
  marksFrom_append_of_blank (Nat.zero_le _) (isBlank_iff.mp h) more

/-- White space does not begin inside a blank. -/
theorem beginsPiece_head_of_isBlank (h : isBlank blank = true) : ∀ c ∈ blank.head?, BeginsPiece c := by
  have hheads : ∀ spelling ∈ blankSpellings, ∀ other ∈ blankSpellings,
      (spelling.head?.all fun c => !other.tail.contains c) = true := by decide
  intro c hc
  obtain ⟨rest, rfl⟩ := List.head?_eq_some_iff.mp hc
  have hwidth : blankWidth (c :: rest) ≠ 0 := by
    intro hzero
    have hmark := isBlank_iff.mp h (c, false)
    rw [marks, marksFrom, hzero] at hmark
    cases hmark List.mem_cons_self
  obtain ⟨spelling, hspelling, hstart, hlength⟩ := exists_of_blankWidth_ne_zero hwidth
  cases spelling with
  | nil => exact absurd hlength hwidth
  | cons first rest' =>
    obtain ⟨rfl, -⟩ := List.cons_prefix_cons.mp hstart
    intro other hother
    simpa using hheads _ hspelling other hother

/-- A byte below 128 that is no blank is not part of white space. -/
theorem not_mem_of_isBlank {b : UInt8} (hlow : b < 128) (hb : isBlankByte b = false) (h : isBlank blank = true) :
    b ∉ blank := by
  intro hmem
  rw [← map_fst_marks blank] at hmem
  obtain ⟨⟨c, mark⟩, hmark, rfl⟩ := List.mem_map.mp hmem
  obtain rfl : mark = true := isBlank_iff.mp h _ hmark
  exact not_mem_marks hlow hb blank hmark

/-- Something visible stays visible in front of white space. -/
theorem isBlank_append_eq_false (h : isBlank text = false) (hblank : isBlank blank = true) :
    isBlank (text ++ blank) = false := by
  unfold isBlank at h ⊢
  rw [marks_append (beginsPiece_head_of_isBlank hblank), List.all_append, h, Bool.false_and]

/-! ## §2 Trimming -/

/-- **White space around a text** is trimmed. -/
theorem trim_padded (hbefore : isBlank before = true) (hafter : isBlank after = true) (text : Text) :
    trim (before ++ (text ++ after)) = trim text := by
  rw [trim_eq, trim_eq, marks_blank_append hbefore, marks_append (beginsPiece_head_of_isBlank hafter),
    ← List.append_assoc, dropEnds_pad (isBlank_iff.mp hbefore) (isBlank_iff.mp hafter)]

/-! ## §3 Words -/

/-- Cutting at several blanks leaves nothing between them. -/
theorem filter_cutMarked_append {blanks : List (UInt8 × Bool)} (hne : blanks ≠ [])
    (h : ∀ mark ∈ blanks, mark.2 = true) (before after : List (UInt8 × Bool)) :
    (cutMarked (before ++ (blanks ++ after))).filter (· ≠ []) =
      (cutMarked before).filter (· ≠ []) ++ (cutMarked after).filter (· ≠ []) := by
  induction blanks generalizing before with
  | nil => exact absurd rfl hne
  | cons mark blanks ih =>
    obtain ⟨c, blank⟩ := mark
    obtain ⟨hmark, hblanks⟩ := List.forall_mem_cons.mp h
    obtain rfl : blank = true := hmark
    rw [List.cons_append, cutMarked_append_blank, List.filter_append]
    congr 1
    by_cases hnil : blanks = []
    · rw [hnil, List.nil_append]
    · simpa [cutMarked] using ih hnil hblanks []

/-- **Words on both sides of white space** are the words of the two sides. -/
theorem fields_append_gap (hne : gap ≠ []) (h : isBlank gap = true) (before after : Text) :
    fields (before ++ (gap ++ after)) = fields before ++ fields after := by
  have hstart : ∀ c ∈ (gap ++ after).head?, BeginsPiece c := by
    rw [List.head?_append_of_ne_nil _ hne]
    exact beginsPiece_head_of_isBlank h
  unfold fields
  rw [marks_append hstart, marks_blank_append h]
  exact filter_cutMarked_append (marks_ne_nil hne) (isBlank_iff.mp h) _ _

/-- White space behind a text adds no word. -/
theorem fields_append_of_isBlank (h : isBlank gap = true) (text : Text) : fields (text ++ gap) = fields text := by
  by_cases hne : gap = []
  · rw [hne, List.append_nil]
  · have hread := fields_append_gap hne h text []
    rwa [List.append_nil, fields_nil, List.append_nil] at hread

/-! ## §4 Where words stand -/

/-- The marks of bytes that belong to no blank. -/
def unmarked (text : Text) : List (UInt8 × Bool) := text.map fun b => (b, false)

theorem map_fst_unmarked (text : Text) : (unmarked text).map (·.1) = text := by
  rw [unmarked, List.map_map]
  exact List.map_id text

/-- **No blank stands in unmarked bytes**, at whichever of them it would begin. -/
theorem not_infix_of_marks {front back : List (UInt8 × Bool)} (h : marks text = front ++ (unmarked word ++ back))
    (hblank : blank ∈ blankSpellings) : ¬ blank <:+: word := by
  rintro ⟨before, after, rfl⟩
  obtain ⟨c, rest, rfl⟩ := List.exists_cons_of_ne_nil (high_of_mem_blankSpellings blank hblank).1
  have hmarks : marks text =
      front ++ unmarked before ++ (c, false) :: (unmarked rest ++ (unmarked after ++ back)) := by
    simp [h, unmarked]
  -- the text from there on begins with the blank, and so its first byte would be marked
  have hfrom := marks_of_append hmarks
  have hwidth : blankWidth (c :: (unmarked rest ++ (unmarked after ++ back)).map (·.1)) ≠ 0 := by
    apply blankWidth_ne_zero hblank
    exact ⟨after ++ back.map (·.1), by simp [map_fst_unmarked]⟩
  rw [marks, marksFrom] at hfrom
  split at hfrom
  · next hzero => exact hwidth hzero
  · cases (List.cons.inj hfrom).1

/-- **Words** are the texts in which no blank stands anywhere. -/
theorem isBare_iff : IsBare word ↔ word ≠ [] ∧ ∀ blank ∈ blankSpellings, ¬ blank <:+: word := by
  constructor
  · intro h
    have hmarks : marks word = [] ++ (unmarked word ++ []) := by simp [h.marks_eq, unmarked]
    exact ⟨h.ne_nil, fun blank hblank => not_infix_of_marks hmarks hblank⟩
  · rintro ⟨hne, hnone⟩
    refine ⟨hne, ?_⟩
    clear hne
    induction word with
    | nil => nofun
    | cons b word ih =>
      have hwidth : blankWidth (b :: word) = 0 := by
        by_contra hwidth
        obtain ⟨blank, hblank, hstart, -⟩ := exists_of_blankWidth_ne_zero hwidth
        exact hnone blank hblank hstart.isInfix
      have hrest := ih fun blank hblank h => hnone blank hblank (List.infix_cons h)
      rw [marks, marksFrom, hwidth]
      exact List.forall_mem_cons.mpr ⟨rfl, hrest⟩

/-- **Where the pieces of a text stand**: the first one at its start, and each of the others behind a blank. Behind a
piece there is a blank or nothing. -/
theorem cutMarked_places (marked : List (UInt8 × Bool)) :
    ∃ first others, cutMarked marked = first :: others ∧
      (∃ after, marked = unmarked first ++ after ∧ ∀ mark ∈ after.head?, mark.2 = true) ∧
      ∀ piece ∈ others, ∃ before c after, marked = before ++ [(c, true)] ++ (unmarked piece ++ after) ∧
        ∀ mark ∈ after.head?, mark.2 = true := by
  induction marked with
  | nil => exact ⟨[], [], rfl, ⟨[], rfl, nofun⟩, nofun⟩
  | cons mark marked ih =>
    obtain ⟨b, blank⟩ := mark
    obtain ⟨first, others, hcut, ⟨after, hfirst, hended⟩, hothers⟩ := ih
    have hbehind : ∀ piece ∈ others, ∃ before c after,
        (b, blank) :: marked = before ++ [(c, true)] ++ (unmarked piece ++ after) ∧
          ∀ mark ∈ after.head?, mark.2 = true := by
      intro piece hpiece
      obtain ⟨before, c, after, hmarked, hended⟩ := hothers piece hpiece
      exact ⟨(b, blank) :: before, c, after, by rw [hmarked]; rfl, hended⟩
    cases blank with
    | true =>
      -- the blank cuts off an empty piece, and the piece that was the first one now stands behind it
      refine ⟨[], first :: others, ?_, ⟨(b, true) :: marked, rfl, by simp⟩, ?_⟩
      · rw [← hcut]
        rfl
      · exact List.forall_mem_cons.mpr ⟨⟨[], b, after, by rw [hfirst]; rfl, hended⟩, hbehind⟩
    | false =>
      refine ⟨b :: first, others, ?_, ⟨after, by rw [hfirst]; rfl, hended⟩, hbehind⟩
      show consHead b (cutMarked marked) = _
      rw [hcut]
      rfl

/-- **A word of a text stands in it whole**: no visible byte below 128 stands directly before it or behind it. -/
theorem exists_of_mem_fields (h : word ∈ fields text) :
    IsBare word ∧ ∃ before after, text = before ++ (word ++ after) ∧
      ∀ c < 128, isBlankByte c = false → before.getLast? ≠ some c ∧ after.head? ≠ some c := by
  obtain ⟨hmem, hne⟩ := List.mem_filter.mp h
  obtain ⟨front, back, hmarks, hfront, hback⟩ : ∃ front back, marks text = front ++ (unmarked word ++ back) ∧
      (∀ mark ∈ front.getLast?, mark.2 = true) ∧ ∀ mark ∈ back.head?, mark.2 = true := by
    obtain ⟨first, others, hcut, ⟨after, hfirst, hended⟩, hothers⟩ := cutMarked_places (marks text)
    rw [hcut] at hmem
    rcases List.mem_cons.mp hmem with rfl | hmem
    · exact ⟨[], after, hfirst, nofun, hended⟩
    · obtain ⟨before, c, after, hmarks, hended⟩ := hothers word hmem
      exact ⟨before ++ [(c, true)], after, hmarks, by simp, hended⟩
  have hbare : IsBare word := isBare_iff.mpr ⟨by simpa using hne, fun blank => not_infix_of_marks hmarks⟩
  refine ⟨hbare, front.map (·.1), back.map (·.1), ?_, fun c hlow hvisible => ?_⟩
  · rw [← map_fst_marks text, hmarks, List.map_append, List.map_append, map_fst_unmarked]
  -- beside the word there are marked bytes only, and a visible byte below 128 is not marked
  have hmarked : ∀ mark ∈ front ++ (unmarked word ++ back), mark.2 = true → mark.1 ≠ c := by
    rintro ⟨b, blank⟩ hmark rfl rfl
    apply not_mem_marks hlow hvisible text
    rwa [hmarks]
  simp only [List.getLast?_map, List.head?_map, ne_eq, Option.map_eq_some_iff, not_exists, not_and]
  constructor
  · intro mark hmark
    exact hmarked mark (by simp [List.mem_of_getLast? hmark]) (hfront mark hmark)
  · intro mark hmark
    exact hmarked mark (by simp [List.mem_of_head? hmark]) (hback mark hmark)

end HeaderReflection.Text
