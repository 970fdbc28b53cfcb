import HeaderReflection.Proofs.Header.ListLayout
import Mathlib.Algebra.Ring.Parity

/-!
# Quotes inside of quotes

The two scanners of attribute lists do not agree on quotes: for extraction a backslash takes the next byte of a
quotation with it, and splitting knows no backslashes. So a list whose attributes are in quotes, with their own quotes and
backslashes escaped, is always extracted, and it does not always come apart at the commas between its attributes.

To splitting, every quote of a content opens or closes. What stands behind an odd number of quotes is *exposed*, and a
comma there cuts the attribute in two unless a bracket around it is exposed as well.

## Main definitions

- `escaped`: a content with its quotes and backslashes escaped.
- `exposed`, `openBrackets`: what splitting sees of a content, and the brackets that it takes for open.
- `Sheltered`: no exposed comma cuts the content.
- `Rounded`: splitting is outside of everything behind the closing quote.

## Main results

- `passesInside_escaped`: extraction goes over an escaped content.
- `foldl_read_escaped`: splitting in an escaped content.
- `split_escaped_iff`: when splitting cuts a list at the commas between its attributes.
- `extract_escaped`: extraction always succeeds, and when it gives one token for each attribute.
-/

namespace HeaderReflection

/-! ## §1 Escaped contents -/

def escapedByte (b : UInt8) : Text :=
  if b = Text.byte '"' ∨ b = Text.byte '\\' then [Text.byte '\\', b] else [b]

/-- A content with a backslash in front of its quotes and backslashes. -/
def escaped (content : Text) : Text := content.flatMap escapedByte

/-- The bytes of a text that stand behind quotes as splitting counts them, from inside of a quotation or from outside. -/
def exposed : (inside : Bool) → Text → Text
  | _, [] => []
  | inside, b :: rest =>
    if b = Text.byte '"' then exposed (!inside) rest
    else if inside then exposed inside rest
    else b :: exposed inside rest

/-- The number of brackets that are open behind a text. A closing bracket that closes nothing does not count. -/
def openBrackets (left right : UInt8) (text : Text) : Nat :=
  text.foldl (fun depth b => if b = left then depth + 1 else if b = right then depth - 1 else depth) 0

/-- What cannot be cut behind a part of a content: the part ends inside of quotes or of brackets. -/
def Covered (part : Text) : Prop :=
  Even (part.count (Text.byte '"')) ∨
  0 < openBrackets (Text.byte '<') (Text.byte '>') (exposed true part) ∨
  0 < openBrackets (Text.byte '(') (Text.byte ')') (exposed true part)

/-- No comma of a content can be taken for the end of an attribute. -/
def Sheltered (content : Text) : Prop := ∀ before, before ++ [Text.byte ','] <+: content → Covered before

/-- The closing quote of a content leads out of all quotes and brackets. -/
structure Rounded (content : Text) : Prop where
  quotes : Even (content.count (Text.byte '"'))
  angles : openBrackets (Text.byte '<') (Text.byte '>') (exposed true content) = 0
  parens : openBrackets (Text.byte '(') (Text.byte ')') (exposed true content) = 0

instance (part : Text) : Decidable (Covered part) := inferInstanceAs (Decidable (_ ∨ _ ∨ _))

instance (content : Text) : Decidable (Sheltered content) :=
  decidable_of_iff (∀ before ∈ content.inits, before ++ [Text.byte ','] <+: content → Covered before)
    ⟨fun h before hbefore => h before ((List.mem_inits _ _).mpr ((List.prefix_append _ _).trans hbefore)) hbefore,
      fun h before _ hbefore => h before hbefore⟩

instance (content : Text) : Decidable (Rounded content) :=
  decidable_of_iff (_ ∧ _ ∧ _) ⟨fun h => ⟨h.1, h.2.1, h.2.2⟩, fun h => ⟨h.quotes, h.angles, h.parens⟩⟩

@[simp] theorem escaped_nil : escaped [] = [] := rfl

@[simp] theorem escaped_append (a b : Text) : escaped (a ++ b) = escaped a ++ escaped b := List.flatMap_append

theorem escaped_singleton (b : UInt8) : escaped [b] = escapedByte b := List.append_nil _

theorem escapedByte_of_ne {b : UInt8} (hquote : b ≠ Text.byte '"') (hbackslash : b ≠ Text.byte '\\') :
    escapedByte b = [b] :=
  if_neg (by simp [hquote, hbackslash])

theorem openBrackets_concat (left right : UInt8) (text : Text) (b : UInt8) :
    openBrackets left right (text ++ [b]) =
      if b = left then openBrackets left right text + 1
      else if b = right then openBrackets left right text - 1
      else openBrackets left right text := by
  rw [openBrackets, List.foldl_append]
  rfl

/-- A byte is exposed behind an odd number of quotes. -/
theorem exposed_concat (inside : Bool) (text : Text) (b : UInt8) :
    exposed inside (text ++ [b]) = exposed inside text ++
      if b = Text.byte '"' ∨ (inside = true ↔ Even (text.count (Text.byte '"'))) then [] else [b] := by
  induction text generalizing inside with
  | nil =>
    cases inside <;> by_cases hb : b = Text.byte '"' <;> simp [exposed, hb]
  | cons c text ih =>
    rw [List.cons_append, exposed, exposed]
    by_cases hc : c = Text.byte '"'
    · rw [if_pos hc, if_pos hc, ih, hc, List.count_cons_self]
      simp only [Nat.even_add_one]
      cases inside <;> simp
    · rw [if_neg hc, if_neg hc, ih, List.count_cons_of_ne hc]
      cases inside <;> simp

theorem sheltered_concat {content : Text} {b : UInt8} :
    Sheltered (content ++ [b]) ↔ Sheltered content ∧ (b = Text.byte ',' → Covered content) := by
  unfold Sheltered
  simp only [List.prefix_concat_iff, List.append_singleton_inj]
  constructor
  · intro h
    exact ⟨fun before hbefore => h before (.inr hbefore), fun hb => h content (.inl ⟨rfl, hb.symm⟩)⟩
  · rintro ⟨hbefore, hlast⟩ before (⟨rfl, hb⟩ | hprefix)
    · exact hlast hb.symm
    · exact hbefore before hprefix

/-- In a content that is not sheltered there is a first comma that is not covered. -/
theorem exists_uncovered {content : Text} (h : ¬ Sheltered content) :
    ∃ before after, content = before ++ Text.byte ',' :: after ∧ Sheltered before ∧ ¬ Covered before := by
  induction content using List.reverseRecOn with
  | nil =>
    refine absurd (fun before hbefore => ?_) h
    simp at hbefore
  | append_singleton content b ih =>
    by_cases hcontent : Sheltered content
    · rw [sheltered_concat] at h
      simp only [hcontent, true_and, Classical.not_imp] at h
      exact ⟨content, [], by rw [h.1], hcontent, h.2⟩
    · obtain ⟨before, after, rfl, hbefore, hcovered⟩ := ih hcontent
      exact ⟨before, after ++ [b], by simp, hbefore, hcovered⟩

namespace AttributeList

/-! ## §2 Extraction -/

/-- A backslash in a quotation takes the next byte of the line with it. -/
theorem passesInside_escape {b : UInt8} (hb : b ≠ Text.lineFeed) : PassesInside [Text.byte '\\', b] := by
  intro o ho index text more
  have hlines : ∀ first rest, Text.splitOn Text.lineFeed text = first :: rest →
      Text.splitOn Text.lineFeed ([Text.byte '\\', b] ++ text) = (Text.byte '\\' :: b :: first) :: rest := by
    intro first rest hsplit
    rw [List.cons_append, Text.splitOn_cons_of_ne (by decide), List.singleton_append, Text.splitOn_cons_of_ne hb, hsplit]
    rfl
  cases hsplit : Text.splitOn Text.lineFeed text with
  | nil => exact absurd hsplit (Text.splitOn_ne_nil _ _)
  | cons first rest =>
    have hstep : scanLine o (Text.byte '\\' :: b :: first) = scanLine (o.addAll [Text.byte '\\', b]) first := by
      rw [scanLine_cons, if_pos ho, if_pos rfl]
      rfl
    have hline : Text.lineFeed ∉ [Text.byte '\\', b] := by
      simp only [List.mem_cons, List.not_mem_nil, or_false, not_or]
      exact ⟨by decide, Ne.symm hb⟩
    rw [hlines first rest hsplit, flat_of_not_mem hline, List.count_eq_zero_of_not_mem hline, Nat.add_zero,
      List.cons_append, List.cons_append, scanFrom, scanFrom, hstep]

/-- **Extraction goes over an escaped content.** -/
theorem passesInside_escaped (content : Text) : PassesInside (escaped content) := by
  induction content with
  | nil => exact passesInside_nil
  | cons b content ih =>
    rw [← List.singleton_append, escaped_append, escaped_singleton]
    refine PassesInside.append ?_ ih
    by_cases hescape : b = Text.byte '"' ∨ b = Text.byte '\\'
    · rw [escapedByte, if_pos hescape]
      apply passesInside_escape
      rcases hescape with rfl | rfl
      · decide
      · decide
    · obtain ⟨hquote, hbackslash⟩ := not_or.mp hescape
      rw [escapedByte_of_ne hquote hbackslash]
      exact passesInside_byte hquote hbackslash

/-! ## §3 Splitting -/

namespace Splitting

/-- The bytes that mean something to splitting. -/
def signs : Text :=
  [Text.byte '"', Text.byte '<', Text.byte '>', Text.byte '(', Text.byte ')', Text.byte ',']

theorem read_inert (s : Splitting) {b : UInt8} (h : b ∉ signs) : s.read b = s.add b := by
  simp only [signs, List.mem_cons, List.not_mem_nil, or_false, not_or] at h
  obtain ⟨hquote, hless, hgreater, hleft, hright, hcomma⟩ := h
  simp [read, hquote, hless, hgreater, hleft, hright, hcomma]

theorem read_quote (s : Splitting) : s.read (Text.byte '"') = { s.add (Text.byte '"') with quoted := !s.quoted } := by
  rw [read]
  cases hquoted : s.quoted with
  | true => rw [if_pos rfl, if_pos rfl]; rfl
  | false => rw [if_neg (by decide), if_pos rfl]; rfl

/-- Outside of quotes a closing bracket takes one away, if there is one. -/
theorem read_greater {s : Splitting} (hs : s.quoted = false) :
    s.read (Text.byte '>') = { s.add (Text.byte '>') with angles := s.angles - 1 } := by
  rw [read, if_neg (by simp [hs]), if_neg (by decide), if_neg (by decide)]
  by_cases hopen : 0 < s.angles
  · rw [if_pos ⟨rfl, hopen⟩]
  · have hzero : s.angles = 0 := by omega
    rw [if_neg fun h => hopen h.2, if_neg (by decide), if_neg fun h => absurd h.1 (by decide),
      if_neg fun h => absurd h.1 (by decide), hzero]
    simp [add, hzero]

theorem read_right {s : Splitting} (hs : s.quoted = false) :
    s.read (Text.byte ')') = { s.add (Text.byte ')') with parens := s.parens - 1 } := by
  rw [read, if_neg (by simp [hs]), if_neg (by decide), if_neg (by decide), if_neg fun h => absurd h.1 (by decide),
    if_neg (by decide)]
  by_cases hopen : 0 < s.parens
  · rw [if_pos ⟨rfl, hopen⟩]
  · have hzero : s.parens = 0 := by omega
    rw [if_neg fun h => hopen h.2, if_neg fun h => absurd h.1 (by decide), hzero]
    simp [add, hzero]

/-- A comma inside of quotes or brackets is an ordinary byte. -/
theorem read_comma_inside {s : Splitting} (hs : s.quoted = true ∨ 0 < s.angles ∨ 0 < s.parens) :
    s.read (Text.byte ',') = s.add (Text.byte ',') := by
  rw [read, if_neg (by decide : ¬ Text.byte ',' = Text.byte '"')]
  by_cases hquoted : s.quoted = true
  · rw [if_pos hquoted]
  · have hopen : ¬ (s.angles = 0 ∧ s.parens = 0) := by
      rcases hs with hs | hs | hs
      · exact absurd hs hquoted
      · omega
      · omega
    rw [if_neg hquoted, if_neg (by decide), if_neg (by decide), if_neg fun h => absurd h.1 (by decide),
      if_neg (by decide), if_neg fun h => absurd h.1 (by decide), if_neg fun h => hopen h.2]

theorem foldl_read_inert (s : Splitting) {text : Text} (h : ∀ b ∈ text, b ∉ signs) :
    text.foldl read s = s.addAll text := by
  induction text generalizing s with
  | nil => rfl
  | cons b text ih =>
    rw [List.foldl_cons, s.read_inert (h b List.mem_cons_self), ih _ fun c hc => h c (List.mem_cons_of_mem _ hc)]
    simp [addAll, add]

theorem mem_flat_escapedByte {b c : UInt8} (h : c ∈ flat (escapedByte b)) :
    c = Text.byte '\\' ∨ c = Text.byte ' ' ∨ c = b := by
  obtain ⟨a, ha, rfl⟩ := List.mem_map.mp h
  have hbyte : a = Text.byte '\\' ∨ a = b := by
    unfold escapedByte at ha
    split at ha
    · simpa using ha
    · exact .inr (by simpa using ha)
  split
  · exact .inr (.inl rfl)
  · rcases hbyte with rfl | rfl
    · exact .inl rfl
    · exact .inr (.inr rfl)

/-- Splitting in a quotation that has gone on for a content, from outside of everything. -/
def inside (s : Splitting) (content : Text) : Splitting where
  complete := s.complete
  current := (flat (escaped content)).reverse ++ Text.byte '"' :: s.current
  angles := openBrackets (Text.byte '<') (Text.byte '>') (exposed true content)
  parens := openBrackets (Text.byte '(') (Text.byte ')') (exposed true content)
  quoted := Even (content.count (Text.byte '"'))

/-- Inside of quotes nothing is exposed. -/
theorem inside_concat_of_even (s : Splitting) {content : Text} {b : UInt8}
    (heven : Even (content.count (Text.byte '"'))) (hquote : b ≠ Text.byte '"') :
    s.inside (content ++ [b]) = (s.inside content).addAll (flat (escapedByte b)) := by
  simp only [inside, addAll, escaped_append, escaped_singleton, exposed_concat, heven, flat_append]
  simp [hquote, heven]

/-- Outside of quotes brackets are counted. -/
theorem inside_concat_of_odd (s : Splitting) {content : Text} {b : UInt8}
    (hodd : ¬ Even (content.count (Text.byte '"'))) (hquote : b ≠ Text.byte '"') :
    s.inside (content ++ [b]) =
      { (s.inside content).addAll (flat (escapedByte b)) with
        angles :=
          if b = Text.byte '<' then (s.inside content).angles + 1
          else if b = Text.byte '>' then (s.inside content).angles - 1
          else (s.inside content).angles
        parens :=
          if b = Text.byte '(' then (s.inside content).parens + 1
          else if b = Text.byte ')' then (s.inside content).parens - 1
          else (s.inside content).parens } := by
  simp only [inside, addAll, escaped_append, escaped_singleton, exposed_concat, flat_append]
  simp [hquote, hodd, openBrackets_concat]

/-- A byte of a content outside of quotes: it may be a bracket, and a comma is covered by one. -/
theorem read_exposed (s : Splitting) {content : Text} {b : UInt8} (h : b = Text.byte ',' → Covered content)
    (hodd : ¬ Even (content.count (Text.byte '"'))) (hquote : b ≠ Text.byte '"') :
    (flat (escapedByte b)).foldl read (s.inside content) = s.inside (content ++ [b]) := by
  have hquoted : (s.inside content).quoted = false := by simp [inside, hodd]
  rw [inside_concat_of_odd s hodd hquote]
  -- a sign counts here as it would without quotes, and any other byte is taken down
  by_cases hsign : b ∈ signs
  · obtain rfl | rfl | rfl | rfl | rfl : b = Text.byte '<' ∨ b = Text.byte '>' ∨ b = Text.byte '(' ∨
        b = Text.byte ')' ∨ b = Text.byte ',' := by
      simpa [signs, hquote] using hsign
    · show (s.inside content).read (Text.byte '<') = _
      rw [read, if_neg (by simp [hquoted]), if_neg (by decide), if_pos rfl]
      rfl
    · exact read_greater hquoted
    · show (s.inside content).read (Text.byte '(') = _
      rw [read, if_neg (by simp [hquoted]), if_neg (by decide), if_neg (by decide),
        if_neg fun h => absurd h.1 (by decide), if_pos rfl]
      rfl
    · exact read_right hquoted
    · exact read_comma_inside ((h rfl).imp (absurd · hodd) id)
  · have hinert : ∀ c ∈ flat (escapedByte b), c ∉ signs := by
      intro c hc
      rcases mem_flat_escapedByte hc with rfl | rfl | rfl
      · decide
      · decide
      · exact hsign
    simp only [signs, List.mem_cons, List.not_mem_nil, or_false, not_or] at hsign
    obtain ⟨-, hless, hgreater, hleft, hright, -⟩ := hsign
    rw [foldl_read_inert _ hinert, if_neg hless, if_neg hgreater, if_neg hleft, if_neg hright]
    rfl

/-- **A further byte of a content** changes what splitting has counted, and cuts nothing. -/
theorem read_inside (s : Splitting) {content : Text} {b : UInt8} (h : b = Text.byte ',' → Covered content) :
    (flat (escapedByte b)).foldl read (s.inside content) = s.inside (content ++ [b]) := by
  by_cases hquote : b = Text.byte '"'
  · -- the backslash means nothing, and the quote opens or closes
    subst hquote
    have hflat : flat (escapedByte (Text.byte '"')) = [Text.byte '\\', Text.byte '"'] := by decide
    rw [hflat, List.foldl_cons, read_inert _ (by decide), List.foldl_cons, read_quote, List.foldl_nil]
    simp [inside, add, exposed_concat, hflat, Nat.even_add_one, escaped_singleton, -Nat.not_even_iff_odd]
  by_cases heven : Even (content.count (Text.byte '"'))
  · rw [inside_concat_of_even s heven hquote]
    apply foldl_read_quoted
    · intro hmem
      rcases mem_flat_escapedByte hmem with h | h | h
      · exact absurd h (by decide)
      · exact absurd h (by decide)
      · exact hquote h.symm
    · simp [inside, heven]
  · exact read_exposed s h heven hquote

/-- **Splitting in an escaped content** that is sheltered cuts nothing. -/
theorem foldl_read_escaped (s : Splitting) {content : Text} (h : Sheltered content) :
    (flat (escaped content)).foldl read (s.inside []) = s.inside content := by
  induction content using List.reverseRecOn with
  | nil => rfl
  | append_singleton content b ih =>
    obtain ⟨hcontent, hb⟩ := sheltered_concat.mp h
    rw [escaped_append, flat_append, List.foldl_append, ih hcontent, escaped_singleton, read_inside s hb]

/-- Splitting behind an attribute that it has not cut. -/
def behind (s : Splitting) (item : Spaced Text) : Splitting where
  complete := s.complete
  current := (flat (item.text escaped)).reverse ++ s.current
  angles := openBrackets (Text.byte '<') (Text.byte '>') (exposed true item.content)
  parens := openBrackets (Text.byte '(') (Text.byte ')') (exposed true item.content)
  quoted := ¬ Even (item.content.count (Text.byte '"'))

end Splitting

open Splitting (Level signs)

theorem not_mem_signs_of_isBlanks {text : Text} (h : Text.IsBlanks text) : ∀ b ∈ text, b ∉ signs := by
  have hsigns : ∀ b ∈ signs, Text.isBlankByte b = false := by decide +kernel
  intro b hb hsign
  exact absurd (h b hb) (by simp [hsigns b hsign])

theorem flat_spaced (item : Spaced Text) :
    flat (item.text escaped) =
      flat item.before.text ++ quotation (flat (escaped item.content)) ++ flat item.after.text := by
  rw [Spaced.text_eq, Spaced.layout, flat_append, flat_append, Function.comp_apply, flat_quotation]

/-- Splitting up to a part of an attribute that has no comma to cut at. -/
theorem foldl_read_part {s : Splitting} (hs : Level s) {before part : Text} (hbefore : Text.IsBlanks before)
    (h : Sheltered part) :
    (before ++ Text.byte '"' :: flat (escaped part)).foldl Splitting.read s = (s.addAll before).inside part := by
  have hopen : (s.addAll before).read (Text.byte '"') = (s.addAll before).inside [] := by
    obtain ⟨hangles, hparens, hquoted⟩ := hs
    rw [Splitting.read_quote]
    simp [Splitting.inside, Splitting.addAll, Splitting.add, hangles, hparens, hquoted, openBrackets, exposed]
  rw [List.foldl_append, Splitting.foldl_read_inert s (not_mem_signs_of_isBlanks hbefore), List.foldl_cons, hopen,
    Splitting.foldl_read_escaped _ h]

/-- Splitting over an attribute that has no comma to cut at. -/
theorem foldl_read_spaced {s : Splitting} (hs : Level s) {item : Spaced Text} (h : Sheltered item.content) :
    (flat (item.text escaped)).foldl Splitting.read s = s.behind item := by
  have hparts : flat (item.text escaped) = (flat item.before.text ++ Text.byte '"' :: flat (escaped item.content)) ++
      (Text.byte '"' :: flat item.after.text) := by
    rw [flat_spaced]
    simp [quotation]
  rw [hparts, List.foldl_append, foldl_read_part hs (isBlanks_flat _) h, List.foldl_cons, Splitting.read_quote,
    Splitting.foldl_read_inert _ (not_mem_signs_of_isBlanks (isBlanks_flat _))]
  simp [Splitting.behind, Splitting.inside, Splitting.addAll, Splitting.add, hparts, -Nat.not_even_iff_odd]

/-! ## §4 First tokens -/

/-- What a piece between two cuts amounts to: one token, or none if nothing is left of it. -/
def pieceTokens (piece : Text) : List Text := [unquote piece].filter (· ≠ [])

theorem complete_flush (s : Splitting) : s.flush.complete = pieceTokens s.current.reverse ++ s.complete := by
  unfold Splitting.flush pieceTokens
  by_cases hnil : unquote s.current.reverse = []
  · simp [hnil]
  · simp [hnil]

/-- A byte goes down, or is a cut. -/
theorem read_cases (s : Splitting) (b : UInt8) :
    ((s.read b).complete = s.complete ∧ (s.read b).current = b :: s.current) ∨ s.read b = s.flush := by
  unfold Splitting.read
  split_ifs <;> simp [Splitting.add]

/-- The next token is made of the current piece and what follows it up to a cut. -/
theorem exists_piece (s : Splitting) (text : Text) :
    ∃ later piece, piece <+: text ∧
      (text.foldl Splitting.read s).flush.complete =
        later ++ pieceTokens (s.current.reverse ++ piece) ++ s.complete := by
  -- the piece goes up to the first byte that cuts; what comes later stays in front of it in the list of pieces
  induction text generalizing s with
  | nil => exact ⟨[], [], List.nil_prefix, by simp [complete_flush]⟩
  | cons b text ih =>
    obtain ⟨later, piece, hpiece, hcomplete⟩ := ih (s.read b)
    rw [List.foldl_cons, hcomplete]
    rcases read_cases s b with ⟨hkept, hcurrent⟩ | hcut
    · refine ⟨later, b :: piece, (List.prefix_cons_inj b).mpr hpiece, ?_⟩
      rw [hkept, hcurrent]
      simp
    · refine ⟨later ++ pieceTokens ((s.read b).current.reverse ++ piece), [], List.nil_prefix, ?_⟩
      rw [hcut, complete_flush]
      simp

/-- The token of an attribute: its content as it is written, without quotes, spaces and tabs at its ends. -/
def tokenOf (content : Text) : Text := Text.trimOf "\" \t" (flat (escaped content))

section Counts

variable {b : UInt8}

theorem count_flat (hspace : b ≠ Text.byte ' ') (hline : b ≠ Text.lineFeed) (text : Text) :
    (flat text).count b = text.count b := by
  unfold flat
  rw [List.count, List.countP_map]
  apply List.countP_congr
  intro c _
  by_cases hc : c = Text.lineFeed
  · simp [hc, Ne.symm hspace, Ne.symm hline]
  · simp [hc]

theorem count_trimOf {set : Text} (hb : set.contains b = false) (text : Text) :
    (Text.trimOf set text).count b = text.count b := by
  rw [Text.trimOf_eq]
  apply Text.countP_dropEnds
  intro c _ hc
  have hne : c ≠ b := by
    rintro rfl
    rw [hc] at hb
    cases hb
  simpa using hne

theorem count_unquote (hlow : b < 128) (hblank : Text.isBlankByte b = false)
    (hset : (Text.ofString "\" \t").contains b = false) (text : Text) : (unquote text).count b = text.count b := by
  unfold unquote
  rw [count_trimOf hset, Text.count_trim hlow hblank]

end Counts

theorem count_comma_unquote (text : Text) : (unquote text).count (Text.byte ',') = text.count (Text.byte ',') :=
  count_unquote (by decide) (by decide) (by decide) text

theorem count_comma_escaped (content : Text) :
    (flat (escaped content)).count (Text.byte ',') = content.count (Text.byte ',') := by
  rw [count_flat (by decide) (by decide)]
  induction content with
  | nil => rfl
  | cons b content ih =>
    rw [← List.singleton_append, escaped_append, escaped_singleton, List.count_append, List.count_append, ih]
    congr 1
    unfold escapedByte
    split
    · rw [List.count_cons_of_ne (by decide)]
    · rfl

theorem count_comma_of_isBlanks {text : Text} (h : Text.IsBlanks text) : text.count (Text.byte ',') = 0 := by
  apply List.count_eq_zero_of_not_mem
  intro hmem
  exact absurd (h _ hmem) (by decide)

theorem count_comma_part {before : Text} (hbefore : Text.IsBlanks before) (part : Text) :
    (before ++ Text.byte '"' :: flat (escaped part)).count (Text.byte ',') = part.count (Text.byte ',') := by
  rw [List.count_append, count_comma_of_isBlanks hbefore, List.count_cons_of_ne (by decide), count_comma_escaped,
    Nat.zero_add]

theorem count_comma_spaced (item : Spaced Text) :
    (flat (item.text escaped)).count (Text.byte ',') = item.content.count (Text.byte ',') := by
  have hparts : flat (item.text escaped) = (flat item.before.text ++ Text.byte '"' :: flat (escaped item.content)) ++
      (Text.byte '"' :: flat item.after.text) := by
    rw [flat_spaced]
    simp [quotation]
  rw [hparts, List.count_append, count_comma_part (isBlanks_flat _), List.count_cons_of_ne (by decide),
    count_comma_of_isBlanks (isBlanks_flat _), Nat.add_zero]

theorem count_comma_tokenOf (content : Text) :
    (tokenOf content).count (Text.byte ',') = content.count (Text.byte ',') := by
  rw [tokenOf, count_trimOf (by decide), count_comma_escaped]

theorem unquote_spaced (item : Spaced Text) : unquote (flat (item.text escaped)) = tokenOf item.content := by
  rw [flat_spaced, unquote_quotation (isBlanks_flat _) (isBlanks_flat _)]
  rfl

/-- Where a quote or a backslash is escaped there is a backslash. -/
theorem backslash_mem_escaped {content : Text} {b : UInt8} (hb : b = Text.byte '"' ∨ b = Text.byte '\\')
    (h : b ∈ content) : Text.byte '\\' ∈ flat (escaped content) := by
  have hmem : Text.byte '\\' ∈ escaped content := by
    refine List.mem_flatMap.mpr ⟨b, h, ?_⟩
    rw [escapedByte, if_pos hb]
    exact List.mem_cons_self
  exact List.mem_map.mpr ⟨_, hmem, rfl⟩

/-- A content that is not blank leaves a token. -/
theorem tokenOf_ne_nil {content : Text} (h : Text.isBlank content = false) : tokenOf content ≠ [] := by
  intro hnil
  have hset : ∀ b ∈ flat (escaped content), (Text.ofString "\" \t").contains b = true :=
    Text.forall_of_dropEnds_eq_nil hnil
  -- nothing is escaped, so every byte is a blank, or a line end that has become one
  have hblanks : Text.IsBlanks content := by
    intro b hb
    by_cases hescape : b = Text.byte '"' ∨ b = Text.byte '\\'
    · exact absurd (hset _ (backslash_mem_escaped hescape hb)) (by decide)
    · have hmem : b ∈ escaped content := by
        refine List.mem_flatMap.mpr ⟨b, hb, ?_⟩
        rw [escapedByte, if_neg hescape]
        exact List.mem_cons_self
      by_cases hline : b = Text.lineFeed
      · rw [hline]
        decide
      · have hbyte := hset b (List.mem_map.mpr ⟨b, hmem, if_neg hline⟩)
        have hgap : b = Text.byte '"' ∨ b = Text.byte ' ' ∨ b = Text.byte '\t' := by
          have hlist : Text.ofString "\" \t" = [Text.byte '"', Text.byte ' ', Text.byte '\t'] := by decide
          rw [hlist] at hbyte
          simpa using hbyte
        rcases hgap with hquote | rfl | rfl
        · exact absurd (.inl hquote) hescape
        · decide
        · decide
  rw [Text.isBlank, Text.marks_of_isBlanks hblanks] at h
  simp at h

/-- A piece with a visible byte leaves a token. -/
theorem pieceTokens_of_mem {b : UInt8} (hlow : b < 128) (hblank : Text.isBlankByte b = false)
    (hset : (Text.ofString "\" \t").contains b = false) {piece : Text} (h : b ∈ piece) :
    pieceTokens piece = [unquote piece] := by
  have hcount : 0 < (unquote piece).count b := by
    rw [count_unquote hlow hblank hset]
    exact List.count_pos_iff.mpr h
  have hne : unquote piece ≠ [] := by
    intro hnil
    rw [hnil] at hcount
    cases hcount
  simp [pieceTokens, hne]

/-- **An attribute that is cut early** leaves a first token with too few commas. -/
theorem exists_short_token {item : Spaced Text} (h : ¬ Sheltered item.content) (rest : Text) (complete : List Text) :
    ∃ later token, ((flat (item.text escaped) ++ rest).foldl Splitting.read { complete }).flush.complete =
        later ++ token :: complete ∧ token.count (Text.byte ',') < item.content.count (Text.byte ',') := by
  obtain ⟨part, after, hcontent, hpart, huncovered⟩ := exists_uncovered h
  simp only [Covered, not_or, Nat.not_lt, Nat.le_zero] at huncovered
  obtain ⟨hodd, hangles, hparens⟩ := huncovered
  -- the piece before the comma has a quote, so it has a backslash and leaves a token
  let piece := flat item.before.text ++ Text.byte '"' :: flat (escaped part)
  obtain ⟨behind, hsplit⟩ : ∃ behind, flat (item.text escaped) ++ rest = piece ++ Text.byte ',' :: behind := by
    have hescaped : flat (escaped item.content) = flat (escaped part) ++ Text.byte ',' :: flat (escaped after) := by
      rw [hcontent, ← List.singleton_append, escaped_append, escaped_append, flat_append, flat_append]
      rfl
    refine ⟨flat (escaped after) ++ Text.byte '"' :: flat item.after.text ++ rest, ?_⟩
    rw [flat_spaced, hescaped]
    simp [quotation, piece]
  have htoken : pieceTokens piece = [unquote piece] := by
    have hquote : Text.byte '"' ∈ part := by
      rw [← List.count_pos_iff]
      by_contra hzero
      exact hodd (by simp [Nat.le_zero.mp (Nat.not_lt.mp hzero)])
    refine pieceTokens_of_mem (b := Text.byte '\\') (by decide) (by decide) (by decide) ?_
    exact List.mem_append_right _ (List.mem_cons_of_mem _ (backslash_mem_escaped (.inl rfl) hquote))
  let s := (({ complete } : Splitting).addAll (flat item.before.text)).inside part
  have hcut : s.read (Text.byte ',') = s.flush :=
    Splitting.read_comma ⟨hangles, hparens, by simp [s, Splitting.inside, hodd]⟩
  have hcurrent : s.current.reverse = piece := by
    simp [s, piece, Splitting.inside, Splitting.addAll]
  obtain ⟨later, next, -, hcomplete⟩ := exists_piece s.flush behind
  refine ⟨later ++ pieceTokens (s.flush.current.reverse ++ next), unquote piece, ?_, ?_⟩
  · rw [hsplit, List.foldl_append, foldl_read_part ⟨rfl, rfl, rfl⟩ (isBlanks_flat _) hpart, List.foldl_cons, hcut,
      hcomplete, complete_flush, hcurrent, htoken]
    rfl
  · rw [count_comma_unquote, count_comma_part (isBlanks_flat _), hcontent, List.count_append, List.count_cons_self]
    omega

/-- **An attribute that splitting does not get out of** leaves a first token with too many commas. -/
theorem exists_long_token {item : Spaced Text} (hsheltered : Sheltered item.content) (h : ¬ Rounded item.content)
    (rest : Text) (complete : List Text) :
    ∃ later token,
      ((flat (item.text escaped) ++ Text.byte ',' :: rest).foldl Splitting.read { complete }).flush.complete =
        later ++ token :: complete ∧ item.content.count (Text.byte ',') < token.count (Text.byte ',') := by
  let s := ({ complete } : Splitting).behind item
  have hopen : s.quoted = true ∨ 0 < s.angles ∨ 0 < s.parens := by
    by_contra hnone
    simp only [s, Splitting.behind, not_or, Nat.not_lt, Nat.le_zero, decide_eq_true_eq, not_not] at hnone
    exact h ⟨hnone.1, hnone.2.1, hnone.2.2⟩
  -- so the comma behind the attribute becomes a part of its token
  obtain ⟨later, piece, -, hcomplete⟩ := exists_piece (s.add (Text.byte ',')) rest
  have hcurrent : (s.add (Text.byte ',')).current.reverse ++ piece =
      flat (item.text escaped) ++ Text.byte ',' :: piece := by
    simp [s, Splitting.add, Splitting.behind]
  rw [hcurrent, pieceTokens_of_mem (b := Text.byte ',') (by decide) (by decide) (by decide) (by simp)] at hcomplete
  refine ⟨later, unquote (flat (item.text escaped) ++ Text.byte ',' :: piece), ?_, ?_⟩
  · rw [List.foldl_append, foldl_read_spaced ⟨rfl, rfl, rfl⟩ hsheltered, List.foldl_cons,
      Splitting.read_comma_inside hopen, hcomplete, List.append_assoc]
    rfl
  · rw [count_comma_unquote, List.count_append, count_comma_spaced, List.count_cons_self]
    omega

/-! ## §5 Lists of escaped contents -/

/-- **Splitting cuts a list at the commas between its attributes** exactly if it cuts none of them, and gets out of all of
them but the last. -/
theorem split_escaped_iff {items : List (Spaced Text)} (hne : items ≠ [])
    (hvisible : ∀ item ∈ items, Text.isBlank item.content = false) (complete : List Text) :
    ((flat (Text.joinWith [Text.byte ','] (items.map (Spaced.text escaped)))).foldl Splitting.read
        { complete }).flush.complete = (items.map (tokenOf ·.content)).reverse ++ complete ↔
      (∀ item ∈ items, Sheltered item.content) ∧ ∀ item ∈ items.dropLast, Rounded item.content := by
  induction items generalizing complete with
  | nil => exact absurd rfl hne
  | cons item items ih =>
    have htoken : pieceTokens (flat (item.text escaped)) = [tokenOf item.content] := by
      have hitem := tokenOf_ne_nil (hvisible item List.mem_cons_self)
      simp [pieceTokens, unquote_spaced, hitem]
    -- a first token with another number of commas is not that of the attribute
    have hfirst : ∀ {later : List Text} {token : Text},
        later ++ token :: complete = ((item :: items).map (tokenOf ·.content)).reverse ++ complete →
        token.count (Text.byte ',') = item.content.count (Text.byte ',') := by
      intro later token heq
      rw [List.map_cons, List.reverse_cons, List.append_assoc, List.singleton_append, List.append_cons,
        List.append_cons (items.map _).reverse, List.append_cancel_right_eq, List.append_singleton_inj] at heq
      rw [heq.2, count_comma_tokenOf]
    by_cases hsheltered : Sheltered item.content
    swap
    · obtain ⟨rest, hrest⟩ : ∃ rest, flat (Text.joinWith [Text.byte ','] ((item :: items).map (Spaced.text escaped))) =
          flat (item.text escaped) ++ rest := by
        by_cases hitems : items = []
        · exact ⟨[], by rw [hitems]; simp⟩
        · rw [List.map_cons, Text.joinWith_cons _ _ (by simpa using hitems), flat_append, flat_append, List.append_assoc]
          exact ⟨_, rfl⟩
      obtain ⟨later, token, hcomplete, hcount⟩ := exists_short_token hsheltered rest complete
      rw [hrest, hcomplete]
      refine iff_of_false (fun heq => hcount.ne (hfirst heq)) fun h => hsheltered (h.1 item List.mem_cons_self)
    by_cases hitems : items = []
    · subst hitems
      rw [List.map_singleton, Text.joinWith_singleton, foldl_read_spaced ⟨rfl, rfl, rfl⟩ hsheltered, complete_flush]
      simp [Splitting.behind, htoken, hsheltered]
    have htext : flat (Text.joinWith [Text.byte ','] ((item :: items).map (Spaced.text escaped))) =
        flat (item.text escaped) ++ Text.byte ',' ::
          flat (Text.joinWith [Text.byte ','] (items.map (Spaced.text escaped))) := by
      rw [List.map_cons, Text.joinWith_cons _ _ (by simpa using hitems), flat_append, flat_append, List.append_assoc]
      rfl
    rw [htext, List.dropLast_cons_of_ne_nil hitems]
    by_cases hrounded : Rounded item.content
    · have hcut : (({ complete } : Splitting).behind item).read (Text.byte ',') =
          { complete := tokenOf item.content :: complete } := by
        obtain ⟨hquotes, hangles, hparens⟩ := hrounded
        rw [Splitting.read_comma ⟨hangles, hparens, by simpa [Splitting.behind] using hquotes⟩]
        have hflush := complete_flush (({ complete } : Splitting).behind item)
        simp only [Splitting.behind, List.append_nil, List.reverse_reverse, htoken] at hflush
        simp only [Splitting.flush, Splitting.behind, hangles, hparens, hquotes, Splitting.mk.injEq] at hflush ⊢
        exact ⟨by simpa using hflush, trivial, trivial, trivial, rfl⟩
      rw [List.foldl_append, foldl_read_spaced ⟨rfl, rfl, rfl⟩ hsheltered, List.foldl_cons, hcut, List.map_cons,
        List.reverse_cons, List.append_assoc, List.singleton_append,
        ih hitems fun other hother => hvisible other (List.mem_cons_of_mem _ hother)]
      simp [hsheltered, hrounded]
    · obtain ⟨later, token, hcomplete, hcount⟩ := exists_long_token hsheltered hrounded
        (flat (Text.joinWith [Text.byte ','] (items.map (Spaced.text escaped)))) complete
      rw [hcomplete]
      refine iff_of_false (fun heq => hcount.ne' (hfirst heq)) fun h => hrounded (h.2 item List.mem_cons_self)

end AttributeList

open AttributeList

/-- **Attributes with quotes in them.** A list of attributes, each in quotes and with its own quotes and backslashes
escaped, is always extracted, up to the line of its closing parenthesis. It comes apart into one token for each attribute
exactly if no attribute has a comma that splitting can take for the end of an attribute, and splitting gets out of all
attributes but the last. -/
theorem extract_escaped (list : Attributes Text) (hvisible : ∀ content ∈ list.contents, Text.isBlank content = false)
    {before : Text} (hopen : Text.byte '(' ∉ before) (hline : Text.lineFeed ∉ before) (tail : Text) (more : List Text) :
    ∃ tokens,
      extract (Text.splitOn Text.lineFeed
          (before ++ Text.byte '(' :: list.text escaped ++ Text.byte ')' :: tail) ++ more) =
        .ok ((list.text escaped).count Text.lineFeed, tokens) ∧
      (tokens = list.contents.map tokenOf ↔
        (∀ content ∈ list.contents, Sheltered content) ∧ ∀ content ∈ list.contents.dropLast, Rounded content) := by
  have hpasses : Passes (list.text escaped) := by
    rw [Attributes.text_eq]
    exact Attributes.passes_layout list fun content _ => passes_quotation (passesInside_escaped content)
  refine ⟨_, extract_list hopen hline hpasses tail more, ?_⟩
  by_cases hitems : list.items = []
  · have htext : list.text escaped = list.empty.text := by simp [Attributes.text, hitems]
    have hsplit : split (flat list.empty.text) = [] := by
      rw [split, Splitting.foldl_read_inert _ (not_mem_signs_of_isBlanks (isBlanks_flat _)), complete_flush]
      simp [Splitting.addAll, pieceTokens, unquote_of_isBlanks (isBlanks_flat _)]
    simp [htext, hsplit, Attributes.contents, hitems]
  · have htext : list.text escaped = Text.joinWith [Text.byte ','] (list.items.map (Spaced.text escaped)) := by
      unfold Attributes.text
      split
      · next hnil => exact absurd hnil hitems
      · rfl
    have hiff := split_escaped_iff hitems (fun item hitem => hvisible _ (List.mem_map_of_mem hitem)) []
    rw [List.append_nil, ← List.reverse_eq_iff] at hiff
    rw [htext, split]
    simp only [Attributes.contents, List.map_map, List.forall_mem_map, ← List.map_dropLast]
    exact hiff

/-- Two attributes with commas in them. In the first one, a comma behind its quotes counts as quoted, and a comma between
its quotes is in parentheses. -/
theorem extract_of_sheltered_quotes :
    let list : Attributes Text :=
      { items := [{ content := "hint=say \"(x, y)\", b" }, { content := "category=a, b" }] }
    let line : Text := "AGEA_ar_property(\"hint=say \\\"(x, y)\\\", b\",\"category=a, b\")"
    (∀ content ∈ list.contents, Text.isBlank content = false) ∧
    (∀ content ∈ list.contents, Sheltered content) ∧ (∀ content ∈ list.contents.dropLast, Rounded content) ∧
    [line] = Text.splitOn Text.lineFeed (Text.ofString "AGEA_ar_property" ++ Text.byte '(' :: list.text escaped ++
      Text.byte ')' :: []) ++ [] ∧
    extract [line] = .ok (0, ["hint=say \\\"(x, y)\\\", b", "category=a, b"]) := by
  intro list line
  have hvisible : ∀ content ∈ list.contents, Text.isBlank content = false := by decide +kernel
  have hsheltered : ∀ content ∈ list.contents, Sheltered content := by decide +kernel
  have hrounded : ∀ content ∈ list.contents.dropLast, Rounded content := by decide +kernel
  have hline : [line] = Text.splitOn Text.lineFeed (Text.ofString "AGEA_ar_property" ++ Text.byte '(' ::
      list.text escaped ++ Text.byte ')' :: []) ++ [] := by
    decide +kernel
  obtain ⟨tokens, hextract, htokens⟩ :=
    extract_escaped list hvisible (show Text.byte '(' ∉ Text.ofString "AGEA_ar_property" by decide) (by decide) [] []
  have hvalue : list.contents.map tokenOf = ["hint=say \\\"(x, y)\\\", b", "category=a, b"] := by decide +kernel
  have hcount : (list.text escaped).count Text.lineFeed = 0 := by decide +kernel
  rw [htokens.mpr ⟨hsheltered, hrounded⟩, hvalue, hcount, ← hline] at hextract
  exact ⟨hvisible, hsheltered, hrounded, hline, hextract⟩

/-- An attribute with an escaped quote before a comma, which is cut in two. -/
theorem quoted_comma_cut :
    let list : Attributes Text := { items := [{ content := "hint=a\",b" }] }
    let line : Text := "AGEA_ar_property(\"hint=a\\\",b\")"
    (∀ content ∈ list.contents, Text.isBlank content = false) ∧
    line = Text.ofString "AGEA_ar_property" ++ Text.byte '(' :: list.text escaped ++ [Text.byte ')'] ∧
    extract [line] = .ok (0, ["hint=a\\", "b"]) ∧ list.contents.length = 1 := by
  decide +kernel

end HeaderReflection
