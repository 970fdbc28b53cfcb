import HeaderReflection.Proofs.Header.AttributeText

/-!
# Attributes with and without quotes

An attribute need not stand in quotes, as long as its brackets are matched and its commas are inside of them. Whatever
the layout of a list, and whichever of its attributes are in quotes, extraction finds the end of the list, and splitting
takes the list apart into its attributes. Where extraction fails, the reason is read off the bytes outside of quotes.

## Main definitions

- `Matched`: a text in which every bracket has its partner.
- `Token`: an attribute, in quotes or bare.
- `outsideQuotes`, `outsideOfLines`: the bytes outside of quotes.
- `Closes`: whether a parenthesis brings the depth back to zero.

## Main results

- `passes_bare`, `stays_bare`: both scanners go over a bare attribute.
- `scanLine_outside`: a line closes a list exactly when one of its parentheses does.
- `extract_tokens`: lists of attributes are extracted, and when nothing is.
-/

namespace HeaderReflection

/-! ## §1 Tokens -/

/-- Every bracket of a kind has its partner: none is closed before it is open, and all are closed. -/
structure Matched (left right : UInt8) (text : Text) : Prop where
  opened : ∀ before, before <+: text → before.count right ≤ before.count left
  closed : text.count right = text.count left

instance (left right : UInt8) (text : Text) : Decidable (Matched left right text) :=
  decidable_of_iff ((∀ before ∈ text.inits, before.count right ≤ before.count left) ∧
    text.count right = text.count left)
    ⟨fun h => ⟨fun before hbefore => h.1 before ((List.mem_inits _ _).mpr hbefore), h.2⟩,
      fun h => ⟨fun before hbefore => h.opened before ((List.mem_inits _ _).mp hbefore), h.closed⟩⟩

/-- A text that needs no quotes: its brackets are matched, and every comma is inside of brackets. -/
structure NeedsNoQuotes (text : Text) : Prop where
  angles : Matched (Text.byte '<') (Text.byte '>') text
  parens : Matched (Text.byte '(') (Text.byte ')') text
  commas : ∀ before, before ++ [Text.byte ','] <+: text →
    before.count (Text.byte '>') < before.count (Text.byte '<') ∨
    before.count (Text.byte ')') < before.count (Text.byte '(')

instance (text : Text) : Decidable (NeedsNoQuotes text) :=
  decidable_of_iff (Matched (Text.byte '<') (Text.byte '>') text ∧ Matched (Text.byte '(') (Text.byte ')') text ∧
    ∀ before ∈ text.inits, before ++ [Text.byte ','] <+: text →
      before.count (Text.byte '>') < before.count (Text.byte '<') ∨
      before.count (Text.byte ')') < before.count (Text.byte '('))
    ⟨fun h => ⟨h.1, h.2.1, fun before hbefore => h.2.2 before
        ((List.mem_inits _ _).mpr ((List.prefix_append _ _).trans hbefore)) hbefore⟩,
      fun h => ⟨h.angles, h.parens, fun before _ hbefore => h.commas before hbefore⟩⟩

/-- An attribute, in quotes or without them. -/
inductive Token where
  | quoted (text : Text)
  | bare (text : Text)

namespace Token

def text : Token → Text
  | quoted text => text
  | bare text => text

/-- What is written in a list. -/
def written : Token → Text
  | quoted text => quotation text
  | bare text => text

/-- What can be written as an attribute: a text that unquoting does not change, without quotes, backslashes and line
ends, and in quotes unless it needs none. -/
structure Legal (token : Token) : Prop where
  text : AttributeText token.text
  bare : ∀ text, token = bare text → NeedsNoQuotes text

end Token

namespace AttributeList

/-! ## §2 Bare attributes -/

/-- What a byte and a text have of another byte. -/
theorem count_cons_eq (b c : UInt8) (text : Text) : (b :: text).count c = [b].count c + text.count c := by
  rw [← List.singleton_append, List.count_append]

/-- An open list behind a piece without quotes. -/
def Opened.over (o : Opened) (text : Text) : Opened :=
  { o.addAll text with depth := o.depth + text.count (Text.byte '(') - text.count (Text.byte ')') }

theorem Opened.over_cons (o : Opened) (b : UInt8) (text : Text)
    (h : [b].count (Text.byte ')') ≤ o.depth + [b].count (Text.byte '(')) :
    (o.over [b]).over text = o.over (b :: text) := by
  have hcount := fun c => count_cons_eq b c text
  simp only [Opened.over, addAll, Opened.mk.injEq, hcount, and_true]
  exact ⟨by simp, by omega⟩

/-- A byte that is no quote, and does not close the list. -/
theorem scanLine_bare {o : Opened} (ho : o.quoted = false) {b : UInt8} (hquote : b ≠ Text.byte '"')
    (hdepth : 0 < o.depth) (hopen : [b].count (Text.byte ')') < o.depth + [b].count (Text.byte '(')) (line : Text) :
    scanLine o (b :: line) = scanLine (o.over [b]) line := by
  rw [scanLine_cons, if_neg (by simp [ho]), if_neg hquote]
  by_cases hleft : b = Text.byte '('
  · subst hleft
    rw [if_pos rfl, if_neg hdepth.ne']
    rfl
  · rw [if_neg hleft]
    by_cases hright : b = Text.byte ')'
    · subst hright
      have hdeep : ¬ o.depth ≤ 1 := not_le.mpr hopen
      rw [if_pos rfl, if_neg hdeep]
      rfl
    · rw [if_neg hright]
      have hover : o.over [b] = o.add b := by
        simp [Opened.over, Opened.addAll, Opened.add, hleft, hright]
      rw [hover]

theorem scanFrom_bare {text : Text} (hquote : Text.byte '"' ∉ text) (hline : Text.lineFeed ∉ text) {o : Opened}
    (ho : o.quoted = false)
    (hopen : ∀ before, before <+: text → before.count (Text.byte ')') < o.depth + before.count (Text.byte '('))
    (index : Nat) (rest : Text) (more : List Text) :
    scanFrom o index (Text.splitOn Text.lineFeed (text ++ rest) ++ more) =
      scanFrom (o.over text) index (Text.splitOn Text.lineFeed rest ++ more) := by
  -- wherever the scan has come in the text, the list is still open
  induction text generalizing o with
  | nil => rfl
  | cons b text ih =>
    simp only [List.mem_cons, not_or] at hquote hline
    have hdepth : 0 < o.depth := by simpa using hopen [] List.nil_prefix
    have hfirst := hopen [b] (by simp)
    have hstep := scanLine_bare ho (Ne.symm hquote.1) hdepth hfirst
    rw [List.cons_append, scanFrom_cons (Ne.symm hline.1) hstep, ih hquote.2 hline.2 (o := o.over [b]) ho,
      Opened.over_cons o b text hfirst.le]
    intro before hbefore
    have hcount := fun c => count_cons_eq b c before
    have hnext := hopen (b :: before) ((List.prefix_cons_inj b).mpr hbefore)
    simp only [hcount] at hnext
    simp only [Opened.over]
    omega

/-- **Extraction goes over a bare attribute**: each of its parentheses has its partner. -/
theorem passes_bare {text : Text} (hquoted : QuotedText text) (h : Matched (Text.byte '(') (Text.byte ')') text) :
    Passes text := by
  intro o ho hdepth index rest more
  rw [scanFrom_bare hquoted.1 hquoted.2.2 ho, flat_of_not_mem hquoted.2.2,
    List.count_eq_zero_of_not_mem hquoted.2.2, Nat.add_zero]
  · have hover : o.over text = o.addAll text := by simp [Opened.over, h.closed, Opened.addAll]
    rw [hover]
  · intro before hbefore
    have hle := h.opened before hbefore
    omega

/-- A list that has been split up to a piece without quotes. -/
def Splitting.over (s : Splitting) (text : Text) : Splitting :=
  { s.addAll text with
    angles := s.angles + text.count (Text.byte '<') - text.count (Text.byte '>')
    parens := s.parens + text.count (Text.byte '(') - text.count (Text.byte ')') }

/-- A byte that is no quote, closes no bracket that is not open, and is no comma outside of brackets. -/
theorem Splitting.read_bare {s : Splitting} (hs : s.quoted = false) {b : UInt8} (hquote : b ≠ Text.byte '"')
    (hangles : [b].count (Text.byte '>') ≤ s.angles + [b].count (Text.byte '<'))
    (hparens : [b].count (Text.byte ')') ≤ s.parens + [b].count (Text.byte '('))
    (hcomma : b = Text.byte ',' → 0 < s.angles ∨ 0 < s.parens) : s.read b = s.over [b] := by
  rw [read, if_neg (by simp [hs]), if_neg hquote]
  by_cases hless : b = Text.byte '<'
  · subst hless
    rfl
  rw [if_neg hless]
  by_cases hgreater : b = Text.byte '>'
  · subst hgreater
    rw [if_pos ⟨rfl, hangles⟩]
    rfl
  rw [if_neg fun h => hgreater h.1]
  by_cases hleft : b = Text.byte '('
  · subst hleft
    rfl
  rw [if_neg hleft]
  by_cases hright : b = Text.byte ')'
  · subst hright
    rw [if_pos ⟨rfl, hparens⟩]
    rfl
  rw [if_neg fun h => hright h.1, if_neg]
  · simp [Splitting.over, addAll, add, hless, hgreater, hleft, hright]
  · rintro ⟨hb, hangles, hparens⟩
    have hinside := hcomma hb
    omega

theorem foldl_read_bare {text : Text} (hquote : Text.byte '"' ∉ text) {s : Splitting} (hs : s.quoted = false)
    (hangles : ∀ before, before <+: text → before.count (Text.byte '>') ≤ s.angles + before.count (Text.byte '<'))
    (hparens : ∀ before, before <+: text → before.count (Text.byte ')') ≤ s.parens + before.count (Text.byte '('))
    (hcommas : ∀ before, before ++ [Text.byte ','] <+: text →
      before.count (Text.byte '>') < s.angles + before.count (Text.byte '<') ∨
      before.count (Text.byte ')') < s.parens + before.count (Text.byte '(')) :
    text.foldl Splitting.read s = s.over text := by
  induction text generalizing s with
  | nil => rfl
  | cons b text ih =>
    simp only [List.mem_cons, not_or] at hquote
    have hcount := count_cons_eq b
    have hfirst : [b] <+: b :: text := by simp
    have hread : s.read b = s.over [b] := by
      refine Splitting.read_bare hs (Ne.symm hquote.1) (hangles [b] hfirst) (hparens [b] hfirst) fun hb => ?_
      simpa using hcommas [] (by simp [hb])
    have hangle := hangles [b] hfirst
    have hparen := hparens [b] hfirst
    rw [List.foldl_cons, hread, ih hquote.2 (s := s.over [b]) hs]
    · simp only [Splitting.over, Splitting.addAll, Splitting.mk.injEq, hcount _ text, true_and, and_true]
      exact ⟨by simp, by omega, by omega⟩
    -- the brackets that are open behind the first byte are counted among those that are open
    · intro before hbefore
      have hnext := hangles (b :: before) ((List.prefix_cons_inj b).mpr hbefore)
      simp only [hcount _ before] at hnext
      simp only [Splitting.over]
      omega
    · intro before hbefore
      have hnext := hparens (b :: before) ((List.prefix_cons_inj b).mpr hbefore)
      simp only [hcount _ before] at hnext
      simp only [Splitting.over]
      omega
    · intro before hbefore
      have hnext := hcommas (b :: before) ((List.prefix_cons_inj b).mpr hbefore)
      simp only [hcount _ before] at hnext
      simp only [Splitting.over]
      omega

/-- **Splitting goes over a bare attribute**: it has no comma outside of brackets, and leaves no bracket open. -/
theorem stays_bare {text : Text} (hquoted : QuotedText text) (h : NeedsNoQuotes text) : Stays text := by
  intro s hs
  rw [flat_of_not_mem hquoted.2.2, foldl_read_bare hquoted.1 hs.quoted]
  · simp [Splitting.over, Splitting.addAll, h.angles.closed, h.parens.closed]
  · intro before hbefore
    exact (h.angles.opened before hbefore).trans (Nat.le_add_left _ _)
  · intro before hbefore
    exact (h.parens.opened before hbefore).trans (Nat.le_add_left _ _)
  · intro before hbefore
    have hinside := h.commas before hbefore
    omega

/-! ## §3 Where a list ends -/

/-- The bytes of a line that stand outside of quotes, and whether a quote is open at its end. Inside quotes a backslash
takes the next byte of the line with it. -/
def outsideQuotes : (quoted : Bool) → Text → Text × Bool
  | quoted, [] => ([], quoted)
  | false, b :: rest =>
    if b = Text.byte '"' then outsideQuotes true rest else (outsideQuotes false rest).map (b :: ·) id
  | true, b :: rest =>
    if b = Text.byte '\\' then
      match rest with
      | [] => ([], true)
      | _ :: rest => outsideQuotes true rest
    else if b = Text.byte '"' then outsideQuotes false rest
    else outsideQuotes true rest

section OutsideQuotes

variable {b : UInt8} (rest : Text)

theorem outsideQuotes_bare (h : b ≠ Text.byte '"') :
    outsideQuotes false (b :: rest) = (b :: (outsideQuotes false rest).1, (outsideQuotes false rest).2) := by
  rw [outsideQuotes, if_neg h]
  rfl

theorem outsideQuotes_open : outsideQuotes false (Text.byte '"' :: rest) = outsideQuotes true rest := by
  rw [outsideQuotes, if_pos rfl]

theorem outsideQuotes_inside (hbackslash : b ≠ Text.byte '\\') :
    outsideQuotes true (b :: rest) =
      if b = Text.byte '"' then outsideQuotes false rest else outsideQuotes true rest := by
  rw [outsideQuotes.eq_def]
  exact if_neg hbackslash

end OutsideQuotes

/-- The bytes of some lines that stand outside of quotes. A quote that is open at the end of a line goes on. -/
def outsideOfLines (quoted : Bool) : List Text → Text
  | [] => []
  | line :: lines => (outsideQuotes quoted line).1 ++ outsideOfLines (outsideQuotes quoted line).2 lines

/-- Some closing parenthesis brings the depth back to zero. -/
def Closes (depth : Nat) (bytes : Text) : Prop :=
  ∃ before after, bytes = before ++ Text.byte ')' :: after ∧
    before.count (Text.byte '(') + depth = before.count (Text.byte ')') + 1

theorem closes_cons {depth : Nat} {b : UInt8} {bytes : Text} :
    Closes depth (b :: bytes) ↔ (b = Text.byte ')' ∧ depth = 1) ∨
      ∃ before after, bytes = before ++ Text.byte ')' :: after ∧
        (b :: before).count (Text.byte '(') + depth = (b :: before).count (Text.byte ')') + 1 := by
  constructor
  · rintro ⟨before, after, hbytes, hcount⟩
    rcases List.cons_eq_append_iff.mp hbytes with ⟨rfl, hrest⟩ | ⟨rest, rfl, hrest⟩
    · cases hrest
      exact .inl ⟨rfl, by simpa using hcount⟩
    · exact .inr ⟨rest, after, hrest, hcount⟩
  · rintro (⟨rfl, hdepth⟩ | ⟨before, after, rfl, hcount⟩)
    · exact ⟨[], bytes, rfl, by simpa using hdepth⟩
    · exact ⟨b :: before, after, rfl, hcount⟩

theorem closes_open (depth : Nat) (bytes : Text) :
    Closes depth (Text.byte '(' :: bytes) ↔ Closes (depth + 1) bytes := by
  rw [closes_cons]
  constructor
  · rintro (⟨hb, -⟩ | ⟨before, after, hbytes, hcount⟩)
    · exact absurd hb (by decide)
    · rw [List.count_cons_self, List.count_cons_of_ne (by decide)] at hcount
      exact ⟨before, after, hbytes, by omega⟩
  · rintro ⟨before, after, hbytes, hcount⟩
    refine .inr ⟨before, after, hbytes, ?_⟩
    rw [List.count_cons_self, List.count_cons_of_ne (by decide)]
    omega

theorem closes_close {depth : Nat} (h : 1 < depth) (bytes : Text) :
    Closes depth (Text.byte ')' :: bytes) ↔ Closes (depth - 1) bytes := by
  rw [closes_cons]
  constructor
  · rintro (⟨-, hdepth⟩ | ⟨before, after, hbytes, hcount⟩)
    · omega
    · rw [List.count_cons_self, List.count_cons_of_ne (by decide)] at hcount
      exact ⟨before, after, hbytes, by omega⟩
  · rintro ⟨before, after, hbytes, hcount⟩
    refine .inr ⟨before, after, hbytes, ?_⟩
    rw [List.count_cons_self, List.count_cons_of_ne (by decide)]
    omega

theorem closes_one (bytes : Text) : Closes 1 (Text.byte ')' :: bytes) := closes_cons.mpr (.inl ⟨rfl, rfl⟩)

theorem closes_other {depth : Nat} {b : UInt8} (hopen : b ≠ Text.byte '(') (hclose : b ≠ Text.byte ')')
    (bytes : Text) : Closes depth (b :: bytes) ↔ Closes depth bytes := by
  rw [closes_cons]
  simp only [hclose, false_and, false_or, List.count_cons_of_ne hopen, List.count_cons_of_ne hclose]
  rfl

theorem not_closes_nil (depth : Nat) : ¬ Closes depth [] := by
  rintro ⟨before, after, hbytes, -⟩
  simp at hbytes

/-- **A line closes a list exactly when one of its parentheses does**, and if it does not, the list stands at its end as
the bytes outside of quotes say. -/
theorem scanLine_outside {o : Opened} (hdepth : 0 < o.depth) (line : Text) (more : Text) :
    match scanLine o line with
    | .inl _ => Closes o.depth ((outsideQuotes o.quoted line).1 ++ more)
    | .inr next => 0 < next.depth ∧ next.quoted = (outsideQuotes o.quoted line).2 ∧
      (Closes o.depth ((outsideQuotes o.quoted line).1 ++ more) ↔ Closes next.depth more) := by
  fun_induction scanLine o line with
  | case1 o => exact ⟨hdepth, by simp [outsideQuotes], by simp [outsideQuotes]⟩
  -- in a quote: a backslash at the end, one with the byte it takes along, the closing quote, and any other byte
  | case2 o hquoted =>
    simp only [hquoted, outsideQuotes]
    exact ⟨hdepth, hquoted, Iff.rfl⟩
  | case3 o hquoted c rest ih =>
    simpa only [hquoted, outsideQuotes, Opened.add, if_pos] using ih hdepth
  | case4 o rest hquoted hbackslash ih =>
    rw [hquoted, outsideQuotes_inside rest hbackslash, if_pos rfl]
    exact ih hdepth
  | case5 o b rest hquoted hbackslash hquote ih =>
    rw [hquoted, outsideQuotes_inside rest hbackslash, if_neg hquote, ← hquoted]
    exact ih hdepth
  -- outside of quotes: an opening quote, the parentheses, and any other byte
  | case6 o rest hquoted ih =>
    rw [Bool.not_eq_true] at hquoted
    rw [hquoted, outsideQuotes_open]
    exact ih hdepth
  | case7 o rest hquoted hzero => exact absurd hzero hdepth.ne'
  | case8 o rest hquoted _ hquote ih =>
    rw [Bool.not_eq_true] at hquoted
    rw [hquoted, outsideQuotes_bare rest hquote]
    simp only [List.cons_append, closes_open]
    simpa only [Opened.add, hquoted] using ih (Nat.succ_pos _)
  | case9 o rest hquoted hone hquote =>
    rw [Bool.not_eq_true] at hquoted
    have hdepth : o.depth = 1 := by omega
    rw [hquoted, outsideQuotes_bare rest hquote, hdepth]
    exact closes_one _
  | case10 o rest hquoted hdeep hquote _ ih =>
    rw [Bool.not_eq_true] at hquoted
    have hmore : 1 < o.depth := by omega
    rw [hquoted, outsideQuotes_bare rest hquote]
    simp only [List.cons_append, closes_close hmore]
    simpa only [Opened.add, hquoted] using ih (Nat.sub_pos_of_lt hmore)
  | case11 o b rest hquoted hquote hleft hright ih =>
    rw [Bool.not_eq_true] at hquoted
    rw [hquoted, outsideQuotes_bare rest hquote]
    simp only [List.cons_append, closes_other hleft hright]
    simpa only [Opened.add, hquoted] using ih hdepth

/-- Lines close a list exactly when one of their parentheses does. -/
theorem scanFrom_isSome_iff {o : Opened} (hdepth : 0 < o.depth) (index : Nat) (lines : List Text) :
    (scanFrom o index lines).isSome ↔ Closes o.depth (outsideOfLines o.quoted lines) := by
  -- a line that does not close the list hands its depth and its quotes on to the next one
  induction lines generalizing o index with
  | nil => simp [scanFrom, outsideOfLines, not_closes_nil]
  | cons line lines ih =>
    have hline := scanLine_outside hdepth line (outsideOfLines (outsideQuotes o.quoted line).2 lines)
    rw [scanFrom, outsideOfLines]
    cases hscan : scanLine o line with
    | inl body =>
      rw [hscan] at hline
      simpa using hline
    | inr next =>
      rw [hscan] at hline
      obtain ⟨hnext, hquoted, hcloses⟩ := hline
      rw [hcloses, ← hquoted]
      dsimp only
      rw [scanLines_eq]
      exact ih (o := next.add (Text.byte ' ')) hnext (index + 1)

/-- What is left of a line from its first parenthesis on. -/
theorem eq_of_dropWhile {line opening : Text} {b : UInt8}
    (h : line.dropWhile (· ≠ Text.byte '(') = b :: opening) : b = Text.byte '(' ∧ Text.byte '(' ∈ line := by
  have hb : b = Text.byte '(' := by
    have hhead := List.head_dropWhile_not (· ≠ Text.byte '(') (l := line) (by rw [h]; simp)
    simp only [h, List.head_cons] at hhead
    simpa using hhead
  refine ⟨hb, ?_⟩
  have hmem : b ∈ line.dropWhile (· ≠ Text.byte '(') := by rw [h]; exact List.mem_cons_self
  exact hb ▸ (List.dropWhile_sublist _).mem hmem

theorem not_mem_of_dropWhile {line : Text} (h : line.dropWhile (· ≠ Text.byte '(') = []) : Text.byte '(' ∉ line := by
  intro hmem
  simpa using List.dropWhile_eq_nil_iff.mp h _ hmem

/-- There is nothing to extract exactly where the first line has no parenthesis. -/
theorem extract_missing_iff (line : Text) (lines : List Text) :
    extract (line :: lines) = .error .missing ↔ Text.byte '(' ∉ line := by
  cases hdrop : line.dropWhile (· ≠ Text.byte '(') with
  | nil =>
    rw [extract, hdrop]
    simpa using not_mem_of_dropWhile hdrop
  | cons b opening =>
    obtain ⟨rfl, hmem⟩ := eq_of_dropWhile hdrop
    rw [extract_of_opening hdrop]
    simp only [hmem, not_true_eq_false, iff_false]
    split <;> simp

/-- A list that is opened is not closed exactly where no parenthesis outside of quotes brings the depth back to zero. -/
theorem extract_unclosed_iff (line : Text) (lines : List Text) :
    extract (line :: lines) = .error .unclosed ↔ Text.byte '(' ∈ line ∧
      ¬ Closes 0 (outsideOfLines false (line.dropWhile (· ≠ Text.byte '(') :: lines)) := by
  cases hdrop : line.dropWhile (· ≠ Text.byte '(') with
  | nil =>
    rw [extract, hdrop]
    simp [not_mem_of_dropWhile hdrop]
  | cons b opening =>
    obtain ⟨rfl, hmem⟩ := eq_of_dropWhile hdrop
    -- behind the opening parenthesis the depth is one
    have hfirst : scanFrom {} 0 ((Text.byte '(' :: opening) :: lines) =
        scanFrom { depth := 1 } 0 (opening :: lines) := by
      rw [scanFrom, scanFrom, scanLine_opening]
    have hcloses : Closes 0 (outsideOfLines false ((Text.byte '(' :: opening) :: lines)) ↔
        Closes 1 (outsideOfLines false (opening :: lines)) := by
      rw [outsideOfLines, outsideOfLines, outsideQuotes_bare _ (by decide), List.cons_append, closes_open]
    rw [extract_of_opening hdrop, hfirst, hcloses]
    have hscan := scanFrom_isSome_iff (o := { depth := 1 }) Nat.one_pos 0 (opening :: lines)
    rw [← hscan]
    cases scanFrom { depth := 1 } 0 (opening :: lines) with
    | none => simpa using hmem
    | some found => simp

/-! ## §4 Lists of tokens -/

theorem passes_written {token : Token} (h : token.Legal) : Passes token.written := by
  cases token with
  | quoted text => exact passes_quotation (passesInside_of_quotedText h.text.quoted)
  | bare text => exact passes_bare h.text.quoted (h.bare text rfl).parens

theorem stays_written {token : Token} (h : token.Legal) : Stays token.written := by
  cases token with
  | quoted text => exact stays_quotation h.text.quoted
  | bare text => exact stays_bare h.text.quoted (h.bare text rfl)

theorem unquote_written {token : Token} (h : token.Legal) {before after : Text} (hbefore : Text.IsBlanks before)
    (hafter : Text.IsBlanks after) :
    unquote (before ++ flat token.written ++ after) = token.text := by
  cases token with
  | quoted text => exact unquote_attribute h.text hbefore hafter
  | bare text =>
    have hline : Text.lineFeed ∉ text := h.text.quoted.2.2
    rw [Token.written, flat_of_not_mem hline]
    exact unquote_pad h.text.unquote hbefore hafter

/-- **Extraction undoes printing, and fails for two reasons only.** A list of attributes, in quotes or bare, with any
spaces, tabs and line ends around them, gives back its attributes in their order, with the number of line ends up to its
closing parenthesis. Extraction finds nothing exactly if the first line has no parenthesis, and finds no end exactly if
no later parenthesis outside of quotes brings the depth back to zero. -/
theorem extract_tokens :
    (∀ list : Attributes Token, (∀ token ∈ list.contents, token.Legal) →
      ∀ (before tail : Text) (more : List Text), Text.byte '(' ∉ before → Text.lineFeed ∉ before →
        extract (Text.splitOn Text.lineFeed
            (before ++ Text.byte '(' :: list.layout Token.written ++ Text.byte ')' :: tail) ++ more) =
          .ok ((list.layout Token.written).count Text.lineFeed, list.contents.map Token.text)) ∧
    ∀ (line : Text) (lines : List Text),
      (extract (line :: lines) = .error .missing ↔ Text.byte '(' ∉ line) ∧
      (extract (line :: lines) = .error .unclosed ↔ Text.byte '(' ∈ line ∧
        ¬ Closes 0 (outsideOfLines false (line.dropWhile (· ≠ Text.byte '(') :: lines))) := by
  constructor
  · intro list hlegal before tail more hopen hline
    have hpasses := Attributes.passes_layout list fun token htoken => passes_written (hlegal token htoken)
    have hsplit : split (flat (list.layout Token.written)) = list.contents.map Token.text := by
      apply split_layout
      · exact fun token htoken => stays_written (hlegal token htoken)
      · intro token htoken before after hbefore hafter
        exact ⟨unquote_written (hlegal token htoken) hbefore hafter, (hlegal token htoken).text.ne_nil⟩
    rw [extract_list hopen hline hpasses, hsplit]
  · intro line lines
    exact ⟨extract_missing_iff line lines, extract_unclosed_iff line lines⟩

/-- An attribute in quotes with a comma and a parenthesis in it, and a bare one on the next line. -/
theorem extract_over_two_lines :
    let list : Attributes Token := { items := [
      { content := .quoted "hint=a, (b" },
      { before := { text := Text.lineFeed :: Text.ofString "  " }, content := .bare "type=map<int, f(x, y)>" }] }
    let before : Text := "AGEA_ar_property"
    let tail : Text := " // the list ends here"
    let more : List Text := ["int m_size;"]
    let lines : List Text :=
      ["AGEA_ar_property(\"hint=a, (b\",", "  type=map<int, f(x, y)>) // the list ends here", "int m_size;"]
    (∀ token ∈ list.contents, token.Legal) ∧ Text.byte '(' ∉ before ∧ Text.lineFeed ∉ before ∧
    lines = Text.splitOn Text.lineFeed
      (before ++ Text.byte '(' :: list.layout Token.written ++ Text.byte ')' :: tail) ++ more ∧
    extract lines = .ok (1, ["hint=a, (b", "type=map<int, f(x, y)>"]) := by
  intro list before tail more lines
  have hlegal : ∀ token ∈ list.contents, token.Legal := by
    simp only [list, Attributes.contents, List.map_cons, List.map_nil, List.forall_mem_cons]
    refine ⟨⟨⟨by decide, by decide, by decide⟩, fun text h => by cases h⟩,
      ⟨⟨by decide, by decide, by decide⟩, ?_⟩, by simp⟩
    intro text h
    cases h
    decide +kernel
  have hlines : lines = Text.splitOn Text.lineFeed
      (before ++ Text.byte '(' :: list.layout Token.written ++ Text.byte ')' :: tail) ++ more := by
    decide +kernel
  refine ⟨hlegal, by decide, by decide, hlines, ?_⟩
  rw [hlines]
  exact extract_tokens.1 list hlegal before tail more (by decide) (by decide)

end AttributeList

end HeaderReflection
