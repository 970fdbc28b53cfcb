import HeaderReflection.Header.AttributeList
import HeaderReflection.Proofs.Text.Fields

/-!
# Written attribute lists

An attribute list may be laid out in many ways: spaces, tabs and line ends may stand around every attribute. Whatever
the layout, the list is found on its lines, and comes apart into its attributes.

The two scanners see the list differently. Extraction goes over the lines and replaces every line end by a space;
splitting goes over the text that extraction has put together. Both are followed byte by byte: a piece of a list
*passes* if a scanner goes over it and comes out as it went in, with the piece taken down.

## Main definitions

- `Gap`, `White`: spaces and tabs, and these with line ends.
- `Spaced`, `Attributes`: attributes with their layout.
- `QuotedText`: what may stand between quotes.

## Main results

- `extract_list`: a list is found, with the line on which it ends.
- `split_list`: a list comes apart into its attributes.
- `keyValue?_keyed`: an attribute comes apart into its key and value.
-/

namespace HeaderReflection

/-! ## §1 Layout -/

def isGapByte (b : UInt8) : Bool := b = Text.byte ' ' || b = Text.byte '\t'

/-- Spaces and tabs. -/
structure Gap where
  text : Text := []
  blank : text.all isGapByte = true := by decide

/-- Spaces, tabs and line ends. -/
structure White where
  text : Text := []
  blank : (text.all fun b => isGapByte b || b = Text.lineFeed) = true := by decide

theorem isGapByte_iff {b : UInt8} : isGapByte b = true ↔ b = Text.byte ' ' ∨ b = Text.byte '\t' := by
  simp [isGapByte]

theorem Gap.isBlanks (gap : Gap) : Text.IsBlanks gap.text := by
  intro b hb
  rcases isGapByte_iff.mp (List.all_eq_true.mp gap.blank b hb) with rfl | rfl <;> decide

/-- A byte that is neither a space nor a tab is not in a gap. -/
theorem Gap.not_mem (gap : Gap) {b : UInt8} (hb : isGapByte b = false) : b ∉ gap.text := by
  intro hmem
  rw [List.all_eq_true.mp gap.blank b hmem] at hb
  cases hb

/-- What may stand between quotes: no quote, no backslash and no line end. -/
def QuotedText (text : Text) : Prop :=
  Text.byte '"' ∉ text ∧ Text.byte '\\' ∉ text ∧ Text.lineFeed ∉ text

instance (text : Text) : Decidable (QuotedText text) := inferInstanceAs (Decidable (_ ∧ _ ∧ _))

/-- Something with white space around it. -/
structure Spaced (α : Type) where
  before : White := {}
  content : α
  after : White := {}

/-- Attributes with the white space around them. An empty list may hold white space as well. -/
structure Attributes (α : Type) where
  empty : White := {}
  items : List (Spaced α) := []

section Written

variable {α : Type} (spell : α → Text)

def Spaced.text (item : Spaced α) : Text :=
  item.before.text ++ Text.byte '"' :: spell item.content ++ Text.byte '"' :: item.after.text

/-- What stands between the parentheses of a list. -/
def Attributes.text (list : Attributes α) : Text :=
  match list.items with
  | [] => list.empty.text
  | items => Text.joinWith [Text.byte ','] (items.map (Spaced.text spell))

end Written

def Attributes.contents {α : Type} (list : Attributes α) : List α := list.items.map (·.content)

/-! The same for attributes that are not all in quotes. -/

section Layout

variable {α : Type} (write : α → Text)

def Spaced.layout (item : Spaced α) : Text := item.before.text ++ write item.content ++ item.after.text

def Attributes.layout (list : Attributes α) : Text :=
  match list.items with
  | [] => list.empty.text
  | items => Text.joinWith [Text.byte ','] (items.map (Spaced.layout write))

/-- A text in quotes. -/
def quotation (text : Text) : Text := Text.byte '"' :: text ++ [Text.byte '"']

theorem Spaced.text_eq (spell : α → Text) : Spaced.text spell = Spaced.layout (quotation ∘ spell) := by
  funext item
  simp [Spaced.text, Spaced.layout, quotation]

theorem Attributes.text_eq (spell : α → Text) (list : Attributes α) :
    list.text spell = list.layout (quotation ∘ spell) := by
  unfold Attributes.text Attributes.layout
  rw [Spaced.text_eq]

end Layout

namespace AttributeList

/-! ## §2 Extraction -/

/-- A text with a space in the place of every line end. -/
def flat (text : Text) : Text := text.map fun b => if b = Text.lineFeed then Text.byte ' ' else b

@[simp] theorem flat_nil : flat [] = [] := rfl

@[simp] theorem flat_append (a b : Text) : flat (a ++ b) = flat a ++ flat b := List.map_append

theorem flat_of_not_mem {text : Text} (h : Text.lineFeed ∉ text) : flat text = text := by
  unfold flat
  rw [List.map_congr_left (g := id)]
  · exact List.map_id _
  · intro b hb
    have hne : b ≠ Text.lineFeed := fun heq => h (heq ▸ hb)
    simp [hne]

/-- Reading lines of which the first goes on where the list stands. -/
def scanFrom (o : Opened) (index : Nat) : List Text → Option (Nat × Text)
  | [] => none
  | line :: lines =>
    match scanLine o line with
    | .inl body => some (index, body)
    | .inr o => scanLines o (index + 1) lines

theorem scanLines_eq (o : Opened) (index : Nat) (lines : List Text) :
    scanLines o index lines = scanFrom (o.add (Text.byte ' ')) index lines := by
  cases lines <;> rfl

def Opened.addAll (o : Opened) (text : Text) : Opened := { o with body := text.reverse ++ o.body }

@[simp] theorem Opened.addAll_nil (o : Opened) : o.addAll [] = o := rfl

theorem Opened.addAll_append (o : Opened) (a b : Text) : o.addAll (a ++ b) = (o.addAll a).addAll b := by
  simp [addAll]

theorem Opened.addAll_cons (o : Opened) (b : UInt8) (text : Text) : o.addAll (b :: text) = (o.add b).addAll text := by
  simp [addAll, add]

theorem scanLine_cons (o : Opened) (b : UInt8) (rest : Text) :
    scanLine o (b :: rest) =
      if o.quoted then
        if b = Text.byte '\\' then
          match rest with
          | [] => .inr (o.add b)
          | c :: rest => scanLine ((o.add b).add c) rest
        else if b = Text.byte '"' then scanLine { o.add b with quoted := false } rest
        else scanLine (o.add b) rest
      else if b = Text.byte '"' then scanLine { o.add b with quoted := true } rest
      else if b = Text.byte '(' then
        if o.depth = 0 then scanLine { o with depth := 1 } rest
        else scanLine { o.add b with depth := o.depth + 1 } rest
      else if b = Text.byte ')' then
        if o.depth ≤ 1 then .inl o.body.reverse
        else scanLine { o.add b with depth := o.depth - 1 } rest
      else scanLine (o.add b) rest := by
  rw [scanLine.eq_def]
  rfl

theorem scanFrom_cons {o next : Opened} {b : UInt8} (hb : b ≠ Text.lineFeed)
    (hstep : ∀ line, scanLine o (b :: line) = scanLine next line) (index : Nat) (text : Text) (more : List Text) :
    scanFrom o index (Text.splitOn Text.lineFeed (b :: text) ++ more) =
      scanFrom next index (Text.splitOn Text.lineFeed text ++ more) := by
  rw [Text.splitOn_cons_of_ne hb]
  cases hsplit : Text.splitOn Text.lineFeed text with
  | nil => exact absurd hsplit (Text.splitOn_ne_nil _ _)
  | cons first rest =>
    simp only [Text.consHead, List.cons_append, scanFrom, hstep]

/-- A line end, which goes down as a space. -/
theorem scanFrom_lineFeed (o : Opened) (index : Nat) (text : Text) (more : List Text) :
    scanFrom o index (Text.splitOn Text.lineFeed (Text.lineFeed :: text) ++ more) =
      scanFrom (o.add (Text.byte ' ')) (index + 1) (Text.splitOn Text.lineFeed text ++ more) := by
  rw [Text.splitOn_cons_sep, List.cons_append, ← scanLines_eq]
  simp only [scanFrom, scanLine]

/-- A piece of an open list that extraction goes over: it is taken down, and its line ends are counted. -/
def Passes (piece : Text) : Prop :=
  ∀ (o : Opened), o.quoted = false → 0 < o.depth → ∀ (index : Nat) (text : Text) (more : List Text),
    scanFrom o index (Text.splitOn Text.lineFeed (piece ++ text) ++ more) =
      scanFrom (o.addAll (flat piece)) (index + piece.count Text.lineFeed) (Text.splitOn Text.lineFeed text ++ more)

theorem passes_nil : Passes [] := by
  intro o _ _ index text more
  simp

theorem Passes.append {a b : Text} (ha : Passes a) (hb : Passes b) : Passes (a ++ b) := by
  intro o ho hdepth index text more
  rw [List.append_assoc, ha o ho hdepth, hb (o.addAll (flat a)) ho hdepth, flat_append, Opened.addAll_append,
    List.count_append, Nat.add_assoc]

/-- A byte that means nothing outside of quotes. -/
theorem passes_byte {b : UInt8} (hb : b ≠ Text.lineFeed) (hquote : b ≠ Text.byte '"') (hopen : b ≠ Text.byte '(')
    (hclose : b ≠ Text.byte ')') : Passes [b] := by
  intro o ho _ index text more
  have hstep : ∀ line, scanLine o (b :: line) = scanLine (o.add b) line := by
    intro line
    rw [scanLine_cons, if_neg (by simp [ho]), if_neg hquote, if_neg hopen, if_neg hclose]
  rw [List.singleton_append, scanFrom_cons hb hstep, flat_of_not_mem (by simpa using Ne.symm hb)]
  simp [Opened.addAll_cons, hb]

theorem passes_lineFeed : Passes [Text.lineFeed] := by
  intro o _ _ index text more
  rw [List.singleton_append, scanFrom_lineFeed]
  rfl

theorem White.passes (white : White) : Passes white.text := by
  obtain ⟨text, hblank⟩ := white
  induction text with
  | nil => exact passes_nil
  | cons b text ih =>
    rw [List.all_cons, Bool.and_eq_true] at hblank
    have hfirst : Passes [b] := by
      rw [Bool.or_eq_true, isGapByte_iff, decide_eq_true_eq] at hblank
      obtain ⟨(rfl | rfl) | rfl, -⟩ := hblank
      · exact passes_byte (by decide) (by decide) (by decide) (by decide)
      · exact passes_byte (by decide) (by decide) (by decide) (by decide)
      · exact passes_lineFeed
    exact hfirst.append (ih hblank.2)

/-- A piece of a quotation that extraction goes over. -/
def PassesInside (piece : Text) : Prop :=
  ∀ (o : Opened), o.quoted = true → ∀ (index : Nat) (text : Text) (more : List Text),
    scanFrom o index (Text.splitOn Text.lineFeed (piece ++ text) ++ more) =
      scanFrom (o.addAll (flat piece)) (index + piece.count Text.lineFeed) (Text.splitOn Text.lineFeed text ++ more)

theorem passesInside_nil : PassesInside [] := by
  intro o _ index text more
  simp

theorem PassesInside.append {a b : Text} (ha : PassesInside a) (hb : PassesInside b) : PassesInside (a ++ b) := by
  intro o ho index text more
  rw [List.append_assoc, ha o ho, hb (o.addAll (flat a)) ho, flat_append, Opened.addAll_append, List.count_append,
    Nat.add_assoc]

/-- A byte that means nothing inside quotes. -/
theorem passesInside_byte {b : UInt8} (hquote : b ≠ Text.byte '"') (hbackslash : b ≠ Text.byte '\\') :
    PassesInside [b] := by
  intro o ho index text more
  rw [List.singleton_append]
  by_cases hline : b = Text.lineFeed
  · rw [hline, scanFrom_lineFeed]
    rfl
  · have hstep : ∀ line, scanLine o (b :: line) = scanLine (o.add b) line := by
      intro line
      rw [scanLine_cons, if_pos ho, if_neg hbackslash, if_neg hquote]
    rw [scanFrom_cons hline hstep, flat_of_not_mem (by simpa using Ne.symm hline)]
    simp [Opened.addAll_cons, hline]

/-- Inside quotes every byte of a quoted text goes down as it is. -/
theorem passesInside_of_quotedText {text : Text} (h : QuotedText text) : PassesInside text := by
  induction text with
  | nil => exact passesInside_nil
  | cons b text ih =>
    obtain ⟨hquote, hbackslash, hline⟩ := h
    simp only [List.mem_cons, not_or] at hquote hbackslash hline
    exact (passesInside_byte (Ne.symm hquote.1) (Ne.symm hbackslash.1)).append
      (ih ⟨hquote.2, hbackslash.2, hline.2⟩)

theorem flat_quotation (text : Text) : flat (quotation text) = quotation (flat text) := by
  have hquote : flat [Text.byte '"'] = [Text.byte '"'] := flat_of_not_mem (by decide)
  rw [quotation, quotation, flat_append, hquote, flat, List.map_cons]
  rfl

theorem count_lineFeed_quotation (text : Text) :
    (quotation text).count Text.lineFeed = text.count Text.lineFeed := by
  rw [quotation, List.count_append, List.count_cons_of_ne (by decide)]
  rfl

/-- A quotation goes down with its quotes, and the quote is closed again. -/
theorem passes_quotation {text : Text} (h : PassesInside text) : Passes (quotation text) := by
  intro o ho _ index rest more
  have hopen : ∀ line, scanLine o (Text.byte '"' :: line) =
      scanLine { o.add (Text.byte '"') with quoted := true } line := by
    intro line
    rw [scanLine_cons, if_neg (by simp [ho]), if_pos rfl]
  have hclose : ∀ (o : Opened), o.quoted = true → ∀ line, scanLine o (Text.byte '"' :: line) =
      scanLine { o.add (Text.byte '"') with quoted := false } line := by
    intro o ho line
    rw [scanLine_cons, if_pos ho, if_neg (by decide), if_pos rfl]
  rw [flat_quotation, count_lineFeed_quotation, quotation, List.append_assoc, List.cons_append,
    scanFrom_cons (by decide) hopen, h _ rfl, List.singleton_append, scanFrom_cons (by decide) (hclose _ rfl)]
  have hstate : ({ ({ o.add (Text.byte '"') with quoted := true }.addAll (flat text)).add (Text.byte '"') with
      quoted := false } : Opened) = o.addAll (quotation (flat text)) := by
    obtain ⟨body, depth, quoted⟩ := o
    simp only at ho
    simp [Opened.addAll, Opened.add, quotation, ho]
  rw [hstate]

theorem passes_joinWith {pieces : List Text} (h : ∀ piece ∈ pieces, Passes piece) :
    Passes (Text.joinWith [Text.byte ','] pieces) := by
  induction pieces with
  | nil => exact passes_nil
  | cons piece pieces ih =>
    have hpiece := h piece List.mem_cons_self
    have hrest := ih fun p hp => h p (List.mem_cons_of_mem _ hp)
    by_cases hne : pieces = []
    · rw [hne, Text.joinWith_singleton]
      exact hpiece
    · rw [Text.joinWith_cons _ _ hne]
      exact (hpiece.append (passes_byte (by decide) (by decide) (by decide) (by decide))).append hrest

theorem Attributes.passes_layout {α : Type} {write : α → Text} (list : Attributes α)
    (h : ∀ a ∈ list.contents, Passes (write a)) : Passes (list.layout write) := by
  unfold Attributes.layout
  split
  · exact White.passes _
  · apply passes_joinWith
    intro piece hpiece
    obtain ⟨item, hitem, rfl⟩ := List.mem_map.mp hpiece
    exact ((White.passes _).append (h _ (List.mem_map_of_mem hitem))).append (White.passes _)

theorem Attributes.passes {α : Type} {spell : α → Text} (list : Attributes α)
    (h : ∀ a ∈ list.contents, QuotedText (spell a)) : Passes (list.text spell) := by
  rw [Attributes.text_eq]
  exact Attributes.passes_layout list fun a ha => passes_quotation (passesInside_of_quotedText (h a ha))

theorem scanLine_opening (line : Text) : scanLine {} (Text.byte '(' :: line) = scanLine { depth := 1 } line := by
  rw [scanLine_cons, if_neg (by decide), if_neg (by decide), if_pos rfl, if_pos rfl]

/-- A list is read from its opening to its closing parenthesis. -/
theorem scanFrom_list {inside : Text} (hinside : Passes inside) (tail : Text) (more : List Text) :
    scanFrom {} 0 (Text.splitOn Text.lineFeed (Text.byte '(' :: (inside ++ Text.byte ')' :: tail)) ++ more) =
      some (inside.count Text.lineFeed, flat inside) := by
  rw [scanFrom_cons (by decide) scanLine_opening, hinside _ rfl Nat.one_pos, Text.splitOn_cons_of_ne (by decide)]
  cases hsplit : Text.splitOn Text.lineFeed tail with
  | nil => exact absurd hsplit (Text.splitOn_ne_nil _ _)
  | cons first rest =>
    have hclose : scanLine (({ depth := 1 } : Opened).addAll (flat inside)) (Text.byte ')' :: first) =
        .inl (flat inside) := by
      rw [scanLine_cons, if_neg (by simp [Opened.addAll]), if_neg (by decide), if_neg (by decide), if_pos rfl,
        if_pos (by simp [Opened.addAll])]
      simp [Opened.addAll]
    simp only [Text.consHead, List.cons_append, scanFrom, hclose, Nat.zero_add]

/-- What stands before the first parenthesis is passed over. -/
theorem extract_of_opening {line opening : Text}
    (h : line.dropWhile (· ≠ Text.byte '(') = Text.byte '(' :: opening) (lines : List Text) :
    extract (line :: lines) =
      match scanFrom {} 0 ((Text.byte '(' :: opening) :: lines) with
      | some (index, body) => .ok (index, split body)
      | none => .error .unclosed := by
  rw [extract, h, scanFrom]
  dsimp only
  cases scanLine {} (Text.byte '(' :: opening) with
  | inl body => rfl
  | inr o => rfl

/-- **A list is found**: it ends on the line where its closing parenthesis stands, whatever comes behind. -/
theorem extract_list {before inside : Text} (hopen : Text.byte '(' ∉ before) (hline : Text.lineFeed ∉ before)
    (hinside : Passes inside) (tail : Text) (more : List Text) :
    extract (Text.splitOn Text.lineFeed (before ++ Text.byte '(' :: inside ++ Text.byte ')' :: tail) ++ more) =
      .ok (inside.count Text.lineFeed, split (flat inside)) := by
  have hscan := scanFrom_list hinside tail more
  -- what stands before the parenthesis is on the first line
  obtain ⟨first, rest, hsplit, hlines⟩ := Text.splitOn_append_cons_of_not_mem hline
    (by decide : Text.byte '(' ≠ Text.lineFeed) (inside ++ Text.byte ')' :: tail)
  have hdrop : (before ++ Text.byte '(' :: first).dropWhile (· ≠ Text.byte '(') = Text.byte '(' :: first := by
    rw [List.dropWhile_append_of_pos]
    · rfl
    · intro b hb
      have hne : b ≠ Text.byte '(' := fun heq => hopen (heq ▸ hb)
      simpa using hne
  rw [hsplit, List.cons_append] at hscan
  rw [List.append_assoc, List.cons_append, hlines, List.cons_append, extract_of_opening hdrop, hscan]

/-! ## §3 Splitting -/

namespace Splitting

def addAll (s : Splitting) (text : Text) : Splitting := { s with current := text.reverse ++ s.current }

/-- Between attributes: nothing is open. -/
structure Level (s : Splitting) : Prop where
  angles : s.angles = 0
  parens : s.parens = 0
  quoted : s.quoted = false

end Splitting

open Splitting (Level)

/-- A piece of a list that splitting goes over: it is taken down. -/
def Stays (piece : Text) : Prop :=
  ∀ (s : Splitting), Level s → (flat piece).foldl Splitting.read s = s.addAll (flat piece)

theorem stays_nil : Stays [] := fun _ _ => rfl

theorem Stays.append {a b : Text} (ha : Stays a) (hb : Stays b) : Stays (a ++ b) := by
  intro s hs
  have hlevel : Level (s.addAll (flat a)) := ⟨hs.angles, hs.parens, hs.quoted⟩
  rw [flat_append, List.foldl_append, ha s hs, hb _ hlevel]
  simp [Splitting.addAll]

/-- A byte that means nothing outside of quotes, or a line end, which has become a space. -/
theorem stays_byte {b : UInt8} (hquote : flat [b] ≠ [Text.byte '"']) (hless : flat [b] ≠ [Text.byte '<'])
    (hgreater : flat [b] ≠ [Text.byte '>']) (hopen : flat [b] ≠ [Text.byte '(']) (hclose : flat [b] ≠ [Text.byte ')'])
    (hcomma : flat [b] ≠ [Text.byte ',']) : Stays [b] := by
  intro s hs
  obtain ⟨c, hc⟩ : ∃ c, flat [b] = [c] := ⟨_, rfl⟩
  simp only [hc, ne_eq, List.cons.injEq, and_true] at hquote hless hgreater hopen hclose hcomma
  have hread : s.read c = s.add c := by
    rw [Splitting.read, if_neg (by simp [hs.quoted]), if_neg hquote, if_neg hless, if_neg fun h => hgreater h.1,
      if_neg hopen, if_neg fun h => hclose h.1, if_neg fun h => hcomma h.1]
  rw [hc, List.foldl_cons, hread]
  rfl

theorem White.stays (white : White) : Stays white.text := by
  obtain ⟨text, hblank⟩ := white
  induction text with
  | nil => exact stays_nil
  | cons b text ih =>
    rw [List.all_cons, Bool.and_eq_true] at hblank
    have hfirst : Stays [b] := by
      rw [Bool.or_eq_true, isGapByte_iff, decide_eq_true_eq] at hblank
      obtain ⟨(rfl | rfl) | rfl, -⟩ := hblank
      · exact stays_byte (by decide) (by decide) (by decide) (by decide) (by decide) (by decide)
      · exact stays_byte (by decide) (by decide) (by decide) (by decide) (by decide) (by decide)
      · exact stays_byte (by decide) (by decide) (by decide) (by decide) (by decide) (by decide)
    exact hfirst.append (ih hblank.2)

theorem foldl_read_quoted {text : Text} (h : Text.byte '"' ∉ text) {s : Splitting} (hs : s.quoted = true) :
    text.foldl Splitting.read s = s.addAll text := by
  induction text generalizing s with
  | nil => rfl
  | cons b text ih =>
    simp only [List.mem_cons, not_or] at h
    have hstep : s.read b = s.add b := by
      rw [Splitting.read, if_pos hs, if_neg (Ne.symm h.1)]
    rw [List.foldl_cons, hstep, ih h.2 (s := s.add b) hs]
    simp [Splitting.addAll, Splitting.add]

theorem stays_quotation {text : Text} (h : QuotedText text) : Stays (quotation text) := by
  unfold quotation
  intro s hs
  have hline : Text.lineFeed ∉ Text.byte '"' :: text ++ [Text.byte '"'] := by
    simp only [List.mem_append, List.mem_cons, List.not_mem_nil, or_false, not_or]
    exact ⟨⟨by decide, h.2.2⟩, by decide⟩
  have hopen : s.read (Text.byte '"') = { s.add (Text.byte '"') with quoted := true } := by
    rw [Splitting.read, if_neg (by simp [hs.quoted]), if_pos rfl]
  have hclose : ∀ s : Splitting, s.quoted = true →
      s.read (Text.byte '"') = { s.add (Text.byte '"') with quoted := false } := by
    intro s hs
    rw [Splitting.read, if_pos hs, if_pos rfl]
  rw [flat_of_not_mem hline, List.cons_append, List.foldl_cons, hopen, List.foldl_append, foldl_read_quoted h.1 rfl,
    List.foldl_cons, hclose _ rfl]
  obtain ⟨complete, current, angles, parens, quoted⟩ := s
  have hquoted := hs.quoted
  simp only at hquoted
  simp [Splitting.addAll, Splitting.add, hquoted]

/-- At a comma the attribute before it is complete, unless there is nothing in it. -/
theorem Splitting.read_comma {s : Splitting} (hs : Level s) : s.read (Text.byte ',') = s.flush := by
  rw [Splitting.read, if_neg (by simp [hs.quoted]), if_neg (by decide), if_neg (by decide),
    if_neg fun h => absurd h.1 (by decide), if_neg (by decide), if_neg fun h => absurd h.1 (by decide),
    if_pos ⟨rfl, hs.angles, hs.parens⟩]

/-- The attributes that a piece amounts to: one, or none if nothing is left of it. -/
def attributeOf (piece : Text) : List Text := [unquote (flat piece)].filter (· ≠ [])

theorem flush_addAll (complete : List Text) (piece : Text) :
    (({ complete } : Splitting).addAll (flat piece)).flush =
      { complete := (attributeOf piece).reverse ++ complete } := by
  unfold attributeOf
  by_cases hnil : unquote (flat piece) = [] <;> simp [Splitting.addAll, Splitting.flush, hnil]

theorem foldl_read_joinWith {pieces : List Text} (hne : pieces ≠ []) (h : ∀ piece ∈ pieces, Stays piece)
    (complete : List Text) :
    ((flat (Text.joinWith [Text.byte ','] pieces)).foldl Splitting.read { complete }).flush =
      { complete := (pieces.flatMap attributeOf).reverse ++ complete } := by
  -- the attributes that are complete at a comma are those of the pieces before it
  induction pieces generalizing complete with
  | nil => exact absurd rfl hne
  | cons piece pieces ih =>
    have hpiece := h piece List.mem_cons_self { complete } ⟨rfl, rfl, rfl⟩
    by_cases hrest : pieces = []
    · rw [hrest, Text.joinWith_singleton, hpiece, flush_addAll]
      simp
    · have hcomma : flat [Text.byte ','] = [Text.byte ','] := flat_of_not_mem (by decide)
      rw [Text.joinWith_cons _ _ hrest, flat_append, flat_append, List.foldl_append, List.foldl_append, hpiece, hcomma,
        List.foldl_cons, List.foldl_nil, Splitting.read_comma ⟨rfl, rfl, rfl⟩, flush_addAll,
        ih hrest fun p hp => h p (List.mem_cons_of_mem _ hp)]
      simp

/-- **A list comes apart** into its pieces. -/
theorem split_joinWith {pieces : List Text} (hne : pieces ≠ []) (h : ∀ piece ∈ pieces, Stays piece) :
    split (flat (Text.joinWith [Text.byte ','] pieces)) = pieces.flatMap attributeOf := by
  unfold split
  rw [foldl_read_joinWith hne h []]
  simp

end AttributeList

/-! ## §4 Single attributes -/

theorem unquote_eq_self_iff {text : Text} :
    unquote text = text ↔ text.trim = text ∧ Text.trimOf "\" \t" text = text := by
  constructor
  · intro h
    -- trimming twice can only leave everything if trimming once does
    have htrim : text.trim.length ≤ text.length := by
      rw [Text.trim_eq, List.length_map]
      have hle := (Text.dropEnds_sublist (·.2) (Text.marks text)).length_le
      have hmarks := congrArg List.length (Text.map_fst_marks text)
      rw [List.length_map] at hmarks
      omega
    have hquotes : (unquote text).length ≤ text.trim.length := (Text.dropEnds_sublist _ _).length_le
    have hself : text.trim = text := by
      rw [Text.trim_eq_self_iff]
      apply (Text.dropEnds_sublist _ _).eq_of_length_le
      have hmarks := congrArg List.length (Text.map_fst_marks text)
      have hdropped : (Text.dropEnds (·.2) (Text.marks text)).length = text.trim.length := by
        rw [Text.trim_eq, List.length_map]
      rw [List.length_map] at hmarks
      rw [h] at hquotes
      omega
    refine ⟨hself, ?_⟩
    unfold unquote at h
    rwa [hself] at h
  · rintro ⟨htrim, hquotes⟩
    unfold unquote
    rw [htrim, hquotes]

/-- A text that unquoting does not change is found between blanks. -/
theorem unquote_pad {text before after : Text} (h : unquote text = text) (hbefore : Text.IsBlanks before)
    (hafter : Text.IsBlanks after) : unquote (before ++ text ++ after) = text := by
  obtain ⟨htrim, hquotes⟩ := unquote_eq_self_iff.mp h
  unfold unquote
  rw [Text.trim_pad hbefore hafter, htrim, hquotes]

/-- A quotation with blanks around it is what stands between the quotes, without quotes, spaces and tabs at its ends. -/
theorem unquote_quotation {before after : Text} (hbefore : Text.IsBlanks before) (hafter : Text.IsBlanks after)
    (text : Text) : unquote (before ++ quotation text ++ after) = Text.trimOf "\" \t" text := by
  have hmarks : Text.marks (quotation text) =
      (Text.byte '"', false) :: Text.marks text ++ [(Text.byte '"', false)] := by
    rw [quotation, List.cons_append, Text.marks_cons_of_lt (by decide), Text.marks_append_cons (by decide)]
    rfl
  have htrim : Text.trim (quotation text) = [Text.byte '"'] ++ text ++ [Text.byte '"'] := by
    rw [Text.trim_eq_self_iff.mpr]
    · rfl
    · rw [hmarks]
      exact Text.dropEnds_append_cons (by simp) rfl rfl
  have hquote : ∀ b ∈ [Text.byte '"'], (Text.ofString "\" \t").contains b = true :=
    List.forall_mem_singleton.mpr (by decide)
  unfold unquote
  rw [Text.trim_pad hbefore hafter, htrim, Text.trimOf_eq, Text.trimOf_eq, Text.dropEnds_pad hquote hquote]

theorem unquote_of_isBlanks {text : Text} (h : Text.IsBlanks text) : unquote text = [] := by
  unfold unquote
  rw [Text.trim_of_isBlanks h]
  rfl

/-- A text that can be an attribute in quotes. -/
structure AttributeText (text : Text) : Prop where
  quoted : QuotedText text
  ne_nil : text ≠ []
  unquote : unquote text = text

namespace AttributeList

theorem isBlanks_flat (white : White) : Text.IsBlanks (flat white.text) := by
  intro b hb
  obtain ⟨c, hc, rfl⟩ := List.mem_map.mp hb
  have hwhite := List.all_eq_true.mp white.blank c hc
  rw [Bool.or_eq_true, isGapByte_iff, decide_eq_true_eq] at hwhite
  rcases hwhite with (rfl | rfl) | rfl <;> decide

/-- **A written list comes apart into its attributes**, whatever its layout, if splitting goes over each of them and finds
its value between the blanks. -/
theorem split_layout {α : Type} {write value : α → Text} (list : Attributes α)
    (hstays : ∀ a ∈ list.contents, Stays (write a))
    (hvalue : ∀ a ∈ list.contents, ∀ before after, Text.IsBlanks before → Text.IsBlanks after →
      unquote (before ++ flat (write a) ++ after) = value a ∧ value a ≠ []) :
    split (flat (list.layout write)) = list.contents.map value := by
  -- an empty list is one piece of white space, and any other list has one piece for each attribute
  unfold Attributes.layout Attributes.contents
  split
  · next hitems =>
    have hempty : split (flat (Text.joinWith [Text.byte ','] [list.empty.text])) = _ :=
      split_joinWith (by simp) (by simpa using White.stays list.empty)
    rw [Text.joinWith_singleton] at hempty
    rw [hempty, hitems]
    simp [attributeOf, unquote_of_isBlanks (isBlanks_flat list.empty)]
  · next hitems =>
    rw [split_joinWith (by simpa using hitems)]
    · rw [List.flatMap_map, List.map_map, List.map_eq_flatMap]
      apply List.flatMap_congr
      intro item hitem
      obtain ⟨hunquote, hne⟩ := hvalue _ (List.mem_map_of_mem hitem) (flat item.before.text) (flat item.after.text)
        (isBlanks_flat _) (isBlanks_flat _)
      rw [Function.comp_apply, attributeOf, Spaced.layout, flat_append, flat_append, hunquote]
      simpa using hne
    · intro piece hpiece
      obtain ⟨item, hitem, rfl⟩ := List.mem_map.mp hpiece
      exact ((White.stays _).append (hstays _ (List.mem_map_of_mem hitem))).append (White.stays _)

/-- An attribute in quotes is read back. -/
theorem unquote_attribute {text : Text} (h : AttributeText text) {before after : Text}
    (hbefore : Text.IsBlanks before) (hafter : Text.IsBlanks after) :
    unquote (before ++ flat (quotation text) ++ after) = text := by
  rw [flat_quotation, flat_of_not_mem h.quoted.2.2, unquote_quotation hbefore hafter]
  exact (unquote_eq_self_iff.mp h.unquote).2

/-- **A written list comes apart into its attributes**, whatever its layout. -/
theorem split_list {α : Type} {spell : α → Text} (list : Attributes α)
    (h : ∀ a ∈ list.contents, AttributeText (spell a)) : split (flat (list.text spell)) = list.contents.map spell := by
  rw [Attributes.text_eq]
  refine split_layout list (fun a ha => stays_quotation (h a ha).quoted) fun a ha before after hbefore hafter => ?_
  exact ⟨unquote_attribute (h a ha) hbefore hafter, (h a ha).ne_nil⟩

end AttributeList

/-! ## §5 Keys and values -/

/-- What may stand behind a key: a text that is not changed by unquoting. -/
structure IsValue (value : Text) : Prop where
  quoted : QuotedText value
  unquote : unquote value = value

def keyed (key value : Text) : Text := key ++ Text.byte '=' :: value

theorem not_quote_of_isIdentifierByte {b : UInt8} (h : Text.isIdentifierByte b = true) :
    (Text.ofString "\" \t").contains b = false := by
  have hset : ((Text.ofString "\" \t").all fun c => !Text.isIdentifierByte c) = true := by decide
  rw [← Bool.not_eq_true, List.contains_iff_mem]
  intro hmem
  have hbyte := List.all_eq_true.mp hset b hmem
  simp [h] at hbyte

theorem unquote_of_isIdentifier {name : Text} (h : Text.isIdentifier name = true) : unquote name = name := by
  have hbytes := Text.forall_mem_of_isIdentifier h
  refine unquote_eq_self_iff.mpr ⟨Text.trim_of_isIdentifier h, ?_⟩
  rw [Text.trimOf_eq, Text.dropEnds_eq_self_iff]
  exact ⟨fun b hb => not_quote_of_isIdentifierByte (hbytes b (List.mem_of_mem_head? hb)),
    fun b hb => not_quote_of_isIdentifierByte (hbytes b (List.mem_of_mem_getLast? hb))⟩

theorem unquote_keyed {key value : Text} (hkey : Text.isIdentifier key = true) (hvalue : unquote value = value) :
    unquote (keyed key value) = keyed key value := by
  obtain ⟨htrim, hquotes⟩ := unquote_eq_self_iff.mp hvalue
  obtain ⟨first, rest, rfl⟩ := List.exists_cons_of_ne_nil (Text.ne_nil_of_isIdentifier hkey)
  have hfirst := Text.forall_mem_of_isIdentifier hkey first List.mem_cons_self
  refine unquote_eq_self_iff.mpr ⟨?_, ?_⟩
  · rw [Text.trim_eq_self_iff, keyed, Text.marks_append_cons (by decide),
      Text.marks_cons_of_lt (Text.lt_of_isIdentifierByte hfirst), Text.isBlankByte_of_isIdentifierByte hfirst]
    exact Text.dropEnds_append_cons (by simp) (by decide) (Text.trim_eq_self_iff.mp htrim)
  · exact Text.dropEnds_append_cons (by simpa using not_quote_of_isIdentifierByte hfirst) (by decide) hquotes

theorem attributeText_keyed {key value : Text} (hkey : Text.isIdentifier key = true) (hvalue : IsValue value) :
    AttributeText (keyed key value) where
  quoted := by
    have hnot : ∀ {b : UInt8}, b ∉ value → Text.isIdentifierByte b = false → b ≠ Text.byte '=' →
        b ∉ keyed key value := by
      intro b hb hidentifier hne
      simp only [keyed, List.mem_append, List.mem_cons, not_or]
      exact ⟨Text.not_mem_of_isIdentifier hkey hidentifier, hne, hb⟩
    exact ⟨hnot hvalue.quoted.1 (by decide) (by decide), hnot hvalue.quoted.2.1 (by decide) (by decide),
      hnot hvalue.quoted.2.2 (by decide) (by decide)⟩
  ne_nil := by simp [keyed]
  unquote := unquote_keyed hkey hvalue.unquote

/-- **An attribute comes apart** into its key and its value. -/
theorem keyValue?_keyed {key value : Text} (hkey : Text.isIdentifier key = true) (hvalue : unquote value = value) :
    keyValue? (keyed key value) = some (key, value) := by
  have hcut : Text.cut "=" (keyed key value) = some (key, value) :=
    Text.cut_byte (Text.not_mem_of_isIdentifier hkey (by decide)) value
  unfold keyValue?
  rw [unquote_keyed hkey hvalue, hcut, Option.map_some]
  dsimp only
  rw [unquote_of_isIdentifier hkey, hvalue]

end HeaderReflection
