import HeaderReflection.Proofs.Text.Order
import HeaderReflection.Proofs.Text.Words
import HeaderReflection.Table.Shared

/-!
# Reading and updating block documents

How a document is read line by line, which text each of its blocks has under its name, and what becomes of its pieces
when the block of one module is replaced.

## Main definitions

- `Block.writtenLines`: the lines of a text as blocks hold them, before they are indented.

## Main results

- `parseLines_plain`, `parseLines_block`: plain lines and whole blocks are read one after the other.
- `get?_bodiesOf`: the text under a name is that of the last block with that name.
- `missingNames_set_bodies`: replacing the block of a module adds at most the block of that module.
- `writtenLines_unlines_iff`: which lines are written as they are.
- `bodyOfText_unlines`: the lines of a text are the lines of the body that holds it.
-/

namespace HeaderReflection

/-! ## §1 Bodies -/

namespace Text

theorem exists_unlines_concat (lines : List Text) (last : Text) : ∃ front, unlines (lines ++ [last]) = front ++ last := by
  by_cases hlines : lines = []
  · subst hlines
    exact ⟨[], rfl⟩
  · exact ⟨unlines lines ++ [lineFeed], joinWith_append _ hlines (by simp)⟩

/-- Lines that all have their end are the lines of a text with one more line end. -/
theorem flatMap_ended {lines : List Text} (h : lines ≠ []) :
    lines.flatMap (· ++ [lineFeed]) = unlines lines ++ [lineFeed] := by
  induction lines with
  | nil => exact absurd rfl h
  | cons line lines ih =>
    by_cases hne : lines = []
    · subst hne
      simp [unlines]
    · rw [List.flatMap_cons, ih hne, unlines, unlines, joinWith_cons _ _ hne]
      simp

theorem trimEndOf_prefix (set text : Text) : trimEndOf set text <+: text := by
  have hprefix := List.reverse_prefix.mpr (List.dropWhile_suffix (l := text.reverse) set.contains)
  rwa [List.reverse_reverse] at hprefix

/-- A text whose last line is not empty ends in no line feed. -/
theorem trimEndOf_unlines {lines : List Text} {last : Text} (hlast : last ≠ []) (hfeed : lineFeed ∉ last) :
    trimEndOf [lineFeed] (unlines (lines ++ [last])) = unlines (lines ++ [last]) := by
  obtain ⟨text, htext⟩ := exists_unlines_concat lines last
  obtain ⟨start, b, rfl⟩ : ∃ start b, last = start ++ [b] := ⟨_, _, (List.dropLast_append_getLast hlast).symm⟩
  rw [htext, ← List.append_assoc]
  refine trimEndOf_append_of_not_mem ?_ _
  simp only [List.mem_append, List.mem_singleton, not_or] at hfeed ⊢
  exact Ne.symm hfeed.2

/-- The last line of a text without line feeds at its end is empty only if there is no other one. -/
theorem trimEndOf_eq_nil_of_getLast? {text : Text}
    (h : (splitOn lineFeed (trimEndOf [lineFeed] text)).getLast? = some []) : trimEndOf [lineFeed] text = [] := by
  induction text using List.reverseRecOn with
  | nil => rfl
  | append_singleton text b ih =>
    by_cases hb : b = lineFeed
    · subst hb
      rw [trimEndOf_append_mem (List.mem_singleton_self _)] at h ⊢
      exact ih h
    · rw [trimEndOf_append_of_not_mem (by simpa using hb)] at h
      -- an empty last line stands behind a line feed, and this text ends in another byte
      obtain ⟨front, hfront⟩ := List.getLast?_eq_some_iff.mp h
      have hjoin := joinWith_splitOn lineFeed (text ++ [b])
      rw [hfront] at hjoin
      by_cases hnil : front = []
      · subst hnil
        simp at hjoin
      · rw [joinWith_append _ hnil (by simp), joinWith_singleton, List.append_nil] at hjoin
        exact absurd (List.append_singleton_inj.mp hjoin).2.symm hb

end Text

namespace Block

/-- Whether a line can stand in a body: it is no blank, and neither it nor its indented form is cut or taken for a
marker when the document is read again. -/
structure BodyLine (indent line : Text) : Prop where
  visible : line.isBlank = false
  unbroken : Text.lineFeed ∉ line
  noStart : ofMarkerLine? startMarker (indent ++ line) = none
  noEnd : ofMarkerLine? endMarker (indent ++ line) = none

theorem ne_nil_of_visible {line : Text} (h : line.isBlank = false) : line ≠ [] := by
  rintro rfl
  cases h

@[simp] theorem indentLine_nil (indent : Text) : indentLine indent [] = [] := rfl

theorem indentLine_of_visible {line : Text} (h : line.isBlank = false) (indent : Text) :
    indentLine indent line = indent ++ line := by
  rw [indentLine, h]
  rfl

/-- A line as a body holds it, without indentation, is empty or no blank. -/
theorem indentLine_empty (line : Text) :
    indentLine [] line = [] ∧ line.isBlank = true ∨ indentLine [] line = line ∧ line.isBlank = false := by
  cases h : line.isBlank with
  | true => exact Or.inl ⟨by rw [indentLine, h]; rfl, rfl⟩
  | false => exact Or.inr ⟨by rw [indentLine, h]; rfl, rfl⟩

theorem indentLine_indentLine (indent line : Text) : indentLine indent (indentLine [] line) = indentLine indent line := by
  rcases indentLine_empty line with ⟨hline, hblank⟩ | ⟨hline, -⟩
  · rw [hline, indentLine_nil, indentLine, hblank]
    rfl
  · rw [hline]

theorem trimPrefix_indentLine {line : Text} (h : line = [] ∨ line.isBlank = false) (indent : Text) :
    Text.trimPrefix indent (indentLine indent line) = line := by
  rcases h with rfl | hvisible
  · exact List.eq_nil_of_subset_nil (Text.subset_trimPrefix indent [])
  · rw [indentLine_of_visible hvisible, Text.trimPrefix_append]

/-- The lines of a text as blocks hold them, before they are indented: blank lines are empty, and line ends at the end of
the text do not count. -/
def writtenLines (text : Text) : List Text := bodyOfText [] text

/-- **A body at any indentation** has the same lines. -/
theorem bodyOfText_eq (indent text : Text) : bodyOfText indent text = (writtenLines text).map (indentLine indent) := by
  unfold writtenLines bodyOfText
  split
  · rfl
  · rw [List.map_map]
    exact List.map_congr_left fun line _ => (indentLine_indentLine indent line).symm

theorem mem_writtenLines {text line : Text} (h : line ∈ writtenLines text) :
    (line = [] ∨ line.isBlank = false) ∧ Text.lineFeed ∉ line := by
  unfold writtenLines bodyOfText at h
  split at h
  · cases h
  · obtain ⟨inner, hinner, rfl⟩ := List.mem_map.mp h
    rcases indentLine_empty inner with ⟨hline, -⟩ | ⟨hline, hvisible⟩
    · rw [hline]
      exact ⟨Or.inl rfl, by simp⟩
    · rw [hline]
      exact ⟨Or.inr hvisible, Text.not_mem_of_mem_splitOn hinner⟩

/-- Lines that bodies can hold are told by the bodies that hold them, at any indentation. -/
theorem map_trimPrefix_indentLine {lines : List Text} (h : ∀ line ∈ lines, line = [] ∨ line.isBlank = false)
    (indent : Text) : (lines.map (indentLine indent)).map (Text.trimPrefix indent) = lines := by
  rw [List.map_map]
  exact (List.map_congr_left fun line hline => trimPrefix_indentLine (h line hline) indent).trans (List.map_id _)

theorem length_writtenLines_le {lines : List Text} (hfeed : ∀ line ∈ lines, Text.lineFeed ∉ line) :
    (writtenLines (Text.unlines (lines ++ [[]]))).length ≤ lines.length := by
  by_cases hlines : lines = []
  · subst hlines
    exact le_refl 0
  · have htext : Text.unlines (lines ++ [[]]) = Text.unlines lines ++ [Text.lineFeed] := by
      rw [Text.unlines, Text.joinWith_append _ hlines (by simp), Text.joinWith_singleton, List.append_nil]
      rfl
    -- what is left when the line ends are taken off holds no more line feeds, so no line is gained
    have hcount : (Text.trimEndOf [Text.lineFeed] (Text.unlines lines)).count Text.lineFeed ≤
        (Text.unlines lines).count Text.lineFeed :=
      (Text.trimEndOf_prefix _ _).sublist.count_le _
    have hlength := Text.length_splitOn Text.lineFeed (Text.unlines lines)
    rw [Text.splitOn_unlines hlines hfeed] at hlength
    rw [writtenLines, bodyOfText, if_neg (by simp [htext]), htext,
      Text.trimEndOf_append_mem (List.mem_singleton_self _), List.length_map, Text.length_splitOn]
    omega

/-- **Lines that are put together and written** are the lines there have been, each as blocks hold it, exactly when the
last of them is not empty. -/
theorem writtenLines_unlines_iff {lines : List Text} (hfeed : ∀ line ∈ lines, Text.lineFeed ∉ line) :
    writtenLines (Text.unlines lines) = lines.map (indentLine []) ↔ lines.getLast? ≠ some [] := by
  obtain rfl | ⟨front, last, rfl⟩ := lines.eq_nil_or_concat
  · exact ⟨fun _ => by simp, fun _ => rfl⟩
  · rw [List.concat_eq_append] at hfeed ⊢
    rw [List.getLast?_concat, ne_eq, Option.some.injEq]
    constructor
    · -- an empty line at the end is lost
      rintro hlines rfl
      have hlength := length_writtenLines_le fun line hline => hfeed line (List.mem_append_left _ hline)
      rw [hlines, List.length_map, List.length_append] at hlength
      exact absurd hlength (by simp)
    · intro hlast
      have hne : Text.unlines (front ++ [last]) ≠ [] := by
        obtain ⟨text, htext⟩ := Text.exists_unlines_concat front last
        simp [htext, hlast]
      rw [writtenLines, bodyOfText, if_neg hne, Text.trimEndOf_unlines hlast (hfeed last (by simp)),
        Text.splitOn_unlines (by simp) hfeed]

section Visible

variable {lines : List Text} (hvisible : ∀ line ∈ lines, line.isBlank = false)

include hvisible

theorem map_indentLine (indent : Text) : lines.map (indentLine indent) = lines.map (indent ++ ·) :=
  List.map_congr_left fun line hline => indentLine_of_visible (hvisible line hline) indent

theorem writtenLines_unlines (hfeed : ∀ line ∈ lines, Text.lineFeed ∉ line) :
    writtenLines (Text.unlines lines) = lines := by
  have hlast : lines.getLast? ≠ some [] := by
    intro hlast
    exact ne_nil_of_visible (hvisible [] (List.mem_of_getLast? hlast)) rfl
  rw [(writtenLines_unlines_iff hfeed).mpr hlast, map_indentLine hvisible]
  exact List.map_id _

theorem writtenLines_ended (hfeed : ∀ line ∈ lines, Text.lineFeed ∉ line) :
    writtenLines (lines.flatMap (· ++ [Text.lineFeed])) = lines := by
  by_cases hlines : lines = []
  · subst hlines
    rfl
  · have hne : Text.unlines lines ≠ [] := by
      intro hnil
      have hlines' := writtenLines_unlines hvisible hfeed
      rw [hnil] at hlines'
      exact hlines hlines'.symm
    have hsame : writtenLines (Text.unlines lines ++ [Text.lineFeed]) = writtenLines (Text.unlines lines) := by
      rw [writtenLines, writtenLines, bodyOfText, bodyOfText, if_neg (by simp), if_neg hne,
        Text.trimEndOf_append_mem (List.mem_singleton_self _)]
    rw [Text.flatMap_ended hlines, hsame, writtenLines_unlines hvisible hfeed]

end Visible

/-- **The lines of a text are the lines of the body that holds it**, if they can stand in a body. -/
theorem bodyOfText_unlines {indent : Text} {lines : List Text} (h : ∀ line ∈ lines, BodyLine indent line) :
    bodyOfText indent (Text.unlines lines) = lines.map (indent ++ ·) := by
  have hvisible : ∀ line ∈ lines, line.isBlank = false := fun line hline => (h line hline).visible
  rw [bodyOfText_eq, writtenLines_unlines hvisible fun line hline => (h line hline).unbroken, map_indentLine hvisible]

/-- The lines of a text whose lines all have their end. -/
theorem bodyOfText_ended {indent : Text} {lines : List Text} (h : ∀ line ∈ lines, BodyLine indent line) :
    bodyOfText indent (lines.flatMap (· ++ [Text.lineFeed])) = lines.map (indent ++ ·) := by
  have hvisible : ∀ line ∈ lines, line.isBlank = false := fun line hline => (h line hline).visible
  rw [bodyOfText_eq, writtenLines_ended hvisible fun line hline => (h line hline).unbroken, map_indentLine hvisible]

/-- **The text of a block** that has got a text, whatever the block's indentation is. -/
theorem text_setText (b : Block) (text : Text) : (b.setText text).text = Text.unlines (writtenLines text) := by
  have hlines : (bodyOfText b.indent text).map (Text.trimPrefix b.indent) = writtenLines text := by
    rw [bodyOfText_eq]
    exact map_trimPrefix_indentLine (fun line hline => (mem_writtenLines hline).1) b.indent
  rw [Block.text]
  exact congrArg Text.unlines hlines

/-- A block whose body lines are indented like the block holds their text. -/
theorem text_of_body {b : Block} {lines : List Text} (h : b.body = lines.map (b.indent ++ ·)) :
    b.text = Text.unlines lines := by
  rw [text, h, List.map_map]
  simp [Function.comp_def]

end Block

namespace BlockDocument

/-! ## §2 Reading -/

/-- A line outside of blocks: it is no marker. -/
structure PlainLine (line : Text) : Prop where
  noStart : Block.ofMarkerLine? Block.startMarker line = none
  noEnd : Block.ofMarkerLine? Block.endMarker line = none

/-- Plain lines are read as they are. -/
theorem parseLines_plain {before rest : List Text} {nodes : List BlockNode} (hplain : ∀ line ∈ before, PlainLine line)
    (hrest : ∀ number, parseLines number none rest = .ok nodes) (number : Nat) :
    parseLines number none (before ++ rest) = .ok (before.map .line ++ nodes) := by
  induction before generalizing number with
  | nil => exact hrest number
  | cons line before ih =>
    have hline := hplain line List.mem_cons_self
    have hbefore := ih (fun l hl => hplain l (List.mem_cons_of_mem _ hl)) (number + 1)
    rw [List.cons_append, parseLines, hline.noStart, hline.noEnd]
    simp only [hbefore]
    rfl

/-- An open block takes the lines up to its end marker. -/
theorem parseLines_open {b : Block} {finish : Text} {body rest : List Text} {nodes : List BlockNode}
    (hbody : ∀ line ∈ body, PlainLine line)
    (hfinish : ∃ indent, Block.ofMarkerLine? Block.endMarker finish = some (b.name, indent))
    (hrest : ∀ number, parseLines number none rest = .ok nodes) (number : Nat) :
    parseLines number (some b) (body ++ finish :: rest) =
      .ok (.block { b with body := b.body ++ body, finish := finish } :: nodes) := by
  induction body generalizing b number with
  | nil =>
    obtain ⟨indent, hfinish⟩ := hfinish
    rw [List.nil_append, parseLines, hfinish]
    simp only [if_true, hrest, List.append_nil]
    rfl
  | cons line body ih =>
    have hline := hbody line List.mem_cons_self
    have hlines : ∀ l ∈ body, PlainLine l := fun l hl => hbody l (List.mem_cons_of_mem _ hl)
    rw [List.cons_append, parseLines, hline.noEnd, hline.noStart]
    have hnext := ih (b := { b with body := b.body ++ [line] }) hlines hfinish (number + 1)
    simpa using hnext

/-- Whether a block is read back from its lines. -/
structure ReadsBack (b : Block) : Prop where
  start : Block.ofMarkerLine? Block.startMarker b.start = some (b.name, b.indent)
  finish : ∃ indent, Block.ofMarkerLine? Block.endMarker b.finish = some (b.name, indent)
  body : ∀ line ∈ b.body, PlainLine line

/-- **A whole block** is read from its lines. -/
theorem parseLines_block {b : Block} {rest : List Text} {nodes : List BlockNode} (hb : ReadsBack b)
    (hrest : ∀ number, parseLines number none rest = .ok nodes) (number : Nat) :
    parseLines number none (b.lines ++ rest) = .ok (.block b :: nodes) := by
  have hopen := parseLines_open (b := { Block.ofName b.name b.indent with start := b.start }) hb.body hb.finish hrest
    (number + 1)
  rw [Block.lines, List.cons_append, List.cons_append, List.append_assoc, List.singleton_append, parseLines, hb.start]
  simpa [Block.ofName] using hopen

/-! ## §3 Texts by name -/

theorem get?_set (bodies : Bodies) (name text other : Text) :
    (bodies.set name text).get? other = if other = name then some text else bodies.get? other := by
  have hkeep : other ≠ name →
      (bodies.filter (·.1 ≠ name)).find? (·.1 = other) = bodies.find? (·.1 = other) := by
    intro hne
    rw [List.find?_filter]
    congr 1
    funext entry
    by_cases he : entry.1 = other
    · simp [he, hne]
    · simp [he]
  rw [Bodies.get?, Bodies.set, List.find?_append]
  by_cases h : other = name
  · subst h
    have hnone : (bodies.filter (·.1 ≠ other)).find? (·.1 = other) = none := by simp
    rw [hnone]
    simp
  · rw [hkeep h]
    simp [h, Ne.symm h, Bodies.get?]

theorem mem_keys_set {bodies : Bodies} {name text other : Text} :
    other ∈ (bodies.set name text).map (·.1) ↔ other = name ∨ other ∈ bodies.map (·.1) := by
  simp only [Bodies.set, List.map_append, List.mem_append, List.map_cons, List.map_nil, List.mem_singleton,
    List.mem_map, List.mem_filter]
  constructor
  · rintro (⟨entry, ⟨hmem, -⟩, rfl⟩ | rfl)
    · exact Or.inr ⟨entry, hmem, rfl⟩
    · exact Or.inl rfl
  · rintro (rfl | ⟨entry, hmem, rfl⟩)
    · exact Or.inr rfl
    · by_cases h : entry.1 = name
      · exact Or.inr h
      · exact Or.inl ⟨entry, ⟨hmem, by simpa using h⟩, rfl⟩

theorem mem_of_get?_eq_some {bodies : Bodies} {name text : Text} (h : bodies.get? name = some text) :
    (name, text) ∈ bodies := by
  obtain ⟨entry, hentry, rfl⟩ := Option.map_eq_some_iff.mp h
  have hname : entry.1 = name := by simpa using List.find?_some hentry
  rw [← hname]
  exact List.mem_of_find?_eq_some hentry

theorem exists_get?_of_mem_keys {bodies : Bodies} {name : Text} (h : name ∈ bodies.map (·.1)) :
    ∃ text, bodies.get? name = some text := by
  obtain ⟨entry, hentry, rfl⟩ := List.mem_map.mp h
  rw [Bodies.get?, ← Option.isSome_iff_exists, Option.isSome_map, List.find?_isSome]
  exact ⟨entry, hentry, decide_eq_true rfl⟩

/-- The texts of some blocks by their names. -/
def bodiesOf (blocks : List Block) : Bodies := blocks.foldl (fun bodies b => bodies.set b.name b.text) []

theorem bodiesOf_concat (blocks : List Block) (b : Block) :
    bodiesOf (blocks ++ [b]) = (bodiesOf blocks).set b.name b.text := by
  simp [bodiesOf, List.foldl_append]

/-- **The text under a name** is that of the last block with that name. -/
theorem get?_bodiesOf (blocks : List Block) (name : Text) :
    (bodiesOf blocks).get? name = (blocks.reverse.find? (·.name = name)).map Block.text := by
  induction blocks using List.reverseRecOn with
  | nil => rfl
  | append_singleton blocks b ih =>
    rw [bodiesOf_concat, get?_set, ih, List.reverse_concat, List.find?_cons]
    by_cases h : name = b.name
    · simp [h]
    · simp [h, Ne.symm h]

theorem mem_keys_bodiesOf {blocks : List Block} {name : Text} :
    name ∈ (bodiesOf blocks).map (·.1) ↔ ∃ b ∈ blocks, b.name = name := by
  induction blocks using List.reverseRecOn with
  | nil => simp [bodiesOf]
  | append_singleton blocks b ih =>
    rw [bodiesOf_concat, mem_keys_set, ih]
    constructor
    · rintro (rfl | ⟨c, hc, rfl⟩)
      · exact ⟨b, by simp, rfl⟩
      · exact ⟨c, by simp [hc], rfl⟩
    · rintro ⟨c, hc, rfl⟩
      rcases List.mem_append.mp hc with hc | hc
      · exact Or.inr ⟨c, hc, rfl⟩
      · rw [List.mem_singleton.mp hc]
        exact Or.inl rfl

theorem block?_eq_none_iff {d : BlockDocument} {name : Text} :
    d.block? name = none ↔ ∀ b ∈ d.blocks, b.name ≠ name := by
  simp [block?]

theorem mem_missingNames {d : BlockDocument} {bodies : Bodies} {name : Text} :
    name ∈ d.missingNames bodies ↔ name ∈ bodies.map (·.1) ∧ ∀ b ∈ d.blocks, b.name ≠ name := by
  rw [missingNames, Text.sort, mem_sortBy, List.mem_filter, Option.isNone_iff_eq_none, block?_eq_none_iff]

/-- **Replacing the block of a module** adds its block where there is none, and no other. -/
theorem missingNames_set_bodies (d : BlockDocument) (module body : Text) :
    d.missingNames (d.bodies.set module body) = if (d.block? module).isSome then [] else [module] := by
  have hold : ((d.bodies.filter (·.1 ≠ module)).map (·.1)).filter (fun name => (d.block? name).isNone) = [] := by
    rw [List.filter_eq_nil_iff]
    intro name hname hnone
    obtain ⟨entry, hentry, rfl⟩ := List.mem_map.mp hname
    have hkey : entry.1 ∈ (bodiesOf d.blocks).map (·.1) := List.mem_map_of_mem (List.mem_filter.mp hentry).1
    obtain ⟨b, hb, hbname⟩ := mem_keys_bodiesOf.mp hkey
    exact block?_eq_none_iff.mp (Option.isNone_iff_eq_none.mp hnone) b hb hbname
  rw [missingNames, Bodies.set, List.map_append, List.filter_append, hold]
  cases hblock : d.block? module with
  | none => simp [hblock, Text.sort, sortBy, insertBy]
  | some b => simp [hblock, Text.sort, sortBy]

theorem eq_of_mem_missingNames_set {d : BlockDocument} {module body name : Text}
    (h : name ∈ d.missingNames (d.bodies.set module body)) : name = module := by
  rw [missingNames_set_bodies] at h
  split at h
  · cases h
  · exact List.mem_singleton.mp h

end BlockDocument

end HeaderReflection
