import HeaderReflection.Proofs.Outcome
import HeaderReflection.Proofs.Table.Updates
import HeaderReflection.Proofs.Text.Fields

/-!
# Reading a table back after an update

A table that is found in a file may be any text whose markers pair up: it may have several blocks of one name, blocks
at any indentation, no sentinel, and stray carriage returns. After texts have been applied to it, the text is still
one whose markers pair up, and every block of a name with a text holds that text. This is what happens when a module
writes its block.

Two facts carry this. Whether a line is a marker depends on what is left of it when it is trimmed, so neither another
indentation nor a carriage return at its end matters. And what is read from a text are pieces that can be read again.

## Main definitions

- `IsIndent`: spaces and tabs.
- `BlockName`: a name that a marker can carry.
- `BlockDocument.Readable`: a document whose pieces are read again from their lines.
- `SameButReturn`: two lines that differ in at most a carriage return at the end.
- `BlockDocument.TellsEnd`: a document whose text tells if the last line has an end.
- `PlainText`: a text that can be the body of a block.
- `BlockDocument.Patched`: what stands in a document after texts have been applied to it.

## Main results

- `lines_of_parseLines`: the pieces that are read hold the lines they are read from.
- `Readable.of_parse`: what is read from a text can be read again.
- `Readable.parse_render`, `Readable.parse_render_nodes`: such a document is read from its text, but for carriage
  returns.
- `Readable.apply`: applying texts keeps it so.
- `parse_updateTable`: what is read from an updated table.
- `SharedTable.parse_update`: what is read from an update of one of the two tables.
-/

namespace HeaderReflection

open BlockDocument (defaultIndent PlainLine ReadsBack parseLines)

/-! ## §1 Markers -/

/-- Whether a byte is a space or a tab. -/
def isIndentByte (b : UInt8) : Bool := b = Text.byte ' ' || b = Text.byte '\t'

/-- Nothing but spaces and tabs. -/
def IsIndent (indent : Text) : Prop := ∀ b ∈ indent, isIndentByte b = true

theorem IsIndent.isBlanks {indent : Text} (h : IsIndent indent) : Text.IsBlanks indent := by
  intro b hb
  have hbyte := h b hb
  rw [isIndentByte, Bool.or_eq_true, decide_eq_true_iff, decide_eq_true_iff] at hbyte
  rcases hbyte with rfl | rfl
  · decide
  · decide

theorem isIndent_defaultIndent : IsIndent defaultIndent := by
  have hall : defaultIndent.all isIndentByte = true := by decide
  exact List.all_eq_true.mp hall

theorem ofMarkerLine?_eq (marker line : Text) :
    Block.ofMarkerLine? marker line =
      (Text.stripPrefix? marker line.trim).map fun rest => (Text.trim rest, line.takeWhile isIndentByte) :=
  rfl

theorem isIndent_of_marker {marker line name indent : Text} (h : Block.ofMarkerLine? marker line = some (name, indent)) :
    IsIndent indent := by
  rw [ofMarkerLine?_eq] at h
  obtain ⟨rest, -, heq⟩ := Option.map_eq_some_iff.mp h
  cases heq
  exact fun b hb => List.mem_takeWhile_imp hb

theorem IsIndent.not_mem {indent : Text} (h : IsIndent indent) {c : UInt8} (hc : isIndentByte c = false) :
    c ∉ indent := by
  intro hmem
  rw [h c hmem] at hc
  cases hc

theorem ofMarkerLine?_eq_none_iff {marker line : Text} :
    Block.ofMarkerLine? marker line = none ↔ Text.stripPrefix? marker line.trim = none :=
  Option.map_eq_none_iff

/-- **Whether a line is a marker** depends on what is left of it when it is trimmed. -/
theorem BlockDocument.PlainLine.of_trim_eq {line line' : Text} (h : PlainLine line) (htrim : line'.trim = line.trim) :
    PlainLine line' := by
  constructor
  · rw [ofMarkerLine?_eq_none_iff, htrim, ← ofMarkerLine?_eq_none_iff]
    exact h.noStart
  · rw [ofMarkerLine?_eq_none_iff, htrim, ← ofMarkerLine?_eq_none_iff]
    exact h.noEnd

theorem plainLine_nil : PlainLine [] := by
  constructor <;> decide +kernel

theorem BlockDocument.PlainLine.indentLine {line : Text} (h : PlainLine line) {indent : Text} (hindent : IsIndent indent) :
    PlainLine (Block.indentLine indent line) := by
  unfold Block.indentLine
  split
  · exact plainLine_nil
  · exact h.of_trim_eq (Text.trim_blanks_append hindent.isBlanks line)

theorem BlockDocument.PlainLine.trimPrefix {line : Text} (h : PlainLine line) {indent : Text} (hindent : IsIndent indent) :
    PlainLine (Text.trimPrefix indent line) := by
  unfold Text.trimPrefix
  cases hstrip : Text.stripPrefix? indent line with
  | none => exact h
  | some rest =>
    apply h.of_trim_eq
    rw [Text.stripPrefix?_eq_some_iff.mp hstrip]
    exact (Text.trim_blanks_append hindent.isBlanks rest).symm

/-- A name that a marker can carry: it is not empty, it fits on a line, and there are no blanks around it. -/
structure BlockName (name : Text) : Prop where
  ne_nil : name ≠ []
  unbroken : Text.lineFeed ∉ name
  trimmed : name.trim = name

theorem BlockName.of_isIdentifier {name : Text} (h : Text.isIdentifier name = true) : BlockName name :=
  ⟨Text.ne_nil_of_isIdentifier h, Text.not_mem_of_isIdentifier h (by decide), Text.trim_of_isIdentifier h⟩

/-- The marker lines of a new block are read back, at any indentation. -/
theorem ofMarkerLine?_indented {marker name indent : Text} (hmarker : ∃ rest, marker = Text.byte '/' :: rest)
    (hlow : ∀ b ∈ marker, b < 128) (hname : BlockName name) (hindent : IsIndent indent) :
    Block.ofMarkerLine? marker (indent ++ marker ++ name) = some (name, indent) := by
  obtain ⟨rest, rfl⟩ := hmarker
  have htrim : (indent ++ (Text.byte '/' :: rest) ++ name).trim = (Text.byte '/' :: rest) ++ name := by
    rw [List.append_assoc, Text.trim_blanks_append hindent.isBlanks]
    exact Text.trim_append_of_trimmed hlow (by decide) hname.ne_nil hname.trimmed
  have htake : (indent ++ (Text.byte '/' :: rest) ++ name).takeWhile isIndentByte = indent := by
    rw [List.append_assoc, List.takeWhile_append_of_pos hindent]
    exact List.append_nil indent
  rw [ofMarkerLine?_eq, htrim, Text.stripPrefix?_append, htake, Option.map_some, hname.trimmed]

theorem BlockDocument.ReadsBack.isIndent {b : Block} (h : ReadsBack b) : IsIndent b.indent := isIndent_of_marker h.start

theorem readsBack_ofName {name indent : Text} (hname : BlockName name) (hindent : IsIndent indent) :
    ReadsBack (Block.ofName name indent) where
  start := ofMarkerLine?_indented ⟨_, rfl⟩ (by decide +kernel) hname hindent
  finish := ⟨indent, ofMarkerLine?_indented ⟨_, rfl⟩ (by decide +kernel) hname hindent⟩
  body := by simp [Block.ofName]

/-! ## §2 Documents that can be read again -/

/-- A piece of a document that is read again from its lines. -/
inductive BlockNode.Readable : BlockNode → Prop where
  | line {text : Text} (plain : PlainLine text) (unbroken : Text.lineFeed ∉ text) : Readable (.line text)
  | block {b : Block} (reads : ReadsBack b) (unbroken : ∀ line ∈ b.lines, Text.lineFeed ∉ line) : Readable (.block b)

theorem BlockNode.Readable.lineFeed_not_mem {node : BlockNode} (h : node.Readable) {line : Text}
    (hline : line ∈ node.lines) : Text.lineFeed ∉ line := by
  cases h with
  | line plain unbroken =>
    rw [List.mem_singleton.mp hline]
    exact unbroken
  | block reads unbroken => exact unbroken line hline

namespace BlockDocument

/-- A document whose pieces are read again from their lines. -/
def Readable (d : BlockDocument) : Prop := ∀ node ∈ d.nodes, node.Readable

theorem parseLines_of_readable {nodes : List BlockNode} (h : ∀ node ∈ nodes, node.Readable) (number : Nat) :
    parseLines number none (nodes.flatMap BlockNode.lines) = .ok nodes := by
  induction nodes generalizing number with
  | nil => rfl
  | cons node nodes ih =>
    have hrest := ih fun n hn => h n (List.mem_cons_of_mem _ hn)
    have hnode := h node List.mem_cons_self
    rw [List.flatMap_cons]
    cases hnode with
    | line plain _ => exact parseLines_plain (List.forall_mem_singleton.mpr plain) hrest number
    | block reads _ => exact parseLines_block reads hrest number

/-- The lines of a block that is still open. -/
def openLines : Option Block → List Text
  | none => []
  | some b => b.start :: b.body

/-- What a line outside blocks is: it opens a block, or it is no marker. -/
theorem parseLines_outside {number : Nat} {line : Text} {lines : List Text} {nodes : List BlockNode}
    (h : parseLines number none (line :: lines) = .ok nodes) :
    (∃ name indent, Block.ofMarkerLine? Block.startMarker line = some (name, indent) ∧
      parseLines (number + 1) (some { Block.ofName name indent with start := line }) lines = .ok nodes) ∨
    (PlainLine line ∧ ∃ rest, parseLines (number + 1) none lines = .ok rest ∧ nodes = .line line :: rest) := by
  rw [parseLines] at h
  cases hmarker : Block.ofMarkerLine? Block.startMarker line with
  | some found =>
    rw [hmarker] at h
    exact Or.inl ⟨found.1, found.2, rfl, h⟩
  | none =>
    rw [hmarker] at h
    cases hend : Block.ofMarkerLine? Block.endMarker line with
    | some found => rw [hend] at h; cases h
    | none =>
      rw [hend] at h
      obtain ⟨rest, hrest, h⟩ := bind_ok h
      cases h
      exact Or.inr ⟨⟨hmarker, hend⟩, rest, hrest, rfl⟩

/-- What a line inside a block is: it closes the block, or it is no marker. -/
theorem parseLines_inside {number : Nat} {b : Block} {line : Text} {lines : List Text} {nodes : List BlockNode}
    (h : parseLines number (some b) (line :: lines) = .ok nodes) :
    (∃ indent, Block.ofMarkerLine? Block.endMarker line = some (b.name, indent) ∧
      ∃ rest, parseLines (number + 1) none lines = .ok rest ∧ nodes = .block { b with finish := line } :: rest) ∨
    (PlainLine line ∧ parseLines (number + 1) (some { b with body := b.body ++ [line] }) lines = .ok nodes) := by
  rw [parseLines] at h
  cases hend : Block.ofMarkerLine? Block.endMarker line with
  | some found =>
    rw [hend] at h
    dsimp only at h
    split at h
    · next hname =>
      obtain ⟨rest, hrest, h⟩ := bind_ok h
      cases h
      exact Or.inl ⟨found.2, by rw [← hname], rest, hrest, rfl⟩
    · cases h
  | none =>
    rw [hend] at h
    cases hmarker : Block.ofMarkerLine? Block.startMarker line with
    | some found => rw [hmarker] at h; cases h
    | none =>
      rw [hmarker] at h
      exact Or.inr ⟨⟨hmarker, hend⟩, h⟩

/-- **The pieces of a document hold all lines that have been read**, in their order. -/
theorem lines_of_parseLines {lines : List Text} {number : Nat} {opened : Option Block} {nodes : List BlockNode}
    (h : parseLines number opened lines = .ok nodes) : nodes.flatMap BlockNode.lines = openLines opened ++ lines := by
  -- along the lines, for any block that is open: the lines of that block are part of the piece that it ends up in
  induction lines generalizing number opened nodes with
  | nil =>
    cases opened with
    | none => cases h; rfl
    | some b => cases h
  | cons line lines ih =>
    cases opened with
    | none =>
      rcases parseLines_outside h with ⟨name, indent, -, h⟩ | ⟨-, rest, hrest, rfl⟩
      · rw [ih h]
        rfl
      · rw [List.flatMap_cons, ih hrest]
        rfl
    | some b =>
      rcases parseLines_inside h with ⟨indent, -, rest, hrest, rfl⟩ | ⟨-, h⟩
      · rw [List.flatMap_cons, ih hrest]
        simp [openLines, BlockNode.lines, Block.lines]
      · rw [ih h]
        simp [openLines]

/-- **What has been read can be read again**: the pieces hold all lines, and in the way in which they have been read. -/
theorem readable_of_parseLines {lines : List Text} {number : Nat} {opened : Option Block} {nodes : List BlockNode}
    (h : parseLines number opened lines = .ok nodes) (hlines : ∀ line ∈ openLines opened ++ lines, Text.lineFeed ∉ line)
    (hstart : ∀ b ∈ opened, Block.ofMarkerLine? Block.startMarker b.start = some (b.name, b.indent))
    (hbody : ∀ b ∈ opened, ∀ line ∈ b.body, PlainLine line) : ∀ node ∈ nodes, node.Readable := by
  -- the block that is open, with what has been read of it, is a part of the lines that have been read
  induction lines generalizing number opened nodes with
  | nil =>
    cases opened with
    | none => cases h; simp
    | some b => cases h
  | cons line lines ih =>
    cases opened with
    | none =>
      rcases parseLines_outside h with ⟨name, indent, hmarker, h⟩ | ⟨hplain, rest, hrest, rfl⟩
      · refine ih h ?_ ?_ ?_
        · simpa [openLines, Block.ofName] using hlines
        · rintro _ ⟨⟩
          exact hmarker
        · rintro _ ⟨⟩
          simp [Block.ofName]
      · rw [List.forall_mem_cons]
        refine ⟨.line hplain (hlines line (by simp [openLines])), ih hrest ?_ (by simp) (by simp)⟩
        exact fun l hl => hlines l (List.mem_cons_of_mem _ hl)
    | some b =>
      rcases parseLines_inside h with ⟨indent, hend, rest, hrest, rfl⟩ | ⟨hplain, h⟩
      · rw [List.forall_mem_cons]
        refine ⟨.block ⟨hstart b rfl, ⟨indent, hend⟩, hbody b rfl⟩ ?_, ih hrest ?_ (by simp) (by simp)⟩
        · intro l hl
          simp only [Block.lines, List.cons_append, List.mem_cons, List.mem_append, List.not_mem_nil, or_false] at hl
          exact hlines l (by simp only [openLines, List.cons_append, List.mem_cons, List.mem_append]; tauto)
        · exact fun l hl => hlines l (List.mem_append_right _ (List.mem_cons_of_mem _ hl))
      · refine ih h ?_ ?_ ?_
        · simpa [openLines] using hlines
        · rintro _ ⟨⟩
          exact hstart b rfl
        · rintro _ ⟨⟩
          rw [List.forall_mem_append]
          exact ⟨hbody b rfl, List.forall_mem_singleton.mpr hplain⟩

theorem Readable.of_parse {text : Text} {d : BlockDocument} (h : parse text = .ok d) : d.Readable := by
  unfold parse at h
  dsimp only at h
  split at h
  · cases h
    intro node hnode
    cases hnode
  · obtain ⟨nodes, hnodes, h⟩ := bind_ok h
    cases h
    exact readable_of_parseLines hnodes (fun line hline => Text.not_mem_of_mem_splitOn hline) (by simp) (by simp)

theorem Readable.readsBack {d : BlockDocument} (hd : d.Readable) {b : Block} (hb : b ∈ d.blocks) : ReadsBack b := by
  obtain ⟨node, hnode, hblock⟩ := List.mem_filterMap.mp hb
  cases hd node hnode with
  | line _ _ => cases hblock
  | block reads _ =>
    cases hblock
    exact reads

theorem Readable.unbroken {d : BlockDocument} (hd : d.Readable) {line : Text} (hline : line ∈ d.lines) :
    Text.lineFeed ∉ line := by
  obtain ⟨node, hnode, hline⟩ := List.mem_flatMap.mp hline
  exact (hd node hnode).lineFeed_not_mem hline

end BlockDocument

/-! ## §3 Carriage returns -/

/-- Two lines that differ in at most a carriage return at the end of the first. -/
def SameButReturn (line line' : Text) : Prop := line' = line ∨ line = line' ++ [Text.byte '\r']

theorem SameButReturn.refl (line : Text) : SameButReturn line line := Or.inl rfl

theorem SameButReturn.eq_of_getLast? {line line' : Text} (h : SameButReturn line line')
    (hlast : line.getLast? ≠ some (Text.byte '\r')) : line' = line := by
  rcases h with rfl | rfl
  · rfl
  · exact absurd List.getLast?_concat hlast

theorem SameButReturn.eq_of_not_mem {line line' : Text} (h : SameButReturn line line') (hreturn : Text.byte '\r' ∉ line) :
    line' = line :=
  h.eq_of_getLast? fun hlast => hreturn (List.mem_of_getLast? hlast)

theorem SameButReturn.not_mem {line line' : Text} (h : SameButReturn line line') {b : UInt8} (hb : b ∉ line) :
    b ∉ line' := by
  rcases h with rfl | rfl
  · exact hb
  · exact fun hmem => hb (List.mem_append_left _ hmem)

/-- A carriage return at the end of a line does not matter for whether it is a marker. -/
theorem SameButReturn.ofMarkerLine?_eq {line line' : Text} (h : SameButReturn line line') (marker : Text) :
    Block.ofMarkerLine? marker line' = Block.ofMarkerLine? marker line := by
  rcases h with rfl | rfl
  · rfl
  · have hblank : Text.IsBlanks [Text.byte '\r'] := List.forall_mem_singleton.mpr (by decide)
    have htrim : (line' ++ [Text.byte '\r']).trim = line'.trim := Text.trim_pad Text.isBlanks_nil hblank line'
    have htake : (line' ++ [Text.byte '\r']).takeWhile isIndentByte = line'.takeWhile isIndentByte := by
      rw [List.takeWhile_append]
      split
      · next hall =>
        rw [(List.takeWhile_prefix isIndentByte).eq_of_length hall]
        exact List.append_nil _
      · rfl
    rw [HeaderReflection.ofMarkerLine?_eq, HeaderReflection.ofMarkerLine?_eq, htrim, htake]

namespace Text

/-- **The end of a line** loses one carriage return, if it has one. -/
theorem unixLines_line {line : Text} (hfeed : lineFeed ∉ line) (rest : Text) :
    ∃ line', SameButReturn line line' ∧ unixLines (line ++ lineFeed :: rest) = line' ++ lineFeed :: unixLines rest := by
  have hend : unixLines (lineFeed :: rest) = lineFeed :: unixLines rest := unixLines_cons (Or.inl (by decide))
  induction line with
  | nil => exact ⟨[], .refl [], hend⟩
  | cons b line ih =>
    rw [List.mem_cons, not_or] at hfeed
    obtain ⟨line', hsame, htext⟩ := ih hfeed.2
    -- only a carriage return right before the line feed goes
    by_cases hreturn : b = byte '\r' ∧ line = []
    · obtain ⟨rfl, rfl⟩ := hreturn
      exact ⟨[], Or.inr rfl, hend⟩
    · have hstays : b ≠ byte '\r' ∨ (line ++ lineFeed :: rest).head? ≠ some lineFeed := by
        cases line with
        | nil => exact Or.inl fun hb => hreturn ⟨hb, rfl⟩
        | cons c line => exact Or.inr fun hc => hfeed.2 (Option.some.inj hc ▸ List.mem_cons_self)
      refine ⟨b :: line', ?_, by rw [List.cons_append, unixLines_cons hstays, htext]; rfl⟩
      rcases hsame with rfl | rfl
      · exact .refl _
      · exact Or.inr rfl

theorem unixLines_of_lineFeed_not_mem {line : Text} (hfeed : lineFeed ∉ line) : unixLines line = line := by
  induction line with
  | nil => rfl
  | cons b line ih =>
    rw [List.mem_cons, not_or] at hfeed
    rw [unixLines_cons (Or.inr fun hhead => hfeed.2 (List.mem_of_head? hhead)), ih hfeed.2]

/-- **Lines that are written and read again** are the same but for carriage returns, with or without an end of the last
one. -/
theorem unixLines_unlines {lines : List Text} (hne : lines ≠ []) (hfeed : ∀ line ∈ lines, lineFeed ∉ line)
    {ending : Text} (hending : ending = [] ∨ ending = [lineFeed]) :
    ∃ lines', List.Forall₂ SameButReturn lines lines' ∧ unixLines (unlines lines ++ ending) = unlines lines' ++ ending := by
  induction lines with
  | nil => exact absurd rfl hne
  | cons line lines ih =>
    obtain ⟨hline, hlines⟩ := List.forall_mem_cons.mp hfeed
    -- all lines but the last one have their line feeds
    by_cases hlast : lines = []
    · subst hlast
      rcases hending with rfl | rfl
      · refine ⟨[line], .cons (.refl line) .nil, ?_⟩
        simpa [unlines] using unixLines_of_lineFeed_not_mem hline
      · obtain ⟨line', hsame, htext⟩ := unixLines_line hline []
        exact ⟨[line'], .cons hsame .nil, htext⟩
    · obtain ⟨lines', hsames, htexts⟩ := ih hlast hlines
      obtain ⟨line', hsame, htext⟩ := unixLines_line hline (unlines lines ++ ending)
      have hne' : lines' ≠ [] := by
        rintro rfl
        exact hlast (List.forall₂_nil_right_iff.mp hsames)
      refine ⟨line' :: lines', .cons hsame hsames, ?_⟩
      rw [htexts] at htext
      rw [unlines, unlines, joinWith_cons _ _ hlast, joinWith_cons _ _ hne']
      simpa [unlines] using htext

end Text

/-- Two blocks that differ in at most carriage returns at the ends of lines. -/
structure SameBlock (b b' : Block) : Prop where
  name : b'.name = b.name
  indent : b'.indent = b.indent
  start : SameButReturn b.start b'.start
  body : List.Forall₂ SameButReturn b.body b'.body
  finish : SameButReturn b.finish b'.finish

/-- Two pieces of documents that differ in at most carriage returns at the ends of lines. -/
inductive SameNode : BlockNode → BlockNode → Prop where
  | line {text text' : Text} (same : SameButReturn text text') : SameNode (.line text) (.line text')
  | block {b b' : Block} (same : SameBlock b b') : SameNode (.block b) (.block b')

/-- The blocks of two documents whose pieces differ in carriage returns differ in carriage returns. -/
theorem forall₂_sameBlock {nodes nodes' : List BlockNode} (h : List.Forall₂ SameNode nodes nodes') :
    List.Forall₂ SameBlock (nodes.filterMap BlockNode.block?) (nodes'.filterMap BlockNode.block?) := by
  induction h with
  | nil => exact .nil
  | cons hnode _ ih =>
    cases hnode with
    | line _ => exact ih
    | block same => exact .cons same ih

/-- Lines without carriage returns have none to lose. -/
theorem eq_of_sameButReturn {lines lines' : List Text} (h : List.Forall₂ SameButReturn lines lines')
    (hreturn : ∀ line ∈ lines, Text.byte '\r' ∉ line) : lines' = lines := by
  have heq : List.Forall₂ (· = ·) lines lines' :=
    forall₂_of_mem (fun line hline _ hsame => (hsame.eq_of_not_mem (hreturn line hline)).symm) h
  rw [List.forall₂_eq_eq_eq] at heq
  exact heq.symm

theorem SameBlock.eq_of_not_mem {b b' : Block} (h : SameBlock b b')
    (hreturn : ∀ line ∈ b.lines, Text.byte '\r' ∉ line) : b' = b := by
  obtain ⟨name, indent, start, finish, body⟩ := b
  obtain ⟨name', indent', start', finish', body'⟩ := b'
  obtain ⟨rfl, rfl, hstart, hbody, hfinish⟩ := h
  obtain rfl : start' = start := hstart.eq_of_not_mem (hreturn _ (by simp [Block.lines]))
  obtain rfl : finish' = finish := hfinish.eq_of_not_mem (hreturn _ (by simp [Block.lines]))
  obtain rfl : body' = body := eq_of_sameButReturn hbody fun line hline => hreturn line (by simp [Block.lines, hline])
  rfl

/-- A piece without carriage returns has none to lose. -/
theorem SameNode.eq_of_not_mem {node node' : BlockNode} (h : SameNode node node')
    (hreturn : ∀ line ∈ node.lines, Text.byte '\r' ∉ line) : node' = node := by
  cases h with
  | line same => rw [same.eq_of_not_mem (hreturn _ (List.mem_singleton_self _))]
  | block same => rw [same.eq_of_not_mem hreturn]

theorem forall₂_append_left {α β : Type} {R : α → β → Prop} {as as' : List α} {bs : List β}
    (h : List.Forall₂ R (as ++ as') bs) :
    ∃ front back, bs = front ++ back ∧ List.Forall₂ R as front ∧ List.Forall₂ R as' back := by
  induction as generalizing bs with
  | nil => exact ⟨[], bs, rfl, .nil, h⟩
  | cons a as ih =>
    cases h with
    | cons hhead htail =>
      obtain ⟨front, back, rfl, hfront, hback⟩ := ih htail
      exact ⟨_ :: front, back, rfl, .cons hhead hfront, hback⟩

theorem SameButReturn.plainLine {line line' : Text} (h : SameButReturn line line') (hline : PlainLine line) :
    PlainLine line' :=
  ⟨(h.ofMarkerLine?_eq _).trans hline.noStart, (h.ofMarkerLine?_eq _).trans hline.noEnd⟩

/-- A block whose lines have lost carriage returns is still read again. -/
theorem BlockDocument.ReadsBack.exists_sameBlock {b : Block} (h : ReadsBack b) {lines : List Text}
    (hlines : List.Forall₂ SameButReturn b.lines lines) : ∃ b', b'.lines = lines ∧ ReadsBack b' ∧ SameBlock b b' := by
  obtain ⟨start, rest, hstart, hrest, rfl⟩ := List.forall₂_cons_left_iff.mp hlines
  obtain ⟨body, back, rfl, hbody, hback⟩ := forall₂_append_left hrest
  obtain ⟨finish, none, hfinish, hnone, rfl⟩ := List.forall₂_cons_left_iff.mp hback
  obtain rfl := List.forall₂_nil_left_iff.mp hnone
  obtain ⟨indent, hindent⟩ := h.finish
  refine ⟨{ b with start, body, finish }, rfl, ⟨?_, ⟨indent, ?_⟩, ?_⟩, ⟨rfl, rfl, hstart, hbody, hfinish⟩⟩
  · exact (hstart.ofMarkerLine?_eq _).trans h.start
  · exact (hfinish.ofMarkerLine?_eq _).trans hindent
  · intro line' hline'
    obtain ⟨line, hline, hsame⟩ := exists_of_mem_forall₂ hbody hline'
    exact hsame.plainLine (h.body line hline)

/-- **Pieces whose lines have lost carriage returns** are still read again, each as a piece of its kind. -/
theorem exists_readable {nodes : List BlockNode} (h : ∀ node ∈ nodes, node.Readable) {lines : List Text}
    (hlines : List.Forall₂ SameButReturn (nodes.flatMap BlockNode.lines) lines) :
    ∃ nodes' : List BlockNode, nodes'.flatMap BlockNode.lines = lines ∧ (∀ node ∈ nodes', node.Readable) ∧
      List.Forall₂ SameNode nodes nodes' := by
  induction nodes generalizing lines with
  | nil =>
    obtain rfl := List.forall₂_nil_left_iff.mp hlines
    exact ⟨[], rfl, by simp, .nil⟩
  | cons node nodes ih =>
    obtain ⟨front, back, rfl, hfront, hback⟩ := forall₂_append_left hlines
    obtain ⟨hnode, hnodes⟩ := List.forall_mem_cons.mp h
    -- the lines of the first piece come first, so the induction is on the pieces
    obtain ⟨nodes', rfl, hreadable, hsames⟩ := ih hnodes hback
    cases hnode with
    | @line text plain unbroken =>
      obtain ⟨text', none, hsame, hnone, rfl⟩ := List.forall₂_cons_left_iff.mp hfront
      obtain rfl := List.forall₂_nil_left_iff.mp hnone
      refine ⟨.line text' :: nodes', rfl, List.forall_mem_cons.mpr ⟨?_, hreadable⟩, .cons (.line hsame) hsames⟩
      exact .line (hsame.plainLine plain) (hsame.not_mem unbroken)
    | @block b reads unbroken =>
      obtain ⟨b', rfl, hreads, hsame⟩ := reads.exists_sameBlock hfront
      refine ⟨.block b' :: nodes', rfl, List.forall_mem_cons.mpr ⟨?_, hreadable⟩, .cons (.block hsame) hsames⟩
      refine .block hreads fun line' hline' => ?_
      obtain ⟨line, hline, hsame⟩ := exists_of_mem_forall₂ hfront hline'
      exact hsame.not_mem (unbroken line hline)

namespace BlockDocument

theorem ReadsBack.finish_ne_nil {b : Block} (h : ReadsBack b) : b.finish ≠ [] := by
  obtain ⟨indent, hfinish⟩ := h.finish
  intro hnil
  rw [hnil, plainLine_nil.noEnd] at hfinish
  cases hfinish

/-- An empty line at the end of a document is a piece of its own. -/
theorem exists_of_lines_concat_nil {nodes : List BlockNode} (h : ∀ node ∈ nodes, node.Readable) {lines : List Text}
    (hlines : nodes.flatMap BlockNode.lines = lines ++ [[]]) :
    ∃ front : List BlockNode, nodes = front ++ [.line []] ∧ front.flatMap BlockNode.lines = lines := by
  obtain rfl | ⟨front, last, rfl⟩ := nodes.eq_nil_or_concat
  · simp at hlines
  · rw [List.concat_eq_append] at h hlines ⊢
    rw [List.flatMap_append, List.flatMap_singleton] at hlines
    cases h last (by simp) with
    | @line text _ _ =>
      obtain ⟨hfront, rfl⟩ := List.append_singleton_inj.mp hlines
      exact ⟨front, rfl, hfront⟩
    | @block b reads _ =>
      -- the last line of a block is its marker
      change front.flatMap BlockNode.lines ++ ((b.start :: b.body) ++ [b.finish]) = lines ++ [[]] at hlines
      rw [← List.append_assoc] at hlines
      exact absurd (List.append_singleton_inj.mp hlines).2 reads.finish_ne_nil

theorem lines_ne_nil_of_nodes {nodes : List BlockNode} (h : nodes ≠ []) : nodes.flatMap BlockNode.lines ≠ [] := by
  obtain ⟨node, rest, rfl⟩ := List.exists_cons_of_ne_nil h
  cases node with
  | line text => simp [BlockNode.lines]
  | block b => simp [BlockNode.lines, Block.lines]

theorem lines_ne_nil_of_blocks {nodes : List BlockNode} (h : nodes.filterMap BlockNode.block? ≠ []) :
    nodes.flatMap BlockNode.lines ≠ [] := by
  obtain ⟨b, hb⟩ := List.exists_mem_of_ne_nil _ h
  obtain ⟨node, hnode, hblock⟩ := List.mem_filterMap.mp hb
  cases node with
  | line text => cases hblock
  | block c =>
    have hmem : c.start ∈ nodes.flatMap BlockNode.lines :=
      List.mem_flatMap.mpr ⟨_, hnode, List.mem_cons_self⟩
    exact List.ne_nil_of_mem hmem

theorem parse_of_lines {text : Text} {nodes : List BlockNode} (h : ∀ node ∈ nodes, node.Readable)
    (hlines : nodes.flatMap BlockNode.lines ≠ []) (hne : text.unixLines ≠ [])
    (hbody : Text.trimSuffix [Text.lineFeed] text.unixLines = Text.unlines (nodes.flatMap BlockNode.lines)) :
    parse text = .ok { nodes, endsLine := Text.endsWith [Text.lineFeed] text.unixLines } := by
  have hfeed : ∀ line ∈ nodes.flatMap BlockNode.lines, Text.lineFeed ∉ line := by
    intro line hline
    obtain ⟨node, hnode, hline⟩ := List.mem_flatMap.mp hline
    exact (h node hnode).lineFeed_not_mem hline
  unfold parse
  dsimp only
  rw [if_neg hne, hbody, Text.splitOn_unlines hlines hfeed, parseLines_of_readable h]
  rfl

/-- Lines that all have their end are read as the pieces they are made of. -/
theorem parse_ended {text : Text} {nodes : List BlockNode} (h : ∀ node ∈ nodes, node.Readable)
    (hlines : nodes.flatMap BlockNode.lines ≠ [])
    (htext : text.unixLines = Text.unlines (nodes.flatMap BlockNode.lines) ++ [Text.lineFeed]) :
    parse text = .ok { nodes, endsLine := true } := by
  have hne : text.unixLines ≠ [] := by simp [htext]
  have hbody : Text.trimSuffix [Text.lineFeed] text.unixLines = Text.unlines (nodes.flatMap BlockNode.lines) := by
    rw [htext, Text.trimSuffix_append]
  rw [parse_of_lines h hlines hne hbody, htext, Text.endsWith_append]

/-- Lines the last of which has no end, and is not empty, are read as the pieces they are made of. -/
theorem parse_unended {text last : Text} {nodes : List BlockNode} {lines : List Text}
    (h : ∀ node ∈ nodes, node.Readable) (hlines : nodes.flatMap BlockNode.lines = lines ++ [last]) (hlast : last ≠ [])
    (htext : text.unixLines = Text.unlines (nodes.flatMap BlockNode.lines)) :
    parse text = .ok { nodes, endsLine := false } := by
  have hfeed : Text.lineFeed ∉ last := by
    obtain ⟨node, hnode, hline⟩ := List.mem_flatMap.mp (hlines ▸ by simp : last ∈ nodes.flatMap BlockNode.lines)
    exact (h node hnode).lineFeed_not_mem hline
  obtain ⟨front, hfront⟩ := Text.exists_unlines_concat lines last
  have hstrip : Text.stripSuffix? [Text.lineFeed] text.unixLines = none := by
    rw [htext, hlines, hfront, Text.stripSuffix?_append_of_not_mem hlast hfeed]
  have hne : text.unixLines ≠ [] := by
    rw [htext, hlines, hfront]
    simp [hlast]
  have hbody : Text.trimSuffix [Text.lineFeed] text.unixLines = Text.unlines (nodes.flatMap BlockNode.lines) := by
    rw [Text.trimSuffix, hstrip, Option.getD_none, htext]
  rw [parse_of_lines h (by simp [hlines]) hne hbody, Text.endsWith, hstrip]
  rfl

/-- Whether the last line has an end or not, all blocks are read. An empty last line without one is taken for the end of
the line before it. -/
theorem exists_parse_blocks {text ending : Text} {nodes : List BlockNode} (h : ∀ node ∈ nodes, node.Readable)
    (hblocks : nodes.filterMap BlockNode.block? ≠ []) (hending : ending = [] ∨ ending = [Text.lineFeed])
    (htext : text.unixLines = Text.unlines (nodes.flatMap BlockNode.lines) ++ ending) :
    ∃ d, parse text = .ok d ∧ d.blocks = nodes.filterMap BlockNode.block? := by
  rcases hending with rfl | rfl
  · rw [List.append_nil] at htext
    obtain hnil | ⟨lines, last, hlines⟩ := (nodes.flatMap BlockNode.lines).eq_nil_or_concat
    · exact absurd hnil (lines_ne_nil_of_blocks hblocks)
    · rw [List.concat_eq_append] at hlines
      by_cases hlast : last = []
      · subst hlast
        obtain ⟨front, rfl, rfl⟩ := exists_of_lines_concat_nil h hlines
        have hfront : (front ++ [BlockNode.line []]).filterMap BlockNode.block? = front.filterMap BlockNode.block? := by
          rw [List.filterMap_append]
          exact List.append_nil _
        rw [hfront] at hblocks ⊢
        refine ⟨_, parse_ended (fun node hnode => h node (List.mem_append_left _ hnode))
          (lines_ne_nil_of_blocks hblocks) ?_, rfl⟩
        rw [htext, hlines, Text.unlines, Text.joinWith_append _ (lines_ne_nil_of_blocks hblocks) (by simp),
          Text.joinWith_singleton, List.append_nil]
        rfl
      · exact ⟨_, parse_unended h hlines hlast htext, rfl⟩
  · exact ⟨_, parse_ended h (lines_ne_nil_of_blocks hblocks) htext, rfl⟩

/-- The text of a document is its lines, with or without an end of the last one. -/
theorem exists_render_eq (d : BlockDocument) :
    ∃ ending, d.render = Text.unlines d.lines ++ ending ∧ (ending = [] ∨ ending = [Text.lineFeed]) := by
  refine ⟨_, rfl, ?_⟩
  split
  · exact Or.inr rfl
  · exact Or.inl rfl

/-- **A document that can be read again** is read from its text, with the same blocks but for carriage returns. -/
theorem Readable.parse_render {d : BlockDocument} (hd : d.Readable) (hblocks : d.blocks ≠ []) :
    ∃ d', parse d.render = .ok d' ∧ List.Forall₂ SameBlock d.blocks d'.blocks := by
  obtain ⟨ending, hrender, hending⟩ := d.exists_render_eq
  -- normal line ends may cost carriage returns, and the pieces are built anew from what is left
  obtain ⟨lines, hsame, htext⟩ :=
    Text.unixLines_unlines (lines_ne_nil_of_blocks hblocks) (fun line hline => hd.unbroken hline) hending
  obtain ⟨nodes, rfl, hnodes, hsameNodes⟩ := exists_readable hd hsame
  have hsameBlocks : List.Forall₂ SameBlock d.blocks (nodes.filterMap BlockNode.block?) := forall₂_sameBlock hsameNodes
  have hblocks' : nodes.filterMap BlockNode.block? ≠ [] := by
    intro hnil
    rw [hnil] at hsameBlocks
    exact hblocks (List.forall₂_nil_right_iff.mp hsameBlocks)
  change Text.unixLines (Text.unlines d.lines ++ ending) = _ at htext
  rw [← hrender] at htext
  obtain ⟨d', hparse, hblocksEq⟩ := exists_parse_blocks hnodes hblocks' hending htext
  exact ⟨d', hparse, hblocksEq ▸ hsameBlocks⟩

/-- Whether the end of the text tells if the last line of a document has an end: there is a line if it has one, and it is
not taken for the end of the line before it if it has none. -/
structure TellsEnd (d : BlockDocument) : Prop where
  ended : d.endsLine = true → d.nodes ≠ []
  unended : d.endsLine = false → ∀ text, d.nodes.getLast? = some (.line text) → ¬SameButReturn text []

/-- **A document whose text tells its end** is read from its text piece by piece. -/
theorem Readable.parse_render_nodes {d : BlockDocument} (hd : d.Readable) (hend : d.TellsEnd) :
    ∃ nodes, parse d.render = .ok { nodes, endsLine := d.endsLine } ∧ List.Forall₂ SameNode d.nodes nodes := by
  obtain ⟨nodes, endsLine⟩ := d
  by_cases hnodes : nodes = []
  · subst hnodes
    cases endsLine with
    | true => exact absurd rfl (hend.ended rfl)
    | false => exact ⟨[], rfl, .nil⟩
  have hlines := lines_ne_nil_of_nodes hnodes
  have hfeed : ∀ line ∈ nodes.flatMap BlockNode.lines, Text.lineFeed ∉ line := fun line hline => hd.unbroken hline
  cases endsLine with
  | true =>
    obtain ⟨lines, hsame, htext⟩ := Text.unixLines_unlines hlines hfeed (Or.inr rfl)
    obtain ⟨nodes', rfl, hnodes', hsameNodes⟩ := exists_readable hd hsame
    refine ⟨nodes', parse_ended hnodes' ?_ ?_, hsameNodes⟩
    · refine lines_ne_nil_of_nodes ?_
      rintro rfl
      exact hnodes (List.forall₂_nil_right_iff.mp hsameNodes)
    · rw [← htext]
      simp [render, lines, hnodes]
  | false =>
    obtain ⟨lines, hsame, htext⟩ := Text.unixLines_unlines hlines hfeed (Or.inl rfl)
    obtain ⟨nodes', rfl, hnodes', hsameNodes⟩ := exists_readable hd hsame
    obtain hnil | ⟨front, last, hfront⟩ := (nodes'.flatMap BlockNode.lines).eq_nil_or_concat
    · rw [hnil, List.forall₂_nil_right_iff] at hsame
      exact absurd hsame hlines
    rw [List.concat_eq_append] at hfront
    -- an empty last line would be a piece of its own, and its piece has not been empty before
    have hlast : last ≠ [] := by
      rintro rfl
      obtain ⟨front, rfl, -⟩ := exists_of_lines_concat_nil hnodes' hfront
      obtain ⟨before, after, rfl, -, hafter⟩ := forall₂_append_left hsameNodes.flip
      obtain ⟨node, none, hnode, hnone, rfl⟩ := List.forall₂_cons_left_iff.mp hafter
      obtain rfl := List.forall₂_nil_left_iff.mp hnone
      cases hnode with
      | line same => exact hend.unended rfl _ List.getLast?_concat same
    refine ⟨nodes', parse_unended hnodes' hfront hlast ?_, hsameNodes⟩
    rw [List.append_nil] at htext
    rw [← List.append_nil (Text.unlines (nodes'.flatMap BlockNode.lines)), ← htext]
    simp [render, lines]

end BlockDocument

/-! ## §4 Applying texts -/

/-- A text that can be the body of a block: none of its lines is a marker. -/
def PlainText (text : Text) : Prop :=
  ∀ line ∈ Text.splitOn Text.lineFeed (Text.trimEndOf [Text.lineFeed] text), PlainLine line

/-- Taking line feeds off the end of a text takes empty lines off it, and nothing else. -/
theorem mem_splitOn_of_trimEndOf {text line : Text}
    (h : line ∈ Text.splitOn Text.lineFeed (Text.trimEndOf [Text.lineFeed] text)) :
    line ∈ Text.splitOn Text.lineFeed text := by
  induction text using List.reverseRecOn with
  | nil => exact h
  | append_singleton text b ih =>
    by_cases hb : b = Text.lineFeed
    · subst hb
      rw [Text.trimEndOf_append_mem (List.mem_singleton_self _)] at h
      rw [Text.splitOn_append_sep]
      exact List.mem_append_left _ (ih h)
    · rwa [Text.trimEndOf_append_of_not_mem (by simpa using hb)] at h

theorem plainText_nil : PlainText [] := by
  intro line hline
  rw [List.mem_singleton.mp hline]
  exact plainLine_nil

theorem plainText_unlines {lines : List Text} (hplain : ∀ line ∈ lines, PlainLine line)
    (hfeed : ∀ line ∈ lines, Text.lineFeed ∉ line) : PlainText (Text.unlines lines) := by
  intro line hline
  have hmem := mem_splitOn_of_trimEndOf hline
  by_cases hlines : lines = []
  · subst hlines
    rw [List.mem_singleton.mp hmem]
    exact plainLine_nil
  · rw [Text.splitOn_unlines hlines hfeed] at hmem
    exact hplain line hmem

namespace BlockDocument

/-- The text of a block can be the body of any other one. -/
theorem ReadsBack.plainText {b : Block} (h : ReadsBack b) (hfeed : ∀ line ∈ b.lines, Text.lineFeed ∉ line) :
    PlainText b.text := by
  apply plainText_unlines
  · intro line hline
    obtain ⟨inner, hinner, rfl⟩ := List.mem_map.mp hline
    exact (h.body inner hinner).trimPrefix h.isIndent
  · intro line hline hmem
    obtain ⟨inner, hinner, rfl⟩ := List.mem_map.mp hline
    have hinner : inner ∈ b.lines := List.mem_append_left _ (List.mem_cons_of_mem _ hinner)
    exact hfeed inner hinner (Text.subset_trimPrefix _ _ hmem)

/-- **A block with a new text** is read again. -/
theorem readable_setText {b : Block} (h : (BlockNode.block b).Readable) {text : Text} (htext : PlainText text) :
    (BlockNode.block (b.setText text)).Readable := by
  cases h with
  | block reads unbroken =>
    -- every line of the body is an indented line of the text
    have hbody : ∀ line ∈ Block.bodyOfText b.indent text, ∃ inner, PlainLine inner ∧ Text.lineFeed ∉ inner ∧
        line = Block.indentLine b.indent inner := by
      intro line hline
      unfold Block.bodyOfText at hline
      split at hline
      · cases hline
      · obtain ⟨inner, hinner, rfl⟩ := List.mem_map.mp hline
        exact ⟨inner, htext inner hinner, Text.not_mem_of_mem_splitOn hinner, rfl⟩
    refine .block ⟨reads.start, reads.finish, ?_⟩ ?_
    · intro line hline
      obtain ⟨inner, hplain, -, rfl⟩ := hbody line hline
      exact hplain.indentLine reads.isIndent
    · intro line hline
      simp only [Block.lines, Block.setText, List.cons_append, List.mem_cons, List.mem_append, List.not_mem_nil,
        or_false] at hline
      rcases hline with rfl | hline | rfl
      · exact unbroken _ (by simp [Block.lines])
      · obtain ⟨inner, -, hfeed, rfl⟩ := hbody line hline
        unfold Block.indentLine
        split
        · simp
        · rw [List.mem_append, not_or]
          exact ⟨reads.isIndent.not_mem (by decide), hfeed⟩
      · exact unbroken _ (by simp [Block.lines])

theorem readable_ofName {name indent : Text} (hname : BlockName name) (hindent : IsIndent indent) :
    (BlockNode.block (Block.ofName name indent)).Readable := by
  have hfeed : ∀ marker : Text, Text.lineFeed ∉ marker → Text.lineFeed ∉ indent ++ marker ++ name := by
    intro marker hmarker
    simp only [List.mem_append, not_or]
    exact ⟨⟨hindent.not_mem (by decide), hmarker⟩, hname.unbroken⟩
  refine .block (readsBack_ofName hname hindent) ?_
  intro line hline
  simp only [Block.lines, Block.ofName, List.cons_append, List.nil_append, List.mem_cons, List.not_mem_nil,
    or_false] at hline
  rcases hline with rfl | rfl
  · exact hfeed _ (by decide)
  · exact hfeed _ (by decide)

variable {d : BlockDocument} {bodies : Bodies} {sentinel module body : Text}

theorem mem_blocks_iff {b : Block} : b ∈ d.blocks ↔ .block b ∈ d.nodes := by
  constructor
  · intro hb
    obtain ⟨node, hnode, hblock⟩ := List.mem_filterMap.mp hb
    cases node with
    | line text => cases hblock
    | block c =>
      cases hblock
      exact hnode
  · intro hb
    exact List.mem_filterMap.mpr ⟨_, hb, rfl⟩

/-- New blocks join the pieces of a document, at the indentation of one of its blocks or at the usual one. -/
theorem mem_insertBlocks (bodies : Bodies) (names : List Text) (sentinel : Text) (nodes : List BlockNode) :
    ∃ indent, (indent = defaultIndent ∨ ∃ b, .block b ∈ nodes ∧ b.indent = indent) ∧
      ∀ node, node ∈ insertBlocks bodies names sentinel nodes ↔
        node ∈ nodes ∨ ∃ name ∈ names, node = newBlock bodies indent name := by
  let before := nodes.takeWhile (!isSentinel sentinel ·)
  let after := nodes.dropWhile (!isSentinel sentinel ·)
  have hsplit : before ++ after = nodes := List.takeWhile_append_dropWhile
  have hmem : ∀ indent node, node ∈ before ++ names.map (newBlock bodies indent) ++ after ↔
      node ∈ nodes ∨ ∃ name ∈ names, node = newBlock bodies indent name := by
    intro indent node
    have hnew : node ∈ names.map (newBlock bodies indent) ↔ ∃ name ∈ names, node = newBlock bodies indent name :=
      List.mem_map.trans (exists_congr fun _ => and_congr_right' eq_comm)
    rw [← hnew, ← hsplit]
    simp only [List.mem_append]
    tauto
  -- a new block takes over the indentation of the sentinel, where there is one
  cases hfirst : after.head?.bind BlockNode.block? with
  | none =>
    refine ⟨defaultIndent, Or.inl rfl, fun node => ?_⟩
    rw [← hmem, insertBlocks]
    simp only [hfirst, before, after]
  | some b =>
    have hb : .block b ∈ after := by
      obtain ⟨node, hhead, hblock⟩ := Option.bind_eq_some_iff.mp hfirst
      cases node with
      | line text => cases hblock
      | block c => cases hblock; exact List.mem_of_head? hhead
    refine ⟨b.indent, Or.inr ⟨b, hsplit ▸ List.mem_append_right _ hb, rfl⟩, fun node => ?_⟩
    rw [← hmem, insertBlocks]
    simp only [hfirst, before, after]

/-- What stands in a document after a patch. -/
inductive Patched (d : BlockDocument) (bodies : Bodies) (sentinel : Text) : BlockNode → Prop where
  /-- Plain lines stay. -/
  | line {text : Text} (h : .line text ∈ d.nodes) : Patched d bodies sentinel (.line text)
  /-- Blocks have got a text, have been cleared, or are the sentinel's. -/
  | old {b : Block} (h : b ∈ d.blocks) : Patched d bodies sentinel (.block (updateBlock bodies sentinel b))
  /-- Names without a block have got one. -/
  | new {indent name : Text} (hindent : IsIndent indent) (hname : name ∈ d.missingNames bodies) :
      Patched d bodies sentinel (newBlock bodies indent name)

@[simp] theorem updateBlock_name (b : Block) : (updateBlock bodies sentinel b).name = b.name := by
  unfold updateBlock
  split
  · rfl
  · split <;> rfl

@[simp] theorem updateBlock_indent (b : Block) : (updateBlock bodies sentinel b).indent = b.indent := by
  unfold updateBlock
  split
  · rfl
  · split <;> rfl

theorem patched_of_mem (hd : d.Readable) : ∀ node ∈ (d.apply bodies sentinel).nodes, Patched d bodies sentinel node := by
  intro node hnode
  obtain ⟨indent, hindent, hmem⟩ :=
    mem_insertBlocks bodies (d.missingNames bodies) sentinel (d.nodes.map (updateNode bodies sentinel))
  have hupdated : ∀ node ∈ d.nodes.map (updateNode bodies sentinel), Patched d bodies sentinel node := by
    intro node hnode
    obtain ⟨old, hold, rfl⟩ := List.mem_map.mp hnode
    cases old with
    | line text => exact .line hold
    | block b => exact .old (mem_blocks_iff.mpr hold)
  rcases (hmem node).mp hnode with hnode | ⟨name, hname, rfl⟩
  · exact hupdated node hnode
  · refine .new ?_ hname
    -- new blocks take over the indentation of the sentinel, which is that of a block there has been
    rcases hindent with rfl | ⟨b, hb, rfl⟩
    · exact isIndent_defaultIndent
    · obtain ⟨old, hold, heq⟩ := List.mem_map.mp hb
      cases old with
      | line text => cases heq
      | block c =>
        cases heq
        rw [updateBlock_indent]
        exact (hd.readsBack (mem_blocks_iff.mpr hold)).isIndent

/-- **A patched document** can be read again, if the texts are bodies of blocks and the new names fit into markers. -/
theorem Readable.apply (hd : d.Readable) (hbodies : ∀ {name text}, bodies.get? name = some text → PlainText text)
    (hnames : ∀ name ∈ d.missingNames bodies, BlockName name) : (d.apply bodies sentinel).Readable := by
  intro node hnode
  cases patched_of_mem hd node hnode with
  | line h => exact hd _ h
  | @old b h =>
    have hb : (BlockNode.block b).Readable := hd _ (mem_blocks_iff.mp h)
    unfold updateBlock
    cases hget : bodies.get? b.name with
    | some text => exact readable_setText hb (hbodies hget)
    | none =>
      dsimp only
      split
      · exact hb
      · exact readable_setText hb plainText_nil
  | @new indent name hindent hname =>
    obtain ⟨text, hget⟩ := exists_get?_of_mem_keys (mem_missingNames.mp hname).1
    rw [newBlock, hget]
    exact readable_setText (readable_ofName (hnames name hname) hindent) (hbodies hget)

/-- Every name with a text has a block in the patched document. -/
theorem exists_block_apply {name : Text} (hname : name ∈ bodies.map (·.1)) :
    ∃ b ∈ (d.apply bodies sentinel).blocks, b.name = name := by
  obtain ⟨indent, -, hmem⟩ :=
    mem_insertBlocks bodies (d.missingNames bodies) sentinel (d.nodes.map (updateNode bodies sentinel))
  by_cases hold : ∃ b ∈ d.blocks, b.name = name
  · obtain ⟨b, hb, rfl⟩ := hold
    refine ⟨updateBlock bodies sentinel b, mem_blocks_iff.mpr ((hmem _).mpr (Or.inl ?_)), updateBlock_name b⟩
    exact List.mem_map.mpr ⟨_, mem_blocks_iff.mp hb, rfl⟩
  · have hmissing : name ∈ d.missingNames bodies :=
      mem_missingNames.mpr ⟨hname, fun b hb hbname => hold ⟨b, hb, hbname⟩⟩
    exact ⟨_, mem_blocks_iff.mpr ((hmem _).mpr (Or.inr ⟨name, hmissing, rfl⟩)), rfl⟩

/-- New blocks do not put a plain line at the end. -/
theorem getLast?_insertBlocks {names : List Text} {nodes : List BlockNode} {text : Text}
    (h : (insertBlocks bodies names sentinel nodes).getLast? = some (.line text)) :
    nodes.getLast? = some (.line text) := by
  let before := nodes.takeWhile (!isSentinel sentinel ·)
  let after := nodes.dropWhile (!isSentinel sentinel ·)
  have hsplit : before ++ after = nodes := List.takeWhile_append_dropWhile
  obtain ⟨indent, hinsert⟩ : ∃ indent,
      insertBlocks bodies names sentinel nodes = before ++ names.map (newBlock bodies indent) ++ after := ⟨_, rfl⟩
  rw [hinsert] at h
  by_cases hafter : after = []
  · rw [hafter, List.append_nil] at h hsplit
    rw [← hsplit]
    -- without a sentinel the new blocks are at the end, if there are any
    by_cases hnames : names = []
    · rwa [hnames, List.map_nil, List.append_nil] at h
    · rw [List.getLast?_append_of_ne_nil _ (List.map_eq_nil_iff.not.mpr hnames), List.getLast?_map] at h
      obtain ⟨name, -, hname⟩ := Option.map_eq_some_iff.mp h
      cases hname
  · rw [List.getLast?_append_of_ne_nil _ hafter] at h
    rwa [← hsplit, List.getLast?_append_of_ne_nil _ hafter]

theorem getLast?_apply {text : Text} (h : (d.apply bodies sentinel).nodes.getLast? = some (.line text)) :
    d.nodes.getLast? = some (.line text) := by
  have hlast := getLast?_insertBlocks h
  rw [List.getLast?_map] at hlast
  obtain ⟨node, hnode, hline⟩ := Option.map_eq_some_iff.mp hlast
  cases node with
  | line text' =>
    cases hline
    exact hnode
  | block b => cases hline

/-- What stands in a document after a module has written its block. -/
inductive Written (d : BlockDocument) (module body : Text) : BlockNode → Prop where
  /-- Plain lines stay. -/
  | line {text : Text} (h : .line text ∈ d.nodes) : Written d module body (.line text)
  /-- The blocks of the module hold what it has written. -/
  | own {b : Block} (h : b ∈ d.blocks) (name : b.name = module) : Written d module body (.block (b.setText body))
  /-- The blocks of another module hold what one of them has held before. -/
  | other {b c : Block} (h : b ∈ d.blocks) (name : b.name ≠ module) (hc : c ∈ d.blocks) :
      Written d module body (.block (b.setText c.text))
  /-- A module without a block gets one. -/
  | new {indent : Text} (h : IsIndent indent) : Written d module body (.block ((Block.ofName module indent).setText body))

theorem written_of_block {b : Block} (hb : b ∈ d.blocks) :
    Written d module body (.block (updateBlock (d.bodies.set module body) sentinelName b)) := by
  unfold updateBlock
  rw [get?_set]
  by_cases hname : b.name = module
  · rw [if_pos hname]
    exact .own hb hname
  · rw [if_neg hname]
    have hbodies : d.bodies = bodiesOf d.blocks := rfl
    rw [hbodies, get?_bodiesOf]
    cases hfind : d.blocks.reverse.find? (·.name = b.name) with
    | none => exact absurd (decide_eq_true rfl) (List.find?_eq_none.mp hfind b (List.mem_reverse.mpr hb))
    | some c => exact .other hb hname (List.mem_reverse.mp (List.mem_of_find?_eq_some hfind))

theorem Readable.written (hd : d.Readable) : ∀ node ∈ (d.replaceModule module body).nodes, Written d module body node := by
  intro node hnode
  cases patched_of_mem hd node hnode with
  | line h => exact .line h
  | old h => exact written_of_block h
  | new hindent hname =>
    rw [eq_of_mem_missingNames_set hname, newBlock, get?_set, if_pos rfl]
    exact .new hindent

theorem Readable.replaceModule (hd : d.Readable) (hname : Text.isIdentifier module = true) (hbody : PlainText body) :
    (d.replaceModule module body).Readable := by
  refine hd.apply (fun {name text} hget => ?_) fun name hmissing => ?_
  · rw [get?_set] at hget
    split at hget
    · cases hget
      exact hbody
    · obtain ⟨c, hfind, rfl⟩ := Option.map_eq_some_iff.mp ((get?_bodiesOf d.blocks name).symm.trans hget)
      have hc : c ∈ d.blocks := List.mem_reverse.mp (List.mem_of_find?_eq_some hfind)
      cases hd _ (mem_blocks_iff.mp hc) with
      | block reads unbroken => exact reads.plainText unbroken
  · rw [eq_of_mem_missingNames_set hmissing]
    exact .of_isIdentifier hname

/-- **The blocks of a module hold what it has written.** -/
theorem Readable.body_of_replaceModule (hd : d.Readable) {b : Block} (hb : b ∈ (d.replaceModule module body).blocks)
    (hname : b.name = module) : b.body = Block.bodyOfText b.indent body := by
  have hwritten := hd.written _ (mem_blocks_iff.mp hb)
  generalize hnode : BlockNode.block b = node at hwritten
  cases hwritten with
  | line h => cases hnode
  | own h _ => cases hnode; rfl
  | other h hne _ => cases hnode; exact absurd hname hne
  | new _ => cases hnode; rfl

theorem exists_block_replaceModule (d : BlockDocument) (module body : Text) :
    ∃ b ∈ (d.replaceModule module body).blocks, b.name = module :=
  exists_block_apply (mem_keys_set.mpr (Or.inl rfl))

end BlockDocument

/-! ## §5 Updated tables -/

theorem readable_of_load {tree : FileTree} {path skeleton : Text} {file : TableFile}
    (h : TableFile.load tree path skeleton = .ok file) : file.document.Readable := by
  have hparsed : ∃ text, BlockDocument.parse text = .ok file.document := by
    unfold TableFile.load TableFile.ofText TableFile.ofSkeleton at h
    split at h
    · split at h
      · next hparse => cases h; exact ⟨_, hparse⟩
      · cases h
    · split at h
      · split at h
        · next hparse => cases h; exact ⟨_, hparse⟩
        · cases h
      · cases h
  obtain ⟨text, hparse⟩ := hparsed
  exact .of_parse hparse

/-- **What is read from an updated table.** The text of a table after a module has written its block has markers that
pair up, whatever the table was before; the module has a block in it, and all blocks of its name hold what it has
written, each at its own indentation. The lines that are written must be no markers and have no carriage returns. -/
theorem parse_updateTable {tree : FileTree} {path skeleton module body : Text} {update : TableUpdate}
    (h : updateTable tree path skeleton module body = .ok update) (hname : Text.isIdentifier module = true)
    (hbody : PlainText body)
    (hreturn : ∀ indent, IsIndent indent → ∀ line ∈ Block.bodyOfText indent body, Text.byte '\r' ∉ line) :
    ∃ d, BlockDocument.parse update.text = .ok d ∧ (∃ b ∈ d.blocks, b.name = module) ∧
      ∀ b ∈ d.blocks, b.name = module → IsIndent b.indent ∧ b.body = Block.bodyOfText b.indent body := by
  obtain ⟨file, hfile, h⟩ := bind_ok h
  cases h
  have hd := readable_of_load hfile
  have hupdated := hd.replaceModule hname hbody
  obtain ⟨own, hown, hownName⟩ := BlockDocument.exists_block_replaceModule file.document module body
  obtain ⟨d, hparse, hsame⟩ := hupdated.parse_render (List.ne_nil_of_mem hown)
  refine ⟨d, hparse, ?_, ?_⟩
  · obtain ⟨b, hb, hb'⟩ := exists_of_mem_forall₂ hsame.flip hown
    exact ⟨b, hb, hb'.name.trans hownName⟩
  · intro b hb hbname
    obtain ⟨written, hwritten, hb'⟩ := exists_of_mem_forall₂ hsame hb
    have hindent := (hupdated.readsBack hwritten).isIndent
    -- what has been written has no carriage returns, so it comes back as it is
    have hbodyEq := hd.body_of_replaceModule hwritten (hb'.name.symm.trans hbname)
    rw [hb'.indent]
    refine ⟨hindent, ?_⟩
    rw [← hbodyEq]
    apply eq_of_sameButReturn hb'.body
    rw [hbodyEq]
    exact hreturn _ hindent

/-! ## §6 The two tables -/

theorem trim_of_isBlank {line : Text} (h : line.isBlank = true) : line.trim = [] := by
  have hstart : (Text.marks line).dropWhile (·.2) = [] := List.dropWhile_eq_nil_iff.mpr (List.all_eq_true.mp h)
  rw [Text.trim, hstart]
  rfl

/-- A text can be the body of a block if its lines can as blocks hold them: blank lines are no markers anyway. -/
theorem plainText_of_writtenLines {text : Text} (h : ∀ line ∈ Block.writtenLines text, PlainLine line) :
    PlainText text := by
  intro line hline
  rcases Block.indentLine_empty line with ⟨-, hblank⟩ | ⟨hwritten, hvisible⟩
  · exact plainLine_nil.of_trim_eq (trim_of_isBlank hblank)
  · apply h
    have htext : text ≠ [] := by
      rintro rfl
      rw [List.mem_singleton.mp hline] at hvisible
      cases hvisible
    rw [Block.writtenLines, Block.bodyOfText, if_neg htext, ← hwritten]
    exact List.mem_map_of_mem hline

namespace SharedTable

variable (t : SharedTable) (module : Text) {content : List Text} (hcontent : t.admissible content)

include hcontent

theorem visible_lines : ∀ line ∈ t.lines module content, line.isBlank = false :=
  fun line hline => (t.inner module content hcontent line hline).visible

/-- **What a module writes** is written line by line. -/
theorem writtenLines_body : Block.writtenLines (t.body module content) = t.lines module content := by
  have hdefault := t.bodyOfText module content hcontent
  rw [Block.bodyOfText_eq, ← Block.map_indentLine (t.visible_lines module hcontent)] at hdefault
  have hlines := congrArg (List.map (Text.trimPrefix defaultIndent)) hdefault
  rwa [Block.map_trimPrefix_indentLine fun line hline => (Block.mem_writtenLines hline).1,
    Block.map_trimPrefix_indentLine fun line hline => Or.inr (t.visible_lines module hcontent line hline)] at hlines

theorem bodyOfText_at (indent : Text) :
    Block.bodyOfText indent (t.body module content) = (t.lines module content).map (indent ++ ·) := by
  rw [Block.bodyOfText_eq, t.writtenLines_body module hcontent, Block.map_indentLine (t.visible_lines module hcontent)]

theorem plainText_body : PlainText (t.body module content) := by
  apply plainText_of_writtenLines
  rw [t.writtenLines_body module hcontent]
  intro line hline
  have hinner := t.inner module content hcontent line hline
  exact PlainLine.of_trim_eq ⟨hinner.noStart, hinner.noEnd⟩
    (Text.trim_blanks_append isIndent_defaultIndent.isBlanks line).symm

theorem return_not_mem_body {indent : Text} (hindent : IsIndent indent) :
    ∀ line ∈ Block.bodyOfText indent (t.body module content), Text.byte '\r' ∉ line := by
  intro line hline
  rw [t.bodyOfText_at module hcontent indent] at hline
  obtain ⟨inner, hinner, rfl⟩ := List.mem_map.mp hline
  rw [List.mem_append, not_or]
  exact ⟨hindent.not_mem (by decide), (t.inner module content hcontent inner hinner).noReturn⟩

/-- **What a module has written is read from the table**: it has a block in the table, and all blocks of its name hold
what it has written, whatever the table was before. -/
theorem parse_update {tree : FileTree} {path : Text} {update : TableUpdate}
    (h : t.update tree path module content = .ok update) (hname : Text.isIdentifier module = true) :
    ∃ d, BlockDocument.parse update.text = .ok d ∧ (∃ b ∈ d.blocks, b.name = module) ∧
      ∀ b ∈ d.blocks, b.name = module → b.body = (t.lines module content).map (b.indent ++ ·) := by
  obtain ⟨d, hparse, hown, hbody⟩ := parse_updateTable h hname (t.plainText_body module hcontent)
    fun indent hindent => t.return_not_mem_body module hcontent hindent
  refine ⟨d, hparse, hown, fun b hb hbname => ?_⟩
  rw [(hbody b hb hbname).2, t.bodyOfText_at module hcontent]

end SharedTable

/-- **The ids of a module are read from the table** after the module has written them: it has a block in the table, and
all blocks of its name hold its ids, whatever the table was before. -/
theorem parse_updateTypeIds {tree : FileTree} {path module : Text} {ids : List Text} {update : TableUpdate}
    (hids : ∀ id ∈ ids, EnumeratorName id) (h : updateTypeIds tree path module ids = .ok update)
    (hname : Text.isIdentifier module = true) :
    ∃ d, BlockDocument.parse update.text = .ok d ∧ (∃ b ∈ d.blocks, b.name = module) ∧
      ∀ b ∈ d.blocks, b.name = module → b.body = (idLines ids).map (b.indent ++ ·) := by
  rw [updateTypeIds_eq] at h
  exact typeIdsTable.parse_update module hids h hname

end HeaderReflection
