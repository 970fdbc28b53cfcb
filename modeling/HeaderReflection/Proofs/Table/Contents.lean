import HeaderReflection.Proofs.Table.Document
import HeaderReflection.Proofs.Text.Fields
import HeaderReflection.Proofs.Text.Quoted

/-!
# Contents of shared tables

A shared table is a frame of plain lines around the blocks of its modules and the block of the sentinel, which comes
last. This is kept by every update, and an update changes nothing but the block of its module.

## Main definitions

- `TableBlock`, `TableContents`: the blocks and the frame of a table.
- `TableContents.text`: the table as text.
- `TableContents.withBlock`: the table after a module has written its block.
- `TableContents.Sound`: what makes a table readable.

## Main results

- `parse_text`: a sound table is read back from its text.
- `replaceModule_document`: replacing the block of a module in the document is `withBlock`.
- `Sound.withBlock`: updates keep tables sound.
- `updateTable_stored`, `updateTable_absent`: what an update makes of a stored table and of none.
-/

namespace HeaderReflection

open BlockDocument (defaultIndent PlainLine)
open Block (BodyLine)

/-! ## §1 Blocks and frames -/

/-- A block of a table: its name and the lines of its body without their indentation. -/
structure TableBlock where
  name : Text
  lines : List Text
  deriving DecidableEq, Repr

/-- The block with its marker lines and its indentation. -/
def TableBlock.toBlock (b : TableBlock) : Block :=
  { Block.ofName b.name defaultIndent with body := b.lines.map (defaultIndent ++ ·) }

/-- A table: the lines before its blocks, the blocks of the modules, the body of the sentinel's block and the lines after
it. -/
structure TableContents where
  before : List Text
  modules : List TableBlock
  sentinel : List Text
  after : List Text
  deriving DecidableEq, Repr

namespace TableContents

/-- The block that new blocks go before. -/
def sentinelBlock (c : TableContents) : TableBlock := ⟨sentinelName, c.sentinel⟩

/-- All blocks of a table. -/
def blocks (c : TableContents) : List TableBlock := c.modules ++ [c.sentinelBlock]

/-- The table as a block document. -/
def document (c : TableContents) : BlockDocument where
  nodes := c.before.map .line ++ (c.blocks.map fun b => .block b.toBlock) ++ c.after.map .line
  endsLine := true

/-- The table as text. -/
def text (c : TableContents) : Text := c.document.render

/-- The table after a module has written its block: the lines go into the block that has the module's name, or into a
new one behind those of the other modules. -/
def withBlock (c : TableContents) (module : Text) (lines : List Text) : TableContents :=
  if module = sentinelName then { c with sentinel := lines }
  else if module ∈ c.modules.map (·.name) then
    { c with modules := c.modules.map fun b => if b.name = module then ⟨module, lines⟩ else b }
  else { c with modules := c.modules ++ [⟨module, lines⟩] }

/-- A line of the frame: no marker, and on one line of its own. -/
structure FrameLine (line : Text) : Prop extends PlainLine line where
  unbroken : Text.lineFeed ∉ line
  noReturn : Text.byte '\r' ∉ line

/-- A line in the body of a block of a table. -/
structure InnerLine (line : Text) : Prop extends BodyLine defaultIndent line where
  noReturn : Text.byte '\r' ∉ line

/-- A table that is read back from its text: its lines stay lines, no line of it but those of its blocks is a marker,
and no two blocks have the same name. -/
structure Sound (c : TableContents) : Prop where
  before : ∀ line ∈ c.before, FrameLine line
  after : ∀ line ∈ c.after, FrameLine line
  names : ∀ b ∈ c.blocks, Text.isIdentifier b.name = true
  distinct : (c.blocks.map (·.name)).Nodup
  lines : ∀ b ∈ c.blocks, ∀ line ∈ b.lines, InnerLine line

theorem mem_blocks {c : TableContents} {b : TableBlock} : b ∈ c.blocks ↔ b ∈ c.modules ∨ b = c.sentinelBlock := by
  simp [blocks]

/-! ## §2 Marker lines -/

theorem isBlankByte_of_mem_defaultIndent : ∀ b ∈ defaultIndent, b < 128 ∧ Text.isBlankByte b = true := by
  decide +kernel

/-- A line with the given marker, four spaces in. -/
def markerLine (marker name : Text) : Text := defaultIndent ++ marker ++ name

theorem trim_markerLine {marker name : Text} (hmarker : ∃ rest, marker = Text.byte '/' :: rest)
    (hlow : ∀ b ∈ marker, b < 128) (hname : Text.isIdentifier name = true) :
    (markerLine marker name).trim = marker ++ name := by
  obtain ⟨rest, rfl⟩ := hmarker
  have hindent : Text.IsBlanks defaultIndent := by
    have hall : defaultIndent.all Text.isBlankByte = true := by decide
    exact List.all_eq_true.mp hall
  rw [markerLine, List.append_assoc, Text.trim_blanks_append hindent]
  exact Text.trim_append_of_trimmed hlow (by decide) (Text.ne_nil_of_isIdentifier hname) (Text.trim_of_isIdentifier hname)

theorem ofMarkerLine?_markerLine {marker name : Text} (hmarker : ∃ rest, marker = Text.byte '/' :: rest)
    (hlow : ∀ b ∈ marker, b < 128) (hname : Text.isIdentifier name = true) :
    Block.ofMarkerLine? marker (markerLine marker name) = some (name, defaultIndent) := by
  have hindent : (markerLine marker name).takeWhile (fun b => b = Text.byte ' ' || b = Text.byte '\t') =
      defaultIndent := by
    obtain ⟨rest, rfl⟩ := hmarker
    rfl
  rw [Block.ofMarkerLine?, trim_markerLine hmarker hlow hname, Text.stripPrefix?_append, hindent, Option.map_some,
    Text.trim_of_isIdentifier hname]

/-! ## §3 Reading a table back -/

theorem lines_toBlock (b : TableBlock) :
    b.toBlock.lines =
      markerLine Block.startMarker b.name :: b.lines.map (defaultIndent ++ ·) ++ [markerLine Block.endMarker b.name] :=
  rfl

theorem readsBack_toBlock {b : TableBlock} (hname : Text.isIdentifier b.name = true)
    (hlines : ∀ line ∈ b.lines, InnerLine line) : BlockDocument.ReadsBack b.toBlock where
  start := ofMarkerLine?_markerLine ⟨_, rfl⟩ (by decide +kernel) hname
  finish := ⟨defaultIndent, ofMarkerLine?_markerLine ⟨_, rfl⟩ (by decide +kernel) hname⟩
  body := by
    intro line hline
    obtain ⟨inner, hinner, rfl⟩ := List.mem_map.mp hline
    exact ⟨(hlines inner hinner).noStart, (hlines inner hinner).noEnd⟩

/-- A byte that is no letter, digit or underscore is in a marker line only if it is in the marker or the indentation. -/
theorem not_mem_markerLine {marker name : Text} {b : UInt8} (hname : Text.isIdentifier name = true)
    (hb : Text.isIdentifierByte b = false) (hindent : b ∉ defaultIndent) (hmarker : b ∉ marker) :
    b ∉ markerLine marker name := by
  simp only [markerLine, List.mem_append, not_or]
  exact ⟨⟨hindent, hmarker⟩, Text.not_mem_of_isIdentifier hname hb⟩

/-- A byte that is in no line of the frame, no line of a body, no marker and no name is nowhere in the table. -/
theorem not_mem_line {c : TableContents} (hc : c.Sound) {b : UInt8} (hb : Text.isIdentifierByte b = false)
    (hindent : b ∉ defaultIndent) (hstart : b ∉ Block.startMarker) (hend : b ∉ Block.endMarker)
    (hframe : ∀ line, FrameLine line → b ∉ line) (hinner : ∀ line, InnerLine line → b ∉ line)
    {line : Text} (hline : line ∈ c.document.lines) : b ∉ line := by
  obtain ⟨node, hnode, hline⟩ := List.mem_flatMap.mp hline
  simp only [document, List.mem_append, List.mem_map] at hnode
  rcases hnode with (⟨l, hl, rfl⟩ | ⟨block, hblock, rfl⟩) | ⟨l, hl, rfl⟩
  · rw [List.mem_singleton.mp hline]
    exact hframe l (hc.before l hl)
  · change line ∈ block.toBlock.lines at hline
    rw [lines_toBlock, List.mem_append, List.mem_cons, List.mem_singleton] at hline
    have hname := hc.names block hblock
    rcases hline with (rfl | hline) | rfl
    · exact not_mem_markerLine hname hb hindent hstart
    · obtain ⟨l, hl, rfl⟩ := List.mem_map.mp hline
      rw [List.mem_append, not_or]
      exact ⟨hindent, hinner l (hc.lines block hblock l hl)⟩
    · exact not_mem_markerLine hname hb hindent hend
  · rw [List.mem_singleton.mp hline]
    exact hframe l (hc.after l hl)

theorem lineFeed_not_mem_line {c : TableContents} (hc : c.Sound) {line : Text} (hline : line ∈ c.document.lines) :
    Text.lineFeed ∉ line :=
  not_mem_line hc (by decide) (by decide) (by decide) (by decide) (fun _ h => h.unbroken) (fun _ h => h.unbroken) hline

theorem return_not_mem_line {c : TableContents} (hc : c.Sound) {line : Text} (hline : line ∈ c.document.lines) :
    Text.byte '\r' ∉ line :=
  not_mem_line hc (by decide) (by decide) (by decide) (by decide) (fun _ h => h.noReturn) (fun _ h => h.noReturn) hline

theorem nodes_ne_nil (c : TableContents) : c.document.nodes ≠ [] := by
  simp [document, blocks]

theorem lines_ne_nil (c : TableContents) : c.document.lines ≠ [] := by
  simp [BlockDocument.lines, document, blocks, BlockNode.lines, lines_toBlock]

theorem text_eq (c : TableContents) : c.text = Text.unlines c.document.lines ++ [Text.lineFeed] := by
  rw [text, BlockDocument.render, if_pos ⟨rfl, nodes_ne_nil c⟩]

theorem return_not_mem_text {c : TableContents} (hc : c.Sound) : Text.byte '\r' ∉ c.text := by
  rw [text_eq, List.mem_append, List.mem_singleton, not_or]
  refine ⟨?_, by decide⟩
  intro hmem
  rcases Text.mem_joinWith hmem with h | ⟨line, hline, h⟩
  · exact absurd h (by decide)
  · exact return_not_mem_line hc hline h

theorem parseLines_blocks {blocks : List TableBlock} {rest : List Text} {nodes : List BlockNode}
    (hnames : ∀ b ∈ blocks, Text.isIdentifier b.name = true)
    (hlines : ∀ b ∈ blocks, ∀ line ∈ b.lines, InnerLine line)
    (hrest : ∀ number, BlockDocument.parseLines number none rest = .ok nodes) (number : Nat) :
    BlockDocument.parseLines number none (blocks.flatMap (fun b => b.toBlock.lines) ++ rest) =
      .ok (blocks.map (fun b => .block b.toBlock) ++ nodes) := by
  induction blocks generalizing number with
  | nil => exact hrest number
  | cons b blocks ih =>
    have hreads := readsBack_toBlock (hnames b List.mem_cons_self) (hlines b List.mem_cons_self)
    have htail := ih (fun d hd => hnames d (List.mem_cons_of_mem _ hd))
      (fun d hd => hlines d (List.mem_cons_of_mem _ hd))
    rw [List.flatMap_cons, List.append_assoc]
    exact BlockDocument.parseLines_block hreads htail number

/-- **A sound table is read back from its text.** -/
theorem parse_text {c : TableContents} (hc : c.Sound) : BlockDocument.parse c.text = .ok c.document := by
  have hlines : c.document.lines =
      c.before ++ (c.blocks.flatMap (fun b => b.toBlock.lines) ++ (c.after ++ [])) := by
    simp [BlockDocument.lines, document, List.flatMap_map, BlockNode.lines]
  have hnil : ∀ number, BlockDocument.parseLines number none [] = .ok [] := fun _ => rfl
  have hafter := BlockDocument.parseLines_plain (fun line h => (hc.after line h).toPlainLine) hnil
  have hblocks := parseLines_blocks hc.names hc.lines hafter
  have hall := BlockDocument.parseLines_plain (fun line h => (hc.before line h).toPlainLine) hblocks 1
  rw [← hlines] at hall
  have hne : c.text ≠ [] := by simp [text_eq]
  rw [BlockDocument.parse, Text.unixLines_of_not_mem (return_not_mem_text hc), if_neg hne, text_eq,
    Text.trimSuffix_append, Text.endsWith_append]
  dsimp only
  rw [Text.splitOn_unlines (lines_ne_nil c) (fun line h => lineFeed_not_mem_line hc h), hall]
  simp [document, bind, Except.bind, pure, Except.pure]

/-! ## §4 Updating a table -/

/-- The only element that passes a test is the one that is found. -/
theorem find?_eq_some_of_unique {α : Type} {p : α → Bool} {xs : List α} {a : α} (hmem : a ∈ xs) (ha : p a = true)
    (hunique : ∀ x ∈ xs, p x = true → x = a) : xs.find? p = some a := by
  cases h : xs.find? p with
  | none => exact absurd ha (List.find?_eq_none.mp h a hmem)
  | some x => rw [hunique x (List.mem_of_find?_eq_some h) (List.find?_some h)]

theorem blocks_document (c : TableContents) : c.document.blocks = c.blocks.map TableBlock.toBlock := by
  simp [document, BlockDocument.blocks, List.filterMap_append, List.filterMap_map, BlockNode.block?,
    Function.comp_def]

theorem eq_of_name_eq {c : TableContents} (hc : c.Sound) {b b' : TableBlock} (hb : b ∈ c.blocks) (hb' : b' ∈ c.blocks)
    (h : b'.name = b.name) : b' = b :=
  List.inj_on_of_nodup_map hc.distinct hb' hb h

/-- The text of a block under its name. -/
theorem get?_bodies_document {c : TableContents} (hc : c.Sound) {b : TableBlock} (hb : b ∈ c.blocks) :
    c.document.bodies.get? b.name = some (Text.unlines b.lines) := by
  have hfind : (c.blocks.map TableBlock.toBlock).reverse.find? (·.name = b.name) = some b.toBlock := by
    refine find?_eq_some_of_unique ?_ ?_ ?_
    · exact List.mem_reverse.mpr (List.mem_map_of_mem hb)
    · exact decide_eq_true rfl
    · intro x hx hname
      obtain ⟨b', hb', rfl⟩ := List.mem_map.mp (List.mem_reverse.mp hx)
      rw [eq_of_name_eq hc hb hb' (of_decide_eq_true hname)]
  have htext : b.toBlock.text = Text.unlines b.lines := Block.text_of_body rfl
  change (BlockDocument.bodiesOf c.document.blocks).get? b.name = _
  rw [BlockDocument.get?_bodiesOf, blocks_document, hfind, Option.map_some, htext]

/-- A block after a module has written its lines. -/
def writtenBlock (module : Text) (lines : List Text) (b : TableBlock) : TableBlock :=
  if b.name = module then ⟨module, lines⟩ else b

theorem updateBlock_toBlock {c : TableContents} (hc : c.Sound) {module body : Text} {lines : List Text}
    (hbody : Block.bodyOfText defaultIndent body = lines.map (defaultIndent ++ ·)) {b : TableBlock}
    (hb : b ∈ c.blocks) :
    BlockDocument.updateBlock (c.document.bodies.set module body) sentinelName b.toBlock =
      (writtenBlock module lines b).toBlock := by
  have hname : b.toBlock.name = b.name := rfl
  rw [BlockDocument.updateBlock, hname, BlockDocument.get?_set, get?_bodies_document hc hb, writtenBlock]
  by_cases h : b.name = module
  · subst h
    simp [Block.setText, TableBlock.toBlock, Block.ofName, hbody]
  · have hsame : Block.bodyOfText defaultIndent (Text.unlines b.lines) = b.lines.map (defaultIndent ++ ·) :=
      Block.bodyOfText_unlines (fun line hline => (hc.lines b hb line hline).toBodyLine)
    simp [h, Block.setText, TableBlock.toBlock, Block.ofName, hsame]

theorem updateNodes_document {c : TableContents} (hc : c.Sound) {module body : Text} {lines : List Text}
    (hbody : Block.bodyOfText defaultIndent body = lines.map (defaultIndent ++ ·)) :
    c.document.nodes.map (BlockDocument.updateNode (c.document.bodies.set module body) sentinelName) =
      c.before.map .line ++ (c.blocks.map fun b => .block (writtenBlock module lines b).toBlock) ++
        c.after.map .line := by
  have hblocks : (c.blocks.map fun b => BlockNode.block b.toBlock).map
      (BlockDocument.updateNode (c.document.bodies.set module body) sentinelName) =
      c.blocks.map fun b => .block (writtenBlock module lines b).toBlock := by
    rw [List.map_map]
    refine List.map_congr_left ?_
    intro b hb
    exact congrArg BlockNode.block (updateBlock_toBlock hc hbody hb)
  have hplain : ∀ frame : List Text, (frame.map BlockNode.line).map
      (BlockDocument.updateNode (c.document.bodies.set module body) sentinelName) = frame.map .line := by
    intro frame
    rw [List.map_map]
    rfl
  change (_ ++ _ ++ _ : List BlockNode).map _ = _
  rw [List.map_append, List.map_append, hblocks, hplain, hplain]

theorem insertBlocks_nil (bodies : BlockDocument.Bodies) (sentinel : Text) (nodes : List BlockNode) :
    BlockDocument.insertBlocks bodies [] sentinel nodes = nodes := by
  simp [BlockDocument.insertBlocks]

/-- A new block goes behind the blocks of the other modules. -/
theorem insertBlocks_singleton {bodies : BlockDocument.Bodies} {module : Text} {frame : List Text}
    {modules : List TableBlock} {sentinel : List Text} {rest : List BlockNode}
    (hmodules : ∀ b ∈ modules, b.name ≠ sentinelName) :
    BlockDocument.insertBlocks bodies [module] sentinelName
        (frame.map .line ++ (modules.map fun b => .block b.toBlock) ++
          .block (TableBlock.toBlock ⟨sentinelName, sentinel⟩) :: rest) =
      frame.map .line ++ (modules.map fun b => .block b.toBlock) ++
        BlockDocument.newBlock bodies defaultIndent module ::
          .block (TableBlock.toBlock ⟨sentinelName, sentinel⟩) :: rest := by
  -- everything up to the block of the sentinel is kept, and the new block goes right there
  have hkeep : ∀ node ∈ frame.map BlockNode.line ++ (modules.map fun b => BlockNode.block b.toBlock),
      (!BlockDocument.isSentinel sentinelName node) = true := by
    intro node hnode
    rcases List.mem_append.mp hnode with hnode | hnode
    · obtain ⟨line, -, rfl⟩ := List.mem_map.mp hnode
      rfl
    · obtain ⟨b, hb, rfl⟩ := List.mem_map.mp hnode
      simpa [BlockDocument.isSentinel, BlockNode.block?, TableBlock.toBlock, Block.ofName] using hmodules b hb
  have hstop : (!BlockDocument.isSentinel sentinelName
      (.block (TableBlock.toBlock ⟨sentinelName, sentinel⟩))) = false := by
    simp [BlockDocument.isSentinel, BlockNode.block?, TableBlock.toBlock, Block.ofName]
  simp only [BlockDocument.insertBlocks]
  rw [List.takeWhile_append_of_pos hkeep, List.dropWhile_append_of_pos hkeep,
    List.takeWhile_cons_of_neg (by simp [hstop]),
    List.dropWhile_cons_of_neg (by simp [hstop])]
  simp [BlockNode.block?, TableBlock.toBlock, Block.ofName]

theorem name_ne_sentinel {c : TableContents} (hc : c.Sound) {b : TableBlock} (hb : b ∈ c.modules) :
    b.name ≠ sentinelName := by
  have hdistinct := hc.distinct
  rw [blocks, List.map_append, List.nodup_append] at hdistinct
  exact hdistinct.2.2 b.name (List.mem_map_of_mem hb) sentinelName (by simp [sentinelBlock])

theorem block?_document_isSome {c : TableContents} {module : Text} :
    (c.document.block? module).isSome = true ↔ module = sentinelName ∨ module ∈ c.modules.map (·.name) := by
  rw [BlockDocument.block?, List.find?_isSome, blocks_document]
  constructor
  · rintro ⟨x, hx, hname⟩
    obtain ⟨b, hb, rfl⟩ := List.mem_map.mp hx
    have hname : b.name = module := of_decide_eq_true hname
    rcases mem_blocks.mp hb with hb | rfl
    · exact Or.inr (hname ▸ List.mem_map_of_mem hb)
    · exact Or.inl hname.symm
  · rintro (rfl | h)
    · exact ⟨c.sentinelBlock.toBlock, List.mem_map_of_mem (mem_blocks.mpr (Or.inr rfl)), decide_eq_true rfl⟩
    · obtain ⟨b, hb, rfl⟩ := List.mem_map.mp h
      exact ⟨b.toBlock, List.mem_map_of_mem (mem_blocks.mpr (Or.inl hb)), decide_eq_true rfl⟩

theorem writtenBlock_of_ne {module : Text} {lines : List Text} {b : TableBlock} (h : b.name ≠ module) :
    writtenBlock module lines b = b := by
  simp [writtenBlock, h]

theorem map_writtenBlock_of_not_mem {module : Text} {lines : List Text} {blocks : List TableBlock}
    (h : module ∉ blocks.map (·.name)) : blocks.map (writtenBlock module lines) = blocks := by
  conv_rhs => rw [← List.map_id blocks]
  refine List.map_congr_left ?_
  intro b hb
  exact writtenBlock_of_ne fun e => h (e ▸ List.mem_map_of_mem hb)

/-- The blocks of a table after a module has written its own. -/
theorem blocks_withBlock {c : TableContents} (hc : c.Sound) (module : Text) (lines : List Text) :
    (c.withBlock module lines).blocks =
      if module ∈ c.blocks.map (·.name) then c.blocks.map (writtenBlock module lines)
      else c.modules ++ [⟨module, lines⟩, c.sentinelBlock] := by
  have hsentinel : c.sentinelBlock.name = sentinelName := rfl
  have hmem : module ∈ c.blocks.map (·.name) ↔ module ∈ c.modules.map (·.name) ∨ module = sentinelName := by
    simp [blocks, hsentinel]
  by_cases h1 : module = sentinelName
  · -- a module that bears the name of the sentinel writes into the block of the sentinel
    subst h1
    have hnot : sentinelName ∉ c.modules.map (·.name) := by
      intro h
      obtain ⟨b, hb, hname⟩ := List.mem_map.mp h
      exact name_ne_sentinel hc hb hname
    rw [if_pos (hmem.mpr (Or.inr rfl)), withBlock, if_pos rfl, blocks, blocks, List.map_append,
      map_writtenBlock_of_not_mem hnot]
    rfl
  · have hkeep : writtenBlock module lines c.sentinelBlock = c.sentinelBlock := writtenBlock_of_ne (Ne.symm h1)
    by_cases h2 : module ∈ c.modules.map (·.name)
    · rw [if_pos (hmem.mpr (Or.inl h2)), withBlock, if_neg h1, if_pos h2, blocks, blocks, List.map_append,
        List.map_singleton, hkeep]
      rfl
    · rw [if_neg (fun h => (hmem.mp h).elim h2 h1), withBlock, if_neg h1, if_neg h2, blocks, List.append_assoc]
      rfl

@[simp] theorem before_withBlock (c : TableContents) (module : Text) (lines : List Text) :
    (c.withBlock module lines).before = c.before := by
  unfold withBlock
  split
  · rfl
  · split <;> rfl

@[simp] theorem after_withBlock (c : TableContents) (module : Text) (lines : List Text) :
    (c.withBlock module lines).after = c.after := by
  unfold withBlock
  split
  · rfl
  · split <;> rfl

/-- **Replacing the block of a module** in the document of a table writes the lines of its text into the table. -/
theorem replaceModule_document {c : TableContents} (hc : c.Sound) {module body : Text} {lines : List Text}
    (hbody : Block.bodyOfText defaultIndent body = lines.map (defaultIndent ++ ·)) :
    c.document.replaceModule module body = (c.withBlock module lines).document := by
  have hmem : module ∈ c.blocks.map (·.name) ↔ (c.document.block? module).isSome = true := by
    rw [block?_document_isSome]
    simp [blocks, sentinelBlock, or_comm]
  have hwritten : (c.withBlock module lines).document.nodes = c.before.map .line ++
      ((c.withBlock module lines).blocks.map fun b => .block b.toBlock) ++ c.after.map .line := by
    simp [document]
  have hnodes : (c.document.replaceModule module body).nodes = (c.withBlock module lines).document.nodes := by
    rw [BlockDocument.replaceModule, BlockDocument.apply, BlockDocument.missingNames_set_bodies,
      updateNodes_document hc hbody, hwritten, blocks_withBlock hc]
    by_cases h : (c.document.block? module).isSome = true
    · rw [if_pos h, insertBlocks_nil, if_pos (hmem.mpr h)]
      simp [Function.comp_def]
    · -- no block has the name of the module, so all of them stay and a new one goes before the sentinel's
      have hnot : module ∉ c.blocks.map (·.name) := fun hm => h (hmem.mp hm)
      have hsame : (c.blocks.map fun b => BlockNode.block (writtenBlock module lines b).toBlock) =
          (c.modules.map fun b => .block b.toBlock) ++ [.block (TableBlock.toBlock ⟨sentinelName, c.sentinel⟩)] := by
        have hmap : c.blocks.map (writtenBlock module lines) = c.blocks := map_writtenBlock_of_not_mem hnot
        calc (c.blocks.map fun b => BlockNode.block (writtenBlock module lines b).toBlock)
            = (c.blocks.map (writtenBlock module lines)).map fun b => .block b.toBlock := by
              rw [List.map_map]; rfl
          _ = _ := by rw [hmap, blocks, List.map_append]; rfl
      have hnew : BlockDocument.newBlock (c.document.bodies.set module body) defaultIndent module =
          .block (TableBlock.toBlock ⟨module, lines⟩) := by
        simp [BlockDocument.newBlock, BlockDocument.get?_set, Block.setText, TableBlock.toBlock, Block.ofName, hbody]
      rw [if_neg h, hsame, if_neg hnot]
      simp only [List.append_assoc, List.singleton_append]
      rw [← List.append_assoc, insertBlocks_singleton (fun b hb => name_ne_sentinel hc hb), hnew]
      simp [sentinelBlock]
  have hends : (c.document.replaceModule module body).endsLine = (c.withBlock module lines).document.endsLine := rfl
  cases hleft : c.document.replaceModule module body
  cases hright : (c.withBlock module lines).document
  rw [hleft, hright] at hnodes hends
  rw [BlockDocument.mk.injEq]
  exact ⟨hnodes, hends⟩

/-- **Updates keep tables sound.** -/
theorem Sound.withBlock {c : TableContents} (hc : c.Sound) {module : Text} {lines : List Text}
    (hname : Text.isIdentifier module = true) (hlines : ∀ line ∈ lines, InnerLine line) :
    (c.withBlock module lines).Sound := by
  have hmem : ∀ b ∈ (c.withBlock module lines).blocks, b ∈ c.blocks ∨ b = ⟨module, lines⟩ := by
    intro b hb
    rw [blocks_withBlock hc] at hb
    split at hb
    · obtain ⟨b', hb', rfl⟩ := List.mem_map.mp hb
      rw [writtenBlock]
      split
      · exact Or.inr rfl
      · exact Or.inl hb'
    · simp only [List.mem_append, List.mem_cons, List.not_mem_nil, or_false] at hb
      rcases hb with hb | rfl | rfl
      · exact Or.inl (mem_blocks.mpr (Or.inl hb))
      · exact Or.inr rfl
      · exact Or.inl (mem_blocks.mpr (Or.inr rfl))
  constructor
  · simpa using hc.before
  · simpa using hc.after
  · intro b hb
    rcases hmem b hb with hb | rfl
    · exact hc.names b hb
    · exact hname
  · rw [blocks_withBlock hc]
    split
    · -- a block that is written again keeps its name
      have hnames : (c.blocks.map (writtenBlock module lines)).map (·.name) = c.blocks.map (·.name) := by
        rw [List.map_map]
        refine List.map_congr_left ?_
        intro b _
        by_cases h : b.name = module <;> simp [writtenBlock, h]
      rw [hnames]
      exact hc.distinct
    · next hnot =>
      have hperm : (c.modules ++ [⟨module, lines⟩, c.sentinelBlock]).Perm (⟨module, lines⟩ :: c.blocks) :=
        List.perm_middle
      rw [(hperm.map (·.name)).nodup_iff, List.map_cons, List.nodup_cons]
      exact ⟨hnot, hc.distinct⟩
  · intro b hb
    rcases hmem b hb with hb | rfl
    · exact hc.lines b hb
    · exact hlines

/-- The block that a module has written is in the table. -/
theorem mem_blocks_withBlock {c : TableContents} (hc : c.Sound) (module : Text) (lines : List Text) :
    ⟨module, lines⟩ ∈ (c.withBlock module lines).blocks := by
  rw [blocks_withBlock hc]
  split
  · next h =>
    obtain ⟨b, hb, hname⟩ := List.mem_map.mp h
    exact List.mem_map.mpr ⟨b, hb, by simp [writtenBlock, hname]⟩
  · simp

/-- The blocks of other modules stay. -/
theorem mem_blocks_withBlock_of_ne {c : TableContents} (hc : c.Sound) {module : Text} {lines : List Text}
    {b : TableBlock} (hb : b ∈ c.blocks) (hne : b.name ≠ module) : b ∈ (c.withBlock module lines).blocks := by
  rw [blocks_withBlock hc]
  split
  · exact List.mem_map.mpr ⟨b, hb, writtenBlock_of_ne hne⟩
  · rcases mem_blocks.mp hb with hb | rfl <;> simp_all

/-- Writing a block again changes nothing. -/
theorem withBlock_of_mem {c : TableContents} (hc : c.Sound) {module : Text} {lines : List Text}
    (h : ⟨module, lines⟩ ∈ c.blocks) : c.withBlock module lines = c := by
  unfold TableContents.withBlock
  rcases mem_blocks.mp h with hb | hb
  · have hne : module ≠ sentinelName := name_ne_sentinel hc hb
    rw [if_neg hne, if_pos (List.mem_map_of_mem hb)]
    have hsame : (c.modules.map fun b => if b.name = module then ⟨module, lines⟩ else b) = c.modules := by
      conv_rhs => rw [← List.map_id c.modules]
      refine List.map_congr_left ?_
      intro b hb'
      by_cases hname : b.name = module
      · -- names are distinct, so that this is the block that is there
        rw [if_pos hname]
        exact (eq_of_name_eq hc h (mem_blocks.mpr (Or.inl hb')) hname).symm
      · rw [if_neg hname]
        rfl
    rw [hsame]
  · have hname : module = sentinelName := congrArg TableBlock.name hb
    have hlines : lines = c.sentinel := congrArg TableBlock.lines hb
    rw [if_pos hname, hlines]

end TableContents

/-! ## §5 Tables in files -/

theorem updateTable_stored {tree : FileTree} {path skeleton module body : Text} {lines : List Text}
    {c : TableContents} (hc : c.Sound) (hread : tree.read path = .ok c.text)
    (hbody : Block.bodyOfText defaultIndent body = lines.map (defaultIndent ++ ·)) :
    (updateTable tree path skeleton module body).map (·.text) = .ok (c.withBlock module lines).text := by
  rw [updateTable, TableFile.load, hread]
  simp only [TableFile.ofText, TableContents.parse_text hc]
  change Except.ok (c.document.replaceModule module body).render = _
  rw [TableContents.replaceModule_document hc hbody]
  rfl

theorem updateTable_absent {tree : FileTree} {path module body : Text} {error : FileError} {lines : List Text}
    {c : TableContents} (hc : c.Sound) (hread : tree.read path = .error error) (hreason : error.reason = .notExist)
    (hbody : Block.bodyOfText defaultIndent body = lines.map (defaultIndent ++ ·)) :
    (updateTable tree path c.text module body).map (·.text) = .ok (c.withBlock module lines).text := by
  rw [updateTable, TableFile.load, hread]
  simp only [hreason, if_true, TableFile.ofSkeleton, TableContents.parse_text hc]
  change Except.ok (c.document.replaceModule module body).render = _
  rw [TableContents.replaceModule_document hc hbody]
  rfl

end HeaderReflection
