import HeaderReflection.Proofs.Table.ReadingBack

/-!
# The blocks of other modules

A module that writes its block into a shared table carries the blocks of the others along: each of them is taken without
its indentation and written back with it, and blocks of one name get the text of the last of them. What that does to a
block depends on how the block has been written. A block that a module has written comes back as it was; a block that
has been edited by hand may have lines at a smaller indentation, blanks on empty lines, or empty lines at its end, and
comes back changed.

## Main definitions

- `Block.Tidy`: a block that is written the way blocks are written.
- `BlockDocument.Rewritten`: a document after a module has written its block.

## Main results

- `Block.bodyOfText_text_iff`: a block comes back as it was exactly when it is tidy.
- `rewritten_replaceModule`: what replacing the block of a module does to all pieces of a document.
- `other_blocks_of_update`: what updates of the two tables do to the blocks of other modules.
-/

namespace HeaderReflection

open BlockDocument (defaultIndent)

namespace Block

/-! ## §1 Tidy blocks -/

/-- A block that is written the way blocks are written: its lines are indented like its markers or empty, and the last
one is not empty. -/
structure Tidy (b : Block) : Prop where
  lines : ∀ line ∈ b.body, line = [] ∨ ∃ rest, rest.isBlank = false ∧ line = b.indent ++ rest
  last : b.body.getLast? ≠ some []

theorem indentLine_trimPrefix_iff (indent line : Text) :
    indentLine indent (Text.trimPrefix indent line) = line ↔
      line = [] ∨ ∃ rest, rest.isBlank = false ∧ line = indent ++ rest := by
  constructor
  · intro h
    cases hblank : (Text.trimPrefix indent line).isBlank with
    | true =>
      rw [indentLine, hblank] at h
      exact Or.inl h.symm
    | false =>
      rw [indentLine_of_visible hblank] at h
      exact Or.inr ⟨_, hblank, h.symm⟩
  · rintro (rfl | ⟨rest, hvisible, rfl⟩)
    · rw [List.eq_nil_of_subset_nil (Text.subset_trimPrefix indent [])]
      rfl
    · rw [Text.trimPrefix_append, indentLine_of_visible hvisible]

instance (b : Block) : Decidable b.Tidy :=
  decidable_of_iff ((∀ line ∈ b.body, indentLine b.indent (Text.trimPrefix b.indent line) = line) ∧
      b.body.getLast? ≠ some [])
    ⟨fun h => ⟨fun line hline => (indentLine_trimPrefix_iff _ _).mp (h.1 line hline), h.2⟩,
     fun h => ⟨fun line hline => (indentLine_trimPrefix_iff _ _).mpr (h.lines line hline), h.last⟩⟩

/-- The lines of a block, as they are when its indentation is off. -/
def inner (b : Block) : List Text := b.body.map (Text.trimPrefix b.indent)

theorem lineFeed_not_mem_inner {b : Block} (hfeed : ∀ line ∈ b.body, Text.lineFeed ∉ line) :
    ∀ line ∈ b.inner, Text.lineFeed ∉ line := by
  intro line hline hmem
  obtain ⟨outer, houter, rfl⟩ := List.mem_map.mp hline
  exact hfeed outer houter (Text.subset_trimPrefix _ _ hmem)

/-- The last line stays empty when the indentation is taken off. -/
theorem getLast?_inner_of_empty {b : Block} (h : b.body.getLast? = some []) : b.inner.getLast? = some [] := by
  rw [inner, List.getLast?_map, h, Option.map_some, List.eq_nil_of_subset_nil (Text.subset_trimPrefix b.indent [])]

/-- In a tidy block no other last line becomes empty. -/
theorem Tidy.getLast?_inner {b : Block} (hb : b.Tidy) : b.inner.getLast? ≠ some [] := by
  intro h
  rw [inner, List.getLast?_map] at h
  obtain ⟨line, hline, htrim⟩ := Option.map_eq_some_iff.mp h
  rcases hb.lines line (List.mem_of_getLast? hline) with rfl | ⟨rest, hvisible, rfl⟩
  · exact hb.last hline
  · rw [Text.trimPrefix_append] at htrim
    rw [htrim] at hvisible
    cases hvisible

/-- Where no line is lost, the block comes back with each of its lines brought to the indentation. -/
theorem bodyOfText_text_of_last {b : Block} (hfeed : ∀ line ∈ b.body, Text.lineFeed ∉ line)
    (hlast : b.inner.getLast? ≠ some []) :
    bodyOfText b.indent b.text = b.body.map fun line => indentLine b.indent (Text.trimPrefix b.indent line) := by
  have htext : bodyOfText b.indent b.text = (writtenLines (Text.unlines b.inner)).map (indentLine b.indent) :=
    bodyOfText_eq _ _
  rw [htext, (writtenLines_unlines_iff (lineFeed_not_mem_inner hfeed)).mpr hlast]
  simp only [inner, List.map_map]
  exact List.map_congr_left fun line _ => indentLine_indentLine _ _

/-- An empty line at the end of a block gets lost. -/
theorem length_bodyOfText_lt {b : Block} (hfeed : ∀ line ∈ b.body, Text.lineFeed ∉ line)
    (hlast : b.inner.getLast? = some []) : (bodyOfText b.indent b.text).length < b.body.length := by
  obtain ⟨front, hfront⟩ := List.getLast?_eq_some_iff.mp hlast
  have hwritten : (writtenLines (Text.unlines b.inner)).length ≤ front.length := by
    rw [hfront]
    apply length_writtenLines_le
    intro line hline
    exact lineFeed_not_mem_inner hfeed line (hfront ▸ List.mem_append_left _ hline)
  calc (bodyOfText b.indent b.text).length
      = (writtenLines (Text.unlines b.inner)).length := by
        rw [bodyOfText_eq, List.length_map]
        rfl
    _ ≤ front.length := hwritten
    _ < b.inner.length := by simp [hfront]
    _ = b.body.length := List.length_map _

/-- **A block comes back as it was exactly when it is tidy.** -/
theorem bodyOfText_text_iff {b : Block} (hfeed : ∀ line ∈ b.body, Text.lineFeed ∉ line) :
    bodyOfText b.indent b.text = b.body ↔ b.Tidy := by
  have hpointwise : (b.body.map fun line => indentLine b.indent (Text.trimPrefix b.indent line)) = b.body ↔
      ∀ line ∈ b.body, line = [] ∨ ∃ rest, rest.isBlank = false ∧ line = b.indent ++ rest := by
    conv_lhs => rhs; rw [← List.map_id b.body]
    rw [List.map_inj_left]
    exact forall₂_congr fun line _ => indentLine_trimPrefix_iff b.indent line
  constructor
  · intro h
    have hlast : b.inner.getLast? ≠ some [] := by
      intro hlast
      have hlost := length_bodyOfText_lt hfeed hlast
      rw [h] at hlost
      exact lt_irrefl _ hlost
    rw [bodyOfText_text_of_last hfeed hlast] at h
    exact ⟨hpointwise.mp h, fun hbody => hlast (getLast?_inner_of_empty hbody)⟩
  · intro hb
    rw [bodyOfText_text_of_last hfeed hb.getLast?_inner]
    exact hpointwise.mpr hb.lines

end Block

/-! ## §2 Documents after a module has written its block -/

/-- Whether a piece of a document is a block with a given name. -/
def BlockNode.belongsTo (module : Text) (node : BlockNode) : Bool := node.block?.any (·.name = module)

namespace BlockDocument

/-- The pieces that are no blocks of a module, in their order. -/
def others (d : BlockDocument) (module : Text) : List BlockNode := d.nodes.filter (!·.belongsTo module)

/-- The text that stands for all blocks with a name: that of the last one. -/
def textOf (d : BlockDocument) (name : Text) : Text :=
  ((d.blocks.reverse.find? (·.name = name)).map Block.text).getD []

/-- What becomes of a piece when a module writes its block: lines stay, and every block gets a text. -/
def rewritten (d : BlockDocument) (module body : Text) : BlockNode → BlockNode
  | .line text => .line text
  | .block b => .block (b.setText (if b.name = module then body else d.textOf b.name))

/-- Whether all blocks of other modules are tidy and agree with those of the same name. -/
structure TidyBeside (d : BlockDocument) (module : Text) : Prop where
  tidy : ∀ b ∈ d.blocks, b.name ≠ module → b.Tidy
  agree : ∀ b ∈ d.blocks, ∀ c ∈ d.blocks, b.name ≠ module → c.name = b.name → c.text = b.text

instance (d : BlockDocument) (module : Text) : Decidable (d.TidyBeside module) :=
  decidable_of_iff ((∀ b ∈ d.blocks, b.name ≠ module → b.Tidy) ∧
      ∀ b ∈ d.blocks, ∀ c ∈ d.blocks, b.name ≠ module → c.name = b.name → c.text = b.text)
    ⟨fun h => ⟨h.1, h.2⟩, fun h => ⟨h.tidy, h.agree⟩⟩

/-- The place of a new block: before the first block of the sentinel, with its indentation, or else at the end. -/
def IsPlace (before after : List BlockNode) (indent : Text) : Prop :=
  (∀ node ∈ before, node.belongsTo sentinelName = false) ∧
  (after = [] ∧ indent = defaultIndent ∨
    ∃ sentinel rest, after = .block sentinel :: rest ∧ sentinel.name = sentinelName ∧ indent = sentinel.indent)

/-- The place of new blocks, whatever the sentinel is called: before its first block, with the indentation of that block,
or else at the end. -/
def IsPlaceFor (sentinel : Text) (before after : List BlockNode) (indent : Text) : Prop :=
  (∀ node ∈ before, node.belongsTo sentinel = false) ∧
  (after = [] ∧ indent = defaultIndent ∨
    ∃ b rest, after = .block b :: rest ∧ b.name = sentinel ∧ indent = b.indent)

/-- A document after a module has written its block. -/
structure Rewritten (d : BlockDocument) (module body : Text) (d' : BlockDocument) : Prop where
  /-- All lines stay, and so do the order of the blocks, their names, their indentations and their markers. A block of
  another module gets the text of the last block with its name. -/
  others : d'.others module = (d.others module).map (d.rewritten module body)
  /-- The blocks of other modules stay as they are exactly when they are tidy and those of one name agree. -/
  unchanged : d'.others module = d.others module ↔ d.TidyBeside module
  /-- The blocks of the module get its text where they are. -/
  replaced : (∃ b ∈ d.blocks, b.name = module) → d'.nodes = d.nodes.map (d.rewritten module body)
  /-- A module without a block gets one. -/
  inserted : (∀ b ∈ d.blocks, b.name ≠ module) → ∃ before after indent, d.nodes = before ++ after ∧
    IsPlace before after indent ∧ d'.nodes = before.map (d.rewritten module body) ++
      .block ((Block.ofName module indent).setText body) :: after.map (d.rewritten module body)
  /-- The end of the text stays. -/
  endsLine : d'.endsLine = d.endsLine

variable {d : BlockDocument} {module body : Text}

/-! ## §3 Pieces and places -/

theorem belongsTo_rewritten (d : BlockDocument) (module body name : Text) (node : BlockNode) :
    (d.rewritten module body node).belongsTo name = node.belongsTo name := by
  cases node with
  | line text => rfl
  | block b => rfl

theorem others_map_rewritten (d : BlockDocument) (module body : Text) (nodes : List BlockNode) :
    (nodes.map (d.rewritten module body)).filter (!·.belongsTo module) =
      (nodes.filter (!·.belongsTo module)).map (d.rewritten module body) := by
  rw [List.filter_map]
  congr 2
  funext node
  exact congrArg _ (d.belongsTo_rewritten module body module node)

/-- The block whose text stands for all blocks with a name. -/
theorem exists_last {b : Block} (hb : b ∈ d.blocks) :
    ∃ c ∈ d.blocks, c.name = b.name ∧ d.blocks.reverse.find? (·.name = b.name) = some c := by
  cases hfind : d.blocks.reverse.find? (·.name = b.name) with
  | none => exact absurd (decide_eq_true rfl) (List.find?_eq_none.mp hfind b (List.mem_reverse.mpr hb))
  | some c =>
    exact ⟨c, List.mem_reverse.mp (List.mem_of_find?_eq_some hfind), by simpa using List.find?_some hfind, rfl⟩

theorem get?_bodies {b : Block} (hb : b ∈ d.blocks) : d.bodies.get? b.name = some (d.textOf b.name) := by
  obtain ⟨c, -, -, hfind⟩ := exists_last hb
  have hbodies : d.bodies = bodiesOf d.blocks := rfl
  rw [hbodies, get?_bodiesOf, textOf, hfind]
  rfl

theorem exists_textOf {b : Block} (hb : b ∈ d.blocks) : ∃ c ∈ d.blocks, c.name = b.name ∧ d.textOf b.name = c.text := by
  obtain ⟨c, hc, hname, hfind⟩ := exists_last hb
  refine ⟨c, hc, hname, ?_⟩
  rw [textOf, hfind]
  rfl

/-- Every block has a text to be written, so none is cleared. -/
theorem map_updateNode (d : BlockDocument) (module body : Text) :
    d.nodes.map (updateNode (d.bodies.set module body) sentinelName) = d.nodes.map (d.rewritten module body) := by
  refine List.map_congr_left fun node hnode => ?_
  cases node with
  | line text => rfl
  | block b =>
    have hb := mem_blocks_iff.mpr hnode
    simp only [updateNode, updateBlock, rewritten, get?_set]
    by_cases hname : b.name = module
    · simp only [if_pos hname]
    · simp only [if_neg hname, get?_bodies hb]

theorem isSentinel_eq (sentinel : Text) (node : BlockNode) : isSentinel sentinel node = node.belongsTo sentinel := by
  cases node with
  | line text => rfl
  | block b => rfl

/-- **Every document has a place for new blocks.** -/
theorem exists_place (sentinel : Text) (nodes : List BlockNode) :
    ∃ before after indent, nodes = before ++ after ∧ IsPlaceFor sentinel before after indent := by
  induction nodes with
  | nil => exact ⟨[], [], defaultIndent, rfl, by simp, Or.inl ⟨rfl, rfl⟩⟩
  | cons node nodes ih =>
    cases hnode : node.belongsTo sentinel with
    | false =>
      obtain ⟨before, after, indent, rfl, hbefore, hafter⟩ := ih
      exact ⟨node :: before, after, indent, rfl, List.forall_mem_cons.mpr ⟨hnode, hbefore⟩, hafter⟩
    | true =>
      -- the first block of the sentinel
      cases node with
      | line text => cases hnode
      | block b =>
        have hname : b.name = sentinel := by simpa [BlockNode.belongsTo, BlockNode.block?] using hnode
        exact ⟨[], .block b :: nodes, b.indent, rfl, by simp, Or.inr ⟨b, nodes, rfl, hname, rfl⟩⟩

/-- **New blocks go to their place.** -/
theorem insertBlocks_of_place {sentinel indent : Text} {before after : List BlockNode}
    (h : IsPlaceFor sentinel before after indent) (bodies : Bodies) (names : List Text) :
    insertBlocks bodies names sentinel (before ++ after) =
      before ++ names.map (newBlock bodies indent) ++ after := by
  obtain ⟨hbefore, hafter⟩ := h
  have hpass : ∀ node ∈ before, (!isSentinel sentinel node) = true := by
    intro node hnode
    rw [isSentinel_eq, hbefore node hnode]
    rfl
  rcases hafter with ⟨rfl, rfl⟩ | ⟨b, rest, rfl, hname, rfl⟩
  · rw [insertBlocks, List.append_nil, List.takeWhile_eq_self_iff.mpr hpass, List.dropWhile_eq_nil_iff.mpr hpass]
    rfl
  · have hstop : isSentinel sentinel (.block b) = true := decide_eq_true hname
    rw [insertBlocks, List.takeWhile_append_of_pos hpass, List.dropWhile_append_of_pos hpass, List.takeWhile_cons,
      List.dropWhile_cons, hstop]
    simp [BlockNode.block?]

/-- What changes neither the names nor the indentations of blocks leaves the place of new ones where it is. -/
theorem IsPlaceFor.map {sentinel indent : Text} {before after : List BlockNode} {f : BlockNode → BlockNode}
    (h : IsPlaceFor sentinel before after indent) (hline : ∀ text, f (.line text) = .line text)
    (hblock : ∀ b : Block, ∃ b' : Block, f (.block b) = .block b' ∧ b'.name = b.name ∧ b'.indent = b.indent) :
    IsPlaceFor sentinel (before.map f) (after.map f) indent := by
  obtain ⟨hbefore, hafter⟩ := h
  constructor
  · intro node hnode
    obtain ⟨old, hold, rfl⟩ := List.mem_map.mp hnode
    cases old with
    | line text => rw [hline]; rfl
    | block b =>
      obtain ⟨b', hb', hname, -⟩ := hblock b
      have hother : decide (b.name = sentinel) = false := hbefore _ hold
      rw [hb', ← hother, ← hname]
      rfl
  · rcases hafter with ⟨rfl, rfl⟩ | ⟨b, rest, rfl, hname, rfl⟩
    · exact Or.inl ⟨rfl, rfl⟩
    · obtain ⟨b', hb', hname', hindent⟩ := hblock b
      exact Or.inr ⟨b', rest.map f, by rw [List.map_cons, hb'], hname'.trans hname, hindent.symm⟩

theorem mem_others {node : BlockNode} :
    node ∈ d.others module ↔ node ∈ d.nodes ∧ node.belongsTo module = false := by
  simp [others]

/-! ## §4 The blocks of other modules -/

/-- No line of a block has a line end, as it has been read from a text. -/
theorem lineFeed_not_mem_body (hd : d.Readable) {b : Block} (hb : b ∈ d.blocks) : ∀ line ∈ b.body, Text.lineFeed ∉ line := by
  intro line hline
  have hmem : line ∈ b.lines := List.mem_append_left _ (List.mem_cons_of_mem _ hline)
  exact (hd _ (mem_blocks_iff.mp hb)).lineFeed_not_mem hmem

/-- The pieces stay as they are exactly when each block has the text of its name already. -/
theorem map_rewritten_others_iff_bodies :
    (d.others module).map (d.rewritten module body) = d.others module ↔
      ∀ b ∈ d.blocks, b.name ≠ module → Block.bodyOfText b.indent (d.textOf b.name) = b.body := by
  conv_lhs => rhs; rw [← List.map_id (d.others module)]
  rw [List.map_inj_left]
  constructor
  · intro h b hb hname
    have hnode := h (.block b) (mem_others.mpr ⟨mem_blocks_iff.mp hb, decide_eq_false hname⟩)
    simp only [rewritten, if_neg hname, id, BlockNode.block.injEq] at hnode
    exact congrArg Block.body hnode
  · intro h node hnode
    obtain ⟨hmem, hother⟩ := mem_others.mp hnode
    cases node with
    | line text => rfl
    | block b =>
      have hname : b.name ≠ module := of_decide_eq_false hother
      simp only [rewritten, if_neg hname, Block.setText, h b (mem_blocks_iff.mpr hmem) hname, id]

/-- Where each block has the text of its name already, that is the text it has by itself. -/
theorem textOf_of_bodies
    (h : ∀ b ∈ d.blocks, b.name ≠ module → Block.bodyOfText b.indent (d.textOf b.name) = b.body) {b : Block}
    (hb : b ∈ d.blocks) (hname : b.name ≠ module) : d.textOf b.name = b.text := by
  have htext : ∀ b' ∈ d.blocks, b'.name = b.name →
      b'.text = Text.unlines (Block.writtenLines (d.textOf b.name)) := by
    intro b' hb' hname'
    have hbody := h b' hb' (hname' ▸ hname)
    rw [hname'] at hbody
    have hset : b'.setText (d.textOf b.name) = b' := by
      rw [Block.setText, hbody]
    rw [← Block.text_setText b', hset]
  -- the block whose text has been taken is one of those that have been written with it
  obtain ⟨c, hc, hcname, htextOf⟩ := exists_textOf hb
  rw [htextOf, htext c hc hcname, htext b hb rfl]

/-- **The blocks of other modules stay as they are exactly when they are tidy and those of one name agree.** -/
theorem map_rewritten_others_iff (hd : d.Readable) :
    (d.others module).map (d.rewritten module body) = d.others module ↔ d.TidyBeside module := by
  rw [map_rewritten_others_iff_bodies]
  constructor
  · intro h
    constructor
    · intro b hb hname
      rw [← Block.bodyOfText_text_iff (lineFeed_not_mem_body hd hb), ← textOf_of_bodies h hb hname]
      exact h b hb hname
    · intro b hb c hc hname hcname
      rw [← textOf_of_bodies h hb hname, ← textOf_of_bodies h hc (hcname ▸ hname), hcname]
  · intro h b hb hname
    obtain ⟨c, hc, hcname, htextOf⟩ := exists_textOf hb
    rw [htextOf, h.agree b hb c hc hname hcname]
    exact (Block.bodyOfText_text_iff (lineFeed_not_mem_body hd hb)).mpr (h.tidy b hb hname)

/-! ## §5 Replacing the block of a module -/

theorem nodes_replaceModule (d : BlockDocument) (module body : Text) :
    (d.replaceModule module body).nodes = insertBlocks (d.bodies.set module body)
      (if (d.block? module).isSome then [] else [module]) sentinelName (d.nodes.map (d.rewritten module body)) := by
  rw [← missingNames_set_bodies d module body, ← map_updateNode d module body]
  rfl

theorem nodes_replaceModule_of_block {b : Block} (hb : b ∈ d.blocks) (hname : b.name = module) :
    (d.replaceModule module body).nodes = d.nodes.map (d.rewritten module body) := by
  have hsome : (d.block? module).isSome = true := by
    rw [Option.isSome_iff_ne_none]
    exact fun hnone => block?_eq_none_iff.mp hnone b hb hname
  rw [nodes_replaceModule, if_pos hsome, TableContents.insertBlocks_nil]

theorem nodes_replaceModule_of_no_block (body : Text) (hnone : ∀ b ∈ d.blocks, b.name ≠ module) :
    ∃ before after indent, d.nodes = before ++ after ∧ IsPlace before after indent ∧
      (d.replaceModule module body).nodes = before.map (d.rewritten module body) ++
        .block ((Block.ofName module indent).setText body) :: after.map (d.rewritten module body) := by
  have hmissing : ¬(d.block? module).isSome = true := by
    rw [block?_eq_none_iff.mpr hnone]
    simp
  obtain ⟨before, after, indent, hnodes, hplace⟩ := exists_place sentinelName d.nodes
  have hplace' : IsPlaceFor sentinelName (before.map (d.rewritten module body)) (after.map (d.rewritten module body))
      indent :=
    hplace.map (fun _ => rfl) fun _ => ⟨_, rfl, rfl, rfl⟩
  refine ⟨before, after, indent, hnodes, hplace, ?_⟩
  rw [nodes_replaceModule, if_neg hmissing, hnodes, List.map_append, insertBlocks_of_place hplace', List.map_singleton,
    newBlock, get?_set, if_pos rfl, Option.getD_some, List.append_assoc]
  rfl

theorem others_replaceModule (d : BlockDocument) (module body : Text) :
    (d.replaceModule module body).others module = (d.others module).map (d.rewritten module body) := by
  -- with a block of the module all pieces stand where they are; without one the new block is left out of the others
  by_cases hown : ∃ b ∈ d.blocks, b.name = module
  · obtain ⟨b, hb, hname⟩ := hown
    rw [others, nodes_replaceModule_of_block hb hname, others_map_rewritten]
    rfl
  · have hnone : ∀ b ∈ d.blocks, b.name ≠ module := fun b hb hname => hown ⟨b, hb, hname⟩
    obtain ⟨before, after, indent, hsplit, -, hinsert⟩ := nodes_replaceModule_of_no_block body hnone
    have hnew : (BlockNode.block ((Block.ofName module indent).setText body)).belongsTo module = true :=
      decide_eq_true rfl
    rw [others, hinsert, List.filter_append, List.filter_cons_of_neg (by simp [hnew]), others_map_rewritten,
      others_map_rewritten, others, hsplit, List.filter_append, List.map_append]

/-- **Replacing the block of a module**: its blocks get the new text, or a new one is put in its place; all other pieces
are carried along. -/
theorem rewritten_replaceModule (hd : d.Readable) (module body : Text) :
    d.Rewritten module body (d.replaceModule module body) where
  others := others_replaceModule d module body
  unchanged := by
    rw [others_replaceModule]
    exact map_rewritten_others_iff hd
  replaced := fun ⟨_, hb, hname⟩ => nodes_replaceModule_of_block hb hname
  inserted := nodes_replaceModule_of_no_block body
  endsLine := rfl

end BlockDocument

/-! ## §6 Updates of tables -/

theorem updateTable_of_parse {tree : FileTree} {path stored : Text} {d : BlockDocument}
    (hread : tree.read path = .ok stored) (hparse : BlockDocument.parse stored = .ok d) (skeleton module body : Text) :
    updateTable tree path skeleton module body = .ok
      { text := (d.replaceModule module body).render, changed := stored ≠ (d.replaceModule module body).render } := by
  rw [updateTable, TableFile.load, hread]
  simp only [TableFile.ofText, hparse]
  change Except.ok (TableFile.updated _ _) = _
  simp [TableFile.updated]

/-- **What updates of the two tables do to the blocks of other modules.** For any text whose markers pair up, any module
and anything it writes, the update succeeds, and its text has the pieces of the old one in their order, with the lines
outside blocks, the names, the indentations and the markers as they were; the module's own blocks hold what it has
written, and there is a new one where it had none. The blocks of other modules are as they were, line by line, exactly
when they are tidy and those of one name agree. -/
theorem other_blocks_of_update {tree : FileTree} {path stored : Text} {d : BlockDocument}
    (hread : tree.read path = .ok stored) (hparse : BlockDocument.parse stored = .ok d) (module : Text) :
    (∀ ids, ∃ d' changed, updateTypeIds tree path module ids = .ok { text := d'.render, changed } ∧
      d.Rewritten module (typeIdsBody ids) d') ∧
    ∀ dependencies, ∃ d' changed,
      updateDependencies tree path module dependencies = .ok { text := d'.render, changed } ∧
      d.Rewritten module (dependenciesBody module dependencies) d' := by
  have hd := BlockDocument.Readable.of_parse hparse
  exact ⟨fun ids => ⟨_, _, updateTable_of_parse hread hparse _ _ _, BlockDocument.rewritten_replaceModule hd _ _⟩,
    fun dependencies =>
      ⟨_, _, updateTable_of_parse hread hparse _ _ _, BlockDocument.rewritten_replaceModule hd _ _⟩⟩

/-- The file of a table. -/
def tableFile (text : Text) : FileTree := { nodes := [({ rooted := false, parts := ["table.h"] }, .file text)] }

theorem read_tableFile (text : Text) : (tableFile text).read "table.h" = .ok text := rfl

/-- A block with an empty line inside and one at another indentation, beside a module that has no block yet. -/
theorem other_blocks_of_tidy_table :
    let stored : Text :=
      "// block start a\n\na__X,\n// block end a\n  // block start __end\n  count\n  // block end __end\n"
    ∃ (d d' : BlockDocument) (changed : Bool),
      BlockDocument.parse stored = .ok d ∧ d.blocks.map (·.name) = ["a", "__end"] ∧
      updateTypeIds (tableFile stored) "table.h" "m" ["m__B", "m__A"] = .ok { text := d'.render, changed } ∧
      d'.others "m" = d.others "m" := by
  intro stored
  have hfacts : (BlockDocument.parse stored).map (fun d => (d.blocks.map (·.name), decide (d.TidyBeside "m"))) =
      .ok (["a", "__end"], true) := by decide +kernel
  cases hparse : BlockDocument.parse stored with
  | error fault => rw [hparse] at hfacts; cases hfacts
  | ok d =>
    rw [hparse, Except.map, Except.ok.injEq, Prod.mk.injEq] at hfacts
    obtain ⟨d', changed, hupdate, hrewritten⟩ :=
      (other_blocks_of_update (read_tableFile stored) hparse "m").1 ["m__B", "m__A"]
    exact ⟨d, d', changed, rfl, hfacts.1, hupdate, hrewritten.unchanged.mpr (of_decide_eq_true hfacts.2)⟩

/-- The bodies of the blocks in a text, by their names. -/
def blockBodies (text : Text) : Option (List (Text × List Text)) :=
  (BlockDocument.parse text).toOption.map fun d => d.blocks.map fun b => (b.name, b.body)

/-- The bodies of the blocks in a table after a module has written that it has no types. -/
def blockBodiesAfter (text module : Text) : Option (List (Text × List Text)) :=
  (updateTypeIds (tableFile text) "table.h" module []).toOption.bind fun update => blockBodies update.text

/-- **Blocks of other modules do not always stay as they are.** A line without indentation in an indented block gets one,
and of two blocks with one name the first gets the text of the second. -/
theorem other_blocks_of_edited_table :
    let indented : Text := "  // block start a\n#ifdef F\n  a__X,\n#endif\n  // block end a\n"
    let twice : Text := "// block start a\nX\n// block end a\n// block start a\nY\n// block end a\n"
    let own : Text := "// block start m\n// block end m\n"
    blockBodies (indented ++ own) = .some [("a", ["#ifdef F", "  a__X,", "#endif"]), ("m", [])] ∧
      blockBodiesAfter (indented ++ own) "m" = .some [("a", ["  #ifdef F", "  a__X,", "  #endif"]), ("m", [])] ∧
      blockBodies (twice ++ own) = .some [("a", ["X"]), ("a", ["Y"]), ("m", [])] ∧
      blockBodiesAfter (twice ++ own) "m" = .some [("a", ["Y"]), ("a", ["Y"]), ("m", [])] := by
  refine ⟨?_, ?_, ?_, ?_⟩ <;> decide +kernel

end HeaderReflection
