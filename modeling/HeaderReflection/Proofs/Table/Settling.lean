import HeaderReflection.Proofs.Table.OtherBlocks

/-!
# Tables that settle

A module that writes its block once more, with nothing else done to the table, changes nothing if the blocks of the
other modules are carried along as they are. The first update already takes blanks off their empty lines and brings
their lines to the indentation of the block. What is left are empty lines at the end of a block: each update takes them
off, but where blank lines had blanks in them or there is nothing else in the block, not all of them at once. After three
updates nothing is left to be taken off.

## Main definitions

- `BlockDocument.Printed`: a document that is read from its text as it is.
- `Block.EndsBlank`: a text whose last line is blank.
- `Repeated`: updates of a table, each of what the one before has written.

## Main results

- `Printed.parse_render`, `Printed.of_parse`: what is read without carriage returns is read again as it is.
- `replaceModule_replaceModule_iff`: when a second update changes nothing.
- `settled_after_three`: a fourth update changes nothing.
- `update_settles`: all this for the two tables.
-/

namespace HeaderReflection

open BlockDocument (defaultIndent PlainLine parseLines)

/-! ## §1 Documents that are read as they are -/

namespace BlockDocument

/-- A document that is read from its own text as it is: its pieces are, no carriage return gets lost, and the end of the
text tells whether its last line has an end. -/
structure Printed (d : BlockDocument) : Prop where
  readable : d.Readable
  noReturn : ∀ line ∈ d.lines, Text.byte '\r' ∉ line
  ended : d.endsLine = true → d.nodes ≠ []
  unended : d.endsLine = false → d.nodes.getLast? ≠ some (.line [])

theorem Printed.tellsEnd {d : BlockDocument} (hd : d.Printed) : d.TellsEnd where
  ended := hd.ended
  unended := by
    intro hends text hlast hsame
    have hline : text ∈ d.lines := List.mem_flatMap.mpr ⟨_, List.mem_of_getLast? hlast, List.mem_singleton_self text⟩
    rw [← hsame.eq_of_not_mem (hd.noReturn text hline)] at hlast
    exact hd.unended hends hlast

/-- **A document is read from its text** as it is. -/
theorem Printed.parse_render {d : BlockDocument} (hd : d.Printed) : parse d.render = .ok d := by
  obtain ⟨nodes, hparse, hsame⟩ := hd.readable.parse_render_nodes hd.tellsEnd
  have hnodes : List.Forall₂ (· = ·) d.nodes nodes := by
    refine forall₂_of_mem (fun node hnode node' hsame => ?_) hsame
    exact (hsame.eq_of_not_mem fun line hline => hd.noReturn line (List.mem_flatMap.mpr ⟨node, hnode, hline⟩)).symm
  rw [List.forall₂_eq_eq_eq] at hnodes
  rw [hparse, ← hnodes]

/-- Documents with one text are one document. -/
theorem Printed.render_inj {d d' : BlockDocument} (hd : d.Printed) (hd' : d'.Printed) (h : d.render = d'.render) :
    d = d' := by
  have hparse := hd.parse_render
  rw [h, hd'.parse_render, Except.ok.injEq] at hparse
  exact hparse.symm

/-- What is read is read again as it is, if no carriage return is left when the line ends have been made one. -/
theorem Printed.of_parse {text : Text} {d : BlockDocument} (h : parse text = .ok d)
    (hreturn : Text.byte '\r' ∉ text.unixLines) : d.Printed := by
  have hreadable := Readable.of_parse h
  unfold parse at h
  dsimp only at h
  -- a text without bytes has no lines; any other one is split at its line ends when the last of them is off
  split at h
  · cases h
    exact ⟨hreadable, by simp [lines], nofun, by simp⟩
  · next hne =>
    obtain ⟨nodes, hnodes, h⟩ := bind_ok h
    cases h
    have hlines := lines_of_parseLines hnodes
    change nodes.flatMap BlockNode.lines = Text.splitOn Text.lineFeed _ at hlines
    constructor
    · exact hreadable
    · intro line hline hmem
      rw [lines, hlines] at hline
      exact hreturn (Text.subset_trimSuffix _ _ (Text.subset_of_mem_splitOn hline hmem))
    · rintro - rfl
      exact Text.splitOn_ne_nil _ _ hlines.symm
    · intro hends hlast
      have hstrip : Text.stripSuffix? [Text.lineFeed] text.unixLines = none := by
        rw [← Option.not_isSome_iff_eq_none]
        exact ne_true_of_eq_false hends
      obtain ⟨front, rfl⟩ := List.getLast?_eq_some_iff.mp hlast
      rw [Text.trimSuffix, hstrip, Option.getD_none, List.flatMap_append] at hlines
      apply Text.getLast?_splitOn_of_unended hne hstrip
      rw [← hlines]
      simp [BlockNode.lines]

/-! ## §2 Updates keep documents so -/

/-- What a body holds comes from its text and its indentation. -/
theorem mem_of_mem_bodyOfText {indent text line : Text} {b : UInt8} (h : line ∈ Block.bodyOfText indent text)
    (hb : b ∈ line) : b ∈ indent ∨ b ∈ text := by
  unfold Block.bodyOfText at h
  split at h
  · cases h
  · obtain ⟨inner, hinner, rfl⟩ := List.mem_map.mp h
    unfold Block.indentLine at hb
    split at hb
    · cases hb
    · rcases List.mem_append.mp hb with hb | hb
      · exact Or.inl hb
      · exact Or.inr ((Text.trimEndOf_prefix _ _).subset (Text.subset_of_mem_splitOn hinner hb))

theorem not_mem_text {b : Block} {c : UInt8} (hc : c ≠ Text.lineFeed) (h : ∀ line ∈ b.lines, c ∉ line) : c ∉ b.text := by
  refine Text.not_mem_unlines hc fun line hline hmem => ?_
  obtain ⟨outer, houter, rfl⟩ := List.mem_map.mp hline
  have houterLine : outer ∈ b.lines := List.mem_append_left _ (List.mem_cons_of_mem _ houter)
  exact h outer houterLine (Text.subset_trimPrefix _ _ hmem)

theorem mem_lines_of_block {d : BlockDocument} {b : Block} (hb : b ∈ d.blocks) {line : Text} (hline : line ∈ b.lines) :
    line ∈ d.lines :=
  List.mem_flatMap.mpr ⟨.block b, mem_blocks_iff.mp hb, hline⟩

variable {d : BlockDocument} {module body : Text}

/-- The lines of a block with a new text have no carriage return if its markers and its body have none. -/
theorem noReturn_setText {b : Block} (hb : ∀ line ∈ b.lines, Text.byte '\r' ∉ line)
    (hbody : ∀ line ∈ Block.bodyOfText b.indent body, Text.byte '\r' ∉ line) :
    ∀ line ∈ (b.setText body).lines, Text.byte '\r' ∉ line := by
  intro line hline
  simp only [Block.lines, Block.setText, List.cons_append, List.mem_cons, List.mem_append, List.not_mem_nil,
    or_false] at hline
  rcases hline with rfl | hline | rfl
  · exact hb _ (by simp [Block.lines])
  · exact hbody line hline
  · exact hb _ (by simp [Block.lines])

theorem noReturn_ofName {indent : Text} (hname : Text.isIdentifier module = true) (hindent : IsIndent indent) :
    ∀ line ∈ (Block.ofName module indent).lines, Text.byte '\r' ∉ line := by
  have hmarker : ∀ marker : Text, Text.byte '\r' ∉ marker → Text.byte '\r' ∉ indent ++ marker ++ module := by
    intro marker h
    simp only [List.mem_append, not_or]
    exact ⟨⟨hindent.not_mem (by decide), h⟩, Text.not_mem_of_isIdentifier hname (by decide)⟩
  intro line hline
  simp only [Block.lines, Block.ofName, List.cons_append, List.nil_append, List.mem_cons, List.not_mem_nil,
    or_false] at hline
  rcases hline with rfl | rfl
  · exact hmarker _ (by decide)
  · exact hmarker _ (by decide)

/-- **Replacing the block of a module** leaves a document that is read from its text as it is. -/
theorem Printed.replaceModule (hd : d.Printed) (hname : Text.isIdentifier module = true) (hbody : PlainText body)
    (hreturn : ∀ indent, IsIndent indent → ∀ line ∈ Block.bodyOfText indent body, Text.byte '\r' ∉ line) :
    (d.replaceModule module body).Printed := by
  have hblock : ∀ b ∈ d.blocks, ∀ line ∈ b.lines, Text.byte '\r' ∉ line :=
    fun b hb line hline => hd.noReturn line (mem_lines_of_block hb hline)
  constructor
  · exact hd.readable.replaceModule hname hbody
  · intro line hline
    obtain ⟨node, hnode, hline⟩ := List.mem_flatMap.mp hline
    -- a piece comes from a line, a block of the module, a block of another one, or is the new block; the text of
    -- another block is that of some block before, and so has no carriage return either
    cases hd.readable.written node hnode with
    | @line text h =>
      rw [List.mem_singleton.mp hline]
      exact hd.noReturn text (List.mem_flatMap.mpr ⟨_, h, List.mem_singleton_self text⟩)
    | own h _ => exact noReturn_setText (hblock _ h) (hreturn _ (hd.readable.readsBack h).isIndent) line hline
    | @other b c h _ hc =>
      refine noReturn_setText (hblock b h) (fun inner hinner hmem => ?_) line hline
      rcases mem_of_mem_bodyOfText hinner hmem with hmem | hmem
      · exact (hd.readable.readsBack h).isIndent.not_mem (by decide) hmem
      · exact not_mem_text (by decide) (hblock c hc) hmem
    | new hindent => exact noReturn_setText (noReturn_ofName hname hindent) (hreturn _ hindent) line hline
  · rintro -
    obtain ⟨b, hb, -⟩ := exists_block_replaceModule d module body
    exact List.ne_nil_of_mem (mem_blocks_iff.mp hb)
  · intro hends
    exact fun hlast => hd.unended hends (getLast?_apply hlast)

end BlockDocument

/-! ## §3 Texts that settle -/

namespace Block

/-- Whether the last line of a text is blank, line ends at its end aside. A text of several line ends has such a line. -/
def EndsBlank (text : Text) : Prop :=
  text ≠ [] ∧
    ∃ line, (Text.splitOn Text.lineFeed (Text.trimEndOf [Text.lineFeed] text)).getLast? = some line ∧ line.isBlank = true

theorem endsBlank_iff {text : Text} : EndsBlank text ↔ (writtenLines text).getLast? = some [] := by
  unfold EndsBlank writtenLines bodyOfText
  split
  · next htext => simp [htext]
  · next htext =>
    rw [List.getLast?_map, Option.map_eq_some_iff, and_iff_right htext]
    refine exists_congr fun line => and_congr_right fun _ => ?_
    rcases indentLine_empty line with ⟨hline, hblank⟩ | ⟨hline, hvisible⟩
    · exact iff_of_true hblank hline
    · rw [hline]
      refine iff_of_false (by simp [hvisible]) (ne_nil_of_visible hvisible)

instance (text : Text) : Decidable (EndsBlank text) := decidable_of_iff _ endsBlank_iff.symm

/-- A block that has got a text is tidy exactly when the text does not end blank. -/
theorem tidy_setText_iff (b : Block) (text : Text) : (b.setText text).Tidy ↔ ¬EndsBlank text := by
  have hlast : (bodyOfText b.indent text).getLast? = some [] ↔ EndsBlank text := by
    rw [endsBlank_iff, bodyOfText_eq, List.getLast?_map, Option.map_eq_some_iff]
    constructor
    · rintro ⟨line, hline, hnil⟩
      rcases (mem_writtenLines (List.mem_of_getLast? hline)).1 with rfl | hvisible
      · exact hline
      · rw [indentLine_of_visible hvisible, List.append_eq_nil_iff] at hnil
        exact absurd hnil.2 (ne_nil_of_visible hvisible)
    · intro h
      exact ⟨[], h, rfl⟩
  rw [← hlast]
  constructor
  · exact fun h => h.last
  · intro h
    refine ⟨fun line hline => ?_, h⟩
    change line ∈ bodyOfText b.indent text at hline
    rw [bodyOfText_eq] at hline
    obtain ⟨inner, hinner, rfl⟩ := List.mem_map.mp hline
    rcases (mem_writtenLines hinner).1 with rfl | hvisible
    · exact Or.inl rfl
    · exact Or.inr ⟨inner, hvisible, indentLine_of_visible hvisible b.indent⟩

/-- What is written of a text when it is written once more. -/
def settled (text : Text) : Text := Text.unlines (writtenLines text)

theorem map_indentLine_writtenLines (text : Text) : (writtenLines text).map (indentLine []) = writtenLines text := by
  refine (List.map_congr_left fun line hline => ?_).trans (List.map_id _)
  rcases (mem_writtenLines hline).1 with rfl | hvisible
  · rfl
  · rw [indentLine_of_visible hvisible]
    rfl

theorem writtenLines_settled {text : Text} (h : ¬EndsBlank text) : writtenLines (settled text) = writtenLines text := by
  rw [endsBlank_iff] at h
  rw [settled, (writtenLines_unlines_iff fun line hline => (mem_writtenLines hline).2).mpr h,
    map_indentLine_writtenLines]

/-- A text that still ends blank when it has been written once has nothing but line ends. -/
theorem writtenLines_of_endsBlank_settled {text : Text} (h : EndsBlank (settled text)) :
    writtenLines (settled text) = [[]] := by
  have hne : settled text ≠ [] := h.1
  have hlines : writtenLines text ≠ [] := by
    intro hnil
    rw [settled, hnil] at hne
    exact hne rfl
  -- the lines that are left have been written, so the last one is not just blank but empty
  have hlast : (Text.splitOn Text.lineFeed (Text.trimEndOf [Text.lineFeed] (settled text))).getLast? = some [] := by
    obtain ⟨line, hline, hblank⟩ := h.2
    have hmem := mem_splitOn_of_trimEndOf (List.mem_of_getLast? hline)
    rw [settled, Text.splitOn_unlines hlines fun line hline => (mem_writtenLines hline).2] at hmem
    rcases (mem_writtenLines hmem).1 with rfl | hvisible
    · exact hline
    · rw [hvisible] at hblank
      cases hblank
  rw [writtenLines, bodyOfText, if_neg hne, Text.trimEndOf_eq_nil_of_getLast? hlast]
  rfl

/-- **A text that has been written twice** does not end blank when it is written again. -/
theorem not_endsBlank_settled_settled (text : Text) : ¬EndsBlank (settled (settled text)) := by
  by_cases h : EndsBlank (settled text)
  · -- what is left after the second time is nothing
    rw [settled, writtenLines_of_endsBlank_settled h]
    exact fun hblank => hblank.1 rfl
  · -- nothing has been lost the second time, so nothing will be
    rw [endsBlank_iff, writtenLines_settled h, ← endsBlank_iff]
    exact h

end Block

/-! ## §4 Documents that settle -/

namespace BlockDocument

variable {d : BlockDocument} {module body : Text}

/-- Whether no block of another module has a text that ends blank. -/
def SettledBeside (d : BlockDocument) (module : Text) : Prop :=
  ∀ b ∈ d.blocks, b.name ≠ module → ¬Block.EndsBlank (d.textOf b.name)

instance (d : BlockDocument) (module : Text) : Decidable (d.SettledBeside module) :=
  inferInstanceAs (Decidable (∀ b ∈ d.blocks, b.name ≠ module → ¬Block.EndsBlank (d.textOf b.name)))

/-- **The blocks of other modules after an update** are those before it, each with the text of its name. -/
theorem mem_blocks_replaceModule {b : Block} (hname : b.name ≠ module) :
    b ∈ (d.replaceModule module body).blocks ↔ ∃ c ∈ d.blocks, c.name = b.name ∧ b = c.setText (d.textOf c.name) := by
  have hother : ∀ {e : BlockDocument} {c : Block}, c.name ≠ module → (c ∈ e.blocks ↔ .block c ∈ e.others module) := by
    intro e c hc
    rw [mem_others, mem_blocks_iff]
    exact (and_iff_left (decide_eq_false hc)).symm
  rw [hother hname, others_replaceModule, List.mem_map]
  constructor
  · rintro ⟨node, hnode, hb⟩
    cases node with
    | line text => cases hb
    | block c =>
      obtain rfl := BlockNode.block.inj hb
      have hc : c.name ≠ module := hname
      exact ⟨c, (hother hc).mpr hnode, rfl, by rw [if_neg hc]⟩
  · rintro ⟨c, hc, hcname, rfl⟩
    have hcmodule : c.name ≠ module := hname
    exact ⟨.block c, (hother hcmodule).mp hc, by rw [rewritten, if_neg hcmodule]⟩

theorem textOf_replaceModule {c : Block} (hc : c ∈ d.blocks) (hname : c.name ≠ module) :
    (d.replaceModule module body).textOf c.name = Block.settled (d.textOf c.name) := by
  have hwritten : c.setText (d.textOf c.name) ∈ (d.replaceModule module body).blocks :=
    (mem_blocks_replaceModule (b := c.setText (d.textOf c.name)) hname).mpr ⟨c, hc, rfl, rfl⟩
  obtain ⟨b, hb, hbname, htext⟩ := exists_textOf hwritten
  change b.name = c.name at hbname
  change (d.replaceModule module body).textOf c.name = b.text at htext
  obtain ⟨c', -, hc'name, rfl⟩ := (mem_blocks_replaceModule (hbname ▸ hname)).mp hb
  rw [htext, Block.text_setText, hc'name, hbname]
  rfl

theorem tidyBeside_replaceModule_iff : (d.replaceModule module body).TidyBeside module ↔ d.SettledBeside module := by
  constructor
  · intro h c hc hname
    rw [← Block.tidy_setText_iff c]
    exact h.tidy _ ((mem_blocks_replaceModule (b := c.setText (d.textOf c.name)) hname).mpr ⟨c, hc, rfl, rfl⟩) hname
  · intro h
    constructor
    · intro b hb hname
      obtain ⟨c, hc, hcname, rfl⟩ := (mem_blocks_replaceModule hname).mp hb
      exact (Block.tidy_setText_iff c _).mpr (h c hc hname)
    · -- blocks of one name have all got one text
      intro b hb b' hb' hname hsame
      obtain ⟨c, -, hcname, hbEq⟩ := (mem_blocks_replaceModule hname).mp hb
      obtain ⟨c', -, hcname', hbEq'⟩ := (mem_blocks_replaceModule (hsame ▸ hname)).mp hb'
      rw [hbEq, hbEq', Block.text_setText, Block.text_setText, hcname, hcname', hsame]

/-- The blocks of the module hold what it has written already. -/
theorem rewritten_of_belongsTo (hd : d.Readable) (d' : BlockDocument) {node : BlockNode}
    (hnode : node ∈ (d.replaceModule module body).nodes) (hown : node.belongsTo module = true) :
    d'.rewritten module body node = node := by
  cases node with
  | line text => cases hown
  | block b =>
    have hname : b.name = module := of_decide_eq_true hown
    have hbody := hd.body_of_replaceModule (mem_blocks_iff.mpr hnode) hname
    rw [rewritten, if_pos hname, Block.setText, ← hbody]

/-- After an update nothing is left to be done exactly when nothing is left beside the blocks of the module. -/
theorem map_rewritten_replaceModule_iff (hd : d.Readable) (d' : BlockDocument) :
    (d.replaceModule module body).nodes.map (d'.rewritten module body) = (d.replaceModule module body).nodes ↔
      ((d.replaceModule module body).others module).map (d'.rewritten module body) =
        (d.replaceModule module body).others module := by
  conv_lhs => rhs; rw [← List.map_id (d.replaceModule module body).nodes]
  conv_rhs => rhs; rw [← List.map_id ((d.replaceModule module body).others module)]
  rw [List.map_inj_left, List.map_inj_left]
  constructor
  · intro h node hnode
    exact h node (mem_others.mp hnode).1
  · intro h node hnode
    by_cases hown : node.belongsTo module = true
    · exact rewritten_of_belongsTo hd d' hnode hown
    · exact h node (mem_others.mpr ⟨hnode, by simpa using hown⟩)

/-- **A second update changes nothing** exactly when no text of another module ends blank. -/
theorem replaceModule_replaceModule_iff (hd : d.Printed) (hupdated : (d.replaceModule module body).Printed) :
    (d.replaceModule module body).replaceModule module body = d.replaceModule module body ↔ d.SettledBeside module := by
  obtain ⟨b, hb, hname⟩ := exists_block_replaceModule d module body
  -- the second update has nothing to insert
  have hnodes : ((d.replaceModule module body).replaceModule module body).nodes =
      (d.replaceModule module body).nodes.map ((d.replaceModule module body).rewritten module body) :=
    nodes_replaceModule_of_block hb hname
  have hends : ((d.replaceModule module body).replaceModule module body).endsLine =
      (d.replaceModule module body).endsLine := rfl
  rw [← tidyBeside_replaceModule_iff, ← map_rewritten_others_iff hupdated.readable,
    ← map_rewritten_replaceModule_iff hd.readable, ← hnodes]
  constructor
  · intro h
    rw [h]
  · intro h
    rw [BlockDocument.mk.injEq]
    exact ⟨h, hends⟩

/-- **After two updates no text ends blank.** -/
theorem settledBeside_replaceModule_replaceModule :
    ((d.replaceModule module body).replaceModule module body).SettledBeside module := by
  intro b hb hname
  obtain ⟨c, hc, hcname, -⟩ := (mem_blocks_replaceModule hname).mp hb
  obtain ⟨c', hc', hcname', -⟩ := (mem_blocks_replaceModule (hcname ▸ hname)).mp hc
  have hname' : c'.name ≠ module := hcname' ▸ hcname ▸ hname
  rw [← hcname, textOf_replaceModule hc (hcname ▸ hname), ← hcname', textOf_replaceModule hc' hname']
  exact Block.not_endsBlank_settled_settled _

end BlockDocument

/-! ## §5 Tables that settle -/

/-- Updates of a table: the first one of a given text, and each of the others of what the one before has written. -/
structure Repeated (update : FileTree → Except TableError TableUpdate) (path stored : Text)
    (result : Nat → TableUpdate) : Prop where
  first : ∀ tree : FileTree, tree.read path = .ok stored → update tree = .ok (result 0)
  next : ∀ n (tree : FileTree), tree.read path = .ok (result n).text → update tree = .ok (result (n + 1))

/-- Updates that succeed every time. The second one has nothing to change under a condition, and there is nothing left to
change after the third one. -/
def Settles (update : FileTree → Except TableError TableUpdate) (path stored : Text) (atOnce : Prop) : Prop :=
  ∃ result, Repeated update path stored result ∧
    (result 1 = { text := (result 0).text, changed := false } ↔ atOnce) ∧
    ∀ n, 3 ≤ n → result n = { text := (result 2).text, changed := false }

namespace BlockDocument

/-- A document after a module has written the same a number of times. -/
def afterWrites (d : BlockDocument) (module body : Text) (n : Nat) : BlockDocument :=
  (·.replaceModule module body)^[n] d

/-- What the update with a number gives: its text, and whether it differs from what has been there. -/
def repeatedResult (d : BlockDocument) (stored module body : Text) : Nat → TableUpdate
  | 0 => { text := (d.afterWrites module body 1).render, changed := stored ≠ (d.afterWrites module body 1).render }
  | n + 1 =>
    { text := (d.afterWrites module body (n + 2)).render
      changed := (d.afterWrites module body (n + 1)).render ≠ (d.afterWrites module body (n + 2)).render }

variable {d : BlockDocument} {module body : Text}

theorem afterWrites_succ (d : BlockDocument) (module body : Text) (n : Nat) :
    d.afterWrites module body (n + 1) = (d.afterWrites module body n).replaceModule module body :=
  Function.iterate_succ_apply' _ n d

theorem text_repeatedResult (d : BlockDocument) (stored module body : Text) (n : Nat) :
    (d.repeatedResult stored module body n).text = (d.afterWrites module body (n + 1)).render := by
  cases n with
  | zero => rfl
  | succ n => rfl

section Written

variable (hd : d.Printed) (hname : Text.isIdentifier module = true) (hbody : PlainText body)
  (hreturn : ∀ indent, IsIndent indent → ∀ line ∈ Block.bodyOfText indent body, Text.byte '\r' ∉ line)

include hd hname hbody hreturn

theorem printed_afterWrites (n : Nat) : (d.afterWrites module body n).Printed := by
  induction n with
  | zero => exact hd
  | succ n ih =>
    rw [afterWrites_succ]
    exact ih.replaceModule hname hbody hreturn

/-- **A fourth update changes nothing**, and no later one does. -/
theorem settled_after_three {n : Nat} (hn : 3 ≤ n) : d.afterWrites module body n = d.afterWrites module body 3 := by
  have hprinted := printed_afterWrites hd hname hbody hreturn
  have hfixed : (d.afterWrites module body 3).replaceModule module body = d.afterWrites module body 3 :=
    (replaceModule_replaceModule_iff (hprinted 2) (hprinted 3)).mpr settledBeside_replaceModule_replaceModule
  -- the third document stays as it is under one more update, hence under any number of them
  induction n, hn using Nat.le_induction with
  | base => rfl
  | succ n _ ih => rw [afterWrites_succ, ih, hfixed]

theorem repeated_updateTable {path stored : Text} (skeleton : Text) (hparse : parse stored = .ok d) :
    Repeated (fun tree => updateTable tree path skeleton module body) path stored
      (d.repeatedResult stored module body) where
  first := fun _ hread => updateTable_of_parse hread hparse skeleton module body
  next := by
    intro n tree hread
    rw [text_repeatedResult] at hread
    have hparse' := (printed_afterWrites hd hname hbody hreturn (n + 1)).parse_render
    rw [updateTable_of_parse hread hparse' skeleton module body, ← afterWrites_succ]
    rfl

theorem settles_updateTable {path stored : Text} (skeleton : Text) (hparse : parse stored = .ok d) :
    Settles (fun tree => updateTable tree path skeleton module body) path stored (d.SettledBeside module) := by
  have hprinted := printed_afterWrites hd hname hbody hreturn
  refine ⟨_, repeated_updateTable hd hname hbody hreturn skeleton hparse, ?_, ?_⟩
  · rw [← replaceModule_replaceModule_iff hd (hprinted 1)]
    constructor
    · intro h
      exact (hprinted 2).render_inj (hprinted 1) (congrArg TableUpdate.text h)
    · intro h
      have hsame : d.afterWrites module body 2 = d.afterWrites module body 1 := h
      simp [repeatedResult, hsame]
  · intro n hn
    -- the update with this number has found the text of the third one
    obtain ⟨k, rfl⟩ : ∃ k, n = k + 1 := ⟨n - 1, by omega⟩
    have hbefore := settled_after_three hd hname hbody hreturn hn
    have hafter := settled_after_three hd hname hbody hreturn (Nat.le_succ_of_le hn)
    simp [repeatedResult, hbefore, hafter]

end Written

end BlockDocument

theorem SharedTable.settles (t : SharedTable) {path stored module : Text} {d : BlockDocument} {content : List Text}
    (hparse : BlockDocument.parse stored = .ok d) (hreturn : Text.byte '\r' ∉ stored)
    (hname : Text.isIdentifier module = true) (hcontent : t.admissible content) :
    Settles (fun tree => t.update tree path module content) path stored (d.SettledBeside module) :=
  BlockDocument.settles_updateTable (.of_parse hparse ((Text.unixLines_of_not_mem hreturn).symm ▸ hreturn)) hname
    (t.plainText_body module hcontent) (fun _ hindent => t.return_not_mem_body module hcontent hindent) _ hparse

/-- **Tables settle**, though not always at once. For any text without carriage returns whose markers pair up, and a
module that writes the same to it again and again, the second update gives the text of the first one, and tells that
nothing has changed, exactly when no text of another module ends blank. In any case all updates from the fourth one on
give the text of the third one, and tell that nothing has changed. -/
theorem update_settles {path stored module : Text} {d : BlockDocument} (hparse : BlockDocument.parse stored = .ok d)
    (hreturn : Text.byte '\r' ∉ stored) (hname : Text.isIdentifier module = true) :
    (∀ ids, (∀ id ∈ ids, Text.isIdentifier id = true) →
      Settles (fun tree => updateTypeIds tree path module ids) path stored (d.SettledBeside module)) ∧
    ∀ dependencies,
      Settles (fun tree => updateDependencies tree path module dependencies) path stored (d.SettledBeside module) := by
  rw [updateTypeIds_eq, updateDependencies_eq]
  constructor
  · intro ids hids
    exact typeIdsTable.settles hparse hreturn hname fun id hid => enumeratorName_of_isIdentifier (hids id hid)
  · intro dependencies
    exact dependenciesTable.settles hparse hreturn hname trivial

/-- A block that has been edited by hand is changed by the first update, and the second one leaves everything as it is. -/
theorem update_settles_at_once :
    let stored : Text := "  // block start a\n#ifdef F\n\t\n  a__X,\n#endif\n  // block end a\n"
    let update (text : Text) := updateTypeIds (tableFile text) "table.h" "m" ["m__B", "m__A"]
    ∃ text, update stored = .ok { text, changed := true } ∧ update text = .ok { text, changed := false } := by
  intro stored update
  have hfacts : (BlockDocument.parse stored).map (fun d => decide (d.SettledBeside "m")) = .ok true := by
    decide +kernel
  have hchanged : (update stored).map (·.changed) = .ok true := by decide +kernel
  cases hparse : BlockDocument.parse stored with
  | error fault => rw [hparse] at hfacts; cases hfacts
  | ok d =>
    rw [hparse, Except.map, Except.ok.injEq] at hfacts
    have hsettles : Settles (fun tree => updateTypeIds tree "table.h" "m" ["m__B", "m__A"]) "table.h" stored
        (d.SettledBeside "m") :=
      (update_settles hparse (by decide) (by decide)).1 ["m__B", "m__A"] (by decide)
    obtain ⟨result, hresult, honce, -⟩ := hsettles
    have hfirst : update stored = .ok (result 0) := hresult.first _ (read_tableFile stored)
    have hsecond : update (result 0).text = .ok (result 1) := hresult.next 0 _ (read_tableFile _)
    rw [honce.mpr (of_decide_eq_true hfacts)] at hsecond
    rw [hfirst, Except.map, Except.ok.injEq] at hchanged
    exact ⟨(result 0).text, by rw [hfirst, ← hchanged], hsecond⟩

/-- **Tables do not always settle at once.** Of two lines with nothing but blanks in a block of another module the first
update takes the blanks, the second one takes one line and the third one the other. -/
theorem third_update_of_blank_block :
    let update (text : Text) := updateTypeIds (tableFile text) "table.h" "m" []
    let own : Text := "// block start m\n// block end m\n"
    update ("// block start a\n\t\n\t\n// block end a\n" ++ own) =
        .ok { text := "// block start a\n\n\n// block end a\n" ++ own, changed := true } ∧
      update ("// block start a\n\n\n// block end a\n" ++ own) =
        .ok { text := "// block start a\n\n// block end a\n" ++ own, changed := true } ∧
      update ("// block start a\n\n// block end a\n" ++ own) =
        .ok { text := "// block start a\n// block end a\n" ++ own, changed := true } := by
  refine ⟨?_, ?_, ?_⟩ <;> decide +kernel

end HeaderReflection
