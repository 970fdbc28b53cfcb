import HeaderReflection.Proofs.Table.Settling

/-!
# Patching a table twice

A patch gives each block the text for its name, takes away the texts of the others but for the sentinel, and adds the
blocks that are missing. Doing this a second time, to the text that the first time has given, changes nothing. What is
read from that text need not be what has been written, since bodies and names may have carriage returns in them, and
those at the ends of lines get lost. They come back with the second patch, because it writes the same texts.

So each piece of a patched document is looked at for itself: whatever a carriage return at the end of one of its lines
costs, the patch makes it what it has been.

## Main definitions

- `Patchable`: names that markers can carry, and texts without markers.
- `StartsFrom`: the text that a patch is applied to.
- `BlockDocument.ComesBack`: a piece that a patch makes what it has been.

## Main results

- `apply_parse_render`: a second patch of a document that has been written and read changes nothing.
- `patchTable_again`: a second patch of a table changes nothing.
-/

namespace HeaderReflection

open BlockDocument (defaultIndent PlainLine)

/-! ## §1 What can be patched in -/

instance (line : Text) : Decidable (PlainLine line) :=
  decidable_of_iff (Block.ofMarkerLine? Block.startMarker line = none ∧ Block.ofMarkerLine? Block.endMarker line = none)
    ⟨fun h => ⟨h.1, h.2⟩, fun h => ⟨h.noStart, h.noEnd⟩⟩

instance (name : Text) : Decidable (BlockName name) :=
  decidable_of_iff (name ≠ [] ∧ Text.lineFeed ∉ name ∧ name.trim = name)
    ⟨fun h => ⟨h.1, h.2.1, h.2.2⟩, fun h => ⟨h.ne_nil, h.unbroken, h.trimmed⟩⟩

/-- Names that markers can carry, with texts none of whose lines is a marker. -/
def Patchable (bodies : BlockDocument.Bodies) : Prop :=
  ∀ entry ∈ bodies, BlockName entry.1 ∧ ∀ line ∈ Text.splitOn Text.lineFeed entry.2, PlainLine line

instance (bodies : BlockDocument.Bodies) : Decidable (Patchable bodies) := List.decidableBAll _ _

/-- The text that a patch is applied to: that of the file, or the skeleton where there is no file. -/
def StartsFrom (tree : FileTree) (path skeleton text : Text) : Prop :=
  tree.read path = .ok text ∨ ∃ error, tree.read path = .error error ∧ error.reason = .notExist ∧ text = skeleton

theorem plainText_of_lines {text : Text} (h : ∀ line ∈ Text.splitOn Text.lineFeed text, PlainLine line) :
    PlainText text :=
  fun line hline => h line (mem_splitOn_of_trimEndOf hline)

theorem Patchable.plainText {bodies : BlockDocument.Bodies} (h : Patchable bodies) {name text : Text}
    (hget : bodies.get? name = some text) : PlainText text :=
  plainText_of_lines (h _ (BlockDocument.mem_of_get?_eq_some hget)).2

theorem Patchable.blockName {bodies : BlockDocument.Bodies} (h : Patchable bodies) {name : Text}
    (hname : name ∈ bodies.map (·.1)) : BlockName name := by
  obtain ⟨entry, hentry, rfl⟩ := List.mem_map.mp hname
  exact (h entry hentry).1

namespace BlockDocument

variable {d : BlockDocument} {bodies : Bodies} {sentinel : Text}

/-! ## §2 Pieces that come back -/

/-- **A piece that comes back**: whatever carriage returns it has lost at the ends of its lines, the patch makes it what
it has been. -/
def ComesBack (bodies : Bodies) (sentinel : Text) (node : BlockNode) : Prop :=
  ∀ node', SameNode node node' → updateNode bodies sentinel node' = node

theorem comesBack_line {text : Text} (hreturn : Text.byte '\r' ∉ text) : ComesBack bodies sentinel (.line text) := by
  intro node' hsame
  cases hsame with
  | line same => rw [same.eq_of_not_mem hreturn, updateNode]

/-- A block that has got a text comes back if its marker lines have nothing to lose, and blocks of its name get that
text again. -/
theorem comesBack_setText {b : Block} {text : Text} (hstart : b.start.getLast? ≠ some (Text.byte '\r'))
    (hfinish : b.finish.getLast? ≠ some (Text.byte '\r'))
    (hupdate : ∀ c : Block, c.name = b.name → updateBlock bodies sentinel c = c.setText text) :
    ComesBack bodies sentinel (.block (b.setText text)) := by
  intro node' hsame
  cases hsame with
  | @block _ b' same =>
    obtain ⟨name, indent, start, finish, body⟩ := b'
    obtain ⟨rfl, rfl, hsameStart, -, hsameFinish⟩ := same
    obtain rfl : start = b.start := hsameStart.eq_of_getLast? hstart
    obtain rfl : finish = b.finish := hsameFinish.eq_of_getLast? hfinish
    exact congrArg BlockNode.block (hupdate { b with body } rfl)

theorem comesBack_old {b : Block} (hreturn : ∀ line ∈ b.lines, Text.byte '\r' ∉ line) :
    ComesBack bodies sentinel (.block (updateBlock bodies sentinel b)) := by
  have hend : ∀ line ∈ b.lines, line.getLast? ≠ some (Text.byte '\r') :=
    fun line hline hlast => hreturn line hline (List.mem_of_getLast? hlast)
  have hstart := hend b.start (by simp [Block.lines])
  have hfinish := hend b.finish (by simp [Block.lines])
  -- the same is done to every block of the name
  cases hget : bodies.get? b.name with
  | some text =>
    have hupdate : ∀ c : Block, c.name = b.name → updateBlock bodies sentinel c = c.setText text := by
      intro c hc
      rw [updateBlock, hc, hget]
    rw [hupdate b rfl]
    exact comesBack_setText hstart hfinish hupdate
  | none =>
    by_cases hname : b.name = sentinel
    · have hupdate : ∀ c : Block, c.name = b.name → updateBlock bodies sentinel c = c := by
        intro c hc
        rw [updateBlock, hc, hget]
        exact if_pos hname
      intro node' hsame
      rw [hupdate b rfl] at hsame
      rw [hsame.eq_of_not_mem hreturn, updateNode]
    · have hupdate : ∀ c : Block, c.name = b.name → updateBlock bodies sentinel c = c.setText [] := by
        intro c hc
        rw [updateBlock, hc, hget]
        exact if_neg hname
      rw [hupdate b rfl]
      exact comesBack_setText hstart hfinish hupdate

theorem comesBack_new {indent name : Text} (hname : BlockName name) (hkey : name ∈ bodies.map (·.1)) :
    ComesBack bodies sentinel (newBlock bodies indent name) := by
  obtain ⟨text, hget⟩ := exists_get?_of_mem_keys hkey
  -- the name may have carriage returns inside, but it does not end in one
  have hend : ∀ marker : Text, (indent ++ marker ++ name).getLast? ≠ some (Text.byte '\r') := by
    intro marker
    rw [List.getLast?_append_of_ne_nil _ hname.ne_nil]
    exact Text.getLast?_of_trim_eq_self hname.trimmed (by decide)
  rw [newBlock, hget]
  refine comesBack_setText (hend _) (hend _) fun c hc => ?_
  change c.name = name at hc
  rw [updateBlock, hc, hget]
  rfl

/-- **Every piece of a patched document comes back.** -/
theorem Printed.comesBack (hd : d.Printed) (hbodies : Patchable bodies) :
    ∀ node ∈ (d.apply bodies sentinel).nodes, ComesBack bodies sentinel node := by
  intro node hnode
  cases patched_of_mem hd.readable node hnode with
  | @line text h => exact comesBack_line (hd.noReturn text (List.mem_flatMap.mpr ⟨_, h, List.mem_singleton_self text⟩))
  | old h => exact comesBack_old fun line hline => hd.noReturn line (mem_lines_of_block h hline)
  | new _ hname =>
    have hkey := (mem_missingNames.mp hname).1
    exact comesBack_new (hbodies.blockName hkey) hkey

/-! ## §3 Patching twice -/

/-- The end of the text still tells if the last line of a document has an end when it has been patched. -/
theorem TellsEnd.apply (hd : d.TellsEnd) : (d.apply bodies sentinel).TellsEnd where
  ended := by
    intro hends
    obtain ⟨node, hnode⟩ := List.exists_mem_of_ne_nil _ (hd.ended hends)
    obtain ⟨indent, -, hmem⟩ :=
      mem_insertBlocks bodies (d.missingNames bodies) sentinel (d.nodes.map (updateNode bodies sentinel))
    exact List.ne_nil_of_mem ((hmem _).mpr (Or.inl (List.mem_map_of_mem hnode)))
  unended := fun hends text hlast => hd.unended hends text (getLast?_apply hlast)

/-- What differs from a patched document in nothing but carriage returns lacks no block. -/
theorem missingNames_of_sameNode {nodes : List BlockNode} {ends : Bool}
    (h : List.Forall₂ SameNode (d.apply bodies sentinel).nodes nodes) :
    missingNames { nodes, endsLine := ends } bodies = [] := by
  rw [List.eq_nil_iff_forall_not_mem]
  intro name hmissing
  obtain ⟨hkey, hnone⟩ := mem_missingNames.mp hmissing
  obtain ⟨b, hb, hname⟩ := exists_block_apply hkey
  obtain ⟨b', hb', hsame⟩ := exists_of_mem_forall₂ (forall₂_sameBlock h).flip hb
  exact hnone b' hb' (hsame.name.trans hname)

theorem map_updateNode_of_comesBack {nodes nodes' : List BlockNode} (h : List.Forall₂ SameNode nodes nodes')
    (hback : ∀ node ∈ nodes, ComesBack bodies sentinel node) : nodes'.map (updateNode bodies sentinel) = nodes := by
  induction h with
  | nil => rfl
  | cons hnode _ ih =>
    obtain ⟨hfirst, hrest⟩ := List.forall_mem_cons.mp hback
    rw [List.map_cons, hfirst _ hnode, ih hrest]

/-- **A second patch changes nothing.** A patched document that has been written can be read, and when what has been read
is patched in the same way, it is the document that has been written. -/
theorem Printed.apply_parse_render (hd : d.Printed) (hbodies : Patchable bodies) :
    ∃ d', parse (d.apply bodies sentinel).render = .ok d' ∧ d'.apply bodies sentinel = d.apply bodies sentinel := by
  have hends : (d.apply bodies sentinel).TellsEnd := hd.tellsEnd.apply
  have hreadable : (d.apply bodies sentinel).Readable :=
    hd.readable.apply hbodies.plainText fun name hname => hbodies.blockName (mem_missingNames.mp hname).1
  obtain ⟨nodes, hparse, hsame⟩ := hreadable.parse_render_nodes hends
  refine ⟨_, hparse, ?_⟩
  -- no block is missing the second time, so the pieces that are there are all there is to do
  rw [apply, missingNames_of_sameNode hsame, TableContents.insertBlocks_nil]
  rw [map_updateNode_of_comesBack hsame (hd.comesBack hbodies)]

end BlockDocument

/-! ## §4 Patched tables -/

variable {tree : FileTree} {path skeleton sentinel text : Text} {bodies : BlockDocument.Bodies} {d : BlockDocument}

theorem patchTable_of_read (hread : tree.read path = .ok text) (hparse : BlockDocument.parse text = .ok d) :
    patchTable tree path bodies skeleton sentinel =
      .ok { text := (d.apply bodies sentinel).render, changed := text ≠ (d.apply bodies sentinel).render } := by
  rw [patchTable, TableFile.load, hread]
  simp only [TableFile.ofText, hparse]
  change Except.ok (TableFile.updated _ _) = _
  simp [TableFile.updated]

theorem patchTable_of_skeleton {error : FileError} (hread : tree.read path = .error error)
    (hreason : error.reason = .notExist) (hparse : BlockDocument.parse skeleton = .ok d) :
    patchTable tree path bodies skeleton sentinel =
      .ok { text := (d.apply bodies sentinel).render, changed := true } := by
  rw [patchTable, TableFile.load, hread]
  simp only [if_pos hreason, TableFile.ofSkeleton, hparse]
  rfl

/-- **Patching a table twice.** Let a table be patched with texts none of whose lines is a marker, under names that
markers can carry, whatever the sentinel is: a file whose markers pair up, or a skeleton in its place, in which no
carriage returns are left when the line ends have been made one. The patch succeeds; and wherever its text is read from
the file then, a second patch with the same texts succeeds, gives the same text, and tells that nothing has changed. -/
theorem patchTable_again (hstart : StartsFrom tree path skeleton text) (hparse : BlockDocument.parse text = .ok d)
    (hreturn : Text.byte '\r' ∉ text.unixLines) (hbodies : Patchable bodies) :
    ∃ update, patchTable tree path bodies skeleton sentinel = .ok update ∧
      ∀ tree' : FileTree, tree'.read path = .ok update.text →
        patchTable tree' path bodies skeleton sentinel = .ok { text := update.text, changed := false } := by
  obtain ⟨update, hupdate, htext⟩ : ∃ update, patchTable tree path bodies skeleton sentinel = .ok update ∧
      update.text = (d.apply bodies sentinel).render := by
    rcases hstart with hread | ⟨error, hread, hreason, rfl⟩
    · exact ⟨_, patchTable_of_read hread hparse, rfl⟩
    · exact ⟨_, patchTable_of_skeleton hread hreason hparse, rfl⟩
  refine ⟨update, hupdate, fun tree' hread => ?_⟩
  obtain ⟨d', hparse', happly⟩ := (BlockDocument.Printed.of_parse hparse hreturn).apply_parse_render hbodies
  rw [htext] at hread ⊢
  rw [patchTable_of_read hread hparse', happly]
  simp

/-- A file without a sentinel, with two blocks of one name at different indentations and one without a text, and a missing
file with a skeleton: a text has a carriage return at the end of a line, and a name has one inside. -/
theorem patchTable_of_old_and_new :
    let bodies : BlockDocument.Bodies := [("a", "x,\r\n \n  y,\n\n"), ("b\rc", "")]
    let stored : Text := "\t// block start a\r\n\t// block end a\nint z;\n// block start a\nx\n// block end a\n" ++
      "// block start d\nx\n// block end d"
    let skeleton : Text := "  // block start __end\n  count\n  // block end __end\n"
    let patch (tree : FileTree) := patchTable tree "table.h" bodies skeleton "__end"
    (∃ text, patch (tableFile stored) = .ok { text, changed := true } ∧
      patch (tableFile text) = .ok { text, changed := false }) ∧
    ∃ text, patch {} = .ok { text, changed := true } ∧ patch (tableFile text) = .ok { text, changed := false } := by
  intro bodies stored skeleton patch
  have hbodies : Patchable bodies := by decide +kernel
  constructor
  · have hok : (BlockDocument.parse stored).isOk = true := by decide +kernel
    cases hparse : BlockDocument.parse stored with
    | error fault => rw [hparse] at hok; cases hok
    | ok d =>
      have hchanged : (patch (tableFile stored)).map (·.changed) = .ok true := by decide +kernel
      have hagain : ∃ update, patch (tableFile stored) = .ok update ∧ ∀ tree' : FileTree,
          tree'.read "table.h" = .ok update.text → patch tree' = .ok { text := update.text, changed := false } :=
        patchTable_again (Or.inl (read_tableFile stored)) hparse (by decide +kernel) hbodies
      obtain ⟨⟨text, changed⟩, hfirst, hsecond⟩ := hagain
      rw [hfirst, Except.map, Except.ok.injEq] at hchanged
      exact ⟨text, by rw [hfirst, ← hchanged], hsecond _ (read_tableFile text)⟩
  · have hok : (BlockDocument.parse skeleton).isOk = true := by decide +kernel
    cases hparse : BlockDocument.parse skeleton with
    | error fault => rw [hparse] at hok; cases hok
    | ok d =>
      have hchanged : (patch {}).map (·.changed) = .ok true := by decide +kernel
      have hagain : ∃ update, patch {} = .ok update ∧ ∀ tree' : FileTree,
          tree'.read "table.h" = .ok update.text → patch tree' = .ok { text := update.text, changed := false } :=
        patchTable_again (Or.inr ⟨_, rfl, rfl, rfl⟩) hparse (by decide +kernel) hbodies
      obtain ⟨⟨text, changed⟩, hfirst, hsecond⟩ := hagain
      rw [hfirst, Except.map, Except.ok.injEq] at hchanged
      exact ⟨text, by rw [hfirst, ← hchanged], hsecond _ (read_tableFile text)⟩

end HeaderReflection
