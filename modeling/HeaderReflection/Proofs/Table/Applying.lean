import HeaderReflection.Proofs.Table.OtherBlocks

/-!
# Applying texts to a document

What a document is after texts have been applied to it, said piece by piece and without the functions that do it: every
line stays; every block keeps its place, its name, its indentation and its markers, and gets the text for its name, is
cleared, or stays as it is because the sentinel has its name; and each name without a block gets one in the place for new
blocks, where they stand in the byte order of their names. There is exactly one such document, which is the one that
applying the texts gives.

## Main definitions

- `Block.Holds`: how a body holds a text.
- `BlockDocument.Keeps`, `BlockDocument.Adds`: what becomes of the blocks there are, and what new blocks are.
- `BlockDocument.Applied`: the whole document.

## Main results

- `Block.holds_iff`: the body that holds a text.
- `keepsNode_iff`, `adds_iff`: old and new pieces, one by one.
- `applied_iff`: the document that applying texts gives.
-/

namespace HeaderReflection

open BlockDocument (defaultIndent)

/-! ## §1 Bodies that hold a text -/

namespace Block

/-- How a body holds a line: a blank one is empty, and any other one stands behind the indentation. -/
inductive HoldsLine (indent : Text) : Text → Text → Prop where
  | blank {line : Text} (blank : line.isBlank = true) : HoldsLine indent line []
  | visible {line : Text} (visible : line.isBlank = false) : HoldsLine indent line (indent ++ line)

/-- How a body holds a text: an empty text has no lines, and line ends at the end of a text do not count. -/
inductive Holds (indent : Text) : Text → List Text → Prop where
  | nothing : Holds indent [] []
  | lines {text core : Text} {ends : Nat} {body : List Text} (nonempty : text ≠ [])
      (split : text = core ++ List.replicate ends Text.lineFeed) (last : core.getLast? ≠ some Text.lineFeed)
      (held : List.Forall₂ (HoldsLine indent) (Text.splitOn Text.lineFeed core) body) : Holds indent text body

theorem holdsLine_iff {indent line held : Text} : HoldsLine indent line held ↔ indentLine indent line = held := by
  constructor
  · rintro (hblank | hvisible)
    · rw [indentLine, hblank]
      rfl
    · exact indentLine_of_visible hvisible indent
  · rintro rfl
    cases h : line.isBlank with
    | true =>
      rw [indentLine, h]
      exact .blank h
    | false =>
      rw [indentLine_of_visible h]
      exact .visible h

/-- The line ends at the end of a text, and what is left without them. -/
theorem trimEndOf_eq_iff {text core : Text} :
    Text.trimEndOf [Text.lineFeed] text = core ↔
      core.getLast? ≠ some Text.lineFeed ∧ ∃ ends, text = core ++ List.replicate ends Text.lineFeed := by
  constructor
  · rintro rfl
    -- by induction from the end of the text, where the line ends are taken off
    induction text using List.reverseRecOn with
    | nil => exact ⟨by simp [Text.trimEndOf], 0, rfl⟩
    | append_singleton text b ih =>
      by_cases hb : b = Text.lineFeed
      · obtain ⟨hlast, ends, hends⟩ := ih
        rw [hb, Text.trimEndOf_append_mem (List.mem_singleton_self _)]
        refine ⟨hlast, ends + 1, ?_⟩
        rw [List.replicate_succ', ← List.append_assoc, ← hends]
      · rw [Text.trimEndOf_append_of_not_mem (by simpa using hb)]
        exact ⟨by simpa using hb, 0, by simp⟩
  · rintro ⟨hlast, ends, rfl⟩
    induction ends with
    | zero =>
      rw [List.replicate_zero, List.append_nil]
      obtain rfl | ⟨front, b, rfl⟩ := core.eq_nil_or_concat
      · rfl
      · rw [List.concat_eq_append] at hlast ⊢
        exact Text.trimEndOf_append_of_not_mem (by simpa using hlast) _
    | succ ends ih =>
      rw [List.replicate_succ', ← List.append_assoc, Text.trimEndOf_append_mem (List.mem_singleton_self _), ih]

/-- **The body that holds a text.** -/
theorem holds_iff {indent text : Text} {body : List Text} : Holds indent text body ↔ bodyOfText indent text = body := by
  have hlines : ∀ core : Text, List.Forall₂ (HoldsLine indent) (Text.splitOn Text.lineFeed core) body ↔
      (Text.splitOn Text.lineFeed core).map (indentLine indent) = body := by
    intro core
    have hrelation : HoldsLine indent = fun line held => indentLine indent line = held := by
      funext line held
      exact propext holdsLine_iff
    rw [hrelation, ← List.forall₂_map_left_iff (f := indentLine indent), List.forall₂_eq_eq_eq]
  constructor
  · rintro (_ | ⟨hne, hsplit, hlast, hbody⟩)
    · rfl
    · rw [bodyOfText, if_neg hne, trimEndOf_eq_iff.mpr ⟨hlast, _, hsplit⟩]
      exact (hlines _).mp hbody
  · intro hbody
    by_cases hne : text = []
    · subst hne
      subst hbody
      exact .nothing
    · rw [bodyOfText, if_neg hne] at hbody
      obtain ⟨hlast, ends, hsplit⟩ := trimEndOf_eq_iff.mp (rfl : Text.trimEndOf [Text.lineFeed] text = _)
      exact .lines hne hsplit hlast ((hlines _).mpr hbody)

end Block

namespace BlockDocument

/-! ## §2 What becomes of the pieces -/

/-- What becomes of a block: it keeps its name, its indentation and its markers, and its body holds the text for its name.
Without a text it is empty, but for the blocks of the sentinel, whose bodies stay. -/
structure Keeps (bodies : Bodies) (sentinel : Text) (b b' : Block) : Prop where
  name : b'.name = b.name
  indent : b'.indent = b.indent
  start : b'.start = b.start
  finish : b'.finish = b.finish
  replaced : ∀ text, (b.name, text) ∈ bodies → Block.Holds b.indent text b'.body
  cleared : b.name ∉ bodies.map (·.1) → b.name ≠ sentinel → b'.body = []
  kept : b.name ∉ bodies.map (·.1) → b.name = sentinel → b'.body = b.body

/-- What becomes of a piece of a document. -/
inductive KeepsNode (bodies : Bodies) (sentinel : Text) : BlockNode → BlockNode → Prop where
  | line (text : Text) : KeepsNode bodies sentinel (.line text) (.line text)
  | block {b b' : Block} (kept : Keeps bodies sentinel b b') : KeepsNode bodies sentinel (.block b) (.block b')

/-- A new block: its markers have its name behind the given indentation, and its body holds the text for its name. -/
structure Adds (bodies : Bodies) (indent : Text) (b : Block) : Prop where
  indented : b.indent = indent
  start : b.start = indent ++ Block.startMarker ++ b.name
  finish : b.finish = indent ++ Block.endMarker ++ b.name
  holds : ∀ text, (b.name, text) ∈ bodies → Block.Holds indent text b.body

/-- A document after texts have been applied to it. -/
inductive Applied (d : BlockDocument) (bodies : Bodies) (sentinel : Text) (d' : BlockDocument) : Prop where
  | intro (before after before' after' : List BlockNode) (added : List Block) (indent : Text)
      -- the pieces there have been, cut at the place for new blocks
      (nodes : d.nodes = before ++ after) (place : IsPlaceFor sentinel before after indent)
      -- they stay in their order, with the new blocks together in that place
      (nodes' : d'.nodes = before' ++ added.map .block ++ after')
      (keepsBefore : List.Forall₂ (KeepsNode bodies sentinel) before before')
      (keepsAfter : List.Forall₂ (KeepsNode bodies sentinel) after after')
      (adds : ∀ b ∈ added, Adds bodies indent b)
      -- each name without a block has got one, and the new blocks are in the byte order of their names
      (names : ∀ name, name ∈ added.map (·.name) ↔ name ∈ bodies.map (·.1) ∧ ∀ b ∈ d.blocks, b.name ≠ name)
      (sorted : (added.map (·.name)).Pairwise (fun name name' => Text.lt name name' = true))
      (endsLine : d'.endsLine = d.endsLine)

variable {d d' : BlockDocument} {bodies : Bodies} {sentinel : Text}

theorem get?_eq_none_iff {name : Text} : bodies.get? name = none ↔ name ∉ bodies.map (·.1) := by
  constructor
  · intro hnone hname
    obtain ⟨text, hget⟩ := exists_get?_of_mem_keys hname
    rw [hnone] at hget
    cases hget
  · intro hname
    rw [Option.eq_none_iff_forall_ne_some]
    intro text hget
    exact hname (List.mem_map_of_mem (mem_of_get?_eq_some hget))

section DistinctNames

variable (hnames : (bodies.map (·.1)).Nodup)

include hnames

/-- Where no two texts have the same name, the text for a name is the one that is found first. -/
theorem get?_eq_some_iff {name text : Text} : bodies.get? name = some text ↔ (name, text) ∈ bodies := by
  refine ⟨mem_of_get?_eq_some, fun hmem => ?_⟩
  obtain ⟨found, hget⟩ := exists_get?_of_mem_keys (List.mem_map_of_mem hmem)
  have hsame := List.inj_on_of_nodup_map hnames (mem_of_get?_eq_some hget) hmem rfl
  cases hsame
  exact hget

/-- **What becomes of a block** is what the update of blocks makes of it. -/
theorem keeps_iff {b b' : Block} : Keeps bodies sentinel b b' ↔ updateBlock bodies sentinel b = b' := by
  constructor
  · rintro ⟨hname, hindent, hstart, hfinish, hreplaced, hcleared, hkept⟩
    have hframe : b' = { b with body := b'.body } := by
      rw [← hname, ← hindent, ← hstart, ← hfinish]
    rw [hframe, updateBlock]
    split
    · next text hget => rw [Block.setText, Block.holds_iff.mp (hreplaced text (mem_of_get?_eq_some hget))]
    · next hget =>
      split
      · next hsentinel => rw [hkept (get?_eq_none_iff.mp hget) hsentinel]
      · next hsentinel => rw [hcleared (get?_eq_none_iff.mp hget) hsentinel]; rfl
  · rintro rfl
    -- the update changes nothing but the body
    have hbody : ∃ body, updateBlock bodies sentinel b = { b with body } := by
      unfold updateBlock
      split
      · exact ⟨_, rfl⟩
      · split
        · exact ⟨b.body, rfl⟩
        · exact ⟨_, rfl⟩
    obtain ⟨body, hupdate⟩ := hbody
    refine ⟨by rw [hupdate], by rw [hupdate], by rw [hupdate], by rw [hupdate], ?_, ?_, ?_⟩
    · intro text hmem
      rw [updateBlock, (get?_eq_some_iff hnames).mpr hmem]
      exact Block.holds_iff.mpr rfl
    · intro hnone hsentinel
      rw [updateBlock, get?_eq_none_iff.mpr hnone]
      dsimp only
      rw [if_neg hsentinel]
      rfl
    · intro hnone hsentinel
      rw [updateBlock, get?_eq_none_iff.mpr hnone]
      dsimp only
      rw [if_pos hsentinel]

theorem keepsNode_iff {node node' : BlockNode} :
    KeepsNode bodies sentinel node node' ↔ updateNode bodies sentinel node = node' := by
  constructor
  · rintro (_ | hkeeps)
    · rfl
    · exact congrArg BlockNode.block ((keeps_iff hnames).mp hkeeps)
  · rintro rfl
    cases node with
    | line text => exact .line text
    | block b => exact .block ((keeps_iff hnames).mpr rfl)

theorem keepsNodes_iff {nodes nodes' : List BlockNode} :
    List.Forall₂ (KeepsNode bodies sentinel) nodes nodes' ↔ nodes.map (updateNode bodies sentinel) = nodes' := by
  have hrelation : KeepsNode bodies sentinel = fun node node' => updateNode bodies sentinel node = node' := by
    funext node node'
    exact propext (keepsNode_iff hnames)
  rw [hrelation, ← List.forall₂_map_left_iff (f := updateNode bodies sentinel), List.forall₂_eq_eq_eq]

/-- **A new block** is what the name makes of it. -/
theorem adds_iff {indent : Text} {b : Block} (hname : b.name ∈ bodies.map (·.1)) :
    Adds bodies indent b ↔ newBlock bodies indent b.name = .block b := by
  obtain ⟨text, hget⟩ := exists_get?_of_mem_keys hname
  rw [newBlock, hget, BlockNode.block.injEq]
  constructor
  · rintro ⟨hindent, hstart, hfinish, hholds⟩
    have hbody := Block.holds_iff.mp (hholds text (mem_of_get?_eq_some hget))
    obtain ⟨name, indent', start, finish, body⟩ := b
    dsimp only at hindent hstart hfinish hbody
    subst hindent hstart hfinish hbody
    rfl
  · intro hb
    rw [← hb]
    refine ⟨rfl, rfl, rfl, fun text' hmem => ?_⟩
    have htext : some text' = some text := ((get?_eq_some_iff hnames).mpr hmem).symm.trans hget
    rw [Option.some.injEq] at htext
    exact Block.holds_iff.mpr (by rw [htext]; rfl)

/-- Names that have no block are added in strictly increasing order: each of them once. -/
theorem pairwise_missingNames (d : BlockDocument) :
    (d.missingNames bodies).Pairwise (fun name name' => Text.lt name name' = true) := by
  have hnodup : (d.missingNames bodies).Nodup := (Text.sort_perm _).nodup_iff.mpr (hnames.filter _)
  refine (Text.pairwise_sort _).imp₂ ?_ hnodup
  intro name name' hle hne
  exact Text.lt_of_not_lt_of_ne (by simpa [Text.le] using hle) hne.symm

/-! ## §3 The whole document -/

/-- **Applying texts to a document**: blocks with a text are replaced, blocks without one are cleared unless they are the
sentinel's, names without a block get one in the place for new blocks, and nothing else happens. For any document, texts
under distinct names and name of the sentinel, there is exactly one document of which this is true, and it is the one that
applying the texts gives. -/
theorem applied_iff : d.Applied bodies sentinel d' ↔ d.apply bodies sentinel = d' := by
  have hplace : ∀ {before after : List BlockNode} {indent : Text}, d.nodes = before ++ after →
      IsPlaceFor sentinel before after indent →
      (d.apply bodies sentinel).nodes = before.map (updateNode bodies sentinel) ++
        (d.missingNames bodies).map (newBlock bodies indent) ++ after.map (updateNode bodies sentinel) := by
    intro before after indent hnodes h
    have hplace' := h.map (f := updateNode bodies sentinel) (fun _ => rfl)
      fun b => ⟨_, rfl, updateBlock_name b, updateBlock_indent b⟩
    rw [apply, hnodes, List.map_append]
    exact insertBlocks_of_place hplace' bodies _
  constructor
  · rintro ⟨before, after, before', after', added, indent, hnodes, h, hnodes', hbefore, hafter, hadds, hadded, hsorted, hends⟩
    -- the names of the new blocks are given by their order and by which names they are
    have hmissing : added.map (·.name) = d.missingNames bodies :=
      Text.eq_of_pairwise_lt hsorted (pairwise_missingNames hnames d) fun name =>
        (hadded name).trans mem_missingNames.symm
    have hnew : added.map BlockNode.block = (d.missingNames bodies).map (newBlock bodies indent) := by
      rw [← hmissing, List.map_map]
      refine List.map_congr_left fun b hb => ?_
      have hname := ((hadded b.name).mp (List.mem_map_of_mem hb)).1
      exact ((adds_iff hnames hname).mp (hadds b hb)).symm
    have hsame : (d.apply bodies sentinel).nodes = d'.nodes := by
      rw [hplace hnodes h, hnodes', hnew, (keepsNodes_iff hnames).mp hbefore, (keepsNodes_iff hnames).mp hafter]
    obtain ⟨nodes, ends⟩ := d'
    dsimp only at hsame hends
    rw [← hsame, hends]
    rfl
  · rintro rfl
    -- every document has a place for new blocks, and applying the texts puts them there
    obtain ⟨before, after, indent, hnodes, h⟩ := exists_place sentinel d.nodes
    let added := (d.missingNames bodies).map fun name => (Block.ofName name indent).setText ((bodies.get? name).getD [])
    have hadded : added.map (·.name) = d.missingNames bodies := by
      rw [List.map_map]
      exact List.map_id _
    refine ⟨before, after, _, _, added, indent, hnodes, h, ?_, (keepsNodes_iff hnames).mpr rfl,
      (keepsNodes_iff hnames).mpr rfl, ?_, ?_, ?_, rfl⟩
    · rw [hplace hnodes h, List.map_map]
      rfl
    · intro b hb
      obtain ⟨name, hname, rfl⟩ := List.mem_map.mp hb
      exact (adds_iff hnames (mem_missingNames.mp hname).1).mpr rfl
    · intro name
      rw [hadded]
      exact mem_missingNames
    · rw [hadded]
      exact pairwise_missingNames hnames d

end DistinctNames

/-- Two blocks of one name, one to be cleared and one of the sentinel, with texts for the first, for the sentinel, and for
two names without a block. -/
theorem applied_of_mixed_document :
    let bodies : Bodies := [("z", "1\n \n"), ("a", "2\n3"), ("c", "")]
    let d : BlockDocument := {
      nodes := [.block ((Block.ofName "a" "\t").setText "x"), .line "int y;", .block ((Block.ofName "b" "").setText "x"),
        .block ((Block.ofName "__end" "  ").setText "count"), .block (Block.ofName "a" "")]
      endsLine := true }
    (bodies.map (·.1)).Nodup ∧
      d.Applied bodies "__end" {
        nodes := [.block ((Block.ofName "a" "\t").setText "2\n3"), .line "int y;", .block (Block.ofName "b" ""),
          .block (Block.ofName "c" "  "), .block { Block.ofName "z" "  " with body := ["  1", []] },
          .block ((Block.ofName "__end" "  ").setText "count"), .block ((Block.ofName "a" "").setText "2\n3")]
        endsLine := true } := by
  intro bodies d
  have hnames : (bodies.map (·.1)).Nodup := by decide +kernel
  exact ⟨hnames, (applied_iff hnames).mpr (by decide +kernel)⟩

end BlockDocument

end HeaderReflection
