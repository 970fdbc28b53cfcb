import HeaderReflection.Proofs.Table.ReadingBack

/-!
# The grammar of block documents

Which texts are read as documents, which document each of them is read as, and what the others fail on. Only the marker
lines count for this: they have to come in pairs, a start and an end of one name, with plain lines anywhere between
them. Reading goes wrong at the first line where they no longer can.

The link between the lines and the reader is a machine with two states: either no block is open, or the block of some
name is. It goes through the lines one by one and forgets everything else about them.

## Main definitions

- `BlockMark`: what a marker line says.
- `PairedUp`, `LeavesOpen`: marks that come in pairs, and such marks with one more start behind them.
- `FirstFault`: the first line where the marks of a text no longer can pair up.
- `ReadFrom`: a document that holds certain lines, with the blocks that their marks tell.
- `scan`: the machine.

## Main results

- `scan_eq_error_iff`, `scan_eq_ok_iff`: where the machine stops, and which state it ends in.
- `parse_grammar`: which texts are read, as what, and on what the others fail.
- `render_of_parse`: a document that has been read is written as it was, but for line ends of two bytes.
-/

namespace HeaderReflection

open BlockDocument (PlainLine parseLines)

/-! ## §1 Marks -/

/-- What a marker line says: it opens the block of a name, or it closes it. -/
inductive BlockMark where
  | opens (name : Text)
  | closes (name : Text)
  deriving DecidableEq, Repr

/-- The mark of a line. Blanks around the line and around the name do not count. -/
def BlockMark.ofLine? (line : Text) : Option BlockMark :=
  match Text.stripPrefix? "// block start " line.trim with
  | some name => some (.opens name.trim)
  | none => (Text.stripPrefix? "// block end " line.trim).map fun name => .closes name.trim

/-- The marks of some lines, in their order. Lines without one are left out. -/
def marksOf (lines : List Text) : List BlockMark := lines.filterMap BlockMark.ofLine?

/-- Marks that come in pairs: a start and an end of one name. -/
inductive PairedUp : List BlockMark → Prop where
  | nil : PairedUp []
  | pair {name : Text} {marks : List BlockMark} (rest : PairedUp marks) :
      PairedUp (.opens name :: .closes name :: marks)

/-- Marks that come in pairs but for the last one, which opens a block. -/
def LeavesOpen (marks : List BlockMark) (name : Text) : Prop :=
  ∃ paired, PairedUp paired ∧ marks = paired ++ [.opens name]

namespace BlockMark

/-- No line begins with both markers. -/
theorem stripPrefix?_endMarker {text rest : Text} (h : Text.stripPrefix? Block.startMarker text = some rest) :
    Text.stripPrefix? Block.endMarker text = none := by
  rw [Text.stripPrefix?_eq_some_iff.mp h]
  rfl

theorem ofLine?_eq (line : Text) :
    ofLine? line = match Text.stripPrefix? Block.startMarker line.trim with
      | some name => some (.opens name.trim)
      | none => (Text.stripPrefix? Block.endMarker line.trim).map fun name => .closes name.trim :=
  rfl

theorem ofLine?_eq_opens_iff {line name : Text} :
    ofLine? line = some (.opens name) ↔ ∃ indent, Block.ofMarkerLine? Block.startMarker line = some (name, indent) := by
  rw [ofLine?_eq, ofMarkerLine?_eq]
  cases Text.stripPrefix? Block.startMarker line.trim <;> simp

theorem ofLine?_eq_closes_iff {line name : Text} :
    ofLine? line = some (.closes name) ↔ ∃ indent, Block.ofMarkerLine? Block.endMarker line = some (name, indent) := by
  rw [ofLine?_eq, ofMarkerLine?_eq]
  cases hstart : Text.stripPrefix? Block.startMarker line.trim with
  | none => simp
  | some rest => simp [stripPrefix?_endMarker hstart]

theorem ofLine?_eq_none_iff {line : Text} : ofLine? line = none ↔ PlainLine line := by
  constructor
  · intro h
    constructor
    · by_contra hne
      obtain ⟨⟨name, indent⟩, hmarker⟩ := Option.ne_none_iff_exists'.mp hne
      rw [ofLine?_eq_opens_iff.mpr ⟨indent, hmarker⟩] at h
      cases h
    · by_contra hne
      obtain ⟨⟨name, indent⟩, hmarker⟩ := Option.ne_none_iff_exists'.mp hne
      rw [ofLine?_eq_closes_iff.mpr ⟨indent, hmarker⟩] at h
      cases h
  · intro h
    rw [Option.eq_none_iff_forall_ne_some]
    rintro (name | name) hmark
    · obtain ⟨indent, hmarker⟩ := ofLine?_eq_opens_iff.mp hmark
      rw [h.noStart] at hmarker
      cases hmarker
    · obtain ⟨indent, hmarker⟩ := ofLine?_eq_closes_iff.mp hmark
      rw [h.noEnd] at hmarker
      cases hmarker

end BlockMark

/-- **The name of a marker** is not empty, and there are no blanks around it: the marker would not end in a blank if
nothing else stood behind it. -/
theorem name_of_ofMarkerLine? {marker line name indent : Text}
    (h : Block.ofMarkerLine? marker line = some (name, indent)) (hmarker : marker.getLast? = some (Text.byte ' ')) :
    name ≠ [] ∧ name.trim = name := by
  rw [ofMarkerLine?_eq] at h
  obtain ⟨rest, hrest, heq⟩ := Option.map_eq_some_iff.mp h
  cases heq
  constructor
  · -- with nothing but blanks behind it, the line would have been trimmed into the marker
    obtain ⟨front, rfl⟩ := List.getLast?_eq_some_iff.mp hmarker
    have htrim := Text.stripPrefix?_eq_some_iff.mp hrest
    rw [List.append_assoc, List.singleton_append] at htrim
    exact Text.trim_ne_nil_of_trim_eq (by decide) htrim
  · exact Text.trim_trim rest

/-! ## §2 The grammar -/

/-- The lines of a text. A line feed ends a line, and so does a carriage return with a line feed behind it; what follows
the last of them is a line only if it is not empty. -/
def textLines (text : Text) : List Text :=
  if text.unixLines = [] then []
  else Text.splitOn Text.lineFeed (Text.trimSuffix [Text.lineFeed] text.unixLines)

/-- **The first fault** of some lines. Up to the line of the fault the marks have come in pairs, or one block has been
left open, and the mark of that line does not go with it; or a block is still open behind the last line. -/
inductive FirstFault (lines : List Text) : BlockFault → Prop where
  | closesOther {before after : List Text} {line name openName : Text} (split : lines = before ++ line :: after)
      (opened : LeavesOpen (marksOf before) openName) (mark : BlockMark.ofLine? line = some (.closes name))
      (other : name ≠ openName) : FirstFault lines (.closesOther (before.length + 1) name openName)
  | neverOpened {before after : List Text} {line name : Text} (split : lines = before ++ line :: after)
      (paired : PairedUp (marksOf before)) (mark : BlockMark.ofLine? line = some (.closes name)) :
      FirstFault lines (.neverOpened (before.length + 1) name)
  | opensInside {before after : List Text} {line name openName : Text} (split : lines = before ++ line :: after)
      (opened : LeavesOpen (marksOf before) openName) (mark : BlockMark.ofLine? line = some (.opens name)) :
      FirstFault lines (.opensInside (before.length + 1) openName)
  | unterminated {openName : Text} (opened : LeavesOpen (marksOf lines) openName) :
      FirstFault lines (.unterminated openName)

/-- A document that holds some lines as their marks tell: its pieces hold all of the lines in their order, plain lines
and bodies are what has no mark, and a block is what stands between two marks of its name. -/
structure ReadFrom (lines : List Text) (d : BlockDocument) : Prop where
  whole : d.lines = lines
  blocks : marksOf lines = d.blocks.flatMap fun b => [.opens b.name, .closes b.name]
  plain : ∀ text, .line text ∈ d.nodes → BlockMark.ofLine? text = none
  start : ∀ b ∈ d.blocks, BlockMark.ofLine? b.start = some (.opens b.name)
  body : ∀ b ∈ d.blocks, ∀ line ∈ b.body, BlockMark.ofLine? line = none
  finish : ∀ b ∈ d.blocks, BlockMark.ofLine? b.finish = some (.closes b.name)
  named : ∀ b ∈ d.blocks, b.name ≠ [] ∧ b.name.trim = b.name

/-- The kind of a fault. -/
def BlockFault.kind : BlockFault → Text
  | .closesOther _ _ _ => "mismatched block end"
  | .neverOpened _ _ => "mismatched block end"
  | .opensInside _ _ => "unterminated block"
  | .unterminated _ => "unterminated block"

/-- The place of a fault, in front of its kind. A block that is open at the end of a text is at no line. -/
def BlockFault.place : BlockFault → Text
  | .closesOther line _ _ => "line " ++ Text.decimal line ++ ": "
  | .neverOpened line _ => "line " ++ Text.decimal line ++ ": "
  | .opensInside line _ => "line " ++ Text.decimal line ++ ": "
  | .unterminated _ => []

/-! ## §3 The machine -/

/-- What a mark makes of the name of the open block, at the line with the given number. -/
def BlockMark.step (number : Nat) : Option Text → BlockMark → Except BlockFault (Option Text)
  | none, .opens name => .ok (some name)
  | none, .closes name => .error (.neverOpened number name)
  | some openName, .opens _ => .error (.opensInside number openName)
  | some openName, .closes name => if name = openName then .ok none else .error (.closesOther number name openName)

/-- Go through lines, the first of which has the given number, while the block of a name may be open. -/
def scan : Nat → Option Text → List Text → Except BlockFault (Option Text)
  | _, opened, [] => .ok opened
  | number, opened, line :: lines =>
    match BlockMark.ofLine? line with
    | none => scan (number + 1) opened lines
    | some mark => do
      let opened ← mark.step number opened
      scan (number + 1) opened lines

/-- At the end of a text no block may be open. -/
def finishScan : Option Text → Except BlockFault Unit
  | none => .ok ()
  | some openName => .error (.unterminated openName)

theorem scan_append (number : Nat) (opened : Option Text) (before rest : List Text) :
    scan number opened (before ++ rest) =
      scan number opened before >>= fun opened => scan (number + before.length) opened rest := by
  induction before generalizing number opened with
  | nil => rfl
  | cons line before ih =>
    have hlength : number + (line :: before).length = number + 1 + before.length := by
      rw [List.length_cons]
      omega
    rw [List.cons_append, scan, scan, hlength]
    cases BlockMark.ofLine? line with
    | none => exact ih _ _
    | some mark =>
      dsimp only
      cases mark.step number opened with
      | error fault => rfl
      | ok opened => exact ih _ _

/-- **Where the machine stops**: at a line whose mark does not go with the block that the lines before it have left
open. -/
theorem scan_eq_error_iff {number : Nat} {opened : Option Text} {lines : List Text} {fault : BlockFault} :
    scan number opened lines = .error fault ↔
      ∃ before line after mark reached, lines = before ++ line :: after ∧ scan number opened before = .ok reached ∧
        BlockMark.ofLine? line = some mark ∧ mark.step (number + before.length) reached = .error fault := by
  constructor
  · intro h
    induction lines generalizing number opened with
    | nil => cases h
    | cons line lines ih =>
      rw [scan] at h
      -- the machine stops here, or it goes on to the rest of the lines
      cases hmark : BlockMark.ofLine? line with
      | none =>
        rw [hmark] at h
        obtain ⟨before, last, after, mark, reached, rfl, hscan, hlast, hstep⟩ := ih h
        refine ⟨line :: before, last, after, mark, reached, rfl, ?_, hlast, ?_⟩
        · rw [scan, hmark]
          exact hscan
        · rwa [List.length_cons, Nat.add_comm before.length, ← Nat.add_assoc]
      | some mark =>
        rw [hmark] at h
        dsimp only at h
        cases hstep : mark.step number opened with
        | error fault' =>
          rw [hstep] at h
          cases h
          exact ⟨[], line, lines, mark, opened, rfl, rfl, hmark, hstep⟩
        | ok next =>
          rw [hstep] at h
          obtain ⟨before, last, after, mark', reached, rfl, hscan, hlast, hstep'⟩ := ih h
          refine ⟨line :: before, last, after, mark', reached, rfl, ?_, hlast, ?_⟩
          · rw [scan, hmark]
            dsimp only
            rw [hstep]
            exact hscan
          · rwa [List.length_cons, Nat.add_comm before.length, ← Nat.add_assoc]
  · rintro ⟨before, line, after, mark, reached, rfl, hscan, hmark, hstep⟩
    rw [scan_append, hscan]
    change scan _ reached (line :: after) = _
    rw [scan, hmark]
    dsimp only
    rw [hstep]
    rfl

/-- The mark of a block that is open. -/
def openMark (opened : Option Text) : List BlockMark := (opened.map .opens).toList

/-- Marks that come in pairs but for that of the block that is open at the end, if there is one. -/
def EndsIn (marks : List BlockMark) (reached : Option Text) : Prop :=
  ∃ paired, PairedUp paired ∧ marks = paired ++ openMark reached

theorem endsIn_none_iff {marks : List BlockMark} : EndsIn marks none ↔ PairedUp marks := by
  constructor
  · rintro ⟨paired, hpaired, rfl⟩
    rwa [openMark, Option.map_none, Option.toList_none, List.append_nil]
  · intro h
    exact ⟨marks, h, (List.append_nil marks).symm⟩

theorem endsIn_openMark_iff {opened reached : Option Text} : EndsIn (openMark opened) reached ↔ reached = opened := by
  constructor
  · rintro ⟨paired, hpaired, heq⟩
    -- a single mark is no pair
    cases hpaired with
    | nil => cases opened <;> cases reached <;> simp_all [openMark]
    | pair rest => cases opened <;> simp [openMark] at heq
  · rintro rfl
    exact ⟨[], .nil, rfl⟩

theorem not_endsIn_closes {name : Text} {marks : List BlockMark} {reached : Option Text} :
    ¬EndsIn (.closes name :: marks) reached := by
  rintro ⟨paired, hpaired, heq⟩
  cases hpaired with
  | nil => cases reached <;> simp [openMark] at heq
  | pair rest => simp at heq

theorem not_endsIn_opens_opens {name other : Text} {marks : List BlockMark} {reached : Option Text} :
    ¬EndsIn (.opens name :: .opens other :: marks) reached := by
  rintro ⟨paired, hpaired, heq⟩
  cases hpaired with
  | nil => cases reached <;> simp [openMark] at heq
  | pair rest => simp at heq

theorem endsIn_pair_iff {name other : Text} {marks : List BlockMark} {reached : Option Text} :
    EndsIn (.opens name :: .closes other :: marks) reached ↔ other = name ∧ EndsIn marks reached := by
  constructor
  · rintro ⟨paired, hpaired, heq⟩
    cases hpaired with
    | nil => cases reached <;> simp [openMark] at heq
    | pair hrest =>
      simp only [List.cons_append, List.cons.injEq, BlockMark.opens.injEq, BlockMark.closes.injEq] at heq
      exact ⟨heq.2.1.trans heq.1.symm, _, hrest, heq.2.2⟩
  · rintro ⟨rfl, paired, hpaired, rfl⟩
    exact ⟨_, .pair hpaired, rfl⟩

theorem marksOf_cons_none {line : Text} (h : BlockMark.ofLine? line = none) (lines : List Text) :
    marksOf (line :: lines) = marksOf lines :=
  List.filterMap_cons_none h

theorem marksOf_cons_some {line : Text} {mark : BlockMark} (h : BlockMark.ofLine? line = some mark) (lines : List Text) :
    marksOf (line :: lines) = mark :: marksOf lines :=
  List.filterMap_cons_some h

/-- **What the machine goes through**: marks that come in pairs, where the mark of a block that is open counts among
them, at the start and at the end. -/
theorem scan_eq_ok_iff {number : Nat} {opened reached : Option Text} {lines : List Text} :
    scan number opened lines = .ok reached ↔ EndsIn (openMark opened ++ marksOf lines) reached := by
  induction lines generalizing number opened with
  | nil =>
    have hnil : openMark opened ++ marksOf [] = openMark opened := List.append_nil _
    rw [scan, Except.ok.injEq, hnil, endsIn_openMark_iff]
    exact eq_comm
  | cons line lines ih =>
    rw [scan]
    cases hmark : BlockMark.ofLine? line with
    | none =>
      rw [marksOf_cons_none hmark]
      exact ih
    | some mark =>
      rw [marksOf_cons_some hmark]
      -- one case for each mark and state; in two of them the machine stops, and in one it may
      cases opened with
      | none =>
        cases mark with
        | opens name => exact ih
        | closes name => exact iff_of_false nofun not_endsIn_closes
      | some openName =>
        cases mark with
        | opens name => exact iff_of_false nofun not_endsIn_opens_opens
        | closes name =>
          refine Iff.trans ?_ endsIn_pair_iff.symm
          dsimp only [BlockMark.step]
          split
          · next hname => exact ih.trans (and_iff_right hname).symm
          · next hname => exact iff_of_false nofun fun h => hname h.1

/-- The machine ends with no block open when all marks come in pairs. -/
theorem scan_eq_closed_iff {number : Nat} {lines : List Text} :
    scan number none lines = .ok none ↔ PairedUp (marksOf lines) :=
  scan_eq_ok_iff.trans endsIn_none_iff

/-- The machine ends with a block open when all marks but the last one come in pairs. -/
theorem scan_eq_open_iff {number : Nat} {lines : List Text} {name : Text} :
    scan number none lines = .ok (some name) ↔ LeavesOpen (marksOf lines) name :=
  scan_eq_ok_iff

/-! ## §4 The reader as the machine -/

namespace BlockDocument

/-- What the reader makes of the rest of the lines does not matter for whether it stops. -/
theorem map_bind_const {α β : Type} (result : Except BlockFault α) (f : α → β) :
    (result >>= fun a => pure (f a)).map (fun _ => ()) = result.map fun _ => () := by
  cases result with
  | error fault => rfl
  | ok a => rfl

/-- **The reader stops where the machine does**, and where it does not, no block may be open at the end. -/
theorem parseLines_eq_scan (number : Nat) (opened : Option Block) (lines : List Text) :
    (parseLines number opened lines).map (fun _ => ()) = scan number (opened.map Block.name) lines >>= finishScan := by
  induction lines generalizing number opened with
  | nil => cases opened <;> rfl
  | cons line lines ih =>
    rw [scan]
    cases hmark : BlockMark.ofLine? line with
    | none =>
      obtain ⟨hstart, hend⟩ := BlockMark.ofLine?_eq_none_iff.mp hmark
      cases opened with
      | none =>
        rw [parseLines, hstart, hend]
        exact (map_bind_const _ _).trans (ih _ none)
      | some b =>
        rw [parseLines, hend, hstart]
        exact ih _ (some _)
    | some mark =>
      -- the reader tries the two markers in another order inside a block, so it has to be known that only one fits
      cases mark with
      | opens name =>
        obtain ⟨indent, hstart⟩ := BlockMark.ofLine?_eq_opens_iff.mp hmark
        have hend : Block.ofMarkerLine? Block.endMarker line = none := by
          rw [Option.eq_none_iff_forall_ne_some]
          rintro ⟨other, otherIndent⟩ hend
          rw [BlockMark.ofLine?_eq_closes_iff.mpr ⟨otherIndent, hend⟩] at hmark
          cases hmark
        cases opened with
        | none =>
          rw [parseLines, hstart]
          exact ih _ (some _)
        | some b =>
          rw [parseLines, hend, hstart]
          rfl
      | closes name =>
        obtain ⟨indent, hend⟩ := BlockMark.ofLine?_eq_closes_iff.mp hmark
        have hstart : Block.ofMarkerLine? Block.startMarker line = none := by
          rw [Option.eq_none_iff_forall_ne_some]
          rintro ⟨other, otherIndent⟩ hstart
          rw [BlockMark.ofLine?_eq_opens_iff.mpr ⟨otherIndent, hstart⟩] at hmark
          cases hmark
        cases opened with
        | none =>
          rw [parseLines, hstart, hend]
          rfl
        | some b =>
          rw [parseLines, hend]
          dsimp only [Option.map_some, BlockMark.step]
          split
          · exact (map_bind_const _ _).trans (ih _ none)
          · rfl

/-- Reading a text is going through its lines. -/
theorem parse_eq_scan (text : Text) : (parse text).map (fun _ => ()) = scan 1 none (textLines text) >>= finishScan := by
  unfold parse textLines
  dsimp only
  split
  · rfl
  · exact (map_bind_const _ _).trans (parseLines_eq_scan 1 none _)

/-- The pieces of a document hold the lines of its text. -/
theorem lines_of_parse {text : Text} {d : BlockDocument} (h : parse text = .ok d) : d.lines = textLines text := by
  unfold parse at h
  unfold textLines
  dsimp only at h
  split at h
  · next hnil =>
    cases h
    rw [if_pos hnil]
    rfl
  · next hne =>
    obtain ⟨nodes, hnodes, h⟩ := bind_ok h
    cases h
    rw [if_neg hne]
    exact lines_of_parseLines hnodes

/-- **The first fault is where the machine stops**, or where it finds that it cannot end. -/
theorem firstFault_iff {lines : List Text} {fault : BlockFault} :
    FirstFault lines fault ↔ (scan 1 none lines >>= finishScan) = .error fault := by
  have hstops : ∀ {lines fault}, scan 1 none lines = .error fault →
      (scan 1 none lines >>= finishScan) = .error fault := by
    intro lines fault h
    rw [h]
    rfl
  constructor
  · intro h
    cases h with
    | closesOther split opened mark other =>
      refine hstops (scan_eq_error_iff.mpr ⟨_, _, _, _, _, split, scan_eq_open_iff.mpr opened, mark, ?_⟩)
      rw [BlockMark.step, if_neg other, Nat.add_comm]
    | neverOpened split paired mark =>
      refine hstops (scan_eq_error_iff.mpr ⟨_, _, _, _, _, split, scan_eq_closed_iff.mpr paired, mark, ?_⟩)
      rw [BlockMark.step, Nat.add_comm]
    | opensInside split opened mark =>
      refine hstops (scan_eq_error_iff.mpr ⟨_, _, _, _, _, split, scan_eq_open_iff.mpr opened, mark, ?_⟩)
      rw [BlockMark.step, Nat.add_comm]
    | unterminated opened =>
      rw [scan_eq_open_iff.mpr opened]
      rfl
  · intro h
    cases hscan : scan 1 none lines with
    | ok reached =>
      rw [hscan] at h
      cases reached with
      | none => cases h
      | some openName =>
        cases h
        exact .unterminated (scan_eq_open_iff.mp hscan)
    | error stopped =>
      rw [hscan] at h
      cases h
      obtain ⟨before, line, after, mark, reached, hsplit, hbefore, hmark, hstep⟩ := scan_eq_error_iff.mp hscan
      rw [Nat.add_comm] at hstep
      -- of the four pairs of a state and a mark, one never stops the machine, and one only if the names differ
      cases reached with
      | none =>
        cases mark with
        | opens name => cases hstep
        | closes name =>
          cases hstep
          exact .neverOpened hsplit (scan_eq_closed_iff.mp hbefore) hmark
      | some openName =>
        cases mark with
        | opens name =>
          cases hstep
          exact .opensInside hsplit (scan_eq_open_iff.mp hbefore) hmark
        | closes name =>
          rw [BlockMark.step] at hstep
          split at hstep
          · cases hstep
          · next hother =>
            cases hstep
            exact .closesOther hsplit (scan_eq_open_iff.mp hbefore) hmark hother

/-! ## §5 Texts that are read -/

/-- The marks of a block are those of its marker lines. -/
theorem ReadsBack.marksOf_lines {b : Block} (h : ReadsBack b) : marksOf b.lines = [.opens b.name, .closes b.name] := by
  have hbody : marksOf b.body = [] := List.filterMap_eq_nil_iff.mpr fun line hline =>
    BlockMark.ofLine?_eq_none_iff.mpr (h.body line hline)
  have hend : marksOf [b.finish] = [.closes b.name] :=
    marksOf_cons_some (BlockMark.ofLine?_eq_closes_iff.mpr h.finish) []
  rw [Block.lines, List.cons_append, marksOf_cons_some (BlockMark.ofLine?_eq_opens_iff.mpr ⟨_, h.start⟩), marksOf,
    List.filterMap_append]
  exact congrArg₂ (fun body finish => _ :: (body ++ finish)) hbody hend

/-- **The marks of a document** are those of its blocks, one pair for each. -/
theorem marksOf_lines {nodes : List BlockNode} (h : ∀ node ∈ nodes, node.Readable) :
    marksOf (nodes.flatMap BlockNode.lines) =
      (nodes.filterMap BlockNode.block?).flatMap fun b => [.opens b.name, .closes b.name] := by
  induction nodes with
  | nil => rfl
  | cons node nodes ih =>
    obtain ⟨hnode, hnodes⟩ := List.forall_mem_cons.mp h
    cases hnode with
    | line plain _ =>
      exact (marksOf_cons_none (BlockMark.ofLine?_eq_none_iff.mpr plain) _).trans (ih hnodes)
    | @block b reads _ =>
      have happend : marksOf (b.lines ++ nodes.flatMap BlockNode.lines) =
          marksOf b.lines ++ marksOf (nodes.flatMap BlockNode.lines) := List.filterMap_append
      rw [List.flatMap_cons]
      change marksOf (b.lines ++ _) = _
      rw [happend, reads.marksOf_lines, ih hnodes]
      rfl

theorem readFrom_of_parse {text : Text} {d : BlockDocument} (h : parse text = .ok d) : ReadFrom (textLines text) d := by
  have hd := Readable.of_parse h
  constructor
  · exact lines_of_parse h
  · rw [← lines_of_parse h]
    exact marksOf_lines hd
  · intro line hline
    cases hd _ hline with
    | line plain _ => exact BlockMark.ofLine?_eq_none_iff.mpr plain
  · intro b hb
    exact BlockMark.ofLine?_eq_opens_iff.mpr ⟨_, (hd.readsBack hb).start⟩
  · intro b hb line hline
    exact BlockMark.ofLine?_eq_none_iff.mpr ((hd.readsBack hb).body line hline)
  · intro b hb
    exact BlockMark.ofLine?_eq_closes_iff.mpr (hd.readsBack hb).finish
  · intro b hb
    exact name_of_ofMarkerLine? (hd.readsBack hb).start (by decide)

/-- The wording of a fault names its place and its kind first. -/
theorem message_of_fault (fault : BlockFault) : fault.place ++ fault.kind <+: fault.message := by
  have hmismatched : (": mismatched block end: " : Text) = ": " ++ ("mismatched block end" ++ ": ") := by decide
  have hunterminated : (": unterminated block: " : Text) = ": " ++ ("unterminated block" ++ ": ") := by decide
  have hopen : ("unterminated block: " : Text) = "unterminated block" ++ ": " := by decide
  cases fault with
  | closesOther line name openName =>
    rw [BlockFault.place, BlockFault.kind, BlockFault.message, hmismatched]
    simp only [List.append_assoc, List.prefix_append_right_inj, List.prefix_append]
  | neverOpened line name =>
    rw [BlockFault.place, BlockFault.kind, BlockFault.message, hmismatched]
    simp only [List.append_assoc, List.prefix_append_right_inj, List.prefix_append]
  | opensInside line openName =>
    rw [BlockFault.place, BlockFault.kind, BlockFault.message, hunterminated]
    simp only [List.append_assoc, List.prefix_append_right_inj, List.prefix_append]
  | unterminated openName =>
    rw [BlockFault.place, BlockFault.kind, BlockFault.message, hopen]
    simp only [List.nil_append, List.append_assoc, List.prefix_append]

/-- **The grammar of documents.** A text is read exactly when its marks come in pairs, a start and an end of one name. If
they do not, reading fails on the first fault and on nothing else, and the wording of a fault begins with the number of
its line and with its kind. What is read holds the lines of the text, with a block for each pair of marks, and in it the
lines between the two. -/
theorem parse_grammar (text : Text) :
    ((∃ d, parse text = .ok d) ↔ PairedUp (marksOf (textLines text))) ∧
    (∀ fault, parse text = .error fault ↔ FirstFault (textLines text) fault) ∧
    (∀ fault : BlockFault, fault.place ++ fault.kind <+: fault.message) ∧
    ∀ d, parse text = .ok d → ReadFrom (textLines text) d := by
  have hscan := parse_eq_scan text
  refine ⟨?_, ?_, message_of_fault, fun d h => readFrom_of_parse h⟩
  · constructor
    · rintro ⟨d, hd⟩
      rw [hd] at hscan
      obtain ⟨reached, hreached, hfinish⟩ := bind_ok hscan.symm
      cases reached with
      | none => exact scan_eq_closed_iff.mp hreached
      | some openName => cases hfinish
    · intro hpaired
      rw [scan_eq_closed_iff.mpr hpaired] at hscan
      cases hparse : parse text with
      | ok d => exact ⟨d, rfl⟩
      | error fault =>
        rw [hparse] at hscan
        cases hscan
  · intro fault
    rw [firstFault_iff, ← hscan]
    cases parse text with
    | ok d => exact iff_of_false nofun nofun
    | error stopped => rw [Except.map, Except.error.injEq, Except.error.injEq]

/-- Two pairs, one of them with blanks in its name and odd blanks around its markers, and two lines that are no markers
because they have no name or no blank behind the slashes; and a text where the second end goes with no start. -/
theorem parse_of_two_pairs :
    let paired : Text := "// block start\n\t// block start  x y\r\n  body\n//block end b\n // block end x y\u3000\n" ++
      "// block start b\n// block end b"
    let crossed : Text := "// block start a\n// block end a\n\n// block end b\n"
    marksOf (textLines paired) = [.opens "x y", .closes "x y", .opens "b", .closes "b"] ∧
    (∃ d, BlockDocument.parse paired = .ok d ∧ ReadFrom (textLines paired) d) ∧
    BlockDocument.parse crossed = .error (.neverOpened 4 "b") := by
  intro paired crossed
  have hmarks : marksOf (textLines paired) = [.opens "x y", .closes "x y", .opens "b", .closes "b"] := by
    decide +kernel
  have hpaired : PairedUp (marksOf (textLines paired)) := hmarks ▸ .pair (.pair .nil)
  refine ⟨hmarks, ?_, ?_⟩
  · obtain ⟨d, hd⟩ := (parse_grammar paired).1.mpr hpaired
    exact ⟨d, hd, (parse_grammar paired).2.2.2 d hd⟩
  · let before : List Text := ["// block start a", "// block end a", ""]
    have hlines : textLines crossed = before ++ ("// block end b" : Text) :: [] := by decide +kernel
    have hbefore : marksOf before = [.opens "a", .closes "a"] := by decide +kernel
    have hfault : FirstFault (textLines crossed) (.neverOpened (before.length + 1) "b") :=
      .neverOpened hlines (hbefore ▸ .pair .nil) (by decide +kernel)
    exact ((parse_grammar crossed).2.1 _).mpr hfault

/-! ## §6 Texts that are written as they were -/

/-- **Reading and writing a text** puts a line feed in the place of each carriage return with a line feed behind it, and
leaves all other bytes as they are. -/
theorem render_of_parse {text : Text} {d : BlockDocument} (h : parse text = .ok d) :
    d.render = Text.joinWith [Text.lineFeed] (Text.splitOnText "\r\n" text) := by
  rw [← Text.unixLines_eq_joinWith]
  have hlines := lines_of_parse h
  unfold parse at h
  dsimp only at h
  split at h
  · next hnil =>
    cases h
    rw [hnil]
    rfl
  · next hne =>
    obtain ⟨nodes, hnodes, h⟩ := bind_ok h
    cases h
    rw [textLines, if_neg hne] at hlines
    -- there is a piece, as there is a line even where nothing but a line end is left
    have hpieces : nodes ≠ [] := by
      rintro rfl
      exact Text.splitOn_ne_nil _ _ hlines.symm
    rw [render, hlines, Text.unlines, Text.joinWith_splitOn]
    simpa [hpieces] using Text.trimSuffix_append_of_endsWith [Text.lineFeed] text.unixLines

/-- Line ends of one and of two bytes, an odd marker, an empty block, and no line end at the end. -/
theorem render_of_mixed_line_ends :
    let text : Text := "a\r\n\n\t// block start  x y\r\r\n// block end x y \r\n\r"
    ∃ d, BlockDocument.parse text = .ok d ∧
      d.render = "a\n\n\t// block start  x y\r\n// block end x y \n\r" := by
  intro text
  have hok : (BlockDocument.parse text).isOk = true := by decide +kernel
  cases hparse : BlockDocument.parse text with
  | error fault => rw [hparse] at hok; cases hok
  | ok d =>
    refine ⟨d, rfl, ?_⟩
    rw [render_of_parse hparse]
    decide +kernel

end BlockDocument

end HeaderReflection
