import HeaderReflection.Proofs.Table.Contents

/-!
# What modules write to the shared tables

The lines that a module writes to the two shared tables, whatever its ids and dependencies are, and the tables that
have no module yet.

## Main definitions

- `idLines`, `dependencyLines`: the lines of a module in the two tables.
- `emptyTypeIds`, `emptyDependencies`: the tables without modules.
- `SharedTable`: a table as all modules use it; `typeIdsTable` and `dependenciesTable` are the two there are.

## Main results

- `bodyOfText_typeIdsBody`, `bodyOfText_dependenciesBody`: these are the lines that the blocks hold.
- `SharedTable.update_absent`, `SharedTable.update_stored`: an update writes the lines of its module and nothing else.
-/

namespace HeaderReflection

open BlockDocument (defaultIndent PlainLine)
open Block (BodyLine)
open TableContents (InnerLine FrameLine)

/-! ## §1 Lines that are no markers -/

theorem stripPrefix?_marker_eq_none {marker : Text} (hmarker : ∃ rest, marker = Text.byte '/' :: rest) {b : UInt8}
    (hb : b ≠ Text.byte '/') (rest : Text) : Text.stripPrefix? marker (b :: rest) = none := by
  obtain ⟨tail, rfl⟩ := hmarker
  exact Text.stripPrefix?_cons_of_ne (Ne.symm hb) tail rest

/-- A line whose first visible byte is no slash can stand in a body. -/
theorem innerLine_of_visible (blanks : Text) {rest : Text} {b : UInt8} (hlow : b < 128) (hb : Text.isBlankByte b = false)
    (hslash : b ≠ Text.byte '/') (hblanks : ∀ c ∈ blanks, c < 128 ∧ Text.isBlankByte c = true)
    (hfeed : Text.lineFeed ∉ blanks ++ b :: rest) (hreturn : Text.byte '\r' ∉ blanks ++ b :: rest) :
    InnerLine (blanks ++ b :: rest) := by
  have hall : ∀ c ∈ defaultIndent ++ blanks, c < 128 ∧ Text.isBlankByte c = true := by
    intro c hc
    rcases List.mem_append.mp hc with hc | hc
    · exact TableContents.isBlankByte_of_mem_defaultIndent c hc
    · exact hblanks c hc
  have hmarker : ∀ marker : Text, (∃ tail, marker = Text.byte '/' :: tail) →
      Block.ofMarkerLine? marker (defaultIndent ++ (blanks ++ b :: rest)) = none := by
    intro marker htail
    obtain ⟨visible, htrim⟩ := Text.trim_spaces_cons hlow hb hall rest
    rw [Block.ofMarkerLine?, ← List.append_assoc, htrim, stripPrefix?_marker_eq_none htail hslash]
    rfl
  exact {
    visible := Text.isBlank_of_visible hlow hb (fun c hc => (hblanks c hc).1)
    unbroken := hfeed
    noStart := hmarker _ ⟨_, rfl⟩
    noEnd := hmarker _ ⟨_, rfl⟩
    noReturn := hreturn }

/-! ## §2 Ids -/

/-- A name that can be listed as an enumerator: it begins like an identifier and stands on one line. -/
structure EnumeratorName (id : Text) : Prop where
  start : ∃ b rest, id = b :: rest ∧ Text.isIdentifierByte b = true
  unbroken : Text.lineFeed ∉ id
  noReturn : Text.byte '\r' ∉ id

theorem enumeratorName_of_isIdentifier {id : Text} (h : Text.isIdentifier id = true) : EnumeratorName id where
  start := by
    cases id with
    | nil => exact absurd rfl (Text.ne_nil_of_isIdentifier h)
    | cons b rest => exact ⟨b, rest, rfl, Text.forall_mem_of_isIdentifier h b List.mem_cons_self⟩
  unbroken := Text.not_mem_of_isIdentifier h (by decide)
  noReturn := Text.not_mem_of_isIdentifier h (by decide)

/-- The lines of a module in the table of type ids. -/
def idLines (ids : List Text) : List Text := (Text.sort ids).map (· ++ ",")

theorem innerLine_id {id : Text} (h : EnumeratorName id) : InnerLine (id ++ ",") := by
  obtain ⟨b, rest, rfl, hb⟩ := h.start
  have hbounds := Text.identifierByte_bounds hb
  have hslash : b ≠ Text.byte '/' := by
    rintro rfl
    exact absurd hb (by decide)
  have hcomma : ∀ c : UInt8, c ∉ b :: rest → c ≠ Text.byte ',' → c ∉ (b :: rest) ++ ("," : Text) := by
    intro c hc hne hmem
    rcases List.mem_append.mp hmem with hmem | hmem
    · exact hc hmem
    · exact hne (List.mem_singleton.mp hmem)
  exact innerLine_of_visible [] (Text.lt_of_isIdentifierByte hb) (Text.isBlankByte_of_isIdentifierByte hb)
    hslash (by simp) (hcomma _ h.unbroken (by decide)) (hcomma _ h.noReturn (by decide))

theorem innerLine_of_mem_idLines {ids : List Text} (h : ∀ id ∈ ids, EnumeratorName id) :
    ∀ line ∈ idLines ids, InnerLine line := by
  intro line hline
  obtain ⟨id, hid, rfl⟩ := List.mem_map.mp hline
  exact innerLine_id (h id ((Text.sort_perm ids).mem_iff.mp hid))

theorem typeIdsBody_eq (ids : List Text) : typeIdsBody ids = (idLines ids).flatMap (· ++ [Text.lineFeed]) := by
  rw [typeIdsBody, idLines, List.flatMap_map]
  congr 1
  funext id
  rw [List.append_assoc]
  rfl

theorem bodyOfText_typeIdsBody {ids : List Text} (h : ∀ id ∈ ids, EnumeratorName id) :
    Block.bodyOfText defaultIndent (typeIdsBody ids) = (idLines ids).map (defaultIndent ++ ·) := by
  rw [typeIdsBody_eq]
  exact Block.bodyOfText_ended (fun line hline => (innerLine_of_mem_idLines h line hline).toBodyLine)

/-! ## §3 Dependencies -/

/-- The lines of a module in the table of dependencies. -/
def dependencyLines (module : Text) (dependencies : List Text) : List Text :=
  ["if (id == " ++ Text.quoted module ++ ")",
   "\x7b",
   "    return \x7b" ++ Text.joinWith ", " (dependencies.map Text.quoted) ++ "\x7d;",
   "\x7d"]

theorem visible_of_mem_quotedList {dependencies : List Text} {b : UInt8}
    (h : b ∈ Text.joinWith ", " (dependencies.map Text.quoted)) : 32 ≤ b := by
  rcases Text.mem_joinWith h with h | ⟨piece, hpiece, hb⟩
  · have hall : (", " : Text).all (fun c => decide (32 ≤ c)) = true := by decide
    exact of_decide_eq_true (List.all_eq_true.mp hall b h)
  · obtain ⟨dependency, -, rfl⟩ := List.mem_map.mp hpiece
    exact Text.visible_of_mem_quoted hb

/-- No byte below the space is in the lines of a module. -/
theorem visible_of_mem_dependencyLines {module : Text} {dependencies : List Text} {line : Text}
    (hline : line ∈ dependencyLines module dependencies) {b : UInt8} (hb : b ∈ line) : 32 ≤ b := by
  have hliteral : ∀ text : Text, text.all (fun c => decide (32 ≤ c)) = true → b ∈ text → 32 ≤ b := by
    intro text htext hmem
    exact of_decide_eq_true (List.all_eq_true.mp htext b hmem)
  simp only [dependencyLines, List.mem_cons, List.not_mem_nil, or_false] at hline
  rcases hline with rfl | rfl | rfl | rfl
  · rcases List.mem_append.mp hb with hb | hb
    · rcases List.mem_append.mp hb with hb | hb
      · exact hliteral _ (by decide) hb
      · exact Text.visible_of_mem_quoted hb
    · exact hliteral _ (by decide) hb
  · exact hliteral _ (by decide) hb
  · rcases List.mem_append.mp hb with hb | hb
    · rcases List.mem_append.mp hb with hb | hb
      · exact hliteral _ (by decide) hb
      · exact visible_of_mem_quotedList hb
    · exact hliteral _ (by decide) hb
  · exact hliteral _ (by decide) hb

theorem innerLine_of_mem_dependencyLines {module : Text} {dependencies : List Text} :
    ∀ line ∈ dependencyLines module dependencies, InnerLine line := by
  intro line hline
  have hfeed : Text.lineFeed ∉ line := fun h => absurd (visible_of_mem_dependencyLines hline h) (by decide)
  have hreturn : Text.byte '\r' ∉ line := fun h => absurd (visible_of_mem_dependencyLines hline h) (by decide)
  simp only [dependencyLines, List.mem_cons, List.not_mem_nil, or_false] at hline
  -- the first visible bytes are the letter of the condition, a brace, the letter of the return and a brace
  rcases hline with rfl | rfl | rfl | rfl
  · exact innerLine_of_visible [] (b := Text.byte 'i') (by decide) (by decide) (by decide) (by simp)
      hfeed hreturn
  · exact innerLine_of_visible [] (b := Text.byte '\x7b') (by decide) (by decide) (by decide) (by simp)
      hfeed hreturn
  · exact innerLine_of_visible defaultIndent (b := Text.byte 'r') (by decide) (by decide) (by decide)
      TableContents.isBlankByte_of_mem_defaultIndent hfeed hreturn
  · exact innerLine_of_visible [] (b := Text.byte '\x7d') (by decide) (by decide) (by decide) (by simp)
      hfeed hreturn

theorem bodyOfText_dependenciesBody (module : Text) (dependencies : List Text) :
    Block.bodyOfText defaultIndent (dependenciesBody module dependencies) =
      (dependencyLines module dependencies).map (defaultIndent ++ ·) := by
  have hbody : dependenciesBody module dependencies = Text.unlines (dependencyLines module dependencies) := by
    simp only [dependenciesBody, dependencyLines, Text.unlines, Text.joinWith, List.append_assoc]
    rfl
  rw [hbody]
  exact Block.bodyOfText_unlines (fun line hline => (innerLine_of_mem_dependencyLines line hline).toBodyLine)

/-! ## §4 Tables without modules -/

/-- The table of type ids without modules. -/
def emptyTypeIds : TableContents where
  before :=
    ["#pragma once", "", "// Generated by argen. Module blocks are rewritten on every run.", "", "namespace agea",
     "\x7b", "enum type_ids", "\x7b"]
  modules := []
  sentinel := ["type_ids_count"]
  after := ["\x7d;", "\x7d  // namespace agea"]

/-- The table of dependencies without modules. -/
def emptyDependencies : TableContents where
  before :=
    ["#pragma once", "", "// Generated by argen. Module blocks are rewritten on every run.", "", "#include <string>",
     "#include <vector>", "", "namespace agea", "\x7b", "namespace glue", "\x7b", "inline std::vector<std::string>",
     "get_dependencies(const std::string& id)", "\x7b"]
  modules := []
  sentinel := ["return \x7b\x7d;"]
  after := ["\x7d", "\x7d  // namespace glue", "\x7d  // namespace agea"]

theorem text_emptyTypeIds : emptyTypeIds.text = typeIdsSkeleton := by decide +kernel

theorem text_emptyDependencies : emptyDependencies.text = dependenciesSkeleton := by decide +kernel

instance (line : Text) : Decidable (FrameLine line) :=
  decidable_of_iff ((Block.ofMarkerLine? Block.startMarker line = none ∧
      Block.ofMarkerLine? Block.endMarker line = none) ∧ Text.lineFeed ∉ line ∧ Text.byte '\r' ∉ line)
    ⟨fun h => ⟨⟨h.1.1, h.1.2⟩, h.2.1, h.2.2⟩, fun h => ⟨⟨h.noStart, h.noEnd⟩, h.unbroken, h.noReturn⟩⟩

instance (line : Text) : Decidable (InnerLine line) :=
  decidable_of_iff ((line.isBlank = false ∧ Text.lineFeed ∉ line ∧
      Block.ofMarkerLine? Block.startMarker (defaultIndent ++ line) = none ∧
      Block.ofMarkerLine? Block.endMarker (defaultIndent ++ line) = none) ∧ Text.byte '\r' ∉ line)
    ⟨fun h => ⟨⟨h.1.1, h.1.2.1, h.1.2.2.1, h.1.2.2.2⟩, h.2⟩,
     fun h => ⟨⟨h.visible, h.unbroken, h.noStart, h.noEnd⟩, h.noReturn⟩⟩

theorem sound_emptyTypeIds : emptyTypeIds.Sound where
  before := by decide +kernel
  after := by decide +kernel
  names := by decide +kernel
  distinct := by decide +kernel
  lines := by decide +kernel

theorem sound_emptyDependencies : emptyDependencies.Sound where
  before := by decide +kernel
  after := by decide +kernel
  names := by decide +kernel
  distinct := by decide +kernel
  lines := by decide +kernel

/-! ## §5 The two tables -/

/-- A table that modules share: its contents before any module has written, and what a module writes to it, as text and
as lines. The content must be admissible for the lines to be read back. -/
structure SharedTable where
  empty : TableContents
  admissible : List Text → Prop
  body : Text → List Text → Text
  lines : Text → List Text → List Text
  sound : empty.Sound
  bare : empty.modules = []
  bodyOfText : ∀ module content, admissible content →
    Block.bodyOfText defaultIndent (body module content) = (lines module content).map (defaultIndent ++ ·)
  inner : ∀ module content, admissible content → ∀ line ∈ lines module content, InnerLine line

namespace SharedTable

/-- Replace the block of a module in the file of a table. -/
def update (t : SharedTable) (tree : FileTree) (path module : Text) (content : List Text) :
    Except TableError TableUpdate :=
  updateTable tree path t.empty.text module (t.body module content)

theorem update_absent (t : SharedTable) {tree : FileTree} {path module : Text} {content : List Text}
    {error : FileError} (hread : tree.read path = .error error) (hreason : error.reason = .notExist)
    (hcontent : t.admissible content) :
    (t.update tree path module content).map (·.text) =
      .ok (t.empty.withBlock module (t.lines module content)).text :=
  updateTable_absent t.sound hread hreason (t.bodyOfText module content hcontent)

theorem update_stored (t : SharedTable) {tree : FileTree} {path module : Text} {content : List Text}
    {c : TableContents} (hc : c.Sound) (hread : tree.read path = .ok c.text) (hcontent : t.admissible content) :
    (t.update tree path module content).map (·.text) = .ok (c.withBlock module (t.lines module content)).text :=
  updateTable_stored hc hread (t.bodyOfText module content hcontent)

end SharedTable

/-- The table of type ids. -/
def typeIdsTable : SharedTable where
  empty := emptyTypeIds
  admissible := fun ids => ∀ id ∈ ids, EnumeratorName id
  body := fun _ ids => typeIdsBody ids
  lines := fun _ ids => idLines ids
  sound := sound_emptyTypeIds
  bare := rfl
  bodyOfText := fun _ _ h => bodyOfText_typeIdsBody h
  inner := fun _ _ h => innerLine_of_mem_idLines h

/-- The table of dependencies. Any texts can be dependencies: they are written in quotes. -/
def dependenciesTable : SharedTable where
  empty := emptyDependencies
  admissible := fun _ => True
  body := dependenciesBody
  lines := dependencyLines
  sound := sound_emptyDependencies
  bare := rfl
  bodyOfText := fun module dependencies _ => bodyOfText_dependenciesBody module dependencies
  inner := fun _ _ _ => innerLine_of_mem_dependencyLines

theorem updateTypeIds_eq : updateTypeIds = typeIdsTable.update := by
  funext tree path module ids
  rw [updateTypeIds, ← text_emptyTypeIds]
  rfl

theorem updateDependencies_eq : updateDependencies = dependenciesTable.update := by
  funext tree path module dependencies
  rw [updateDependencies, ← text_emptyDependencies]
  rfl

end HeaderReflection
