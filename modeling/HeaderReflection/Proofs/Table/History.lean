import HeaderReflection.Proofs.Outcome
import HeaderReflection.Proofs.Table.Updates

/-!
# Shared tables over whole runs

Modules update a shared table one after the other, in any order and as often as they like, and each time the result is
written back. The table is then its skeleton with one block for each module that has written, in the order in which they
first wrote, and each block holds what its module wrote last.

## Main definitions

- `TableHistory`: the updates that have been written to a file, and the file tree they have led to.
- `writtenBlocks`: the blocks that a list of updates leaves behind.
- `tableText`: a skeleton with blocks before its sentinel.

## Main results

- `modules_afterUpdates`: the blocks of a table after a list of updates.
- `SharedTable.text_of_history`: what the file holds, and what the next update gives.
- `table_text_of_history`: both tables, over whole runs.
-/

namespace HeaderReflection

open BlockDocument (defaultIndent)

/-! ## §1 Histories -/

/-- The updates that have been written to a file one after the other, from a tree without the file on. Between two
updates all other files may change. -/
inductive TableHistory (update : FileTree → Text → Text → List Text → Except TableError TableUpdate) (path : Text) :
    List (Text × List Text) → FileTree → Prop where
  /-- There is no file yet. -/
  | absent {tree : FileTree} {error : FileError} (read : tree.read path = .error error)
      (reason : error.reason = .notExist) : TableHistory update path [] tree
  /-- A module has updated the table, and the result has been written back. -/
  | updated {updates : List (Text × List Text)} {before after : FileTree} {module : Text} {content : List Text}
      {result : TableUpdate} (history : TableHistory update path updates before)
      (ok : update before path module content = .ok result) (written : after.read path = .ok result.text) :
      TableHistory update path (updates ++ [(module, content)]) after

/-- The blocks that a list of updates leaves behind: one for each module, in the order of their first updates, with the
lines of its last one. -/
def writtenBlocks (lines : Text → List Text → List Text) (updates : List (Text × List Text)) : List TableBlock :=
  (updates.map (·.1)).eraseDups.map fun module =>
    { name := module, lines := ((updates.reverse.lookup module).map (lines module)).getD [] }

/-- A line of its own, four spaces in. -/
def indentedLine (line : Text) : Text := "    " ++ line ++ "\n"

/-- A block as it stands in a table. -/
def TableBlock.text (b : TableBlock) : Text :=
  indentedLine ("// block start " ++ b.name) ++ b.lines.flatMap indentedLine ++
    indentedLine ("// block end " ++ b.name)

/-- The line that opens the block of the sentinel. -/
def sentinelLine : Text := "    // block start __end\n"

/-- A skeleton with blocks immediately before the one of its sentinel. -/
def tableText (skeleton : Text) (blocks : List TableBlock) : Text :=
  match Text.cut sentinelLine skeleton with
  | some (before, after) => before ++ blocks.flatMap TableBlock.text ++ sentinelLine ++ after
  | none => skeleton

/-! ## §2 Blocks after updates -/

namespace TableContents

variable (lines : Text → List Text → List Text)

/-- A table after a list of updates. -/
def afterUpdates (c : TableContents) (updates : List (Text × List Text)) : TableContents :=
  updates.foldl (fun c update => c.withBlock update.1 (lines update.1 update.2)) c

@[simp] theorem afterUpdates_nil (c : TableContents) : c.afterUpdates lines [] = c := rfl

theorem afterUpdates_concat (c : TableContents) (updates : List (Text × List Text)) (module : Text)
    (content : List Text) :
    c.afterUpdates lines (updates ++ [(module, content)]) =
      (c.afterUpdates lines updates).withBlock module (lines module content) := by
  rw [afterUpdates, List.foldl_append]
  rfl

variable {lines}

theorem sound_afterUpdates {c : TableContents} (hc : c.Sound) {updates : List (Text × List Text)}
    (hnames : ∀ update ∈ updates, Text.isIdentifier update.1 = true)
    (hlines : ∀ update ∈ updates, ∀ line ∈ lines update.1 update.2, InnerLine line) :
    (c.afterUpdates lines updates).Sound := by
  -- from the end, since the last update finds what the others have left
  induction updates using List.reverseRecOn with
  | nil => exact hc
  | append_singleton updates update ih =>
    rw [afterUpdates_concat]
    have hbefore : (c.afterUpdates lines updates).Sound := by
      apply ih
      · intro u hu
        exact hnames u (List.mem_append_left _ hu)
      · intro u hu
        exact hlines u (List.mem_append_left _ hu)
    exact hbefore.withBlock (hnames update (by simp)) (hlines update (by simp))

end TableContents

theorem names_writtenBlocks (lines : Text → List Text → List Text) (updates : List (Text × List Text)) :
    (writtenBlocks lines updates).map (·.name) = (updates.map (·.1)).eraseDups := by
  rw [writtenBlocks, List.map_map]
  exact List.map_id _

theorem eraseDups_concat (names : List Text) (name : Text) :
    (names ++ [name]).eraseDups = if name ∈ names then names.eraseDups else names.eraseDups ++ [name] := by
  rw [List.eraseDups_append]
  by_cases h : name ∈ names
  · simp [List.removeAll, h]
  · simp [List.removeAll, h, List.eraseDups_cons]

theorem lookup_reverse_concat (updates : List (Text × List Text)) (module name : Text) (content : List Text) :
    (updates ++ [(module, content)]).reverse.lookup name =
      if name = module then some content else updates.reverse.lookup name := by
  rw [List.reverse_append, List.reverse_singleton, List.singleton_append, List.lookup_cons]
  by_cases h : name = module
  · simp [h]
  · rw [beq_eq_false_iff_ne.mpr h, if_neg h]

/-- A further update goes into the block of its module, or into a new block behind the others. -/
theorem writtenBlocks_concat (lines : Text → List Text → List Text) (updates : List (Text × List Text)) (module : Text)
    (content : List Text) :
    writtenBlocks lines (updates ++ [(module, content)]) =
      if module ∈ (writtenBlocks lines updates).map (·.name) then
        (writtenBlocks lines updates).map fun b => if b.name = module then ⟨module, lines module content⟩ else b
      else writtenBlocks lines updates ++ [⟨module, lines module content⟩] := by
  have hmem : module ∈ (writtenBlocks lines updates).map (·.name) ↔ module ∈ updates.map (·.1) := by
    rw [names_writtenBlocks, List.mem_eraseDups]
  by_cases h : module ∈ updates.map (·.1)
  · -- the names stay, and what a name was written last changes at this module only
    rw [if_pos (hmem.mpr h), writtenBlocks, List.map_append, List.map_singleton, eraseDups_concat, if_pos h,
      writtenBlocks, List.map_map]
    refine List.map_congr_left ?_
    intro name _
    simp only [lookup_reverse_concat, Function.comp_apply]
    by_cases hname : name = module
    · simp [hname]
    · simp [hname]
  · rw [if_neg fun hnew => h (hmem.mp hnew), writtenBlocks, List.map_append, List.map_singleton, eraseDups_concat,
      if_neg h, writtenBlocks, List.map_append, List.map_singleton]
    simp only [lookup_reverse_concat]
    congr 1
    · refine List.map_congr_left ?_
      intro name hname
      have hne : name ≠ module := by
        rintro rfl
        exact h (List.mem_eraseDups.mp hname)
      rw [if_neg hne]

/-- **The blocks after updates** of a table that had none. -/
theorem modules_afterUpdates {lines : Text → List Text → List Text} {c : TableContents} (hbare : c.modules = [])
    {updates : List (Text × List Text)} (hnames : ∀ update ∈ updates, update.1 ≠ sentinelName) :
    c.afterUpdates lines updates = { c with modules := writtenBlocks lines updates } := by
  -- from the last update on: both sides say what one more update does
  induction updates using List.reverseRecOn with
  | nil =>
    have hnone : writtenBlocks lines [] = [] := rfl
    rw [TableContents.afterUpdates_nil, hnone, ← hbare]
  | append_singleton updates update ih =>
    obtain ⟨module, content⟩ := update
    have hne : module ≠ sentinelName := hnames (module, content) (by simp)
    rw [TableContents.afterUpdates_concat, ih fun u hu => hnames u (List.mem_append_left _ hu), writtenBlocks_concat,
      TableContents.withBlock, if_neg hne]
    split <;> rfl

/-! ## §3 Texts of tables -/

theorem text_toBlock (b : TableBlock) : b.toBlock.lines.flatMap (· ++ [Text.lineFeed]) = b.text := by
  rw [TableContents.lines_toBlock, TableBlock.text]
  simp only [TableContents.markerLine, List.flatMap_append, List.flatMap_cons, List.flatMap_nil, List.flatMap_map,
    List.append_nil, List.append_assoc, indentedLine]
  rfl

theorem TableContents.text_eq_flatMap (c : TableContents) :
    c.text = c.before.flatMap (· ++ [Text.lineFeed]) ++ c.modules.flatMap TableBlock.text ++
      (c.sentinelBlock.text ++ c.after.flatMap (· ++ [Text.lineFeed])) := by
  rw [TableContents.text_eq, ← Text.flatMap_ended (TableContents.lines_ne_nil c)]
  simp only [BlockDocument.lines, TableContents.document, TableContents.blocks, List.flatMap_append,
    List.flatMap_map, List.flatMap_assoc, BlockNode.lines, List.map_append, List.map_cons, List.map_nil,
    List.flatMap_cons, List.flatMap_nil, List.append_nil, text_toBlock, List.append_assoc]

theorem text_sentinelBlock (c : TableContents) :
    c.sentinelBlock.text = sentinelLine ++ (c.sentinel.flatMap indentedLine ++ indentedLine "// block end __end") := by
  rw [TableBlock.text, List.append_assoc]
  rfl

/-- The skeleton of a table is the table without modules, and its sentinel is the first block to be found in it. -/
structure SharedTable.HasSkeleton (t : SharedTable) (skeleton : Text) : Prop where
  text_empty : t.empty.text = skeleton
  cut_skeleton : Text.cut sentinelLine skeleton =
    some (t.empty.before.flatMap (· ++ [Text.lineFeed]),
      t.empty.sentinel.flatMap indentedLine ++ indentedLine "// block end __end" ++
        t.empty.after.flatMap (· ++ [Text.lineFeed]))

theorem SharedTable.HasSkeleton.text_withModules {t : SharedTable} {skeleton : Text} (h : t.HasSkeleton skeleton)
    (blocks : List TableBlock) : { t.empty with modules := blocks }.text = tableText skeleton blocks := by
  rw [tableText, h.cut_skeleton, TableContents.text_eq_flatMap, text_sentinelBlock]
  simp only [List.append_assoc]

theorem typeIdsTable_hasSkeleton : typeIdsTable.HasSkeleton typeIdsSkeleton where
  text_empty := text_emptyTypeIds
  cut_skeleton := by decide +kernel

theorem dependenciesTable_hasSkeleton : dependenciesTable.HasSkeleton dependenciesSkeleton where
  text_empty := text_emptyDependencies
  cut_skeleton := by decide +kernel

/-! ## §4 Tables after histories -/

/-- A name under which a module can write: an identifier other than that of the sentinel. -/
structure ModuleName (name : Text) : Prop where
  identifier : Text.isIdentifier name = true
  ne_sentinel : name ≠ sentinelName

namespace SharedTable

variable {t : SharedTable} {path : Text} {updates : List (Text × List Text)} {tree : FileTree}

theorem sound_of_updates (hupdates : ∀ update ∈ updates, ModuleName update.1 ∧ t.admissible update.2) :
    (t.empty.afterUpdates t.lines updates).Sound := by
  apply TableContents.sound_afterUpdates t.sound
  · intro update hupdate
    exact (hupdates update hupdate).1.identifier
  · intro update hupdate
    exact t.inner update.1 update.2 (hupdates update hupdate).2

/-- What the file of a table holds after a history, and what a further update makes of it. The first part is the
invariant of the second, so both are proved together along the history. -/
theorem read_and_update_of_history (history : TableHistory t.update path updates tree)
    (hupdates : ∀ update ∈ updates, ModuleName update.1 ∧ t.admissible update.2) :
    (updates ≠ [] → tree.read path = .ok (t.empty.afterUpdates t.lines updates).text) ∧
    ∀ module content, t.admissible content →
      (t.update tree path module content).map (·.text) =
        .ok (t.empty.afterUpdates t.lines (updates ++ [(module, content)])).text := by
  induction history with
  | absent hread hreason =>
    refine ⟨fun hne => absurd rfl hne, ?_⟩
    intro module content hcontent
    exact t.update_absent hread hreason hcontent
  | @updated updates before after module content result history ok written ih =>
    have hbefore := ih fun update h => hupdates update (List.mem_append_left _ h)
    have hresult : result.text = (t.empty.afterUpdates t.lines (updates ++ [(module, content)])).text := by
      have hmap := hbefore.2 module content (hupdates (module, content) (by simp)).2
      rw [ok] at hmap
      exact Except.ok.inj hmap
    -- what is written back is a sound table again, and that is all the next update asks for
    rw [hresult] at written
    refine ⟨fun _ => written, ?_⟩
    intro next nextContent hcontent
    rw [TableContents.afterUpdates_concat]
    exact t.update_stored (sound_of_updates hupdates) written hcontent

/-- **A table after a history**: the file holds the skeleton with the blocks that the updates have left behind, and every
further update succeeds. -/
theorem text_of_history {skeleton : Text} (hskeleton : t.HasSkeleton skeleton)
    (history : TableHistory t.update path updates tree)
    (hupdates : ∀ update ∈ updates, ModuleName update.1 ∧ t.admissible update.2) :
    (updates ≠ [] → tree.read path = .ok (tableText skeleton (writtenBlocks t.lines updates))) ∧
    ∀ module content, ModuleName module → t.admissible content → ∃ changed,
      t.update tree path module content =
        .ok { text := tableText skeleton (writtenBlocks t.lines (updates ++ [(module, content)])), changed } := by
  have htext : ∀ us : List (Text × List Text), (∀ update ∈ us, update.1 ≠ sentinelName) →
      (t.empty.afterUpdates t.lines us).text = tableText skeleton (writtenBlocks t.lines us) := by
    intro us hus
    rw [modules_afterUpdates t.bare hus, hskeleton.text_withModules]
  obtain ⟨hread, hnext⟩ := read_and_update_of_history history hupdates
  constructor
  · intro hne
    rw [hread hne, htext updates fun update h => (hupdates update h).1.ne_sentinel]
  · intro module content hmodule hcontent
    have hmap := hnext module content hcontent
    rw [htext] at hmap
    · obtain ⟨result, hok, hresult⟩ : ∃ result, t.update tree path module content = .ok result ∧
          result.text = tableText skeleton (writtenBlocks t.lines (updates ++ [(module, content)])) := map_ok hmap
      exact ⟨result.changed, by rw [hok, ← hresult]⟩
    · intro update hupdate
      rcases List.mem_append.mp hupdate with hold | hnew
      · exact (hupdates update hold).1.ne_sentinel
      · rw [List.mem_singleton.mp hnew]
        exact hmodule.ne_sentinel

end SharedTable

/-- The enumerators of a module, one on a line, in byte order. -/
def enumeratorLines (ids : List Text) : List Text := (ids.mergeSort fun s t => decide (s ≤ t)).map (· ++ ",")

theorem idLines_eq : idLines = enumeratorLines := by
  funext ids
  unfold idLines enumeratorLines
  rw [Text.sort_eq_mergeSort]

/-- **Shared tables over whole runs.** However modules have updated a table from an absent file on, the file is the
skeleton with one block for each module before the sentinel, in the order of their first updates, and each block holds
what its module wrote last: the sorted ids, or the branch of the lookup with the dependencies. No update fails. -/
theorem table_text_of_history :
    (∀ path updates tree, TableHistory updateTypeIds path updates tree →
      (∀ update ∈ updates, ModuleName update.1 ∧ ∀ id ∈ update.2, Text.isIdentifier id = true) →
      (updates ≠ [] → tree.read path =
        .ok (tableText typeIdsSkeleton (writtenBlocks (fun _ => enumeratorLines) updates))) ∧
      ∀ module ids, ModuleName module → (∀ id ∈ ids, Text.isIdentifier id = true) → ∃ changed,
        updateTypeIds tree path module ids =
          .ok { text := tableText typeIdsSkeleton (writtenBlocks (fun _ => enumeratorLines) (updates ++ [(module, ids)]))
                changed }) ∧
    (∀ path updates tree, TableHistory updateDependencies path updates tree →
      (∀ update ∈ updates, ModuleName update.1) →
      (updates ≠ [] → tree.read path = .ok (tableText dependenciesSkeleton (writtenBlocks dependencyLines updates))) ∧
      ∀ module dependencies, ModuleName module → ∃ changed,
        updateDependencies tree path module dependencies =
          .ok { text := tableText dependenciesSkeleton (writtenBlocks dependencyLines (updates ++ [(module, dependencies)]))
                changed }) := by
  constructor
  · intro path updates tree history hupdates
    rw [updateTypeIds_eq] at history ⊢
    rw [← idLines_eq]
    have htable := SharedTable.text_of_history typeIdsTable_hasSkeleton history fun update h =>
      ⟨(hupdates update h).1, fun id hid => enumeratorName_of_isIdentifier ((hupdates update h).2 id hid)⟩
    refine ⟨htable.1, ?_⟩
    intro module ids hmodule hids
    exact htable.2 module ids hmodule fun id hid => enumeratorName_of_isIdentifier (hids id hid)
  · intro path updates tree history hupdates
    rw [updateDependencies_eq] at history ⊢
    have htable := SharedTable.text_of_history dependenciesTable_hasSkeleton history fun update h =>
      ⟨hupdates update h, trivial⟩
    exact ⟨htable.1, fun module dependencies hmodule => htable.2 module dependencies hmodule trivial⟩

/-- Three updates of two modules, of which the first writes again and the second has nothing to write. -/
theorem table_text_of_three_updates :
    (∃ tree, TableHistory updateTypeIds "ids.h" [("b", ["Y", "X"]), ("a", []), ("b", ["Z", "W"])] tree ∧
      tree.read "ids.h" = .ok (tableText typeIdsSkeleton [⟨"b", ["W,", "Z,"]⟩, ⟨"a", []⟩])) ∧
    ∃ tree, TableHistory updateDependencies "ids.h" [("b", ["a\n"])] tree ∧
      tree.read "ids.h" = .ok (tableText dependenciesSkeleton [⟨"b", dependencyLines "b" ["a\n"]⟩]) := by
  let file (text : Text) : FileTree := { nodes := [({ rooted := false, parts := ["ids.h"] }, .file text)] }
  have hread : ∀ text, (file text).read "ids.h" = .ok text := fun _ => rfl
  have habsent : FileTree.read {} "ids.h" = .error ⟨.open, "ids.h", .notExist⟩ := rfl
  have ha : ModuleName "a" := ⟨by decide, by decide⟩
  have hb : ModuleName "b" := ⟨by decide, by decide⟩
  constructor
  · have hnone : TableHistory updateTypeIds "ids.h" [] {} := .absent habsent rfl
    obtain ⟨_, hok⟩ := (table_text_of_history.1 _ _ _ hnone (by simp)).2 "b" ["Y", "X"] hb (by decide)
    have hone := hnone.updated hok (hread _)
    obtain ⟨_, hok⟩ := (table_text_of_history.1 _ _ _ hone (by simpa using ⟨hb, by decide⟩)).2 "a" [] ha (by decide)
    have htwo := hone.updated hok (hread _)
    obtain ⟨_, hok⟩ := (table_text_of_history.1 _ _ _ htwo (by simpa using ⟨⟨hb, by decide⟩, ha⟩)).2 "b" ["Z", "W"] hb
      (by decide)
    have hblocks : writtenBlocks (fun _ => enumeratorLines) [("b", ["Y", "X"]), ("a", []), ("b", ["Z", "W"])] =
        [⟨"b", ["W,", "Z,"]⟩, ⟨"a", []⟩] := by
      rw [← idLines_eq]
      decide
    refine ⟨_, htwo.updated hok (hread _), ?_⟩
    simp only [hread, List.nil_append, List.cons_append, hblocks]
  · have hnone : TableHistory updateDependencies "ids.h" [] {} := .absent habsent rfl
    obtain ⟨_, hok⟩ := (table_text_of_history.2 _ _ _ hnone (by simp)).2 "b" ["a\n"] hb
    have hblocks : writtenBlocks dependencyLines [("b", ["a\n"])] = [⟨"b", dependencyLines "b" ["a\n"]⟩] := rfl
    refine ⟨_, hnone.updated hok (hread _), ?_⟩
    simp only [hread, List.nil_append, hblocks]

end HeaderReflection
