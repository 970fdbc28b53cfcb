import HeaderReflection.Proofs.Files.Commit

/-!
# Writing is all or nothing

Writing a set stops at the first change that fails, and takes nothing back. That it is nevertheless all or nothing rests
on the comparison that comes first: it reads every path of the set, and what can be read, or is found missing, can also
be written or removed, as long as no produced path is a directory around another one.

What a set that has been written still reports depends on its removed paths as well. A removed path that is not there may
be in the way of a produced one: it becomes a directory around it, or lies below what is now a file. It can then no
longer be compared.

## Main definitions

- `ArtifactSet.Gathered`: the sets that come about by producing and removing.
- `ArtifactSet.Tangled`: a removed path above or below a produced one.
- `ArtifactSet.InOrder`: what a report of changes looks like.
- `ArtifactSet.Exact`: a tree that differs from another one by a set.

## Main results

- `commit_all_or_nothing`: every set that has been gathered is written exactly or not at all.
-/

namespace HeaderReflection.ArtifactSet

/-! ## §1 Gathered sets -/

/-- A set that comes about from nothing by producing files and taking paths away, in any order. -/
inductive Gathered : ArtifactSet → Prop where
  | empty : Gathered {}
  | add {s : ArtifactSet} (gathered : Gathered s) (path text : Text) : Gathered (s.add path text)
  | remove {s : ArtifactSet} (gathered : Gathered s) (path : Text) : Gathered (s.remove path)

theorem Gathered.ordered {s : ArtifactSet} (h : s.Gathered) : s.Ordered := by
  induction h with
  | empty => exact ordered_empty
  | add _ path text ih => exact ih.add path text
  | remove _ path ih => exact ih.remove path

theorem Gathered.pairwise_removed {s : ArtifactSet} (h : s.Gathered) :
    s.removed.Pairwise fun a b => Text.lt a b = true := by
  induction h with
  | empty => exact List.Pairwise.nil
  | add _ path text ih => exact ih.filter _
  | remove _ path ih =>
    unfold ArtifactSet.remove
    split
    · exact ih
    · exact Text.pairwise_insertUnique ih _

/-! ## §2 Reports -/

/-- A report of changes: produced paths first and removed paths after them, each in byte order, and no path twice. -/
structure InOrder (s : ArtifactSet) (changes : List Change) : Prop where
  nodup : (changes.map (·.path)).Nodup
  parts : ∃ written deleted, changes = written ++ deleted ∧
    (∀ c ∈ written, c.kind ≠ .delete ∧ c.path ∈ s.paths) ∧ (∀ c ∈ deleted, c.kind = .delete ∧ c.path ∈ s.removed) ∧
    (written.map (·.path)).Pairwise (fun a b => Text.lt a b = true) ∧
    (deleted.map (·.path)).Pairwise (fun a b => Text.lt a b = true)

/-- Changes that were found path by path come in the order of the paths, and are what they were found to be. -/
theorem found_of_forall₂ {α : Type} {R : α → Option Change → Prop} {P : Change → Prop} (path : α → Text)
    (hR : ∀ {a c}, R a (some c) → c.path = path a ∧ P c) {as : List α} {changes : List (Option Change)}
    (h : List.Forall₂ R as changes) :
    ((changes.filterMap id).map (·.path)).Sublist (as.map path) ∧ ∀ c ∈ changes.filterMap id, P c := by
  induction h with
  | nil => exact ⟨List.Sublist.slnil, by simp⟩
  | @cons a change as changes hchange _ ih =>
    cases change with
    | none => exact ⟨ih.1.cons _, ih.2⟩
    | some c =>
      obtain ⟨hpath, hc⟩ := hR hchange
      refine ⟨?_, List.forall_mem_cons.mpr ⟨hc, ih.2⟩⟩
      show (c.path :: _).Sublist (path a :: _)
      rw [hpath]
      exact ih.1.cons_cons _

theorem nodup_of_pairwise_lt {texts : List Text} (h : texts.Pairwise fun a b => Text.lt a b = true) : texts.Nodup :=
  h.imp Text.ne_of_lt

/-- **What a gathered set reports** is in order, whatever the tree. -/
theorem Gathered.inOrder {s : ArtifactSet} (hs : s.Gathered) {tree : FileTree} (htree : tree.WellFormed)
    {changes : List Change} (h : s.changes tree = .ok changes) : s.InOrder changes := by
  obtain ⟨produced, hproduced, h⟩ := bind_ok h
  obtain ⟨removed, hremoved, h⟩ := bind_ok h
  cases h
  have hproduces : List.Forall₂ (Produces tree) s.files produced := by
    refine forall₂_of_mem (fun file hfile _ hchange => ?_) (mapM_eq_ok hproduced)
    exact (produces_of_produceChange htree (hs.ordered.clean _ (List.mem_map_of_mem hfile)) hchange).2
  have hremoves : List.Forall₂ (Removes tree) s.removed removed := by
    refine forall₂_of_mem (fun path hpath _ hchange => ?_) (mapM_eq_ok hremoved)
    exact removes_of_removeChange htree (hs.ordered.cleanRemoved path hpath) hchange
  -- both halves follow the lists they were found from, and those are increasing and have no path in common
  obtain ⟨hwritten, hkinds⟩ := found_of_forall₂ (P := (·.kind ≠ .delete)) Prod.fst
    (fun h => by cases h with | write kind => exact ⟨rfl, kind⟩) hproduces
  obtain ⟨hdeleted, hdelete⟩ := found_of_forall₂ (P := (·.kind = .delete)) id
    (fun h => by cases h with | delete kind => exact ⟨rfl, kind⟩) hremoves
  rw [List.map_id] at hdeleted
  have hfiles : s.paths.Pairwise fun a b => Text.lt a b = true := List.pairwise_map.mpr hs.ordered.files
  have hpaths := hfiles.sublist hwritten
  have hremovedPaths := hs.pairwise_removed.sublist hdeleted
  rw [List.filterMap_append]
  refine ⟨?_, _, _, rfl, ?_, ?_, hpaths, hremovedPaths⟩
  · rw [List.map_append, List.nodup_append]
    refine ⟨nodup_of_pairwise_lt hpaths, nodup_of_pairwise_lt hremovedPaths, ?_⟩
    rintro a ha b hb rfl
    exact hs.ordered.disjoint a (hdeleted.subset hb) (hwritten.subset ha)
  · exact fun c hc => ⟨hkinds c hc, hwritten.subset (List.mem_map_of_mem hc)⟩
  · exact fun c hc => ⟨hdelete c hc, hdeleted.subset (List.mem_map_of_mem hc)⟩

/-! ## §3 What stands at the paths afterwards -/

/-- A removed path is a directory around a produced one, or lies below it. -/
def Tangled (s : ArtifactSet) : Prop :=
  ∃ path ∈ s.removed, ∃ other ∈ s.paths, (FilePath.parse path).IsAbove (FilePath.parse other) ∨
    (FilePath.parse other).IsAbove (FilePath.parse path)

instance (s : ArtifactSet) : Decidable s.Apart :=
  inferInstanceAs (Decidable (∀ path ∈ s.paths, ∀ other ∈ s.paths,
    ¬ (FilePath.parse path).IsAbove (FilePath.parse other)))

instance (s : ArtifactSet) : Decidable s.Tangled :=
  inferInstanceAs (Decidable (∃ path ∈ s.removed, ∃ other ∈ s.paths,
    (FilePath.parse path).IsAbove (FilePath.parse other) ∨ (FilePath.parse other).IsAbove (FilePath.parse path)))

/-- A tree that differs from another one by a set: the produced files have their contents, nothing stands at the removed
paths except for directories that lead to produced files, and all other files are the same. -/
structure Exact (s : ArtifactSet) (tree after : FileTree) : Prop where
  produced : ∀ file ∈ s.files, after.read file.1 = .ok file.2
  removed : ∀ path ∈ s.removed, after.node? (FilePath.parse path) = none ∨
    after.node? (FilePath.parse path) = some .directory ∧
      ∃ other ∈ s.paths, (FilePath.parse path).IsAbove (FilePath.parse other)
  rest : ∀ place, (∀ path ∈ s.paths, FilePath.parse path ≠ place) → (∀ path ∈ s.removed, FilePath.parse path ≠ place) →
    after.contentAt place = tree.contentAt place

/-- Nothing is in the way of the removed paths of a set that can be compared. -/
theorem writable_of_changes {s : ArtifactSet} (hs : s.Ordered) {tree : FileTree} (htree : tree.WellFormed)
    {changes : List Change} (h : s.changes tree = .ok changes) {path : Text} (hpath : path ∈ s.removed) :
    tree.Writable (FilePath.parse path) := by
  obtain ⟨produced, -, h⟩ := bind_ok h
  obtain ⟨removed, hremoved, -⟩ := bind_ok h
  obtain ⟨change, hchange⟩ := ok_of_mapM_eq_ok hremoved hpath
  obtain ⟨content, hstored, -⟩ := bind_ok hchange
  exact (stored_eq_ok htree (hs.cleanRemoved path hpath) hstored).2

theorem Committed.exact {s : ArtifactSet} (hs : s.Ordered) {tree after : FileTree} (htree : tree.WellFormed)
    {changes : List Change} (hchanges : s.changes tree = .ok changes) (h : s.Committed tree after) :
    s.Exact tree after where
  produced := by
    intro file hfile
    have hclean : (FilePath.parse file.1).render = file.1 := hs.clean file.1 (List.mem_map_of_mem hfile)
    rw [← hclean]
    exact (FileTree.read_eq_ok_iff h.wellFormed (FilePath.normal_parse file.1)).mpr (h.produced file hfile)
  removed := by
    intro path hpath
    cases hnode : after.node? (FilePath.parse path) with
    | none => exact Or.inl rfl
    | some node =>
      cases node with
      | file content => exact absurd hnode (FileTree.contentAt_eq_none_iff.mp (h.removed path hpath) content)
      | directory =>
        -- a directory of before would have been in the way of the comparison
        obtain hdir | habove := h.dirs _ hnode
        · exact absurd hdir (writable_of_changes hs htree hchanges hpath).free
        · exact Or.inr ⟨rfl, habove⟩
  rest := h.rest

/-! ## §4 Comparing again -/

/-- Nothing is in the way of a removed path that is not entangled with a produced one. -/
theorem Committed.writable_removed {s : ArtifactSet} (hs : s.Ordered) {tree after : FileTree} (htree : tree.WellFormed)
    {changes : List Change} (hchanges : s.changes tree = .ok changes) (h : s.Committed tree after)
    (hfree : ¬ s.Tangled) {path : Text} (hpath : path ∈ s.removed) : after.Writable (FilePath.parse path) where
  above := by
    intro dir hdir content hfile
    have hbefore := writable_of_changes hs htree hchanges hpath
    -- the file was there before, has been produced or has been removed
    by_cases hproduced : ∃ other ∈ s.paths, FilePath.parse other = dir
    · obtain ⟨other, hother, rfl⟩ := hproduced
      exact hfree ⟨path, hpath, other, hother, Or.inr hdir⟩
    · by_cases hgone : ∃ other ∈ s.removed, FilePath.parse other = dir
      · obtain ⟨other, hother, rfl⟩ := hgone
        exact FileTree.contentAt_eq_none_iff.mp (h.removed other hother) content hfile
      · have hrest := h.rest dir (by simpa using hproduced) (by simpa using hgone)
        rw [FileTree.contentAt_eq_some_iff.mpr hfile, eq_comm, FileTree.contentAt_eq_some_iff] at hrest
        exact hbefore.above dir hdir content hrest
  free := by
    intro hdir
    obtain hdir | ⟨other, hother, habove⟩ := h.dirs _ hdir
    · exact (writable_of_changes hs htree hchanges hpath).free hdir
    · exact hfree ⟨path, hpath, other, hother, Or.inl habove⟩

/-- **A set that has been written has nothing more to report**, unless it is entangled. -/
theorem Committed.changes_eq_nil {s : ArtifactSet} (hs : s.Ordered) {tree after : FileTree} (htree : tree.WellFormed)
    {changes : List Change} (hchanges : s.changes tree = .ok changes) (h : s.Committed tree after)
    (hfree : ¬ s.Tangled) : s.changes after = .ok [] := by
  apply ArtifactSet.changes_eq_nil hs h.wellFormed h.produced
  intro path hpath
  exact ⟨h.removed path hpath, h.writable_removed hs htree hchanges hfree hpath⟩

/-- **An entangled set** that has been written can no longer be compared. -/
theorem Committed.changes_error {s : ArtifactSet} (hs : s.Ordered) {tree after : FileTree}
    (h : s.Committed tree after) (htangled : s.Tangled) : ∃ failure, s.changes after = .error failure := by
  cases hagain : s.changes after with
  | error failure => exact ⟨failure, rfl⟩
  | ok changes =>
    obtain ⟨path, hpath, other, hother, hway⟩ := htangled
    have hwritable := writable_of_changes hs h.wellFormed hagain hpath
    obtain ⟨file, hfile, rfl⟩ := List.mem_map.mp hother
    have hproduced := FileTree.contentAt_eq_some_iff.mp (h.produced file hfile)
    rcases hway with habove | hbelow
    · exact absurd (h.wellFormed _ _ hproduced _ habove) hwritable.free
    · exact absurd hproduced (hwritable.above _ hbelow _)

/-! ## §5 All or nothing -/

/-- **Writing a gathered set is exact or does nothing.** Either it fails and the tree is what it was, or it reports what
the comparison has reported and the tree differs from the one before by the set. Comparing the set again then finds
nothing to change, except that an entangled set can no longer be compared. -/
theorem commit_all_or_nothing {s : ArtifactSet} (hs : s.Gathered) (hapart : s.Apart) {tree : FileTree}
    (htree : tree.WellFormed) :
    (∃ failure, (s.commit tree).2.outcome = .error failure ∧ (s.commit tree).1 = tree) ∨
    ∃ changes, (s.commit tree).2.outcome = .ok changes ∧ s.changes tree = .ok changes ∧ s.InOrder changes ∧
      s.Exact tree (s.commit tree).1 ∧
      (¬ s.Tangled → s.changes (s.commit tree).1 = .ok []) ∧
      (s.Tangled → ∃ failure, s.changes (s.commit tree).1 = .error failure) := by
  obtain ⟨houtcome, hwritten, hkept⟩ := commit_spec hs.ordered hapart htree
  rw [houtcome]
  cases hchanges : s.changes tree with
  | error failure => exact Or.inl ⟨failure, rfl, hkept ⟨failure, hchanges⟩⟩
  | ok changes =>
    have hcommitted := hwritten ⟨changes, hchanges⟩
    refine Or.inr ⟨changes, rfl, rfl, hs.inOrder htree hchanges, ?_, ?_, ?_⟩
    · exact hcommitted.exact hs.ordered htree hchanges
    · exact hcommitted.changes_eq_nil hs.ordered htree hchanges
    · exact hcommitted.changes_error hs.ordered

/-- A set that produces a file below a directory that is not there yet and removes a file beside it. -/
def replacement : ArtifactSet := (({} : ArtifactSet).add "d/new" "x").remove "old"

def oldFile : FileTree := { nodes := [(FilePath.parse "old", .file "y")] }

theorem commit_of_replacement :
    (∃ changes, (replacement.commit oldFile).2.outcome = .ok changes) ∧
    replacement.changes (replacement.commit oldFile).1 = .ok [] := by
  have hgathered : replacement.Gathered := (Gathered.empty.add _ _).remove _
  have htree : oldFile.WellFormed := FileTree.wellFormed_of_nodes (by decide)
  obtain ⟨failure, herror, -⟩ | ⟨changes, hok, -, -, -, hagain, -⟩ :=
    commit_all_or_nothing hgathered (by decide) htree
  · have hok : (replacement.commit oldFile).2.outcome.toOption.isSome = true := by decide
    rw [herror] at hok
    cases hok
  · exact ⟨⟨changes, hok⟩, hagain (by decide)⟩

/-- A set that removes what is not there and produces a file below it. -/
def entangled : ArtifactSet := (({} : ArtifactSet).remove "d").add "d/f" "x"

/-- **A removed path may come into being**: writing succeeds, the removed path is a directory afterwards, and comparing
again fails. -/
theorem commit_of_entangled :
    entangled.Gathered ∧ entangled.Apart ∧ ({} : FileTree).WellFormed ∧ (Text.ofString "d") ∈ entangled.removed ∧
    (∃ changes, (entangled.commit {}).2.outcome = .ok changes) ∧
    (entangled.commit {}).1.node? (FilePath.parse "d") = some .directory ∧
    entangled.changes (entangled.commit {}).1 ≠ .ok [] := by
  refine ⟨(Gathered.empty.remove _).add _ _, by decide, FileTree.wellFormed_of_nodes (by decide), by decide, ?_,
    by decide, by decide⟩
  exact ⟨_, rfl⟩

end HeaderReflection.ArtifactSet
