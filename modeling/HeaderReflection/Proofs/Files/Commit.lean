import HeaderReflection.ArtifactSet
import HeaderReflection.Proofs.Files.Tree
import HeaderReflection.Proofs.Outcome
import HeaderReflection.Proofs.Text.Order

/-!
# Writing artifact sets

An artifact set whose places do not get in each other's way is written as a whole or not at all: either it cannot be
compared with the file tree, and nothing changes, or every produced file has its content afterwards, every removed file
is gone and all other files are as they were.

## Main definitions

- `ArtifactSet.Ordered`: what holds of every set that has been gathered.
- `OutputPlace`: a place that is told from a directory by its name.
- `ArtifactSet.Apart`: a set none of whose paths is in the way of another.
- `ArtifactSet.Tidy`: a set of places of output below one directory.
- `ArtifactSet.Committed`: what a tree is after a set has been written.

## Main results

- `Ordered.add`, `Ordered.remove`, `mem_files_add`, `mem_removed_remove`: gathering.
- `ArtifactSet.get?_addAll`: the file at a path is the one that has joined the set last.
- `OutputPlace.not_isAbove`: no such place is above another.
- `commit_spec`: all or nothing.
-/

namespace HeaderReflection

namespace ArtifactSet

/-! ## §1 Gathering -/

/-- A set as it is gathered: paths in normal form and in strictly increasing order, none both produced and removed. -/
structure Ordered (s : ArtifactSet) : Prop where
  files : s.files.Pairwise fun a b => Text.lt a.1 b.1 = true
  clean : ∀ path ∈ s.paths, cleanPath path = path
  cleanRemoved : ∀ path ∈ s.removed, cleanPath path = path
  disjoint : ∀ path ∈ s.removed, path ∉ s.paths

theorem ordered_empty : Ordered {} := ⟨List.Pairwise.nil, by simp [paths], by simp, by simp⟩

theorem cleanPath_cleanPath (path : Text) : cleanPath (cleanPath path) = cleanPath path :=
  FilePath.cleanPath_render (FilePath.normal_parse path)

theorem mem_insertFile {path text : Text} {files : List (Text × Text)}
    (h : files.Pairwise fun a b => Text.lt a.1 b.1 = true) {file : Text × Text} :
    file ∈ insertFile path text files ↔ file = (path, text) ∨ (file ∈ files ∧ file.1 ≠ path) := by
  induction files with
  | nil => simp [insertFile]
  | cons first files ih =>
    obtain ⟨hfirst, hrest⟩ := List.pairwise_cons.mp h
    -- the file goes behind the first one, in its place, or before it
    rw [insertFile]
    split
    · next hlt =>
      rw [List.mem_cons, ih hrest, List.mem_cons]
      constructor
      · rintro (rfl | rfl | hfile)
        · exact Or.inr ⟨Or.inl rfl, Text.ne_of_lt hlt⟩
        · exact Or.inl rfl
        · exact Or.inr ⟨Or.inr hfile.1, hfile.2⟩
      · rintro (rfl | ⟨rfl | hfile, hne⟩)
        · exact Or.inr (Or.inl rfl)
        · exact Or.inl rfl
        · exact Or.inr (Or.inr ⟨hfile, hne⟩)
    · split
      · next heq =>
        have hlater : ∀ file ∈ files, file.1 ≠ path := by
          intro file hfile
          rw [← heq]
          exact Ne.symm (Text.ne_of_lt (hfirst file hfile))
        rw [List.mem_cons, List.mem_cons]
        constructor
        · rintro (rfl | hfile)
          · exact Or.inl rfl
          · exact Or.inr ⟨Or.inr hfile, hlater file hfile⟩
        · rintro (rfl | ⟨rfl | hfile, hne⟩)
          · exact Or.inl rfl
          · exact absurd heq hne
          · exact Or.inr hfile
      · next hlt hne =>
        have hbefore : Text.lt path first.1 = true := Text.lt_of_not_lt_of_ne hlt hne
        have hall : ∀ file ∈ first :: files, file.1 ≠ path := by
          intro file hfile
          rcases List.mem_cons.mp hfile with rfl | hfile
          · exact Ne.symm (Text.ne_of_lt hbefore)
          · exact Ne.symm (Text.ne_of_lt (Text.lt_trans hbefore (hfirst file hfile)))
        rw [List.mem_cons]
        exact or_congr Iff.rfl ⟨fun hfile => ⟨hfile, hall file hfile⟩, And.left⟩

/-- Where a file goes depends on the paths alone. -/
theorem map_fst_insertFile (path text : Text) (files : List (Text × Text)) :
    (insertFile path text files).map (·.1) = Text.insertUnique path (files.map (·.1)) := by
  induction files with
  | nil => rfl
  | cons file files ih =>
    rw [insertFile, List.map_cons, Text.insertUnique]
    split
    · rw [List.map_cons, ih]
    · split
      · next heq => rw [List.map_cons, heq]
      · rfl

/-- The paths of a set are kept as a strictly increasing list. -/
theorem paths_add (s : ArtifactSet) (path text : Text) :
    (s.add path text).paths = Text.insertUnique (cleanPath path) s.paths :=
  map_fst_insertFile (cleanPath path) text s.files

/-- **What a set produces** after a file has joined it: that file, and what it produced at other paths. -/
theorem mem_files_add {s : ArtifactSet} (hs : s.Ordered) {path text : Text} {file : Text × Text} :
    file ∈ (s.add path text).files ↔
      file = (cleanPath path, text) ∨ (file ∈ s.files ∧ file.1 ≠ cleanPath path) :=
  mem_insertFile hs.files

theorem mem_paths_add {s : ArtifactSet} {path text p : Text} :
    p ∈ (s.add path text).paths ↔ p = cleanPath path ∨ p ∈ s.paths := by
  rw [paths_add, Text.mem_insertUnique]

theorem mem_removed_add {s : ArtifactSet} {path text p : Text} :
    p ∈ (s.add path text).removed ↔ p ∈ s.removed ∧ p ≠ cleanPath path := by
  simp [add]

/-- **Producing a file keeps a set in order.** -/
theorem Ordered.add {s : ArtifactSet} (hs : s.Ordered) (path text : Text) : (s.add path text).Ordered where
  files := by
    have hpaths := Text.pairwise_insertUnique (List.pairwise_map.mpr hs.files) (cleanPath path)
    rw [← paths, ← paths_add s path text] at hpaths
    exact List.pairwise_map.mp hpaths
  clean := by
    intro p hp
    rcases mem_paths_add.mp hp with rfl | hp
    · exact cleanPath_cleanPath path
    · exact hs.clean p hp
  cleanRemoved := fun p hp => hs.cleanRemoved p (mem_removed_add.mp hp).1
  disjoint := by
    intro p hp hpaths
    obtain ⟨hremoved, hne⟩ := mem_removed_add.mp hp
    rcases mem_paths_add.mp hpaths with heq | hpaths
    · exact hne heq
    · exact hs.disjoint p hremoved hpaths

theorem Ordered.addAll {s : ArtifactSet} (hs : s.Ordered) (files : List (Text × Text)) : (s.addAll files).Ordered := by
  induction files generalizing s with
  | nil => exact hs
  | cons file files ih => exact ih (hs.add file.1 file.2)

theorem addAll_append (s : ArtifactSet) (files more : List (Text × Text)) :
    s.addAll (files ++ more) = (s.addAll files).addAll more := by
  rw [ArtifactSet.addAll, List.foldl_append]
  rfl

theorem paths_addAll (s : ArtifactSet) (files : List (Text × Text)) :
    (s.addAll files).paths =
      (files.map fun file => cleanPath file.1).foldl (fun set path => Text.insertUnique path set) s.paths := by
  induction files generalizing s with
  | nil => rfl
  | cons file files ih =>
    rw [List.map_cons, List.foldl_cons, ← paths_add s file.1 file.2]
    exact ih _

/-- The paths of a set after several files have joined it. -/
theorem mem_paths_addAll {s : ArtifactSet} {files : List (Text × Text)} {p : Text} :
    p ∈ (s.addAll files).paths ↔ p ∈ s.paths ∨ ∃ file ∈ files, p = cleanPath file.1 := by
  rw [paths_addAll, Text.mem_foldl_insertUnique, List.mem_map, or_comm]
  simp only [eq_comm]

theorem removed_addAll {s : ArtifactSet} (h : s.removed = []) (files : List (Text × Text)) :
    (s.addAll files).removed = [] := by
  induction files generalizing s with
  | nil => exact h
  | cons file files ih => exact ih (by simp [ArtifactSet.add, h])

theorem get?_isSome_iff {s : ArtifactSet} {path : Text} : (s.get? path).isSome = true ↔ cleanPath path ∈ s.paths := by
  simp [get?, paths]

theorem files_remove (s : ArtifactSet) (path : Text) : (s.remove path).files = s.files := by
  unfold remove
  split <;> rfl

/-- **What a set removes** after a path has been taken away: a produced path is not removed. -/
theorem mem_removed_remove {s : ArtifactSet} {path p : Text} :
    p ∈ (s.remove path).removed ↔ p ∈ s.removed ∨ (p = cleanPath path ∧ p ∉ s.paths) := by
  unfold remove
  split
  · next h =>
    have hmem := get?_isSome_iff.mp h
    constructor
    · exact Or.inl
    · rintro (hp | ⟨rfl, hp⟩)
      · exact hp
      · exact absurd hmem hp
  · next h =>
    have hmem : cleanPath path ∉ s.paths := fun hmem => h (get?_isSome_iff.mpr hmem)
    rw [Text.mem_insertUnique]
    constructor
    · rintro (rfl | hp)
      · exact Or.inr ⟨rfl, hmem⟩
      · exact Or.inl hp
    · rintro (hp | ⟨rfl, -⟩)
      · exact Or.inr hp
      · exact Or.inl rfl

/-- **Removing a path keeps a set in order.** -/
theorem Ordered.remove {s : ArtifactSet} (hs : s.Ordered) (path : Text) : (s.remove path).Ordered where
  files := by rw [files_remove]; exact hs.files
  clean := by unfold paths; rw [files_remove]; exact hs.clean
  cleanRemoved := by
    intro p hp
    rcases mem_removed_remove.mp hp with hp | ⟨rfl, -⟩
    · exact hs.cleanRemoved p hp
    · exact cleanPath_cleanPath path
  disjoint := by
    intro p hp
    unfold paths
    rw [files_remove]
    rcases mem_removed_remove.mp hp with hp | ⟨-, hp⟩
    · exact hs.disjoint p hp
    · exact hp

theorem find?_insertFile (path text p : Text) (files : List (Text × Text)) :
    ((insertFile path text files).find? (·.1 = p)).map (·.2) =
      if path = p then some text else (files.find? (·.1 = p)).map (·.2) := by
  induction files with
  | nil => by_cases h : path = p <;> simp [insertFile, h]
  | cons file files ih =>
    rw [insertFile]
    split
    · next hlt =>
      -- the file in front has another path than the one that joins
      have hne : file.1 ≠ path := Text.ne_of_lt hlt
      by_cases hfile : file.1 = p
      · have hpath : path ≠ p := fun heq => hne (hfile.trans heq.symm)
        simp [hfile, hpath]
      · rw [List.find?_cons_of_neg (by simpa using hfile), List.find?_cons_of_neg (by simpa using hfile), ih]
    · split
      · next heq => by_cases h : path = p <;> simp [h, heq]
      · by_cases h : path = p <;> simp [h]

theorem get?_add (s : ArtifactSet) (path text p : Text) :
    (s.add path text).get? p = if cleanPath path = cleanPath p then some text else s.get? p :=
  find?_insertFile (cleanPath path) text (cleanPath p) s.files

theorem get?_congr {s s' : ArtifactSet} (h : s.files = s'.files) (p : Text) : s.get? p = s'.get? p := by
  unfold get?
  rw [h]

theorem get?_addAll_of_ne {s : ArtifactSet} {files : List (Text × Text)} {p : Text}
    (h : ∀ file ∈ files, cleanPath file.1 ≠ cleanPath p) : (s.addAll files).get? p = s.get? p := by
  induction files generalizing s with
  | nil => rfl
  | cons file files ih =>
    obtain ⟨hfile, hfiles⟩ := List.forall_mem_cons.mp h
    have hcons : s.addAll (file :: files) = (s.add file.1 file.2).addAll files := rfl
    rw [hcons, ih hfiles, get?_add, if_neg hfile]

/-- **The file at a path** is the one that has joined the set last. -/
theorem get?_addAll {s : ArtifactSet} {before after : List (Text × Text)} {path text : Text}
    (h : ∀ file ∈ after, cleanPath file.1 ≠ cleanPath path) :
    (s.addAll (before ++ (path, text) :: after)).get? path = some text := by
  have hcons : (s.addAll before).addAll ((path, text) :: after) = ((s.addAll before).add path text).addAll after := rfl
  rw [addAll_append, hcons, get?_addAll_of_ne h, get?_add, if_pos rfl]

end ArtifactSet

/-! ## §2 Places of output -/

/-- A file below a directory that is told from the directories on the way to it by a dot in its name. -/
def OutputPlace (root place : FilePath) : Prop :=
  ∃ dirs name, place = root.below (dirs ++ [name]) ∧ (∀ dir ∈ dirs, FilePath.Plain dir ∧ Text.byte '.' ∉ dir) ∧
    FilePath.Plain name ∧ Text.byte '.' ∈ name

namespace OutputPlace

variable {root place : FilePath}

theorem normal (hroot : root.Normal) (h : OutputPlace root place) : place.Normal := by
  obtain ⟨dirs, name, rfl, hdirs, hname, -⟩ := h
  apply FilePath.normal_below hroot
  intro part hpart
  rcases List.mem_append.mp hpart with hpart | hpart
  · exact (hdirs part hpart).1
  · rw [List.mem_singleton.mp hpart]
    exact hname

/-- **No place of output is above another**: its name would be the name of a directory. -/
theorem not_isAbove {other : FilePath} (h : OutputPlace root place) (hother : OutputPlace root other) :
    ¬ place.IsAbove other := by
  rintro ⟨parts, hne, heq⟩
  obtain ⟨dirs, name, rfl, -, -, hdot⟩ := h
  obtain ⟨dirs', name', rfl, hdirs', -, -⟩ := hother
  rw [FilePath.below_below, FilePath.below_inj] at heq
  obtain ⟨init, last, rfl⟩ : ∃ init last, parts = init ++ [last] :=
    ⟨_, _, (List.dropLast_append_getLast hne).symm⟩
  rw [← List.append_assoc] at heq
  have hdirs : dirs' = dirs ++ [name] ++ init := (List.append_inj' heq rfl).1
  exact (hdirs' name (by simp [hdirs])).2 hdot

end OutputPlace

namespace ArtifactSet

/-- No produced path leads to a directory around another one. -/
def Apart (s : ArtifactSet) : Prop :=
  ∀ path ∈ s.paths, ∀ other ∈ s.paths, ¬ (FilePath.parse path).IsAbove (FilePath.parse other)

/-- A set in order whose paths lead to places of output below a directory. -/
structure Tidy (root : FilePath) (s : ArtifactSet) : Prop extends Ordered s where
  output : ∀ path ∈ s.paths, OutputPlace root (FilePath.parse path)
  outputRemoved : ∀ path ∈ s.removed, OutputPlace root (FilePath.parse path)

theorem Tidy.apart {root : FilePath} {s : ArtifactSet} (hs : s.Tidy root) : s.Apart :=
  fun path hpath other hother => (hs.output path hpath).not_isAbove (hs.output other hother)

/-! ## §3 Carrying out changes -/

/-- Changes that can be carried out one after the other are carried out. -/
theorem applyChanges_of_foldlM {tree after : FileTree} {changes : List Change}
    (h : changes.foldlM applyChange tree = .ok after) :
    (applyChanges tree changes).1 = after ∧ (applyChanges tree changes).2.outcome = .ok () := by
  induction changes generalizing tree with
  | nil =>
    cases h
    exact ⟨rfl, rfl⟩
  | cons c changes ih =>
    rw [List.foldlM_cons] at h
    cases hc : applyChange tree c with
    | error e => rw [hc] at h; cases h
    | ok next =>
      rw [hc] at h
      obtain ⟨htree, houtcome⟩ := ih h
      rw [applyChanges, hc]
      exact ⟨htree, houtcome⟩

theorem foldlM_applyChange {tree next : FileTree} {c : Change} (h : applyChange tree c = .ok next)
    (changes : List (Option Change)) :
    ((some c :: changes).filterMap id).foldlM applyChange tree = (changes.filterMap id).foldlM applyChange next := by
  have hcons : (some c :: changes).filterMap id = c :: changes.filterMap id := rfl
  rw [hcons, List.foldlM_cons, h]
  rfl

/-- What producing files does, seen from a tree on the way: a file that has its content needs no change, any other one
is written. -/
inductive Produces (tree : FileTree) : Text × Text → Option Change → Prop where
  | same {path text : Text} (content : tree.contentAt (FilePath.parse path) = some text) :
      Produces tree (path, text) none
  | write {c : Change} (kind : c.kind ≠ .delete) : Produces tree (c.path, c.new) (some c)

/-- What holds of a tree after the produced files have been written. -/
structure Written (tree after : FileTree) (files : List (Text × Text)) : Prop where
  wellFormed : after.WellFormed
  content : ∀ file ∈ files, after.contentAt (FilePath.parse file.1) = some file.2
  rest : ∀ place, (∀ file ∈ files, FilePath.parse file.1 ≠ place) → after.contentAt place = tree.contentAt place
  dirs : ∀ place, after.node? place = some .directory →
    tree.node? place = some .directory ∨ ∃ file ∈ files, place.IsAbove (FilePath.parse file.1)

/-- A change that writes a file puts it at its place. -/
theorem applyChange_write {tree : FileTree} {c : Change} (hkind : c.kind ≠ .delete) (hclean : cleanPath c.path = c.path)
    (hwritable : tree.Writable (FilePath.parse c.path)) :
    ∃ after, applyChange tree c = .ok after ∧ tree.HasPlaced after (FilePath.parse c.path) c.new := by
  obtain ⟨dir, name, heq⟩ := hwritable.exists_parent
  have hnormal := FilePath.normal_parse c.path
  have hthere := hwritable.isAlwaysThere
  have hrender : c.path = (dir.below [name]).render := by
    rw [← heq]
    exact hclean.symm
  rw [heq] at hnormal hthere hwritable
  obtain ⟨middle, after, hmiddle, hafter, hplaced⟩ := FileTree.makeDirs_write_spec hnormal hthere hwritable c.new
  refine ⟨after, ?_, by rw [heq]; exact hplaced⟩
  rw [← hrender] at hmiddle hafter
  unfold applyChange
  cases hc : c.kind with
  | delete => exact absurd hc hkind
  | create => simp only [hmiddle, hafter]
  | update => simp only [hmiddle, hafter]

/-- Writing one file leaves what can be said about the others, which are not in its way. -/
theorem writable_of_hasPlaced {tree after : FileTree} {place other : FilePath} {content : Text}
    (h : tree.HasPlaced after place content) (hne : other ≠ place) (hother : ¬ other.IsAbove place)
    (hplace : ¬ place.IsAbove other) (hwritable : tree.Writable other) : after.Writable other where
  above := by
    intro dir hdir c hfile
    by_cases hdirPlace : dir = place
    · exact hplace (hdirPlace ▸ hdir)
    · by_cases hdirAbove : dir.IsAbove place
      · rw [h.above dir hdirAbove] at hfile
        cases hfile
      · rw [h.rest dir hdirPlace hdirAbove] at hfile
        exact hwritable.above dir hdir c hfile
  free := by
    rw [h.rest other hne hother]
    exact hwritable.free

theorem contentAt_of_hasPlaced {tree after : FileTree} {place other : FilePath} {content : Text}
    (h : tree.HasPlaced after place content) (hwritable : tree.Writable place) (hne : other ≠ place) :
    after.contentAt other = tree.contentAt other := by
  by_cases hother : other.IsAbove place
  · have hnone : tree.contentAt other = none := FileTree.contentAt_eq_none_iff.mpr (hwritable.above other hother)
    rw [hnone, FileTree.contentAt_eq_none_iff, h.above other hother]
    simp
  · exact FileTree.contentAt_congr (h.rest other hne hother)

theorem parse_ne_of_clean {a b : Text} (ha : cleanPath a = a) (hb : cleanPath b = b) (h : a ≠ b) :
    FilePath.parse a ≠ FilePath.parse b := by
  intro heq
  apply h
  rw [← ha, ← hb, cleanPath, cleanPath, heq]

/-- A file that has its content already is as good as written. -/
theorem Written.cons_same {tree after : FileTree} {path text : Text} {files : List (Text × Text)}
    (hcontent : tree.contentAt (FilePath.parse path) = some text)
    (hdistinct : ∀ file ∈ files, FilePath.parse file.1 ≠ FilePath.parse path) (h : Written tree after files) :
    Written tree after ((path, text) :: files) where
  wellFormed := h.wellFormed
  content := by
    refine List.forall_mem_cons.mpr ⟨?_, h.content⟩
    rw [h.rest _ hdistinct]
    exact hcontent
  rest := fun place hplace => h.rest place fun file hfile => hplace file (List.mem_cons_of_mem _ hfile)
  dirs := by
    intro place hdir
    obtain hdir | ⟨file, hfile, hdir⟩ := h.dirs place hdir
    · exact Or.inl hdir
    · exact Or.inr ⟨file, List.mem_cons_of_mem _ hfile, hdir⟩

/-- One file is put at its place, and then the others are written. -/
theorem Written.cons {tree next after : FileTree} {path text : Text} {files : List (Text × Text)}
    (hplaced : tree.HasPlaced next (FilePath.parse path) text) (hfree : tree.Writable (FilePath.parse path))
    (hdistinct : ∀ file ∈ files, FilePath.parse file.1 ≠ FilePath.parse path) (h : Written next after files) :
    Written tree after ((path, text) :: files) where
  wellFormed := h.wellFormed
  content := by
    refine List.forall_mem_cons.mpr ⟨?_, h.content⟩
    rw [h.rest _ hdistinct]
    exact FileTree.contentAt_eq_some_iff.mpr hplaced.file
  rest := by
    intro place hplace
    rw [h.rest place fun file hfile => hplace file (List.mem_cons_of_mem _ hfile)]
    exact contentAt_of_hasPlaced hplaced hfree (Ne.symm (hplace _ List.mem_cons_self))
  dirs := by
    intro place hdir
    obtain hdir | ⟨file, hfile, hdir⟩ := h.dirs place hdir
    · -- a directory that is new after the first step has been made for its file
      by_cases habove : place.IsAbove (FilePath.parse path)
      · exact Or.inr ⟨_, List.mem_cons_self, habove⟩
      · by_cases heq : place = FilePath.parse path
        · rw [heq, hplaced.file] at hdir
          cases hdir
        · rw [hplaced.rest place heq habove] at hdir
          exact Or.inl hdir
    · exact Or.inr ⟨file, List.mem_cons_of_mem _ hfile, hdir⟩

/-- **Producing files**: the changes are carried out without a failure, whatever their number. -/
theorem produce_run {tree : FileTree} (htree : tree.WellFormed)
    {files : List (Text × Text)} {changes : List (Option Change)}
    (hordered : files.Pairwise fun a b => Text.lt a.1 b.1 = true) (hclean : ∀ file ∈ files, cleanPath file.1 = file.1)
    (hapart : ∀ file ∈ files, ∀ other ∈ files, ¬ (FilePath.parse file.1).IsAbove (FilePath.parse other.1))
    (hwritable : ∀ file ∈ files, tree.Writable (FilePath.parse file.1))
    (hchanges : List.Forall₂ (Produces tree) files changes) :
    ∃ after, (changes.filterMap id).foldlM applyChange tree = .ok after ∧ Written tree after files := by
  -- the changes were found in the first tree, and are carried out in the trees after it: what is assumed of a file has
  -- to survive the writing of the files before it
  induction files generalizing tree changes with
  | nil =>
    cases hchanges
    exact ⟨tree, rfl, htree, by simp, fun _ _ => rfl, fun _ h => Or.inl h⟩
  | cons file files ih =>
    obtain ⟨hfirst, hlater⟩ := List.pairwise_cons.mp hordered
    have hrest : ∀ {P : Text × Text → Prop}, (∀ f ∈ file :: files, P f) → ∀ f ∈ files, P f :=
      fun h f hf => h f (List.mem_cons_of_mem _ hf)
    have hdistinct : ∀ f ∈ files, FilePath.parse f.1 ≠ FilePath.parse file.1 := by
      intro f hf
      apply parse_ne_of_clean (hclean f (List.mem_cons_of_mem _ hf)) (hclean file List.mem_cons_self)
      exact Ne.symm (Text.ne_of_lt (hfirst f hf))
    have hapartRest : ∀ f ∈ files, ∀ g ∈ files, ¬ (FilePath.parse f.1).IsAbove (FilePath.parse g.1) :=
      fun f hf g hg => hapart f (List.mem_cons_of_mem _ hf) g (List.mem_cons_of_mem _ hg)
    cases hchanges with
    | @cons _ change _ changes hchange hchanges =>
      cases hchange with
      | @same path text hcontent =>
        obtain ⟨after, hrun, hafter⟩ := ih htree hlater (hrest hclean) hapartRest (hrest hwritable) hchanges
        exact ⟨after, hrun, hafter.cons_same hcontent hdistinct⟩
      | @write c hkind =>
        have hfree := hwritable (c.path, c.new) List.mem_cons_self
        obtain ⟨next, hnext, hplaced⟩ := applyChange_write hkind (hclean _ List.mem_cons_self) hfree
        have hothers : ∀ f ∈ files, next.Writable (FilePath.parse f.1) := by
          intro f hf
          have hf' := List.mem_cons_of_mem (c.path, c.new) hf
          exact writable_of_hasPlaced hplaced (hdistinct f hf) (hapart f hf' _ List.mem_cons_self)
            (hapart _ List.mem_cons_self f hf') (hwritable f hf')
        have hchanges' : List.Forall₂ (Produces next) files changes := by
          refine forall₂_of_mem (fun f hf change hchange => ?_) hchanges
          cases hchange with
          | same hcontent => exact .same (by rw [contentAt_of_hasPlaced hplaced hfree (hdistinct _ hf), hcontent])
          | write hkind => exact .write hkind
        obtain ⟨after, hrun, hafter⟩ :=
          ih (htree.hasPlaced hfree hplaced) hlater (hrest hclean) hapartRest hothers hchanges'
        refine ⟨after, ?_, hafter.cons hplaced hfree hdistinct⟩
        rw [foldlM_applyChange hnext]
        exact hrun

/-- What removing files does, seen from a tree on the way: a path without a file needs no change, a file is deleted. -/
inductive Removes (tree : FileTree) : Text → Option Change → Prop where
  | absent {path : Text} (content : tree.contentAt (FilePath.parse path) = none) : Removes tree path none
  | delete {c : Change} (kind : c.kind = .delete) : Removes tree c.path (some c)

/-- What holds of a tree after one file has been removed: there is nothing at its place, and all else is as it was. -/
structure HasLost (tree after : FileTree) (place : FilePath) : Prop where
  wellFormed : after.WellFormed
  content : ∀ other, after.contentAt other = if other = place then none else tree.contentAt other
  dirs : ∀ other, after.node? other = some .directory → tree.node? other = some .directory

/-- A tree without a file at a place is as good as one that has lost it. -/
theorem HasLost.of_absent {tree : FileTree} (htree : tree.WellFormed) {place : FilePath}
    (h : tree.contentAt place = none) : HasLost tree tree place where
  wellFormed := htree
  content := by
    intro other
    split
    · next heq => rw [heq, h]
    · rfl
  dirs := fun _ hdir => hdir

/-- A change that deletes a file removes it from its place. -/
theorem applyChange_delete {tree : FileTree} (htree : tree.WellFormed) {c : Change} (hkind : c.kind = .delete)
    (hclean : cleanPath c.path = c.path) :
    ∃ after, applyChange tree c = .ok after ∧ HasLost tree after (FilePath.parse c.path) := by
  have hnormal := FilePath.normal_parse c.path
  have happly : applyChange tree c = .ok (tree.remove (FilePath.parse c.path).render) := by
    rw [← cleanPath, hclean]
    unfold applyChange
    rw [hkind]
  refine ⟨_, happly, htree.remove hnormal, FileTree.contentAt_remove htree hnormal, ?_⟩
  intro other hdir
  rw [FileTree.node?_remove htree hnormal] at hdir
  split at hdir
  · cases hdir
  · exact hdir

/-- What holds of a tree after files have been removed. -/
structure Cleared (tree after : FileTree) (paths : List Text) : Prop where
  wellFormed : after.WellFormed
  gone : ∀ path ∈ paths, after.contentAt (FilePath.parse path) = none
  rest : ∀ place, (∀ path ∈ paths, FilePath.parse path ≠ place) → after.contentAt place = tree.contentAt place
  dirs : ∀ place, after.node? place = some .directory → tree.node? place = some .directory

/-- What has no content stays without it while other files are removed. -/
theorem Cleared.gone_of_nothing {tree after : FileTree} {paths : List Text} (h : Cleared tree after paths)
    {place : FilePath} (hplace : tree.contentAt place = none) : after.contentAt place = none := by
  by_cases hagain : ∃ path ∈ paths, FilePath.parse path = place
  · obtain ⟨path, hpath, rfl⟩ := hagain
    exact h.gone path hpath
  · rw [h.rest place fun path hpath heq => hagain ⟨path, hpath, heq⟩]
    exact hplace

/-- One file is removed, and then the others are. -/
theorem Cleared.cons {tree next after : FileTree} {path : Text} {paths : List Text}
    (hlost : HasLost tree next (FilePath.parse path)) (h : Cleared next after paths) :
    Cleared tree after (path :: paths) where
  wellFormed := h.wellFormed
  gone := by
    have hgone : next.contentAt (FilePath.parse path) = none := by rw [hlost.content, if_pos rfl]
    exact List.forall_mem_cons.mpr ⟨h.gone_of_nothing hgone, h.gone⟩
  rest := by
    intro place hplace
    rw [h.rest place fun p hp => hplace p (List.mem_cons_of_mem _ hp), hlost.content,
      if_neg (Ne.symm (hplace path List.mem_cons_self))]
  dirs := fun place hdir => hlost.dirs place (h.dirs place hdir)

/-- **Removing files**: they are gone, and all others stay. -/
theorem remove_run {tree : FileTree} (htree : tree.WellFormed) {paths : List Text} {changes : List (Option Change)}
    (hclean : ∀ path ∈ paths, cleanPath path = path) (hchanges : List.Forall₂ (Removes tree) paths changes) :
    ∃ after, (changes.filterMap id).foldlM applyChange tree = .ok after ∧ Cleared tree after paths := by
  induction paths generalizing tree changes with
  | nil =>
    cases hchanges
    exact ⟨tree, rfl, htree, by simp, fun _ _ => rfl, fun _ h => h⟩
  | cons path paths ih =>
    have hrest : ∀ p ∈ paths, cleanPath p = p := fun p hp => hclean p (List.mem_cons_of_mem _ hp)
    cases hchanges with
    | @cons _ change _ changes hchange hchanges =>
      cases hchange with
      | absent hcontent =>
        obtain ⟨after, hrun, hafter⟩ := ih htree hrest hchanges
        exact ⟨after, hrun, hafter.cons (.of_absent htree hcontent)⟩
      | @delete c hkind =>
        obtain ⟨next, hnext, hlost⟩ := applyChange_delete htree hkind (hclean c.path List.mem_cons_self)
        -- what is absent stays absent, so that the changes that were found in the first tree fit the next one
        have hchanges' : List.Forall₂ (Removes next) paths changes := by
          refine forall₂_of_mem (fun p _ change hchange => ?_) hchanges
          cases hchange with
          | absent hnone => exact .absent (by rw [hlost.content, hnone, ite_self])
          | delete hkind => exact .delete hkind
        obtain ⟨after, hrun, hafter⟩ := ih hlost.wellFormed hrest hchanges'
        refine ⟨after, ?_, hafter.cons hlost⟩
        rw [foldlM_applyChange hnext]
        exact hrun

/-! ## §4 Committing -/

/-- What is stored at a path is its content; what can be compared can also be written. -/
theorem stored_eq_ok {tree : FileTree} (htree : tree.WellFormed) {path : Text} (hclean : cleanPath path = path)
    {content : Option Text} (h : stored tree path = .ok content) :
    tree.contentAt (FilePath.parse path) = content ∧ tree.Writable (FilePath.parse path) := by
  have hnormal := FilePath.normal_parse path
  have hrender : path = (FilePath.parse path).render := hclean.symm
  unfold stored at h
  cases hread : tree.read path with
  | ok text =>
    rw [hread] at h
    cases h
    rw [hrender] at hread
    exact ⟨(FileTree.read_eq_ok_iff htree hnormal).mp hread, FileTree.writable_of_read htree hnormal hread⟩
  | error error =>
    rw [hread] at h
    dsimp only at h
    split at h
    · next hreason =>
      cases h
      rw [hrender] at hread
      refine ⟨?_, FileTree.writable_of_notExist htree hnormal hread hreason⟩
      rw [Option.eq_none_iff_forall_ne_some]
      intro text htext
      rw [(FileTree.read_eq_ok_iff htree hnormal).mpr htext] at hread
      cases hread
    · cases h

theorem produces_of_produceChange {tree : FileTree} (htree : tree.WellFormed) {file : Text × Text}
    (hclean : cleanPath file.1 = file.1) {change : Option Change} (h : produceChange tree file = .ok change) :
    tree.Writable (FilePath.parse file.1) ∧ Produces tree file change := by
  obtain ⟨content, hstored, h⟩ := bind_ok h
  obtain ⟨hcontent, hwritable⟩ := stored_eq_ok htree hclean hstored
  refine ⟨hwritable, ?_⟩
  cases content with
  | none =>
    cases h
    exact Produces.write (c := { path := file.1, kind := .create, old := [], new := file.2 }) (by simp)
  | some old =>
    dsimp only at h
    split at h
    · next heq =>
      cases h
      exact .same (by rw [hcontent, heq])
    · cases h
      exact Produces.write (c := { path := file.1, kind := .update, old, new := file.2 }) (by simp)

theorem removes_of_removeChange {tree : FileTree} (htree : tree.WellFormed) {path : Text}
    (hclean : cleanPath path = path) {change : Option Change} (h : removeChange tree path = .ok change) :
    Removes tree path change := by
  obtain ⟨content, hstored, h⟩ := bind_ok h
  obtain ⟨hcontent, -⟩ := stored_eq_ok htree hclean hstored
  cases content with
  | none =>
    cases h
    exact .absent hcontent
  | some old =>
    cases h
    exact Removes.delete (c := { path, kind := .delete, old, new := [] }) rfl

/-- What a tree is after a set has been written. -/
structure Committed (s : ArtifactSet) (tree after : FileTree) : Prop where
  wellFormed : after.WellFormed
  produced : ∀ file ∈ s.files, after.contentAt (FilePath.parse file.1) = some file.2
  removed : ∀ path ∈ s.removed, after.contentAt (FilePath.parse path) = none
  rest : ∀ place, (∀ path ∈ s.paths, FilePath.parse path ≠ place) → (∀ path ∈ s.removed, FilePath.parse path ≠ place) →
    after.contentAt place = tree.contentAt place
  dirs : ∀ place, after.node? place = some .directory →
    tree.node? place = some .directory ∨ ∃ path ∈ s.paths, place.IsAbove (FilePath.parse path)

/-- The changes of a set can all be carried out. -/
theorem changes_run {s : ArtifactSet} (hs : s.Ordered) (hapart : s.Apart) {tree : FileTree} (htree : tree.WellFormed)
    {changes : List Change} (h : s.changes tree = .ok changes) :
    ∃ after, changes.foldlM applyChange tree = .ok after ∧ s.Committed tree after := by
  obtain ⟨produced, hproduced, h⟩ := bind_ok h
  obtain ⟨removed, hremoved, h⟩ := bind_ok h
  cases h
  have hfile : ∀ file ∈ s.files, file.1 ∈ s.paths := fun file hfile => List.mem_map_of_mem hfile
  have hclean : ∀ file ∈ s.files, cleanPath file.1 = file.1 := fun file h => hs.clean _ (hfile file h)
  obtain ⟨hwritable, hproduces⟩ := (List.forall₂_and_left _ _).mp
    (forall₂_of_mem (fun file h _ => produces_of_produceChange htree (hclean file h)) (mapM_eq_ok hproduced))
  obtain ⟨middle, hwrite, hwritten⟩ := produce_run htree hs.files hclean
    (fun file h other h' => hapart _ (hfile file h) _ (hfile other h')) hwritable hproduces
  -- the removed paths are not among the written ones, so that they are as they were
  have hdistinct : ∀ path ∈ s.removed, ∀ file ∈ s.files, FilePath.parse file.1 ≠ FilePath.parse path := by
    intro path hpath file h
    apply parse_ne_of_clean (hclean file h) (hs.cleanRemoved path hpath)
    intro heq
    exact hs.disjoint path hpath (heq ▸ hfile file h)
  have hremoves : List.Forall₂ (Removes middle) s.removed removed := by
    refine forall₂_of_mem (fun path hpath change hchange => ?_) (mapM_eq_ok hremoved)
    cases removes_of_removeChange htree (hs.cleanRemoved path hpath) hchange with
    | absent hcontent => exact .absent (by rw [hwritten.rest _ (hdistinct path hpath), hcontent])
    | delete hkind => exact .delete hkind
  obtain ⟨after, hremove, hcleared⟩ := remove_run hwritten.wellFormed hs.cleanRemoved hremoves
  refine ⟨after, ?_, hcleared.wellFormed, ?_, hcleared.gone, ?_, ?_⟩
  · rw [List.filterMap_append, List.foldlM_append, hwrite]
    exact hremove
  · intro file h
    rw [hcleared.rest _ fun path hpath => Ne.symm (hdistinct path hpath file h)]
    exact hwritten.content file h
  · intro place hpaths hplaces
    rw [hcleared.rest place hplaces]
    exact hwritten.rest place fun file h => hpaths _ (hfile file h)
  · intro place hdir
    obtain hdir | ⟨file, h, hdir⟩ := hwritten.dirs place (hcleared.dirs place hdir)
    · exact Or.inl hdir
    · exact Or.inr ⟨file.1, hfile file h, hdir⟩

/-- **All or nothing**: a set that can be compared with a tree is written, and any other one changes nothing. -/
theorem commit_spec {s : ArtifactSet} (hs : s.Ordered) (hapart : s.Apart) {tree : FileTree} (htree : tree.WellFormed) :
    (s.commit tree).2.outcome = s.changes tree ∧
    ((∃ changes, s.changes tree = .ok changes) → s.Committed tree (s.commit tree).1) ∧
    ((∃ failure, s.changes tree = .error failure) → (s.commit tree).1 = tree) := by
  unfold commit
  -- all changes are found before the first one is carried out
  cases hchanges : s.changes tree with
  | error failure =>
    refine ⟨rfl, ?_, fun _ => rfl⟩
    rintro ⟨changes, h⟩
    cases h
  | ok changes =>
    obtain ⟨after, hrun, hafter⟩ := changes_run hs hapart htree hchanges
    obtain ⟨htree, houtcome⟩ := applyChanges_of_foldlM hrun
    refine ⟨?_, fun _ => ?_, ?_⟩
    · show (_ >>= _ : Logged _ _).outcome = _
      rw [Logged.outcome_bind, houtcome]
      rfl
    · show s.Committed tree (applyChanges tree changes).1
      rw [htree]
      exact hafter
    · rintro ⟨failure, h⟩
      cases h

theorem stored_of_writable {tree : FileTree} {path : Text} (hclean : cleanPath path = path)
    (h : tree.Writable (FilePath.parse path)) : ∃ content, stored tree path = .ok content := by
  have hread := FileTree.read_of_writable (FilePath.normal_parse path) h
  have hrender : (FilePath.parse path).render = path := hclean
  rw [hrender] at hread
  unfold stored
  rcases hread with ⟨content, hread⟩ | ⟨error, hread, hreason⟩
  · rw [hread]
    exact ⟨some content, rfl⟩
  · rw [hread]
    dsimp only
    rw [if_pos hreason]
    exact ⟨none, rfl⟩

/-- A set whose files all have their contents, and whose removed paths are missing, changes nothing. -/
theorem changes_eq_nil {s : ArtifactSet} (hs : s.Ordered) {tree : FileTree} (htree : tree.WellFormed)
    (hfiles : ∀ file ∈ s.files, tree.contentAt (FilePath.parse file.1) = some file.2)
    (hremoved : ∀ path ∈ s.removed, tree.contentAt (FilePath.parse path) = none ∧ tree.Writable (FilePath.parse path)) :
    s.changes tree = .ok [] := by
  -- paths are in normal form, so that reading one gives what is stored at its place
  have hsame : ∀ file ∈ s.files, produceChange tree file = .ok none := by
    intro file hfile
    have hclean : (FilePath.parse file.1).render = file.1 := hs.clean file.1 (List.mem_map_of_mem hfile)
    have hread : tree.read file.1 = .ok file.2 := by
      rw [← hclean]
      exact (FileTree.read_eq_ok_iff htree (FilePath.normal_parse file.1)).mpr (hfiles file hfile)
    have hstored : stored tree file.1 = .ok (some file.2) := by
      unfold stored
      rw [hread]
    unfold produceChange
    rw [hstored]
    show (if file.2 = file.2 then _ else _) = _
    rw [if_pos rfl]
    rfl
  have hmissing : ∀ path ∈ s.removed, removeChange tree path = .ok none := by
    intro path hpath
    obtain ⟨hnone, hwritable⟩ := hremoved path hpath
    have hclean := hs.cleanRemoved path hpath
    obtain ⟨content, hstored⟩ := stored_of_writable hclean hwritable
    rw [(stored_eq_ok htree hclean hstored).1] at hnone
    unfold removeChange
    rw [hstored, hnone]
    rfl
  unfold changes
  rw [mapM_of_forall_ok hsame, mapM_of_forall_ok hmissing]
  show Except.ok ((s.files.map (fun _ => none) ++ s.removed.map (fun _ => none)).filterMap id) = Except.ok []
  simp

/-- **A set can be compared** where nothing is in the way of its paths. -/
theorem changes_ok {s : ArtifactSet} (hs : s.Ordered) {tree : FileTree}
    (hpaths : ∀ path ∈ s.paths, tree.Writable (FilePath.parse path))
    (hremoved : ∀ path ∈ s.removed, tree.Writable (FilePath.parse path)) : ∃ changes, s.changes tree = .ok changes := by
  have hproduced : ∃ produced, s.files.mapM (produceChange tree) = .ok produced := by
    apply mapM_ok
    intro file hfile
    have hpath : file.1 ∈ s.paths := List.mem_map_of_mem hfile
    obtain ⟨content, hstored⟩ := stored_of_writable (hs.clean _ hpath) (hpaths _ hpath)
    unfold produceChange
    rw [hstored]
    cases content with
    | none => exact ⟨_, rfl⟩
    | some old =>
      by_cases hsame : old = file.2
      · exact ⟨none, if_pos hsame⟩
      · exact ⟨_, if_neg hsame⟩
  have hgone : ∃ removed, s.removed.mapM (removeChange tree) = .ok removed := by
    apply mapM_ok
    intro path hpath
    obtain ⟨content, hstored⟩ := stored_of_writable (hs.cleanRemoved _ hpath) (hremoved _ hpath)
    unfold removeChange
    rw [hstored]
    cases content with
    | none => exact ⟨_, rfl⟩
    | some old => exact ⟨_, rfl⟩
  obtain ⟨produced, hproduced⟩ := hproduced
  obtain ⟨removed, hgone⟩ := hgone
  refine ⟨(produced ++ removed).filterMap id, ?_⟩
  unfold changes
  rw [hproduced, hgone]
  rfl

/-- **Writing a set puts nothing in the way** of other places of output. -/
theorem Committed.writable {root : FilePath} {s : ArtifactSet} (hs : s.Tidy root) {tree after : FileTree}
    (h : s.Committed tree after) {place : FilePath} (hplace : OutputPlace root place)
    (hwritable : tree.Writable place) : after.Writable place where
  above := by
    intro dir hdir content hfile
    have hcontent : after.contentAt dir = some content := FileTree.contentAt_eq_some_iff.mpr hfile
    -- a file that is written has a dot in its name, and no directory of output has
    have hpaths : ∀ path ∈ s.paths, FilePath.parse path ≠ dir := by
      rintro path hpath rfl
      exact (hs.output path hpath).not_isAbove hplace hdir
    have hremoved : ∀ path ∈ s.removed, FilePath.parse path ≠ dir := by
      rintro path hpath rfl
      exact (hs.outputRemoved path hpath).not_isAbove hplace hdir
    rw [h.rest dir hpaths hremoved] at hcontent
    exact hwritable.above dir hdir content (FileTree.contentAt_eq_some_iff.mp hcontent)
  free := by
    intro hdir
    obtain hdir | ⟨path, hpath, hdir⟩ := h.dirs place hdir
    · exact hwritable.free hdir
    · exact hplace.not_isAbove (hs.output path hpath) hdir

end ArtifactSet

end HeaderReflection
