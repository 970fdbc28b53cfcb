import HeaderReflection.Proofs.Generation.Places

/-!
# Builds

What a build that succeeds has gone through, and what it hands on to be written: the artifacts of the module, the two
shared tables and the manifest, and what an earlier manifest lists besides. Such a set is tidy, and so a generation
writes all of it or nothing.

## Main definitions

- `BuildSteps`: the results on the way to a build.
- `Build.recorded`: the manifest of a build.

## Main results

- `RunOptions.build_ok_iff`: a build succeeds exactly when all of its steps do.
- `BuildSteps.mem_files`, `BuildSteps.mem_removed`: the files of a build, and the paths that it takes away.
- `BuildSteps.tidy`: the set of a build is tidy.
- `Options.committed_of_generate`, `Options.generate_eq_of_error`: a generation is all or nothing.
-/

namespace HeaderReflection

/-! ## §1 Steps -/

namespace RunOptions

/-- The types of a module as its headers declare them. -/
def scan (o : RunOptions) (tree : FileTree) : Except RunError Module := do
  let headers ← (o.headers tree).mapError RunError.headerList
  (o.readHeaders tree (Module.empty o.packageName o.scope) headers).outcome

/-- The manifest that lists some entries. -/
def manifestOf (o : RunOptions) (entries : List Text) : Manifest :=
  ({ module := o.packageName, scope := o.scope } : Manifest).record entries

/-- The set of a run, with what an earlier manifest lists taken away and with the manifest. -/
def completed (o : RunOptions) (set : ArtifactSet) (earlier : Manifest) (entries : List Text) : ArtifactSet :=
  (((earlier.stale entries).map o.entryFile).foldl ArtifactSet.remove set).add o.manifest (o.manifestOf entries).encode

end RunOptions

/-- The artifacts and the tables of a run. -/
def Layout.produced (l : Layout) (files : List (Text × Text)) (typeIds dependencies : Text) : ArtifactSet :=
  ArtifactSet.addAll {} (files ++ [(l.typeIds, typeIds), (l.dependencies, dependencies)])

/-- The results on the way to a build. -/
structure BuildSteps (o : RunOptions) (tree : FileTree) (b : Build) where
  scanned : Module
  files : List (Text × Text)
  typeIds : TableUpdate
  dependencies : TableUpdate
  earlier : Manifest
  entries : List Text
  scan_eq : o.scan tree = .ok scanned
  acyclic : scanned.resolve.cycle = none
  module_eq : b.module = scanned.resolve.module
  emit_eq : b.module.emit o.layout = .ok files
  typeIds_eq : updateTypeIds tree o.layout.typeIds b.module.name (b.module.entries.map (·.id)) = .ok typeIds
  dependencies_eq : updateDependencies tree o.layout.dependencies b.module.name b.module.dependencies = .ok dependencies
  earlier_eq : Manifest.load tree o.manifest = .ok earlier
  entries_eq : o.ownedEntries (o.layout.produced files typeIds.text dependencies.text) = .ok entries
  options_eq : b.options = o
  set_eq : b.set = o.completed (o.layout.produced files typeIds.text dependencies.text) earlier entries

theorem Module.resolved_ok {m resolved : Module} :
    m.resolved.outcome = .ok resolved ↔ m.resolve.cycle = none ∧ resolved = m.resolve.module := by
  unfold Module.resolved
  rw [Logged.outcome_bind, Logged.outcome_notes, bind_eq_ok]
  cases m.resolve.cycle with
  | some cycle => simp
  | none => simp [eq_comm]

theorem Module.emitted_ok {m : Module} {layout : Layout} {files : List (Text × Text)} :
    (m.emitted layout).outcome = .ok files ↔ m.emit layout = .ok files := by
  unfold Module.emitted
  cases m.emit layout with
  | error unknown => simp
  | ok emitted => simp [bind_eq_ok]

theorem Module.tableTexts_ok {m : Module} {layout : Layout} {tree : FileTree} {tables : List (Text × Text)} :
    m.tableTexts layout tree = .ok tables ↔
      ∃ typeIds, updateTypeIds tree layout.typeIds m.name (m.entries.map (·.id)) = .ok typeIds ∧
      ∃ dependencies, updateDependencies tree layout.dependencies m.name m.dependencies = .ok dependencies ∧
        tables = [(layout.typeIds, typeIds.text), (layout.dependencies, dependencies.text)] := by
  unfold Module.tableTexts
  simp only [bind_eq_ok]
  simp only [pure, Except.pure, Except.ok.injEq, eq_comm]

theorem RunOptions.recorded_ok {o : RunOptions} {tree : FileTree} {set result : ArtifactSet} :
    (o.recorded tree set).outcome = .ok result ↔
      ∃ earlier, Manifest.load tree o.manifest = .ok earlier ∧
      ∃ entries, o.ownedEntries set = .ok entries ∧ result = o.completed set earlier entries := by
  unfold RunOptions.recorded
  simp only [Logged.outcome_bind, Logged.outcome_mapError, Logged.outcome_ofExcept, Logged.outcome_notes,
    Logged.outcome_pure, bind_eq_ok, mapError_eq_ok, Except.ok.injEq, exists_const, true_and,
    eq_comm (b := result)]
  rfl

theorem RunOptions.scan_ok {o : RunOptions} {tree : FileTree} {scanned : Module} :
    o.scan tree = .ok scanned ↔ ∃ headers, o.headers tree = .ok headers ∧
      (o.readHeaders tree (Module.empty o.packageName o.scope) headers).outcome = .ok scanned := by
  unfold RunOptions.scan
  simp only [bind_eq_ok, mapError_eq_ok]

/-- **A build succeeds exactly when all of its steps do.** -/
theorem RunOptions.build_ok_iff {o : RunOptions} {tree : FileTree} {b : Build} :
    (o.build tree).outcome = .ok b ↔ Nonempty (BuildSteps o tree b) := by
  unfold RunOptions.build RunOptions.listHeaders
  simp only [Logged.outcome_bind, Logged.outcome_mapError, Logged.outcome_ofExcept, Logged.outcome_note,
    Logged.outcome_pure, bind_eq_ok, mapError_eq_ok, Module.resolved_ok, Module.emitted_ok, Module.tableTexts_ok,
    RunOptions.recorded_ok]
  -- a build succeeds exactly when each of its steps does; the steps are named by what they give
  constructor
  · rintro ⟨headers, ⟨_, hheaders, -, -, hsame⟩, scanned, hscanned, m, ⟨hacyclic, rfl⟩, files, hfiles, tables,
      ⟨typeIds, htypeIds, dependencies, hdependencies, rfl⟩, set, ⟨earlier, hearlier, entries, hentries, rfl⟩, -, -, hb⟩
    cases hsame
    cases hb
    have hscan : o.scan tree = .ok scanned := RunOptions.scan_ok.mpr ⟨headers, hheaders, hscanned⟩
    exact ⟨{ scanned, files, typeIds, dependencies, earlier, entries
             scan_eq := hscan, acyclic := hacyclic, module_eq := rfl, emit_eq := hfiles, typeIds_eq := htypeIds
             dependencies_eq := hdependencies, earlier_eq := hearlier, entries_eq := hentries, options_eq := rfl
             set_eq := rfl }⟩
  · rintro ⟨steps⟩
    obtain ⟨headers, hheaders, hscanned⟩ := RunOptions.scan_ok.mp steps.scan_eq
    refine ⟨headers, ⟨headers, hheaders, (), trivial, rfl⟩, steps.scanned, hscanned, b.module,
      ⟨steps.acyclic, steps.module_eq⟩, steps.files, steps.emit_eq, _,
      ⟨steps.typeIds, steps.typeIds_eq, steps.dependencies, steps.dependencies_eq, rfl⟩, b.set,
      ⟨steps.earlier, steps.earlier_eq, steps.entries, steps.entries_eq, steps.set_eq⟩, (), trivial, ?_⟩
    rw [← steps.options_eq]

/-! ## §2 The set of a build -/

namespace ArtifactSet

theorem files_foldl_remove (s : ArtifactSet) (paths : List Text) : (paths.foldl remove s).files = s.files := by
  induction paths generalizing s with
  | nil => rfl
  | cons path paths ih => rw [List.foldl_cons, ih, files_remove]

theorem mem_removed_foldl_remove {s : ArtifactSet} {paths : List Text} {p : Text} :
    p ∈ (paths.foldl remove s).removed ↔ p ∈ s.removed ∨ (∃ path ∈ paths, p = cleanPath path) ∧ p ∉ s.paths := by
  induction paths generalizing s with
  | nil => simp
  | cons path paths ih =>
    have hpaths : (s.remove path).paths = s.paths := congrArg (List.map _) (files_remove s path)
    rw [List.foldl_cons, ih, mem_removed_remove, hpaths]
    simp only [List.mem_cons, exists_eq_or_imp]
    tauto

theorem Ordered.foldl_remove {s : ArtifactSet} (hs : s.Ordered) (paths : List Text) :
    (paths.foldl ArtifactSet.remove s).Ordered := by
  induction paths generalizing s with
  | nil => exact hs
  | cons path paths ih => exact ih (hs.remove path)

theorem filter_paths_add (s : ArtifactSet) {path text : Text} {f : Text → Bool} (h : f (cleanPath path) = false) :
    (s.add path text).paths.filter f = s.paths.filter f := by
  rw [paths_add, Text.filter_insertUnique h]

/-- The paths of a set do not depend on the texts of its files. -/
theorem paths_addAll_congr (s : ArtifactSet) {files files' : List (Text × Text)}
    (h : files.map (·.1) = files'.map (·.1)) : (s.addAll files).paths = (s.addAll files').paths := by
  have hclean : ∀ files : List (Text × Text),
      (files.map fun file => cleanPath file.1) = (files.map (·.1)).map cleanPath := by simp
  rw [paths_addAll, paths_addAll, hclean, hclean, h]

end ArtifactSet

theorem Module.artifactPlace_of_mem_paths {m : Module} (hm : m.HasFileNames) {l : Layout} (hl : l.Sound)
    {files : List (Text × Text)} (hfiles : m.emit l = .ok files) {path : Text}
    (h : path ∈ (ArtifactSet.addAll {} files).paths) : ∃ place, l.ArtifactPlace place ∧ path = place.render := by
  rcases ArtifactSet.mem_paths_addAll.mp h with h | ⟨file, hfile, rfl⟩
  · cases h
  · rw [Module.files_of_emit hfiles] at hfile
    obtain ⟨a, ha, rfl⟩ := List.mem_map.mp hfile
    obtain ⟨place, hplace, heq⟩ := Module.artifactPlace_of_mem_artifacts hm hl ha
    refine ⟨place, hplace, ?_⟩
    show cleanPath (a.path l) = _
    rw [heq, FilePath.cleanPath_render (hplace.normal hl)]

theorem RunOptions.ownedEntries_congr (o : RunOptions) {set set' : ArtifactSet} (h : set.paths = set'.paths) :
    o.ownedEntries set = o.ownedEntries set' := by
  unfold RunOptions.ownedEntries
  rw [h]

/-- The manifest of a build. -/
def Build.recorded (b : Build) : Except RunError Manifest := (b.options.ownedEntries b.set).map b.options.manifestOf

/-- Where there is a file, it is the manifest that is loaded. -/
theorem Manifest.load_of_content {tree : FileTree} (htree : tree.WellFormed) {place : FilePath} (hplace : place.Normal)
    {m : Manifest} (hdecode : Manifest.decode? m.encode = some m) (hcontent : tree.contentAt place = some m.encode) :
    Manifest.load tree place.render = .ok m := by
  unfold Manifest.load
  rw [(FileTree.read_eq_ok_iff htree hplace).mpr hcontent]
  dsimp only
  rw [hdecode]

/-- Where there is none, nothing but the empty manifest is loaded. -/
theorem Manifest.load_of_nothing {tree : FileTree} (htree : tree.WellFormed) {place : FilePath} (hplace : place.Normal)
    (hcontent : tree.contentAt place = none) {m : Manifest} (h : Manifest.load tree place.render = .ok m) : m = {} := by
  unfold Manifest.load at h
  cases hread : tree.read place.render with
  | ok text =>
    rw [FileTree.read_eq_ok_iff htree hplace, hcontent] at hread
    cases hread
  | error error =>
    rw [hread] at h
    dsimp only at h
    split at h
    · cases h
      rfl
    · cases h

theorem Manifest.load_of_writable {tree : FileTree} (htree : tree.WellFormed) {place : FilePath} (hplace : place.Normal)
    (hcontent : tree.contentAt place = none) (hfree : tree.Writable place) :
    Manifest.load tree place.render = .ok {} := by
  rcases FileTree.read_of_writable hplace hfree with ⟨text, hread⟩ | ⟨error, hread, hreason⟩
  · rw [FileTree.read_eq_ok_iff htree hplace, hcontent] at hread
    cases hread
  · unfold Manifest.load
    rw [hread]
    exact if_pos hreason

theorem Manifest.mem_stale {m : Manifest} {files : List Text} {entry : Text} :
    entry ∈ m.stale files ↔ entry ∈ m.files ∧ entry ∉ files := by
  unfold Manifest.stale
  rw [(Text.sort_perm _).mem_iff]
  simp

theorem RunOptions.mem_manifestOf {o : RunOptions} {entries : List Text} {entry : Text} :
    entry ∈ (o.manifestOf entries).files ↔ entry ∈ entries := by
  show entry ∈ Text.sort (Text.dedup entries) ↔ _
  rw [(Text.sort_perm _).mem_iff, Text.mem_dedup]

namespace Module

variable {m : Module} {l : Layout} {files : List (Text × Text)} {typeIds dependencies : Text}

/-- What a build produces besides the manifest: artifacts, and the two tables. -/
theorem mem_produced (hm : m.HasFileNames) (hl : l.Sound) (hfiles : m.emit l = .ok files) {path : Text} :
    path ∈ (l.produced files typeIds dependencies).paths ↔
      (∃ a ∈ m.artifacts, path = a.path l) ∨ path = l.typeIds ∨ path = l.dependencies := by
  -- artifacts and tables have places in normal form, so that a set keeps their paths as they are
  have hartifact : ∀ a ∈ m.artifacts, cleanPath (a.path l) = a.path l := by
    intro a ha
    obtain ⟨place, hplace, heq⟩ := artifactPlace_of_mem_artifacts hm hl ha
    rw [heq, FilePath.cleanPath_render (hplace.normal hl)]
  have htable : ∀ place, l.TablePlace place → cleanPath place.render = place.render := fun _ hplace =>
    FilePath.cleanPath_render hplace.normal
  unfold Layout.produced
  rw [ArtifactSet.mem_paths_addAll, files_of_emit hfiles, hl.typeIds_eq, hl.dependencies_eq]
  simp only [ArtifactSet.paths, List.map_nil, List.not_mem_nil, false_or, List.mem_append, List.mem_map, List.mem_cons,
    or_false]
  constructor
  · rintro ⟨file, ⟨a, ha, rfl⟩ | rfl | rfl, rfl⟩
    · exact Or.inl ⟨a, ha, hartifact a ha⟩
    · exact Or.inr (Or.inl (htable _ (Or.inl rfl)))
    · exact Or.inr (Or.inr (htable _ (Or.inr rfl)))
  · rintro (⟨a, ha, rfl⟩ | rfl | rfl)
    · exact ⟨_, Or.inl ⟨a, ha, rfl⟩, (hartifact a ha).symm⟩
    · exact ⟨_, Or.inr (Or.inl rfl), (htable _ (Or.inl rfl)).symm⟩
    · exact ⟨_, Or.inr (Or.inr rfl), (htable _ (Or.inr rfl)).symm⟩

theorem place_of_mem_produced (hm : m.HasFileNames) (hl : l.Sound) (hfiles : m.emit l = .ok files) {path : Text}
    (h : path ∈ (l.produced files typeIds dependencies).paths) :
    ∃ place : FilePath, place.Normal ∧ path = place.render ∧ (l.ArtifactPlace place ∨ l.TablePlace place) := by
  have hnormal : ∀ place, OutputPlace l.base place → place.Normal := fun _ h => h.normal l.normal_base
  rcases (mem_produced hm hl hfiles).mp h with ⟨a, ha, rfl⟩ | rfl | rfl
  · obtain ⟨place, hplace, heq⟩ := artifactPlace_of_mem_artifacts hm hl ha
    exact ⟨place, hnormal place (hplace.outputPlace hl), heq, Or.inl hplace⟩
  · have hplace : l.TablePlace (l.tablePlace "type_ids.ar.h") := Or.inl rfl
    exact ⟨_, hnormal _ hplace.outputPlace, hl.typeIds_eq, Or.inr hplace⟩
  · have hplace : l.TablePlace (l.tablePlace "dependency_tree.ar.h") := Or.inr rfl
    exact ⟨_, hnormal _ hplace.outputPlace, hl.dependencies_eq, Or.inr hplace⟩

theorem tidy_produced (hm : m.HasFileNames) (hl : l.Sound) (hfiles : m.emit l = .ok files) :
    (l.produced files typeIds dependencies).Tidy l.base where
  toOrdered := ArtifactSet.ordered_empty.addAll _
  output := by
    intro path hpath
    obtain ⟨place, hnormal, rfl, hplace⟩ := place_of_mem_produced hm hl hfiles hpath
    rw [FilePath.parse_render hnormal]
    rcases hplace with hplace | hplace
    · exact hplace.outputPlace hl
    · exact hplace.outputPlace
  outputRemoved := by
    rw [Layout.produced, ArtifactSet.removed_addAll rfl]
    simp

/-- **What is produced besides the manifest**, with texts: the tables, and the artifacts. -/
theorem mem_files_produced (hm : m.HasFileNames) (hl : l.Sound) (hfiles : m.emit l = .ok files) {file : Text × Text} :
    file ∈ (l.produced files typeIds dependencies).files ↔ file = (l.typeIds, typeIds) ∨
      file = (l.dependencies, dependencies) ∨ file ∈ (ArtifactSet.addAll {} files).files := by
  have hclean : ∀ place, l.TablePlace place → cleanPath place.render = place.render := fun _ hplace =>
    FilePath.cleanPath_render hplace.normal
  -- no artifact stands at the place of a table
  have hartifact : ∀ file ∈ (ArtifactSet.addAll {} files).files, ∀ name, l.TablePlace (l.tablePlace name) →
      file.1 ≠ (l.tablePlace name).render := by
    intro file hfile name hname heq
    obtain ⟨place, hplace, hrender⟩ := artifactPlace_of_mem_paths hm hl hfiles (List.mem_map_of_mem hfile)
    exact hplace.render_ne_table hl hname (hrender.symm.trans heq)
  have hordered := ArtifactSet.ordered_empty.addAll files
  have hproduced : l.produced files typeIds dependencies =
      ((ArtifactSet.addAll {} files).add l.typeIds typeIds).add l.dependencies dependencies :=
    ArtifactSet.addAll_append _ _ _
  rw [hproduced, ArtifactSet.mem_files_add (hordered.add _ _), ArtifactSet.mem_files_add hordered, hl.typeIds_eq,
    hl.dependencies_eq, hclean _ (Or.inl rfl), hclean _ (Or.inr rfl)]
  constructor
  · rintro (rfl | ⟨rfl | ⟨hfile, -⟩, -⟩)
    · exact Or.inr (Or.inl rfl)
    · exact Or.inl rfl
    · exact Or.inr (Or.inr hfile)
  · rintro (rfl | rfl | hfile)
    · exact Or.inr ⟨Or.inl rfl, l.render_tables_ne⟩
    · exact Or.inl rfl
    · exact Or.inr ⟨Or.inr ⟨hfile, hartifact file hfile _ (Or.inl rfl)⟩, hartifact file hfile _ (Or.inr rfl)⟩

end Module

namespace BuildSteps

variable {o : RunOptions} {tree : FileTree} {b : Build}

/-- The artifacts and the tables. -/
def produced (steps : BuildSteps o tree b) : ArtifactSet :=
  o.layout.produced steps.files steps.typeIds.text steps.dependencies.text

theorem ordered_produced (steps : BuildSteps o tree b) : steps.produced.Ordered := ArtifactSet.ordered_empty.addAll _

theorem removed_produced (steps : BuildSteps o tree b) : steps.produced.removed = [] := ArtifactSet.removed_addAll rfl _

theorem tidy_produced (steps : BuildSteps o tree b) (ho : o.Standard) (hm : b.module.HasFileNames) :
    steps.produced.Tidy o.layout.base :=
  Module.tidy_produced hm ho.layout steps.emit_eq

theorem manifest_not_mem_produced (steps : BuildSteps o tree b) (ho : o.Standard) (hm : b.module.HasFileNames) :
    o.manifest ∉ steps.produced.paths := by
  intro h
  obtain ⟨place, hnormal, heq, hplace⟩ := Module.place_of_mem_produced hm ho.layout steps.emit_eq h
  have hsame : o.layout.manifestPlace = place :=
    FilePath.render_injective ho.normal_manifest hnormal (by rw [← heq, ho.manifest])
  rcases hplace with hplace | hplace
  · exact hplace.ne_manifest hsame.symm
  · exact hplace.ne_manifest hsame.symm

/-- The entries of the manifest lead back to what the module owns. -/
theorem entryFile_entries (steps : BuildSteps o tree b) (ho : o.Standard) (hm : b.module.HasFileNames) :
    steps.entries.map o.entryFile = steps.produced.paths.filter o.owns := by
  obtain ⟨entries, hentries, hfiles⟩ := ho.ownedEntries_ok (steps.tidy_produced ho hm)
  have hsame : entries = steps.entries := Except.ok.inj (hentries.symm.trans steps.entries_eq)
  rw [← hsame, hfiles]

theorem cleanPath_manifest (ho : o.Standard) : cleanPath o.manifest = o.manifest := by
  rw [ho.manifest, FilePath.cleanPath_render ho.normal_manifest]

theorem ordered_remaining (steps : BuildSteps o tree b) :
    (((steps.earlier.stale steps.entries).map o.entryFile).foldl ArtifactSet.remove steps.produced).Ordered :=
  steps.ordered_produced.foldl_remove _

/-- **What a build writes**: the manifest, and what it produces besides. -/
theorem mem_files (steps : BuildSteps o tree b) (ho : o.Standard) (hm : b.module.HasFileNames) {file : Text × Text} :
    file ∈ b.set.files ↔ file = (o.manifest, (o.manifestOf steps.entries).encode) ∨ file ∈ steps.produced.files := by
  have hne : file ∈ steps.produced.files → file.1 ≠ o.manifest := by
    intro hfile heq
    exact steps.manifest_not_mem_produced ho hm (heq ▸ List.mem_map_of_mem hfile)
  rw [steps.set_eq, RunOptions.completed]
  show file ∈ ((List.foldl ArtifactSet.remove steps.produced _).add _ _).files ↔ _
  rw [ArtifactSet.mem_files_add steps.ordered_remaining, ArtifactSet.files_foldl_remove, cleanPath_manifest ho]
  exact or_congr_right ⟨And.left, fun hfile => ⟨hfile, hne hfile⟩⟩

/-- What a build writes, one by one: the manifest, the two tables, and the artifacts. -/
theorem mem_files_iff (steps : BuildSteps o tree b) (ho : o.Standard) (hm : b.module.HasFileNames)
    {file : Text × Text} :
    file ∈ b.set.files ↔ file = (o.manifest, (o.manifestOf steps.entries).encode) ∨
      file = (o.layout.typeIds, steps.typeIds.text) ∨ file = (o.layout.dependencies, steps.dependencies.text) ∨
      file ∈ (ArtifactSet.addAll {} steps.files).files := by
  rw [steps.mem_files ho hm, produced, Module.mem_files_produced hm ho.layout steps.emit_eq]

theorem mem_paths (steps : BuildSteps o tree b) (ho : o.Standard) (hm : b.module.HasFileNames) {path : Text} :
    path ∈ b.set.paths ↔ path = o.manifest ∨ path ∈ steps.produced.paths := by
  simp only [ArtifactSet.paths, List.mem_map, steps.mem_files ho hm]
  constructor
  · rintro ⟨file, rfl | hfile, rfl⟩
    · exact Or.inl rfl
    · exact Or.inr ⟨file, hfile, rfl⟩
  · rintro (rfl | ⟨file, hfile, rfl⟩)
    · exact ⟨_, Or.inl rfl, rfl⟩
    · exact ⟨file, Or.inr hfile, rfl⟩

/-- The manifest that a build writes is its own. -/
theorem recorded_eq (steps : BuildSteps o tree b) (ho : o.Standard) :
    b.recorded = .ok (o.manifestOf steps.entries) := by
  have howns : o.owns (cleanPath o.manifest) = false := by
    rw [cleanPath_manifest ho]
    exact ho.owns_manifest
  have hpaths : b.set.paths.filter o.owns = steps.produced.paths.filter o.owns := by
    rw [steps.set_eq, RunOptions.completed, ArtifactSet.filter_paths_add _ howns]
    unfold ArtifactSet.paths
    rw [ArtifactSet.files_foldl_remove]
    rfl
  have hentries : o.ownedEntries b.set = .ok steps.entries := by
    rw [← steps.entries_eq]
    unfold RunOptions.ownedEntries
    rw [hpaths]
    rfl
  rw [Build.recorded, steps.options_eq, hentries]
  rfl

/-- **What a module owns**: its artifacts, and the tables if it is the glue package itself. -/
theorem owned_iff (steps : BuildSteps o tree b) (ho : o.Standard) (hm : b.module.HasFileNames) {path : Text} :
    path ∈ b.set.paths ∧ o.owns path = true ↔ (∃ a ∈ b.module.artifacts, path = a.path o.layout) ∨
      o.packageName = "glue" ∧ (path = o.layout.typeIds ∨ path = o.layout.dependencies) := by
  -- a module owns what stands below its directory, but for the manifest; the tables stand below that of glue
  have hartifact : ∀ a ∈ b.module.artifacts, o.owns (a.path o.layout) = true := by
    intro a ha
    obtain ⟨place, hplace, heq⟩ := Module.artifactPlace_of_mem_artifacts hm ho.layout ha
    rw [heq, ho.owns_iff (hplace.normal ho.layout)]
    exact ⟨hplace.isAbove, hplace.ne_manifest⟩
  have htable : ∀ name, o.layout.TablePlace (o.layout.tablePlace name) →
      (o.owns (o.layout.tablePlace name).render = true ↔ o.packageName = "glue") := by
    intro name hplace
    rw [ho.owns_iff hplace.normal, Layout.isAbove_table_iff]
    exact ⟨And.left, fun hglue => ⟨hglue, hplace.ne_manifest⟩⟩
  have htypeIds := htable _ (Or.inl rfl)
  have hdependencies := htable _ (Or.inr rfl)
  rw [← ho.layout.typeIds_eq] at htypeIds
  rw [← ho.layout.dependencies_eq] at hdependencies
  rw [steps.mem_paths ho hm, produced, Module.mem_produced hm ho.layout steps.emit_eq]
  constructor
  · rintro ⟨rfl | ⟨a, ha, rfl⟩ | rfl | rfl, howns⟩
    · rw [ho.owns_manifest] at howns
      cases howns
    · exact Or.inl ⟨a, ha, rfl⟩
    · exact Or.inr ⟨htypeIds.mp howns, Or.inl rfl⟩
    · exact Or.inr ⟨hdependencies.mp howns, Or.inr rfl⟩
  · rintro (⟨a, ha, rfl⟩ | ⟨hglue, rfl | rfl⟩)
    · exact ⟨Or.inr (Or.inl ⟨a, ha, rfl⟩), hartifact a ha⟩
    · exact ⟨Or.inr (Or.inr (Or.inl rfl)), htypeIds.mpr hglue⟩
    · exact ⟨Or.inr (Or.inr (Or.inr rfl)), hdependencies.mpr hglue⟩

/-- What a build takes away, for any options. -/
theorem mem_removed_iff (steps : BuildSteps o tree b) {path : Text} :
    path ∈ b.set.removed ↔
      (∃ entry ∈ steps.earlier.files, entry ∉ steps.entries ∧ path = cleanPath (o.entryFile entry)) ∧
        path ∉ steps.produced.paths ∧ path ≠ cleanPath o.manifest := by
  rw [steps.set_eq, RunOptions.completed]
  show path ∈ ((List.foldl ArtifactSet.remove steps.produced _).add _ _).removed ↔ _
  rw [ArtifactSet.mem_removed_add, ArtifactSet.mem_removed_foldl_remove, steps.removed_produced]
  simp only [List.not_mem_nil, false_or, List.mem_map, Manifest.mem_stale, and_assoc]
  constructor
  · rintro ⟨⟨_, ⟨entry, hentry, hstale, rfl⟩, rfl⟩, hproduced, hmanifest⟩
    exact ⟨⟨entry, hentry, hstale, rfl⟩, hproduced, hmanifest⟩
  · rintro ⟨⟨entry, hentry, hstale, rfl⟩, hproduced, hmanifest⟩
    exact ⟨⟨_, ⟨entry, hentry, hstale, rfl⟩, rfl⟩, hproduced, hmanifest⟩

/-- **What a build takes away**: the files that the earlier manifest lists and this build does not write. -/
theorem mem_removed (steps : BuildSteps o tree b) (ho : o.Standard) {path : Text} :
    path ∈ b.set.removed ↔
      (∃ entry ∈ steps.earlier.files, entry ∉ steps.entries ∧ path = cleanPath (o.entryFile entry)) ∧
        path ∉ steps.produced.paths ∧ path ≠ o.manifest := by
  rw [steps.mem_removed_iff, cleanPath_manifest ho]

/-- Nothing is taken away where the earlier manifest lists nothing else. -/
theorem removed_eq_nil (steps : BuildSteps o tree b) (ho : o.Standard)
    (h : ∀ entry ∈ steps.earlier.files, entry ∈ steps.entries) : b.set.removed = [] := by
  rw [List.eq_nil_iff_forall_not_mem]
  intro path hpath
  obtain ⟨⟨entry, hentry, hstale, -⟩, -⟩ := (steps.mem_removed ho).mp hpath
  exact hstale (h entry hentry)

/-- **The set of a build is tidy**, provided that the earlier manifest lists places of output. -/
theorem tidy (steps : BuildSteps o tree b) (ho : o.Standard) (hm : b.module.HasFileNames)
    (hearlier : ∀ entry ∈ steps.earlier.files, OutputPlace o.layout.base (FilePath.parse (o.entryFile entry))) :
    b.set.Tidy o.layout.base where
  toOrdered := by
    rw [steps.set_eq]
    exact steps.ordered_remaining.add _ _
  output := by
    intro path hpath
    rcases (steps.mem_paths ho hm).mp hpath with rfl | hpath
    · rw [ho.parse_manifest]
      exact ho.layout.outputPlace_manifest
    · exact (steps.tidy_produced ho hm).output path hpath
  outputRemoved := by
    intro path hpath
    obtain ⟨⟨entry, hentry, -, rfl⟩, -⟩ := (steps.mem_removed ho).mp hpath
    rw [cleanPath, FilePath.parse_render (FilePath.normal_parse _)]
    exact hearlier entry hentry

theorem tidy_of_listed (steps : BuildSteps o tree b) (ho : o.Standard) (hm : b.module.HasFileNames)
    (h : ∀ entry ∈ steps.earlier.files, entry ∈ steps.entries) : b.set.Tidy o.layout.base := by
  refine steps.tidy ho hm fun entry hentry => ?_
  have hfile : o.entryFile entry ∈ steps.produced.paths.filter o.owns := by
    rw [← steps.entryFile_entries ho hm]
    exact List.mem_map_of_mem (h entry hentry)
  exact (steps.tidy_produced ho hm).output _ (List.mem_of_mem_filter hfile)

end BuildSteps

/-! ## §3 Generation -/

namespace Options

variable {o : Options} {tree : FileTree} {b : Build}

theorem build_outcome {run : RunOptions} (h : o.normalize = .ok run) (tree : FileTree) :
    (o.build tree).outcome = (run.build tree).outcome := by
  unfold Options.build
  rw [h]
  rfl

theorem normalize_of_build (h : (o.build tree).outcome = .ok b) : ∃ run, o.normalize = .ok run := by
  unfold Options.build at h
  split at h
  · cases h
  · next run hrun => exact ⟨run, hrun⟩

theorem check_of_build (h : (o.build tree).outcome = .ok b) {changes : List Change}
    (hchanges : b.set.changes tree = .ok changes) : (o.check tree).outcome = .ok { changes } := by
  unfold Options.check
  simp only [Logged.outcome_bind, Logged.outcome_mapError, Logged.outcome_ofExcept, Logged.outcome_notes, bind_eq_ok,
    mapError_eq_ok]
  exact ⟨b, h, changes, hchanges, (), trivial, rfl⟩

theorem exists_steps {run : RunOptions} (hrun : o.normalize = .ok run) (h : (o.build tree).outcome = .ok b) :
    Nonempty (BuildSteps run tree b) := by
  rw [build_outcome hrun] at h
  exact RunOptions.build_ok_iff.mp h

theorem generate_of_error {e : RunError} (h : (o.build tree).outcome = .error e) :
    (o.generate tree).1 = tree ∧ (o.generate tree).2.outcome = .error e := by
  unfold Options.generate
  dsimp only
  rw [h]
  exact ⟨rfl, rfl⟩

theorem generate_of_ok (h : (o.build tree).outcome = .ok b) :
    (o.generate tree).1 = (b.set.commit tree).1 ∧
      (o.generate tree).2.outcome = (b.set.commit tree).2.outcome.mapError RunError.artifacts := by
  unfold Options.generate
  dsimp only
  rw [h]
  refine ⟨rfl, ?_⟩
  simp only [Logged.outcome_bind, Logged.outcome_notes, Logged.outcome_mapError, Logged.outcome_note]
  cases (b.set.commit tree).2.outcome with
  | error failure => rfl
  | ok changes => rfl

/-- **A generation that succeeds** has written the set of its build. -/
theorem committed_of_generate {root : FilePath} (hb : b.set.Tidy root) (htree : tree.WellFormed)
    (hbuild : (o.build tree).outcome = .ok b) {changes : List Change}
    (h : (o.generate tree).2.outcome = .ok changes) : b.set.Committed tree (o.generate tree).1 := by
  obtain ⟨htreeEq, houtcome⟩ := generate_of_ok hbuild
  obtain ⟨hcommit, hok, -⟩ := ArtifactSet.commit_spec hb.toOrdered hb.apart htree
  rw [houtcome, mapError_eq_ok, hcommit] at h
  rw [htreeEq]
  exact hok ⟨changes, h⟩

/-- **A generation that fails** has changed nothing. -/
theorem generate_eq_of_error {root : FilePath} (htree : tree.WellFormed)
    (hb : ∀ b, (o.build tree).outcome = .ok b → b.set.Tidy root) {e : RunError}
    (h : (o.generate tree).2.outcome = .error e) : (o.generate tree).1 = tree := by
  cases hbuild : (o.build tree).outcome with
  | error e => exact (generate_of_error hbuild).1
  | ok b =>
    obtain ⟨htreeEq, houtcome⟩ := generate_of_ok hbuild
    obtain ⟨hcommit, -, hfail⟩ := ArtifactSet.commit_spec (hb b hbuild).toOrdered (hb b hbuild).apart htree
    rw [houtcome, hcommit] at h
    rw [htreeEq]
    apply hfail
    cases hchanges : b.set.changes tree with
    | error failure => exact ⟨failure, rfl⟩
    | ok changes => rw [hchanges] at h; cases h

end Options

end HeaderReflection
