import HeaderReflection.Proofs.Generation.Stability

/-!
# Pruning

However often a module is generated, and however its headers change in between, its directory holds what the last
generation that succeeded has produced and nothing else. A manifest leads from one generation to the next: it lists what
the last one has left behind, and so the next one can take away all that it does not produce again.

## Main definitions

- `PackageState`: what the directory of a module holds, and what its manifest lists.
- `PackageHistory`: generations of one module that succeed or fail, with edits elsewhere between them.

## Main results

- `PackageState.edit`, `PackageState.generated`: the steps of a history.
- `PackageHistory.state`: all histories.
- `package_files_of_history`: no orphans.
-/

namespace HeaderReflection

/-! ## §1 The state of a package -/

/-- What the directory of a module holds: some files, and a manifest that lists all of them but itself. -/
structure PackageState (o : RunOptions) (tree : FileTree) (files : List (Text × Text)) (listed : List Text) : Prop where
  wellFormed : tree.WellFormed
  content : ∀ place, o.layout.packagePlace.IsAbove place → ∀ text,
    tree.contentAt place = some text ↔ ∃ path, (path, text) ∈ files ∧ FilePath.parse path = place
  output : ∀ path ∈ files.map (·.1), cleanPath path = path ∧ OutputPlace o.layout.base (FilePath.parse path)
  lists : ∀ path, path ∈ listed.map o.entryFile ↔ path ∈ files.map (·.1) ∧ o.owns path = true
  manifest : files = [] ∧ listed = [] ∨
    ∃ m : Manifest, m.files = listed ∧ Manifest.decode? m.encode = some m ∧ (o.manifest, m.encode) ∈ files

namespace PackageState

variable {o : RunOptions} {tree : FileTree} {files : List (Text × Text)} {listed : List Text}

theorem load_ok (h : PackageState o tree files listed) (ho : o.Standard) {m : Manifest}
    (hdecode : Manifest.decode? m.encode = some m) (hfile : (o.manifest, m.encode) ∈ files) :
    Manifest.load tree o.manifest = .ok m := by
  rw [ho.manifest]
  apply Manifest.load_of_content h.wellFormed ho.normal_manifest hdecode
  exact (h.content _ o.layout.isAbove_manifest _).mpr ⟨_, hfile, ho.parse_manifest⟩

/-- The manifest that is loaded lists what the state says. -/
theorem load_eq (h : PackageState o tree files listed) (ho : o.Standard) {earlier : Manifest}
    (hload : Manifest.load tree o.manifest = .ok earlier) : earlier.files = listed := by
  rcases h.manifest with ⟨rfl, rfl⟩ | ⟨m, rfl, hdecode, hfile⟩
  · have hnone : tree.contentAt o.layout.manifestPlace = none := by
      rw [Option.eq_none_iff_forall_ne_some]
      intro text htext
      rw [h.content _ o.layout.isAbove_manifest] at htext
      simp at htext
    rw [ho.manifest] at hload
    rw [Manifest.load_of_nothing h.wellFormed ho.normal_manifest hnone hload]
  · rw [h.load_ok ho hdecode hfile] at hload
    cases hload
    rfl

/-- **Edits elsewhere** leave the state of a package. -/
theorem edit (h : PackageState o tree files listed) {after : FileTree} (hafter : after.WellFormed)
    (hkept : ∀ place, o.layout.packagePlace.IsAbove place → after.contentAt place = tree.contentAt place) :
    PackageState o after files listed where
  wellFormed := hafter
  content := by
    intro place hplace text
    rw [hkept place hplace]
    exact h.content place hplace text
  output := h.output
  lists := h.lists
  manifest := h.manifest

/-- What the manifest lists has been written to places of output, so that it can be taken away again. -/
theorem output_of_listed (h : PackageState o tree files listed) {entry : Text} (hentry : entry ∈ listed) :
    OutputPlace o.layout.base (FilePath.parse (o.entryFile entry)) := by
  obtain ⟨hpath, -⟩ := (h.lists _).mp (List.mem_map_of_mem hentry)
  exact (h.output _ hpath).2

theorem tidy_of_steps (h : PackageState o tree files listed) (ho : o.Standard) {b : Build} (steps : BuildSteps o tree b)
    (hm : b.module.HasFileNames) : b.set.Tidy o.layout.base := by
  apply steps.tidy ho hm
  rw [h.load_eq ho steps.earlier_eq]
  exact fun entry hentry => h.output_of_listed hentry

/-- A file of the package that is not written again is taken away. -/
theorem removed_of_not_written (h : PackageState o tree files listed) (ho : o.Standard) {b : Build}
    (steps : BuildSteps o tree b) (hm : b.module.HasFileNames) {place : FilePath} {text : Text}
    (hplace : o.layout.packagePlace.IsAbove place) (htext : tree.contentAt place = some text)
    (hnew : ∀ path ∈ b.set.paths, FilePath.parse path ≠ place) :
    ∃ path ∈ b.set.removed, FilePath.parse path = place := by
  obtain ⟨path, hfile, hpath⟩ := (h.content place hplace text).mp htext
  have hmem : path ∈ files.map (·.1) := List.mem_map_of_mem hfile
  obtain ⟨hclean, -⟩ := h.output path hmem
  have hne : path ≠ o.manifest := by
    rintro rfl
    exact hnew _ ((steps.mem_paths ho hm).mpr (Or.inl rfl)) hpath
  -- it is one of the listed files, since only the manifest is not listed
  have howns : o.owns path = true := by
    have hnormal := FilePath.normal_parse path
    have hrender : (FilePath.parse path).render = path := hclean
    rw [← hrender, ho.owns_iff hnormal, hpath]
    refine ⟨hplace, ?_⟩
    rintro rfl
    exact hne (by rw [← hrender, hpath, ho.manifest])
  obtain ⟨entry, hentry, rfl⟩ := List.mem_map.mp ((h.lists path).mpr ⟨hmem, howns⟩)
  have hproduced : o.entryFile entry ∉ steps.produced.paths := by
    intro hproduced
    exact hnew _ ((steps.mem_paths ho hm).mpr (Or.inr hproduced)) hpath
  refine ⟨o.entryFile entry, (steps.mem_removed ho).mpr ⟨⟨entry, ?_, ?_, hclean.symm⟩, hproduced, hne⟩, hpath⟩
  · rw [h.load_eq ho steps.earlier_eq]
    exact hentry
  · intro hagain
    have hfiles := steps.entryFile_entries ho hm
    have hfilter : o.entryFile entry ∈ steps.produced.paths.filter o.owns := by
      rw [← hfiles]
      exact List.mem_map_of_mem hagain
    exact hproduced (List.mem_of_mem_filter hfilter)

/-- **A generation** makes the state that of its own build, whatever the state was before. -/
theorem generated (h : PackageState o tree files listed) (ho : o.Standard) {b : Build} (steps : BuildSteps o tree b)
    (hm : b.module.HasFileNames)
    (hdecode : Manifest.decode? (o.manifestOf steps.entries).encode = some (o.manifestOf steps.entries))
    {after : FileTree} (hafter : b.set.Committed tree after) :
    PackageState o after b.set.files (o.manifestOf steps.entries).files where
  wellFormed := hafter.wellFormed
  content := by
    intro place hplace text
    constructor
    · intro htext
      by_cases hnew : ∃ path ∈ b.set.paths, FilePath.parse path = place
      · obtain ⟨path, hpath, rfl⟩ := hnew
        obtain ⟨file, hfile, rfl⟩ := List.mem_map.mp hpath
        have hwritten := hafter.produced file hfile
        rw [htext, Option.some.injEq] at hwritten
        exact ⟨file.1, by rw [hwritten]; exact hfile, rfl⟩
      · have hnew' : ∀ path ∈ b.set.paths, FilePath.parse path ≠ place := fun path hpath heq => hnew ⟨path, hpath, heq⟩
        exfalso
        -- what was there before has been taken away, and nothing else can be there
        by_cases hgone : ∃ path ∈ b.set.removed, FilePath.parse path = place
        · obtain ⟨path, hpath, rfl⟩ := hgone
          rw [hafter.removed path hpath] at htext
          cases htext
        · rw [hafter.rest place hnew' fun path hpath heq => hgone ⟨path, hpath, heq⟩] at htext
          exact hgone (h.removed_of_not_written ho steps hm hplace htext hnew')
    · rintro ⟨path, hfile, rfl⟩
      exact hafter.produced _ hfile
  output := by
    have htidy := h.tidy_of_steps ho steps hm
    exact fun path hpath => ⟨htidy.clean path hpath, htidy.output path hpath⟩
  lists := by
    intro path
    have hentries : path ∈ (o.manifestOf steps.entries).files.map o.entryFile ↔
        path ∈ steps.entries.map o.entryFile := by
      simp only [List.mem_map, RunOptions.mem_manifestOf]
    rw [hentries, steps.entryFile_entries ho hm, List.mem_filter]
    show _ ↔ path ∈ b.set.paths ∧ _
    rw [steps.mem_paths ho hm]
    constructor
    · rintro ⟨hpath, howns⟩
      exact ⟨Or.inr hpath, howns⟩
    · rintro ⟨rfl | hpath, howns⟩
      · rw [ho.owns_manifest] at howns
        cases howns
      · exact ⟨hpath, howns⟩
  manifest := by
    refine Or.inr ⟨o.manifestOf steps.entries, rfl, hdecode, ?_⟩
    exact (steps.mem_files ho hm).mpr (Or.inl rfl)

end PackageState

/-! ## §2 Histories -/

/-- The runs of one module, from an empty directory on: the file tree after them, and the last build that was written.
Between the runs anything outside of the directory may change, headers and config list among it. -/
inductive PackageHistory (o : Options) : FileTree → Option Build → Prop where
  | start {tree : FileTree} (wellFormed : tree.WellFormed)
      (empty : ∀ place, o.tidied.layout.packagePlace.IsAbove place → tree.contentAt place = none) :
      PackageHistory o tree none
  | edit {before after : FileTree} {last : Option Build} (history : PackageHistory o before last)
      (wellFormed : after.WellFormed)
      (kept : ∀ place, o.tidied.layout.packagePlace.IsAbove place → after.contentAt place = before.contentAt place) :
      PackageHistory o after last
  /-- A run that succeeds. Its class names are names of files, and its manifest can be read back. -/
  | succeeded {before : FileTree} {last : Option Build} {build : Build} {changes : List Change}
      (history : PackageHistory o before last) (built : (o.build before).outcome = .ok build)
      (names : build.module.HasFileNames)
      (decodes : ∀ m, build.recorded = .ok m → Manifest.decode? m.encode = some m)
      (written : (o.generate before).2.outcome = .ok changes) :
      PackageHistory o (o.generate before).1 (some build)
  /-- A run that fails, at whatever stage. -/
  | failed {before : FileTree} {last : Option Build} {error : RunError} (history : PackageHistory o before last)
      (names : ∀ build, (o.build before).outcome = .ok build → build.module.HasFileNames)
      (failed : (o.generate before).2.outcome = .error error) :
      PackageHistory o (o.generate before).1 last

/-- The files of the last build, none if there was no build. -/
def lastFiles (last : Option Build) : List (Text × Text) := last.elim [] (·.set.files)

/-- Without options that make sense nothing ever runs. -/
theorem Options.generate_of_normalize_error {o : Options} {e : OptionsError} (h : o.normalize = .error e)
    (tree : FileTree) : (o.generate tree).1 = tree ∧ (o.generate tree).2.outcome = .error (.options e) := by
  apply Options.generate_of_error
  unfold Options.build
  rw [h]
  rfl

/-- **A run that fails changes nothing**, in any state of the package. -/
theorem PackageState.generate_eq_of_error {o : Options} {run : RunOptions} (hrun : o.normalize = .ok run)
    (hstandard : run.Standard) {tree : FileTree} {files : List (Text × Text)} {listed : List Text}
    (h : PackageState run tree files listed)
    (hnames : ∀ build, (o.build tree).outcome = .ok build → build.module.HasFileNames) {error : RunError}
    (hfailed : (o.generate tree).2.outcome = .error error) : (o.generate tree).1 = tree := by
  have htidy : ∀ b, (o.build tree).outcome = .ok b → b.set.Tidy run.layout.base := by
    intro b hb
    obtain ⟨steps⟩ := Options.exists_steps hrun hb
    exact h.tidy_of_steps hstandard steps (hnames b hb)
  exact Options.generate_eq_of_error h.wellFormed htidy hfailed

/-- **All histories**: the state of the package is that of the last build. -/
theorem PackageHistory.state {o : Options} {run : RunOptions} (hrun : o.normalize = .ok run) (hstandard : run.Standard)
    {tree : FileTree} {last : Option Build} (h : PackageHistory o tree last) :
    ∃ listed, PackageState run tree (lastFiles last) listed := by
  have hlayout : run.layout = o.tidied.layout := congrArg Options.layout (Options.tidied_of_normalize hrun)
  -- a run that fails leaves the tree, and one that succeeds does not depend on how the state has come about
  induction h with
  | start wellFormed empty =>
    refine ⟨[], wellFormed, ?_, by simp [lastFiles], by simp [lastFiles], Or.inl ⟨rfl, rfl⟩⟩
    intro place hplace text
    rw [empty place (hlayout ▸ hplace)]
    simp [lastFiles]
  | edit _ wellFormed kept ih =>
    obtain ⟨listed, hstate⟩ := ih
    exact ⟨listed, hstate.edit wellFormed fun place hplace => kept place (hlayout ▸ hplace)⟩
  | succeeded _ built names decodes written ih =>
    obtain ⟨listed, hstate⟩ := ih
    obtain ⟨steps⟩ := Options.exists_steps hrun built
    have htidy := hstate.tidy_of_steps hstandard steps names
    have hcommitted := Options.committed_of_generate htidy hstate.wellFormed built written
    exact ⟨_, hstate.generated hstandard steps names (decodes _ (steps.recorded_eq hstandard)) hcommitted⟩
  | failed _ names failed ih =>
    obtain ⟨listed, hstate⟩ := ih
    rw [hstate.generate_eq_of_error hrun hstandard names failed]
    exact ⟨listed, hstate⟩

/-! ## §3 No orphans -/

/-- What a build leaves behind below the directory of its module: its artifacts and its manifest, and nothing else. -/
structure HoldsPackage (tree : FileTree) (b : Build) : Prop where
  files : ∀ place, b.options.layout.packagePlace.IsAbove place → ∀ text, tree.contentAt place = some text ↔
    ∃ path, (path, text) ∈ b.set.files ∧ (b.options.owns path = true ∨ path = b.options.manifest) ∧
      FilePath.parse path = place
  artifacts : ∀ path, path ∈ b.set.paths ∧ b.options.owns path = true ↔
    (∃ a ∈ b.module.artifacts, path = a.path b.options.layout) ∨
      b.options.packageName = "glue" ∧ (path = b.options.layout.typeIds ∨ path = b.options.layout.dependencies)
  manifest : ∃ m, Manifest.load tree b.options.manifest = .ok m ∧
    ∀ path, path ∈ m.files.map b.options.entryFile ↔ path ∈ b.set.paths ∧ b.options.owns path = true

theorem PackageHistory.exists_build {o : Options} {tree : FileTree} {last : Option Build}
    (h : PackageHistory o tree last) {b : Build} (hb : last = some b) :
    ∃ before, (o.build before).outcome = .ok b ∧ b.module.HasFileNames := by
  induction h with
  | start => cases hb
  | edit _ _ _ ih => exact ih hb
  | succeeded _ built names _ _ _ =>
    cases hb
    exact ⟨_, built, names⟩
  | failed _ _ _ ih => exact ih hb

theorem PackageState.holdsPackage {o : RunOptions} (ho : o.Standard) {tree : FileTree} {b : Build} {listed : List Text}
    (h : PackageState o tree b.set.files listed) {before : FileTree} (steps : BuildSteps o before b)
    (hm : b.module.HasFileNames) : HoldsPackage tree b where
  files := by
    rw [steps.options_eq]
    intro place hplace text
    rw [h.content place hplace text]
    -- a file of the build that stands below the directory is owned, or it is the manifest
    have howned : ∀ path, (path, text) ∈ b.set.files → FilePath.parse path = place →
        o.owns path = true ∨ path = o.manifest := by
      intro path hfile hpath
      have hclean : (FilePath.parse path).render = path := (h.output path (List.mem_map_of_mem hfile)).1
      by_cases hmanifest : path = o.manifest
      · exact Or.inr hmanifest
      · refine Or.inl ?_
        rw [← hclean, ho.owns_iff (FilePath.normal_parse path), hpath]
        refine ⟨hplace, ?_⟩
        rintro rfl
        exact hmanifest (by rw [← hclean, hpath, ho.manifest])
    constructor
    · rintro ⟨path, hfile, hpath⟩
      exact ⟨path, hfile, howned path hfile hpath, hpath⟩
    · rintro ⟨path, hfile, -, hpath⟩
      exact ⟨path, hfile, hpath⟩
  artifacts := by
    rw [steps.options_eq]
    exact fun path => steps.owned_iff ho hm
  manifest := by
    rw [steps.options_eq]
    rcases h.manifest with ⟨hfiles, -⟩ | ⟨m, rfl, hdecode, hfile⟩
    · have hmem := (steps.mem_files ho hm).mpr (Or.inl rfl)
      rw [hfiles] at hmem
      cases hmem
    · exact ⟨m, h.load_ok ho hdecode hfile, h.lists⟩

/-- Options that cannot be used produce nothing. -/
theorem PackageHistory.nothing {o : Options} {e : OptionsError} (he : o.normalize = .error e) {tree : FileTree}
    {last : Option Build} (h : PackageHistory o tree last) :
    last = none ∧ ∀ place, o.tidied.layout.packagePlace.IsAbove place → tree.contentAt place = none := by
  induction h with
  | start _ empty => exact ⟨rfl, empty⟩
  | edit _ _ kept ih => exact ⟨ih.1, fun place hplace => (kept place hplace).trans (ih.2 place hplace)⟩
  | @succeeded before _ _ _ _ _ _ _ written _ =>
    rw [(Options.generate_of_normalize_error he before).2] at written
    cases written
  | @failed before _ _ _ _ _ ih =>
    rw [(Options.generate_of_normalize_error he before).1]
    exact ih

/-- **No orphans**: after any runs of a module whose name is an identifier, with the usual manifest, its directory holds
what the last run that succeeded has produced, and the manifest lists it. There is nothing as long as no run has
succeeded, and a run that fails leaves everything as it was. -/
theorem package_files_of_history {o : Options} (hname : Text.isIdentifier o.packageName.trim = true)
    (hmanifest : o.manifest = []) {tree : FileTree} {last : Option Build} (h : PackageHistory o tree last) :
    (last = none → ∀ place, o.tidied.layout.packagePlace.IsAbove place → tree.contentAt place = none) ∧
    (∀ b, last = some b → b.options.toOptions = o.tidied ∧ HoldsPackage tree b) ∧
    ∀ error, (o.generate tree).2.outcome = .error error →
      (∀ b, (o.build tree).outcome = .ok b → b.module.HasFileNames) → (o.generate tree).1 = tree := by
  cases hrun : o.normalize with
  | error e =>
    -- every run fails before it reads anything
    obtain ⟨rfl, hempty⟩ := h.nothing hrun
    refine ⟨fun _ => hempty, ?_, ?_⟩
    · intro b hb
      cases hb
    · intro error _ _
      exact (Options.generate_of_normalize_error hrun tree).1
  | ok run =>
    have hstandard : run.Standard := Options.standard_of_normalize hname hmanifest hrun
    have htidied : run.toOptions = o.tidied := Options.tidied_of_normalize hrun
    obtain ⟨listed, hstate⟩ := h.state hrun hstandard
    refine ⟨?_, ?_, ?_⟩
    · rintro rfl place hplace
      rw [← htidied] at hplace
      rw [Option.eq_none_iff_forall_ne_some]
      intro text htext
      obtain ⟨path, hfile, -⟩ := (hstate.content place hplace text).mp htext
      cases hfile
    · rintro b rfl
      obtain ⟨before, hbuild, hm⟩ := h.exists_build rfl
      obtain ⟨steps⟩ := Options.exists_steps hrun hbuild
      refine ⟨by rw [steps.options_eq, htidied], hstate.holdsPackage hstandard steps hm⟩
    · intro error hfailed hnames
      exact hstate.generate_eq_of_error hrun hstandard hnames hfailed

/-- A module that fails at first, because its config list is missing, and is generated once it is there: its directory
holds what that run has produced. -/
theorem package_files_of_second_attempt :
    ∃ tree build, PackageHistory (twoModulesOptions "a") tree (some build) ∧ HoldsPackage tree build := by
  have hname : Text.isIdentifier (twoModulesOptions "a").packageName.trim = true := by decide +kernel
  have htree := twoModules_sharedOutput.wellFormed
  have hnothing : ∀ tree : FileTree, tree.WellFormed →
      tree.node? (twoModulesOptions "a").tidied.layout.packagePlace = none →
      ∀ place, (twoModulesOptions "a").tidied.layout.packagePlace.IsAbove place → tree.contentAt place = none := by
    intro tree htree hnode place hplace
    rw [FileTree.contentAt_eq_none_iff, htree.nothing_below hnode hplace]
    simp
  have hempty : FileTree.WellFormed {} := FileTree.wellFormed_of_nodes (by simp)
  have hstart := PackageHistory.start hempty (hnothing {} hempty (by decide +kernel))
  -- without its config list there is no build
  obtain ⟨error, hbuild⟩ : ∃ error, ((twoModulesOptions "a").build {}).outcome = .error error := by
    have hnone : ((twoModulesOptions "a").build {}).outcome.toOption.isNone = true := by decide +kernel
    cases hbuild : ((twoModulesOptions "a").build {}).outcome with
    | error error => exact ⟨error, rfl⟩
    | ok build =>
      rw [hbuild] at hnone
      cases hnone
  obtain ⟨hunchanged, hfailed⟩ := Options.generate_of_error hbuild
  have hfirst := hstart.failed (by rw [hbuild]; simp) hfailed
  rw [hunchanged] at hfirst
  have hedited : PackageHistory (twoModulesOptions "a") twoModules none := by
    apply hfirst.edit htree
    intro place hplace
    rw [hnothing _ htree (by decide +kernel) place hplace, hnothing _ hempty (by decide +kernel) place hplace]
  obtain ⟨finish, hruns⟩ : ∃ finish, GenerationRuns _ twoModules [twoModulesOptions "a"] finish :=
    twoModules_runs (by simp [twoModulesRuns])
  cases hruns with
  | run earlier built names decodes _ written =>
    cases earlier
    have hhistory := hedited.succeeded built names decodes written
    obtain ⟨-, hholds, -⟩ := package_files_of_history hname rfl hhistory
    exact ⟨_, _, hhistory, (hholds _ rfl).2⟩

end HeaderReflection
