import HeaderReflection.Proofs.Generation.Progress

/-!
# Stability of shared output

Several modules are generated into one output directory, in any order and as often as one likes. Each run rewrites the
two tables that all of them share, and so touches files that the others have written too. Still, as long as the sources
stay as they are, a check of any of the modules finds nothing to change afterwards.

What the sources of a module determine is a plan: its artifacts, its blocks in the tables and its manifest. A run puts
its own plan in place and leaves the plans of the others in place; and where a plan is in place, a build reproduces it.

## Main definitions

- `ModulePlan`: what the sources of a module determine.
- `ModulePlan.InPlace`: a tree that holds what a plan says.
- `ModulePlan.isDetermined`: a test of whether there is a plan.
- `SharedOutput`, `GenerationRuns`: modules that share an output directory, and their runs.

## Main results

- `ModulePlan.InPlace.changes_eq_nil`: where a plan is in place there is nothing to change.
- `SharedState.generated`: a run puts its plan in place and leaves the others.
- `check_clean_after_runs`: all checks are clean after any runs.
-/

namespace HeaderReflection

/-! ## §1 Plans -/

/-- What the sources of a module determine. -/
structure ModulePlan (o : RunOptions) (start : FileTree) where
  scanned : Module
  files : List (Text × Text)
  entries : List Text
  scan_eq : o.scan start = .ok scanned
  acyclic : scanned.resolve.cycle = none
  emit_eq : scanned.resolve.module.emit o.layout = .ok files
  names : scanned.resolve.module.HasFileNames
  entries_eq : ∀ typeIds dependencies, o.ownedEntries (o.layout.produced files typeIds dependencies) = .ok entries
  decodes : Manifest.decode? (o.manifestOf entries).encode = some (o.manifestOf entries)

namespace ModulePlan

variable {o : RunOptions} {start tree : FileTree} {b : Build}

/-- The module that is generated. -/
def module (p : ModulePlan o start) : Module := p.scanned.resolve.module

def idBlock (p : ModulePlan o start) : TableBlock :=
  ⟨p.module.name, typeIdsTable.lines p.module.name (p.module.entries.map (·.id))⟩

def dependencyBlock (p : ModulePlan o start) : TableBlock :=
  ⟨p.module.name, dependenciesTable.lines p.module.name p.module.dependencies⟩

/-- The plan that a build has followed. -/
def ofSteps (steps : BuildSteps o tree b) (hscan : o.scan start = .ok steps.scanned) (hm : b.module.HasFileNames)
    (hdecode : Manifest.decode? (o.manifestOf steps.entries).encode = some (o.manifestOf steps.entries)) :
    ModulePlan o start where
  scanned := steps.scanned
  files := steps.files
  entries := steps.entries
  scan_eq := hscan
  acyclic := steps.acyclic
  emit_eq := by
    rw [← steps.module_eq]
    exact steps.emit_eq
  names := by
    rw [← steps.module_eq]
    exact hm
  entries_eq := by
    intro typeIds dependencies
    rw [← steps.entries_eq]
    exact o.ownedEntries_congr (ArtifactSet.paths_addAll_congr {} (by simp))
  decodes := hdecode

/-- Whether the sources of a module determine a plan: it can be scanned and resolved, and its manifest read back. -/
def isDetermined (o : RunOptions) (start : FileTree) : Bool :=
  match o.scan start with
  | .error _ => false
  | .ok scanned =>
    let module := scanned.resolve.module
    -- which files are listed depends on their paths alone
    let produced := o.layout.produced (module.artifacts.map fun a => (a.path o.layout, [])) [] []
    match o.ownedEntries produced with
    | .error _ => false
    | .ok entries =>
      scanned.resolve.cycle = none && module.classes.all (FilePath.slash ∉ ·.name) &&
        Manifest.decode? (o.manifestOf entries).encode = some (o.manifestOf entries)

theorem nonempty_of_isDetermined (h : isDetermined o start = true) : Nonempty (ModulePlan o start) := by
  unfold isDetermined at h
  split at h
  · cases h
  next scanned hscan =>
  dsimp only at h
  split at h
  · cases h
  next entries hentries =>
  simp only [Bool.and_eq_true, decide_eq_true_eq, List.all_eq_true] at h
  obtain ⟨⟨hacyclic, hnames⟩, hdecode⟩ := h
  obtain ⟨files, hfiles⟩ := (RunOptions.isScanned_of_scan hscan).emit_ok o.layout
  have hpaths : files.map (·.1) = scanned.resolve.module.artifacts.map fun a => a.path o.layout := by
    rw [Module.files_of_emit hfiles]
    simp [Function.comp_def]
  refine ⟨{ scanned, files, entries, scan_eq := hscan, acyclic := hacyclic, emit_eq := hfiles, names := hnames,
            entries_eq := fun typeIds dependencies => ?_, decodes := hdecode }⟩
  rw [← hentries]
  exact o.ownedEntries_congr (ArtifactSet.paths_addAll_congr {} (by simp [hpaths, Function.comp_def]))

/-- All builds from the same sources list the same files. -/
theorem entries_of_steps (p : ModulePlan o start) (steps : BuildSteps o tree b)
    (hscan : o.scan start = .ok steps.scanned) : steps.entries = p.entries := by
  have hscanned : p.scanned = steps.scanned := Except.ok.inj (p.scan_eq.symm.trans hscan)
  have hfiles : p.files = steps.files := by
    have hemit := p.emit_eq
    rw [hscanned, ← steps.module_eq, steps.emit_eq] at hemit
    exact (Except.ok.inj hemit).symm
  have hentries := p.entries_eq steps.typeIds.text steps.dependencies.text
  rw [hfiles, steps.entries_eq] at hentries
  exact Except.ok.inj hentries

theorem name_eq (p : ModulePlan o start) (ho : o.Standard) : p.module.name = o.packageName := by
  have hname := (RunOptions.isScanned_of_scan p.scan_eq).name_eq
  rw [ho.trim_packageName] at hname
  exact p.scanned.name_resolve.trans hname

theorem enumeratorName (p : ModulePlan o start) (ho : o.Standard) :
    ∀ id ∈ p.module.entries.map (·.id), EnumeratorName id := by
  have hname : Text.isIdentifier o.packageName.trim = true := by
    rw [ho.trim_packageName]
    exact ho.layout.module
  exact (RunOptions.isScanned_of_scan p.scan_eq).enumeratorName hname p.acyclic

/-- A tree that holds what a plan says, with the given contents of the tables. -/
structure InPlace (p : ModulePlan o start) (tree : FileTree) (ids deps : TableContents) : Prop where
  artifacts : ∀ file ∈ (ArtifactSet.addAll {} p.files).files, tree.contentAt (FilePath.parse file.1) = some file.2
  manifest : tree.contentAt o.layout.manifestPlace = some (o.manifestOf p.entries).encode
  typeIds : tree.contentAt (o.layout.tablePlace "type_ids.ar.h") = some ids.text
  dependencies : tree.contentAt (o.layout.tablePlace "dependency_tree.ar.h") = some deps.text
  idBlock : p.idBlock ∈ ids.blocks
  dependencyBlock : p.dependencyBlock ∈ deps.blocks

theorem InPlace.load_ok {p : ModulePlan o start} {ids deps : TableContents} (h : p.InPlace tree ids deps)
    (ho : o.Standard) (htree : tree.WellFormed) : Manifest.load tree o.manifest = .ok (o.manifestOf p.entries) := by
  rw [ho.manifest]
  exact Manifest.load_of_content htree ho.normal_manifest p.decodes h.manifest

/-- **A plan stays in place** if its own files stay and its blocks stay in the tables. -/
theorem InPlace.keep {p : ModulePlan o start} {ids deps ids' deps' : TableContents} (h : p.InPlace tree ids deps)
    (ho : o.Standard) {after : FileTree}
    (hkept : ∀ place, o.layout.packagePlace.IsAbove place → (∀ name, place ≠ o.layout.tablePlace name) →
      after.contentAt place = tree.contentAt place)
    (hids : after.contentAt (o.layout.tablePlace "type_ids.ar.h") = some ids'.text)
    (hdeps : after.contentAt (o.layout.tablePlace "dependency_tree.ar.h") = some deps'.text)
    (hidBlock : p.idBlock ∈ ids'.blocks) (hdependencyBlock : p.dependencyBlock ∈ deps'.blocks) :
    p.InPlace after ids' deps' where
  artifacts := by
    intro file hfile
    obtain ⟨place, hplace, heq⟩ :=
      Module.artifactPlace_of_mem_paths p.names ho.layout p.emit_eq (List.mem_map_of_mem hfile)
    have hparse : FilePath.parse file.1 = place := by
      rw [heq, FilePath.parse_render (hplace.normal ho.layout)]
    rw [← h.artifacts file hfile, hparse]
    exact hkept place hplace.isAbove hplace.ne_table
  manifest := by
    rw [← h.manifest]
    exact hkept _ o.layout.isAbove_manifest o.layout.manifest_ne_table
  typeIds := hids
  dependencies := hdeps
  idBlock := hidBlock
  dependencyBlock := hdependencyBlock

/-- The tables as a build would write them are the tables that are there. -/
theorem InPlace.updates_ok {p : ModulePlan o start} {ids deps : TableContents} (h : p.InPlace tree ids deps)
    (ho : o.Standard) (htree : tree.WellFormed) (hids : ids.Sound) (hdeps : deps.Sound) :
    (∃ u, updateTypeIds tree o.layout.typeIds p.module.name (p.module.entries.map (·.id)) = .ok u ∧ u.text = ids.text) ∧
    ∃ u, updateDependencies tree o.layout.dependencies p.module.name p.module.dependencies = .ok u ∧
      u.text = deps.text := by
  rw [updateTypeIds_eq, updateDependencies_eq, ho.layout.typeIds_eq, ho.layout.dependencies_eq]
  constructor
  · have hnormal : (o.layout.tablePlace "type_ids.ar.h").Normal := Layout.TablePlace.normal (Or.inl rfl)
    exact SharedTable.update_of_mem hids htree hnormal h.typeIds (p.enumeratorName ho) h.idBlock
  · have hnormal : (o.layout.tablePlace "dependency_tree.ar.h").Normal := Layout.TablePlace.normal (Or.inr rfl)
    exact SharedTable.update_of_mem hdeps htree hnormal h.dependencies trivial h.dependencyBlock

/-- **Where a plan is in place there is nothing to change.** -/
theorem InPlace.changes_eq_nil {p : ModulePlan o start} {ids deps : TableContents} (h : p.InPlace tree ids deps)
    (ho : o.Standard) (htree : tree.WellFormed) (hids : ids.Sound) (hdeps : deps.Sound)
    (hscan : o.scan tree = .ok p.scanned) :
    ∃ b, (o.build tree).outcome = .ok b ∧ b.set.changes tree = .ok [] := by
  obtain ⟨⟨u, hu, hutext⟩, v, hv, hvtext⟩ := h.updates_ok ho htree hids hdeps
  -- the build that follows the plan again, with the tables as they are
  let b : Build :=
    { options := o
      module := p.module
      set := o.completed (o.layout.produced p.files u.text v.text) (o.manifestOf p.entries) p.entries }
  let steps : BuildSteps o tree b :=
    { scanned := p.scanned, files := p.files, typeIds := u, dependencies := v, earlier := o.manifestOf p.entries
      entries := p.entries, scan_eq := hscan, acyclic := p.acyclic, module_eq := rfl, emit_eq := p.emit_eq
      typeIds_eq := hu, dependencies_eq := hv, earlier_eq := h.load_ok ho htree, entries_eq := p.entries_eq _ _
      options_eq := rfl, set_eq := rfl }
  have hm : b.module.HasFileNames := p.names
  refine ⟨b, RunOptions.build_ok_iff.mpr ⟨steps⟩, ?_⟩
  apply ArtifactSet.changes_eq_nil (steps.ordered_remaining.add _ _) htree
  · intro file hfile
    rcases (steps.mem_files_iff ho hm).mp hfile with rfl | rfl | rfl | hfile
    · rw [ho.parse_manifest]
      exact h.manifest
    · rw [ho.layout.parse_typeIds, h.typeIds]
      exact congrArg some hutext.symm
    · rw [ho.layout.parse_dependencies, h.dependencies]
      exact congrArg some hvtext.symm
    · exact h.artifacts file hfile
  · have hremoved := steps.removed_eq_nil ho fun entry hentry => RunOptions.mem_manifestOf.mp hentry
    have hnone : ∀ path, path ∉ b.set.removed := by simp [hremoved]
    exact fun path hpath => absurd hpath (hnone path)

end ModulePlan

/-! ## §2 Modules that share their output -/

/-- What a build writes is apart from what is below the directory of another module, but for the tables. -/
theorem BuildSteps.apart_of_ne {o : RunOptions} {tree : FileTree} {b : Build} (steps : BuildSteps o tree b)
    (ho : o.Standard) (hm : b.module.HasFileNames) {l : Layout} (hroot : l.root = o.layout.root)
    (hne : l.module ≠ o.layout.module) {place : FilePath} (hplace : l.packagePlace.IsAbove place)
    (htable : ∀ name, place ≠ l.tablePlace name) : ∀ path ∈ b.set.paths, FilePath.parse path ≠ place := by
  have hbase : l.base = o.layout.base := congrArg FilePath.parse hroot
  have hown : ¬ o.layout.packagePlace.IsAbove place := fun h => hne (Layout.module_eq_of_isAbove hbase hplace h)
  have htable' : ¬ o.layout.TablePlace place := by
    rintro (rfl | rfl)
    · exact htable "type_ids.ar.h" (by rw [Layout.tablePlace, Layout.tablePlace, hbase])
    · exact htable "dependency_tree.ar.h" (by rw [Layout.tablePlace, Layout.tablePlace, hbase])
  rintro path hpath rfl
  rcases (steps.mem_paths ho hm).mp hpath with rfl | hpath
  · rw [ho.parse_manifest] at hown
    exact hown o.layout.isAbove_manifest
  · obtain ⟨place, hnormal, rfl, hplace | hplace⟩ := Module.place_of_mem_produced hm ho.layout steps.emit_eq hpath
    · rw [FilePath.parse_render hnormal] at hown
      exact hown hplace.isAbove
    · rw [FilePath.parse_render hnormal] at htable'
      exact htable' hplace

/-- Modules that share an output directory: each has one set of options and a name that is an identifier, and at the
start there are neither tables nor manifests. The places of all sources are among the given ones. -/
structure SharedOutput (root : Text) (sources : FilePath → Prop) (start : FileTree) (modules : List Options) :
    Prop where
  wellFormed : start.WellFormed
  noTables : ∀ place, (⟨root, []⟩ : Layout).TablePlace place → start.contentAt place = none
  noManifests : ∀ o ∈ modules, start.contentAt (⟨root, o.packageName.trim⟩ : Layout).manifestPlace = none
  root : ∀ o ∈ modules, cleanPath o.output = root
  names : ∀ o ∈ modules, Text.isIdentifier o.packageName.trim = true
  manifests : ∀ o ∈ modules, o.manifest = []
  fixed : ∀ o ∈ modules, ∀ o' ∈ modules, o.packageName.trim = o'.packageName.trim → o = o'
  sources : ∀ o ∈ modules, ∀ run, o.normalize = .ok run → ∀ source ∈ run.sources start, sources (FilePath.parse source)

theorem SharedOutput.mono {root : Text} {sources : FilePath → Prop} {start : FileTree} {modules modules' : List Options}
    (h : SharedOutput root sources start modules) (hmem : ∀ o ∈ modules', o ∈ modules) :
    SharedOutput root sources start modules' where
  wellFormed := h.wellFormed
  noTables := h.noTables
  noManifests := fun o ho => h.noManifests o (hmem o ho)
  root := fun o ho => h.root o (hmem o ho)
  names := fun o ho => h.names o (hmem o ho)
  manifests := fun o ho => h.manifests o (hmem o ho)
  fixed := fun o ho o' ho' => h.fixed o (hmem o ho) o' (hmem o' ho')
  sources := fun o ho => h.sources o (hmem o ho)

/-- What holds after some runs: the plans of all modules that have run are in place. -/
structure SharedState (root : Text) (sources : FilePath → Prop) (start : FileTree) (ran : List Options)
    (tree : FileTree) (ids deps : TableContents) : Prop where
  wellFormed : tree.WellFormed
  sources : ∀ place, sources place → tree.contentAt place = start.contentAt place
  idTable : typeIdsTable.Holds tree ((⟨root, []⟩ : Layout).tablePlace "type_ids.ar.h") ids
  dependencyTable : dependenciesTable.Holds tree ((⟨root, []⟩ : Layout).tablePlace "dependency_tree.ar.h") deps
  plans : ∀ o ∈ ran, ∃ run, o.normalize = .ok run ∧ ∃ p : ModulePlan run start, p.InPlace tree ids deps
  manifests : ∀ name, (∀ o ∈ ran, o.packageName.trim ≠ name) →
    tree.contentAt (⟨root, name⟩ : Layout).manifestPlace = start.contentAt (⟨root, name⟩ : Layout).manifestPlace

/-- **Before the first run** there are no plans, and the tables are those without modules. -/
theorem SharedOutput.state {root : Text} {sources : FilePath → Prop} {start : FileTree} {modules : List Options}
    (h : SharedOutput root sources start modules) :
    SharedState root sources start [] start typeIdsTable.empty dependenciesTable.empty where
  wellFormed := h.wellFormed
  sources := fun _ _ => rfl
  idTable := ⟨typeIdsTable.sound, Or.inr ⟨h.noTables _ (Or.inl rfl), rfl⟩⟩
  dependencyTable := ⟨dependenciesTable.sound, Or.inr ⟨h.noTables _ (Or.inr rfl), rfl⟩⟩
  plans := by simp
  manifests := fun _ _ => rfl

section Run

variable {root : Text} {sources : FilePath → Prop} {start before : FileTree} {ran : List Options} {o : Options}
  {run : RunOptions} {b : Build} {ids deps : TableContents}

theorem SharedOutput.standard {modules : List Options} (h : SharedOutput root sources start modules) (ho : o ∈ modules)
    (hrun : o.normalize = .ok run) : run.Standard :=
  Options.standard_of_normalize (h.names o ho) (h.manifests o ho) hrun

theorem SharedOutput.layout_eq {modules : List Options} (h : SharedOutput root sources start modules) (ho : o ∈ modules)
    (hrun : o.normalize = .ok run) : run.layout = ⟨root, o.packageName.trim⟩ := by
  rw [Options.tidied_of_normalize hrun, ← h.root o ho]
  rfl

/-- All modules have their tables at the same places. -/
theorem SharedOutput.tablePlace_eq {modules : List Options} (h : SharedOutput root sources start modules)
    (ho : o ∈ modules) (hrun : o.normalize = .ok run) (name : Text) :
    (⟨root, []⟩ : Layout).tablePlace name = run.layout.tablePlace name := by
  rw [h.layout_eq ho hrun]
  rfl

/-- What a plan says about the scan still holds after other runs, which leave the sources alone. -/
theorem SharedState.scan_plan (h : SharedState root sources start ran before ids deps) {modules : List Options}
    (hout : SharedOutput root sources start modules) (ho : o ∈ modules) (hrun : o.normalize = .ok run)
    (p : ModulePlan run start) : run.scan before = .ok p.scanned := by
  have hstandard := hout.standard ho hrun
  refine RunOptions.scan_congr hout.wellFormed h.wellFormed hstandard.configList hstandard.source ?_ p.scan_eq
  intro source hsource
  exact h.sources _ (hout.sources o ho run hrun source hsource)

/-- A module is scanned from its sources as they were at the start. -/
theorem SharedState.scan_start (h : SharedState root sources start ran before ids deps)
    (hout : SharedOutput root sources start (o :: ran)) (hrun : o.normalize = .ok run)
    (steps : BuildSteps run before b) : run.scan start = .ok steps.scanned := by
  have hstandard := hout.standard List.mem_cons_self hrun
  have hsame : ∀ source ∈ run.sources start,
      start.contentAt (FilePath.parse source) = before.contentAt (FilePath.parse source) := by
    intro source hsource
    exact (h.sources _ (hout.sources o List.mem_cons_self run hrun source hsource)).symm
  have hsources := RunOptions.sources_congr h.wellFormed hout.wellFormed hstandard.configList
    (hsame _ List.mem_cons_self) steps.scan_eq
  -- the config list is the same, and so the headers have the same names now as at the start
  rw [hsources] at hsame
  exact RunOptions.scan_congr h.wellFormed hout.wellFormed hstandard.configList hstandard.source hsame steps.scan_eq

/-- A module that has run before has its plan in place, and one that has not has no manifest. -/
theorem SharedState.inPlace_or_nothing (h : SharedState root sources start ran before ids deps)
    (hout : SharedOutput root sources start (o :: ran)) (hrun : o.normalize = .ok run) :
    (∃ p : ModulePlan run start, p.InPlace before ids deps) ∨
      before.contentAt run.layout.manifestPlace = none := by
  by_cases hran : ∃ o' ∈ ran, o'.packageName.trim = o.packageName.trim
  · obtain ⟨o', ho', hname⟩ := hran
    obtain rfl : o' = o := hout.fixed o' (List.mem_cons_of_mem _ ho') o List.mem_cons_self hname
    obtain ⟨run', hrun', hplan⟩ := h.plans o' ho'
    obtain rfl : run' = run := Except.ok.inj (hrun'.symm.trans hrun)
    exact Or.inl hplan
  · refine Or.inr ?_
    rw [hout.layout_eq List.mem_cons_self hrun, h.manifests _ fun o' ho' hname => hran ⟨o', ho', hname⟩]
    exact hout.noManifests o List.mem_cons_self

/-- A module that has run before lists the same files again, and one that has not lists none. -/
theorem SharedState.earlier_listed (h : SharedState root sources start ran before ids deps)
    (hout : SharedOutput root sources start (o :: ran)) (hrun : o.normalize = .ok run)
    (steps : BuildSteps run before b) : ∀ entry ∈ steps.earlier.files, entry ∈ steps.entries := by
  have hstandard := hout.standard List.mem_cons_self hrun
  have hload := steps.earlier_eq
  rcases h.inPlace_or_nothing hout hrun with ⟨p, hplace⟩ | hnone
  · rw [hplace.load_ok hstandard h.wellFormed] at hload
    have hearlier : run.manifestOf p.entries = steps.earlier := Except.ok.inj hload
    intro entry hentry
    rw [← hearlier, RunOptions.mem_manifestOf] at hentry
    rw [p.entries_of_steps steps (h.scan_start hout hrun steps)]
    exact hentry
  · rw [hstandard.manifest] at hload
    rw [Manifest.load_of_nothing h.wellFormed hstandard.normal_manifest hnone hload]
    simp

/-- What a run writes to a table: its block, besides what is there. -/
theorem SharedState.table_texts (h : SharedState root sources start ran before ids deps)
    (hout : SharedOutput root sources start (o :: ran)) (hrun : o.normalize = .ok run)
    (steps : BuildSteps run before b) (p : ModulePlan run start) (hp : p.scanned = steps.scanned) :
    steps.typeIds.text = (ids.withBlock p.idBlock.name p.idBlock.lines).text ∧
      steps.dependencies.text = (deps.withBlock p.dependencyBlock.name p.dependencyBlock.lines).text := by
  have hstandard := hout.standard List.mem_cons_self hrun
  have hmodule : b.module = p.module := by
    rw [steps.module_eq, ← hp]
    rfl
  have htypeIds := steps.typeIds_eq
  have hdependencies := steps.dependencies_eq
  rw [updateTypeIds_eq, hstandard.layout.typeIds_eq, hmodule] at htypeIds
  rw [updateDependencies_eq, hstandard.layout.dependencies_eq, hmodule] at hdependencies
  have hidTable := h.idTable
  have hdependencyTable := h.dependencyTable
  rw [hout.tablePlace_eq List.mem_cons_self hrun] at hidTable hdependencyTable
  constructor
  · have hnormal : (run.layout.tablePlace "type_ids.ar.h").Normal := Layout.TablePlace.normal (Or.inl rfl)
    exact hidTable.update_text h.wellFormed hnormal (p.enumeratorName hstandard) htypeIds
  · have hnormal : (run.layout.tablePlace "dependency_tree.ar.h").Normal := Layout.TablePlace.normal (Or.inr rfl)
    exact hdependencyTable.update_text h.wellFormed hnormal trivial hdependencies

/-- **A run puts its own plan in place.** -/
theorem ModulePlan.inPlace_of_committed (hstandard : run.Standard) (steps : BuildSteps run before b)
    (hscan : run.scan start = .ok steps.scanned) (hm : b.module.HasFileNames)
    (hdecode : Manifest.decode? (run.manifestOf steps.entries).encode = some (run.manifestOf steps.entries))
    {after : FileTree} (hafter : b.set.Committed before after) {ids' deps' : TableContents}
    (hids : steps.typeIds.text = ids'.text) (hdeps : steps.dependencies.text = deps'.text)
    (hidBlock : (ofSteps steps hscan hm hdecode).idBlock ∈ ids'.blocks)
    (hdependencyBlock : (ofSteps steps hscan hm hdecode).dependencyBlock ∈ deps'.blocks) :
    (ofSteps steps hscan hm hdecode).InPlace after ids' deps' where
  artifacts := by
    intro file hfile
    apply hafter.produced
    exact (steps.mem_files_iff hstandard hm).mpr (Or.inr (Or.inr (Or.inr hfile)))
  manifest := by
    rw [← hstandard.parse_manifest]
    exact hafter.produced (run.manifest, _) ((steps.mem_files_iff hstandard hm).mpr (Or.inl rfl))
  typeIds := by
    rw [← hstandard.layout.parse_typeIds, ← hids]
    exact hafter.produced (_, _) ((steps.mem_files_iff hstandard hm).mpr (Or.inr (Or.inl rfl)))
  dependencies := by
    rw [← hstandard.layout.parse_dependencies, ← hdeps]
    exact hafter.produced (_, _) ((steps.mem_files_iff hstandard hm).mpr (Or.inr (Or.inr (Or.inl rfl))))
  idBlock := hidBlock
  dependencyBlock := hdependencyBlock

/-- A run takes nothing away, so that what it does not write stays as it was. -/
theorem SharedState.kept (h : SharedState root sources start ran before ids deps)
    (hout : SharedOutput root sources start (o :: ran)) (hrun : o.normalize = .ok run) (steps : BuildSteps run before b)
    {after : FileTree} (hafter : b.set.Committed before after) {place : FilePath}
    (hplace : ∀ path ∈ b.set.paths, FilePath.parse path ≠ place) : after.contentAt place = before.contentAt place := by
  have hremoved := steps.removed_eq_nil (hout.standard List.mem_cons_self hrun) (h.earlier_listed hout hrun steps)
  exact hafter.rest place hplace (by rw [hremoved]; simp)

/-- **The directories of other modules** stay as they were: another module has another name. -/
theorem SharedState.kept_of_ne (h : SharedState root sources start ran before ids deps)
    (hout : SharedOutput root sources start (o :: ran)) (hrun : o.normalize = .ok run) (steps : BuildSteps run before b)
    (hm : b.module.HasFileNames) {after : FileTree} (hafter : b.set.Committed before after) {l : Layout}
    (hroot : l.root = root) (hne : l.module ≠ o.packageName.trim) {place : FilePath}
    (hplace : l.packagePlace.IsAbove place) (htable : ∀ name, place ≠ l.tablePlace name) :
    after.contentAt place = before.contentAt place := by
  have hlayout := hout.layout_eq List.mem_cons_self hrun
  apply h.kept hout hrun steps hafter
  apply steps.apart_of_ne (hout.standard List.mem_cons_self hrun) hm _ _ hplace htable
  · rw [hlayout, hroot]
  · rw [hlayout]
    exact hne

/-- **The plans of other modules stay in place**: their files stay, and so do their blocks in the tables. -/
theorem SharedState.inPlace_of_ne (h : SharedState root sources start ran before ids deps)
    (hout : SharedOutput root sources start (o :: ran)) (hrun : o.normalize = .ok run) (steps : BuildSteps run before b)
    (hm : b.module.HasFileNames) {after : FileTree} (hafter : b.set.Committed before after) {p : ModulePlan run start}
    (hown : p.InPlace after (ids.withBlock p.idBlock.name p.idBlock.lines)
      (deps.withBlock p.dependencyBlock.name p.dependencyBlock.lines))
    {o' : Options} (ho' : o' ∈ o :: ran) (hne : o' ≠ o) {run' : RunOptions} (hrun' : o'.normalize = .ok run')
    {p' : ModulePlan run' start} (hother : p'.InPlace before ids deps) :
    p'.InPlace after (ids.withBlock p.idBlock.name p.idBlock.lines)
      (deps.withBlock p.dependencyBlock.name p.dependencyBlock.lines) := by
  have hstandard' := hout.standard ho' hrun'
  have hlayout' := hout.layout_eq ho' hrun'
  have htrim : o'.packageName.trim ≠ o.packageName.trim := fun hname =>
    hne (hout.fixed o' ho' o List.mem_cons_self hname)
  have htable : ∀ name, run'.layout.tablePlace name = run.layout.tablePlace name := fun name =>
    (hout.tablePlace_eq ho' hrun' name).symm.trans (hout.tablePlace_eq List.mem_cons_self hrun name)
  have hname : p'.module.name ≠ p.module.name := by
    rw [p'.name_eq hstandard', p.name_eq (hout.standard List.mem_cons_self hrun)]
    show run'.layout.module ≠ run.layout.module
    rw [hlayout', hout.layout_eq List.mem_cons_self hrun]
    exact htrim
  -- modules of two names share nothing but the tables, and in these each has a block of its own
  apply hother.keep hstandard'
  · intro place hplace hnoTable
    exact h.kept_of_ne hout hrun steps hm hafter (by rw [hlayout']) (by rw [hlayout']; exact htrim) hplace hnoTable
  · rw [htable]
    exact hown.typeIds
  · rw [htable]
    exact hown.dependencies
  · exact TableContents.mem_blocks_withBlock_of_ne h.idTable.sound hother.idBlock hname
  · exact TableContents.mem_blocks_withBlock_of_ne h.dependencyTable.sound hother.dependencyBlock hname

/-- **A run puts its plan in place and leaves the others.** -/
theorem SharedState.generated (h : SharedState root sources start ran before ids deps)
    (hout : SharedOutput root sources start (o :: ran)) (hrun : o.normalize = .ok run) (steps : BuildSteps run before b)
    (hm : b.module.HasFileNames)
    (hdecode : Manifest.decode? (run.manifestOf steps.entries).encode = some (run.manifestOf steps.entries))
    (hapart : ∀ path ∈ b.set.paths, ¬ sources (FilePath.parse path)) {after : FileTree}
    (hafter : b.set.Committed before after) :
    ∃ ids' deps', SharedState root sources start (o :: ran) after ids' deps' := by
  have hstandard := hout.standard List.mem_cons_self hrun
  have hscan := h.scan_start hout hrun steps
  let p := ModulePlan.ofSteps steps hscan hm hdecode
  obtain ⟨hids, hdeps⟩ := h.table_texts hout hrun steps p rfl
  have hname : Text.isIdentifier p.module.name = true := by
    rw [p.name_eq hstandard]
    exact hstandard.layout.module
  have hidsSound := h.idTable.sound.withBlock hname (typeIdsTable.inner p.module.name _ (p.enumeratorName hstandard))
  have hdepsSound := h.dependencyTable.sound.withBlock hname
    (dependenciesTable.inner p.module.name p.module.dependencies trivial)
  have hown := ModulePlan.inPlace_of_committed hstandard steps hscan hm hdecode hafter hids hdeps
    (TableContents.mem_blocks_withBlock h.idTable.sound _ _)
    (TableContents.mem_blocks_withBlock h.dependencyTable.sound _ _)
  have htable := hout.tablePlace_eq List.mem_cons_self hrun
  refine ⟨_, _, hafter.wellFormed, ?_, ⟨hidsSound, Or.inl ?_⟩, ⟨hdepsSound, Or.inl ?_⟩, ?_, ?_⟩
  · intro place hplace
    rw [← h.sources place hplace]
    exact h.kept hout hrun steps hafter fun path hpath heq => hapart path hpath (heq ▸ hplace)
  · rw [htable]
    exact hown.typeIds
  · rw [htable]
    exact hown.dependencies
  · intro o' ho'
    by_cases heq : o' = o
    · exact ⟨run, heq ▸ hrun, p, hown⟩
    · -- a module with other options has run before, since only this one is new
      have hran : o' ∈ ran := by
        rcases List.mem_cons.mp ho' with h | h
        · exact absurd h heq
        · exact h
      obtain ⟨run', hrun', p', hother⟩ := h.plans o' hran
      exact ⟨run', hrun', p', h.inPlace_of_ne hout hrun steps hm hafter hown ho' heq hrun' hother⟩
  · intro name hnames
    rw [← h.manifests name fun o' ho' => hnames o' (List.mem_cons_of_mem _ ho')]
    have hne : name ≠ o.packageName.trim := Ne.symm (hnames o List.mem_cons_self)
    exact h.kept_of_ne hout hrun steps hm hafter rfl hne (Layout.isAbove_manifest _) (Layout.manifest_ne_table _)

end Run

/-! ## §3 Runs -/

/-- Runs of modules that all succeed, the latest first: the options of the runs, and the file tree after them. Class
names are names of files, manifests can be read back, and no run writes to a source. -/
inductive GenerationRuns (sources : FilePath → Prop) (start : FileTree) : List Options → FileTree → Prop where
  | nothing : GenerationRuns sources start [] start
  | run {ran : List Options} {before : FileTree} {o : Options} {build : Build} {changes : List Change}
      (earlier : GenerationRuns sources start ran before) (built : (o.build before).outcome = .ok build)
      (names : build.module.HasFileNames)
      (decodes : ∀ m, build.recorded = .ok m → Manifest.decode? m.encode = some m)
      (apart : ∀ path ∈ build.set.paths, ¬ sources (FilePath.parse path))
      (written : (o.generate before).2.outcome = .ok changes) :
      GenerationRuns sources start (o :: ran) (o.generate before).1

section

variable {root : Text} {sources : FilePath → Prop} {start finish : FileTree} {ran : List Options}

/-- **All runs** leave the plans of their modules in place, and obstruct nothing. -/
theorem GenerationRuns.state (h : GenerationRuns sources start ran finish)
    (hout : SharedOutput root sources start ran) :
    (∃ ids deps, SharedState root sources start ran finish ids deps) ∧
      (Unobstructed root start → Unobstructed root finish) := by
  -- what the earlier runs have left behind is what the last one finds
  induction h with
  | nothing => exact ⟨⟨_, _, hout.state⟩, id⟩
  | @run ran before o build changes earlier built names decodes apart written ih =>
    obtain ⟨⟨ids, deps, hstate⟩, hfree⟩ := ih (hout.mono fun o' ho' => List.mem_cons_of_mem _ ho')
    obtain ⟨run, hrun⟩ := Options.normalize_of_build built
    obtain ⟨steps⟩ := Options.exists_steps hrun built
    have hstandard := hout.standard List.mem_cons_self hrun
    have htidy := steps.tidy_of_listed hstandard names (hstate.earlier_listed hout hrun steps)
    have hcommitted := Options.committed_of_generate htidy hstate.wellFormed built written
    refine ⟨hstate.generated hout hrun steps names (decodes _ (steps.recorded_eq hstandard)) apart hcommitted, ?_⟩
    rw [hout.layout_eq List.mem_cons_self hrun] at htidy
    exact fun hstart => (hfree hstart).committed htidy hcommitted

/-- **There can always be another run**: a module whose sources can be scanned and resolved is generated after any
runs, unless something was in the way from the start. -/
theorem GenerationRuns.extend {o : Options} (h : GenerationRuns sources start ran finish)
    (hout : SharedOutput root sources start (o :: ran)) (hfree : Unobstructed root start)
    (hsources : ∀ place, sources place → ¬ ((FilePath.parse root).below ["packages"]).IsAbove place) {run : RunOptions}
    (hrun : o.normalize = .ok run) (p : ModulePlan run start) :
    ∃ after, GenerationRuns sources start (o :: ran) after := by
  obtain ⟨⟨ids, deps, hstate⟩, hfinish⟩ := h.state (hout.mono fun o' ho' => List.mem_cons_of_mem _ ho')
  have hstandard := hout.standard List.mem_cons_self hrun
  have hlayout := hout.layout_eq List.mem_cons_self hrun
  have hroot : run.output = root := congrArg Layout.root hlayout
  have hfree' : Unobstructed run.output finish := by
    rw [hroot]
    exact hfinish hfree
  have hscan := hstate.scan_plan hout List.mem_cons_self hrun p
  have hearlier : ∃ earlier, Manifest.load finish run.manifest = .ok earlier := by
    rcases hstate.inPlace_or_nothing hout hrun with ⟨p', hplace⟩ | hnone
    · exact ⟨_, hplace.load_ok hstandard hstate.wellFormed⟩
    · refine ⟨{}, ?_⟩
      rw [hstandard.manifest]
      apply Manifest.load_of_writable hstate.wellFormed hstandard.normal_manifest hnone
      exact hfree' _ (Layout.isAbove_of_packagePlace run.layout.isAbove_manifest) hstandard.layout.outputPlace_manifest
  obtain ⟨earlier, hearlier⟩ := hearlier
  have hids := hstate.idTable
  have hdeps := hstate.dependencyTable
  rw [hout.tablePlace_eq List.mem_cons_self hrun] at hids hdeps
  obtain ⟨b, steps, hscanned, -⟩ := RunOptions.exists_steps_of_scan hstandard hstate.wellFormed hfree' hscan p.acyclic
    p.names hids hdeps hearlier
  have hm : b.module.HasFileNames := by
    rw [steps.module_eq, hscanned]
    exact p.names
  obtain ⟨hbuild, changes, hchanges⟩ := Options.generate_succeeds hrun hstandard hstate.wellFormed hfree' steps hm
    (hstate.earlier_listed hout hrun steps)
  -- the manifest lists what the plan says, and what is written stands apart from the sources
  refine ⟨_, h.run hbuild hm ?_ ?_ hchanges⟩
  · intro m hrecorded
    rw [steps.recorded_eq hstandard] at hrecorded
    cases hrecorded
    rw [p.entries_of_steps steps (hstate.scan_start hout hrun steps)]
    exact p.decodes
  · intro path hpath hsource
    have hbelow := steps.isAbove_of_mem_paths hstandard hm hpath
    rw [hlayout] at hbelow
    exact hsources _ hsource hbelow

/-- **Any runs are possible** of modules whose sources determine a plan, if nothing is in the way. -/
theorem GenerationRuns.exists_of_plans (hout : SharedOutput root sources start ran) (hfree : Unobstructed root start)
    (hsources : ∀ place, sources place → ¬ ((FilePath.parse root).below ["packages"]).IsAbove place)
    (hplans : ∀ o ∈ ran, ∃ run, o.normalize = .ok run ∧ Nonempty (ModulePlan run start)) :
    ∃ finish, GenerationRuns sources start ran finish := by
  induction ran with
  | nil => exact ⟨start, .nothing⟩
  | cons o ran ih =>
    have hmem : ∀ o' ∈ ran, o' ∈ o :: ran := fun o' ho' => List.mem_cons_of_mem o ho'
    obtain ⟨finish, hruns⟩ := ih (hout.mono hmem) fun o' ho' => hplans o' (hmem o' ho')
    obtain ⟨run, hrun, ⟨p⟩⟩ := hplans o List.mem_cons_self
    exact hruns.extend hout hfree hsources hrun p

end

/-! ## §4 Two modules -/

/-- The sources of two modules: one has a class, and the other has no headers. -/
def twoModules : FileTree where
  nodes := [(⟨false, ["a.list"]⟩, .file "a.h\n"), (⟨false, ["a.h"]⟩, .file "AGEA_ar_class()\nclass a\n"),
    (⟨false, ["b.list"]⟩, .file "")]

/-- The options of one of the two modules. -/
def twoModulesOptions (name : Text) : Options := { packageName := name, configList := name ++ ".list" }

/-- The first module, the second one, and the first one again. -/
def twoModulesRuns : List Options := [twoModulesOptions "a", twoModulesOptions "b", twoModulesOptions "a"]

theorem twoModulesRuns_normalize {o : Options} (ho : o ∈ twoModulesRuns) :
    o.normalize = .ok { toOptions := o.tidied, patterns := [] } := by
  have hnames : ∀ o ∈ twoModulesRuns,
      o.packageName.isBlank = false ∧ o.configList.isBlank = false ∧ o.exclude = [] := by
    decide +kernel
  obtain ⟨hname, hlist, hexclude⟩ := hnames o ho
  unfold Options.normalize
  rw [hname, hlist, hexclude]
  rfl

theorem twoModules_sharedOutput :
    SharedOutput "." (· ∈ twoModules.nodes.map (·.1)) twoModules twoModulesRuns where
  wellFormed := FileTree.wellFormed_of_nodes (by decide +kernel)
  noTables := by
    rintro place (rfl | rfl) <;> decide +kernel
  noManifests := by decide +kernel
  root := by decide +kernel
  names := by decide +kernel
  manifests := by decide +kernel
  fixed := by decide +kernel
  sources := by
    intro o ho run hrun
    rw [twoModulesRuns_normalize ho] at hrun
    cases hrun
    revert o
    decide +kernel

/-- All of these runs succeed, and so do those of any part of them. -/
theorem twoModules_runs {ran : List Options} (hran : ∀ o ∈ ran, o ∈ twoModulesRuns) :
    ∃ finish, GenerationRuns (· ∈ twoModules.nodes.map (·.1)) twoModules ran finish := by
  have hout := twoModules_sharedOutput.mono hran
  apply GenerationRuns.exists_of_plans hout
  · exact Unobstructed.of_nothing hout.wellFormed (by decide +kernel) (by decide +kernel)
  · -- the sources stand beside the output, not in it
    have hlengths : ∀ place ∈ twoModules.nodes.map (·.1), place.parts.length = 1 := by decide +kernel
    rintro place hplace ⟨parts, hne, rfl⟩
    have hlength := hlengths _ hplace
    have hpos : 0 < parts.length := List.length_pos_iff.mpr hne
    simp only [FilePath.parts_below, List.length_append, List.length_singleton] at hlength
    omega
  · have hplans : ∀ o ∈ twoModulesRuns,
        ModulePlan.isDetermined { toOptions := o.tidied, patterns := [] } twoModules = true := by decide +kernel
    intro o ho
    exact ⟨_, twoModulesRuns_normalize (hran o ho), ModulePlan.nonempty_of_isDetermined (hplans o (hran o ho))⟩

/-! ## §5 Clean checks -/

/-- **Checks are clean**: after any successful runs of modules that share an output directory, in any order and as often
as one likes, a check of each of these modules succeeds and finds nothing to change. -/
theorem check_clean_after_runs {root : Text} {sources : FilePath → Prop} {start finish : FileTree} {ran : List Options}
    (hout : SharedOutput root sources start ran) (h : GenerationRuns sources start ran finish) :
    ∀ o ∈ ran, (o.check finish).outcome = .ok { changes := [] } := by
  intro o ho
  obtain ⟨⟨ids, deps, hstate⟩, -⟩ := h.state hout
  obtain ⟨run, hrun, p, hplace⟩ := hstate.plans o ho
  have hstandard := hout.standard ho hrun
  have hscan := hstate.scan_plan hout ho hrun p
  obtain ⟨b, hbuild, hchanges⟩ :=
    hplace.changes_eq_nil hstandard hstate.wellFormed hstate.idTable.sound hstate.dependencyTable.sound hscan
  rw [← Options.build_outcome hrun] at hbuild
  exact Options.check_of_build hbuild hchanges

/-- Two modules that are generated in turns: at the end the checks of both are clean. -/
theorem check_clean_of_two_modules :
    ∃ finish, GenerationRuns (· ∈ twoModules.nodes.map (·.1)) twoModules twoModulesRuns finish ∧
      ((twoModulesOptions "a").check finish).outcome = .ok { changes := [] } ∧
      ((twoModulesOptions "b").check finish).outcome = .ok { changes := [] } := by
  obtain ⟨finish, hruns⟩ := twoModules_runs fun _ ho => ho
  have hclean := check_clean_after_runs twoModules_sharedOutput hruns
  exact ⟨finish, hruns, hclean _ (by simp [twoModulesRuns]), hclean _ (by simp [twoModulesRuns])⟩

end HeaderReflection
