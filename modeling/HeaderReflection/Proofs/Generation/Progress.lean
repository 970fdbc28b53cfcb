import HeaderReflection.Proofs.Generation.Sources

/-!
# Progress

A run succeeds as soon as its module can be scanned and resolved, the tables are tables, the earlier manifest can be
loaded and nothing is in the way of the generated files. Nor does a run put anything in the way of later ones.

## Main definitions

- `SharedTable.Holds`: the contents of a table, in its file or before there is one.
- `Unobstructed`: nothing is in the way of generated files.

## Main results

- `SharedTable.Holds.update_text`, `SharedTable.Holds.update_ok`: what an update writes, and that it can be made.
- `RunOptions.exists_steps_of_scan`: a module that is scanned is built.
- `Options.generate_succeeds`: a module that is built is generated.
- `Unobstructed.committed`: a run obstructs nothing.
-/

namespace HeaderReflection

/-! ## §1 Shared tables -/

/-- The contents of a table: in its file, or those without modules before there is a file. -/
structure SharedTable.Holds (t : SharedTable) (tree : FileTree) (place : FilePath) (c : TableContents) : Prop where
  sound : c.Sound
  content : tree.contentAt place = some c.text ∨ tree.contentAt place = none ∧ c = t.empty

namespace SharedTable

variable {t : SharedTable} {tree : FileTree} {place : FilePath} {c : TableContents} {module : Text}
  {content : List Text}

/-- What an update writes, if it does not fail. -/
theorem Holds.update_text (h : t.Holds tree place c) (htree : tree.WellFormed) (hplace : place.Normal)
    (hcontent : t.admissible content) {u : TableUpdate} (hu : t.update tree place.render module content = .ok u) :
    u.text = (c.withBlock module (t.lines module content)).text := by
  rcases h.content with hstored | ⟨hnone, rfl⟩
  · have hread := (FileTree.read_eq_ok_iff htree hplace).mpr hstored
    have htext : (t.update tree place.render module content).map (·.text) = .ok _ :=
      t.update_stored h.sound hread hcontent
    rw [hu] at htext
    exact Except.ok.inj htext
  · -- without a file the update starts from the skeleton, or fails because something is in the way
    cases hread : tree.read place.render with
    | ok text =>
      rw [FileTree.read_eq_ok_iff htree hplace, hnone] at hread
      cases hread
    | error error =>
      by_cases hreason : error.reason = .notExist
      · have htext : (t.update tree place.render module content).map (·.text) = .ok _ :=
          t.update_absent hread hreason hcontent
        rw [hu] at htext
        exact Except.ok.inj htext
      · unfold update updateTable TableFile.load at hu
        rw [hread] at hu
        dsimp only at hu
        rw [if_neg hreason] at hu
        cases hu

/-- An update does not fail where a table has contents, or can be put. -/
theorem Holds.update_ok (h : t.Holds tree place c) (htree : tree.WellFormed) (hplace : place.Normal)
    (hfree : tree.Writable place) (hcontent : t.admissible content) :
    ∃ u, t.update tree place.render module content = .ok u := by
  have hok : ∀ {text : Text}, (t.update tree place.render module content).map (·.text) = .ok text →
      ∃ u, t.update tree place.render module content = .ok u := by
    intro text htext
    obtain ⟨u, hu, -⟩ := map_ok htext
    exact ⟨u, hu⟩
  rcases h.content with hstored | ⟨hnone, -⟩
  · exact hok (t.update_stored h.sound ((FileTree.read_eq_ok_iff htree hplace).mpr hstored) hcontent)
  · rcases FileTree.read_of_writable hplace hfree with ⟨text, hread⟩ | ⟨error, hread, hreason⟩
    · rw [FileTree.read_eq_ok_iff htree hplace, hnone] at hread
      cases hread
    · exact hok (t.update_absent hread hreason hcontent)

/-- Where a table has the block of a module already, an update changes nothing. -/
theorem update_of_mem (hc : c.Sound) (htree : tree.WellFormed) (hplace : place.Normal)
    (hstored : tree.contentAt place = some c.text) (hcontent : t.admissible content)
    (hblock : ⟨module, t.lines module content⟩ ∈ c.blocks) :
    ∃ u, t.update tree place.render module content = .ok u ∧ u.text = c.text := by
  have hread := (FileTree.read_eq_ok_iff htree hplace).mpr hstored
  have htext : (t.update tree place.render module content).map (·.text) = .ok _ := t.update_stored hc hread hcontent
  rw [TableContents.withBlock_of_mem hc hblock] at htext
  exact map_ok htext

end SharedTable

/-! ## §2 Nothing in the way -/

/-- All generated files can be put below an output directory. -/
def Unobstructed (root : Text) (tree : FileTree) : Prop :=
  ∀ place, ((FilePath.parse root).below ["packages"]).IsAbove place → OutputPlace (FilePath.parse root) place →
    tree.Writable place

/-- **Nothing is in the way** of an output directory in which nothing has been put yet. -/
theorem Unobstructed.of_nothing {root : Text} {tree : FileTree} (htree : tree.WellFormed)
    (hroot : tree.node? (FilePath.parse root) = some .directory)
    (hnothing : tree.node? ((FilePath.parse root).below ["packages"]) = none) : Unobstructed root tree := by
  intro place habove _
  constructor
  · intro dir hdir content hfile
    rcases hdir.total habove with rfl | h | h
    · rw [hnothing] at hfile
      cases hfile
    · rcases FilePath.isAbove_name_iff.mp h with rfl | h
      · rw [hroot] at hfile
        cases hfile
      · rw [htree _ _ hroot dir h] at hfile
        cases hfile
    · rw [htree.nothing_below hnothing h] at hfile
      cases hfile
  · rw [htree.nothing_below hnothing habove]
    simp

theorem Layout.isAbove_of_packagePlace {l : Layout} {place : FilePath} (h : l.packagePlace.IsAbove place) :
    (l.base.below ["packages"]).IsAbove place := by
  refine FilePath.IsAbove.trans ⟨[l.module], by simp, ?_⟩ h
  rw [Layout.packagePlace, FilePath.below_below]
  rfl

theorem Layout.TablePlace.isAbove {l : Layout} {place : FilePath} (h : l.TablePlace place) :
    (l.base.below ["packages"]).IsAbove place := by
  rcases h with rfl | rfl
  · exact ⟨["glue", "public", "include", "glue", "type_ids.ar.h"], by simp, by rw [FilePath.below_below]; rfl⟩
  · exact ⟨["glue", "public", "include", "glue", "dependency_tree.ar.h"], by simp, by rw [FilePath.below_below]; rfl⟩

/-- All that a build writes is below one directory. -/
theorem BuildSteps.isAbove_of_mem_paths {o : RunOptions} {tree : FileTree} {b : Build} (steps : BuildSteps o tree b)
    (ho : o.Standard) (hm : b.module.HasFileNames) {path : Text} (h : path ∈ b.set.paths) :
    (o.layout.base.below ["packages"]).IsAbove (FilePath.parse path) := by
  rcases (steps.mem_paths ho hm).mp h with rfl | h
  · rw [ho.parse_manifest]
    exact Layout.isAbove_of_packagePlace o.layout.isAbove_manifest
  · obtain ⟨place, hnormal, rfl, hplace | hplace⟩ := Module.place_of_mem_produced hm ho.layout steps.emit_eq h
    · rw [FilePath.parse_render hnormal]
      exact Layout.isAbove_of_packagePlace hplace.isAbove
    · rw [FilePath.parse_render hnormal]
      exact hplace.isAbove

/-- **A run obstructs nothing.** -/
theorem Unobstructed.committed {root : Text} {tree after : FileTree} (h : Unobstructed root tree) {s : ArtifactSet}
    (hs : s.Tidy (FilePath.parse root)) (hafter : s.Committed tree after) : Unobstructed root after :=
  fun place hbelow hplace => hafter.writable hs hplace (h place hbelow hplace)

/-! ## §3 Builds and generations -/

/-- **A module that is scanned is built.** -/
theorem RunOptions.exists_steps_of_scan {o : RunOptions} (ho : o.Standard) {tree : FileTree} (htree : tree.WellFormed)
    (hfree : Unobstructed o.output tree) {scanned : Module} (hscan : o.scan tree = .ok scanned)
    (hacyclic : scanned.resolve.cycle = none) (hm : scanned.resolve.module.HasFileNames) {ids deps : TableContents}
    (hids : typeIdsTable.Holds tree (o.layout.tablePlace "type_ids.ar.h") ids)
    (hdeps : dependenciesTable.Holds tree (o.layout.tablePlace "dependency_tree.ar.h") deps) {earlier : Manifest}
    (hearlier : Manifest.load tree o.manifest = .ok earlier) :
    ∃ b, ∃ steps : BuildSteps o tree b, steps.scanned = scanned ∧ steps.earlier = earlier := by
  have hname : Text.isIdentifier o.packageName.trim = true := by
    rw [ho.trim_packageName]
    exact ho.layout.module
  have hscanned := RunOptions.isScanned_of_scan hscan
  have htable : ∀ place, o.layout.TablePlace place → place.Normal ∧ tree.Writable place := fun place hplace =>
    ⟨hplace.normal, hfree place hplace.isAbove hplace.outputPlace⟩
  -- the steps one after the other: artifacts, tables, and the entries of the manifest
  obtain ⟨files, hfiles⟩ := hscanned.emit_ok o.layout
  obtain ⟨hidsNormal, hidsFree⟩ := htable _ (Or.inl rfl)
  obtain ⟨u, hu⟩ : ∃ u, typeIdsTable.update tree (o.layout.tablePlace "type_ids.ar.h").render
      scanned.resolve.module.name (scanned.resolve.module.entries.map (·.id)) = .ok u :=
    hids.update_ok htree hidsNormal hidsFree (hscanned.enumeratorName hname hacyclic)
  obtain ⟨hdepsNormal, hdepsFree⟩ := htable _ (Or.inr rfl)
  obtain ⟨v, hv⟩ : ∃ v, dependenciesTable.update tree (o.layout.tablePlace "dependency_tree.ar.h").render
      scanned.resolve.module.name scanned.resolve.module.dependencies = .ok v :=
    hdeps.update_ok htree hdepsNormal hdepsFree trivial
  rw [← updateTypeIds_eq, ← ho.layout.typeIds_eq] at hu
  rw [← updateDependencies_eq, ← ho.layout.dependencies_eq] at hv
  obtain ⟨entries, hentries, -⟩ := ho.ownedEntries_ok (Module.tidy_produced hm ho.layout hfiles)
  exact ⟨{ options := o, module := scanned.resolve.module, set := _ },
    { scanned, files, typeIds := u, dependencies := v, earlier, entries
      scan_eq := hscan, acyclic := hacyclic, module_eq := rfl, emit_eq := hfiles, typeIds_eq := hu
      dependencies_eq := hv, earlier_eq := hearlier, entries_eq := hentries, options_eq := rfl, set_eq := rfl },
    rfl, rfl⟩

/-- **A module that is built is generated**, if what it takes away is not in the way either. -/
theorem Options.generate_succeeds {o : Options} {run : RunOptions} (hrun : o.normalize = .ok run)
    (hstandard : run.Standard) {tree : FileTree} (htree : tree.WellFormed) (hfree : Unobstructed run.output tree)
    {b : Build} (steps : BuildSteps run tree b) (hm : b.module.HasFileNames)
    (hlisted : ∀ entry ∈ steps.earlier.files, entry ∈ steps.entries) :
    (o.build tree).outcome = .ok b ∧ ∃ changes, (o.generate tree).2.outcome = .ok changes := by
  have hbuild : (o.build tree).outcome = .ok b := by
    rw [Options.build_outcome hrun]
    exact RunOptions.build_ok_iff.mpr ⟨steps⟩
  have htidy := steps.tidy_of_listed hstandard hm hlisted
  obtain ⟨changes, hchanges⟩ := ArtifactSet.changes_ok htidy.toOrdered
    (fun path hpath => hfree _ (steps.isAbove_of_mem_paths hstandard hm hpath) (htidy.output path hpath))
    (by rw [steps.removed_eq_nil hstandard hlisted]; simp)
  refine ⟨hbuild, changes, ?_⟩
  rw [(Options.generate_of_ok hbuild).2, (ArtifactSet.commit_spec htidy.toOrdered htidy.apart htree).1, hchanges]
  rfl

end HeaderReflection
