import HeaderReflection.Proofs.Generation.Sources

/-!
# What builds take away

A build takes away the files that the manifest lists and that it does not produce itself. The manifest is taken as it is
found: a build records nothing but files below the directory of its module, and as long as all that the manifest lists
has been recorded so, nothing else is taken away. A manifest that several modules share, or one that has been edited,
leads elsewhere.

## Main definitions

- `Manifest.RecordedFor`: a manifest that lists only what has been recorded for the directory of a module.

## Main results

- `BuildSteps.mem_removed_iff_listed`: what a build takes away.
- `BuildSteps.recordedFor_manifestOf`: what a build records.
- `removed_of_build`: as long as manifests are recorded, a build takes away only what is below the directory of its
  module.
-/

namespace HeaderReflection

/-! ## §1 Recorded manifests -/

/-- Whether all that a manifest lists has been recorded for the directory of a module: each entry is the way from the
output directory to a path that continues the directory. -/
def Manifest.RecordedFor (m : Manifest) (l : Layout) : Prop :=
  ∀ entry ∈ m.files, ∃ path, cleanPath path = path ∧ Text.beginsWith (l.packageDir ++ "/") path = true ∧
    relativePath? l.root path = some entry

namespace RunOptions

variable {o : RunOptions} (houtput : o.output ≠ [])

include houtput

theorem cleanPath_entryFile (entry : Text) : cleanPath (o.entryFile entry) = o.entryFile entry :=
  cleanPath_joinPath houtput [entry]

/-- **The file of an entry** is the path that the entry has been made for. -/
theorem entryFile_of_manifestEntry {path entry : Text} (h : o.manifestEntry path = .ok entry) :
    o.entryFile entry = cleanPath path := by
  unfold manifestEntry at h
  split at h
  · next hrel =>
    cases h
    exact FilePath.joinPath_relativePath? houtput hrel
  · cases h

/-- **What has been recorded for a module is below its directory.** -/
theorem isAbove_entryFile {m : Manifest} (hm : m.RecordedFor o.layout) {entry : Text} (hentry : entry ∈ m.files) :
    (FilePath.parse o.layout.packageDir).IsAbove (FilePath.parse (o.entryFile entry)) := by
  obtain ⟨path, hclean, hbegins, hrel⟩ := hm entry hentry
  -- joining undoes the way from the output directory, also where that way leads up
  have hfile : o.entryFile entry = path := (FilePath.joinPath_relativePath? houtput hrel).trans hclean
  have hdir : (FilePath.parse o.layout.packageDir).render = o.layout.packageDir :=
    cleanPath_joinPath houtput ["packages", o.layout.module]
  have hrender : (FilePath.parse path).render = path := hclean
  apply FilePath.isAbove_of_beginsWith (FilePath.normal_parse _) (FilePath.normal_parse _)
  rw [hfile, hdir, hrender]
  exact hbegins

end RunOptions

/-! ## §2 What a build takes away and records -/

namespace BuildSteps

variable {o : RunOptions} {tree : FileTree} {b : Build}

/-- What a build writes, for any options: the manifest, and what it produces besides. -/
theorem mem_paths_iff (steps : BuildSteps o tree b) {path : Text} :
    path ∈ b.set.paths ↔ path = cleanPath o.manifest ∨ path ∈ steps.produced.paths := by
  rw [steps.set_eq, RunOptions.completed]
  show path ∈ ((List.foldl ArtifactSet.remove steps.produced _).add _ _).paths ↔ _
  rw [ArtifactSet.mem_paths_add]
  unfold ArtifactSet.paths
  rw [ArtifactSet.files_foldl_remove]

/-- The entries that a build records are those of what it produces and owns. -/
theorem exists_owned_of_mem_entries (steps : BuildSteps o tree b) {entry : Text} (h : entry ∈ steps.entries) :
    ∃ path ∈ steps.produced.paths, o.owns path = true ∧ o.manifestEntry path = .ok entry := by
  obtain ⟨path, hpath, hentry⟩ := exists_of_mem_forall₂ (mapM_eq_ok steps.entries_eq) h
  exact ⟨path, List.mem_of_mem_filter hpath, List.of_mem_filter hpath, hentry⟩

/-- **What a build records** is below the directory of its module. -/
theorem recordedFor_manifestOf (steps : BuildSteps o tree b) : (o.manifestOf steps.entries).RecordedFor o.layout := by
  intro entry hentry
  obtain ⟨path, hpath, howns, hrel⟩ := steps.exists_owned_of_mem_entries (RunOptions.mem_manifestOf.mp hentry)
  unfold RunOptions.owns at howns
  unfold RunOptions.manifestEntry at hrel
  rw [Bool.and_eq_true] at howns
  split at hrel
  · next hrelative =>
    cases hrel
    exact ⟨path, steps.ordered_produced.clean path hpath, howns.1, hrelative⟩
  · cases hrel

/-- **What a build takes away**: the files that the manifest lists and the build does not write. -/
theorem mem_removed_iff_listed (steps : BuildSteps o tree b) (houtput : o.output ≠ []) {path : Text} :
    path ∈ b.set.removed ↔ (∃ entry ∈ steps.earlier.files, path = o.entryFile entry) ∧ path ∉ b.set.paths := by
  rw [steps.mem_removed_iff, steps.mem_paths_iff, not_or]
  constructor
  · rintro ⟨⟨entry, hentry, -, rfl⟩, hproduced, hmanifest⟩
    exact ⟨⟨entry, hentry, RunOptions.cleanPath_entryFile houtput entry⟩, hmanifest, hproduced⟩
  · rintro ⟨⟨entry, hentry, rfl⟩, hmanifest, hproduced⟩
    refine ⟨⟨entry, hentry, fun hrecorded => ?_, (RunOptions.cleanPath_entryFile houtput entry).symm⟩, hproduced,
      hmanifest⟩
    -- the file of an entry that the build records is produced
    obtain ⟨path, hpath, -, hrel⟩ := steps.exists_owned_of_mem_entries hrecorded
    rw [RunOptions.entryFile_of_manifestEntry houtput hrel, steps.ordered_produced.clean path hpath] at hproduced
    exact hproduced hpath

end BuildSteps

/-! ## §3 Confinement -/

/-- **What builds take away.** A build that succeeds takes away exactly the files that the manifest lists and that it does
not write itself. If the manifest lists only what has been recorded for the directory of the module, all of them are
below this directory. The manifest that the build writes for the next one lists nothing else. -/
theorem removed_of_build {o : Options} {tree : FileTree} {b : Build} (h : (o.build tree).outcome = .ok b) :
    ∃ earlier, Manifest.load tree b.options.manifest = .ok earlier ∧
      (∀ path, path ∈ b.set.removed ↔
        (∃ entry ∈ earlier.files, path = b.options.entryFile entry) ∧ path ∉ b.set.paths) ∧
      (earlier.RecordedFor b.options.layout →
        ∀ path ∈ b.set.removed, (FilePath.parse b.options.layout.packageDir).IsAbove (FilePath.parse path)) ∧
      ∃ next : Manifest, next.RecordedFor b.options.layout ∧
        (cleanPath b.options.manifest, next.encode) ∈ b.set.files := by
  obtain ⟨run, hrun⟩ := Options.normalize_of_build h
  obtain ⟨steps⟩ := Options.exists_steps hrun h
  have houtput : run.output ≠ [] := by
    rw [Options.tidied_of_normalize hrun]
    exact FilePath.render_ne_nil (FilePath.normal_parse _)
  rw [steps.options_eq]
  refine ⟨steps.earlier, steps.earlier_eq, fun _ => steps.mem_removed_iff_listed houtput, ?_,
    run.manifestOf steps.entries, steps.recordedFor_manifestOf, ?_⟩
  · intro hearlier path hpath
    -- what is taken away has an entry, and entries of the module lead below its directory
    obtain ⟨⟨entry, hentry, rfl⟩, -⟩ := (steps.mem_removed_iff_listed houtput).mp hpath
    exact RunOptions.isAbove_entryFile houtput hearlier hentry
  · rw [steps.set_eq, RunOptions.completed]
    exact (ArtifactSet.mem_files_add steps.ordered_remaining).mpr (Or.inl rfl)

/-- A tree with an empty config list, empty tables and a manifest. -/
def manifestAndTables (path text : Text) : FileTree :=
  (((FileTree.place {} "m.list" "").place "packages/glue/public/include/glue/type_ids.ar.h" "").place
    "packages/glue/public/include/glue/dependency_tree.ar.h" "").place path text

/-- A manifest of the module itself, which lists a header that is no longer produced. -/
theorem removed_of_listed_header :
    let o : Options := { packageName := "m", configList := "m.list" }
    let tree := manifestAndTables "packages/m/argen.manifest.yaml" "module: m\nfiles:\n- packages/m/old.h\n"
    ∃ b, (o.build tree).outcome = .ok b ∧ b.set.removed = ["packages/m/old.h"] ∧
      ∀ path ∈ b.set.removed, (FilePath.parse "packages/m").IsAbove (FilePath.parse path) := by
  intro o tree
  have hfacts : (o.build tree).outcome.map (fun b => (b.options.manifest, b.options.layout.packageDir,
      b.options.layout.root, b.set.removed)) =
      .ok ("packages/m/argen.manifest.yaml", "packages/m", ".", ["packages/m/old.h"]) := by decide +kernel
  have hload : Manifest.load tree "packages/m/argen.manifest.yaml" =
      .ok { module := "m", files := ["packages/m/old.h"] } := by decide +kernel
  cases hbuild : (o.build tree).outcome with
  | error error => rw [hbuild] at hfacts; cases hfacts
  | ok b =>
    rw [hbuild, Except.map, Except.ok.injEq, Prod.mk.injEq, Prod.mk.injEq, Prod.mk.injEq] at hfacts
    obtain ⟨hmanifest, hdir, hroot, hremoved⟩ := hfacts
    obtain ⟨earlier, hearlier, -, hconfined, -⟩ := removed_of_build hbuild
    rw [hmanifest, hload, Except.ok.injEq] at hearlier
    have hrecorded : earlier.RecordedFor b.options.layout := by
      rw [← hearlier]
      intro entry hentry
      rw [List.mem_singleton.mp hentry, hdir, hroot]
      exact ⟨"packages/m/old.h", by decide +kernel⟩
    rw [hdir] at hconfined
    exact ⟨b, rfl, hremoved, hconfined hrecorded⟩

/-- **A manifest leads wherever it says.** A manifest that another module has written to the same place takes away the
files of that module, and one that has been edited takes away what is outside the output directory. -/
theorem removed_of_shared_manifest :
    let o : Options := { packageName := "m", configList := "m.list", manifest := "shared.yaml" }
    (o.build (manifestAndTables "shared.yaml" "module: a\nfiles:\n- packages/a/a.h\n")).outcome.map
        (fun b => (b.options.layout.packageDir, b.set.removed)) = .ok ("packages/m", ["packages/a/a.h"]) ∧
      (o.build (manifestAndTables "shared.yaml" "module: m\nfiles:\n- ../x\n")).outcome.map
        (fun b => (b.options.layout.packageDir, b.set.removed)) = .ok ("packages/m", ["../x"]) ∧
      ¬(FilePath.parse "packages/m").IsAbove (FilePath.parse "packages/a/a.h") ∧
      ¬(FilePath.parse "packages/m").IsAbove (FilePath.parse "../x") := by
  refine ⟨?_, ?_, ?_, ?_⟩ <;> decide +kernel

end HeaderReflection
