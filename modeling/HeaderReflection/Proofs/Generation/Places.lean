import HeaderReflection.Generation
import HeaderReflection.Proofs.Files.Commit
import HeaderReflection.Proofs.Outcome
import HeaderReflection.Proofs.Text.Fields

/-!
# Places of generated files

Every file that a run produces stands at a place of its own below the output directory: artifacts and the manifest below
the directory of the module, the shared tables below the directory of the glue package. A module may be the glue package
itself, and then the tables stand below its directory as well.

## Main definitions

- `Layout.packagePlace`, `Layout.manifestPlace`, `Layout.tablePlace`, `Layout.ArtifactPlace`: the places.
- `Artifact.dirs`, `Artifact.fileName`: where an artifact stands below the directory of its module.
- `Artifact.ending`: how its path ends, whatever the names of the module and of the class are.
- `RunOptions.Standard`: options of an identifier with the usual manifest.

## Main results

- `Module.artifactPlace_of_mem_artifacts`: artifacts stand at places of artifacts.
- `Artifact.nested_of_path_eq`: artifacts at one path end alike.
- `Module.get?_artifact`: an artifact is produced if no later one has its path.
- `ArtifactPlace.ne_table`, `ArtifactPlace.ne_manifest`, `Layout.module_eq_of_isAbove`: no two kinds of files, and no
  two modules, share a place.
- `RunOptions.owns_iff`, `RunOptions.entryFile_of_manifestEntry`: what a manifest lists, there and back.
-/

namespace HeaderReflection

/-! ## §1 Names of files -/

namespace FilePath

theorem plain_of_isIdentifier {name : Text} (h : Text.isIdentifier name = true) : Plain name where
  ne_nil := Text.ne_nil_of_isIdentifier h
  ne_here := by
    rintro rfl
    exact absurd h (by decide)
  ne_up := by
    rintro rfl
    exact absurd h (by decide)
  noSlash := Text.not_mem_of_isIdentifier h (by decide)

/-- A name of three bytes or more is none of the dots. -/
theorem plain_of_length {name : Text} (hslash : slash ∉ name) (hlong : 2 < name.length) : Plain name := by
  constructor
  · rintro rfl
    simp at hlong
  · rintro rfl
    exact absurd hlong (by decide)
  · rintro rfl
    exact absurd hlong (by decide)
  · exact hslash

theorem plain_append {name ending : Text} (hname : slash ∉ name) (hending : slash ∉ ending)
    (hlong : 2 < ending.length) : Plain (name ++ ending) := by
  apply plain_of_length
  · simp [hname, hending]
  · rw [List.length_append]
    omega

end FilePath

theorem cleanPath_ne_nil (path : Text) : cleanPath path ≠ [] := FilePath.render_ne_nil (FilePath.normal_parse path)

theorem joinPath_ne_nil {parts : List Text} {part : Text} (hpart : part ∈ parts) (hne : part ≠ []) :
    joinPath parts ≠ [] := by
  unfold joinPath
  split
  · next hnil =>
    rw [List.dropWhile_eq_nil_iff] at hnil
    exact absurd (by simpa using hnil part hpart) hne
  · exact cleanPath_ne_nil _

/-- Joined parts are in normal form, unless all of them are empty. -/
theorem cleanPath_joinPath_of_mem {parts : List Text} {part : Text} (hpart : part ∈ parts) (hne : part ≠ []) :
    cleanPath (joinPath parts) = joinPath parts := by
  have hjoined := joinPath_ne_nil hpart hne
  unfold joinPath at hjoined ⊢
  split at hjoined
  · exact absurd rfl hjoined
  · exact ArtifactSet.cleanPath_cleanPath _

/-! ## §2 Places -/

namespace Layout

/-- A layout below a directory in normal form, for a module whose name is an identifier. -/
structure Sound (l : Layout) : Prop where
  root : cleanPath l.root = l.root
  module : Text.isIdentifier l.module = true

def base (l : Layout) : FilePath := FilePath.parse l.root

def packagePlace (l : Layout) : FilePath := l.base.below ["packages", l.module]

def manifestPlace (l : Layout) : FilePath := l.packagePlace.below ["argen.manifest.yaml"]

/-- The place of a shared table, which is the same for all modules of an output directory. -/
def tablePlace (l : Layout) (name : Text) : FilePath :=
  l.base.below ["packages", "glue", "public", "include", "glue", name]

/-- Where a shared table may stand. -/
def TablePlace (l : Layout) (place : FilePath) : Prop :=
  place = l.tablePlace "type_ids.ar.h" ∨ place = l.tablePlace "dependency_tree.ar.h"

def headerDirs (l : Layout) : List Text := ["public", "include", "packages", l.module]

/-- The directories of artifacts below the directory of the module. -/
def artifactDirs (l : Layout) : List (List Text) :=
  [l.headerDirs, l.headerDirs ++ [("model" : Text)], ["private", "model"], ["private", "render"]]

/-- Where an artifact may stand. -/
def ArtifactPlace (l : Layout) (place : FilePath) : Prop :=
  ∃ dirs ∈ l.artifactDirs, ∃ name, FilePath.Plain name ∧ Text.byte '.' ∈ name ∧
    place = l.packagePlace.below (dirs ++ [name])

variable {l : Layout}

theorem normal_base (l : Layout) : l.base.Normal := FilePath.normal_parse l.root

theorem Sound.render_base (hl : l.Sound) : l.base.render = l.root := hl.root

theorem Sound.headerDirs (hl : l.Sound) : ∀ dir ∈ l.headerDirs, Text.isIdentifier dir = true := by
  simp only [Layout.headerDirs, List.forall_mem_cons]
  exact ⟨by decide, by decide, by decide, hl.module, by simp⟩

theorem Sound.dirs (hl : l.Sound) {dirs : List Text} (h : dirs ∈ l.artifactDirs) :
    ∀ dir ∈ dirs, Text.isIdentifier dir = true := by
  simp only [artifactDirs, List.mem_cons, List.not_mem_nil, or_false] at h
  rcases h with rfl | rfl | rfl | rfl
  · exact hl.headerDirs
  · rw [List.forall_mem_append]
    exact ⟨hl.headerDirs, by decide⟩
  · decide
  · decide

theorem plain_of_dirs {dirs : List Text} (h : ∀ dir ∈ dirs, Text.isIdentifier dir = true) :
    ∀ dir ∈ dirs, FilePath.Plain dir :=
  fun dir hdir => FilePath.plain_of_isIdentifier (h dir hdir)

theorem Sound.packageDirs (hl : l.Sound) :
    ∀ dir ∈ (["packages", l.module] : List Text), Text.isIdentifier dir = true := by
  simp only [List.forall_mem_cons]
  exact ⟨by decide, hl.module, by simp⟩

theorem Sound.normal_packagePlace (hl : l.Sound) : l.packagePlace.Normal :=
  FilePath.normal_below l.normal_base (plain_of_dirs hl.packageDirs)

theorem Sound.normal_dirs (hl : l.Sound) {dirs : List Text} (h : dirs ∈ l.artifactDirs) :
    (l.packagePlace.below dirs).Normal :=
  FilePath.normal_below hl.normal_packagePlace (plain_of_dirs (hl.dirs h))

theorem Sound.packageDir_eq (hl : l.Sound) : l.packageDir = l.packagePlace.render := by
  rw [packagePlace, ← FilePath.joinPath_below l.normal_base (plain_of_dirs hl.packageDirs), hl.render_base]
  rfl

theorem Sound.packageHeaderDir_eq (hl : l.Sound) : l.packageHeaderDir = (l.packagePlace.below l.headerDirs).render := by
  rw [← FilePath.joinPath_below hl.normal_packagePlace (plain_of_dirs hl.headerDirs), ← hl.packageDir_eq]
  rfl

theorem Sound.modelHeaderDir_eq (hl : l.Sound) :
    l.modelHeaderDir = (l.packagePlace.below (l.headerDirs ++ [("model" : Text)])).render := by
  have hnormal : (l.packagePlace.below l.headerDirs).Normal := hl.normal_dirs (by simp [artifactDirs])
  have hmodel : ∀ part ∈ (["model"] : List Text), FilePath.Plain part := plain_of_dirs (by decide)
  rw [← FilePath.below_below, ← FilePath.joinPath_below hnormal hmodel, ← hl.packageHeaderDir_eq]
  rfl

theorem Sound.modelSourceDir_eq (hl : l.Sound) :
    l.modelSourceDir = (l.packagePlace.below ["private", "model"]).render := by
  have hdirs : ∀ part ∈ (["private", "model"] : List Text), FilePath.Plain part := plain_of_dirs (by decide)
  rw [modelSourceDir, hl.packageDir_eq, FilePath.joinPath_below hl.normal_packagePlace hdirs]

theorem Sound.renderSourceDir_eq (hl : l.Sound) :
    l.renderSourceDir = (l.packagePlace.below ["private", "render"]).render := by
  have hdirs : ∀ part ∈ (["private", "render"] : List Text), FilePath.Plain part := plain_of_dirs (by decide)
  rw [renderSourceDir, hl.packageDir_eq, FilePath.joinPath_below hl.normal_packagePlace hdirs]

theorem Sound.manifest_eq (hl : l.Sound) :
    joinPath [l.packageDir, "argen.manifest.yaml"] = l.manifestPlace.render := by
  have hname : ∀ part ∈ (["argen.manifest.yaml"] : List Text), FilePath.Plain part := by
    rw [List.forall_mem_singleton]
    exact FilePath.plain_of_length (by decide) (by decide)
  rw [hl.packageDir_eq, FilePath.joinPath_below hl.normal_packagePlace hname]
  rfl

theorem Sound.table_eq (hl : l.Sound) {name : Text} (hname : FilePath.Plain name) :
    joinPath [l.glueDir, name] = (l.tablePlace name).render := by
  have hdirs : ∀ dir ∈ (["packages", "glue", "public", "include", "glue"] : List Text), FilePath.Plain dir :=
    plain_of_dirs (by decide)
  have hglue : l.glueDir = (l.base.below ["packages", "glue", "public", "include", "glue"]).render := by
    rw [← FilePath.joinPath_below l.normal_base hdirs, hl.render_base]
    rfl
  rw [hglue, FilePath.joinPath_below (FilePath.normal_below l.normal_base hdirs) (by simpa using hname),
    FilePath.below_below]
  rfl

theorem Sound.typeIds_eq (hl : l.Sound) : l.typeIds = (l.tablePlace "type_ids.ar.h").render :=
  hl.table_eq (FilePath.plain_of_length (by decide) (by decide))

theorem Sound.dependencies_eq (hl : l.Sound) : l.dependencies = (l.tablePlace "dependency_tree.ar.h").render :=
  hl.table_eq (FilePath.plain_of_length (by decide) (by decide))

/-- The file of a name in a directory of artifacts. -/
theorem Sound.artifactFile_eq (hl : l.Sound) {dirs : List Text} (hdirs : dirs ∈ l.artifactDirs) {name : Text}
    (hname : FilePath.Plain name) :
    joinPath [(l.packagePlace.below dirs).render, name] = (l.packagePlace.below (dirs ++ [name])).render := by
  rw [FilePath.joinPath_below (hl.normal_dirs hdirs) (by simpa using hname), FilePath.below_below]

/-! ## §3 No place has two files -/

namespace ArtifactPlace

variable {place : FilePath}

theorem outputPlace (hl : l.Sound) (h : l.ArtifactPlace place) : OutputPlace l.base place := by
  obtain ⟨dirs, hdirs, name, hname, hdot, rfl⟩ := h
  refine ⟨"packages" :: l.module :: dirs, name, ?_, ?_, hname, hdot⟩
  · rw [packagePlace, FilePath.below_below]
    rfl
  · intro dir hdir
    have hidentifier : Text.isIdentifier dir = true := by
      rcases List.mem_append.mp (show dir ∈ ([_, _] : List Text) ++ dirs from hdir) with hdir | hdir
      · exact hl.packageDirs dir hdir
      · exact hl.dirs hdirs dir hdir
    exact ⟨FilePath.plain_of_isIdentifier hidentifier, Text.not_mem_of_isIdentifier hidentifier (by decide)⟩

theorem normal (hl : l.Sound) (h : l.ArtifactPlace place) : place.Normal := (h.outputPlace hl).normal l.normal_base

theorem isAbove (h : l.ArtifactPlace place) : l.packagePlace.IsAbove place := by
  obtain ⟨dirs, -, name, -, -, rfl⟩ := h
  exact FilePath.isAbove_below _ (by simp)

theorem ne_manifest (h : l.ArtifactPlace place) : place ≠ l.manifestPlace := by
  obtain ⟨dirs, hdirs, name, -, -, rfl⟩ := h
  -- the manifest stands in the directory of the module itself, no artifact does
  intro heq
  have hlength := congrArg List.length (FilePath.below_inj.mp heq)
  simp only [artifactDirs, headerDirs, List.mem_cons, List.not_mem_nil, or_false] at hdirs
  rcases hdirs with rfl | rfl | rfl | rfl <;> simp at hlength

theorem ne_table (h : l.ArtifactPlace place) (name : Text) : place ≠ l.tablePlace name := by
  obtain ⟨dirs, hdirs, file, -, -, rfl⟩ := h
  intro heq
  rw [packagePlace, FilePath.below_below, tablePlace, FilePath.below_inj] at heq
  have hpackages : ("packages" : Text) ≠ "glue" := by decide
  have hprivate : ("private" : Text) ≠ "public" := by decide
  simp only [artifactDirs, headerDirs, List.mem_cons, List.not_mem_nil, or_false] at hdirs
  -- below the directory of the glue package the tables have a directory of their own
  rcases hdirs with rfl | rfl | rfl | rfl
  · simp [hpackages] at heq
  · simp [hpackages] at heq
  · simp [hprivate] at heq
  · simp [hprivate] at heq

end ArtifactPlace

theorem Sound.outputPlace_manifest (hl : l.Sound) : OutputPlace l.base l.manifestPlace := by
  refine ⟨["packages", l.module], "argen.manifest.yaml", ?_, ?_, ?_, by decide⟩
  · rw [manifestPlace, packagePlace, FilePath.below_below]
  · intro dir hdir
    have hidentifier := hl.packageDirs dir hdir
    exact ⟨FilePath.plain_of_isIdentifier hidentifier, Text.not_mem_of_isIdentifier hidentifier (by decide)⟩
  · exact FilePath.plain_of_length (by decide) (by decide)

theorem TablePlace.outputPlace {place : FilePath} (h : l.TablePlace place) : OutputPlace l.base place := by
  have hname : ∀ name : Text, FilePath.Plain name → Text.byte '.' ∈ name → OutputPlace l.base (l.tablePlace name) := by
    intro name hname hdot
    refine ⟨["packages", "glue", "public", "include", "glue"], name, rfl, ?_, hname, hdot⟩
    intro dir hdir
    have hidentifier : Text.isIdentifier dir = true := by
      revert dir
      decide
    exact ⟨FilePath.plain_of_isIdentifier hidentifier, Text.not_mem_of_isIdentifier hidentifier (by decide)⟩
  rcases h with rfl | rfl
  · exact hname _ (FilePath.plain_of_length (by decide) (by decide)) (by decide)
  · exact hname _ (FilePath.plain_of_length (by decide) (by decide)) (by decide)

theorem TablePlace.normal {place : FilePath} (h : l.TablePlace place) : place.Normal :=
  h.outputPlace.normal l.normal_base

theorem ArtifactPlace.render_ne_table (hl : l.Sound) {place : FilePath} (h : l.ArtifactPlace place) {name : Text}
    (hname : l.TablePlace (l.tablePlace name)) : place.render ≠ (l.tablePlace name).render :=
  fun heq => h.ne_table name (FilePath.render_injective (h.normal hl) hname.normal heq)

/-- The two tables have two places. -/
theorem render_tables_ne (l : Layout) :
    (l.tablePlace "type_ids.ar.h").render ≠ (l.tablePlace "dependency_tree.ar.h").render := by
  intro heq
  have hplaces := FilePath.render_injective (TablePlace.normal (Or.inl rfl)) (TablePlace.normal (Or.inr rfl)) heq
  simp only [tablePlace, FilePath.below_inj] at hplaces
  exact absurd hplaces (by decide)

theorem Sound.parse_typeIds (hl : l.Sound) : FilePath.parse l.typeIds = l.tablePlace "type_ids.ar.h" := by
  rw [hl.typeIds_eq, FilePath.parse_render (TablePlace.normal (Or.inl rfl))]

theorem Sound.parse_dependencies (hl : l.Sound) :
    FilePath.parse l.dependencies = l.tablePlace "dependency_tree.ar.h" := by
  rw [hl.dependencies_eq, FilePath.parse_render (TablePlace.normal (Or.inr rfl))]

/-- The tables are below the directory of the glue package and of no other one. -/
theorem isAbove_table_iff {name : Text} : l.packagePlace.IsAbove (l.tablePlace name) ↔ l.module = "glue" := by
  constructor
  · rintro ⟨parts, -, heq⟩
    rw [packagePlace, FilePath.below_below, tablePlace, FilePath.below_inj] at heq
    simp only [List.cons_append, List.cons.injEq] at heq
    exact heq.2.1.symm
  · intro hglue
    refine ⟨["public", "include", "glue", name], by simp, ?_⟩
    rw [packagePlace, FilePath.below_below, hglue]
    rfl

theorem manifest_ne_table (l : Layout) (name : Text) : l.manifestPlace ≠ l.tablePlace name := by
  intro h
  unfold manifestPlace packagePlace tablePlace at h
  simp [FilePath.below_below, FilePath.below_inj] at h

theorem TablePlace.ne_manifest {place : FilePath} (h : l.TablePlace place) : place ≠ l.manifestPlace := by
  rcases h with rfl | rfl
  · exact (l.manifest_ne_table _).symm
  · exact (l.manifest_ne_table _).symm

theorem isAbove_manifest (l : Layout) : l.packagePlace.IsAbove l.manifestPlace := FilePath.isAbove_below _ (by simp)

/-- **Modules have places of their own**: nothing is below the directories of two modules. -/
theorem module_eq_of_isAbove {l' : Layout} (hbase : l.base = l'.base) {place : FilePath}
    (h : l.packagePlace.IsAbove place) (h' : l'.packagePlace.IsAbove place) : l.module = l'.module := by
  obtain ⟨parts, -, rfl⟩ := h
  obtain ⟨parts', -, heq⟩ := h'
  rw [packagePlace, packagePlace, ← hbase, FilePath.below_below, FilePath.below_below, FilePath.below_inj] at heq
  simp only [List.cons_append, List.cons.injEq] at heq
  exact heq.2.1

end Layout

namespace Artifact

/-- The directory of an artifact below the directory of its module. -/
def dirs (l : Layout) : Artifact → List Text
  | .modelSource _ => ["private", "model"]
  | .typesResolvers _ | .scriptImporter _ | .packageHeader _ | .builderHeader _ => l.headerDirs
  | .classHeader _ => l.headerDirs ++ [("model" : Text)]
  | .renderSource _ => ["private", "render"]

/-- The name of the file of an artifact. -/
def fileName (l : Layout) : Artifact → Text
  | .modelSource _ => "package." ++ l.module ++ ".ar.cpp"
  | .typesResolvers _ => "types_resolvers.ar.h"
  | .scriptImporter _ => "types_script_importer.ar.h"
  | .packageHeader _ => "package.ar.h"
  | .builderHeader _ => "package." ++ l.module ++ ".types_builder.ar.h"
  | .classHeader header => header.name ++ ".ar.h"
  | .renderSource _ => "package." ++ l.module ++ ".render.ar.cpp"

variable {l : Layout}

theorem dirs_mem (l : Layout) (a : Artifact) : a.dirs l ∈ l.artifactDirs := by
  cases a <;> simp [dirs, Layout.artifactDirs]

theorem path_eq (hl : l.Sound) (a : Artifact) :
    a.path l = joinPath [(l.packagePlace.below (a.dirs l)).render, a.fileName l] := by
  cases a with
  | modelSource => rw [path, Layout.modelSource, hl.modelSourceDir_eq]; rfl
  | typesResolvers => rw [path, Layout.typesResolvers, hl.packageHeaderDir_eq]; rfl
  | scriptImporter => rw [path, Layout.scriptImporter, hl.packageHeaderDir_eq]; rfl
  | packageHeader => rw [path, Layout.packageHeader, hl.packageHeaderDir_eq]; rfl
  | builderHeader => rw [path, Layout.typesBuilderHeader, hl.packageHeaderDir_eq]; rfl
  | classHeader => rw [path, Layout.classHeader, hl.modelHeaderDir_eq]; rfl
  | renderSource => rw [path, Layout.renderSource, hl.renderSourceDir_eq]; rfl

/-- What the name of the file of an artifact begins with, as far as it depends on the module or the class. -/
def stem (l : Layout) : Artifact → Text
  | .modelSource _ | .builderHeader _ | .renderSource _ => "package." ++ l.module
  | .typesResolvers _ | .scriptImporter _ | .packageHeader _ => []
  | .classHeader header => header.name

/-- What the name of the file of an artifact always ends with. -/
def ending : Artifact → Text
  | .modelSource _ => ".ar.cpp"
  | .typesResolvers _ => "types_resolvers.ar.h"
  | .scriptImporter _ => "types_script_importer.ar.h"
  | .packageHeader _ => "package.ar.h"
  | .builderHeader _ => ".types_builder.ar.h"
  | .classHeader _ => ".ar.h"
  | .renderSource _ => ".render.ar.cpp"

theorem fileName_eq (l : Layout) (a : Artifact) : a.fileName l = a.stem l ++ a.ending := by
  cases a <;> rfl

theorem ending_spec (a : Artifact) : FilePath.slash ∉ a.ending ∧ 2 < a.ending.length ∧ Text.byte '.' ∈ a.ending := by
  cases a <;> dsimp only [ending] <;> decide

/-- The name of the file of an artifact is one, and has an ending, if that of a class has no slash. -/
theorem plain_fileName (hl : l.Sound) (a : Artifact)
    (hclass : ∀ header, a = .classHeader header → FilePath.slash ∉ header.name) :
    FilePath.Plain (a.fileName l) ∧ Text.byte '.' ∈ a.fileName l := by
  have hmodule : FilePath.slash ∉ Text.ofString "package." ++ l.module := by
    rw [List.mem_append, not_or]
    exact ⟨by decide, Text.not_mem_of_isIdentifier hl.module (by decide)⟩
  have hstem : FilePath.slash ∉ a.stem l := by
    cases a with
    | modelSource | builderHeader | renderSource => exact hmodule
    | typesResolvers | scriptImporter | packageHeader => exact List.not_mem_nil
    | classHeader header => exact hclass header rfl
  obtain ⟨hslash, hlong, hdot⟩ := a.ending_spec
  rw [a.fileName_eq]
  exact ⟨FilePath.plain_append hstem hslash hlong, List.mem_append_right _ hdot⟩

/-- **Artifacts stand at places of artifacts.** -/
theorem artifactPlace_path (hl : l.Sound) (a : Artifact)
    (hclass : ∀ header, a = .classHeader header → FilePath.slash ∉ header.name) :
    ∃ place, l.ArtifactPlace place ∧ a.path l = place.render := by
  obtain ⟨hname, hdot⟩ := a.plain_fileName hl hclass
  refine ⟨_, ⟨a.dirs l, a.dirs_mem l, a.fileName l, hname, hdot, rfl⟩, ?_⟩
  rw [a.path_eq hl, hl.artifactFile_eq (a.dirs_mem l) hname]

end Artifact

/-- A module whose class names can be the names of files. -/
def Module.HasFileNames (m : Module) : Prop := ∀ e ∈ m.classes, FilePath.slash ∉ e.name

theorem Module.files_of_emit {m : Module} {l : Layout} {files : List (Text × Text)} (h : m.emit l = .ok files) :
    files = m.artifacts.map fun a => (a.path l, a.render) := by
  unfold Module.emit at h
  split at h
  · cases h
  · cases h
    rfl

/-- Every header is that of a class. -/
theorem Module.exists_class_of_mem_artifacts {m : Module} {header : ClassHeader}
    (h : .classHeader header ∈ m.artifacts) : ∃ e ∈ m.classes, ClassHeader.ofDeclaration e.toDeclaration = header := by
  simpa [Module.artifacts] using h

theorem Module.artifactPlace_of_mem_artifacts {m : Module} (hm : m.HasFileNames) {l : Layout} (hl : l.Sound)
    {a : Artifact} (ha : a ∈ m.artifacts) : ∃ place, l.ArtifactPlace place ∧ a.path l = place.render := by
  apply a.artifactPlace_path hl
  rintro header rfl
  obtain ⟨e, he, rfl⟩ := Module.exists_class_of_mem_artifacts ha
  exact hm e he

/-! ## §4 Ends of paths

The name of a module or of a class may hold slashes and dots, and then it may lead anywhere. How the path of an artifact
ends does not change by that. -/

namespace Artifact

theorem path_eq_joinPath (l : Layout) (a : Artifact) : ∃ dir, a.path l = joinPath [dir, a.fileName l] := by
  cases a <;> exact ⟨_, rfl⟩

/-- The path of an artifact is in normal form. -/
theorem cleanPath_path (l : Layout) (a : Artifact) : cleanPath (a.path l) = a.path l := by
  obtain ⟨dir, hpath⟩ := a.path_eq_joinPath l
  have hname : a.fileName l ≠ [] := by
    rw [a.fileName_eq]
    exact List.append_ne_nil_of_right_ne_nil _ (List.ne_nil_of_mem a.ending_spec.2.2)
  rw [hpath]
  exact cleanPath_joinPath_of_mem (by simp) hname

theorem lastPart_path (l : Layout) (a : Artifact) :
    FilePath.lastPart (a.path l) = FilePath.lastPart (a.stem l) ++ a.ending := by
  obtain ⟨dir, hpath⟩ := a.path_eq_joinPath l
  obtain ⟨hslash, hlong, -⟩ := a.ending_spec
  have hname : FilePath.lastPart (a.fileName l) = FilePath.lastPart (a.stem l) ++ a.ending := by
    rw [a.fileName_eq, FilePath.lastPart_append _ hslash]
  rw [hpath, FilePath.lastPart_joinPath dir, hname]
  rw [hname]
  exact FilePath.plain_append (FilePath.slash_not_mem_lastPart _) hslash hlong

/-- **Artifacts at one path**: what one of them always ends with is an end of what the other one always ends with. -/
theorem nested_of_path_eq (l : Layout) (a a' : Artifact) (h : a.path l = a'.path l) :
    a.ending <:+ a'.ending ∨ a'.ending <:+ a.ending := by
  have hend : ∀ a : Artifact, a.ending <:+ FilePath.lastPart (a.path l) := fun a => ⟨_, (a.lastPart_path l).symm⟩
  have hend' := hend a'
  rw [← h] at hend'
  exact List.suffix_or_suffix_of_suffix (hend a) hend'

/-- The names of the headers of which every module has one. -/
def fixedNames : List Text := ["types_resolvers.ar.h", "types_script_importer.ar.h", "package.ar.h"]

/-- **No other artifact stands in the place of a header with a fixed name**, except that a class may have a name that
leads there. -/
theorem path_ne_of_fixed (l : Layout) {a header : Artifact} (hfixed : header.ending ∈ fixedNames)
    (hkind : a.ending ≠ header.ending) (hclass : ∀ h, a = .classHeader h → l.classHeader h.name ≠ header.path l) :
    a.path l ≠ header.path l := by
  intro heq
  have hnested := nested_of_path_eq l a header heq
  generalize header.ending = name at hfixed hkind hnested
  cases a with
  | classHeader h => exact hclass h rfl heq
  | _ =>
    -- no fixed name is an end of one of the other endings, and none of these is an end of a fixed name
    dsimp only [ending] at hkind hnested
    revert name
    decide

end Artifact

/-- **An artifact is produced** if no later one has its path, whatever the set holds before. -/
theorem Module.get?_artifact {m : Module} {l : Layout} {files : List (Text × Text)} (hemit : m.emit l = .ok files)
    (s : ArtifactSet) {before after : List Artifact} {a : Artifact}
    (hartifacts : m.artifacts = before ++ a :: after) (hafter : ∀ later ∈ after, later.path l ≠ a.path l) :
    (s.addAll files).get? (a.path l) = some a.render := by
  rw [Module.files_of_emit hemit, hartifacts, List.map_append, List.map_cons]
  apply ArtifactSet.get?_addAll
  rw [List.forall_mem_map]
  intro later hlater
  rw [later.cleanPath_path, a.cleanPath_path]
  exact hafter later hlater

/-- **A header with a fixed name is produced**, unless the name of a class leads to its path. -/
theorem Module.get?_of_fixed {m : Module} {l : Layout} {files : List (Text × Text)} (hemit : m.emit l = .ok files)
    (s : ArtifactSet) {before after : List Artifact} {header : Artifact}
    (hartifacts : m.artifacts = before ++ header :: after) (hfixed : header.ending ∈ Artifact.fixedNames)
    (hafter : ∀ later ∈ after, later.ending ≠ header.ending)
    (hclasses : ∀ e ∈ m.classes, l.classHeader e.name ≠ header.path l) :
    (s.addAll files).get? (header.path l) = some header.render := by
  -- only the header of a class may have this path as well, and it would come later
  apply get?_artifact hemit s hartifacts
  intro later hlater
  apply Artifact.path_ne_of_fixed l hfixed (hafter later hlater)
  rintro h rfl
  have hmem : .classHeader h ∈ m.artifacts := by
    rw [hartifacts]
    exact List.mem_append_right _ (List.mem_cons_of_mem _ hlater)
  obtain ⟨e, he, rfl⟩ := exists_class_of_mem_artifacts hmem
  exact hclasses e he

/-! ## §5 What a manifest lists -/

/-- Options in normal form for a module whose name is an identifier, with the usual manifest. -/
structure RunOptions.Standard (o : RunOptions) : Prop where
  layout : o.layout.Sound
  manifest : o.manifest = o.layout.manifestPlace.render
  configList : cleanPath o.configList = o.configList
  source : o.source ≠ []

theorem Options.normalize_ok_iff {o : Options} {run : RunOptions} :
    o.normalize = .ok run ↔ o.packageName.isBlank = false ∧ o.configList.isBlank = false ∧
      readPatterns o.exclude = .ok run.patterns ∧ run.toOptions = o.tidied := by
  unfold Options.normalize
  cases o.packageName.isBlank with
  | true => simp
  | false =>
    cases o.configList.isBlank with
    | true => simp
    | false =>
      cases readPatterns o.exclude with
      | error e => simp [Except.map]
      | ok patterns =>
        cases run with
        | mk options patterns' => simp [Except.map, and_comm, eq_comm]

theorem Options.tidied_of_normalize {o : Options} {run : RunOptions} (h : o.normalize = .ok run) :
    run.toOptions = o.tidied :=
  (normalize_ok_iff.mp h).2.2.2

/-- The paths of accepted options are in normal form, and so none of them is empty. -/
theorem Options.paths_of_normalize {o : Options} {run : RunOptions} (h : o.normalize = .ok run) :
    cleanPath run.configList = run.configList ∧ run.source ≠ [] := by
  rw [tidied_of_normalize h]
  exact ⟨ArtifactSet.cleanPath_cleanPath _, cleanPath_ne_nil _⟩

theorem Options.manifest_tidied_ne_nil (o : Options) : o.tidied.manifest ≠ [] := by
  show (if o.manifest = [] then _ else o.manifest) ≠ []
  split
  · exact joinPath_ne_nil (by simp) (show Text.ofString "argen.manifest.yaml" ≠ [] by decide)
  · next hgiven => exact hgiven

/-- **Tidied options** have nothing left to tidy. -/
theorem Options.tidied_tidied (o : Options) : o.tidied.tidied = o.tidied := by
  have htidied : o.tidied.tidied = { o.tidied with
      packageName := o.tidied.packageName.trim
      scope := o.tidied.scope.trim
      source := cleanPath o.tidied.source
      output := cleanPath o.tidied.output
      configList := cleanPath o.tidied.configList } := by
    show Options.mk _ _ _ _ _ _ (if o.tidied.manifest = [] then _ else o.tidied.manifest) = _
    rw [if_neg o.manifest_tidied_ne_nil]
  rw [htidied]
  simp only [Options.tidied, Text.trim_trim, ArtifactSet.cleanPath_cleanPath]

/-- Options in normal form are accepted as they are, unless their config list has become blank: a dot and a slash in
front of a blank are no part of the normal form. -/
theorem Options.normalize_of_normalize {o : Options} {run : RunOptions} (h : o.normalize = .ok run)
    (hlist : run.configList.isBlank = false) : run.toOptions.normalize = .ok run := by
  obtain ⟨hname, -, hpatterns, htidied⟩ := normalize_ok_iff.mp h
  refine normalize_ok_iff.mpr ⟨?_, hlist, ?_, ?_⟩
  · rw [htidied]
    show Text.isBlank o.packageName.trim = false
    rw [Text.isBlank_trim, hname]
  · rw [htidied]
    exact hpatterns
  · rw [htidied, tidied_tidied]

theorem Options.layout_of_normalize {o : Options} (hname : Text.isIdentifier o.packageName.trim = true)
    {run : RunOptions} (h : o.normalize = .ok run) : run.layout.Sound := by
  rw [tidied_of_normalize h]
  exact ⟨ArtifactSet.cleanPath_cleanPath o.output, hname⟩

theorem Options.standard_of_normalize {o : Options} (hname : Text.isIdentifier o.packageName.trim = true)
    (hmanifest : o.manifest = []) {run : RunOptions} (h : o.normalize = .ok run) : run.Standard := by
  have hlayout := layout_of_normalize hname h
  have htidied : run.toOptions = o.tidied := tidied_of_normalize h
  obtain ⟨hconfig, hsource⟩ := paths_of_normalize h
  refine ⟨hlayout, ?_, hconfig, hsource⟩
  rw [htidied] at hlayout ⊢
  show (if o.manifest = [] then _ else o.manifest) = _
  rw [if_pos hmanifest]
  exact hlayout.manifest_eq

namespace RunOptions

variable {o : RunOptions}

theorem Standard.trim_packageName (ho : o.Standard) : o.packageName.trim = o.packageName :=
  Text.trim_of_isIdentifier ho.layout.module

theorem Standard.normal_manifest (ho : o.Standard) : o.layout.manifestPlace.Normal :=
  ho.layout.outputPlace_manifest.normal o.layout.normal_base

theorem Standard.parse_manifest (ho : o.Standard) : FilePath.parse o.manifest = o.layout.manifestPlace := by
  rw [ho.manifest, FilePath.parse_render ho.normal_manifest]

/-- What a module owns is below its directory, and all of that but the manifest. -/
theorem Standard.owns_iff (ho : o.Standard) {place : FilePath} (hplace : place.Normal) :
    o.owns place.render = true ↔ o.layout.packagePlace.IsAbove place ∧ place ≠ o.layout.manifestPlace := by
  have hmanifest : place.render ≠ o.manifest ↔ place ≠ o.layout.manifestPlace := by
    rw [ho.manifest, not_iff_not]
    exact ⟨FilePath.render_injective hplace ho.normal_manifest, congrArg FilePath.render⟩
  have hparts : o.layout.packagePlace.parts ≠ [] := by simp [Layout.packagePlace]
  unfold owns
  rw [Bool.and_eq_true, decide_eq_true_iff, hmanifest, ho.layout.packageDir_eq]
  exact and_congr_left' (FilePath.beginsWith_render_iff ho.layout.normal_packagePlace hplace hparts)

theorem Standard.owns_manifest (ho : o.Standard) : o.owns o.manifest = false := by
  rw [← Bool.not_eq_true, ho.manifest, ho.owns_iff ho.normal_manifest]
  exact fun h => h.2 rfl

/-- **Entries of a manifest lead back** to the files they are made for. -/
theorem Standard.entryFile_of_manifestEntry (ho : o.Standard) {place : FilePath}
    (hplace : OutputPlace o.layout.base place) :
    ∃ entry, o.manifestEntry place.render = .ok entry ∧ o.entryFile entry = place.render := by
  obtain ⟨dirs, name, rfl, hdirs, hname, -⟩ := hplace
  have hparts : ∀ part ∈ dirs ++ [name], FilePath.Plain part := by
    rw [List.forall_mem_append]
    exact ⟨fun dir hdir => (hdirs dir hdir).1, by simpa using hname⟩
  have hbase : o.output = o.layout.base.render := ho.layout.render_base.symm
  refine ⟨({ rooted := false, parts := dirs ++ [name] } : FilePath).render, ?_, ?_⟩
  · rw [manifestEntry, hbase, FilePath.relativePath?_below o.layout.normal_base hparts]
  · rw [entryFile, hbase, FilePath.joinPath_render o.layout.normal_base (by simp) hparts]

/-- The entries of a tidy set, and the files that they lead back to. -/
theorem Standard.ownedEntries_ok (ho : o.Standard) {set : ArtifactSet} (hset : set.Tidy o.layout.base) :
    ∃ entries, o.ownedEntries set = .ok entries ∧ entries.map o.entryFile = set.paths.filter o.owns := by
  have hentry : ∀ path ∈ set.paths.filter o.owns,
      ∃ entry, o.manifestEntry path = .ok entry ∧ o.entryFile entry = path := by
    intro path hpath
    have hmem := List.mem_of_mem_filter hpath
    have hrender : (FilePath.parse path).render = path := hset.clean path hmem
    have h := ho.entryFile_of_manifestEntry (hset.output path hmem)
    rwa [hrender] at h
  unfold ownedEntries
  -- from here on, the paths are any paths that have entries
  generalize set.paths.filter o.owns = paths at hentry
  induction paths with
  | nil => exact ⟨[], rfl, rfl⟩
  | cons path paths ih =>
    obtain ⟨entry, hentryPath, hfile⟩ := hentry path List.mem_cons_self
    obtain ⟨entries, hentries, hfiles⟩ := ih fun p hp => hentry p (List.mem_cons_of_mem _ hp)
    refine ⟨entry :: entries, ?_, by rw [List.map_cons, hfile, hfiles]⟩
    rw [List.mapM_cons, hentryPath, hentries]
    rfl

end RunOptions

end HeaderReflection
