import HeaderReflection.Proofs.Generation.Sources
import HeaderReflection.Proofs.Table.ReadingBack

/-!
# Ids in use and ids in the table

The ids of a module reach its generated files on three ways: the table of type ids lists them, the resolvers tell the id
of every type, and the render source asks for those of classes with render hooks. A build writes the same ids on all
three, whatever the table has held before, unless another file takes the place of one of these: the manifest may be put
anywhere, and the name of a class may lead out of the directory of the class headers.

## Main definitions

- `Build.tableBodies`, `Build.resolvedIds`: what is read from the produced table, and from the produced resolvers.

## Main results

- `BuildSteps.get?_typeIds`, `BuildSteps.get?_typesResolvers`, `BuildSteps.get?_renderSource`: the three files.
- `TypeResolvers.perm_resolvers`: there is a resolver for every type.
- `type_ids_agree`: the ids in the table are the ids in use.
-/

namespace HeaderReflection

/-! ## §1 Places of the three files -/

namespace Layout

variable {l : Layout}

theorem Sound.artifactPlace_typesResolvers (hl : l.Sound) :
    ∃ place, l.ArtifactPlace place ∧ l.typesResolvers = place.render :=
  (Artifact.typesResolvers default).artifactPlace_path hl (by simp)

theorem Sound.artifactPlace_renderSource (hl : l.Sound) :
    ∃ place, l.ArtifactPlace place ∧ l.renderSource = place.render :=
  (Artifact.renderSource default).artifactPlace_path hl (by simp)

/-- The files of two tables are never those of artifacts. -/
theorem Sound.tables_ne (hl : l.Sound) {path : Text} (hpath : ∃ place, l.ArtifactPlace place ∧ path = place.render) :
    cleanPath l.typeIds ≠ cleanPath path ∧ cleanPath l.dependencies ≠ cleanPath path := by
  obtain ⟨place, hplace, rfl⟩ := hpath
  have htable : ∀ name, l.TablePlace (l.tablePlace name) →
      cleanPath (l.tablePlace name).render ≠ cleanPath place.render := by
    intro name hname
    rw [FilePath.cleanPath_render hname.normal, FilePath.cleanPath_render (hplace.normal hl)]
    exact (hplace.render_ne_table hl hname).symm
  rw [hl.typeIds_eq, hl.dependencies_eq]
  exact ⟨htable _ (Or.inl rfl), htable _ (Or.inr rfl)⟩

end Layout

/-! ## §2 The three files -/

namespace BuildSteps

variable {o : RunOptions} {tree : FileTree} {b : Build}

/-- What is produced besides the manifest is found at its path, except at the path of the manifest. -/
theorem get?_eq (steps : BuildSteps o tree b) {path : Text} (h : cleanPath o.manifest ≠ cleanPath path) :
    b.set.get? path = steps.produced.get? path := by
  rw [steps.set_eq, RunOptions.completed, ArtifactSet.get?_add, if_neg h]
  exact ArtifactSet.get?_congr (ArtifactSet.files_foldl_remove _ _) path

/-- What emitting the artifacts leaves at the place of an artifact is found there, unless it is that of the manifest. -/
theorem get?_eq_emitted (steps : BuildSteps o tree b) (hl : o.layout.Sound) {path : Text}
    (hplace : ∃ place, o.layout.ArtifactPlace place ∧ path = place.render) (h : cleanPath o.manifest ≠ cleanPath path) :
    b.set.get? path = (ArtifactSet.addAll {} steps.files).get? path := by
  obtain ⟨htypeIds, hdependencies⟩ := hl.tables_ne hplace
  rw [steps.get?_eq h, produced, Layout.produced, ArtifactSet.addAll_append, ArtifactSet.get?_addAll_of_ne]
  rw [List.forall_mem_cons, List.forall_mem_singleton]
  exact ⟨htypeIds, hdependencies⟩

/-- The table of type ids stands at its path. -/
theorem get?_typeIds (steps : BuildSteps o tree b) (hl : o.layout.Sound)
    (hmanifest : cleanPath o.manifest ≠ o.layout.typeIds) :
    b.set.get? o.layout.typeIds = some steps.typeIds.text := by
  have hclean : cleanPath o.layout.typeIds = o.layout.typeIds := by
    rw [hl.typeIds_eq, FilePath.cleanPath_render (Layout.TablePlace.normal (Or.inl rfl))]
  rw [steps.get?_eq (by rwa [hclean])]
  apply ArtifactSet.get?_addAll
  rw [List.forall_mem_singleton, hclean, hl.typeIds_eq, hl.dependencies_eq,
    FilePath.cleanPath_render (Layout.TablePlace.normal (Or.inr rfl))]
  exact o.layout.render_tables_ne.symm

/-- The resolvers stand at their path. -/
theorem get?_typesResolvers (steps : BuildSteps o tree b) (hl : o.layout.Sound)
    (hmanifest : cleanPath o.manifest ≠ o.layout.typesResolvers)
    (hheaders : ∀ e ∈ b.module.classes, o.layout.classHeader e.name ≠ o.layout.typesResolvers) :
    b.set.get? o.layout.typesResolvers = some (TypeResolvers.ofModule b.module).render := by
  have hclean : cleanPath o.layout.typesResolvers = o.layout.typesResolvers :=
    (Artifact.typesResolvers default).cleanPath_path o.layout
  rw [steps.get?_eq_emitted hl hl.artifactPlace_typesResolvers (by rwa [hclean])]
  obtain ⟨others, hartifacts, hothers⟩ : ∃ others : List Artifact,
      b.module.artifacts = [.modelSource (ModelSource.ofModule b.module)] ++
        .typesResolvers (TypeResolvers.ofModule b.module) :: others ∧
      ∀ a ∈ others, a.ending ≠ "types_resolvers.ar.h" := by
    refine ⟨_, rfl, fun a ha => ?_⟩
    cases a with
    | typesResolvers resolvers => simp at ha
    | _ => dsimp only [Artifact.ending]; decide
  exact Module.get?_of_fixed steps.emit_eq {} hartifacts List.mem_cons_self hothers hheaders

/-- The render source stands at its path. -/
theorem get?_renderSource (steps : BuildSteps o tree b) (hl : o.layout.Sound) (hrender : b.module.hasRender = true)
    (hmanifest : cleanPath o.manifest ≠ o.layout.renderSource) :
    b.set.get? o.layout.renderSource = some (RenderSource.ofModule b.module).render := by
  have hclean : cleanPath o.layout.renderSource = o.layout.renderSource :=
    (Artifact.renderSource default).cleanPath_path o.layout
  rw [steps.get?_eq_emitted hl hl.artifactPlace_renderSource (by rwa [hclean])]
  -- it is the last artifact
  obtain ⟨front, hartifacts⟩ : ∃ front, b.module.artifacts = front ++ [.renderSource (RenderSource.ofModule b.module)] := by
    unfold Module.artifacts
    rw [if_pos hrender]
    exact ⟨_, rfl⟩
  exact Module.get?_artifact steps.emit_eq {} hartifacts (by simp)

/-! ## §3 The ids in them -/

theorem name_eq (steps : BuildSteps o tree b) : b.module.name = o.packageName.trim := by
  rw [steps.module_eq, steps.scanned.name_resolve, (RunOptions.isScanned_of_scan steps.scan_eq).name_eq]

theorem enumeratorName (steps : BuildSteps o tree b) (hname : Text.isIdentifier b.module.name = true) :
    ∀ id ∈ b.module.entries.map (·.id), EnumeratorName id := by
  rw [steps.name_eq] at hname
  rw [steps.module_eq]
  exact (RunOptions.isScanned_of_scan steps.scan_eq).enumeratorName hname steps.acyclic

end BuildSteps

/-- **There is a resolver for every type**, which tells its id. -/
theorem TypeResolvers.perm_resolvers (m : Module) :
    (ofModule m).resolvers.Perm (m.entries.map fun e => { qualified := e.qualifiedName, id := e.id }) :=
  (sortBy_perm _ m.entries).map _

/-- The ids that the resolvers tell are those of the types. -/
theorem TypeResolvers.perm_ids (m : Module) : ((ofModule m).resolvers.map (·.id)).Perm (m.entries.map (·.id)) := by
  refine ((perm_resolvers m).map (·.id)).trans (List.Perm.of_eq ?_)
  rw [List.map_map]
  rfl

theorem RenderSource.id_mem_of_mem_hooks {m : Module} {hook : RenderHook} (h : hook ∈ (ofModule m).hooks) :
    hook.id ∈ (TypeResolvers.ofModule m).resolvers.map (·.id) := by
  obtain ⟨e, he, rfl⟩ := List.mem_map.mp h
  rw [(TypeResolvers.perm_ids m).mem_iff]
  exact List.mem_map_of_mem (List.mem_of_mem_filter (List.mem_of_mem_filter he))

/-- **The ids in the table are the ids in use.** A build that succeeds, of a module whose name is an identifier and with
neither its manifest nor a class header in the place of the resolvers and not with its manifest in the place of the
table, produces a table of type ids whose markers pair up and that has a block of the module, whatever the table has
been before. Every block of its name lists, line by line, the ids that the produced resolvers tell, of which there is
one for every type. A render source that is produced asks for no other ids. -/
theorem type_ids_agree {o : Options} {tree : FileTree} {b : Build} (hbuild : (o.build tree).outcome = .ok b)
    (hname : Text.isIdentifier b.options.packageName = true)
    (hmanifest : cleanPath b.options.manifest ≠ b.options.layout.typeIds ∧
      cleanPath b.options.manifest ≠ b.options.layout.typesResolvers)
    (hheaders : ∀ e ∈ b.module.classes, b.options.layout.classHeader e.name ≠ b.options.layout.typesResolvers) :
    b.set.get? b.options.layout.typesResolvers = some (TypeResolvers.ofModule b.module).render ∧
    (TypeResolvers.ofModule b.module).resolvers.Perm
      (b.module.entries.map fun e => { qualified := e.qualifiedName, id := e.id }) ∧
    (∃ table d, b.set.get? b.options.layout.typeIds = some table ∧ BlockDocument.parse table = .ok d ∧
      (∃ block ∈ d.blocks, block.name = b.module.name) ∧
      ∀ block ∈ d.blocks, block.name = b.module.name →
        block.body.Perm ((TypeResolvers.ofModule b.module).resolvers.map fun r => block.indent ++ (r.id ++ ","))) ∧
    (b.module.hasRender = true → cleanPath b.options.manifest ≠ b.options.layout.renderSource →
      b.set.get? b.options.layout.renderSource = some (RenderSource.ofModule b.module).render) ∧
    ∀ hook ∈ (RenderSource.ofModule b.module).hooks,
      hook.id ∈ (TypeResolvers.ofModule b.module).resolvers.map (·.id) := by
  obtain ⟨run, hrun⟩ := Options.normalize_of_build hbuild
  obtain ⟨steps⟩ := Options.exists_steps hrun hbuild
  rw [steps.options_eq] at hname hmanifest hheaders ⊢
  -- the module has the name of the options, so the layout is sound, and its ids are fit for the table
  have hl : run.layout.Sound := by
    apply Options.layout_of_normalize _ hrun
    rwa [Options.tidied_of_normalize hrun] at hname
  have hmodule : Text.isIdentifier b.module.name = true := by rwa [steps.name_eq, Text.trim_of_isIdentifier hname]
  obtain ⟨d, hparse, hown, hbodies⟩ := parse_updateTypeIds (steps.enumeratorName hmodule) steps.typeIds_eq hmodule
  refine ⟨steps.get?_typesResolvers hl hmanifest.2 hheaders, TypeResolvers.perm_resolvers b.module,
    ⟨steps.typeIds.text, d, steps.get?_typeIds hl hmanifest.1, hparse, hown, ?_⟩,
    fun hrender hplace => steps.get?_renderSource hl hrender hplace, fun hook => RenderSource.id_mem_of_mem_hooks⟩
  intro block hblock hblockName
  -- the table has the ids in byte order, the resolvers in the order of full names
  have hlines : (idLines (b.module.entries.map (·.id))).Perm
      (((TypeResolvers.ofModule b.module).resolvers.map (·.id)).map (· ++ ",")) :=
    ((Text.sort_perm _).trans (TypeResolvers.perm_ids b.module).symm).map _
  rw [hbodies block hblock hblockName]
  refine (hlines.map (block.indent ++ ·)).trans (List.Perm.of_eq ?_)
  rw [List.map_map, List.map_map]
  rfl

/-- A header of a module, and what the tables have been before. -/
def headerAndTables (header typeIds dependencies : Text) : FileTree :=
  (((FileTree.place {} "m.list" "m.h\n").place "m.h" header).place
    "packages/glue/public/include/glue/type_ids.ar.h" typeIds).place
    "packages/glue/public/include/glue/dependency_tree.ar.h" dependencies

/-- A class with a render hook and an external type, and a table in which the module has two blocks from before. -/
def twoBlocks : FileTree :=
  headerAndTables
    ("AGEA_ar_package(render.has_overrides=true)\nAGEA_ar_external_type()\nx::B\n" ++
      "AGEA_ar_class(render_constructor=make)\nclass A\n")
    "\t// block start m\n\tm__old,\n\t// block end m\n// block start m\n// block end m\n" ""

/-- Options for the module, with a place for the manifest and a namespace. -/
def tableIdsOptions (manifest scope : Text) : Options := { packageName := "m", scope, configList := "m.list", manifest }

theorem type_ids_of_two_blocks :
    ∃ b, ((tableIdsOptions "" "").build twoBlocks).outcome = .ok b ∧
      (∃ table d, b.set.get? b.options.layout.typeIds = some table ∧ BlockDocument.parse table = .ok d ∧
        (∃ block ∈ d.blocks, block.name = "m") ∧
        ∀ block ∈ d.blocks, block.name = "m" → block.body.Perm [block.indent ++ "m__A,", block.indent ++ "m__B,"]) ∧
      b.set.get? b.options.layout.renderSource = some (RenderSource.ofModule b.module).render ∧
      ∀ hook ∈ (RenderSource.ofModule b.module).hooks, hook.id ∈ (["m__A", "m__B"] : List Text) := by
  have hfacts : ((tableIdsOptions "" "").build twoBlocks).outcome.map (fun b =>
      (Text.isIdentifier b.options.packageName,
        (decide (cleanPath b.options.manifest ≠ b.options.layout.typeIds ∧
          cleanPath b.options.manifest ≠ b.options.layout.typesResolvers),
        decide (∀ e ∈ b.module.classes, b.options.layout.classHeader e.name ≠ b.options.layout.typesResolvers),
        decide (b.module.hasRender = true ∧ cleanPath b.options.manifest ≠ b.options.layout.renderSource)),
        b.module.name, b.module.entries.map (·.id))) =
      .ok (true, (true, true, true), "m", ["m__A", "m__B"]) := by
    decide +kernel
  cases hbuild : ((tableIdsOptions "" "").build twoBlocks).outcome with
  | error error => rw [hbuild] at hfacts; cases hfacts
  | ok b =>
    rw [hbuild] at hfacts
    simp only [Except.map, Except.ok.injEq, Prod.mk.injEq, decide_eq_true_eq] at hfacts
    obtain ⟨hname, ⟨hmanifest, hheaders, hrender, hplace⟩, hmodule, hids⟩ := hfacts
    obtain ⟨-, hperm, ⟨table, d, htable, hparse, hown, hbodies⟩, hsource, hhooks⟩ :=
      type_ids_agree hbuild hname hmanifest hheaders
    have hresolved : ((TypeResolvers.ofModule b.module).resolvers.map (·.id)).Perm (["m__A", "m__B"] : List Text) := by
      refine (hperm.map (·.id)).trans (List.Perm.of_eq ?_)
      rw [List.map_map]
      exact hids
    rw [hmodule] at hown hbodies
    refine ⟨b, rfl, ⟨table, d, htable, hparse, hown, fun block hblock hblockName => ?_⟩, hsource hrender hplace, ?_⟩
    · have hlines := hresolved.map fun id => block.indent ++ (id ++ ",")
      rw [List.map_map] at hlines
      exact (hbodies block hblock hblockName).trans hlines
    · exact fun hook hhook => hresolved.mem_iff.mp (hhooks hook hhook)

/-! ## §4 Other files at these places -/

/-- The bodies of the blocks of the module, in what a build produces in the place of the table of type ids. -/
def Build.tableBodies (b : Build) : Option (List (List Text)) := do
  let table ← b.set.get? b.options.layout.typeIds
  let d ← (BlockDocument.parse table).toOption
  return (d.blocks.filter (·.name = b.module.name)).map (·.body)

/-- What the lines that tell ids tell, in what a build produces in the place of the resolvers. -/
def Build.resolvedIds (b : Build) : Option (List Text) := do
  let text ← b.set.get? b.options.layout.typesResolvers
  return (Text.splitOn Text.lineFeed text).filterMap (Text.stripPrefix? "        value = ::agea::")

/-- A class of a name, and empty tables. -/
def oneClass (name : Text) : FileTree := headerAndTables ("AGEA_ar_class()\nclass " ++ name ++ "\n") "" ""

/-- **Other files at these places.** The manifest may be put in the place of the resolvers, and the name of a class may
lead there. In both cases the table lists the id of the class, and no resolver tells it. The manifest may be put in the
place of the table as well, and then the namespace that it records may hold a block of the module. -/
theorem ids_without_resolvers :
    ((tableIdsOptions "packages/m/public/include/packages/m/types_resolvers.ar.h" "").build
        (oneClass "A")).outcome.map (fun b => (b.tableBodies, b.resolvedIds)) =
      .ok (some [["    m__A,"]], some []) ∧
    ((tableIdsOptions "" "").build (oneClass "../types_resolvers")).outcome.map
        (fun b => (b.tableBodies, b.resolvedIds)) =
      .ok (some [["    m__../types_resolvers,"]], some []) ∧
    ((tableIdsOptions "packages/glue/public/include/glue/type_ids.ar.h"
          "a\n// block start m\nm__B,\n// block end m").build (oneClass "A")).outcome.map
        (fun b => (b.tableBodies, b.resolvedIds)) =
      .ok (some [["    m__B,"]], some ["m__A"]) := by
  refine ⟨?_, ?_, ?_⟩ <;> decide +kernel

end HeaderReflection
