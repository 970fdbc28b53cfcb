import HeaderReflection.Proofs.Generation.Sources
import HeaderReflection.Watcher

/-!
# Inputs of a watched module

A watcher finds out on its own which files its module is generated from: it reads the config list and takes the files of
the headers that the list names. A build reads the same list and opens the headers one after the other, up to the first
one that it cannot read. When every header can be read, the two agree, for every spelling of the paths and whatever has
been watched before.

A build puts its options into normal form once more. A config list whose normal form is blank is refused there, so the
watcher then watches headers that no build opens.

## Main definitions

- `RunOptions.Lists`: what the config list of a tree names.
- `RunOptions.opened`, `Options.opened`: the header files that a build opens.

## Main results

- `RunOptions.openedFrom_of_ok`: a build that reads all of its headers opens all of their files.
- `RunOptions.readHeaders_of_opened`: what headers say depends on the opened files alone.
- `Watcher.relevant_refresh`: what is relevant once the list of watched files is up to date.
- `relevant_exactly_inputs`: the watched files are those that a build opens.
-/

namespace HeaderReflection

/-! ## §1 What the config list names -/

namespace RunOptions

variable {o : RunOptions} {tree tree' : FileTree} {m : Module} {headers : List Text}

/-- A header is listed if a line of the config list names it and no pattern leaves it out. -/
def Lists (o : RunOptions) (tree : FileTree) (header : Text) : Prop :=
  ∃ list, tree.read o.configList = .ok list ∧
    ∃ line ∈ Text.splitOn Text.lineFeed list, headerOfLine? line = some header ∧ o.excluded header = false

theorem mem_headersOfList {list header : Text} :
    header ∈ o.headersOfList list ↔
      ∃ line ∈ Text.splitOn Text.lineFeed list, headerOfLine? line = some header ∧ o.excluded header = false := by
  unfold headersOfList
  rw [Text.mem_dedup, List.mem_filter, List.mem_filterMap, Bool.not_eq_true']
  constructor
  · rintro ⟨⟨line, hline, hheader⟩, hkept⟩
    exact ⟨line, hline, hheader, hkept⟩
  · rintro ⟨line, hline, hheader, hkept⟩
    exact ⟨⟨line, hline, hheader⟩, hkept⟩

theorem mem_headers (h : o.headers tree = .ok headers) {header : Text} : header ∈ headers ↔ o.Lists tree header := by
  unfold RunOptions.headers at h
  unfold Lists
  cases hread : tree.read o.configList with
  | error error =>
    rw [hread] at h
    cases h
  | ok list =>
    rw [hread] at h
    dsimp only at h
    split at h
    · cases h
    · cases h
      simp only [Except.ok.injEq, exists_eq_left']
      exact mem_headersOfList

theorem headers_of_read_eq (h : tree'.read o.configList = tree.read o.configList) :
    o.headers tree' = o.headers tree := by
  unfold RunOptions.headers
  rw [h]

/-! ## §2 Opened files -/

/-- The header files that are opened to read headers into a module, in their order. A header that cannot be read or
has a fault is the last one. -/
def openedFrom (o : RunOptions) (tree : FileTree) : Module → List Text → List Text
  | _, [] => []
  | m, header :: headers =>
    o.headerFile header ::
      match (o.readHeader tree m header).outcome with
      | .ok m => o.openedFrom tree m headers
      | .error _ => []

/-- The header files that a build with options in normal form opens. -/
def opened (o : RunOptions) (tree : FileTree) : List Text :=
  match o.headers tree with
  | .ok headers => o.openedFrom tree (Module.empty o.packageName o.scope) headers
  | .error _ => []

theorem openedFrom_prefix_files : o.openedFrom tree m headers <+: headers.map o.headerFile := by
  induction headers generalizing m with
  | nil => exact List.prefix_rfl
  | cons header headers ih =>
    rw [openedFrom, List.map_cons, List.prefix_cons_inj]
    cases (o.readHeader tree m header).outcome with
    | error error => exact List.nil_prefix
    | ok read => exact ih

/-- **All header files are opened** if all headers can be read. -/
theorem openedFrom_of_ok {scanned : Module} (h : (o.readHeaders tree m headers).outcome = .ok scanned) :
    o.openedFrom tree m headers = headers.map o.headerFile := by
  induction headers generalizing m with
  | nil => rfl
  | cons header headers ih =>
    rw [readHeaders, Logged.outcome_bind, bind_eq_ok] at h
    obtain ⟨read, hread, hrest⟩ := h
    rw [openedFrom, hread, List.map_cons]
    exact congrArg _ (ih hrest)

/-- **What headers say depends on the opened files alone.** -/
theorem readHeaders_of_opened (h : ∀ file ∈ o.openedFrom tree m headers, tree'.read file = tree.read file) :
    o.readHeaders tree' m headers = o.readHeaders tree m headers := by
  induction headers generalizing m with
  | nil => rfl
  | cons header headers ih =>
    rw [openedFrom, List.forall_mem_cons] at h
    obtain ⟨hfirst, hrest⟩ := h
    have hread : o.readHeader tree' m header = o.readHeader tree m header := by
      unfold readHeader
      rw [hfirst]
    rw [readHeaders, readHeaders, hread]
    -- the other headers are read only if the first one has been, and then their files are opened
    apply Logged.bind_congr_ok
    intro read hread
    rw [hread] at hrest
    exact ih hrest

theorem exists_lists_of_mem_opened {file : Text} (h : file ∈ o.opened tree) :
    ∃ header, o.Lists tree header ∧ file = o.headerFile header := by
  unfold opened at h
  cases hheaders : o.headers tree with
  | error error =>
    rw [hheaders] at h
    cases h
  | ok headers =>
    rw [hheaders] at h
    obtain ⟨header, hheader, rfl⟩ := List.mem_map.mp (openedFrom_prefix_files.subset h)
    exact ⟨header, (mem_headers hheaders).mp hheader, rfl⟩

theorem mem_opened_of_scan {scanned : Module} (h : o.scan tree = .ok scanned) {file : Text} :
    file ∈ o.opened tree ↔ ∃ header, o.Lists tree header ∧ file = o.headerFile header := by
  refine ⟨exists_lists_of_mem_opened, ?_⟩
  rintro ⟨header, hlisted, rfl⟩
  obtain ⟨headers, hheaders, hread⟩ := scan_ok.mp h
  unfold opened
  rw [hheaders]
  dsimp only
  rw [openedFrom_of_ok hread]
  exact List.mem_map_of_mem ((mem_headers hheaders).mpr hlisted)

theorem scan_of_opened (hlist : tree'.read o.configList = tree.read o.configList)
    (h : ∀ file ∈ o.opened tree, tree'.read file = tree.read file) : o.scan tree' = o.scan tree := by
  unfold scan
  rw [headers_of_read_eq hlist]
  unfold opened at h
  cases hheaders : o.headers tree with
  | error error => rfl
  | ok headers =>
    rw [hheaders] at h
    exact congrArg Logged.outcome (readHeaders_of_opened h)

theorem Lists.congr {header : Text} (hlist : tree'.read o.configList = tree.read o.configList) :
    o.Lists tree' header ↔ o.Lists tree header := by
  unfold Lists
  rw [hlist]

end RunOptions

/-- The header files that a build opens: none if it refuses its options. -/
def Options.opened (o : Options) (tree : FileTree) : List Text :=
  match o.normalize with
  | .ok run => run.opened tree
  | .error _ => []

theorem Options.opened_of_normalize {o : Options} {run : RunOptions} (h : o.normalize = .ok run) (tree : FileTree) :
    o.opened tree = run.opened tree := by
  unfold Options.opened
  rw [h]

/-! ## §3 Watched files -/

namespace Watcher

variable {w next : Watcher} {tree : FileTree}

theorem outcome_refresh (w : Watcher) (tree : FileTree) :
    (w.refresh tree).outcome = (w.options.headers tree).map fun headers =>
      { w with
        watched := Text.dedup (inputFiles w.options headers)
        dirs := (listen tree w.dirs (inputFiles w.options headers)).1 } := by
  unfold refresh
  simp only [Logged.outcome_bind, Logged.outcome_ofExcept, Logged.outcome_notes, Logged.outcome_pure]
  cases w.options.headers tree with
  | error error => rfl
  | ok headers => rfl

/-- **What is relevant** once the list of watched files is up to date: the config list and what it names. -/
theorem relevant_refresh (hconfig : cleanPath w.options.configList = w.options.configList)
    (hsource : w.options.source ≠ []) (h : (w.refresh tree).outcome = .ok next) (path : Text) :
    next.relevant path = true ↔ cleanPath path = w.options.configList ∨
      ∃ header, w.options.Lists tree header ∧ cleanPath path = w.options.headerFile header := by
  rw [outcome_refresh] at h
  cases hheaders : w.options.headers tree with
  | error error =>
    rw [hheaders] at h
    cases h
  | ok headers =>
    rw [hheaders] at h
    cases h
    -- joining a name to the directory of the headers gives a path in normal form already
    have hclean : ∀ header, cleanPath (w.options.headerFile header) = w.options.headerFile header :=
      fun header => RunOptions.cleanPath_joinPath hsource [header]
    show (Text.dedup (inputFiles w.options headers)).contains (cleanPath path) = true ↔ _
    rw [List.contains_iff_mem, Text.mem_dedup, inputFiles, List.mem_cons, hconfig, List.mem_map]
    simp only [hclean, RunOptions.mem_headers hheaders, eq_comm]

/-- A rebuild goes on with the list that could be brought up to date, or else with the one it had. -/
theorem fst_rebuild (w : Watcher) (tree : FileTree) (changed : List Text) :
    (w.rebuild tree changed).1 = match (w.refresh tree).outcome with
      | .ok next => next
      | .error _ => w := by
  unfold rebuild
  dsimp only
  cases (w.refresh tree).outcome with
  | error error => rfl
  | ok next => rfl

end Watcher

/-- **The watcher watches exactly the inputs of its module.** Whatever it has watched so far, once its list is up to date
it takes a file for relevant exactly if the file is the config list or a header that the list names. These are the files
that a build opens if all headers can be read, whatever the headers say, and a build opens no other header in any case;
so nothing that is not relevant bears on what is scanned. A list that cannot be brought up to date stays as it is, and
so do the directories. -/
theorem relevant_exactly_inputs {o : Options} {w : Watcher} (hoptions : o.normalize = .ok w.options)
    (hlist : w.options.configList.isBlank = false) (tree : FileTree) :
    (∀ next, (w.refresh tree).outcome = .ok next →
      (∀ path, next.relevant path = true ↔ cleanPath path = w.options.configList ∨
        ∃ header, w.options.Lists tree header ∧ cleanPath path = w.options.headerFile header) ∧
      (∀ tree' scanned, tree'.read w.options.configList = tree.read w.options.configList →
        w.options.scan tree' = .ok scanned →
        ∀ path, next.relevant path = true ↔
          cleanPath path = w.options.configList ∨ cleanPath path ∈ w.options.toOptions.opened tree') ∧
      (∀ file ∈ w.options.toOptions.opened tree, next.relevant file = true) ∧
      ∀ tree', (∀ path, next.relevant path = true → tree'.read path = tree.read path) →
        w.options.scan tree' = w.options.scan tree) ∧
    ∀ error, (w.refresh tree).outcome = .error error → ∀ changed, (w.rebuild tree changed).1 = w := by
  obtain ⟨hconfig, hsource⟩ := Options.paths_of_normalize hoptions
  -- a build puts the options into normal form once more, and leaves them as they are
  have hagain := Options.normalize_of_normalize hoptions hlist
  refine ⟨?_, fun error h changed => by rw [Watcher.fst_rebuild, h]⟩
  intro next hnext
  have hrelevant := Watcher.relevant_refresh hconfig hsource hnext
  have hopened : ∀ file ∈ w.options.opened tree, next.relevant file = true := by
    intro file hfile
    obtain ⟨header, hlisted, rfl⟩ := RunOptions.exists_lists_of_mem_opened hfile
    exact (hrelevant _).mpr (Or.inr ⟨header, hlisted, RunOptions.cleanPath_joinPath hsource [header]⟩)
  refine ⟨hrelevant, ?_, ?_, ?_⟩
  · intro tree' scanned hsame hscan path
    rw [hrelevant, Options.opened_of_normalize hagain, RunOptions.mem_opened_of_scan hscan]
    simp only [RunOptions.Lists.congr hsame]
  · rwa [Options.opened_of_normalize hagain]
  · intro tree' hsame
    apply RunOptions.scan_of_opened
    · exact hsame _ ((hrelevant _).mpr (Or.inl hconfig))
    · exact fun file hfile => hsame file (hopened file hfile)

/-! ## §4 Two config lists -/

/-- A watcher for options that are accepted, and the files that it has watched so far. -/
def Options.watcher (o : Options) (watched : List Text) : Watcher where
  options := { toOptions := o.tidied, patterns := o.exclude.filterMap PathPattern.ofText? }
  debounce := Watcher.usualDebounce
  watched := watched

/-- A config list with a comment, a header in two spellings, and one that is left out. -/
def shortList : FileTree where
  nodes := [(⟨false, ["m.list"]⟩, .file "# old.h\n./a.h\n\"x/../a.h\"\nskip/b.h\n"), (⟨false, ["src"]⟩, .directory),
    (⟨false, ["src", "a.h"]⟩, .file "AGEA_ar_class()\nclass a\n")]

def shortListOptions : Options :=
  { packageName := "m", source := "src/.", configList := "./m.list", exclude := ["skip/*"] }

/-- The watcher of the config list, which has named another header before. -/
def shortListWatcher : Watcher := shortListOptions.watcher ["m.list", "src/old.h"]

/-- The header that the list has lost, the comment and what is left out are not relevant. -/
theorem relevant_exactly_of_shortList :
    shortListOptions.normalize = .ok shortListWatcher.options ∧ shortListWatcher.relevant "src/old.h" = true ∧
      ∃ next scanned, (shortListWatcher.refresh shortList).outcome = .ok next ∧
        shortListWatcher.options.scan shortList = .ok scanned ∧
        ∀ path, next.relevant path = true ↔ cleanPath path = "m.list" ∨ cleanPath path = "src/a.h" := by
  have hoptions : shortListOptions.normalize = .ok shortListWatcher.options := rfl
  obtain ⟨next, hnext⟩ : ∃ next, (shortListWatcher.refresh shortList).outcome = .ok next := ⟨_, rfl⟩
  obtain ⟨scanned, hscan⟩ : ∃ scanned, shortListWatcher.options.scan shortList = .ok scanned := ⟨_, rfl⟩
  have hlist : shortListWatcher.options.configList = "m.list" := by decide +kernel
  have hopened : shortListWatcher.options.toOptions.opened shortList = [Text.ofString "src/a.h"] := by decide +kernel
  refine ⟨hoptions, by decide +kernel, next, scanned, hnext, hscan, fun path => ?_⟩
  have hrelevant := ((relevant_exactly_inputs hoptions (by decide +kernel) shortList).1 next hnext).2.1
  rw [hrelevant shortList scanned rfl hscan path, hlist, hopened, List.mem_singleton]

/-- A config list whose name is a blank. It is accepted if a dot and a slash stand in front of it. -/
def blankList : FileTree where
  nodes := [(⟨false, [" "]⟩, .file "a.h\n"), (⟨false, ["a.h"]⟩, .file "")]

def blankListOptions : Options := { packageName := "m", configList := "./ " }

/-- A header that is watched although no build opens it, since every build refuses the options. -/
theorem relevant_unopened_of_blankList :
    blankListOptions.normalize = .ok (blankListOptions.watcher []).options ∧
      ∃ next scanned, ((blankListOptions.watcher []).refresh blankList).outcome = .ok next ∧
        (blankListOptions.watcher []).options.scan blankList = .ok scanned ∧
        ((blankListOptions.watcher []).options.toOptions.build blankList).outcome =
          .error (.options .missingConfigList) ∧
        ¬ (next.relevant "a.h" = true ↔ cleanPath "a.h" = (blankListOptions.watcher []).options.configList ∨
          cleanPath "a.h" ∈ (blankListOptions.watcher []).options.toOptions.opened blankList) := by
  refine ⟨rfl, _, _, rfl, rfl, ?_, ?_⟩
  · rfl
  · decide +kernel

end HeaderReflection
