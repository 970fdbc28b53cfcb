import HeaderReflection.Proofs.Generation.Builds
import HeaderReflection.Proofs.Header.Declared
import HeaderReflection.Proofs.Lineage.ScanOrder
import HeaderReflection.Proofs.Table.Updates

/-!
# Sources

A module is made from its config list and its headers, and from nothing else: in two file trees in which these are the
same, the same module is scanned. Whatever the headers say, its types have ids that a table can hold.

## Main definitions

- `RunOptions.sources`: the files that a module is made from.
- `Module.IsScanned`: what holds of a module after headers have been read.

## Main results

- `RunOptions.readHeaders_ok`: reading headers from files is reading their texts.
- `RunOptions.scan_congr`: the same sources give the same module.
- `IsScanned.enumeratorName`: ids are fit for the table of type ids.
-/

namespace HeaderReflection

/-! ## §1 Headers and their texts -/

namespace RunOptions

variable {o : RunOptions} {tree : FileTree}

/-- The files that a module is made from. -/
def sources (o : RunOptions) (tree : FileTree) : List Text :=
  o.configList :: match o.headers tree with
    | .ok headers => headers.map o.headerFile
    | .error _ => []

theorem readHeader_ok {m read : Module} {header text : Text} (h : tree.read (o.headerFile header) = .ok text) :
    (o.readHeader tree m header).outcome = .ok read ↔
      (m.readHeader header text).error = none ∧ (m.readHeader header text).module = read := by
  unfold readHeader
  rw [h]
  simp only [Logged.outcome_bind, Logged.outcome_notes]
  cases (m.readHeader header text).error with
  | some error => simp [bind_eq_ok]
  | none => simp [bind_eq_ok]

/-- **Reading headers from files is reading their texts.** -/
theorem readHeaders_ok {m scanned : Module} {headers : List Text} :
    (o.readHeaders tree m headers).outcome = .ok scanned ↔
      ∃ texts : List (Text × Text), texts.map (·.1) = headers ∧
        (∀ header ∈ texts, tree.read (o.headerFile header.1) = .ok header.2) ∧ m.readAll texts = .ok scanned := by
  induction headers generalizing m with
  | nil =>
    rw [readHeaders, Logged.outcome_pure]
    constructor
    · intro h
      cases h
      exact ⟨[], rfl, by simp, rfl⟩
    · rintro ⟨texts, hnil, -, h⟩
      rw [List.map_eq_nil_iff.mp hnil, Module.readAll] at h
      cases h
      rfl
  | cons header headers ih =>
    -- a file is read right before its text is, so that the texts are known only at the end of the run
    rw [readHeaders, Logged.outcome_bind, bind_eq_ok]
    constructor
    · rintro ⟨read, hread, hrest⟩
      obtain ⟨texts, rfl, hreads, hall⟩ := ih.mp hrest
      cases htext : tree.read (o.headerFile header) with
      | error error =>
        unfold readHeader at hread
        rw [htext] at hread
        cases hread
      | ok text =>
        obtain ⟨herror, rfl⟩ := (readHeader_ok htext).mp hread
        refine ⟨(header, text) :: texts, rfl, List.forall_mem_cons.mpr ⟨htext, hreads⟩, ?_⟩
        rw [Module.readAll, herror]
        exact hall
    · rintro ⟨texts, hnames, hreads, hall⟩
      obtain ⟨⟨name, text⟩, texts, rfl⟩ : ∃ first rest, texts = first :: rest := by
        cases texts with
        | nil => cases hnames
        | cons first rest => exact ⟨first, rest, rfl⟩
      rw [List.map_cons, List.cons.injEq] at hnames
      obtain ⟨rfl, rfl⟩ := hnames
      obtain ⟨hread, hreads⟩ := List.forall_mem_cons.mp hreads
      rw [Module.readAll] at hall
      cases herror : (m.readHeader name text).error with
      | some error => rw [herror] at hall; cases hall
      | none =>
        rw [herror] at hall
        exact ⟨_, (readHeader_ok hread).mpr ⟨herror, rfl⟩, ih.mpr ⟨texts, rfl, hreads, hall⟩⟩

theorem scan_iff {scanned : Module} :
    o.scan tree = .ok scanned ↔ ∃ texts : List (Text × Text), o.headers tree = .ok (texts.map (·.1)) ∧
      (∀ header ∈ texts, tree.read (o.headerFile header.1) = .ok header.2) ∧
      (Module.empty o.packageName o.scope).readAll texts = .ok scanned := by
  rw [scan_ok]
  constructor
  · rintro ⟨headers, hheaders, hread⟩
    obtain ⟨texts, rfl, hreads, hall⟩ := readHeaders_ok.mp hread
    exact ⟨texts, hheaders, hreads, hall⟩
  · rintro ⟨texts, hheaders, hreads, hall⟩
    exact ⟨_, hheaders, readHeaders_ok.mpr ⟨texts, rfl, hreads, hall⟩⟩

/-! ## §2 The same sources -/

/-- A file that is read in one tree is read in another one that has the same content at its place. -/
theorem read_congr {tree tree' : FileTree} (htree : tree.WellFormed) (htree' : tree'.WellFormed) {path text : Text}
    (hclean : cleanPath path = path)
    (hsame : tree'.contentAt (FilePath.parse path) = tree.contentAt (FilePath.parse path))
    (h : tree.read path = .ok text) : tree'.read path = .ok text := by
  have hnormal := FilePath.normal_parse path
  have hrender : path = (FilePath.parse path).render := hclean.symm
  rw [hrender, FileTree.read_eq_ok_iff htree hnormal] at h
  rw [hrender, FileTree.read_eq_ok_iff htree' hnormal, hsame, h]

theorem cleanPath_joinPath {first : Text} (hfirst : first ≠ []) (parts : List Text) :
    cleanPath (joinPath (first :: parts)) = joinPath (first :: parts) :=
  cleanPath_joinPath_of_mem List.mem_cons_self hfirst

theorem headers_congr {tree tree' : FileTree} (htree : tree.WellFormed) (htree' : tree'.WellFormed)
    (hconfig : cleanPath o.configList = o.configList)
    (hsame : tree'.contentAt (FilePath.parse o.configList) = tree.contentAt (FilePath.parse o.configList))
    {headers : List Text} (h : o.headers tree = .ok headers) : o.headers tree' = .ok headers := by
  unfold RunOptions.headers at h ⊢
  cases hread : tree.read o.configList with
  | error error => rw [hread] at h; cases h
  | ok list =>
    rw [hread] at h
    rw [read_congr htree htree' hconfig hsame hread]
    exact h

/-- **The same sources give the same module**, whatever else is in the tree. -/
theorem scan_congr {tree tree' : FileTree} (htree : tree.WellFormed) (htree' : tree'.WellFormed)
    (hconfig : cleanPath o.configList = o.configList) (hsource : o.source ≠ [])
    (hsame : ∀ source ∈ o.sources tree,
      tree'.contentAt (FilePath.parse source) = tree.contentAt (FilePath.parse source))
    {scanned : Module} (h : o.scan tree = .ok scanned) : o.scan tree' = .ok scanned := by
  obtain ⟨texts, hheaders, hreads, hall⟩ := scan_iff.mp h
  have hheaders' := headers_congr htree htree' hconfig (hsame o.configList List.mem_cons_self) hheaders
  refine scan_iff.mpr ⟨texts, hheaders', ?_, hall⟩
  intro header hheader
  have hmem : o.headerFile header.1 ∈ o.sources tree := by
    unfold sources
    rw [hheaders]
    exact List.mem_cons_of_mem _ (List.mem_map_of_mem (List.mem_map_of_mem hheader))
  exact read_congr htree htree' (cleanPath_joinPath hsource _) (hsame _ hmem) (hreads header hheader)

/-- The sources are the same if one of them, the config list, is. -/
theorem sources_congr {tree tree' : FileTree} (htree : tree.WellFormed) (htree' : tree'.WellFormed)
    (hconfig : cleanPath o.configList = o.configList)
    (hsame : tree'.contentAt (FilePath.parse o.configList) = tree.contentAt (FilePath.parse o.configList))
    {scanned : Module} (h : o.scan tree = .ok scanned) : o.sources tree' = o.sources tree := by
  obtain ⟨texts, hheaders, -⟩ := scan_iff.mp h
  unfold sources
  rw [headers_congr htree htree' hconfig hsame hheaders, hheaders]

end RunOptions

/-! ## §3 What is scanned -/

/-- Resolution keeps the name of a module. -/
theorem Module.name_resolve (m : Module) : m.resolve.module.name = m.name := by
  unfold Module.resolve
  dsimp only
  split <;> rfl

/-- What holds of a module after headers have been read: its name, and types that have no ids yet. -/
structure Module.IsScanned (name : Text) (m : Module) : Prop where
  name_eq : m.name = name
  entries : ∃ ds : List Declaration, m.entries = entriesOf ds ∧ ∀ d ∈ ds, d.IsRead

namespace Module.IsScanned

variable {name : Text} {m : Module}

theorem readAll (h : m.IsScanned name) {texts : List (Text × Text)} {scanned : Module}
    (hall : m.readAll texts = .ok scanned) : scanned.IsScanned name := by
  obtain ⟨ds, hds, hread⟩ := h.entries
  obtain ⟨hname, added, hentries, hnamed⟩ := Module.readAll_entries hall hds
  refine ⟨hname.trans h.name_eq, ds ++ added, hentries, ?_⟩
  rw [List.forall_mem_append]
  exact ⟨hread, fun d hd => (hnamed d hd).isRead⟩

theorem mem_entries (h : m.IsScanned name) {e : Entry} (he : e ∈ m.entries) : e.toDeclaration.IsRead ∧ e.id = [] := by
  obtain ⟨ds, hds, hread⟩ := h.entries
  rw [hds] at he
  obtain ⟨⟨d, serial⟩, hd, rfl⟩ := List.mem_map.mp he
  exact ⟨hread d (List.fst_mem_of_mem_zipIdx hd), rfl⟩

theorem emit_ok (h : m.IsScanned name) (layout : Layout) : ∃ files, m.resolve.module.emit layout = .ok files := by
  apply Module.emit_ok
  apply isKnown_of_resolve
  exact fun e he => (h.mem_entries he).1.kind

end Module.IsScanned

theorem RunOptions.isScanned_of_scan {o : RunOptions} {tree : FileTree} {scanned : Module}
    (h : o.scan tree = .ok scanned) : scanned.IsScanned o.packageName.trim := by
  obtain ⟨texts, -, -, hall⟩ := RunOptions.scan_iff.mp h
  have hempty : (Module.empty o.packageName o.scope).IsScanned o.packageName.trim := ⟨rfl, [], rfl, by simp⟩
  exact hempty.readAll hall

/-! ## §4 Ids -/

theorem Text.mem_of_mem_splitOnText {sep text piece : Text} (h : piece ∈ splitOnText sep text) :
    ∀ b ∈ piece, b ∈ text := by
  -- for any fuel: where it runs out, the rest of the text is one piece
  have hall : ∀ (fuel : Nat) (text : Text), piece ∈ splitOnTextUpTo sep fuel text → ∀ b ∈ piece, b ∈ text := by
    intro fuel
    induction fuel with
    | zero =>
      intro text h b hb
      rw [splitOnTextUpTo, List.mem_singleton] at h
      exact h ▸ hb
    | succ fuel ih =>
      intro text h b hb
      rw [splitOnTextUpTo] at h
      split at h
      · rw [List.mem_singleton] at h
        exact h ▸ hb
      · next before after hcut =>
        have htext := Text.cut_eq_some hcut
        rw [htext]
        rcases List.mem_cons.mp h with rfl | h
        · simp [hb]
        · simp [ih after h b hb]
  exact hall text.length text h

/-- The bytes of an id come from the module and from the name, but for underscores. -/
theorem mem_typeId {module name : Text} {b : UInt8} (h : b ∈ typeId module name) :
    b ∈ module ∨ b = Text.byte '_' ∨ b ∈ name := by
  have hone : ("_" : Text) = [Text.byte '_'] := by decide
  have htwo : ("__" : Text) = [Text.byte '_', Text.byte '_'] := by decide
  unfold typeId at h
  split at h
  · simp only [htwo, List.mem_append, List.mem_cons, List.not_mem_nil, or_false, or_self] at h
    tauto
  · simp only [hone, idSegment, List.mem_append, List.mem_cons, List.not_mem_nil, or_false, List.mem_flatMap,
      List.mem_filter] at h
    rcases h with (h | h) | ⟨segment, ⟨hsegment, -⟩, h | h⟩
    · exact Or.inl h
    · exact Or.inr (Or.inl h)
    · exact Or.inr (Or.inl h)
    · exact Or.inr (Or.inr (Text.mem_of_mem_splitOnText hsegment b h))

theorem enumeratorName_typeId {module name : Text} (hmodule : Text.isIdentifier module = true)
    (hname : ∀ b ∈ name, Text.isBlankByte b = false) : EnumeratorName (typeId module name) := by
  have hbyte : ∀ b : UInt8, Text.isIdentifierByte b = false → Text.isBlankByte b = true → b ∉ typeId module name := by
    intro b hidentifier hblank hmem
    rcases mem_typeId hmem with h | rfl | h
    · exact Text.not_mem_of_isIdentifier hmodule hidentifier h
    · exact absurd hidentifier (by decide)
    · rw [hname b h] at hblank
      cases hblank
  refine ⟨?_, hbyte _ (by decide) (by decide), hbyte _ (by decide) (by decide)⟩
  cases module with
  | nil => exact absurd rfl (Text.ne_nil_of_isIdentifier hmodule)
  | cons b rest =>
    have hstart := Text.forall_mem_of_isIdentifier hmodule b List.mem_cons_self
    unfold typeId
    split
    · exact ⟨b, _, rfl, hstart⟩
    · exact ⟨b, _, rfl, hstart⟩

/-- **Ids are fit for the table**, whatever the headers say. -/
theorem Module.IsScanned.enumeratorName {name : Text} (hname : Text.isIdentifier name = true) {m : Module}
    (h : m.IsScanned name) (hacyclic : m.resolve.cycle = none) :
    ∀ id ∈ m.resolve.module.entries.map (·.id), EnumeratorName id := by
  intro id hid
  obtain ⟨e, he, rfl⟩ := List.mem_map.mp hid
  obtain ⟨e', he', -, -, hid⟩ := exists_of_mem_resolve he
  obtain ⟨hread, hnoId⟩ := h.mem_entries he'
  rw [hid hacyclic hnoId, h.name_eq]
  exact enumeratorName_typeId hname hread.name

end HeaderReflection
