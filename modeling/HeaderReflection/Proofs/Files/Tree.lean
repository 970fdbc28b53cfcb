import HeaderReflection.FileTree
import HeaderReflection.Proofs.Files.Paths

/-!
# File trees that hang together

In a file tree that hangs together everything stands in directories. In such a tree a path in normal form leads to what
stands at its place, and writing and removing files change that place only, apart from the directories that are made on
the way.

## Main definitions

- `FileTree.WellFormed`: everything stands in directories.
- `FileTree.contentAt`: the content of the file at a place.
- `FileTree.Writable`: a place where a file can be put.

## Main results

- `read_eq_ok_iff`: a path reads the content at its place.
- `writable_of_read`: what is read, or found missing, can be written.
- `makeDirs_spec`, `write_spec`, `node?_remove`: what writing and removing do to every place.
-/

namespace HeaderReflection.FileTree

open FilePath (Normal IsAbove Pushes)

/-- The content of the file at a place, if there is a file. -/
def contentAt (tree : FileTree) (place : FilePath) : Option Text :=
  match tree.node? place with
  | some (.file content) => some content
  | _ => none

/-- Everything stands in directories. -/
def WellFormed (tree : FileTree) : Prop :=
  ∀ place node, tree.node? place = some node → ∀ dir, dir.IsAbove place → tree.node? dir = some .directory

/-- **Well-formedness can be checked** node by node. -/
theorem wellFormed_of_nodes {tree : FileTree} (h : ∀ entry ∈ tree.nodes, ∀ n < entry.1.parts.length,
    tree.node? { entry.1 with parts := entry.1.parts.take n } = some .directory) : tree.WellFormed := by
  intro place node hnode dir hdir
  obtain ⟨n, hn, rfl⟩ := FilePath.isAbove_iff_take.mp hdir
  unfold node? at hnode
  split at hnode
  · -- above what is always there everything is always there
    next hthere =>
    unfold isAlwaysThere at hthere
    have hall : isAlwaysThere { place with parts := place.parts.take n } = true := by
      unfold isAlwaysThere
      rw [List.all_eq_true] at hthere ⊢
      exact fun part hpart => hthere part (List.mem_of_mem_take hpart)
    rw [node?, if_pos hall]
  · obtain ⟨entry, hfind, -⟩ := Option.map_eq_some_iff.mp hnode
    have hplace : entry.1 = place := by simpa using List.find?_some hfind
    have hdirectory := h entry (List.mem_of_find?_eq_some hfind) n (by rw [hplace]; exact hn)
    rwa [hplace] at hdirectory

/-- Where there is nothing, there is nothing below either. -/
theorem WellFormed.nothing_below {tree : FileTree} (htree : tree.WellFormed) {dir place : FilePath}
    (hnothing : tree.node? dir = none) (h : dir.IsAbove place) : tree.node? place = none := by
  cases hnode : tree.node? place with
  | none => rfl
  | some node =>
    rw [htree place node hnode dir h] at hnothing
    cases hnothing

theorem contentAt_eq_some_iff {tree : FileTree} {place : FilePath} {content : Text} :
    tree.contentAt place = some content ↔ tree.node? place = some (.file content) := by
  unfold contentAt
  split
  · next c h => rw [h]; simp
  · next h =>
    constructor
    · intro hnone; cases hnone
    · intro hfile; exact absurd hfile (h content)

theorem contentAt_eq_none_iff {tree : FileTree} {place : FilePath} :
    tree.contentAt place = none ↔ ∀ content, tree.node? place ≠ some (.file content) := by
  rw [Option.eq_none_iff_forall_not_mem]
  exact forall_congr' fun content => not_congr contentAt_eq_some_iff

theorem contentAt_congr {tree tree' : FileTree} {place : FilePath} (h : tree.node? place = tree'.node? place) :
    tree.contentAt place = tree'.contentAt place := by
  unfold contentAt
  rw [h]

/-! ## §1 Following paths -/

/-- Where components lead: to the end if all that they pass are directories, or else to the first that is none. -/
theorem foldlM_enter (tree : FileTree) {rooted : Bool} {stack parts : List Text} (h : Pushes rooted stack parts) :
    ((∀ n, n < parts.length → tree.node? { rooted, parts := stack.reverse ++ parts.take n } = some .directory) ∧
      parts.foldlM (tree.enter rooted) stack = .ok (parts.reverse ++ stack)) ∨
    ∃ n, n < parts.length ∧
      (∀ k, k < n → tree.node? { rooted, parts := stack.reverse ++ parts.take k } = some .directory) ∧
      ((tree.node? { rooted, parts := stack.reverse ++ parts.take n } = none ∧
          parts.foldlM (tree.enter rooted) stack = .error .notExist) ∨
        ∃ content, tree.node? { rooted, parts := stack.reverse ++ parts.take n } = some (.file content) ∧
          parts.foldlM (tree.enter rooted) stack = .error .notDirectory) := by
  -- every step looks at the stack before it goes on, so that the last place of all is not looked at
  induction parts generalizing stack with
  | nil => exact Or.inl ⟨by simp, rfl⟩
  | cons part parts ih =>
    obtain ⟨hpart, hrest⟩ := h
    have hstart : ∀ k, { rooted, parts := (part :: stack).reverse ++ parts.take k : FilePath } =
        { rooted, parts := stack.reverse ++ (part :: parts).take (k + 1) } := by
      intro k
      simp
    cases hnode : tree.node? { rooted, parts := stack.reverse } with
    | none =>
      refine Or.inr ⟨0, by simp, by simp, Or.inl ⟨by simpa using hnode, ?_⟩⟩
      rw [List.foldlM_cons, enter, hnode]
      rfl
    | some node =>
      cases node with
      | file content =>
        refine Or.inr ⟨0, by simp, by simp, Or.inr ⟨content, by simpa using hnode, ?_⟩⟩
        rw [List.foldlM_cons, enter, hnode]
        rfl
      | directory =>
        have hstep : (part :: parts).foldlM (tree.enter rooted) stack =
            parts.foldlM (tree.enter rooted) (part :: stack) := by
          rw [List.foldlM_cons, enter, hnode]
          show parts.foldlM (tree.enter rooted) (FilePath.push rooted stack part) = _
          rw [hpart]
        rw [hstep]
        rcases ih hrest with ⟨hdirs, hok⟩ | ⟨n, hn, hdirs, hstop⟩
        · refine Or.inl ⟨?_, by rw [hok]; simp⟩
          intro k hk
          cases k with
          | zero => simpa using hnode
          | succ k => rw [← hstart]; exact hdirs k (by simpa using hk)
        · refine Or.inr ⟨n + 1, by simpa using hn, ?_, by rw [← hstart]; exact hstop⟩
          intro k hk
          cases k with
          | zero => simpa using hnode
          | succ k => rw [← hstart]; exact hdirs k (by omega)

theorem node?_of_isAlwaysThere {tree : FileTree} {place : FilePath} (h : isAlwaysThere place = true) :
    tree.node? place = some .directory := by
  rw [node?, if_pos h]

/-- The parts of a text that add nothing lead nowhere else. -/
theorem enter_start (tree : FileTree) (rooted : Bool) {part : Text} (h : part = [] ∨ part = FilePath.here) :
    tree.enter rooted [] part = .ok [] := by
  have hnode : tree.node? { rooted, parts := [] } = some .directory := node?_of_isAlwaysThere rfl
  unfold enter
  rw [List.reverse_nil, hnode]
  dsimp only
  rw [FilePath.push_of_nothing h]

theorem foldlM_splitOn_render (tree : FileTree) {p : FilePath} (hp : p.Normal) :
    (Text.splitOn FilePath.slash p.render).foldlM (tree.enter p.rooted) [] =
      p.parts.foldlM (tree.enter p.rooted) [] := by
  -- the text has an empty piece before a leading slash, and names the current directory by a dot
  by_cases hne : p.parts = []
  · cases hrooted : p.rooted with
    | true =>
      have hsplit : Text.splitOn FilePath.slash p.render = [[], []] := by
        simp [FilePath.render, hrooted, hne]
      rw [hsplit, hne, List.foldlM_cons, enter_start tree true (Or.inl rfl)]
      show List.foldlM (tree.enter true) [] [[]] = _
      rw [List.foldlM_cons, enter_start tree true (Or.inl rfl)]
      rfl
    | false =>
      have hsplit : Text.splitOn FilePath.slash p.render = [FilePath.here] := by
        simp only [FilePath.render, hrooted, hne]
        decide
      rw [hsplit, hne, List.foldlM_cons, enter_start tree false (Or.inr rfl)]
      rfl
  · rw [FilePath.splitOn_render hp hne]
    cases hrooted : p.rooted with
    | true =>
      show List.foldlM (tree.enter true) [] ([] :: p.parts) = _
      rw [List.foldlM_cons, enter_start tree true (Or.inl rfl)]
      rfl
    | false => rfl

/-- **Where a path leads**: to its place if all above it are directories, or else to the first of them that is none. -/
theorem locate_render (tree : FileTree) {p : FilePath} (hp : p.Normal) :
    ((∀ dir, dir.IsAbove p → tree.node? dir = some .directory) ∧ tree.locate p.render = .ok p) ∨
    ∃ dir, dir.IsAbove p ∧ (∀ above, above.IsAbove dir → tree.node? above = some .directory) ∧
      ((tree.node? dir = none ∧ tree.locate p.render = .error .notExist) ∨
        ∃ content, tree.node? dir = some (.file content) ∧ tree.locate p.render = .error .notDirectory) := by
  have hlocate : tree.locate p.render =
      (p.parts.foldlM (tree.enter p.rooted) []).map fun parts => { rooted := p.rooted, parts := parts.reverse } := by
    rw [locate, if_neg (FilePath.render_ne_nil hp), FilePath.beginsWith_slash_render hp]
    dsimp only
    cases hfold : p.parts.foldlM (tree.enter p.rooted) [] with
    | error reason =>
      rw [foldlM_splitOn_render tree hp, hfold]
      rfl
    | ok parts =>
      rw [foldlM_splitOn_render tree hp, hfold]
      rfl
  rw [hlocate]
  -- the places on the way are those above the path, outermost first
  rcases foldlM_enter tree hp.pushes with ⟨hdirs, hok⟩ | ⟨n, hn, hdirs, hstop⟩
  · refine Or.inl ⟨?_, by rw [hok]; simp [Except.map]⟩
    intro dir hdir
    obtain ⟨n, hn, rfl⟩ := FilePath.isAbove_iff_take.mp hdir
    simpa using hdirs n hn
  · refine Or.inr ⟨{ p with parts := p.parts.take n }, FilePath.isAbove_iff_take.mpr ⟨n, hn, rfl⟩, ?_, ?_⟩
    · intro above habove
      obtain ⟨k, hk, rfl⟩ := FilePath.isAbove_iff_take.mp habove
      have hkn : k < n := by
        simp only [List.length_take] at hk
        omega
      have htake : (p.parts.take n).take k = p.parts.take k := by
        rw [List.take_take, Nat.min_eq_left (Nat.le_of_lt hkn)]
      rw [htake]
      simpa using hdirs k hkn
    · rcases hstop with ⟨hnone, herror⟩ | ⟨content, hfile, herror⟩
      · exact Or.inl ⟨by simpa using hnone, by rw [herror]; rfl⟩
      · exact Or.inr ⟨content, by simpa using hfile, by rw [herror]; rfl⟩

/-! ## §2 Reading -/

/-- **A path reads the content at its place.** -/
theorem read_eq_ok_iff {tree : FileTree} (htree : tree.WellFormed) {p : FilePath} (hp : p.Normal) {content : Text} :
    tree.read p.render = .ok content ↔ tree.contentAt p = some content := by
  rw [contentAt_eq_some_iff]
  rcases locate_render tree hp with ⟨-, hlocate⟩ | ⟨dir, hdir, -, hstop⟩
  · rw [read, lookup, hlocate]
    dsimp only
    cases hnode : tree.node? p with
    | none => simp
    | some node => cases node <;> simp
  · -- what stands at the place would stand in a directory
    have hnone : tree.node? p ≠ some (.file content) := by
      intro hfile
      have hdirectory := htree p _ hfile dir hdir
      rcases hstop with ⟨hnode, -⟩ | ⟨c, hnode, -⟩ <;> rw [hnode] at hdirectory <;> cases hdirectory
    have hread : ∀ c, tree.read p.render ≠ .ok c := by
      intro c
      rcases hstop with ⟨-, herror⟩ | ⟨-, -, herror⟩ <;> simp [read, lookup, herror]
    exact ⟨fun h => absurd h (hread content), fun h => absurd h hnone⟩

/-- A place where a file can be put: no file is in its way, and it is no directory. -/
structure Writable (tree : FileTree) (place : FilePath) : Prop where
  above : ∀ dir, dir.IsAbove place → ∀ content, tree.node? dir ≠ some (.file content)
  free : tree.node? place ≠ some .directory

theorem Writable.isAlwaysThere {tree : FileTree} {place : FilePath} (h : tree.Writable place) :
    FileTree.isAlwaysThere place = false := by
  by_contra hthere
  exact h.free (node?_of_isAlwaysThere (by simpa using hthere))

/-- A place where a file can be put is a name in a directory. -/
theorem Writable.exists_parent {tree : FileTree} {place : FilePath} (h : tree.Writable place) :
    ∃ (dir : FilePath) (name : Text), place = dir.below [name] := by
  have hne : place.parts ≠ [] := by
    intro hnil
    have hthere := h.isAlwaysThere
    simp [FileTree.isAlwaysThere, hnil] at hthere
  refine ⟨{ place with parts := place.parts.dropLast }, place.parts.getLast hne, ?_⟩
  rw [FilePath.below, List.dropLast_append_getLast hne]

/-- **What is read can be written.** -/
theorem writable_of_read {tree : FileTree} (htree : tree.WellFormed) {p : FilePath} (hp : p.Normal) {content : Text}
    (h : tree.read p.render = .ok content) : tree.Writable p := by
  have hnode := contentAt_eq_some_iff.mp ((read_eq_ok_iff htree hp).mp h)
  constructor
  · intro dir hdir c hfile
    rw [htree p _ hnode dir hdir] at hfile
    cases hfile
  · rw [hnode]
    simp

/-- **What is found missing can be written.** -/
theorem writable_of_notExist {tree : FileTree} (htree : tree.WellFormed) {p : FilePath} (hp : p.Normal)
    {error : FileError} (h : tree.read p.render = .error error) (hreason : error.reason = .notExist) :
    tree.Writable p := by
  rcases locate_render tree hp with ⟨hdirs, hlocate⟩ | ⟨dir, hdir, hdirs, hstop⟩
  · constructor
    · intro above habove c hfile
      rw [hdirs above habove] at hfile
      cases hfile
    · intro hnode
      rw [read, lookup, hlocate] at h
      dsimp only at h
      rw [hnode] at h
      cases h
      cases hreason
  · rcases hstop with ⟨hnone, -⟩ | ⟨c, -, hlocate⟩
    · -- the first place that is missing has directories above it and nothing below it
      have hmissing : ∀ place, dir.IsAbove place → tree.node? place = none := by
        intro place hplace
        by_contra hne
        obtain ⟨node, hnode⟩ := Option.ne_none_iff_exists'.mp hne
        rw [htree place node hnode dir hplace] at hnone
        cases hnone
      constructor
      · intro above habove c hfile
        rcases habove.total hdir with rfl | hup | hdown
        · rw [hnone] at hfile; cases hfile
        · rw [hdirs above hup] at hfile; cases hfile
        · rw [hmissing above hdown] at hfile; cases hfile
      · rw [hmissing p hdir]
        simp
    · rw [read, lookup, hlocate] at h
      cases h
      cases hreason

/-- **Where a file can be put, there is a file or it is found missing.** -/
theorem read_of_writable {tree : FileTree} {p : FilePath} (hp : p.Normal) (h : tree.Writable p) :
    (∃ content, tree.read p.render = .ok content) ∨
      ∃ error, tree.read p.render = .error error ∧ error.reason = .notExist := by
  rcases locate_render tree hp with ⟨-, hlocate⟩ | ⟨dir, hdir, -, ⟨-, hlocate⟩ | ⟨content, hnode, -⟩⟩
  · unfold read lookup
    rw [hlocate]
    dsimp only
    cases hnode : tree.node? p with
    | none => exact Or.inr ⟨_, rfl, rfl⟩
    | some node =>
      cases node with
      | file content => exact Or.inl ⟨content, rfl⟩
      | directory => exact absurd hnode h.free
  · refine Or.inr ⟨{ action := .open, path := p.render, reason := .notExist }, ?_, rfl⟩
    rw [read, lookup, hlocate]
  · exact absurd hnode (h.above dir hdir content)

/-! ## §3 Writing -/

theorem node?_put {tree : FileTree} {place : FilePath} (hplace : isAlwaysThere place = false) (node : FileNode)
    (q : FilePath) : (tree.put place node).node? q = if q = place then some node else tree.node? q := by
  by_cases hq : q = place
  · subst hq
    rw [if_pos rfl, node?, if_neg (by simp [hplace])]
    unfold put
    split
    · -- a node that is there is replaced, and found before any other at its place
      next hany =>
      have hfind : ∀ nodes : List (FilePath × FileNode), nodes.any (fun pair => pair.1 = q) = true →
          ((nodes.map fun pair => if pair.1 = q then (pair.1, node) else (pair.1, pair.2)).find? (·.1 = q)).map (·.2) =
            some node := by
        intro nodes hnodes
        induction nodes with
        | nil => simp at hnodes
        | cons pair nodes ih =>
          obtain ⟨p, n⟩ := pair
          by_cases hp : p = q
          · simp [hp]
          · simp only [List.any_cons, hp, decide_false, Bool.false_or] at hnodes
            simpa [hp] using ih hnodes
      exact hfind tree.nodes hany
    · next hany =>
      have hnone : tree.nodes.find? (·.1 = q) = none := by
        rw [List.find?_eq_none]
        intro pair hpair hq
        exact hany (List.any_eq_true.mpr ⟨pair, hpair, hq⟩)
      rw [List.find?_append, hnone]
      simp
  · rw [if_neg hq]
    unfold node?
    split
    · rfl
    · unfold put
      split
      · congr 1
        dsimp only
        induction tree.nodes with
        | nil => rfl
        | cons pair nodes ih =>
          obtain ⟨p, n⟩ := pair
          by_cases hp : p = place
          · have hpq : ¬ place = q := fun h => hq h.symm
            simpa [hp, hpq] using ih
          · by_cases hpq : p = q
            · subst hpq
              simp [hp]
            · simpa [hp, hpq] using ih
      · have hne : ¬ place = q := fun h => hq h.symm
        rw [List.find?_append]
        simp [hne]

/-- Directories made one below the other, where nothing is in the way. -/
theorem makeDir_spec {tree : FileTree} {place : FilePath} (h : ∀ content, tree.node? place ≠ some (.file content)) :
    ∃ tree', tree.makeDir place = .ok tree' ∧
      ∀ q, tree'.node? q = if q = place then some .directory else tree.node? q := by
  unfold makeDir
  cases hnode : tree.node? place with
  | none =>
    have hplace : isAlwaysThere place = false := by
      by_contra hthere
      rw [node?_of_isAlwaysThere (by simpa using hthere)] at hnode
      cases hnode
    exact ⟨_, rfl, node?_put hplace .directory⟩
  | some node =>
    cases node with
    | file content => exact absurd hnode (h content)
    | directory =>
      refine ⟨tree, rfl, fun q => ?_⟩
      by_cases hq : q = place
      · rw [if_pos hq, hq, hnode]
      · rw [if_neg hq]

/-- The first places on a path, one after the other: after as many steps they are directories. -/
theorem foldlM_makeDir {tree : FileTree} {place : FilePath} {count : Nat}
    (h : ∀ n, n < count → ∀ content, tree.node? { place with parts := place.parts.take n } ≠ some (.file content)) :
    ∃ tree',
      (List.range count).foldlM (fun tree n => tree.makeDir { place with parts := place.parts.take n }) tree =
        .ok tree' ∧
      (∀ n, n < count → tree'.node? { place with parts := place.parts.take n } = some .directory) ∧
      ∀ q, (¬ ∃ n, n < count ∧ q = { place with parts := place.parts.take n }) → tree'.node? q = tree.node? q := by
  induction count with
  | zero => exact ⟨tree, rfl, by simp, fun _ _ => rfl⟩
  | succ count ih =>
    obtain ⟨before, hbefore, hmade, hkept⟩ := ih fun n hn => h n (by omega)
    -- where the next directory belongs there is no file: none was there, and none has been made
    have hfree : ∀ content, before.node? { place with parts := place.parts.take count } ≠ some (.file content) := by
      intro content hfile
      by_cases hold : ∃ n, n < count ∧ ({ place with parts := place.parts.take count } : FilePath) =
          { place with parts := place.parts.take n }
      · obtain ⟨n, hn, heq⟩ := hold
        rw [heq, hmade n hn] at hfile
        cases hfile
      · rw [hkept _ hold] at hfile
        exact h count (by omega) content hfile
    obtain ⟨after, hafter, hspec⟩ := makeDir_spec hfree
    refine ⟨after, ?_, ?_, ?_⟩
    · rw [List.range_succ, List.foldlM_append, hbefore]
      show (before.makeDir { place with parts := place.parts.take count } >>= pure) = _
      rw [hafter]
      rfl
    · intro n hn
      rw [hspec]
      split
      · rfl
      · next hne =>
        apply hmade
        by_contra hge
        exact hne (by rw [show n = count by omega])
    · intro q hq
      rw [hspec, if_neg fun heq => hq ⟨count, by omega, heq⟩]
      exact hkept q fun ⟨n, hn, heq⟩ => hq ⟨n, by omega, heq⟩

/-- **Making the directories of a path**: its place and all above it are directories then, and nothing else changes. -/
theorem makeDirs_spec {tree : FileTree} {path : Text} {place : FilePath} (hpath : FilePath.parse path = place)
    (h : ∀ dir, dir = place ∨ dir.IsAbove place → ∀ content, tree.node? dir ≠ some (.file content)) :
    ∃ tree', tree.makeDirs path = .ok tree' ∧
      (∀ q, q = place ∨ q.IsAbove place → tree'.node? q = some .directory) ∧
      ∀ q, ¬ (q = place ∨ q.IsAbove place) → tree'.node? q = tree.node? q := by
  -- a place and what is above it are the beginnings of its components, the whole of them included
  have hdirs : ∀ q, q = place ∨ q.IsAbove place ↔
      ∃ n, n < place.parts.length + 1 ∧ q = { place with parts := place.parts.take n } := by
    intro q
    rw [FilePath.isAbove_iff_take]
    constructor
    · rintro (rfl | ⟨n, hn, rfl⟩)
      · exact ⟨q.parts.length, by omega, by simp⟩
      · exact ⟨n, by omega, rfl⟩
    · rintro ⟨n, hn, rfl⟩
      by_cases hlast : n = place.parts.length
      · left
        simp [hlast]
      · exact Or.inr ⟨n, by omega, rfl⟩
  have hfree : ∀ n, n < place.parts.length + 1 →
      ∀ content, tree.node? { place with parts := place.parts.take n } ≠ some (.file content) :=
    fun n hn => h _ ((hdirs _).mpr ⟨n, hn, rfl⟩)
  obtain ⟨tree', hok, hmade, hkept⟩ := foldlM_makeDir hfree
  refine ⟨tree', ?_, ?_, ?_⟩
  · rw [makeDirs, hpath]
    exact hok
  · intro q hq
    obtain ⟨n, hn, rfl⟩ := (hdirs q).mp hq
    exact hmade n hn
  · intro q hq
    exact hkept q fun hq' => hq ((hdirs q).mpr hq')

/-- **Writing a file below directories** changes its place only. -/
theorem write_spec {tree : FileTree} {p : FilePath} (hp : p.Normal) (hthere : isAlwaysThere p = false)
    (hdirs : ∀ dir, dir.IsAbove p → tree.node? dir = some .directory) (hfree : tree.node? p ≠ some .directory)
    (content : Text) :
    ∃ tree', tree.write p.render content = .ok tree' ∧
      ∀ q, tree'.node? q = if q = p then some (.file content) else tree.node? q := by
  refine ⟨tree.put p (.file content), ?_, node?_put hthere _⟩
  rcases locate_render tree hp with ⟨-, hlocate⟩ | ⟨dir, hdir, -, hstop⟩
  · rw [write, hlocate]
    dsimp only
    cases hnode : tree.node? p with
    | none => rfl
    | some node =>
      cases node with
      | file old => rfl
      | directory => exact absurd hnode hfree
  · have hdirectory := hdirs dir hdir
    rcases hstop with ⟨hnode, -⟩ | ⟨c, hnode, -⟩ <;> rw [hnode] at hdirectory <;> cases hdirectory

/-- What a tree is after a file has been put at a place, with the directories it needs. -/
structure HasPlaced (tree after : FileTree) (place : FilePath) (content : Text) : Prop where
  file : after.node? place = some (.file content)
  above : ∀ dir, dir.IsAbove place → after.node? dir = some .directory
  rest : ∀ q, q ≠ place → ¬ q.IsAbove place → after.node? q = tree.node? q

/-- **Putting a file**: the directories are made, and the file is written into the last of them. -/
theorem makeDirs_write_spec {tree : FileTree} {dir : FilePath} {name : Text} (hp : (dir.below [name]).Normal)
    (hthere : isAlwaysThere (dir.below [name]) = false) (hwritable : tree.Writable (dir.below [name]))
    (content : Text) :
    ∃ middle after, tree.makeDirs (parentDir (dir.below [name]).render) = .ok middle ∧
      middle.write (dir.below [name]).render content = .ok after ∧
      tree.HasPlaced after (dir.below [name]) content := by
  obtain ⟨middle, hmiddle, hmade, hkept⟩ := makeDirs_spec (FilePath.parse_parentDir hp)
    fun q hq => hwritable.above q (FilePath.isAbove_name_iff.mpr hq)
  have hself : ¬ (dir.below [name] = dir ∨ (dir.below [name]).IsAbove dir) := by
    rw [← FilePath.isAbove_name_iff]
    exact FilePath.not_isAbove_self _
  obtain ⟨after, hafter, hspec⟩ := write_spec hp hthere (fun q hq => hmade q (FilePath.isAbove_name_iff.mp hq))
    (by rw [hkept _ hself]; exact hwritable.free) content
  refine ⟨middle, after, hmiddle, hafter, ?_, ?_, ?_⟩
  · rw [hspec, if_pos rfl]
  · intro q hq
    rw [hspec, if_neg hq.ne]
    exact hmade q (FilePath.isAbove_name_iff.mp hq)
  · intro q hne hq
    rw [hspec, if_neg hne, hkept q fun h => hq (FilePath.isAbove_name_iff.mpr h)]

/-- Putting a file keeps everything in directories. -/
theorem WellFormed.hasPlaced {tree after : FileTree} (htree : tree.WellFormed) {place : FilePath} {content : Text}
    (hwritable : tree.Writable place) (h : tree.HasPlaced after place content) : after.WellFormed := by
  intro q node hnode dir hdir
  by_cases hq : q = place
  · subst hq
    exact h.above dir hdir
  · by_cases habove : q.IsAbove place
    · exact h.above dir (hdir.trans habove)
    · rw [h.rest q hq habove] at hnode
      have hold := htree q node hnode dir hdir
      by_cases hdir' : dir = place
      · rw [hdir'] at hold
        exact absurd hold hwritable.free
      · by_cases hdirAbove : dir.IsAbove place
        · exact h.above dir hdirAbove
        · rw [h.rest dir hdir' hdirAbove]
          exact hold

/-! ## §4 Removing -/

/-- **Removing a file** changes its place only; where there is no file nothing changes. -/
theorem node?_remove {tree : FileTree} (htree : tree.WellFormed) {p : FilePath} (hp : p.Normal) (q : FilePath) :
    (tree.remove p.render).node? q =
      if q = p ∧ (tree.contentAt p).isSome = true then none else tree.node? q := by
  cases hcontent : tree.contentAt p with
  | none =>
    -- a path that cannot be followed, or that leads to no file, is left alone
    have hnofile := contentAt_eq_none_iff.mp hcontent
    have hsame : tree.remove p.render = tree := by
      unfold remove
      rcases locate_render tree hp with ⟨-, hlocate⟩ | ⟨dir, -, -, ⟨-, hlocate⟩ | ⟨-, -, hlocate⟩⟩ <;> rw [hlocate]
      dsimp only
      split
      · next content hnode => exact absurd hnode (hnofile content)
      · rfl
    simp [hsame]
  | some content =>
    have hnode := contentAt_eq_some_iff.mp hcontent
    have hlocate : tree.locate p.render = .ok p := by
      rcases locate_render tree hp with ⟨-, hlocate⟩ | ⟨dir, hdir, -, hstop⟩
      · exact hlocate
      · -- above a file everything is a directory
        have hdirectory := htree p _ hnode dir hdir
        rcases hstop with ⟨hnode', -⟩ | ⟨c, hnode', -⟩ <;> rw [hnode'] at hdirectory <;> cases hdirectory
    have hthere : isAlwaysThere p = false := by
      by_contra hthere
      rw [node?_of_isAlwaysThere (by simpa using hthere)] at hnode
      cases hnode
    have hremove : tree.remove p.render = { nodes := tree.nodes.filter (·.1 ≠ p) } := by
      rw [remove, hlocate]
      dsimp only
      rw [hnode]
    rw [hremove]
    by_cases hq : q = p
    · subst hq
      simp [node?, hthere]
    · simp only [hq, false_and, if_false]
      unfold node?
      split
      · rfl
      · rw [List.find?_filter]
        congr 2
        funext pair
        by_cases hpair : pair.1 = q
        · simp [hpair, hq]
        · simp [hpair]

theorem contentAt_remove {tree : FileTree} (htree : tree.WellFormed) {p : FilePath} (hp : p.Normal) (q : FilePath) :
    (tree.remove p.render).contentAt q = if q = p then none else tree.contentAt q := by
  by_cases hq : q = p
  · subst hq
    rw [if_pos rfl, contentAt_eq_none_iff]
    intro content
    rw [node?_remove htree hp]
    split
    · simp
    · next hnofile =>
      intro hnode
      exact hnofile ⟨rfl, by rw [contentAt_eq_some_iff.mpr hnode]; rfl⟩
  · rw [if_neg hq]
    apply contentAt_congr
    rw [node?_remove htree hp, if_neg fun h => hq h.1]

/-- Removing a file keeps everything in directories: nothing stands below a file. -/
theorem WellFormed.remove {tree : FileTree} (htree : tree.WellFormed) {p : FilePath} (hp : p.Normal) :
    (tree.remove p.render).WellFormed := by
  intro q node hnode dir hdir
  rw [node?_remove htree hp] at hnode ⊢
  split at hnode
  · cases hnode
  · have hdirectory := htree q node hnode dir hdir
    have hfile : ¬ (dir = p ∧ (tree.contentAt p).isSome = true) := by
      rintro ⟨rfl, hsome⟩
      simp [contentAt, hdirectory] at hsome
    rw [if_neg hfile]
    exact hdirectory

end HeaderReflection.FileTree
