import HeaderReflection.Proofs.Files.Commit

/-!
# What a comparison shows

A set is compared with a tree byte by byte, and what has changed is then shown line by line. The lines of a content do
not tell whether its last one is ended: a content that is not empty has the same lines with and without a final line
end. That is the only difference that lines do not show, so a file that is out of date is reported with nothing to show
exactly when a final line end has come or gone. A file that comes into being or goes away shows its lines, if it has
any.

## Main definitions

- `LacksFinalEnd`: one content is another one without its final line end.
- `ArtifactSet.Reported`: what a set may report.

## Main results

- `contentLines_eq_iff`: which contents have the same lines.
- `ArtifactSet.reported_of_mem_changes`: what has led to a change.
- `ArtifactSet.lines_shown_iff`: which changes show no line.
-/

namespace HeaderReflection

/-! ## §1 Lines of contents -/

/-- The first content is the second one without its final line end, and has something in its last line. -/
structure LacksFinalEnd (content ended : Text) : Prop where
  ne_nil : content ≠ []
  unended : Text.endsWith [Text.lineFeed] content = false
  ended : ended = content ++ [Text.lineFeed]

instance (content ended : Text) : Decidable (LacksFinalEnd content ended) :=
  decidable_of_iff (content ≠ [] ∧ Text.endsWith [Text.lineFeed] content = false ∧ ended = content ++ [Text.lineFeed])
    ⟨fun h => ⟨h.1, h.2.1, h.2.2⟩, fun h => ⟨h.ne_nil, h.unended, h.ended⟩⟩

theorem contentLines_of_ne_nil {content : Text} (h : content ≠ []) :
    contentLines content = Text.splitOn Text.lineFeed (Text.trimSuffix [Text.lineFeed] content) :=
  if_neg h

/-- Nothing has no lines, and nothing else is without lines. -/
theorem contentLines_eq_nil_iff {content : Text} : contentLines content = [] ↔ content = [] := by
  constructor
  · intro h
    by_contra hne
    rw [contentLines_of_ne_nil hne] at h
    exact Text.splitOn_ne_nil _ _ h
  · rintro rfl
    rfl

theorem splitOn_injective (sep : UInt8) : Function.Injective (Text.splitOn sep) :=
  Function.LeftInverse.injective (g := Text.joinWith [sep]) (Text.joinWith_splitOn sep)

theorem trimSuffix_of_unended {content : Text} (h : Text.endsWith [Text.lineFeed] content = false) :
    Text.trimSuffix [Text.lineFeed] content = content := by
  simpa [h] using Text.trimSuffix_append_of_endsWith [Text.lineFeed] content

theorem trimSuffix_append_of_ended {content : Text} (h : Text.endsWith [Text.lineFeed] content = true) :
    Text.trimSuffix [Text.lineFeed] content ++ [Text.lineFeed] = content := by
  simpa [h] using Text.trimSuffix_append_of_endsWith [Text.lineFeed] content

theorem LacksFinalEnd.contentLines_eq {content ended : Text} (h : LacksFinalEnd content ended) :
    contentLines content = contentLines ended := by
  rw [h.ended, contentLines_of_ne_nil h.ne_nil, contentLines_of_ne_nil (by simp), trimSuffix_of_unended h.unended,
    Text.trimSuffix_append]

/-- Of two contents that are the same but for a final line end, the one that has none lacks it. -/
theorem lacksFinalEnd_of_trimSuffix_eq {content ended : Text} (hne : content ≠ [])
    (hunended : Text.endsWith [Text.lineFeed] content = false) (hended : Text.endsWith [Text.lineFeed] ended = true)
    (h : Text.trimSuffix [Text.lineFeed] content = Text.trimSuffix [Text.lineFeed] ended) :
    LacksFinalEnd content ended := by
  refine ⟨hne, hunended, ?_⟩
  calc ended = Text.trimSuffix [Text.lineFeed] ended ++ [Text.lineFeed] := (trimSuffix_append_of_ended hended).symm
    _ = content ++ [Text.lineFeed] := by rw [← h, trimSuffix_of_unended hunended]

/-- **Which contents have the same lines**: equal ones, and those that differ by the final line end alone. -/
theorem contentLines_eq_iff {a b : Text} :
    contentLines a = contentLines b ↔ a = b ∨ LacksFinalEnd a b ∨ LacksFinalEnd b a := by
  constructor
  · intro h
    by_cases ha : a = []
    · subst ha
      exact Or.inl (contentLines_eq_nil_iff.mp h.symm).symm
    by_cases hb : b = []
    · subst hb
      exact Or.inl (contentLines_eq_nil_iff.mp h)
    rw [contentLines_of_ne_nil ha, contentLines_of_ne_nil hb] at h
    -- without a final line end the two are the same text, which each of them has with or without it
    have hsame := splitOn_injective _ h
    cases haEnd : Text.endsWith [Text.lineFeed] a with
    | false =>
      cases hbEnd : Text.endsWith [Text.lineFeed] b with
      | false => exact Or.inl (by rwa [trimSuffix_of_unended haEnd, trimSuffix_of_unended hbEnd] at hsame)
      | true => exact Or.inr (Or.inl (lacksFinalEnd_of_trimSuffix_eq ha haEnd hbEnd hsame))
    | true =>
      cases hbEnd : Text.endsWith [Text.lineFeed] b with
      | false => exact Or.inr (Or.inr (lacksFinalEnd_of_trimSuffix_eq hb hbEnd haEnd hsame.symm))
      | true => exact Or.inl (by rw [← trimSuffix_append_of_ended haEnd, hsame, trimSuffix_append_of_ended hbEnd])
  · rintro (rfl | h | h)
    · rfl
    · exact h.contentLines_eq
    · exact h.contentLines_eq.symm

/-! ## §2 Reports -/

namespace ArtifactSet

variable {s : ArtifactSet} {tree : FileTree} {changes : List Change} {c : Change}

theorem read_of_stored {path content : Text} (h : stored tree path = .ok (some content)) :
    tree.read path = .ok content := by
  unfold stored at h
  cases hread : tree.read path with
  | ok found =>
    rw [hread] at h
    cases h
    rfl
  | error error =>
    rw [hread] at h
    dsimp only at h
    split at h
    · cases h
    · cases h

/-- What a set may report: a produced file that is not there, one with another content, and a removed file. -/
inductive Reported (s : ArtifactSet) (tree : FileTree) : Change → Prop where
  | create {path new : Text} (file : (path, new) ∈ s.files) :
      Reported s tree { path, kind := .create, old := [], new }
  | update {path old new : Text} (file : (path, new) ∈ s.files) (read : tree.read path = .ok old)
      (differs : old ≠ new) : Reported s tree { path, kind := .update, old, new }
  | delete {path old : Text} (removed : path ∈ s.removed) (read : tree.read path = .ok old) :
      Reported s tree { path, kind := .delete, old, new := [] }

theorem reported_of_produceChange {file : Text × Text} (hfile : file ∈ s.files)
    (h : produceChange tree file = .ok (some c)) : s.Reported tree c := by
  obtain ⟨content, hstored, h⟩ := bind_ok h
  cases content with
  | none =>
    cases h
    exact .create hfile
  | some old =>
    dsimp only at h
    split at h
    · cases h
    · next hne =>
      cases h
      exact .update hfile (read_of_stored hstored) hne

theorem reported_of_removeChange {path : Text} (hpath : path ∈ s.removed)
    (h : removeChange tree path = .ok (some c)) : s.Reported tree c := by
  obtain ⟨content, hstored, h⟩ := bind_ok h
  cases content with
  | none => cases h
  | some old =>
    cases h
    exact .delete hpath (read_of_stored hstored)

/-- **What has led to a change.** -/
theorem reported_of_mem_changes (h : s.changes tree = .ok changes) (hc : c ∈ changes) : s.Reported tree c := by
  obtain ⟨produced, hproduced, h⟩ := bind_ok h
  obtain ⟨removed, hremoved, h⟩ := bind_ok h
  cases h
  have hmem : some c ∈ produced ++ removed := by simpa [List.mem_filterMap] using hc
  rcases List.mem_append.mp hmem with hmem | hmem
  · obtain ⟨file, hfile, hchange⟩ := exists_of_mem_forall₂ (mapM_eq_ok hproduced) hmem
    exact reported_of_produceChange hfile hchange
  · obtain ⟨path, hpath, hchange⟩ := exists_of_mem_forall₂ (mapM_eq_ok hremoved) hmem
    exact reported_of_removeChange hpath hchange

/-! ## §3 Changes that show no line -/

/-- **Which changes show no line.** An update always has two contents that differ, and shows a line unless they differ
by the final line end alone. A file that comes into being or goes away shows a line unless it is empty. -/
theorem lines_shown_iff (h : s.changes tree = .ok changes) (hc : c ∈ changes) :
    (c.kind = .update → tree.read c.path = .ok c.old ∧ (c.path, c.new) ∈ s.files ∧ c.old ≠ c.new ∧
      (c.sameLines = false ↔ ¬ LacksFinalEnd c.old c.new ∧ ¬ LacksFinalEnd c.new c.old)) ∧
    (c.kind = .create → (c.sameLines = false ↔ c.new ≠ [])) ∧
    (c.kind = .delete → (c.sameLines = false ↔ c.old ≠ [])) := by
  have hsame : c.sameLines = false ↔ ¬ contentLines c.old = contentLines c.new := decide_eq_false_iff_not
  rw [hsame]
  cases reported_of_mem_changes h hc with
  | @create path new file =>
    refine ⟨nofun, fun _ => not_congr ?_, nofun⟩
    exact eq_comm.trans contentLines_eq_nil_iff
  | @update path old new file read differs =>
    refine ⟨fun _ => ⟨read, file, differs, ?_⟩, nofun, nofun⟩
    rw [contentLines_eq_iff]
    simp [differs]
  | @delete path old removed read =>
    refine ⟨nofun, nofun, fun _ => not_congr ?_⟩
    exact contentLines_eq_nil_iff

/-- A set that produces one file of one line. -/
def oneLineSet : ArtifactSet := ({} : ArtifactSet).add "a.h" "x\n"

/-- A tree with the file of that set, in the state that is given. -/
def fileBefore (content : Text) : FileTree := { nodes := [(FilePath.parse "a.h", .file content)] }

/-- A second line end at the end of a file shows as an empty line that is gone. -/
theorem lines_shown_of_second_end :
    ∃ change, oneLineSet.changes (fileBefore "x\n\n") = .ok [change] ∧ change.kind = .update ∧
      change.sameLines = false := by
  obtain ⟨change, hchanges, hkind⟩ :
      ∃ change, oneLineSet.changes (fileBefore "x\n\n") = .ok [change] ∧ change.kind = .update := ⟨_, rfl, rfl⟩
  obtain ⟨-, -, -, hshown⟩ := (lines_shown_iff hchanges List.mem_cons_self).1 hkind
  refine ⟨change, hchanges, hkind, hshown.mpr ?_⟩
  cases hchanges
  decide

/-- **A file that has lost its final line end** is out of date, and there is nothing to show of it. -/
theorem no_lines_of_lost_end :
    ∃ change, oneLineSet.changes (fileBefore "x") = .ok [change] ∧ change.kind = .update ∧
      change.old ≠ change.new ∧ change.sameLines = true :=
  ⟨_, rfl, rfl, by decide, by decide⟩

end ArtifactSet

end HeaderReflection
