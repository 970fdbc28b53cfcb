import HeaderReflection.Text.Basic
import Mathlib.Data.List.Infix

/-!
# Pieces of texts

How splitting and joining undo each other, and what taking known pieces off a text does.

## Main results

- `splitOn_append_sep`, `splitOn_joinWith`, `joinWith_splitOn`: separators.
- `stripPrefix?_eq_some_iff`, `beginsWith_iff`, `stripSuffix?_eq_some_iff`: beginnings and ends.
- `unixLines_of_not_mem`: a text without carriage returns already has the one convention for line ends.
- `unixLines_eq_joinWith`: any other text is cut at its line ends of two bytes and joined by line feeds.
-/

namespace HeaderReflection.Text

/-! ## §1 Separators -/

theorem consHead_ne_nil (b : UInt8) (pieces : List Text) : consHead b pieces ≠ [] := by
  cases pieces <;> simp [consHead]

theorem splitOn_ne_nil (sep : UInt8) (text : Text) : splitOn sep text ≠ [] := by
  cases text with
  | nil => simp
  | cons b text =>
    rw [splitOn_cons]
    split
    · simp
    · exact consHead_ne_nil b _

@[simp] theorem splitOn_cons_sep (sep : UInt8) (text : Text) :
    splitOn sep (sep :: text) = [] :: splitOn sep text := by
  simp [splitOn_cons]

theorem splitOn_cons_of_ne {sep b : UInt8} (h : b ≠ sep) (text : Text) :
    splitOn sep (b :: text) = consHead b (splitOn sep text) := by
  simp [splitOn_cons, h]

theorem consHead_append (b : UInt8) {pieces : List Text} (h : pieces ≠ []) (more : List Text) :
    consHead b (pieces ++ more) = consHead b pieces ++ more := by
  cases pieces with
  | nil => exact absurd rfl h
  | cons piece pieces => rfl

/-- A text without the separator is one piece. -/
theorem splitOn_of_not_mem {sep : UInt8} {text : Text} (h : sep ∉ text) : splitOn sep text = [text] := by
  induction text with
  | nil => rfl
  | cons b text ih =>
    have hb : b ≠ sep := fun e => h (e ▸ List.mem_cons_self)
    have htext : sep ∉ text := fun m => h (List.mem_cons_of_mem _ m)
    rw [splitOn_cons_of_ne hb, ih htext]
    rfl

/-- **Splitting at a separator**: the pieces before it are followed by the pieces after it. -/
theorem splitOn_append_sep (sep : UInt8) (before after : Text) :
    splitOn sep (before ++ sep :: after) = splitOn sep before ++ splitOn sep after := by
  induction before with
  | nil => simp
  | cons b before ih =>
    by_cases hb : b = sep
    · subst hb
      simp [ih]
    · rw [List.cons_append, splitOn_cons_of_ne hb, splitOn_cons_of_ne hb, ih,
        consHead_append b (splitOn_ne_nil sep before)]

/-- A text without the separator joins the first of the pieces behind it. -/
theorem splitOn_append_of_not_mem {sep : UInt8} {before : Text} (h : sep ∉ before) (text : Text) :
    ∃ first rest, splitOn sep text = first :: rest ∧ splitOn sep (before ++ text) = (before ++ first) :: rest := by
  obtain ⟨first, rest, hsplit⟩ := List.exists_cons_of_ne_nil (splitOn_ne_nil sep text)
  refine ⟨first, rest, hsplit, ?_⟩
  induction before with
  | nil => exact hsplit
  | cons b before ih =>
    have hb : b ≠ sep := fun e => h (e ▸ List.mem_cons_self)
    rw [List.cons_append, splitOn_cons_of_ne hb, ih fun m => h (List.mem_cons_of_mem _ m)]
    rfl

theorem splitOn_append_cons_of_not_mem {sep c : UInt8} {before : Text} (h : sep ∉ before) (hc : c ≠ sep) (text : Text) :
    ∃ first rest, splitOn sep (c :: text) = (c :: first) :: rest ∧
      splitOn sep (before ++ c :: text) = (before ++ c :: first) :: rest := by
  obtain ⟨first, rest, hsplit, happend⟩ := splitOn_append_of_not_mem h (c :: text)
  have hcons := splitOn_cons_of_ne hc text
  cases htext : splitOn sep text with
  | nil => exact absurd htext (splitOn_ne_nil _ _)
  | cons head others =>
    rw [htext, hsplit] at hcons
    cases hcons
    exact ⟨head, rest, hsplit, happend⟩

theorem length_splitOn (sep : UInt8) (text : Text) : (splitOn sep text).length = text.count sep + 1 := by
  induction text with
  | nil => rfl
  | cons b text ih =>
    by_cases hb : b = sep
    · subst hb
      simp [ih]
    · rw [splitOn_cons_of_ne hb, List.count_cons_of_ne (by simpa using hb)]
      cases hsplit : splitOn sep text with
      | nil => exact absurd hsplit (splitOn_ne_nil _ _)
      | cons first rest => simpa [consHead, hsplit] using ih

theorem not_mem_of_mem_splitOn {sep : UInt8} {text piece : Text} (h : piece ∈ splitOn sep text) : sep ∉ piece := by
  induction text generalizing piece with
  | nil =>
    rw [splitOn_nil, List.mem_singleton] at h
    simp [h]
  | cons b text ih =>
    by_cases hb : b = sep
    · subst hb
      rw [splitOn_cons_sep, List.mem_cons] at h
      rcases h with rfl | h
      · simp
      · exact ih h
    · rw [splitOn_cons_of_ne hb] at h
      obtain ⟨first, rest, hsplit⟩ := List.exists_cons_of_ne_nil (splitOn_ne_nil sep text)
      rw [hsplit] at h ih
      rcases List.mem_cons.mp h with rfl | h
      · have hfirst : sep ∉ first := ih List.mem_cons_self
        simp [Ne.symm hb, hfirst]
      · exact ih (List.mem_cons_of_mem _ h)

theorem subset_of_mem_splitOn {sep : UInt8} {text piece : Text} (h : piece ∈ splitOn sep text) : piece ⊆ text := by
  induction text generalizing piece with
  | nil =>
    rw [List.mem_singleton.mp h]
    exact List.Subset.refl _
  | cons b text ih =>
    by_cases hb : b = sep
    · subst hb
      rw [splitOn_cons_sep, List.mem_cons] at h
      rcases h with rfl | h
      · exact List.nil_subset _
      · exact List.subset_cons_of_subset b (ih h)
    · obtain ⟨first, rest, hpieces⟩ := List.exists_cons_of_ne_nil (splitOn_ne_nil sep text)
      rw [splitOn_cons_of_ne hb, hpieces] at h
      rw [hpieces] at ih
      -- the byte goes to the first piece of the rest
      rcases List.mem_cons.mp h with rfl | h
      · exact List.cons_subset_cons b (ih List.mem_cons_self)
      · exact List.subset_cons_of_subset b (ih (List.mem_cons_of_mem _ h))

@[simp] theorem joinWith_nil (sep : Text) : joinWith sep [] = [] := rfl

@[simp] theorem joinWith_singleton (sep piece : Text) : joinWith sep [piece] = piece := rfl

theorem joinWith_cons (sep piece : Text) {pieces : List Text} (h : pieces ≠ []) :
    joinWith sep (piece :: pieces) = piece ++ sep ++ joinWith sep pieces := by
  cases pieces with
  | nil => exact absurd rfl h
  | cons next pieces => rfl

theorem joinWith_append (sep : Text) {before after : List Text} (hb : before ≠ []) (ha : after ≠ []) :
    joinWith sep (before ++ after) = joinWith sep before ++ sep ++ joinWith sep after := by
  induction before with
  | nil => exact absurd rfl hb
  | cons piece before ih =>
    by_cases hbefore : before = []
    · subst hbefore
      exact joinWith_cons sep piece ha
    · have hne : before ++ after ≠ [] := by simp [hbefore]
      rw [List.cons_append, joinWith_cons sep piece hne, ih hbefore, joinWith_cons sep piece hbefore]
      simp only [List.append_assoc]

/-- **Joining, then splitting** gives the pieces back, if no piece holds the separator. -/
theorem splitOn_joinWith {sep : UInt8} {pieces : List Text} (hne : pieces ≠ [])
    (hsep : ∀ piece ∈ pieces, sep ∉ piece) : splitOn sep (joinWith [sep] pieces) = pieces := by
  induction pieces with
  | nil => exact absurd rfl hne
  | cons piece pieces ih =>
    have hpiece : sep ∉ piece := hsep piece List.mem_cons_self
    have hpieces : ∀ p ∈ pieces, sep ∉ p := fun p hp => hsep p (List.mem_cons_of_mem _ hp)
    by_cases h : pieces = []
    · subst h
      exact splitOn_of_not_mem hpiece
    · rw [joinWith_cons _ _ h, List.append_assoc, List.singleton_append, splitOn_append_sep,
        splitOn_of_not_mem hpiece, ih h hpieces]
      rfl

/-- **Splitting, then joining** gives the text back. -/
theorem joinWith_splitOn (sep : UInt8) (text : Text) : joinWith [sep] (splitOn sep text) = text := by
  induction text with
  | nil => rfl
  | cons b text ih =>
    by_cases hb : b = sep
    · subst hb
      rw [splitOn_cons_sep, joinWith_cons _ _ (splitOn_ne_nil b text), ih]
      rfl
    · rw [splitOn_cons_of_ne hb]
      obtain ⟨first, rest, hsplit⟩ := List.exists_cons_of_ne_nil (splitOn_ne_nil sep text)
      rw [hsplit] at ih ⊢
      cases rest with
      | nil => simpa [consHead] using ih
      | cons next rest => simpa [consHead, joinWith] using ih

theorem mem_joinWith {sep : Text} {b : UInt8} {pieces : List Text} (h : b ∈ joinWith sep pieces) :
    b ∈ sep ∨ ∃ piece ∈ pieces, b ∈ piece := by
  induction pieces with
  | nil => simp at h
  | cons piece pieces ih =>
    by_cases hne : pieces = []
    · subst hne
      exact Or.inr ⟨piece, List.mem_cons_self, h⟩
    · rw [joinWith_cons _ _ hne, List.mem_append, List.mem_append] at h
      rcases h with (h | h) | h
      · exact Or.inr ⟨piece, List.mem_cons_self, h⟩
      · exact Or.inl h
      · rcases ih h with h | ⟨p, hp, hb⟩
        · exact Or.inl h
        · exact Or.inr ⟨p, List.mem_cons_of_mem _ hp, hb⟩

/-! ## §2 Beginnings and ends -/

theorem stripPrefix?_eq_some_iff {beginning text rest : Text} :
    stripPrefix? beginning text = some rest ↔ text = beginning ++ rest := by
  induction beginning generalizing text with
  | nil => simp [stripPrefix?]
  | cons a beginning ih =>
    cases text with
    | nil => simp [stripPrefix?]
    | cons b text =>
      by_cases hab : a = b
      · subst hab
        simp [stripPrefix?, ih]
      · simp [stripPrefix?, hab, Ne.symm hab]

@[simp] theorem stripPrefix?_append (beginning rest : Text) :
    stripPrefix? beginning (beginning ++ rest) = some rest :=
  stripPrefix?_eq_some_iff.mpr rfl

theorem stripPrefix?_cons_of_ne {a b : UInt8} (h : a ≠ b) (beginning text : Text) :
    stripPrefix? (a :: beginning) (b :: text) = none := by
  simp [stripPrefix?, h]

theorem beginsWith_iff {beginning text : Text} : beginsWith beginning text = true ↔ beginning <+: text := by
  rw [beginsWith, Option.isSome_iff_exists]
  constructor
  · rintro ⟨rest, h⟩
    exact ⟨rest, (stripPrefix?_eq_some_iff.mp h).symm⟩
  · rintro ⟨rest, h⟩
    exact ⟨rest, stripPrefix?_eq_some_iff.mpr h.symm⟩

@[simp] theorem trimPrefix_append (beginning rest : Text) : trimPrefix beginning (beginning ++ rest) = rest := by
  simp [trimPrefix]

theorem subset_trimPrefix (beginning text : Text) : trimPrefix beginning text ⊆ text := by
  unfold trimPrefix
  cases hstrip : stripPrefix? beginning text with
  | none => simp
  | some rest =>
    rw [stripPrefix?_eq_some_iff.mp hstrip]
    simp

theorem cut_eq_some {sep text before after : Text} (h : cut sep text = some (before, after)) :
    text = before ++ sep ++ after := by
  induction text generalizing before with
  | nil =>
    unfold cut at h
    split at h
    · next hsep =>
      cases h
      simp [hsep]
    · cases h
  | cons b text ih =>
    unfold cut at h
    split at h
    · next rest hrest =>
      cases h
      simpa using stripPrefix?_eq_some_iff.mp hrest
    · obtain ⟨⟨before', after'⟩, hcut, heq⟩ := Option.map_eq_some_iff.mp h
      cases heq
      rw [ih hcut]
      rfl

theorem stripSuffix?_eq_some_iff {ending text rest : Text} :
    stripSuffix? ending text = some rest ↔ text = rest ++ ending := by
  rw [stripSuffix?, Option.map_eq_some_iff]
  constructor
  · rintro ⟨r, hr, rfl⟩
    have h := congrArg List.reverse (stripPrefix?_eq_some_iff.mp hr)
    simpa using h
  · rintro rfl
    exact ⟨rest.reverse, by simp, by simp⟩

/-- A byte that is not among the last ones cannot be taken off the end. -/
theorem stripSuffix?_append_of_not_mem {b : UInt8} {last : Text} (hlast : last ≠ []) (hb : b ∉ last) (text : Text) :
    stripSuffix? [b] (text ++ last) = none := by
  obtain ⟨start, c, rfl⟩ : ∃ start c, last = start ++ [c] := ⟨_, _, (List.dropLast_append_getLast hlast).symm⟩
  rw [Option.eq_none_iff_forall_ne_some]
  intro rest hrest
  have hend := stripSuffix?_eq_some_iff.mp hrest
  rw [← List.append_assoc] at hend
  exact hb (by simp [(List.append_singleton_inj.mp hend).2])

@[simp] theorem endsWith_append (rest ending : Text) : endsWith ending (rest ++ ending) = true := by
  rw [endsWith, stripSuffix?_eq_some_iff.mpr rfl]
  rfl

@[simp] theorem trimSuffix_append (rest ending : Text) : trimSuffix ending (rest ++ ending) = rest := by
  rw [trimSuffix, stripSuffix?_eq_some_iff.mpr rfl]
  rfl

theorem trimSuffix_append_of_endsWith (ending text : Text) :
    trimSuffix ending text ++ (if endsWith ending text = true then ending else []) = text := by
  unfold trimSuffix endsWith
  cases hstrip : stripSuffix? ending text with
  | none => simp
  | some rest => simp [stripSuffix?_eq_some_iff.mp hstrip]

theorem subset_trimSuffix (suffix text : Text) : trimSuffix suffix text ⊆ text := by
  unfold trimSuffix
  cases hstrip : stripSuffix? suffix text with
  | none => exact List.Subset.refl _
  | some rest =>
    rw [stripSuffix?_eq_some_iff.mp hstrip]
    exact List.subset_append_left _ _

/-- Taking bytes of a set off the end leaves a text alone that ends in another byte. -/
theorem trimEndOf_append_of_not_mem {set : Text} {b : UInt8} (h : b ∉ set) (text : Text) :
    trimEndOf set (text ++ [b]) = text ++ [b] := by
  simp [trimEndOf, h]

theorem trimEndOf_append_mem {set : Text} {b : UInt8} (h : b ∈ set) (text : Text) :
    trimEndOf set (text ++ [b]) = trimEndOf set text := by
  simp [trimEndOf, h]

/-! ## §3 Lines -/

/-- A text without carriage returns already has the one convention for line ends. -/
theorem unixLines_of_not_mem {text : Text} (h : byte '\r' ∉ text) : unixLines text = text := by
  induction text using unixLines.induct with
  | case1 => rfl
  | case2 b => rfl
  | case3 b c text hb ih => exact absurd (hb.1 ▸ List.mem_cons_self) h
  | case4 b c text hb ih =>
    rw [unixLines, if_neg hb, ih (fun m => h (List.mem_cons_of_mem _ m))]

/-- A byte stays if it is no carriage return, or no line feed follows it. -/
theorem unixLines_cons {b : UInt8} {rest : Text} (h : b ≠ byte '\r' ∨ rest.head? ≠ some lineFeed) :
    unixLines (b :: rest) = b :: unixLines rest := by
  cases rest with
  | nil => rfl
  | cons c rest =>
    rw [unixLines, if_neg]
    rintro ⟨hb, hc⟩
    rcases h with h | h
    · exact h hb
    · exact h (by rw [hc]; rfl)

/-- Two bytes that end a line become one. -/
theorem unixLines_cons_return (text : Text) : unixLines (byte '\r' :: lineFeed :: text) = lineFeed :: unixLines text := by
  rw [unixLines, if_pos ⟨rfl, rfl⟩, unixLines_cons (Or.inl (by decide))]

/-- **The first line end of two bytes**: what stands before it stays, and what stands behind it is looked at anew. -/
theorem unixLines_eq_elim_cut (text : Text) :
    unixLines text =
      (cut "\r\n" text).elim text fun halves => halves.1 ++ lineFeed :: unixLines halves.2 := by
  induction text with
  | nil => rfl
  | cons b text ih =>
    unfold cut
    cases hstrip : stripPrefix? ("\r\n" : Text) (b :: text) with
    | some after =>
      rw [stripPrefix?_eq_some_iff.mp hstrip]
      exact unixLines_cons_return after
    | none =>
      have hstays : b ≠ byte '\r' ∨ text.head? ≠ some lineFeed := by
        by_contra hends
        rw [not_or, not_not, not_not] at hends
        obtain ⟨rest, rfl⟩ := List.head?_eq_some_iff.mp hends.2
        rw [hends.1] at hstrip
        cases hstrip
      rw [unixLines_cons hstays, ih]
      cases cut ("\r\n" : Text) text with
      | none => rfl
      | some halves => rfl

theorem splitOnTextUpTo_ne_nil (sep : Text) (fuel : Nat) (text : Text) : splitOnTextUpTo sep fuel text ≠ [] := by
  cases fuel with
  | zero => simp [splitOnTextUpTo]
  | succ fuel =>
    rw [splitOnTextUpTo]
    split <;> simp

/-- **One convention for line ends**: the pieces between the line ends of two bytes are joined by line feeds. -/
theorem unixLines_eq_joinWith (text : Text) : unixLines text = joinWith [lineFeed] (splitOnText "\r\n" text) := by
  suffices hfuel : ∀ fuel (text : Text), text.length ≤ fuel →
      unixLines text = joinWith [lineFeed] (splitOnTextUpTo "\r\n" fuel text) from hfuel _ text le_rfl
  -- the fuel lasts because each line end that is found makes the rest of the text shorter
  intro fuel
  induction fuel with
  | zero =>
    intro text hlength
    rw [List.length_eq_zero_iff.mp (Nat.le_zero.mp hlength)]
    rfl
  | succ fuel ih =>
    intro text hlength
    rw [unixLines_eq_elim_cut, splitOnTextUpTo]
    cases hcut : cut ("\r\n" : Text) text with
    | none => rfl
    | some halves =>
      obtain ⟨before, after⟩ := halves
      have hafter : after.length ≤ fuel := by
        have htext := congrArg List.length (cut_eq_some hcut)
        simp only [List.length_append] at htext
        have hsep : ("\r\n" : Text).length = 2 := rfl
        omega
      dsimp only [Option.elim]
      rw [ih after hafter, joinWith_cons _ _ (splitOnTextUpTo_ne_nil _ _ _)]
      simp

/-- The lines of a text that is written line by line. -/
theorem splitOn_unlines {lines : List Text} (hne : lines ≠ []) (h : ∀ line ∈ lines, lineFeed ∉ line) :
    splitOn lineFeed (unlines lines) = lines :=
  splitOn_joinWith hne h

theorem not_mem_unlines {lines : List Text} {b : UInt8} (hb : b ≠ lineFeed) (h : ∀ line ∈ lines, b ∉ line) :
    b ∉ unlines lines := by
  intro hmem
  rcases mem_joinWith hmem with hmem | ⟨line, hline, hmem⟩
  · exact hb (List.mem_singleton.mp hmem)
  · exact h line hline hmem

/-- An empty last line stands behind a line feed, which would be the end of the text. -/
theorem getLast?_splitOn_of_unended {text : Text} (hne : text ≠ []) (hstrip : stripSuffix? [lineFeed] text = none) :
    (splitOn lineFeed text).getLast? ≠ some [] := by
  intro hlast
  obtain ⟨front, hfront⟩ := List.getLast?_eq_some_iff.mp hlast
  have hjoin := joinWith_splitOn lineFeed text
  rw [hfront] at hjoin
  by_cases hnil : front = []
  · subst hnil
    exact hne hjoin.symm
  · rw [joinWith_append _ hnil (by simp)] at hjoin
    have hend : text = joinWith [lineFeed] front ++ [lineFeed] := by
      rw [← hjoin]
      simp
    rw [stripSuffix?_eq_some_iff.mpr hend] at hstrip
    cases hstrip

end HeaderReflection.Text
