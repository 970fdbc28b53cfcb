import HeaderReflection.Proofs.Header.TypeText
import HeaderReflection.Proofs.Text.WhiteSpace
import Mathlib.Algebra.Ring.Parity

/-!
# Names as a normal form

The names in the first line of a type are what is left of it when separators have been replaced by spaces, white space
has been cut away and stop words have been dropped. Colons are taken in pairs from left to right, so that of a run of
them only the last one can separate. Whatever bytes a line holds, the names come out in a form that a second reading
does not change, and that is told from the names alone: they are those texts that stand for themselves.

## Main definitions

- `ColonsPaired`: texts in which every run of colons is even.
- `IsNameToken`: texts that may come out of a line as a name.
- `Separates`: bytes between two texts at which names come apart.

## Main results

- `spaced_append`: separators are replaced in two texts one by one, where no two colons meet.
- `spaced_eq_self_iff`: texts in which nothing is replaced.
- `isNameToken_of_mem`: what comes out of a line is a name.
- `nameTokens_append`: names on both sides of what separates them.
- `nameTokens_normal_form`: names are a normal form.
-/

namespace HeaderReflection

/-! ## §1 Colons in pairs -/

/-- Induction along a text in which colons are taken in pairs from left to right. -/
theorem paired_induction {P : Text → Prop} (nil : P [])
    (other : ∀ b text, b ≠ Text.byte ':' → P text → P (b :: text))
    (single : ∀ text, text.head? ≠ some (Text.byte ':') → P text → P (Text.byte ':' :: text))
    (pair : ∀ text, P text → P (Text.byte ':' :: Text.byte ':' :: text)) (text : Text) : P text := by
  have hlast : ∀ b, P [b] := by
    intro b
    by_cases hb : b = Text.byte ':'
    · subst hb
      exact single [] nofun nil
    · exact other b [] hb nil
  -- the spacing looks at two bytes at a time, so that it has cases of its own for the last one
  induction text using spaced.induct with
  | case1 => exact nil
  | case2 b _ => exact hlast b
  | case3 b _ => exact hlast b
  | case4 rest ih => exact pair rest ih
  | case5 c rest hc ih => exact single (c :: rest) (by simpa using hc) ih
  | case6 b c rest hb ih => exact other b (c :: rest) hb ih

/-- Every run of colons in a text is even, where a run has no colon before it and none behind it. -/
def ColonsPaired (text : Text) : Prop :=
  ∀ before after n, text = before ++ (List.replicate n (Text.byte ':') ++ after) →
    before.getLast? ≠ some (Text.byte ':') → after.head? ≠ some (Text.byte ':') → Even n

theorem getLast?_ne_of_cons {b c : UInt8} {text : Text} (h : (b :: text).getLast? ≠ some c) :
    text.getLast? ≠ some c := by
  cases text with
  | nil => simp
  | cons d text => simpa using h

theorem colonsPaired_nil : ColonsPaired [] := by
  intro before after n htext _ _
  simp at htext
  simp [htext]

theorem colonsPaired_cons {b : UInt8} (hb : b ≠ Text.byte ':') {text : Text} :
    ColonsPaired (b :: text) ↔ ColonsPaired text := by
  constructor
  · intro h before after n htext hbefore hafter
    apply h (b :: before) after n (by simp [htext]) _ hafter
    cases before with
    | nil => simpa using hb
    | cons c before => simpa using hbefore
  · intro h before after n htext hbefore hafter
    match before, n with
    | [], 0 => simp
    | [], n + 1 =>
      -- a run at the start would begin with the byte
      simp [List.replicate_succ, hb] at htext
    | c :: before, n =>
      simp at htext
      exact h before after n htext.2 (getLast?_ne_of_cons hbefore) hafter

theorem colonsPaired_pair {text : Text} :
    ColonsPaired (Text.byte ':' :: Text.byte ':' :: text) ↔ ColonsPaired text := by
  constructor
  · intro h before after n htext hbefore hafter
    cases before with
    | nil =>
      -- the pair belongs to the run
      have hlonger := h [] after (n + 2) (by simp [htext, List.replicate_succ]) (by simp) hafter
      simpa [Nat.even_add] using hlonger
    | cons c before =>
      apply h (Text.byte ':' :: Text.byte ':' :: c :: before) after n (by simp [htext]) _ hafter
      simpa using hbefore
  · intro h before after n htext hbefore hafter
    match before, n with
    | [], 0 => simp
    | [], 1 =>
      -- the second colon of the pair stands behind this run
      simp at htext
      simp [← htext] at hafter
    | [], n + 2 =>
      have hshorter := h [] after n (by simpa [List.replicate_succ] using htext) (by simp) hafter
      simpa [Nat.even_add] using hshorter
    | [c], n =>
      -- the first colon of the pair stands before this run
      simp at htext
      simp [← htext.1] at hbefore
    | c :: d :: before, n =>
      simp at htext
      exact h before after n htext.2.2 (getLast?_ne_of_cons (getLast?_ne_of_cons hbefore)) hafter

theorem not_colonsPaired_single {text : Text} (h : text.head? ≠ some (Text.byte ':')) :
    ¬ ColonsPaired (Text.byte ':' :: text) := by
  intro hpaired
  have hone := hpaired [] text 1 rfl (by simp) h
  simp at hone

/-- Runs of colons stay even in a part of a text that does not cut through any of them. -/
theorem ColonsPaired.part {before text after : Text} (h : ColonsPaired (before ++ (text ++ after)))
    (hbefore : before.getLast? ≠ some (Text.byte ':')) (hafter : after.head? ≠ some (Text.byte ':')) :
    ColonsPaired text := by
  rintro front back n rfl hfront hback
  apply h (before ++ front) (back ++ after) n (by simp)
  · by_cases hnil : front = []
    · simpa [hnil] using hbefore
    · rwa [List.getLast?_append_of_ne_nil _ hnil]
  · cases back with
    | nil => simpa using hafter
    | cons c back => simpa using hback

/-! ## §2 Spaces in the place of separators -/

theorem isSeparator_space : isSeparator (Text.byte ' ') = false := by decide

theorem spaced_space (text : Text) : spaced (Text.byte ' ' :: text) = Text.byte ' ' :: spaced text := by
  simp [spaced_cons_of_ne (show Text.byte ' ' ≠ Text.byte ':' by decide), isSeparator_space]

theorem spaced_pair (text : Text) :
    spaced (Text.byte ':' :: Text.byte ':' :: text) = Text.byte ':' :: Text.byte ':' :: spaced text :=
  spaced_colons text

/-- **Separators are replaced in two texts one by one**, unless a colon at the end of the first one meets a colon at the
start of the second one. -/
theorem spaced_append {before after : Text}
    (h : before.getLast? ≠ some (Text.byte ':') ∨ after.head? ≠ some (Text.byte ':')) :
    spaced (before ++ after) = spaced before ++ spaced after := by
  induction before using paired_induction with
  | nil => rfl
  | other b text hb ih =>
    have hrest := ih (h.imp_left getLast?_ne_of_cons)
    simp only [List.cons_append, spaced_cons_of_ne hb, hrest]
  | single text hhead ih =>
    have hrest := ih (h.imp_left getLast?_ne_of_cons)
    -- the colon stays single: if it is the last byte, then the other text does not begin with a colon
    have hmeet : (text ++ after).head? ≠ some (Text.byte ':') := by
      cases text with
      | nil => simpa using h
      | cons c text => simpa using hhead
    simp only [List.cons_append, spaced_colon hmeet, spaced_colon hhead, hrest]
  | pair text ih =>
    have hrest := ih (h.imp_left fun hlast => getLast?_ne_of_cons (getLast?_ne_of_cons hlast))
    simp only [List.cons_append, spaced_pair, hrest]

/-- Nothing is left to be replaced once it has been. -/
theorem spaced_spaced (text : Text) : spaced (spaced text) = spaced text := by
  induction text using paired_induction with
  | nil => rfl
  | other b text hb ih =>
    rw [spaced_cons_of_ne hb]
    by_cases hsep : isSeparator b = true
    · simp only [hsep, if_true, spaced_space, ih]
    · simp only [hsep, Bool.false_eq_true, if_false, spaced_cons_of_ne hb, ih]
  | single text hhead ih => simp only [spaced_colon hhead, spaced_space, ih]
  | pair text ih => simp only [spaced_pair, ih]

/-- **Nothing is replaced** exactly in a text without separators in which every run of colons is even. -/
theorem spaced_eq_self_iff {text : Text} :
    spaced text = text ↔ (∀ b ∈ text, isSeparator b = false) ∧ ColonsPaired text := by
  induction text using paired_induction with
  | nil => simp [spaced, colonsPaired_nil]
  | other b text hb ih =>
    by_cases hsep : isSeparator b = true
    · have hne : Text.byte ' ' ≠ b := by
        rintro rfl
        simp [isSeparator_space] at hsep
      simp [spaced_cons_of_ne hb, hsep, hne]
    · simp [spaced_cons_of_ne hb, colonsPaired_cons hb, hsep, ih]
  | single text hhead ih =>
    have hne : Text.byte ' ' ≠ Text.byte ':' := by decide
    simp [spaced_colon hhead, not_colonsPaired_single hhead, hne]
  | pair text ih =>
    have hcolon : isSeparator (Text.byte ':') = false := by decide
    simp [spaced_pair, colonsPaired_pair, ih, hcolon]

/-! ## §3 Names -/

/-- A text that may come out of a line as a name. -/
structure IsNameToken (token : Text) : Prop where
  ne_nil : token ≠ []
  noStopWord : token ∉ stopWords
  /-- No white space, in whatever spelling, stands anywhere in it. -/
  noBlank : ∀ blank ∈ Text.blankSpellings, ¬ blank <:+: token
  noSeparator : ∀ b ∈ token, isSeparator b = false
  colonsPaired : ColonsPaired token

theorem isNameToken_iff {token : Text} :
    IsNameToken token ↔ Text.IsBare token ∧ spaced token = token ∧ token ∉ stopWords := by
  rw [Text.isBare_iff, spaced_eq_self_iff]
  constructor
  · intro h
    exact ⟨⟨h.ne_nil, h.noBlank⟩, ⟨h.noSeparator, h.colonsPaired⟩, h.noStopWord⟩
  · intro ⟨⟨hne, hblank⟩, ⟨hseparator, hpaired⟩, hstop⟩
    exact ⟨hne, hstop, hblank, hseparator, hpaired⟩

instance (token : Text) : Decidable (IsNameToken token) :=
  decidable_of_iff ((token ≠ [] ∧ ∀ blank ∈ Text.blankSpellings, ¬ blank <:+: token) ∧
      spaced token = token ∧ stopWords.contains token = false)
    (by simp [isNameToken_iff, Text.isBare_iff])

/-- **What comes out of a line is a name.** -/
theorem isNameToken_of_mem {line token : Text} (h : token ∈ nameTokens line) : IsNameToken token := by
  obtain ⟨hmem, hstop⟩ := List.mem_filter.mp h
  obtain ⟨hbare, before, after, hline, hbeside⟩ := Text.exists_of_mem_fields hmem
  -- the line with its spaces has no separators and no odd runs, and no colon stands beside the word
  obtain ⟨hseparator, hpaired⟩ := spaced_eq_self_iff.mp (spaced_spaced line)
  obtain ⟨hbefore, hafter⟩ := hbeside (Text.byte ':') (by decide) (by decide)
  rw [hline] at hseparator hpaired
  rw [isNameToken_iff, spaced_eq_self_iff]
  refine ⟨hbare, ⟨?_, hpaired.part hbefore hafter⟩, by simpa using hstop⟩
  intro b hb
  apply hseparator
  simp [hb]

/-- **A name stands for itself.** -/
theorem nameTokens_of_isNameToken {token : Text} (h : IsNameToken token) : nameTokens token = [token] := by
  obtain ⟨hbare, hspaced, hstop⟩ := isNameToken_iff.mp h
  simp [nameTokens, hspaced, Text.fields_bare hbare, hstop]

/-! ## §4 Where lines come apart -/

/-- A byte between two texts at which names come apart. -/
inductive Separates (before after : Text) : UInt8 → Prop where
  | space : Separates before after (Text.byte ' ')
  | separator {b : UInt8} (h : isSeparator b = true) : Separates before after b
  /-- A colon that has no other one beside it. -/
  | colon (hbefore : before.getLast? ≠ some (Text.byte ':')) (hafter : after.head? ≠ some (Text.byte ':')) :
      Separates before after (Text.byte ':')

theorem Separates.spaced_eq {before after : Text} {b : UInt8} (h : Separates before after b) :
    spaced (before ++ b :: after) = spaced before ++ Text.byte ' ' :: spaced after := by
  have happend : b ≠ Text.byte ':' → spaced (before ++ b :: after) = spaced before ++ spaced (b :: after) := by
    intro hne
    apply spaced_append
    exact Or.inr (by simpa using hne)
  cases h with
  | space => rw [happend (by decide), spaced_space]
  | separator hb =>
    have hne : b ≠ Text.byte ':' := by
      rintro rfl
      exact absurd hb (by decide)
    rw [happend hne, spaced_cons_of_ne hne, if_pos hb]
  | colon hbefore hafter => rw [spaced_append (Or.inl hbefore), spaced_colon hafter]

/-- **Names on both sides** of what separates them are the names of the two sides. -/
theorem nameTokens_append {before after : Text} {b : UInt8} (h : Separates before after b) :
    nameTokens (before ++ b :: after) = nameTokens before ++ nameTokens after := by
  have hblank : Text.isBlankByte (Text.byte ' ') = true := by decide
  unfold nameTokens
  rw [h.spaced_eq, Text.fields_append_blank hblank, List.filter_append]

/-- Names with single spaces between them are read as they are. -/
theorem nameTokens_joinWith {tokens : List Text} (h : ∀ token ∈ tokens, IsNameToken token) :
    nameTokens (Text.joinWith [Text.byte ' '] tokens) = tokens := by
  induction tokens with
  | nil => rfl
  | cons token tokens ih =>
    obtain ⟨htoken, htokens⟩ := List.forall_mem_cons.mp h
    cases tokens with
    | nil => exact nameTokens_of_isNameToken htoken
    | cons next tokens =>
      have htext : Text.joinWith [Text.byte ' '] (token :: next :: tokens) =
          token ++ Text.byte ' ' :: Text.joinWith [Text.byte ' '] (next :: tokens) := by
        simp [Text.joinWith_cons]
      rw [htext, nameTokens_append .space, nameTokens_of_isNameToken htoken, ih htokens]
      rfl

/-- **Names are a normal form.** No name that comes out of a line is empty or a stop word, and none holds white space, a
separator or an odd run of colons. The names of a line, written with single spaces between them, give the same names
again; and this is so of a list of texts exactly if all of them are such names. The names of two lines with a space
between them are the names of the one and then those of the other, and it is the same with a separator between them, or
with a single colon. -/
theorem nameTokens_normal_form (line before after : Text) (tokens : List Text) :
    (∀ token ∈ nameTokens line, IsNameToken token) ∧
    nameTokens (Text.joinWith [Text.byte ' '] (nameTokens line)) = nameTokens line ∧
    (nameTokens (Text.joinWith [Text.byte ' '] tokens) = tokens ↔ ∀ token ∈ tokens, IsNameToken token) ∧
    nameTokens (before ++ Text.byte ' ' :: after) = nameTokens before ++ nameTokens after ∧
    ∀ b, Separates before after b → nameTokens (before ++ b :: after) = nameTokens before ++ nameTokens after := by
  have hnames : ∀ token ∈ nameTokens line, IsNameToken token := fun token => isNameToken_of_mem
  refine ⟨hnames, nameTokens_joinWith hnames, ⟨?_, nameTokens_joinWith⟩, nameTokens_append .space, ?_⟩
  · intro hsame token htoken
    rw [← hsame] at htoken
    exact isNameToken_of_mem htoken
  · intro b hb
    exact nameTokens_append hb

/-- A line with runs of colons of several lengths, and with a no-break space between bytes that spell nothing. -/
def crowdedLine : Text :=
  Text.ofString "struct a:::b ::::c,d::e\x7bfinal:" ++ [0xE2, 0xC2, 0xA0, 0xC2] ++ Text.ofString ":f"

def crowdedNames : List Text :=
  [Text.ofString "a::", Text.ofString "b", Text.ofString "::::c", Text.ofString "d::e", [0xE2], [0xC2],
    Text.ofString "f"]

/-- An odd run of colons ends a name and an even one does not, and of two lines with a colon between them each keeps its
own names. A name with an odd run is read as two. -/
theorem nameTokens_of_crowdedLine :
    nameTokens crowdedLine = crowdedNames ∧ (∀ token ∈ crowdedNames, IsNameToken token) ∧
      nameTokens (Text.joinWith [Text.byte ' '] crowdedNames) = crowdedNames ∧
      nameTokens (crowdedLine ++ Text.byte ':' :: crowdedLine) = crowdedNames ++ crowdedNames ∧
      nameTokens (Text.joinWith [Text.byte ' '] [Text.ofString "a:::b"]) ≠ [Text.ofString "a:::b"] := by
  have hread : nameTokens crowdedLine = crowdedNames := by decide
  have hodd : ¬ ∀ token ∈ [Text.ofString "a:::b"], IsNameToken token := by decide
  obtain ⟨hnames, hagain, hsame, -, hapart⟩ :=
    nameTokens_normal_form crowdedLine crowdedLine crowdedLine [Text.ofString "a:::b"]
  rw [hread] at hnames hagain
  refine ⟨hread, hnames, hagain, ?_, fun h => hodd (hsame.mp h)⟩
  rw [hapart _ (.colon (by decide) (by decide)), hread]

end HeaderReflection
