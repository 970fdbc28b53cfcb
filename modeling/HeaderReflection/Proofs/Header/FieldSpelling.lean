import HeaderReflection.Proofs.Header.MemberText
import HeaderReflection.Proofs.Text.WhiteSpace

/-!
# Every spelling of a field

A field's line is taken apart by several steps, one after the other: a comment is cut off, blanks and a semicolon are
trimmed, the initializer is found, what stands before it is split into words, and the signs before the name are moved to
the type. None of them takes what is meant for another one, however the field is spelled: with white space of any kind,
with slashes inside of words, with any signs, and with any bytes in a value or a comment.

## Main definitions

- `Initializer`, `FieldSpelling`: a field, in all the ways in which it may be written.
- `IsFieldToken`, `IsFieldWord`: a text that may stand for a word of the type or for the name, and a word of the type
  with the white space behind it.

## Main results

- `FieldSpelling.code_text`, `FieldSpelling.body_text`: what is left of a line by the first steps.
- `FieldSpelling.fields_front`: the words before the initializer.
- `spelled_field_read`: a field is read back from each of its spellings.
-/

namespace HeaderReflection

/-! ## §1 Spellings -/

/-- An initializer as it is written. -/
inductive Initializer where
  /-- A value behind an equals sign. -/
  | assigned (value : Text)
  /-- A value in braces. -/
  | braced (value : Text)

namespace Initializer

def text : Initializer → Text
  | assigned value => Text.byte '=' :: value
  | braced value => Text.byte '{' :: (value ++ [Text.byte '}'])

/-- No comment starts in the value, and behind an equals sign there is a value. -/
def Legal : Initializer → Prop
  | assigned value => Text.isBlank value = false ∧ ¬ slashes <:+: value
  | braced value => ¬ slashes <:+: value

end Initializer

/-- A text that may stand for a word of the type or for the name: it has no white space, starts no initializer and no
comment. -/
structure IsFieldToken (word : Text) : Prop where
  visible : ∀ mark ∈ Text.marks word, mark.2 = false
  noEquals : Text.byte '=' ∉ word
  noBrace : Text.byte '{' ∉ word
  noComment : ¬ slashes <:+: word

instance (word : Text) : Decidable (IsFieldToken word) :=
  decidable_of_iff (((Text.marks word).all fun mark => mark.2 = false) = true ∧ Text.byte '=' ∉ word ∧
      Text.byte '{' ∉ word ∧ ¬ slashes <:+: word)
    ⟨fun h => ⟨by simpa using h.1, h.2.1, h.2.2.1, h.2.2.2⟩,
      fun h => ⟨by simpa using h.visible, h.noEquals, h.noBrace, h.noComment⟩⟩

/-- A word of the type that is set apart from what follows by white space. -/
structure IsFieldWord (pair : Text × Text) : Prop extends IsFieldToken pair.1 where
  ne_nil : pair.1 ≠ []
  gap_ne_nil : pair.2 ≠ []
  gap_isBlank : Text.isBlank pair.2 = true

theorem IsFieldWord.isBare {pair : Text × Text} (h : IsFieldWord pair) : Text.IsBare pair.1 := ⟨h.ne_nil, h.visible⟩

/-- A field in one of its spellings. -/
structure FieldSpelling where
  /-- White space at the start of the line. -/
  indent : Text := []
  /-- The words of the type, each with the white space behind it. -/
  words : List (Text × Text)
  /-- Pointer and reference signs, written against the name. -/
  sigils : Text := []
  name : Text
  /-- The initializer, with the white space in front of it. -/
  initializer : Option (Text × Initializer) := none
  /-- White space in front of the semicolon. -/
  gap : Text := []
  /-- White space behind the semicolon. -/
  trail : Text := []
  /-- The text behind the slashes of a comment. -/
  comment : Option Text := none

namespace FieldSpelling

/-- The words of the type, with the white space between them. -/
def wordsText (words : List (Text × Text)) : Text := words.flatMap fun pair => pair.1 ++ pair.2

/-- The type and the name. -/
def declared (f : FieldSpelling) : Text := wordsText f.words ++ (f.sigils ++ f.name)

/-- The initializer with the white space in front of it. -/
def ending (f : FieldSpelling) : Text := f.initializer.elim [] fun pair => pair.1 ++ pair.2.text

/-- The line of the field. -/
def text (f : FieldSpelling) : Text :=
  f.indent ++ (f.declared ++ (f.ending ++ (f.gap ++
    Text.byte ';' :: (f.trail ++ f.comment.elim [] (slashes ++ ·)))))

/-- The type as it is reported: its words with single spaces between them, and the signs before the name. -/
def type (f : FieldSpelling) : Text := Text.joinWith " " (f.words.map (·.1)) ++ f.sigils

/-- White space is white space, tokens are tokens, and the name does not begin with a sign. A comment may hold
anything. -/
structure Legal (f : FieldSpelling) : Prop where
  indent : Text.isBlank f.indent = true
  ne_nil : f.words ≠ []
  words : ∀ pair ∈ f.words, IsFieldWord pair
  sigils : f.sigils.all FieldLine.isSigil = true
  name : IsFieldToken f.name
  unsigned : ∀ b ∈ f.name.head?, FieldLine.isSigil b = false
  initializer : ∀ pair ∈ f.initializer, Text.isBlank pair.1 = true ∧ pair.2.Legal
  gap : Text.isBlank f.gap = true
  trail : Text.isBlank f.trail = true

end FieldSpelling

/-! ## §2 Comments -/

theorem slash_not_mem_of_isBlank {blank : Text} (h : Text.isBlank blank = true) : Text.byte '/' ∉ blank :=
  Text.not_mem_of_isBlank (by decide) (by decide) h

/-- What does not begin with a slash does not do so behind a text without slashes either. -/
theorem head?_append_ne {b : UInt8} {before after : Text} (hbefore : b ∉ before) (hafter : after.head? ≠ some b) :
    (before ++ after).head? ≠ some b := by
  cases before with
  | nil => exact hafter
  | cons c before =>
    rintro ⟨⟩
    exact hbefore List.mem_cons_self

namespace FieldLine

/-- **A piece without a comment** is passed over, if what follows does not make one of its last slash. -/
theorem code_append_of_head {before after : Text} (hbefore : ¬ slashes <:+: before)
    (hafter : after.head? ≠ some (Text.byte '/')) : code (before ++ after) = before ++ code after := by
  induction before with
  | nil => rfl
  | cons c before ih =>
    have hrest : ¬ slashes <:+: before := fun h => hbefore (List.infix_cons h)
    rw [List.cons_append, code_cons, ih hrest, List.cons_append]
    rintro rfl
    -- a second slash would stand in this piece, or at the start of what follows
    cases before with
    | nil => exact hafter
    | cons d before =>
      rintro ⟨⟩
      exact hbefore (List.IsPrefix.isInfix ⟨before, rfl⟩)

end FieldLine

namespace FieldSpelling

variable {f : FieldSpelling}

theorem code_wordsText {words : List (Text × Text)} (h : ∀ pair ∈ words, IsFieldWord pair) (rest : Text) :
    FieldLine.code (wordsText words ++ rest) = wordsText words ++ FieldLine.code rest := by
  induction words with
  | nil => rfl
  | cons pair words ih =>
    obtain ⟨hword, hwords⟩ := List.forall_mem_cons.mp h
    -- the white space keeps a slash at the end of a word from one at the start of the next
    have hslash := slash_not_mem_of_isBlank hword.gap_isBlank
    have hhead : (pair.2 ++ (wordsText words ++ rest)).head? ≠ some (Text.byte '/') := by
      obtain ⟨c, gap, hgap⟩ := List.exists_cons_of_ne_nil hword.gap_ne_nil
      rw [hgap] at hslash ⊢
      rintro ⟨⟩
      exact hslash List.mem_cons_self
    have htext : wordsText (pair :: words) ++ rest = pair.1 ++ (pair.2 ++ (wordsText words ++ rest)) := by
      simp [wordsText]
    rw [htext, FieldLine.code_append_of_head hword.noComment hhead, FieldLine.code_append hslash, ih hwords]
    simp [wordsText]

theorem head?_ending_append (h : f.Legal) {rest : Text} (hrest : rest.head? ≠ some (Text.byte '/')) :
    (f.ending ++ rest).head? ≠ some (Text.byte '/') := by
  unfold ending
  cases hinit : f.initializer with
  | none => exact hrest
  | some pair =>
    have hblank := (h.initializer pair hinit).1
    show (pair.1 ++ pair.2.text ++ rest).head? ≠ _
    rw [List.append_assoc]
    apply head?_append_ne (slash_not_mem_of_isBlank hblank)
    cases pair.2 with
    | assigned value => rintro ⟨⟩
    | braced value => rintro ⟨⟩

theorem code_ending (h : f.Legal) {rest : Text} (hrest : rest.head? ≠ some (Text.byte '/')) :
    FieldLine.code (f.ending ++ rest) = f.ending ++ FieldLine.code rest := by
  unfold ending
  cases hinit : f.initializer with
  | none => rfl
  | some pair =>
    obtain ⟨hblank, hlegal⟩ := h.initializer pair hinit
    show FieldLine.code (pair.1 ++ pair.2.text ++ rest) = pair.1 ++ pair.2.text ++ FieldLine.code rest
    rw [List.append_assoc, FieldLine.code_append (slash_not_mem_of_isBlank hblank)]
    cases hcase : pair.2 with
    | assigned value =>
      rw [hcase] at hlegal
      simp only [Initializer.text, List.cons_append]
      rw [FieldLine.code_cons (fun h => absurd h (by decide)), FieldLine.code_append_of_head hlegal.2 hrest]
      simp
    | braced value =>
      rw [hcase] at hlegal
      simp only [Initializer.text, List.cons_append, List.append_assoc, List.nil_append]
      rw [FieldLine.code_cons (fun h => absurd h (by decide)),
        FieldLine.code_append_of_head hlegal (by rintro ⟨⟩), FieldLine.code_cons (fun h => absurd h (by decide))]

/-- **Without its comment** a line has all that stands before it. -/
theorem code_text (h : f.Legal) :
    FieldLine.code f.text = f.indent ++ (f.declared ++ (f.ending ++ (f.gap ++ [Text.byte ';'])) ++ f.trail) := by
  have hcomment : FieldLine.code (f.comment.elim [] (slashes ++ ·)) = [] := by
    cases f.comment with
    | none => rfl
    | some comment => exact FieldLine.code_slashes comment
  have hsigils : Text.byte '/' ∉ f.sigils := fun hmem => absurd (List.all_eq_true.mp h.sigils _ hmem) (by decide)
  have hgap := slash_not_mem_of_isBlank h.gap
  have hsemicolon : (f.gap ++ Text.byte ';' :: (f.trail ++ f.comment.elim [] (slashes ++ ·))).head? ≠
      some (Text.byte '/') := head?_append_ne hgap (by rintro ⟨⟩)
  unfold text declared
  rw [FieldLine.code_append (slash_not_mem_of_isBlank h.indent), List.append_assoc, code_wordsText h.words,
    List.append_assoc, FieldLine.code_append hsigils,
    FieldLine.code_append_of_head h.name.noComment (head?_ending_append h hsemicolon), code_ending h hsemicolon,
    FieldLine.code_append hgap, FieldLine.code_cons (fun h => absurd h (by decide)),
    FieldLine.code_append (slash_not_mem_of_isBlank h.trail), hcomment]
  simp

/-! ## §3 The body -/

theorem beginsVisibly_declared (h : f.Legal) (rest : Text) : Text.BeginsVisibly (f.declared ++ rest) := by
  obtain ⟨pair, words, hwords⟩ := List.exists_cons_of_ne_nil h.ne_nil
  have hword := h.words pair (hwords ▸ List.mem_cons_self)
  have htext : f.declared ++ rest =
      pair.1 ++ (pair.2 ++ (wordsText words ++ (f.sigils ++ f.name) ++ rest)) := by
    simp [declared, wordsText, hwords]
  rw [htext]
  apply hword.isBare.beginsVisibly.append hword.ne_nil
  rw [List.head?_append_of_ne_nil _ hword.gap_ne_nil]
  exact Text.beginsPiece_head_of_isBlank hword.gap_isBlank

/-- **The body of a line** goes from the type to the white space before the semicolon. -/
theorem body_text (h : f.Legal) : FieldLine.body f.text = f.declared ++ (f.ending ++ f.gap) := by
  have hvisible := beginsVisibly_declared h (f.ending ++ f.gap)
  have hcode : f.declared ++ (f.ending ++ (f.gap ++ [Text.byte ';'])) =
      f.declared ++ (f.ending ++ f.gap) ++ [Text.byte ';'] := by simp
  rw [FieldLine.body_eq, code_text h, Text.trim_padded h.indent h.trail, hcode,
    Text.trim_concat hvisible (by decide) (by decide)]
  exact Text.trimSuffix_append _ [Text.byte ';']

/-! ## §4 Words and initializer -/

/-- The white space behind the name. -/
def space (f : FieldSpelling) : Text := f.initializer.elim f.gap (·.1)

/-- What stands before the initializer. -/
def front (f : FieldSpelling) : Text := f.declared ++ f.space

/-- The initializer, with the white space behind it. -/
def value (f : FieldSpelling) : Text := f.initializer.elim [] fun pair => pair.2.text ++ f.gap

theorem body_eq_front_value (h : f.Legal) : FieldLine.body f.text = f.front ++ f.value := by
  rw [body_text h, front, List.append_assoc]
  unfold space value ending
  cases f.initializer with
  | none => simp
  | some pair => simp

theorem isBlank_space (h : f.Legal) : Text.isBlank f.space = true := by
  unfold space
  cases hinit : f.initializer with
  | none => exact h.gap
  | some pair => exact (h.initializer pair hinit).1

theorem fields_wordsText {words : List (Text × Text)} (h : ∀ pair ∈ words, IsFieldWord pair) (rest : Text) :
    Text.fields (wordsText words ++ rest) = words.map (·.1) ++ Text.fields rest := by
  induction words with
  | nil => rfl
  | cons pair words ih =>
    obtain ⟨hword, hwords⟩ := List.forall_mem_cons.mp h
    have htext : wordsText (pair :: words) ++ rest = pair.1 ++ (pair.2 ++ (wordsText words ++ rest)) := by
      simp [wordsText]
    rw [htext, Text.fields_append_gap hword.gap_ne_nil hword.gap_isBlank, Text.fields_bare hword.isBare, ih hwords]
    rfl

/-- **The words before the initializer**: those of the type, and the name with its signs. -/
theorem fields_front (h : f.Legal) (hname : f.name ≠ []) :
    Text.fields f.front = f.words.map (·.1) ++ [f.sigils ++ f.name] := by
  have hword : Text.IsBare (f.sigils ++ f.name) := isBare_sigils_append h.sigils ⟨hname, h.name.visible⟩
  rw [front, declared, List.append_assoc, fields_wordsText h.words, Text.fields_append_of_isBlank (isBlank_space h),
    Text.fields_bare hword]

/-- A byte that is in no token, sign or white space does not stand before the initializer. -/
theorem not_mem_front (h : f.Legal) {b : UInt8} (hwords : ∀ pair ∈ f.words, b ∉ pair.1) (hname : b ∉ f.name)
    (hsigil : FieldLine.isSigil b = false) (hlow : b < 128) (hvisible : Text.isBlankByte b = false) : b ∉ f.front := by
  simp only [front, declared, wordsText, List.mem_append, List.mem_flatMap, not_or, not_exists, not_and]
  refine ⟨⟨fun pair hpair => ⟨hwords pair hpair, ?_⟩, ?_, hname⟩, ?_⟩
  · exact Text.not_mem_of_isBlank hlow hvisible (h.words pair hpair).gap_isBlank
  · intro hmem
    rw [List.all_eq_true.mp h.sigils b hmem] at hsigil
    cases hsigil
  · exact Text.not_mem_of_isBlank hlow hvisible (isBlank_space h)

theorem startsInitializer_front (h : f.Legal) : ∀ b ∈ f.front, FieldLine.startsInitializer b = false := by
  have hequals : Text.byte '=' ∉ f.front := not_mem_front h (fun pair hpair => (h.words pair hpair).noEquals)
    h.name.noEquals (by decide) (by decide) (by decide)
  have hbrace : Text.byte '{' ∉ f.front := not_mem_front h (fun pair hpair => (h.words pair hpair).noBrace)
    h.name.noBrace (by decide) (by decide) (by decide)
  intro b hb
  have hne : b ≠ Text.byte '=' ∧ b ≠ Text.byte '{' := ⟨fun heq => hequals (heq ▸ hb), fun heq => hbrace (heq ▸ hb)⟩
  simp [FieldLine.startsInitializer, hne]

/-- Behind the white space after the name an initializer starts, or nothing is left. -/
theorem startsInitializer_value (f : FieldSpelling) : ∀ b ∈ f.value.head?, FieldLine.startsInitializer b = true := by
  unfold value
  cases f.initializer with
  | none => nofun
  | some pair =>
    obtain ⟨space, initializer⟩ := pair
    cases initializer with
    | assigned value =>
      rintro b ⟨⟩
      decide
    | braced value =>
      rintro b ⟨⟩
      decide

/-- **Whether there is an initializer** shows, since the value behind an equals sign is not blank. -/
theorem isInitializer_value (h : f.Legal) : FieldLine.isInitializer f.value = f.initializer.isSome := by
  unfold value
  cases hinit : f.initializer with
  | none => rfl
  | some pair =>
    obtain ⟨space, initializer⟩ := pair
    obtain ⟨-, hlegal⟩ := h.initializer _ hinit
    cases initializer with
    | assigned value =>
      have hvalue : Text.isBlank (value ++ f.gap) = false := Text.isBlank_append_eq_false hlegal.1 h.gap
      simp [Initializer.text, FieldLine.isInitializer, hvalue]
    | braced value => rfl

end FieldSpelling

/-- What is read as a field has a name. -/
theorem FieldLine.name_ne_nil {line : Text} {field : FieldLine} (h : FieldLine.parse? line = some field) :
    field.name ≠ [] := by
  unfold FieldLine.parse? at h
  dsimp only at h
  split at h
  · split at h
    · cases h
    · next hname =>
      cases h
      exact hname
  · cases h

/-- **A field is read back from each of its spellings**, with the words of its type joined by single spaces and the
signs behind them, and with the note whether it has an initializer. The one thing that it has to have is a name. -/
theorem spelled_field_read {f : FieldSpelling} (h : f.Legal) :
    FieldLine.parse? f.text =
        some { type := f.type, name := f.name, initialized := f.initializer.isSome } ↔ f.name ≠ [] := by
  constructor
  · intro hread
    exact FieldLine.name_ne_nil hread
  · intro hname
    have hread := FieldLine.parse?_of_words (FieldSpelling.body_eq_front_value h)
      (FieldSpelling.startsInitializer_front h) f.startsInitializer_value (FieldSpelling.fields_front h hname)
      (by simpa using h.ne_nil) h.sigils h.unsigned hname
    rw [hread, FieldSpelling.isInitializer_value h]
    rfl

/-- A field with slashes at the ends of words, a blank of two bytes before the signs, a semicolon in its value and a
comment that looks like an initializer. -/
def oddField : FieldSpelling where
  indent := "\t"
  words := [("const/", "  "), ("a/b<int>", [0xC2, 0xA0])]
  sigils := "*&*"
  name := "x/"
  initializer := some (" ", .assigned " 1/ 2; ")
  trail := " "
  comment := some "/ = \x7bold\x7d;"

theorem spelled_field_of_oddField :
    FieldLine.parse? "\tconst/  a/b<int>\u00a0*&*x/ = 1/ 2; ; /// = \x7bold\x7d;" =
      some { type := "const/ a/b<int>*&*", name := "x/", initialized := true } := by
  have hlegal : oddField.Legal := by
    refine ⟨by decide, by decide, ?_, by decide, by decide, ?_, ?_, by decide, by decide⟩
    · rintro pair (_ | ⟨_, _ | ⟨_, ⟨⟩⟩⟩)
      · exact ⟨by decide, by decide, by decide, by decide⟩
      · exact ⟨by decide, by decide, by decide, by decide⟩
    · rintro b ⟨⟩
      rfl
    · rintro pair ⟨⟩
      exact ⟨by decide, by decide, by decide⟩
  exact (spelled_field_read hlegal).mpr (by decide)

end HeaderReflection
