import HeaderReflection.Proofs.Header.TypeText

/-!
# Written members

The lines that declare the members of a type, as they may be written, and what is read from them: the type and the name
of a field, the name of a function, and the signature of a constructor, which may go on over several lines.

## Main definitions

- `FieldText`, `FieldEnd`: a field, with or without an initializer.
- `FunctionLine`: the line that names a function.
- `isBalanced`, `SignatureText`: signatures.

## Main results

- `FieldLine.parse?_of_words`: what is read from a line of which the words are known.
- `FieldText.parse?_text`, `FunctionLine.functionName?_text`, `SignatureText.signature?_text`: members are read back.
-/

namespace HeaderReflection

/-! ## §1 Fields -/

/-- The slashes in front of a comment. -/
abbrev slashes : Text := [Text.byte '/', Text.byte '/']

/-- What stands behind the name of a field. -/
inductive FieldEnd where
  /-- No initializer: a semicolon, perhaps with a comment behind it. -/
  | plain (gap after : Gap) (comment : Option Text)
  /-- An initializer behind an equals sign; its first byte is set apart. -/
  | assigned (gap inner : Gap) (first : UInt8) (rest : Text)
  /-- An initializer in braces. -/
  | braced (gap : Gap) (rest : Text)

namespace FieldEnd

def gap : FieldEnd → Gap
  | plain gap _ _ | assigned gap _ _ _ | braced gap _ => gap

def rest : FieldEnd → Text
  | plain _ after comment => Text.byte ';' :: after.text ++ comment.elim [] (slashes ++ ·)
  | assigned _ inner first rest => Text.byte '=' :: inner.text ++ first :: rest
  | braced _ rest => Text.byte '{' :: rest

def initialized : FieldEnd → Bool
  | plain _ _ _ => false
  | assigned _ _ _ _ | braced _ _ => true

def Legal : FieldEnd → Prop
  | plain _ _ comment => ∀ text ∈ comment, OneLine text
  | assigned _ _ first rest =>
    (Text.BeginsVisibly (first :: rest) ∧ first ≠ Text.byte ';') ∧
      (first = Text.byte '/' → rest.head? ≠ some (Text.byte '/')) ∧ OneLine rest
  | braced _ rest => OneLine rest

end FieldEnd

/-- What may be a word of a type: no blank, no start of an initializer and no slash. -/
structure IsTypeWord (word : Text) : Prop extends Text.IsBare word where
  noEquals : Text.byte '=' ∉ word
  noBrace : Text.byte '{' ∉ word
  noSlash : Text.byte '/' ∉ word

/-- A field as it is written. Each word of its type comes with the gap behind it, and pointer and reference signs may
stand before the name. -/
structure FieldText where
  indent : Gap := {}
  words : List (Text × Gap)
  sigils : Text := []
  name : Text
  ending : FieldEnd := .plain {} {} none

section Sigils

variable {sigils name : Text}

theorem isBare_sigils_append (hsigils : sigils.all FieldLine.isSigil = true) (hname : Text.IsBare name) :
    Text.IsBare (sigils ++ name) := by
  have hbytes : ∀ b ∈ sigils, b < 128 ∧ Text.isBlankByte b = false := by
    intro b hb
    have hsigil := List.all_eq_true.mp hsigils b hb
    rw [FieldLine.isSigil, Bool.or_eq_true, decide_eq_true_eq, decide_eq_true_eq] at hsigil
    rcases hsigil with rfl | rfl <;> decide
  refine ⟨by simp [hname.ne_nil], ?_⟩
  rw [Text.marks_append_of_lt fun b hb => (hbytes b hb).1, List.forall_mem_append]
  refine ⟨fun mark hmark => ?_, hname.visible⟩
  obtain ⟨b, hb, rfl⟩ := List.mem_map.mp hmark
  exact (hbytes b hb).2

/-- An identifier is one word with the signs that are written against it. -/
theorem isBare_sigils_identifier (hsigils : sigils.all FieldLine.isSigil = true)
    (hname : Text.isIdentifier name = true) : Text.IsBare (sigils ++ name) :=
  isBare_sigils_append hsigils (isToken_of_isIdentifier hname).toIsBare

theorem isSigil_of_isIdentifierByte {b : UInt8} (h : Text.isIdentifierByte b = true) : FieldLine.isSigil b = false := by
  rw [← Bool.not_eq_true, FieldLine.isSigil, Bool.or_eq_true, decide_eq_true_eq, decide_eq_true_eq]
  rintro (rfl | rfl) <;> exact absurd h (by decide)

theorem isSigil_head?_of_isIdentifier (hname : Text.isIdentifier name = true) :
    ∀ b ∈ name.head?, FieldLine.isSigil b = false := fun b hb =>
  isSigil_of_isIdentifierByte (Text.forall_mem_of_isIdentifier hname b (List.mem_of_mem_head? hb))

theorem dropWhile_sigils (hsigils : sigils.all FieldLine.isSigil = true)
    (hname : ∀ b ∈ name.head?, FieldLine.isSigil b = false) : (sigils ++ name).dropWhile FieldLine.isSigil = name := by
  rw [List.dropWhile_append_of_pos (List.all_eq_true.mp hsigils), Text.dropWhile_eq_self_iff.mpr hname]

theorem takeWhile_sigils (hsigils : sigils.all FieldLine.isSigil = true)
    (hname : ∀ b ∈ name.head?, FieldLine.isSigil b = false) :
    (sigils ++ name).takeWhile FieldLine.isSigil = sigils := by
  rw [List.takeWhile_append_of_pos (List.all_eq_true.mp hsigils)]
  cases name with
  | nil => simp
  | cons first rest => rw [List.takeWhile_cons_of_neg (by simp [hname first rfl]), List.append_nil]

end Sigils

namespace FieldText

def wordsText (words : List (Text × Gap)) : Text := words.flatMap fun pair => pair.1 ++ pair.2.text

/-- The type and the name, with the gap behind them. -/
def head (f : FieldText) : Text := wordsText f.words ++ f.sigils ++ f.name ++ f.ending.gap.text

def text (f : FieldText) : Text := f.indent.text ++ f.head ++ f.ending.rest

/-- The type as it is reported: its words with single spaces between them, and the signs before the name. -/
def type (f : FieldText) : Text := Text.joinWith " " (f.words.map (·.1)) ++ f.sigils

structure Legal (f : FieldText) : Prop where
  ne_nil : f.words ≠ []
  words : ∀ pair ∈ f.words, IsTypeWord pair.1 ∧ pair.2.text ≠ []
  sigils : f.sigils.all FieldLine.isSigil = true
  name : Text.isIdentifier f.name = true
  ending : f.ending.Legal

variable {f : FieldText}

theorem fields_wordsText {words : List (Text × Gap)} (h : ∀ pair ∈ words, IsTypeWord pair.1 ∧ pair.2.text ≠ [])
    (rest : Text) : Text.fields (wordsText words ++ rest) = words.map (·.1) ++ Text.fields rest := by
  induction words with
  | nil => rfl
  | cons pair words ih =>
    obtain ⟨hword, hgap⟩ := h pair List.mem_cons_self
    have htext : wordsText (pair :: words) ++ rest = pair.1 ++ pair.2.text ++ (wordsText words ++ rest) := by
      simp [wordsText]
    rw [htext, Text.fields_bare_append hword.toIsBare hgap pair.2.isBlanks,
      ih fun p hp => h p (List.mem_cons_of_mem _ hp)]
    rfl

/-- The words in front of an initializer: those of the type, and the name with its signs. -/
theorem fields_head (h : f.Legal) : Text.fields f.head = f.words.map (·.1) ++ [f.sigils ++ f.name] := by
  have htext : f.head = wordsText f.words ++ (f.sigils ++ f.name ++ f.ending.gap.text) := by simp [head]
  rw [htext, fields_wordsText h.words]
  congr 1
  by_cases hne : f.ending.gap.text = []
  · rw [hne, List.append_nil, Text.fields_bare (isBare_sigils_identifier h.sigils h.name)]
  · have hread := Text.fields_bare_append (isBare_sigils_identifier h.sigils h.name) hne f.ending.gap.isBlanks []
    rwa [List.append_nil, Text.fields_nil] at hread

/-- A byte that is in no word, sign or gap is not in front of an initializer. -/
theorem not_mem_head (h : f.Legal) {b : UInt8} (hwords : ∀ pair ∈ f.words, b ∉ pair.1) (hgap : isGapByte b = false)
    (hsigil : FieldLine.isSigil b = false) (hname : Text.isIdentifierByte b = false) : b ∉ f.head := by
  simp only [head, wordsText, List.mem_append, List.mem_flatMap, not_or, not_exists, not_and]
  refine ⟨⟨⟨fun pair hpair => ⟨hwords pair hpair, pair.2.not_mem hgap⟩, ?_⟩, ?_⟩, f.ending.gap.not_mem hgap⟩
  · intro hmem
    rw [List.all_eq_true.mp h.sigils b hmem] at hsigil
    cases hsigil
  · exact Text.not_mem_of_isIdentifier h.name hname

theorem slash_not_mem_head (h : f.Legal) : Text.byte '/' ∉ f.head :=
  not_mem_head h (fun pair hpair => (h.words pair hpair).1.noSlash) (by decide) (by decide) (by decide)

theorem startsInitializer_head (h : f.Legal) : ∀ b ∈ f.head, FieldLine.startsInitializer b = false := by
  have hequals : Text.byte '=' ∉ f.head :=
    not_mem_head h (fun pair hpair => (h.words pair hpair).1.noEquals) (by decide) (by decide) (by decide)
  have hbrace : Text.byte '{' ∉ f.head :=
    not_mem_head h (fun pair hpair => (h.words pair hpair).1.noBrace) (by decide) (by decide) (by decide)
  intro b hb
  have hne : b ≠ Text.byte '=' ∧ b ≠ Text.byte '{' := ⟨fun heq => hequals (heq ▸ hb), fun heq => hbrace (heq ▸ hb)⟩
  simp [FieldLine.startsInitializer, hne]

theorem beginsVisibly_head (h : f.Legal) (rest : Text) : Text.BeginsVisibly (f.head ++ rest) := by
  obtain ⟨pair, words, hwords⟩ := List.exists_cons_of_ne_nil h.ne_nil
  obtain ⟨hword, hgap⟩ := h.words pair (hwords ▸ List.mem_cons_self)
  obtain ⟨c, gap, hgapText⟩ := List.exists_cons_of_ne_nil hgap
  have htext : f.head ++ rest =
      pair.1 ++ c :: (gap ++ wordsText words ++ f.sigils ++ f.name ++ f.ending.gap.text ++ rest) := by
    simp [head, wordsText, hwords, hgapText]
  rw [htext]
  apply Text.beginsVisibly_append hword.ne_nil hword.beginsVisibly
  exact Text.lt_of_isBlankByte (pair.2.isBlanks c (by simp [hgapText]))

end FieldText

namespace FieldLine

/-- A field's line without what may stand behind a comment sign. -/
def code (line : Text) : Text :=
  match Text.cut "//" line with
  | some (code, _) => code
  | none => line

theorem body_eq (line : Text) : body line = Text.trimSuffix ";" (code line).trim := rfl

theorem code_append {before : Text} (h : Text.byte '/' ∉ before) (after : Text) :
    code (before ++ after) = before ++ code after := by
  have hcut : Text.cut "//" (before ++ after) =
      (Text.cut "//" after).map fun halves => (before ++ halves.1, halves.2) :=
    Text.cut_append_of_not_mem h after
  unfold code
  rw [hcut]
  cases Text.cut "//" after <;> rfl

theorem code_slashes (comment : Text) : code (slashes ++ comment) = [] := by
  have hcut : Text.cut "//" (slashes ++ comment) = some ([], comment) := by
    show Text.cut slashes (slashes ++ comment) = _
    simp [Text.cut, Text.stripPrefix?]
  unfold code
  rw [hcut]

theorem code_isPrefix (line : Text) : code line <+: line := by
  unfold code
  cases hcut : Text.cut "//" line with
  | none => exact List.prefix_rfl
  | some halves => exact ⟨_, (List.append_assoc _ _ _).symm.trans (Text.cut_eq_some hcut).symm⟩

/-- A byte that is not the first of two slashes is passed over. -/
theorem code_cons {c : UInt8} {rest : Text} (h : c = Text.byte '/' → rest.head? ≠ some (Text.byte '/')) :
    code (c :: rest) = c :: code rest := by
  have hstrip : Text.stripPrefix? slashes (c :: rest) = none := by
    by_cases hc : Text.byte '/' = c
    · cases rest with
      | nil => simp [Text.stripPrefix?, hc]
      | cons d rest =>
        have hd : d ≠ Text.byte '/' := by simpa using h hc.symm
        simp [Text.stripPrefix?, Ne.symm hd]
    · exact Text.stripPrefix?_cons_of_ne hc _ _
  have hcut : Text.cut "//" (c :: rest) = (Text.cut "//" rest).map fun halves => (c :: halves.1, halves.2) := by
    show Text.cut slashes (c :: rest) = (Text.cut slashes rest).map _
    rw [Text.cut, hstrip]
  unfold code
  rw [hcut]
  cases Text.cut "//" rest <;> rfl

/-- A last semicolon is taken off, and nothing in front of another byte is. -/
theorem exists_trimSuffix {c : UInt8} (h : c ≠ Text.byte ';') (before rest : Text) :
    ∃ after, after <+: rest ∧ Text.trimSuffix ";" (before ++ c :: rest) = before ++ c :: after := by
  unfold Text.trimSuffix
  cases hstrip : Text.stripSuffix? ";" (before ++ c :: rest) with
  | none => exact ⟨rest, List.prefix_rfl, rfl⟩
  | some kept =>
    have htext : before ++ c :: rest = kept ++ [Text.byte ';'] := Text.stripSuffix?_eq_some_iff.mp hstrip
    rcases List.eq_nil_or_concat rest with rfl | ⟨init, last, rfl⟩
    · exact absurd (List.append_inj_right' htext rfl) (by simpa using h)
    · refine ⟨init, ⟨[last], by simp⟩, ?_⟩
      rw [List.concat_eq_append, ← List.cons_append, ← List.append_assoc] at htext
      exact (List.append_inj_left' htext rfl).symm

/-- **What stands before a visible byte** of a field's line is kept. -/
theorem exists_body (indent : Gap) {before : Text} (hbefore : Text.BeginsVisibly before)
    (hslash : Text.byte '/' ∉ before) {c : UInt8} (hsemicolon : c ≠ Text.byte ';') {rest : Text}
    (hmarks : ∀ kept, kept <+: rest →
      Text.marks (before ++ c :: kept) = Text.marks before ++ (c, false) :: Text.marks kept)
    (hcomment : c = Text.byte '/' → rest.head? ≠ some (Text.byte '/')) :
    ∃ after, after <+: rest ∧ body (indent.text ++ before ++ c :: rest) = before ++ c :: after := by
  obtain ⟨trimmed, htrimmedStart, htrimmed⟩ :=
    Text.exists_trim_of_marks hbefore (hmarks (code rest) (code_isPrefix rest))
  obtain ⟨after, hafterStart, hafter⟩ := exists_trimSuffix hsemicolon before trimmed
  refine ⟨after, (hafterStart.trans htrimmedStart).trans (code_isPrefix rest), ?_⟩
  have hfront : Text.byte '/' ∉ indent.text ++ before := by
    simp only [List.mem_append, not_or]
    exact ⟨indent.not_mem (by decide), hslash⟩
  rw [body_eq, code_append hfront, code_cons hcomment, List.append_assoc, Text.trim_blanks_append indent.isBlanks,
    htrimmed, hafter]

/-- Whether there is an initializer at the start of a text. -/
def isInitializer : Text → Bool
  | [] => false
  | b :: value => b = Text.byte '{' || !Text.isBlank value

section Words

variable {line declared after : Text}

/-- Whether a field has an initializer shows behind its name. -/
theorem isInitialized_of_body (hbody : body line = declared ++ after)
    (hdeclared : ∀ b ∈ declared, startsInitializer b = false)
    (hafter : ∀ b ∈ after.head?, startsInitializer b = true) : isInitialized line = isInitializer after := by
  have hdrop : (declared ++ after).dropWhile (!startsInitializer ·) = after := by
    rw [List.dropWhile_append_of_pos fun b hb => by rw [hdeclared b hb]; rfl, Text.dropWhile_eq_self_iff]
    intro b hb
    rw [hafter b hb]
    rfl
  show isInitializer ((body line).dropWhile (!startsInitializer ·)) = isInitializer after
  rw [hbody, hdrop]

/-- **What is read from a field's line** of which the words in front of the initializer are known. -/
theorem parse?_of_words {sigils name : Text} {words : List Text} (hbody : body line = declared ++ after)
    (hdeclared : ∀ b ∈ declared, startsInitializer b = false)
    (hafter : ∀ b ∈ after.head?, startsInitializer b = true)
    (hwords : Text.fields declared = words ++ [sigils ++ name]) (hne : words ≠ [])
    (hsigils : sigils.all isSigil = true) (hname : ∀ b ∈ name.head?, isSigil b = false) (hnamed : name ≠ []) :
    parse? line =
      some { type := Text.joinWith " " words ++ sigils, name, initialized := isInitializer after } := by
  have htake : (declared ++ after).takeWhile (!startsInitializer ·) = declared := by
    rw [List.takeWhile_append_of_pos fun b hb => by rw [hdeclared b hb]; rfl]
    cases after with
    | nil => simp
    | cons b after => simp [hafter b rfl]
  have hreversed : (Text.fields declared).reverse = (sigils ++ name) :: words.reverse := by
    rw [hwords]
    simp
  obtain ⟨typeWord, typeWords, htype⟩ : ∃ typeWord typeWords, words.reverse = typeWord :: typeWords :=
    List.exists_cons_of_ne_nil (by simpa using hne)
  have hreverse : (typeWord :: typeWords).reverse = words := by rw [← htype, List.reverse_reverse]
  -- the last word is the name with its signs, and there is a word of the type before it
  unfold parse?
  dsimp only
  rw [isInitialized_of_body hbody hdeclared hafter, hbody, htake, hreversed, htype]
  dsimp only
  rw [dropWhile_sigils hsigils hname, takeWhile_sigils hsigils hname, hreverse]
  obtain ⟨first, rest, rfl⟩ := List.exists_cons_of_ne_nil hnamed
  rfl

end Words

/-- What is read from a written field, of which the body is known up to its initializer. -/
theorem parse?_of_body {f : FieldText} (h : f.Legal) {line after : Text} (hbody : body line = f.head ++ after)
    (hafter : ∀ b ∈ after.head?, startsInitializer b = true) :
    parse? line = some { type := f.type, name := f.name, initialized := isInitializer after } :=
  parse?_of_words hbody (FieldText.startsInitializer_head h) hafter (FieldText.fields_head h) (by simpa using h.ne_nil)
    h.sigils (isSigil_head?_of_isIdentifier h.name) (Text.ne_nil_of_isIdentifier h.name)

end FieldLine

theorem FieldText.body_plain {f : FieldText} (h : f.Legal) (after : Gap) (comment : Option Text) :
    FieldLine.body (f.indent.text ++ f.head ++ (Text.byte ';' :: after.text ++ comment.elim [] (slashes ++ ·))) =
      f.head := by
  have hfront : Text.byte '/' ∉ f.indent.text ++ (f.head ++ [Text.byte ';']) ++ after.text := by
    simp only [List.mem_append, List.mem_singleton, not_or]
    exact ⟨⟨f.indent.not_mem (by decide), slash_not_mem_head h, by decide⟩, after.not_mem (by decide)⟩
  have hcomment : FieldLine.code (comment.elim [] (slashes ++ ·)) = [] := by
    cases comment with
    | none => rfl
    | some comment => exact FieldLine.code_slashes comment
  have htext : f.indent.text ++ f.head ++ (Text.byte ';' :: after.text ++ comment.elim [] (slashes ++ ·)) =
      f.indent.text ++ (f.head ++ [Text.byte ';']) ++ after.text ++ comment.elim [] (slashes ++ ·) := by simp
  have hvisible : Text.BeginsVisibly f.head := by simpa using beginsVisibly_head h []
  rw [htext, FieldLine.body_eq, FieldLine.code_append hfront, hcomment, List.append_nil,
    Text.trim_pad f.indent.isBlanks after.isBlanks, Text.trim_concat hvisible (by decide) (by decide)]
  exact Text.trimSuffix_append f.head [Text.byte ';']

/-- An initializer behind an equals sign is kept, but for a comment and a semicolon at its end. -/
theorem FieldText.exists_body_assigned {f : FieldText} (h : f.Legal) (inner : Gap) {first : UInt8} {rest : Text}
    (hfirst : Text.BeginsVisibly (first :: rest) ∧ first ≠ Text.byte ';')
    (hcomment : first = Text.byte '/' → rest.head? ≠ some (Text.byte '/')) :
    ∃ after, FieldLine.body (f.indent.text ++ f.head ++ (Text.byte '=' :: inner.text ++ first :: rest)) =
      f.head ++ Text.byte '=' :: (inner.text ++ after) ∧ Text.isBlank (inner.text ++ after) = false := by
  have hfront : Text.byte '/' ∉ f.head ++ Text.byte '=' :: inner.text := by
    simp only [List.mem_append, List.mem_cons, not_or]
    exact ⟨slash_not_mem_head h, by decide, inner.not_mem (by decide)⟩
  -- no blank reaches from the gap into the initializer, however much of it is kept
  have hmarks : ∀ kept, kept <+: rest → Text.marks (f.head ++ Text.byte '=' :: inner.text ++ first :: kept) =
      Text.marks (f.head ++ Text.byte '=' :: inner.text) ++ (first, false) :: Text.marks kept := by
    intro kept hkept
    have hvisible := Text.marks_cons_of_beginsVisibly (hfirst.1.of_start hkept)
    simp only [List.append_assoc, List.cons_append, Text.marks_append_cons (by decide : Text.byte '=' < 128),
      Text.marks_blanks_append inner.isBlanks, Text.marks_of_isBlanks inner.isBlanks, hvisible]
  obtain ⟨after, hstart, hbody⟩ :=
    FieldLine.exists_body f.indent (beginsVisibly_head h _) hfront hfirst.2 hmarks hcomment
  refine ⟨first :: after, by simpa using hbody, ?_⟩
  rw [Text.isBlank, Text.marks_blanks_append inner.isBlanks,
    Text.marks_cons_of_beginsVisibly (hfirst.1.of_start hstart)]
  simp

/-- **A field is read back.** -/
theorem FieldText.parse?_text {f : FieldText} (h : f.Legal) :
    FieldLine.parse? f.text = some { type := f.type, name := f.name, initialized := f.ending.initialized } := by
  have hslash := slash_not_mem_head h
  have hending := h.ending
  unfold FieldText.text
  -- what is left of the line without comment and semicolon depends on how the field ends
  cases hend : f.ending with
  | plain gap after comment =>
    have hbody : FieldLine.body (f.indent.text ++ f.head ++ (FieldEnd.plain gap after comment).rest) =
        f.head ++ [] := by
      rw [List.append_nil]
      exact body_plain h after comment
    rw [FieldLine.parse?_of_body h hbody (by simp)]
    rfl
  | assigned gap inner first rest =>
    rw [hend] at hending
    obtain ⟨after, hbody, hvalue⟩ := exists_body_assigned h inner hending.1 hending.2.1
    show FieldLine.parse? (f.indent.text ++ f.head ++ (Text.byte '=' :: inner.text ++ first :: rest)) = _
    rw [FieldLine.parse?_of_body h hbody (by simp [FieldLine.startsInitializer])]
    simp [FieldLine.isInitializer, hvalue, FieldEnd.initialized]
  | braced gap rest =>
    have hvisible : Text.BeginsVisibly f.head := by simpa using beginsVisibly_head h []
    obtain ⟨after, -, hbody⟩ := FieldLine.exists_body f.indent hvisible hslash (c := Text.byte '{') (by decide)
      (fun kept _ => Text.marks_append_cons (by decide) f.head kept) fun heq => absurd heq (by decide)
    show FieldLine.parse? (f.indent.text ++ f.head ++ Text.byte '{' :: rest) = _
    rw [FieldLine.parse?_of_body h hbody (by simp [FieldLine.startsInitializer])]
    simp [FieldLine.isInitializer, FieldEnd.initialized]

theorem FieldEnd.Legal.oneLine {e : FieldEnd} (h : e.Legal) : OneLine e.rest := by
  cases e with
  | plain gap after comment =>
    refine oneLine_append.mpr ⟨oneLine_cons.mpr ⟨by decide, after.oneLine⟩, ?_⟩
    cases comment with
    | none => exact oneLine_nil
    | some comment => exact oneLine_append.mpr ⟨by decide, h comment rfl⟩
  | assigned gap inner first rest =>
    obtain ⟨⟨hvisible, -⟩, -, hrest⟩ := h
    have hmark : (first, false) ∈ Text.marks (first :: rest) := by
      rw [Text.marks_cons_of_beginsVisibly hvisible]
      exact List.mem_cons_self
    have hfirst : OneLine [first] :=
      oneLine_of_visible (by simpa using Text.isBlankByte_of_mem_marksFrom hmark)
    have hline : OneLine (first :: rest) := oneLine_cons.mpr ⟨(oneLine_cons.mp hfirst).1, hrest⟩
    exact oneLine_append.mpr ⟨oneLine_cons.mpr ⟨by decide, inner.oneLine⟩, hline⟩
  | braced gap rest => exact oneLine_cons.mpr ⟨by decide, h⟩

theorem FieldText.oneLine_text {f : FieldText} (h : f.Legal) : OneLine f.text := by
  have hwords : OneLine (wordsText f.words) := by
    intro b hb
    obtain ⟨pair, hpair, hb⟩ := List.mem_flatMap.mp hb
    have htext : OneLine (pair.1 ++ pair.2.text) :=
      oneLine_append.mpr ⟨oneLine_of_isBare (h.words pair hpair).1.toIsBare, pair.2.oneLine⟩
    exact htext b hb
  obtain ⟨hsigils, hname⟩ := oneLine_append.mp (oneLine_of_isBare (isBare_sigils_identifier h.sigils h.name))
  simp [text, head, hwords, hsigils, hname, h.ending.oneLine]

/-! ## §2 Functions -/

/-- The line that names a function. What stands before the name ends with a gap, if there is anything. -/
structure FunctionLine where
  before : Text := []
  sigils : Text := []
  name : Text
  gap : Gap := {}
  tail : Text := []

namespace FunctionLine

def text (f : FunctionLine) : Text := f.before ++ f.sigils ++ f.name ++ f.gap.text ++ Text.byte '(' :: f.tail

structure Legal (f : FunctionLine) : Prop where
  before : f.before.getLast?.all isGapByte = true
  noParenthesis : Text.byte '(' ∉ f.before
  sigils : f.sigils.all FieldLine.isSigil = true
  name : Text.isIdentifier f.name = true
  beforeOneLine : OneLine f.before
  tailOneLine : OneLine f.tail

/-- **The name of a function is read back.** -/
theorem functionName?_text {f : FunctionLine} (h : f.Legal) : functionName? f.text = some f.name := by
  have hfront : Text.byte '(' ∉ f.before ++ f.sigils ++ f.name ++ f.gap.text := by
    simp only [List.mem_append, not_or]
    refine ⟨⟨⟨h.noParenthesis, fun hmem => ?_⟩, Text.not_mem_of_isIdentifier h.name (by decide)⟩,
      f.gap.not_mem (by decide)⟩
    exact absurd (List.all_eq_true.mp h.sigils _ hmem) (by decide)
  have hcut : Text.cut "(" f.text = some (f.before ++ f.sigils ++ f.name ++ f.gap.text, f.tail) :=
    Text.cut_byte hfront f.tail
  have hword : Text.fields (f.sigils ++ f.name ++ f.gap.text) = [f.sigils ++ f.name] := by
    have hbare := isBare_sigils_identifier h.sigils h.name
    by_cases hne : f.gap.text = []
    · rw [hne, List.append_nil, Text.fields_bare hbare]
    · have hread := Text.fields_bare_append hbare hne f.gap.isBlanks []
      rwa [List.append_nil, Text.fields_nil] at hread
  have hlast : (Text.fields (f.before ++ f.sigils ++ f.name ++ f.gap.text)).getLast? = some (f.sigils ++ f.name) := by
    -- what stands before the name ends with a gap, so it adds words in front only
    rcases List.eq_nil_or_concat f.before with hnil | ⟨init, b, hbefore⟩
    · rw [hnil, List.nil_append, hword]
      rfl
    · have hb : Text.isBlankByte b = true := by
        have hgap : isGapByte b = true := by simpa [hbefore] using h.before
        rcases isGapByte_iff.mp hgap with rfl | rfl <;> decide
      have htext : f.before ++ f.sigils ++ f.name ++ f.gap.text = init ++ b :: (f.sigils ++ f.name ++ f.gap.text) := by
        simp [hbefore]
      rw [htext, Text.fields_append_blank hb, hword]
      simp
  -- the last word is the name with its signs, which are dropped
  unfold functionName?
  rw [hcut]
  dsimp only
  rw [hlast]
  dsimp only
  rw [dropWhile_sigils h.sigils (isSigil_head?_of_isIdentifier h.name)]
  obtain ⟨first, rest, hname⟩ := List.exists_cons_of_ne_nil (Text.ne_nil_of_isIdentifier h.name)
  rw [hname]

theorem oneLine_text {f : FunctionLine} (h : f.Legal) : OneLine f.text := by
  obtain ⟨hsigils, hname⟩ := oneLine_append.mp (oneLine_of_isBare (isBare_sigils_identifier h.sigils h.name))
  have hparenthesis : Text.byte '(' ≠ Text.lineFeed ∧ Text.byte '(' ≠ Text.byte '\r' := by decide
  simp [text, h.beforeOneLine, hsigils, hname, hparenthesis, h.tailOneLine]

end FunctionLine

/-! ## §3 Signatures -/

/-- Whether every parenthesis of a text has its partner, where `depth` of them have been opened before it. -/
def isBalanced : (depth : Nat) → Text → Bool
  | depth, [] => depth = 0
  | depth, b :: text =>
    if b = Text.byte '(' then isBalanced (depth + 1) text
    else if b = Text.byte ')' then depth ≠ 0 && isBalanced (depth - 1) text
    else isBalanced depth text

namespace SignatureScan

def addAll (s : SignatureScan) (text : Text) : SignatureScan := { s with taken := text.reverse ++ s.taken }

theorem readLine_append (s : SignatureScan) (before after : Text) :
    s.readLine (before ++ after) = match s.readLine before with
      | .inl signature => .inl signature
      | .inr s => s.readLine after := by
  induction before generalizing s with
  | nil => rfl
  | cons b before ih =>
    simp only [List.cons_append, readLine]
    split
    · exact ih _
    · split
      · split
        · rfl
        · exact ih _
      · exact ih _

/-- A line is taken down, up to the parenthesis that ends the signature. -/
theorem readLine_taken (s : SignatureScan) (line : Text) :
    (∃ before after, line = before ++ after ∧ s.readLine line = .inl (s.taken.reverse ++ before)) ∨
      ∃ next : SignatureScan, s.readLine line = .inr next ∧ next.taken = line.reverse ++ s.taken := by
  induction line generalizing s with
  | nil => exact Or.inr ⟨s, rfl, rfl⟩
  | cons b line ih =>
    -- either the byte ends the signature, or the reading goes on with the byte taken down
    have hstep : s.readLine (b :: line) = .inl (s.taken.reverse ++ [b]) ∨
        ∃ next : SignatureScan, next.taken = b :: s.taken ∧ s.readLine (b :: line) = next.readLine line := by
      rw [readLine]
      split
      · exact Or.inr ⟨_, rfl, rfl⟩
      · split
        · split
          · exact Or.inl (by simp)
          · exact Or.inr ⟨_, rfl, rfl⟩
        · exact Or.inr ⟨_, rfl, rfl⟩
    rcases hstep with hend | ⟨next, htaken, hnext⟩
    · exact Or.inl ⟨[b], line, rfl, hend⟩
    · rw [hnext]
      rcases ih next with ⟨before, after, rfl, hread⟩ | ⟨last, hread, hlast⟩
      · exact Or.inl ⟨b :: before, after, rfl, by simp [hread, htaken]⟩
      · exact Or.inr ⟨last, hread, by simp [hlast, htaken]⟩

theorem readLine_plain {text : Text} (h : Text.byte '(' ∉ text ∧ Text.byte ')' ∉ text) (s : SignatureScan)
    (rest : Text) :
    s.readLine (text ++ rest) = (s.addAll text).readLine rest := by
  induction text generalizing s with
  | nil => rfl
  | cons b text ih =>
    simp only [List.mem_cons, not_or] at h
    rw [List.cons_append, readLine, if_neg (Ne.symm h.1.1), if_neg (Ne.symm h.2.1), ih ⟨h.1.2, h.2.2⟩]
    simp [addAll]

/-- **What is balanced is taken down** between open parentheses, and leaves as many open as there were. -/
theorem readLine_balanced {text : Text} {inner : Nat} (h : isBalanced inner text = true) {outer : Int}
    (houter : 1 ≤ outer) {s : SignatureScan} (hopened : s.opened = true) (hdepth : s.depth = outer + inner)
    (rest : Text) :
    s.readLine (text ++ rest) = readLine { taken := text.reverse ++ s.taken, depth := outer, opened := true } rest := by
  induction text generalizing inner s with
  | nil =>
    have hinner : inner = 0 := by simpa [isBalanced] using h
    obtain ⟨taken, depth, opened⟩ := s
    simp only at hopened hdepth
    simp [hopened, hdepth, hinner]
  | cons b text ih =>
    have htaken : (b :: text).reverse ++ s.taken = text.reverse ++ (b :: s.taken) := by simp
    rw [isBalanced] at h
    rw [List.cons_append, readLine, htaken]
    split at h
    · next hopen =>
      rw [if_pos hopen]
      apply ih h rfl
      simp only [hdepth]
      omega
    · next hopen =>
      rw [if_neg hopen]
      split at h
      · next hclose =>
        -- the parenthesis closes one of the inner ones, so the signature goes on
        rw [Bool.and_eq_true, decide_eq_true_eq] at h
        rw [if_pos hclose, if_neg (by omega)]
        refine ih h.2 (s := { s with taken := b :: s.taken, depth := s.depth - 1 }) hopened ?_
        simp only [hdepth]
        omega
      · next hclose =>
        rw [if_neg hclose]
        exact ih h (s := { s with taken := b :: s.taken }) hopened hdepth

/-- **A signature is read to its end**: the parenthesis that balances it. -/
theorem readLine_signature {head inner : Text} (hhead : Text.byte '(' ∉ head ∧ Text.byte ')' ∉ head)
    (hinner : isBalanced 0 inner = true) :
    readLine {} (head ++ Text.byte '(' :: inner ++ [Text.byte ')']) =
      .inl (head ++ Text.byte '(' :: inner ++ [Text.byte ')']) := by
  rw [List.append_assoc, readLine_plain hhead, List.cons_append, readLine, if_pos rfl,
    readLine_balanced hinner (Int.le_refl 1) rfl rfl, readLine, if_neg (by decide), if_pos rfl, if_pos ⟨rfl, rfl⟩]
  simp [addAll]

/-- Reading lines of which the first goes on where the signature stands. -/
def readFrom (s : SignatureScan) (index : Nat) : List Text → Option (Nat × Text)
  | [] => none
  | line :: lines =>
    match readLine s line.trim with
    | .inl signature => some (index, signature)
    | .inr s => s.readLines (index + 1) lines

theorem signature?_eq (lines : List Text) : signature? lines = readFrom {} 0 lines := by
  cases lines <;> rfl

theorem readLines_eq (s : SignatureScan) (index : Nat) (lines : List Text) :
    s.readLines index lines = readFrom (s.addAll [Text.byte ' ']) index lines := by
  cases lines <;> rfl

/-- The text completes the signature, and does so with its last byte. -/
def Completes (s : SignatureScan) (text : Text) : Prop := s.readLine text = .inl (s.taken.reverse ++ text)

/-- What completes a signature is passed in part: more of it is to come, so the part does not end the reading. -/
theorem Completes.exists_next {s : SignatureScan} {piece rest : Text} (h : s.Completes (piece ++ rest))
    (hrest : rest ≠ []) :
    ∃ next : SignatureScan,
      s.readLine piece = .inr next ∧ next.taken = piece.reverse ++ s.taken ∧ next.Completes rest := by
  rw [Completes, readLine_append] at h
  rcases s.readLine_taken piece with ⟨before, after, hpiece, hread⟩ | ⟨next, hread, htaken⟩
  · rw [hread] at h
    simp only [Sum.inl.injEq, List.append_cancel_left_eq] at h
    have hlength := congrArg List.length h
    have hpositive := List.length_pos_iff.mpr hrest
    rw [hpiece, List.length_append, List.length_append] at hlength
    omega
  · refine ⟨next, hread, htaken, ?_⟩
    rw [hread] at h
    simpa [Completes, htaken] using h

/-- One line of a signature that goes on: the reading continues on the next line, behind a space. -/
theorem exists_readFrom_cons {s : SignatureScan} {line piece rest : Text} (htrim : line.trim = piece)
    (h : s.Completes (piece ++ ([Text.byte ' '] ++ rest))) (index : Nat) (lines : List Text) :
    ∃ next : SignatureScan, next.taken.reverse = s.taken.reverse ++ piece ++ [Text.byte ' '] ∧
      next.Completes rest ∧ s.readFrom index (line :: lines) = next.readFrom (index + 1) lines := by
  obtain ⟨passed, hread, htaken, hpassed⟩ := h.exists_next (by simp)
  refine ⟨passed.addAll [Text.byte ' '], by simp [addAll, htaken], ?_, ?_⟩
  · rw [Completes, readLine_plain (by decide)] at hpassed
    simpa [Completes, addAll] using hpassed
  · rw [readFrom, htrim, hread]
    exact readLines_eq passed (index + 1) lines

/-- The line on which a signature ends. -/
theorem readFrom_last {s : SignatureScan} {line signature rest : Text} (htrim : line.trim = signature ++ rest)
    (h : s.Completes signature) (index : Nat) (lines : List Text) :
    s.readFrom index (line :: lines) = some (index, s.taken.reverse ++ signature) := by
  rw [readFrom, htrim, readLine_append, h]

end SignatureScan

/-- A signature as it is written: some lines, each with blanks around it, and a last line with the parenthesis that ends
the signature and a free rest. -/
structure SignatureText where
  lines : List (Gap × Text × Gap) := []
  indent : Gap := {}
  last : Text
  tail : Text := []

namespace SignatureText

/-- The signature up to the parenthesis that ends it, in one line. -/
def opening (s : SignatureText) : Text := Text.joinWith [Text.byte ' '] (s.lines.map (·.2.1) ++ [s.last])

def signature (s : SignatureText) : Text := s.opening ++ [Text.byte ')']

def lineText (line : Gap × Text × Gap) : Text := line.1.text ++ line.2.1 ++ line.2.2.text

def lastLine (s : SignatureText) : Text := s.indent.text ++ s.last ++ Text.byte ')' :: s.tail

def text (s : SignatureText) : List Text := s.lines.map lineText ++ [s.lastLine]

structure Legal (s : SignatureText) : Prop where
  balanced : ∃ head inner, s.opening = head ++ Text.byte '(' :: inner ∧
    (Text.byte '(' ∉ head ∧ Text.byte ')' ∉ head) ∧ isBalanced 0 inner = true
  /-- The signature begins on its first line. -/
  begun : ∀ line ∈ s.lines.head?, line.2.1 ≠ []
  noComment : Text.beginsWith "//" s.opening = false
  trimmed : ∀ line ∈ s.lines, line.2.1.trim = line.2.1
  oneLine : ∀ line ∈ s.lines, OneLine line.2.1
  visible : Text.BeginsVisibly s.last
  lastOneLine : OneLine s.last
  tailOneLine : OneLine s.tail

theorem signature_cons (line : Gap × Text × Gap) (lines : List (Gap × Text × Gap)) (indent : Gap) (last tail : Text) :
    (mk (line :: lines) indent last tail).signature =
      line.2.1 ++ ([Text.byte ' '] ++ (mk lines indent last tail).signature) := by
  simp [signature, opening, Text.joinWith_cons]

theorem exists_trim_lastLine {s : SignatureText} (hvisible : Text.BeginsVisibly s.last) :
    ∃ rest, s.lastLine.trim = s.last ++ [Text.byte ')'] ++ rest := by
  obtain ⟨rest, hrest⟩ := Text.trim_keeps hvisible (by decide : Text.byte ')' < 128) (by decide) s.tail
  refine ⟨rest, ?_⟩
  rw [lastLine, List.append_assoc, Text.trim_blanks_append s.indent.isBlanks, hrest]
  simp

/-- The lines of a signature one after the other: as long as it is not complete, the reading goes on. -/
theorem readFrom_text {s : SignatureText} (htrimmed : ∀ line ∈ s.lines, line.2.1.trim = line.2.1)
    (hvisible : Text.BeginsVisibly s.last) {scan : SignatureScan} (h : scan.Completes s.signature) (index : Nat)
    (more : List Text) :
    scan.readFrom index (s.text ++ more) = some (index + s.lines.length, scan.taken.reverse ++ s.signature) := by
  obtain ⟨lines, indent, last, tail⟩ := s
  -- on the lines, for every scan: each line moves what has been taken down into the scan
  induction lines generalizing scan index with
  | nil =>
    obtain ⟨rest, htrim⟩ := exists_trim_lastLine hvisible
    exact SignatureScan.readFrom_last htrim h index more
  | cons line lines ih =>
    have htrim : (lineText line).trim = line.2.1 := by
      rw [lineText, Text.trim_pad line.1.isBlanks line.2.2.isBlanks]
      exact htrimmed line List.mem_cons_self
    rw [signature_cons] at h
    obtain ⟨next, htaken, hnext, hread⟩ :=
      SignatureScan.exists_readFrom_cons htrim h index ((mk lines indent last tail).text ++ more)
    have hrest := ih (index + 1) (fun line hline => htrimmed line (List.mem_cons_of_mem _ hline)) hvisible hnext
    show scan.readFrom index (lineText line :: ((mk lines indent last tail).text ++ more)) = _
    rw [hread, hrest, htaken, signature_cons]
    simp
    omega

/-- **A signature is read back.** -/
theorem signature?_text {s : SignatureText} (h : s.Legal) (more : List Text) :
    signature? (s.text ++ more) = some (s.lines.length, s.signature) := by
  obtain ⟨head, inner, hopening, hhead, hinner⟩ := h.balanced
  have hread : SignatureScan.readLine {} s.signature = .inl s.signature := by
    rw [signature, hopening]
    exact SignatureScan.readLine_signature hhead hinner
  have hfrom : SignatureScan.readFrom {} 0 (s.text ++ more) = _ := readFrom_text h.trimmed h.visible hread 0 more
  rw [SignatureScan.signature?_eq, hfrom, Nat.zero_add]
  rfl

theorem oneLine_text {s : SignatureText} (h : s.Legal) : ∀ line ∈ s.text, OneLine line := by
  have hparenthesis : Text.byte ')' ≠ Text.lineFeed ∧ Text.byte ')' ≠ Text.byte '\r' := by decide
  intro line hline
  rcases List.mem_append.mp hline with hline | hline
  · obtain ⟨piece, hpiece, rfl⟩ := List.mem_map.mp hline
    simp [lineText, h.oneLine piece hpiece]
  · rw [List.mem_singleton.mp hline]
    simp [lastLine, h.lastOneLine, hparenthesis, h.tailOneLine]

end SignatureText

end HeaderReflection
