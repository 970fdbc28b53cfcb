import HeaderReflection.Declaration.Basic
import HeaderReflection.Header.DeclarationLine
import HeaderReflection.Proofs.Header.AttributeText

/-!
# Written types

The first line of a class, struct or external type, as it may be written, and the names that are read from it. Around
the names there is room for indentation, for words and signs that name nothing, and, where no further name is looked
for, for a free rest of the line.

## Main definitions

- `QualifiedName`: names with namespaces.
- `isSeparation`: what may stand between names.
- `TypeLine`, `ClassLine`: first lines of types.
- `OneLine`: texts without a line end.

## Main results

- `shortName_text`, `trimPrefix_text`: the last part of a qualified name, and the name without leading colons.
- `nameTokens_token_append`: names come apart where something separates them.
- `TypeLine.nameTokens_text`, `ClassLine.nameTokens_text`: the names in the first line of a type.
-/

namespace HeaderReflection

/-! ## §1 Names -/

/-- A name with the namespaces in front of it, possibly from the global one on. -/
structure QualifiedName where
  rooted : Bool := false
  scopes : List Text := []
  last : Text

namespace QualifiedName

/-- The two colons between the parts of a name. -/
abbrev colons : Text := [Text.byte ':', Text.byte ':']

/-- The name without leading colons. -/
def path (q : QualifiedName) : Text := q.scopes.flatMap (· ++ colons) ++ q.last

def text (q : QualifiedName) : Text := (if q.rooted then colons else []) ++ q.path

/-- A name whose parts are identifiers. -/
structure IsName (q : QualifiedName) : Prop where
  scopes : ∀ scope ∈ q.scopes, Text.isIdentifier scope = true
  last : Text.isIdentifier q.last = true

variable {q : QualifiedName}

theorem IsName.path_induction {P : Text → Prop} (h : q.IsName) (hlast : P q.last)
    (hscope : ∀ scope rest, Text.isIdentifier scope = true → P rest → P (scope ++ colons ++ rest)) : P q.path := by
  obtain ⟨rooted, scopes, last⟩ := q
  have hscopes := h.scopes
  clear h
  induction scopes with
  | nil => exact hlast
  | cons scope scopes ih =>
    have hpath : (QualifiedName.mk rooted (scope :: scopes) last).path =
        scope ++ colons ++ (QualifiedName.mk rooted scopes last).path := by simp [path]
    rw [hpath]
    exact hscope _ _ (hscopes scope List.mem_cons_self)
      (ih hlast fun s hs => hscopes s (List.mem_cons_of_mem _ hs))

theorem cut_colons_reverse {name : Text} (h : Text.isIdentifier name = true) (rest : Text) :
    Text.cut colons (name.reverse ++ rest) = (Text.cut colons rest).map fun halves =>
      (name.reverse ++ halves.1, halves.2) := by
  apply Text.cut_append_of_not_mem
  rw [List.mem_reverse]
  exact Text.not_mem_of_isIdentifier h (by decide)

theorem shortName_of_isIdentifier {name : Text} (h : Text.isIdentifier name = true) : shortName name = name := by
  have hcut : Text.cut colons name.reverse = none := by
    have hrest := cut_colons_reverse h []
    rwa [List.append_nil] at hrest
  show ((Text.cut colons name.reverse).map fun halves => halves.1.reverse).getD name = name
  rw [hcut]
  rfl

theorem shortName_colons {name : Text} (h : Text.isIdentifier name = true) (before : Text) :
    shortName (before ++ colons ++ name) = name := by
  have hreverse : (before ++ colons ++ name).reverse = name.reverse ++ (colons ++ before.reverse) := by simp
  have hcut : Text.cut colons (before ++ colons ++ name).reverse = some (name.reverse, before.reverse) := by
    rw [hreverse, cut_colons_reverse h]
    simp [Text.cut, Text.stripPrefix?]
  show ((Text.cut colons (before ++ colons ++ name).reverse).map fun halves => halves.1.reverse).getD _ = name
  rw [hcut]
  simp

/-- **The last part of a name**, whatever stands before it. -/
theorem shortName_append_path {before : Text} (hbefore : before = [] ∨ before = colons) (h : q.IsName) :
    shortName (before ++ q.path) = q.last := by
  -- if there are namespaces, the colons behind the innermost one are the last in the name
  rcases List.eq_nil_or_concat q.scopes with hnil | ⟨scopes, scope, hscopes⟩
  · have hpath : q.path = q.last := by simp [path, hnil]
    rw [hpath]
    rcases hbefore with rfl | rfl
    · exact shortName_of_isIdentifier h.last
    · exact shortName_colons h.last []
  · have hpath : before ++ q.path = before ++ scopes.flatMap (· ++ colons) ++ scope ++ colons ++ q.last := by
      simp [path, hscopes]
    rw [hpath]
    exact shortName_colons h.last _

theorem shortName_text (h : q.IsName) : shortName q.text = q.last := by
  unfold text
  exact shortName_append_path (by cases q.rooted <;> simp) h

theorem shortName_path (h : q.IsName) : shortName q.path = q.last := shortName_append_path (Or.inl rfl) h

/-- A name begins with a letter or underscore. -/
theorem IsName.path_cons (h : q.IsName) : ∃ b rest, q.path = b :: rest ∧ Text.isIdentifierByte b = true := by
  have hidentifier : ∀ {name : Text}, Text.isIdentifier name = true → ∀ rest,
      ∃ b after, name ++ rest = b :: after ∧ Text.isIdentifierByte b = true := by
    intro name hname rest
    obtain ⟨b, after, rfl⟩ := List.exists_cons_of_ne_nil (Text.ne_nil_of_isIdentifier hname)
    exact ⟨b, after ++ rest, rfl, Text.forall_mem_of_isIdentifier hname b List.mem_cons_self⟩
  refine h.path_induction (P := fun t => ∃ b rest, t = b :: rest ∧ Text.isIdentifierByte b = true) ?_ ?_
  · simpa using hidentifier h.last []
  · intro scope rest hscope _
    rw [List.append_assoc]
    exact hidentifier hscope _

/-- Leading colons are taken off, and nothing else is. -/
theorem trimPrefix_text (h : q.IsName) : Text.trimPrefix "::" q.text = q.path := by
  have hcolons : Text.ofString "::" = colons := rfl
  unfold text
  rw [hcolons]
  cases q.rooted with
  | true => exact Text.trimPrefix_append _ _
  | false =>
    -- a part of the name comes first, and it does not begin with a colon
    obtain ⟨b, rest, hpath, hb⟩ := h.path_cons
    have hne : Text.byte ':' ≠ b := by
      rintro rfl
      exact absurd hb (by decide)
    show Text.trimPrefix colons q.path = q.path
    rw [hpath, Text.trimPrefix, Text.stripPrefix?_cons_of_ne hne]
    rfl

end QualifiedName

/-! ## §2 The names in a line -/

theorem spaced_cons_of_ne {b : UInt8} (h : b ≠ Text.byte ':') (text : Text) :
    spaced (b :: text) = (if isSeparator b then Text.byte ' ' else b) :: spaced text := by
  cases text with
  | nil => by_cases hb : isSeparator b <;> simp [spaced, h, hb]
  | cons c text => rw [spaced, if_neg h]

theorem spaced_colon {text : Text} (h : text.head? ≠ some (Text.byte ':')) :
    spaced (Text.byte ':' :: text) = Text.byte ' ' :: spaced text := by
  cases text with
  | nil => rfl
  | cons c text =>
    have hc : c ≠ Text.byte ':' := by simpa using h
    rw [spaced, if_pos rfl, if_neg hc]

theorem spaced_colons (text : Text) : spaced (QualifiedName.colons ++ text) = QualifiedName.colons ++ spaced text := by
  show spaced (Text.byte ':' :: Text.byte ':' :: text) = _
  rw [spaced, if_pos rfl, if_pos rfl]
  rfl

/-- A word that stands as it is in a line of names. -/
structure IsToken (word : Text) : Prop extends Text.IsBare word where
  spaced : ∀ rest, spaced (word ++ rest) = word ++ HeaderReflection.spaced rest

theorem isSeparator_of_isIdentifierByte {b : UInt8} (h : Text.isIdentifierByte b = true) : isSeparator b = false := by
  have hall : ((Text.ofString ",\x7b\x7d;()\t\n").all fun c => !Text.isIdentifierByte c) = true := by decide
  rw [← Bool.not_eq_true, isSeparator, List.contains_iff_mem]
  intro hmem
  have hbyte := List.all_eq_true.mp hall b hmem
  simp [h] at hbyte

theorem spaced_identifierBytes {word : Text} (h : ∀ b ∈ word, Text.isIdentifierByte b = true) (rest : Text) :
    spaced (word ++ rest) = word ++ spaced rest := by
  induction word with
  | nil => rfl
  | cons b word ih =>
    have hb := h b List.mem_cons_self
    have hne : b ≠ Text.byte ':' := by
      rintro rfl
      exact absurd hb (by decide)
    rw [List.cons_append, spaced_cons_of_ne hne, isSeparator_of_isIdentifierByte hb,
      ih fun c hc => h c (List.mem_cons_of_mem _ hc)]
    rfl

theorem isToken_of_isIdentifier {word : Text} (h : Text.isIdentifier word = true) : IsToken word where
  toIsBare := Text.isBare_of_lt (Text.ne_nil_of_isIdentifier h) fun b hb =>
    have hbyte := Text.forall_mem_of_isIdentifier h b hb
    ⟨Text.lt_of_isIdentifierByte hbyte, Text.isBlankByte_of_isIdentifierByte hbyte⟩
  spaced := spaced_identifierBytes (Text.forall_mem_of_isIdentifier h)

/-- Colons and tokens are joined to a token. -/
theorem IsToken.qualify {word : Text} (h : IsToken word) : IsToken (QualifiedName.colons ++ word) where
  ne_nil := by simp
  visible := by
    intro mark hmark
    have hcolons : ∀ b ∈ QualifiedName.colons, b = Text.byte ':' := by simp
    rw [Text.marks_append_of_lt fun b hb => hcolons b hb ▸ by decide] at hmark
    rcases List.mem_append.mp hmark with hmark | hmark
    · obtain ⟨b, hb, rfl⟩ := List.mem_map.mp hmark
      rw [hcolons b hb]
      decide
    · exact h.visible mark hmark
  spaced := by
    intro rest
    rw [List.append_assoc, spaced_colons, h.spaced, List.append_assoc]

theorem IsToken.append {scope word : Text} (hscope : Text.isIdentifier scope = true) (h : IsToken word) :
    IsToken (scope ++ word) where
  ne_nil := by simp [h.ne_nil]
  visible := by
    have hbytes := Text.forall_mem_of_isIdentifier hscope
    intro mark hmark
    rw [Text.marks_append_of_lt fun b hb => Text.lt_of_isIdentifierByte (hbytes b hb)] at hmark
    rcases List.mem_append.mp hmark with hmark | hmark
    · obtain ⟨b, hb, rfl⟩ := List.mem_map.mp hmark
      exact Text.isBlankByte_of_isIdentifierByte (hbytes b hb)
    · exact h.visible mark hmark
  spaced := by
    intro rest
    rw [List.append_assoc, spaced_identifierBytes (Text.forall_mem_of_isIdentifier hscope), h.spaced, List.append_assoc]

theorem QualifiedName.isToken {q : QualifiedName} (h : q.IsName) : IsToken q.text := by
  have hpath : IsToken q.path := by
    refine h.path_induction (isToken_of_isIdentifier h.last) fun scope rest hscope hrest => ?_
    rw [List.append_assoc]
    exact IsToken.append hscope hrest.qualify
  unfold QualifiedName.text
  cases q.rooted with
  | true => exact hpath.qualify
  | false => exact hpath

/-- Whether a byte ends a name: a gap or a sign between names. -/
def isBreakByte (b : UInt8) : Bool := isGapByte b || (Text.ofString ",\x7b\x7d;()").contains b

/-- Whether a text separates names: gaps and signs, and single colons with one of them behind. -/
def isSeparation : Text → Bool
  | [] => true
  | [b] => isBreakByte b
  | b :: c :: text => (isBreakByte b || b = Text.byte ':' && isBreakByte c) && isSeparation (c :: text)

theorem ne_colon_of_isBreakByte {b : UInt8} (h : isBreakByte b = true) : b ≠ Text.byte ':' := by
  rintro rfl
  exact absurd h (by decide)

theorem spaced_break {b : UInt8} (h : isBreakByte b = true) (text : Text) :
    spaced (b :: text) = Text.byte ' ' :: spaced text := by
  rw [spaced_cons_of_ne (ne_colon_of_isBreakByte h)]
  have hcases : b = Text.byte ' ' ∨ isSeparator b = true := by
    rw [isBreakByte, Bool.or_eq_true, isGapByte_iff, List.contains_iff_mem] at h
    rcases h with (rfl | rfl) | hmem
    · exact Or.inl rfl
    · exact Or.inr (by decide)
    · have hall : (Text.ofString ",\x7b\x7d;()").all isSeparator = true := by decide
      exact Or.inr (List.all_eq_true.mp hall b hmem)
  rcases hcases with rfl | hb
  · rfl
  · rw [hb]
    rfl

/-- What separates names turns into spaces. -/
theorem spaced_separation {sep : Text} (h : isSeparation sep = true) (rest : Text) :
    spaced (sep ++ rest) = List.replicate sep.length (Text.byte ' ') ++ spaced rest := by
  induction sep with
  | nil => rfl
  | cons b sep ih =>
    cases sep with
    | nil => exact spaced_break h rest
    | cons c sep =>
      rw [isSeparation, Bool.and_eq_true, Bool.or_eq_true, Bool.and_eq_true, decide_eq_true_eq] at h
      obtain ⟨hb, hrest⟩ := h
      -- a colon turns into a space only if no second colon follows
      have hstep : spaced (b :: c :: sep ++ rest) = Text.byte ' ' :: spaced (c :: sep ++ rest) := by
        rcases hb with hb | ⟨rfl, hc⟩
        · exact spaced_break hb _
        · exact spaced_colon (by simpa using ne_colon_of_isBreakByte hc)
      rw [hstep, ih hrest]
      rfl

theorem isBlanks_replicate (n : Nat) : Text.IsBlanks (List.replicate n (Text.byte ' ')) := by
  intro b hb
  rw [List.eq_of_mem_replicate hb]
  decide

/-- The names that a word amounts to: itself, unless it is a stop word. -/
def nameOf (word : Text) : List Text := [word].filter (!stopWords.contains ·)

theorem nameOf_of_mem {word : Text} (h : word ∈ stopWords) : nameOf word = [] := by
  simp [nameOf, h]

theorem nameOf_of_not_mem {word : Text} (h : word ∉ stopWords) : nameOf word = [word] := by
  simp [nameOf, h]

theorem nameTokens_separation {sep : Text} (h : isSeparation sep = true) (rest : Text) :
    nameTokens (sep ++ rest) = nameTokens rest := by
  unfold nameTokens
  rw [spaced_separation h, Text.fields_blanks_append (isBlanks_replicate _)]

theorem nameTokens_token {word : Text} (h : IsToken word) : nameTokens word = nameOf word := by
  have hspaced := h.spaced []
  rw [List.append_nil] at hspaced
  unfold nameTokens nameOf
  rw [hspaced]
  show (Text.fields (word ++ [])).filter _ = _
  rw [List.append_nil, Text.fields_bare h.toIsBare]

/-- **A word and what separates it from the rest.** -/
theorem nameTokens_token_append {word sep : Text} (h : IsToken word) (hne : sep ≠ []) (hsep : isSeparation sep = true)
    (rest : Text) : nameTokens (word ++ sep ++ rest) = nameOf word ++ nameTokens rest := by
  unfold nameTokens nameOf
  rw [List.append_assoc, h.spaced, spaced_separation hsep, ← List.append_assoc,
    Text.fields_bare_append h.toIsBare (by simpa using hne) (isBlanks_replicate _), ← List.filter_append]
  rfl

/-! ## §3 First lines of types -/

/-- A text that stays on its line. -/
def OneLine (text : Text) : Prop := ∀ b ∈ text, b ≠ Text.lineFeed ∧ b ≠ Text.byte '\r'

instance (text : Text) : Decidable (OneLine text) := List.decidableBAll _ _

@[simp] theorem oneLine_nil : OneLine [] := fun _ hb => by cases hb

@[simp] theorem oneLine_append {a b : Text} : OneLine (a ++ b) ↔ OneLine a ∧ OneLine b := List.forall_mem_append

@[simp] theorem oneLine_cons {b : UInt8} {text : Text} :
    OneLine (b :: text) ↔ (b ≠ Text.lineFeed ∧ b ≠ Text.byte '\r') ∧ OneLine text := List.forall_mem_cons

theorem OneLine.lineFeed_not_mem {text : Text} (h : OneLine text) : Text.lineFeed ∉ text := fun hmem => (h _ hmem).1 rfl

theorem oneLine_of_visible {text : Text} (h : ∀ b ∈ text, Text.isBlankByte b = false) : OneLine text := by
  intro b hb
  have hvisible := h b hb
  constructor
  · rintro rfl
    exact absurd hvisible (by decide)
  · rintro rfl
    exact absurd hvisible (by decide)

theorem oneLine_of_isBare {word : Text} (h : Text.IsBare word) : OneLine word := by
  refine oneLine_of_visible fun b hb => ?_
  have hmark : (b, false) ∈ Text.marks word := by
    rw [h.marks_eq]
    exact List.mem_map_of_mem hb
  exact Text.isBlankByte_of_mem_marksFrom hmark

@[simp] theorem Gap.oneLine (gap : Gap) : OneLine gap.text := by
  intro b hb
  rcases isGapByte_iff.mp (List.all_eq_true.mp gap.blank b hb) with rfl | rfl <;> decide

theorem oneLine_of_isSeparation {sep : Text} (h : isSeparation sep = true) : OneLine sep := by
  have hbreak : ∀ b : UInt8, isBreakByte b = true → b ≠ Text.lineFeed ∧ b ≠ Text.byte '\r' := by
    intro b hb
    constructor <;> rintro rfl <;> exact absurd hb (by decide)
  induction sep with
  | nil => exact oneLine_nil
  | cons b sep ih =>
    cases sep with
    | nil => exact oneLine_cons.mpr ⟨hbreak b h, oneLine_nil⟩
    | cons c sep =>
      rw [isSeparation, Bool.and_eq_true, Bool.or_eq_true, Bool.and_eq_true, decide_eq_true_eq] at h
      refine oneLine_cons.mpr ⟨?_, ih h.2⟩
      rcases h.1 with hb | ⟨rfl, -⟩
      · exact hbreak b hb
      · decide

/-- Pairs of texts, one after the other. -/
def pairsText (pairs : List (Text × Text)) : Text := pairs.flatMap fun pair => pair.1 ++ pair.2

/-- Words that name nothing, each with what separates it from the next word. -/
structure IsLead (lead : List (Text × Text)) : Prop where
  word : ∀ pair ∈ lead, pair.1 ∈ stopWords
  separated : ∀ pair ∈ lead, pair.2 ≠ [] ∧ isSeparation pair.2 = true

theorem isIdentifier_of_mem_stopWords : ∀ word ∈ stopWords, Text.isIdentifier word = true := by decide

theorem isToken_of_mem_stopWords {word : Text} (h : word ∈ stopWords) : IsToken word :=
  isToken_of_isIdentifier (isIdentifier_of_mem_stopWords word h)

theorem nameTokens_lead {lead : List (Text × Text)} (h : IsLead lead) (rest : Text) :
    nameTokens (pairsText lead ++ rest) = nameTokens rest := by
  obtain ⟨hword, hseparated⟩ := h
  induction lead with
  | nil => rfl
  | cons pair lead ih =>
    obtain ⟨hne, hsep⟩ := hseparated pair List.mem_cons_self
    have hstop := hword pair List.mem_cons_self
    have htext : pairsText (pair :: lead) ++ rest = pair.1 ++ pair.2 ++ (pairsText lead ++ rest) := by simp [pairsText]
    rw [htext, nameTokens_token_append (isToken_of_mem_stopWords hstop) hne hsep, nameOf_of_mem hstop, List.nil_append]
    exact ih (fun p hp => hword p (List.mem_cons_of_mem _ hp)) fun p hp => hseparated p (List.mem_cons_of_mem _ hp)

theorem IsLead.oneLine {lead : List (Text × Text)} (h : IsLead lead) : OneLine (pairsText lead) := by
  intro b hb
  obtain ⟨pair, hpair, hb⟩ := List.mem_flatMap.mp hb
  have htext : OneLine (pair.1 ++ pair.2) := oneLine_append.mpr
    ⟨oneLine_of_isBare (isToken_of_mem_stopWords (h.word pair hpair)).toIsBare,
      oneLine_of_isSeparation (h.separated pair hpair).2⟩
  exact htext b hb

/-- Whether a name ends before this text. -/
def endsToken : Text → Bool
  | [] => true
  | [b] => isBreakByte b
  | b :: c :: _ => isBreakByte b || b = Text.byte ':' && isBreakByte c

theorem nameTokens_token_tail {word tail : Text} (h : IsToken word) (htail : endsToken tail = true) :
    ∃ others, nameTokens (word ++ tail) = nameOf word ++ others := by
  match tail, htail with
  | [], _ => exact ⟨[], by rw [List.append_nil, nameTokens_token h, List.append_nil]⟩
  | [b], hb =>
    have hsep : isSeparation [b] = true := hb
    have hread := nameTokens_token_append h (by simp) hsep []
    rw [List.append_nil] at hread
    exact ⟨_, hread⟩
  | b :: c :: rest, htail =>
    rw [endsToken, Bool.or_eq_true, Bool.and_eq_true, decide_eq_true_eq] at htail
    rcases htail with hb | ⟨rfl, hc⟩
    · have hsep : isSeparation [b] = true := hb
      have hread := nameTokens_token_append h (by simp) hsep (c :: rest)
      rw [List.append_assoc] at hread
      exact ⟨_, hread⟩
    · have hsep : isSeparation [Text.byte ':', c] = true := by simp [isSeparation, hc]
      have hread := nameTokens_token_append h (by simp) hsep rest
      rw [List.append_assoc] at hread
      exact ⟨_, hread⟩

/-- The first line of a struct or an external type: what stands behind its name does not count. -/
structure TypeLine where
  indent : Gap := {}
  lead : List (Text × Text) := []
  name : QualifiedName
  tail : Text := []

namespace TypeLine

def text (line : TypeLine) : Text := line.indent.text ++ pairsText line.lead ++ line.name.text ++ line.tail

structure Legal (line : TypeLine) : Prop where
  lead : IsLead line.lead
  name : line.name.IsName
  notStopWord : line.name.text ∉ stopWords
  tail : endsToken line.tail = true
  oneLine : OneLine line.tail

end TypeLine

theorem isSeparation_gap (gap : Gap) : isSeparation gap.text = true := by
  obtain ⟨text, hblank⟩ := gap
  show isSeparation text = true
  induction text with
  | nil => rfl
  | cons b text ih =>
    rw [List.all_cons, Bool.and_eq_true] at hblank
    have hb : isBreakByte b = true := by simp [isBreakByte, hblank.1]
    cases text with
    | nil => exact hb
    | cons c text =>
      rw [isSeparation, hb, ih hblank.2]
      rfl

/-- **The name in the first line of a type.** -/
theorem TypeLine.nameTokens_text {line : TypeLine} (h : line.Legal) :
    ∃ others, nameTokens line.text = line.name.text :: others := by
  obtain ⟨others, hothers⟩ := nameTokens_token_tail (QualifiedName.isToken h.name) h.tail
  refine ⟨others, ?_⟩
  unfold TypeLine.text
  rw [List.append_assoc, List.append_assoc, nameTokens_separation (isSeparation_gap _), nameTokens_lead h.lead, hothers,
    nameOf_of_not_mem h.notStopWord]
  rfl

theorem TypeLine.oneLine_text {line : TypeLine} (h : line.Legal) : OneLine line.text := by
  have hname := oneLine_of_isBare (QualifiedName.isToken h.name).toIsBare
  simp [TypeLine.text, h.lead.oneLine, hname, h.oneLine]

/-- What stands behind the name of a class: no further names, or its parent. -/
inductive ClassEnd where
  | closing (words : List (Text × Text)) (last : Text)
  | parent (sep : Text) (lead : List (Text × Text)) (name : QualifiedName) (tail : Text)

namespace ClassEnd

def text : ClassEnd → Text
  | closing words last => pairsText words ++ last
  | parent sep lead name tail => sep ++ pairsText lead ++ name.text ++ tail

/-- The parent as written, empty if there is none. -/
def parentName : ClassEnd → Text
  | closing _ _ => []
  | parent _ _ name _ => name.text

def Legal : ClassEnd → Prop
  | closing words last =>
    (∀ pair ∈ words, (pair.1 ≠ [] ∧ isSeparation pair.1 = true) ∧ pair.2 ∈ stopWords) ∧ isSeparation last = true
  | parent sep lead name tail =>
    (sep ≠ [] ∧ isSeparation sep = true) ∧ IsLead lead ∧ (name.IsName ∧ name.text ∉ stopWords) ∧
      endsToken tail = true ∧ OneLine tail

theorem nameTokens_closing {word : Text} (hword : IsToken word) {words : List (Text × Text)} {last : Text}
    (h : (closing words last).Legal) : nameTokens (word ++ pairsText words ++ last) = nameOf word := by
  obtain ⟨hwords, hlast⟩ := h
  induction words generalizing word with
  | nil =>
    by_cases hne : last = []
    · rw [hne]
      simpa [pairsText] using nameTokens_token hword
    · have hread := nameTokens_token_append hword hne hlast []
      simpa [pairsText, nameTokens, spaced] using hread
  | cons pair words ih =>
    obtain ⟨⟨hne, hsep⟩, hstop⟩ := hwords pair List.mem_cons_self
    have htext : word ++ pairsText (pair :: words) ++ last = word ++ pair.1 ++ (pair.2 ++ pairsText words ++ last) := by
      simp [pairsText]
    rw [htext, nameTokens_token_append hword hne hsep,
      ih (isToken_of_mem_stopWords hstop) fun p hp => hwords p (List.mem_cons_of_mem _ hp), nameOf_of_mem hstop,
      List.append_nil]

/-- What stands behind the name of a class gives its parent, if it has one. -/
theorem nameTokens_append_text {word : Text} (hword : IsToken word) {e : ClassEnd} (h : e.Legal) :
    ∃ others, nameTokens (word ++ e.text) = nameOf word ++ others ∧ others.headD [] = e.parentName := by
  cases e with
  | closing words last =>
    refine ⟨[], ?_, rfl⟩
    rw [text, ← List.append_assoc, nameTokens_closing hword h, List.append_nil]
  | parent sep lead name tail =>
    obtain ⟨⟨hne, hsep⟩, hlead, ⟨hname, hstop⟩, htail, -⟩ := h
    obtain ⟨others, hothers⟩ := nameTokens_token_tail (QualifiedName.isToken hname) htail
    rw [nameOf_of_not_mem hstop] at hothers
    refine ⟨name.text :: others, ?_, rfl⟩
    have htext : word ++ text (.parent sep lead name tail) =
        word ++ sep ++ (pairsText lead ++ (name.text ++ tail)) := by
      simp [text]
    rw [htext, nameTokens_token_append hword hne hsep, nameTokens_lead hlead, hothers]
    rfl

theorem Legal.oneLine {e : ClassEnd} (h : e.Legal) : OneLine e.text := by
  cases e with
  | closing words last =>
    obtain ⟨hwords, hlast⟩ := h
    refine oneLine_append.mpr ⟨fun b hb => ?_, oneLine_of_isSeparation hlast⟩
    obtain ⟨pair, hpair, hb⟩ := List.mem_flatMap.mp hb
    obtain ⟨⟨-, hsep⟩, hstop⟩ := hwords pair hpair
    have htext : OneLine (pair.1 ++ pair.2) := oneLine_append.mpr
      ⟨oneLine_of_isSeparation hsep, oneLine_of_isBare (isToken_of_mem_stopWords hstop).toIsBare⟩
    exact htext b hb
  | parent sep lead name tail =>
    obtain ⟨⟨-, hsep⟩, hlead, ⟨hname, -⟩, -, htail⟩ := h
    have hname := oneLine_of_isBare (QualifiedName.isToken hname).toIsBare
    simp [text, oneLine_of_isSeparation hsep, hlead.oneLine, hname, htail]

end ClassEnd

structure ClassLine where
  indent : Gap := {}
  lead : List (Text × Text) := []
  name : QualifiedName
  ending : ClassEnd := .closing [] []

namespace ClassLine

def text (line : ClassLine) : Text := line.indent.text ++ pairsText line.lead ++ line.name.text ++ line.ending.text

structure Legal (line : ClassLine) : Prop where
  lead : IsLead line.lead
  name : line.name.IsName
  notStopWord : line.name.text ∉ stopWords
  ending : line.ending.Legal

/-- **The names in the first line of a class**: its own, and that of its parent if it has one. -/
theorem nameTokens_text {line : ClassLine} (h : line.Legal) :
    ∃ others, nameTokens line.text = line.name.text :: others ∧ others.headD [] = line.ending.parentName := by
  obtain ⟨others, hothers, hparent⟩ := ClassEnd.nameTokens_append_text (QualifiedName.isToken h.name) h.ending
  refine ⟨others, ?_, hparent⟩
  unfold text
  rw [List.append_assoc, List.append_assoc, nameTokens_separation (isSeparation_gap _), nameTokens_lead h.lead, hothers,
    nameOf_of_not_mem h.notStopWord]
  rfl

theorem oneLine_text {line : ClassLine} (h : line.Legal) : OneLine line.text := by
  have hname := oneLine_of_isBare (QualifiedName.isToken h.name).toIsBare
  simp [text, h.lead.oneLine, hname, h.ending.oneLine]

end ClassLine

end HeaderReflection
