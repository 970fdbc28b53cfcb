import HeaderReflection.Header.Reader
import HeaderReflection.Proofs.Header.MemberText
import HeaderReflection.Proofs.Header.MetadataText

/-!
# Written markers and what they mark

A marker is written with its attribute list, which may go on over several lines, and with some lines between the list
and the declaration. For every kind of marker, what is read from these lines and the declaration behind them is what the
attributes and the declaration describe.

## Main definitions

- `MarkerText`: a marker with its attributes and the lines up to its declaration.
- `TypeLine.external`, `ClassLine.opened`, `TypeLine.opened`: the types that markers describe.
- `FieldText.property`, `FunctionLine.function`, `SignatureText.constructor`: the members that markers describe.

## Main results

- `MarkerText.ofLine?_lines`: the first line of a marker opens it.
- `MarkerText.attributesAt_lines`: its attributes are found.
- `readExternal_lines`, `readType_lines`, `readProperty_lines`, `readFunction_lines`, `readConstructor_lines`: what is
  read behind each marker.
-/

namespace HeaderReflection

/-! ## §1 Markers -/

namespace Marker

theorem mem_all (marker : Marker) : marker ∈ all := by
  cases marker <;> decide

/-- No marker's name begins another's. -/
theorem eq_of_begins : ∀ marker ∈ all, ∀ other ∈ all, other.name <+: marker.name → other = marker := by decide

theorem beginsVisibly_name (marker : Marker) (gap : Gap) : Text.BeginsVisibly (marker.name ++ gap.text) := by
  cases marker <;> exact Text.beginsVisibly_cons (by decide) (by decide) _

theorem endsName_gap (gap : Gap) (rest : Text) : endsName (gap.text ++ Text.byte '(' :: rest) = true := by
  obtain ⟨text, hblank⟩ := gap
  cases text with
  | nil => rfl
  | cons b text =>
    rw [List.all_cons, Bool.and_eq_true, isGapByte_iff] at hblank
    rcases hblank.1 with rfl | rfl <;> rfl

/-- The name of a marker and the parenthesis behind it open this marker and no other. -/
theorem opens_iff {marker other : Marker} (gap : Gap) (rest : Text) :
    opens other (marker.name ++ gap.text ++ Text.byte '(' :: rest) = true ↔ other = marker := by
  constructor
  · intro hopens
    unfold opens at hopens
    split at hopens
    · next after hafter =>
      have htext := Text.stripPrefix?_eq_some_iff.mp hafter
      have hother : other.name <+: marker.name ++ (gap.text ++ Text.byte '(' :: rest) :=
        ⟨after, by rw [← htext, List.append_assoc]⟩
      have hmarker : marker.name <+: marker.name ++ (gap.text ++ Text.byte '(' :: rest) := List.prefix_append _ _
      -- both names begin the line, so one of them begins the other
      rcases List.prefix_or_prefix_of_prefix hother hmarker with hbegin | hbegin
      · exact eq_of_begins _ (mem_all marker) _ (mem_all other) hbegin
      · exact (eq_of_begins _ (mem_all other) _ (mem_all marker) hbegin).symm
    · cases hopens
  · rintro rfl
    unfold opens
    rw [List.append_assoc, Text.stripPrefix?_append]
    exact endsName_gap gap rest

/-- **A marker's line opens the marker**, whatever stands behind its parenthesis. -/
theorem ofLine?_eq (marker : Marker) (indent gap : Gap) (rest : Text) :
    ofLine? (indent.text ++ marker.name ++ gap.text ++ Text.byte '(' :: rest) = some marker := by
  obtain ⟨after, hafter⟩ :=
    Text.trim_keeps (beginsVisibly_name marker gap) (by decide : Text.byte '(' < 128) (by decide) rest
  have htrim : Text.trim (indent.text ++ marker.name ++ gap.text ++ Text.byte '(' :: rest) =
      marker.name ++ gap.text ++ Text.byte '(' :: after := by
    rw [List.append_assoc, List.append_assoc, Text.trim_blanks_append indent.isBlanks, ← List.append_assoc, hafter]
  have hfind : ∀ other ∈ all,
      opens other (marker.name ++ gap.text ++ Text.byte '(' :: after) = decide (other = marker) := by
    intro other _
    rw [Bool.eq_iff_iff, opens_iff, decide_eq_true_eq]
  unfold ofLine?
  dsimp only
  rw [htrim, ← List.head?_filter, List.filter_congr hfind]
  cases marker <;> rfl

end Marker

/-- A line between a marker and its declaration: blank, or a comment. -/
inductive IsIdle : Text → Prop where
  | blank (gap : Gap) : IsIdle gap.text
  | comment (indent : Gap) {text : Text} (h : OneLine text) : IsIdle (indent.text ++ slashes ++ text)

theorem IsIdle.isIdleLine {line : Text} (h : IsIdle line) : isIdleLine line = true := by
  cases h with
  | blank gap =>
    simp [HeaderReflection.isIdleLine, Text.trim_of_isBlanks gap.isBlanks]
  | @comment indent text h =>
    have hslash : Text.BeginsVisibly [Text.byte '/'] := Text.beginsVisibly_cons (by decide) (by decide) []
    obtain ⟨rest, hrest⟩ := Text.trim_keeps hslash (by decide : Text.byte '/' < 128) (by decide) text
    have htrim : Text.trim (indent.text ++ slashes ++ text) = slashes ++ rest := by
      rw [List.append_assoc, Text.trim_blanks_append indent.isBlanks]
      exact hrest
    have hbegins : Text.beginsWith "//" (slashes ++ rest) = true :=
      Text.beginsWith_iff.mpr (List.prefix_append slashes _)
    unfold HeaderReflection.isIdleLine
    dsimp only
    rw [htrim, hbegins, Bool.or_true]

theorem IsIdle.oneLine {line : Text} (h : IsIdle line) : OneLine line := by
  cases h with
  | blank gap => exact gap.oneLine
  | @comment indent text h => exact oneLine_append.mpr ⟨oneLine_append.mpr ⟨indent.oneLine, by decide⟩, h⟩

/-- **A line with something visible on it** declares something, unless it begins with the sign of a comment. -/
theorem isIdleLine_visible (indent : Gap) {before : Text} (hbefore : Text.BeginsVisibly before) {c : UInt8}
    (hc : c < 128) (hvisible : Text.isBlankByte c = false) (hslash : c ≠ Text.byte '/') (rest : Text) :
    isIdleLine (indent.text ++ before ++ c :: rest) = Text.beginsWith "//" before := by
  obtain ⟨after, hafter⟩ := Text.trim_keeps hbefore hc hvisible rest
  have hbegins : Text.beginsWith slashes (before ++ c :: after) = Text.beginsWith slashes before := by
    -- the two bytes that are compared with the sign lie in the text, or the next byte is no slash
    match before with
    | [] => simp [Text.beginsWith, Text.stripPrefix?, Ne.symm hslash]
    | [b] => simp [Text.beginsWith, Text.stripPrefix?, Ne.symm hslash]
    | b :: d :: before =>
      simp only [Text.beginsWith, Text.stripPrefix?, List.cons_append]
      split
      · split <;> rfl
      · rfl
  show (decide (Text.trim _ = []) || Text.beginsWith slashes (Text.trim _)) = Text.beginsWith slashes before
  rw [List.append_assoc, Text.trim_blanks_append indent.isBlanks, hafter, hbegins]
  simp

/-- A marker as it is written: its attribute list, a free rest of the line on which the list ends, and the lines between
the list and the declaration. -/
structure MarkerText (α : Type) where
  indent : Gap := {}
  gap : Gap := {}
  attributes : Attributes α := {}
  tail : Text := []
  between : List Text := []

namespace MarkerText

variable {α : Type} (spell : α → Text)

/-- The marker up to the end of its list, and the rest of that line. -/
def text (marker : Marker) (t : MarkerText α) : Text :=
  t.indent.text ++ marker.name ++ t.gap.text ++ Text.byte '(' :: t.attributes.text spell ++ Text.byte ')' :: t.tail

def lines (marker : Marker) (t : MarkerText α) : List Text :=
  Text.splitOn Text.lineFeed (t.text spell marker) ++ t.between

def breaks (t : MarkerText α) : Nat := (t.attributes.text spell).count Text.lineFeed

/-- How far the declaration is from the marker's line. -/
def distance (t : MarkerText α) : Nat := t.breaks spell + 1 + t.between.length

/-- What a marker's layout has to be like, given what its attributes and the lines behind the list have to be like. -/
structure Legal (attributes : List α → Prop) (between : Text → Prop) (t : MarkerText α) : Prop where
  attributes : attributes t.attributes.contents
  tail : OneLine t.tail
  between : ∀ line ∈ t.between, between line

variable {spell} {t : MarkerText α}

theorem lineFeed_not_mem_start (marker : Marker) (t : MarkerText α) :
    Text.lineFeed ∉ t.indent.text ++ marker.name ++ t.gap.text := by
  have hname : Text.lineFeed ∉ marker.name := by cases marker <;> decide
  simp only [List.mem_append, not_or]
  exact ⟨⟨t.indent.not_mem (by decide), hname⟩, t.gap.not_mem (by decide)⟩

theorem ofLine?_lines (spell : α → Text) (marker : Marker) (t : MarkerText α) :
    ∃ first others, t.lines spell marker = first :: others ∧ Marker.ofLine? first = some marker := by
  obtain ⟨after, rest, -, hlines⟩ := Text.splitOn_append_cons_of_not_mem (lineFeed_not_mem_start marker t)
    (by decide : Text.byte '(' ≠ Text.lineFeed) (t.attributes.text spell ++ Text.byte ')' :: t.tail)
  refine ⟨_, rest ++ t.between, ?_, Marker.ofLine?_eq marker t.indent t.gap after⟩
  have htext : t.text spell marker = t.indent.text ++ marker.name ++ t.gap.text ++
      Text.byte '(' :: (t.attributes.text spell ++ Text.byte ')' :: t.tail) := by simp [text]
  rw [lines, htext, hlines]
  rfl

theorem length_list (marker : Marker) (htail : OneLine t.tail) :
    (Text.splitOn Text.lineFeed (t.text spell marker)).length = t.breaks spell + 1 := by
  have hstart := List.count_eq_zero_of_not_mem (lineFeed_not_mem_start marker t)
  have htail := List.count_eq_zero_of_not_mem htail.lineFeed_not_mem
  rw [Text.length_splitOn, text, List.append_assoc, List.count_append, hstart, List.cons_append,
    List.count_cons_of_ne (by decide), List.count_append, List.count_cons_of_ne (by decide), htail, breaks]
  omega

theorem length_lines (marker : Marker) (htail : OneLine t.tail) : (t.lines spell marker).length = t.distance spell := by
  rw [lines, List.length_append, length_list marker htail, distance]

/-- **The attributes of a marker are found**, with the line on which the list ends. -/
theorem attributesAt_lines (marker : Marker) (h : ∀ a ∈ t.attributes.contents, QuotedText (spell a))
    (rest : List Text) :
    attributesAt marker (t.lines spell marker ++ rest) =
      .ok (t.breaks spell, AttributeList.split (AttributeList.flat (t.attributes.text spell))) := by
  have hopen : Text.byte '(' ∉ t.indent.text ++ marker.name ++ t.gap.text := by
    have hname : Text.byte '(' ∉ marker.name := by cases marker <;> decide
    simp only [List.mem_append, not_or]
    exact ⟨⟨t.indent.not_mem (by decide), hname⟩, t.gap.not_mem (by decide)⟩
  have hextract := AttributeList.extract_list hopen (lineFeed_not_mem_start marker t)
    (AttributeList.Attributes.passes t.attributes h) t.tail (t.between ++ rest)
  unfold attributesAt lines text
  rw [List.append_assoc, hextract]
  rfl

theorem drop_lines (marker : Marker) (htail : OneLine t.tail) (rest : List Text) :
    (t.lines spell marker ++ rest).drop (t.breaks spell + 1) = t.between ++ rest := by
  rw [lines, List.append_assoc, ← length_list marker htail, List.drop_left]

end MarkerText

theorem findLine?_append {test : Text → Bool} {between : List Text} (h : ∀ line ∈ between, test line = false)
    {line : Text} (hline : test line = true) (index : Nat) (rest : List Text) :
    findLine? test index (between ++ line :: rest) = some (index + between.length, line) := by
  induction between generalizing index with
  | nil => simp [findLine?, hline]
  | cons first between ih =>
    have hfirst := h first List.mem_cons_self
    rw [List.cons_append, findLine?, if_neg (by simp [hfirst]), ih fun l hl => h l (List.mem_cons_of_mem _ hl),
      List.length_cons]
    congr 2
    omega

theorem MarkerText.declarationAt_lines {α : Type} {spell : α → Text} {t : MarkerText α} {attributes : List α → Prop}
    (h : t.Legal attributes IsIdle) (marker : Marker) {line : Text} (hline : isIdleLine line = false)
    (rest : List Text) :
    declarationAt marker (t.breaks spell) (t.lines spell marker ++ line :: rest) = .ok (t.distance spell, line) := by
  have hbetween : ∀ l ∈ t.between, (!isIdleLine l) = false := fun l hl => by simp [(h.between l hl).isIdleLine]
  unfold declarationAt
  rw [drop_lines marker h.tail, findLine?_append hbetween (by simp [hline])]
  rfl

/-! ## §2 Types -/

/-- The attributes of a type of a kind: no key comes twice. -/
structure LegalTypeAttributes (kind : Kind) (as : List TypeAttribute) : Prop where
  legal : ∀ a ∈ as, a.Legal kind
  distinct : (as.map TypeAttribute.key).Nodup

/-- The attributes of a property: no key comes twice. -/
structure LegalPropertyAttributes (as : List PropertyAttribute) : Prop where
  legal : ∀ a ∈ as, a.Legal
  distinct : (as.map PropertyAttribute.key).Nodup

theorem MarkerText.attributesAt_type {t : MarkerText TypeAttribute} {kind : Kind} {between : Text → Prop}
    (h : t.Legal (LegalTypeAttributes kind) between) (marker : Marker) (rest : List Text) :
    attributesAt marker (t.lines TypeAttribute.spell marker ++ rest) =
      .ok (t.breaks TypeAttribute.spell, t.attributes.contents.map TypeAttribute.spell) := by
  have htext : ∀ a ∈ t.attributes.contents, AttributeText (TypeAttribute.spell a) := fun a ha =>
    attributeText_keyed a.isIdentifier_key (h.attributes.legal a ha).isValue
  rw [attributesAt_lines marker fun a ha => (htext a ha).quoted, AttributeList.split_list t.attributes htext]

theorem MarkerText.attributesAt_property {t : MarkerText PropertyAttribute} {between : Text → Prop}
    (h : t.Legal LegalPropertyAttributes between) (marker : Marker) (rest : List Text) :
    attributesAt marker (t.lines PropertyAttribute.spell marker ++ rest) =
      .ok (t.breaks PropertyAttribute.spell, t.attributes.contents.map PropertyAttribute.spell) := by
  have htext : ∀ a ∈ t.attributes.contents, AttributeText (PropertyAttribute.spell a) := fun a ha =>
    attributeText_keyed a.isIdentifier_key (h.attributes.legal a ha).isValue
  rw [attributesAt_lines marker fun a ha => (htext a ha).quoted, AttributeList.split_list t.attributes htext]

theorem visible_of_isIdentifierByte {b : UInt8} (h : Text.isIdentifierByte b = true) :
    b < 128 ∧ Text.isBlankByte b = false ∧ b ≠ Text.byte '/' := by
  refine ⟨Text.lt_of_isIdentifierByte h, Text.isBlankByte_of_isIdentifierByte h, ?_⟩
  rintro rfl
  exact absurd h (by decide)

/-- The first line of a type begins with a visible byte. -/
theorem exists_lead_name_cons {lead : List (Text × Text)} (hlead : IsLead lead) {name : QualifiedName}
    (hname : name.IsName) :
    ∃ b rest, pairsText lead ++ name.text = b :: rest ∧ b < 128 ∧ Text.isBlankByte b = false ∧ b ≠ Text.byte '/' := by
  cases lead with
  | nil =>
    obtain ⟨b, rest, hpath, hb⟩ := hname.path_cons
    unfold QualifiedName.text
    cases name.rooted with
    | true => exact ⟨Text.byte ':', _, rfl, by decide, by decide, by decide⟩
    | false => exact ⟨b, rest, hpath, visible_of_isIdentifierByte hb⟩
  | cons pair lead =>
    have hword := isIdentifier_of_mem_stopWords _ (hlead.word pair List.mem_cons_self)
    obtain ⟨b, rest, hcons⟩ := List.exists_cons_of_ne_nil (Text.ne_nil_of_isIdentifier hword)
    refine ⟨b, rest ++ pair.2 ++ pairsText lead ++ name.text, by simp [pairsText, hcons],
      visible_of_isIdentifierByte ?_⟩
    exact Text.forall_mem_of_isIdentifier hword b (by simp [hcons])

theorem isIdleLine_lead_name (indent : Gap) {lead : List (Text × Text)} (hlead : IsLead lead) {name : QualifiedName}
    (hname : name.IsName) (tail : Text) : isIdleLine (indent.text ++ pairsText lead ++ name.text ++ tail) = false := by
  obtain ⟨b, rest, hcons, hlow, hvisible, hslash⟩ := exists_lead_name_cons hlead hname
  have htext : indent.text ++ pairsText lead ++ name.text ++ tail = indent.text ++ [] ++ b :: (rest ++ tail) := by
    rw [List.append_assoc indent.text, hcons]
    simp
  rw [htext, isIdleLine_visible indent Text.beginsVisibly_nil hlow hvisible hslash]
  rfl

/-- The external type that a marker describes. -/
def TypeLine.external (includePath : Text) (number : Nat) (as : List TypeAttribute) (line : TypeLine) : Declaration :=
  ({ name := line.name.last
     fullName := line.name.path
     kind := .external
     includePath
     line := number } : Declaration).described as

theorem readExternal_lines {t : MarkerText TypeAttribute} (ht : t.Legal (LegalTypeAttributes .external) IsIdle)
    {line : TypeLine} (hline : line.Legal) (includePath : Text) (number : Nat) (rest : List Text) :
    readExternal includePath number (t.lines TypeAttribute.spell .externalType ++ line.text :: rest) =
      .ok (t.distance TypeAttribute.spell, line.external includePath number t.attributes.contents) := by
  obtain ⟨others, hothers⟩ := line.nameTokens_text hline
  have hidle : isIdleLine line.text = false := isIdleLine_lead_name _ hline.lead hline.name _
  have hnames : typeNamesAt (t.distance TypeAttribute.spell) line.text = .ok (line.name.text, others) := by
    unfold typeNamesAt
    rw [hothers]
  unfold readExternal
  refine bind_eq_ok.mpr ⟨_, MarkerText.attributesAt_type ht _ _, ?_⟩
  refine bind_eq_ok.mpr ⟨_, MarkerText.declarationAt_lines ht _ hidle rest, ?_⟩
  refine bind_eq_ok.mpr ⟨_, hnames, ?_⟩
  dsimp only
  rw [QualifiedName.trimPrefix_text hline.name, QualifiedName.shortName_path hline.name,
    Declaration.withAttributes_spell rfl ht.attributes.legal ht.attributes.distinct]
  rfl

/-- The class that a marker describes, without its members. -/
def ClassLine.opened (m : Module) (includePath : Text) (number : Nat) (as : List TypeAttribute) (line : ClassLine) :
    Declaration :=
  ({ name := line.name.last
     fullName := m.qualify line.name.last
     kind := .classType
     includePath
     line := number
     parentName := line.ending.parentName } : Declaration).described as

/-- The struct that a marker describes, without its members. -/
def TypeLine.opened (m : Module) (includePath : Text) (number : Nat) (as : List TypeAttribute) (line : TypeLine) :
    Declaration :=
  ({ name := line.name.last
     fullName := m.qualify line.name.last
     kind := .structType
     includePath
     line := number } : Declaration).described as

theorem readType_lines {t : MarkerText TypeAttribute} {kind : Kind} (ht : t.Legal (LegalTypeAttributes kind) IsIdle)
    {line : Text} (hidle : isIdleLine line = false) {name : QualifiedName} (hname : name.IsName) {others : List Text}
    (hnames : nameTokens line = name.text :: others) (m : Module) (includePath : Text) (marker : Marker) (number : Nat)
    (rest : List Text) :
    readType m includePath marker kind number (t.lines TypeAttribute.spell marker ++ line :: rest) =
      .ok (t.distance TypeAttribute.spell,
        ({ name := name.last
           fullName := m.qualify name.last
           kind
           includePath
           line := number
           parentName := if kind = .classType then others.headD [] else [] } : Declaration).described
          t.attributes.contents) := by
  have hnamesAt : typeNamesAt (t.distance TypeAttribute.spell) line = .ok (name.text, others) := by
    unfold typeNamesAt
    rw [hnames]
  unfold readType
  refine bind_eq_ok.mpr ⟨_, MarkerText.attributesAt_type ht _ _, ?_⟩
  refine bind_eq_ok.mpr ⟨_, MarkerText.declarationAt_lines ht _ hidle rest, ?_⟩
  refine bind_eq_ok.mpr ⟨_, hnamesAt, ?_⟩
  dsimp only
  rw [QualifiedName.shortName_text hname,
    Declaration.withAttributes_spell rfl ht.attributes.legal ht.attributes.distinct]
  rfl

theorem readType_class {t : MarkerText TypeAttribute} (ht : t.Legal (LegalTypeAttributes .classType) IsIdle)
    {line : ClassLine} (hline : line.Legal) (m : Module) (includePath : Text) (number : Nat) (rest : List Text) :
    readType m includePath .classType .classType number (t.lines TypeAttribute.spell .classType ++ line.text :: rest) =
      .ok (t.distance TypeAttribute.spell, line.opened m includePath number t.attributes.contents) := by
  obtain ⟨others, hothers, hparent⟩ := line.nameTokens_text hline
  have hidle : isIdleLine line.text = false := isIdleLine_lead_name _ hline.lead hline.name _
  rw [readType_lines ht hidle hline.name hothers, if_pos rfl, hparent]
  rfl

theorem readType_struct {t : MarkerText TypeAttribute} (ht : t.Legal (LegalTypeAttributes .structType) IsIdle)
    {line : TypeLine} (hline : line.Legal) (m : Module) (includePath : Text) (number : Nat) (rest : List Text) :
    readType m includePath .structType .structType number
        (t.lines TypeAttribute.spell .structType ++ line.text :: rest) =
      .ok (t.distance TypeAttribute.spell, line.opened m includePath number t.attributes.contents) := by
  obtain ⟨others, hothers⟩ := line.nameTokens_text hline
  have hidle : isIdleLine line.text = false := isIdleLine_lead_name _ hline.lead hline.name _
  rw [readType_lines ht hidle hline.name hothers, if_neg (by decide)]
  rfl

/-! ## §3 Members -/

/-- The property that a marker describes. -/
def FieldText.property (owner : Text) (line : Nat) (as : List PropertyAttribute) (field : FieldText) : Property :=
  ({ type := field.type
     name := field.name
     fragment := cutName field.name
     owner
     line } : Property).described as

theorem FieldText.isIdleLine_text {field : FieldText} (h : field.Legal) : isIdleLine field.text = false := by
  have hbegins : Text.beginsWith "//" field.head = false := by
    rw [← Bool.not_eq_true, Text.beginsWith_iff]
    intro hbegin
    exact slash_not_mem_head h (hbegin.subset (by decide))
  have hvisible : Text.BeginsVisibly field.head := by simpa using beginsVisibly_head h []
  -- a sign stands behind the gap, whichever way the field ends
  have hrest : ∃ c rest, field.ending.rest = c :: rest ∧
      c < 128 ∧ Text.isBlankByte c = false ∧ c ≠ Text.byte '/' := by
    cases field.ending with
    | plain gap after comment => exact ⟨_, _, rfl, by decide, by decide, by decide⟩
    | assigned gap inner first rest => exact ⟨_, _, rfl, by decide, by decide, by decide⟩
    | braced gap rest => exact ⟨_, _, rfl, by decide, by decide, by decide⟩
  obtain ⟨c, rest, hrest, hlow, hc, hslash⟩ := hrest
  rw [text, hrest, isIdleLine_visible field.indent hvisible hlow hc hslash, hbegins]

theorem readProperty_lines {t : MarkerText PropertyAttribute} (ht : t.Legal LegalPropertyAttributes IsIdle)
    {field : FieldText} (hfield : field.Legal) (owner : Text) (number : Nat)
    (hdefault : (field.property owner (number + t.distance PropertyAttribute.spell)
      t.attributes.contents).hasDefault = true → field.ending.initialized = true) (rest : List Text) :
    readProperty owner number (t.lines PropertyAttribute.spell .property ++ field.text :: rest) =
      .ok (t.distance PropertyAttribute.spell,
        field.property owner (number + t.distance PropertyAttribute.spell) t.attributes.contents) := by
  unfold readProperty
  refine bind_eq_ok.mpr ⟨_, MarkerText.attributesAt_property ht _ _, ?_⟩
  refine bind_eq_ok.mpr ⟨_, MarkerText.declarationAt_lines ht _ (FieldText.isIdleLine_text hfield) rest, ?_⟩
  dsimp only
  rw [FieldText.parse?_text hfield]
  dsimp only
  rw [Property.withAttributes_spell rfl ht.attributes.legal ht.attributes.distinct]
  -- the only fault that is left is a default without an initializer
  exact if_neg fun hmissing => hmissing.2 (hdefault hmissing.1)

/-- A line between a function's marker and the line that names the function. -/
structure IsBeforeFunction (line : Text) : Prop where
  oneLine : OneLine line
  noParenthesis : Text.byte '(' ∉ line

/-- The function that a marker describes. -/
def FunctionLine.function (line : Nat) (f : FunctionLine) : MemberFunction := { name := f.name, line }

/-- The attributes of functions and constructors are not looked at. -/
def AreQuoted (as : List Text) : Prop := ∀ a ∈ as, QuotedText a

theorem readFunction_lines {t : MarkerText Text} (ht : t.Legal AreQuoted IsBeforeFunction) {f : FunctionLine}
    (hf : f.Legal) (number : Nat) (rest : List Text) :
    readFunction number (t.lines id .function ++ f.text :: rest) =
      .ok (t.distance id, f.function (number + t.distance id)) := by
  have hbetween : ∀ line ∈ t.between, line.contains (Text.byte '(') = false := by
    intro line hline
    simpa using (ht.between line hline).noParenthesis
  have hnamed : f.text.contains (Text.byte '(') = true := by simp [FunctionLine.text]
  have hquoted : ∀ a ∈ t.attributes.contents, QuotedText (id a) := ht.attributes
  unfold readFunction
  refine bind_eq_ok.mpr ⟨_, MarkerText.attributesAt_lines .function hquoted _, ?_⟩
  dsimp only
  rw [MarkerText.drop_lines _ ht.tail, findLine?_append hbetween hnamed]
  dsimp only
  rw [FunctionLine.functionName?_text hf]
  rfl

/-- The constructor that a marker describes. -/
def SignatureText.constructor (line : Nat) (s : SignatureText) : TypeConstructor := { signature := s.signature, line }

theorem SignatureText.isIdleLine_head {s : SignatureText} (h : s.Legal) :
    ∃ first others, s.text = first :: others ∧ isIdleLine first = false := by
  obtain ⟨lines, indent, last, tail⟩ := s
  -- on one line, it begins with what is visible there; on several lines, with its first piece
  cases lines with
  | nil =>
    refine ⟨_, [], rfl, ?_⟩
    show isIdleLine (indent.text ++ last ++ Text.byte ')' :: tail) = false
    rw [isIdleLine_visible indent h.visible (by decide) (by decide) (by decide)]
    exact h.noComment
  | cons line lines =>
    obtain ⟨before, piece, after⟩ := line
    refine ⟨before.text ++ piece ++ after.text, _, rfl, ?_⟩
    have htrim : Text.trim (before.text ++ piece ++ after.text) = piece := by
      rw [Text.trim_pad before.isBlanks after.isBlanks]
      exact h.trimmed _ List.mem_cons_self
    have hpiece : piece ≠ [] := h.begun _ rfl
    have hopening : piece <+: (SignatureText.mk ((before, piece, after) :: lines) indent last tail).opening := by
      simp [opening, Text.joinWith_cons]
    have hbegins : Text.beginsWith "//" piece = false := by
      have hnone := h.noComment
      rw [← Bool.not_eq_true, Text.beginsWith_iff] at hnone ⊢
      exact fun hbegin => hnone (hbegin.trans hopening)
    unfold isIdleLine
    dsimp only
    rw [htrim, hbegins]
    simp [hpiece]

theorem readConstructor_lines {t : MarkerText Text} (ht : t.Legal AreQuoted IsIdle) {s : SignatureText}
    (hs : s.Legal) (number : Nat) (rest : List Text) :
    readConstructor number (t.lines id .constructor ++ (s.text ++ rest)) =
      .ok (t.distance id + s.lines.length, s.constructor (number + t.distance id)) := by
  obtain ⟨first, others, htext, hidle⟩ := s.isIdleLine_head hs
  have hquoted : ∀ a ∈ t.attributes.contents, QuotedText (id a) := ht.attributes
  have hdeclaration : declarationAt .constructor (t.breaks id) (t.lines id .constructor ++ (s.text ++ rest)) =
      .ok (t.distance id, first) := by
    rw [htext]
    exact MarkerText.declarationAt_lines ht .constructor hidle (others ++ rest)
  unfold readConstructor
  refine bind_eq_ok.mpr ⟨_, MarkerText.attributesAt_lines .constructor hquoted _, ?_⟩
  refine bind_eq_ok.mpr ⟨_, hdeclaration, ?_⟩
  dsimp only
  -- the signature is read from its first line on, which is where the marker's lines end
  rw [← MarkerText.length_lines .constructor ht.tail, List.drop_left, SignatureText.signature?_text hs]
  rfl

end HeaderReflection
