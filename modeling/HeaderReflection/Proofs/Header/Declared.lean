import HeaderReflection.Proofs.Header.Edits
import HeaderReflection.Proofs.Outcome
import HeaderReflection.Proofs.Text.Words

/-!
# Declared types

What holds of every type that a header declares, whatever the header is: how it has got its names, and so that its kind
is a known one and its short name has neither a blank nor double colons in it.

## Main definitions

- `Declaration.NamedIn`: how a header names a type.
- `Declaration.IsRead`: what follows for kinds and blanks.
- `HeaderReading.AllNamed`: all types of a reading are named so.

## Main results

- `AllNamed.dispatch`, `AllNamed.readFrom`: a marker and the lines of a header keep it.
- `Module.namedIn_of_mem_declared`, `Module.isRead_of_mem_declared`: all types of a header are named so.
- `Declaration.NamedIn.noColons`: short names are short.
-/

namespace HeaderReflection

/-! ## §1 Names -/

namespace Text

theorem mem_of_mem_cutMarked {marked : List (UInt8 × Bool)} {piece : Text} (h : piece ∈ cutMarked marked) :
    ∀ b ∈ piece, (b, false) ∈ marked := by
  -- a byte joins a piece only if it is no blank, and a blank only starts a new piece
  induction marked generalizing piece with
  | nil =>
    rw [List.mem_singleton.mp h]
    simp
  | cons mark marked ih =>
    obtain ⟨c, blank⟩ := mark
    change piece ∈ (if blank then [] :: cutMarked marked else consHead c (cutMarked marked)) at h
    cases blank with
    | true =>
      rcases List.mem_cons.mp h with rfl | h
      · simp
      · exact fun b hb => List.mem_cons_of_mem _ (ih h b hb)
    | false =>
      cases hpieces : cutMarked marked with
      | nil =>
        rw [hpieces] at h
        rw [List.mem_singleton.mp h]
        simp
      | cons first rest =>
        rw [hpieces] at h
        rcases List.mem_cons.mp h with rfl | h
        · intro b hb
          rcases List.mem_cons.mp hb with rfl | hb
          · exact List.mem_cons_self
          · exact List.mem_cons_of_mem _ (ih (by simp [hpieces]) b hb)
        · exact fun b hb => List.mem_cons_of_mem _ (ih (by simp [hpieces, h]) b hb)

theorem isBlankByte_of_mem_fields {text word : Text} (h : word ∈ text.fields) : ∀ b ∈ word, isBlankByte b = false :=
  fun b hb => isBlankByte_of_mem_marksFrom (mem_of_mem_cutMarked (List.mem_of_mem_filter h) b hb)

end Text

theorem subset_shortName (name : Text) : shortName name ⊆ name := by
  unfold shortName Text.afterLast?
  cases hcut : Text.cut (Text.ofString "::").reverse name.reverse with
  | none => simp
  | some halves =>
    obtain ⟨after, before⟩ := halves
    have hname := Text.cut_eq_some hcut
    intro b hb
    rw [← List.mem_reverse, hname]
    simp only [Option.map_some, Option.getD_some, List.mem_reverse] at hb
    simp [hb]

/-! ## §2 Short names -/

namespace Text

/-- A text is not cut exactly when the separator does not occur in it. -/
theorem cut_eq_none_iff {sep text : Text} (hsep : sep ≠ []) : cut sep text = none ↔ ¬ sep <:+: text := by
  induction text with
  | nil => simp [cut, hsep]
  | cons b text ih =>
    rw [List.infix_cons_iff, not_or, cut]
    cases hstrip : stripPrefix? sep (b :: text) with
    | some rest =>
      have hbegins : sep <+: b :: text := ⟨rest, (stripPrefix?_eq_some_iff.mp hstrip).symm⟩
      simp [hbegins]
    | none =>
      have hbegins : ¬ sep <+: b :: text := by
        rintro ⟨rest, hrest⟩
        rw [stripPrefix?_eq_some_iff.mpr hrest.symm] at hstrip
        cases hstrip
      simp [hbegins, ih]

/-- What stands before the first occurrence of a separator has none in it. -/
theorem cut_before_eq_none {sep text before after : Text} (hsep : sep ≠ [])
    (h : cut sep text = some (before, after)) : cut sep before = none := by
  induction text generalizing before with
  | nil => simp [cut, hsep] at h
  | cons b text ih =>
    rw [cut] at h
    cases hstrip : stripPrefix? sep (b :: text) with
    | some rest =>
      rw [hstrip] at h
      cases h
      simp [cut, hsep]
    | none =>
      rw [hstrip] at h
      obtain ⟨⟨before', after'⟩, hcut, heq⟩ := Option.map_eq_some_iff.mp h
      cases heq
      -- an occurrence at the start would be one in the whole text
      have hstart : stripPrefix? sep (b :: before') = none := by
        rw [Option.eq_none_iff_forall_ne_some]
        intro rest hrest
        have htext := cut_eq_some hcut
        have hwhole : b :: text = sep ++ (rest ++ sep ++ after) := by
          rw [htext, ← List.cons_append, ← List.cons_append, stripPrefix?_eq_some_iff.mp hrest]
          simp
        rw [stripPrefix?_eq_some_iff.mpr hwhole] at hstrip
        cases hstrip
      rw [cut, hstart, ih hcut]
      rfl

end Text

/-- **Short names are short**: no double colons are left in them. -/
theorem cut_shortName (name : Text) : Text.cut "::" (shortName name) = none := by
  have hsep : (Text.ofString "::") ≠ [] := by decide
  have hsame : (Text.ofString "::").reverse = "::" := by decide
  have hreverse : ∀ text : Text, Text.cut "::" text.reverse = none → Text.cut "::" text = none := by
    intro text h
    rw [Text.cut_eq_none_iff hsep] at h ⊢
    rw [← List.reverse_infix, hsame]
    exact h
  unfold shortName Text.afterLast?
  rw [hsame]
  cases hcut : Text.cut "::" name.reverse with
  | none => exact hreverse name hcut
  | some halves =>
    obtain ⟨after, before⟩ := halves
    apply hreverse
    simpa using Text.cut_before_eq_none hsep hcut

/-! ## §3 Attributes -/

/-- The members of a type. -/
def Declaration.members (d : Declaration) : List Property × List MemberFunction × List TypeConstructor :=
  (d.properties, d.functions, d.constructors)

/-- What a type is after attributes have been taken, if they can be taken: nothing that tells it from others changes, and
neither do its members. -/
def Declaration.KeptBy (d : Declaration) (result : Except AttributeFault Declaration) : Prop :=
  ∀ d', result = .ok d' →
    d'.name = d.name ∧ d'.fullName = d.fullName ∧ d'.kind = d.kind ∧ d'.members = d.members

theorem Declaration.keptBy_ite {d : Declaration} {c : Prop} [Decidable c] {a b : Except AttributeFault Declaration}
    (ha : d.KeptBy a) (hb : d.KeptBy b) : d.KeptBy (if c then a else b) := by
  split
  · exact ha
  · exact hb

theorem Declaration.keptBy_ok {d d' : Declaration} (hname : d'.name = d.name) (hfull : d'.fullName = d.fullName)
    (hkind : d'.kind = d.kind) (hmembers : d'.members = d.members) : d.KeptBy (.ok d') := by
  intro d'' h
  cases h
  exact ⟨hname, hfull, hkind, hmembers⟩

theorem Declaration.keptBy_error (d : Declaration) (fault : AttributeFault) : d.KeptBy (.error fault) := by
  intro d' h
  cases h

theorem Declaration.keptBy_bind {α : Type} {d : Declaration} {x : Except AttributeFault α}
    {next : α → Except AttributeFault Declaration} (h : ∀ a, d.KeptBy (next a)) : d.KeptBy (x >>= next) := by
  cases x with
  | error fault => exact d.keptBy_error fault
  | ok a => exact h a

theorem Declaration.withKey_keeps (d : Declaration) (key value : Text) : d.KeptBy (d.withKey key value) := by
  unfold Declaration.withKey
  iterate 10 refine keptBy_ite (keptBy_ok rfl rfl rfl rfl) ?_
  refine keptBy_ite (keptBy_bind fun flag => keptBy_ite (keptBy_ok rfl rfl rfl rfl) (d.keptBy_error _)) ?_
  exact keptBy_ite (keptBy_bind fun flag => keptBy_ok rfl rfl rfl rfl) (d.keptBy_error _)

theorem Declaration.withAttributes_keeps (d : Declaration) (items : List Text) :
    d.KeptBy (d.withAttributes items) := by
  unfold Declaration.withAttributes
  induction items generalizing d with
  | nil => exact keptBy_ok rfl rfl rfl rfl
  | cons item items ih =>
    rw [List.foldlM_cons]
    intro d' h
    cases hfirst : d.withAttribute item with
    | error fault => rw [hfirst] at h; cases h
    | ok first =>
      rw [hfirst] at h
      have hkept : first.name = d.name ∧ first.fullName = d.fullName ∧ first.kind = d.kind ∧
          first.members = d.members := by
        apply keptBy_bind (x := keyValue item) (d := d) _ first hfirst
        exact fun (key, value) => d.withKey_keeps key value
      obtain ⟨hname, hfull, hkind, hmembers⟩ := ih first d' h
      exact ⟨hname.trans hkept.1, hfull.trans hkept.2.1, hkind.trans hkept.2.2.1, hmembers.trans hkept.2.2.2⟩

/-! ## §4 Readings -/

/-- How a header names a type: by the first name in its line, which is written without blanks. A class or struct of a
package stands in the namespace of the package, whatever is written; an external type has the full name that is
written. -/
inductive Declaration.NamedIn (package : Text) (d : Declaration) : Prop where
  | own (written : Text) (visible : ∀ b ∈ written, Text.isBlankByte b = false) (name : d.name = shortName written)
      (fullName : d.fullName = package ++ "::" ++ d.name) (kind : d.kind = .classType ∨ d.kind = .structType)
  | external (written : Text) (visible : ∀ b ∈ written, Text.isBlankByte b = false)
      (fullName : d.fullName = Text.trimPrefix "::" written) (name : d.name = shortName d.fullName)
      (kind : d.kind = .external)

/-- What holds of every type that a header declares. -/
structure Declaration.IsRead (d : Declaration) : Prop where
  kind : d.kind.isKnown = true
  name : ∀ b ∈ d.name, Text.isBlankByte b = false

namespace Declaration.NamedIn

variable {package : Text} {d d' : Declaration}

/-- Members and attributes do not matter. -/
theorem of_eq (h : d.NamedIn package) (hname : d'.name = d.name) (hfull : d'.fullName = d.fullName)
    (hkind : d'.kind = d.kind) : d'.NamedIn package := by
  cases h with
  | own written visible name fullName kind =>
    exact .own written visible (by rw [hname, name]) (by rw [hfull, fullName, hname]) (by rw [hkind]; exact kind)
  | external written visible fullName name kind =>
    exact .external written visible (by rw [hfull, fullName]) (by rw [hname, name, hfull]) (by rw [hkind, kind])

theorem isRead (h : d.NamedIn package) : d.IsRead := by
  cases h with
  | own written visible name _ kind =>
    constructor
    · rcases kind with kind | kind <;> rw [kind] <;> rfl
    · intro b hb
      rw [name] at hb
      exact visible b (subset_shortName written hb)
  | external written visible fullName name kind =>
    constructor
    · rw [kind]
      rfl
    · intro b hb
      rw [name, fullName] at hb
      exact visible b (Text.subset_trimPrefix _ _ (subset_shortName _ hb))

theorem noColons (h : d.NamedIn package) : Text.cut "::" d.name = none := by
  cases h with
  | own written _ name _ _ =>
    rw [name]
    exact cut_shortName written
  | external written _ _ name _ =>
    rw [name]
    exact cut_shortName d.fullName

theorem fullName_of_own (h : d.NamedIn package) (hown : d.kind ≠ .external) :
    d.fullName = package ++ "::" ++ d.name := by
  cases h with
  | own _ _ _ fullName _ => exact fullName
  | external _ _ _ _ kind => exact absurd kind hown

end Declaration.NamedIn

/-- The first name in the line of a type has no blank in it. -/
theorem isBlankByte_of_typeNamesAt {index : Nat} {line name : Text} {names : List Text}
    (h : typeNamesAt index line = .ok (name, names)) : ∀ b ∈ name, Text.isBlankByte b = false := by
  unfold typeNamesAt at h
  split at h
  · cases h
  · next hnames =>
    cases h
    have hmem : name ∈ nameTokens line := by simp [hnames]
    exact Text.isBlankByte_of_mem_fields (List.mem_of_mem_filter hmem)

theorem atAttributes_ok {α : Type} {result : Except AttributeFault α} {a : α} (h : atAttributes result = .ok a) :
    result = .ok a := by
  cases result with
  | error fault => cases h
  | ok b => cases h; rfl

theorem namedIn_of_readType {m : Module} {includePath : Text} {marker : Marker} {kind : Kind} {number index : Nat}
    {lines : List Text} {d : Declaration} (hkind : kind = .classType ∨ kind = .structType)
    (h : readType m includePath marker kind number lines = .ok (index, d)) : d.NamedIn m.fullName := by
  obtain ⟨⟨listEnd, attributes⟩, -, h⟩ := bind_ok h
  obtain ⟨⟨index', line⟩, -, h⟩ := bind_ok h
  obtain ⟨⟨name, others⟩, hnames, h⟩ := bind_ok h
  obtain ⟨declared, hattributes, h⟩ := bind_ok h
  cases h
  obtain ⟨hname, hfull, hkind', -⟩ := Declaration.withAttributes_keeps _ _ _ (atAttributes_ok hattributes)
  refine .own name (isBlankByte_of_typeNamesAt hnames) hname ?_ (by rw [hkind']; exact hkind)
  rw [hfull, hname]
  rfl

theorem namedIn_of_readExternal {package includePath : Text} {number index : Nat} {lines : List Text} {d : Declaration}
    (h : readExternal includePath number lines = .ok (index, d)) : d.NamedIn package := by
  obtain ⟨⟨listEnd, attributes⟩, -, h⟩ := bind_ok h
  obtain ⟨⟨index', line⟩, -, h⟩ := bind_ok h
  obtain ⟨⟨name, others⟩, hnames, h⟩ := bind_ok h
  obtain ⟨declared, hattributes, h⟩ := bind_ok h
  cases h
  obtain ⟨hname, hfull, hkind, -⟩ := Declaration.withAttributes_keeps _ _ _ (atAttributes_ok hattributes)
  exact .external name (isBlankByte_of_typeNamesAt hnames) hfull (by rw [hname, hfull]) hkind

namespace HeaderReading

/-- All types of a reading, declared or open, are named in the package that is read into. -/
structure AllNamed (package : Text) (r : HeaderReading) : Prop where
  module : r.module.fullName = package
  externals : ∀ d ∈ r.externals, d.NamedIn package
  openClass : ∀ d ∈ r.openClass, d.NamedIn package
  openStruct : ∀ d ∈ r.openStruct, d.NamedIn package

variable {package : Text} {r : HeaderReading}

theorem AllNamed.step {α : Type} (hr : r.AllNamed package) {result : AtMarker (Nat × α)}
    {next : α → HeaderReading} (hnext : ∀ index a, result = .ok (index, a) → (next a).AllNamed package) :
    (r.step result next).1.AllNamed package := by
  cases result with
  | error fault => exact hr
  | ok pair => exact hnext pair.1 pair.2 rfl

theorem AllNamed.readPackage (hr : r.AllNamed package) (lines : List Text) :
    (r.readPackage lines).1.AllNamed package := by
  unfold HeaderReading.readPackage
  split
  · exact hr
  · split
    · exact ⟨hr.module, hr.externals, hr.openClass, hr.openStruct⟩
    · -- a package directive, at fault or not, changes neither the name nor the namespace
      next listEnd attributes _ =>
      have hpackage : (r.module.withAttributes attributes).1.fullName = package := by
        rw [Module.part_withAttributes _ Module.fullName (fun _ _ => rfl), hr.module]
      dsimp only
      split
      · next module hmodule =>
        rw [hmodule] at hpackage
        exact ⟨hpackage, hr.externals, hr.openClass, hr.openStruct⟩
      · next module fault hmodule =>
        rw [hmodule] at hpackage
        exact ⟨hpackage, hr.externals, hr.openClass, hr.openStruct⟩

/-- **A marker keeps how all types are named.** -/
theorem AllNamed.dispatch (hr : r.AllNamed package) (marker : Marker) (number : Nat) (lines : List Text) :
    (r.dispatch marker number lines).1.AllNamed package := by
  -- a marker opens a type, or adds to one that is open and keeps its names and its kind
  have hclass : ∀ {d : Declaration} {latest : Option Latest}, d.NamedIn package →
      ({ r with openClass := some d, latest := latest } : HeaderReading).AllNamed package := by
    intro d latest hd
    exact ⟨hr.module, hr.externals, by simpa using hd, hr.openStruct⟩
  have hstruct : ∀ {d : Declaration} {latest : Option Latest}, d.NamedIn package →
      ({ r with openStruct := some d, latest := latest } : HeaderReading).AllNamed package := by
    intro d latest hd
    exact ⟨hr.module, hr.externals, hr.openClass, by simpa using hd⟩
  cases marker with
  | modelOverrides => exact ⟨hr.module, hr.externals, hr.openClass, hr.openStruct⟩
  | renderOverrides => exact ⟨hr.module, hr.externals, hr.openClass, hr.openStruct⟩
  | package => exact hr.readPackage lines
  | externalType =>
    refine hr.step fun index d hread => ⟨hr.module, ?_, hr.openClass, hr.openStruct⟩
    intro d' hd'
    rcases List.mem_append.mp hd' with hd' | hd'
    · exact hr.externals d' hd'
    · rw [List.mem_singleton.mp hd']
      exact namedIn_of_readExternal hread
  | classType =>
    simp only [HeaderReading.dispatch]
    split
    · exact hr
    · exact hr.step fun index d hread => hclass (hr.module ▸ namedIn_of_readType (Or.inl rfl) hread)
  | structType =>
    simp only [HeaderReading.dispatch]
    split
    · exact hr
    · exact hr.step fun index d hread => hstruct (hr.module ▸ namedIn_of_readType (Or.inr rfl) hread)
  | property =>
    simp only [HeaderReading.dispatch]
    split
    · exact hr
    · next outer hopen => exact hr.step fun _ _ _ => hclass ((hr.openClass outer hopen).of_eq rfl rfl rfl)
  | constructor =>
    simp only [HeaderReading.dispatch]
    split
    · exact hr
    · next outer hopen => exact hr.step fun _ _ _ => hstruct ((hr.openStruct outer hopen).of_eq rfl rfl rfl)
  | function =>
    simp only [HeaderReading.dispatch]
    split
    · next outer _ hopen => exact hr.step fun _ _ _ => hclass ((hr.openClass outer hopen).of_eq rfl rfl rfl)
    · next outer _ hopen => exact hr.step fun _ _ _ => hstruct ((hr.openStruct outer hopen).of_eq rfl rfl rfl)
    · exact hr

/-- **The lines of a header keep how all types are named.** -/
theorem AllNamed.readFrom (hr : r.AllNamed package) (taken number : Nat) (lines : List Text) :
    (r.readFrom taken number lines).1.AllNamed package := by
  induction lines generalizing r taken number with
  | nil => rwa [HeaderReading.readFrom]
  | cons line lines ih =>
    cases taken with
    | succ taken =>
      rw [HeaderReading.readFrom]
      exact ih hr taken (number + 1)
    | zero =>
      rw [HeaderReading.readFrom]
      split
      · exact ih hr 0 (number + 1)
      · next marker _ =>
        have hstep := hr.dispatch marker number (line :: lines)
        split
        · next r' taken hdispatch =>
          rw [hdispatch] at hstep
          exact ih hstep taken (number + 1)
        · next r' distance fault hdispatch =>
          rw [hdispatch] at hstep
          exact hstep

end HeaderReading

/-- **All types of a header are named** in the package that it is read into. -/
theorem Module.namedIn_of_mem_declared {m : Module} {path text : Text} {d : Declaration}
    (h : d ∈ (m.readHeader path text).declared) : d.NamedIn m.fullName := by
  have hstart : ({ module := m, includePath := includePathOf path } : HeaderReading).AllNamed m.fullName :=
    ⟨rfl, by simp, by simp, by simp⟩
  have hall := hstart.readFrom 0 1 (Header.lines text)
  unfold Module.readHeader at h
  dsimp only at h
  split at h
  · next r line fault hread =>
    rw [hread] at hall
    exact hall.externals d h
  · next r hread =>
    rw [hread] at hall
    simp only [HeaderReading.opened, List.mem_append, Option.mem_toList] at h
    rcases h with h | h | h
    · exact hall.externals d h
    · exact hall.openClass d h
    · exact hall.openStruct d h

theorem Module.isRead_of_mem_declared {m : Module} {path text : Text} {d : Declaration}
    (h : d ∈ (m.readHeader path text).declared) : d.IsRead :=
  (Module.namedIn_of_mem_declared h).isRead

/-! ## §5 Headers one after the other -/

/-- **Headers only add types**, named in the package that they are read into. -/
theorem Module.readAll_entries {m read : Module} {headers : List (Text × Text)} (h : m.readAll headers = .ok read)
    {ds : List Declaration} (hds : m.entries = entriesOf ds) :
    read.name = m.name ∧ ∃ added, read.entries = entriesOf (ds ++ added) ∧ ∀ d ∈ added, d.NamedIn m.fullName := by
  -- each header adds to the module that the headers before it have left
  induction headers generalizing m ds with
  | nil =>
    rw [Module.readAll] at h
    cases h
    exact ⟨rfl, [], by simpa using hds, by simp⟩
  | cons header headers ih =>
    rw [Module.readAll] at h
    cases herror : (m.readHeader header.1 header.2).error with
    | some error => rw [herror] at h; cases h
    | none =>
      rw [herror] at h
      obtain ⟨edits, hedits, hdeclared, -⟩ := Module.readHeader_edits m header.1 header.2 herror
      have hmodule := (hedits m rfl rfl).1
      have hfull : (m.edited edits).fullName = m.fullName := by simp [Module.fullName]
      rw [hmodule] at h
      obtain ⟨hname, added, hentries, hnamed⟩ := ih h (Module.entries_edited m edits hds)
      refine ⟨by rw [hname, Module.name_edited], edits.filterMap ModuleEdit.declared? ++ added,
        by rw [hentries, List.append_assoc], ?_⟩
      rw [List.forall_mem_append, hdeclared]
      exact ⟨fun d hd => Module.namedIn_of_mem_declared hd, fun d hd => hfull ▸ hnamed d hd⟩

end HeaderReflection
