import HeaderReflection.Proofs.Header.Annotations

/-!
# The marked lines of a header

Which lines of a header are taken as markers can be told from the lines alone, since the span of a marker can. So a header
is read by taking its marked lines one after the other, up to the first with a fault. No marker reaches beyond the end of
the header, and neither does the place of its fault.

## Main definitions

- `MarkedLine`, `markedFrom`, `Header.marked`: the lines that are taken as markers.
- `HeaderReading.readMarked`: taking them one after the other.
- `AtMarker.Within`: a result, or a fault, that lies within a number of lines.
- `HeaderReading.Form`: what a marker comes to.

## Main results

- `readFrom_eq_readMarked`: reading lines is taking the marked ones.
- `exists_stop`: the marked line at which the reading stops.
- `Module.exists_read_of_ok`, `Module.exists_stop_of_error`: a header without a fault, and one with a fault.
- `markedFrom_places`, `pairwise_markedFrom`: where the marked lines are.
- `form_of_dispatch`: a marker that is no package directive comes to one of these.
- `dispatch_within`: a marker stays within its header.
-/

namespace HeaderReflection

/-! ## §1 Marked lines -/

/-- A line that is taken as a marker: the marker, the number of the line, and the lines from it on. -/
structure MarkedLine where
  marker : Marker
  number : Nat
  lines : List Text
  deriving DecidableEq, Repr

/-- The lines that are taken as markers. Of the given lines the first `taken` belong to a marker before them, and the first
has the given number. -/
def markedFrom : (taken number : Nat) → List Text → List MarkedLine
  | _, _, [] => []
  | taken + 1, number, _ :: lines => markedFrom taken (number + 1) lines
  | 0, number, line :: lines =>
    match Marker.ofLine? line with
    | none => markedFrom 0 (number + 1) lines
    | some marker => ⟨marker, number, line :: lines⟩ :: markedFrom (marker.span (line :: lines)) (number + 1) lines

/-- The lines of a header that are taken as markers. -/
def Header.marked (text : Text) : List MarkedLine := markedFrom 0 1 (Header.lines text)

/-- The place of a marked line among lines of which the first has the given number. -/
structure MarkedLine.LiesIn (s : MarkedLine) (number : Nat) (lines : List Text) : Prop where
  le : number ≤ s.number
  rest : s.lines = lines.drop (s.number - number)
  opens : ∃ line rest, s.lines = line :: rest ∧ Marker.ofLine? line = some s.marker

/-- **Marked lines are lines of the header that open their marker**, behind what belongs to the marker before them. -/
theorem markedFrom_places {s : MarkedLine} {taken number : Nat} {lines : List Text}
    (h : s ∈ markedFrom taken number lines) : s.LiesIn number lines ∧ number + taken ≤ s.number := by
  induction lines generalizing taken number with
  | nil => cases taken <;> cases h
  | cons line lines ih =>
    -- one line further on, the same marked line
    have hnext : ∀ {taken' : Nat}, s ∈ markedFrom taken' (number + 1) lines →
        s.LiesIn number (line :: lines) ∧ number + (taken' + 1) ≤ s.number := by
      intro taken' hs
      obtain ⟨⟨hnumber, hlines, hopens⟩, htaken⟩ := ih hs
      refine ⟨⟨by omega, ?_, hopens⟩, by omega⟩
      rw [hlines, show s.number - number = s.number - (number + 1) + 1 by omega, List.drop_succ_cons]
    cases taken with
    | succ taken => exact hnext h
    | zero =>
      rw [markedFrom] at h
      cases hmarker : Marker.ofLine? line with
      | none =>
        rw [hmarker] at h
        obtain ⟨hlies, hle⟩ := hnext h
        exact ⟨hlies, by omega⟩
      | some marker =>
        rw [hmarker] at h
        rcases List.mem_cons.mp h with rfl | h
        · exact ⟨⟨le_rfl, by simp, line, lines, rfl, hmarker⟩, le_rfl⟩
        · obtain ⟨hlies, hle⟩ := hnext h
          exact ⟨hlies, by omega⟩

/-- **Each marked line is behind the span of those before it.** -/
theorem pairwise_markedFrom (taken number : Nat) (lines : List Text) :
    (markedFrom taken number lines).Pairwise fun s t => s.number + s.marker.span s.lines < t.number := by
  induction lines generalizing taken number with
  | nil => cases taken <;> exact List.Pairwise.nil
  | cons line lines ih =>
    cases taken with
    | succ taken => exact ih taken (number + 1)
    | zero =>
      rw [markedFrom]
      cases Marker.ofLine? line with
      | none => exact ih 0 (number + 1)
      | some marker =>
        -- what follows a marker is looked for behind its span
        refine List.pairwise_cons.mpr ⟨fun t ht => ?_, ih _ (number + 1)⟩
        have hle := (markedFrom_places ht).2
        dsimp only
        omega

theorem MarkedLine.LiesIn.number_le {s : MarkedLine} {number : Nat} {lines : List Text} (h : s.LiesIn number lines) :
    s.number + s.lines.length = number + lines.length := by
  obtain ⟨line, rest, hlines, -⟩ := h.opens
  have hlength := congrArg List.length h.rest
  rw [List.length_drop] at hlength
  have hpositive : 0 < s.lines.length := by simp [hlines]
  have hnumber := h.le
  omega

/-! ## §2 Taking the marked lines -/

namespace HeaderReading

variable {r after : HeaderReading} {s : MarkedLine} {marked before behind : List MarkedLine}

/-- Take marked lines one after the other, up to the first that has a fault, with the number of the line of the fault. -/
def readMarked (r : HeaderReading) : List MarkedLine → HeaderReading × Option (Nat × HeaderFault)
  | [] => (r, none)
  | s :: marked =>
    match r.dispatch s.marker s.number s.lines with
    | (r, .ok _) => readMarked r marked
    | (r, .error (distance, fault)) => (r, some (s.number + distance, fault))

/-- **Reading lines is taking the marked ones.** -/
theorem readFrom_eq_readMarked (r : HeaderReading) (taken number : Nat) (lines : List Text) :
    r.readFrom taken number lines = r.readMarked (markedFrom taken number lines) := by
  induction lines generalizing r taken number with
  | nil => cases taken <;> rfl
  | cons line lines ih =>
    cases taken with
    | succ taken => exact ih r taken (number + 1)
    | zero =>
      rw [readFrom, markedFrom]
      cases Marker.ofLine? line with
      | none => exact ih r 0 (number + 1)
      | some marker =>
        dsimp only [readMarked]
        -- the reader goes on behind the marker where the marked lines go on behind its span
        cases hdispatch : r.dispatch marker number (line :: lines) with
        | mk next result =>
          cases result with
          | error fault => rfl
          | ok taken =>
            dsimp only
            rw [(takes_of_dispatch hdispatch).span]
            exact ih next taken (number + 1)

theorem headerReading_eq_readMarked (m : Module) (path text : Text) :
    m.headerReading path text =
      readMarked { module := m, includePath := includePathOf path } (Header.marked text) :=
  readFrom_eq_readMarked _ 0 1 _

theorem readMarked_append_of_read (h : r.readMarked before = (after, none)) :
    r.readMarked (before ++ behind) = after.readMarked behind := by
  induction before generalizing r with
  | nil => cases h; rfl
  | cons s before ih =>
    rw [readMarked] at h
    rw [List.cons_append, readMarked]
    split at h
    · next next taken hdispatch => exact ih h
    · cases h

theorem readMarked_cons_of_ok {taken : Nat} (h : r.dispatch s.marker s.number s.lines = (after, .ok taken)) :
    r.readMarked (s :: marked) = after.readMarked marked := by
  rw [readMarked, h]

theorem readMarked_cons_of_error {distance : Nat} {fault : HeaderFault}
    (h : r.dispatch s.marker s.number s.lines = (after, .error (distance, fault))) :
    r.readMarked (s :: marked) = (after, some (s.number + distance, fault)) := by
  rw [readMarked, h]

theorem readMarked_concat :
    r.readMarked (before ++ [s]) = (after, none) ↔
      ∃ middle taken, r.readMarked before = (middle, none) ∧
        middle.dispatch s.marker s.number s.lines = (after, .ok taken) := by
  constructor
  · intro h
    induction before generalizing r with
    | nil =>
      rw [List.nil_append, readMarked] at h
      split at h
      · next next taken hdispatch =>
        cases h
        exact ⟨r, taken, rfl, hdispatch⟩
      · cases h
    | cons t before ih =>
      rw [List.cons_append, readMarked] at h
      split at h
      · next next taken hdispatch =>
        obtain ⟨middle, taken', hbefore, hlast⟩ := ih h
        exact ⟨middle, taken', by rw [readMarked_cons_of_ok hdispatch, hbefore], hlast⟩
      · cases h
  · rintro ⟨middle, taken, hbefore, hlast⟩
    rw [readMarked_append_of_read hbefore, readMarked_cons_of_ok hlast]
    rfl

/-- **Where the reading stops**: at the first marked line that has a fault, when all before it have been taken. -/
theorem exists_stop {line : Nat} {fault : HeaderFault} (h : r.readMarked marked = (after, some (line, fault))) :
    ∃ before s behind middle distance, marked = before ++ s :: behind ∧ r.readMarked before = (middle, none) ∧
      middle.dispatch s.marker s.number s.lines = (after, .error (distance, fault)) ∧ line = s.number + distance := by
  induction marked generalizing r with
  | nil => cases h
  | cons s marked ih =>
    rw [readMarked] at h
    split at h
    · next next taken hdispatch =>
      obtain ⟨before, t, behind, middle, distance, hsplit, hbefore, hstop, hline⟩ := ih h
      refine ⟨s :: before, t, behind, middle, distance, by rw [hsplit]; rfl, ?_, hstop, hline⟩
      rw [readMarked_cons_of_ok hdispatch, hbefore]
    · next next distance fault' hdispatch =>
      cases h
      exact ⟨[], s, marked, r, distance, rfl, rfl, hdispatch, rfl⟩

end HeaderReading

section Headers

variable {m : Module} {path text : Text}

/-- A header without a fault: all its marked lines have been taken. -/
theorem Module.exists_read_of_ok (h : (m.readHeader path text).error = none) :
    ∃ after, HeaderReading.readMarked { module := m, includePath := includePathOf path } (Header.marked text) =
        (after, none) ∧
      m.readHeader path text =
        ⟨(after.module.addAll after.opened).addInclude (includePathOf path), after.externals ++ after.opened, none⟩ := by
  cases hreading : m.headerReading path text with
  | mk after result =>
    cases result with
    | some fault =>
      rw [Module.readHeader_of_fault hreading] at h
      cases h
    | none =>
      rw [← HeaderReading.headerReading_eq_readMarked]
      exact ⟨after, hreading, Module.readHeader_of_read hreading⟩

/-- A header with a fault: the marked line with the fault, when all before it have been taken. -/
theorem Module.exists_stop_of_error {error : HeaderError} (h : (m.readHeader path text).error = some error) :
    ∃ before s behind middle after distance, Header.marked text = before ++ s :: behind ∧
      HeaderReading.readMarked { module := m, includePath := includePathOf path } before = (middle, none) ∧
      middle.dispatch s.marker s.number s.lines = (after, .error (distance, error.fault)) ∧
      error.file = path ∧ error.line = s.number + distance ∧
      m.readHeader path text = ⟨after.module, after.externals, some error⟩ := by
  cases hreading : m.headerReading path text with
  | mk after result =>
    cases result with
    | none =>
      rw [Module.readHeader_of_read hreading] at h
      cases h
    | some fault =>
      rw [Module.readHeader_of_fault hreading] at h ⊢
      cases h
      rw [HeaderReading.headerReading_eq_readMarked] at hreading
      obtain ⟨before, s, behind, middle, distance, hsplit, hbefore, hstop, hline⟩ := HeaderReading.exists_stop hreading
      exact ⟨before, s, behind, middle, after, distance, hsplit, hbefore, hstop, rfl, hline, rfl⟩

end Headers

/-! ## §3 Within the header -/

/-- A result whose place lies within a number of lines, or a fault whose distance does. -/
structure AtMarker.Within {α : Type} (count : Nat) (place : α → Nat) (result : AtMarker α) : Prop where
  fault : ∀ fault, result = .error fault → fault.1 < count
  found : ∀ a, result = .ok a → place a < count

namespace AtMarker

variable {α β : Type} {count : Nat} {place : β → Nat}

theorem within_ok {b : β} (h : place b < count) : Within count place (.ok b) where
  fault := by
    intro fault hfault
    cases hfault
  found := by
    intro b' hb'
    cases hb'
    exact h

theorem within_error {fault : Nat × HeaderFault} (h : fault.1 < count) : Within count place (.error fault) where
  fault := by
    intro fault' hfault
    cases hfault
    exact h
  found := by
    intro b hb
    cases hb

theorem within_bind {result : AtMarker α} {next : α → AtMarker β}
    (hfault : ∀ fault, result = .error fault → fault.1 < count)
    (hnext : ∀ a, result = .ok a → Within count place (next a)) : Within count place (result >>= next) := by
  cases result with
  | error fault => exact within_error (hfault fault rfl)
  | ok a => exact hnext a rfl

end AtMarker

section Lines

variable {lines : List Text} (hlines : 0 < lines.length)

theorem AttributeList.lt_of_scanLines {o : Opened} {index start : Nat} {rest : List Text} {body : Text}
    (h : scanLines o start rest = some (index, body)) : index < start + rest.length := by
  induction rest generalizing o start with
  | nil => cases h
  | cons line rest ih =>
    rw [scanLines] at h
    rw [List.length_cons]
    split at h
    · cases h
      omega
    · have hlt := ih h
      omega

theorem lt_of_findLine? {test : Text → Bool} {start index : Nat} {line : Text} {rest : List Text}
    (h : findLine? test start rest = some (index, line)) : index < start + rest.length := by
  induction rest generalizing start with
  | nil => cases h
  | cons first rest ih =>
    rw [findLine?] at h
    rw [List.length_cons]
    split at h
    · cases h
      omega
    · have hlt := ih h
      omega

/-- A line that is found behind an attribute list is a line of the header. -/
theorem lt_of_findLine?_drop {test : Text → Bool} {start index : Nat} {line : Text}
    (h : findLine? test start (lines.drop start) = some (index, line)) : index < lines.length := by
  have hlt := lt_of_findLine? h
  have hle := le_of_findLine? h
  rw [List.length_drop] at hlt
  omega

theorem SignatureScan.lt_of_readLines {s : SignatureScan} {start length : Nat} {rest : List Text} {signature : Text}
    (h : s.readLines start rest = some (length, signature)) : length < start + rest.length := by
  induction rest generalizing s start with
  | nil => cases h
  | cons line rest ih =>
    rw [readLines] at h
    rw [List.length_cons]
    split at h
    · cases h
      omega
    · have hlt := ih h
      omega

theorem lt_of_signature? {length : Nat} {signature : Text} (h : signature? lines = some (length, signature)) :
    length < lines.length := by
  cases lines with
  | nil => cases h
  | cons line rest =>
    rw [signature?] at h
    rw [List.length_cons]
    split at h
    · cases h
      omega
    · have hlt := SignatureScan.lt_of_readLines h
      omega

include hlines

theorem attributesAt_within (marker : Marker) : (attributesAt marker lines).Within lines.length Prod.fst := by
  unfold attributesAt
  split
  · next found hextract =>
    refine AtMarker.within_ok ?_
    cases lines with
    | nil => cases hextract
    | cons line rest =>
      rw [AttributeList.extract] at hextract
      rw [List.length_cons]
      split at hextract
      · cases hextract
      · split at hextract
        · cases hextract
          exact Nat.succ_pos _
        · split at hextract
          · next index body hscan =>
            cases hextract
            have hlt := AttributeList.lt_of_scanLines hscan
            dsimp only
            omega
          · cases hextract
  · exact AtMarker.within_error hlines
  · exact AtMarker.within_error hlines

theorem declarationAt_within (marker : Marker) (listEnd : Nat) :
    (declarationAt marker listEnd lines).Within lines.length Prod.fst := by
  unfold declarationAt
  split
  · next found hfind => exact AtMarker.within_ok (lt_of_findLine?_drop hfind)
  · exact AtMarker.within_error hlines

theorem atAttributes_lt {α : Type} {result : Except AttributeFault α} {fault : Nat × HeaderFault}
    (h : atAttributes result = .error fault) : fault.1 < lines.length := by
  cases result with
  | error _ => cases h; exact hlines
  | ok _ => cases h

omit hlines in
theorem typeNamesAt_lt {index : Nat} {line : Text} (hindex : index < lines.length) {fault : Nat × HeaderFault}
    (h : typeNamesAt index line = .error fault) : fault.1 < lines.length := by
  unfold typeNamesAt at h
  split at h
  · cases h
    exact hindex
  · cases h

theorem readType_within (m : Module) (includePath : Text) (marker : Marker) (kind : Kind) (number : Nat) :
    (readType m includePath marker kind number lines).Within lines.length Prod.fst := by
  refine AtMarker.within_bind (attributesAt_within hlines marker).fault fun ⟨listEnd, attributes⟩ _ => ?_
  have hdeclaration := declarationAt_within hlines marker listEnd
  refine AtMarker.within_bind hdeclaration.fault fun ⟨index, line⟩ hfound => ?_
  have hindex : index < lines.length := hdeclaration.found _ hfound
  refine AtMarker.within_bind (fun _ => typeNamesAt_lt hindex) fun ⟨name, others⟩ _ => ?_
  exact AtMarker.within_bind (fun _ => atAttributes_lt hlines) fun d _ => AtMarker.within_ok hindex

theorem readExternal_within (includePath : Text) (number : Nat) :
    (readExternal includePath number lines).Within lines.length Prod.fst := by
  refine AtMarker.within_bind (attributesAt_within hlines .externalType).fault fun ⟨listEnd, attributes⟩ _ => ?_
  have hdeclaration := declarationAt_within hlines .externalType listEnd
  refine AtMarker.within_bind hdeclaration.fault fun ⟨index, line⟩ hfound => ?_
  have hindex : index < lines.length := hdeclaration.found _ hfound
  refine AtMarker.within_bind (fun _ => typeNamesAt_lt hindex) fun ⟨name, others⟩ _ => ?_
  exact AtMarker.within_bind (fun _ => atAttributes_lt hlines) fun d _ => AtMarker.within_ok hindex

theorem readProperty_within (owner : Text) (number : Nat) :
    (readProperty owner number lines).Within lines.length Prod.fst := by
  refine AtMarker.within_bind (attributesAt_within hlines .property).fault fun ⟨listEnd, attributes⟩ _ => ?_
  have hdeclaration := declarationAt_within hlines .property listEnd
  refine AtMarker.within_bind hdeclaration.fault fun ⟨index, line⟩ hfound => ?_
  have hindex : index < lines.length := hdeclaration.found _ hfound
  dsimp only
  split
  · exact AtMarker.within_error hindex
  · refine AtMarker.within_bind (fun _ => atAttributes_lt hlines) fun property _ => ?_
    split
    · exact AtMarker.within_error hlines
    · exact AtMarker.within_ok hindex

theorem readFunction_within (number : Nat) : (readFunction number lines).Within lines.length Prod.fst := by
  refine AtMarker.within_bind (attributesAt_within hlines .function).fault fun ⟨listEnd, attributes⟩ _ => ?_
  dsimp only
  split
  · exact AtMarker.within_error hlines
  · next index line hfind =>
    have hindex := lt_of_findLine?_drop hfind
    split
    · exact AtMarker.within_error hindex
    · exact AtMarker.within_ok hindex

theorem readConstructor_within (number : Nat) : (readConstructor number lines).Within lines.length Prod.fst := by
  refine AtMarker.within_bind (attributesAt_within hlines .constructor).fault fun ⟨listEnd, attributes⟩ _ => ?_
  have hdeclaration := declarationAt_within hlines .constructor listEnd
  refine AtMarker.within_bind hdeclaration.fault fun ⟨index, line⟩ hfound => ?_
  have hindex : index < lines.length := hdeclaration.found _ hfound
  dsimp only
  split
  · exact AtMarker.within_error hindex
  · next length signature hsignature =>
    have hlength := lt_of_signature? hsignature
    rw [List.length_drop] at hlength
    exact AtMarker.within_ok (by dsimp only; omega)

namespace HeaderReading

omit hlines in
theorem step_within {α : Type} (r : HeaderReading) {result : AtMarker (Nat × α)} (next : α → HeaderReading)
    (h : result.Within lines.length Prod.fst) : (r.step result next).2.Within lines.length id := by
  cases result with
  | error fault => exact AtMarker.within_error (h.fault fault rfl)
  | ok found => exact AtMarker.within_ok (h.found found rfl)

theorem stop_within (r : HeaderReading) (fault : HeaderFault) : (r.stop fault).2.Within lines.length id :=
  AtMarker.within_error hlines

theorem readPackage_within (r : HeaderReading) : (r.readPackage lines).2.Within lines.length id := by
  unfold readPackage
  split
  · exact stop_within hlines r _
  · have hlist := attributesAt_within hlines .package
    dsimp only
    split
    · next fault hfault => exact AtMarker.within_error (hlist.fault fault hfault)
    · next listEnd attributes hfound =>
      split
      · exact AtMarker.within_ok (hlist.found _ hfound)
      · exact AtMarker.within_error hlines

/-- What a marker comes to that is no package directive: it is taken at once, it is refused, or it is read from its lines,
within which the result then lies. -/
inductive Form (r : HeaderReading) (lines : List Text) : Step → Prop where
  | taken (after : HeaderReading) : Form r lines (after, .ok 0)
  | refused (fault : HeaderFault) : Form r lines (r.stop fault)
  | read {α : Type} {result : AtMarker (Nat × α)} (next : α → HeaderReading)
      (within : 0 < lines.length → result.Within lines.length Prod.fst) : Form r lines (r.step result next)

omit hlines in
theorem form_of_dispatch (r : HeaderReading) {marker : Marker} (hmarker : marker ≠ .package) (number : Nat)
    (lines : List Text) : r.Form lines (r.dispatch marker number lines) := by
  cases marker with
  | modelOverrides => exact .taken _
  | renderOverrides => exact .taken _
  | package => exact absurd rfl hmarker
  | externalType => exact .read _ fun hlines => readExternal_within hlines _ number
  | classType =>
    simp only [dispatch]
    split
    · exact .refused _
    · exact .read _ fun hlines => readType_within hlines _ _ _ _ number
  | structType =>
    simp only [dispatch]
    split
    · exact .refused _
    · exact .read _ fun hlines => readType_within hlines _ _ _ _ number
  | property =>
    simp only [dispatch]
    split
    · exact .refused _
    · exact .read _ fun hlines => readProperty_within hlines _ number
  | constructor =>
    simp only [dispatch]
    split
    · exact .refused _
    · exact .read _ fun hlines => readConstructor_within hlines number
  | function =>
    simp only [dispatch]
    split
    · exact .read _ fun hlines => readFunction_within hlines number
    · exact .read _ fun hlines => readFunction_within hlines number
    · exact .refused _

/-- **A marker stays within its header**: the last of its lines, or the line of its fault, is a line of the header. -/
theorem dispatch_within (r : HeaderReading) (marker : Marker) (number : Nat) :
    (r.dispatch marker number lines).2.Within lines.length id := by
  by_cases hmarker : marker = .package
  · subst hmarker
    exact readPackage_within hlines r
  · have hform := form_of_dispatch r hmarker number lines
    generalize r.dispatch marker number lines = step at hform ⊢
    cases hform with
    | taken after => exact AtMarker.within_ok hlines
    | refused fault => exact stop_within hlines r fault
    | read next within => exact step_within r next (within hlines)

end HeaderReading

end Lines

end HeaderReflection
