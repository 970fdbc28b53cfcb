import HeaderReflection.Proofs.Header.Appending
import HeaderReflection.Proofs.Header.MovedLines

/-!
# Blank lines and comments before a declaration

Between the attribute list of a marker and its declaration, blank lines and comments may be inserted. A type, a property
or a constructor is then found some lines farther down, and the header declares the same as before, with other line
numbers behind the inserted lines.

A function is found by the first parenthesis behind its list, and comments are looked at as well. So a comment may be
inserted without consequences exactly when there is no opening parenthesis in it; one that has a parenthesis is taken for
the declaration.

## Main definitions

- `functionLines`: the line numbers of the functions of some types.
- `MarkedLine.lastListLine`, `MarkedLine.declarationLine`: where a list ends, and where the declaration is.
- `Interleaved`, `Insertion`: lines that are inserted between the two.

## Main results

- `scan_of_first`: what is found among the first lines is found there whatever is behind them.
- `readFrom_up_to`: what is read before a marked line does not depend on what is behind it.
- `mem_functionLines_iff`: on which lines the functions of a header are.
- `Insertion.readFrom_widened`: lines with others inserted are read alike.
- `readHeader_inserted_iff`: when the same is declared.
-/

namespace HeaderReflection

/-! ## §1 What is found among the first lines -/

section Scan

variable {σ β : Type} (step : σ → Text → β ⊕ σ) (scan : σ → Nat → List Text → Option (Nat × β))
  (hnil : ∀ s number, scan s number [] = none)
  (hcons : ∀ s number line rest, scan s number (line :: rest) =
    match step s line with
    | .inl b => some (number, b)
    | .inr s => scan s (number + 1) rest)
  {s : σ} {number index : Nat} {b : β} {first rest : List Text}

include hnil hcons

theorem le_of_scan (h : scan s number rest = some (index, b)) : number ≤ index := by
  induction rest generalizing s number with
  | nil =>
    rw [hnil] at h
    cases h
  | cons line rest ih =>
    rw [hcons] at h
    split at h
    · cases h
      exact le_rfl
    · exact (Nat.le_succ number).trans (ih h)

/-- **What a scan finds among the first lines** it finds there whatever is behind them. -/
theorem scan_of_first (h : scan s number (first ++ rest) = some (index, b)) (hlt : index < number + first.length)
    (rest' : List Text) : scan s number (first ++ rest') = some (index, b) := by
  induction first generalizing s number with
  | nil => exact absurd (le_of_scan step scan hnil hcons h) (Nat.not_le.mpr hlt)
  | cons line first ih =>
    rw [List.cons_append, hcons] at h ⊢
    rw [List.length_cons] at hlt
    split at h
    · exact h
    · exact ih h (by omega)

end Scan

section First

variable {first rest : List Text} {listEnd index length : Nat}

theorem findLine?_of_first {test : Text → Bool} {start : Nat} {line : Text}
    (h : findLine? test start (first ++ rest) = some (index, line)) (hlt : index < start + first.length)
    (rest' : List Text) : findLine? test start (first ++ rest') = some (index, line) := by
  refine scan_of_first (fun (_ : Unit) line => if test line then .inl line else .inr ()) (fun _ => findLine? test)
    (fun _ _ => rfl) (fun _ number line rest => ?_) (s := ()) h hlt rest'
  rw [findLine?]
  split <;> rfl

theorem AttributeList.extract_of_first {items : List Text} (h : extract (first ++ rest) = .ok (listEnd, items))
    (hlt : listEnd < first.length) (rest' : List Text) : extract (first ++ rest') = .ok (listEnd, items) := by
  cases first with
  | nil => cases hlt
  | cons line first =>
    rw [List.cons_append, extract] at h ⊢
    split at h
    · cases h
    · split at h
      · exact h
      · next o hscan =>
        split at h
        · next index body hlines =>
          cases h
          rw [List.length_cons, Nat.add_comm] at hlt
          have hlines' := scan_of_first scanNext scanLines (fun _ _ => rfl) (fun o number line rest => by
            rw [scanLines, scanNext]
            cases scanLine _ line <;> rfl) hlines hlt rest'
          rw [hlines']
        · cases h

theorem signature?_of_first {signature : Text} (h : signature? (first ++ rest) = some (length, signature))
    (hlt : length < first.length) (rest' : List Text) : signature? (first ++ rest') = some (length, signature) := by
  cases first with
  | nil => cases hlt
  | cons line first =>
    rw [List.cons_append, signature?] at h ⊢
    split at h
    · exact h
    · next s hline =>
      rw [List.length_cons, Nat.add_comm] at hlt
      exact scan_of_first SignatureScan.readNext SignatureScan.readLines (fun _ _ => rfl) (fun s number line rest => by
        rw [SignatureScan.readLines, SignatureScan.readNext]
        cases SignatureScan.readLine _ line.trim <;> rfl) h hlt rest'

end First

/-! ## §2 Up to a marked line -/

section UpTo

variable {marker : Marker} {lines items : List Text} {listEnd index : Nat} {line : Text}

theorem AttributeList.endOf_of_extract (h : extract lines = .ok (listEnd, items)) : endOf lines = listEnd := by
  rw [endOf, h]

theorem lineBehind_of_declaration? (h : AttributeList.extract lines = .ok (listEnd, items))
    (hfound : marker.declaration? listEnd lines = some (index, line)) :
    lineBehind marker.declarationTest lines = index := by
  have hlist : attributesAt marker lines = .ok (listEnd, items) := attributesAt_eq_ok_iff.mpr h
  exact lineBehind_of_findLine? hlist hfound

theorem Marker.listLength_of_hasList (h : marker.hasList = true) (lines : List Text) :
    marker.listLength lines = AttributeList.endOf lines := by
  cases marker <;> first | rfl | cases h

/-- The line of a declaration is one of those that a marker takes. -/
theorem Marker.lineBehind_le_span (h : marker.declares = true) (lines : List Text) :
    lineBehind marker.declarationTest lines ≤ marker.span lines := by
  cases marker with
  | modelOverrides => cases h
  | renderOverrides => cases h
  | package => cases h
  | constructor =>
    rw [span]
    split
    · exact Nat.le_add_right _ _
    · exact le_rfl
  | _ => exact le_rfl

/-- A marker that takes no more than the first lines finds the same whatever is behind them. -/
theorem Marker.moves_of_first {move : Nat → Nat} {number : Nat} (first : List Text) {rest : List Text}
    (hspan : marker.span (first ++ rest) < first.length)
    (hmove : ∀ k, k ≤ number + marker.span (first ++ rest) → move k = k) (rest' : List Text) :
    marker.Moves move number 0 (first ++ rest) (first ++ rest') := by
  constructor
  case list =>
    intro hlist found hextract
    have hle := marker.listLength_le_span (first ++ rest)
    rw [listLength_of_hasList hlist, AttributeList.endOf_of_extract hextract] at hle
    exact AttributeList.extract_of_first hextract (by omega) rest'
  case declaration =>
    intro hdeclares listEnd items index line hextract hfound
    have hle := lineBehind_le_span hdeclares (first ++ rest)
    rw [lineBehind_of_declaration? hextract hfound] at hle
    have hlt := le_of_findLine? hfound
    refine ⟨?_, ?_, ?_⟩
    · unfold Marker.declaration? at hfound ⊢
      rw [List.drop_append_of_le_length (by omega)] at hfound ⊢
      exact findLine?_of_first hfound (by rw [List.length_drop]; omega) rest'
    · rw [hmove _ (by omega), hmove _ (by omega)]
      rfl
    · intro hconstructor found hsignature
      subst hconstructor
      -- a constructor takes the lines of its signature as well
      have hfirst : lineBehind (!isIdleLine ·) (first ++ rest) = index := lineBehind_of_declaration? hextract hfound
      rw [span, hfirst, hsignature] at hspan
      dsimp only at hspan
      rw [List.drop_append_of_le_length (by omega)] at hsignature ⊢
      exact signature?_of_first hsignature (by rw [List.length_drop]; omega) rest'
  case other =>
    intro _
    rfl

end UpTo

namespace HeaderReading

variable {r after : HeaderReading} {s : MarkedLine} {taken number kept : Nat} {first : List Text}
  (move : Nat → Nat)

/-- **What is read before a marked line does not depend on what is behind it.** Neither does it matter whether numbers of
lines behind it are moved. -/
theorem readFrom_up_to (h : r.readFrom taken number (first ++ s.lines) = (after, none))
    (hs : s ∈ markedFrom taken number (first ++ s.lines)) (hnumber : number + first.length = s.number)
    (hmove : ∀ k, k < s.number → move k = k) (hkept : kept ≤ r.module.entries.length) :
    ∃ middle : HeaderReading, kept ≤ middle.module.entries.length ∧
      middle.readFrom 0 s.number s.lines = (after, none) ∧
      ∀ rest, (r.moved move kept).readFrom taken number (first ++ rest) =
          (middle.moved move kept).readFrom 0 s.number rest ∧
        markedFrom 0 s.number rest <:+ markedFrom taken number (first ++ rest) := by
  induction first generalizing r taken number with
  | nil =>
    -- nothing is carried into a marked line
    have hle := (markedFrom_places hs).2
    rw [List.length_nil, Nat.add_zero] at hnumber
    obtain rfl : taken = 0 := by omega
    rw [hnumber] at h ⊢
    exact ⟨r, hkept, h, fun rest => ⟨rfl, List.suffix_rfl⟩⟩
  | cons line first ih =>
    rw [List.length_cons] at hnumber
    have hnext : number + 1 + first.length = s.number := by omega
    cases taken with
    | succ taken => exact ih h hs hnext hkept
    | zero =>
      cases hmarker : Marker.ofLine? line with
      | none =>
        rw [List.cons_append, readFrom, hmarker] at h
        rw [List.cons_append, markedFrom, hmarker] at hs
        obtain ⟨middle, hentries, hmiddle, hrest⟩ := ih h hs hnext hkept
        refine ⟨middle, hentries, hmiddle, fun rest => ?_⟩
        rw [List.cons_append, readFrom, markedFrom, hmarker]
        exact hrest rest
      | some marker =>
        rw [List.cons_append] at h hs
        obtain ⟨next, taken, htakes, h⟩ := exists_takes hmarker h
        have hspan := htakes.span
        rw [markedFrom, hmarker] at hs
        have hs : s ∈ markedFrom taken (number + 1) (first ++ s.lines) := by
          rw [← hspan]
          rcases List.mem_cons.mp hs with hfirst | hs
          · have := congrArg MarkedLine.number hfirst
            dsimp only at this
            omega
          · exact hs
        obtain ⟨middle, hentries, hmiddle, hrest⟩ := ih h hs hnext (hkept.trans htakes.entries_le)
        refine ⟨middle, hentries, hmiddle, fun rest => ?_⟩
        -- the marker ends before the marked line
        have hle := (markedFrom_places hs).2
        have hmoves : marker.Moves move number 0 (line :: (first ++ s.lines)) (line :: (first ++ rest)) := by
          refine Marker.moves_of_first (line :: first) ?_ (fun k hk => hmove k ?_) rest
          · rw [List.cons_append, hspan, List.length_cons]
            omega
          · rw [List.cons_append, hspan] at hk
            omega
        have htakes' := htakes.moved hmoves hkept
        rw [hmove number (by omega), Nat.add_zero] at htakes'
        obtain ⟨hreading, hmarked⟩ := hrest rest
        constructor
        · rw [List.cons_append, htakes'.readFrom hmarker, hreading]
        · rw [List.cons_append, markedFrom, hmarker]
          dsimp only
          rw [htakes'.span]
          exact hmarked.trans (List.suffix_cons _ _)

end HeaderReading

/-! ## §3 The lines of functions -/

/-- The number of the line on which the list of a marker ends. -/
def MarkedLine.lastListLine (s : MarkedLine) : Nat := s.number + AttributeList.endOf s.lines

/-- The number of the line that a marker takes for its declaration. -/
def MarkedLine.declarationLine (s : MarkedLine) : Nat := s.number + lineBehind s.marker.declarationTest s.lines

/-- The numbers of the lines on which some types have functions. -/
def functionLines (ds : List Declaration) : List Nat := ds.flatMap fun d => d.functions.map (·.line)

theorem functionLines_append (ds es : List Declaration) :
    functionLines (ds ++ es) = functionLines ds ++ functionLines es :=
  List.flatMap_append

theorem functionLines_moved (move : Nat → Nat) (ds : List Declaration) :
    functionLines (ds.map (Declaration.moved move)) = (functionLines ds).map move := by
  simp [functionLines, List.flatMap_map, List.map_flatMap, Declaration.moved, MemberFunction.moved, Function.comp_def]

theorem Declaration.Fresh.functionLines {kind : Kind} {d : Declaration} (h : d.Fresh kind) :
    HeaderReflection.functionLines [d] = [] := by
  have hfunctions : d.functions = [] := congrArg (fun members => members.2.1) h.members
  simp [HeaderReflection.functionLines, hfunctions]

/-- A function is on the line of its declaration. -/
theorem readFunction_line {number index : Nat} {lines : List Text} {declared : MemberFunction}
    (h : readFunction number lines = .ok (index, declared)) :
    MarkedLine.declarationLine ⟨.function, number, lines⟩ = declared.line := by
  have hindex : lineBehind Marker.function.declarationTest lines = index := readFunction_ok h
  rw [MarkedLine.declarationLine, hindex]
  obtain ⟨list, -, h⟩ := bind_ok h
  dsimp only at h
  split at h
  · cases h
  · split at h
    · cases h
    · cases h
      rfl

namespace HeaderReading

variable {r after : HeaderReading}

/-- The numbers of the lines on which a reading has functions so far. -/
def functionLines (r : HeaderReading) : List Nat := HeaderReflection.functionLines (r.externals ++ r.opened)

theorem functionLines_eq (r : HeaderReading) :
    r.functionLines = HeaderReflection.functionLines r.externals ++
      (HeaderReflection.functionLines r.openClass.toList ++ HeaderReflection.functionLines r.openStruct.toList) := by
  rw [functionLines, opened, functionLines_append, functionLines_append]

/-- **A marker of a function adds the line of its declaration**, and no other marker adds one. -/
theorem Takes.functionLines {s : MarkedLine} {taken : Nat} (h : r.Takes s.number s.lines s.marker after taken)
    (line : Nat) :
    line ∈ after.functionLines ↔ line ∈ r.functionLines ∨ s.marker = .function ∧ s.declarationLine = line := by
  obtain ⟨marker, number, lines⟩ := s
  have hnone : HeaderReflection.functionLines [] = [] := rfl
  have hmore : ∀ (outer : Declaration) (declared : MemberFunction),
      HeaderReflection.functionLines [{ outer with functions := outer.functions ++ [declared] }] =
        HeaderReflection.functionLines [outer] ++ [declared.line] := by
    simp [HeaderReflection.functionLines]
  -- each marker changes at most one of three parts: the external types, the open class, the open struct
  simp only [functionLines_eq]
  cases h with
  | modelOverrides => simp
  | renderOverrides => simp
  | package first list metadata => simp
  | externalType read => simp [functionLines_append, (readExternal_ok read).2.functionLines]
  | classType closed read => simp [closed, hnone, (readType_ok read).2.functionLines]
  | structType closed read => simp [closed, hnone, (readType_ok read).2.functionLines]
  | property opened read => simp [opened, HeaderReflection.functionLines]
  | constructor opened read => simp [opened, HeaderReflection.functionLines]
  | functionOfClass latest opened read =>
    simp only [opened, Option.toList_some, hmore, List.mem_append, List.mem_singleton, readFunction_line read, eq_comm]
    tauto
  | functionOfStruct latest opened read =>
    simp only [opened, Option.toList_some, hmore, List.mem_append, List.mem_singleton, readFunction_line read, eq_comm]
    tauto

theorem functionLines_readMarked {marked : List MarkedLine} (h : r.readMarked marked = (after, none)) (line : Nat) :
    line ∈ after.functionLines ↔
      line ∈ r.functionLines ∨ ∃ s ∈ marked, s.marker = .function ∧ s.declarationLine = line := by
  induction marked generalizing r with
  | nil =>
    cases h
    simp
  | cons s marked ih =>
    rw [readMarked] at h
    split at h
    · next next taken hdispatch =>
      rw [ih h, (takes_of_dispatch hdispatch).functionLines line, List.exists_mem_cons_iff, or_assoc]
    · cases h

end HeaderReading

/-- **On which lines the functions of a header are**: where its markers of functions find their declarations. -/
theorem mem_functionLines_iff {m : Module} {path text : Text} (h : (m.readHeader path text).error = none) (line : Nat) :
    line ∈ functionLines (m.readHeader path text).declared ↔
      ∃ s ∈ Header.marked text, s.marker = .function ∧ s.declarationLine = line := by
  obtain ⟨after, hread, houtcome⟩ := Module.exists_read_of_ok h
  rw [houtcome]
  have hlines := HeaderReading.functionLines_readMarked hread line
  have hstart : HeaderReading.functionLines { module := m, includePath := includePathOf path } = [] := rfl
  rw [hstart] at hlines
  exact hlines.trans (by simp)

/-! ## §4 Insertions -/

/-- The last lines are the first ones with the second ones inserted among them. -/
inductive Interleaved : List Text → List Text → List Text → Prop where
  | nil : Interleaved [] [] []
  | keep (line : Text) {kept inserted widened : List Text} (rest : Interleaved kept inserted widened) :
      Interleaved (line :: kept) inserted (line :: widened)
  | insert (line : Text) {kept inserted widened : List Text} (rest : Interleaved kept inserted widened) :
      Interleaved kept (line :: inserted) (line :: widened)

theorem Interleaved.perm {kept inserted widened : List Text} (h : Interleaved kept inserted widened) :
    widened.Perm (kept ++ inserted) := by
  induction h with
  | nil => exact .nil
  | keep line rest ih => exact ih.cons line
  | insert line rest ih => exact (ih.cons line).trans List.perm_middle.symm

/-- Blank lines and comments that are inserted between the list of a marker and its declaration. -/
structure Insertion (s : MarkedLine) where
  /-- The lines of the header up to the end of the list. -/
  before : List Text
  /-- The lines between the list and the declaration. -/
  gap : List Text
  /-- The lines of the header from the declaration on. -/
  behind : List Text
  /-- The lines that are inserted. -/
  inserted : List Text
  /-- The lines between the list and the declaration, together with those that are inserted. -/
  widened : List Text
  length_before : before.length = s.lastListLine
  length_gap : before.length + gap.length + 1 = s.declarationLine
  interleaved : Interleaved gap inserted widened
  idle : ∀ line ∈ inserted, isIdleLine line = true

section Found

variable {test : Text → Bool} {start index : Nat} {line : Text} {first rest : List Text}

/-- A search finds a line behind the first ones exactly when none of these passes. -/
theorem findLine?_append_iff (hle : start + first.length ≤ index) :
    findLine? test start (first ++ rest) = some (index, line) ↔
      (∀ candidate ∈ first, test candidate = false) ∧
        findLine? test (start + first.length) rest = some (index, line) := by
  induction first generalizing start with
  | nil => simp
  | cons candidate first ih =>
    rw [List.length_cons] at hle ⊢
    rw [List.cons_append, findLine?, List.forall_mem_cons]
    split
    · next hpasses =>
      have hne : start ≠ index := by omega
      simp [hpasses, hne]
    · next hfails =>
      rw [Bool.not_eq_true] at hfails
      rw [ih (by omega), hfails, Nat.add_assoc, Nat.add_comm 1]
      simp

/-- A search finds one of the first lines when one of them passes. -/
theorem exists_findLine?_of_mem (start : Nat) (rest : List Text) {candidate : Text} (hmem : candidate ∈ first)
    (hpasses : test candidate = true) :
    ∃ index line, findLine? test start (first ++ rest) = some (index, line) ∧ index < start + first.length := by
  induction first generalizing start with
  | nil => cases hmem
  | cons other first ih =>
    rw [List.length_cons, List.cons_append, findLine?]
    split
    · exact ⟨start, other, rfl, by omega⟩
    · next hfails =>
      rcases List.mem_cons.mp hmem with rfl | hmem
      · exact absurd hpasses hfails
      · obtain ⟨index, line, hfound, hlt⟩ := ih (start + 1) hmem
        exact ⟨index, line, hfound, by omega⟩

end Found

/-- A marker finds its declaration farther away when lines are inserted that do not pass for one. -/
theorem Marker.moves_of_widened {marker : Marker} (hdeclares : marker.declares = true) {move : Nat → Nat}
    {number count : Nat} {list gap widened behind : List Text}
    (hlist : list.length = AttributeList.endOf (list ++ (gap ++ behind)) + 1)
    (hgap : list.length + gap.length = lineBehind marker.declarationTest (list ++ (gap ++ behind)))
    (hwidened : ∀ line ∈ widened, line ∈ gap ∨ marker.declarationTest line = false)
    (hcount : widened.length = gap.length + count)
    (hmove : move (number + (list.length + gap.length)) = move number + (list.length + gap.length + count)) :
    marker.Moves move number count (list ++ (gap ++ behind)) (list ++ (widened ++ behind)) := by
  constructor
  case list =>
    intro _ found hextract
    rw [AttributeList.endOf_of_extract hextract] at hlist
    exact AttributeList.extract_of_first hextract (by omega) _
  case declaration =>
    intro _ listEnd items index line hextract hfound
    rw [AttributeList.endOf_of_extract hextract] at hlist
    rw [lineBehind_of_declaration? hextract hfound] at hgap
    subst hgap
    -- what is found stands right behind the gap
    unfold Marker.declaration? at hfound ⊢
    rw [← hlist, List.drop_left] at hfound ⊢
    obtain ⟨hfails, hbehind⟩ := (findLine?_append_iff le_rfl).mp hfound
    refine ⟨?_, hmove, ?_⟩
    · rw [Nat.add_assoc, ← hcount]
      refine (findLine?_append_iff le_rfl).mpr ⟨fun line hline => (hwidened line hline).elim (hfails line) id, ?_⟩
      rw [findLine?_start] at hbehind ⊢
      obtain ⟨⟨distance, found⟩, hfirst, hplace⟩ := Option.map_eq_some_iff.mp hbehind
      obtain ⟨hdistance, rfl⟩ : distance = 0 ∧ found = line := by simpa using hplace
      rw [hfirst, hdistance]
      rfl
    · intro _ found hsignature
      rw [Nat.add_assoc, ← hcount, ← List.length_append, ← List.append_assoc, List.drop_left]
      rwa [← List.length_append, ← List.append_assoc, List.drop_left] at hsignature
  case other =>
    intro h
    rw [hdeclares] at h
    cases h

/-- **A marker with its declaration farther away**, and all lines behind it. -/
theorem HeaderReading.readFrom_widened {r after : HeaderReading} {marker : Marker} {line : Text}
    (hmarker : Marker.ofLine? line = some marker) {move : Nat → Nat} {number count kept : Nat}
    {list gap widened behind : List Text} (hcount : widened.length = gap.length + count)
    (h : r.readFrom 0 number (line :: (list ++ (gap ++ behind))) = (after, none))
    (hmoves : marker.Moves move number count (line :: (list ++ (gap ++ behind))) (line :: (list ++ (widened ++ behind))))
    (hspan : list.length + gap.length ≤ marker.span (line :: (list ++ (gap ++ behind))))
    (hbefore : move number = number) (hbehind : ∀ k, number + 1 + (list ++ gap).length ≤ k → move k = k + count)
    (hkept : kept ≤ r.module.entries.length) :
    (r.moved move kept).readFrom 0 number (line :: (list ++ (widened ++ behind))) = (after.moved move kept, none) := by
  obtain ⟨next, taken, htakes, hnext⟩ := exists_takes hmarker h
  have htakes' := htakes.moved hmoves hkept
  rw [hbefore] at htakes'
  -- what the marker takes ends behind the gap
  rw [htakes.span, ← List.length_append] at hspan
  obtain ⟨left, rfl⟩ := Nat.exists_eq_add_of_le hspan
  have hskip : (list ++ gap).length + left + count = (list ++ widened).length + left := by
    simp only [List.length_append]
    omega
  rw [htakes'.readFrom hmarker, hskip, ← List.append_assoc, readFrom_skip]
  rw [← List.append_assoc, readFrom_skip] at hnext
  -- behind it, all lines have other numbers
  rw [← readFrom_moved hnext hbehind (hkept.trans htakes.entries_le)]
  congr 1
  simp only [List.length_append]
  omega

/-- Of two marked lines, one ends before the other. -/
theorem apart_of_mem {taken number : Nat} {lines : List Text} {s t : MarkedLine} (hs : s ∈ markedFrom taken number lines)
    (ht : t ∈ markedFrom taken number lines) :
    s = t ∨ s.number + s.marker.span s.lines < t.number ∨ t.number + t.marker.span t.lines < s.number := by
  have hpairs := pairwise_markedFrom taken number lines
  refine List.Pairwise.forall_of_forall_of_flip (R := fun s t : MarkedLine => s = t ∨
    s.number + s.marker.span s.lines < t.number ∨ t.number + t.marker.span t.lines < s.number) ?_ ?_ ?_ hs ht
  · exact fun _ _ => Or.inl rfl
  · exact hpairs.imp fun h => Or.inr (Or.inl h)
  · exact hpairs.imp fun h => Or.inr (Or.inr h)

namespace Insertion

variable {s : MarkedLine} (i : Insertion s)

/-- The lines of the header without what is inserted. -/
def lines : List Text := i.before ++ (i.gap ++ i.behind)

/-- The lines of the header with what is inserted. -/
def widenedLines : List Text := i.before ++ (i.widened ++ i.behind)

/-- The line numbers behind the list go up by the number of lines that are inserted. -/
def move (number : Nat) : Nat := if number ≤ i.before.length then number else number + i.inserted.length

variable {i}

theorem move_of_le {number : Nat} (h : number ≤ i.before.length) : i.move number = number := if_pos h

theorem move_of_lt {number : Nat} (h : i.before.length < number) : i.move number = number + i.inserted.length :=
  if_neg (Nat.not_le.mpr h)

theorem length_widened : i.widened.length = i.gap.length + i.inserted.length := by
  rw [i.interleaved.perm.length_eq, List.length_append]

/-- Of the lines that are inserted, those of types, properties and constructors never pass for a declaration. -/
theorem inserted_fails_iff :
    (∀ line ∈ i.inserted, s.marker.declarationTest line = false) ↔
      (s.marker = .function → ∀ line ∈ i.inserted, Text.byte '(' ∉ line) := by
  by_cases hfunction : s.marker = .function
  · simp [hfunction, Marker.declarationTest]
  · have htest : s.marker.declarationTest = (!isIdleLine ·) := by
      cases hmarker : s.marker <;> first | rfl | exact absurd hmarker hfunction
    simpa [hfunction, htest] using i.idle

/-- The lines of a marker are its own, the others of its list, those of the gap and what is behind. -/
theorem exists_list (hlies : s.LiesIn 1 i.lines) :
    ∃ first line list, i.before = first ++ line :: list ∧ 1 + first.length = s.number ∧
      Marker.ofLine? line = some s.marker ∧ s.lines = line :: (list ++ (i.gap ++ i.behind)) ∧
      list.length = AttributeList.endOf s.lines := by
  have hle := hlies.le
  have hlength : i.before.length = s.number + AttributeList.endOf s.lines := i.length_before
  have hlines : s.lines = i.before.drop (s.number - 1) ++ (i.gap ++ i.behind) := by
    rw [hlies.rest, lines, List.drop_append_of_le_length (by omega)]
  obtain ⟨opening, rest, hopening, hmarker⟩ := hlies.opens
  cases hlist : i.before.drop (s.number - 1) with
  | nil =>
    -- the line of the marker is one of them
    have hshort := List.drop_eq_nil_iff.mp hlist
    omega
  | cons line list =>
    rw [hlist, List.cons_append] at hlines
    obtain ⟨rfl, -⟩ := List.cons.inj (hopening.symm.trans hlines)
    refine ⟨i.before.take (s.number - 1), opening, list, ?_, ?_, hmarker, hlines, ?_⟩
    · rw [← hlist, List.take_append_drop]
    · rw [List.length_take_of_le (by omega)]
      omega
    · have hrest := congrArg List.length hlist
      rw [List.length_drop, List.length_cons] at hrest
      omega

variable {r after : HeaderReading} {kept : Nat}

/-- **Lines with others inserted that do not pass for the declaration** are read alike. -/
theorem readFrom_widened (hs : s ∈ markedFrom 0 1 i.lines) (hdeclares : s.marker.declares = true)
    (hinserted : ∀ line ∈ i.inserted, s.marker.declarationTest line = false)
    (h : r.readFrom 0 1 i.lines = (after, none)) (hkept : kept ≤ r.module.entries.length) :
    (r.moved i.move kept).readFrom 0 1 i.widenedLines = (after.moved i.move kept, none) := by
  obtain ⟨first, line, list, hbefore, hfirst, hmarker, hlines, hlist⟩ := i.exists_list (markedFrom_places hs).1
  have hlength := congrArg List.length hbefore
  rw [List.length_append, List.length_cons] at hlength
  have hgap : list.length + 1 + i.gap.length = lineBehind s.marker.declarationTest s.lines := by
    have hgap := i.length_gap
    rw [MarkedLine.declarationLine] at hgap
    omega
  have hspan := s.marker.lineBehind_le_span hdeclares s.lines
  -- up to the marker nothing is changed
  have hsplit : i.lines = first ++ s.lines := by
    rw [lines, hbefore, hlines, List.append_assoc, List.cons_append]
  rw [hsplit] at h hs
  obtain ⟨middle, hentries, hmiddle, hrest⟩ :=
    HeaderReading.readFrom_up_to i.move h hs hfirst (fun k hk => move_of_le (by omega)) hkept
  rw [widenedLines, hbefore, List.append_assoc, List.cons_append, (hrest _).1]
  -- the marker finds its declaration behind what is inserted
  rw [hlines] at hmiddle hlist hgap hspan
  refine HeaderReading.readFrom_widened hmarker i.length_widened hmiddle ?_ (by omega) (move_of_le (by omega))
    (fun k hk => move_of_lt (by rw [List.length_append] at hk; omega)) hentries
  have hlist : (line :: list).length = AttributeList.endOf (line :: list ++ (i.gap ++ i.behind)) + 1 :=
    congrArg Nat.succ hlist
  refine Marker.moves_of_widened hdeclares hlist hgap (fun line hline => ?_) i.length_widened ?_
  · rcases List.mem_append.mp (i.interleaved.perm.mem_iff.mp hline) with hgap | hnew
    · exact Or.inl hgap
    · exact Or.inr (hinserted line hnew)
  · rw [List.length_cons, move_of_lt (by omega), move_of_le (by omega)]
    omega

/-- **A comment with a parenthesis is taken for the function**: the marker finds its declaration among the lines that
are inserted. -/
theorem exists_inside (h : r.readFrom 0 1 i.lines = (after, none)) (hs : s ∈ markedFrom 0 1 i.lines)
    (hfunction : s.marker = .function) (hwell : s.marker.WellFormed s.lines) {comment : Text}
    (hcomment : comment ∈ i.inserted) (hparenthesis : Text.byte '(' ∈ comment) :
    ∃ t ∈ markedFrom 0 1 i.widenedLines, t.marker = .function ∧ i.before.length < t.declarationLine ∧
      t.declarationLine ≤ i.before.length + i.widened.length := by
  obtain ⟨first, line, list, hbefore, hfirst, hmarker, hlines, hlist⟩ := i.exists_list (markedFrom_places hs).1
  have hlength := congrArg List.length hbefore
  rw [List.length_append, List.length_cons] at hlength
  have hsplit : i.lines = first ++ s.lines := by
    rw [lines, hbefore, hlines, List.append_assoc, List.cons_append]
  rw [hsplit] at h hs
  obtain ⟨middle, -, -, hrest⟩ :=
    HeaderReading.readFrom_up_to id h hs hfirst (fun _ _ => rfl) (Nat.zero_le r.module.entries.length)
  refine ⟨⟨s.marker, s.number, line :: (list ++ (i.widened ++ i.behind))⟩, ?_, hfunction, ?_⟩
  · rw [widenedLines, hbefore, List.append_assoc, List.cons_append]
    refine (hrest _).2.subset ?_
    rw [markedFrom, hmarker]
    exact List.mem_cons_self
  · -- the list is the same, and the comment is the first that passes, if no line before it does
    rw [hfunction] at hwell
    obtain ⟨listEnd, items, -, -, -, hattributes, -, -⟩ := hwell
    have hextract := attributesAt_eq_ok_iff.mp hattributes
    rw [AttributeList.endOf_of_extract hextract] at hlist
    rw [hlines, ← List.cons_append] at hextract
    have hextract' := AttributeList.extract_of_first hextract (by rw [List.length_cons]; omega) (i.widened ++ i.behind)
    have hwidened : comment ∈ i.widened := i.interleaved.perm.mem_iff.mpr (List.mem_append_right _ hcomment)
    have hpasses : s.marker.declarationTest comment = true := by
      simp [hfunction, Marker.declarationTest, hparenthesis]
    obtain ⟨index, found, hfound, hlt⟩ := exists_findLine?_of_mem (listEnd + 1) i.behind hwidened hpasses
    have hle := le_of_findLine? hfound
    have hfound' : s.marker.declaration? listEnd (line :: list ++ (i.widened ++ i.behind)) = some (index, found) := by
      rw [Marker.declaration?, ← hlist, ← List.length_cons (a := line), List.drop_left, List.length_cons, hlist]
      exact hfound
    rw [MarkedLine.declarationLine, ← List.cons_append, lineBehind_of_declaration? hextract' hfound']
    dsimp only
    omega

/-- The declaration of a marker is not on one of the lines that are inserted. -/
theorem move_declarationLine (hs : s ∈ markedFrom 0 1 i.lines) (hdeclares : s.marker.declares = true) {t : MarkedLine}
    (ht : t ∈ markedFrom 0 1 i.lines) (hdeclares' : t.marker.declares = true) :
    i.move t.declarationLine ≤ i.before.length ∨ i.before.length + i.widened.length < i.move t.declarationLine := by
  have hbefore : i.before.length = s.number + AttributeList.endOf s.lines := i.length_before
  have hgap := i.length_gap
  have hwidened := i.length_widened
  have hspan := s.marker.lineBehind_le_span hdeclares s.lines
  have hspan' := t.marker.lineBehind_le_span hdeclares' t.lines
  unfold MarkedLine.declarationLine at hgap ⊢
  rcases apart_of_mem ht hs with rfl | hlt | hlt
  · rw [move_of_lt (by omega)]
    omega
  · rw [move_of_le (by omega)]
    omega
  · rw [move_of_lt (by omega)]
    omega

end Insertion

/-! ## §5 Headers -/

/-- **When blank lines and comments before a declaration do not matter.** Whatever header is read without a fault, and
whichever of its markers declares something: insert any blank lines and comments between the list of the marker and its
declaration. Then the header is read without a fault and declares the same types with the same members and metadata,
with the line numbers behind the list moved, exactly when the marker is not one of a function or no line that is inserted
has an opening parenthesis. -/
theorem readHeader_inserted_iff {m : Module} {path text widened : Text} (h : (m.readHeader path text).error = none)
    {s : MarkedLine} (hs : s ∈ Header.marked text) (hdeclares : s.marker.declares = true) (i : Insertion s)
    (htext : Header.lines text = i.lines) (hwidened : Header.lines widened = i.widenedLines) :
    m.readHeader path widened = (m.readHeader path text).moved i.move m.entries.length ↔
      (s.marker = .function → ∀ line ∈ i.inserted, Text.byte '(' ∉ line) := by
  obtain ⟨after, hmarked, houtcome⟩ := Module.exists_read_of_ok h
  have hread := hmarked
  rw [← HeaderReading.headerReading_eq_readMarked, Module.headerReading, htext] at hread
  have hs' : s ∈ markedFrom 0 1 i.lines := by rwa [Header.marked, htext] at hs
  constructor
  · intro hsame hfunction comment hcomment hparenthesis
    -- the function of the marker would be on a line that is inserted
    have hwell := ((readHeader_ok_iff m path text).mp h).2 s hs
    obtain ⟨t, ht, hmarker, hlt, hle⟩ := Insertion.exists_inside hread hs' hfunction hwell hcomment hparenthesis
    rw [← hwidened] at ht
    have hok : (m.readHeader path widened).error = none := by rw [hsame]; exact h
    have hinside := (mem_functionLines_iff hok t.declarationLine).mpr ⟨t, ht, hmarker, rfl⟩
    rw [hsame] at hinside
    change _ ∈ functionLines ((m.readHeader path text).declared.map (Declaration.moved i.move)) at hinside
    rw [functionLines_moved] at hinside
    obtain ⟨line, hline, hmoved⟩ := List.mem_map.mp hinside
    obtain ⟨u, hu, humarker, rfl⟩ := (mem_functionLines_iff h line).mp hline
    rw [Header.marked, htext] at hu
    rcases i.move_declarationLine hs' hdeclares hu (by rw [humarker]; rfl) with hbefore | hbehind
    · omega
    · omega
  · intro hinserted
    have hread' := i.readFrom_widened hs' hdeclares (i.inserted_fails_iff.mpr hinserted) hread le_rfl
    -- at the start there is nothing to move
    have hstart : HeaderReading.moved i.move m.entries.length { module := m, includePath := includePathOf path } =
        { module := m, includePath := includePathOf path } := by
      simp [HeaderReading.moved, Module.moved_of_kept]
    rw [hstart, ← hwidened] at hread'
    have hkept : m.entries.length ≤ after.module.entries.length := by
      rw [(grown_of_read hmarked).entries, List.length_append]
      exact Nat.le_add_right _ _
    rw [Module.readHeader_of_read hread', houtcome, HeaderReading.outcome_moved hkept]

/-- A comment and a blank line around the first line of a function, which is on two lines. -/
theorem function_behind_comment :
    let m := Module.empty "m" ""
    let text : Text := "AGEA_ar_class()\nclass A\nAGEA_ar_function(\n\"category=c\")\nvoid\nf(int x);\n" ++
      "AGEA_ar_property()\nint y;\n"
    let widened : Text := "AGEA_ar_class()\nclass A\nAGEA_ar_function(\n\"category=c\")\n  // reset\nvoid\n\n" ++
      "f(int x);\nAGEA_ar_property()\nint y;\n"
    (m.readHeader "t.h" text).error = none ∧
    m.readHeader "t.h" widened =
      (m.readHeader "t.h" text).moved (fun number => if number ≤ 4 then number else number + 2) 0 ∧
    (m.readHeader "t.h" text).declared.map (fun d => (d.line, d.functions, d.properties.map (·.line))) =
      [(1, [⟨"f", 6⟩], [8])] ∧
    (m.readHeader "t.h" widened).declared.map (fun d => (d.line, d.functions, d.properties.map (·.line))) =
      [(1, [⟨"f", 8⟩], [10])] := by
  intro m text widened
  let s : MarkedLine := ⟨.function, 3, (Header.lines text).drop 2⟩
  let i : Insertion s := {
    before := (Header.lines text).take 4
    gap := ["void"]
    behind := (Header.lines text).drop 5
    inserted := ["  // reset", ""]
    widened := ["  // reset", "void", ""]
    length_before := by decide +kernel
    length_gap := by decide +kernel
    interleaved := .insert _ (.keep _ (.insert _ .nil))
    idle := by decide +kernel }
  have hread : (m.readHeader "t.h" text).error = none := by decide +kernel
  have hmarked : s ∈ Header.marked text := by decide +kernel
  have htext : Header.lines text = i.lines := by decide +kernel
  have hwidened : Header.lines widened = i.widenedLines := by decide +kernel
  have hsame := (readHeader_inserted_iff hread hmarked rfl i htext hwidened).mpr (fun _ => by decide +kernel)
  exact ⟨hread, hsame, by decide +kernel, by decide +kernel⟩

/-- **A comment that is taken for the declaration of a function.** The function gets a name and a line from the comment,
and no line numbers make the two headers declare the same. -/
theorem function_in_comment :
    let m := Module.empty "m" ""
    let text : Text := "AGEA_ar_class()\nclass A\nAGEA_ar_function()\nvoid f(int x);\n"
    let widened : Text := "AGEA_ar_class()\nclass A\nAGEA_ar_function()\n// calls reset(int)\nvoid f(int x);\n"
    let comment : Text := "// calls reset(int)"
    isIdleLine comment = true ∧
    Header.lines widened = (Header.lines text).take 3 ++ comment :: (Header.lines text).drop 3 ∧
    (m.readHeader "t.h" text).error = none ∧ (m.readHeader "t.h" widened).error = none ∧
    (m.readHeader "t.h" text).declared.map (·.functions) = [[⟨"f", 4⟩]] ∧
    (m.readHeader "t.h" widened).declared.map (·.functions) = [[⟨"reset", 4⟩]] ∧
    ∀ move, m.readHeader "t.h" widened ≠ (m.readHeader "t.h" text).moved move 0 := by
  intro m text widened comment
  have hbefore : (m.readHeader "t.h" text).declared.map (·.functions) = [[⟨"f", 4⟩]] := by decide +kernel
  have hafter : (m.readHeader "t.h" widened).declared.map (·.functions) = [[⟨"reset", 4⟩]] := by decide +kernel
  refine ⟨?_, ?_, ?_, ?_, hbefore, hafter, fun move hsame => ?_⟩
  · decide +kernel
  · decide +kernel
  · decide +kernel
  · decide +kernel
  · -- the names of functions are the same whatever their lines
    have hmoved : ((m.readHeader "t.h" text).moved move 0).declared.map (·.functions) = [[⟨"f", move 4⟩]] := by
      have hmap : ((m.readHeader "t.h" text).moved move 0).declared.map (·.functions) =
          ((m.readHeader "t.h" text).declared.map (·.functions)).map (List.map (MemberFunction.moved move)) := by
        simp [HeaderOutcome.moved, Declaration.moved, Function.comp_def]
      rw [hmap, hbefore]
      rfl
    rw [hsame, hmoved] at hafter
    have hname : ("f" : Text) = "reset" := by
      simp only [List.cons.injEq, MemberFunction.mk.injEq, and_true] at hafter
      exact hafter.1
    exact absurd hname (by decide)

end HeaderReflection
