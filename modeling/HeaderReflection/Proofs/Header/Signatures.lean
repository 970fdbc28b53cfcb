import HeaderReflection.Proofs.Header.MemberText

/-!
# Shortest signatures

A signature is read byte by byte and line by line, with a count of the parentheses that may fall below zero. What comes
out is a property of one text, that of all lines trimmed and joined by spaces: the signature is the shortest start of
it that ends with a closing parenthesis, has an opening one, and has as many of the one as of the other. Where the
lines are broken tells only on which of them the signature ends.

## Main definitions

- `IsClosed`: what ends a signature.
- `SignatureScan.ofText`: how far the scan is when it has read a text.
- `joinedLines`: lines trimmed and joined.

## Main results

- `SignatureScan.readLine_cons`: one byte.
- `SignatureScan.readLine_cases`: a text, up to the first byte that ends a signature.
- `SignatureScan.readFrom_joined`: reading lines is reading the joined text.
- `SignatureScan.readFrom_place`: the line on which a signature ends, and that no later line has a part in it.
- `signature_shortest_closed`: a signature is the shortest closed start of the joined text.
-/

namespace HeaderReflection

/-! ## §1 Closed texts -/

/-- What ends a signature: the last byte closes a parenthesis, one has been opened, and there are as many of the one
kind as of the other. -/
structure IsClosed (text : Text) : Prop where
  closing : text.getLast? = some (Text.byte ')')
  opening : Text.byte '(' ∈ text
  balanced : text.count (Text.byte '(') = text.count (Text.byte ')')

instance (text : Text) : Decidable (IsClosed text) :=
  decidable_of_iff (text.getLast? = some (Text.byte ')') ∧ Text.byte '(' ∈ text ∧
      text.count (Text.byte '(') = text.count (Text.byte ')'))
    ⟨fun h => ⟨h.1, h.2.1, h.2.2⟩, fun h => ⟨h.closing, h.opening, h.balanced⟩⟩

theorem IsClosed.ne_nil {text : Text} (h : IsClosed text) : text ≠ [] := by
  rintro rfl
  exact absurd h.opening (by simp)

namespace SignatureScan

/-- How far a signature has been read when the bytes of a text have been taken down. -/
def ofText (text : Text) : SignatureScan where
  taken := text.reverse
  depth := (text.count (Text.byte '(') : Int) - text.count (Text.byte ')')
  opened := text.contains (Text.byte '(')

theorem ofText_nil : ofText [] = {} := rfl

/-- **Which byte closes a text**: a closing parenthesis, with one parenthesis more opened than closed before it. -/
theorem isClosed_concat_iff (text : Text) (b : UInt8) :
    IsClosed (text ++ [b]) ↔ b = Text.byte ')' ∧ (ofText text).opened = true ∧ (ofText text).depth = 1 := by
  have hne : Text.byte ')' ≠ Text.byte '(' := by decide
  have hopened : (ofText text).opened = true ↔ Text.byte '(' ∈ text := List.contains_iff_mem
  have hdepth : (ofText text).depth = 1 ↔ text.count (Text.byte '(') = text.count (Text.byte ')') + 1 := by
    show (text.count (Text.byte '(') : Int) - text.count (Text.byte ')') = 1 ↔ _
    omega
  rw [hopened, hdepth]
  constructor
  · rintro ⟨hclosing, hopening, hbalanced⟩
    obtain rfl : b = Text.byte ')' := by simpa using hclosing
    refine ⟨rfl, by simpa [hne.symm] using hopening, ?_⟩
    simpa [List.count_append, List.count_singleton, hne] using hbalanced
  · rintro ⟨rfl, hopening, hcount⟩
    refine ⟨by simp, by simp [hopening], ?_⟩
    simpa [List.count_append, List.count_singleton, hne] using hcount

/-- What a byte changes: it is taken down, and a parenthesis is counted. -/
theorem ofText_concat (text : Text) (b : UInt8) :
    ofText (text ++ [b]) = {
      taken := b :: (ofText text).taken
      depth := (ofText text).depth + (if b = Text.byte '(' then 1 else 0) - (if b = Text.byte ')' then 1 else 0)
      opened := (ofText text).opened || b = Text.byte '(' } := by
  simp only [ofText, SignatureScan.mk.injEq]
  refine ⟨by simp, ?_, ?_⟩
  · simp only [List.count_append, List.count_singleton, beq_iff_eq]
    split <;> split <;> omega
  · simp [eq_comm (a := b)]

/-- **One byte** either closes what has been read and ends the signature, or is taken down. -/
theorem readLine_cons (text : Text) (b : UInt8) (rest : Text) :
    (ofText text).readLine (b :: rest) =
      if IsClosed (text ++ [b]) then .inl (text ++ [b]) else (ofText (text ++ [b])).readLine rest := by
  have hne : Text.byte ')' ≠ Text.byte '(' := by decide
  have htaken : (b :: (ofText text).taken).reverse = text ++ [b] := by simp [ofText]
  rw [readLine, ofText_concat, htaken]
  simp only [isClosed_concat_iff]
  by_cases hopen : b = Text.byte '('
  · have hclose : b ≠ Text.byte ')' := fun h => hne (h.symm.trans hopen)
    simp [hopen, hne.symm]
  · by_cases hclose : b = Text.byte ')'
    · simp [hclose, hne]
    · simp [hopen, hclose]

/-! ## §2 One text -/

/-- The shortest way to go on from a text, within another one, to a closed text. -/
structure IsFirstClosed (text line piece : Text) : Prop where
  ne_nil : piece ≠ []
  start : piece <+: line
  closed : IsClosed (text ++ piece)
  shortest : ∀ other, other ≠ [] → other <+: line → IsClosed (text ++ other) → piece <+: other

/-- **A text is read** up to the first byte that closes it, or to its end. -/
theorem readLine_cases (text line : Text) :
    (∃ piece, IsFirstClosed text line piece ∧ (ofText text).readLine line = .inl (text ++ piece)) ∨
      (∀ other, other ≠ [] → other <+: line → ¬ IsClosed (text ++ other)) ∧
        (ofText text).readLine line = .inr (ofText (text ++ line)) := by
  induction line generalizing text with
  | nil =>
    refine Or.inr ⟨fun other hne hother => absurd (List.prefix_nil.mp hother) hne, ?_⟩
    rw [List.append_nil]
    rfl
  | cons b rest ih =>
    rw [readLine_cons]
    -- whatever goes on from the text begins with this byte
    have hcons : ∀ other, other ≠ [] → other <+: b :: rest →
        ∃ more, other = b :: more ∧ more <+: rest ∧ text ++ other = text ++ [b] ++ more := by
      intro other hne hother
      rcases List.prefix_cons_iff.mp hother with rfl | ⟨more, rfl, hmore⟩
      · exact absurd rfl hne
      · exact ⟨more, rfl, hmore, by simp⟩
    by_cases hclosed : IsClosed (text ++ [b])
    · rw [if_pos hclosed]
      refine Or.inl ⟨[b], ⟨by simp, by simp, hclosed, ?_⟩, rfl⟩
      intro other hne hother _
      obtain ⟨more, rfl, -, -⟩ := hcons other hne hother
      simp
    · rw [if_neg hclosed]
      rcases ih (text ++ [b]) with ⟨piece, hfirst, hread⟩ | ⟨hnone, hread⟩
      · refine Or.inl ⟨b :: piece, ⟨by simp, ?_, ?_, ?_⟩, by simp [hread]⟩
        · exact (List.prefix_cons_inj b).mpr hfirst.start
        · simpa using hfirst.closed
        · intro other hne hother hclosedOther
          obtain ⟨more, rfl, hmore, heq⟩ := hcons other hne hother
          rw [heq] at hclosedOther
          have hmoreNe : more ≠ [] := by
            rintro rfl
            exact hclosed (by simpa using hclosedOther)
          exact (List.prefix_cons_inj b).mpr (hfirst.shortest more hmoreNe hmore hclosedOther)
      · refine Or.inr ⟨?_, by simp [hread]⟩
        intro other hne hother hclosedOther
        obtain ⟨more, rfl, hmore, heq⟩ := hcons other hne hother
        rw [heq] at hclosedOther
        by_cases hmoreNe : more = []
        · subst hmoreNe
          exact hclosed (by simpa using hclosedOther)
        · exact hnone more hmoreNe hmore hclosedOther

/-! ## §3 Lines -/

end SignatureScan

/-- Lines trimmed and joined by single spaces. -/
def joinedLines (lines : List Text) : Text := Text.joinWith [Text.byte ' '] (lines.map Text.trim)

theorem joinedLines_cons (line : Text) {lines : List Text} (hne : lines ≠ []) :
    joinedLines (line :: lines) = line.trim ++ ([Text.byte ' '] ++ joinedLines lines) := by
  unfold joinedLines
  rw [List.map_cons, Text.joinWith_cons _ _ (by simpa using hne), List.append_assoc]

namespace SignatureScan

/-- **Reading lines is reading the joined text**, apart from the number of the line. -/
theorem readFrom_joined (s : SignatureScan) (index : Nat) (lines : List Text) :
    (s.readFrom index lines).map (·.2) = (s.readLine (joinedLines lines)).getLeft? := by
  induction lines generalizing s index with
  | nil => rfl
  | cons line lines ih =>
    rw [readFrom]
    cases lines with
    | nil =>
      show _ = (s.readLine line.trim).getLeft?
      cases s.readLine line.trim with
      | inl signature => rfl
      | inr next => rfl
    | cons following lines =>
      rw [joinedLines_cons line (by simp), readLine_append]
      cases s.readLine line.trim with
      | inl signature => rfl
      | inr next =>
        dsimp only
        -- the space between two lines is taken down like any other byte
        rw [readLines_eq, ih, readLine_plain (by decide)]

/-- The space between two lines is taken down like any other byte. -/
theorem addAll_space (text : Text) : (ofText text).addAll [Text.byte ' '] = ofText (text ++ [Text.byte ' ']) := by
  have hspace : Text.byte ' ' ≠ Text.byte '(' ∧ Text.byte ' ' ≠ Text.byte ')' := by decide
  rw [ofText_concat]
  simp [addAll, hspace]

/-- **The line on which a signature ends** holds its last byte, and the lines behind it have no part in it. -/
theorem readFrom_place {text : Text} {index n : Nat} {lines : List Text} {signature : Text}
    (h : (ofText text).readFrom index lines = some (n, signature)) :
    ∃ before line after piece, lines = before ++ line :: after ∧ n = index + before.length ∧
      piece ≠ [] ∧ piece <+: line.trim ∧
      signature = text ++ Text.joinWith [Text.byte ' '] (before.map Text.trim ++ [piece]) ∧
      ∀ others, (ofText text).readFrom index (before ++ line :: others) = some (n, signature) := by
  induction lines generalizing text index with
  | nil => cases h
  | cons line lines ih =>
    rw [readFrom] at h
    rcases readLine_cases text line.trim with ⟨piece, hfirst, hread⟩ | ⟨-, hread⟩
    · -- the signature ends on this line
      rw [hread] at h
      cases h
      refine ⟨[], line, lines, piece, rfl, rfl, hfirst.ne_nil, hfirst.start, rfl, fun others => ?_⟩
      rw [List.nil_append, readFrom, hread]
    · -- the line is taken down as a whole, with a space behind it
      rw [hread] at h
      dsimp only at h
      rw [readLines_eq, addAll_space] at h
      obtain ⟨before, last, after, piece, rfl, rfl, hne, hpiece, rfl, hothers⟩ := ih h
      refine ⟨line :: before, last, after, piece, rfl, ?_, hne, hpiece, ?_, fun others => ?_⟩
      · rw [List.length_cons]
        omega
      · rw [List.map_cons, List.cons_append, Text.joinWith_cons _ _ (by simp)]
        simp
      · rw [List.cons_append, readFrom, hread]
        dsimp only
        rw [readLines_eq, addAll_space, hothers]

end SignatureScan

/-! ## §4 The shortest closed start -/

/-- The shortest closed text that another one begins with. -/
structure IsShortestClosed (signature text : Text) : Prop where
  start : signature <+: text
  closed : IsClosed signature
  shortest : ∀ other, other <+: text → IsClosed other → signature.length ≤ other.length

/-- What a text gives is its shortest closed start, if it has a closed start at all. -/
theorem map_signature?_cases (lines : List Text) :
    (∃ signature, IsShortestClosed signature (joinedLines lines) ∧
        (signature? lines).map (·.2) = some signature) ∨
      (∀ other, other <+: joinedLines lines → ¬ IsClosed other) ∧ signature? lines = none := by
  have hjoined := SignatureScan.readFrom_joined (.ofText []) 0 lines
  rw [SignatureScan.ofText_nil, ← SignatureScan.signature?_eq] at hjoined
  rcases SignatureScan.readLine_cases [] (joinedLines lines) with ⟨piece, hfirst, hread⟩ | ⟨hnone, hread⟩
  · rw [SignatureScan.ofText_nil] at hread
    rw [hread] at hjoined
    refine Or.inl ⟨piece, ⟨hfirst.start, hfirst.closed, ?_⟩, hjoined⟩
    intro other hother hclosed
    exact (hfirst.shortest other hclosed.ne_nil hother hclosed).length_le
  · rw [SignatureScan.ofText_nil] at hread
    rw [hread] at hjoined
    refine Or.inr ⟨?_, by simpa using hjoined⟩
    intro other hother hclosed
    exact hnone other hclosed.ne_nil hother hclosed

/-- Lines that agree up to a line behind the start have the same lines from the start up to there. -/
theorem exists_drop_of_take_eq {lines others before after : List Text} {line : Text} {start : Nat}
    (hlines : lines.drop start = before ++ line :: after)
    (hsame : others.take (start + before.length + 1) = lines.take (start + before.length + 1)) :
    ∃ rest, others.drop start = before ++ line :: rest := by
  have htake : (others.drop start).take (before.length + 1) = before ++ [line] := by
    have hdropped := congrArg (List.drop start) hsame
    rw [Nat.add_assoc, ← List.take_drop, ← List.take_drop, hlines, List.append_cons] at hdropped
    rw [hdropped, List.take_left' (by simp)]
  refine ⟨(others.drop start).drop (before.length + 1), ?_⟩
  calc others.drop start
      = (others.drop start).take (before.length + 1) ++ (others.drop start).drop (before.length + 1) :=
        (List.take_append_drop _ _).symm
    _ = before ++ line :: (others.drop start).drop (before.length + 1) := by
        rw [htake, ← List.append_cons]

/-- **A signature is the shortest closed start of its lines.** From any line on, there is a signature exactly if the
trimmed lines, joined by spaces, begin with a closed text. It is then the shortest such text. The line that is reported
is the one that holds its last byte: the signature is made of the lines before it and of a start of that line. No line
behind it has a part in the result: it is the same for any other lines there, and for more or fewer of them. -/
theorem signature_shortest_closed (lines : List Text) (start : Nat) :
    ((∃ found, signature? (lines.drop start) = some found) ↔
      ∃ text, text <+: joinedLines (lines.drop start) ∧ IsClosed text) ∧
    ∀ distance signature, signature? (lines.drop start) = some (distance, signature) →
      IsShortestClosed signature (joinedLines (lines.drop start)) ∧
      (∃ line piece, lines[start + distance]? = some line ∧ piece ≠ [] ∧ piece <+: line.trim ∧
        signature =
          Text.joinWith [Text.byte ' '] (((lines.drop start).take distance).map Text.trim ++ [piece])) ∧
      ∀ others : List Text, others.take (start + distance + 1) = lines.take (start + distance + 1) →
        signature? (others.drop start) = some (distance, signature) := by
  refine ⟨?_, fun distance signature hfound => ⟨?_, ?_⟩⟩
  · rcases map_signature?_cases (lines.drop start) with ⟨signature, hshortest, hfound⟩ | ⟨hnone, hfound⟩
    · obtain ⟨found, hfound, -⟩ := Option.map_eq_some_iff.mp hfound
      exact iff_of_true ⟨found, hfound⟩ ⟨signature, hshortest.start, hshortest.closed⟩
    · refine iff_of_false (by simp [hfound]) ?_
      rintro ⟨text, hstart, hclosed⟩
      exact hnone text hstart hclosed
  · rcases map_signature?_cases (lines.drop start) with ⟨shortest, hshortest, hmap⟩ | ⟨-, hnone⟩
    · rw [hfound] at hmap
      cases hmap
      exact hshortest
    · rw [hnone] at hfound
      cases hfound
  · rw [SignatureScan.signature?_eq, ← SignatureScan.ofText_nil] at hfound
    obtain ⟨before, line, after, piece, hlines, hdistance, hne, hpiece, hsignature, hothers⟩ :=
      SignatureScan.readFrom_place hfound
    rw [Nat.zero_add] at hdistance
    subst hdistance
    refine ⟨⟨line, piece, ?_, hne, hpiece, ?_⟩, ?_⟩
    · rw [← List.getElem?_drop, hlines]
      simp
    · rw [hsignature, hlines]
      simp
    · intro others hsame
      obtain ⟨rest, hrest⟩ := exists_drop_of_take_eq hlines hsame
      rw [hrest, SignatureScan.signature?_eq, ← SignatureScan.ofText_nil]
      exact hothers rest

/-- Lines whose first parenthesis closes nothing, so that the count falls below zero before the first one opens. -/
def strayLines : List Text := ["struct vec3", ")", "\t(f(x) ", "y) g()"]

/-- The parenthesis in front has to be made up for, and no line behind the third one has a part in the result. -/
theorem signature_of_strayLines :
    signature? (strayLines.drop 1) = some (1, Text.ofString ") (f(x)") ∧
      (∀ other, other <+: joinedLines (strayLines.drop 1) → IsClosed other → 7 ≤ other.length) ∧
      ∀ more, signature? ((strayLines.take 3 ++ more).drop 1) = some (1, Text.ofString ") (f(x)") := by
  have hfound : signature? (strayLines.drop 1) = some (1, Text.ofString ") (f(x)") := by decide
  obtain ⟨hshortest, -, hothers⟩ := (signature_shortest_closed strayLines 1).2 1 _ hfound
  refine ⟨hfound, hshortest.shortest, fun more => hothers _ ?_⟩
  rfl

end HeaderReflection
