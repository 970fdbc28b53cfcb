import HeaderReflection.Proofs.Text.Pieces
import HeaderReflection.Text.Blank

/-!
# Words between blanks

What trimming does to texts whose bytes are known well enough, and the names that are nothing but letters, digits and
underscores.

## Main definitions

- `isBlankByte`: the blanks of a single byte.
- `isIdentifier`: a letter or underscore, followed by letters, digits and underscores.

## Main results

- `marks_cons_of_lt`: in front of the bytes above 127, blanks are found byte by byte.
- `trim_spaces_cons`: a line whose first visible byte is known begins with it when it is trimmed.
- `trim_of_isIdentifier`: an identifier has nothing to trim.
-/

namespace HeaderReflection.Text

/-! ## §1 Blanks of a single byte -/

/-- Whether a byte is a blank of its own: tab to carriage return, or the space. -/
def isBlankByte (b : UInt8) : Bool := (9 ≤ b && b ≤ 13) || b = 32

theorem lt_of_isBlankByte {b : UInt8} (h : isBlankByte b = true) : b < 128 := by
  simp only [isBlankByte, Bool.or_eq_true, Bool.and_eq_true, decide_eq_true_eq] at h
  rcases h with ⟨-, hle⟩ | rfl
  · exact UInt8.lt_of_le_of_lt hle (by decide)
  · decide

theorem blankWidth_cons_of_lt {b : UInt8} (h : b < 128) (text : Text) :
    blankWidth (b :: text) = if isBlankByte b then 1 else 0 := by
  have h1 : b ≠ 0xC2 := by rintro rfl; exact absurd h (by decide)
  have h2 : b ≠ 0xE1 := by rintro rfl; exact absurd h (by decide)
  have h3 : b ≠ 0xE2 := by rintro rfl; exact absurd h (by decide)
  have h4 : b ≠ 0xE3 := by rintro rfl; exact absurd h (by decide)
  by_cases hb : isBlankByte b
  · have hcases : b = 9 ∨ b = 10 ∨ b = 11 ∨ b = 12 ∨ b = 13 ∨ b = 32 := by
      simp only [isBlankByte, Bool.or_eq_true, Bool.and_eq_true, decide_eq_true_eq, UInt8.le_iff_toNat_le,
        ← UInt8.toNat_inj] at hb ⊢
      simp at hb ⊢
      omega
    rcases hcases with rfl | rfl | rfl | rfl | rfl | rfl <;>
      simp [blankWidth, blankSpellings, beginsWith, stripPrefix?, List.find?, isBlankByte]
  · have hne : b ≠ 9 ∧ b ≠ 10 ∧ b ≠ 11 ∧ b ≠ 12 ∧ b ≠ 13 ∧ b ≠ 32 := by
      refine ⟨?_, ?_, ?_, ?_, ?_, ?_⟩ <;> rintro rfl <;> exact hb (by decide)
    simp [blankWidth, blankSpellings, beginsWith, stripPrefix?, List.find?, hb, Ne.symm hne.1, Ne.symm hne.2.1,
      Ne.symm hne.2.2.1, Ne.symm hne.2.2.2.1, Ne.symm hne.2.2.2.2.1, Ne.symm hne.2.2.2.2.2, Ne.symm h1, Ne.symm h2,
      Ne.symm h3, Ne.symm h4]

/-- **Blanks byte by byte**: a byte below 128 is a blank of its own or none, whatever follows it. -/
theorem marks_cons_of_lt {b : UInt8} (h : b < 128) (text : Text) :
    marks (b :: text) = (b, isBlankByte b) :: marks text := by
  rw [marks, marksFrom, blankWidth_cons_of_lt h]
  cases isBlankByte b <;> rfl

theorem marks_append_of_lt {before : Text} (h : ∀ b ∈ before, b < 128) (text : Text) :
    marks (before ++ text) = before.map (fun b => (b, isBlankByte b)) ++ marks text := by
  induction before with
  | nil => rfl
  | cons b before ih =>
    rw [List.cons_append, marks_cons_of_lt (h b List.mem_cons_self),
      ih (fun c hc => h c (List.mem_cons_of_mem _ hc))]
    rfl

theorem map_fst_marksFrom (inside : Nat) (text : Text) : (marksFrom inside text).map (·.1) = text := by
  induction text generalizing inside with
  | nil => cases inside <;> rfl
  | cons b text ih =>
    cases inside with
    | succ inside => simp [marksFrom, ih]
    | zero =>
      rw [marksFrom]
      split <;> simp [ih]

@[simp] theorem map_fst_marks (text : Text) : (marks text).map (·.1) = text := map_fst_marksFrom 0 text

/-- A byte that is not marked is no blank. -/
theorem isBlankByte_of_mem_marksFrom {text : Text} {inside : Nat} {b : UInt8} (h : (b, false) ∈ marksFrom inside text) :
    isBlankByte b = false := by
  induction text generalizing inside with
  | nil => cases inside <;> simp [marksFrom] at h
  | cons c text ih =>
    cases inside with
    | succ inside =>
      simp only [marksFrom, List.mem_cons, Prod.mk.injEq, Bool.false_eq_true, and_false, false_or] at h
      exact ih h
    | zero =>
      unfold marksFrom at h
      split at h
      · next hwidth =>
        rcases List.mem_cons.mp h with heq | h
        · -- blanks of one byte are blanks of themselves, whatever follows them
          cases heq
          by_contra hblank
          have hblank : isBlankByte b = true := by simpa using hblank
          rw [blankWidth_cons_of_lt (lt_of_isBlankByte hblank), hblank] at hwidth
          cases hwidth
        · exact ih h
      · simp only [List.mem_cons, Prod.mk.injEq, Bool.false_eq_true, and_false, false_or] at h
        exact ih h

/-! ## §2 Trimming -/

/-- Taking elements off the end keeps a first element that stays. -/
theorem reverse_dropWhile_reverse_cons {α : Type} {p : α → Bool} {a : α} (h : p a = false) (xs : List α) :
    ((a :: xs).reverse.dropWhile p).reverse = a :: (xs.reverse.dropWhile p).reverse := by
  rw [List.reverse_cons, List.dropWhile_append]
  split
  · next hnil =>
    have : xs.reverse.dropWhile p = [] := by simpa using hnil
    simp [h, this]
  · simp

theorem trim_cons_of_visible {b : UInt8} (h : b < 128) (hb : isBlankByte b = false) (text : Text) :
    ∃ rest, trim (b :: text) = b :: rest := by
  have hdrop : (marks (b :: text)).dropWhile (·.2) = (b, false) :: marks text := by
    rw [marks_cons_of_lt h, hb]
    rfl
  refine ⟨(((marks text).reverse.dropWhile (·.2)).reverse).map (·.1), ?_⟩
  rw [trim, hdrop, reverse_dropWhile_reverse_cons rfl]
  rfl

theorem trim_blank_cons {b : UInt8} (h : b < 128) (hb : isBlankByte b = true) (text : Text) :
    trim (b :: text) = trim text := by
  rw [trim, marks_cons_of_lt h, hb]
  rfl

/-- **The first visible byte**: a line that has it after blanks begins with it when it is trimmed. -/
theorem trim_spaces_cons {b : UInt8} (h : b < 128) (hb : isBlankByte b = false) {blanks : Text}
    (hblanks : ∀ c ∈ blanks, c < 128 ∧ isBlankByte c = true) (text : Text) :
    ∃ rest, trim (blanks ++ b :: text) = b :: rest := by
  induction blanks with
  | nil => exact trim_cons_of_visible h hb text
  | cons c blanks ih =>
    have hc := hblanks c List.mem_cons_self
    rw [List.cons_append, trim_blank_cons hc.1 hc.2]
    exact ih (fun d hd => hblanks d (List.mem_cons_of_mem _ hd))

theorem isBlank_of_visible {b : UInt8} (h : b < 128) (hb : isBlankByte b = false) {before text : Text}
    (hbefore : ∀ c ∈ before, c < 128) : isBlank (before ++ b :: text) = false := by
  rw [isBlank, marks_append_of_lt hbefore, marks_cons_of_lt h, hb]
  simp

/-! ## §3 Identifiers -/

/-- Whether a byte may begin an identifier. -/
def isIdentifierStart (b : UInt8) : Bool :=
  (byte 'a' ≤ b && b ≤ byte 'z') || (byte 'A' ≤ b && b ≤ byte 'Z') || b = byte '_'

/-- Whether a byte may stand in an identifier. -/
def isIdentifierByte (b : UInt8) : Bool := isIdentifierStart b || (byte '0' ≤ b && b ≤ byte '9')

/-- Whether a name is an identifier: a letter or underscore, followed by letters, digits and underscores. -/
def isIdentifier : Text → Bool
  | [] => false
  | b :: rest => isIdentifierStart b && rest.all isIdentifierByte

theorem isIdentifierByte_of_isIdentifierStart {b : UInt8} (h : isIdentifierStart b = true) :
    isIdentifierByte b = true := by
  simp [isIdentifierByte, h]

theorem forall_mem_of_isIdentifier {name : Text} (h : isIdentifier name = true) :
    ∀ b ∈ name, isIdentifierByte b = true := by
  cases name with
  | nil => simp [isIdentifier] at h
  | cons b rest =>
    simp only [isIdentifier, Bool.and_eq_true, List.all_eq_true] at h
    intro c hc
    rcases List.mem_cons.mp hc with rfl | hc
    · exact isIdentifierByte_of_isIdentifierStart h.1
    · exact h.2 c hc

theorem ne_nil_of_isIdentifier {name : Text} (h : isIdentifier name = true) : name ≠ [] := by
  rintro rfl
  simp [isIdentifier] at h

/-- The bytes of identifiers lie between the digit `0` and the letter `z`, and the signs among them are left out. -/
theorem identifierByte_bounds {b : UInt8} (h : isIdentifierByte b = true) :
    48 ≤ b.toNat ∧ b.toNat ≤ 122 ∧ b.toNat ≠ 58 ∧ b.toNat ≠ 92 := by
  simp only [isIdentifierByte, isIdentifierStart, Bool.or_eq_true, Bool.and_eq_true, decide_eq_true_eq,
    UInt8.le_iff_toNat_le, ← UInt8.toNat_inj] at h
  have e1 : (byte 'a').toNat = 97 := by decide
  have e2 : (byte 'z').toNat = 122 := by decide
  have e3 : (byte 'A').toNat = 65 := by decide
  have e4 : (byte 'Z').toNat = 90 := by decide
  have e5 : (byte '_').toNat = 95 := by decide
  have e6 : (byte '0').toNat = 48 := by decide
  have e7 : (byte '9').toNat = 57 := by decide
  rw [e1, e2, e3, e4, e5, e6, e7] at h
  omega

theorem lt_of_isIdentifierByte {b : UInt8} (h : isIdentifierByte b = true) : b < 128 := by
  have := identifierByte_bounds h
  rw [UInt8.lt_iff_toNat_lt]
  simp
  omega

theorem isBlankByte_of_isIdentifierByte {b : UInt8} (h : isIdentifierByte b = true) : isBlankByte b = false := by
  have hbounds := identifierByte_bounds h
  rw [← Bool.not_eq_true]
  simp only [isBlankByte, Bool.or_eq_true, Bool.and_eq_true, decide_eq_true_eq, UInt8.le_iff_toNat_le,
    ← UInt8.toNat_inj]
  simp
  omega

/-- A byte that is no letter, digit or underscore is not in an identifier. -/
theorem not_mem_of_isIdentifier {name : Text} (h : isIdentifier name = true) {b : UInt8}
    (hb : isIdentifierByte b = false) : b ∉ name := by
  intro hmem
  rw [forall_mem_of_isIdentifier h b hmem] at hb
  exact Bool.noConfusion hb

/-- An identifier has nothing to trim. -/
theorem trim_of_isIdentifier {name : Text} (h : isIdentifier name = true) : trim name = name := by
  have hbytes := forall_mem_of_isIdentifier h
  have hmarks : marks name = name.map fun b => (b, false) := by
    have hlow := marks_append_of_lt (fun b hb => lt_of_isIdentifierByte (hbytes b hb)) []
    rw [List.append_nil] at hlow
    rw [hlow]
    simp only [marks, marksFrom, List.append_nil]
    exact List.map_congr_left fun b hb => by rw [isBlankByte_of_isIdentifierByte (hbytes b hb)]
  have hkeep : ∀ xs : Text, (xs.map fun b => (b, false)).dropWhile (·.2) = xs.map fun b => (b, false) := by
    intro xs
    cases xs <;> rfl
  rw [trim, hmarks, hkeep, ← List.map_reverse, hkeep]
  simp [Function.comp_def]

end HeaderReflection.Text
