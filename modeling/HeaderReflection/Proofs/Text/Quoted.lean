import HeaderReflection.Text.Quoted
import Mathlib.Data.List.Basic
import Mathlib.Tactic.SplitIfs

/-!
# Quoted texts stand on one line

Whatever a text holds, its quoted form has no control characters in it: those are written by letters or by hexadecimal
digits.

## Main results

- `codePoint?_spelling`: a code point is spelled by itself or by bytes above 127.
- `visible_of_mem_quoted`: no byte of a quoted text lies below the space.
-/

namespace HeaderReflection.Text

/-! ## §1 Digits -/

theorem exists_digitChar_of_mem_toDigits {c : Char} {base n : Nat} (hbase : 1 < base) (h : c ∈ Nat.toDigits base n) :
    ∃ d < base, c = Nat.digitChar d := by
  induction n using Nat.strongRecOn with
  | ind n ih =>
    rw [Nat.toDigits_eq_if hbase] at h
    split at h
    · next hn => exact ⟨n, hn, List.mem_singleton.mp h⟩
    · next hn =>
      rcases List.mem_append.mp h with h | h
      · exact ih (n / base) (Nat.div_lt_self (by omega) hbase) h
      · exact ⟨n % base, Nat.mod_lt n (by omega), List.mem_singleton.mp h⟩

theorem visible_digitChar : ∀ d : Fin 16, 32 ≤ (Nat.digitChar d.val).toUInt8 := by decide

theorem visible_of_mem_hex {width n : Nat} {b : UInt8} (h : b ∈ hex width n) : 32 ≤ b := by
  rw [hex] at h
  rcases List.mem_append.mp h with h | h
  · rw [List.eq_of_mem_replicate h]
    decide
  · obtain ⟨c, hc, rfl⟩ := List.mem_map.mp h
    obtain ⟨d, hd, rfl⟩ := exists_digitChar_of_mem_toDigits (by decide) hc
    exact visible_digitChar ⟨d, hd⟩

/-! ## §2 Spellings -/

theorem high_of_isContinuation {b : UInt8} (h : isContinuation b = true) : 128 ≤ b := by
  simp only [isContinuation, Bool.and_eq_true, decide_eq_true_eq] at h
  exact h.1

theorem high_of_mayFollowThree {a b : UInt8} (h : mayFollowThree a b = true) : 128 ≤ b := by
  unfold mayFollowThree at h
  split_ifs at h
  · simp only [Bool.and_eq_true, decide_eq_true_eq] at h
    exact UInt8.le_trans (by decide) h.1
  · simp only [Bool.and_eq_true, decide_eq_true_eq] at h
    exact h.1
  · exact high_of_isContinuation h

theorem high_of_mayFollowFour {a b : UInt8} (h : mayFollowFour a b = true) : 128 ≤ b := by
  unfold mayFollowFour at h
  split_ifs at h
  · simp only [Bool.and_eq_true, decide_eq_true_eq] at h
    exact UInt8.le_trans (by decide) h.1
  · simp only [Bool.and_eq_true, decide_eq_true_eq] at h
    exact h.1
  · exact high_of_isContinuation h

/-- **Spellings**: a code point is one byte of its own value, or all its bytes lie above 127. -/
theorem codePoint?_spelling {text : Text} {c width : Nat} (h : codePoint? text = some (c, width)) :
    (∀ b ∈ text.take width, b.toNat = c) ∨ ∀ b ∈ text.take width, 128 ≤ b := by
  cases text with
  | nil => simp [codePoint?] at h
  | cons a rest =>
    unfold codePoint? at h
    dsimp only at h
    split at h
    · obtain ⟨rfl, rfl⟩ := Prod.mk.inj (Option.some.inj h)
      left
      intro b hb
      rw [List.take_succ_cons, List.take_zero, List.mem_singleton] at hb
      rw [hb]
    next hlow =>
    have ha : 128 ≤ a := UInt8.not_lt.mp hlow
    right
    split at h
    -- two bytes
    · split at h
      · split at h
        · next hb =>
          obtain ⟨-, rfl⟩ := Prod.mk.inj (Option.some.inj h)
          simpa using ⟨ha, high_of_isContinuation hb⟩
        · simp at h
      · simp at h
    split at h
    -- three bytes
    · split at h
      · split at h
        · next hb =>
          obtain ⟨-, rfl⟩ := Prod.mk.inj (Option.some.inj h)
          rw [Bool.and_eq_true] at hb
          simpa using ⟨ha, high_of_mayFollowThree hb.1, high_of_isContinuation hb.2⟩
        · simp at h
      · simp at h
    split at h
    -- four bytes
    · split at h
      · split at h
        · next hb =>
          obtain ⟨-, rfl⟩ := Prod.mk.inj (Option.some.inj h)
          rw [Bool.and_eq_true, Bool.and_eq_true] at hb
          simpa using
            ⟨ha, high_of_mayFollowFour hb.1.1, high_of_isContinuation hb.1.2, high_of_isContinuation hb.2⟩
        · simp at h
      · simp at h
    · simp at h

/-! ## §3 Quotes -/

theorem visible_of_mem_printableRanges : ∀ range ∈ printableRanges.toList, 32 ≤ range.1 := by
  -- a fold over the list, as looking the ranges up in the array one by one takes far longer
  have hall : printableRanges.toList.all (fun range => Nat.ble 32 range.1) = true := by decide +kernel
  intro range hmem
  exact Nat.le_of_ble_eq_true (List.all_eq_true.mp hall range hmem)

theorem visible_of_isPrintable {c : Nat} (h : isPrintable c = true) : 32 ≤ c := by
  obtain ⟨range, hmem, hrange⟩ := Array.any_eq_true'.mp h
  simp only [Bool.and_eq_true, decide_eq_true_eq] at hrange
  exact Nat.le_trans (visible_of_mem_printableRanges range (Array.mem_toList_iff.mpr hmem)) hrange.1

theorem visible_of_mem_spelling {text : Text} {c width : Nat} (h : codePoint? text = some (c, width)) (hc : 32 ≤ c)
    {b : UInt8} (hb : b ∈ text.take width) : 32 ≤ b := by
  rcases codePoint?_spelling h with hspell | hspell
  · rw [UInt8.le_iff_toNat_le, hspell b hb]
    exact hc
  · exact UInt8.le_trans (by decide) (hspell b hb)

theorem visible_controlLetter {c : Nat} {letter : Char} (h : controlLetter? c = some letter) :
    32 ≤ letter.toUInt8 := by
  unfold controlLetter? at h
  split at h <;> cases h <;> decide

theorem visible_of_mem_quotedCodePoint {text : Text} {c width : Nat} (h : codePoint? text = some (c, width))
    {b : UInt8} (hb : b ∈ quotedCodePoint c (text.take width)) : 32 ≤ b := by
  unfold quotedCodePoint at hb
  split at hb
  · rcases List.mem_cons.mp hb with rfl | hb
    · decide
    · exact visible_of_mem_spelling h (by omega) hb
  split at hb
  · next hprintable => exact visible_of_mem_spelling h (visible_of_isPrintable hprintable) hb
  split at hb
  · next letter hletter =>
    simp only [List.mem_cons, List.not_mem_nil, or_false] at hb
    rcases hb with rfl | rfl
    · decide
    · exact visible_controlLetter hletter
  -- what is left is a backslash with a letter and hexadecimal digits, of three widths
  have hescape : ∀ {letter : Char} {width : Nat}, 32 ≤ byte letter →
      b ∈ [byte '\\', byte letter] ++ hex width c → 32 ≤ b := by
    intro letter width hletter hb
    rcases List.mem_append.mp hb with hb | hb
    · simp only [List.mem_cons, List.not_mem_nil, or_false] at hb
      rcases hb with rfl | rfl
      · decide
      · exact hletter
    · exact visible_of_mem_hex hb
  split at hb
  · exact hescape (by decide) hb
  split at hb
  · exact hescape (by decide) hb
  · exact hescape (by decide) hb

theorem visible_of_mem_quotedFrom {inside : Nat} {text : Text} {b : UInt8} (h : b ∈ quotedFrom inside text) :
    32 ≤ b := by
  induction text generalizing inside with
  | nil => cases inside <;> simp [quotedFrom] at h
  | cons a text ih =>
    cases inside with
    | succ inside => exact ih h
    | zero =>
      rw [quotedFrom] at h
      split at h
      · next c width hpoint =>
        rcases List.mem_append.mp h with h | h
        · exact visible_of_mem_quotedCodePoint hpoint h
        · exact ih h
      · rw [List.append_assoc] at h
        rcases List.mem_append.mp h with h | h
        · simp only [List.mem_cons, List.not_mem_nil, or_false] at h
          rcases h with rfl | rfl <;> decide
        · rcases List.mem_append.mp h with h | h
          · exact visible_of_mem_hex h
          · exact ih h

/-- **Quoted texts stand on one line**: no byte of them lies below the space. -/
theorem visible_of_mem_quoted {text : Text} {b : UInt8} (h : b ∈ quoted text) : 32 ≤ b := by
  rw [quoted, List.mem_append, List.mem_cons, List.mem_singleton] at h
  rcases h with (rfl | h) | rfl
  · decide
  · exact visible_of_mem_quotedFrom h
  · decide

end HeaderReflection.Text
