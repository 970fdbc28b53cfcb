import HeaderReflection.Text.Basic

/-!
# Numbers in text

Whole numbers in decimal digits, optionally with a sign, as far as they fit into 64 bits.

## Main definitions

- `Text.natural?`: digits only.
- `Text.integer?`: with an optional sign, within 64 bits.
- `Text.asciiUpper`, `Text.asciiLower`: the case of Latin letters.
-/

namespace HeaderReflection.Text

/-- Whether a byte is a decimal digit. -/
def isDigit (b : UInt8) : Bool := byte '0' ≤ b && b ≤ byte '9'

/-- The number that decimal digits stand for. -/
def digitsValue (digits : Text) : Nat := digits.foldl (fun n b => n * 10 + (b.toNat - 48)) 0

/-- The number that a text of decimal digits, at least one, stands for. -/
def natural? (text : Text) : Option Nat :=
  if text ≠ [] && text.all isDigit then some (digitsValue text) else none

/-- A whole number if it fits into 64 bits. -/
def word? (n : Int) : Option Int := if -9223372036854775808 ≤ n ∧ n < 9223372036854775808 then some n else none

/-- The number that a text with an optional sign stands for, if it fits into 64 bits. -/
def integer? : Text → Option Int
  | [] => none
  | b :: digits =>
    if b = byte '-' then (natural? digits).bind fun n => word? (-n)
    else if b = byte '+' then (natural? digits).bind fun n => word? n
    else (natural? (b :: digits)).bind fun n => word? n

/-- A Latin small letter as a capital; other bytes stay. -/
def upperByte (b : UInt8) : UInt8 := if byte 'a' ≤ b ∧ b ≤ byte 'z' then b - 32 else b

/-- A Latin capital as a small letter; other bytes stay. -/
def lowerByte (b : UInt8) : UInt8 := if byte 'A' ≤ b ∧ b ≤ byte 'Z' then b + 32 else b

/-- A text with its Latin small letters as capitals. -/
def asciiUpper (text : Text) : Text := text.map upperByte

/-- A text with its Latin capitals as small letters. -/
def asciiLower (text : Text) : Text := text.map lowerByte

end HeaderReflection.Text
