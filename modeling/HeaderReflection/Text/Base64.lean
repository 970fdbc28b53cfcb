import HeaderReflection.Text.Basic

/-!
# Base 64

Bytes in printable characters: three bytes are four digits, and equals signs fill up the last group.

## Main definitions

- `Text.base64`: bytes in digits.
- `Text.ofBase64?`: digits back to bytes; line ends between them do not count.
-/

namespace HeaderReflection.Text

/-- The digit of a six bit number. -/
def base64Digit (n : Nat) : UInt8 :=
  if n < 26 then UInt8.ofNat (n + 65)
  else if n < 52 then UInt8.ofNat (n + 71)
  else if n < 62 then UInt8.ofNat (n - 4)
  else if n = 62 then byte '+' else byte '/'

/-- Bytes in digits. -/
def base64 : Text → Text
  | a :: b :: c :: rest =>
    let n := (a.toNat * 256 + b.toNat) * 256 + c.toNat
    [base64Digit (n / 262144), base64Digit (n / 4096 % 64), base64Digit (n / 64 % 64), base64Digit (n % 64)] ++
      base64 rest
  | [a, b] =>
    let n := (a.toNat * 256 + b.toNat) * 256
    [base64Digit (n / 262144), base64Digit (n / 4096 % 64), base64Digit (n / 64 % 64), byte '=']
  | [a] =>
    let n := a.toNat * 65536
    [base64Digit (n / 262144), base64Digit (n / 4096 % 64), byte '=', byte '=']
  | [] => []

/-- The six bit number of a digit. -/
def base64Value? (b : UInt8) : Option Nat :=
  if byte 'A' ≤ b ∧ b ≤ byte 'Z' then some (b.toNat - 65)
  else if byte 'a' ≤ b ∧ b ≤ byte 'z' then some (b.toNat - 71)
  else if byte '0' ≤ b ∧ b ≤ byte '9' then some (b.toNat + 4)
  else if b = byte '+' then some 62
  else if b = byte '/' then some 63
  else none

/-- The bytes of groups of four digits. Only the last group may be filled up. -/
def ofBase64Groups? : Text → Option Text
  | [] => some []
  | a :: b :: c :: d :: rest => do
    let a ← base64Value? a
    let b ← base64Value? b
    let first := UInt8.ofNat (a * 4 + b / 16)
    if d = byte '=' ∧ rest = [] then
      if c = byte '=' then return [first]
      else
        let c ← base64Value? c
        return [first, UInt8.ofNat (b % 16 * 16 + c / 4)]
    else
      let c ← base64Value? c
      let d ← base64Value? d
      return [first, UInt8.ofNat (b % 16 * 16 + c / 4), UInt8.ofNat (c % 4 * 64 + d)] ++ (← ofBase64Groups? rest)
  | _ => none

/-- The bytes that digits stand for. -/
def ofBase64? (text : Text) : Option Text :=
  ofBase64Groups? (text.filter fun b => b ≠ byte '\r' && b ≠ lineFeed)

end HeaderReflection.Text
