import HeaderReflection.Text.Number

/-!
# Binary numbers of 64 bits

Decimal fractions in documents are kept as binary numbers with 53 significant bits. A decimal is rounded to the nearest
such number, of two equally near ones to the even one, and is written with the fewest digits that are rounded back to
it. All of it is exact arithmetic on natural numbers.

## Main definitions

- `Binary64`: the numbers, with the infinities and the value that is no number.
- `Binary64.nearest?`: the number nearest to a ratio.
- `Binary64.ofDecimal?`: the number nearest to a decimal.
- `Binary64.shortest`: the fewest digits that stand for a number.
- `Binary64.positional`, `Binary64.shown`: two ways to write it.
-/

namespace HeaderReflection

open Text (byte isDigit)

/-- A binary number of 64 bits. -/
inductive Binary64 where
  /-- The mantissa times two to the power of the exponent. -/
  | finite (negative : Bool) (mantissa : Nat) (exponent : Int)
  | infinite (negative : Bool)
  | notNumber
  deriving DecidableEq, Repr, Inhabited

namespace Binary64

/-! ## §1 Rounding -/

/-- A quotient rounded to the nearest natural number, of two equally near ones to the even one. -/
def roundDiv (num den : Nat) : Nat :=
  let quotient := num / den
  let rest := 2 * (num % den)
  if rest < den then quotient else if rest = den then quotient + quotient % 2 else quotient + 1

/-- A ratio times a power of a base. -/
def timesPower (base num den : Nat) (exponent : Int) : Nat × Nat :=
  if 0 ≤ exponent then (num * Nat.pow base exponent.natAbs, den) else (num, den * Nat.pow base exponent.natAbs)

/-- The exponent of the largest power of two that is not above a positive ratio. -/
def floorLog2 (num den : Nat) : Int :=
  let guess : Int := (num.log2 : Int) - den.log2
  let (a, b) := timesPower 2 num den (-guess)
  if b ≤ a then guess else guess - 1

/-- The least exponent of a finite number. -/
def leastExponent : Int := -1074

/-- The greatest exponent of a finite number. -/
def greatestExponent : Int := 971

/-- The first natural number with more than 53 bits. -/
def mantissaLimit : Nat := 9007199254740992

/-- The mantissa and the exponent of the number nearest to a ratio; none if the ratio is too large. -/
def nearest? (num den : Nat) : Option (Nat × Int) :=
  if num = 0 then some (0, leastExponent)
  else
    let exponent := max (floorLog2 num den - 52) leastExponent
    let (a, b) := timesPower 2 num den (-exponent)
    let mantissa := roundDiv a b
    let (mantissa, exponent) :=
      if mantissa = mantissaLimit then (mantissaLimit / 2, exponent + 1) else (mantissa, exponent)
    if greatestExponent < exponent then none else some (mantissa, exponent)

/-- The number nearest to a ratio, as a ratio; none if the ratio is too large. -/
def roundedRatio? (num den : Nat) : Option (Nat × Nat) :=
  (nearest? num den).map fun (mantissa, exponent) => timesPower 2 mantissa 1 exponent

/-- The number nearest to a decimal: some digits times ten to the power of an exponent. None if it is too large. -/
def ofDecimal? (negative : Bool) (digits : Text) (exponent : Int) : Option Binary64 :=
  let significant := Text.trimStartOf [byte '0'] digits
  let point := exponent + significant.length
  if significant = [] ∨ point < -400 then some (.finite negative 0 leastExponent)
  else if 400 < point then none
  else
    let (a, b) := timesPower 10 (Text.digitsValue significant) 1 exponent
    (nearest? a b).map fun (mantissa, exponent) => .finite negative mantissa exponent

/-! ## §2 Decimal spellings -/

/-- The value of a signed run of digits. -/
def signedValue (text : Text) : Int :=
  match text with
  | b :: digits =>
    if b = byte '-' then -(Text.digitsValue digits : Int)
    else if b = byte '+' then Text.digitsValue digits
    else Text.digitsValue text
  | [] => 0

/-- The number nearest to a decimal with an optional sign, an optional point and an optional exponent, which is not
checked for its form. None if it is too large. -/
def ofSpelling? (text : Text) : Option Binary64 :=
  let negative := Text.beginsWith "-" text
  let unsigned := if negative ∨ Text.beginsWith "+" text then text.drop 1 else text
  let whole := unsigned.takeWhile isDigit
  let rest := unsigned.dropWhile isDigit
  let part := if Text.beginsWith "." rest then (rest.drop 1).takeWhile isDigit else []
  let marked := if Text.beginsWith "." rest then (rest.drop 1).dropWhile isDigit else rest
  ofDecimal? negative (whole ++ part) (signedValue (marked.drop 1) - part.length)

/-! ## §3 Shortest digits -/

/-- A decimal: a point and some digits behind it, times ten to the power of `point`. -/
structure Decimal where
  digits : Text
  point : Int
  deriving DecidableEq, Repr, Inhabited

/-- The exponent of the largest power of ten that is not above a positive ratio. -/
def floorLog10 (num den : Nat) : Int :=
  let guess := Int.fdiv (floorLog2 num den * 30103) 100000
  let reaches (exponent : Int) : Bool :=
    let (a, b) := timesPower 10 num den (-exponent)
    b ≤ a
  if reaches (guess + 1) then guess + 1 else if reaches guess then guess else guess - 1

/-- Of the two decimals with a number of digits that are next to a number, the nearer one that is rounded to it. -/
def decimalOfLength? (mantissa : Nat) (exponent : Int) (log : Int) (length : Nat) : Option Decimal :=
  let (num, den) := timesPower 2 mantissa 1 exponent
  let step := log - length + 1
  let (a, b) := timesPower 10 num den (-step)
  let isHit (n : Nat) : Bool :=
    let (c, d) := timesPower 10 n 1 step
    nearest? c d = some (mantissa, exponent)
  let best := roundDiv a b
  let other := if best = a / b then best + 1 else best - 1
  let decimal (n : Nat) : Decimal :=
    let digits := Text.decimal n
    { digits := Text.trimEndOf [byte '0'] digits, point := step + digits.length }
  if isHit best then some (decimal best) else if isHit other then some (decimal other) else none

/-- The fewest digits that are rounded to a number. -/
def shortest (mantissa : Nat) (exponent : Int) : Decimal :=
  if mantissa = 0 then { digits := [], point := 0 }
  else
    let (num, den) := timesPower 2 mantissa 1 exponent
    let log := floorLog10 num den
    let lengths := (List.range 17).map (· + 1)
    (lengths.findSome? (decimalOfLength? mantissa exponent log)).getD { digits := [], point := 0 }

namespace Decimal

/-- Some zeros. -/
def zeros (n : Nat) : Text := List.replicate n (byte '0')

/-- A decimal without an exponent. -/
def positional (d : Decimal) : Text :=
  if d.digits = [] then "0"
  else if d.point ≤ 0 then "0." ++ zeros d.point.natAbs ++ d.digits
  else
    let whole := d.point.natAbs
    if d.digits.length ≤ whole then d.digits ++ zeros (whole - d.digits.length)
    else d.digits.take whole ++ "." ++ d.digits.drop whole

/-- A decimal with an exponent of at least two digits. -/
def scientific (d : Decimal) : Text :=
  let exponent := d.point - 1
  let part := d.digits.drop 1
  let power := Text.decimal exponent.natAbs
  d.digits.take 1 ++ (if part = [] then [] else byte '.' :: part) ++ "e" ++ (if exponent < 0 then "-" else "+") ++
    zeros (2 - power.length) ++ power

/-- A decimal, with an exponent if it is below a ten-thousandth or not below a million. -/
def shown (d : Decimal) : Text :=
  if d.digits ≠ [] ∧ (d.point < -3 ∨ 6 < d.point) then d.scientific else d.positional

end Decimal

/-- A sign in front of a number. -/
def withSign (negative : Bool) (digits : Text) : Text := if negative then byte '-' :: digits else digits

/-- A number in a given spelling of decimals. -/
def spelled (spelling : Decimal → Text) : Binary64 → Text
  | .finite negative mantissa exponent => withSign negative (spelling (shortest mantissa exponent))
  | .infinite negative => if negative then "-Inf" else "+Inf"
  | .notNumber => "NaN"

/-- A number in positional digits. -/
def positional : Binary64 → Text := spelled Decimal.positional

/-- A number as it is shown to the user. -/
def shown : Binary64 → Text := spelled Decimal.shown

/-- A number without its fraction, as a word of 64 bits. What does not fit becomes the least word. -/
def toWord (x : Binary64) : Int :=
  match x with
  | .finite negative mantissa exponent =>
    let (num, den) := timesPower 2 mantissa 1 exponent
    let n : Int := if negative then -((num / den : Nat) : Int) else ((num / den : Nat) : Int)
    (Text.word? n).getD (-9223372036854775808)
  | _ => -9223372036854775808

end Binary64

end HeaderReflection
