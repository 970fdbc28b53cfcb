import HeaderReflection.Text.Basic

/-!
# Code points

Reading UTF-8: the code point at the start of a text with the number of bytes that spell it, if those bytes are a
shortest spelling of a code point that is no surrogate.

## Main definitions

- `Text.codePoint?`: the code point a text starts with, and its width.
- `Text.codePoints`: a text as code points, with a value past all code points for each byte that spells none.
- `Text.isUtf8`: whether every byte belongs to a code point.
-/

namespace HeaderReflection.Text

/-- Whether a byte continues a code point. -/
def isContinuation (b : UInt8) : Bool := 0x80 ≤ b && b ≤ 0xBF

/-- The low six bits that a continuation byte carries. -/
def continuationBits (b : UInt8) : Nat := b.toNat % 64

/-- The second bytes that may follow the first byte of a three byte spelling: no longer spelling than needed and
no surrogates. -/
def mayFollowThree (first second : UInt8) : Bool :=
  if first = 0xE0 then 0xA0 ≤ second && second ≤ 0xBF
  else if first = 0xED then 0x80 ≤ second && second ≤ 0x9F
  else isContinuation second

/-- The second bytes that may follow the first byte of a four byte spelling: no longer spelling than needed and
nothing past the last code point. -/
def mayFollowFour (first second : UInt8) : Bool :=
  if first = 0xF0 then 0x90 ≤ second && second ≤ 0xBF
  else if first = 0xF4 then 0x80 ≤ second && second ≤ 0x8F
  else isContinuation second

/-- The code point at the start of a text and the number of its bytes. -/
def codePoint? : Text → Option (Nat × Nat)
  | [] => none
  | a :: rest =>
    if a < 0x80 then some (a.toNat, 1)
    else if 0xC2 ≤ a ∧ a ≤ 0xDF then
      match rest with
      | b :: _ => if isContinuation b then some (a.toNat % 32 * 64 + continuationBits b, 2) else none
      | _ => none
    else if 0xE0 ≤ a ∧ a ≤ 0xEF then
      match rest with
      | b :: c :: _ =>
        if mayFollowThree a b && isContinuation c then
          some ((a.toNat % 16 * 64 + continuationBits b) * 64 + continuationBits c, 3)
        else none
      | _ => none
    else if 0xF0 ≤ a ∧ a ≤ 0xF4 then
      match rest with
      | b :: c :: d :: _ =>
        if mayFollowFour a b && isContinuation c && isContinuation d then
          some (((a.toNat % 8 * 64 + continuationBits b) * 64 + continuationBits c) * 64 + continuationBits d, 4)
        else none
      | _ => none
    else none

/-- The value that stands for a byte which spells no code point: it lies past all code points. -/
def strayByte (b : UInt8) : Nat := 0x110000 + b.toNat

/-- The code points of a text whose first `inside` bytes end a code point that has already been read. -/
def codePointsFrom : Nat → Text → List Nat
  | _, [] => []
  | inside + 1, _ :: text => codePointsFrom inside text
  | 0, b :: text =>
    match codePoint? (b :: text) with
    | some (c, width) => c :: codePointsFrom (width - 1) text
    | none => strayByte b :: codePointsFrom 0 text

/-- A text as code points. -/
def codePoints (text : Text) : List Nat := codePointsFrom 0 text

/-- Whether every byte of a text belongs to a code point. -/
def isUtf8 (text : Text) : Bool := (codePoints text).all (· < 0x110000)

/-- The code point that stands for bytes which spell none. -/
def replacement : Nat := 0xFFFD

/-- The UTF-8 spelling of a code point. -/
def ofCodePoint (c : Nat) : Text :=
  if c < 0x80 then [UInt8.ofNat c]
  else if c < 0x800 then [UInt8.ofNat (0xC0 + c / 64), UInt8.ofNat (0x80 + c % 64)]
  else if c < 0x10000 then
    [UInt8.ofNat (0xE0 + c / 4096), UInt8.ofNat (0x80 + c / 64 % 64), UInt8.ofNat (0x80 + c % 64)]
  else
    [UInt8.ofNat (0xF0 + c / 262144), UInt8.ofNat (0x80 + c / 4096 % 64), UInt8.ofNat (0x80 + c / 64 % 64),
     UInt8.ofNat (0x80 + c % 64)]

/-- A text in which every byte that spells no code point is replaced. -/
def repaired (text : Text) : Text :=
  text.codePoints.flatMap fun c => ofCodePoint (if 0x110000 ≤ c then replacement else c)

end HeaderReflection.Text
