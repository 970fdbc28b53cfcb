import HeaderReflection.Text.CodePoint

/-!
# Words of 16 bits

Text in UTF-16: a code point is one word, or two of which the first is a high and the second a low surrogate.

## Main definitions

- `Text.words`: the words of a text of bytes, in either byte order.
- `Text.ofWords`: the text of some words; a surrogate that stands alone is replaced.
-/

namespace HeaderReflection.Text

/-- Whether a word is the first one of two. -/
def isHighSurrogate (word : Nat) : Bool := 0xD800 ≤ word && word ≤ 0xDBFF

/-- Whether a word is the second one of two. -/
def isLowSurrogate (word : Nat) : Bool := 0xDC00 ≤ word && word ≤ 0xDFFF

/-- The code point of two surrogates. -/
def surrogatePair (high low : Nat) : Nat := 0x10000 + (high - 0xD800) * 1024 + (low - 0xDC00)

/-- The words of a text of bytes, with the larger half first or last. A last byte without a partner is dropped. -/
def words (largeFirst : Bool) : Text → List Nat
  | a :: b :: text =>
    (if largeFirst then a.toNat * 256 + b.toNat else b.toNat * 256 + a.toNat) :: words largeFirst text
  | _ => []

/-- The text of some words. -/
def ofWords : List Nat → Text
  | [] => []
  | [word] => ofCodePoint (if isHighSurrogate word || isLowSurrogate word then replacement else word)
  | high :: low :: rest =>
    if isHighSurrogate high && isLowSurrogate low then ofCodePoint (surrogatePair high low) ++ ofWords rest
    else
      ofCodePoint (if isHighSurrogate high || isLowSurrogate high then replacement else high) ++ ofWords (low :: rest)

end HeaderReflection.Text
