import HeaderReflection.Text.CodePoint
import HeaderReflection.Text.Printable

/-!
# Quoted text

A text between double quotes, on one line and readable: quotes and backslashes are escaped, printable code points
stand for themselves, and every other code point or stray byte is written by a letter or by hexadecimal digits.
-/

namespace HeaderReflection.Text

/-- A number in lower-case hexadecimal digits, filled up with zeros to a given width. -/
def hex (width n : Nat) : Text :=
  let digits : Text := (Nat.toDigits 16 n).map Char.toUInt8
  List.replicate (width - digits.length) (byte '0') ++ digits

/-- The letter that names a control character after a backslash. -/
def controlLetter? (c : Nat) : Option Char :=
  match c with
  | 7 => some 'a'
  | 8 => some 'b'
  | 9 => some 't'
  | 10 => some 'n'
  | 11 => some 'v'
  | 12 => some 'f'
  | 13 => some 'r'
  | _ => none

/-- How a code point is written inside quotes; `spelling` is its UTF-8 spelling. -/
def quotedCodePoint (c : Nat) (spelling : Text) : Text :=
  if c = 34 ∨ c = 92 then byte '\\' :: spelling
  else if isPrintable c then spelling
  else match controlLetter? c with
    | some letter => [byte '\\', byte letter]
    | none =>
      if c < 32 ∨ c = 127 then [byte '\\', byte 'x'] ++ hex 2 c
      else if c < 0x10000 then [byte '\\', byte 'u'] ++ hex 4 c
      else [byte '\\', byte 'U'] ++ hex 8 c

/-- The inside of a quoted text, the first `inside` bytes of which end a code point that has already been
written. -/
def quotedFrom : Nat → Text → Text
  | _, [] => []
  | inside + 1, _ :: text => quotedFrom inside text
  | 0, b :: text =>
    match codePoint? (b :: text) with
    | some (c, width) => quotedCodePoint c ((b :: text).take width) ++ quotedFrom (width - 1) text
    | none => [byte '\\', byte 'x'] ++ hex 2 b.toNat ++ quotedFrom 0 text

/-- A text in double quotes. -/
def quoted (text : Text) : Text := byte '"' :: quotedFrom 0 text ++ [byte '"']

end HeaderReflection.Text
