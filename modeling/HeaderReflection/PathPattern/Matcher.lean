import HeaderReflection.Text.CodePoint

/-!
# Matchers

A matcher decides whether it fits a whole text, and finds the first place in a text where it could fit a part of it. A
find names the place and the widths that the part may have there; it is a guess that is made quickly and need not be
complete. All places and widths count bytes. Some lengths count characters instead, so that texts with longer characters
may be cut inside of one.

## Main definitions

- `PathPattern.Matcher`: the matchers.
- `Matcher.length?`: how many characters a matcher takes, if it always takes the same number.
- `Matcher.fits`: whether a matcher fits a whole text.
- `Matcher.search`: the first find of a matcher.
-/

namespace HeaderReflection.PathPattern

open Text (byte)

/-- The matchers. -/
inductive Matcher where
  /-- The empty text. -/
  | nothing
  /-- One text. -/
  | literal (content : Text)
  /-- Any text without a slash. -/
  | run
  /-- Any text. -/
  | deepRun
  /-- One character that is no slash. -/
  | single
  /-- One character of a set, or outside it. -/
  | oneOf (outside : Bool) (characters : List Nat)
  /-- One character of a range, or outside it. -/
  | range (outside : Bool) (lo hi : Nat)
  /-- A beginning, and anything behind it. -/
  | starting (content : Text)
  /-- An end, and anything before it. -/
  | ending (content : Text)
  /-- A beginning and an end, which may overlap. -/
  | between (start finish : Text)
  /-- A beginning, and a run without a slash behind it. -/
  | startingRun (content : Text)
  /-- An end, and a run without a slash before it. -/
  | endingRun (content : Text)
  /-- Any text that has a given one in it. -/
  | containing (content : Text)
  /-- A number of characters, or more than that, without a given text in them. -/
  | counted (least : Nat) (isExact : Bool) (without : Text)
  /-- Several matchers of known lengths, one after the other. -/
  | row (parts : List Matcher)
  /-- One of several matchers. -/
  | choice (alternatives : List Matcher)
  /-- A matcher that is searched first, with what stands before and behind it. -/
  | split (middle left right : Matcher)
  deriving Repr, Inhabited

/-! ## §1 Characters -/

/-- A character in a text. -/
structure Character where
  /-- The place of its first byte. -/
  start : Nat
  code : Nat
  deriving DecidableEq, Repr, Inhabited

/-- The place behind a character, as far as its usual spelling tells. -/
def Character.finish (c : Character) : Nat := c.start + (Text.ofCodePoint c.code).length

/-- The character at the start of a text with its width. A byte that spells none counts as the replacement character,
and so does the end of the text. -/
def firstCharacter (text : Text) : Nat × Nat :=
  match Text.codePoint? text with
  | some found => found
  | none => (Text.replacement, min 1 text.length)

/-- The characters of a text from a place on; the first `inside` bytes belong to one that has already been read. -/
def charactersFrom : Nat → Nat → Text → List Character
  | _, _, [] => []
  | inside + 1, start, _ :: text => charactersFrom inside (start + 1) text
  | 0, start, b :: text =>
    let (code, width) := firstCharacter (b :: text)
    { start, code } :: charactersFrom (width - 1) (start + 1) text

/-- The characters of a text. -/
def characters (text : Text) : List Character := charactersFrom 0 0 text

/-- The places between the characters of a text, its two ends included. -/
def borders (text : Text) : List Nat := (characters text).map (·.start) ++ [text.length]

/-- The only character of a text; none if the text is longer. -/
def onlyCharacter? (text : Text) : Option Nat :=
  let (code, width) := firstCharacter text
  if width < text.length then none else some code

/-- The place of the first occurrence of a text in another one. -/
def place? (needle text : Text) : Option Nat := (Text.cut needle text).map fun (before, _) => before.length

/-- The byte of a slash. -/
def slash : UInt8 := byte '/'

/-- A text up to its first slash. -/
def beforeSlash (text : Text) : Text := text.takeWhile (· ≠ slash)

/-- Whether a text has no slash. -/
def isFlat (text : Text) : Bool := !text.contains slash

/-- Whether a character passes a set. -/
def passesSet (outside : Bool) (set : List Nat) (code : Nat) : Bool := set.contains code != outside

/-- Whether a character passes a range. -/
def passesRange (outside : Bool) (lo hi code : Nat) : Bool := (decide (lo ≤ code) && decide (code ≤ hi)) != outside

/-- Whether a character is no slash. -/
def passesSingle (code : Nat) : Bool := code ≠ '/'.toNat

/-! ## §2 Lengths -/

namespace Matcher

mutual

/-- The number of characters that a matcher takes, if it is always the same. -/
def length? : Matcher → Option Nat
  | .nothing => some 0
  | .literal content => some (characters content).length
  | .single | .oneOf _ _ | .range _ _ _ => some 1
  | .row parts => totalLength? parts
  | .choice alternatives => commonLength? alternatives
  | .split middle left right => do return (← length? left) + (← length? middle) + (← length? right)
  | _ => none

/-- The number of characters that several matchers take together. -/
def totalLength? : List Matcher → Option Nat
  | [] => some 0
  | part :: parts => do return (← length? part) + (← totalLength? parts)

/-- The number of characters that each of several matchers takes; matchers of unknown length at the start do not
count. -/
def commonLength? : List Matcher → Option Nat
  | [] => none
  | m :: ms =>
    match length? m with
    | none => commonLength? ms
    | some n => if allHaveLength n ms then some n else none

/-- Whether all of several matchers take a number of characters. -/
def allHaveLength (n : Nat) : List Matcher → Bool
  | [] => true
  | m :: ms => length? m == some n && allHaveLength n ms

end

end Matcher

/-! ## §3 Finds -/

/-- A place where a matcher could fit, and the widths that it may have there. -/
structure Find where
  place : Nat
  widths : List Nat
  deriving DecidableEq, Repr, Inhabited

namespace Find

/-- The first character that passes a test. -/
def character (test : Nat → Bool) (text : Text) : Option Find :=
  ((characters text).find? (test ·.code)).map fun c =>
    { place := c.start, widths := [c.finish - c.start] }

/-- A beginning with some characters of what is behind it; `tail` tells how much of that may be taken. -/
def beginning (content : Text) (tail : Text → Text) (text : Text) : Option Find :=
  (Text.cut content text).map fun (before, after) =>
    { place := before.length
      widths := content.length :: (characters (tail after)).map fun c => content.length + c.finish }

/-- The first end, with everything before it. -/
def ending (content text : Text) : Option Find :=
  (place? content text).map fun place => { place := 0, widths := [place + content.length] }

/-- The first end, with the run without a slash before it. -/
def endingRun (content text : Text) : Option Find :=
  (Text.cut content text).map fun (before, _) =>
    let run := (before.reverse.takeWhile (· ≠ slash)).length
    { place := before.length - run, widths := [run + content.length] }

/-- The widths of a text up to each occurrence of an end, which are looked for from behind and do not overlap. -/
def endings (finish : Text) : Nat → Text → List Nat
  | 0, _ => []
  | fuel + 1, text =>
    match Text.cut finish.reverse text.reverse with
    | none => []
    | some (_, before) => (before.length + finish.length) :: endings finish fuel before.reverse

/-- The first beginning, up to each end behind it. -/
def between (start finish text : Text) : Option Find :=
  (place? start text).bind fun place =>
    let rest := text.drop place
    let widths := endings finish (rest.length + 1) rest
    if widths = [] then none else some { place, widths }

/-- Everything up to the first occurrence of a text, with any part of what is behind it. -/
def containing (content text : Text) : Option Find :=
  (Text.cut content text).map fun (before, after) =>
    { place := 0, widths := (borders after).map (before.length + content.length + ·) }

/-- The first characters of a text, as many as are asked for, that have no given text in them. -/
def counted (least : Nat) (isExact : Bool) (without text : Text) : Option Find :=
  if text.length < least then none
  else
    let ends := (characters text).map (·.finish)
    let long := ends.drop (least - 1)
    let fit := if isExact then long.filter (0 :: ends.take least).contains else long
    let clean := borders ((Text.cut without text).elim text (·.1))
    let widths := fit.filter clean.contains
    if widths = [] then none else some { place := 0, widths }

/-- The find of several that comes first; those at the same place are put together. -/
def earliest (finds : List Find) : Option Find :=
  (finds.map (·.place)).min?.map fun place =>
    { place, widths := (finds.filter (·.place = place)).flatMap (·.widths) }

end Find

/-! ## §4 Splits -/

/-- Look for the middle of a split from an offset on, and for each find whether both sides fit. -/
def splitFitsFrom (search : Text → Option Find) (left right : Text → Bool) (limit : Nat) (text : Text) :
    Nat → Nat → Bool
  | 0, _ => false
  | fuel + 1, offset =>
    if limit ≤ offset then false
    else match search ((text.take limit).drop offset) with
      | none => false
      | some find =>
        let place := offset + find.place
        if left (text.take place) && find.widths.any (fun width => right (text.drop (place + width))) then true
        else splitFitsFrom search left right limit text fuel (place + (firstCharacter (text.drop place)).2)

/-- Whether a split fits a text. The known lengths of its sides are left out of the search. -/
def splitFits (search : Text → Option Find) (left right : Text → Bool) (length leftLength rightLength : Option Nat)
    (text : Text) : Bool :=
  if length.any (text.length < ·) then false
  else splitFitsFrom search left right (text.length - rightLength.getD 0) text (text.length + 1) (leftLength.getD 0)

/-! ## §5 Matching -/

namespace Matcher

/-- The number of bytes that a part of a row takes: up to the first byte of its last character. None if there are too
few characters. -/
def rowWidth? (length : Nat) (text : Text) : Option Nat :=
  let all := characters text
  let taken := if length = 0 then all else all.take length
  let width := ((taken.getLast?).elim 0 (·.start)) + 1
  if taken.length < length ∨ text.length < width then none else some width

mutual

/-- Whether a matcher fits a whole text. -/
def fits : Matcher → Text → Bool
  | .nothing, text => text.isEmpty
  | .literal content, text => content = text
  | .run, text => isFlat text
  | .deepRun, _ => true
  | .single, text => (onlyCharacter? text).any passesSingle
  | .oneOf outside set, text => (onlyCharacter? text).any (passesSet outside set)
  | .range outside lo hi, text => (onlyCharacter? text).any (passesRange outside lo hi)
  | .starting content, text => Text.beginsWith content text
  | .ending content, text => Text.endsWith content text
  | .between start finish, text => Text.beginsWith start text && Text.endsWith finish text
  | .startingRun content, text => (Text.stripPrefix? content text).any isFlat
  | .endingRun content, text => (Text.stripSuffix? content text).any isFlat
  | .containing content, text => (Text.cut content text).isSome
  | .counted least isExact without, text =>
    let count := (characters text).length
    decide (least ≤ count) && (!isExact || decide (count ≤ least)) && (Text.cut without text).isNone
  | .row parts, text => totalLength? parts == some (characters text).length && fitsRow parts text
  | .choice alternatives, text => fitsAny alternatives text
  | .split middle left right, text =>
    splitFits (search middle) (fits left) (fits right) (length? (.split middle left right)) (length? left)
      (length? right) text

/-- Whether some matchers fit the parts of a text one after the other; what is left of the text does not matter. -/
def fitsRow : List Matcher → Text → Bool
  | [], _ => true
  | part :: parts, text =>
    match rowWidth? ((length? part).getD 0) text with
    | none => false
    | some width => fits part (text.take width) && fitsRow parts (text.drop width)

/-- Whether one of several matchers fits a text. -/
def fitsAny : List Matcher → Text → Bool
  | [], _ => false
  | m :: ms, text => fits m text || fitsAny ms text

/-- The first find of a matcher in a text. Splits are not searched for. -/
def search : Matcher → Text → Option Find
  | .nothing, _ => some { place := 0, widths := [0] }
  | .literal content, text => (place? content text).map fun place => { place, widths := [content.length] }
  | .run, text => some { place := 0, widths := borders (beforeSlash text) }
  | .deepRun, text => some { place := 0, widths := borders text }
  | .single, text => Find.character passesSingle text
  | .oneOf outside set, text => Find.character (passesSet outside set) text
  | .range outside lo hi, text => Find.character (passesRange outside lo hi) text
  | .starting content, text => Find.beginning content id text
  | .ending content, text => Find.ending content text
  | .between start finish, text => Find.between start finish text
  | .startingRun content, text => Find.beginning content beforeSlash text
  | .endingRun content, text => Find.endingRun content text
  | .containing content, text => Find.containing content text
  | .counted least isExact without, text => Find.counted least isExact without text
  | .row parts, text =>
    let length := (totalLength? parts).getD 0
    ((borders text).dropLast.find? fun place =>
      decide (length ≤ text.length - place) && fitsRow parts (text.drop place)).map fun place =>
        { place, widths := [length] }
  | .choice alternatives, text => Find.earliest (searchAll alternatives text)
  | .split _ _ _, _ => none

/-- The finds of several matchers. -/
def searchAll : List Matcher → Text → List Find
  | [], _ => []
  | m :: ms, text => (search m text).toList ++ searchAll ms text

end

end Matcher

end HeaderReflection.PathPattern
