import HeaderReflection.Text.CodePoint

/-!
# Pieces of path patterns

The text of a pattern: `*` stands for any run without a slash, `**` for any run, `?` for one character that is no slash,
`[abc]` and `[a-c]` for one character of a set (`[!…]` for one outside it), `{x,y}` for one of several patterns, and a
backslash takes the next character literally. A brace may be left open; a bracket may not. A null character ends the
pattern, unless it stands behind ordinary characters, where it only ends them.

## Main definitions

- `PathPattern.Piece`: the pieces of a pattern.
- `PathPattern.Reading`: a pattern that is being read, character by character.
- `PathPattern.pieces?`: from text.
-/

namespace HeaderReflection.PathPattern

/-- A piece of a pattern; characters are code points. -/
inductive Piece where
  /-- The characters themselves. -/
  | literal (characters : List Nat)
  /-- Any run of characters without a slash. -/
  | run
  /-- Any run of characters. -/
  | deepRun
  /-- One character that is no slash. -/
  | single
  /-- One character of a set, or outside it. -/
  | oneOf (outside : Bool) (characters : List Nat)
  /-- One character of a range, or outside it. -/
  | range (outside : Bool) (lo hi : Nat)
  /-- Some pieces that belong together. -/
  | group (pieces : List Piece)
  /-- One of several patterns. -/
  | choice (alternatives : List (List Piece))
  deriving Repr, Inhabited

/-! ## §1 Places -/

/-- What the next character of a pattern belongs to. -/
inductive Place where
  /-- Ordinary text. -/
  | plain
  /-- After a backslash in ordinary text. -/
  | escaped
  /-- After one star. -/
  | star
  /-- After an opening bracket; an exclamation mark may have been seen. -/
  | setStart (outside : Bool)
  /-- After the first character of a bracket, which may turn out to start a range. -/
  | setFirst (outside : Bool) (first : Nat)
  /-- Inside a set, its characters innermost last; the last character may have been a backslash. -/
  | set (outside : Bool) (characters : List Nat) (escaped : Bool)
  /-- Before the bracket that closes a set. -/
  | setClose (outside : Bool) (characters : List Nat)
  /-- Before the upper end of a range. -/
  | rangeEnd (outside : Bool) (lo : Nat)
  /-- Before the bracket that closes a range. -/
  | rangeClose (outside : Bool) (lo hi : Nat)
  /-- Behind the end of the pattern. -/
  | done
  deriving DecidableEq, Repr, Inhabited

/-- An open pair of braces: the alternatives that are complete and the pieces before the brace, latest first. -/
structure Level where
  complete : List (List Piece)
  pieces : List Piece
  deriving Repr, Inhabited

/-- A pattern that is being read. -/
structure Reading where
  place : Place := .plain
  /-- The characters of the literal that is being read, latest first. -/
  literal : List Nat := []
  /-- The pieces inside the innermost open brace, or outside all braces, latest first. -/
  pieces : List Piece := []
  /-- The open braces, innermost first. -/
  levels : List Level := []
  deriving Repr, Inhabited

/-! ## §2 Reading -/

namespace Reading

/-- End the literal that is being read. -/
def flush (r : Reading) : Reading :=
  if r.literal = [] then r
  else { r with literal := [], pieces := .literal r.literal.reverse :: r.pieces }

/-- Add a piece. -/
def add (r : Reading) (piece : Piece) : Reading :=
  let r := r.flush
  { r with place := .plain, pieces := piece :: r.pieces }

/-- Close the innermost brace. -/
def close (r : Reading) : Reading :=
  let r := r.flush
  match r.levels with
  | [] => r
  | level :: levels =>
    let alternatives := (r.pieces.reverse :: level.complete).reverse
    { r with pieces := .choice alternatives :: level.pieces, levels := levels }

/-- Open a brace. -/
def openBrace (r : Reading) : Reading :=
  let r := r.flush
  { r with pieces := [], levels := { complete := [], pieces := r.pieces } :: r.levels }

/-- Start the next alternative of the innermost brace. -/
def nextAlternative (r : Reading) : Reading :=
  let r := r.flush
  match r.levels with
  | [] => r
  | level :: levels =>
    { r with pieces := [], levels := { level with complete := r.pieces.reverse :: level.complete } :: levels }

/-- Close a set, which must not be empty. -/
def closeSet (r : Reading) (outside : Bool) (characters : List Nat) : Option Reading :=
  if characters = [] then none else some (r.add (.oneOf outside characters.reverse))

/-- Read a character inside a set. -/
def readInSet (r : Reading) (outside : Bool) (characters : List Nat) (escaped : Bool) (c : Nat) :
    Option Reading :=
  if c = 0 then some { r with place := .setClose outside characters }
  else if escaped then some { r with place := .set outside (c :: characters) false }
  else if c = '\\'.toNat then some { r with place := .set outside characters true }
  else if c = ']'.toNat then r.closeSet outside characters
  else some { r with place := .set outside (c :: characters) false }

/-- Read a character of ordinary text. -/
def readPlain (r : Reading) (c : Nat) : Reading :=
  if c = 0 then { r.flush with place := if r.literal = [] then .done else .plain }
  else if c = '\\'.toNat then { r with place := .escaped }
  else if c = '*'.toNat then { r.flush with place := .star }
  else if c = '?'.toNat then r.add .single
  else if c = '['.toNat then { r.flush with place := .setStart false }
  else if c = '{'.toNat then { r.openBrace with place := .plain }
  else if c = ','.toNat ∧ r.levels ≠ [] then { r.nextAlternative with place := .plain }
  else if c = '}'.toNat ∧ r.levels ≠ [] then { r.close with place := .plain }
  else { r with place := .plain, literal := c :: r.literal }

/-- Read one character. -/
def readCharacter (r : Reading) (c : Nat) : Option Reading :=
  match r.place with
  | .plain => some (r.readPlain c)
  | .escaped =>
    if c = 0 then some { r.flush with place := .plain }
    else some { r with place := .plain, literal := c :: r.literal }
  | .star => if c = '*'.toNat then some (r.add .deepRun) else some ((r.add .run).readPlain c)
  | .setStart outside =>
    if c = 0 then none
    else if !outside ∧ c = '!'.toNat then some { r with place := .setStart true }
    else some { r with place := .setFirst outside c }
  | .setFirst outside first =>
    if c = '-'.toNat then some { r with place := .rangeEnd outside first }
    else (r.readInSet outside [] false first).bind fun r =>
      match r.place with
      | .set outside characters escaped => r.readInSet outside characters escaped c
      | _ => none
  | .set outside characters escaped => r.readInSet outside characters escaped c
  | .setClose outside characters => if c = ']'.toNat then r.closeSet outside characters else none
  | .rangeEnd outside lo => if c = 0 ∨ c < lo then none else some { r with place := .rangeClose outside lo c }
  | .rangeClose outside lo hi => if c = ']'.toNat then some (r.add (.range outside lo hi)) else none
  | .done => some r

/-- Read one character. A character that stands for unreadable bytes, or a byte that spells no character, is an error
unless the pattern has ended before it. -/
def read (r : Reading) (c : Nat) : Option Reading :=
  if r.place ≠ .done ∧ (c = Text.replacement ∨ 0x110000 ≤ c) then none else r.readCharacter c

/-- Close a number of braces. -/
def closeAll : Nat → Reading → Reading
  | 0, r => r
  | n + 1, r => closeAll n r.close

/-- The pieces of a pattern that ends here. Braces that are still open end with it, brackets must be closed. -/
def finish (r : Reading) : Option (List Piece) :=
  match r.place with
  | .plain | .escaped | .done => some (closeAll r.levels.length r.flush).pieces.reverse
  | .star => some (closeAll r.levels.length (r.add .run)).pieces.reverse
  | _ => none

end Reading

/-- The pieces of a pattern; none if a bracket is malformed or a character cannot be read. -/
def pieces? (text : Text) : Option (List Piece) := (text.codePoints.foldlM Reading.read {}).bind Reading.finish

/-! ## §3 Comparing -/

mutual

/-- Whether two pieces are the same. -/
def Piece.same : Piece → Piece → Bool
  | .literal a, .literal b => a = b
  | .run, .run => true
  | .deepRun, .deepRun => true
  | .single, .single => true
  | .oneOf a s, .oneOf b t => a = b && s = t
  | .range a lo hi, .range b min max => a = b && lo = min && hi = max
  | .group a, .group b => samePieces a b
  | .choice a, .choice b => sameAlternatives a b
  | _, _ => false

/-- Whether two sequences of pieces are the same. -/
def samePieces : List Piece → List Piece → Bool
  | [], [] => true
  | a :: as, b :: bs => a.same b && samePieces as bs
  | _, _ => false

/-- Whether two choices have the same alternatives. -/
def sameAlternatives : List (List Piece) → List (List Piece) → Bool
  | [], [] => true
  | a :: as, b :: bs => samePieces a b && sameAlternatives as bs
  | _, _ => false

end

mutual

/-- The weight of a piece: a choice weighs more than what is left of it when common pieces are taken out. -/
def Piece.weight : Piece → Nat
  | .group pieces => 1 + weightOf pieces
  | .choice alternatives => 1 + weightOfAll alternatives
  | _ => 4

/-- The weight of a sequence of pieces. -/
def weightOf : List Piece → Nat
  | [] => 0
  | piece :: pieces => piece.weight + weightOf pieces

/-- The weight of several sequences of pieces. -/
def weightOfAll : List (List Piece) → Nat
  | [] => 0
  | pieces :: alternatives => 1 + weightOf pieces + weightOfAll alternatives

end

end HeaderReflection.PathPattern
