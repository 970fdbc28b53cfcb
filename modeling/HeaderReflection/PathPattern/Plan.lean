import HeaderReflection.PathPattern.Matcher
import HeaderReflection.PathPattern.Piece

/-!
# Plans

How a pattern is matched: its pieces become matchers, neighbours are glued together where one matcher can do the work of
several, and what cannot be glued is split at the longest matcher of known length. Alternatives that begin or end alike
are put together first.

## Main definitions

- `PathPattern.glued?`: one matcher for several neighbours.
- `PathPattern.assembled`: one matcher for a whole sequence.
- `PathPattern.simplified`: a matcher by a special case of it.
- `PathPattern.factored?`: alternatives with their common pieces taken out.
- `PathPattern.plan`: the matcher of a pattern.
-/

namespace HeaderReflection.PathPattern

/-! ## §1 Gluing -/

/-- A run of characters: those that are left out, how many there are at least, and whether there may be more. -/
structure Repetition where
  without : List Nat
  least : Nat
  isOpen : Bool
  deriving DecidableEq, Repr, Inhabited

/-- A matcher as a run of characters. -/
def repetition? : Matcher → Option Repetition
  | .deepRun => some { without := [], least := 0, isOpen := true }
  | .run => some { without := ['/'.toNat], least := 0, isOpen := true }
  | .single => some { without := ['/'.toNat], least := 1, isOpen := false }
  | .oneOf true characters => some { without := characters, least := 1, isOpen := false }
  | _ => none

/-- One matcher for runs of characters that leave out the same ones. -/
def gluedRuns? (matchers : List Matcher) : Option Matcher := do
  let runs ← matchers.mapM repetition?
  let first ← runs.head?
  let least := runs.foldl (fun n run => n + run.least) 0
  if runs.any (·.without ≠ first.without) then none
  else if 0 < least then
    some (.counted least (!runs.any (·.isOpen)) (first.without.flatMap Text.ofCodePoint))
  else some (if first.without = [] then .deepRun else .run)

/-- One matcher for matchers of known lengths. -/
def gluedRow? (matchers : List Matcher) : Option Matcher :=
  if (Matcher.totalLength? matchers).isSome then some (.row matchers) else none

/-- One matcher for two or more neighbours. -/
def glued? (matchers : List Matcher) : Option Matcher :=
  if matchers.length < 2 then none else (gluedRuns? matchers).or (gluedRow? matchers)

/-- Some neighbours in a sequence, and the matcher that can take their place. -/
structure Joint where
  start : Nat
  count : Nat
  matcher : Matcher
  deriving Repr, Inhabited

/-- All neighbours that can be glued, from the left, and from the longest to the shortest. -/
def joints (matchers : List Matcher) : List Joint :=
  (List.range matchers.length).flatMap fun start =>
    let rest := matchers.drop start
    (List.range rest.length).filterMap fun left =>
      let count := rest.length - left
      (glued? (rest.take count)).map fun matcher => { start, count, matcher }

/-- Whether one joint is taken rather than another one: its known length is greater, or it covers more. -/
def Joint.isBetter (a b : Joint) : Bool :=
  a.matcher.length?.any (fun n => b.matcher.length?.any (· < n)) || b.count < a.count

/-- The joint that is taken first. -/
def bestJoint? (matchers : List Matcher) : Option Joint :=
  (joints matchers).foldl
    (fun best joint =>
      match best with
      | none => some joint
      | some other => if joint.isBetter other then some joint else best)
    none

/-- A sequence in which neighbours are glued, one joint after the other. -/
def joined : Nat → List Matcher → List Matcher
  | 0, matchers => matchers
  | fuel + 1, matchers =>
    match bestJoint? matchers with
    | none => matchers
    | some joint =>
      joined fuel (matchers.take joint.start ++ joint.matcher :: matchers.drop (joint.start + joint.count))

/-! ## §2 Splitting -/

/-- A sequence cut at the last of its longest matchers, of those with a known length. -/
def cutAtLongest? (matchers : List Matcher) : Option (List Matcher × Matcher × List Matcher) := do
  let longest ← (matchers.filterMap Matcher.length?).max?
  let after := matchers.reverse.takeWhile (·.length? ≠ some longest)
  match matchers.reverse.drop after.length with
  | middle :: before => some (before.reverse, middle, after.reverse)
  | [] => none

/-- One matcher for a sequence. -/
def assembled : Nat → List Matcher → Matcher
  | 0, _ => .nothing
  | _ + 1, [] => .nothing
  | _ + 1, [matcher] => matcher
  | fuel + 1, matcher :: rest =>
    match glued? (matcher :: rest) with
    | some whole => whole
    | none =>
      match cutAtLongest? (matcher :: rest) with
      | some (before, middle, after) => .split middle (assembled fuel before) (assembled fuel after)
      | none => .split matcher .nothing (assembled fuel rest)

/-- A matcher by a special case of it that does the same work. -/
def simplified : Matcher → Matcher
  | .choice [matcher] => matcher
  | .oneOf false [character] => .literal (Text.ofCodePoint character)
  | .split (.literal content) left right =>
    match simplified left, simplified right with
    | .nothing, .nothing => .literal content
    | .deepRun, .deepRun => .containing content
    | .deepRun, .nothing => .ending content
    | .nothing, .deepRun => .starting content
    | .nothing, .ending finish => .between content finish
    | .starting start, .nothing => .between start content
    | .run, .nothing => .endingRun content
    | .nothing, .run => .startingRun content
    | left, right => .split (.literal content) left right
  | .split middle left right => .split middle (simplified left) (simplified right)
  | matcher => matcher

/-- One simple matcher for a sequence. -/
def united (matchers : List Matcher) : Matcher :=
  let short := joined matchers.length matchers
  simplified (assembled short.length short)

/-! ## §3 Factoring -/

/-- What is known of the pieces that alternatives have in common. -/
structure Common where
  /-- How many pieces at the start are in common. -/
  left : Nat := 0
  /-- How many pieces at the end are in common. -/
  right : Nat := 0
  leftEnded : Bool := false
  rightEnded : Bool := false
  deriving DecidableEq, Repr, Inhabited

/-- Whether two sequences have the same piece at two places. -/
def sameAt (a b : List Piece) (i j : Nat) : Bool :=
  match a[i]?, b[j]? with
  | some p, some q => p.same q
  | _, _ => false

/-- Compare the piece at a place from the start, and that at the same place from the end, with another alternative. The
two ways end where they meet. -/
def Common.compare (shortest : List Piece) (i : Nat) (c : Common) (other : List Piece) : Common :=
  if c.leftEnded && c.rightEnded then c
  else
    let j := shortest.length - 1 - i
    let leftEnded := c.leftEnded || !sameAt shortest other i i
    let rightEnded := c.rightEnded || (!leftEnded && decide (j ≤ i)) ||
      !sameAt shortest other j (j + other.length - shortest.length)
    { c with leftEnded, rightEnded }

/-- Compare the pieces at the next place from either end with all other alternatives. -/
def Common.step (shortest : List Piece) (others : List (List Piece)) (c : Common) (i : Nat) : Common :=
  if shortest.length ≤ c.left + c.right || (c.leftEnded && c.rightEnded) then c
  else
    let c := others.foldl (Common.compare shortest i) c
    { c with
      left := if c.leftEnded then c.left else c.left + 1
      right := if c.rightEnded then c.right else c.right + 1 }

/-- The first of the shortest alternatives, and all others. -/
def shortest? (alternatives : List (List Piece)) : Option (List Piece × List (List Piece)) := do
  let least ← (alternatives.map List.length).min?
  let before := alternatives.takeWhile (·.length ≠ least)
  match alternatives.drop before.length with
  | shortest :: after => some (shortest, before ++ after)
  | [] => none

/-- What several alternatives have in common. -/
def common? (alternatives : List (List Piece)) : Option Common :=
  if alternatives.length < 2 then none
  else (shortest? alternatives).map fun (shortest, others) =>
    (List.range shortest.length).foldl (Common.step shortest others) {}

/-- Sequences without those that have been there before. -/
def distinct (alternatives : List (List Piece)) : List (List Piece) :=
  alternatives.foldl (fun kept pieces => if kept.any (samePieces pieces) then kept else kept ++ [pieces]) []

/-- Alternatives with their common pieces taken out; none if there are no such pieces. -/
def factored? (alternatives : List (List Piece)) : Option (List Piece) := do
  let c ← common? alternatives
  if c.left = 0 ∧ c.right = 0 then none
  else
    let first := alternatives.headD []
    let start : List Piece := if c.left = 0 then [] else [.group (first.take c.left)]
    let finish : List Piece := if c.right = 0 then [] else [.group (first.drop (first.length - c.right))]
    let rests := distinct (alternatives.map fun pieces => (pieces.drop c.left).take (pieces.length - c.right - c.left))
    let middle : List Piece := match rests with
      | [] | [[]] => []
      | [rest] => [.group rest]
      | rests => [.choice rests]
    some (start ++ middle ++ finish)

/-! ## §4 Plans -/

/-- The matcher of a piece; `sub` makes that of the pieces inside it. -/
def planPiece (sub : List Piece → Matcher) : Piece → Matcher
  | .literal characters => .literal (characters.flatMap Text.ofCodePoint)
  | .run => .run
  | .deepRun => .deepRun
  | .single => .single
  | .oneOf outside characters => .oneOf outside characters
  | .range outside lo hi => .range outside lo hi
  | .group pieces => sub pieces
  | .choice alternatives =>
    match factored? alternatives with
    | some pieces => sub pieces
    | none => .choice (alternatives.map sub)

/-- The matcher of some pieces; `fuel` is more than their weight. -/
def planFrom : Nat → List Piece → Matcher
  | 0, _ => .nothing
  | fuel + 1, pieces =>
    if pieces.isEmpty then .nothing else united (pieces.map fun piece => simplified (planPiece (planFrom fuel) piece))

/-- The matcher of a pattern. -/
def plan (pieces : List Piece) : Matcher := planFrom (weightOf pieces + 1) pieces

end HeaderReflection.PathPattern
