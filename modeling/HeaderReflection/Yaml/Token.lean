import HeaderReflection.Yaml.Lexeme

/-!
# Tokens of a document

A document is a sequence of tokens. Indentation is part of it: tokens that are not written tell where block collections
start and end. Whether a scalar is a key is known only at the colon behind it, so tokens wait in a queue as long as a
key may have to be put in front of them. Three tokens are kept ready at any time.

## Main definitions

- `Yaml.Token`: the tokens.
- `Yaml.KeyCandidate`: a place where a key may have started.
- `Yaml.Lexer`: a stream that is being cut into tokens.
- `Yaml.Lexer.fetch?`: read one more token.
- `Yaml.Lexer.peek?`, `Yaml.Lexer.drop`: the next token.
-/

namespace HeaderReflection.Yaml

/-- A token of a document. -/
inductive Token where
  | directive (directive : Directive)
  | documentStart
  | documentEnd
  | streamEnd
  | sequenceStart
  | mappingStart
  /-- The end of a block collection. -/
  | blockEnd
  | openBracket
  | closeBracket
  | openBrace
  | closeBrace
  /-- The dash of an item. -/
  | dash
  | comma
  | key
  | value
  /-- A name that stands for a node with that anchor. -/
  | reference (name : Text)
  | anchor (name : Text)
  | tag (handle suffix : Text)
  | scalar (content : Text) (isPlain : Bool)
  deriving DecidableEq, Repr, Inhabited

/-- A place where a key may have started. -/
structure KeyCandidate where
  possible : Bool := false
  /-- Whether nothing but a key can stand at the place. -/
  required : Bool := false
  /-- The number of its first token. -/
  token : Nat := 0
  index : Nat := 0
  line : Nat := 0
  column : Nat := 0
  deriving DecidableEq, Repr, Inhabited

/-- A stream that is being cut into tokens. -/
structure Lexer where
  cursor : Cursor
  /-- The number of open brackets and braces. -/
  flowLevel : Nat := 0
  /-- The indentation of the innermost block collection. -/
  indent : Int := -1
  /-- The indentations around it, innermost first. -/
  outerIndents : List Int := []
  /-- Whether a key may start here. -/
  keyAllowed : Bool := true
  /-- The candidate of the innermost level, then those of the levels around it. -/
  candidate : KeyCandidate := {}
  outerCandidates : List KeyCandidate := []
  /-- The numbers of the tokens that wait for a colon, with the levels of their candidates. -/
  waiting : List (Nat × Nat) := []
  /-- The tokens that have been read and not been taken. -/
  queue : List Token := []
  /-- The number of tokens that have been taken. -/
  taken : Nat := 0
  deriving Repr, Inhabited

namespace Lexer

/-- Whether brackets or braces are open. -/
def inFlow (l : Lexer) : Bool := 0 < l.flowLevel

/-- The deepest nesting that is read. -/
def depthLimit : Nat := 10000

/-! ## §1 The queue -/

/-- Add a token. -/
def push (l : Lexer) (token : Token) : Lexer := { l with queue := l.queue ++ [token] }

/-- The number of the token that is added next. -/
def nextNumber (l : Lexer) : Nat := l.taken + l.queue.length

/-- Put a token in front of the one with a number; if that has been taken, at the end. -/
def insert (l : Lexer) (number : Nat) (token : Token) : Lexer :=
  if number < l.taken then l.push token
  else
    let place := number - l.taken
    { l with queue := l.queue.take place ++ token :: l.queue.drop place }

/-! ## §2 Keys -/

/-- The length of the longest text before the colon of a key. -/
def keyReach : Nat := 1024

/-- Whether a key has started at a place: the colon must follow on the same line and not too far away. None if there
must be a key and cannot be one. -/
def isCandidate? (l : Lexer) (k : KeyCandidate) : Option Bool :=
  if !k.possible then some false
  else if k.line < l.cursor.line ∨ k.index + keyReach < l.cursor.index then
    if k.required then none else some false
  else some true

/-- Give up the candidate of the innermost level. None if there must be a key. -/
def dropCandidate? (l : Lexer) : Option Lexer :=
  if !l.candidate.possible then some l
  else if l.candidate.required then none
  else some { l with
    candidate := { l.candidate with possible := false }
    waiting := l.waiting.filter (·.1 ≠ l.candidate.token) }

/-- Note that a key may start here. In a block it must, if the column is that of the block. -/
def noteCandidate? (l : Lexer) : Option Lexer :=
  if !l.keyAllowed then some l
  else do
    let required := !l.inFlow && l.indent = l.cursor.column
    let token := l.nextNumber
    let l ← l.dropCandidate?
    return { l with
      candidate :=
        { possible := true, required, token, index := l.cursor.index, line := l.cursor.line,
          column := l.cursor.column }
      waiting := (token, l.outerCandidates.length) :: l.waiting.filter (·.1 ≠ token) }

/-- Enter a bracket or a brace. -/
def enter? (l : Lexer) : Option Lexer :=
  if depthLimit ≤ l.flowLevel then none
  else some { l with
    flowLevel := l.flowLevel + 1
    candidate := { token := l.nextNumber, index := l.cursor.index, line := l.cursor.line, column := l.cursor.column }
    outerCandidates := l.candidate :: l.outerCandidates }

/-- Leave a bracket or a brace. -/
def leave (l : Lexer) : Lexer :=
  match l.outerCandidates with
  | outer :: outers =>
    { l with
      flowLevel := l.flowLevel - 1
      candidate := outer
      outerCandidates := outers
      waiting := l.waiting.filter (·.1 ≠ l.candidate.token) }
  | [] => l

/-! ## §3 Indentation -/

/-- Start a block collection at a column, if it is indented further than the one around it. Its token goes in front of
the one with the given number, or to the end. -/
def indentTo? (l : Lexer) (column : Nat) (number : Option Nat) (token : Token) : Option Lexer :=
  if l.inFlow ∨ (column : Int) ≤ l.indent then some l
  else if depthLimit ≤ l.outerIndents.length then none
  else
    let l := { l with indent := column, outerIndents := l.indent :: l.outerIndents }
    match number with
    | some number => some (l.insert number token)
    | none => some (l.push token)

/-- End the block collections that are indented further than a column. -/
def dedentTo (column : Int) : List Int → Lexer → Lexer
  | [], l => l
  | outer :: outers, l =>
    if l.indent ≤ column then l
    else dedentTo column outers ({ l with indent := outer, outerIndents := outers }.push .blockEnd)

/-- End the block collections that are indented further than a column. Between brackets indentation means nothing. -/
def dedent (l : Lexer) (column : Int) : Lexer := if l.inFlow then l else dedentTo column l.outerIndents l

/-! ## §4 Gaps between tokens -/

/-- Move on to the next token. In a block, a line end allows a key. -/
def skipGaps : Nat → Lexer → Lexer
  | 0, l => l
  | fuel + 1, l =>
    let c := l.cursor
    let c := if c.column = 0 ∧ c.marked ∧ 4 ≤ c.rest.length then c.steps 1 else c
    let c := c.stepWhile fun b => b = 32 || (b = 9 && (l.inFlow || !l.keyAllowed))
    let c := if c.sees 0 '#' then c.skipComments c.rest.length else c
    if c.atBreak then skipGaps fuel { l with cursor := c.nextLine, keyAllowed := l.keyAllowed || !l.inFlow }
    else { l with cursor := c }

/-! ## §5 Reading tokens -/

/-- Read a mark of some characters. -/
def mark (l : Lexer) (width : Nat) (token : Token) : Lexer :=
  { l with cursor := l.cursor.steps width }.push token

/-- Leave all block collections before a line that belongs to none. -/
def leaveBlocks? (l : Lexer) : Option Lexer := do
  let l ← (l.dedent (-1)).dropCandidate?
  return { l with keyAllowed := false }

/-- Read the end of the stream. It can be read any number of times. -/
def fetchEnd? (l : Lexer) : Option Lexer := do
  let c := l.cursor
  let c := if c.column = 0 then c else { c with column := 0, line := c.line + 1 }
  return (← { l with cursor := c }.leaveBlocks?).push .streamEnd

/-- Read a directive. -/
def fetchDirective? (l : Lexer) : Option Lexer := do
  let l ← l.leaveBlocks?
  let (directive, cursor) ← directive? l.cursor
  return { l with cursor }.push (.directive directive)

/-- Read a document marker. -/
def fetchMarker? (l : Lexer) : Option Lexer := do
  let l ← l.leaveBlocks?
  return l.mark 3 (if l.cursor.sees 0 '-' then .documentStart else .documentEnd)

/-- Read an opening bracket or brace. -/
def fetchOpening? (l : Lexer) (token : Token) : Option Lexer := do
  let l ← (← l.noteCandidate?).enter?
  return { l with keyAllowed := true }.mark 1 token

/-- Read a closing bracket or brace. -/
def fetchClosing? (l : Lexer) (token : Token) : Option Lexer := do
  let l := (← l.dropCandidate?).leave
  return { l with keyAllowed := false }.mark 1 token

/-- Read a comma. -/
def fetchComma? (l : Lexer) : Option Lexer := do
  let l ← l.dropCandidate?
  return { l with keyAllowed := true }.mark 1 .comma

/-- Read the dash of an item. -/
def fetchDash? (l : Lexer) : Option Lexer := do
  guard (l.inFlow || l.keyAllowed)
  let l ← (← l.indentTo? l.cursor.column none .sequenceStart).dropCandidate?
  return { l with keyAllowed := true }.mark 1 .dash

/-- Read the question mark of a key. -/
def fetchKey? (l : Lexer) : Option Lexer := do
  guard (l.inFlow || l.keyAllowed)
  let l ← (← l.indentTo? l.cursor.column none .mappingStart).dropCandidate?
  return { l with keyAllowed := !l.inFlow }.mark 1 .key

/-- Read a colon. If a key has started on the line, its token is put in front of it. -/
def fetchValue? (l : Lexer) : Option Lexer := do
  let k := l.candidate
  if ← l.isCandidate? k then
    let l ← (l.insert k.token .key).indentTo? k.column (some k.token) .mappingStart
    let l := { l with
      candidate := { k with possible := false }
      waiting := l.waiting.filter (·.1 ≠ k.token)
      keyAllowed := false }
    return l.mark 1 .value
  else
    guard (l.inFlow || l.keyAllowed)
    let l ← l.indentTo? l.cursor.column none .mappingStart
    return { l with candidate := { k with possible := false }, keyAllowed := !l.inFlow }.mark 1 .value

/-- Read the name of an anchor, or a name that stands for a node. -/
def fetchName? (l : Lexer) (token : Text → Token) : Option Lexer := do
  let l ← l.noteCandidate?
  let (name, cursor) ← anchorName? l.cursor
  return { l with cursor, keyAllowed := false }.push (token name)

/-- Read a tag. -/
def fetchTag? (l : Lexer) : Option Lexer := do
  let l ← l.noteCandidate?
  let (handle, suffix, cursor) ← tag? l.cursor
  return { l with cursor, keyAllowed := false }.push (.tag handle suffix)

/-- Read a block. -/
def fetchBlock? (l : Lexer) : Option Lexer := do
  let l ← l.dropCandidate?
  let (content, cursor) ← block? l.indent l.cursor
  return { l with cursor, keyAllowed := true }.push (.scalar content false)

/-- Read a scalar in quotes. -/
def fetchQuoted? (l : Lexer) : Option Lexer := do
  let l ← l.noteCandidate?
  let (content, cursor) ← quoted? l.cursor
  return { l with cursor, keyAllowed := false }.push (.scalar content false)

/-- Read a plain scalar. A key may follow on the next line. -/
def fetchPlain? (l : Lexer) : Option Lexer := do
  let l ← l.noteCandidate?
  let (content, broken, cursor) ← plain? l.inFlow (l.indent + 1).toNat l.cursor
  return { l with cursor, keyAllowed := broken }.push (.scalar content true)

/-- The characters that cannot start a plain scalar. -/
def indicators : List Nat := "-?:,[]\x7b\x7d#&*!|>'\"%@\x60".toList.map Char.toNat

/-- Whether a plain scalar can start here. -/
def startsPlain (l : Lexer) : Bool :=
  let c := l.cursor
  let free := match c.rest with
    | b :: _ => !isGap b && !indicators.contains b
    | [] => false
  free || (c.sees 0 '-' && !c.seesBlank 1) || (!l.inFlow && (c.sees 0 '?' || c.sees 0 ':') && !c.seesGap 1)

/-- Read a token that starts with the given character. -/
def fetchAt? (l : Lexer) (first : Nat) : Option Lexer :=
  let c := l.cursor
  let is (character : Char) : Bool := first = character.toNat
  if is '[' then l.fetchOpening? .openBracket
  else if is '{' then l.fetchOpening? .openBrace
  else if is ']' then l.fetchClosing? .closeBracket
  else if is '}' then l.fetchClosing? .closeBrace
  else if is ',' then l.fetchComma?
  else if is '-' && c.seesGap 1 then l.fetchDash?
  else if is '?' && (l.inFlow || c.seesGap 1) then l.fetchKey?
  else if is ':' && (l.inFlow || c.seesGap 1) then l.fetchValue?
  else if is '*' then l.fetchName? .reference
  else if is '&' then l.fetchName? .anchor
  else if is '!' then l.fetchTag?
  else if (is '|' || is '>') && !l.inFlow then l.fetchBlock?
  else if is '\'' || is '"' then l.fetchQuoted?
  else if l.startsPlain then l.fetchPlain?
  else none

/-- Move past a comment behind a token. A dash has none: a comment behind it belongs to the item. -/
def skipLineComment (l : Lexer) : Lexer :=
  if l.queue.getLast? = some .dash then l else { l with cursor := l.cursor.skipLineComment }

/-- Read one more token. -/
def fetch? (l : Lexer) : Option Lexer :=
  let l := l.skipGaps (l.cursor.rest.length + 1)
  let l := l.dedent l.cursor.column
  match l.cursor.rest with
  | [] => l.fetchEnd?
  | first :: _ =>
    if l.cursor.column = 0 ∧ first = '%'.toNat then l.fetchDirective?
    else if l.cursor.atMarker then l.fetchMarker?
    else (l.fetchAt? first).map skipLineComment

/-! ## §6 Taking tokens -/

/-- The candidate of a level, counted from the outermost one. -/
def candidateAt? (l : Lexer) (level : Nat) : Option KeyCandidate :=
  (l.candidate :: l.outerCandidates).reverse[level]?

/-- Whether the next token may still become a key. -/
def isWaiting? (l : Lexer) : Option Bool :=
  match l.waiting.find? (·.1 = l.taken) with
  | none => some false
  | some (_, level) =>
    match l.candidateAt? level with
    | none => some false
    | some k => l.isCandidate? k

/-- Read tokens until three are ready and the first one cannot become a key. -/
def fill? : Nat → Lexer → Option Lexer
  | 0, _ => none
  | fuel + 1, l =>
    if l.queue.length < 3 then (l.fetch?).bind (fill? fuel)
    else do
      if ← l.isWaiting? then (l.fetch?).bind (fill? fuel) else return l

/-- The next token. -/
def peek? (l : Lexer) : Option (Token × Lexer) := do
  let l ← fill? (l.cursor.rest.length + 4) l
  return (← l.queue.head?, l)

/-- Take the next token, which has been looked at. -/
def drop (l : Lexer) : Lexer := { l with queue := l.queue.drop 1, taken := l.taken + 1 }

end Lexer

end HeaderReflection.Yaml
