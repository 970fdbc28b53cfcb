import HeaderReflection.Text.Blank
import HeaderReflection.Text.Order
import HeaderReflection.Text.Quoted

/-!
# Block documents

A table that several modules share is a text with named blocks between marker lines. Each module owns the blocks of
its name. Blocks do not nest, and every line outside a block stays as it is.

## Main definitions

- `Block`, `BlockDocument`: a document as plain lines and blocks.
- `BlockDocument.parse`: from text, with `BlockFault` for marker lines that do not pair up.
- `BlockDocument.render`: back to text; this undoes `parse` but for carriage returns.
- `Block.text`, `Block.setText`: the body of a block without and with its indentation.
- `BlockDocument.apply`: replacing, clearing and adding blocks.
-/

namespace HeaderReflection

/-- A named region of a document. The marker lines are kept as they were read. -/
structure Block where
  name : Text
  /-- The spaces and tabs in front of the marker that opens the block. -/
  indent : Text
  start : Text
  finish : Text
  body : List Text := []
  deriving DecidableEq, Repr, Inhabited

namespace Block

/-- What opens a block, in front of its name. -/
def startMarker : Text := "// block start "

/-- What closes a block, in front of its name. -/
def endMarker : Text := "// block end "

/-- An empty block. -/
def ofName (name indent : Text) : Block where
  name := name
  indent := indent
  start := indent ++ startMarker ++ name
  finish := indent ++ endMarker ++ name

/-- The lines of the body without the block's indentation. -/
def text (b : Block) : Text := Text.unlines (b.body.map (Text.trimPrefix b.indent))

/-- A line of a body with the block's indentation; a blank line becomes empty. -/
def indentLine (indent line : Text) : Text := if line.isBlank then [] else indent ++ line

/-- The lines of a body that holds a text. Line ends at the end of the text do not count, and an empty text makes an
empty body. -/
def bodyOfText (indent text : Text) : List Text :=
  if text = [] then []
  else (Text.splitOn Text.lineFeed (Text.trimEndOf [Text.lineFeed] text)).map (indentLine indent)

/-- The block with a new text. -/
def setText (b : Block) (text : Text) : Block := { b with body := bodyOfText b.indent text }

/-- All lines of a block. -/
def lines (b : Block) : List Text := b.start :: b.body ++ [b.finish]

/-- The name in a line that holds a marker, and the spaces and tabs in front of it. -/
def ofMarkerLine? (marker line : Text) : Option (Text × Text) :=
  (Text.stripPrefix? marker line.trim).map fun rest =>
    (Text.trim rest, line.takeWhile fun b => b = Text.byte ' ' || b = Text.byte '\t')

end Block

/-- A piece of a document. -/
inductive BlockNode where
  | line (text : Text)
  | block (block : Block)
  deriving DecidableEq, Repr, Inhabited

/-- The block of a piece. -/
def BlockNode.block? : BlockNode → Option Block
  | .line _ => none
  | .block b => some b

/-- The lines of a piece. -/
def BlockNode.lines : BlockNode → List Text
  | .line text => [text]
  | .block b => b.lines

/-- A text as plain lines and blocks. -/
structure BlockDocument where
  nodes : List BlockNode := []
  /-- Whether the text ends with a line end. -/
  endsLine : Bool := false
  deriving DecidableEq, Repr, Inhabited

/-- How marker lines can fail to pair up. Lines count from one. -/
inductive BlockFault where
  /-- An end marker with another name than the open block. -/
  | closesOther (line : Nat) (name openName : Text)
  /-- An end marker where no block is open. -/
  | neverOpened (line : Nat) (name : Text)
  /-- A start marker inside an open block. -/
  | opensInside (line : Nat) (openName : Text)
  /-- A block that is open at the end of the text. -/
  | unterminated (openName : Text)
  deriving DecidableEq, Repr, Inhabited

/-- The wording of a fault. -/
def BlockFault.message : BlockFault → Text
  | .closesOther line name openName =>
    "line " ++ Text.decimal line ++ ": mismatched block end: " ++ Text.quoted name ++ " closes " ++
      Text.quoted openName
  | .neverOpened line name =>
    "line " ++ Text.decimal line ++ ": mismatched block end: " ++ Text.quoted name ++ " was never opened"
  | .opensInside line openName =>
    "line " ++ Text.decimal line ++ ": unterminated block: " ++ Text.quoted openName
  | .unterminated openName => "unterminated block: " ++ Text.quoted openName

namespace BlockDocument

/-! ## §1 Reading and writing -/

/-- Read lines, the first of which has the given number, while a block may be open. -/
def parseLines : Nat → Option Block → List Text → Except BlockFault (List BlockNode)
  | _, none, [] => .ok []
  | _, some b, [] => .error (.unterminated b.name)
  | number, some b, line :: lines =>
    match Block.ofMarkerLine? Block.endMarker line with
    | some (name, _) =>
      if name = b.name then do
        let nodes ← parseLines (number + 1) none lines
        return .block { b with finish := line } :: nodes
      else .error (.closesOther number name b.name)
    | none =>
      match Block.ofMarkerLine? Block.startMarker line with
      | some _ => .error (.opensInside number b.name)
      | none => parseLines (number + 1) (some { b with body := b.body ++ [line] }) lines
  | number, none, line :: lines =>
    match Block.ofMarkerLine? Block.startMarker line with
    | some (name, indent) =>
      parseLines (number + 1) (some { Block.ofName name indent with start := line }) lines
    | none =>
      match Block.ofMarkerLine? Block.endMarker line with
      | some (name, _) => .error (.neverOpened number name)
      | none => do
        let nodes ← parseLines (number + 1) none lines
        return .line line :: nodes

/-- Read a document. -/
def parse (text : Text) : Except BlockFault BlockDocument :=
  let text := text.unixLines
  if text = [] then .ok {}
  else do
    let body := Text.trimSuffix [Text.lineFeed] text
    let nodes ← parseLines 1 none (Text.splitOn Text.lineFeed body)
    return { nodes, endsLine := Text.endsWith [Text.lineFeed] text }

/-- The lines of a document. -/
def lines (d : BlockDocument) : List Text := d.nodes.flatMap BlockNode.lines

/-- The text of a document. -/
def render (d : BlockDocument) : Text :=
  Text.unlines d.lines ++ if d.endsLine ∧ d.nodes ≠ [] then [Text.lineFeed] else []

/-! ## §2 Blocks -/

/-- The blocks in their order. -/
def blocks (d : BlockDocument) : List Block := d.nodes.filterMap BlockNode.block?

/-- The first block with a name. -/
def block? (d : BlockDocument) (name : Text) : Option Block := d.blocks.find? (·.name = name)

/-- Texts by block names, each name once. -/
abbrev Bodies := List (Text × Text)

/-- The text for a name. -/
def Bodies.get? (bodies : Bodies) (name : Text) : Option Text := (bodies.find? (·.1 = name)).map (·.2)

/-- Give a name a text, in the place of the one it has. -/
def Bodies.set (bodies : Bodies) (name text : Text) : Bodies :=
  bodies.filter (·.1 ≠ name) ++ [(name, text)]

/-- The texts of the blocks by their names; of several blocks with one name the last counts. -/
def bodies (d : BlockDocument) : Bodies := d.blocks.foldl (fun bodies b => bodies.set b.name b.text) []

/-- Change the first block with a name. -/
def modifyFirst (f : Block → Block) (name : Text) : List BlockNode → List BlockNode
  | [] => []
  | .line text :: nodes => .line text :: modifyFirst f name nodes
  | .block b :: nodes => if b.name = name then .block (f b) :: nodes else .block b :: modifyFirst f name nodes

/-- Give the first block with a name a new text. -/
def setBlockText (d : BlockDocument) (name text : Text) : BlockDocument :=
  { d with nodes := modifyFirst (·.setText text) name d.nodes }

/-! ## §3 Applying texts -/

/-- What becomes of a block: it gets the text for its name, or is cleared if there is none. Blocks with the sentinel's
name keep their body when there is no text for them. -/
def updateBlock (bodies : Bodies) (sentinel : Text) (b : Block) : Block :=
  match bodies.get? b.name with
  | some text => b.setText text
  | none => if b.name = sentinel then b else b.setText []

/-- What becomes of a piece of a document. -/
def updateNode (bodies : Bodies) (sentinel : Text) : BlockNode → BlockNode
  | .line text => .line text
  | .block b => .block (updateBlock bodies sentinel b)

/-- The names that have a text and no block, in byte order. -/
def missingNames (d : BlockDocument) (bodies : Bodies) : List Text :=
  Text.sort ((bodies.map (·.1)).filter fun name => (d.block? name).isNone)

/-- A new block with its text. -/
def newBlock (bodies : Bodies) (indent name : Text) : BlockNode :=
  .block ((Block.ofName name indent).setText ((bodies.get? name).getD []))

/-- The indentation of new blocks where there is no sentinel. -/
def defaultIndent : Text := "    "

/-- Whether a piece of a document is a block with the sentinel's name. -/
def isSentinel (sentinel : Text) (node : BlockNode) : Bool :=
  match node.block? with
  | some b => b.name = sentinel
  | none => false

/-- Put new blocks before the first block with the sentinel's name and give them its indentation; without such a block
they go to the end. -/
def insertBlocks (bodies : Bodies) (names : List Text) (sentinel : Text) (nodes : List BlockNode) :
    List BlockNode :=
  let before := nodes.takeWhile (!isSentinel sentinel ·)
  let after := nodes.dropWhile (!isSentinel sentinel ·)
  let indent := match after.head?.bind BlockNode.block? with
    | some b => b.indent
    | none => defaultIndent
  before ++ names.map (newBlock bodies indent) ++ after

/-- Apply texts to a document: blocks with a text get it, other blocks are cleared but for the sentinel, and names
without a block become new blocks before the sentinel. -/
def apply (d : BlockDocument) (bodies : Bodies) (sentinel : Text) : BlockDocument :=
  { d with
    nodes := insertBlocks bodies (d.missingNames bodies) sentinel (d.nodes.map (updateNode bodies sentinel)) }

end BlockDocument

end HeaderReflection
