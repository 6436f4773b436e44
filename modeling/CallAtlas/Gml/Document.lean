import CallAtlas.Gml.Value
import CallAtlas.Table

/-!
# Reading graph files

A file is read line by line: `key [` opens a block, `]` closes it, and any other
line sets an attribute of the innermost block. Blocks `node` and `edge` are
collected at whatever depth they stand, in the order in which they close. All
blocks `graph` share one table of attributes.
-/

namespace CallAtlas.Gml

/-- What a graph file holds. -/
structure Document where
  attributes : Table String Value := ⟨[]⟩
  nodes : List (Table String Value) := []
  edges : List (Table String Value) := []
deriving Repr, DecidableEq

/-- Whether the graph is directed: its attribute `directed` is the number one. -/
def Document.directed (d : Document) : Bool :=
  match d.attributes.get? "directed" with
  | some (.int value) => value == 1
  | some (.real value) => value == Double.one
  | _ => false

/-- Why a graph file is refused. Lines count from one. -/
inductive ReadError
  | unexpectedClose (line : Nat)
  | graphExpected (line : Nat) (text : List Char)
  | outsideGraph (line : Nat)
  | unterminated
deriving Repr, DecidableEq

/-- The wording of a read error. -/
def ReadError.message : ReadError → String
  | unexpectedClose line => s!"line {line}: unexpected ']'"
  | graphExpected line text => s!"line {line}: expected 'graph [', got '" ++ String.ofList text ++ "'"
  | outsideGraph line => s!"line {line}: attribute outside graph block"
  | unterminated => "unterminated block at end of input"

/-- An open block. Blocks `graph` have no attributes of their own. -/
structure Block where
  kind : List Char
  attributes : Table String Value := ⟨[]⟩
deriving Repr

/-- The document read so far and the open blocks, the innermost first. -/
structure Progress where
  document : Document := {}
  blocks : List Block := []
deriving Repr

/-- The kind of the blocks that stand for the whole graph. -/
def graphKind : List Char := "graph".toList

/-- What a trimmed line says. -/
inductive LineForm
  | blank
  | close
  | opens (key : List Char)
  | sets (key value : List Char)
deriving Repr, DecidableEq

/-- The form of a trimmed line. A key ends at the first space. -/
def LineForm.of (line : List Char) : LineForm :=
  if line.isEmpty then .blank
  else if line == [']'] then .close
  else
    let key := line.takeWhile (· != ' ')
    let value := Text.trim (line.dropWhile (· != ' ')).tail
    if value == ['['] then .opens key else .sets key value

/-- Closes the innermost block. -/
def Progress.close (p : Progress) (line : Nat) : Except ReadError Progress :=
  match p.blocks with
  | [] => .error (.unexpectedClose line)
  | block :: blocks =>
    let d := p.document
    if block.kind == "node".toList then
      .ok ⟨{ d with nodes := d.nodes ++ [block.attributes] }, blocks⟩
    else if block.kind == "edge".toList then
      .ok ⟨{ d with edges := d.edges ++ [block.attributes] }, blocks⟩
    else .ok ⟨d, blocks⟩

/-- Sets an attribute of the innermost block. -/
def Progress.set (p : Progress) (line : Nat) (key : List Char) (value : Value) :
    Except ReadError Progress :=
  match p.blocks with
  | [] => .error (.outsideGraph line)
  | block :: blocks =>
    let name := String.ofList key
    if block.kind == graphKind then
      let d := p.document
      .ok ⟨{ d with attributes := d.attributes.put name value }, block :: blocks⟩
    else .ok ⟨p.document, { block with attributes := block.attributes.put name value } :: blocks⟩

/-- Reads one trimmed line. -/
def Progress.readLine (p : Progress) (number : Nat) (line : List Char) :
    Except ReadError Progress :=
  match LineForm.of line with
  | .blank => .ok p
  | .close => p.close number
  | .opens key =>
    if p.blocks.isEmpty && key != graphKind then .error (.graphExpected number line)
    else .ok { p with blocks := ⟨key, ⟨[]⟩⟩ :: p.blocks }
  | .sets key value => p.set number key (readValue value)

/-- Reads lines, the first of which has the given number. -/
def Progress.readLines (p : Progress) (number : Nat) : List (List Char) → Except ReadError Progress
  | [] => .ok p
  | line :: lines => do
    let next ← p.readLine number (Text.trim line)
    next.readLines (number + 1) lines

/-- Reads a graph file. -/
def Document.read (s : List Char) : Except ReadError Document := do
  let p ← Progress.readLines {} 1 (Text.lines s)
  if p.blocks.isEmpty then return p.document else throw .unterminated

end CallAtlas.Gml
