import CallAtlas.Gml.Value

/-!
# Writing graph files

A sheet holds the attributes of the nodes and edges of a graph. It is written
one attribute a line, in blocks: two spaces before a block, four before an
attribute. Graphs are directed.
-/

namespace CallAtlas.Gml

/-- The value of an attribute to be written: an integer or a text. -/
inductive Cell
  | int (value : Int)
  | text (value : String)
deriving Repr, DecidableEq

/-- A natural number to be written. -/
def Cell.nat (n : Nat) : Cell :=
  .int (Int.ofNat n)

/-- What a reader finds where a cell was written. -/
def Cell.value : Cell → Value
  | int value => .int value
  | text value => .text value

/-- The attributes of one block, in order. -/
abbrev Attributes := List (String × Cell)

/-- A directed graph to be written. -/
structure Sheet where
  nodes : List Attributes
  edges : List Attributes
deriving Repr, DecidableEq

/-- A cell as it stands in a file. -/
def Cell.write : Cell → String
  | int value => toString value
  | text value => "\"" ++ String.ofList (escape value.toList) ++ "\""

/-- One line of a block. -/
def writeLine (key : String) (cell : Cell) : String :=
  "    " ++ key ++ " " ++ cell.write ++ "\n"

/-- One block. -/
def writeBlock (kind : String) (attributes : Attributes) : String :=
  "  " ++ kind ++ " [\n" ++ String.join (attributes.map fun (key, cell) => writeLine key cell) ++
    "  ]\n"

/-- A whole file. -/
def Sheet.write (sheet : Sheet) : String :=
  "graph [\n  directed 1\n" ++ String.join (sheet.nodes.map (writeBlock "node")) ++
    String.join (sheet.edges.map (writeBlock "edge")) ++ "]\n"

end CallAtlas.Gml
