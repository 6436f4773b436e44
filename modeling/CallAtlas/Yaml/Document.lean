import CallAtlas.Text.Piecewise
import CallAtlas.Yaml.Node
import CallAtlas.Yaml.Value

/-!
# Documents

The value of a document is made from its nodes. A scalar is made where it is met. A
collection is made empty and filled later, in the order in which collections were
met, so that it may hold itself and the first fault in this order is told.

The key `<<` merges mappings into a mapping, whose own entries go before theirs. A
mapping that stands for a scalar has it under the key `=`.
-/

namespace CallAtlas.Yaml

/-- What is made of a node. Parts that are no keys are told by their nodes. -/
inductive Cell
  | scalar (value : Value)
  | list (items : List NodeId)
  | pairs (items : List (NodeId × NodeId))
  | set (keys : List Value)
  | record (entries : List (Value × NodeId))
deriving Inhabited

/-- What is made so far. -/
structure Building where
  nodes : Array Node
  /-- What is made of each node. -/
  cells : Array (Option Cell)
  /-- The collections that are still to be filled. -/
  waiting : List NodeId := []

/-- A step of making values. -/
abbrev Build (α : Type) := StateT Building (Except Fault) α

namespace Build

/-- A node. -/
def node (id : NodeId) : Build Node := do
  return (← get).nodes.getD id default

/-- The entries of a mapping. -/
def entries (id : NodeId) : Build (List (NodeId × NodeId)) := do
  match (← node id).content with
  | .mapping entries => return entries
  | _ => throw .malformed

/-- Gives a mapping other entries. -/
def setEntries (id : NodeId) (entries : List (NodeId × NodeId)) : Build Unit :=
  modify fun b =>
    { b with nodes := b.nodes.modify id fun node => { node with content := .mapping entries } }

/-- Makes a key a text. -/
def makeText (id : NodeId) : Build Unit :=
  modify fun b => { b with nodes := b.nodes.modify id fun node => { node with tag := .text } }

/-- Says what is made of a node. -/
def put (id : NodeId) (cell : Cell) : Build Unit :=
  modify fun b => { b with cells := b.cells.setIfInBounds id (some cell) }

/-- What is made of a node, if it is made. -/
def cell? (id : NodeId) : Build (Option Cell) := do
  return (← get).cells.getD id none

end Build

/-! ## Merging -/

/-- Replaces the merging keys of a mapping, from an index on, by the entries of the mappings they
merge, which are merged themselves first. These entries go before its own; of several mappings the
last goes first. -/
def mergeFrom : (bound : Nat) → NodeId → (index : Nat) → (merged : List (NodeId × NodeId)) →
    Build Unit
  | 0, _, _, _ => throw .malformed
  | bound + 1, id, index, merged => do
    let entries ← Build.entries id
    match entries[index]? with
    | none => if !merged.isEmpty then Build.setEntries id (merged ++ entries)
    | some (key, value) =>
      match (← Build.node key).tag with
      | .merge =>
        Build.setEntries id (entries.eraseIdx index)
        match (← Build.node value).content with
        | .mapping _ =>
          mergeFrom bound value 0 []
          mergeFrom bound id index (merged ++ (← Build.entries value))
        | .sequence items =>
          let parts ← items.mapM fun item => do
            discard (Build.entries item)
            mergeFrom bound item 0 []
            Build.entries item
          mergeFrom bound id index (merged ++ parts.reverse.flatten)
        | .scalar _ => throw .malformed
      | .value =>
        Build.makeText key
        mergeFrom bound id (index + 1) merged
      | _ => mergeFrom bound id (index + 1) merged

/-- A bound on the steps of merging: every merging key multiplies the entries at most by the
number of nodes. -/
def mergeBound (nodes : Array Node) : Nat :=
  Nat.pow (nodes.size + 2) ((nodes.toList.filter (·.tag == .merge)).length + 2)

/-! ## Making values -/

/-- The text of a scalar, or of the scalar for which a mapping stands. -/
def scalarText : (bound : Nat) → NodeId → Build String
  | 0, _ => throw .malformed
  | bound + 1, id => do
    match (← Build.node id).content with
    | .scalar s => return s
    | .sequence _ => throw .malformed
    | .mapping entries =>
      let isValue := fun ((key, _) : NodeId × NodeId) => do
        return (← Build.node key).tag == .value
      match ← entries.findM? isValue with
      | some (_, value) => scalarText bound value
      | none => throw .malformed

/-- The value of a scalar, or of a mapping that stands for one. Moments alone look at the node
itself and are no mappings. -/
def makeScalar (id : NodeId) (node : Node) : Build Value := do
  if [Tag.merge, .value, .other].contains node.tag then throw .malformed
  let s ← scalarText ((← get).nodes.size + 1) id
  match node.tag, node.content with
  | .moment, .mapping _ => throw .momentInRecord
  | tag, _ => Value.ofScalar tag s

/-- The empty collection that a tag tells. -/
def emptyCell? : Tag → Option Cell
  | .list => some (.list [])
  | .record => some (.record [])
  | .set => some (.set [])
  | .pairs => some (.pairs [])
  | _ => none

/-- Makes a node, unless it is made. A collection is filled later. -/
def make (id : NodeId) : Build Unit := do
  if (← Build.cell? id).isNone then
    let node ← Build.node id
    match emptyCell? node.tag with
    | some cell =>
      Build.put id cell
      modify fun b => { b with waiting := b.waiting ++ [id] }
    | none => Build.put id (.scalar (← makeScalar id node))

/-- Makes a key, which is no collection. -/
def makeKey (id : NodeId) : Build Value := do
  make id
  match ← Build.cell? id with
  | some (.scalar v) => return v
  | _ => throw .malformed

/-- Makes the entries of a mapping. -/
def makeEntries (bound : Nat) (id : NodeId) : Build (List (Value × NodeId)) := do
  discard (Build.entries id)
  mergeFrom bound id 0 []
  (← Build.entries id).mapM fun (key, value) => do
    let k ← makeKey key
    make value
    return (k, value)

/-- The keys of a mapping, each once. -/
def distinctKeys (keys : List Value) : List Value :=
  keys.foldl (fun found k => if found.any (·.sameKey k) then found else found ++ [k]) []

/-- The items of a sequence. -/
def itemsOf (id : NodeId) : Build (List NodeId) := do
  match (← Build.node id).content with
  | .sequence items => return items
  | _ => throw .malformed

/-- Fills a collection. -/
def fillCell (bound : Nat) (id : NodeId) : Build Unit := do
  match (← Build.node id).tag with
  | .list =>
    let items ← itemsOf id
    items.forM make
    Build.put id (.list items)
  | .pairs =>
    let pairs ← (← itemsOf id).mapM fun item => do
      match ← Build.entries item with
      | [(key, value)] =>
        make key
        make value
        return (key, value)
      | _ => throw .malformed
    Build.put id (.pairs pairs)
  | .set =>
    let entries ← makeEntries bound id
    Build.put id (.set (distinctKeys (entries.map Prod.fst)))
  | _ => Build.put id (.record (← makeEntries bound id))

/-- Fills the collections that wait, and those that are met on the way. Each node waits once. -/
def fillAll (mergeBound : Nat) : (bound : Nat) → Build Unit
  | 0 => throw .malformed
  | bound + 1 => do
    match (← get).waiting with
    | [] => return ()
    | id :: waiting =>
      modify fun b => { b with waiting }
      fillCell mergeBound id
      fillAll mergeBound bound

/-- How many levels of collections below the outermost one are told; collections further in
count as empty. -/
def toldLevels : Nat := 4

/-- The value of a node, as deep as levels are told. -/
def Building.value (b : Building) : (levels : Nat) → NodeId → Value
  | levels, id =>
    let part (id : NodeId) : Value :=
      match levels with
      | 0 => .null
      | levels + 1 => b.value levels id
    let parts (ids : List NodeId) : List Value := if levels = 0 then [] else ids.map part
    match (b.cells.getD id none).getD (.scalar .null) with
    | .scalar v => v
    | .list items => .list (parts items)
    | .pairs items =>
      .list (if levels = 0 then [] else items.map fun (a, c) => .pair (part a) (part c))
    | .set keys => .set keys
    | .record entries =>
      .record (if levels = 0 then [] else entries.map fun (k, id) => (k, part id))

/-! ## Reading -/

/-- Whether a character may stand in a text. -/
def isAllowed (c : Char) : Bool :=
  let n := c.toNat
  c == '\t' || c == '\n' || c == '\r' || (0x20 ≤ n && n ≤ 0x7e) || n == 0x85 ||
    (0xa0 ≤ n && n ≤ 0xd7ff) || (0xe000 ≤ n && n ≤ 0xfffd) || 0x10000 ≤ n

/-- A text as far as it can be read, and what stops it. A character that may not stand in it stops
it where the request starts that gives it; the first two requests are made at once. -/
def readable (d : Text.Delivery) : List Char × Option Fault :=
  let allowed := (d.text.takeWhile isAllowed).length
  if allowed < d.text.length then
    let requests := allowed / Text.requestSize
    (if requests < 2 then [] else d.text.take (requests * Text.requestSize), some .malformed)
  else (d.text, d.fault.map .encoding)

/-- The value of a text. One without tokens is nothing. -/
def Value.read (d : Text.Delivery) : Except Fault Value := do
  let (s, stop) := readable d
  let (nodes, root) ← readNodes s stop
  match root with
  | none => return .null
  | some root =>
    let start : Building := { nodes, cells := Array.replicate nodes.size none }
    let (_, b) ← (do make root; fillAll (mergeBound nodes) (nodes.size + 1)).run start
    return b.value toldLevels root

end CallAtlas.Yaml
