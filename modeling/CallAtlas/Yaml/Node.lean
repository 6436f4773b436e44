import CallAtlas.Yaml.Form
import CallAtlas.Yaml.Token

/-!
# Nodes

A document is a graph of nodes: scalars, sequences and mappings, each with a tag.
Anchors name nodes, and aliases stand for the nodes named before them. A collection
has its name while its parts are read, so that a part may stand for the whole.

The readers take a bound on their steps; a few times the number of characters is
enough.
-/

namespace CallAtlas.Yaml

/-- The number of a node. -/
abbrev NodeId := Nat

/-- What a node holds. -/
inductive Content
  | scalar (text : String)
  | sequence (items : List NodeId)
  | mapping (entries : List (NodeId × NodeId))
deriving Repr, DecidableEq

/-- A node. -/
structure Node where
  tag : Tag
  content : Content
deriving Repr, DecidableEq

instance : Inhabited Node := ⟨.other, .scalar ""⟩

/-- The nodes read so far, their names, the handles of tags and the tokens to come. -/
structure Reading where
  layout : Layout
  nodes : Array Node := #[]
  anchors : List (String × NodeId) := []
  handles : TagHandles := defaultHandles

/-- A reader of tokens. -/
abbrev Read (α : Type) := StateT Reading (Except Fault) α

namespace Read

/-- A text that is not well formed. -/
def refuse {α : Type} : Read α :=
  throw .malformed

/-- The next token. -/
def next : Read Token := do
  let r ← get
  let layout ← r.layout.fill r.layout.bound
  set { r with layout }
  return layout.queue.head?.getD .textEnd

/-- Goes past the token that was seen last. -/
def advance : Read Unit :=
  modify fun r =>
    { r with layout := { r.layout with queue := r.layout.queue.tail, given := r.layout.given + 1 } }

/-- Goes past a token if it comes next, and says whether it did. -/
def accept (t : Token) : Read Bool := do
  if (← next) == t then
    advance
    return true
  else return false

/-- Goes past a token, which must come next. -/
def expect (t : Token) : Read Unit := do
  if !(← accept t) then refuse

/-- Whether one of some tokens comes next. -/
def sees (ts : List Token) : Read Bool := do
  return ts.contains (← next)

/-- The anchor that comes next, if one does. -/
def anchor : Read (Option String) := do
  match ← next with
  | .anchor name =>
    advance
    return some name
  | _ => return none

/-- The tag that comes next, if one does. -/
def tag : Read (Option TagText) := do
  match ← next with
  | .tag text =>
    advance
    return some text
  | _ => return none

/-- The anchor and the name of the tag before a node, in either order. -/
def properties : Read (Option String × Option String) := do
  let first ← anchor
  let kind ← tag
  let second ← if first.isNone && kind.isSome then anchor else pure none
  match kind with
  | none => return (first.or second, none)
  | some text =>
    match text.name? (← get).handles with
    | some name => return (first.or second, some name)
    | none => refuse

/-- The node that an alias stands for. -/
def named (name : String) : Read NodeId := do
  match (← get).anchors.lookup name with
  | some id => return id
  | none => refuse

/-- Adds a node with the name before it. A name is given once. -/
def addNode (name : Option String) (node : Node) : Read NodeId := do
  let r ← get
  let id := r.nodes.size
  match name with
  | none => set { r with nodes := r.nodes.push node }
  | some name =>
    if (r.anchors.lookup name).isSome then refuse
    set { r with nodes := r.nodes.push node, anchors := (name, id) :: r.anchors }
  return id

/-- Gives a node what it holds. -/
def fillNode (id : NodeId) (content : Content) : Read Unit :=
  modify fun r => { r with nodes := r.nodes.modify id fun node => { node with content } }

/-- Adds a scalar. Its form tells its kind if it is plain, or if its tag asks for that. -/
def addScalar (name : Option String) (tag : Option String) (s : String) (isPlain : Bool) :
    Read NodeId :=
  let kind := match tag with
    | some tag => if tag == bareTag then Tag.ofForm s else Tag.ofName tag
    | none => if isPlain then Tag.ofForm s else .text
  addNode name ⟨kind, .scalar s⟩

/-- Adds an empty scalar without properties. -/
def addEmpty : Read NodeId :=
  addScalar none none "" true

/-- The tag of a collection, which has one of its own. -/
def collectionTag (tag : Option String) (own : Tag) : Tag :=
  match tag with
  | some tag => if tag == bareTag then own else Tag.ofName tag
  | none => own

/-- Adds a sequence, and then its items. -/
def addSequence (name : Option String) (tag : Option String) (items : Read (List NodeId)) :
    Read NodeId := do
  let id ← addNode name ⟨collectionTag tag .list, .sequence []⟩
  fillNode id (.sequence (← items))
  return id

/-- Adds a mapping, and then its entries. -/
def addMapping (name : Option String) (tag : Option String)
    (entries : Read (List (NodeId × NodeId))) : Read NodeId := do
  let id ← addNode name ⟨collectionTag tag .record, .mapping []⟩
  fillNode id (.mapping (← entries))
  return id

end Read

mutual

/-- A node. Block collections, and sequences without an indentation of their own, are read only
where they may stand. Nothing but properties is an empty scalar. -/
def readNode : (bound : Nat) → (inBlock : Bool) → (unindented : Bool) → Read NodeId
  | 0, _, _ => Read.refuse
  | bound + 1, inBlock, unindented => do
    if let .alias name ← Read.next then
      Read.advance
      Read.named name
    else
      let (name, tag) ← Read.properties
      let empty := if name.isSome || tag.isSome then Read.addScalar name tag "" true
        else Read.refuse
      match ← Read.next with
      | .scalar s isPlain =>
        Read.advance
        Read.addScalar name tag s isPlain
      | .item =>
        if unindented then Read.addSequence name tag (readUnindented bound) else empty
      | .flowSequence =>
        Read.addSequence name tag (do Read.advance; readFlowItems bound true)
      | .flowMapping =>
        Read.addMapping name tag (do Read.advance; readFlowEntries bound true)
      | .blockSequence =>
        if inBlock then Read.addSequence name tag (do Read.advance; readItems bound) else empty
      | .blockMapping =>
        if inBlock then Read.addMapping name tag (do Read.advance; readEntries bound) else empty
      | _ => empty

/-- The items of a block sequence up to its end. -/
def readItems : (bound : Nat) → Read (List NodeId)
  | 0 => Read.refuse
  | bound + 1 => do
    if ← Read.accept .item then
      let item ← if ← Read.sees [.item, .blockEnd] then Read.addEmpty
        else readNode bound true false
      return item :: (← readItems bound)
    else
      Read.expect .blockEnd
      return []

/-- The items of a sequence that is indented as the key before it. -/
def readUnindented : (bound : Nat) → Read (List NodeId)
  | 0 => Read.refuse
  | bound + 1 => do
    if ← Read.accept .item then
      let item ← if ← Read.sees [.item, .key, .value, .blockEnd] then Read.addEmpty
        else readNode bound true false
      return item :: (← readUnindented bound)
    else return []

/-- The entries of a block mapping up to its end. -/
def readEntries : (bound : Nat) → Read (List (NodeId × NodeId))
  | 0 => Read.refuse
  | bound + 1 => do
    if ← Read.accept .key then
      let key ← if ← Read.sees [.key, .value, .blockEnd] then Read.addEmpty
        else readNode bound true true
      let value ← if ← Read.accept .value then
          if ← Read.sees [.key, .value, .blockEnd] then Read.addEmpty
          else readNode bound true true
        else Read.addEmpty
      return (key, value) :: (← readEntries bound)
    else
      Read.expect .blockEnd
      return []

/-- The items of a flow sequence up to its end. A comma stands between them and may stand after
the last. An item with a key is a mapping of one entry. -/
def readFlowItems : (bound : Nat) → (isFirst : Bool) → Read (List NodeId)
  | 0, _ => Read.refuse
  | bound + 1, isFirst => do
    if ← Read.accept .flowSequenceEnd then return []
    else
      if !isFirst then Read.expect .comma
      if ← Read.sees [.key] then
        let item ← Read.addMapping none none (readPair bound)
        return item :: (← readFlowItems bound false)
      else if ← Read.accept .flowSequenceEnd then return []
      else
        let item ← readNode bound false false
        return item :: (← readFlowItems bound false)

/-- The entry of a mapping inside a flow sequence. -/
def readPair : (bound : Nat) → Read (List (NodeId × NodeId))
  | 0 => Read.refuse
  | bound + 1 => do
    Read.expect .key
    let key ← if ← Read.sees [.value, .comma, .flowSequenceEnd] then Read.addEmpty
      else readNode bound false false
    let value ← if ← Read.accept .value then
        if ← Read.sees [.comma, .flowSequenceEnd] then Read.addEmpty
        else readNode bound false false
      else Read.addEmpty
    return [(key, value)]

/-- The entries of a flow mapping up to its end. A key without a colon has no value. -/
def readFlowEntries : (bound : Nat) → (isFirst : Bool) → Read (List (NodeId × NodeId))
  | 0, _ => Read.refuse
  | bound + 1, isFirst => do
    if ← Read.accept .flowMappingEnd then return []
    else
      if !isFirst then Read.expect .comma
      if ← Read.accept .key then
        let key ← if ← Read.sees [.value, .comma, .flowMappingEnd] then Read.addEmpty
          else readNode bound false false
        let value ← if ← Read.accept .value then
            if ← Read.sees [.comma, .flowMappingEnd] then Read.addEmpty
            else readNode bound false false
          else Read.addEmpty
        return (key, value) :: (← readFlowEntries bound false)
      else if ← Read.accept .flowMappingEnd then return []
      else
        let key ← readNode bound false false
        let value ← Read.addEmpty
        return (key, value) :: (← readFlowEntries bound false)

end

/-! ## Documents -/

/-- Goes past all separators after a document. -/
def skipEnds : (bound : Nat) → Read Unit
  | 0 => Read.refuse
  | bound + 1 => do
    if ← Read.accept .documentEnd then skipEnds bound

/-- The directives of a document, and whether it has any. The version is given once and is the
first, and a handle is given once. -/
def readDirectives : (bound : Nat) → (hasVersion : Bool) → (handles : TagHandles) → Read TagHandles
  | 0, _, _ => Read.refuse
  | bound + 1, hasVersion, handles => do
    match ← Read.next with
    | .directive d =>
      Read.advance
      match d with
      | .version major =>
        if hasVersion || major != 1 then Read.refuse
        else readDirectives bound true handles
      | .handle name meaning =>
        if (handles.lookup name).isSome then Read.refuse
        else readDirectives bound hasVersion ((name, meaning) :: handles)
      | .other => readDirectives bound hasVersion handles
    | _ => return handles

/-- The content of a document after the mark that starts it. -/
def readMarked (bound : Nat) : Read NodeId := do
  match ← Read.next with
  | .directive _ | .documentStart | .documentEnd | .textEnd => Read.addEmpty
  | _ => readNode bound true false

/-- A document. One with directives starts with a mark. -/
def readDocument (bound : Nat) : Read NodeId := do
  match ← Read.next with
  | .directive _ | .documentStart =>
    let handles ← readDirectives bound false []
    Read.expect .documentStart
    modify fun r => { r with handles := handles ++ defaultHandles }
    readMarked bound
  | _ => readNode bound true false

/-- The root of the only document of a text, none if the text has no tokens. -/
def readText (bound : Nat) : Read (Option NodeId) := do
  if ← Read.sees [.textEnd] then return none
  else
    let root ← readDocument bound
    skipEnds bound
    Read.expect .textEnd
    return some root

/-- The nodes of a text and its root, if it has one. A text that goes on behind its characters
fails there for what stops it. -/
def readNodes (s : List Char) (stop : Option Fault) : Except Fault (Array Node × Option NodeId) := do
  let (root, r) ← (readText (8 * s.length + 16)).run { layout := .start s stop }
  return (r.nodes, root)

end CallAtlas.Yaml
