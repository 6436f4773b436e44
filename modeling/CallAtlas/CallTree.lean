import CallAtlas.Failure
import CallAtlas.Gml.Sheet
import CallAtlas.Registry.Resolve

/-!
# Call trees

The call tree of a function has a node for every way to reach a function from it
along calls. All calls from one function to another share one node, which counts
them. A node whose function stands already on the way from the root is a cycle
and has no children.

A tree is grown level by level. Ways without a cycle pass each calling function
at most once, so the number of calling functions bounds the number of levels.
-/

namespace CallAtlas

/-- One way to reach a function. -/
structure CallNode where
  id : Int
  path : String
  /-- The qualified name of the function. -/
  function : String
  qualifier : String
  level : Int
  parent : Option Int := none
  isCycle : Bool := false
  /-- The distance from the deepest level. -/
  reverseLevel : Int := 0
  loc : Option Int := none
  invertedLoc : Option Int := none
  /-- How many calls of the parent this node stands for. -/
  callCount : Option Int := none
deriving Repr, DecidableEq

namespace CallNode

/-- The function of a node. -/
def ref (n : CallNode) : FunctionRef :=
  ⟨n.path, n.function⟩

/-- The file name without its extension, and the function. -/
def label (n : CallNode) : String :=
  String.ofList (Location.stem n.path.toList) ++ "/" ++ n.function

/-- The function with its qualifier. -/
def shownFunction (n : CallNode) : String :=
  n.qualifier ++ ":" ++ n.function

/-- A node as data. -/
def toDatum (n : CallNode) : Datum :=
  .record
    [("id", .int n.id), ("label", .text n.label), ("module", .text n.path),
      ("function", .text n.shownFunction), ("level", .int n.level),
      ("reverse_level", .int n.reverseLevel), ("parent_id", .ofOption .int n.parent),
      ("is_cycle", .bool n.isCycle), ("loc", .ofOption .int n.loc),
      ("inverted_loc", .ofOption .int n.invertedLoc),
      ("call_count", .ofOption .int n.callCount)]

/-- An attribute that is left out where there is no value. -/
def optionalAttribute (key : String) (value : Option Int) : Gml.Attributes :=
  match value with
  | some value => [(key, .int value)]
  | none => []

/-- The attributes of a node. -/
def attributes (n : CallNode) : Gml.Attributes :=
  [("id", .int n.id), ("label", .text n.label), ("level", .int n.level),
    ("reverse_level", .int n.reverseLevel), ("function", .text n.shownFunction),
    ("filename", .text n.path)] ++
  optionalAttribute "loc" n.loc ++ optionalAttribute "inverted_loc" n.invertedLoc ++
  optionalAttribute "call_count" n.callCount

end CallNode

/-- The nodes of a tree, level by level, and its edges from parents to children. -/
structure CallTree where
  nodes : List CallNode := []
  edges : List (Int × Int) := []
  /-- Whether the tree was cut at a bound. -/
  truncated : Bool := false
deriving Repr, DecidableEq

namespace CallTree

/-- The root, if the tree is not empty. -/
def root? (t : CallTree) : Option CallNode :=
  t.nodes.head?

/-- The deepest level of some nodes, zero if there are none. -/
def deepest (nodes : List CallNode) : Int :=
  (nodes.map CallNode.level).max?.getD 0

/-- The deepest level. -/
def maxLevel (t : CallTree) : Int :=
  deepest t.nodes

/-- The children of the node with a number. -/
def childrenOf (t : CallTree) (id : Int) : List CallNode :=
  t.nodes.filter (·.parent == some id)

/-- A tree as data. -/
def toDatum (t : CallTree) : Datum :=
  .record
    [("nodes", .list (t.nodes.map CallNode.toDatum)),
      ("edges", .list (t.edges.map fun (source, target) =>
        .record [("source", .int source), ("target", .int target)])),
      ("truncated", .bool t.truncated)]

/-- A tree as a sheet of attributes. -/
def toSheet (t : CallTree) : Gml.Sheet :=
  ⟨t.nodes.map CallNode.attributes,
    t.edges.map fun (source, target) => [("source", .int source), ("target", .int target)]⟩

/-! ## Growth -/

/-- A node with the functions on the way back from it to the root, its own first. -/
structure Branch where
  node : CallNode
  way : List FunctionRef
deriving Repr

/-- The qualifier shown for functions of unknown modules. -/
def unknownQualifier : String := "unknown"

/-- The qualifier shown for the functions of a module. -/
def qualifierOf (r : Registry) (path : String) : String :=
  match r.module? path with
  | some m => m.qualifier
  | none => unknownQualifier

/-- The functions that a function calls, each with the number of calls that reach it. -/
def targets (r : Registry) (caller : FunctionRef) : Report (Table FunctionRef Nat) := do
  let edges ← r.resolveAll (r.callsOf caller)
  return edges.foldl (fun hits e => hits.update e.target 0 (· + 1)) .empty

/-- The branch to a function that the function of another branch calls. -/
def Branch.child (r : Registry) (b : Branch) (id : Nat) (target : FunctionRef) (hits : Nat) :
    Branch :=
  let declared := r.function? target.path target.function
  { node :=
      { id := Int.ofNat id
        path := target.path
        function := target.function
        qualifier := qualifierOf r target.path
        level := b.node.level + 1
        parent := some b.node.id
        isCycle := b.way.contains target
        loc := declared.bind FunctionEntry.loc
        invertedLoc := declared.bind FunctionEntry.invertedLoc
        callCount := some (Int.ofNat hits) }
    way := target :: b.way }

/-- Whether a tree of some size has no room for another node. -/
def isFull (bound : Option Int) (size : Nat) : Bool :=
  bound.any (· ≤ Int.ofNat size)

/-- Branches, the edges that lead to them, and whether a bound cut some off. -/
structure Grown where
  branches : List Branch := []
  edges : List (Int × Int) := []
  cut : Bool := false
deriving Repr

/-- A child of a branch with the edge that leads to it. -/
def Grown.ofChild (b child : Branch) : Grown :=
  { branches := [child], edges := [(b.node.id, child.node.id)] }

/-- What was grown first, and then what was grown after it. -/
def Grown.after (g first : Grown) : Grown :=
  { g with branches := first.branches ++ g.branches, edges := first.edges ++ g.edges }

/-- The children of a branch in a tree that has `size` nodes, until the tree is full. -/
def Branch.children (r : Registry) (bound : Option Int) (b : Branch) (size : Nat) :
    List (FunctionRef × Nat) → Grown
  | [] => {}
  | (target, hits) :: rest =>
    if isFull bound size then { cut := true }
    else (b.children r bound (size + 1) rest).after (.ofChild b (b.child r (size + 1) target hits))

/-- The level below some branches of a tree that has `size` nodes. -/
def nextLevel (r : Registry) (bound : Option Int) : List Branch → Nat → Report Grown
  | [], _ => pure {}
  | b :: bs, size =>
    if b.node.isCycle then nextLevel r bound bs size
    else do
      let hits ← targets r b.node.ref
      let grown := b.children r bound size hits.entries
      if grown.cut then return grown
      else return (← nextLevel r bound bs (size + grown.branches.length)).after grown

/-- All levels below a level of a tree that has `size` nodes, at most `levels` of them. -/
def lowerLevels (r : Registry) (bound : Option Int) :
    (levels : Nat) → List Branch → Nat → Report Grown
  | 0, _, _ => pure {}
  | levels + 1, level, size => do
    let next ← nextLevel r bound level size
    if next.cut || next.branches.isEmpty then return next
    else
      let size := size + next.branches.length
      return (← lowerLevels r bound levels next.branches size).after next

/-- The branch of the root. -/
def Branch.root (r : Registry) (path : String) (f : FunctionEntry) : Branch :=
  { node :=
      { id := 1
        path := path
        function := f.qualifiedName
        qualifier := qualifierOf r path
        level := 0
        loc := f.loc
        invertedLoc := f.invertedLoc }
    way := [⟨path, f.qualifiedName⟩] }

/-- Nodes with their distances from the deepest level. -/
def withReverseLevels (nodes : List CallNode) : List CallNode :=
  let depth := deepest nodes
  nodes.map fun n => { n with reverseLevel := depth - n.level }

/-- The nodes below a root, and whether a bound cut some off. A bound that cuts is reported
under the names by which the tree was asked for. -/
def grow (r : Registry) (path function : String) (bound : Option Int) (root : Branch) :
    Report CallTree := do
  let grown ← lowerLevels r bound (r.callsByCaller.size + 1) [root] 1
  match grown.cut, bound with
  | true, some bound => Report.note (.treeTruncated path function bound)
  | _, _ => pure ()
  let nodes := withReverseLevels (root.node :: grown.branches.map Branch.node)
  Report.note (.treeBuilt path function nodes.length (deepest nodes).toNat)
  return ⟨nodes, grown.edges, grown.cut⟩

end CallTree

/-- The call tree of a function, given as `name#arity`; a qualifier before the name is
ignored. A bound limits the number of nodes, but the root is always there. -/
def CallTree.ofFunction (r : Registry) (path function : String) (bound : Option Int) :
    Checked Failure CallTree :=
  match splitQualified function with
  | .error e => throw (.numeral e)
  | .ok (name, arity) =>
    match r.function? path (qualify name arity) with
    | none =>
      let available := (r.functionsOf path).map FunctionEntry.qualifiedName
      throw (.analysis (.functionAbsent path function available))
    | some f => CallTree.grow r path function bound (Branch.root r path f)

end CallAtlas
