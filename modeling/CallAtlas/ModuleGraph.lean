import CallAtlas.Gml.Sheet
import CallAtlas.Registry.Resolve

/-!
# The module graph

The modules of a repository are nodes. Calls from one module to one function of
another are one edge, which carries the name of the function and the number of
calls. Nodes are numbered from one.
-/

namespace CallAtlas

/-- A module as a node. -/
structure ModuleNode where
  id : Int
  entry : ModuleEntry
deriving Repr, DecidableEq

/-- The path of the module with the number of its functions. -/
def ModuleNode.label (n : ModuleNode) : String :=
  n.entry.path ++ "#" ++ toString n.entry.functionCount

/-- All calls from one module to one function of a module. -/
structure ModuleEdge where
  source : Int
  target : Int
  /-- The qualified name of the called function. -/
  label : String
  callCount : Int
deriving Repr, DecidableEq

/-- Modules and the calls between them. -/
structure ModuleGraph where
  nodes : List ModuleNode := []
  edges : List ModuleEdge := []
deriving Repr, DecidableEq

namespace ModuleGraph

/-- The first node with a path. -/
def node? (g : ModuleGraph) (path : String) : Option ModuleNode :=
  g.nodes.find? (·.entry.path == path)

/-- The attributes of a node. -/
def nodeAttributes (n : ModuleNode) : Gml.Attributes :=
  [("id", .int n.id), ("label", .text n.label), ("numFunctions", .int n.entry.functionCount),
    ("numLines", .int n.entry.lineCount), ("filename", .text n.entry.path)]

/-- The attributes of an edge. -/
def edgeAttributes (e : ModuleEdge) : Gml.Attributes :=
  [("source", .int e.source), ("target", .int e.target), ("label", .text e.label),
    ("numInvocations", .int e.callCount)]

/-- The graph as a sheet of attributes. -/
def toSheet (g : ModuleGraph) : Gml.Sheet :=
  ⟨g.nodes.map nodeAttributes, g.edges.map edgeAttributes⟩

/-! ## Weights -/

/-- What the calls of one edge share: the calling module, the called module and the qualified
name of the called function. -/
structure Route where
  source : String
  target : String
  label : String
deriving Repr, DecidableEq

/-- Calls counted by route, the modules between which they run, and the number of calls that were
not counted. -/
structure Traffic where
  weights : Table Route Nat := ⟨[]⟩
  /-- The paths at the ends of the routes, each once. -/
  connected : List String := []
  dropped : Nat := 0
deriving Repr

namespace Traffic

/-- Counts one call along a route, which connects its ends. -/
def count (t : Traffic) (route : Route) : Traffic :=
  { t with
    weights := t.weights.update route 0 (· + 1)
    connected := (t.connected.insert route.source).insert route.target }

/-- Counts one edge, unless its target is unknown. -/
def countEdge (r : Registry) (t : Traffic) (e : Edge) : Report Traffic := do
  if r.knows e.target.path then
    return t.count ⟨e.source.path, e.target.path, e.target.function⟩
  else
    Report.note (.targetUnknown e.target.path e.source.path)
    return { t with dropped := t.dropped + 1 }

/-- Counts the edges of one call, unless its module is unknown. -/
def countCall (r : Registry) (t : Traffic) (c : CallEntry) : Report Traffic := do
  if r.knows c.owner then
    (← r.resolve c).foldlM (countEdge r) t
  else
    Report.note (.callerUnknown c.owner)
    return { t with dropped := t.dropped + 1 }

/-- The traffic of all calls of a registry. -/
def ofRegistry (r : Registry) : Report Traffic :=
  r.calls.foldlM (countCall r) {}

/-- Whether the module at a path is connected. -/
def touches (t : Traffic) (path : String) : Bool :=
  t.connected.contains path

end Traffic

/-! ## Building -/

/-- Entries as nodes, numbered from one. -/
def numbered (entries : List ModuleEntry) : List ModuleNode :=
  entries.mapIdx fun i entry => ⟨Int.ofNat i + 1, entry⟩

/-- The number of the last node with a path. -/
def idOf? (nodes : List ModuleNode) (path : String) : Option Int :=
  (nodes.reverse.find? (·.entry.path == path)).map ModuleNode.id

/-- The edge of a route between numbered nodes. -/
def edge? (nodes : List ModuleNode) (route : Route) (weight : Nat) : Option ModuleEdge := do
  return ⟨← idOf? nodes route.source, ← idOf? nodes route.target, route.label, Int.ofNat weight⟩

/-- The graph of the modules of a registry. With `connectedOnly` it leaves out modules that
are an end of no edge. -/
def ofRegistry (r : Registry) (connectedOnly : Bool) : Report ModuleGraph := do
  let traffic ← Traffic.ofRegistry r
  let entries := r.allModules.filter fun m => !connectedOnly || traffic.touches m.path
  let nodes := numbered entries
  let edges := traffic.weights.entries.filterMap fun (route, weight) => edge? nodes route weight
  Report.note (.graphBuilt nodes.length edges.length traffic.dropped)
  return ⟨nodes, edges⟩

end ModuleGraph
end CallAtlas
