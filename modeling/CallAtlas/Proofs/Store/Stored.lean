import CallAtlas.Proofs.ModuleGraph
import CallAtlas.Proofs.Registry.Alike
import CallAtlas.Proofs.Registry.Assembly

/-!
# What a store keeps

A store keeps neither the signature and the body of a function nor the line of a call, and it tells
main modules by their URI. `Registry.stored` is a registry without what a store does not keep. No
query asks for any of that: calls resolve as before, and call trees are the same. So are module
graphs, but that each node says of its module what the URI says (`ofRegistry_stored`). No label and
no sheet shows that. The graphs are equal where the URIs are right, and only there
(`markedByUri_eq_self_iff`).
-/

namespace CallAtlas

/-! ## Stored entries -/

/-- A module as a store tells it: it is a main module if its URI is like those that are made up for
main modules. -/
def Store.markedByUri (m : ModuleEntry) : ModuleEntry :=
  { m with isMain := Naming.mainScheme.toList.isPrefixOf m.uri.toList }

/-- The marks of main modules are read back right exactly if no other module has such a URI. -/
theorem Store.map_markedByUri_iff {modules : List ModuleEntry}
    (main : ∀ m ∈ modules, m.isMain = true →
      Naming.mainScheme.toList.isPrefixOf m.uri.toList = true) :
    modules.map markedByUri = modules ↔ ∀ m ∈ modules, m.isMain = false →
      Naming.mainScheme.toList.isPrefixOf m.uri.toList = false := by
  have marks : ∀ m, markedByUri m = m ↔
      Naming.mainScheme.toList.isPrefixOf m.uri.toList = m.isMain := by
    intro m
    constructor
    · intro same
      exact congrArg ModuleEntry.isMain same
    · intro same
      rw [markedByUri, same]
  constructor
  · intro same m member notMain
    have each := List.map_inj_left.1 (same.trans (List.map_id _).symm) m member
    exact ((marks m).1 each).trans notMain
  · intro others
    refine (List.map_congr_left fun m member => (marks m).2 ?_).trans (List.map_id _)
    cases isMain : m.isMain with
    | true => exact main m member isMain
    | false => exact others m member isMain

/-- The external node has a URI of its own kind. -/
theorem Store.markedByUri_external (v : VendorScheme) : markedByUri v.external = v.external := by
  have other : Naming.mainScheme.toList.isPrefixOf v.external.uri.toList = false := by
    unfold VendorScheme.external
    rw [String.toList_append]
    rfl
  rw [markedByUri, other]
  rfl

/-- What a store keeps of a module. -/
def ModuleEntry.stored (m : ModuleEntry) : ModuleEntry :=
  { m with isMain := Naming.mainScheme.toList.isPrefixOf m.uri.toList, isExternal := false }

/-- What a store keeps of a function. -/
def FunctionEntry.stored (f : FunctionEntry) : FunctionEntry :=
  { f with signature := none, body := none }

/-- What a store keeps of a call. -/
def CallEntry.stored (c : CallEntry) : CallEntry :=
  { c with line := none }

namespace Registry

/-- What a store keeps of a registry. -/
def stored (r : Registry) : Registry :=
  { r with
    modules := r.modules.mapValues ModuleEntry.stored
    functions := r.functions.mapValues (·.mapValues FunctionEntry.stored)
    overloads := r.overloads.mapValues (·.map FunctionEntry.stored)
    calls := r.calls.map CallEntry.stored
    callsByCaller := r.callsByCaller.mapValues (·.map CallEntry.stored) }

theorem moduleTable_stored (modules : List ModuleEntry) :
    (moduleTable modules).mapValues ModuleEntry.stored =
      moduleTable (modules.map ModuleEntry.stored) := by
  refine Table.mapValues_foldl _ _ ?_ modules
  intro table m
  exact table.mapValues_put ModuleEntry.stored m.path m

theorem fileAll_stored (functions : List FunctionEntry) :
    (Table.fileAll FunctionEntry.owner FunctionEntry.qualifiedName .empty functions).mapValues
        (·.mapValues FunctionEntry.stored) =
      Table.fileAll FunctionEntry.owner FunctionEntry.qualifiedName .empty
        (functions.map FunctionEntry.stored) := by
  refine Table.mapValues_foldl _ _ ?_ functions
  intro table f
  refine table.mapValues_update _ f.owner .empty _ _ ?_
  intro own
  exact own.mapValues_put FunctionEntry.stored f.qualifiedName f

theorem overloadTable_stored (functions : List FunctionEntry) :
    (overloadTable functions).mapValues (·.map FunctionEntry.stored) =
      overloadTable (functions.map FunctionEntry.stored) := by
  refine Table.mapValues_foldl _ _ ?_ functions
  intro table f
  exact table.mapValues_update _ (f.owner, f.name) [] _ (· ++ [f.stored]) fun _ =>
    List.map_append

theorem callTable_stored (calls : List CallEntry) :
    (callTable calls).mapValues (·.map CallEntry.stored) =
      callTable (calls.map CallEntry.stored) := by
  refine Table.mapValues_foldl _ _ ?_ calls
  intro table c
  exact table.mapValues_update _ c.callerRef [] _ (· ++ [c.stored]) fun _ => List.map_append

/-- The lists of a stored registry are those of the registry, entry by entry. -/
theorem stored_assemble (scheme : VendorScheme) (modules : List ModuleEntry)
    (imports : List ImportEntry) (functions : List FunctionEntry) (calls : List CallEntry) :
    (assemble scheme modules imports functions calls).stored =
      assemble scheme (modules.map ModuleEntry.stored) imports
        (functions.map FunctionEntry.stored) (calls.map CallEntry.stored) := by
  unfold assemble stored
  simp only [moduleTable_stored, fileAll_stored, overloadTable_stored, callTable_stored,
    List.foldl_map]
  rfl

/-! ## Look-ups -/

section LookUps

variable (r : Registry)

@[simp]
theorem knows_stored (path : String) : r.stored.knows path = r.knows path := by
  unfold knows
  rw [show r.stored.modules = r.modules.mapValues ModuleEntry.stored from rfl,
    Table.contains_mapValues]
  rfl

theorem qualifier_module?_stored (path : String) :
    (r.stored.module? path).map ModuleEntry.qualifier =
      (r.module? path).map ModuleEntry.qualifier := by
  unfold module?
  rw [show r.stored.external = r.external from rfl,
    show r.stored.modules = r.modules.mapValues ModuleEntry.stored from rfl, Table.get?_mapValues]
  split
  next => rfl
  next =>
    rw [Option.map_map]
    rfl

theorem functionTable_stored (path : String) :
    r.stored.functionTable path = (r.functionTable path).mapValues FunctionEntry.stored :=
  r.functions.getD_get?_mapValues (Table.mapValues FunctionEntry.stored) path Table.empty

theorem functionsNamed_stored (path name : String) :
    r.stored.functionsNamed path name =
      (r.functionsNamed path name).map FunctionEntry.stored :=
  r.overloads.getD_get?_mapValues (List.map FunctionEntry.stored) (path, name) []

theorem callsOf_stored (caller : FunctionRef) :
    r.stored.callsOf caller = (r.callsOf caller).map CallEntry.stored :=
  r.callsByCaller.getD_get?_mapValues (List.map CallEntry.stored) caller []

/-- What a store does not keep is not read. -/
theorem alike_stored : r.stored.Alike r where
  scheme := rfl
  knows := r.knows_stored
  qualifier := r.qualifier_module?_stored
  pathOfQualifier? := fun _ => rfl
  pathOfUri? := fun _ => rfl
  importsOf := fun _ => rfl
  functionTable := by
    intro path
    rw [functionTable_stored]
    unfold Table.mapValues
    rw [List.map_map]
    rfl
  functionsNamed := by
    intro path name
    rw [functionsNamed_stored, List.map_map]
    rfl
  callsOf := by
    intro caller
    rw [callsOf_stored, List.map_map]
    rfl
  callers := Table.size_mapValues ..

/-- A stored call resolves in a stored registry as it did. -/
theorem resolve_stored (c : CallEntry) : r.stored.resolve c.stored = r.resolve c :=
  (r.alike_stored.resolve c.stored).trans (r.resolve_outline c)

end LookUps

end Registry

/-- A stored registry has the same call trees, and misses the same functions. -/
theorem CallTree.ofFunction_stored (r : Registry) (path function : String) (bound : Option Int) :
    CallTree.ofFunction r.stored path function bound = CallTree.ofFunction r path function bound :=
  r.alike_stored.ofFunction path function bound

/-! ## Module graphs -/

/-- A node as a store tells its module. -/
def ModuleNode.markedByUri (n : ModuleNode) : ModuleNode :=
  { n with entry := Store.markedByUri n.entry }

namespace ModuleGraph

/-- A graph whose nodes tell main modules by their URIs. -/
def markedByUri (g : ModuleGraph) : ModuleGraph :=
  { g with nodes := g.nodes.map ModuleNode.markedByUri }

/-- No sheet shows which modules are main ones. -/
theorem toSheet_markedByUri (g : ModuleGraph) : g.markedByUri.toSheet = g.toSheet := by
  unfold toSheet markedByUri
  rw [List.map_map]
  rfl

/-- A graph says what its URIs say exactly if no URI of a module that is no main one is like those
of main modules. -/
theorem markedByUri_eq_self_iff {g : ModuleGraph}
    (main : ∀ n ∈ g.nodes, n.entry.isMain = true →
      Naming.mainScheme.toList.isPrefixOf n.entry.uri.toList = true) :
    g.markedByUri = g ↔ ∀ n ∈ g.nodes, n.entry.isMain = false →
      Naming.mainScheme.toList.isPrefixOf n.entry.uri.toList = false := by
  have entries : g.markedByUri = g ↔
      (g.nodes.map ModuleNode.entry).map Store.markedByUri = g.nodes.map ModuleNode.entry := by
    rw [List.map_map]
    constructor
    · intro same
      have nodes := congrArg (fun g => g.nodes.map ModuleNode.entry) same
      unfold markedByUri at nodes
      dsimp only at nodes
      rwa [List.map_map] at nodes
    · intro same
      have nodes : g.nodes.map ModuleNode.markedByUri = g.nodes := by
        refine (List.map_congr_left fun n member => ?_).trans (List.map_id _)
        have own : Store.markedByUri n.entry = n.entry := List.map_inj_left.1 same n member
        rw [ModuleNode.markedByUri, own]
        rfl
      rw [markedByUri, nodes]
  have mains : ∀ m ∈ g.nodes.map ModuleNode.entry, m.isMain = true →
      Naming.mainScheme.toList.isPrefixOf m.uri.toList = true := List.forall_mem_map.2 main
  rw [entries, Store.map_markedByUri_iff mains]
  exact List.forall_mem_map

variable (r : Registry)

theorem traffic_stored : Traffic.ofRegistry r.stored = Traffic.ofRegistry r := by
  have edges : ∀ t e, Traffic.countEdge r.stored t e = Traffic.countEdge r t e := by
    intro t e
    unfold Traffic.countEdge
    rw [r.knows_stored]
  have calls : ∀ t c, Traffic.countCall r.stored t c.stored = Traffic.countCall r t c := by
    intro t c
    unfold Traffic.countCall
    rw [r.resolve_stored, r.knows_stored, show Traffic.countEdge r.stored = Traffic.countEdge r from
      funext fun t => funext fun e => edges t e]
    rfl
  unfold Traffic.ofRegistry
  rw [show r.stored.calls = r.calls.map CallEntry.stored from rfl, List.foldlM_map]
  simp only [calls]

theorem numbered_markedByUri (entries : List ModuleEntry) :
    numbered (entries.map Store.markedByUri) =
      (numbered entries).map ModuleNode.markedByUri := by
  unfold numbered
  refine List.ext_getElem? ?_
  intro i
  rw [List.getElem?_map, List.getElem?_mapIdx, List.getElem?_mapIdx, List.getElem?_map]
  cases entries[i]? with
  | none => rfl
  | some m => rfl

theorem idOf?_markedByUri (nodes : List ModuleNode) (path : String) :
    idOf? (nodes.map ModuleNode.markedByUri) path = idOf? nodes path := by
  unfold idOf?
  rw [← List.map_reverse, List.find?_map, Option.map_map]
  rfl

/-- Marks are not read where a graph is built. -/
theorem ofTraffic_markedByUri (traffic : Traffic) (modules : List ModuleEntry)
    (connectedOnly : Bool) :
    ofTraffic traffic (modules.map Store.markedByUri) connectedOnly =
      (ofTraffic traffic modules connectedOnly).markedByUri := by
  have edges : ∀ (entries : List ModuleEntry) (route : Route) (weight : Nat),
      edge? ((numbered entries).map ModuleNode.markedByUri) route weight =
        edge? (numbered entries) route weight := by
    intro entries route weight
    unfold edge?
    rw [idOf?_markedByUri, idOf?_markedByUri]
  have kept : (modules.map Store.markedByUri).filter
        (fun m => !connectedOnly || traffic.touches m.path) =
      (modules.filter fun m => !connectedOnly || traffic.touches m.path).map
        Store.markedByUri := by
    rw [List.filter_map]
    rfl
  unfold ofTraffic markedByUri
  dsimp only
  rw [kept, numbered_markedByUri]
  simp only [edges]

/-- A stored registry has the same module graph, with the marks of main modules that their URIs
say. -/
theorem ofRegistry_stored (own : ∀ m ∈ r.modules.values, m.isExternal = false)
    (connectedOnly : Bool) :
    (ofRegistry r.stored connectedOnly).value =
      (ofRegistry r connectedOnly).value.markedByUri := by
  have modules : r.stored.allModules = r.allModules.map Store.markedByUri := by
    have kept : r.modules.values.map ModuleEntry.stored =
        r.modules.values.map Store.markedByUri := by
      refine List.map_congr_left ?_
      intro m member
      unfold ModuleEntry.stored Store.markedByUri
      rw [← own m member]
    unfold Registry.allModules
    rw [show r.stored.modules = r.modules.mapValues ModuleEntry.stored from rfl,
      Table.values_mapValues, kept, List.map_append, List.map_singleton,
      show Store.markedByUri r.external = r.external from Store.markedByUri_external r.scheme]
    rfl
  rw [value_ofRegistry, value_ofRegistry, traffic_stored, modules, ofTraffic_markedByUri]

end ModuleGraph
end CallAtlas
