import CallAtlas.Proofs.ModuleGraph.Conservation
import CallAtlas.Proofs.Registry.Additions

/-!
# Graphs of connected modules

A graph of the connected modules is built from the traffic of a registry, as a graph of all modules
is; which modules are left out is settled by the routes before there is an edge. `Restricts` says
what comes of it in terms of the two graphs alone: the one is the other without the nodes that are
an end of no edge, and with numbers that close the gaps.

Where paths are distinct, the number of a node is the place of its path (`numbered_eq_map`). So the
routes of the traffic and the edges of the graph of all modules touch the same nodes
(`connected_ofTraffic`), and a node that stays is found by its old number where its path has its
new place (`idxOf_map_of_nodup`).
-/

namespace CallAtlas.ModuleGraph

/-! ## Ends of edges -/

/-- Whether some edge starts or ends at a node. -/
def isEnd (g : ModuleGraph) (n : ModuleNode) : Bool :=
  g.edges.any fun e => e.source == n.id || e.target == n.id

/-- The nodes that are an end of some edge. -/
def connected (g : ModuleGraph) : List ModuleNode :=
  g.nodes.filter g.isEnd

/-- The number of a connected node among the connected ones, counted from one. -/
def renumber (g : ModuleGraph) (id : Int) : Int :=
  Int.ofNat ((g.connected.map ModuleNode.id).idxOf id) + 1

/-- A graph `h` is the graph `g` without the nodes that are an end of no edge. -/
structure Restricts (g h : ModuleGraph) : Prop where
  nodes : h.nodes = g.connected.map fun n => { n with id := g.renumber n.id }
  /-- The nodes that stay are numbered from one. -/
  ids : h.nodes.map ModuleNode.id = (List.range g.connected.length).map fun i => Int.ofNat i + 1
  /-- No edge loses an end. -/
  ends : ∀ e ∈ g.edges, e.source ∈ g.connected.map ModuleNode.id ∧
    e.target ∈ g.connected.map ModuleNode.id
  edges : h.edges = g.edges.map fun e =>
    { e with source := g.renumber e.source, target := g.renumber e.target }

/-! ## Places -/

theorem idxOf_map_of_nodup {α β : Type} [DecidableEq α] [DecidableEq β] {f : α → β} {xs : List α}
    (nodup : (xs.map f).Nodup) {x : α} (member : x ∈ xs) : (xs.map f).idxOf (f x) = xs.idxOf x := by
  rcases List.getElem_of_mem member with ⟨i, inside, rfl⟩
  have image := nodup.idxOf_getElem i (by rwa [List.length_map])
  rw [List.getElem_map] at image
  rw [image, nodup.of_map.idxOf_getElem i inside]

/-- The place of a path in a list of entries, counted from one. -/
def place (entries : List ModuleEntry) (path : String) : Int :=
  Int.ofNat ((entries.map ModuleEntry.path).idxOf path) + 1

section Places

variable {entries : List ModuleEntry}

theorem place_inj {path other : String} (listed : path ∈ entries.map ModuleEntry.path) :
    place entries path = place entries other ↔ path = other := by
  unfold place
  rw [Int.add_left_inj, Int.ofNat.injEq, List.idxOf_inj listed]

variable (paths : (entries.map ModuleEntry.path).Nodup)
include paths

theorem numbered_eq_map :
    numbered entries = entries.map fun m => ⟨place entries m.path, m⟩ := by
  apply List.ext_getElem
  · simp [numbered]
  · intro i _ inside
    have own := paths.idxOf_getElem i (by simpa using inside)
    rw [List.getElem_map] at own
    simp only [numbered, place, List.getElem_mapIdx, List.getElem_map, own]

theorem idOf?_numbered {path : String} (listed : path ∈ entries.map ModuleEntry.path) :
    idOf? (numbered entries) path = some (place entries path) := by
  rcases exists_node_of_mem listed with ⟨n, isNumbered, found, rfl⟩
  have member := List.mem_of_find?_eq_some found
  rw [numbered_eq_map paths] at member
  rcases List.mem_map.1 member with ⟨m, -, rfl⟩
  exact isNumbered

/-- The edge of a route runs between the places of its ends. -/
theorem edge?_numbered {route : Route} (source : route.source ∈ entries.map ModuleEntry.path)
    (target : route.target ∈ entries.map ModuleEntry.path) (weight : Nat) :
    edge? (numbered entries) route weight =
      some ⟨place entries route.source, place entries route.target, route.label,
        Int.ofNat weight⟩ := by
  unfold edge?
  rw [idOf?_numbered paths source, idOf?_numbered paths target]
  rfl

end Places

/-! ## Graphs of traffic -/

section Traffic

variable {traffic : Traffic} {routes : List Route} {modules : List ModuleEntry}

/-- The modules that some route touches. -/
def touched (traffic : Traffic) (modules : List ModuleEntry) : List ModuleEntry :=
  modules.filter fun m => traffic.touches m.path

/-- The edge of some weight along a route between places. -/
def edgeBetween (entries : List ModuleEntry) (entry : Route × Nat) : ModuleEdge :=
  ⟨place entries entry.1.source, place entries entry.1.target, entry.1.label, Int.ofNat entry.2⟩

theorem nodes_ofTraffic_all :
    (ofTraffic traffic modules false).nodes = numbered modules := by
  unfold ofTraffic
  simp

theorem nodes_ofTraffic_connected :
    (ofTraffic traffic modules true).nodes = numbered (touched traffic modules) := rfl

variable (counts : traffic.Counts routes) (paths : (modules.map ModuleEntry.path).Nodup)
  (ends : ∀ route ∈ traffic.weights.keys, route.source ∈ modules.map ModuleEntry.path ∧
    route.target ∈ modules.map ModuleEntry.path)

theorem nodup_touched (paths : (modules.map ModuleEntry.path).Nodup) :
    ((touched traffic modules).map ModuleEntry.path).Nodup :=
  paths.sublist (List.filter_sublist.map _)

include counts ends in
/-- The ends of a route are touched. -/
theorem ends_touched {route : Route} (taken : route ∈ traffic.weights.keys) :
    route.source ∈ (touched traffic modules).map ModuleEntry.path ∧
      route.target ∈ (touched traffic modules).map ModuleEntry.path := by
  rcases ends route taken with ⟨source, target⟩
  rcases List.mem_map.1 source with ⟨m, listed, fromHere⟩
  rcases List.mem_map.1 target with ⟨n, listed', toHere⟩
  rw [counts.weights, Table.mem_keys_tally] at taken
  constructor
  · refine List.mem_map.2 ⟨m, List.mem_filter.2 ⟨listed, ?_⟩, fromHere⟩
    exact (counts.touches_iff m.path).2 ⟨route, taken, Or.inl fromHere.symm⟩
  · refine List.mem_map.2 ⟨n, List.mem_filter.2 ⟨listed', ?_⟩, toHere⟩
    exact (counts.touches_iff n.path).2 ⟨route, taken, Or.inr toHere.symm⟩

/-- Where the ends of all routes are listed, each route becomes the edge between their places. -/
theorem filterMap_edge? {entries : List ModuleEntry}
    (paths : (entries.map ModuleEntry.path).Nodup)
    (ends : ∀ route ∈ traffic.weights.keys, route.source ∈ entries.map ModuleEntry.path ∧
      route.target ∈ entries.map ModuleEntry.path) :
    (traffic.weights.entries.filterMap fun (route, weight) =>
        edge? (numbered entries) route weight) =
      traffic.weights.entries.map (edgeBetween entries) := by
  rw [← List.filterMap_eq_map]
  apply List.filterMap_congr
  intro entry entered
  have taken : entry.1 ∈ traffic.weights.keys := List.mem_map.2 ⟨entry, entered, rfl⟩
  exact edge?_numbered paths (ends _ taken).1 (ends _ taken).2 entry.2

include paths ends

theorem edges_ofTraffic_all :
    (ofTraffic traffic modules false).edges =
      traffic.weights.entries.map (edgeBetween modules) := by
  rw [← filterMap_edge? paths ends, ← @nodes_ofTraffic_all traffic modules]
  rfl

include counts

theorem edges_ofTraffic_connected :
    (ofTraffic traffic modules true).edges =
      traffic.weights.entries.map (edgeBetween (touched traffic modules)) :=
  filterMap_edge? (nodup_touched paths) fun _ => ends_touched counts ends

/-- Edges end where routes do. -/
theorem isEnd_ofTraffic {m : ModuleEntry} (listed : m ∈ modules) :
    (ofTraffic traffic modules false).isEnd ⟨place modules m.path, m⟩ =
      traffic.touches m.path := by
  have member : m.path ∈ modules.map ModuleEntry.path := List.mem_map.2 ⟨m, listed, rfl⟩
  rw [counts.touches_eq_any]
  unfold isEnd Table.keys
  rw [edges_ofTraffic_all paths ends, List.any_map, List.any_map]
  apply congrArg
  funext entry
  simp only [Function.comp_apply, edgeBetween, beq_eq_decide]
  simp only [eq_comm, place_inj member]

/-- The connected nodes are the modules that are touched, with their places among all. -/
theorem connected_ofTraffic :
    (ofTraffic traffic modules false).connected =
      (touched traffic modules).map fun m => ⟨place modules m.path, m⟩ := by
  unfold connected touched
  rw [nodes_ofTraffic_all, numbered_eq_map paths, List.filter_map]
  congr 1
  apply List.filter_congr
  intro m listed
  exact isEnd_ofTraffic counts paths ends listed

theorem ids_connected_ofTraffic :
    (ofTraffic traffic modules false).connected.map ModuleNode.id =
      ((touched traffic modules).map ModuleEntry.path).map (place modules) := by
  rw [connected_ofTraffic counts paths ends, List.map_map, List.map_map]
  rfl

/-- The new number of a node that stays is the place of its path among those that stay. -/
theorem renumber_ofTraffic {path : String}
    (stays : path ∈ (touched traffic modules).map ModuleEntry.path) :
    (ofTraffic traffic modules false).renumber (place modules path) =
      place (touched traffic modules) path := by
  have distinct : ((ofTraffic traffic modules false).connected.map ModuleNode.id).Nodup := by
    have all : ((ofTraffic traffic modules false).nodes.map ModuleNode.id).Nodup :=
      nodup_ids_numbered _
    exact all.sublist (List.filter_sublist.map _)
  unfold renumber
  rw [ids_connected_ofTraffic counts paths ends] at distinct ⊢
  rw [idxOf_map_of_nodup distinct stays]
  rfl

/-- The graph of the connected modules restricts the graph of all modules. -/
theorem restricts_ofTraffic :
    Restricts (ofTraffic traffic modules false) (ofTraffic traffic modules true) := by
  have renumbered : ∀ m ∈ touched traffic modules,
      (ofTraffic traffic modules false).renumber (place modules m.path) =
        place (touched traffic modules) m.path := fun m stays =>
    renumber_ofTraffic counts paths ends (List.mem_map.2 ⟨m, stays, rfl⟩)
  constructor
  case nodes =>
    rw [nodes_ofTraffic_connected, numbered_eq_map (nodup_touched paths),
      connected_ofTraffic counts paths ends, List.map_map]
    apply List.map_congr_left
    intro m stays
    rw [Function.comp_apply, renumbered m stays]
  case ids =>
    rw [nodes_ofTraffic_connected, ids_numbered, connected_ofTraffic counts paths ends,
      List.length_map]
  case ends =>
    intro e member
    rw [edges_ofTraffic_all paths ends] at member
    rcases List.mem_map.1 member with ⟨entry, entered, rfl⟩
    have taken : entry.1 ∈ traffic.weights.keys := List.mem_map.2 ⟨entry, entered, rfl⟩
    rcases ends_touched counts ends taken with ⟨source, target⟩
    rw [ids_connected_ofTraffic counts paths ends]
    exact ⟨List.mem_map.2 ⟨_, source, rfl⟩, List.mem_map.2 ⟨_, target, rfl⟩⟩
  case edges =>
    rw [edges_ofTraffic_all paths ends, edges_ofTraffic_connected counts paths ends, List.map_map]
    apply List.map_congr_left
    intro entry entered
    have taken : entry.1 ∈ traffic.weights.keys := List.mem_map.2 ⟨entry, entered, rfl⟩
    rcases ends_touched counts ends taken with ⟨source, target⟩
    simp only [Function.comp_apply, edgeBetween, renumber_ofTraffic counts paths ends source,
      renumber_ofTraffic counts paths ends target]

end Traffic

/-! ## Graphs of registries -/

/-- Leaving out the modules that take part in no edge changes numbers and nothing else. This holds
of every registry that additions make, where no module stands at the path of the external node. -/
theorem ofRegistry_restricts {r : Registry} (reachable : r.Reachable)
    (apart : r.external.path ∉ r.modules.keys) :
    Restricts (ofRegistry r false).value (ofRegistry r true).value := by
  have filed := reachable.filed
  have ends : ∀ route ∈ (Traffic.ofRegistry r).value.weights.keys,
      route.source ∈ r.allModules.map ModuleEntry.path ∧
        route.target ∈ r.allModules.map ModuleEntry.path := by
    intro route taken
    rw [(counts_ofRegistry r).weights, Table.mem_keys_tally] at taken
    exact ends_of_mem_routes filed taken
  exact restricts_ofTraffic (counts_ofRegistry r) (filed.nodup_paths_allModules apart) ends

/-- A registry of three modules. One calls itself and a vendor library; of the other two, one calls
a module that nobody registers and one is not called. -/
def secluded : Registry :=
  .ofAdditions {}
    [.ofModule { path := "/a.xqy", qualifier := "a", uri := "urn:a" },
      .ofModule { path := "/b.xqy", qualifier := "b", uri := "urn:b" },
      .ofModule { path := "/c.xqy", qualifier := "c", uri := "urn:c" },
      .ofImport
        { owner := "/b.xqy", qualifier := "v", uri := "urn:v"
          location := some "/MarkLogic/v.xqy" },
      .ofFunction { owner := "/b.xqy", name := "f", arity := 0 },
      .ofCall { owner := "/c.xqy", caller := "g#0", token := some "x", name := "f" },
      .ofCall { owner := "/x.xqy", caller := "g#0", token := some "a", name := "f" },
      .ofCall { owner := "/b.xqy", caller := "f#0", token := none, name := "f", arity := some 0 },
      .ofCall { owner := "/b.xqy", caller := "f#0", token := some "v", name := "go" }]

/-- The second and the fourth node stay. -/
theorem secluded_restricts :
    (ofRegistry secluded false).value.connected.map ModuleNode.id = [2, 4] ∧
      (ofRegistry secluded true).value.nodes.map (fun n => (n.id, n.entry.path)) =
        [(1, "/b.xqy"), (2, "MarkLogic-Library")] ∧
      (ofRegistry secluded true).value.edges = [⟨1, 1, "f#0", 1⟩, ⟨1, 2, "go", 1⟩] ∧
      Restricts (ofRegistry secluded false).value (ofRegistry secluded true).value := by
  have reachable : secluded.Reachable := Registry.reachable_ofAdditions _ _
  have apart : secluded.external.path ∉ secluded.modules.keys := by decide
  exact ⟨by rfl, by rfl, by rfl, ofRegistry_restricts reachable apart⟩

end CallAtlas.ModuleGraph
