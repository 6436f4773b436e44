import CallAtlas.ModuleGraph
import CallAtlas.Proofs.Registry.Edges
import CallAtlas.Proofs.Report
import CallAtlas.Proofs.Table
import Mathlib.Algebra.BigOperators.Ring.Finset

/-!
# Graphs of traffic

A module graph is made in two steps: the calls of a registry are counted by route, and each route
becomes an edge between the numbers of its ends. Counted are the routes along which calls resolve
between known modules: the weights are a tally of them, and the modules at their ends are connected
(`Traffic.Counts`, `counts_ofRegistry`). The edges are the tally again: an end is found by its
number as surely as its number was found by its path.
-/

namespace CallAtlas.ModuleGraph

/-- The modules between which an edge runs, with its label. -/
def route? (g : ModuleGraph) (e : ModuleEdge) : Option Route := do
  let source ← g.nodes.find? (·.id == e.source)
  let target ← g.nodes.find? (·.id == e.target)
  return ⟨source.entry.path, target.entry.path, e.label⟩

/-- How many calls an edge along a route stands for, zero if there is none. -/
def weight (g : ModuleGraph) (route : Route) : Int :=
  ((g.edges.find? fun e => g.route? e = some route).map ModuleEdge.callCount).getD 0

/-- The graph of some traffic between modules. -/
def ofTraffic (traffic : Traffic) (modules : List ModuleEntry) (connectedOnly : Bool) :
    ModuleGraph :=
  let nodes := numbered (modules.filter fun m => !connectedOnly || traffic.touches m.path)
  ⟨nodes, traffic.weights.entries.filterMap fun (route, weight) => edge? nodes route weight⟩

theorem value_ofRegistry (r : Registry) (connectedOnly : Bool) :
    (ofRegistry r connectedOnly).value =
      ofTraffic (Traffic.ofRegistry r).value r.allModules connectedOnly := rfl

/-! ## Counting -/

/-- The route of an edge between functions. -/
def routeOf (e : Edge) : Route :=
  ⟨e.source.path, e.target.path, e.target.function⟩

/-- Whether a registry knows both ends of an edge. -/
def isKnown (r : Registry) (e : Edge) : Bool :=
  r.knows e.source.path && r.knows e.target.path

/-- The routes along which the calls of a registry resolve between known modules, each as often as
it is taken. -/
def routes (r : Registry) : List Route :=
  (r.edges.filter (isKnown r)).map routeOf

/-- Traffic in which some routes were counted: the weights say how often each is taken, and the
modules at their ends are connected. -/
structure Traffic.Counts (t : Traffic) (taken : List Route) : Prop where
  weights : t.weights = Table.tally taken
  connected : ∀ path, path ∈ t.connected ↔
    ∃ route ∈ taken, route.source = path ∨ route.target = path

namespace Traffic.Counts

variable {t : Traffic} {taken : List Route}

theorem empty : ({} : Traffic).Counts [] := by
  refine ⟨rfl, ?_⟩
  intro path
  constructor
  · intro member
    cases member
  · intro ⟨route, member, _⟩
    cases member

/-- Counting a route adds it to those that were counted. -/
theorem count (counts : t.Counts taken) (route : Route) :
    (t.count route).Counts (taken ++ [route]) := by
  constructor
  case weights =>
    unfold Traffic.count Table.tally
    rw [List.foldl_concat, counts.weights]
    rfl
  case connected =>
    intro path
    unfold Traffic.count
    rw [List.mem_insert_iff, List.mem_insert_iff, counts.connected path]
    simp only [List.mem_append, List.mem_singleton, or_and_right, exists_or, exists_eq_left,
      eq_comm (a := path)]
    rw [← or_assoc, or_comm, or_comm (a := route.target = path)]

theorem touches_iff (counts : t.Counts taken) (path : String) :
    t.touches path = true ↔ ∃ route ∈ taken, route.source = path ∨ route.target = path := by
  unfold touches
  rw [List.contains_iff_mem, counts.connected path]

/-- The modules that are connected are the ends of the routes that have a weight. -/
theorem touches_eq_any (counts : t.Counts taken) (path : String) :
    t.touches path =
      t.weights.keys.any fun route => route.source == path || route.target == path := by
  rw [Bool.eq_iff_iff, counts.touches_iff, counts.weights, List.any_eq_true]
  simp only [Table.mem_keys_tally, Bool.or_eq_true, beq_iff_eq]

/-- An edge from a known module is counted if it leads to one. -/
theorem countEdge (counts : t.Counts taken) {r : Registry} {e : Edge}
    (source : r.knows e.source.path = true) :
    (t.countEdge r e).value.Counts (taken ++ ([e].filter (isKnown r)).map routeOf) := by
  have known : isKnown r e = r.knows e.target.path := by
    rw [isKnown, source, Bool.true_and]
  unfold Traffic.countEdge
  split
  next here =>
    rw [List.filter_cons_of_pos (known.trans here)]
    exact counts.count (routeOf e)
  next unknown =>
    rw [List.filter_cons_of_neg (known ▸ unknown), List.filter_nil, List.map_nil, List.append_nil]
    exact ⟨counts.weights, counts.connected⟩

/-- Of the edges of one call, those with known ends are counted. -/
theorem countCall (counts : t.Counts taken) (r : Registry) (c : CallEntry) :
    (t.countCall r c).value.Counts
      (taken ++ ((r.resolve c).value.filter (isKnown r)).map routeOf) := by
  have sources : ∀ e ∈ (r.resolve c).value, r.knows e.source.path = r.knows c.owner := by
    intro e member
    rw [Registry.source_of_mem_resolve member]
    rfl
  unfold Traffic.countCall
  split
  next known =>
    rw [Report.value_bind, Report.value_foldlM]
    rw [known] at sources
    generalize (r.resolve c).value = edges at sources
    induction edges generalizing t taken with
    | nil =>
      rw [List.filter_nil, List.map_nil, List.append_nil]
      exact counts
    | cons e edges ih =>
      obtain ⟨own, others⟩ := List.forall_mem_cons.1 sources
      have rest := ih (counts.countEdge own) others
      rwa [List.append_assoc, ← List.map_append, ← List.filter_append,
        List.singleton_append] at rest
  next unknown =>
    rw [Bool.not_eq_true] at unknown
    have none : (r.resolve c).value.filter (isKnown r) = [] := by
      refine List.filter_eq_nil_iff.2 fun e member => ?_
      rw [isKnown, sources e member, unknown, Bool.false_and]
      exact Bool.false_ne_true
    rw [none, List.map_nil, List.append_nil]
    exact ⟨counts.weights, counts.connected⟩

end Traffic.Counts

/-- The traffic of a registry counts its routes. -/
theorem counts_ofRegistry (r : Registry) : (Traffic.ofRegistry r).value.Counts (routes r) := by
  have counted : ∀ (calls : List CallEntry) {t : Traffic} {taken : List Route}, t.Counts taken →
      (calls.foldl (fun t c => (t.countCall r c).value) t).Counts (taken ++
        ((calls.flatMap fun c => (r.resolve c).value).filter (isKnown r)).map routeOf) := by
    intro calls
    induction calls with
    | nil =>
      intro t taken counts
      rw [List.flatMap_nil, List.filter_nil, List.map_nil, List.append_nil]
      exact counts
    | cons c calls ih =>
      intro t taken counts
      rw [List.foldl_cons, List.flatMap_cons, List.filter_append, List.map_append,
        ← List.append_assoc]
      exact ih (counts.countCall r c)
  unfold Traffic.ofRegistry
  rw [Report.value_foldlM]
  exact counted r.calls .empty

/-- A call of a registry takes a route: it has one edge, and both ends are known. -/
structure Takes (r : Registry) (c : CallEntry) (route : Route) : Prop where
  caller : r.knows c.owner = true
  called : r.knows route.target = true
  edges : (r.resolve c).value = [⟨c.callerRef, ⟨route.target, route.label⟩, c.arity⟩]
  source : route.source = c.owner

theorem Takes.routes {r : Registry} {c : CallEntry} {route : Route} (takes : Takes r c route) :
    ((r.resolve c).value.filter (isKnown r)).map routeOf = [route] := by
  have known : isKnown r ⟨c.callerRef, ⟨route.target, route.label⟩, c.arity⟩ = true := by
    unfold isKnown CallEntry.callerRef
    rw [takes.caller, takes.called]
    rfl
  rw [takes.edges, List.filter_cons_of_pos known, List.filter_nil]
  cases route with
  | mk source target label =>
    cases takes.source
    rfl

/-- The traffic of calls that take routes counts these. -/
theorem counts_of_takes {r : Registry} {taken : List Route}
    (takes : List.Forall₂ (Takes r) r.calls taken) :
    (Traffic.ofRegistry r).value.Counts taken := by
  have same : ∀ {calls : List CallEntry} {taken : List Route}, List.Forall₂ (Takes r) calls taken →
      ((calls.flatMap fun c => (r.resolve c).value).filter (isKnown r)).map routeOf = taken := by
    intro calls taken takes
    induction takes with
    | nil => rfl
    | cons first _ ih =>
      rw [List.flatMap_cons, List.filter_append, List.map_append, first.routes, ih,
        List.singleton_append]
  have counts := counts_ofRegistry r
  rwa [routes, Registry.edges, same takes] at counts

/-! ## Numbers -/

/-- Nodes are numbered from one. -/
theorem ids_numbered (entries : List ModuleEntry) :
    (numbered entries).map ModuleNode.id =
      (List.range entries.length).map fun i => Int.ofNat i + 1 := by
  refine List.ext_getElem ?_ ?_
  · simp only [numbered, List.length_map, List.length_mapIdx, List.length_range]
  · intro i _ _
    simp only [numbered, List.getElem_map, List.getElem_mapIdx, List.getElem_range]

theorem nodup_ids_numbered (entries : List ModuleEntry) :
    ((numbered entries).map ModuleNode.id).Nodup := by
  rw [ids_numbered]
  refine List.nodup_range.map ?_
  intro a b same
  exact Int.ofNat.inj ((Int.add_left_inj 1).1 same)

theorem map_entry_numbered (entries : List ModuleEntry) :
    (numbered entries).map ModuleNode.entry = entries := by
  refine List.ext_getElem ?_ ?_
  · simp only [numbered, List.length_map, List.length_mapIdx]
  · intro i _ _
    simp only [numbered, List.getElem_map, List.getElem_mapIdx]

/-- The nodes of the graph of a registry are its modules, without those left out. -/
theorem map_entry_ofRegistry (r : Registry) (connectedOnly : Bool) :
    (ofRegistry r connectedOnly).value.nodes.map ModuleNode.entry =
      r.allModules.filter fun m => !connectedOnly || (Traffic.ofRegistry r).value.touches m.path :=
  map_entry_numbered _

theorem entry_mem_allModules {r : Registry} {connectedOnly : Bool} {n : ModuleNode}
    (shown : n ∈ (ofRegistry r connectedOnly).value.nodes) : n.entry ∈ r.allModules := by
  have listed := List.mem_map_of_mem (f := ModuleNode.entry) shown
  rw [map_entry_ofRegistry] at listed
  exact (List.mem_filter.1 listed).1

/-- The number found for a path leads back to a node with the path. -/
theorem exists_node_of_mem {entries : List ModuleEntry} {path : String}
    (member : path ∈ entries.map ModuleEntry.path) :
    ∃ n : ModuleNode, idOf? (numbered entries) path = some n.id ∧
      (numbered entries).find? (·.id == n.id) = some n ∧ n.entry.path = path := by
  obtain ⟨entry, listed, named⟩ := List.mem_map.1 member
  obtain ⟨i, inside, same⟩ := List.getElem_of_mem listed
  have node : (⟨Int.ofNat i + 1, entry⟩ : ModuleNode) ∈ (numbered entries).reverse := by
    rw [List.mem_reverse]
    refine List.mem_iff_getElem.2 ⟨i, ?_, ?_⟩
    · simpa only [numbered, List.length_mapIdx] using inside
    · simp only [numbered, List.getElem_mapIdx, same]
  obtain ⟨n, found⟩ : ∃ n, (numbered entries).reverse.find? (·.entry.path == path) = some n := by
    rw [← Option.isSome_iff_exists, List.find?_isSome]
    exact ⟨_, node, beq_iff_eq.2 named⟩
  have own : n ∈ numbered entries := List.mem_reverse.1 (List.mem_of_find?_eq_some found)
  obtain ⟨n', again⟩ : ∃ n', (numbered entries).find? (·.id == n.id) = some n' := by
    rw [← Option.isSome_iff_exists, List.find?_isSome]
    exact ⟨n, own, beq_self_eq_true _⟩
  have samePath := List.find?_some found
  have sameId := List.find?_some again
  have sameNode : n' = n := List.inj_on_of_nodup_map (nodup_ids_numbered entries)
    (List.mem_of_find?_eq_some again) own (eq_of_beq sameId)
  refine ⟨n, ?_, sameNode ▸ again, eq_of_beq samePath⟩
  unfold idOf?
  rw [found]
  rfl

/-! ## Edges -/

theorem map_filterMap_of_some {α β γ : Type} {f : α → Option β} {g : β → γ} {h : α → γ}
    {xs : List α} (each : ∀ x ∈ xs, ∃ y, f x = some y ∧ g y = h x) :
    (xs.filterMap f).map g = xs.map h := by
  induction xs with
  | nil => rfl
  | cons x xs ih =>
    obtain ⟨y, made, same⟩ := each x List.mem_cons_self
    rw [List.filterMap_cons_some made, List.map_cons, List.map_cons, same,
      ih fun z member => each z (List.mem_cons_of_mem _ member)]

/-- The edges of a graph are a tally of routes. -/
def Tallies (g : ModuleGraph) (routes : List Route) : Prop :=
  g.edges.map (fun e => (g.route? e, e.callCount)) =
    (Table.tally routes).entries.map fun entry => (some entry.1, Int.ofNat entry.2)

section Traffic

variable {traffic : Traffic} {routes : List Route} (counts : traffic.Counts routes)
  {modules : List ModuleEntry}
  (ends : ∀ route ∈ routes, route.source ∈ modules.map ModuleEntry.path ∧
    route.target ∈ modules.map ModuleEntry.path)
  (connectedOnly : Bool)
include counts

/-- A module at an end of a route is shown, whether or not others are left out. -/
theorem mem_shown_of_end {route : Route} (member : route ∈ routes) {path : String}
    (isEnd : route.source = path ∨ route.target = path)
    (listed : path ∈ modules.map ModuleEntry.path) :
    path ∈ (modules.filter fun m => !connectedOnly || traffic.touches m.path).map
      ModuleEntry.path := by
  obtain ⟨m, inside, rfl⟩ := List.mem_map.1 listed
  refine List.mem_map.2 ⟨m, List.mem_filter.2 ⟨inside, ?_⟩, rfl⟩
  rw [(counts.touches_iff m.path).2 ⟨route, member, isEnd⟩, Bool.or_true]

include ends

/-- Every counted route finds the numbers of its ends, and its edge runs along it. -/
theorem exists_edge_of_entry {entry : Route × Nat}
    (entered : entry ∈ (Table.tally routes).entries) :
    ∃ e, edge? (ofTraffic traffic modules connectedOnly).nodes entry.1 entry.2 = some e ∧
      ((ofTraffic traffic modules connectedOnly).route? e, e.callCount) =
        (some entry.1, Int.ofNat entry.2) := by
  obtain ⟨route, count⟩ := entry
  have member := ((Table.mem_entries_tally routes route count).1 entered).1
  obtain ⟨source, numberedSource, foundSource, sourcePath⟩ := exists_node_of_mem
    (mem_shown_of_end counts connectedOnly member (Or.inl rfl) (ends route member).1)
  obtain ⟨target, numberedTarget, foundTarget, targetPath⟩ := exists_node_of_mem
    (mem_shown_of_end counts connectedOnly member (Or.inr rfl) (ends route member).2)
  refine ⟨⟨source.id, target.id, route.label, Int.ofNat count⟩, ?_, ?_⟩
  · unfold edge? ofTraffic
    dsimp only
    rw [numberedSource, numberedTarget]
    rfl
  · unfold route? ofTraffic
    dsimp only
    rw [foundSource, foundTarget]
    change (some (Route.mk source.entry.path target.entry.path route.label), Int.ofNat count) = _
    rw [sourcePath, targetPath]

/-- The edges of tallied traffic are the tally, if the ends of all routes are modules. -/
theorem tallies_ofTraffic : (ofTraffic traffic modules connectedOnly).Tallies routes := by
  have edges := map_filterMap_of_some fun _ entered =>
    exists_edge_of_entry counts ends connectedOnly entered
  unfold Tallies
  rw [← counts.weights] at edges ⊢
  exact edges

end Traffic

section Tallied

variable {g : ModuleGraph} {routes : List Route} (tallies : g.Tallies routes)
include tallies

theorem Tallies.exists_entry {e : ModuleEdge} (member : e ∈ g.edges) :
    ∃ entry ∈ (Table.tally routes).entries,
      g.route? e = some entry.1 ∧ e.callCount = Int.ofNat entry.2 := by
  have listed : (g.route? e, e.callCount) ∈ g.edges.map fun e => (g.route? e, e.callCount) :=
    List.mem_map.2 ⟨e, member, rfl⟩
  rw [tallies] at listed
  obtain ⟨entry, entered, same⟩ := List.mem_map.1 listed
  rw [Prod.mk.injEq] at same
  exact ⟨entry, entered, same.1.symm, same.2.symm⟩

/-- There is an edge for each route, and it counts how often the route is taken. -/
theorem Tallies.exists_edge_iff (route : Route) (count : Nat) :
    (∃ e ∈ g.edges, g.route? e = some route ∧ e.callCount = Int.ofNat count) ↔
      route ∈ routes ∧ count = routes.count route := by
  rw [← Table.mem_entries_tally]
  constructor
  · rintro ⟨e, member, run, counted⟩
    obtain ⟨entry, entered, sameRoute, sameCount⟩ := tallies.exists_entry member
    rw [run] at sameRoute
    rw [counted] at sameCount
    rw [Option.some.inj sameRoute, Int.ofNat.inj sameCount]
    exact entered
  · intro entered
    have listed : (some route, Int.ofNat count) ∈
        g.edges.map fun e => (g.route? e, e.callCount) := by
      rw [tallies]
      exact List.mem_map.2 ⟨(route, count), entered, rfl⟩
    obtain ⟨e, member, same⟩ := List.mem_map.1 listed
    rw [Prod.mk.injEq] at same
    exact ⟨e, member, same⟩

/-- No two edges run along the same route. -/
theorem Tallies.nodup_route? : (g.edges.map g.route?).Nodup := by
  have runs : g.edges.map g.route? = (Table.tally routes).keys.map some := by
    have firsts := congrArg (List.map Prod.fst) tallies
    rw [List.map_map, List.map_map] at firsts
    unfold Table.keys
    rw [List.map_map]
    exact firsts
  rw [runs]
  refine (Table.nodup_keys_tally routes).map ?_
  intro route other same
  exact Option.some.inj same

/-- The weight of an edge counts how often its route is taken. -/
theorem Tallies.weight_eq (route : Route) : g.weight route = Int.ofNat (routes.count route) := by
  unfold weight
  cases found : g.edges.find? fun e => g.route? e = some route with
  | none =>
    have absent : route ∉ routes := by
      intro member
      obtain ⟨e, listed, run, -⟩ := (tallies.exists_edge_iff route _).2 ⟨member, rfl⟩
      have differs := List.find?_eq_none.1 found e listed
      exact differs (decide_eq_true run)
    rw [List.count_eq_zero_of_not_mem absent]
    rfl
  | some e =>
    have test := List.find?_some found
    have run : g.route? e = some route := of_decide_eq_true test
    obtain ⟨entry, entered, along, counted⟩ :=
      tallies.exists_entry (List.mem_of_find?_eq_some found)
    have same : entry.1 = route := Option.some.inj (along.symm.trans run)
    have count := ((Table.mem_entries_tally routes entry.1 entry.2).1 entered).2
    rw [Option.map_some, Option.getD_some, counted, count, same]

/-- The weights of the edges add up to the number of times that routes are taken. -/
theorem Tallies.sum_callCount :
    (g.edges.map ModuleEdge.callCount).sum = Int.ofNat routes.length := by
  have counts : g.edges.map ModuleEdge.callCount = (Table.tally routes).values.map Int.ofNat := by
    have seconds := congrArg (List.map Prod.snd) tallies
    rw [List.map_map, List.map_map] at seconds
    unfold Table.values
    rw [List.map_map]
    exact seconds
  rw [counts, ← Table.sum_values_tally routes]
  exact (Nat.cast_list_sum _).symm

end Tallied

end CallAtlas.ModuleGraph
