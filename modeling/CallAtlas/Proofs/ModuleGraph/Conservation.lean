import CallAtlas.Proofs.ModuleGraph

/-!
# Calls and weights

The module graph of a registry shows every resolved call between known modules once. Its weights,
its nodes and their numbers come from three passes over different views of the registry; that no
number is missing rests on `tallies_ofRegistry`: the ends of every counted route are modules that
the second pass keeps.

`ofRegistry_conserves` is about every registry that additions make, and about both kinds of graph,
with all modules and with the connected ones only.
-/

namespace CallAtlas.ModuleGraph

variable {r : Registry}

/-! ## Routes of a registry -/

theorem known_of_mem_routes {route : Route} (member : route ∈ routes r) :
    r.knows route.source = true ∧ r.knows route.target = true := by
  obtain ⟨e, kept, rfl⟩ := List.mem_map.1 member
  have known := (List.mem_filter.1 kept).2
  unfold isKnown at known
  rw [Bool.and_eq_true] at known
  exact known

/-- Between known modules, a route is taken by the edges of the calls in its source. -/
theorem count_routes {source target : String} (knownSource : r.knows source = true)
    (knownTarget : r.knows target = true) (label : String) :
    (routes r).count ⟨source, target, label⟩ =
      ((r.calls.filter (·.owner = source)).map fun c =>
        (r.resolve c).value.countP (·.target = ⟨target, label⟩)).sum := by
  have along : ∀ e : Edge, (routeOf e == ⟨source, target, label⟩ && isKnown r e) = true ↔
      (decide (e.target = ⟨target, label⟩) && decide (e.source.path = source)) = true := by
    rintro ⟨⟨path, caller⟩, ⟨path', function⟩, arity⟩
    unfold isKnown routeOf
    simp only [Bool.and_eq_true, beq_iff_eq, decide_eq_true_eq, Route.mk.injEq,
      FunctionRef.mk.injEq]
    constructor
    · rintro ⟨⟨fromSource, toTarget⟩, -⟩
      exact ⟨toTarget, fromSource⟩
    · rintro ⟨⟨rfl, rfl⟩, rfl⟩
      exact ⟨⟨rfl, rfl, rfl⟩, knownSource, knownTarget⟩
  calc (routes r).count ⟨source, target, label⟩
      = r.edges.countP fun e => routeOf e == ⟨source, target, label⟩ && isKnown r e := by
        unfold routes
        rw [List.count, List.countP_map, List.countP_filter]
        rfl
    _ = (r.edges.filter fun e => e.source.path = source).countP (·.target = ⟨target, label⟩) := by
        rw [List.countP_filter]
        exact List.countP_congr fun e _ => along e
    _ = _ := by
        rw [r.filter_edges fun caller => caller.path = source, List.countP_flatMap]
        rfl

theorem length_routes (r : Registry) : (routes r).length = r.edges.countP (isKnown r) := by
  unfold routes
  rw [List.length_map, List.countP_eq_length_filter]

/-! ## The graph of a registry -/

theorem ends_of_mem_routes (filed : r.Filed) {route : Route} (member : route ∈ routes r) :
    route.source ∈ r.allModules.map ModuleEntry.path ∧
      route.target ∈ r.allModules.map ModuleEntry.path := by
  rw [← filed.knows_iff, ← filed.knows_iff]
  exact known_of_mem_routes member

/-- The edges of the graph of a registry are a tally of its routes. -/
theorem tallies_ofRegistry (filed : r.Filed) (connectedOnly : Bool) :
    (ofRegistry r connectedOnly).value.Tallies (routes r) :=
  tallies_ofTraffic (counts_ofRegistry r) (fun _ => ends_of_mem_routes filed) connectedOnly

/-- Each counted route becomes an edge, in the order of the counts. -/
theorem edges_ofRegistry (filed : r.Filed) (connectedOnly : Bool) :
    (ofRegistry r connectedOnly).value.edges.map some =
      (Traffic.ofRegistry r).value.weights.entries.map fun entry =>
        edge? (ofRegistry r connectedOnly).value.nodes entry.1 entry.2 := by
  refine map_filterMap_of_some fun entry entered => ?_
  rw [(counts_ofRegistry r).weights] at entered
  obtain ⟨e, made, -⟩ := exists_edge_of_entry (counts_ofRegistry r)
    (fun _ => ends_of_mem_routes filed) connectedOnly entered
  exact ⟨e, made, made.symm⟩

theorem nodup_paths_ofRegistry (filed : r.Filed) (apart : r.external.path ∉ r.modules.keys)
    (connectedOnly : Bool) :
    ((ofRegistry r connectedOnly).value.nodes.map (·.entry.path)).Nodup := by
  change ((ofRegistry r connectedOnly).value.nodes.map (ModuleEntry.path ∘ ModuleNode.entry)).Nodup
  rw [← List.map_map, map_entry_ofRegistry]
  exact (filed.nodup_paths_allModules apart).sublist (List.filter_sublist.map _)

/-- No two edges of a tally share their ends and their label. -/
theorem Tallies.nodup_ends {g : ModuleGraph} {routes : List Route} (tallies : g.Tallies routes) :
    (g.edges.map fun e => (e.source, e.target, e.label)).Nodup := by
  have runs : g.edges.map g.route? =
      (g.edges.map fun e => (e.source, e.target, e.label)).map fun ends =>
        g.route? ⟨ends.1, ends.2.1, ends.2.2, 0⟩ := by
    rw [List.map_map]
    rfl
  have nodup := tallies.nodup_route?
  rw [runs] at nodup
  exact nodup.of_map _

theorem Tallies.one_le_callCount {g : ModuleGraph} {routes : List Route}
    (tallies : g.Tallies routes) {e : ModuleEdge} (member : e ∈ g.edges) : 1 ≤ e.callCount := by
  obtain ⟨entry, entered, -, counted⟩ := tallies.exists_entry member
  obtain ⟨taken, count⟩ := (Table.mem_entries_tally routes entry.1 entry.2).1 entered
  have positive := List.count_pos_iff.2 taken
  rw [counted, count]
  exact Int.ofNat_le.2 positive

/-- A graph shows the resolved calls of a registry between known modules, each of them once. -/
structure Conserves (r : Registry) (g : ModuleGraph) : Prop where
  /-- Nodes are numbered from one, in their order. -/
  ids : g.nodes.map ModuleNode.id = (List.range g.nodes.length).map fun i => Int.ofNat i + 1
  paths : (g.nodes.map (·.entry.path)).Nodup
  /-- Every counted route finds the numbers of its ends. -/
  edges : g.edges.map some = (Traffic.ofRegistry r).value.weights.entries.map fun entry =>
    edge? g.nodes entry.1 entry.2
  ends : (g.edges.map fun e => (e.source, e.target, e.label)).Nodup
  positive : ∀ e ∈ g.edges, 1 ≤ e.callCount
  /-- Between known modules, an edge counts the calls in its source by the edges they resolve
  to. -/
  weight : ∀ source target label, r.knows source = true → r.knows target = true →
    g.weight ⟨source, target, label⟩ =
      Int.ofNat ((r.calls.filter (·.owner = source)).map fun c =>
        (r.resolve c).value.countP (·.target = ⟨target, label⟩)).sum
  total : (g.edges.map ModuleEdge.callCount).sum =
    Int.ofNat (r.edges.countP fun e => r.knows e.source.path && r.knows e.target.path)

/-- **The module graph conserves calls.** This holds of every registry that additions make,
where no module stands at the path of the external node. -/
theorem ofRegistry_conserves {r : Registry} (reachable : r.Reachable)
    (apart : r.external.path ∉ r.modules.keys) (connectedOnly : Bool) :
    Conserves r (ofRegistry r connectedOnly).value := by
  have filed := reachable.filed
  have tallies := tallies_ofRegistry filed connectedOnly
  refine ⟨?_, nodup_paths_ofRegistry filed apart connectedOnly,
    edges_ofRegistry filed connectedOnly, tallies.nodup_ends, fun e => tallies.one_le_callCount,
    ?_, ?_⟩
  · rw [value_ofRegistry]
    unfold ofTraffic
    rw [ids_numbered]
    unfold numbered
    rw [List.length_mapIdx]
  · intro source target label knownSource knownTarget
    rw [tallies.weight_eq, count_routes knownSource knownTarget]
  · rw [tallies.sum_callCount, length_routes]
    rfl

/-- A registry of two modules, where one call reaches two functions and the call of an unknown
module is not counted. -/
def overloaded : Registry :=
  let a : ModuleEntry := { path := "/a.xqy", qualifier := "a", uri := "urn:a" }
  let b : ModuleEntry := { path := "/b.xqy", qualifier := "b", uri := "urn:b" }
  let f (arity : Int) : FunctionEntry := { owner := "/b.xqy", name := "f", arity := arity }
  let c (owner : String) (arity : Option Int) : CallEntry :=
    { owner := owner, caller := "g#0", token := some "b", name := "f", arity := arity }
  let modules := ((({} : Registry).addModule a).value.addModule b).value
  let functions := ((modules.addFunction (f 0)).value.2.addFunction (f 1)).value.2
  ((functions.addCall (c "/a.xqy" none)).addCall (c "/a.xqy" (some 1))).addCall
    (c "/c.xqy" (some 1))

/-- The two calls of `overloaded` in a known module are three in its graph. -/
theorem overloaded_conserves :
    (ofRegistry overloaded true).value.weight ⟨"/a.xqy", "/b.xqy", "f#0"⟩ = 1 ∧
      (ofRegistry overloaded true).value.weight ⟨"/a.xqy", "/b.xqy", "f#1"⟩ = 2 ∧
      ((ofRegistry overloaded true).value.edges.map ModuleEdge.callCount).sum = 3 := by
  have reachable : overloaded.Reachable :=
    .addCall _ (.addCall _ (.addCall _ (.addFunction _ (.addFunction _
      (.addModule _ (.addModule _ (.fresh {})))))))
  have apart : overloaded.external.path ∉ overloaded.modules.keys := by decide
  have conserves := ofRegistry_conserves reachable apart true
  refine ⟨?_, ?_, ?_⟩
  · rw [conserves.weight _ _ _ (by decide) (by decide)]
    decide
  · rw [conserves.weight _ _ _ (by decide) (by decide)]
    decide
  · rw [conserves.total]
    decide

end CallAtlas.ModuleGraph
