import CallAtlas.Proofs.ModuleGraph.Conservation
import CallAtlas.Proofs.Registry.Alike
import CallAtlas.Proofs.Registry.Assembly

/-!
# The order of merged modules

Modules are merged in the order in which they were read. Tables hold their entries in that order,
and of two modules that declare one qualifier the later one is found; so the order shows as soon as
two modules share a path, a qualifier or a URI. Where no two do, every look-up is settled by the one
module that holds its key, wherever in the list the module stands (`filter_eq_of_perm`), and the
length of the longest function is that of the whole list. Hence the registries of a list and of the
list in another order are alike (`alike_of_perm`), and their module graphs differ in the order of
nodes and edges only.
-/

namespace CallAtlas

/-! ## Lists in another order -/

/-- Where one member at most has the name in question, it is found in any order. -/
theorem filter_eq_of_perm {α β : Type} {name : α → β} {key : β} {p : α → Bool} {xs ys : List α}
    (perm : xs.Perm ys) (named : ∀ x, p x = true → name x = key)
    (nodup : ((xs.filter p).map name).Nodup) : xs.filter p = ys.filter p := by
  have perm' := perm.filter p
  match found : xs.filter p with
  | [] =>
    rw [found] at perm'
    exact perm'.nil_eq
  | [x] =>
    rw [found] at perm'
    exact List.singleton_perm.1 perm'
  | x :: y :: rest =>
    -- Two of them would have the same name.
    have first : p x = true := (List.mem_filter.1 (found ▸ List.mem_cons_self)).2
    have second : p y = true :=
      (List.mem_filter.1 (found ▸ List.mem_cons_of_mem _ List.mem_cons_self)).2
    rw [found, List.map_cons, List.map_cons, named x first, named y second] at nodup
    exact ((List.nodup_cons.1 nodup).1 List.mem_cons_self).elim

theorem find?_reverse_of_perm {α β : Type} {name : α → β} {key : β} {p : α → Bool} {xs ys : List α}
    (perm : xs.Perm ys) (named : ∀ x, p x = true → name x = key)
    (nodup : ((xs.filter p).map name).Nodup) : xs.reverse.find? p = ys.reverse.find? p := by
  rw [← List.head?_filter, ← List.head?_filter, List.filter_reverse, List.filter_reverse,
    filter_eq_of_perm perm named nodup]

/-- Of groups with owners of their own, the members that have one owner are found in any order of
the groups. -/
theorem filter_flatMap_of_perm {μ α κ : Type} [DecidableEq κ] {name : μ → κ} {group : μ → List α}
    {owner : α → κ} {key : κ} {p : α → Bool} {ms others : List μ} (perm : ms.Perm others)
    (distinct : (ms.map name).Nodup) (owned : ∀ m, ∀ x ∈ group m, owner x = name m)
    (keyed : ∀ x, p x = true → owner x = key) :
    (ms.flatMap group).filter p = (others.flatMap group).filter p := by
  -- Groups of other owners have nothing to give.
  have narrowed : ∀ ms : List μ, (ms.flatMap group).filter p =
      (ms.filter (name · = key)).flatMap fun m => (group m).filter p := by
    intro ms
    induction ms with
    | nil => rfl
    | cons m ms ih =>
      rw [List.flatMap_cons, List.filter_append, ih, List.filter_cons]
      split
      next => rw [List.flatMap_cons]
      next other =>
        have none : (group m).filter p = [] := by
          refine List.filter_eq_nil_iff.2 fun x member chosen => other (decide_eq_true ?_)
          rw [← owned m x member, keyed x chosen]
        rw [none, List.nil_append]
  rw [narrowed, narrowed, filter_eq_of_perm perm (fun m => of_decide_eq_true)
    (distinct.sublist (List.filter_sublist.map _))]

namespace Registry

/-! ## Registries of modules in another order -/

/-- No two modules have the same path, qualifier or URI. An empty qualifier or URI is none. -/
structure Unambiguous (ms : List ParsedModule) : Prop where
  paths : (ms.map ParsedModule.path).Nodup
  qualifiers : ((ms.map (·.naming.qualifier)).filter (· ≠ "")).Nodup
  uris : ((ms.map (·.naming.uri)).filter (· ≠ "")).Nodup

theorem Unambiguous.sublist {ms kept : List ParsedModule} (unambiguous : Unambiguous ms)
    (sublist : kept.Sublist ms) : Unambiguous kept where
  paths := unambiguous.paths.sublist (sublist.map _)
  qualifiers := unambiguous.qualifiers.sublist ((sublist.map _).filter _)
  uris := unambiguous.uris.sublist ((sublist.map _).filter _)

/-- The length of the longest function does not depend on the order. -/
theorem longestLoc_of_perm {ms others : List ParsedModule} (perm : ms.Perm others) :
    longestLoc ms = longestLoc others := by
  have lengths := (perm.flatMap_right ParsedModule.firstDeclarations).map FunctionDecl.loc
  unfold longestLoc
  congr 1
  refine Option.ext fun longest => ?_
  rw [List.max?_eq_some_iff, List.max?_eq_some_iff, lengths.mem_iff]
  simp only [lengths.mem_iff]

section Tables

variable {modules others : List ModuleEntry} (perm : modules.Perm others)
include perm

theorem get?_moduleTable_of_perm (paths : (modules.map ModuleEntry.path).Nodup) (path : String) :
    (moduleTable modules).get? path = (moduleTable others).get? path := by
  rw [get?_moduleTable, get?_moduleTable]
  exact find?_reverse_of_perm perm (fun m => of_decide_eq_true)
    (paths.sublist (List.filter_sublist.map _))

theorem get?_nameTable_of_perm {name : ModuleEntry → String}
    (names : ((modules.map name).filter (· ≠ "")).Nodup) (key : String) :
    (nameTable name modules).get? key = (nameTable name others).get? key := by
  rw [get?_nameTable, get?_nameTable]
  congr 1
  refine find?_reverse_of_perm perm (fun m declares => (of_decide_eq_true declares).2) ?_
  rw [List.filter_map] at names
  refine names.sublist ((List.monotone_filter_right modules ?_).map name)
  intro m declares
  exact decide_eq_true (of_decide_eq_true declares).1

end Tables

section Merged

variable {ms others : List ParsedModule} (perm : ms.Perm others) (unambiguous : Unambiguous ms)
  (scheme : VendorScheme) (longest : Int)
include perm unambiguous

theorem filter_functions_of_perm {p : FunctionEntry → Bool} {path : String}
    (keyed : ∀ f, p f = true → f.owner = path) :
    ((ms.map ParsedModule.registered).flatMap (ParsedModule.functionEntries longest)).filter p =
      ((others.map ParsedModule.registered).flatMap
        (ParsedModule.functionEntries longest)).filter p := by
  rw [List.flatMap_map, List.flatMap_map]
  exact filter_flatMap_of_perm perm unambiguous.paths
    (fun m f => ParsedModule.owner_of_mem_functionEntries) keyed

theorem filter_calls_of_perm (caller : FunctionRef) :
    ((ms.map ParsedModule.registered).flatMap ParsedModule.callEntries).filter
        (·.callerRef = caller) =
      ((others.map ParsedModule.registered).flatMap ParsedModule.callEntries).filter
        (·.callerRef = caller) := by
  have owned : ∀ m : ParsedModule, ∀ c ∈ m.registered.callEntries, c.owner = m.path := by
    intro m c member
    obtain ⟨f, -, own⟩ := List.mem_flatMap.1 member
    obtain ⟨site, -, rfl⟩ := List.mem_map.1 own
    rfl
  have keyed : ∀ c : CallEntry, decide (c.callerRef = caller) = true → c.owner = caller.path :=
    fun c own => congrArg FunctionRef.path (of_decide_eq_true own)
  rw [List.flatMap_map, List.flatMap_map]
  exact filter_flatMap_of_perm perm unambiguous.paths owned keyed

/-- In another order, the modules make a registry that is alike. -/
theorem alike_of_perm :
    (ofRegistered scheme longest ms).Alike (ofRegistered scheme longest others) := by
  have entries := perm.map ParsedModule.entry
  have paths : ((ms.map ParsedModule.entry).map ModuleEntry.path).Nodup := by
    rw [List.map_map]
    exact unambiguous.paths
  have qualifiers : (((ms.map ParsedModule.entry).map ModuleEntry.qualifier).filter
      (· ≠ "")).Nodup := by
    rw [List.map_map]
    exact unambiguous.qualifiers
  have uris : (((ms.map ParsedModule.entry).map ModuleEntry.uri).filter (· ≠ "")).Nodup := by
    rw [List.map_map]
    exact unambiguous.uris
  have modules := get?_moduleTable_of_perm entries paths
  constructor
  case scheme => rfl
  case knows =>
    intro path
    unfold knows Table.contains
    exact congrArg (fun m => m.isSome || path == scheme.external.path) (modules path)
  case qualifier =>
    intro path
    unfold module?
    exact congrArg (fun m => (if path = scheme.external.path then some scheme.external else m).map
      ModuleEntry.qualifier) (modules path)
  case pathOfQualifier? => exact get?_nameTable_of_perm entries qualifiers
  case pathOfUri? => exact get?_nameTable_of_perm entries uris
  case importsOf =>
    intro path
    exact Table.getD_get?_foldl_update_congr ImportEntry.owner Table.empty
      (fun i imports => imports.put i.qualifier i) (filter_flatMap_of_perm perm unambiguous.paths
        (fun m i => ParsedModule.owner_of_mem_importEntries) fun i => of_decide_eq_true)
  case functionTable =>
    intro path
    exact congrArg (Table.mapValues FunctionEntry.outline)
      (Table.getD_get?_foldl_update_congr FunctionEntry.owner Table.empty
        (fun f functions => functions.put f.qualifiedName f)
        (filter_functions_of_perm perm unambiguous longest fun f => of_decide_eq_true))
  case functionsNamed =>
    intro path name
    exact congrArg (List.map FunctionEntry.outline)
      (Table.getD_get?_foldl_update_congr (fun f : FunctionEntry => (f.owner, f.name)) []
        (fun f functions => functions ++ [f])
        (filter_functions_of_perm perm unambiguous longest fun f own =>
          congrArg Prod.fst (of_decide_eq_true own)))
  case callsOf =>
    intro caller
    exact congrArg (List.map CallEntry.outline)
      (Table.getD_get?_foldl_update_congr CallEntry.callerRef [] (fun c calls => calls ++ [c])
        (filter_calls_of_perm perm unambiguous caller))
  case callers =>
    have calls := (perm.map ParsedModule.registered).flatMap_right ParsedModule.callEntries
    have keys := Table.perm_keys_foldl_update CallEntry.callerRef []
      (fun c calls => calls ++ [c]) calls
    have sizes := keys.length_eq
    rw [Table.length_keys, Table.length_keys] at sizes
    exact sizes

/-- The modules of the registry, whatever their order. -/
theorem allModules_of_perm :
    (ofRegistered scheme longest ms).allModules.Perm
      (ofRegistered scheme longest others).allModules := by
  have values : ∀ {ms : List ParsedModule}, (ms.map ParsedModule.path).Nodup →
      (ofRegistered scheme longest ms).allModules =
        ms.map ParsedModule.entry ++ [scheme.external] := by
    intro ms paths
    exact congrArg (· ++ [scheme.external]) (@values_modules_ofModules scheme longest ms paths)
  rw [values unambiguous.paths, values ((perm.map _).nodup_iff.1 unambiguous.paths)]
  exact (perm.map _).append_right _

end Merged

end Registry

/-! ## Module graphs of registries that are alike -/

namespace ModuleGraph

/-- Two graphs show the same modules, and the same calls between them, in whatever order. -/
structure ShowsSame (g h : ModuleGraph) : Prop where
  modules : (g.nodes.map ModuleNode.entry).Perm (h.nodes.map ModuleNode.entry)
  /-- As many edges run from one module to another with one label and one number of calls. -/
  calls : (g.edges.map fun e => (g.route? e, e.callCount)).Perm
    (h.edges.map fun e => (h.route? e, e.callCount))
  /-- Every edge runs between modules that are shown. -/
  ends : ∀ e ∈ g.edges, (g.route? e).isSome = true

variable {r s : Registry} (alike : r.Alike s) (calls : r.calls.Perm s.calls)
include alike calls

theorem routes_perm : (routes r).Perm (routes s) := by
  have known : isKnown r = isKnown s := by
    funext e
    unfold isKnown
    rw [alike.knows, alike.knows]
  have edges : r.edges.Perm s.edges := by
    unfold Registry.edges
    simp only [alike.resolve]
    exact calls.flatMap_right _
  unfold routes
  rw [known]
  exact (edges.filter _).map _

theorem touches_of_alike (path : String) :
    (Traffic.ofRegistry r).value.touches path = (Traffic.ofRegistry s).value.touches path := by
  rw [Bool.eq_iff_iff, (counts_ofRegistry r).touches_iff, (counts_ofRegistry s).touches_iff]
  simp only [(routes_perm alike calls).mem_iff]

theorem showsSame_of_alike (filed : r.Filed) (filed' : s.Filed)
    (modules : r.allModules.Perm s.allModules) (connectedOnly : Bool) :
    (ofRegistry r connectedOnly).value.ShowsSame (ofRegistry s connectedOnly).value := by
  have tallies := tallies_ofRegistry filed connectedOnly
  have tallies' := tallies_ofRegistry filed' connectedOnly
  constructor
  case modules =>
    rw [value_ofRegistry, value_ofRegistry]
    unfold ofTraffic
    dsimp only
    rw [map_entry_numbered, map_entry_numbered]
    simp only [touches_of_alike alike calls]
    exact modules.filter _
  case calls =>
    rw [tallies, tallies']
    exact (Table.perm_entries_tally (routes_perm alike calls)).map _
  case ends =>
    intro e member
    obtain ⟨entry, -, along, -⟩ := tallies.exists_entry member
    rw [along]
    rfl

end ModuleGraph

/-! ## Merging in another order -/

namespace Registry

/-- No query tells two registries apart, but for the order in which a module graph lists its nodes
and edges. -/
structure AnswersAlike (r s : Registry) : Prop where
  /-- A token leads to the same module, or fails in the same way. -/
  resolveModule : ∀ caller token, r.resolveModule caller token = s.resolveModule caller token
  resolve : ∀ c, r.resolve c = s.resolve c
  callTree : ∀ path function bound,
    CallTree.ofFunction r path function bound = CallTree.ofFunction s path function bound
  moduleGraph : ∀ connectedOnly, (ModuleGraph.ofRegistry r connectedOnly).value.ShowsSame
    (ModuleGraph.ofRegistry s connectedOnly).value

/-- **The order in which modules are read does not change what they mean.** The modules may be any
with paths, qualifiers and URIs of their own, and they are merged into fresh registries of one
scheme. -/
theorem merge_answersAlike {ms others : List ParsedModule} (perm : ms.Perm others)
    (unambiguous : Unambiguous ms) (scheme : VendorScheme) :
    (merge { scheme := scheme } ms).value.AnswersAlike
      (merge { scheme := scheme } others).value := by
  -- A module at the path of the external node is left out in either order.
  have keptPerm : (kept scheme ms).Perm (kept scheme others) := by
    rw [kept_of_nodup unambiguous.paths,
      kept_of_nodup ((perm.map ParsedModule.path).nodup_iff.1 unambiguous.paths)]
    exact perm.filter _
  have keptApart := unambiguous.sublist (kept_sublist scheme ms)
  rw [value_merge_eq_ofRegistered, value_merge_eq_ofRegistered, longestLoc_of_perm keptPerm]
  generalize longestLoc (kept scheme others) = longest
  have alike := alike_of_perm keptPerm keptApart scheme longest
  have calls := (keptPerm.map ParsedModule.registered).flatMap_right ParsedModule.callEntries
  have filed := (reachable_ofRegistered (nodup_paths_kept scheme ms) scheme longest).filed
  have filed' := (reachable_ofRegistered (nodup_paths_kept scheme others) scheme longest).filed
  constructor
  case resolveModule => exact alike.resolveModule
  case resolve => exact alike.resolve
  case callTree => exact alike.ofFunction
  case moduleGraph =>
    exact ModuleGraph.showsSame_of_alike alike calls filed filed'
      (allModules_of_perm keptPerm keptApart scheme longest)

/-- A module with one function, which calls a function of another module. -/
def callingModule : ParsedModule where
  path := "/a.xqy"
  naming := ⟨"a", "urn:a", false⟩
  imports := ⟨[]⟩
  functions := [{
    name := "g", qualifier := "a", line := 2, lineEnd := 3, signature := "", body := ""
    calls := [{ qualifier := some "b", name := "f", arity := 0, line := 2 }] }]
  lineCount := 3

/-- The other module, which declares the function twice. -/
def calledModule : ParsedModule where
  path := "/b.xqy"
  naming := ⟨"b", "urn:b", false⟩
  imports := ⟨[]⟩
  functions := [
    { name := "f", qualifier := "b", line := 2, lineEnd := 7, signature := "", body := "" },
    { name := "f", qualifier := "b", line := 8, lineEnd := 8, signature := "", body := "" }]
  lineCount := 8

/-- The two modules may be read in either order, though the registries are not the same. -/
theorem callingModule_answersAlike :
    let r := (merge {} [callingModule, calledModule]).value
    let s := (merge {} [calledModule, callingModule]).value
    r.modules.keys ≠ s.modules.keys ∧
      (r.resolveModule "/a.xqy" (some "b")).value = .ok "/b.xqy" ∧ r.AnswersAlike s := by
  have unambiguous : Unambiguous [callingModule, calledModule] :=
    ⟨by decide, by decide, by decide⟩
  exact ⟨by decide, rfl, merge_answersAlike (.swap _ _ []) unambiguous {}⟩

end Registry
end CallAtlas
