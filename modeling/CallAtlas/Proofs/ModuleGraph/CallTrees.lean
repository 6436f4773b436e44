import CallAtlas.Proofs.CallTree.Ways
import CallAtlas.Proofs.ModuleGraph.Conservation
import CallAtlas.Proofs.Registry.Assembly
import Mathlib.Algebra.Order.BigOperators.Group.List
import Mathlib.Algebra.Order.Group.Nat

/-!
# Call trees and module graphs

A module graph counts the calls of a registry module by module, a call tree counts them function by
function. They speak of the same calls. `Registry.Declared` says that every call stands in a
function of its module; then the calls of a module are those of its functions together, and the
weight of an edge is the sum of the counts at the roots of the trees (`weight_eq_sum_callsTo`). A
node below a root counts calls of one function, which are some of the calls of its module, so an
edge counts them too (`exists_edge_of_begets`), whether or not the tree was cut.
-/

namespace CallAtlas

/-- Elements weighed key by key weigh as much as all of them. -/
theorem sum_map_filter_of_nodup {α κ : Type} [DecidableEq κ] {key : α → κ} {keys : List κ}
    (nodup : keys.Nodup) {xs : List α} (listed : ∀ x ∈ xs, key x ∈ keys) (weigh : α → Nat) :
    (keys.map fun k => ((xs.filter (key · = k)).map weigh).sum).sum = (xs.map weigh).sum := by
  induction xs with
  | nil => simp only [List.filter_nil, List.map_nil, List.sum_nil, List.sum_map_zero]
  | cons x xs ih =>
    have apart : ∀ k, (((x :: xs).filter (key · = k)).map weigh).sum =
        (if key x = k then weigh x else 0) + ((xs.filter (key · = k)).map weigh).sum := by
      intro k
      by_cases own : key x = k
      · simp [own]
      · simp [own]
    have once : (keys.map fun k => if key x = k then weigh x else 0).sum = weigh x := by
      rw [List.sum_map_eq_nsmul_single (key x) _ fun k other _ => if_neg other.symm,
        List.count_eq_one_of_mem nodup (listed x List.mem_cons_self), if_pos rfl, one_nsmul]
    simp only [apart]
    rw [List.sum_map_add, once, ih fun y member => listed y (List.mem_cons_of_mem _ member),
      List.map_cons, List.sum_cons]

namespace Registry

/-! ## Calls of modules and of functions -/

/-- Every call stands in a function of its module. -/
def Declared (r : Registry) : Prop :=
  ∀ c ∈ r.calls, ∃ f ∈ r.functionsOf c.owner, f.qualifiedName = c.caller

/-- How many edges out of a function end at another one. -/
theorem count_reached (r : Registry) (caller target : FunctionRef) :
    (r.reached caller).count target =
      ((r.calls.filter (·.callerRef = caller)).map fun c =>
        (r.resolve c).value.countP (·.target = target)).sum := by
  unfold reached
  rw [List.count, List.countP_map, List.countP_flatMap]
  rfl

/-- The edges out of a module that end at a function start at the functions of the module. -/
theorem Declared.sum_count_reached {r : Registry} (declared : r.Declared)
    (consistent : r.Consistent) (source : String) (target : FunctionRef) :
    ((r.functionsOf source).map fun f =>
        (r.reached ⟨source, f.qualifiedName⟩).count target).sum =
      ((r.calls.filter (·.owner = source)).map fun c =>
        (r.resolve c).value.countP (·.target = target)).sum := by
  have nodup : ((r.functionsOf source).map fun f =>
      (⟨source, f.qualifiedName⟩ : FunctionRef)).Nodup := by
    refine (consistent.nodup_functionsOf source).map_on ?_
    intro f hf g hg same
    have names := (FunctionRef.mk.inj same).2
    have found := (consistent.mem_functionsOf hf).2
    rw [names, (consistent.mem_functionsOf hg).2] at found
    exact (Option.some.inj found).symm
  have listed : ∀ c ∈ r.calls.filter (·.owner = source), c.callerRef ∈
      (r.functionsOf source).map fun f => (⟨source, f.qualifiedName⟩ : FunctionRef) := by
    intro c member
    obtain ⟨called, owned⟩ := List.mem_filter.1 member
    obtain ⟨f, own, named⟩ := declared c called
    rw [of_decide_eq_true owned] at own
    refine List.mem_map.2 ⟨f, own, ?_⟩
    unfold CallEntry.callerRef
    rw [of_decide_eq_true owned, named]
  have inModule : ∀ function, r.calls.filter (·.callerRef = ⟨source, function⟩) =
      (r.calls.filter (·.owner = source)).filter (·.callerRef = ⟨source, function⟩) := by
    intro function
    rw [List.filter_filter]
    refine List.filter_congr ?_
    intro c _
    by_cases own : c.callerRef = ⟨source, function⟩
    · simp [own, show c.owner = source from congrArg FunctionRef.path own]
    · simp [own]
  have total := sum_map_filter_of_nodup nodup listed fun c =>
    (r.resolve c).value.countP (·.target = target)
  rw [List.map_map] at total
  simp only [count_reached, inModule]
  exact total

end Registry

namespace CallTree

variable {r : Registry}

/-! ## Children of the root -/

/-- How many calls the child of the root with a function stands for, zero if there is none. -/
def callsTo (t : CallTree) (target : FunctionRef) : Int :=
  ((t.root?.bind fun root => (t.childrenOf root.id).find? (·.ref = target)).bind
    CallNode.callCount).getD 0

/-- The children of the root count the edges out of its function. -/
theorem Family.callsTo {root : Branch} {branches : List Branch}
    (family : Family r root (root :: branches)) (isOpen : root.node.isCycle = false)
    {t : CallTree} {depth : Int} (nodes : t.nodes = (root :: branches).map (shown depth))
    (target : FunctionRef) :
    t.callsTo target = Int.ofNat ((r.reached root.node.ref).count target) := by
  have first : t.root? = some (shown depth root) := by
    unfold root?
    rw [nodes]
    rfl
  unfold CallTree.callsTo
  rw [first, Option.bind_some]
  cases found : (t.childrenOf (shown depth root).id).find? (·.ref = target) with
  | some n =>
    have test := List.find?_some found
    have member := List.mem_of_find?_eq_some found
    obtain ⟨listed, parent⟩ := List.mem_filter.1 member
    rw [nodes] at listed
    obtain ⟨c, inFamily, rfl⟩ := List.mem_map.1 listed
    have begets := family.begets_of_parent family.root_mem inFamily (eq_of_beq parent)
    have ref : c.node.ref = target := of_decide_eq_true test
    change (c.node.callCount).getD 0 = _
    rw [begets.callCount, ref, Option.getD_some]
  | none =>
    have absent : target ∉ r.reached root.node.ref := by
      intro reached
      obtain ⟨c, listed, way⟩ := family.complete root family.root_mem (target :: root.way)
        (Branch.mem_waysOn.2 ⟨isOpen, target, reached, rfl⟩)
      obtain ⟨begets, ref⟩ := family.begets_of_way family.root_mem listed way
      have child : shown depth c ∈ t.childrenOf (shown depth root).id := by
        refine List.mem_filter.2 ⟨?_, beq_iff_eq.2 begets.parent⟩
        rw [nodes]
        exact List.mem_map_of_mem listed
      exact List.find?_eq_none.1 found _ child (decide_eq_true ref)
    rw [List.count_eq_zero_of_not_mem absent]
    rfl

/-! ## Trees that were built -/

/-- A tree that was built has a function at its root, and below it what grew under the bound. -/
theorem ofFunction_eq_ok {path function : String} {bound : Option Int} {t : CallTree}
    (built : (CallTree.ofFunction r path function bound).value = .ok t) :
    ∃ name arity f depth, splitQualified function = .ok (name, arity) ∧
      r.function? path (qualify name arity) = some f ∧
      t.nodes = (Branch.root r path f :: (lowerLevels r bound (r.callsByCaller.size + 1)
        [Branch.root r path f] 1).value.branches).map (shown depth) := by
  unfold CallTree.ofFunction at built
  split at built
  next => cases built
  next name arity named =>
    split at built
    next => cases built
    next f found =>
      have grown : (grow r path function bound (Branch.root r path f)).value = t :=
        Except.ok.inj built
      rw [value_grow] at grown
      rw [← grown]
      exact ⟨name, arity, f, _, named, found, withReverseLevels_map (Branch.root r path f :: _)⟩

/-- A function of a module whose name can be taken apart has a tree. -/
theorem exists_ofFunction (consistent : r.Consistent) {path : String} {f : FunctionEntry}
    (member : f ∈ r.functionsOf path)
    (named : splitQualified f.qualifiedName = .ok (f.name, some f.arity)) (bound : Option Int) :
    ∃ t, (CallTree.ofFunction r path f.qualifiedName bound).value = .ok t :=
  ⟨_, value_ofFunction named (consistent.mem_functionsOf member).2 bound⟩

/-- The root of the tree of a function counts the edges out of it. -/
theorem callsTo_of_ofFunction (consistent : r.Consistent) {path : String} {f : FunctionEntry}
    (member : f ∈ r.functionsOf path)
    (legible : ∀ name arity, splitQualified f.qualifiedName = .ok (name, arity) →
      qualify name arity = f.qualifiedName) {t : CallTree}
    (built : (CallTree.ofFunction r path f.qualifiedName none).value = .ok t)
    (target : FunctionRef) :
    t.callsTo target = Int.ofNat ((r.reached ⟨path, f.qualifiedName⟩).count target) := by
  obtain ⟨name, arity, g, depth, named, found, nodes⟩ := ofFunction_eq_ok built
  rw [legible name arity named, (consistent.mem_functionsOf member).2] at found
  cases found
  exact (family_of_lowerLevels consistent path f).2.callsTo rfl nodes target

/-- Trees of all functions of a module. -/
def AllOf (r : Registry) (path : String) (trees : List CallTree) : Prop :=
  List.Forall₂ (fun (f : FunctionEntry) t =>
    (CallTree.ofFunction r path f.qualifiedName none).value = .ok t) (r.functionsOf path) trees

theorem exists_allOf (consistent : r.Consistent) {path : String}
    (named : ∀ f ∈ r.functionsOf path,
      splitQualified f.qualifiedName = .ok (f.name, some f.arity)) :
    ∃ trees, AllOf r path trees := by
  have each : ∀ f ∈ r.functionsOf path,
      ∃ t, (CallTree.ofFunction r path f.qualifiedName none).value = .ok t := by
    intro f member
    exact exists_ofFunction consistent member (named f member) none
  unfold AllOf
  generalize r.functionsOf path = functions at each
  induction functions with
  | nil => exact ⟨[], .nil⟩
  | cons f functions ih =>
    obtain ⟨t, built⟩ := each f List.mem_cons_self
    obtain ⟨trees, rest⟩ := ih fun f member => each f (List.mem_cons_of_mem _ member)
    exact ⟨t :: trees, .cons built rest⟩

/-- Under any bound, the nodes of a tree have different numbers, and those below the root grow from
others. -/
theorem descent_of_ofFunction (consistent : r.Consistent) {path function : String}
    {bound : Option Int} {t : CallTree}
    (built : (CallTree.ofFunction r path function bound).value = .ok t) :
    (t.nodes.map CallNode.id).Nodup ∧
      ∀ n ∈ t.nodes.tail, ∃ parent ∈ t.nodes, ∃ b c : Branch, b.Begets r c ∧
        ∃ depth, parent = shown depth b ∧ n = shown depth c := by
  obtain ⟨-, -, f, depth, -, -, nodes⟩ := ofFunction_eq_ok built
  have descent := lowerLevels_descent consistent bound (r.callsByCaller.size + 1)
    [Branch.root r path f] 1
  generalize (lowerLevels r bound _ _ _).value = grown at nodes descent
  rw [nodes]
  refine ⟨?_, ?_⟩
  · rw [List.map_map]
    exact descent.nodup_ids rfl
  · intro n member
    obtain ⟨c, below, rfl⟩ := List.mem_map.1 member
    obtain ⟨b, above, begets⟩ := descent.begotten c below
    exact ⟨shown depth b, List.mem_map_of_mem above, b, c, begets, depth, rfl, rfl⟩

end CallTree

namespace Registry

/-- A qualified name of a function that can be taken apart is put together from its parts. -/
def Legible (r : Registry) : Prop :=
  ∀ path, ∀ f ∈ r.functionsOf path, ∀ name arity,
    splitQualified f.qualifiedName = .ok (name, arity) → qualify name arity = f.qualifiedName

theorem mem_allFunctions {r : Registry} {path : String} {f : FunctionEntry}
    (member : f ∈ r.functionsOf path) : f ∈ r.allFunctions := by
  unfold functionsOf functionTable at member
  cases found : r.functions.get? path with
  | none =>
    rw [found] at member
    cases member
  | some table =>
    rw [found, Option.getD_some] at member
    have listed : table ∈ r.functions.values :=
      List.mem_map.2 ⟨_, Table.mem_entries_of_get? found, rfl⟩
    exact List.mem_flatMap.2 ⟨table, listed, member⟩

section ReadModules

variable {scheme : VendorScheme} {longest : Int} {ms : List ParsedModule}
  (paths : (ms.map ParsedModule.path).Nodup) (sound : ∀ m ∈ ms, m.Sound)
include paths sound

theorem declared_ofModules : (ofModules scheme longest ms).Declared := by
  intro c member
  obtain ⟨m, listed, inModule⟩ := List.mem_flatMap.1 member
  obtain ⟨g, declared, inFunction⟩ := List.mem_flatMap.1 inModule
  obtain ⟨site, -, rfl⟩ := List.mem_map.1 inFunction
  refine ⟨g.entry m.path longest, ?_, rfl⟩
  change _ ∈ (ofModules scheme longest ms).functionsOf m.path
  rw [functionsOf_ofModules paths (fun m member => (sound m member).distinct) listed]
  exact List.mem_map_of_mem declared

/-- The name of a function of a read module is taken apart, unless its arity is too long. -/
theorem splitQualified_ofModules {path : String} {f : FunctionEntry}
    (member : f ∈ (ofModules scheme longest ms).functionsOf path) :
    ∃ m ∈ ms, ∃ g ∈ m.functions, splitQualified f.qualifiedName =
      if g.arity < 10 ^ maxDigits then .ok (f.name, some f.arity)
      else .error (.tooLong (Nat.toDigits 10 g.arity).length) := by
  have all := mem_allFunctions member
  rw [allFunctions_ofModules paths fun m member => (sound m member).distinct] at all
  obtain ⟨m, listed, inModule⟩ := List.mem_flatMap.1 all
  obtain ⟨g, declared, rfl⟩ := List.mem_map.1 inModule
  have plain := ((sound m listed).plain g declared).name
  exact ⟨m, listed, g, declared, splitQualified_qualify plain.1 plain.2 g.arity⟩

theorem legible_ofModules : (ofModules scheme longest ms).Legible := by
  intro path f member name arity named
  obtain ⟨m, -, g, -, parts⟩ := splitQualified_ofModules paths sound member
  rw [named] at parts
  split at parts
  next =>
    cases parts
    rfl
  next => cases parts

end ReadModules

end Registry

namespace ModuleGraph

variable {r : Registry}

/-- The weight of an edge is the sum of the counts at the roots of the trees of its source. -/
theorem weight_eq_sum_callsTo (reachable : r.Reachable) (declared : r.Declared)
    (legible : r.Legible) (connectedOnly : Bool) {source target : String}
    (knownSource : r.knows source = true) (knownTarget : r.knows target = true) (label : String)
    {trees : List CallTree} (all : CallTree.AllOf r source trees) :
    (ofRegistry r connectedOnly).value.weight ⟨source, target, label⟩ =
      (trees.map (·.callsTo ⟨target, label⟩)).sum := by
  have consistent := reachable.consistent
  have counts : trees.map (·.callsTo ⟨target, label⟩) = ((r.functionsOf source).map fun f =>
      (r.reached ⟨source, f.qualifiedName⟩).count ⟨target, label⟩).map Int.ofNat := by
    have each : ∀ f ∈ r.functionsOf source, ∀ t,
        (CallTree.ofFunction r source f.qualifiedName none).value = .ok t →
          t.callsTo ⟨target, label⟩ =
            Int.ofNat ((r.reached ⟨source, f.qualifiedName⟩).count ⟨target, label⟩) := by
      intro f member t built
      exact CallTree.callsTo_of_ofFunction consistent member (legible source f member) built _
    unfold CallTree.AllOf at all
    generalize r.functionsOf source = functions at all each
    induction all with
    | nil => rfl
    | cons built _ ih =>
      rw [List.map_cons, List.map_cons, List.map_cons, each _ List.mem_cons_self _ built,
        ih fun f member => each f (List.mem_cons_of_mem _ member)]
  have weight := (tallies_ofRegistry reachable.filed connectedOnly).weight_eq
    ⟨source, target, label⟩
  rw [weight, count_routes knownSource knownTarget, counts,
    ← declared.sum_count_reached consistent]
  exact Nat.cast_list_sum _

/-- What a branch counts, an edge of the graph counts. -/
theorem exists_edge_of_begets (reachable : r.Reachable) (connectedOnly : Bool)
    {b c : CallTree.Branch} (begets : b.Begets r c) (knownParent : r.knows b.node.path = true)
    (known : r.knows c.node.path = true) :
    ∃ e ∈ (ofRegistry r connectedOnly).value.edges,
      (ofRegistry r connectedOnly).value.route? e =
        some ⟨b.node.path, c.node.path, c.node.function⟩ ∧
      ∃ count, c.node.callCount = some count ∧ count ≤ e.callCount := by
  have fewer : (r.reached b.node.ref).count c.node.ref ≤
      (routes r).count ⟨b.node.path, c.node.path, c.node.function⟩ := by
    rw [count_routes knownParent known, Registry.count_reached]
    refine List.Sublist.sum_le_sum (List.Sublist.map _ (List.monotone_filter_right _ ?_))
      (fun _ _ => Nat.zero_le _)
    intro call own
    rw [decide_eq_true_iff] at own ⊢
    exact congrArg FunctionRef.path own
  have taken : (⟨b.node.path, c.node.path, c.node.function⟩ : Route) ∈ routes r :=
    List.count_pos_iff.1 (Nat.lt_of_lt_of_le (List.count_pos_iff.2 begets.reached) fewer)
  obtain ⟨e, listed, run, counted⟩ :=
    ((tallies_ofRegistry reachable.filed connectedOnly).exists_edge_iff _ _).2 ⟨taken, rfl⟩
  refine ⟨e, listed, run, _, begets.callCount, ?_⟩
  rw [counted]
  exact Int.ofNat_le.2 fewer

/-- **Call trees and module graphs agree.** The registry is merged from modules that were read from
texts. Between known modules, the weight of an edge is the sum, over the functions of its source, of
the count at the child of the root with its target and label; all functions have trees if the texts
are no longer than numerals reach. In every tree, cut or not, a node below the root stands for no
more calls than the edge along its own call. -/
theorem ofRegistry_callTrees {scheme : VendorScheme} {sources : List (String × String)}
    {ms : List ParsedModule} {r : Registry}
    (read : (sources.mapM fun s => Source.readModule s.2 s.1).value = .ok ms)
    (merged : (Registry.merge { scheme := scheme } ms).value = r) (connectedOnly : Bool) :
    let graph := (ofRegistry r connectedOnly).value
    (∀ source target label, r.knows source = true → r.knows target = true →
      ((∀ s ∈ sources, s.2.length < 10 ^ maxDigits) → ∃ trees, CallTree.AllOf r source trees) ∧
      ∀ trees, CallTree.AllOf r source trees →
        graph.weight ⟨source, target, label⟩ = (trees.map (·.callsTo ⟨target, label⟩)).sum) ∧
    ∀ path function bound t, (CallTree.ofFunction r path function bound).value = .ok t →
      (t.nodes.map CallNode.id).Nodup ∧
      ∀ n ∈ t.nodes.tail, ∃ parent ∈ t.nodes, n.parent = some parent.id ∧
        (r.knows parent.path = true → r.knows n.path = true →
          ∃ e ∈ graph.edges, graph.route? e = some ⟨parent.path, n.path, n.function⟩ ∧
            ∃ count, n.callCount = some count ∧ count ≤ e.callCount) := by
  have each : ∀ m ∈ ms, ∃ s ∈ sources, (Source.readModule s.2 s.1).value = .ok m :=
    Checked.exists_of_mem_mapM read
  have sound : ∀ m ∈ ms, m.Sound := by
    intro m member
    obtain ⟨s, -, result⟩ := each m member
    exact (Source.readModule_spec result).2.1
  have listed := (Registry.kept_sublist scheme ms).subset
  have keptSound : ∀ m ∈ Registry.kept scheme ms, m.Sound := fun m member => sound m (listed member)
  have paths := Registry.nodup_paths_kept scheme ms
  rw [Registry.value_merge fun m member => (sound m member).distinct] at merged
  subst merged
  have reachable : (Registry.ofModules scheme (Registry.longestLoc (Registry.kept scheme ms))
      (Registry.kept scheme ms)).Reachable :=
    Registry.reachable_ofModules paths fun m member => (keptSound m member).distinct
  refine ⟨?_, ?_⟩
  · intro source target label knownSource knownTarget
    refine ⟨?_, fun trees => weight_eq_sum_callsTo reachable
      (Registry.declared_ofModules paths keptSound) (Registry.legible_ofModules paths keptSound)
      connectedOnly knownSource knownTarget label⟩
    intro short
    refine CallTree.exists_allOf reachable.consistent ?_
    intro f member
    obtain ⟨m, kept, g, declared, parts⟩ :=
      Registry.splitQualified_ofModules paths keptSound member
    obtain ⟨s, given, result⟩ := each m (listed kept)
    have fits := (Source.readModule_spec result).2.2 (short s given) g declared
    exact parts.trans (if_pos fits.arity)
  · intro path function bound t built
    obtain ⟨ids, below⟩ := CallTree.descent_of_ofFunction reachable.consistent built
    refine ⟨ids, ?_⟩
    intro n member
    obtain ⟨parent, above, b, c, begets, depth, rfl, rfl⟩ := below n member
    exact ⟨_, above, begets.parent, exists_edge_of_begets reachable connectedOnly begets⟩

/-- A module with two functions that call a third one. -/
def twoCallers : List (String × String) :=
  [("/a.xqy", "module namespace a=\"u\";declare function a:f()\x7ba:h()\x7d;" ++
      "declare function a:g()\x7ba:h()\x7d;")]

/-- The registry of the module. -/
def twoCallersRegistry : Registry :=
  (Registry.merge {}
    ((twoCallers.mapM fun s => Source.readModule s.2 s.1).value.toOption.getD [])).value

/-- The trees of the two functions count the two calls within their module. -/
theorem twoCallers_callTrees : ∃ trees, CallTree.AllOf twoCallersRegistry "/a.xqy" trees ∧
    (trees.map (·.callsTo ⟨"/a.xqy", "h#0"⟩)).sum = 2 := by
  have runs : (twoCallers.mapM fun s => Source.readModule s.2 s.1).value.isOk = true ∧
      twoCallersRegistry.knows "/a.xqy" = true ∧
      (ofRegistry twoCallersRegistry true).value.weight ⟨"/a.xqy", "/a.xqy", "h#0"⟩ = 2 := by
    decide +kernel
  obtain ⟨isRead, known, weight⟩ := runs
  cases read : (twoCallers.mapM fun s => Source.readModule s.2 s.1).value with
  | error e => rw [read] at isRead; cases isRead
  | ok ms =>
    have merged : (Registry.merge { scheme := {} } ms).value = twoCallersRegistry := by
      unfold twoCallersRegistry
      rw [read]
      rfl
    have short : ∀ s ∈ twoCallers, s.2.length < 10 ^ maxDigits := by
      intro s member
      have small : s.2.length < 10 ^ 3 := by
        revert s
        decide +kernel
      exact Nat.lt_of_lt_of_le small (Nat.pow_le_pow_right (by decide) (by decide))
    obtain ⟨sums, -⟩ := ofRegistry_callTrees read merged true
    obtain ⟨exist, sum⟩ := sums "/a.xqy" "/a.xqy" "h#0" known known
    obtain ⟨trees, all⟩ := exist short
    exact ⟨trees, all, (sum trees all).symm.trans weight⟩

end ModuleGraph
end CallAtlas
