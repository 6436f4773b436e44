import CallAtlas.CallTree
import CallAtlas.Proofs.Registry.Reachable
import Mathlib.Data.List.Nodup
import Mathlib.Data.List.Range
import Mathlib.Data.List.Chain

/-!
# The levels of a call tree

A call tree is grown level by level, and what is grown first may be cut, so that nothing grows after
it (`Grown.andThen`). `value_nextLevel_cons` and `value_lowerLevels_succ` are the equations of the
two loops; no other proof opens them. An edge is added with every branch, so the edges are those
from parents to nodes (`joined_lowerLevels`).

`Branch.Begets` says what a branch has to do with the branch it grows from. Whatever bound cuts the
tree, a level holds branches that the one above begets, numbered on from the size of the tree
(`nextLevel_offspring`), and so do all levels together (`lowerLevels_descent`). Without a bound,
`nextLevel_spec` says that a level holds each of them.
-/

namespace CallAtlas

namespace Registry

/-- The functions that the calls of a function reach: one for each call site and each edge that
it resolves to. -/
def reached (r : Registry) (caller : FunctionRef) : List FunctionRef :=
  ((r.calls.filter (·.callerRef = caller)).flatMap fun c => (r.resolve c).value).map Edge.target

theorem value_resolveAll (r : Registry) (calls : List CallEntry) :
    (r.resolveAll calls).value = calls.flatMap fun c => (r.resolve c).value := by
  change ((calls.mapM r.resolve).value).flatten = _
  rw [Report.value_mapM, List.flatMap_def]

end Registry

namespace CallTree

variable {r : Registry}

/-- The targets of a function are those of the edges of its calls, with the number of times. -/
theorem value_targets_eq_tally (caller : FunctionRef) :
    (targets r caller).value =
      Table.tally ((r.resolveAll (r.callsOf caller)).value.map Edge.target) := by
  unfold targets Table.tally
  rw [Report.value_bind, Report.value_pure, List.foldl_map]

/-- In a registry whose indices hang together, they are the functions that it reaches. -/
theorem value_targets (consistent : r.Consistent) (caller : FunctionRef) :
    (targets r caller).value = Table.tally (r.reached caller) := by
  rw [value_targets_eq_tally, Registry.value_resolveAll, consistent.callsOf_eq]
  rfl

theorem nodup_targets (caller : FunctionRef) : (targets r caller).value.keys.Nodup := by
  rw [value_targets_eq_tally]
  exact Table.nodup_keys_tally _

/-- A branch grows from another one, which is no cycle: its function is reached from there. -/
structure Branch.Begets (r : Registry) (b c : Branch) : Prop where
  isOpen : b.node.isCycle = false
  reached : c.node.ref ∈ r.reached b.node.ref
  way : c.way = c.node.ref :: b.way
  parent : c.node.parent = some b.node.id
  isCycle : c.node.isCycle = b.way.contains c.node.ref
  callCount : c.node.callCount = some (Int.ofNat ((r.reached b.node.ref).count c.node.ref))

/-- The numbers of the next nodes of a tree that has `size` nodes. -/
def idsAfter (size count : Nat) : List Int :=
  (List.range' (size + 1) count).map Int.ofNat

theorem idsAfter_add (size m n : Nat) :
    idsAfter size (m + n) = idsAfter size m ++ idsAfter (size + m) n := by
  unfold idsAfter
  rw [← List.map_append, ← List.range'_append_1]
  congr 3
  omega

/-- Branches numbered on, after others that are, are numbered on. -/
theorem Grown.ids_after {size : Nat} {first rest : Grown}
    (earlier : first.branches.map (·.node.id) = idsAfter size first.branches.length)
    (later : rest.branches.map (·.node.id) =
      idsAfter (size + first.branches.length) rest.branches.length) :
    (rest.after first).branches.map (·.node.id) =
      idsAfter size (rest.after first).branches.length := by
  simp only [Grown.after, List.map_append, List.length_append]
  rw [earlier, later, idsAfter_add]

/-! ## Equations of the loops -/

/-- What is grown first and, unless that is cut, what is grown after it. -/
def Grown.andThen (g rest : Grown) : Grown :=
  if g.cut then g else rest.after g

theorem Grown.andThen_of_cut {g : Grown} (cut : g.cut = true) (rest : Grown) :
    g.andThen rest = g :=
  if_pos cut

theorem Grown.andThen_of_uncut {g : Grown} (uncut : g.cut = false) (rest : Grown) :
    g.andThen rest = rest.after g := by
  unfold andThen
  rw [uncut, if_neg Bool.false_ne_true]

theorem Grown.andThen_assoc (g h rest : Grown) :
    (g.andThen h).andThen rest = g.andThen (h.andThen rest) := by
  cases cut : g.cut with
  | true => rw [andThen_of_cut cut, andThen_of_cut cut, andThen_of_cut cut]
  | false =>
    rw [andThen_of_uncut cut, andThen_of_uncut cut]
    unfold andThen after
    dsimp only
    split
    next => rfl
    next => rw [List.append_assoc, List.append_assoc]

/-- The children of a branch in a tree that has `size` nodes, as far as a bound allows. -/
def Branch.offspring (r : Registry) (bound : Option Int) (b : Branch) (size : Nat) : Grown :=
  b.children r bound size (targets r b.node.ref).value.entries

/-- A level grows from its branches in their order, cycles left out. -/
theorem value_nextLevel_cons (bound : Option Int) (b : Branch) (bs : List Branch) (size : Nat) :
    (nextLevel r bound (b :: bs) size).value =
      if b.node.isCycle then (nextLevel r bound bs size).value
      else (b.offspring r bound size).andThen
        (nextLevel r bound bs (size + (b.offspring r bound size).branches.length)).value := by
  rw [nextLevel]
  split
  next => rfl
  next =>
    rw [Report.value_bind]
    unfold Grown.andThen Branch.offspring
    dsimp only
    split
    next => rfl
    next => rfl

theorem value_lowerLevels_nil (bound : Option Int) (levels size : Nat) :
    (lowerLevels r bound levels [] size).value = {} := by
  cases levels with
  | zero => rfl
  | succ levels => rfl

/-- All levels below a level are the next one and all levels below that. -/
theorem value_lowerLevels_succ (bound : Option Int) (levels : Nat) (level : List Branch)
    (size : Nat) : (lowerLevels r bound (levels + 1) level size).value =
      (nextLevel r bound level size).value.andThen
        (lowerLevels r bound levels (nextLevel r bound level size).value.branches
          (size + (nextLevel r bound level size).value.branches.length)).value := by
  rw [lowerLevels, Report.value_bind]
  generalize (nextLevel r bound level size).value = next
  cases cut : next.cut with
  | true => rw [Grown.andThen_of_cut cut, Bool.true_or, if_pos rfl, Report.value_pure]
  | false =>
    rw [Grown.andThen_of_uncut cut, Bool.false_or]
    cases barren : next.branches.isEmpty with
    | true =>
      rw [if_pos rfl, Report.value_pure, List.isEmpty_iff.1 barren, value_lowerLevels_nil]
      unfold Grown.after
      rw [List.append_nil, List.append_nil, ← cut]
    | false =>
      rw [if_neg Bool.false_ne_true]
      rfl

/-! ## Edges -/

/-- Each branch has one edge, which leads to it from its parent. -/
def Grown.Joined (g : Grown) : Prop :=
  g.edges.map (fun e => (some e.1, e.2)) = g.branches.map fun b => (b.node.parent, b.node.id)

theorem Grown.Joined.length_edges {g : Grown} (joined : g.Joined) :
    g.edges.length = g.branches.length := by
  have lengths := congrArg List.length joined
  rwa [List.length_map, List.length_map] at lengths

theorem Grown.Joined.after {first rest : Grown} (later : rest.Joined) (earlier : first.Joined) :
    (rest.after first).Joined := by
  unfold Joined Grown.after
  rw [List.map_append, List.map_append, earlier, later]

theorem Grown.Joined.andThen {g rest : Grown} (joined : g.Joined) (later : rest.Joined) :
    (g.andThen rest).Joined := by
  unfold Grown.andThen
  split
  next => exact joined
  next => exact later.after joined

theorem joined_ofChild (b : Branch) (id : Nat) (target : FunctionRef) (hits : Nat) :
    (Grown.ofChild b (b.child r id target hits)).Joined := rfl

theorem joined_children (bound : Option Int) (b : Branch) (size : Nat)
    (hits : List (FunctionRef × Nat)) : (b.children r bound size hits).Joined := by
  induction hits generalizing size with
  | nil => rfl
  | cons hit hits ih =>
    rw [Branch.children]
    split
    next => rfl
    next => exact (ih (size + 1)).after (joined_ofChild b (size + 1) hit.1 hit.2)

theorem joined_nextLevel (bound : Option Int) (level : List Branch) (size : Nat) :
    (nextLevel r bound level size).value.Joined := by
  induction level generalizing size with
  | nil => rfl
  | cons b bs ih =>
    rw [value_nextLevel_cons]
    split
    next => exact ih size
    next => exact (joined_children bound b size _).andThen (ih _)

/-- Whatever the bound and however many levels, the edges are those that lead to the branches. -/
theorem joined_lowerLevels (bound : Option Int) (levels : Nat) (level : List Branch)
    (size : Nat) : (lowerLevels r bound levels level size).value.Joined := by
  induction levels generalizing level size with
  | zero => rfl
  | succ levels ih =>
    rw [value_lowerLevels_succ]
    exact (joined_nextLevel bound level size).andThen (ih _ _)

/-- The edges from parents to nodes. -/
def edgesOf (nodes : List CallNode) : List (Int × Int) :=
  nodes.filterMap fun n => n.parent.map fun parent => (parent, n.id)

theorem edgesOf_withReverseLevels (nodes : List CallNode) :
    edgesOf (withReverseLevels nodes) = edgesOf nodes := by
  unfold edgesOf withReverseLevels
  rw [List.filterMap_map]
  rfl

/-- The edges that were added one by one can be read off the nodes. -/
theorem Grown.Joined.edges_eq {g : Grown} (joined : g.Joined) :
    g.edges = edgesOf (g.branches.map Branch.node) := by
  have ends : ∀ e : Int × Int, (some e.1).map (fun parent => (parent, e.2)) = some e := fun _ => rfl
  calc g.edges = g.edges.filterMap fun e => (some e.1).map fun parent => (parent, e.2) := by
        simp only [ends, List.filterMap_some]
    _ = (g.edges.map fun e => (some e.1, e.2)).filterMap
          (fun e : Option Int × Int => e.1.map fun parent => (parent, e.2)) := by
        rw [List.filterMap_map]
        rfl
    _ = edgesOf (g.branches.map Branch.node) := by
        unfold edgesOf
        rw [joined, List.filterMap_map, List.filterMap_map]
        rfl

/-! ## Children of one branch -/

theorem ids_children (bound : Option Int) (b : Branch) (size : Nat)
    (hits : List (FunctionRef × Nat)) :
    (b.children r bound size hits).branches.map (·.node.id) =
      idsAfter size (b.children r bound size hits).branches.length := by
  induction hits generalizing size with
  | nil => rfl
  | cons hit hits ih =>
    obtain ⟨target, count⟩ := hit
    rw [Branch.children]
    split
    next => rfl
    next =>
      simp only [Grown.after, Grown.ofChild, List.singleton_append, List.map_cons, List.length_cons]
      rw [ih, Nat.add_comm (b.children r bound (size + 1) hits).branches.length 1, idsAfter_add]
      rfl

theorem mem_children {bound : Option Int} {b c : Branch} {size : Nat}
    {hits : List (FunctionRef × Nat)} (member : c ∈ (b.children r bound size hits).branches) :
    ∃ id target count, (target, count) ∈ hits ∧ c = b.child r id target count := by
  induction hits generalizing size with
  | nil => cases member
  | cons hit hits ih =>
    obtain ⟨target, count⟩ := hit
    rw [Branch.children] at member
    split at member
    next => cases member
    next =>
      rcases List.mem_cons.1 member with rfl | later
      · exact ⟨_, target, count, List.mem_cons_self, rfl⟩
      · obtain ⟨id, target', count', listed, same⟩ := ih later
        exact ⟨id, target', count', List.mem_cons_of_mem _ listed, same⟩

theorem children_none_cons (b : Branch) (size : Nat) (target : FunctionRef) (count : Nat)
    (hits : List (FunctionRef × Nat)) : b.children r none size ((target, count) :: hits) =
      (b.children r none (size + 1) hits).after
        (.ofChild b (b.child r (size + 1) target count)) := rfl

/-- Without a bound, there is a child for each hit. -/
theorem children_none (b : Branch) (size : Nat) (hits : List (FunctionRef × Nat)) :
    (b.children r none size hits).cut = false ∧
      (b.children r none size hits).branches.map Branch.way = hits.map (fun h => h.1 :: b.way) := by
  induction hits generalizing size with
  | nil => exact ⟨rfl, rfl⟩
  | cons hit hits ih =>
    obtain ⟨target, count⟩ := hit
    obtain ⟨cut, ways⟩ := ih (size + 1)
    rw [children_none_cons]
    refine ⟨cut, ?_⟩
    simp only [Grown.after, Grown.ofChild, List.singleton_append, List.map_cons]
    rw [ways]
    rfl

theorem begets_child (consistent : r.Consistent) {b : Branch} (isOpen : b.node.isCycle = false)
    {target : FunctionRef} {count : Nat}
    (hit : (target, count) ∈ (targets r b.node.ref).value.entries) (id : Nat) :
    b.Begets r (b.child r id target count) := by
  rw [value_targets consistent, Table.mem_entries_tally] at hit
  obtain ⟨reached, rfl⟩ := hit
  exact ⟨isOpen, reached, rfl, rfl, rfl, rfl⟩

/-- The ways on from a branch: none from a cycle, otherwise one for each function reached. -/
def Branch.waysOn (r : Registry) (b : Branch) : List (List FunctionRef) :=
  if b.node.isCycle then [] else (Table.tally (r.reached b.node.ref)).keys.map (· :: b.way)

theorem Branch.mem_waysOn {b : Branch} {way : List FunctionRef} :
    way ∈ b.waysOn r ↔
      b.node.isCycle = false ∧ ∃ target ∈ r.reached b.node.ref, way = target :: b.way := by
  unfold Branch.waysOn
  cases b.node.isCycle with
  | true => simp
  | false =>
    simp only [Bool.false_eq_true, if_false, List.mem_map, Table.mem_keys_tally, true_and]
    constructor
    · rintro ⟨target, reached, rfl⟩
      exact ⟨target, reached, rfl⟩
    · rintro ⟨target, reached, rfl⟩
      exact ⟨target, reached, rfl⟩

theorem Branch.nodup_waysOn (b : Branch) : (b.waysOn r).Nodup := by
  unfold Branch.waysOn
  split
  next => exact List.nodup_nil
  next =>
    exact (Table.nodup_keys_tally _).map fun _ _ same => (List.cons.inj same).1

/-! ## One level -/

/-- Branches that a level begets, numbered on in a tree that has `size` nodes. -/
structure Offspring (r : Registry) (level : List Branch) (size : Nat) (grown : Grown) :
    Prop where
  ids : grown.branches.map (·.node.id) = idsAfter size grown.branches.length
  begotten : ∀ c ∈ grown.branches, ∃ b ∈ level, b.Begets r c

theorem Offspring.later {level : List Branch} {size : Nat} {grown : Grown}
    (offspring : Offspring r level size grown) (b : Branch) :
    Offspring r (b :: level) size grown := by
  refine ⟨offspring.ids, ?_⟩
  intro c member
  obtain ⟨parent, above, begets⟩ := offspring.begotten c member
  exact ⟨parent, List.mem_cons_of_mem _ above, begets⟩

theorem offspring_children (consistent : r.Consistent) (bound : Option Int) {b : Branch}
    (isOpen : b.node.isCycle = false) (bs : List Branch) (size : Nat) :
    Offspring r (b :: bs) size (b.offspring r bound size) := by
  refine ⟨ids_children bound b size _, ?_⟩
  intro c member
  obtain ⟨id, target, hits, hit, rfl⟩ := mem_children member
  exact ⟨b, List.mem_cons_self, begets_child consistent isOpen hit id⟩

/-- Branches of the same level stand one after the other. -/
theorem Offspring.after {level : List Branch} {size : Nat} {first rest : Grown}
    (later : Offspring r level (size + first.branches.length) rest)
    (earlier : Offspring r level size first) :
    Offspring r level size (rest.after first) := by
  refine ⟨Grown.ids_after earlier.ids later.ids, ?_⟩
  intro c member
  rcases List.mem_append.1 member with here | there
  · exact earlier.begotten c here
  · exact later.begotten c there

theorem Offspring.andThen {level : List Branch} {size : Nat} {first rest : Grown}
    (earlier : Offspring r level size first)
    (later : Offspring r level (size + first.branches.length) rest) :
    Offspring r level size (first.andThen rest) := by
  unfold Grown.andThen
  split
  next => exact earlier
  next => exact later.after earlier

/-- Whatever the bound, a level holds branches that the one above begets. -/
theorem nextLevel_offspring (consistent : r.Consistent) (bound : Option Int)
    (level : List Branch) (size : Nat) :
    Offspring r level size (nextLevel r bound level size).value := by
  induction level generalizing size with
  | nil => exact ⟨rfl, fun c member => nomatch member⟩
  | cons b bs ih =>
    rw [value_nextLevel_cons]
    cases isCycle : b.node.isCycle with
    | true => exact (ih size).later b
    | false => exact (offspring_children consistent bound isCycle bs size).andThen ((ih _).later b)

/-- What a list of branches says about the level below it in a tree that has `size` nodes and no
bound. -/
structure LevelBelow (r : Registry) (level : List Branch) (size : Nat) (grown : Grown) :
    Prop extends Offspring r level size grown where
  uncut : grown.cut = false
  ways : grown.branches.map Branch.way = level.flatMap (Branch.waysOn r)

/-- Without a bound, a level holds every branch that the one above begets, in its order. -/
theorem nextLevel_none (consistent : r.Consistent) (level : List Branch) (size : Nat) :
    (nextLevel r none level size).value.cut = false ∧
      (nextLevel r none level size).value.branches.map Branch.way =
        level.flatMap (Branch.waysOn r) := by
  induction level generalizing size with
  | nil => exact ⟨rfl, rfl⟩
  | cons b bs ih =>
    rw [value_nextLevel_cons, List.flatMap_cons]
    cases isCycle : b.node.isCycle with
    | true =>
      obtain ⟨uncut, ways⟩ := ih size
      refine ⟨uncut, ?_⟩
      rw [if_pos rfl, ways]
      unfold Branch.waysOn
      rw [if_pos isCycle]
      rfl
    | false =>
      obtain ⟨own, ways⟩ : (b.offspring r none size).cut = false ∧
          (b.offspring r none size).branches.map Branch.way = _ := children_none b size _
      obtain ⟨uncut, restWays⟩ := ih (size + (b.offspring r none size).branches.length)
      rw [if_neg Bool.false_ne_true, Grown.andThen_of_uncut own]
      refine ⟨uncut, ?_⟩
      simp only [Grown.after, List.map_append]
      rw [ways, restWays]
      congr 1
      unfold Branch.waysOn
      rw [isCycle, if_neg Bool.false_ne_true, value_targets consistent, Table.keys, List.map_map]
      rfl

theorem nextLevel_spec (consistent : r.Consistent) (level : List Branch) (size : Nat) :
    LevelBelow r level size (nextLevel r none level size).value := by
  obtain ⟨uncut, ways⟩ := nextLevel_none consistent level size
  exact ⟨nextLevel_offspring consistent none level size, uncut, ways⟩

/-! ## All levels -/

/-- Branches below a level of a tree that has `size` nodes: each is begotten by one of the level
or by another of them. -/
structure Descent (r : Registry) (level : List Branch) (size : Nat) (grown : Grown) : Prop where
  ids : grown.branches.map (·.node.id) = idsAfter size grown.branches.length
  begotten : ∀ c ∈ grown.branches, ∃ b ∈ level ++ grown.branches, b.Begets r c

theorem Offspring.descent {level : List Branch} {size : Nat} {grown : Grown}
    (offspring : Offspring r level size grown) : Descent r level size grown := by
  refine ⟨offspring.ids, ?_⟩
  intro c member
  obtain ⟨b, above, begets⟩ := offspring.begotten c member
  exact ⟨b, List.mem_append_left _ above, begets⟩

theorem Descent.after {level : List Branch} {size : Nat} {next lower : Grown}
    (rest : Descent r next.branches (size + next.branches.length) lower)
    (below : Offspring r level size next) : Descent r level size (lower.after next) := by
  refine ⟨Grown.ids_after below.ids rest.ids, ?_⟩
  intro c member
  rcases List.mem_append.1 member with here | lowerDown
  · obtain ⟨b, above, begets⟩ := below.begotten c here
    exact ⟨b, List.mem_append_left _ above, begets⟩
  · obtain ⟨b, above, begets⟩ := rest.begotten c lowerDown
    exact ⟨b, List.mem_append_right _ above, begets⟩

theorem Offspring.descent_andThen {level : List Branch} {size : Nat} {next lower : Grown}
    (below : Offspring r level size next)
    (rest : Descent r next.branches (size + next.branches.length) lower) :
    Descent r level size (next.andThen lower) := by
  unfold Grown.andThen
  split
  next => exact below.descent
  next => exact rest.after below

/-- Whatever the bound and however many levels, all branches descend from the first level. -/
theorem lowerLevels_descent (consistent : r.Consistent) (bound : Option Int) (levels : Nat)
    (level : List Branch) (size : Nat) :
    Descent r level size (lowerLevels r bound levels level size).value := by
  induction levels generalizing level size with
  | zero => exact ⟨rfl, fun c member => nomatch member⟩
  | succ levels ih =>
    rw [value_lowerLevels_succ]
    exact (nextLevel_offspring consistent bound level size).descent_andThen (ih _ _)

end CallTree
end CallAtlas
