import CallAtlas.Proofs.CallTree.Ways
import CallAtlas.Proofs.Registry.Additions

/-!
# Breadth first order

Viewers lay a call tree out by the order of its nodes: numbers, levels and parents never go back
along the list, and a parent stands before its children. `CallTree.IsBreadthFirst` collects what
they rely on, and `ofFunction_isBreadthFirst` says that every tree has it, cut by a bound or not.

The invariant of the growth is `Layered`. A level whose branches stand in order, numbered up to the
size of the tree (`Row`), grows branches that stand in order again: the children of one branch by
their functions, the children of different branches by their parents (`HangsOn.precedes`).
-/

namespace CallAtlas

/-! ## Nodes in order -/

namespace CallNode

/-- A node that stands before another one in breadth first order. -/
structure Precedes (n m : CallNode) : Prop where
  level : n.level ≤ m.level
  parent : ∀ p ∈ n.parent, ∀ q ∈ m.parent, p ≤ q
  /-- Two children of a node are different functions. -/
  sibling : n.parent = m.parent → n.ref ≠ m.ref

/-- A node that hangs on an earlier one, which is no cycle, one level below it. -/
structure HangsOn (n p : CallNode) : Prop where
  isOpen : p.isCycle = false
  parent : n.parent = some p.id
  level : n.level = p.level + 1
  earlier : p.id < n.id

/-- Nodes that hang on different ones stand in the order of these. -/
theorem HangsOn.precedes {p q n m : CallNode} (first : n.HangsOn p)
    (second : m.HangsOn q) (level : p.level ≤ q.level) (id : p.id < q.id) : n.Precedes m := by
  refine ⟨?_, ?_, ?_⟩
  · rw [first.level, second.level]
    omega
  · intro a isParent b isParent'
    rw [first.parent, Option.mem_some_iff] at isParent
    rw [second.parent, Option.mem_some_iff] at isParent'
    omega
  · intro same
    rw [first.parent, second.parent, Option.some.injEq] at same
    omega

/-- Nodes that hang on the same one stand in order if their functions differ. -/
theorem HangsOn.precedes_sibling {p n m : CallNode} (first : n.HangsOn p)
    (second : m.HangsOn p) (differ : n.ref ≠ m.ref) : n.Precedes m := by
  refine ⟨?_, ?_, fun _ => differ⟩
  · exact Int.le_of_eq (first.level.trans second.level.symm)
  · intro a isParent b isParent'
    rw [first.parent, ← second.parent] at isParent
    exact Int.le_of_eq (Option.mem_unique isParent isParent')

/-- A node at some distance from the deepest level. -/
def atDistance (n : CallNode) (distance : Int) : CallNode :=
  { n with reverseLevel := distance }

end CallNode

namespace CallTree

variable {r : Registry}

/-- A tree whose nodes are numbered in breadth first order. -/
structure IsBreadthFirst (t : CallTree) : Prop where
  /-- The nodes are numbered from one in the order of the list. -/
  ids : t.nodes.map CallNode.id = idsAfter 0 t.nodes.length
  /-- The first node is the only one without a parent. -/
  root : ∃ root, t.root? = some root ∧ root.id = 1 ∧ root.level = 0 ∧
    ∀ n ∈ t.nodes, n.parent = none ↔ n = root
  /-- A parent stands before its children, one level above them. -/
  parent : ∀ n ∈ t.nodes, ∀ id ∈ n.parent,
    id < n.id ∧ ∃ p ∈ t.nodes, p.id = id ∧ n.level = p.level + 1
  levels : (t.nodes.map CallNode.level).Pairwise (· ≤ ·)
  parents : (t.nodes.filterMap CallNode.parent).Pairwise (· ≤ ·)
  /-- There is one edge to every node but the first. -/
  edges : t.edges.map (fun e => (some e.1, e.2)) = t.nodes.tail.map fun n => (n.parent, n.id)
  siblings : ∀ id, ((t.childrenOf id).map CallNode.ref).Nodup
  cycles : ∀ n ∈ t.nodes, n.isCycle = true → t.childrenOf n.id = []
  reverse : ∀ n ∈ t.nodes, n.reverseLevel = t.maxLevel - n.level ∧ 0 ≤ n.reverseLevel
  deepest : ∃ n ∈ t.nodes, n.reverseLevel = 0

/-! ## Numbers -/

theorem pairwise_idsAfter (size count : Nat) : (idsAfter size count).Pairwise (· < ·) :=
  List.pairwise_map.2 ((List.pairwise_lt_range' ..).imp Int.ofNat_lt.2)

theorem bounds_of_mem_idsAfter {size count : Nat} {id : Int} (member : id ∈ idsAfter size count) :
    size < id ∧ id ≤ size + count := by
  obtain ⟨n, listed, rfl⟩ := List.mem_map.1 member
  rw [List.mem_range'_1] at listed
  rw [Int.ofNat_eq_natCast]
  omega

theorem bounds_of_ids {size : Nat} {branches : List Branch}
    (ids : branches.map (·.node.id) = idsAfter size branches.length) {c : Branch}
    (member : c ∈ branches) : size < c.node.id ∧ c.node.id ≤ size + branches.length := by
  apply bounds_of_mem_idsAfter
  rw [← ids]
  exact List.mem_map_of_mem member

/-! ## One level -/

/-- The branches of one level of a tree that has `size` nodes, in order. -/
structure Row (depth : Int) (size : Nat) (level : List Branch) : Prop where
  depth : ∀ b ∈ level, b.node.level = depth
  ids : level.Pairwise fun b c => b.node.id < c.node.id
  placed : ∀ b ∈ level, b.node.id ≤ size

/-- Branches that hang on a level, in order and numbered on in a tree that has `size` nodes. -/
structure Layer (level : List Branch) (size : Nat) (grown : Grown) : Prop where
  ids : grown.branches.map (·.node.id) = idsAfter size grown.branches.length
  hung : ∀ c ∈ grown.branches, ∃ b ∈ level, c.node.HangsOn b.node
  ordered : grown.branches.Pairwise fun c d => c.node.Precedes d.node

/-- The children of a branch are the first of its hits. -/
theorem refs_children (bound : Option Int) (b : Branch) (size : Nat)
    (hits : List (FunctionRef × Nat)) :
    (b.children r bound size hits).branches.map (·.node.ref) <+: hits.map Prod.fst := by
  induction hits generalizing size with
  | nil => exact List.prefix_refl _
  | cons hit hits ih =>
    obtain ⟨target, count⟩ := hit
    rw [Branch.children]
    split
    next => exact List.nil_prefix
    next =>
      simp only [Grown.after, Grown.ofChild, List.singleton_append, List.map_cons]
      exact (List.prefix_cons_inj target).2 (ih (size + 1))

theorem layer_children (bound : Option Int) {b : Branch} (isOpen : b.node.isCycle = false)
    {size : Nat} (placed : b.node.id ≤ size) {hits : List (FunctionRef × Nat)}
    (nodup : (hits.map Prod.fst).Nodup) : Layer [b] size (b.children r bound size hits) := by
  have ids := ids_children (r := r) bound b size hits
  have hung : ∀ c ∈ (b.children r bound size hits).branches, c.node.HangsOn b.node := by
    intro c member
    have later := (bounds_of_ids ids member).1
    obtain ⟨id, target, count, -, rfl⟩ := mem_children member
    exact ⟨isOpen, rfl, rfl, by omega⟩
  refine ⟨ids, fun c member => ⟨b, List.mem_singleton_self b, hung c member⟩, ?_⟩
  have refs := nodup.sublist (refs_children (r := r) bound b size hits).sublist
  refine (List.pairwise_map.1 refs).imp_of_mem ?_
  intro c d hc hd differ
  exact (hung c hc).precedes_sibling (hung d hd) differ

theorem Layer.widen {level wider : List Branch} {size : Nat} {grown : Grown}
    (layer : Layer level size grown) (within : level ⊆ wider) : Layer wider size grown := by
  refine ⟨layer.ids, ?_, layer.ordered⟩
  intro c member
  obtain ⟨parent, above, hangs⟩ := layer.hung c member
  exact ⟨parent, within above, hangs⟩

theorem Layer.hangsOn {b c : Branch} {size : Nat} {grown : Grown}
    (layer : Layer [b] size grown) (member : c ∈ grown.branches) : c.node.HangsOn b.node := by
  obtain ⟨parent, above, hangs⟩ := layer.hung c member
  rwa [List.mem_singleton.1 above] at hangs

/-- What hangs on the first branch of a row stands before what hangs on the others. -/
theorem Layer.after {depth : Int} {b : Branch} {bs : List Branch} {size : Nat}
    {first rest : Grown} (later : Layer bs (size + first.branches.length) rest)
    (own : Layer [b] size first) (row : Row depth size (b :: bs)) :
    Layer (b :: bs) size (rest.after first) := by
  refine ⟨Grown.ids_after own.ids later.ids, ?_, ?_⟩
  · intro c member
    rcases List.mem_append.1 member with here | there
    · exact ⟨b, List.mem_cons_self, own.hangsOn here⟩
    · exact (later.widen (List.subset_cons_self b bs)).hung c there
  · refine List.pairwise_append.2 ⟨own.ordered, later.ordered, ?_⟩
    intro c here d there
    obtain ⟨b', above, hangs⟩ := later.hung d there
    have level : b.node.level = b'.node.level := by
      rw [row.depth b List.mem_cons_self, row.depth b' (List.mem_cons_of_mem _ above)]
    have later := (List.pairwise_cons.1 row.ids).1 b' above
    exact (own.hangsOn here).precedes hangs (Int.le_of_eq level) later

theorem Layer.andThen {depth : Int} {b : Branch} {bs : List Branch} {size : Nat}
    {first rest : Grown} (own : Layer [b] size first)
    (later : Layer bs (size + first.branches.length) rest) (row : Row depth size (b :: bs)) :
    Layer (b :: bs) size (first.andThen rest) := by
  unfold Grown.andThen
  split
  next => exact own.widen (List.cons_subset.2 ⟨List.mem_cons_self, List.nil_subset _⟩)
  next => exact later.after own row

/-- A row of branches grows a layer, whatever bound cuts it. -/
theorem nextLevel_layer (bound : Option Int) {depth : Int} {level : List Branch} {size : Nat}
    (row : Row depth size level) : Layer level size (nextLevel r bound level size).value := by
  induction level generalizing size with
  | nil => exact ⟨rfl, fun c member => (nomatch member), List.Pairwise.nil⟩
  | cons b bs ih =>
    have rest : ∀ more, Row depth (size + more) bs := by
      intro more
      refine ⟨fun c member => row.depth c (List.mem_cons_of_mem _ member),
        (List.pairwise_cons.1 row.ids).2, ?_⟩
      intro c member
      have placed := row.placed c (List.mem_cons_of_mem _ member)
      omega
    rw [value_nextLevel_cons]
    cases isCycle : b.node.isCycle with
    | true => exact (ih (rest 0)).widen (List.subset_cons_self b bs)
    | false =>
      have own : Layer [b] size (b.offspring r bound size) :=
        layer_children bound isCycle (row.placed b List.mem_cons_self) (nodup_targets b.node.ref)
      rw [if_neg Bool.false_ne_true]
      exact own.andThen (ih (rest _)) row

/-- A layer that hangs on a row is the next row. -/
theorem Layer.row {depth : Int} {level : List Branch} {size : Nat} {grown : Grown}
    (layer : Layer level size grown) (row : Row depth size level) :
    Row (depth + 1) (size + grown.branches.length) grown.branches := by
  refine ⟨?_, ?_, ?_⟩
  · intro c member
    obtain ⟨b, above, hangs⟩ := layer.hung c member
    rw [hangs.level, row.depth b above]
  · rw [← List.pairwise_map, layer.ids]
    exact pairwise_idsAfter size _
  · intro c member
    rw [Int.natCast_add]
    exact (bounds_of_ids layer.ids member).2

/-! ## All levels -/

/-- Branches below a row, in order and numbered on in a tree that has `size` nodes: each hangs on
one of the row or on another of them. -/
structure Layered (depth : Int) (level : List Branch) (size : Nat) (grown : Grown) : Prop where
  ids : grown.branches.map (·.node.id) = idsAfter size grown.branches.length
  hung : ∀ c ∈ grown.branches, ∃ b ∈ level ++ grown.branches, c.node.HangsOn b.node
  ordered : grown.branches.Pairwise fun c d => c.node.Precedes d.node
  lower : ∀ c ∈ grown.branches, depth < c.node.level

theorem Layer.layered {depth : Int} {level : List Branch} {size : Nat} {grown : Grown}
    (layer : Layer level size grown) (row : Row depth size level) :
    Layered depth level size grown := by
  refine ⟨layer.ids, (layer.widen (List.subset_append_left level _)).hung, layer.ordered, ?_⟩
  intro c member
  rw [(layer.row row).depth c member]
  omega

/-- What hangs on a row stands before what hangs further down. -/
theorem Layered.after {depth : Int} {level : List Branch} {size : Nat} {next lower : Grown}
    (rest : Layered (depth + 1) next.branches (size + next.branches.length) lower)
    (layer : Layer level size next) (row : Row depth size level) :
    Layered depth level size (lower.after next) := by
  refine ⟨Grown.ids_after layer.ids rest.ids, ?_, ?_, ?_⟩
  · intro c member
    rcases List.mem_append.1 member with here | lowerDown
    · obtain ⟨b, above, hangs⟩ := layer.hung c here
      exact ⟨b, List.mem_append_left _ above, hangs⟩
    · obtain ⟨b, above, hangs⟩ := rest.hung c lowerDown
      exact ⟨b, List.mem_append_right _ above, hangs⟩
  · refine List.pairwise_append.2 ⟨layer.ordered, rest.ordered, ?_⟩
    intro c here d lowerDown
    obtain ⟨b, above, first⟩ := layer.hung c here
    obtain ⟨b', below, second⟩ := rest.hung d lowerDown
    have depthAbove := row.depth b above
    have placed := row.placed b above
    rcases List.mem_append.1 below with next | lower
    · have depthBelow := (layer.row row).depth b' next
      have later := (bounds_of_ids layer.ids next).1
      exact first.precedes second (by omega) (by omega)
    · have depthBelow := rest.lower b' lower
      have later := (bounds_of_ids rest.ids lower).1
      exact first.precedes second (by omega) (by omega)
  · intro c member
    rcases List.mem_append.1 member with here | lowerDown
    · rw [(layer.row row).depth c here]
      omega
    · have lower := rest.lower c lowerDown
      omega

theorem Layer.layered_andThen {depth : Int} {level : List Branch} {size : Nat} {next lower : Grown}
    (layer : Layer level size next) (row : Row depth size level)
    (rest : Layered (depth + 1) next.branches (size + next.branches.length) lower) :
    Layered depth level size (next.andThen lower) := by
  unfold Grown.andThen
  split
  next => exact layer.layered row
  next => exact rest.after layer row

/-- A row of branches grows layers in order, whatever bound cuts them and however many there are. -/
theorem lowerLevels_layered (bound : Option Int) (levels : Nat) {depth : Int}
    {level : List Branch} {size : Nat} (row : Row depth size level) :
    Layered depth level size (lowerLevels r bound levels level size).value := by
  induction levels generalizing depth level size with
  | zero =>
    exact ⟨rfl, fun c member => (nomatch member), List.Pairwise.nil, fun c member => nomatch member⟩
  | succ levels ih =>
    have layer : Layer level size (nextLevel r bound level size).value := nextLevel_layer bound row
    rw [value_lowerLevels_succ]
    exact layer.layered_andThen row (ih (layer.row row))

/-! ## Whole trees -/

/-- A root and the nodes that hang on it, in order. -/
structure Rooted (root : CallNode) (rest : List CallNode) : Prop where
  parentless : root.parent = none
  level : root.level = 0
  ids : (root :: rest).map CallNode.id = idsAfter 0 (root :: rest).length
  hung : ∀ n ∈ rest, ∃ p ∈ root :: rest, n.HangsOn p
  ordered : (root :: rest).Pairwise CallNode.Precedes

/-- What grows from the branch of a root hangs on it, in order. -/
theorem rooted_of_lowerLevels (bound : Option Int) (levels : Nat) (path : String)
    (f : FunctionEntry) : Rooted (Branch.root r path f).node
      ((lowerLevels r bound levels [Branch.root r path f] 1).value.branches.map Branch.node) := by
  have row : Row 0 1 [Branch.root r path f] := by
    refine ⟨?_, List.pairwise_singleton _ _, ?_⟩
    · intro b member
      rw [List.mem_singleton.1 member]
      rfl
    · intro b member
      rw [List.mem_singleton.1 member]
      exact Int.le_refl 1
  have layered : Layered 0 [Branch.root r path f] 1
      (lowerLevels r bound levels [Branch.root r path f] 1).value :=
    lowerLevels_layered bound levels row
  generalize (lowerLevels r bound levels [Branch.root r path f] 1).value = grown at layered
  refine ⟨rfl, rfl, ?_, ?_, List.pairwise_cons.2 ⟨?_, List.pairwise_map.2 layered.ordered⟩⟩
  · rw [List.map_cons, List.map_map, List.length_cons, List.length_map, Nat.add_comm, idsAfter_add,
      ← layered.ids]
    rfl
  · intro n member
    obtain ⟨c, below, rfl⟩ := List.mem_map.1 member
    obtain ⟨b, above, hangs⟩ := layered.hung c below
    exact ⟨b.node, List.mem_map_of_mem above, hangs⟩
  · intro n member
    obtain ⟨c, below, rfl⟩ := List.mem_map.1 member
    obtain ⟨b, -, hangs⟩ := layered.hung c below
    refine ⟨Int.le_of_lt (layered.lower c below), fun p isParent => (nomatch isParent), ?_⟩
    intro same
    rw [hangs.parent] at same
    cases same

section Rooted

variable {root : CallNode} {rest : List CallNode}

/-- Nodes in order are so whatever their distances from the deepest level. -/
theorem Rooted.atDistances (rooted : Rooted root rest) (distance : CallNode → Int) :
    Rooted (root.atDistance (distance root)) (rest.map fun n => n.atDistance (distance n)) := by
  have placed : root.atDistance (distance root) :: rest.map (fun n => n.atDistance (distance n)) =
      (root :: rest).map fun n => n.atDistance (distance n) := rfl
  refine ⟨rooted.parentless, rooted.level, ?_, ?_, ?_⟩
  · rw [placed, List.map_map, List.length_map]
    exact rooted.ids
  · intro n member
    obtain ⟨m, listed, rfl⟩ := List.mem_map.1 member
    obtain ⟨p, above, hangs⟩ := rooted.hung m listed
    refine ⟨p.atDistance (distance p), ?_, hangs.isOpen, hangs.parent, hangs.level, hangs.earlier⟩
    rw [placed]
    exact List.mem_map_of_mem above
  · rw [placed, List.pairwise_map]
    exact rooted.ordered.imp fun precedes => ⟨precedes.level, precedes.parent, precedes.sibling⟩

theorem Rooted.root_id (rooted : Rooted root rest) : root.id = 1 :=
  Option.some.inj (congrArg List.head? rooted.ids)

theorem Rooted.eq_of_id (rooted : Rooted root rest) {n m : CallNode} (hn : n ∈ root :: rest)
    (hm : m ∈ root :: rest) (same : n.id = m.id) : n = m := by
  refine List.inj_on_of_nodup_map ?_ hn hm same
  rw [rooted.ids]
  exact nodup_idsAfter 0 _

/-- A node hangs on its parent. -/
theorem Rooted.hangsOn (rooted : Rooted root rest) {n p : CallNode} (hn : n ∈ root :: rest)
    (hp : p ∈ root :: rest) (parent : n.parent = some p.id) : n.HangsOn p := by
  rcases List.mem_cons.1 hn with rfl | below
  · rw [rooted.parentless] at parent
    cases parent
  · obtain ⟨q, above, hangs⟩ := rooted.hung n below
    have same : q.id = p.id := Option.some.inj (hangs.parent.symm.trans parent)
    rwa [rooted.eq_of_id above hp same] at hangs

/-- The root is the only node without a parent. -/
theorem Rooted.parent_eq_none_iff (rooted : Rooted root rest) {n : CallNode}
    (member : n ∈ root :: rest) : n.parent = none ↔ n = root := by
  constructor
  · intro parentless
    rcases List.mem_cons.1 member with rfl | below
    · rfl
    · obtain ⟨p, -, hangs⟩ := rooted.hung n below
      rw [hangs.parent] at parentless
      cases parentless
  · rintro rfl
    exact rooted.parentless

/-- There is one edge to every node below the root, from its parent. -/
theorem Rooted.edges (rooted : Rooted root rest) :
    (edgesOf (root :: rest)).map (fun e => (some e.1, e.2)) =
      rest.map fun n => (n.parent, n.id) := by
  have below : ∀ n ∈ rest, (n.parent.map fun parent => (parent, n.id)).map
      (fun e => (some e.1, e.2)) = some (n.parent, n.id) := by
    intro n member
    obtain ⟨p, -, hangs⟩ := rooted.hung n member
    rw [hangs.parent]
    rfl
  unfold edgesOf
  simp only [List.filterMap_cons, rooted.parentless, Option.map_none]
  rw [List.map_filterMap, List.filterMap_congr below, List.filterMap_eq_map']

end Rooted

/-- The deepest level is that of a node, and no node lies deeper. -/
theorem deepest_spec {nodes : List CallNode} (some' : nodes ≠ []) :
    (∃ n ∈ nodes, n.level = deepest nodes) ∧ ∀ n ∈ nodes, n.level ≤ deepest nodes := by
  unfold deepest
  cases found : (nodes.map CallNode.level).max? with
  | none =>
    rw [List.max?_eq_none_iff, List.map_eq_nil_iff] at found
    exact absurd found some'
  | some level =>
    obtain ⟨member, bound⟩ := List.max?_eq_some_iff.1 found
    obtain ⟨n, listed, same⟩ := List.mem_map.1 member
    exact ⟨⟨n, listed, same⟩, fun n listed => bound _ (List.mem_map_of_mem listed)⟩

/-- The tree of a root and the nodes that hang on it is a breadth first tree. -/
theorem Rooted.isBreadthFirst {root : CallNode} {rest : List CallNode} (rooted : Rooted root rest)
    {t : CallTree} (nodes : t.nodes = root :: rest) (edges : t.edges = edgesOf t.nodes)
    (distances : ∀ n ∈ t.nodes, n.reverseLevel = t.maxLevel - n.level) : t.IsBreadthFirst := by
  have some' : t.nodes ≠ [] := nodes ▸ List.cons_ne_nil root rest
  obtain ⟨⟨lowest, inTree, depth⟩, within⟩ := deepest_spec some'
  have member : ∀ {n}, n ∈ t.nodes → n ∈ root :: rest := fun listed => nodes ▸ listed
  have ordered : t.nodes.Pairwise CallNode.Precedes := nodes ▸ rooted.ordered
  constructor
  case ids =>
    rw [nodes]
    exact rooted.ids
  case root =>
    refine ⟨root, by rw [root?, nodes]; rfl, rooted.root_id, rooted.level, ?_⟩
    intro n listed
    exact rooted.parent_eq_none_iff (member listed)
  case parent =>
    intro n listed id isParent
    rcases List.mem_cons.1 (member listed) with rfl | below
    · rw [rooted.parentless] at isParent
      cases isParent
    · obtain ⟨p, above, hangs⟩ := rooted.hung n below
      rw [hangs.parent, Option.mem_some_iff] at isParent
      subst isParent
      exact ⟨hangs.earlier, p, nodes ▸ above, rfl, hangs.level⟩
  case levels => exact List.pairwise_map.2 (ordered.imp fun precedes => precedes.level)
  case parents =>
    refine List.pairwise_filterMap.2 (ordered.imp ?_)
    intro n m precedes p isParent q isParent'
    exact precedes.parent p isParent q isParent'
  case edges =>
    rw [edges, nodes]
    exact rooted.edges
  case siblings =>
    intro id
    refine List.pairwise_map.2 ((ordered.filter _).imp_of_mem ?_)
    intro n m hn hm precedes
    have first := eq_of_beq (List.mem_filter.1 hn).2
    have second := eq_of_beq (List.mem_filter.1 hm).2
    exact precedes.sibling (first.trans second.symm)
  case cycles =>
    intro p listed isCycle
    refine List.filter_eq_nil_iff.2 ?_
    intro n listed' isParent
    have hangs := rooted.hangsOn (member listed') (member listed) (eq_of_beq isParent)
    rw [hangs.isOpen] at isCycle
    cases isCycle
  case reverse =>
    intro n listed
    refine ⟨distances n listed, ?_⟩
    rw [distances n listed]
    exact Int.sub_nonneg_of_le (within n listed)
  case deepest =>
    refine ⟨lowest, inTree, ?_⟩
    rw [distances lowest inTree, depth]
    exact Int.sub_self _

/-- Distances are those from the deepest level of the tree that shows them. -/
theorem reverseLevel_of_mem {nodes : List CallNode} {n : CallNode}
    (member : n ∈ withReverseLevels nodes) :
    n.reverseLevel = deepest (withReverseLevels nodes) - n.level := by
  have same : deepest (withReverseLevels nodes) = deepest nodes := by
    unfold withReverseLevels deepest
    rw [List.map_map]
    rfl
  obtain ⟨m, -, rfl⟩ := List.mem_map.1 member
  rw [same]

/-- A tree that was grown is a breadth first tree. -/
theorem isBreadthFirst_grow (r : Registry) (path function : String) (bound : Option Int)
    (f : FunctionEntry) :
    (grow r path function bound (Branch.root r path f)).value.IsBreadthFirst := by
  have rooted := rooted_of_lowerLevels (r := r) bound (r.callsByCaller.size + 1) path f
  have edges := @edges_grow r path function bound (Branch.root r path f) rfl
  rw [value_grow] at edges ⊢
  generalize (lowerLevels r bound _ _ _).value = grown at rooted edges
  dsimp only at edges ⊢
  have placed := rooted.atDistances fun n =>
    deepest ((Branch.root r path f).node :: grown.branches.map Branch.node) - n.level
  exact placed.isBreadthFirst rfl edges fun n member => reverseLevel_of_mem member

/-- **Every call tree is numbered in breadth first order.** This holds for any bound. -/
theorem ofFunction_isBreadthFirst (r : Registry) {path function name : String}
    {arity : Option Int} {f : FunctionEntry} (named : splitQualified function = .ok (name, arity))
    (found : r.function? path (qualify name arity) = some f) (bound : Option Int) :
    ∃ t : CallTree, (CallTree.ofFunction r path function bound).value = .ok t ∧
      t.IsBreadthFirst :=
  ⟨_, value_ofFunction named found bound, isBreadthFirst_grow r path function bound f⟩

/-- A function that calls two others, of which the first calls the second one and back. -/
def branching : Registry :=
  let f (name : String) : Addition := .ofFunction { owner := "/a.xqy", name := name, arity := 0 }
  let c (caller name : String) : Addition :=
    .ofCall { owner := "/a.xqy", caller := caller, token := none, name := name, arity := some 0 }
  .ofAdditions {}
    [f "f", f "g", f "h", c "f#0" "g", c "f#0" "h", c "f#0" "g", c "g#0" "h", c "g#0" "f"]

/-- Cut at four nodes, its tree has one of the two nodes on the lowest level. -/
theorem branching_isBreadthFirst :
    ∃ t : CallTree, (CallTree.ofFunction branching "/a.xqy" "f#0" (some 4)).value = .ok t ∧
      t.nodes.map CallNode.level = [0, 1, 1, 2] ∧ t.IsBreadthFirst := by
  obtain ⟨t, built, ordered⟩ := ofFunction_isBreadthFirst branching
    (show splitQualified "f#0" = .ok ("f", some 0) by decide)
    (show branching.function? "/a.xqy" (qualify "f" (some 0)) =
      some { owner := "/a.xqy", name := "f", arity := 0 } by decide) (some 4)
  have levels : (CallTree.ofFunction branching "/a.xqy" "f#0" (some 4)).value.map
      (fun t => t.nodes.map CallNode.level) = .ok [0, 1, 1, 2] := by rfl
  rw [built] at levels
  exact ⟨t, built, Except.ok.inj levels, ordered⟩

end CallTree
end CallAtlas
