import CallAtlas.Proofs.CallTree.Growth
import Mathlib.Data.List.Perm.Subperm

/-!
# Call trees and call paths

A call path from a function is a list of functions, each reached by a call of the one before it,
all of them different except that the last may repeat an earlier one. The nodes of a call tree
without a bound are exactly the call paths from its root: `ofFunction_ways` reads the path of a
node off the parents in the tree and shows that every call path is the path of one node.

Growing a tree stops after as many levels as there are calling functions. `lowerLevels_spec`
shows that nothing is lost there: the functions on the way to an open branch are different
callers, so a way longer than the number of callers has no branch to go on from.
-/

namespace CallAtlas

/-- A call path from a function: what it passes before its end is different functions. -/
structure Registry.CallPath (r : Registry) (root : FunctionRef) (way : List FunctionRef) :
    Prop where
  starts : way.head? = some root
  linked : way.IsChain fun caller target => target ∈ r.reached caller
  distinct : way.dropLast.Nodup

/-- A call path without its last function is a call path through different functions. -/
theorem Registry.CallPath.init {r : Registry} {root : FunctionRef}
    {way : List FunctionRef} {last : FunctionRef} (path : r.CallPath root (way ++ [last]))
    (longer : way ≠ []) :
    r.CallPath root way ∧ way.Nodup ∧ ∀ caller ∈ way.getLast?, last ∈ r.reached caller := by
  obtain ⟨linked, -, link⟩ := List.isChain_append.1 path.linked
  have distinct := path.distinct
  rw [List.dropLast_concat] at distinct
  have starts := path.starts
  rw [List.head?_append_of_ne_nil _ longer] at starts
  refine ⟨⟨starts, linked, distinct.sublist (List.dropLast_sublist _)⟩, distinct, ?_⟩
  intro caller atEnd
  exact link caller atEnd last rfl

namespace CallTree

variable {r : Registry} {root : FunctionRef}

/-! ## Sound branches -/

/-- A branch whose way is a call path, and which is marked as a cycle where its function stands
on the way already. -/
structure Branch.Sound (r : Registry) (root : FunctionRef) (b : Branch) : Prop where
  way : b.way = b.node.ref :: b.way.tail
  isCycle : b.node.isCycle = b.way.tail.contains b.node.ref
  path : r.CallPath root b.way.reverse
  /-- Every function before the end of the way has calls. -/
  callers : ∀ caller ∈ b.way.tail, caller ∈ r.callsByCaller.keys

theorem Branch.Sound.nodup {b : Branch} (sound : b.Sound r root)
    (isOpen : b.node.isCycle = false) : b.way.Nodup := by
  have before := sound.path.distinct
  rw [List.dropLast_reverse, List.nodup_reverse] at before
  have fresh : b.node.ref ∉ b.way.tail := by
    have notCycle := sound.isCycle
    rw [isOpen] at notCycle
    simpa using notCycle.symm
  rw [sound.way]
  exact List.nodup_cons.2 ⟨fresh, before⟩

theorem mem_keys_of_reached (consistent : r.Consistent) {caller target : FunctionRef}
    (reached : target ∈ r.reached caller) : caller ∈ r.callsByCaller.keys := by
  by_contra absent
  have none := (Table.get?_eq_none_iff _ _).2 absent
  have calls := consistent.callsOf_eq caller
  unfold Registry.callsOf at calls
  rw [none, Option.getD_none] at calls
  unfold Registry.reached at reached
  rw [← calls] at reached
  cases reached

theorem Branch.Begets.sound (consistent : r.Consistent) {b c : Branch}
    (begets : b.Begets r c) (sound : b.Sound r root) : c.Sound r root := by
  have tail : c.way.tail = b.way := by rw [begets.way, List.tail_cons]
  have turned : c.way.reverse = b.way.reverse ++ [c.node.ref] := by
    rw [begets.way, List.reverse_cons]
  refine ⟨?_, ?_, ⟨?_, ?_, ?_⟩, ?_⟩
  · rw [tail]
    exact begets.way
  · rw [tail]
    exact begets.isCycle
  · have starts := sound.path.starts
    rw [turned, List.head?_append, starts, Option.some_or]
  · rw [turned, List.isChain_append]
    refine ⟨sound.path.linked, List.isChain_singleton _, ?_⟩
    intro last atEnd next isNext
    rw [List.head?_cons, Option.mem_some_iff] at isNext
    rw [List.getLast?_reverse, sound.way, List.head?_cons, Option.mem_some_iff] at atEnd
    rw [← atEnd, ← isNext]
    exact begets.reached
  · rw [turned, List.dropLast_concat, List.nodup_reverse]
    exact sound.nodup begets.isOpen
  · rw [tail]
    intro caller member
    rw [sound.way] at member
    rcases List.mem_cons.1 member with rfl | earlier
    · exact mem_keys_of_reached consistent begets.reached
    · exact sound.callers caller earlier

/-- Where a way goes on, it has no more functions than there are callers. -/
theorem Branch.Sound.length_le (consistent : r.Consistent) {b : Branch}
    (sound : b.Sound r root) {way : List FunctionRef} (goesOn : way ∈ b.waysOn r) :
    b.way.length ≤ r.callsByCaller.size := by
  obtain ⟨isOpen, target, reached, -⟩ := Branch.mem_waysOn.1 goesOn
  have callers : b.way ⊆ r.callsByCaller.keys := by
    intro caller member
    rw [sound.way] at member
    rcases List.mem_cons.1 member with rfl | earlier
    · exact mem_keys_of_reached consistent reached
    · exact sound.callers caller earlier
  have short := (List.subperm_of_subset (sound.nodup isOpen) callers).length_le
  rwa [Table.length_keys] at short

/-! ## All levels -/

/-- What a level of branches, whose ways all have `depth` functions, says about everything below
it in a tree that has `size` nodes. -/
structure Growth (r : Registry) (depth : Nat) (level : List Branch) (size : Nat)
    (grown : Grown) : Prop extends Descent r level size grown where
  uncut : grown.cut = false
  complete : ∀ b ∈ level ++ grown.branches, ∀ way ∈ b.waysOn r,
    ∃ c ∈ grown.branches, c.way = way
  deeper : ∀ c ∈ grown.branches, depth < c.way.length
  nodup : (grown.branches.map Branch.way).Nodup

theorem LevelBelow.nodup {level : List Branch} {size : Nat} {grown : Grown}
    (below : LevelBelow r level size grown) (nodup : (level.map Branch.way).Nodup) :
    (grown.branches.map Branch.way).Nodup := by
  rw [below.ways, List.nodup_flatMap]
  refine ⟨fun b _ => b.nodup_waysOn, (List.pairwise_map.1 nodup).imp ?_⟩
  intro b c differ way onB onC
  obtain ⟨-, target, -, rfl⟩ := Branch.mem_waysOn.1 onB
  obtain ⟨-, target', -, same⟩ := Branch.mem_waysOn.1 onC
  exact differ (List.cons.inj same).2

theorem LevelBelow.complete {level : List Branch} {size : Nat} {grown : Grown}
    (below : LevelBelow r level size grown) {b : Branch} (member : b ∈ level)
    {way : List FunctionRef} (goesOn : way ∈ b.waysOn r) :
    ∃ c ∈ grown.branches, c.way = way := by
  have listed : way ∈ grown.branches.map Branch.way := by
    rw [below.ways]
    exact List.mem_flatMap.2 ⟨b, member, goesOn⟩
  exact List.mem_map.1 listed

theorem LevelBelow.length_way {level : List Branch} {size depth : Nat} {grown : Grown}
    (below : LevelBelow r level size grown) (depths : ∀ b ∈ level, b.way.length = depth)
    {c : Branch} (member : c ∈ grown.branches) : c.way.length = depth + 1 := by
  obtain ⟨b, above, begets⟩ := below.begotten c member
  rw [begets.way, List.length_cons, depths b above]

/-- What grows from the level below a level, after that level, is what grows from the level. -/
theorem Growth.after {level : List Branch} {size depth : Nat} {next lower : Grown}
    (rest : Growth r (depth + 1) next.branches (size + next.branches.length) lower)
    (below : LevelBelow r level size next) (depths : ∀ b ∈ level, b.way.length = depth)
    (nodup : (level.map Branch.way).Nodup) :
    Growth r depth level size (lower.after next) := by
  refine ⟨rest.toDescent.after below.toOffspring, rest.uncut, ?_, ?_, ?_⟩
  · intro b member way goesOn
    rcases List.mem_append.1 member with above | here
    · obtain ⟨c, listed, same⟩ := below.complete above goesOn
      exact ⟨c, List.mem_append_left _ listed, same⟩
    · obtain ⟨c, listed, same⟩ := rest.complete b here way goesOn
      exact ⟨c, List.mem_append_right _ listed, same⟩
  · intro c member
    rcases List.mem_append.1 member with here | lowerDown
    · rw [below.length_way depths here]
      omega
    · have deeper := rest.deeper c lowerDown
      omega
  · simp only [Grown.after, List.map_append]
    refine List.nodup_append.2 ⟨below.nodup nodup, rest.nodup, ?_⟩
    intro way here other lowerDown same
    obtain ⟨b, listed, rfl⟩ := List.mem_map.1 here
    obtain ⟨c, listed', rfl⟩ := List.mem_map.1 lowerDown
    have short := below.length_way depths listed
    have long := rest.deeper c listed'
    rw [same] at short
    omega

/-- **Nothing is lost where the levels run out.** The invariant is that the levels still allowed
and the length of the ways so far exceed the number of callers together. -/
theorem lowerLevels_spec (consistent : r.Consistent) {levels depth size : Nat}
    {level : List Branch} (sound : ∀ b ∈ level, b.Sound r root)
    (depths : ∀ b ∈ level, b.way.length = depth) (nodup : (level.map Branch.way).Nodup)
    (enough : r.callsByCaller.size < depth + levels) :
    Growth r depth level size (lowerLevels r none levels level size).value := by
  induction levels generalizing depth size level with
  | zero =>
    refine ⟨lowerLevels_descent consistent none 0 level size, rfl, ?_, ?_, List.nodup_nil⟩
    · intro b member way goesOn
      rw [show (lowerLevels r none 0 level size).value.branches = [] from rfl,
        List.append_nil] at member
      have short := (sound b member).length_le consistent goesOn
      rw [depths b member] at short
      omega
    · intro c member
      cases member
  | succ levels ih =>
    have below := nextLevel_spec consistent level size
    rw [value_lowerLevels_succ, Grown.andThen_of_uncut below.uncut]
    generalize (nextLevel r none level size).value = next at below
    have nextSound : ∀ c ∈ next.branches, c.Sound r root := by
      intro c member
      obtain ⟨b, above, begets⟩ := below.begotten c member
      exact begets.sound consistent (sound b above)
    have rest : Growth r (depth + 1) next.branches (size + next.branches.length)
        (lowerLevels r none levels next.branches (size + next.branches.length)).value :=
      ih nextSound (fun c member => below.length_way depths member) (below.nodup nodup) (by omega)
    exact rest.after below depths nodup

/-! ## Whole trees -/

/-- All branches of a tree: the root and everything that grows from it. -/
structure Family (r : Registry) (root : Branch) (branches : List Branch) : Prop where
  ids : (branches.map (·.node.id)).Nodup
  ways : (branches.map Branch.way).Nodup
  root_mem : root ∈ branches
  root_way : root.way = [root.node.ref]
  root_parent : root.node.parent = none
  origin : ∀ c ∈ branches, c = root ∨ ∃ b ∈ branches, b.Begets r c
  complete : ∀ b ∈ branches, ∀ way ∈ b.waysOn r, ∃ c ∈ branches, c.way = way
  sound : ∀ b ∈ branches, b.Sound r root.node.ref

theorem nodup_idsAfter (size count : Nat) : (idsAfter size count).Nodup :=
  List.Nodup.map (fun _ _ same => Int.ofNat.inj same) List.nodup_range'

/-- The numbers of a root and its descendants are different. -/
theorem Descent.nodup_ids {root : Branch} {grown : Grown} (descent : Descent r [root] 1 grown)
    (first : root.node.id = 1) : ((root :: grown.branches).map (·.node.id)).Nodup := by
  have all := nodup_idsAfter 0 (1 + grown.branches.length)
  rw [idsAfter_add] at all
  rw [List.map_cons, descent.ids, first]
  exact all

theorem Branch.sound_root (r : Registry) (path : String) (f : FunctionEntry) :
    (Branch.root r path f).Sound r ⟨path, f.qualifiedName⟩ := by
  refine ⟨rfl, rfl, ⟨rfl, List.isChain_singleton _, List.nodup_nil⟩, ?_⟩
  intro caller member
  cases member

/-- The root and all levels below it are a family. -/
theorem family_of_lowerLevels (consistent : r.Consistent) (path : String) (f : FunctionEntry) :
    (lowerLevels r none (r.callsByCaller.size + 1) [Branch.root r path f] 1).value.cut = false ∧
      Family r (Branch.root r path f) (Branch.root r path f ::
        (lowerLevels r none (r.callsByCaller.size + 1) [Branch.root r path f] 1).value.branches) := by
  have start := Branch.sound_root r path f
  have growth : Growth r 1 [Branch.root r path f] 1
      (lowerLevels r none (r.callsByCaller.size + 1) [Branch.root r path f] 1).value := by
    have sound : ∀ b ∈ [Branch.root r path f], b.Sound r ⟨path, f.qualifiedName⟩ := by
      intro b member
      rw [List.mem_singleton.1 member]
      exact start
    refine lowerLevels_spec consistent sound ?_ (List.nodup_singleton _) (by omega)
    · intro b member
      rw [List.mem_singleton.1 member]
      rfl
  generalize (lowerLevels r none _ _ _).value = grown at growth
  generalize hroot : Branch.root r path f = root at *
  have family : ∀ c ∈ root :: grown.branches,
      c = root ∨ ∃ b ∈ root :: grown.branches, b.Begets r c := by
    intro c member
    rcases List.mem_cons.1 member with rfl | below
    · exact Or.inl rfl
    · exact Or.inr (growth.begotten c below)
  refine ⟨growth.uncut, ?_, ?_, List.mem_cons_self, ?_, ?_, family, ?_, ?_⟩
  · refine growth.toDescent.nodup_ids ?_
    rw [← hroot]
    rfl
  · rw [List.map_cons]
    refine List.nodup_cons.2 ⟨?_, growth.nodup⟩
    intro listed
    obtain ⟨c, below, same⟩ := List.mem_map.1 listed
    have deeper := growth.deeper c below
    rw [same, ← hroot] at deeper
    exact absurd deeper (Nat.lt_irrefl 1)
  · rw [← hroot]
    rfl
  · rw [← hroot]
    rfl
  · intro b member way goesOn
    obtain ⟨c, below, same⟩ := growth.complete b member way goesOn
    exact ⟨c, List.mem_cons_of_mem _ below, same⟩
  · -- By induction on the length of the way: a branch begets branches with longer ways only.
    intro c member
    induction hlength : c.way.length using Nat.strong_induction_on generalizing c with
    | _ length ih =>
      rcases family c member with rfl | ⟨b, above, begets⟩
      · rw [show c.node.ref = ⟨path, f.qualifiedName⟩ by rw [← hroot]; rfl]
        exact start
      · have shorter : b.way.length < length := by
          rw [← hlength, begets.way, List.length_cons]
          omega
        exact begets.sound consistent (ih b.way.length shorter b above rfl)

/-- Every call path from the root of a family is the way of one of its branches. -/
theorem Family.exists_of_callPath {root : Branch} {branches : List Branch}
    (family : Family r root branches) {way : List FunctionRef}
    (path : r.CallPath root.node.ref way) : ∃ b ∈ branches, b.way.reverse = way := by
  induction way using List.reverseRecOn with
  | nil => cases path.starts
  | append_singleton earlier last ih =>
    by_cases atRoot : earlier = []
    · subst atRoot
      have starts := path.starts
      rw [List.nil_append, List.head?_cons, Option.some.injEq] at starts
      refine ⟨root, family.root_mem, ?_⟩
      rw [family.root_way, starts]
      rfl
    · obtain ⟨pathBefore, distinct, link⟩ := path.init atRoot
      obtain ⟨b, member, rfl⟩ := ih pathBefore
      have sound := family.sound b member
      have isOpen : b.node.isCycle = false := by
        rw [List.nodup_reverse, sound.way, List.nodup_cons] at distinct
        rw [sound.isCycle]
        simpa using distinct.1
      have reached : last ∈ r.reached b.node.ref := by
        apply link
        rw [List.getLast?_reverse, sound.way]
        rfl
      obtain ⟨c, listed, same⟩ := family.complete b member (last :: b.way)
        (Branch.mem_waysOn.2 ⟨isOpen, last, reached, rfl⟩)
      exact ⟨c, listed, by rw [same, List.reverse_cons]⟩

/-! ## The path of a node -/

/-- The functions from the root of a tree to a node, read off the parents of the nodes. -/
inductive Trail (t : CallTree) : CallNode → List FunctionRef → Prop
  | root {n : CallNode} : n ∈ t.nodes → n.parent = none → Trail t n [n.ref]
  | child {n parent : CallNode} {way : List FunctionRef} :
    n ∈ t.nodes → n.parent = some parent.id → Trail t parent way → Trail t n (way ++ [n.ref])

theorem Trail.getLast? {t : CallTree} {n : CallNode} {way : List FunctionRef}
    (trail : t.Trail n way) : way.getLast? = some n.ref := by
  cases trail with
  | root _ _ => rfl
  | child _ _ _ => exact List.getLast?_concat

/-- A node with its distance from the deepest level. -/
def shown (depth : Int) (b : Branch) : CallNode :=
  { b.node with reverseLevel := depth - b.node.level }

theorem withReverseLevels_map (branches : List Branch) :
    withReverseLevels (branches.map Branch.node) =
      branches.map (shown (deepest (branches.map Branch.node))) :=
  List.map_map ..

theorem Family.eq_of_id {root : Branch} {branches : List Branch}
    (family : Family r root branches) {b c : Branch} (hb : b ∈ branches) (hc : c ∈ branches)
    (same : b.node.id = c.node.id) : b = c :=
  List.inj_on_of_nodup_map family.ids hb hc same

theorem Family.eq_of_way {root : Branch} {branches : List Branch}
    (family : Family r root branches) {b c : Branch} (hb : b ∈ branches) (hc : c ∈ branches)
    (same : b.way = c.way) : b = c :=
  List.inj_on_of_nodup_map family.ways hb hc same

/-- The parent of a branch begets it. -/
theorem Family.begets_of_parent {root : Branch} {branches : List Branch}
    (family : Family r root branches) {b c : Branch} (hb : b ∈ branches) (hc : c ∈ branches)
    (parent : c.node.parent = some b.node.id) : b.Begets r c := by
  rcases family.origin c hc with rfl | ⟨b', above, begets⟩
  · rw [family.root_parent] at parent
    cases parent
  · have same : b'.node.id = b.node.id := Option.some.inj (begets.parent.symm.trans parent)
    rw [family.eq_of_id above hb same] at begets
    exact begets

/-- A branch whose way goes on from that of another one is begotten by it. -/
theorem Family.begets_of_way {root : Branch} {branches : List Branch}
    (family : Family r root branches) {b c : Branch} (hb : b ∈ branches) (hc : c ∈ branches)
    {target : FunctionRef} (way : c.way = target :: b.way) :
    b.Begets r c ∧ c.node.ref = target := by
  rcases family.origin c hc with rfl | ⟨b', above, begets⟩
  · rw [family.root_way, (family.sound b hb).way] at way
    cases way
  · rw [begets.way] at way
    obtain ⟨ref, same⟩ := List.cons.inj way
    rw [family.eq_of_way above hb same] at begets
    exact ⟨begets, ref⟩

/-- The path of a node in the tree of a family is the way of its branch. -/
theorem Family.trail_iff {root : Branch} {branches : List Branch}
    (family : Family r root branches) {t : CallTree} {depth : Int}
    (nodes : t.nodes = branches.map (shown depth)) (n : CallNode) (way : List FunctionRef) :
    t.Trail n way ↔ ∃ b ∈ branches, n = shown depth b ∧ way = b.way.reverse := by
  constructor
  · intro trail
    induction trail with
    | root member parentless =>
      rw [nodes] at member
      obtain ⟨b, listed, rfl⟩ := List.mem_map.1 member
      refine ⟨b, listed, rfl, ?_⟩
      rcases family.origin b listed with rfl | ⟨above, -, begets⟩
      · rw [family.root_way]
        rfl
      · have parent := begets.parent
        rw [show b.node.parent = none from parentless] at parent
        cases parent
    | child member parent _ ih =>
      rw [nodes] at member
      obtain ⟨c, listed, rfl⟩ := List.mem_map.1 member
      obtain ⟨b, above, rfl, rfl⟩ := ih
      have begets := family.begets_of_parent above listed parent
      refine ⟨c, listed, rfl, ?_⟩
      rw [begets.way, List.reverse_cons]
      rfl
  · rintro ⟨c, listed, rfl, rfl⟩
    have member : ∀ b ∈ branches, shown depth b ∈ t.nodes := by
      intro b inFamily
      rw [nodes]
      exact List.mem_map_of_mem inFamily
    -- Parents have shorter ways, so the walk to the root ends.
    induction hlength : c.way.length using Nat.strong_induction_on generalizing c with
    | _ length ih =>
      rcases family.origin c listed with rfl | ⟨b, above, begets⟩
      · rw [family.root_way]
        exact .root (member c listed) family.root_parent
      · have shorter : b.way.length < length := by
          rw [← hlength, begets.way, List.length_cons]
          omega
        have parent : (shown depth c).parent = some (shown depth b).id := begets.parent
        rw [begets.way, List.reverse_cons]
        exact .child (member c listed) parent (ih b.way.length shorter b above rfl)

theorem value_grow (r : Registry) (path function : String) (bound : Option Int) (root : Branch) :
    (grow r path function bound root).value =
      let grown := (lowerLevels r bound (r.callsByCaller.size + 1) [root] 1).value
      let nodes := withReverseLevels (root.node :: grown.branches.map Branch.node)
      ⟨nodes, grown.edges, grown.cut⟩ := by
  unfold grow
  rw [Report.value_bind]
  generalize (lowerLevels r bound _ _ _).value = grown
  dsimp only
  split <;> rfl

/-- The edges of a tree are those from parents to nodes. -/
theorem edges_grow (r : Registry) (path function : String) (bound : Option Int) {root : Branch}
    (parentless : root.node.parent = none) :
    (grow r path function bound root).value.edges =
      edgesOf (grow r path function bound root).value.nodes := by
  have joined := joined_lowerLevels (r := r) bound (r.callsByCaller.size + 1) [root] 1
  rw [value_grow]
  dsimp only
  rw [edgesOf_withReverseLevels, joined.edges_eq]
  unfold edgesOf
  rw [List.filterMap_cons, parentless]
  rfl

/-- A function whose name can be taken apart has a tree. -/
theorem value_ofFunction {path function name : String} {arity : Option Int} {f : FunctionEntry}
    (named : splitQualified function = .ok (name, arity))
    (found : r.function? path (qualify name arity) = some f) (bound : Option Int) :
    (CallTree.ofFunction r path function bound).value =
      .ok (grow r path function bound (Branch.root r path f)).value := by
  unfold CallTree.ofFunction
  rw [named]
  dsimp only
  rw [found]
  rfl

/-- The tree of a function without a bound shows a family. -/
theorem exists_family (consistent : r.Consistent) {path function name : String}
    {arity : Option Int} {f : FunctionEntry} (named : splitQualified function = .ok (name, arity))
    (found : r.function? path (qualify name arity) = some f) :
    ∃ (t : CallTree) (branches : List Branch) (depth : Int),
      (CallTree.ofFunction r path function none).value = .ok t ∧
      t.truncated = false ∧ t.nodes = branches.map (shown depth) ∧
      Family r (Branch.root r path f) branches := by
  obtain ⟨uncut, family⟩ := family_of_lowerLevels consistent path f
  have grown := value_ofFunction named found none
  rw [value_grow] at grown
  exact ⟨_, _, _, grown, uncut, withReverseLevels_map (Branch.root r path f :: _), family⟩

/-- **The nodes of a call tree are the call paths from its root.** Each node has one path by its
parents, every call path is the path of one node, a node is a cycle where its function stands on
its path before, and it counts the call sites and edges of its parent that reach it. -/
theorem ofFunction_ways {r : Registry} (reachable : r.Reachable) {path function name : String}
    {arity : Option Int} {f : FunctionEntry} (named : splitQualified function = .ok (name, arity))
    (found : r.function? path (qualify name arity) = some f) :
    ∃ t : CallTree, (CallTree.ofFunction r path function none).value = .ok t ∧
      t.truncated = false ∧ (t.nodes.map (·.id)).Nodup ∧
      (∀ n ∈ t.nodes, ∃! way, t.Trail n way) ∧
      (∀ n way, t.Trail n way → r.CallPath ⟨path, f.qualifiedName⟩ way) ∧
      (∀ way, r.CallPath ⟨path, f.qualifiedName⟩ way → ∃! n, t.Trail n way) ∧
      (∀ n way, t.Trail n way → (n.isCycle = true ↔ n.ref ∈ way.dropLast)) ∧
      ∀ n ∈ t.nodes, ∀ parent ∈ t.nodes, n.parent = some parent.id →
        n.callCount = some (Int.ofNat ((r.reached parent.ref).count n.ref)) := by
  obtain ⟨t, branches, depth, result, untruncated, nodes, family⟩ :=
    exists_family reachable.consistent named found
  have trail := family.trail_iff nodes
  refine ⟨t, result, untruncated, ?_, ?_, ?_, ?_, ?_, ?_⟩
  · rw [nodes, List.map_map]
    exact family.ids
  · intro n member
    rw [nodes] at member
    obtain ⟨b, listed, rfl⟩ := List.mem_map.1 member
    refine ⟨b.way.reverse, (trail _ _).2 ⟨b, listed, rfl, rfl⟩, ?_⟩
    intro way isTrail
    obtain ⟨c, listed', same, rfl⟩ := (trail _ _).1 isTrail
    have sameId : (shown depth b).id = (shown depth c).id := congrArg CallNode.id same
    rw [family.eq_of_id listed listed' sameId]
  · intro n way isTrail
    obtain ⟨b, listed, -, rfl⟩ := (trail _ _).1 isTrail
    exact (family.sound b listed).path
  · intro way isPath
    obtain ⟨b, listed, rfl⟩ := family.exists_of_callPath isPath
    refine ⟨shown depth b, (trail _ _).2 ⟨b, listed, rfl, rfl⟩, ?_⟩
    intro n isTrail
    obtain ⟨c, listed', rfl, same⟩ := (trail _ _).1 isTrail
    rw [family.eq_of_way listed listed' (List.reverse_injective same)]
  · intro n way isTrail
    obtain ⟨b, listed, rfl, rfl⟩ := (trail _ _).1 isTrail
    rw [List.dropLast_reverse, List.mem_reverse]
    have isCycle := (family.sound b listed).isCycle
    rw [show (shown depth b).isCycle = b.node.isCycle from rfl, isCycle, List.contains_iff_mem]
    rfl
  · intro n member parent memberParent isParent
    rw [nodes] at member memberParent
    obtain ⟨c, listed, rfl⟩ := List.mem_map.1 member
    obtain ⟨b, listed', rfl⟩ := List.mem_map.1 memberParent
    rcases family.origin c listed with rfl | ⟨b', above, begets⟩
    · rw [show (shown depth (Branch.root r path f)).parent = none from rfl] at isParent
      cases isParent
    · have same : b'.node.id = b.node.id := Option.some.inj (begets.parent.symm.trans isParent)
      rw [family.eq_of_id above listed' same] at begets
      exact begets.callCount

/-- The registry of one function that calls itself at two places. -/
def selfCalling : Registry :=
  let f : FunctionEntry := { owner := "/a.xqy", name := "f", arity := 0 }
  let c : CallEntry :=
    { owner := "/a.xqy", caller := "f#0", token := none, name := "f", arity := some 0 }
  ((({} : Registry).addFunction f).value.2.addCall c).addCall c

/-- The tree of a function that calls itself has one node below the root, which is a cycle. -/
theorem selfCalling_ways :
    ∃ t : CallTree, (CallTree.ofFunction selfCalling "/a.xqy" "f#0" none).value = .ok t ∧
      t.truncated = false ∧
      ∃! n, t.Trail n [⟨"/a.xqy", "f#0"⟩, ⟨"/a.xqy", "f#0"⟩] ∧ n.isCycle = true := by
  have reachable : selfCalling.Reachable :=
    .addCall _ (.addCall _ (.addFunction _ (.fresh {})))
  obtain ⟨t, result, untruncated, -, -, -, onto, cycles, -⟩ :=
    ofFunction_ways reachable (show splitQualified "f#0" = .ok ("f", some 0) by decide)
      (show selfCalling.function? "/a.xqy" (qualify "f" (some 0)) =
        some { owner := "/a.xqy", name := "f", arity := 0 } by decide)
  have path : selfCalling.CallPath ⟨"/a.xqy", "f#0"⟩ [⟨"/a.xqy", "f#0"⟩, ⟨"/a.xqy", "f#0"⟩] := by
    refine ⟨rfl, ?_, List.nodup_singleton _⟩
    exact .cons_cons (by decide) (List.isChain_singleton _)
  obtain ⟨n, trail, unique⟩ := onto _ path
  have ref : n.ref = ⟨"/a.xqy", "f#0"⟩ := Option.some.inj trail.getLast?.symm
  refine ⟨t, result, untruncated, n, ⟨trail, ?_⟩, fun m isTrail => unique m isTrail.1⟩
  rw [cycles n _ trail, ref]
  exact List.mem_cons_self

end CallTree
end CallAtlas
