import CallAtlas.Proofs.CallTree.Ways

/-!
# Growth by a queue

Growing a tree level by level is growing it by a queue: the first branch in the queue is taken, and
its children wait at the end (`QueueRun`). A level that stands first in the queue leaves the level
below it at the end (`QueueRun.level`), so the queue works off one level after the other.

The queue has no limit on the number of levels. It runs empty nevertheless, because ways without a
cycle have no more functions than there are callers (`Branch.Sound.length_le`). So the tree of a
function is what the only run of a queue grows from its root (`ofFunction_queueRun`), whatever bound
cuts it.
-/

namespace CallAtlas

namespace CallTree

variable {r : Registry} {bound : Option Int}

/-- What grows from a queue of branches in a tree that has `size` nodes. A bound that cuts the
children of a branch ends the run. -/
inductive QueueRun (r : Registry) (bound : Option Int) : List Branch → Nat → Grown → Prop
  | empty (size : Nat) : QueueRun r bound [] size {}
  | cycle {b : Branch} {queue : List Branch} {size : Nat} {grown : Grown}
    (isCycle : b.node.isCycle = true) (rest : QueueRun r bound queue size grown) :
    QueueRun r bound (b :: queue) size grown
  | full {b : Branch} {queue : List Branch} {size : Nat} (isOpen : b.node.isCycle = false)
    (cut : (b.offspring r bound size).cut = true) :
    QueueRun r bound (b :: queue) size (b.offspring r bound size)
  | visit {b : Branch} {queue : List Branch} {size : Nat} {grown : Grown}
    (isOpen : b.node.isCycle = false) (uncut : (b.offspring r bound size).cut = false)
    (rest : QueueRun r bound (queue ++ (b.offspring r bound size).branches)
      (size + (b.offspring r bound size).branches.length) grown) :
    QueueRun r bound (b :: queue) size (grown.after (b.offspring r bound size))

namespace QueueRun

/-- A queue has at most one run. -/
theorem unique {queue : List Branch} {size : Nat} {grown other : Grown}
    (run : QueueRun r bound queue size grown) (again : QueueRun r bound queue size other) :
    grown = other := by
  induction run generalizing other with
  | empty size =>
    cases again
    rfl
  | cycle isCycle _ ih =>
    cases again with
    | cycle _ rest => exact ih rest
    | full isOpen _ => exact nomatch isCycle.symm.trans isOpen
    | visit isOpen _ _ => exact nomatch isCycle.symm.trans isOpen
  | full isOpen cut =>
    cases again with
    | cycle isCycle _ => exact nomatch isCycle.symm.trans isOpen
    | full _ _ => rfl
    | visit _ uncut _ => exact nomatch cut.symm.trans uncut
  | visit isOpen uncut _ ih =>
    cases again with
    | cycle isCycle _ => exact nomatch isCycle.symm.trans isOpen
    | full _ cut => exact nomatch cut.symm.trans uncut
    | visit _ _ rest => rw [ih rest]

/-! ## Levels in the queue -/

/-- The children of a branch that is no cycle grow first; what grows after them is settled by the
rest of the queue, unless they are cut. -/
theorem open_andThen {b : Branch} (isOpen : b.node.isCycle = false) {queue : List Branch}
    {size : Nat} {grown : Grown}
    (rest : (b.offspring r bound size).cut = false →
      QueueRun r bound (queue ++ (b.offspring r bound size).branches)
        (size + (b.offspring r bound size).branches.length) grown) :
    QueueRun r bound (b :: queue) size ((b.offspring r bound size).andThen grown) := by
  cases own : (b.offspring r bound size).cut with
  | true =>
    rw [Grown.andThen_of_cut own]
    exact .full isOpen own
  | false =>
    rw [Grown.andThen_of_uncut own]
    exact .visit isOpen own (rest own)

/-- A level that stands first in the queue is worked off, and unless the level below it is cut, that
one waits at the end. -/
theorem level {level queue : List Branch} {size : Nat} {grown : Grown}
    (rest : (nextLevel r bound level size).value.cut = false →
      QueueRun r bound (queue ++ (nextLevel r bound level size).value.branches)
        (size + (nextLevel r bound level size).value.branches.length) grown) :
    QueueRun r bound (level ++ queue) size
      ((nextLevel r bound level size).value.andThen grown) := by
  induction level generalizing queue size with
  | nil =>
    have run := rest rfl
    rwa [show (nextLevel r bound [] size).value = {} from rfl, List.append_nil] at run
  | cons b bs ih =>
    rw [value_nextLevel_cons] at rest ⊢
    rw [List.cons_append]
    cases isCycle : b.node.isCycle with
    | true =>
      rw [isCycle, if_pos rfl] at rest
      exact .cycle isCycle (ih rest)
    | false =>
      rw [isCycle, if_neg Bool.false_ne_true] at rest
      rw [if_neg Bool.false_ne_true, Grown.andThen_assoc]
      refine open_andThen isCycle ?_
      intro own
      -- What stood behind the level stands now before the children of its first branch.
      rw [List.append_assoc]
      refine ih ?_
      intro uncut
      rw [Grown.andThen_of_uncut own] at rest
      have run := rest uncut
      rw [List.append_assoc, Nat.add_assoc, ← List.length_append]
      exact run

/-! ## The end of the queue -/

/-- Branches from which no way goes on leave the queue empty. -/
theorem of_barren (consistent : r.Consistent) {queue : List Branch}
    (barren : ∀ b ∈ queue, b.waysOn r = []) (size : Nat) : QueueRun r bound queue size {} := by
  induction queue with
  | nil => exact .empty size
  | cons b bs ih =>
    have rest := ih fun c member => barren c (List.mem_cons_of_mem _ member)
    cases isCycle : b.node.isCycle with
    | true => exact .cycle isCycle rest
    | false =>
      have childless : b.offspring r bound size = {} := by
        have ways := barren b List.mem_cons_self
        unfold Branch.waysOn at ways
        rw [isCycle, if_neg Bool.false_ne_true, List.map_eq_nil_iff] at ways
        unfold Branch.offspring
        rw [value_targets consistent, List.map_eq_nil_iff.1 ways]
        rfl
      have run : QueueRun r bound (b :: bs) size ((b.offspring r bound size).andThen {}) := by
        refine open_andThen isCycle ?_
        intro _
        rwa [childless, List.append_nil]
      rwa [childless] at run

end QueueRun

/-- The levels below a level are what grows from it as a queue, if they do not run out before the
ways do: the levels still allowed and the length of the ways so far exceed the number of callers
together. -/
theorem queueRun_lowerLevels (consistent : r.Consistent) {root : FunctionRef}
    {levels depth size : Nat} {level : List Branch} (sound : ∀ b ∈ level, b.Sound r root)
    (depths : ∀ b ∈ level, b.way.length = depth)
    (enough : r.callsByCaller.size < depth + levels) :
    QueueRun r bound level size (lowerLevels r bound levels level size).value := by
  induction levels generalizing depth size level with
  | zero =>
    refine .of_barren consistent ?_ size
    intro b member
    rw [List.eq_nil_iff_forall_not_mem]
    intro way goesOn
    have short := (sound b member).length_le consistent goesOn
    rw [depths b member] at short
    omega
  | succ levels ih =>
    have below := nextLevel_offspring consistent bound level size
    have sounds : ∀ c ∈ (nextLevel r bound level size).value.branches, c.Sound r root := by
      intro c member
      obtain ⟨b, above, begets⟩ := below.begotten c member
      exact begets.sound consistent (sound b above)
    have deeper : ∀ c ∈ (nextLevel r bound level size).value.branches,
        c.way.length = depth + 1 := by
      intro c member
      obtain ⟨b, above, begets⟩ := below.begotten c member
      rw [begets.way, List.length_cons, depths b above]
    have run : QueueRun r bound (level ++ []) size
        (lowerLevels r bound (levels + 1) level size).value := by
      rw [value_lowerLevels_succ]
      refine .level fun _ => ?_
      rw [List.nil_append]
      exact ih sounds deeper (by omega)
    rwa [List.append_nil] at run

/-- The tree of a root and what grows from it. -/
def ofGrown (root : CallNode) (grown : Grown) : CallTree :=
  let nodes := withReverseLevels (root :: grown.branches.map Branch.node)
  ⟨nodes, grown.edges, grown.cut⟩

/-- **The tree of a function is what a queue grows from its root.** The queue has one run, which
ends, and the tree shows what it grows. -/
theorem ofFunction_queueRun {r : Registry} (reachable : r.Reachable) {path function name : String}
    {arity : Option Int} {f : FunctionEntry} (named : splitQualified function = .ok (name, arity))
    (found : r.function? path (qualify name arity) = some f) (bound : Option Int) :
    ∃ grown, (∀ other, QueueRun r bound [Branch.root r path f] 1 other ↔ other = grown) ∧
      (CallTree.ofFunction r path function bound).value =
        .ok (ofGrown (Branch.root r path f).node grown) := by
  have sound : ∀ b ∈ [Branch.root r path f], b.Sound r ⟨path, f.qualifiedName⟩ := by
    intro b member
    rw [List.mem_singleton.1 member]
    exact Branch.sound_root r path f
  have depths : ∀ b ∈ [Branch.root r path f], b.way.length = 1 := by
    intro b member
    rw [List.mem_singleton.1 member]
    rfl
  have run : QueueRun r bound [Branch.root r path f] 1
      (lowerLevels r bound (r.callsByCaller.size + 1) [Branch.root r path f] 1).value :=
    queueRun_lowerLevels reachable.consistent sound depths (by omega)
  refine ⟨(lowerLevels r bound (r.callsByCaller.size + 1) [Branch.root r path f] 1).value, ?_, ?_⟩
  · intro other
    constructor
    · exact fun again => again.unique run
    · rintro rfl
      exact run
  · rw [value_ofFunction named found, value_grow]
    rfl

end CallTree
end CallAtlas
