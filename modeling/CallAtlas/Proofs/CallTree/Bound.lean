import CallAtlas.Proofs.CallTree.BreadthFirst

/-!
# Bounded call trees

A bound stops the growth of a call tree at the first node that it has no room for. `Grown.within`
is what room for some nodes leaves of what grows without a bound: the first branches, and the mark
of a cut if there are more. Each loop of the growth keeps to it, from the children of one branch
(`children_within`) over a level (`nextLevel_within`) to all levels (`lowerLevels_within`); what
joins them is that what is grown first takes its room first (`Grown.andThen_within`).

So a bounded tree is the beginning of the tree without a bound (`ofFunction_bounded`). Only the
distances from the deepest level differ, since that level may be cut off.
-/

namespace CallAtlas

namespace CallTree

variable {r : Registry}

/-! ## Room -/

/-- How many more nodes a bound allows in a tree that has `size` nodes. -/
def room (bound : Int) (size : Nat) : Nat :=
  (bound - size).toNat

theorem isFull_iff (bound : Int) (size : Nat) :
    isFull (some bound) size = true ↔ room bound size = 0 := by
  unfold isFull room
  rw [Option.any_some, decide_eq_true_eq, Int.ofNat_eq_natCast]
  omega

theorem room_add (bound : Int) (size count : Nat) :
    room bound (size + count) = room bound size - count := by
  unfold room
  omega

/-- What room for some branches leaves of grown branches and their edges. -/
def Grown.within (room : Nat) (g : Grown) : Grown :=
  if room < g.branches.length then ⟨g.branches.take room, g.edges.take room, true⟩ else g

theorem Grown.within_of_lt {room : Nat} {g : Grown} (more : room < g.branches.length) :
    g.within room = ⟨g.branches.take room, g.edges.take room, true⟩ :=
  if_pos more

theorem Grown.within_of_le {room : Nat} {g : Grown} (enough : g.branches.length ≤ room) :
    g.within room = g :=
  if_neg (Nat.not_lt.2 enough)

theorem Grown.branches_within (room : Nat) (g : Grown) :
    (g.within room).branches = g.branches.take room := by
  by_cases more : room < g.branches.length
  · rw [within_of_lt more]
  · rw [within_of_le (Nat.not_lt.1 more), List.take_of_length_le (Nat.not_lt.1 more)]

theorem Grown.edges_within_prefix (room : Nat) (g : Grown) : (g.within room).edges <+: g.edges := by
  unfold within
  split
  next => exact List.take_prefix room g.edges
  next => exact List.prefix_refl g.edges

theorem Grown.cut_within (room : Nat) {g : Grown} (uncut : g.cut = false) :
    (g.within room).cut = true ↔ room < g.branches.length := by
  by_cases more : room < g.branches.length
  · rw [within_of_lt more]
    exact iff_of_true rfl more
  · rw [within_of_le (Nat.not_lt.1 more), uncut]
    exact iff_of_false Bool.false_ne_true more

/-- What is grown before something else takes its room first. -/
theorem Grown.within_after (room : Nat) {first : Grown} (joined : first.Joined) (g : Grown) :
    (g.after first).within room =
      if room < first.branches.length then
        ⟨first.branches.take room, first.edges.take room, true⟩
      else (g.within (room - first.branches.length)).after first := by
  have even := joined.length_edges
  by_cases short : room < first.branches.length
  · have more : room < (g.after first).branches.length := by
      simp only [Grown.after, List.length_append]
      omega
    have shortEdges : room ≤ first.edges.length := by omega
    rw [if_pos short, within_of_lt more]
    simp only [Grown.after, List.take_append_of_le_length short.le,
      List.take_append_of_le_length shortEdges]
  · rw [if_neg short]
    by_cases more : room - first.branches.length < g.branches.length
    · have whole : room < (g.after first).branches.length := by
        simp only [Grown.after, List.length_append]
        omega
      have enough : first.edges.length ≤ room := by omega
      rw [within_of_lt whole, within_of_lt more]
      simp only [Grown.after, List.take_append, List.take_of_length_le (Nat.not_lt.1 short),
        List.take_of_length_le enough, even]
    · have whole : (g.after first).branches.length ≤ room := by
        simp only [Grown.after, List.length_append]
        omega
      rw [within_of_le whole, within_of_le (Nat.not_lt.1 more)]

/-- What is grown first takes its room first; what is grown after it matters where that fits. -/
theorem Grown.andThen_within {room : Nat} {g rest bounded : Grown} (joined : g.Joined)
    (uncut : g.cut = false)
    (follows : g.branches.length ≤ room → bounded = rest.within (room - g.branches.length)) :
    (g.within room).andThen bounded = (g.andThen rest).within room := by
  rw [andThen_of_uncut uncut, within_after room joined]
  by_cases short : room < g.branches.length
  · rw [if_pos short, within_of_lt short]
    exact andThen_of_cut rfl bounded
  · have fits := Nat.not_lt.1 short
    rw [if_neg short, within_of_le fits, andThen_of_uncut uncut, follows fits]

theorem Grown.cut_andThen {g rest : Grown} (uncut : g.cut = false) (later : rest.cut = false) :
    (g.andThen rest).cut = false := by
  rw [andThen_of_uncut uncut]
  exact later

/-! ## Bounded growth -/

/-- The children under a bound are those without one, as far as there is room. -/
theorem children_within (bound : Int) (b : Branch) (size : Nat) (hits : List (FunctionRef × Nat)) :
    b.children r (some bound) size hits =
      (b.children r none size hits).within (room bound size) := by
  induction hits generalizing size with
  | nil => exact (Grown.within_of_le (Nat.zero_le _)).symm
  | cons hit hits ih =>
    obtain ⟨target, count⟩ := hit
    have one : (Grown.ofChild b (b.child r (size + 1) target count)).branches.length = 1 := rfl
    rw [children_none_cons, Grown.within_after _ (joined_ofChild b (size + 1) target count), one,
      Branch.children]
    by_cases full : isFull (some bound) size = true
    · have no := (isFull_iff bound size).1 full
      rw [if_pos full, no, if_pos Nat.zero_lt_one]
      rfl
    · have some' : ¬ room bound size < 1 := by
        rw [isFull_iff] at full
        omega
      rw [if_neg full, if_neg some', ih, room_add]

/-- Without a bound, nothing is cut off the children of a branch. -/
theorem cut_offspring_none (b : Branch) (size : Nat) : (b.offspring r none size).cut = false :=
  (children_none b size _).1

/-- Without a bound, nothing is cut off a level. -/
theorem cut_nextLevel_none (level : List Branch) (size : Nat) :
    (nextLevel r none level size).value.cut = false := by
  induction level generalizing size with
  | nil => rfl
  | cons b bs ih =>
    rw [value_nextLevel_cons]
    split
    next => exact ih size
    next => exact Grown.cut_andThen (cut_offspring_none b size) (ih _)

theorem cut_lowerLevels_none (levels : Nat) (level : List Branch) (size : Nat) :
    (lowerLevels r none levels level size).value.cut = false := by
  induction levels generalizing level size with
  | zero => rfl
  | succ levels ih =>
    rw [value_lowerLevels_succ]
    exact Grown.cut_andThen (cut_nextLevel_none level size) (ih _ _)

/-- A level under a bound is the one without a bound, as far as there is room. -/
theorem nextLevel_within (bound : Int) (level : List Branch) (size : Nat) :
    (nextLevel r (some bound) level size).value =
      (nextLevel r none level size).value.within (room bound size) := by
  induction level generalizing size with
  | nil => exact (Grown.within_of_le (Nat.zero_le _)).symm
  | cons b bs ih =>
    have own : b.offspring r (some bound) size =
        (b.offspring r none size).within (room bound size) := children_within bound b size _
    rw [value_nextLevel_cons, value_nextLevel_cons, own]
    split
    next => exact ih size
    next =>
      refine Grown.andThen_within (joined_children none b size _) (cut_offspring_none b size) ?_
      intro fits
      rw [Grown.within_of_le fits, ih, room_add]

/-- All levels under a bound are those without one, as far as there is room. -/
theorem lowerLevels_within (bound : Int) (levels : Nat) (level : List Branch) (size : Nat) :
    (lowerLevels r (some bound) levels level size).value =
      (lowerLevels r none levels level size).value.within (room bound size) := by
  induction levels generalizing level size with
  | zero => exact (Grown.within_of_le (Nat.zero_le _)).symm
  | succ levels ih =>
    rw [value_lowerLevels_succ, value_lowerLevels_succ, nextLevel_within]
    refine Grown.andThen_within (joined_nextLevel none level size)
      (cut_nextLevel_none level size) ?_
    intro fits
    rw [Grown.within_of_le fits, ih, room_add]

/-! ## Bounded trees -/

theorem map_atDistance_withReverseLevels (nodes : List CallNode) (distance : Int) :
    (withReverseLevels nodes).map (·.atDistance distance) =
      nodes.map (·.atDistance distance) := by
  unfold withReverseLevels
  rw [List.map_map]
  rfl

theorem IsBreadthFirst.length_edges {t : CallTree} (ordered : t.IsBreadthFirst) :
    t.edges.length + 1 = t.nodes.length := by
  obtain ⟨root, first, -⟩ := ordered.root
  have edges := congrArg List.length ordered.edges
  rw [List.length_map, List.length_map, List.length_tail] at edges
  have some' : 0 < t.nodes.length := List.length_pos_of_mem (List.mem_of_mem_head? first)
  omega

/-- **A bounded tree is the beginning of the tree without a bound.** It has as many nodes as the
bound allows, but the root in any case; its nodes and edges are the first ones, the distances from
the deepest level aside; and it says that it was cut if there are more. -/
theorem ofFunction_bounded (r : Registry) {path function name : String} {arity : Option Int}
    {f : FunctionEntry} (named : splitQualified function = .ok (name, arity))
    (found : r.function? path (qualify name arity) = some f) (bound : Int) :
    ∃ whole bounded : CallTree, (CallTree.ofFunction r path function none).value = .ok whole ∧
      (CallTree.ofFunction r path function (some bound)).value = .ok bounded ∧
      (bounded.nodes.length : Int) = min (whole.nodes.length : Int) (max bound 1) ∧
      bounded.nodes.map (·.atDistance 0) <+: whole.nodes.map (·.atDistance 0) ∧
      bounded.edges.length + 1 = bounded.nodes.length ∧ bounded.edges <+: whole.edges ∧
      (bounded.truncated = true ↔ max bound 1 < whole.nodes.length) := by
  refine ⟨_, _, value_ofFunction named found none, value_ofFunction named found (some bound), ?_⟩
  have edges := (isBreadthFirst_grow r path function (some bound) f).length_edges
  have uncut := cut_lowerLevels_none (r := r) (r.callsByCaller.size + 1) [Branch.root r path f] 1
  rw [value_grow, lowerLevels_within] at edges ⊢
  rw [value_grow]
  generalize (lowerLevels r none _ _ _).value = grown at edges uncut
  dsimp only at edges ⊢
  have first : (Branch.root r path f).node ::
      (grown.within (room bound 1)).branches.map Branch.node <+:
        (Branch.root r path f).node :: grown.branches.map Branch.node := by
    rw [Grown.branches_within]
    exact (List.prefix_cons_inj _).2 ((List.take_prefix _ _).map _)
  refine ⟨?_, ?_, edges, ?_, ?_⟩
  · simp only [withReverseLevels, List.length_map, List.length_cons, Grown.branches_within,
      List.length_take, room]
    omega
  · rw [map_atDistance_withReverseLevels, map_atDistance_withReverseLevels]
    exact first.map _
  · exact grown.edges_within_prefix _
  · rw [Grown.cut_within _ uncut]
    simp only [withReverseLevels, List.length_map, List.length_cons, room]
    omega

/-- A bound of four cuts one of five nodes. -/
theorem branching_bounded :
    ∃ whole bounded : CallTree,
      (CallTree.ofFunction branching "/a.xqy" "f#0" none).value = .ok whole ∧
      (CallTree.ofFunction branching "/a.xqy" "f#0" (some 4)).value = .ok bounded ∧
      whole.nodes.length = 5 ∧ bounded.nodes.length = 4 ∧ bounded.truncated = true ∧
      bounded.edges <+: whole.edges := by
  obtain ⟨whole, bounded, built, cut, count, -, -, edges, truncated⟩ := ofFunction_bounded branching
    (show splitQualified "f#0" = .ok ("f", some 0) by decide)
    (show branching.function? "/a.xqy" (qualify "f" (some 0)) =
      some { owner := "/a.xqy", name := "f", arity := 0 } by decide) 4
  have five : (CallTree.ofFunction branching "/a.xqy" "f#0" none).value.map
      (fun t => t.nodes.length) = .ok 5 := by rfl
  rw [built] at five
  have size : whole.nodes.length = 5 := Except.ok.inj five
  refine ⟨whole, bounded, built, cut, size, ?_, ?_, edges⟩
  · omega
  · rw [truncated]
    omega

end CallTree
end CallAtlas
