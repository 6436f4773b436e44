import CallAtlas.Proofs.CallTree.Ways
import CallAtlas.Proofs.QualifiedName

/-!
# Asking for call trees

A user asks for a call tree by a path and a text. The text names at most one function of the module
(`Registry.Consistent.function?_split_iff`), and the answer is the tree of that function, or that
there is none and which there are. `ofFunction_answers` says so, and when the question itself cannot
be read: the digits after the number sign have to be those of an arity (`IsLegible`).
-/

namespace CallAtlas

/-- Taking a text apart and looking the parts up finds the functions that have them. -/
theorem Registry.Consistent.function?_split_iff {r : Registry} (consistent : r.Consistent)
    {path text name : String} {arity : Option Int} (split : splitQualified text = .ok (name, arity))
    {f : FunctionEntry} :
    r.function? path (qualify name arity) = some f ↔
      f ∈ r.functionsOf path ∧ f.name = name ∧ some f.arity = arity := by
  rw [consistent.mem_functionsOf_iff]
  constructor
  · intro found
    obtain ⟨held, -⟩ := consistent.held path _ (Table.mem_entries_of_get? found)
    dsimp only at held
    rw [held] at found
    refine ⟨found, ?_⟩
    cases arity with
    | some a =>
      obtain ⟨name, arity⟩ := qualify_injective held
      exact ⟨name.symm, congrArg some arity.symm⟩
    | none =>
      -- Without an arity the text names no function: every qualified name has a number sign.
      have absent := number_sign_not_mem_of_splitQualified split
      have name : name = f.name ++ "#" ++ toString f.arity := held
      simp [name] at absent
  · rintro ⟨found, rfl, rfl⟩
    exact found

namespace CallTree

variable {r : Registry}

theorem root?_grow (path text : String) (bound : Option Int) (f : FunctionEntry) :
    ∃ root, (grow r path text bound (Branch.root r path f)).value.root? = some root ∧
      root.ref = ⟨path, f.qualifiedName⟩ := by
  rw [value_grow]
  exact ⟨_, rfl, rfl⟩

theorem value_ofFunction_of_absent {path text name : String} {arity : Option Int}
    (split : splitQualified text = .ok (name, arity))
    (absent : r.function? path (qualify name arity) = none) (bound : Option Int) :
    (CallTree.ofFunction r path text bound).value = .error (.analysis
      (.functionAbsent path text ((r.functionsOf path).map FunctionEntry.qualifiedName))) := by
  unfold CallTree.ofFunction
  rw [split]
  dsimp only
  rw [absent]
  rfl

theorem value_ofFunction_of_unread {text : String} {e : NumeralError}
    (unread : splitQualified text = .error e) (path : String) (bound : Option Int) :
    (CallTree.ofFunction r path text bound).value = .error (.numeral e) := by
  unfold CallTree.ofFunction
  rw [unread]
  rfl

/-- **A question that can be read is answered.** Where the digits of a text are those of an arity,
either one function of the module is named by the text, and the answer is a tree with that function
at its root, or none is, and the answer lists the qualified names of the functions of the module.
Any other question fails on its numeral. -/
theorem ofFunction_answers (reachable : r.Reachable) (path text : String) (bound : Option Int) :
    (IsLegible (arityText text) ∧
      ((∃ f, (∀ g, g ∈ r.functionsOf path ∧ Names g.name g.arity text.toList ↔ g = f) ∧
        ∃ tree root, (CallTree.ofFunction r path text bound).value = .ok tree ∧
          tree.root? = some root ∧ root.ref = ⟨path, f.qualifiedName⟩) ∨
      (∀ f ∈ r.functionsOf path, ¬Names f.name f.arity text.toList) ∧
        (CallTree.ofFunction r path text bound).value = .error (.analysis
          (.functionAbsent path text ((r.functionsOf path).map FunctionEntry.qualifiedName))))) ∨
    ¬IsLegible (arityText text) ∧
      ∃ e, (CallTree.ofFunction r path text bound).value = .error (.numeral e) := by
  by_cases legible : IsLegible (arityText text)
  case pos =>
    obtain ⟨name, arity, split⟩ := exists_splitQualified_iff.2 legible
    have named : ∀ g : FunctionEntry, Names g.name g.arity text.toList ↔
        g.name = name ∧ some g.arity = arity := by
      intro g
      rw [← splitQualified_eq_some_iff legible, split, Except.ok.injEq, Prod.mk.injEq]
      exact and_congr eq_comm eq_comm
    have lookup : ∀ g, r.function? path (qualify name arity) = some g ↔
        g ∈ r.functionsOf path ∧ g.name = name ∧ some g.arity = arity := fun g =>
      reachable.consistent.function?_split_iff split
    refine Or.inl ⟨legible, ?_⟩
    cases found : r.function? path (qualify name arity) with
    | some f =>
      obtain ⟨root, isRoot, ref⟩ := root?_grow (r := r) path text bound f
      refine Or.inl ⟨f, fun g => ?_, _, root, value_ofFunction split found bound, isRoot, ref⟩
      rw [named, ← lookup, found, Option.some.injEq]
      exact eq_comm
    | none =>
      refine Or.inr ⟨fun g member isNamed => ?_, value_ofFunction_of_absent split found bound⟩
      have present := (lookup g).2 ⟨member, (named g).1 isNamed⟩
      rw [found] at present
      cases present
  case neg =>
    refine Or.inr ⟨legible, ?_⟩
    cases split : splitQualified text with
    | ok result => exact (legible (exists_splitQualified_iff.1 ⟨_, _, split⟩)).elim
    | error e => exact ⟨e, value_ofFunction_of_unread split path bound⟩

/-- A qualifier and zeros in front of the arity do not matter to which function is asked for. -/
theorem selfCalling_answers :
    selfCalling.Reachable ∧ ∃ tree root,
      (CallTree.ofFunction selfCalling "/a.xqy" "p:f#00" (some 1)).value = .ok tree ∧
        tree.root? = some root ∧ root.ref = ⟨"/a.xqy", "f#0"⟩ := by
  have reachable : selfCalling.Reachable :=
    .addCall _ (.addCall _ (.addFunction _ (.fresh {})))
  have functions : selfCalling.functionsOf "/a.xqy" =
      [{ owner := "/a.xqy", name := "f", arity := 0 }] := by decide
  have writes : Numeral.Writes ['0', '0'] 0 := ⟨by simp, List.all_eq_true.1 (by decide), rfl⟩
  have isNamed : Names "f" 0 "p:f#00".toList :=
    @Names.qualified _ _ ['p'] _ (by decide) (by decide) writes
  refine ⟨reachable, ?_⟩
  rcases ofFunction_answers reachable "/a.xqy" "p:f#00" (some 1) with
    ⟨-, ⟨f, only, tree, root, result, isRoot, ref⟩ | ⟨none, -⟩⟩ | ⟨illegible, -⟩
  · obtain rfl := (only _).1 ⟨functions ▸ List.mem_cons_self, isNamed⟩
    exact ⟨tree, root, result, isRoot, ref⟩
  · exact (none _ (functions ▸ List.mem_cons_self) isNamed).elim
  · exact absurd (by decide) illegible

/-- A superscript is a digit but no number, so the question by it fails instead of being answered
by the functions that there are. -/
theorem selfCalling_superscript :
    (CallTree.ofFunction selfCalling "/a.xqy" "f#²" none).value =
      .error (.numeral (.malformed ['²'])) :=
  value_ofFunction_of_unread (by decide) "/a.xqy" none

end CallTree
end CallAtlas
