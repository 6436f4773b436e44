import CallAtlas.Proofs.Registry.Additions
import CallAtlas.Proofs.Registry.Edges

/-!
# Overloads

The functions of a module that share a name are its overloads. A call whose arity is known means the
one of that arity, and a call without an arity means all of them. `ofAdditions_edges` says which
edges a call has after any additions, in terms of the additions and of the module that its token
leads to.

The functions of a module stand in the order of their registration (`functionsOf_ofAdditions`), and
a qualified name is registered once, so different overloads have different labels.
-/

namespace CallAtlas

/-- The functions that additions register in a module: of those with the same qualified name, the
first one. -/
def Addition.registered (additions : List Addition) (path : String) : List FunctionEntry :=
  ((additions.filterMap Addition.function?).filter (·.owner = path)).eraseDupsBy
    fun f g => f.qualifiedName == g.qualifiedName

namespace Registry

variable (r : Registry)

/-! ## The order of registration -/

/-- An added function stands at the end of its module, unless its reference is taken. -/
theorem functionsOf_add (a : Addition) (path : String) :
    (r.add a).functionsOf path = r.functionsOf path ++ (a.function?.filter fun f =>
      f.owner = path ∧ r.function? path f.qualifiedName = none).toList := by
  cases a with
  | ofModule m =>
    rw [add, value_addModule]
    exact (List.append_nil _).symm
  | ofImport i => exact (List.append_nil _).symm
  | ofCall c => exact (List.append_nil _).symm
  | ofFunction f =>
    have taken : r.function? f.owner f.qualifiedName = none ↔
        f.qualifiedName ∉ (r.functionTable f.owner).keys := Table.get?_eq_none_iff _ _
    rw [add, Addition.function?, Option.filter_some]
    by_cases held : f.qualifiedName ∈ (r.functionTable f.owner).keys
    · have refused : ¬ (f.owner = path ∧ r.function? path f.qualifiedName = none) := by
        rintro ⟨rfl, fresh⟩
        exact taken.1 fresh held
      rw [value_addFunction_of_held held, decide_eq_false refused]
      exact (List.append_nil _).symm
    · rw [functionsOf_addFunction held]
      by_cases own : f.owner = path
      · subst own
        rw [if_pos rfl, decide_eq_true ⟨rfl, taken.2 held⟩]
        rfl
      · rw [if_neg (Ne.symm own), decide_eq_false fun both => own both.1]
        exact (List.append_nil _).symm

/-- After an addition, a reference is free if it was and was not what was added. -/
theorem function?_add_eq_none_iff (a : Addition) (path qualified : String) :
    (r.add a).function? path qualified = none ↔ r.function? path qualified = none ∧
      ∀ f ∈ a.function?, f.owner = path → f.qualifiedName ≠ qualified := by
  rw [function?_add, Option.or_eq_none_iff, Option.filter_eq_none_iff]
  simp only [decide_eq_true_eq, not_and, ne_eq]
  rfl

/-- What additions add to the functions of a module, where the registry has some already. -/
theorem functionsOf_foldl_add (additions : List Addition) (path : String) :
    (additions.foldl add r).functionsOf path = r.functionsOf path ++
      ((additions.filterMap Addition.function?).filter fun f =>
        f.owner = path ∧ r.function? path f.qualifiedName = none).eraseDupsBy
          fun f g => f.qualifiedName == g.qualifiedName := by
  induction additions generalizing r with
  | nil => exact (List.append_nil _).symm
  | cons a additions ih =>
    rw [List.foldl_cons, ih, functionsOf_add, List.append_assoc]
    congr 1
    cases added : a.function? with
    | none =>
      have free : ∀ qualified, (r.add a).function? path qualified = none ↔
          r.function? path qualified = none := by
        intro qualified
        rw [function?_add_eq_none_iff, added]
        exact and_iff_left fun f none => nomatch none
      rw [List.filterMap_cons_none added]
      simp only [free, Option.filter_none, Option.toList_none, List.nil_append]
    | some f =>
      have free : ∀ qualified, (r.add a).function? path qualified = none ↔
          r.function? path qualified = none ∧ (f.owner = path → f.qualifiedName ≠ qualified) := by
        intro qualified
        rw [function?_add_eq_none_iff, added]
        simp only [Option.mem_some_iff, forall_eq']
      rw [List.filterMap_cons_some added, Option.filter_some, List.filter_cons]
      by_cases fresh : f.owner = path ∧ r.function? path f.qualifiedName = none
      · rw [decide_eq_true fresh, if_pos rfl, if_pos rfl, List.eraseDupsBy_cons, List.filter_filter]
        refine congrArg (fun gs => f :: List.eraseDupsBy _ gs) (List.filter_congr ?_)
        intro g _
        simp only [free, fresh.1, true_implies]
        grind
      · rw [decide_eq_false fresh, if_neg Bool.false_ne_true, if_neg Bool.false_ne_true,
          Option.toList_none, List.nil_append]
        refine congrArg _ (List.filter_congr ?_)
        intro g _
        rw [decide_eq_decide, free]
        grind

/-- The functions of a module stand in the order of their registration. -/
theorem functionsOf_ofAdditions (scheme : VendorScheme) (additions : List Addition)
    (path : String) :
    (ofAdditions scheme additions).functionsOf path = Addition.registered additions path := by
  have added := functionsOf_foldl_add { scheme := scheme } additions path
  have nothing : ∀ qualified,
      ({ scheme := scheme } : Registry).function? path qualified = none := fun _ => rfl
  simp only [nothing, and_true] at added
  exact added

/-! ## Edges of a call -/

/-- Every call has an edge into the module that its token leads to. -/
theorem edgesInto_ne_nil (path : String) (c : CallEntry) : r.edgesInto path c ≠ [] := by
  unfold edgesInto
  split
  next => exact List.cons_ne_nil _ _
  next some' => exact fun none => some' (List.map_eq_nil_iff.1 none)

/-- A call has no edge exactly if its token leads nowhere. -/
theorem value_resolve_eq_nil_iff (c : CallEntry) : (r.resolve c).value = [] ↔
    ∃ cause, (r.resolveModule c.owner c.token).value = .error cause := by
  rw [value_resolve]
  cases (r.resolveModule c.owner c.token).value with
  | ok path => exact iff_of_false (r.edgesInto_ne_nil path c) fun ⟨cause, led⟩ => nomatch led
  | error cause => exact iff_of_true rfl ⟨cause, rfl⟩

/-- A call without an arity has an edge for each overload, or one for the name alone. -/
theorem edgesInto_of_no_arity {c : CallEntry} (unknown : c.arity = none) (path : String) :
    r.edgesInto path c =
      if r.functionsNamed path c.name = [] then [⟨c.callerRef, ⟨path, c.name⟩, none⟩]
      else (r.functionsNamed path c.name).map fun f =>
        ⟨c.callerRef, ⟨path, f.qualifiedName⟩, none⟩ := by
  have candidates : r.candidates path c = r.functionsNamed path c.name := by
    unfold Registry.candidates
    rw [unknown]
  have called : c.called = c.name := by
    unfold CallEntry.called
    rw [unknown]
    rfl
  unfold edgesInto
  rw [candidates, unknown, called]
  cases r.functionsNamed path c.name with
  | nil => rfl
  | cons f fs => rfl

/-- Overloads have different qualified names. -/
theorem Consistent.nodup_functionsNamed {r : Registry} (consistent : r.Consistent)
    (path name : String) :
    ((r.functionsNamed path name).map FunctionEntry.qualifiedName).Nodup := by
  have names := consistent.nodup path
  rw [← consistent.map_qualifiedName_functionsOf] at names
  rw [consistent.functionsNamed_eq]
  exact names.sublist (List.filter_sublist.map _)

/-- **The edges of a call after any additions.** A call whose token leads nowhere has none. A call
with an arity has one edge, to the function of that name and arity, whether or not there is one. A
call without an arity has one edge for each overload, in the order of their registration, or one to
the name alone. -/
theorem ofAdditions_edges (scheme : VendorScheme) (additions : List Addition) (c : CallEntry) :
    let r := ofAdditions scheme additions
    ((r.resolve c).value = [] ↔
        ∃ cause, (r.resolveModule c.owner c.token).value = .error cause) ∧
      ∀ path, (r.resolveModule c.owner c.token).value = .ok path →
        let overloads := (Addition.registered additions path).filter (·.name = c.name)
        (∀ arity, c.arity = some arity → (r.resolve c).value =
          [⟨⟨c.owner, c.caller⟩, ⟨path, c.name ++ "#" ++ toString arity⟩, some arity⟩]) ∧
        (c.arity = none → (r.resolve c).value =
          if overloads = [] then [⟨⟨c.owner, c.caller⟩, ⟨path, c.name⟩, none⟩]
          else overloads.map fun f => ⟨⟨c.owner, c.caller⟩, ⟨path, f.qualifiedName⟩, none⟩) ∧
        ((r.resolve c).value.map fun e => e.target.function).Nodup := by
  intro r
  have consistent : r.Consistent := (reachable_ofAdditions scheme additions).consistent
  refine ⟨r.value_resolve_eq_nil_iff c, ?_⟩
  intro path led overloads
  have named : r.functionsNamed path c.name = overloads := by
    rw [consistent.functionsNamed_eq, functionsOf_ofAdditions]
  have edges : (r.resolve c).value = r.edgesInto path c := by
    rw [value_resolve, led]
  cases hasArity : c.arity with
  | some arity =>
    have one : (r.resolve c).value =
        [⟨⟨c.owner, c.caller⟩, ⟨path, c.name ++ "#" ++ toString arity⟩, some arity⟩] := by
      rw [edges, consistent.edgesInto_of_arity hasArity]
      unfold CallEntry.called CallEntry.callerRef
      rw [hasArity]
      rfl
    refine ⟨?_, fun unknown => (nomatch unknown), ?_⟩
    · intro arity' same
      cases same
      exact one
    · rw [one]
      exact List.nodup_singleton _
  | none =>
    have each := r.edgesInto_of_no_arity hasArity path
    rw [named] at each
    refine ⟨fun arity known => (nomatch known), fun _ => edges.trans each, ?_⟩
    rw [edges, each]
    split
    next => exact List.nodup_singleton _
    next =>
      rw [List.map_map, ← named]
      exact consistent.nodup_functionsNamed path c.name

/-- Additions of two functions with one name, of which the second comes twice, and a call of that
name without an arity. -/
def overloaded : List Addition :=
  [.ofModule { path := "/a.xqy", qualifier := "a", uri := "urn:a" },
    .ofFunction { owner := "/a.xqy", name := "f", arity := 2 },
    .ofFunction { owner := "/a.xqy", name := "f", arity := 0 },
    .ofFunction { owner := "/a.xqy", name := "f", arity := 2, line := some 9 }]

/-- The call has one edge for each of the two, in the order of their registration. -/
theorem overloaded_edges :
    let r := ofAdditions {} overloaded
    let c : CallEntry := { owner := "/b.xqy", caller := "g#0", token := some "a", name := "f" }
    (r.resolveModule c.owner c.token).value = .ok "/a.xqy" ∧ c.arity = none ∧
      (r.resolve c).value = [⟨⟨"/b.xqy", "g#0"⟩, ⟨"/a.xqy", "f#2"⟩, none⟩,
        ⟨⟨"/b.xqy", "g#0"⟩, ⟨"/a.xqy", "f#0"⟩, none⟩] := by
  refine ⟨rfl, rfl, ?_⟩
  obtain ⟨-, all⟩ := ofAdditions_edges {} overloaded
    { owner := "/b.xqy", caller := "g#0", token := some "a", name := "f" }
  exact (all "/a.xqy" rfl).2.1 rfl

end Registry
end CallAtlas
