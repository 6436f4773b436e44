import CallAtlas.Proofs.Registry.Reachable
import Mathlib.Data.List.Induction

/-!
# Registries after additions

A registry is filled by additions, one entry after another, and `Registry.ofAdditions` is what a
list of additions makes of a registry without entries. Its tables repeat each other: functions stand
by qualified name and by name, calls stand in one list and by caller. `Registry.Answers` says how
the look-ups in these tables answer, in terms of the additions alone, and `ofAdditions_answers` that
they answer so after any additions.

The first function of a reference stays, so what a look-up finds is settled by the first addition
that it could find (`function?_add`); the tables agree because every reachable registry is
consistent.
-/

namespace CallAtlas

/-- An entry that is added to a registry. -/
inductive Addition
  | ofModule (m : ModuleEntry)
  | ofImport (i : ImportEntry)
  | ofFunction (f : FunctionEntry)
  | ofCall (c : CallEntry)
deriving Repr, DecidableEq

namespace Addition

/-- The module that is added, if it is one. -/
def module? : Addition → Option ModuleEntry
  | ofModule m => some m
  | _ => none

/-- The function that is added, if it is one. -/
def function? : Addition → Option FunctionEntry
  | ofFunction f => some f
  | _ => none

/-- The call that is added, if it is one. -/
def call? : Addition → Option CallEntry
  | ofCall c => some c
  | _ => none

end Addition

namespace Registry

/-- The registry with one more entry. -/
def add (r : Registry) : Addition → Registry
  | .ofModule m => (r.addModule m).value
  | .ofImport i => r.addImport i
  | .ofFunction f => (r.addFunction f).value.2
  | .ofCall c => r.addCall c

/-- The registry after some additions to one without entries. -/
def ofAdditions (scheme : VendorScheme) (additions : List Addition) : Registry :=
  additions.foldl add { scheme := scheme }

theorem ofAdditions_concat (scheme : VendorScheme) (additions : List Addition) (a : Addition) :
    ofAdditions scheme (additions ++ [a]) = (ofAdditions scheme additions).add a := by
  unfold ofAdditions
  rw [List.foldl_append, List.foldl_cons, List.foldl_nil]

theorem Reachable.add {r : Registry} (reachable : r.Reachable) (a : Addition) :
    (r.add a).Reachable := by
  cases a with
  | ofModule m => exact .addModule m reachable
  | ofImport i => exact .addImport i reachable
  | ofFunction f => exact .addFunction f reachable
  | ofCall c => exact .addCall c reachable

theorem reachable_ofAdditions (scheme : VendorScheme) (additions : List Addition) :
    (ofAdditions scheme additions).Reachable := by
  induction additions using List.reverseRecOn with
  | nil => exact .fresh scheme
  | append_singleton additions a ih =>
    rw [ofAdditions_concat]
    exact ih.add a

/-! ## What an addition does to look-ups -/

variable (r : Registry)

/-- A function is refused if its module holds one of its name and arity. -/
theorem addFunction_refuses_iff (f : FunctionEntry) :
    (r.addFunction f).value.1 = false ↔ (r.function? f.owner f.qualifiedName).isSome = true := by
  change _ ↔ (r.functionTable f.owner).contains f.qualifiedName = true
  rw [Table.contains_iff_mem_keys]
  by_cases held : f.qualifiedName ∈ (r.functionTable f.owner).keys
  · rw [value_addFunction_of_held held]
    exact iff_of_true rfl held
  · rw [value_addFunction_of_fresh held]
    exact iff_of_false Bool.true_eq_false.mp held

/-- A refused function leaves the registry as it was. -/
theorem addFunction_of_refused {f : FunctionEntry} (refused : (r.addFunction f).value.1 = false) :
    (r.addFunction f).value.2 = r := by
  rw [addFunction_refuses_iff] at refused
  rw [value_addFunction_of_held ((Table.contains_iff_mem_keys _ _).1 refused)]

/-- An added function is found where nothing was found before. -/
theorem function?_addFunction (f : FunctionEntry) (path qualified : String) :
    (r.addFunction f).value.2.function? path qualified =
      (r.function? path qualified).or
        (if f.owner = path ∧ f.qualifiedName = qualified then some f else none) := by
  by_cases held : f.qualifiedName ∈ (r.functionTable f.owner).keys
  · rw [value_addFunction_of_held held]
    split
    next own =>
      obtain ⟨rfl, rfl⟩ := own
      obtain ⟨g, found⟩ := Option.isSome_iff_exists.1 ((Table.contains_iff_mem_keys _ _).2 held)
      change r.function? _ _ = some g at found
      rw [found, Option.some_or]
    next => rw [Option.or_none]
  · unfold function?
    rw [functionTable_addFunction held]
    by_cases own : f.owner = path
    · subst own
      rw [if_pos rfl, Table.get?_put]
      by_cases named : f.qualifiedName = qualified
      · subst named
        rw [(Table.get?_eq_none_iff _ _).2 held, Option.none_or, if_pos rfl, if_pos ⟨rfl, rfl⟩]
      · rw [if_neg fun same => named same.symm, if_neg fun same => named same.2, Option.or_none]
    · rw [if_neg fun same => own same.symm, if_neg fun same => own same.1, Option.or_none]

theorem function?_add (a : Addition) (path qualified : String) :
    (r.add a).function? path qualified =
      (r.function? path qualified).or
        (a.function?.filter fun f => f.owner = path ∧ f.qualifiedName = qualified) := by
  cases a with
  | ofFunction f =>
    refine (r.function?_addFunction f path qualified).trans ?_
    simp only [Addition.function?, Option.filter_some, decide_eq_true_eq]
  | ofModule m =>
    rw [add, value_addModule]
    exact (Option.or_none ..).symm
  | ofImport i => exact (Option.or_none ..).symm
  | ofCall c => exact (Option.or_none ..).symm

theorem calls_add (a : Addition) : (r.add a).calls = r.calls ++ a.call?.toList := by
  cases a with
  | ofCall c => rfl
  | ofModule m =>
    rw [add, value_addModule]
    exact (List.append_nil _).symm
  | ofImport i => exact (List.append_nil _).symm
  | ofFunction f =>
    rw [add, addFunction_frame]
    exact (List.append_nil _).symm

/-! ## Look-ups after additions -/

/-- A look-up finds the first function that was added under its reference. -/
theorem function?_ofAdditions (scheme : VendorScheme) (additions : List Addition)
    (path qualified : String) :
    (ofAdditions scheme additions).function? path qualified =
      (additions.filterMap Addition.function?).find? fun f =>
        f.owner = path ∧ f.qualifiedName = qualified := by
  induction additions using List.reverseRecOn with
  | nil => rfl
  | append_singleton additions a ih =>
    rw [ofAdditions_concat, function?_add, ih, List.filterMap_append, List.find?_append]
    cases a with
    | ofFunction f =>
      simp only [Addition.function?, List.filterMap_cons, List.filterMap_nil, List.find?_singleton,
        Option.filter_some]
    | ofModule m => rfl
    | ofImport i => rfl
    | ofCall c => rfl

theorem calls_ofAdditions (scheme : VendorScheme) (additions : List Addition) :
    (ofAdditions scheme additions).calls = additions.filterMap Addition.call? := by
  induction additions using List.reverseRecOn with
  | nil => rfl
  | append_singleton additions a ih =>
    rw [ofAdditions_concat, calls_add, ih, List.filterMap_append]
    cases a <;> rfl

/-- How the look-ups of functions and calls in a registry answer after some additions. -/
structure Answers (r : Registry) (additions : List Addition) : Prop where
  distinct_arities : ∀ path, ((r.functionsOf path).map fun f => (f.name, f.arity)).Nodup
  distinct_names : ∀ path, ((r.functionsOf path).map FunctionEntry.qualifiedName).Nodup
  /-- A module lists the functions that are found in it. -/
  listed_iff : ∀ path f, f ∈ r.functionsOf path ↔ r.function? path f.qualifiedName = some f
  /-- The functions of a name are those of the module that have it, in their order. -/
  named : ∀ path name, r.functionsNamed path name = (r.functionsOf path).filter (·.name = name)
  /-- The function found is the first one that was added under its reference. -/
  first : ∀ path qualified, r.function? path qualified =
    (additions.filterMap Addition.function?).find? fun f =>
      f.owner = path ∧ f.qualifiedName = qualified
  calls : r.calls = additions.filterMap Addition.call?
  /-- The calls of a function are those that stand in it, in their order. -/
  within : ∀ path caller, r.callsOf ⟨path, caller⟩ =
    r.calls.filter fun c => c.owner = path ∧ c.caller = caller
  /-- A function is refused exactly if one is found under its reference. -/
  refuses_iff : ∀ f, (r.addFunction f).value.1 = false ↔
    (r.function? f.owner f.qualifiedName).isSome = true
  /-- A refused function leaves everything as it was. -/
  refused : ∀ f, (r.addFunction f).value.1 = false → (r.addFunction f).value.2 = r

/-- **The indices of functions and calls stay consistent.** This holds after any additions, in any
order. -/
theorem ofAdditions_answers (scheme : VendorScheme) (additions : List Addition) :
    (ofAdditions scheme additions).Answers additions := by
  have consistent := (reachable_ofAdditions scheme additions).consistent
  have names : ∀ path, (((ofAdditions scheme additions).functionsOf path).map
      FunctionEntry.qualifiedName).Nodup := by
    intro path
    rw [consistent.map_qualifiedName_functionsOf]
    exact consistent.nodup path
  constructor
  case distinct_arities =>
    -- A qualified name is made of the name and the arity, so distinct ones come of distinct pairs.
    intro path
    have pairs : ((ofAdditions scheme additions).functionsOf path).map
        FunctionEntry.qualifiedName =
        (((ofAdditions scheme additions).functionsOf path).map fun f => (f.name, f.arity)).map
          fun pair => qualify pair.1 (some pair.2) := by
      rw [List.map_map]
      rfl
    exact (pairs ▸ names path).of_map _
  case distinct_names => exact names
  case listed_iff => exact consistent.mem_functionsOf_iff
  case named => exact consistent.functionsNamed_eq
  case first => exact function?_ofAdditions scheme additions
  case calls => exact calls_ofAdditions scheme additions
  case within =>
    intro path caller
    rw [consistent.callsOf_eq]
    refine List.filter_congr fun c _ => ?_
    rw [decide_eq_decide]
    exact FunctionRef.mk.injEq .. ▸ Iff.rfl
  case refuses_iff => exact addFunction_refuses_iff _
  case refused => exact fun f => addFunction_of_refused _

end Registry
end CallAtlas
