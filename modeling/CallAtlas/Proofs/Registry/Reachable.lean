import CallAtlas.Proofs.Report
import CallAtlas.Proofs.Table
import CallAtlas.Registry.Basic

/-!
# Reachable registries

`Registry.Reachable` is the closure of the registries without entries under the four additions,
in any order and with any entries. `Registry.Consistent` says what the indices of such a registry
have to do with each other: the calls of a function are those of the list of all calls that name
it as their caller, the functions of a name are those of the module with that name, and a module
holds each qualified name once.

`Reachable.consistent` carries the second from the first, one addition at a time; each addition
touches one index family, so the other families carry over unchanged.
-/

namespace CallAtlas.Registry

/-! ## What an addition changes -/

theorem value_addModule (r : Registry) (m : ModuleEntry) :
    (r.addModule m).value = { r with
      modules := r.modules.put m.path m
      pathsByQualifier := indexed r.pathsByQualifier m.qualifier m.path
      pathsByUri := indexed r.pathsByUri m.uri m.path } := by
  unfold addModule
  split <;> rfl

/-- A function of a name and arity that its module does not hold yet is registered. -/
theorem value_addFunction_of_fresh {r : Registry} {f : FunctionEntry}
    (fresh : f.qualifiedName ∉ (r.functionTable f.owner).keys) :
    (r.addFunction f).value = (true, { r with
      functions := r.functions.update f.owner .empty (·.put f.qualifiedName f)
      overloads := r.overloads.update (f.owner, f.name) [] (· ++ [f]) }) := by
  rw [← Table.contains_eq_false_iff] at fresh
  unfold addFunction
  rw [fresh]
  rfl

theorem value_addFunction_of_held {r : Registry} {f : FunctionEntry}
    (held : f.qualifiedName ∈ (r.functionTable f.owner).keys) :
    (r.addFunction f).value = (false, r) := by
  rw [← Table.contains_iff_mem_keys] at held
  unfold addFunction
  rw [held]
  rfl

/-- Registering a function changes nothing but the indices of functions. -/
theorem addFunction_frame (r : Registry) (f : FunctionEntry) :
    (r.addFunction f).value.2 = { r with
      functions := (r.addFunction f).value.2.functions
      overloads := (r.addFunction f).value.2.overloads } := by
  by_cases held : f.qualifiedName ∈ (r.functionTable f.owner).keys
  · rw [value_addFunction_of_held held]
  · rw [value_addFunction_of_fresh held]

/-- A registered function stands at the end of its module, and other modules are as before. -/
theorem functionTable_addFunction {r : Registry} {f : FunctionEntry}
    (fresh : f.qualifiedName ∉ (r.functionTable f.owner).keys) (path : String) :
    ((r.addFunction f).value.2.functionTable path) =
      if path = f.owner then (r.functionTable f.owner).put f.qualifiedName f
      else r.functionTable path := by
  rw [value_addFunction_of_fresh fresh]
  exact Table.getD_get?_update ..

theorem functionsOf_addFunction {r : Registry} {f : FunctionEntry}
    (fresh : f.qualifiedName ∉ (r.functionTable f.owner).keys) (path : String) :
    (r.addFunction f).value.2.functionsOf path =
      if path = f.owner then r.functionsOf f.owner ++ [f] else r.functionsOf path := by
  unfold functionsOf
  rw [functionTable_addFunction fresh]
  split
  next => exact Table.values_put_of_not_mem fresh f
  next => rfl

theorem functionsNamed_addFunction {r : Registry} {f : FunctionEntry}
    (fresh : f.qualifiedName ∉ (r.functionTable f.owner).keys) (path name : String) :
    (r.addFunction f).value.2.functionsNamed path name =
      if (path, name) = (f.owner, f.name) then r.functionsNamed f.owner f.name ++ [f]
      else r.functionsNamed path name := by
  rw [value_addFunction_of_fresh fresh]
  exact Table.getD_get?_update ..

theorem callsOf_addCall (r : Registry) (c : CallEntry) (caller : FunctionRef) :
    (r.addCall c).callsOf caller =
      if caller = c.callerRef then r.callsOf c.callerRef ++ [c] else r.callsOf caller :=
  Table.getD_get?_update ..

/-! ## Reachability -/

/-- The registries that additions make out of those without entries. -/
inductive Reachable : Registry → Prop
  | fresh (scheme : VendorScheme) : Reachable { scheme := scheme }
  | addModule {r : Registry} (m : ModuleEntry) : Reachable r → Reachable (r.addModule m).value
  | addImport {r : Registry} (i : ImportEntry) : Reachable r → Reachable (r.addImport i)
  | addFunction {r : Registry} (f : FunctionEntry) :
    Reachable r → Reachable (r.addFunction f).value.2
  | addCall {r : Registry} (c : CallEntry) : Reachable r → Reachable (r.addCall c)

/-- How the indices of a registry hang together. -/
structure Consistent (r : Registry) : Prop where
  /-- The calls of a function are those that name it as their caller. -/
  callsOf_eq : ∀ caller, r.callsOf caller = r.calls.filter (·.callerRef = caller)
  /-- The functions of a name are those of the module that have it. -/
  functionsNamed_eq : ∀ path name,
    r.functionsNamed path name = (r.functionsOf path).filter (·.name = name)
  /-- A module holds a qualified name once. -/
  nodup : ∀ path, (r.functionTable path).keys.Nodup
  /-- A function is held under its qualified name, in the module that owns it. -/
  held : ∀ path entry, entry ∈ (r.functionTable path).entries →
    entry.1 = entry.2.qualifiedName ∧ entry.2.owner = path

/-- The function indices of two registries are the same. -/
theorem Consistent.of_functions_eq {r s : Registry} (consistent : r.Consistent)
    (functions : s.functions = r.functions) (overloads : s.overloads = r.overloads)
    (callsOf : ∀ caller, s.callsOf caller = s.calls.filter (·.callerRef = caller)) :
    s.Consistent := by
  have table : ∀ path, s.functionTable path = r.functionTable path := by
    intro path
    unfold functionTable
    rw [functions]
  refine ⟨callsOf, ?_, ?_, ?_⟩
  · intro path name
    have named := consistent.functionsNamed_eq path name
    unfold functionsNamed functionsOf at named ⊢
    rw [overloads, table]
    exact named
  · intro path
    rw [table]
    exact consistent.nodup path
  · intro path entry member
    rw [table] at member
    exact consistent.held path entry member

theorem Consistent.addCall {r : Registry} (consistent : r.Consistent) (c : CallEntry) :
    (r.addCall c).Consistent := by
  refine consistent.of_functions_eq rfl rfl ?_
  intro caller
  change _ = (r.calls ++ [c]).filter _
  rw [callsOf_addCall, List.filter_append, ← consistent.callsOf_eq]
  by_cases own : caller = c.callerRef
  · subst own
    simp
  · have other : ¬ c.callerRef = caller := fun e => own e.symm
    simp [own, other]

theorem Consistent.addFunction {r : Registry} (consistent : r.Consistent) (f : FunctionEntry) :
    (r.addFunction f).value.2.Consistent := by
  by_cases held : f.qualifiedName ∈ (r.functionTable f.owner).keys
  · rw [value_addFunction_of_held held]
    exact consistent
  refine ⟨?_, ?_, ?_, ?_⟩
  · intro caller
    have calls := consistent.callsOf_eq caller
    rw [value_addFunction_of_fresh held]
    exact calls
  · intro path name
    rw [functionsNamed_addFunction held, functionsOf_addFunction held]
    by_cases own : path = f.owner
    · subst own
      rw [if_pos rfl, List.filter_append, ← consistent.functionsNamed_eq]
      by_cases same : name = f.name
      · subst same
        simp
      · have other : ¬ f.name = name := fun e => same e.symm
        simp [same, other]
    · have apart : ¬ (path, name) = (f.owner, f.name) := fun e => own (Prod.ext_iff.1 e).1
      rw [if_neg own, if_neg apart]
      exact consistent.functionsNamed_eq path name
  · intro path
    rw [functionTable_addFunction held]
    split
    next => exact Table.nodup_keys_put (consistent.nodup f.owner) _ _
    next => exact consistent.nodup path
  · intro path entry member
    rw [functionTable_addFunction held] at member
    by_cases own : path = f.owner
    · rw [if_pos own, Table.put_of_not_mem held, List.mem_append,
        List.mem_singleton] at member
      rcases member with old | rfl
      · rw [own]
        exact consistent.held f.owner entry old
      · exact ⟨rfl, own.symm⟩
    · rw [if_neg own] at member
      exact consistent.held path entry member

/-- The indices of every reachable registry hang together. -/
theorem Reachable.consistent {r : Registry} (reachable : r.Reachable) : r.Consistent := by
  induction reachable with
  | fresh scheme =>
    refine ⟨fun _ => rfl, fun _ _ => rfl, fun _ => List.nodup_nil, ?_⟩
    intro path entry member
    cases member
  | addModule m _ ih =>
    rw [value_addModule]
    exact ih.of_functions_eq rfl rfl ih.callsOf_eq
  | addImport i _ ih => exact ih.of_functions_eq rfl rfl ih.callsOf_eq
  | addFunction f _ ih => exact ih.addFunction f
  | addCall c _ ih => exact ih.addCall c

/-- The modules of a registry stand under their paths, each path once. -/
structure Filed (r : Registry) : Prop where
  nodup : r.modules.keys.Nodup
  held : ∀ entry ∈ r.modules.entries, entry.1 = entry.2.path

/-- The modules of every reachable registry stand under their paths. -/
theorem Reachable.filed {r : Registry} (reachable : r.Reachable) : r.Filed := by
  induction reachable with
  | fresh scheme => exact ⟨List.nodup_nil, fun entry none => nomatch none⟩
  | addModule m _ ih =>
    rw [value_addModule]
    refine ⟨Table.nodup_keys_put ih.nodup m.path m, ?_⟩
    intro entry member
    rcases Table.mem_entries_put member with rfl | old
    · rfl
    · exact ih.held entry old
  | addImport i _ ih => exact ⟨ih.nodup, ih.held⟩
  | addFunction f _ ih =>
    rw [addFunction_frame]
    exact ⟨ih.nodup, ih.held⟩
  | addCall c _ ih => exact ⟨ih.nodup, ih.held⟩

/-- The paths of all modules are those under which they stand, and the external one. -/
theorem Filed.map_path_allModules {r : Registry} (filed : r.Filed) :
    r.allModules.map ModuleEntry.path = r.modules.keys ++ [r.external.path] := by
  unfold allModules Table.values Table.keys
  rw [List.map_append, List.map_map]
  congr 1
  refine List.map_congr_left ?_
  intro entry member
  exact (filed.held entry member).symm

/-- No two modules have the same path, if none is registered at that of the external node. -/
theorem Filed.nodup_paths_allModules {r : Registry} (filed : r.Filed)
    (apart : r.external.path ∉ r.modules.keys) : (r.allModules.map ModuleEntry.path).Nodup := by
  rw [filed.map_path_allModules, List.nodup_append_comm]
  exact List.nodup_cons.2 ⟨apart, filed.nodup⟩

theorem Filed.knows_iff {r : Registry} (filed : r.Filed) (path : String) :
    r.knows path = true ↔ path ∈ r.allModules.map ModuleEntry.path := by
  unfold knows
  rw [filed.map_path_allModules, List.mem_append, List.mem_singleton, Bool.or_eq_true,
    Table.contains_iff_mem_keys, beq_iff_eq]

/-! ## Look-ups in consistent registries -/

theorem Consistent.mem_functionsOf {r : Registry} (consistent : r.Consistent) {path : String}
    {f : FunctionEntry} (member : f ∈ r.functionsOf path) :
    f.owner = path ∧ r.function? path f.qualifiedName = some f := by
  obtain ⟨⟨key, value⟩, entry, same⟩ := List.mem_map.1 member
  cases same
  obtain ⟨named, owned⟩ := consistent.held path _ entry
  refine ⟨owned, ?_⟩
  change (r.functionTable path).get? value.qualifiedName = some value
  rw [← named]
  exact Table.get?_of_mem_entries (consistent.nodup path) entry

theorem Consistent.mem_functionsOf_iff {r : Registry} (consistent : r.Consistent) (path : String)
    (f : FunctionEntry) :
    f ∈ r.functionsOf path ↔ r.function? path f.qualifiedName = some f := by
  constructor
  · intro member
    exact (consistent.mem_functionsOf member).2
  · intro found
    exact List.mem_map.2 ⟨_, Table.mem_entries_of_get? found, rfl⟩

/-- The qualified names of the functions of a module are those under which it holds them. -/
theorem Consistent.map_qualifiedName_functionsOf {r : Registry} (consistent : r.Consistent)
    (path : String) :
    (r.functionsOf path).map FunctionEntry.qualifiedName = (r.functionTable path).keys := by
  unfold functionsOf Table.values Table.keys
  rw [List.map_map]
  refine List.map_congr_left ?_
  intro entry member
  exact (consistent.held path entry member).1.symm

/-- A module has at most one function of a name and an arity. -/
theorem Consistent.functionsOf_unique {r : Registry} (consistent : r.Consistent) {path : String}
    {f g : FunctionEntry} (hf : f ∈ r.functionsOf path) (hg : g ∈ r.functionsOf path)
    (name : f.name = g.name) (arity : f.arity = g.arity) : f = g := by
  have same : f.qualifiedName = g.qualifiedName := by
    unfold FunctionEntry.qualifiedName
    rw [name, arity]
  have found := (consistent.mem_functionsOf hf).2
  rw [same, (consistent.mem_functionsOf hg).2] at found
  exact (Option.some.inj found).symm

end CallAtlas.Registry
