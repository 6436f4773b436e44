import CallAtlas.Proofs.Registry.Indices
import CallAtlas.Proofs.Source.ReadModule
import CallAtlas.Registry.Merge
import Mathlib.Data.List.Induction

/-!
# Assembled registries

Modules, imports, functions and calls go to tables of their own, so a registry does not show in
which order entries of different kinds came in. `Registry.assemble` is the registry of four lists
of entries, and an addition of one entry appends to one of the lists. That is all there is to
filling a registry: merging modules, which goes module by module, and loading a store, which goes
relation by relation, both give assembled registries.

`Registry.ofRegistered` is what merging makes of modules with distinct paths: of a name and arity
that a module declares twice, the first function stays. Modules that were read declare nothing
twice. For them it is `Registry.ofModules`, and its tables are the lists of the modules again, one
after the other.
-/

namespace CallAtlas

namespace Registry

/-! ## Additions to assembled registries -/

/-- Functions of one module and one name, by path and name. -/
def overloadTable (functions : List FunctionEntry) : Table (String × String) (List FunctionEntry) :=
  functions.foldl (fun table f => table.update (f.owner, f.name) [] (· ++ [f])) .empty

/-- Calls by caller. -/
def callTable (calls : List CallEntry) : Table FunctionRef (List CallEntry) :=
  calls.foldl (fun table c => table.update c.callerRef [] (· ++ [c])) .empty

/-- The registry of lists of entries. Of the functions, no two have the same reference. -/
def assemble (scheme : VendorScheme) (modules : List ModuleEntry) (imports : List ImportEntry)
    (functions : List FunctionEntry) (calls : List CallEntry) : Registry where
  scheme := scheme
  modules := moduleTable modules
  pathsByQualifier := modules.foldl (fun index m => indexed index m.qualifier m.path) .empty
  pathsByUri := modules.foldl (fun index m => indexed index m.uri m.path) .empty
  imports := Table.fileAll ImportEntry.owner ImportEntry.qualifier .empty imports
  functions := Table.fileAll FunctionEntry.owner FunctionEntry.qualifiedName .empty functions
  overloads := overloadTable functions
  calls := calls
  callsByCaller := callTable calls

section Additions

variable (scheme : VendorScheme) (modules : List ModuleEntry) (imports : List ImportEntry)
  (functions : List FunctionEntry) (calls : List CallEntry)

theorem addModule_assemble (m : ModuleEntry) :
    ((assemble scheme modules imports functions calls).addModule m).value =
      assemble scheme (modules ++ [m]) imports functions calls := by
  rw [value_addModule]
  unfold assemble moduleTable
  simp only [List.foldl_append, List.foldl_cons, List.foldl_nil]

theorem addImport_assemble (i : ImportEntry) :
    (assemble scheme modules imports functions calls).addImport i =
      assemble scheme modules (imports ++ [i]) functions calls := by
  unfold assemble addImport
  rw [Table.fileAll_append]
  rfl

theorem mem_functionTable_assemble (f : FunctionEntry) :
    f.qualifiedName ∈
        ((assemble scheme modules imports functions calls).functionTable f.owner).keys ↔
      f.ref ∈ functions.map FunctionEntry.ref := by
  refine (Table.mem_keys_fileAll Table.empty functions f.owner f.qualifiedName).trans ?_
  rw [Table.get?_empty, Option.getD_none, Table.keys_empty, List.mem_map]
  constructor
  · rintro (none | ⟨g, member, owner, name⟩)
    · cases none
    · refine ⟨g, member, ?_⟩
      unfold FunctionEntry.ref
      rw [owner, name]
  · rintro ⟨g, member, same⟩
    obtain ⟨owner, name⟩ := FunctionRef.mk.inj same
    exact Or.inr ⟨g, member, owner, name⟩

theorem addFunction_assemble {f : FunctionEntry} (fresh : f.ref ∉ functions.map FunctionEntry.ref) :
    ((assemble scheme modules imports functions calls).addFunction f).value =
      (true, assemble scheme modules imports (functions ++ [f]) calls) := by
  have absent := (mem_functionTable_assemble scheme modules imports functions calls f).not.2 fresh
  rw [value_addFunction_of_fresh absent]
  unfold assemble overloadTable
  rw [Table.fileAll_append, List.foldl_append]
  rfl

theorem addCall_assemble (c : CallEntry) :
    (assemble scheme modules imports functions calls).addCall c =
      assemble scheme modules imports functions (calls ++ [c]) := by
  unfold assemble addCall callTable
  rw [List.foldl_append]
  rfl

/-! ## Lists of additions -/

theorem foldl_addModule_assemble (more : List ModuleEntry) :
    more.foldl (fun r m => (r.addModule m).value)
        (assemble scheme modules imports functions calls) =
      assemble scheme (modules ++ more) imports functions calls := by
  induction more generalizing modules with
  | nil => rw [List.append_nil, List.foldl_nil]
  | cons m more ih =>
    rw [List.foldl_cons, addModule_assemble, ih, List.append_assoc, List.singleton_append]

theorem foldl_addImport_assemble (more : List ImportEntry) :
    more.foldl addImport (assemble scheme modules imports functions calls) =
      assemble scheme modules (imports ++ more) functions calls := by
  induction more generalizing imports with
  | nil => rw [List.append_nil, List.foldl_nil]
  | cons i more ih =>
    rw [List.foldl_cons, addImport_assemble, ih, List.append_assoc, List.singleton_append]

theorem foldl_addFunction_assemble {more : List FunctionEntry}
    (nodup : ((functions ++ more).map FunctionEntry.ref).Nodup) :
    more.foldl (fun r f => (r.addFunction f).value.2)
        (assemble scheme modules imports functions calls) =
      assemble scheme modules imports (functions ++ more) calls := by
  induction more generalizing functions with
  | nil => rw [List.append_nil, List.foldl_nil]
  | cons f more ih =>
    have fresh : f.ref ∉ functions.map FunctionEntry.ref := by
      rw [List.map_append] at nodup
      intro held
      exact (List.nodup_append.1 nodup).2.2 _ held _ List.mem_cons_self rfl
    have regrouped : functions ++ [f] ++ more = functions ++ f :: more := by
      rw [List.append_assoc, List.singleton_append]
    rw [List.foldl_cons, addFunction_assemble _ _ _ _ _ fresh, ih _ (regrouped ▸ nodup), regrouped]

theorem foldl_addCall_assemble (more : List CallEntry) :
    more.foldl addCall (assemble scheme modules imports functions calls) =
      assemble scheme modules imports functions (calls ++ more) := by
  induction more generalizing calls with
  | nil => rw [List.append_nil, List.foldl_nil]
  | cons c more ih =>
    rw [List.foldl_cons, addCall_assemble, ih, List.append_assoc, List.singleton_append]

/-- An assembled registry is made by additions. -/
theorem reachable_assemble (nodup : (functions.map FunctionEntry.ref).Nodup) :
    (assemble scheme modules imports functions calls).Reachable := by
  have empty : (assemble scheme [] [] [] []).Reachable := .fresh scheme
  have withModules : (assemble scheme modules [] [] []).Reachable := by
    induction modules using List.reverseRecOn with
    | nil => exact empty
    | append_singleton modules m ih => exact addModule_assemble .. ▸ .addModule m ih
  have withImports : (assemble scheme modules imports [] []).Reachable := by
    induction imports using List.reverseRecOn with
    | nil => exact withModules
    | append_singleton imports i ih => exact addImport_assemble .. ▸ .addImport i ih
  have withFunctions : (assemble scheme modules imports functions []).Reachable := by
    induction functions using List.reverseRecOn with
    | nil => exact withImports
    | append_singleton functions f ih =>
      rw [List.map_append, List.nodup_append] at nodup
      have fresh : f.ref ∉ functions.map FunctionEntry.ref := by
        intro held
        exact nodup.2.2 _ held _ (List.mem_singleton_self _) rfl
      have added := Reachable.addFunction f (ih nodup.1)
      rw [addFunction_assemble _ _ _ _ _ fresh] at added
      exact added
  induction calls using List.reverseRecOn with
  | nil => exact withFunctions
  | append_singleton calls c ih => exact addCall_assemble .. ▸ .addCall c ih

end Additions

end Registry

/-! ## Merging -/

namespace ParsedModule

/-- The entries of the functions of a module, in a repository whose longest function has
`longest` lines. -/
def functionEntries (longest : Int) (m : ParsedModule) : List FunctionEntry :=
  m.functions.map (·.entry m.path longest)

/-- The entries of the calls in all functions of a module. -/
def callEntries (m : ParsedModule) : List CallEntry :=
  m.functions.flatMap (·.callEntries m.path)

/-- A module with the functions that a registry keeps of it. -/
def registered (m : ParsedModule) : ParsedModule :=
  { m with functions := m.firstDeclarations }

/-- A module that names no function and no import twice. -/
structure Distinct (m : ParsedModule) : Prop where
  functions : (m.functions.map FunctionDecl.qualifiedName).Nodup
  imports : (m.importEntries.map ImportEntry.qualifier).Nodup

/-- A module that was read names nothing twice. -/
theorem Sound.distinct {m : ParsedModule} (sound : m.Sound) : m.Distinct := by
  refine ⟨sound.functions, ?_⟩
  have qualifiers : m.importEntries.map ImportEntry.qualifier = m.imports.keys := by
    unfold importEntries Table.values Table.keys
    rw [List.map_map, List.map_map]
    refine List.map_congr_left ?_
    intro entry member
    exact (sound.held entry member).1.symm
  rw [qualifiers]
  exact sound.imports

theorem owner_of_mem_importEntries {m : ParsedModule} {i : ImportEntry}
    (member : i ∈ m.importEntries) : i.owner = m.path := by
  obtain ⟨clause, -, rfl⟩ := List.mem_map.1 member
  rfl

theorem owner_of_mem_functionEntries {longest : Int} {m : ParsedModule} {f : FunctionEntry}
    (member : f ∈ m.functionEntries longest) : f.owner = m.path := by
  obtain ⟨declared, -, rfl⟩ := List.mem_map.1 member
  rfl

theorem map_ref_functionEntries (longest : Int) (m : ParsedModule) :
    (m.functionEntries longest).map FunctionEntry.ref =
      (m.functions.map FunctionDecl.qualifiedName).map (FunctionRef.mk m.path) := by
  unfold functionEntries
  rw [List.map_map, List.map_map]
  rfl

theorem map_qualifiedName_functionEntries (longest : Int) (m : ParsedModule) :
    (m.functionEntries longest).map FunctionEntry.qualifiedName =
      m.functions.map FunctionDecl.qualifiedName := by
  unfold functionEntries
  rw [List.map_map]
  rfl

/-! ## Functions that are kept -/

/-- The functions kept so far, with one more if none of them has its name and arity. -/
def keepFirst (held : List FunctionDecl) (f : FunctionDecl) : List FunctionDecl :=
  if held.any (·.qualifiedName == f.qualifiedName) then held else held ++ [f]

theorem keepFirst_of_held {held : List FunctionDecl} {f : FunctionDecl}
    (again : f.qualifiedName ∈ held.map FunctionDecl.qualifiedName) : keepFirst held f = held := by
  obtain ⟨g, member, same⟩ := List.mem_map.1 again
  have found : (g.qualifiedName == f.qualifiedName) = true := beq_of_eq same
  exact if_pos (List.any_eq_true.2 ⟨g, member, found⟩)

theorem keepFirst_of_fresh {held : List FunctionDecl} {f : FunctionDecl}
    (fresh : f.qualifiedName ∉ held.map FunctionDecl.qualifiedName) :
    keepFirst held f = held ++ [f] := by
  refine if_neg fun again => ?_
  obtain ⟨g, member, same⟩ := List.any_eq_true.1 again
  exact fresh (List.mem_map.2 ⟨g, member, eq_of_beq same⟩)

theorem nodup_foldl_keepFirst {held : List FunctionDecl}
    (nodup : (held.map FunctionDecl.qualifiedName).Nodup) (fs : List FunctionDecl) :
    ((fs.foldl keepFirst held).map FunctionDecl.qualifiedName).Nodup := by
  induction fs generalizing held with
  | nil => exact nodup
  | cons f fs ih =>
    refine ih ?_
    by_cases again : f.qualifiedName ∈ held.map FunctionDecl.qualifiedName
    · rw [keepFirst_of_held again]
      exact nodup
    · rw [keepFirst_of_fresh again, List.map_append, List.map_singleton, ← List.concat_eq_append]
      exact nodup.concat again

theorem foldl_keepFirst_of_nodup {held fs : List FunctionDecl}
    (nodup : ((held ++ fs).map FunctionDecl.qualifiedName).Nodup) :
    fs.foldl keepFirst held = held ++ fs := by
  induction fs generalizing held with
  | nil => rw [List.append_nil, List.foldl_nil]
  | cons f fs ih =>
    have fresh : f.qualifiedName ∉ held.map FunctionDecl.qualifiedName := by
      rw [List.map_append] at nodup
      intro again
      exact (List.nodup_append.1 nodup).2.2 _ again _ List.mem_cons_self rfl
    have regrouped : held ++ [f] ++ fs = held ++ f :: fs := by
      rw [List.append_assoc, List.singleton_append]
    rw [List.foldl_cons, keepFirst_of_fresh fresh, ih (regrouped ▸ nodup), regrouped]

/-- What is kept of a module has distinct names. -/
theorem nodup_registered (m : ParsedModule) :
    (m.registered.functions.map FunctionDecl.qualifiedName).Nodup :=
  @nodup_foldl_keepFirst [] List.nodup_nil m.functions

/-- A module that names no function twice is kept whole. -/
theorem Distinct.registered_eq {m : ParsedModule} (distinct : m.Distinct) : m.registered = m := by
  have whole : m.firstDeclarations = m.functions := foldl_keepFirst_of_nodup distinct.functions
  unfold registered
  rw [whole]

end ParsedModule

namespace Registry

/-- The registry that merging makes of modules with distinct paths. -/
def ofModules (scheme : VendorScheme) (longest : Int) (ms : List ParsedModule) : Registry :=
  assemble scheme (ms.map ParsedModule.entry) (ms.flatMap ParsedModule.importEntries)
    (ms.flatMap (ParsedModule.functionEntries longest)) (ms.flatMap ParsedModule.callEntries)

/-- The references of the functions of modules with distinct paths are distinct. -/
theorem nodup_refs {ms : List ParsedModule} (paths : (ms.map ParsedModule.path).Nodup)
    (names : ∀ m ∈ ms, (m.functions.map FunctionDecl.qualifiedName).Nodup) (longest : Int) :
    ((ms.flatMap (ParsedModule.functionEntries longest)).map FunctionEntry.ref).Nodup := by
  induction ms with
  | nil => exact List.nodup_nil
  | cons m ms ih =>
    rw [List.map_cons, List.nodup_cons] at paths
    rw [List.flatMap_cons, List.map_append, List.nodup_append]
    refine ⟨?_, ih paths.2 fun m member => names m (List.mem_cons_of_mem _ member), ?_⟩
    · rw [ParsedModule.map_ref_functionEntries]
      refine (names m List.mem_cons_self).map ?_
      intro name other same
      exact (FunctionRef.mk.inj same).2
    · intro ref own other later same
      obtain ⟨f, member, rfl⟩ := List.mem_map.1 own
      obtain ⟨g, member', rfl⟩ := List.mem_map.1 later
      obtain ⟨m', listed, member'⟩ := List.mem_flatMap.1 member'
      have owners : f.owner = g.owner := (FunctionRef.mk.inj same).1
      rw [ParsedModule.owner_of_mem_functionEntries member,
        ParsedModule.owner_of_mem_functionEntries member'] at owners
      exact paths.1 (List.mem_map.2 ⟨m', listed, owners.symm⟩)

/-- The registry that merging makes of modules with distinct paths, whatever they name twice. -/
def ofRegistered (scheme : VendorScheme) (longest : Int) (ms : List ParsedModule) : Registry :=
  assemble scheme (ms.map ParsedModule.entry) (ms.flatMap ParsedModule.importEntries)
    ((ms.map ParsedModule.registered).flatMap (ParsedModule.functionEntries longest))
    ((ms.map ParsedModule.registered).flatMap ParsedModule.callEntries)

theorem ofRegistered_eq_ofModules {ms : List ParsedModule} (distinct : ∀ m ∈ ms, m.Distinct)
    (scheme : VendorScheme) (longest : Int) :
    ofRegistered scheme longest ms = ofModules scheme longest ms := by
  have whole : ms.map ParsedModule.registered = ms :=
    (List.map_congr_left fun m member => (distinct m member).registered_eq).trans (List.map_id _)
  unfold ofRegistered ofModules
  rw [whole]

theorem reachable_ofRegistered {ms : List ParsedModule} (paths : (ms.map ParsedModule.path).Nodup)
    (scheme : VendorScheme) (longest : Int) : (ofRegistered scheme longest ms).Reachable := by
  refine reachable_assemble _ _ _ _ _ (nodup_refs ?_ ?_ longest)
  · rw [List.map_map]
    exact paths
  · intro m member
    obtain ⟨m, -, rfl⟩ := List.mem_map.1 member
    exact m.nodup_registered

section Merging

variable (scheme : VendorScheme) (modules : List ModuleEntry) (imports : List ImportEntry)
  (functions : List FunctionEntry) (calls : List CallEntry) {path : String} (longest : Int)

/-- Merging a function appends it and its calls. -/
theorem mergeFunction_assemble {f : FunctionDecl}
    (fresh : (f.entry path longest).ref ∉ functions.map FunctionEntry.ref) :
    (mergeFunction path longest (assemble scheme modules imports functions calls) f).value =
      assemble scheme modules imports (functions ++ [f.entry path longest])
        (calls ++ f.callEntries path) := by
  unfold mergeFunction
  rw [Report.value_bind, addFunction_assemble _ _ _ _ _ fresh]
  exact foldl_addCall_assemble ..

/-- A function of a name and arity that is there is left out with its calls. -/
theorem mergeFunction_assemble_of_held {f : FunctionDecl}
    (held : (f.entry path longest).ref ∈ functions.map FunctionEntry.ref) :
    (mergeFunction path longest (assemble scheme modules imports functions calls) f).value =
      assemble scheme modules imports functions calls := by
  unfold mergeFunction
  rw [Report.value_bind, value_addFunction_of_held
    ((mem_functionTable_assemble _ _ _ _ _ (f.entry path longest)).2 held)]
  rfl

variable {functions}

/-- Merging the functions of a module appends those that are kept, with their calls. -/
theorem foldl_mergeFunction_assemble (others : ∀ f ∈ functions, f.owner ≠ path)
    (held fs : List FunctionDecl) :
    fs.foldl (fun r f => (mergeFunction path longest r f).value)
        (assemble scheme modules imports (functions ++ held.map (·.entry path longest))
          (calls ++ held.flatMap (·.callEntries path))) =
      assemble scheme modules imports
        (functions ++ (fs.foldl ParsedModule.keepFirst held).map (·.entry path longest))
        (calls ++ (fs.foldl ParsedModule.keepFirst held).flatMap (·.callEntries path)) := by
  induction fs generalizing held with
  | nil => rfl
  | cons f fs ih =>
    have held_iff : (f.entry path longest).ref ∈
          (functions ++ held.map (·.entry path longest)).map FunctionEntry.ref ↔
        f.qualifiedName ∈ held.map FunctionDecl.qualifiedName := by
      rw [List.map_append, List.mem_append, List.map_map]
      constructor
      · rintro (other | own)
        · obtain ⟨g, member, same⟩ := List.mem_map.1 other
          exact (others g member (FunctionRef.mk.inj same).1).elim
        · obtain ⟨g, member, same⟩ := List.mem_map.1 own
          exact List.mem_map.2 ⟨g, member, (FunctionRef.mk.inj same).2⟩
      · intro own
        obtain ⟨g, member, same⟩ := List.mem_map.1 own
        exact Or.inr (List.mem_map.2 ⟨g, member, congrArg (FunctionRef.mk path) same⟩)
    rw [List.foldl_cons, List.foldl_cons, ← ih]
    by_cases again : f.qualifiedName ∈ held.map FunctionDecl.qualifiedName
    · rw [mergeFunction_assemble_of_held _ _ _ _ _ _ (held_iff.2 again),
        ParsedModule.keepFirst_of_held again]
    · rw [mergeFunction_assemble _ _ _ _ _ _ fun held => again (held_iff.1 held),
        ParsedModule.keepFirst_of_fresh again, List.map_append, List.flatMap_append,
        List.append_assoc, List.append_assoc, List.flatMap_singleton, List.map_singleton]

/-- Merging a module appends its entries to each of the four lists. -/
theorem mergeModule_assemble {m : ParsedModule} (others : ∀ f ∈ functions, f.owner ≠ m.path) :
    (mergeModule longest (assemble scheme modules imports functions calls) m).value =
      assemble scheme (modules ++ [m.entry]) (imports ++ m.importEntries)
        (functions ++ m.registered.functionEntries longest)
        (calls ++ m.registered.callEntries) := by
  have merged := foldl_mergeFunction_assemble scheme (modules ++ [m.entry])
    (imports ++ m.importEntries) calls longest others [] m.functions
  rw [List.map_nil, List.flatMap_nil, List.append_nil, List.append_nil] at merged
  unfold mergeModule
  rw [Report.value_bind, addModule_assemble, Report.value_foldlM, foldl_addImport_assemble]
  exact merged

end Merging

theorem foldl_mergeModule {scheme : VendorScheme} {longest : Int} {before ms : List ParsedModule}
    (paths : ((before ++ ms).map ParsedModule.path).Nodup) :
    ms.foldl (fun r m => (mergeModule longest r m).value) (ofRegistered scheme longest before) =
      ofRegistered scheme longest (before ++ ms) := by
  induction ms generalizing before with
  | nil => rw [List.append_nil, List.foldl_nil]
  | cons m ms ih =>
    have regrouped : before ++ [m] ++ ms = before ++ m :: ms := by
      rw [List.append_assoc, List.singleton_append]
    have others : ∀ f ∈ (before.map ParsedModule.registered).flatMap
        (ParsedModule.functionEntries longest), f.owner ≠ m.path := by
      intro f member same
      obtain ⟨kept, keptListed, own⟩ := List.mem_flatMap.1 member
      obtain ⟨other, listed, rfl⟩ := List.mem_map.1 keptListed
      rw [ParsedModule.owner_of_mem_functionEntries own] at same
      rw [List.map_append, List.map_cons] at paths
      exact (List.nodup_append.1 paths).2.2 _ (List.mem_map.2 ⟨other, listed, rfl⟩) _
        List.mem_cons_self same
    have step : (mergeModule longest (ofRegistered scheme longest before) m).value =
        ofRegistered scheme longest (before ++ [m]) := by
      unfold ofRegistered
      rw [mergeModule_assemble _ _ _ _ _ others]
      simp only [List.map_append, List.map_cons, List.map_nil, List.flatMap_append,
        List.flatMap_cons, List.flatMap_nil, List.append_nil]
    rw [List.foldl_cons, step, ih (regrouped ▸ paths), regrouped]

/-! ## Which modules are merged -/

/-- The modules that a fresh registry takes from a list. -/
def kept (scheme : VendorScheme) (ms : List ParsedModule) : List ParsedModule :=
  (({ scheme := scheme } : Registry).unregistered [] ms).value

theorem value_unregistered_cons (r : Registry) (taken : List String) (m : ParsedModule)
    (ms : List ParsedModule) :
    (r.unregistered taken (m :: ms)).value =
      if taken.contains m.path || r.knows m.path then (r.unregistered taken ms).value
      else m :: (r.unregistered (m.path :: taken) ms).value := by
  rw [unregistered]
  split <;> rfl

theorem unregistered_sublist (r : Registry) (taken : List String) (ms : List ParsedModule) :
    (r.unregistered taken ms).value.Sublist ms := by
  induction ms generalizing taken with
  | nil => exact List.Sublist.slnil
  | cons m ms ih =>
    rw [value_unregistered_cons]
    split
    next => exact (ih taken).cons m
    next => exact (ih _).cons_cons m

/-- The modules taken have paths of their own, which neither the registry nor an earlier one of
the list has. -/
theorem nodup_paths_unregistered (r : Registry) (taken : List String) (ms : List ParsedModule) :
    ((r.unregistered taken ms).value.map ParsedModule.path).Nodup ∧
      ∀ m ∈ (r.unregistered taken ms).value, m.path ∉ taken ∧ r.knows m.path = false := by
  induction ms generalizing taken with
  | nil =>
    refine ⟨List.nodup_nil, ?_⟩
    intro m member
    cases member
  | cons m ms ih =>
    rw [value_unregistered_cons]
    split
    next => exact ih taken
    next unknown =>
      rw [Bool.or_eq_true, not_or, List.contains_iff_mem, Bool.not_eq_true] at unknown
      obtain ⟨nodup, apart⟩ := ih (m.path :: taken)
      constructor
      · rw [List.map_cons, List.nodup_cons]
        refine ⟨?_, nodup⟩
        intro again
        obtain ⟨other, member, same⟩ := List.mem_map.1 again
        exact (apart other member).1 (same ▸ List.mem_cons_self)
      · intro other member
        rcases List.mem_cons.1 member with rfl | later
        · exact unknown
        · obtain ⟨fresh, strange⟩ := apart other later
          exact ⟨fun held => fresh (List.mem_cons_of_mem _ held), strange⟩

/-- Of modules with paths of their own, those are taken that the registry does not know. -/
theorem unregistered_of_nodup {r : Registry} {taken : List String} {ms : List ParsedModule}
    (paths : (ms.map ParsedModule.path).Nodup) (fresh : ∀ m ∈ ms, m.path ∉ taken) :
    (r.unregistered taken ms).value = ms.filter fun m => !r.knows m.path := by
  induction ms generalizing taken with
  | nil => rfl
  | cons m ms ih =>
    rw [List.map_cons, List.nodup_cons] at paths
    have untaken : taken.contains m.path = false := by
      rw [List.contains_eq_mem, decide_eq_false_iff_not]
      exact fresh m List.mem_cons_self
    rw [value_unregistered_cons, untaken, Bool.false_or, List.filter_cons]
    cases r.knows m.path with
    | true => exact ih paths.2 fun other member => fresh other (List.mem_cons_of_mem _ member)
    | false =>
      change m :: _ = m :: _
      rw [ih paths.2]
      intro other member held
      rcases List.mem_cons.1 held with same | held
      · exact paths.1 (List.mem_map.2 ⟨other, member, same⟩)
      · exact fresh other (List.mem_cons_of_mem _ member) held

theorem kept_sublist (scheme : VendorScheme) (ms : List ParsedModule) :
    (kept scheme ms).Sublist ms :=
  unregistered_sublist ..

theorem nodup_paths_kept (scheme : VendorScheme) (ms : List ParsedModule) :
    ((kept scheme ms).map ParsedModule.path).Nodup :=
  (nodup_paths_unregistered ..).1

/-- Of modules with paths of their own, a fresh registry takes all but one at the path of the
external node. -/
theorem kept_of_nodup {ms : List ParsedModule} (paths : (ms.map ParsedModule.path).Nodup)
    (scheme : VendorScheme) : kept scheme ms = ms.filter (·.path ≠ scheme.externalPath) := by
  refine (unregistered_of_nodup paths fun _ _ => List.not_mem_nil).trans ?_
  refine List.filter_congr fun m _ => ?_
  change (!(false || m.path == scheme.externalPath)) = _
  rw [Bool.false_or, decide_not, beq_eq_decide]

theorem kept_eq_self {scheme : VendorScheme} {ms : List ParsedModule}
    (paths : (ms.map ParsedModule.path).Nodup) (own : ∀ m ∈ ms, m.path ≠ scheme.externalPath) :
    kept scheme ms = ms := by
  rw [kept_of_nodup paths]
  exact List.filter_eq_self.2 fun m member => decide_eq_true (own m member)

/-- Merging modules into a fresh registry keeps of each path the first module, and of each name
and arity in a module the first function. -/
theorem value_merge_eq_ofRegistered (scheme : VendorScheme) (ms : List ParsedModule) :
    (merge { scheme := scheme } ms).value =
      ofRegistered scheme (longestLoc (kept scheme ms)) (kept scheme ms) := by
  unfold merge
  rw [Report.value_bind, Report.value_bind, Report.value_foldlM]
  exact @foldl_mergeModule scheme _ [] _ (nodup_paths_kept scheme ms)

/-- Merging modules that name nothing twice gives the registry of the modules that are kept. -/
theorem value_merge {scheme : VendorScheme} {ms : List ParsedModule}
    (distinct : ∀ m ∈ ms, m.Distinct) :
    (merge { scheme := scheme } ms).value =
      ofModules scheme (longestLoc (kept scheme ms)) (kept scheme ms) := by
  rw [value_merge_eq_ofRegistered]
  exact ofRegistered_eq_ofModules
    (fun m member => distinct m ((kept_sublist scheme ms).subset member)) ..

/-! ## Look-ups in merged registries -/

section LookUps

variable {scheme : VendorScheme} {longest : Int} {ms : List ParsedModule}
  (paths : (ms.map ParsedModule.path).Nodup)
include paths

theorem modules_ofModules :
    (ofModules scheme longest ms).modules = ⟨ms.map fun m => (m.path, m.entry)⟩ := by
  have nodup : ((Table.empty : Table String ModuleEntry).keys ++
      (ms.map ParsedModule.entry).map ModuleEntry.path).Nodup := by
    rw [Table.keys_empty, List.nil_append, List.map_map]
    exact paths
  refine (Table.foldl_put_of_nodup nodup).trans ?_
  rw [Table.entries_empty, List.nil_append, List.map_map]
  rfl

theorem values_modules_ofModules :
    (ofModules scheme longest ms).modules.values = ms.map ParsedModule.entry := by
  rw [modules_ofModules paths, Table.values, List.map_map]
  rfl

variable (distinct : ∀ m ∈ ms, m.Distinct)
include distinct

theorem reachable_ofModules : (ofModules scheme longest ms).Reachable :=
  reachable_assemble _ _ _ _ _
    (nodup_refs paths (fun m listed => (distinct m listed).functions) longest)

theorem importsOf_ofModules {m : ParsedModule} (member : m ∈ ms) :
    (ofModules scheme longest ms).importsOf m.path =
      ⟨m.importEntries.map fun i => (i.qualifier, i)⟩ :=
  Table.getD_get?_fileAll paths (fun _ _ _ => ParsedModule.owner_of_mem_importEntries)
    (fun m listed => (distinct m listed).imports) member

omit paths in
theorem nodup_functionEntries (longest : Int) (m : ParsedModule) (listed : m ∈ ms) :
    ((m.functionEntries longest).map FunctionEntry.qualifiedName).Nodup := by
  rw [ParsedModule.map_qualifiedName_functionEntries]
  exact (distinct m listed).functions

theorem functionTable_ofModules {m : ParsedModule} (member : m ∈ ms) :
    (ofModules scheme longest ms).functionTable m.path =
      ⟨(m.functionEntries longest).map fun f => (f.qualifiedName, f)⟩ :=
  Table.getD_get?_fileAll paths (fun _ _ _ => ParsedModule.owner_of_mem_functionEntries)
    (nodup_functionEntries distinct longest) member

theorem functionsOf_ofModules {m : ParsedModule} (member : m ∈ ms) :
    (ofModules scheme longest ms).functionsOf m.path = m.functionEntries longest := by
  unfold functionsOf
  rw [functionTable_ofModules paths distinct member, Table.values, List.map_map]
  exact List.map_id _

theorem allFunctions_ofModules :
    (ofModules scheme longest ms).allFunctions =
      ms.flatMap (ParsedModule.functionEntries longest) :=
  Table.flatMap_values_fileAll paths (fun _ _ _ => ParsedModule.owner_of_mem_functionEntries)
    (nodup_functionEntries distinct longest)

/-- The imports of the modules, one module after another, are those that were merged. -/
theorem flatMap_importsOf_ofModules :
    ((ofModules scheme longest ms).modules.values.flatMap fun m =>
        ((ofModules scheme longest ms).importsOf m.path).values) =
      ms.flatMap ParsedModule.importEntries := by
  rw [values_modules_ofModules paths, List.flatMap_map]
  refine List.flatMap_congr ?_
  intro m member
  change ((ofModules scheme longest ms).importsOf m.path).values = _
  rw [importsOf_ofModules paths distinct member, Table.values, List.map_map]
  exact List.map_id _

end LookUps

end Registry
end CallAtlas
