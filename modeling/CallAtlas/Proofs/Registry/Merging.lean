import CallAtlas.Proofs.Registry.Additions
import CallAtlas.Proofs.Registry.Assembly

/-!
# Merging into a filled registry

Modules can be merged into a registry that holds modules, imports, functions and calls already, in
any number of batches. Which modules are taken from a batch is settled before the first of them is
registered, while a registration by itself replaces what it finds; that nothing is replaced rests on
the choice. `Registry.Holding` is what a registry holds at one path. A merge leaves it alone at
every path that is known, and at any other path it fills in the first module of the batch
(`holding_merge`).

So a batch that comes again has nothing to give, and a batch can be cut in two: the second part then
finds the paths of the first part registered, where they were only taken before
(`unregistered_append`). The lengths that functions are measured by come from the batch, so there,
and only there, a cut shows (`unmeasured_mergeModule`).
-/

namespace CallAtlas

namespace Registry

/-! ## Which modules are taken -/

theorem unregistered_of_known {r : Registry} {ms : List ParsedModule}
    (known : ∀ m ∈ ms, r.knows m.path = true) (taken : List String) :
    (r.unregistered taken ms).value = [] := by
  induction ms with
  | nil => rfl
  | cons m ms ih =>
    rw [value_unregistered_cons, known m List.mem_cons_self, Bool.or_true, if_pos rfl]
    exact ih fun other member => known other (List.mem_cons_of_mem _ member)

/-- At a path that is neither taken nor known, the first module of the list is taken. -/
theorem find?_unregistered (r : Registry) (taken : List String) (ms : List ParsedModule)
    (path : String) :
    (r.unregistered taken ms).value.find? (·.path = path) =
      if path ∈ taken ∨ r.knows path = true then none else ms.find? (·.path = path) := by
  induction ms generalizing taken with
  | nil => simp [unregistered]
  | cons m ms ih =>
    rw [value_unregistered_cons]
    by_cases own : m.path = path
    · subst own
      by_cases held : m.path ∈ taken ∨ r.knows m.path = true
      · have skipped : (taken.contains m.path || r.knows m.path) = true := by simpa using held
        rw [if_pos skipped, ih, if_pos held, if_pos held]
      · have fresh : ¬(taken.contains m.path || r.knows m.path) = true := by simpa using held
        rw [if_neg fresh, if_neg held]
        simp
    · have other : ¬path = m.path := fun same => own same.symm
      rw [List.find?_cons_of_neg (by simpa using own)]
      split
      · exact ih taken
      · rw [List.find?_cons_of_neg (by simpa using own), ih]
        simp only [List.mem_cons, other, false_or]

/-- Which modules are taken depends on the paths that are taken or known, and on nothing else. -/
theorem unregistered_congr {r s : Registry} {taken taken' : List String}
    (same : ∀ path, (path ∈ taken ∨ r.knows path = true) ↔ (path ∈ taken' ∨ s.knows path = true))
    (ms : List ParsedModule) :
    (r.unregistered taken ms).value = (s.unregistered taken' ms).value := by
  induction ms generalizing taken taken' with
  | nil => rfl
  | cons m ms ih =>
    have test : (taken.contains m.path || r.knows m.path) =
        (taken'.contains m.path || s.knows m.path) := by
      rw [Bool.eq_iff_iff]
      simpa using same m.path
    rw [value_unregistered_cons, value_unregistered_cons, test]
    split
    · exact ih same
    · congr 1
      apply ih
      intro path
      rw [List.mem_cons, List.mem_cons, or_assoc, or_assoc, same path]

/-- What is taken from a list in two parts: the second part finds the paths of the first taken. -/
theorem unregistered_append (r : Registry) (taken : List String)
    (first second : List ParsedModule) :
    (r.unregistered taken (first ++ second)).value =
      (r.unregistered taken first).value ++
        (r.unregistered (first.map ParsedModule.path ++ taken) second).value := by
  induction first generalizing taken with
  | nil => rfl
  | cons m first ih =>
    rw [List.cons_append, value_unregistered_cons, value_unregistered_cons, ih, ih]
    split
    next skipped =>
      have held : m.path ∈ taken ∨ r.knows m.path = true := by simpa using skipped
      congr 1
      apply unregistered_congr
      intro path
      simp only [List.map_cons, List.cons_append, List.mem_cons, List.mem_append]
      constructor
      · tauto
      · rintro ((rfl | own) | known)
        · tauto
        · tauto
        · tauto
    next =>
      rw [List.cons_append]
      congr 2
      apply unregistered_congr
      intro path
      simp only [List.map_cons, List.cons_append, List.mem_cons, List.mem_append]
      tauto

/-! ## What a registry holds at a path -/

/-- What a registry holds at one path. -/
structure Holding where
  /-- The module that is registered there. -/
  entry : Option ModuleEntry
  /-- The imports by qualifier. -/
  imports : Table String ImportEntry
  /-- The functions by qualified name. -/
  functions : Table String FunctionEntry
  calls : List CallEntry

/-- What the registry holds of a module at a path. -/
def holding (r : Registry) (path : String) : Holding :=
  ⟨r.modules.get? path, r.importsOf path, r.functionTable path, r.calls.filter (·.owner = path)⟩

theorem knows_eq (r : Registry) (path : String) :
    r.knows path = ((r.holding path).entry.isSome || path == r.external.path) := rfl

namespace Holding

/-- The functions of a list that are not held by name and arity. -/
def fresh (h : Holding) (fs : List FunctionDecl) : List FunctionDecl :=
  fs.filter fun f => !h.functions.contains f.qualifiedName

/-- With those functions of a list that are not held, and the calls in them. No two of the list have
the same name and arity. -/
def extend (h : Holding) (path : String) (longest : Int) (fs : List FunctionDecl) : Holding :=
  { h with
    functions := ⟨h.functions.entries ++
      (h.fresh fs).map fun f => (f.qualifiedName, f.entry path longest)⟩
    calls := h.calls ++ (h.fresh fs).flatMap (·.callEntries path) }

/-- With a module and its imports. -/
def enter (h : Holding) (m : ParsedModule) : Holding :=
  { h with
    entry := some m.entry
    imports := m.importEntries.foldl (fun table i => table.put i.qualifier i) h.imports }

/-- With a module, its imports and the functions that it declares first and that are not held. -/
def fill (h : Holding) (longest : Int) (m : ParsedModule) : Holding :=
  (h.enter m).extend m.path longest m.firstDeclarations

variable (h : Holding) (path : String) (longest : Int)

theorem extend_nil : h.extend path longest [] = h := by
  simp [extend, fresh]

theorem extend_of_held {f : FunctionDecl} (held : f.qualifiedName ∈ h.functions.keys) :
    h.extend path longest [f] = h := by
  rw [← Table.contains_iff_mem_keys] at held
  simp [extend, fresh, held]

theorem extend_of_fresh {f : FunctionDecl} (fresh : f.qualifiedName ∉ h.functions.keys) :
    h.extend path longest [f] = { h with
      functions := h.functions.put f.qualifiedName (f.entry path longest)
      calls := h.calls ++ f.callEntries path } := by
  rw [Table.put_of_not_mem fresh]
  rw [← Table.contains_eq_false_iff] at fresh
  simp [extend, Holding.fresh, fresh]

theorem mem_keys_extend (fs : List FunctionDecl) (name : String) :
    name ∈ (h.extend path longest fs).functions.keys ↔
      name ∈ h.functions.keys ∨ name ∈ fs.map FunctionDecl.qualifiedName := by
  have entered : (h.extend path longest fs).functions.keys =
      h.functions.keys ++ (h.fresh fs).map FunctionDecl.qualifiedName := by
    simp [extend, Table.keys]
  rw [entered, List.mem_append, List.mem_map, List.mem_map]
  constructor
  · rintro (held | ⟨f, listed, rfl⟩)
    · exact Or.inl held
    · exact Or.inr ⟨f, (List.mem_filter.1 listed).1, rfl⟩
  · rintro (held | ⟨f, listed, rfl⟩)
    · exact Or.inl held
    · by_cases held : f.qualifiedName ∈ h.functions.keys
      · exact Or.inl held
      · refine Or.inr ⟨f, List.mem_filter.2 ⟨listed, ?_⟩, rfl⟩
        rw [(Table.contains_eq_false_iff _ _).2 held, Bool.not_false]

/-- One more function is registered if it is not among those declared before it either. -/
theorem extend_extend (fs : List FunctionDecl) (f : FunctionDecl) :
    (h.extend path longest fs).extend path longest [f] =
      h.extend path longest (ParsedModule.keepFirst fs f) := by
  by_cases declared : f.qualifiedName ∈ fs.map FunctionDecl.qualifiedName
  · rw [ParsedModule.keepFirst_of_held declared]
    exact extend_of_held _ _ _ ((h.mem_keys_extend path longest fs _).2 (Or.inr declared))
  · rw [ParsedModule.keepFirst_of_fresh declared]
    by_cases held : f.qualifiedName ∈ h.functions.keys
    · rw [extend_of_held _ _ _ ((h.mem_keys_extend path longest fs _).2 (Or.inl held))]
      rw [← Table.contains_iff_mem_keys] at held
      simp [extend, fresh, List.filter_append, held]
    · have absent : f.qualifiedName ∉ (h.extend path longest fs).functions.keys := by
        rw [mem_keys_extend]
        tauto
      rw [extend_of_fresh _ _ _ absent, Table.put_of_not_mem absent]
      rw [← Table.contains_eq_false_iff] at held
      simp [extend, fresh, List.filter_append, held]

theorem foldl_extend (held fs : List FunctionDecl) :
    fs.foldl (fun h f => h.extend path longest [f]) (h.extend path longest held) =
      h.extend path longest (fs.foldl ParsedModule.keepFirst held) := by
  induction fs generalizing held with
  | nil => rfl
  | cons f fs ih => rw [List.foldl_cons, List.foldl_cons, extend_extend, ih]

end Holding

/-! ## One module -/

theorem foldl_addCall (r : Registry) (cs : List CallEntry) :
    cs.foldl addCall r = { r with
      calls := r.calls ++ cs
      callsByCaller := (cs.foldl addCall r).callsByCaller } := by
  induction cs generalizing r with
  | nil => simp
  | cons c cs ih =>
    rw [List.foldl_cons, ih]
    simp [addCall]

theorem foldl_addImport (r : Registry) (imports : List ImportEntry) :
    imports.foldl addImport r = { r with
      imports := imports.foldl
        (fun table i => table.update i.owner .empty (·.put i.qualifier i)) r.imports } := by
  induction imports generalizing r with
  | nil => rfl
  | cons i imports ih =>
    rw [List.foldl_cons, ih]
    rfl

theorem value_mergeFunction (path : String) (longest : Int) (r : Registry) (f : FunctionDecl) :
    (mergeFunction path longest r f).value =
      if (r.addFunction (f.entry path longest)).value.1 then
        (f.callEntries path).foldl addCall (r.addFunction (f.entry path longest)).value.2
      else (r.addFunction (f.entry path longest)).value.2 := rfl

theorem scheme_mergeFunction (path : String) (longest : Int) (r : Registry) (f : FunctionDecl) :
    (mergeFunction path longest r f).value.scheme = r.scheme := by
  rw [value_mergeFunction]
  split
  · rw [foldl_addCall, addFunction_frame]
  · rw [addFunction_frame]

/-- A module is registered at its path. -/
theorem holding_addModule (r : Registry) (m : ModuleEntry) (path : String) :
    (r.addModule m).value.holding path =
      if path = m.path then { r.holding path with entry := some m } else r.holding path := by
  rw [value_addModule]
  change Holding.mk ((r.modules.put m.path m).get? path) (r.importsOf path)
    (r.functionTable path) (r.calls.filter (·.owner = path)) = _
  rw [Table.get?_put]
  split <;> rfl

/-- Of values with one owner, all or none have a given owner. -/
theorem filter_owner {α : Type} {ownerOf : α → String} {owner : String} {xs : List α}
    (owned : ∀ x ∈ xs, ownerOf x = owner) (path : String) :
    xs.filter (ownerOf · = path) = if path = owner then xs else [] := by
  split
  next own =>
    rw [own]
    exact List.filter_eq_self.2 fun x member => decide_eq_true (owned x member)
  next apart =>
    apply List.filter_eq_nil_iff.2
    intro x member same
    exact apart ((of_decide_eq_true same).symm.trans (owned x member))

/-- Imports of one module are registered where the registry holds the module. -/
theorem holding_foldl_addImport (r : Registry) {owner : String} {imports : List ImportEntry}
    (owned : ∀ i ∈ imports, i.owner = owner) (path : String) :
    (imports.foldl addImport r).holding path =
      if path = owner then
        { r.holding path with
          imports :=
            imports.foldl (fun table i => table.put i.qualifier i) (r.holding path).imports }
      else r.holding path := by
  rw [foldl_addImport]
  change Holding.mk (r.modules.get? path) (((imports.foldl _ r.imports).get? path).getD .empty)
    (r.functionTable path) (r.calls.filter (·.owner = path)) = _
  rw [Table.getD_get?_foldl_update ImportEntry.owner Table.empty
    (fun i table => table.put i.qualifier i), filter_owner owned]
  split
  next => rfl
  next => rfl

/-- Calls of one module are registered where the registry holds the module. -/
theorem holding_foldl_addCall (r : Registry) {owner : String} {cs : List CallEntry}
    (owned : ∀ c ∈ cs, c.owner = owner) (path : String) :
    (cs.foldl addCall r).holding path =
      if path = owner then { r.holding path with calls := (r.holding path).calls ++ cs }
      else r.holding path := by
  rw [foldl_addCall]
  change Holding.mk (r.modules.get? path) (r.importsOf path) (r.functionTable path)
    ((r.calls ++ cs).filter _) = _
  rw [List.filter_append, filter_owner owned]
  split
  next => rfl
  next =>
    rw [List.append_nil]
    rfl

/-- A function that is not held is registered where the registry holds its module. -/
theorem holding_addFunction {r : Registry} {f : FunctionEntry}
    (fresh : f.qualifiedName ∉ (r.functionTable f.owner).keys) (path : String) :
    (r.addFunction f).value.2.holding path =
      if path = f.owner then
        { r.holding path with functions := (r.holding path).functions.put f.qualifiedName f }
      else r.holding path := by
  unfold holding
  rw [functionTable_addFunction fresh, addFunction_frame]
  split
  next own =>
    subst own
    rfl
  next => rfl

/-- A function is merged into what the registry holds at the path of its module. -/
theorem holding_mergeFunction (owner : String) (longest : Int) (r : Registry) (f : FunctionDecl)
    (path : String) :
    (mergeFunction owner longest r f).value.holding path =
      if path = owner then (r.holding path).extend owner longest [f] else r.holding path := by
  have owned : ∀ c ∈ f.callEntries owner, c.owner = owner := by
    intro c member
    rcases List.mem_map.1 member with ⟨site, -, rfl⟩
    rfl
  rw [value_mergeFunction]
  by_cases held : f.qualifiedName ∈ (r.functionTable owner).keys
  · rw [@value_addFunction_of_held r (f.entry owner longest) held, if_neg Bool.false_ne_true]
    split
    next own =>
      subst own
      rw [Holding.extend_of_held _ _ _ held]
    next => rfl
  · have isFresh : (r.addFunction (f.entry owner longest)).value.1 = true := by
      rw [@value_addFunction_of_fresh r (f.entry owner longest) held]
    have added : (r.addFunction (f.entry owner longest)).value.2.holding path =
        if path = owner then
          { r.holding path with
            functions := (r.holding path).functions.put f.qualifiedName (f.entry owner longest) }
        else r.holding path := holding_addFunction held path
    rw [if_pos isFresh, holding_foldl_addCall _ owned, added]
    split
    next own =>
      subst own
      rw [Holding.extend_of_fresh _ _ _ held]
    next => rfl

theorem holding_foldl_mergeFunction (owner : String) (longest : Int) (r : Registry)
    (fs : List FunctionDecl) (path : String) :
    (fs.foldl (fun r f => (mergeFunction owner longest r f).value) r).holding path =
      if path = owner then fs.foldl (fun h f => h.extend owner longest [f]) (r.holding path)
      else r.holding path := by
  induction fs generalizing r with
  | nil => exact (ite_self _).symm
  | cons f fs ih =>
    rw [List.foldl_cons, List.foldl_cons, ih, holding_mergeFunction]
    split <;> rfl

theorem value_mergeModule (longest : Int) (r : Registry) (m : ParsedModule) :
    (mergeModule longest r m).value =
      m.functions.foldl (fun r f => (mergeFunction m.path longest r f).value)
        (m.importEntries.foldl addImport (r.addModule m.entry).value) := by
  unfold mergeModule
  rw [Report.value_bind, Report.value_foldlM]

theorem scheme_mergeModule (longest : Int) (r : Registry) (m : ParsedModule) :
    (mergeModule longest r m).value.scheme = r.scheme := by
  rw [value_mergeModule]
  apply List.foldlRecOn (motive := fun s : Registry => s.scheme = r.scheme)
  · rw [foldl_addImport, value_addModule]
  · intro s same f _
    exact (scheme_mergeFunction m.path longest s f).trans same

/-- A module is filled in at its path. -/
theorem holding_mergeModule (longest : Int) (r : Registry) (m : ParsedModule) (path : String) :
    (mergeModule longest r m).value.holding path =
      if path = m.path then (r.holding path).fill longest m else r.holding path := by
  have owned : ∀ i ∈ m.importEntries, i.owner = m.path := fun i =>
    ParsedModule.owner_of_mem_importEntries
  have registered : (r.addModule m.entry).value.holding path =
      if path = m.path then { r.holding path with entry := some m.entry } else r.holding path :=
    holding_addModule r m.entry path
  rw [value_mergeModule, holding_foldl_mergeFunction, holding_foldl_addImport _ owned, registered]
  split
  next =>
    change m.functions.foldl _ ((r.holding path).enter m) = _
    rw [← Holding.extend_nil ((r.holding path).enter m) m.path longest, Holding.foldl_extend]
    rfl
  next => rfl

/-- Modules of distinct paths are filled in, each at its own. -/
theorem holding_foldl_mergeModule (longest : Int) {r : Registry} {ms : List ParsedModule}
    (paths : (ms.map ParsedModule.path).Nodup) (path : String) :
    (ms.foldl (fun r m => (mergeModule longest r m).value) r).holding path =
      match ms.find? (·.path = path) with
      | none => r.holding path
      | some m => (r.holding path).fill longest m := by
  induction ms generalizing r with
  | nil => rfl
  | cons m ms ih =>
    rw [List.map_cons, List.nodup_cons] at paths
    rw [List.foldl_cons, ih paths.2, holding_mergeModule]
    by_cases own : m.path = path
    · subst own
      have none : ms.find? (·.path = m.path) = none := by
        apply List.find?_eq_none.2
        intro other member same
        exact paths.1 (List.mem_map.2 ⟨other, member, of_decide_eq_true same⟩)
      have first : (m :: ms).find? (·.path = m.path) = some m :=
        List.find?_cons_of_pos (decide_eq_true rfl)
      rw [none, if_pos rfl, first]
    · rw [if_neg fun same => own same.symm, List.find?_cons_of_neg (by simpa using own)]

/-! ## Batches -/

/-- The modules that a registry takes from a batch. -/
def taken (r : Registry) (ms : List ParsedModule) : List ParsedModule :=
  (r.unregistered [] ms).value

section Batches

variable (r : Registry) (ms : List ParsedModule) (path : String)

theorem value_merge_eq_foldl :
    (merge r ms).value = (r.taken ms).foldl
      (fun s m => (mergeModule (longestLoc (r.taken ms)) s m).value) r := by
  unfold merge
  rw [Report.value_bind, Report.value_bind, Report.value_foldlM]
  rfl

theorem find?_taken :
    (r.taken ms).find? (·.path = path) =
      if r.knows path = true then none else ms.find? (·.path = path) := by
  unfold taken
  rw [find?_unregistered]
  simp only [List.not_mem_nil, false_or]

/-- The modules taken have distinct paths. -/
theorem nodup_paths_taken : ((r.taken ms).map ParsedModule.path).Nodup :=
  (nodup_paths_unregistered r [] ms).1

theorem scheme_merge : (merge r ms).value.scheme = r.scheme := by
  rw [value_merge_eq_foldl]
  apply List.foldlRecOn (motive := fun s : Registry => s.scheme = r.scheme)
  · rfl
  · intro s same m _
    exact (scheme_mergeModule _ s m).trans same

/-- A merge leaves alone what is held at a known path, and fills in the first module of the batch
at any other. -/
theorem holding_merge :
    (merge r ms).value.holding path =
      if r.knows path = true then r.holding path
      else match ms.find? (·.path = path) with
        | none => r.holding path
        | some m => (r.holding path).fill (longestLoc (r.taken ms)) m := by
  rw [value_merge_eq_foldl, holding_foldl_mergeModule _ (r.nodup_paths_taken ms), find?_taken]
  by_cases known : r.knows path = true
  · rw [if_pos known, if_pos known]
  · rw [if_neg known, if_neg known]

/-- After a merge, the paths of the batch are known too. -/
theorem knows_merge :
    (merge r ms).value.knows path = true ↔
      path ∈ ms.map ParsedModule.path ∨ r.knows path = true := by
  have external : (merge r ms).value.external = r.external :=
    congrArg VendorScheme.external (r.scheme_merge ms)
  rw [knows_eq, holding_merge, external]
  by_cases known : r.knows path = true
  · rw [if_pos known, ← knows_eq]
    exact iff_of_true known (Or.inr known)
  · rw [if_neg known]
    cases first : ms.find? (·.path = path) with
    | none =>
      have absent : path ∉ ms.map ParsedModule.path := by
        intro listed
        rcases List.mem_map.1 listed with ⟨m, member, own⟩
        exact List.find?_eq_none.1 first m member (decide_eq_true own)
      exact iff_of_false known (not_or.2 ⟨absent, known⟩)
    | some m =>
      have own := List.find?_some first
      have listed := List.mem_of_find?_eq_some first
      exact iff_of_true rfl (Or.inl (List.mem_map.2 ⟨m, listed, of_decide_eq_true own⟩))

/-- A batch that comes again changes nothing. -/
theorem merge_again : (merge (merge r ms).value ms).value = (merge r ms).value := by
  have none : (merge r ms).value.taken ms = [] := by
    apply unregistered_of_known
    intro m member
    exact (knows_merge r ms m.path).2 (Or.inl (List.mem_map.2 ⟨m, member, rfl⟩))
  rw [value_merge_eq_foldl (merge r ms).value, none]
  rfl

/-- From a batch in two parts the registry takes what it takes from the first part, and then what
the registry with the first part takes from the second. -/
theorem taken_append (more : List ParsedModule) :
    r.taken (ms ++ more) = r.taken ms ++ (merge r ms).value.taken more := by
  unfold taken
  rw [unregistered_append]
  congr 1
  apply unregistered_congr
  intro path
  rw [knows_merge, List.append_nil]
  simp only [List.not_mem_nil, false_or]

end Batches

end Registry

/-! ## Lengths left aside -/

/-- A function without its length as compared with others. -/
def FunctionEntry.unmeasured (f : FunctionEntry) : FunctionEntry :=
  { f with invertedLoc := none }

namespace Registry

/-- A registry whose functions are not compared by length. -/
def unmeasured (r : Registry) : Registry :=
  { r with
    functions := r.functions.mapValues (·.mapValues FunctionEntry.unmeasured)
    overloads := r.overloads.mapValues (·.map FunctionEntry.unmeasured) }

theorem functionTable_unmeasured (r : Registry) (path : String) :
    r.unmeasured.functionTable path =
      (r.functionTable path).mapValues FunctionEntry.unmeasured :=
  r.functions.getD_get?_mapValues (Table.mapValues FunctionEntry.unmeasured) path Table.empty

/-- A function is registered as before where lengths are not compared. -/
theorem addFunction_unmeasured (r : Registry) (f : FunctionEntry) :
    (r.unmeasured.addFunction f.unmeasured).value =
      Prod.map id unmeasured (r.addFunction f).value := by
  have keys : (r.unmeasured.functionTable f.owner).keys = (r.functionTable f.owner).keys := by
    rw [functionTable_unmeasured]
    simp [Table.keys, Table.mapValues]
  by_cases held : f.qualifiedName ∈ (r.functionTable f.owner).keys
  · rw [value_addFunction_of_held held]
    exact value_addFunction_of_held (f := f.unmeasured) (keys ▸ held)
  · rw [value_addFunction_of_fresh held,
      value_addFunction_of_fresh (f := f.unmeasured) (keys ▸ held)]
    unfold unmeasured
    simp only [Prod.map, id_eq]
    rw [r.functions.mapValues_update _ f.owner .empty _ (·.put f.qualifiedName f.unmeasured)
        (fun table => table.mapValues_put _ _ _),
      r.overloads.mapValues_update _ (f.owner, f.name) [] _ (· ++ [f.unmeasured])
        (fun _ => List.map_append)]
    rfl

theorem foldl_addCall_unmeasured (r : Registry) (cs : List CallEntry) :
    cs.foldl addCall r.unmeasured = (cs.foldl addCall r).unmeasured :=
  List.foldl_hom unmeasured fun _ _ => rfl

theorem foldl_addImport_unmeasured (r : Registry) (imports : List ImportEntry) :
    imports.foldl addImport r.unmeasured = (imports.foldl addImport r).unmeasured :=
  List.foldl_hom unmeasured fun _ _ => rfl

section Lengths

variable {r s : Registry} (same : r.unmeasured = s.unmeasured) (longest longest' : Int)
include same

theorem unmeasured_mergeFunction (path : String) (f : FunctionDecl) :
    (mergeFunction path longest r f).value.unmeasured =
      (mergeFunction path longest' s f).value.unmeasured := by
  have added : Prod.map id unmeasured (r.addFunction (f.entry path longest)).value =
      Prod.map id unmeasured (s.addFunction (f.entry path longest')).value := by
    rw [← addFunction_unmeasured, ← addFunction_unmeasured, same]
    rfl
  have isFresh := congrArg Prod.fst added
  have result := congrArg Prod.snd added
  simp only [Prod.map_fst, Prod.map_snd, id_eq] at isFresh result
  rw [value_mergeFunction, value_mergeFunction, isFresh]
  split
  · rw [← foldl_addCall_unmeasured, ← foldl_addCall_unmeasured, result]
  · exact result

theorem unmeasured_foldl_mergeFunction (path : String) (fs : List FunctionDecl) :
    (fs.foldl (fun r f => (mergeFunction path longest r f).value) r).unmeasured =
      (fs.foldl (fun r f => (mergeFunction path longest' r f).value) s).unmeasured := by
  induction fs generalizing r s with
  | nil => exact same
  | cons f fs ih => exact ih (unmeasured_mergeFunction same longest longest' path f)

/-- The length that functions are compared with shows nowhere else. -/
theorem unmeasured_mergeModule (m : ParsedModule) :
    (mergeModule longest r m).value.unmeasured = (mergeModule longest' s m).value.unmeasured := by
  rw [value_mergeModule, value_mergeModule]
  apply unmeasured_foldl_mergeFunction
  have entered : ∀ r : Registry,
      (m.importEntries.foldl addImport (r.addModule m.entry).value).unmeasured =
        m.importEntries.foldl addImport (r.unmeasured.addModule m.entry).value := by
    intro r
    rw [← foldl_addImport_unmeasured, value_addModule, value_addModule]
    rfl
  rw [entered, entered, same]

theorem unmeasured_foldl_mergeModule (ms : List ParsedModule) :
    (ms.foldl (fun r m => (mergeModule longest r m).value) r).unmeasured =
      (ms.foldl (fun r m => (mergeModule longest' r m).value) s).unmeasured := by
  induction ms generalizing r s with
  | nil => exact same
  | cons m ms ih => exact ih (unmeasured_mergeModule same longest longest' m)

end Lengths

/-- A batch may be merged in two parts. -/
theorem unmeasured_merge_append (r : Registry) (ms more : List ParsedModule) :
    (merge r (ms ++ more)).value.unmeasured =
      (merge (merge r ms).value more).value.unmeasured := by
  rw [value_merge_eq_foldl, value_merge_eq_foldl (merge r ms).value, taken_append,
    List.foldl_append]
  apply unmeasured_foldl_mergeModule
  rw [value_merge_eq_foldl]
  exact unmeasured_foldl_mergeModule rfl _ _ _

/-! ## Merged registries are reachable -/

theorem Reachable.mergeFunction {r : Registry} (reachable : r.Reachable) (path : String)
    (longest : Int) (f : FunctionDecl) :
    (Registry.mergeFunction path longest r f).value.Reachable := by
  have added := Reachable.addFunction (f.entry path longest) reachable
  rw [value_mergeFunction]
  split
  · exact List.foldlRecOn _ _ added fun _ ih c _ => .addCall c ih
  · exact added

theorem Reachable.mergeModule {r : Registry} (reachable : r.Reachable) (longest : Int)
    (m : ParsedModule) : (Registry.mergeModule longest r m).value.Reachable := by
  rw [value_mergeModule]
  apply List.foldlRecOn
  · apply List.foldlRecOn
    · exact .addModule m.entry reachable
    · intro _ ih i _
      exact .addImport i ih
  · intro _ ih f _
    exact ih.mergeFunction m.path longest f

/-- Merging is a run of additions. -/
theorem Reachable.merge {r : Registry} (reachable : r.Reachable) (ms : List ParsedModule) :
    (Registry.merge r ms).value.Reachable := by
  rw [value_merge_eq_foldl]
  exact List.foldlRecOn _ _ reachable fun _ ih m _ => ih.mergeModule _ m

/-! ## The first one wins -/

/-- What a function calls is what the registry holds at the path of its module. -/
theorem Consistent.callsOf_eq_filter_holding {r : Registry} (consistent : r.Consistent)
    (path caller : String) :
    r.callsOf ⟨path, caller⟩ = (r.holding path).calls.filter (·.caller = caller) := by
  rw [consistent.callsOf_eq]
  unfold holding
  rw [List.filter_filter]
  apply List.filter_congr
  intro c _
  simp [CallEntry.callerRef, Bool.and_comm]

/-- A registry `s` is a registry `r` with a batch of modules, of which those at known paths are
left out, and of one path all but the first. -/
structure FirstWins (r : Registry) (ms : List ParsedModule) (s : Registry) : Prop where
  scheme : s.scheme = r.scheme
  /-- At a known path, and so at that of the external node, all stays as it was. -/
  known : ∀ path, r.knows path = true →
    s.module? path = r.module? path ∧ s.holding path = r.holding path ∧
      (∀ name, s.functionsNamed path name = r.functionsNamed path name) ∧
      ∀ caller, s.callsOf ⟨path, caller⟩ = r.callsOf ⟨path, caller⟩
  /-- At any other path the first module of the batch is filled in, if there is one. -/
  unknown : ∀ path, r.knows path = false →
    s.holding path = match ms.find? (·.path = path) with
      | none => r.holding path
      | some m => (r.holding path).fill (longestLoc (r.taken ms)) m
  /-- The look-ups by name and by caller answer from what is held. -/
  consistent : s.Consistent

/-- Merging is first-wins, idempotent, and can be done in parts but for the lengths that functions
are compared with. -/
theorem merge_firstWins {r : Registry} (reachable : r.Reachable) (ms : List ParsedModule) :
    FirstWins r ms (merge r ms).value ∧
      (merge (merge r ms).value ms).value = (merge r ms).value ∧
      ∀ more, (merge r (ms ++ more)).value.unmeasured =
        (merge (merge r ms).value more).value.unmeasured := by
  have consistent := (reachable.merge ms).consistent
  refine ⟨⟨r.scheme_merge ms, ?known, ?unknown, consistent⟩, r.merge_again ms,
    r.unmeasured_merge_append ms⟩
  case known =>
    intro path known
    have held : (merge r ms).value.holding path = r.holding path := by
      rw [holding_merge, if_pos known]
    refine ⟨?_, held, ?_, ?_⟩
    · have entry : (merge r ms).value.modules.get? path = r.modules.get? path :=
        congrArg Holding.entry held
      unfold module? external
      rw [entry, scheme_merge]
    · intro name
      have functions : (merge r ms).value.functionTable path = r.functionTable path :=
        congrArg Holding.functions held
      rw [consistent.functionsNamed_eq, reachable.consistent.functionsNamed_eq]
      unfold functionsOf
      rw [functions]
    · intro caller
      rw [consistent.callsOf_eq_filter_holding, reachable.consistent.callsOf_eq_filter_holding,
        held]
  case unknown =>
    intro path unknown
    rw [holding_merge, if_neg (Bool.eq_false_iff.1 unknown)]

/-- A registry with one module, and with a function of a module that is not registered. -/
def stocked : Registry :=
  ofAdditions {}
    [.ofModule { path := "/a.xqy", qualifier := "a", uri := "urn:a" },
      .ofFunction { owner := "/a.xqy", name := "f", arity := 0 },
      .ofFunction { owner := "/b.xqy", name := "f", arity := 0 }]

/-- A module at a path, with functions of the given names and last lines. -/
def sketched (path : String) (functions : List (String × Nat)) : ParsedModule where
  path := path
  naming := ⟨"a", "urn:a", false⟩
  imports := ⟨[]⟩
  functions := functions.map fun f =>
    { name := f.1, qualifier := "a", line := 1, lineEnd := f.2, signature := "", body := ""
      calls := [{ qualifier := none, name := "g", arity := 0, line := 1 }] }
  lineCount := 9

/-- A batch with a known path, the path of the external node, and a path that comes twice. -/
def delivery : List ParsedModule :=
  [sketched "/a.xqy" [("h", 9)], sketched "MarkLogic-Library" [("h", 9)],
    sketched "/b.xqy" [("f", 9), ("g", 3), ("g", 7)], sketched "/b.xqy" [("h", 9)]]

/-- One module is taken, and one function of it: the first of its name that is not there. The
qualifier of the module that was there moves to it. -/
theorem delivery_firstWins :
    stocked.Reachable ∧
      stocked.taken delivery = [sketched "/b.xqy" [("f", 9), ("g", 3), ("g", 7)]] ∧
      ((merge stocked delivery).value.functionsOf "/a.xqy").map FunctionEntry.qualifiedName =
        ["f#0"] ∧
      ((merge stocked delivery).value.functionsOf "/b.xqy").map
          (fun f => (f.qualifiedName, f.loc)) = [("f#0", none), ("g#0", some 3)] ∧
      (merge stocked delivery).value.pathOfQualifier? "a" = some "/b.xqy" ∧
      FirstWins stocked delivery (merge stocked delivery).value := by
  have reachable : stocked.Reachable := reachable_ofAdditions _ _
  exact ⟨reachable, by rfl, by rfl, by rfl, by rfl, (merge_firstWins reachable delivery).1⟩

end Registry
end CallAtlas
