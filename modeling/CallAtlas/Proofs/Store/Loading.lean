import CallAtlas.Proofs.Store.Saving
import CallAtlas.Proofs.Store.Stored

/-!
# Loading what was saved

Each row of a saved registry is read back as what a store keeps of its entry. So the loops over the
five relations assemble the stored registry. There every query has the answer that it had in the
registry that was saved, but that the nodes of module graphs tell main modules by their URIs
(`queries_of_load`): a library module may have such a URI too (`disguisedSources_graph`). Only an
arity with more digits than numerals may have is not read back, and no text that fits such a number
holds one.
-/

namespace CallAtlas

/-! ## Entries with short arities -/

/-- A function entry whose name is plain and whose arity is a number of parameters. -/
structure FunctionEntry.Plain (f : FunctionEntry) : Prop where
  name : IsPlainName f.name
  arity : f.arity = Int.ofNat f.arity.toNat

/-- A call entry whose name is plain and whose arity is known. -/
structure CallEntry.Plain (c : CallEntry) (arity : Nat) : Prop where
  name : IsPlainName c.name
  arity : c.arity = some (Int.ofNat arity)

namespace Store

/-! ## Rows -/

theorem textOr_of_ne {default value : String} (nonempty : value ≠ "") :
    textOr default (some value) = value := by
  unfold textOr
  split
  next none => cases none
  next empty => exact (nonempty (Option.some.inj empty)).elim
  next same => exact (Option.some.inj same).symm

theorem textOr_empty (value : String) : textOr "" (some value) = value := by
  by_cases empty : value = ""
  · rw [empty]
    rfl
  · exact textOr_of_ne empty

theorem loadModule_ofEntry (r : Registry) {m : ModuleEntry} (path : m.path ≠ "")
    (qualifier : m.qualifier ≠ "") :
    loadModule r (ModuleRow.ofEntry m) = r.addModule m.stored := by
  have entry : (ModuleRow.ofEntry m).entry m.path = m.stored := by
    unfold ModuleRow.entry ModuleRow.ofEntry ModuleEntry.stored
    dsimp only
    rw [textOr_empty, textOr_of_ne qualifier]
    rfl
  unfold loadModule
  split
  next none => cases none
  next empty => exact (path (Option.some.inj empty)).elim
  next found =>
    cases found
    rw [entry]

theorem value_loadImport_ofEntry (r : Registry) {i : ImportEntry} (owner : i.owner ≠ "")
    (qualifier : i.qualifier ≠ "") :
    (loadImport r (ImportRow.ofEntry i)).value = r.addImport i := by
  unfold loadImport ImportRow.ofEntry
  dsimp only
  rw [if_neg owner, textOr_of_ne qualifier, textOr_empty]
  rfl

theorem splitQualified_of_short {name : String} (plain : IsPlainName name) {arity : Nat}
    (short : IsShortArity arity) :
    splitQualified (qualify name (some (Int.ofNat arity))) = .ok (name, some (Int.ofNat arity)) :=
  (splitQualified_qualify plain.1 plain.2 arity).trans (if_pos short)

theorem splitQualified_of_long {name : String} (plain : IsPlainName name) {arity : Nat}
    (long : ¬ IsShortArity arity) :
    splitQualified (qualify name (some (Int.ofNat arity))) =
      .error (.tooLong (Nat.toDigits 10 arity).length) :=
  (splitQualified_qualify plain.1 plain.2 arity).trans (if_neg long)

/-- The row of a function is read back as the function, given the rows of all parameters. -/
theorem loadFunction_ofEntry {fs : List FunctionEntry} (refs : (fs.map FunctionEntry.ref).Nodup)
    {f : FunctionEntry} (member : f ∈ fs) (plain : f.Plain) (short : IsShortArity f.arity.toNat)
    (r : Registry) :
    (loadFunction (fs.flatMap ParameterRow.ofFunction) r (FunctionRow.ofEntry f)).value =
      .ok (r.addFunction f.stored).value.2 := by
  have named : splitQualified f.qualifiedName = .ok (f.name, some f.arity) := by
    have parts := splitQualified_of_short plain.name short
    rw [← plain.arity] at parts
    exact parts
  have parameters : parametersOf (fs.flatMap ParameterRow.ofFunction) f.owner f.qualifiedName =
      f.parameters := by
    unfold parametersOf
    rw [filter_parameterRows refs member]
    unfold ParameterRow.ofFunction
    rw [List.map_map]
    exact List.map_id _
  have isPrivate : (some (if f.isPrivate then (1 : Int) else 0)).any (· != 0) = f.isPrivate := by
    cases f.isPrivate <;> rfl
  have entry : (FunctionRow.ofEntry f).entry (fs.flatMap ParameterRow.ofFunction) =
      .ok f.stored := by
    unfold FunctionRow.entry FunctionRow.ofEntry
    dsimp only
    rw [named]
    simp only [bind, Except.bind, pure, Except.pure, parameters, isPrivate, Option.getD_some]
    rfl
  unfold loadFunction
  rw [entry]
  rfl

theorem loadCall_ofEntry {c : CallEntry} {arity : Nat} (plain : c.Plain arity)
    (short : IsShortArity arity) (r : Registry) :
    (loadCall r (CallRow.ofEntry c)).value = .ok (r.addCall c.stored) := by
  have named : splitQualified c.called = .ok (c.name, some (Int.ofNat arity)) := by
    unfold CallEntry.called
    rw [plain.arity]
    exact splitQualified_of_short plain.name short
  have entry : (CallRow.ofEntry c).entry = .ok c.stored := by
    unfold CallRow.entry CallRow.ofEntry CallEntry.stored
    dsimp only
    rw [named, plain.arity]
    rfl
  unfold loadCall
  rw [entry]
  rfl

/-! ## Relations -/

theorem value_selectRows {α : Type} {t : FileTree} {p : Path} {d : Database}
    (held : database t p = .ok d) (relation : Relation) {rows : Database → Option (List α)}
    {list : List α} (found : rows d = some list) :
    (selectRows t p relation rows).value = .ok list := by
  unfold selectRows
  rw [select_eq held relation found]
  rfl

/-- The database of lists of entries. -/
def Database.ofLists (modules : List ModuleEntry) (imports : List ImportEntry)
    (functions : List FunctionEntry) (calls : List CallEntry) : Database where
  modules := some (modules.map ModuleRow.ofEntry)
  imports := some (imports.map ImportRow.ofEntry)
  functions := some (functions.map FunctionRow.ofEntry)
  parameters := some (functions.flatMap ParameterRow.ofFunction)
  calls := some (calls.map CallRow.ofEntry)

section Load

variable {t : FileTree} {p : Path} {scheme : VendorScheme} {modules : List ModuleEntry}
  {imports : List ImportEntry} {functions : List FunctionEntry} {calls : List CallEntry}
  (held : database t p = .ok (.ofLists modules imports functions calls))
  (moduleNames : ∀ m ∈ modules, m.path ≠ "" ∧ m.qualifier ≠ "")
  (importNames : ∀ i ∈ imports, i.owner ≠ "" ∧ i.qualifier ≠ "")
include held moduleNames importNames

/-- Loading is reading back the functions and then the calls, after the modules and imports. -/
theorem value_load_eq :
    (load t p scheme).value =
      ((functions.map FunctionRow.ofEntry).foldlM
          (loadFunction (functions.flatMap ParameterRow.ofFunction))
          (Registry.assemble scheme (modules.map ModuleEntry.stored) imports [] []) >>=
        fun r => (calls.map CallRow.ofEntry).foldlM loadCall r).value := by
  have loadedModules : ((modules.map ModuleRow.ofEntry).foldlM loadModule
      ({ scheme := scheme } : Registry)).value =
        Registry.assemble scheme (modules.map ModuleEntry.stored) [] [] [] := by
    rw [Report.value_foldlM, List.foldl_map]
    have rows : ∀ r, ∀ m ∈ modules,
        (loadModule r (ModuleRow.ofEntry m)).value = (r.addModule m.stored).value := by
      intro r m member
      rw [loadModule_ofEntry r (moduleNames m member).1 (moduleNames m member).2]
    have all := Registry.foldl_addModule_assemble scheme [] [] [] []
      (modules.map ModuleEntry.stored)
    rw [List.foldl_map] at all
    exact (List.foldl_ext _ _ _ rows).trans all
  have loadedImports : ((imports.map ImportRow.ofEntry).foldlM loadImport
      (Registry.assemble scheme (modules.map ModuleEntry.stored) [] [] [])).value =
        Registry.assemble scheme (modules.map ModuleEntry.stored) imports [] [] := by
    rw [Report.value_foldlM, List.foldl_map]
    have rows : ∀ r, ∀ i ∈ imports,
        (loadImport r (ImportRow.ofEntry i)).value = r.addImport i := by
      intro r i member
      exact value_loadImport_ofEntry r (importNames i member).1 (importNames i member).2
    exact (List.foldl_ext _ _ _ rows).trans (Registry.foldl_addImport_assemble ..)
  unfold load
  rw [Checked.value_bind_of_ok (value_selectRows held .modules rfl),
    Checked.value_bind_of_ok (Checked.value_lift _), loadedModules,
    Checked.value_bind_of_ok (value_selectRows held .imports rfl),
    Checked.value_bind_of_ok (Checked.value_lift _), loadedImports,
    Checked.value_bind_of_ok (value_selectRows held .parameters rfl),
    Checked.value_bind_of_ok (value_selectRows held .functions rfl), Checked.value_bind,
    Checked.value_bind]
  congr 1
  funext r
  rw [Checked.value_bind_of_ok (value_selectRows held .calls rfl), Checked.value_bind]
  cases ((calls.map CallRow.ofEntry).foldlM loadCall r).value with
  | ok r => rfl
  | error e => rfl

variable (refs : (functions.map FunctionEntry.ref).Nodup)
  (plainFunctions : ∀ f ∈ functions, f.Plain)
  (plainCalls : ∀ c ∈ calls, ∃ arity, c.Plain arity)
include refs plainFunctions plainCalls

/-- Rows with short arities are loaded as the stored registry. -/
theorem value_load_of_short (shortFunctions : ∀ f ∈ functions, IsShortArity f.arity.toNat)
    (shortCalls : ∀ c ∈ calls, ∀ arity, c.Plain arity → IsShortArity arity) :
    (load t p scheme).value =
      .ok (Registry.assemble scheme modules imports functions calls).stored := by
  have loadedFunctions : ((functions.map FunctionRow.ofEntry).foldlM
      (loadFunction (functions.flatMap ParameterRow.ofFunction))
      (Registry.assemble scheme (modules.map ModuleEntry.stored) imports [] [])).value =
        .ok (Registry.assemble scheme (modules.map ModuleEntry.stored) imports
          (functions.map FunctionEntry.stored) []) := by
    have storedRefs : (([] ++ functions.map FunctionEntry.stored).map FunctionEntry.ref).Nodup := by
      rw [List.nil_append, List.map_map]
      exact refs
    have all := Registry.foldl_addFunction_assemble scheme (modules.map ModuleEntry.stored) imports
      [] [] storedRefs
    rw [List.foldl_map, List.nil_append] at all
    rw [List.foldlM_map, ← all]
    refine Checked.value_foldlM_of_ok ?_ _
    intro r f member
    exact loadFunction_ofEntry refs member (plainFunctions f member) (shortFunctions f member) r
  have loadedCalls : ((calls.map CallRow.ofEntry).foldlM loadCall
      (Registry.assemble scheme (modules.map ModuleEntry.stored) imports
        (functions.map FunctionEntry.stored) [])).value =
        .ok (Registry.assemble scheme (modules.map ModuleEntry.stored) imports
          (functions.map FunctionEntry.stored) (calls.map CallEntry.stored)) := by
    have all := Registry.foldl_addCall_assemble scheme (modules.map ModuleEntry.stored) imports
      (functions.map FunctionEntry.stored) [] (calls.map CallEntry.stored)
    rw [List.foldl_map, List.nil_append] at all
    rw [List.foldlM_map, ← all]
    refine Checked.value_foldlM_of_ok ?_ _
    intro r c member
    obtain ⟨arity, plain⟩ := plainCalls c member
    exact loadCall_ofEntry plain (shortCalls c member arity plain) r
  rw [value_load_eq held moduleNames importNames, Registry.stored_assemble]
  exact (Checked.value_bind_of_ok loadedFunctions _).trans loadedCalls

/-- What is loaded at all is the stored registry: a long arity makes loading fail. -/
theorem eq_stored_of_load {r : Registry} (loaded : (load t p scheme).value = .ok r) :
    r = (Registry.assemble scheme modules imports functions calls).stored := by
  have outcome := loaded
  rw [value_load_eq held moduleNames importNames] at outcome
  obtain ⟨middle, functionsLoaded, callsLoaded⟩ := Checked.value_bind_eq_ok.1 outcome
  have shortFunctions : ∀ f ∈ functions, IsShortArity f.arity.toNat := by
    intro f member
    obtain ⟨before, next, step⟩ := Checked.exists_of_value_foldlM functionsLoaded
      (FunctionRow.ofEntry f) (List.mem_map_of_mem member)
    by_contra long
    have fails := splitQualified_of_long (plainFunctions f member).name long
    rw [← (plainFunctions f member).arity] at fails
    change splitQualified (FunctionRow.ofEntry f).name = _ at fails
    unfold loadFunction FunctionRow.entry at step
    rw [fails] at step
    cases step
  have shortCalls : ∀ c ∈ calls, ∀ arity, c.Plain arity → IsShortArity arity := by
    intro c member arity plain
    obtain ⟨before, next, step⟩ := Checked.exists_of_value_foldlM callsLoaded
      (CallRow.ofEntry c) (List.mem_map_of_mem member)
    by_contra long
    have fails := splitQualified_of_long plain.name long
    rw [← plain.arity] at fails
    change splitQualified (CallRow.ofEntry c).called = _ at fails
    unfold loadCall CallRow.entry at step
    rw [fails] at step
    cases step
  have whole : (load t p scheme).value = _ := value_load_of_short held moduleNames importNames refs
    plainFunctions plainCalls shortFunctions shortCalls
  rw [loaded] at whole
  exact Except.ok.inj whole

end Load

/-! ## Registries of read modules -/

theorem database_ofModules {scheme : VendorScheme} {longest : Int} {ms : List ParsedModule}
    (paths : (ms.map ParsedModule.path).Nodup) (distinct : ∀ m ∈ ms, m.Distinct) :
    Database.ofRegistry (Registry.ofModules scheme longest ms) =
      .ofLists (ms.map ParsedModule.entry) (ms.flatMap ParsedModule.importEntries)
        (ms.flatMap (ParsedModule.functionEntries longest))
        (ms.flatMap ParsedModule.callEntries) := by
  unfold Database.ofRegistry
  dsimp only
  rw [Registry.flatMap_importsOf_ofModules paths distinct,
    Registry.values_modules_ofModules paths, Registry.allFunctions_ofModules paths distinct]
  rfl

section Modules

variable {ms : List ParsedModule} (sound : ∀ m ∈ ms, m.Sound) (named : ∀ m ∈ ms, m.path ≠ "")
include sound

theorem plain_functionEntries {longest : Int} {f : FunctionEntry}
    (member : f ∈ ms.flatMap (ParsedModule.functionEntries longest)) :
    ∃ m ∈ ms, ∃ g ∈ m.functions, f.arity.toNat = g.arity ∧ f.Plain := by
  obtain ⟨m, listed, inModule⟩ := List.mem_flatMap.1 member
  obtain ⟨g, declared, rfl⟩ := List.mem_map.1 inModule
  exact ⟨m, listed, g, declared, rfl, ((sound m listed).plain g declared).name, rfl⟩

theorem plain_callEntries {c : CallEntry} (member : c ∈ ms.flatMap ParsedModule.callEntries) :
    ∃ m ∈ ms, ∃ g ∈ m.functions, ∃ site ∈ g.calls, c.Plain site.arity := by
  obtain ⟨m, listed, inModule⟩ := List.mem_flatMap.1 member
  obtain ⟨g, declared, inFunction⟩ := List.mem_flatMap.1 inModule
  obtain ⟨site, inBody, rfl⟩ := List.mem_map.1 inFunction
  exact ⟨m, listed, g, declared, site, inBody,
    ((sound m listed).plain g declared).calls site inBody, rfl⟩

include named

theorem names_importEntries {i : ImportEntry} (member : i ∈ ms.flatMap ParsedModule.importEntries) :
    i.owner ≠ "" ∧ i.qualifier ≠ "" := by
  obtain ⟨m, listed, inModule⟩ := List.mem_flatMap.1 member
  refine ⟨ParsedModule.owner_of_mem_importEntries inModule ▸ named m listed, ?_⟩
  obtain ⟨clause, filed, rfl⟩ := List.mem_map.1 inModule
  obtain ⟨entry, held, rfl⟩ := List.mem_map.1 filed
  obtain ⟨key, nonempty⟩ := (sound m listed).held entry held
  exact key ▸ nonempty

/-- The store of a registry of read modules is loaded as the stored registry, or not at all. -/
theorem load_ofModules {scheme : VendorScheme} {longest : Int} {t : FileTree} {p : Path}
    (paths : (ms.map ParsedModule.path).Nodup)
    (held : database t p = .ok (Database.ofRegistry (Registry.ofModules scheme longest ms))) :
    ((∀ m ∈ ms, ∀ f ∈ m.functions, f.Short) →
        (load t p scheme).value = .ok (Registry.ofModules scheme longest ms).stored) ∧
      ∀ r, (load t p scheme).value = .ok r →
        r = (Registry.ofModules scheme longest ms).stored := by
  have distinct : ∀ m ∈ ms, m.Distinct := fun m member => (sound m member).distinct
  rw [database_ofModules paths distinct] at held
  have moduleNames : ∀ m ∈ ms.map ParsedModule.entry, m.path ≠ "" ∧ m.qualifier ≠ "" := by
    intro m member
    obtain ⟨parsed, listed, rfl⟩ := List.mem_map.1 member
    exact ⟨named parsed listed, (sound parsed listed).qualifier⟩
  have importNames : ∀ i ∈ ms.flatMap ParsedModule.importEntries, i.owner ≠ "" ∧ i.qualifier ≠ "" :=
    fun i member => names_importEntries sound named member
  have refs := Registry.nodup_refs paths (fun m member => (distinct m member).functions) longest
  have plainFunctions : ∀ f ∈ ms.flatMap (ParsedModule.functionEntries longest), f.Plain := by
    intro f member
    obtain ⟨-, -, -, -, -, plain⟩ := plain_functionEntries sound member
    exact plain
  have plainCalls : ∀ c ∈ ms.flatMap ParsedModule.callEntries, ∃ arity, c.Plain arity := by
    intro c member
    obtain ⟨-, -, -, -, site, -, plain⟩ := plain_callEntries sound member
    exact ⟨site.arity, plain⟩
  constructor
  · intro short
    refine value_load_of_short held moduleNames importNames refs plainFunctions plainCalls ?_ ?_
    · intro f member
      obtain ⟨m, listed, g, declared, arity, -⟩ := plain_functionEntries sound member
      rw [arity]
      exact (short m listed g declared).arity
    · intro c member arity plain
      obtain ⟨m, listed, g, declared, site, inBody, plain'⟩ := plain_callEntries sound member
      have same : Int.ofNat arity = Int.ofNat site.arity :=
        Option.some.inj (plain.arity.symm.trans plain'.arity)
      rw [Int.ofNat.inj same]
      exact (short m listed g declared).calls site inBody
  · intro r loaded
    exact eq_stored_of_load held moduleNames importNames refs plainFunctions plainCalls loaded

end Modules

/-- **What a store answers.** Modules are read from texts, merged and saved to a plain file. What is
loaded from the file has the same call trees, or misses the same functions. It has the same module
graphs, sheets and files of graphs, with the marks of main modules read off their URIs: the graphs
are equal outright if and only if no module that is shown and is no main module gives itself a URI
that is made up for main modules. Loading succeeds for all texts that are no longer than numerals
reach. -/
theorem queries_of_load {scheme : VendorScheme} {sources : List (String × String)}
    {ms : List ParsedModule} {r : Registry} {p : Path} {t t' : FileTree}
    (named : ∀ s ∈ sources, s.1 ≠ "")
    (read : (sources.mapM fun s => Source.readModule s.2 s.1).value = .ok ms)
    (merged : (Registry.merge { scheme := scheme } ms).value = r)
    (plain : Target.ofName p.text = .ok { path := p })
    (saved : (save p r).value t = (.ok (), t')) :
    ((∀ s ∈ sources, s.2.length < 10 ^ maxDigits) → ∃ r', (load t' p scheme).value = .ok r') ∧
      ∀ r', (load t' p scheme).value = .ok r' →
        (∀ path function bound,
          CallTree.ofFunction r' path function bound = CallTree.ofFunction r path function bound) ∧
        ∀ connectedOnly,
          let loaded := (ModuleGraph.ofRegistry r' connectedOnly).value
          let original := (ModuleGraph.ofRegistry r connectedOnly).value
          loaded = original.markedByUri ∧ loaded.toSheet = original.toSheet ∧
            loaded.toSheet.write = original.toSheet.write ∧
            (loaded = original ↔ ∀ n ∈ original.nodes, n.entry.isMain = false →
              Naming.mainScheme.toList.isPrefixOf n.entry.uri.toList = false) := by
  have each : ∀ m ∈ ms, ∃ s ∈ sources, (Source.readModule s.2 s.1).value = .ok m :=
    Checked.exists_of_mem_mapM read
  have sound : ∀ m ∈ ms, m.Sound ∧ m.path ≠ "" := by
    intro m member
    obtain ⟨s, listed, result⟩ := each m member
    obtain ⟨path, sound, -⟩ := Source.readModule_spec result
    exact ⟨sound, path ▸ named s listed⟩
  have kept_sound : ∀ m ∈ Registry.kept scheme ms, m.Sound ∧ m.path ≠ "" := fun m member =>
    sound m ((Registry.kept_sublist scheme ms).subset member)
  have paths := Registry.nodup_paths_kept scheme ms
  rw [Registry.value_merge fun m member => (sound m member).1.distinct] at merged
  have held := database_of_save plain rfl saved
  rw [← merged] at held
  obtain ⟨loads, unique⟩ := load_ofModules (fun m member => (kept_sound m member).1)
    (fun m member => (kept_sound m member).2) paths held
  constructor
  · intro short
    refine ⟨_, loads ?_⟩
    intro m member
    obtain ⟨s, listed, result⟩ := each m ((Registry.kept_sublist scheme ms).subset member)
    exact (Source.readModule_spec result).2.2 (short s listed)
  · intro r' loaded
    rw [merged] at unique
    rw [unique r' loaded]
    refine ⟨fun path function bound => CallTree.ofFunction_stored r path function bound, ?_⟩
    intro connectedOnly
    have modules : r.modules.values = (Registry.kept scheme ms).map ParsedModule.entry := by
      rw [← merged]
      exact Registry.values_modules_ofModules paths
    have own : ∀ m ∈ r.modules.values, m.isExternal = false := by
      rw [modules]
      exact List.forall_mem_map.2 fun parsed _ => rfl
    have main : ∀ n ∈ (ModuleGraph.ofRegistry r connectedOnly).value.nodes,
        n.entry.isMain = true →
          Naming.mainScheme.toList.isPrefixOf n.entry.uri.toList = true := by
      intro n shown isMain
      have listed := ModuleGraph.entry_mem_allModules shown
      rw [Registry.allModules, modules, List.mem_append, List.mem_singleton] at listed
      rcases listed with inModules | external
      · obtain ⟨parsed, kept, same⟩ := List.mem_map.1 inModules
        rw [← same] at isMain ⊢
        exact (kept_sound parsed kept).1.main isMain
      · rw [external] at isMain
        cases isMain
    have graphs := ModuleGraph.ofRegistry_stored r own connectedOnly
    have sheets : (ModuleGraph.ofRegistry r.stored connectedOnly).value.toSheet =
        (ModuleGraph.ofRegistry r connectedOnly).value.toSheet := by
      rw [graphs, ModuleGraph.toSheet_markedByUri]
    refine ⟨graphs, sheets, congrArg Gml.Sheet.write sheets, ?_⟩
    rw [graphs]
    exact ModuleGraph.markedByUri_eq_self_iff main

/-- The registry of some texts. -/
def registryOf (sources : List (String × String)) : Registry :=
  (Registry.merge {}
    ((sources.mapM fun s => Source.readModule s.2 s.1).value.toOption.getD [])).value

theorem merge_eq_registryOf {sources : List (String × String)} {ms : List ParsedModule}
    (read : (sources.mapM fun s => Source.readModule s.2 s.1).value = .ok ms) :
    (Registry.merge {} ms).value = registryOf sources := by
  unfold registryOf
  rw [read]
  rfl

theorem exists_of_isOk {ε α : Type} {outcome : Except ε α} (succeeds : outcome.isOk = true) :
    ∃ a, outcome = .ok a := by
  cases outcome with
  | error e => cases succeeds
  | ok a => exact ⟨a, rfl⟩

/-- A module with a function that calls itself. -/
def sampleSources : List (String × String) :=
  [("/a.xqy", "module namespace a=\"u\";declare function a:f()\x7ba:f()\x7d;")]

/-- The registry of the sample can be saved and loaded, and has the same tree and the same graph. -/
theorem sample_queries : ∃ r' t',
    (save (.ofString "a.db") (registryOf sampleSources)).value (.atFolder ["work"]) =
        (.ok (), t') ∧
      (load t' (.ofString "a.db") {}).value = .ok r' ∧
      CallTree.ofFunction r' "/a.xqy" "f#0" none =
        CallTree.ofFunction (registryOf sampleSources) "/a.xqy" "f#0" none ∧
      (ModuleGraph.ofRegistry r' true).value =
        (ModuleGraph.ofRegistry (registryOf sampleSources) true).value := by
  have isRead : (sampleSources.mapM fun s => Source.readModule s.2 s.1).value.isOk = true := by
    decide +kernel
  have isSaved : ((save (.ofString "a.db") (registryOf sampleSources)).value
      (.atFolder ["work"])).1.isOk = true := by
    decide +kernel
  obtain ⟨ms, read⟩ := exists_of_isOk isRead
  obtain ⟨⟨⟩, saved⟩ := exists_of_isOk isSaved
  have named : ∀ s ∈ sampleSources, s.1 ≠ "" := by decide
  have short : ∀ s ∈ sampleSources, s.2.length < 10 ^ maxDigits := by
    intro s member
    have small : s.2.length < 10 ^ 3 := by
      revert s
      decide +kernel
    exact Nat.lt_of_lt_of_le small (Nat.pow_le_pow_right (by decide) (by decide))
  have honest : ∀ n ∈ (ModuleGraph.ofRegistry (registryOf sampleSources) true).value.nodes,
      n.entry.isMain = false →
        Naming.mainScheme.toList.isPrefixOf n.entry.uri.toList = false := by
    decide +kernel
  obtain ⟨loads, queries⟩ := @queries_of_load {} _ _ _ _ _ _ named read (merge_eq_registryOf read)
    (by decide) (Prod.ext saved rfl)
  obtain ⟨r', loaded⟩ := loads short
  obtain ⟨trees, graphs⟩ := queries r' loaded
  exact ⟨r', _, Prod.ext saved rfl, loaded, trees _ _ _, (graphs true).2.2.2.2 honest⟩

/-! ## A URI like those of main modules -/

/-- A library module whose URI is like those of main modules. -/
def disguisedSources : List (String × String) :=
  [("/a.xqy", "module namespace a = \"urn:xqy-main:x\";")]

/-- The files after its registry was saved. -/
def disguisedFiles : FileTree :=
  ((save (.ofString "a.db") (registryOf disguisedSources)).value (.atFolder ["work"])).2

theorem disguised_loaded : ∃ ms r',
    (disguisedSources.mapM fun s => Source.readModule s.2 s.1).value = .ok ms ∧
      (Registry.merge {} ms).value = registryOf disguisedSources ∧
      (save (.ofString "a.db") (registryOf disguisedSources)).value (.atFolder ["work"]) =
        (.ok (), disguisedFiles) ∧
      (load disguisedFiles (.ofString "a.db") {}).value = .ok r' := by
  have isRead : (disguisedSources.mapM fun s => Source.readModule s.2 s.1).value.isOk = true := by
    decide +kernel
  have isSaved : ((save (.ofString "a.db") (registryOf disguisedSources)).value
      (.atFolder ["work"])).1.isOk = true := by
    decide +kernel
  have isLoaded : (load disguisedFiles (.ofString "a.db") {}).value.isOk = true := by
    decide +kernel
  obtain ⟨ms, read⟩ := exists_of_isOk isRead
  obtain ⟨⟨⟩, saved⟩ := exists_of_isOk isSaved
  obtain ⟨r', loaded⟩ := exists_of_isOk isLoaded
  exact ⟨ms, r', read, merge_eq_registryOf read, Prod.ext saved rfl, loaded⟩

/-- In the graph that is loaded, the node of the library module is that of a main module. -/
theorem disguisedSources_graph : ∃ ms r',
    (disguisedSources.mapM fun s => Source.readModule s.2 s.1).value = .ok ms ∧
      (Registry.merge {} ms).value = registryOf disguisedSources ∧
      (save (.ofString "a.db") (registryOf disguisedSources)).value (.atFolder ["work"]) =
        (.ok (), disguisedFiles) ∧
      (load disguisedFiles (.ofString "a.db") {}).value = .ok r' ∧
      (ModuleGraph.ofRegistry r' false).value ≠
        (ModuleGraph.ofRegistry (registryOf disguisedSources) false).value := by
  obtain ⟨ms, r', read, merged, saved, loaded⟩ := disguised_loaded
  have before : (ModuleGraph.ofRegistry (registryOf disguisedSources) false).value.nodes.map
      (fun n => n.entry.isMain) = [false, false] := by
    decide +kernel
  have after : ((load disguisedFiles (.ofString "a.db") {}).value.map fun r' =>
      (ModuleGraph.ofRegistry r' false).value.nodes.map
        (fun n => n.entry.isMain)).toOption = some [true, false] := by
    decide +kernel
  refine ⟨ms, r', read, merged, saved, loaded, ?_⟩
  intro same
  rw [loaded] at after
  have misread : (ModuleGraph.ofRegistry r' false).value.nodes.map (fun n => n.entry.isMain) =
      [true, false] := Option.some.inj after
  rw [same, before] at misread
  cases misread

end Store
end CallAtlas
