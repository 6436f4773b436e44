import CallAtlas.Analysis
import CallAtlas.Proofs.Registry.Assembly
import CallAtlas.Proofs.Registry.Edges
import CallAtlas.Proofs.Store.Saving
import Mathlib.Algebra.Ring.Int.Defs

/-!
# What an analysis counts

An analysis counts files while it collects them, modules and functions after it merged them, and
edges while it resolves calls. The counts agree with each other and with the rows of the store
because each step drops what a later one would drop otherwise: no two collected files have the same
module path, no module read from a file names a function twice, and every call has an arity, so
that it has one edge or none.
-/

namespace CallAtlas

/-- The counts of an analysis agree with each other and with the rows of a database. -/
structure Statistics.Accounts (s : Statistics) (d : Store.Database) : Prop where
  files : s.files = s.skipped + s.modules
  modules : s.modules = (d.modules.getD []).length
  functions : s.functions = (d.functions.getD []).length
  functions_sum : Int.ofNat s.functions =
    ((d.modules.getD []).map fun row => row.functionCount.getD 0).sum
  calls : s.calls = (d.calls.getD []).length
  calls_sum : Int.ofNat s.calls = ((d.functions.getD []).map fun row => row.callCount.getD 0).sum
  edges : s.edges + s.unresolved = s.calls
  /-- A function row is named by an arity, and has so many parameter rows. -/
  parameters : ∀ row ∈ d.functions.getD [], ∃ name arity,
    row.name = qualify name (some (Int.ofNat arity)) ∧
      (d.parameters.getD []).countP
        (fun parameter => parameter.file == row.file && parameter.function == row.name) = arity

namespace Analysis

/-! ## Collecting files -/

/-- An analysis finds a file in one of the source roots of its repository. -/
def Finds (t : FileTree) (settings : Settings) (roots : List SourceRoot) (s : SourceFile) : Prop :=
  ∃ root ∈ roots, ∃ files, (filesOf t settings root).value = .ok files ∧ s ∈ files

theorem value_firstOfPath_cons (taken : List SourceFile) (s : SourceFile)
    (rest : List SourceFile) :
    (firstOfPath taken (s :: rest)).value =
      if s.modulePath ∈ taken.map SourceFile.modulePath then (firstOfPath taken rest).value
      else (firstOfPath (taken ++ [s]) rest).value := by
  rw [firstOfPath]
  cases found : taken.find? (·.modulePath == s.modulePath) with
  | some owner =>
    have same := List.find?_some found
    rw [if_pos (List.mem_map.2 ⟨owner, List.mem_of_find?_eq_some found, eq_of_beq same⟩)]
    rfl
  | none =>
    rw [if_neg]
    intro held
    obtain ⟨owner, listed, same⟩ := List.mem_map.1 held
    exact List.find?_eq_none.1 found owner listed (beq_iff_eq.2 same)

/-- The files that count have module paths of their own, are no more than were found, and are
among those found. -/
theorem firstOfPath_spec {taken : List SourceFile} (rest : List SourceFile)
    (nodup : (taken.map SourceFile.modulePath).Nodup) :
    ((firstOfPath taken rest).value.map SourceFile.modulePath).Nodup ∧
      (firstOfPath taken rest).value.length ≤ taken.length + rest.length ∧
      ∀ s ∈ (firstOfPath taken rest).value, s ∈ taken ∨ s ∈ rest := by
  induction rest generalizing taken with
  | nil => exact ⟨nodup, Nat.le_refl _, fun s member => Or.inl member⟩
  | cons s rest ih =>
    rw [value_firstOfPath_cons, List.length_cons]
    split
    next =>
      obtain ⟨distinct, short, from_lists⟩ := ih nodup
      refine ⟨distinct, by omega, ?_⟩
      intro x member
      exact (from_lists x member).imp_right (List.mem_cons_of_mem _)
    next fresh =>
      have grown : ((taken ++ [s]).map SourceFile.modulePath).Nodup := by
        rw [List.map_append, List.nodup_append]
        refine ⟨nodup, List.nodup_singleton _, ?_⟩
        intro path held other last same
        rw [List.map_singleton, List.mem_singleton] at last
        exact fresh (last ▸ same ▸ held)
      obtain ⟨distinct, short, from_lists⟩ := ih grown
      rw [List.length_append, List.length_singleton] at short
      refine ⟨distinct, by omega, ?_⟩
      intro x member
      rcases from_lists x member with old | later
      · rcases List.mem_append.1 old with held | last
        · exact Or.inl held
        · exact Or.inr (List.mem_singleton.1 last ▸ List.mem_cons_self)
      · exact Or.inr (List.mem_cons_of_mem _ later)

theorem collect_spec {t : FileTree} {settings : Settings} {roots : List SourceRoot}
    {total total' : Nat} {taken files : List SourceFile}
    (nodup : (taken.map SourceFile.modulePath).Nodup) (short : taken.length ≤ total)
    (collected : (collect t settings (total, taken) roots).value = .ok (total', files)) :
    (files.map SourceFile.modulePath).Nodup ∧ files.length ≤ total' ∧
      ∀ s ∈ files, s ∈ taken ∨ Finds t settings roots s := by
  induction roots generalizing total taken with
  | nil =>
    cases collected
    exact ⟨nodup, short, fun s member => Or.inl member⟩
  | cons root roots ih =>
    obtain ⟨found, inRoot, collected⟩ := Checked.value_bind_eq_ok.1 collected
    obtain ⟨kept, counted, collected⟩ := Checked.value_bind_eq_ok.1 collected
    cases counted
    obtain ⟨distinct, fewer, from_lists⟩ := firstOfPath_spec found nodup
    obtain ⟨nodup', short', from_rest⟩ := ih distinct (by omega) collected
    refine ⟨nodup', short', ?_⟩
    intro s member
    rcases from_rest s member with held | ⟨other, listed, later⟩
    · rcases from_lists s held with old | here
      · exact Or.inl old
      · exact Or.inr ⟨root, List.mem_cons_self, found, inRoot, here⟩
    · exact Or.inr ⟨other, List.mem_cons_of_mem _ listed, later⟩

/-! ## Reading files -/

/-- Arrivals in the order of the places fill the places. -/
theorem fillPlaces_zipIdx (read : List (Option ParsedModule)) (filled : List (Option ParsedModule)) :
    (read.zipIdx filled.length).foldl (fun places x => places.set x.2 x.1)
        (filled ++ List.replicate read.length none) = filled ++ read := by
  induction read generalizing filled with
  | nil => rw [List.length_nil, List.replicate_zero]; rfl
  | cons m read ih =>
    have rest := ih (filled ++ [m])
    rw [List.length_append, List.length_singleton, List.append_assoc, List.append_assoc,
      List.singleton_append, List.singleton_append] at rest
    rw [List.zipIdx_cons, List.foldl_cons, List.length_cons, List.replicate_succ]
    rw [List.set_append_right _ _ (Nat.le_refl _), Nat.sub_self, List.set_cons_zero]
    exact rest

/-- Each file that can be read arrives with its place. -/
theorem arrivals_spec {t : FileTree} {files : List SourceFile} {place : Nat}
    {arrivals : List Arrival}
    (arrived : (files.zipIdx place).mapM (fun x => do return (x.2, ← readFile t x.1)) =
      .ok arrivals) :
    ∃ read : List (Option ParsedModule), arrivals = (read.zipIdx place).map Prod.swap ∧
      List.Forall₂ (fun s m => readFile t s = .ok m) files read := by
  induction files generalizing place arrivals with
  | nil =>
    cases arrived
    exact ⟨[], rfl, .nil⟩
  | cons s files ih =>
    rw [List.zipIdx_cons] at arrived
    obtain ⟨arrival, rest, first, later, rfl⟩ := mapM_cons_eq_ok.1 arrived
    cases outcome : readFile t s with
    | error e =>
      rw [outcome] at first
      cases first
    | ok m =>
      rw [outcome] at first
      cases first
      obtain ⟨read, rfl, each⟩ := ih later
      exact ⟨m :: read, rfl, .cons outcome each⟩

theorem readFile_spec {t : FileTree} {s : SourceFile} {m : ParsedModule}
    (read : readFile t s = .ok (some m)) : m.path = s.modulePath ∧ m.Sound := by
  unfold readFile at read
  split at read
  next text _ =>
    change some <$> (Source.readModule text s.modulePath).value = _ at read
    cases result : (Source.readModule text s.modulePath).value with
    | error e => rw [result] at read; cases read
    | ok m' =>
      rw [result] at read
      cases read
      obtain ⟨path, sound, -⟩ := Source.readModule_spec result
      exact ⟨path, sound⟩
  next => cases read

theorem length_fillPlaces (count : Nat) (arrivals : List Arrival) :
    (fillPlaces count arrivals).length = count := by
  have kept : ∀ (arrivals : List Arrival) (places : List (Option ParsedModule)),
      (arrivals.foldl (fun places x => places.set x.1 x.2) places).length = places.length := by
    intro arrivals
    induction arrivals with
    | nil => exact fun places => rfl
    | cons arrival arrivals ih =>
      intro places
      rw [List.foldl_cons, ih, List.length_set]
  unfold fillPlaces
  rw [kept, List.length_replicate]

/-- Every file has a module or is skipped. -/
theorem ParsedFiles.skipped_add_length (count : Nat) (arrivals : List Arrival) :
    (ofArrivals count arrivals).skipped + (ofArrivals count arrivals).modules.length = count := by
  have short : (ofArrivals count arrivals).modules.length ≤ (fillPlaces count arrivals).length :=
    List.length_filterMap_le _ _
  rw [length_fillPlaces] at short
  exact Nat.sub_add_cancel short

/-- Files that were read have each come to an end, with the modules that were taken. -/
theorem readFiles_eq_ok {t : FileTree} {files : List SourceFile} {parsed : ParsedFiles}
    (read : readFiles t files = .ok parsed) :
    ∃ outcomes, List.Forall₂ (fun s m => readFile t s = .ok m) files outcomes ∧
      parsed.modules = outcomes.filterMap id ∧
      parsed.skipped + parsed.modules.length = files.length := by
  unfold readFiles at read
  cases arrived : arrivalsOf t files with
  | error e =>
    rw [arrived] at read
    cases read
  | ok arrivals =>
    rw [arrived] at read
    cases read
    obtain ⟨outcomes, rfl, each⟩ := arrivals_spec arrived
    have filled : fillPlaces files.length ((outcomes.zipIdx 0).map Prod.swap) = outcomes := by
      unfold fillPlaces
      rw [List.foldl_map, each.length_eq]
      exact fillPlaces_zipIdx outcomes []
    refine ⟨outcomes, each, ?_, ParsedFiles.skipped_add_length _ _⟩
    unfold ParsedFiles.ofArrivals
    rw [filled]

/-- The modules that were read have the module paths of some of the files, in their order. -/
theorem readFiles_spec {t : FileTree} {files : List SourceFile} {parsed : ParsedFiles}
    (read : readFiles t files = .ok parsed) :
    (parsed.modules.map ParsedModule.path).Sublist (files.map SourceFile.modulePath) ∧
      ∀ m ∈ parsed.modules, m.Sound := by
  obtain ⟨outcomes, each, modules, -⟩ := readFiles_eq_ok read
  rw [modules]
  clear read modules
  induction each with
  | nil =>
    refine ⟨List.Sublist.slnil, ?_⟩
    intro m member
    cases member
  | @cons s outcome files outcomes here _ ih =>
    obtain ⟨sublist, sound⟩ := ih
    cases outcome with
    | none => exact ⟨sublist.cons _, sound⟩
    | some m =>
      obtain ⟨path, own⟩ := readFile_spec here
      have step : (some m :: outcomes).filterMap id = m :: outcomes.filterMap id := rfl
      rw [step, List.map_cons, List.map_cons, path]
      exact ⟨sublist.cons_cons _, List.forall_mem_cons.2 ⟨own, sound⟩⟩

end Analysis

/-! ## Counting rows -/

namespace Registry

theorem sum_functionCount (longest : Int) (ms : List ParsedModule) :
    (ms.map fun m => m.entry.functionCount).sum =
      Int.ofNat (ms.flatMap (ParsedModule.functionEntries longest)).length := by
  induction ms with
  | nil => rfl
  | cons m ms ih =>
    rw [List.map_cons, List.sum_cons, ih, List.flatMap_cons, List.length_append]
    unfold ParsedModule.functionEntries
    rw [List.length_map]
    rfl

theorem sum_callCount_functionEntries (longest : Int) (m : ParsedModule) :
    ((m.functionEntries longest).map FunctionEntry.callCount).sum =
      Int.ofNat m.callEntries.length := by
  unfold ParsedModule.functionEntries ParsedModule.callEntries
  induction m.functions with
  | nil => rfl
  | cons f fs ih =>
    rw [List.map_cons, List.map_cons, List.sum_cons, ih, List.flatMap_cons, List.length_append]
    unfold FunctionDecl.callEntries
    rw [List.length_map]
    rfl

theorem sum_callCount (longest : Int) (ms : List ParsedModule) :
    ((ms.flatMap (ParsedModule.functionEntries longest)).map FunctionEntry.callCount).sum =
      Int.ofNat (ms.flatMap ParsedModule.callEntries).length := by
  induction ms with
  | nil => rfl
  | cons m ms ih =>
    rw [List.flatMap_cons, List.map_append, List.sum_append, ih, sum_callCount_functionEntries,
      List.flatMap_cons, List.length_append]
    rfl

/-- The counts of a registry of modules agree with its database. -/
theorem accounts_ofModules {scheme : VendorScheme} {longest : Int} {ms : List ParsedModule}
    (paths : (ms.map ParsedModule.path).Nodup) (distinct : ∀ m ∈ ms, m.Distinct)
    {total skipped : Nat} (accounted : total = skipped + ms.length) :
    let r := ofModules scheme longest ms
    let edges := (Analysis.countEdges r r.calls).value
    Statistics.Accounts
      ⟨total, skipped, r.size, r.allFunctions.length, r.calls.length, edges.1, edges.2⟩
      (Store.Database.ofRegistry r) := by
  intro r edges
  have size : r.size = ms.length := by
    unfold size
    rw [modules_ofModules paths]
    exact List.length_map ..
  have functions : r.allFunctions = ms.flatMap (ParsedModule.functionEntries longest) :=
    allFunctions_ofModules paths distinct
  have refs := nodup_refs paths (fun m member => (distinct m member).functions) longest
  constructor
  case files =>
    change total = skipped + r.size
    rw [size, accounted]
  case modules =>
    change r.size = (r.modules.values.map Store.ModuleRow.ofEntry).length
    rw [List.length_map]
    exact (List.length_map ..).symm
  case functions => exact (List.length_map ..).symm
  case functions_sum =>
    change _ = ((r.modules.values.map Store.ModuleRow.ofEntry).map
      fun row => row.functionCount.getD 0).sum
    rw [values_modules_ofModules paths, functions, List.map_map, List.map_map]
    exact (sum_functionCount longest ms).symm
  case calls => exact (List.length_map ..).symm
  case calls_sum =>
    change _ = ((r.allFunctions.map Store.FunctionRow.ofEntry).map
      fun row => row.callCount.getD 0).sum
    rw [functions, List.map_map]
    exact (sum_callCount longest ms).symm
  case edges =>
    have known : ∀ c ∈ r.calls, ∃ arity, c.arity = some arity := by
      intro c member
      obtain ⟨m, -, inModule⟩ := List.mem_flatMap.1 member
      obtain ⟨f, -, inFunction⟩ := List.mem_flatMap.1 inModule
      obtain ⟨site, -, rfl⟩ := List.mem_map.1 inFunction
      exact ⟨_, rfl⟩
    have reachable : r.Reachable := reachable_ofModules paths distinct
    have counted := reachable.consistent.length_edges known
    change (r.calls.mapM r.resolve).value.flatten.length +
      (r.calls.mapM r.resolve).value.countP List.isEmpty = r.calls.length
    rw [Report.value_mapM]
    exact counted
  case parameters =>
    intro row member
    obtain ⟨f, listed, rfl⟩ := List.mem_map.1 member
    rw [functions] at listed
    refine ⟨f.name, f.parameters.length, ?_, ?_⟩
    · obtain ⟨m, -, inModule⟩ := List.mem_flatMap.1 listed
      obtain ⟨declared, -, rfl⟩ := List.mem_map.1 inModule
      change qualify _ (some (Int.ofNat declared.parameters.length)) = _
      rw [FunctionDecl.entry, List.length_map]
    · change (r.allFunctions.flatMap Store.ParameterRow.ofFunction).countP
        (fun row => row.file == f.owner && row.function == f.qualifiedName) = _
      rw [functions, List.countP_eq_length_filter, Store.filter_parameterRows refs listed]
      exact List.length_map ..

end Registry

/-! ## Whole runs -/

namespace Analysis

theorem value_conclude (settings : Settings) (repository : Repository) (total : Nat)
    (files : List SourceFile) (parsed : ParsedFiles) (t : FileTree) :
    (conclude settings repository (total, files) parsed).value t =
      let r := (Registry.merge { scheme := settings.scheme } parsed.modules).value
      match (Store.save (storePath settings repository) r).value t with
      | (.error e, t') => (.error e, t')
      | (.ok (), t') =>
        (.ok (⟨total, parsed.skipped + (total - files.length), r.size, r.allFunctions.length,
          r.calls.length, (countEdges r r.calls).value.1, (countEdges r r.calls).value.2⟩, r),
          t') := by
  unfold conclude
  simp only [FileAction.value_bind, FileAction.value_lift, FileAction.value_pure]
  rcases (Store.save (storePath settings repository)
    (Registry.merge { scheme := settings.scheme } parsed.modules).value).value t with ⟨_ | _, t'⟩
  · rfl
  · rfl

/-- A run collects files, reads and merges them, and saves the registry that it counts. -/
theorem value_run (settings : Settings) (repository : Repository) (t : FileTree) :
    (run settings repository).value t =
      match (collect t settings (0, []) repository.sources).value with
      | .error e => (.error e, t)
      | .ok (total, files) =>
        match readFiles t files with
        | .error e => (.error (.numeral e), t)
        | .ok parsed => (conclude settings repository (total, files) parsed).value t := by
  unfold run
  rw [FileAction.value_bind, FileAction.value_get]
  dsimp only
  rw [FileAction.value_bind, FileAction.value_lift]
  dsimp only
  rw [FileAction.value_bind, FileAction.value_ofChecked]
  cases (collect t settings (0, []) repository.sources).value with
  | error e => rfl
  | ok found =>
    dsimp only
    cases readFiles t found.2 with
    | error e => rfl
    | ok parsed => rfl

/-- A run that returns has collected files, read and merged them, and saved the registry that it
counts. -/
theorem run_eq_ok {settings : Settings} {repository : Repository} {t t' : FileTree}
    {stats : Statistics} {r : Registry}
    (ran : (run settings repository).value t = (.ok (stats, r), t')) :
    ∃ total files parsed,
      (collect t settings (0, []) repository.sources).value = .ok (total, files) ∧
      readFiles t files = .ok parsed ∧
      r = (Registry.merge { scheme := settings.scheme } parsed.modules).value ∧
      stats = ⟨total, parsed.skipped + (total - files.length), r.size, r.allFunctions.length,
        r.calls.length, (countEdges r r.calls).value.1, (countEdges r r.calls).value.2⟩ ∧
      (Store.save (storePath settings repository) r).value t = (.ok (), t') := by
  rw [value_run] at ran
  split at ran
  next => cases ran
  next total files collected =>
    split at ran
    next => cases ran
    next parsed read =>
      rw [value_conclude] at ran
      dsimp only at ran
      split at ran
      next => cases ran
      next saved =>
        cases ran
        exact ⟨total, files, parsed, collected, read, rfl, rfl, saved⟩

/-- The registry that an analysis merges, or why it merges none. -/
def merged (t : FileTree) (settings : Settings) (repository : Repository) :
    Except Failure Registry := do
  let (_, files) ← (collect t settings (0, []) repository.sources).value
  match readFiles t files with
  | .ok parsed => return (Registry.merge { scheme := settings.scheme } parsed.modules).value
  | .error e => throw (.numeral e)

theorem merged_eq_ok {settings : Settings} {repository : Repository} {t : FileTree} {total : Nat}
    {files : List SourceFile} {parsed : ParsedFiles}
    (collected : (collect t settings (0, []) repository.sources).value = .ok (total, files))
    (read : readFiles t files = .ok parsed) :
    merged t settings repository =
      .ok (Registry.merge { scheme := settings.scheme } parsed.modules).value := by
  unfold merged
  rw [collected]
  change (match readFiles t files with | .ok parsed => _ | .error e => _) = _
  rw [read]
  rfl

/-- A run that fails has changed no file, or has failed to save the registry that it merged. -/
theorem run_eq_error {settings : Settings} {repository : Repository} {t t' : FileTree}
    {e : Failure} (ran : (run settings repository).value t = (.error e, t')) :
    t' = t ∨ ∃ r, merged t settings repository = .ok r ∧
      (Store.save (storePath settings repository) r).value t = (.error e, t') := by
  rw [value_run] at ran
  split at ran
  next =>
    cases ran
    exact Or.inl rfl
  next total files collected =>
    split at ran
    next =>
      cases ran
      exact Or.inl rfl
    next parsed read =>
      rw [value_conclude] at ran
      dsimp only at ran
      split at ran
      next failed =>
        cases ran
        exact Or.inr ⟨_, merged_eq_ok collected read, failed⟩
      next => cases ran

/-- **A run accounts for every file, function and call.** Whenever an analysis returns, its counts
agree with each other and with the rows of the database that it saved, unless one of the files it
found has the path of the external node. -/
theorem run_accounts {settings : Settings} {repository : Repository} {t t' : FileTree}
    {stats : Statistics} {r : Registry}
    (ran : (run settings repository).value t = (.ok (stats, r), t'))
    (apart : ∀ s, Finds t settings repository.sources s →
      s.modulePath ≠ settings.scheme.externalPath) :
    stats.Accounts (Store.Database.ofRegistry r) ∧
      ∀ target, Store.Target.ofName (storePath settings repository).text = .ok target →
        target.inMemory = false →
        Store.database t' target.path = .ok (Store.Database.ofRegistry r) := by
  obtain ⟨total, files, parsed, collected, read, merged, rfl, saved⟩ := run_eq_ok ran
  have none : (([] : List SourceFile).map SourceFile.modulePath).Nodup := List.nodup_nil
  obtain ⟨paths, short, found⟩ := collect_spec none (Nat.le_refl 0) collected
  obtain ⟨sublist, sound⟩ := readFiles_spec read
  obtain ⟨-, -, -, accounted⟩ := readFiles_eq_ok read
  have parsedPaths : (parsed.modules.map ParsedModule.path).Nodup := sublist.nodup paths
  have distinct : ∀ m ∈ parsed.modules, m.Distinct := fun m member => (sound m member).distinct
  have each : total = parsed.skipped + (total - files.length) + parsed.modules.length := by
    omega
  -- Nothing is dropped by the merge: every file was collected once, and none is the external one.
  have all : Registry.kept settings.scheme parsed.modules = parsed.modules := by
    refine Registry.kept_eq_self parsedPaths ?_
    intro m member
    obtain ⟨s, listed, same⟩ := List.mem_map.1 (sublist.subset (List.mem_map_of_mem member))
    rcases found s listed with taken | finds
    · cases taken
    · rw [← same]
      exact apart s finds
  rw [Registry.value_merge distinct, all] at merged
  subst merged
  exact ⟨Registry.accounts_ofModules parsedPaths distinct each, fun target named onFile =>
    Store.database_of_save named onFile saved⟩

/-- The module path of a file that is found starts with a slash. -/
theorem modulePath_of_finds {t : FileTree} {settings : Settings} {roots : List SourceRoot}
    {s : SourceFile} (found : Finds t settings roots s) : s.modulePath.toList.head? = some '/' := by
  obtain ⟨root, -, files, listed, member⟩ := found
  unfold filesOf at listed
  split at listed
  next => cases listed
  next =>
    cases listed
    obtain ⟨file, -, rfl⟩ := List.mem_map.1 member
    unfold Path.moduleIn
    dsimp only
    rw [String.toList_ofList]
    rfl
  next =>
    cases listed
    cases member

/-- A folder with one module, whose first function calls the second. -/
def sampleTree : FileTree :=
  let text := "module namespace a=\"u\";declare function a:f($x)\x7ba:g()\x7d;" ++
    "declare function a:g()\x7b1\x7d;"
  (FileTree.atFolder ["work"]).plant (.ofString "src/a.xqy") (.bytes text.toUTF8)

/-- A repository that names the folder twice. -/
def sampleRepository : Repository :=
  { id := "sample", sources := [{ path := .ofString "src" }, { path := .ofString "src" }] }

/-- The file of a folder that is named twice is counted twice and skipped once. -/
theorem sample_accounts : ∃ r t',
    (run {} sampleRepository).value sampleTree = (.ok (⟨2, 1, 1, 2, 1, 1, 0⟩, r), t') ∧
      Statistics.Accounts ⟨2, 1, 1, 2, 1, 1, 0⟩ (Store.Database.ofRegistry r) := by
  have counted : ((run {} sampleRepository).value sampleTree).1.toOption.map Prod.fst =
      some ⟨2, 1, 1, 2, 1, 1, 0⟩ := by
    decide +kernel
  have apart : ∀ s, Finds sampleTree {} sampleRepository.sources s →
      s.modulePath ≠ ({} : Settings).scheme.externalPath := by
    intro s found same
    have slash := modulePath_of_finds found
    rw [same] at slash
    exact absurd slash (by decide)
  cases ran : (run {} sampleRepository).value sampleTree with
  | mk outcome t' =>
    rw [ran] at counted
    cases outcome with
    | error e => cases counted
    | ok result =>
      obtain ⟨stats, r⟩ := result
      cases counted
      exact ⟨r, t', rfl, (run_accounts ran apart).1⟩

end Analysis
end CallAtlas
