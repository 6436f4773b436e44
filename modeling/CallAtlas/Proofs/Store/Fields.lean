import CallAtlas.Proofs.Registry.Lengths
import CallAtlas.Proofs.Source.Sizes
import CallAtlas.Proofs.Store.Loading

/-!
# Field by field

What is loaded from a store is the registry that was saved, without what a store does not keep. Here
this is said of each of its lists and all of their fields, together with what it takes to save and
to load at all. Rows are refused for integers beyond 64 bits, and numerals for their length; no text
that 64 bits count holds as many lines, functions or calls, or an arity of such a length
(`fits_ofModules`, `storable_of_read`). So a registry of read modules is saved wherever another one
is, and loaded again (`exists_load_of_storable`).

One field is not kept but made up again: whether a module is a main one is read off its URI. That is
what it was exactly if no other module declares a URI like those that are made up for main modules.
-/

namespace CallAtlas.Store

/-! ## Integers that fit -/

theorem fitsColumn_of_bounds {n : Int} (low : -0x8000000000000000 ≤ n)
    (high : n < 0x8000000000000000) : fitsColumn (some n) = true := by
  unfold fitsColumn Numeral.fitsWord
  rw [Bool.and_eq_true]
  exact ⟨decide_eq_true low, decide_eq_true high⟩

section Sizes

variable {size : Nat} (small : size + 1 < 0x8000000000000000)
include small

theorem fitsColumn_ofNat {n : Nat} (le : n ≤ size + 1) :
    fitsColumn (some (Int.ofNat n)) = true := by
  refine fitsColumn_of_bounds ?_ ?_ <;> rw [Int.ofNat_eq_natCast] <;> omega

theorem fits_moduleRow {m : ParsedModule} (within : m.Within size) :
    (ModuleRow.ofEntry m.entry).fits = true := by
  have functions : fitsColumn (some (Int.ofNat m.functions.length)) = true :=
    fitsColumn_ofNat small (Nat.le_succ_of_le within.functionCount)
  have lines : fitsColumn (some (Int.ofNat m.lineCount)) = true :=
    fitsColumn_ofNat small (Nat.le_succ_of_le within.lineCount)
  change [some (Int.ofNat m.functions.length), some (Int.ofNat m.lineCount)].all fitsColumn = true
  simp only [List.all_cons, List.all_nil, functions, lines, Bool.and_self]

theorem fits_functionRow {m : ParsedModule} (within : m.Within size) {f : FunctionDecl}
    (declared : f ∈ m.functions) {longest : Int} (low : 0 ≤ longest)
    (high : longest ≤ Int.ofNat size + 1) (path : String) :
    (FunctionRow.ofEntry (f.entry path longest)).fits = true := by
  rcases within.loc f declared with ⟨first, last⟩
  rw [Int.ofNat_eq_natCast] at high last
  have line : fitsColumn (some (Int.ofNat f.line)) = true :=
    fitsColumn_ofNat small (within.line f declared)
  have mark : fitsColumn (some (if f.isPrivate then 1 else 0)) = true := by
    cases f.isPrivate <;> rfl
  have loc : fitsColumn (some f.loc) = true := fitsColumn_of_bounds (by omega) (by omega)
  have inverted : fitsColumn (some (longest - f.loc)) = true :=
    fitsColumn_of_bounds (by omega) (by omega)
  have calls : fitsColumn (some (Int.ofNat f.calls.length)) = true :=
    fitsColumn_ofNat small (Nat.le_succ_of_le (within.callCount f declared))
  change [some (Int.ofNat f.line), some (if f.isPrivate then 1 else 0), some f.loc,
    some (longest - f.loc), some (Int.ofNat f.calls.length)].all fitsColumn = true
  simp only [List.all_cons, List.all_nil, line, mark, loc, inverted, calls, Bool.and_self]

omit small in
/-- The length that functions are compared with is that of one of them, or zero. -/
theorem longestLoc_bounds {ms : List ParsedModule} (within : ∀ m ∈ ms, m.Within size) :
    0 ≤ Registry.longestLoc ms ∧ Registry.longestLoc ms ≤ Int.ofNat size + 1 := by
  unfold Registry.longestLoc
  cases longest : ((ms.flatMap ParsedModule.firstDeclarations).map FunctionDecl.loc).max? with
  | none =>
    simp only [Option.getD_none, Int.ofNat_eq_natCast]
    omega
  | some loc =>
    rcases List.mem_map.1 (List.max?_eq_some_iff.1 longest).1 with ⟨f, among, rfl⟩
    rcases List.mem_flatMap.1 among with ⟨m, listed, first⟩
    have declared := List.mem_of_find?_eq_some ((m.mem_firstDeclarations f).1 first)
    have bounds := (within m listed).loc f declared
    rw [Option.getD_some]
    omega

/-- The rows of modules whose numbers are small fit 64 bits. -/
theorem fits_ofModules {ms : List ParsedModule} (paths : (ms.map ParsedModule.path).Nodup)
    (distinct : ∀ m ∈ ms, m.Distinct) (within : ∀ m ∈ ms, m.Within size) (scheme : VendorScheme) :
    (Database.ofRegistry (Registry.ofModules scheme (Registry.longestLoc ms) ms)).fits = true := by
  obtain ⟨low, high⟩ := longestLoc_bounds within
  rw [database_ofModules paths distinct]
  unfold Database.fits Database.ofLists
  simp only [Option.getD_some, Bool.and_eq_true, List.all_eq_true, List.forall_mem_map]
  constructor
  · intro m listed
    exact fits_moduleRow small (within m listed)
  · intro f member
    rcases List.mem_flatMap.1 member with ⟨m, listed, inModule⟩
    rcases List.mem_map.1 inModule with ⟨g, declared, rfl⟩
    exact fits_functionRow small (within m listed) declared low high m.path

end Sizes

/-! ## Saving -/

section Saving

variable {p : Path} {target : Target} {r earlier : Registry} {t t₀ : FileTree}

theorem exists_writeTarget (fits : (Database.ofRegistry r).fits = true)
    (written : (writeTarget p target earlier).value t = (.ok (), t₀)) :
    ∃ t', (writeTarget p target r).value t = (.ok (), t') := by
  unfold writeTarget at written ⊢
  obtain ⟨foreign, s, opened, written⟩ := FileAction.value_bind_eq_ok written
  rw [FileAction.value_bind, opened]
  dsimp only
  split at written
  next => cases written
  next notForeign =>
    rw [if_neg notForeign]
    split at written
    next => cases written
    next writable =>
      rw [if_neg writable]
      split at written
      next => cases written
      next near =>
        rw [if_neg near]
        unfold writeRows
        dsimp only
        rw [if_pos fits]
        exact ⟨_, rfl⟩

/-- Where some registry is saved, any other one is whose integers fit. -/
theorem exists_save_of_save (named : Target.ofName p.text = .ok target)
    (onFile : target.inMemory = false) (fits : (Database.ofRegistry r).fits = true)
    (saved : (save p earlier).value t = (.ok (), t₀)) :
    ∃ t', (save p r).value t = (.ok (), t') := by
  unfold save at saved ⊢
  obtain ⟨_, s, made, saved⟩ := FileAction.value_bind_eq_ok saved
  rw [FileAction.value_bind, made]
  dsimp only at saved ⊢
  split at saved
  next => cases saved
  next noNull =>
    rw [if_neg noNull]
    rw [named] at saved ⊢
    dsimp only at saved ⊢
    rw [onFile, if_neg Bool.false_ne_true] at saved ⊢
    obtain ⟨_, s', written, -⟩ := FileAction.value_bind_eq_ok saved
    rcases exists_writeTarget fits written with ⟨t', done⟩
    rw [FileAction.value_bind, done]
    exact ⟨t', rfl⟩

end Saving

/-! ## Modules that can be stored -/

/-- What saving and loading ask of a module: it is sound and named, its numbers fit 64 bits and its
arities are as short as numerals may be. -/
structure Storable (m : ParsedModule) : Prop where
  sound : m.Sound
  named : m.path ≠ ""
  within : m.Within 0x7ffffffffffffffe
  short : ∀ f ∈ m.functions, f.Short

/-- Every module that is read from a text with a path can be stored, if 64 bits count the text. -/
theorem storable_of_read {text path : String} {m : ParsedModule}
    (read : (Source.readModule text path).value = .ok m) (named : path ≠ "")
    (short : text.length + 1 < 0x8000000000000000) : Storable m := by
  rcases Source.readModule_spec read with ⟨rfl, sound, arities⟩
  have reach : 0x8000000000000000 ≤ 10 ^ maxDigits :=
    Nat.le_trans (by decide) (Nat.pow_le_pow_right (by decide) (by decide : 19 ≤ maxDigits))
  exact ⟨sound, named, (Source.readModule_within read).mono (by omega), arities (by omega)⟩

/-- The registry of modules that can be stored is saved where another one is, and loaded as the
stored registry, whatever the scheme of the registry that it is loaded into. -/
theorem exists_load_of_storable {ms : List ParsedModule} (storable : ∀ m ∈ ms, Storable m)
    (paths : (ms.map ParsedModule.path).Nodup) {scheme scheme' : VendorScheme} {p : Path}
    {t t₀ : FileTree} {earlier : Registry} (plain : Target.ofName p.text = .ok { path := p })
    (writable : (save p earlier).value t = (.ok (), t₀)) :
    let longest := Registry.longestLoc ms
    ∃ t', (save p (Registry.ofModules scheme longest ms)).value t = (.ok (), t') ∧
      (load t' p scheme').value = .ok (Registry.ofModules scheme' longest ms).stored := by
  have distinct : ∀ m ∈ ms, m.Distinct := fun m member => (storable m member).sound.distinct
  have fits := fits_ofModules (by decide) paths distinct
    (fun m member => (storable m member).within) scheme
  rcases exists_save_of_save plain rfl fits writable with ⟨t', saved⟩
  -- The rows do not tell which paths belong to the vendor, so they are also those of a registry
  -- with the scheme under which they are loaded.
  have held := database_of_save plain rfl saved
  rw [database_ofModules paths distinct, ← @database_ofModules scheme' _ _ paths distinct] at held
  obtain ⟨loads, -⟩ := load_ofModules (fun m member => (storable m member).sound)
    (fun m member => (storable m member).named) paths held
  exact ⟨t', saved, loads fun m member => (storable m member).short⟩

/-! ## Lists of what is kept -/

theorem values_modules_stored (r : Registry) :
    r.stored.modules.values = r.modules.values.map ModuleEntry.stored :=
  Table.values_mapValues ..

theorem allFunctions_stored (r : Registry) :
    r.stored.allFunctions = r.allFunctions.map FunctionEntry.stored := by
  unfold Registry.allFunctions
  rw [show r.stored.functions = r.functions.mapValues (·.mapValues FunctionEntry.stored) from rfl,
    Table.values_mapValues, List.flatMap_map, List.map_flatMap]
  exact List.flatMap_congr fun own _ => Table.values_mapValues ..

/-- **A store is read back field by field.** Modules are read from texts, merged and saved to a
plain file. Saving succeeds wherever it does for some registry, and loading gives the modules,
functions and calls in their order, and the import tables. Of a function only the signature and the
body are lost, and of a call the line. A module has all its fields but the mark of main modules,
which is read off its URI; the modules are what they were exactly if no library module has a URI
like those that are made up for main modules. -/
theorem fields_of_load {scheme scheme' : VendorScheme} {sources : List (String × String)}
    {ms : List ParsedModule} {r earlier : Registry} {p : Path} {t t₀ : FileTree}
    (named : ∀ s ∈ sources, s.1 ≠ "")
    (short : ∀ s ∈ sources, s.2.length + 1 < 0x8000000000000000)
    (read : (sources.mapM fun s => Source.readModule s.2 s.1).value = .ok ms)
    (merged : (Registry.merge { scheme := scheme } ms).value = r)
    (plain : Target.ofName p.text = .ok { path := p })
    (writable : (save p earlier).value t = (.ok (), t₀)) :
    ∃ t' r', (save p r).value t = (.ok (), t') ∧ (load t' p scheme').value = .ok r' ∧
      r'.modules.values = r.modules.values.map markedByUri ∧
      r'.imports = r.imports ∧
      r'.allFunctions = r.allFunctions.map (fun f => { f with signature := none, body := none }) ∧
      r'.calls = r.calls.map (fun c => { c with line := none }) ∧
      (r'.modules.values = r.modules.values ↔ ∀ m ∈ r.modules.values, m.isMain = false →
        Naming.mainScheme.toList.isPrefixOf m.uri.toList = false) := by
  have storable : ∀ m ∈ ms, Storable m := by
    intro m member
    rcases Checked.exists_of_mem_mapM read m member with ⟨s, listed, result⟩
    exact storable_of_read result (named s listed) (short s listed)
  have keptStorable : ∀ m ∈ Registry.kept scheme ms, Storable m := fun m member =>
    storable m ((Registry.kept_sublist scheme ms).subset member)
  have paths := Registry.nodup_paths_kept scheme ms
  rw [Registry.value_merge fun m member => (storable m member).sound.distinct] at merged
  subst merged
  obtain ⟨t', saved, loaded⟩ :=
    @exists_load_of_storable _ keptStorable paths scheme scheme' _ _ _ _ plain writable
  have marked : (Registry.ofModules scheme' (Registry.longestLoc (Registry.kept scheme ms))
      (Registry.kept scheme ms)).stored.modules.values =
        (Registry.ofModules scheme (Registry.longestLoc (Registry.kept scheme ms))
          (Registry.kept scheme ms)).modules.values.map markedByUri := by
    rw [values_modules_stored, Registry.values_modules_ofModules paths,
      Registry.values_modules_ofModules paths, List.map_map, List.map_map]
    rfl
  refine ⟨t', _, saved, loaded, marked, rfl, allFunctions_stored _, rfl, ?_⟩
  rw [marked]
  refine map_markedByUri_iff ?_
  intro m member
  rw [Registry.values_modules_ofModules paths] at member
  rcases List.mem_map.1 member with ⟨parsed, listed, rfl⟩
  exact (keptStorable parsed listed).sound.main

/-- A library module with an import and a call, and a main module. -/
def mixedSources : List (String × String) :=
  [("/a.xqy", "module namespace a=\"u\";import module namespace b=\"v\" at \"b.xqy\";" ++
    "declare function a:f($x as xs:string)\x7bb:g($x)\x7d;"), ("/run.xqy", "1 + 1")]

/-- The modules of the two texts are read back in all their fields. -/
theorem mixedSources_fields : ∃ ms t₀ t' r',
    (mixedSources.mapM fun s => Source.readModule s.2 s.1).value = .ok ms ∧
      (save (.ofString "a.db") {}).value (.atFolder ["work"]) = (.ok (), t₀) ∧
      (save (.ofString "a.db") (registryOf mixedSources)).value (.atFolder ["work"]) =
        (.ok (), t') ∧
      (load t' (.ofString "a.db") {}).value = .ok r' ∧
      r'.modules.values = (registryOf mixedSources).modules.values := by
  have named : ∀ s ∈ mixedSources, s.1 ≠ "" := by decide
  have short : ∀ s ∈ mixedSources, s.2.length + 1 < 0x8000000000000000 := by decide +kernel
  have others : ∀ m ∈ (registryOf mixedSources).modules.values, m.isMain = false →
      Naming.mainScheme.toList.isPrefixOf m.uri.toList = false := by
    decide +kernel
  have writable : (save (.ofString "a.db") {}).value (.atFolder ["work"]) =
      (.ok (), ((save (.ofString "a.db") {}).value (.atFolder ["work"])).2) := rfl
  have isRead : (mixedSources.mapM fun s => Source.readModule s.2 s.1).value.isOk = true := by
    decide +kernel
  rcases exists_of_isOk isRead with ⟨ms, read⟩
  obtain ⟨t', r', saved, loaded, -, -, -, -, same⟩ :=
    @fields_of_load {} {} _ _ _ _ _ _ _ named short read (merge_eq_registryOf read) rfl writable
  exact ⟨ms, _, t', r', read, writable, saved, loaded, same.2 others⟩

/-- The library module is loaded as a main module. -/
theorem disguisedSources_misread : ∃ ms r',
    (disguisedSources.mapM fun s => Source.readModule s.2 s.1).value = .ok ms ∧
      (Registry.merge {} ms).value = registryOf disguisedSources ∧
      (save (.ofString "a.db") (registryOf disguisedSources)).value (.atFolder ["work"]) =
        (.ok (), disguisedFiles) ∧
      (load disguisedFiles (.ofString "a.db") {}).value = .ok r' ∧
      (registryOf disguisedSources).modules.values.map ModuleEntry.isMain = [false] ∧
      r'.modules.values ≠ (registryOf disguisedSources).modules.values := by
  obtain ⟨ms, r', read, merged, saved, loaded⟩ := disguised_loaded
  have before : (registryOf disguisedSources).modules.values.map ModuleEntry.isMain = [false] := by
    decide +kernel
  have after : ((load disguisedFiles (.ofString "a.db") {}).value.map fun r' =>
      r'.modules.values.map ModuleEntry.isMain).toOption = some [true] := by
    decide +kernel
  refine ⟨ms, r', read, merged, saved, loaded, before, ?_⟩
  intro same
  rw [loaded] at after
  have misread : r'.modules.values.map ModuleEntry.isMain = [true] := Option.some.inj after
  rw [same, before] at misread
  cases misread

end CallAtlas.Store
