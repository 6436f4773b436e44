import CallAtlas.Proofs.Files.Tree
import CallAtlas.Store.Writing
import Mathlib.Data.List.Nodup

/-!
# A saved registry is in the store

Saving opens the file of a target, which may make the file, and then puts the rows of the registry
there. Where saving succeeds and the target is a file, the database at its path is the database of
the registry, whatever was there before.

A parameter row names its function by path and qualified name, so where these tell functions apart
the rows of each function can be picked out again.
-/

namespace CallAtlas.Store

theorem database_putFile {t : FileTree} {p : Path} {d : Database} {e : Entry}
    (near : isFar t p = false) (found : t.find? p = some e) (other : e ≠ .folder) :
    database (t.putFile p (.database d)) p = .ok d := by
  obtain ⟨names, placed⟩ := FileTree.exists_place found
  have notFolder : t.find? p ≠ some .folder := by
    rw [found]
    exact fun same => other (Option.some.inj same)
  have there := FileTree.find?_putFile placed notFolder (.database d)
  unfold database
  rw [FileTree.probe_of_find? there]
  dsimp only
  have stillNear : isFar (t.putFile p (.database d)) p = false := by
    unfold isFar at near ⊢
    rw [FileTree.workFolder_putFile]
    exact near
  rw [stillNear]
  rfl

/-- After a target was opened its path leads to a file, and is not too long. -/
theorem find?_of_openTarget {p : Path} {target : Target} {t t' : FileTree} {foreign : Bool}
    (opened : (openTarget p target).value t = (.ok foreign, t')) :
    isFar t' target.path = false ∧ ∃ e, t'.find? target.path = some e ∧ e ≠ .folder := by
  unfold openTarget at opened
  obtain ⟨_, _, got, opened⟩ := FileAction.value_bind_eq_ok opened
  cases got
  dsimp only at opened
  split at opened
  next => cases opened
  next near =>
    rw [Bool.not_eq_true] at near
    split at opened
    next => cases opened
    next data found =>
      cases opened
      exact ⟨near, _, found, Entry.noConfusion⟩
    next d found =>
      cases opened
      exact ⟨near, _, found, Entry.noConfusion⟩
    next absent =>
      split at opened
      next => cases opened
      next made =>
        rw [Bool.or_eq_true, not_or] at made
        have has : (t.putFile target.path (.bytes .empty)).has target.path = true := by
          simpa using made.2
        cases opened
        constructor
        · unfold isFar at near ⊢
          rw [FileTree.workFolder_putFile]
          exact near
        · have other : t.find? target.path ≠ some .folder := by
            rw [absent]
            exact (Option.some_ne_none _).symm
          cases placed : t.place target.path with
          | none =>
            rw [FileTree.putFile_of_place_eq_none placed, FileTree.has, absent] at has
            cases has
          | some names =>
            exact ⟨_, FileTree.find?_putFile placed other _, Entry.noConfusion⟩

theorem database_of_writeTarget {p : Path} {target : Target} {r : Registry} {t t' : FileTree}
    (written : (writeTarget p target r).value t = (.ok (), t')) :
    database t' target.path = .ok (Database.ofRegistry r) := by
  unfold writeTarget at written
  obtain ⟨foreign, s, opened, written⟩ := FileAction.value_bind_eq_ok written
  obtain ⟨near, e, found, other⟩ := find?_of_openTarget opened
  split at written
  next => cases written
  next =>
    split at written
    next => cases written
    next =>
      split at written
      next => cases written
      next =>
        unfold writeRows at written
        dsimp only at written
        split at written
        next =>
          cases written
          exact database_putFile near found other
        next =>
          obtain ⟨_, _, -, written⟩ := FileAction.value_bind_eq_ok written
          cases written

/-- The store of a registry that was saved to a file holds the database of the registry. -/
theorem database_of_save {p : Path} {target : Target} {r : Registry} {t t' : FileTree}
    (named : Target.ofName p.text = .ok target) (onFile : target.inMemory = false)
    (saved : (save p r).value t = (.ok (), t')) :
    database t' target.path = .ok (Database.ofRegistry r) := by
  unfold save at saved
  obtain ⟨_, _, -, saved⟩ := FileAction.value_bind_eq_ok saved
  dsimp only at saved
  split at saved
  next => cases saved
  next =>
    rw [named] at saved
    dsimp only at saved
    rw [onFile, if_neg Bool.false_ne_true] at saved
    obtain ⟨_, _, written, noted⟩ := FileAction.value_bind_eq_ok saved
    cases noted
    exact database_of_writeTarget written

/-! ## Listings -/

/-- The files of the modules that a database holds. -/
def Database.files (d : Database) : List String :=
  (d.modules.getD []).filterMap ModuleRow.file

theorem Database.files_ofRegistry (r : Registry) :
    (ofRegistry r).files = r.modules.values.map ModuleEntry.path := by
  change (r.modules.values.map ModuleRow.ofEntry).filterMap ModuleRow.file = _
  rw [List.filterMap_map]
  exact congrFun List.filterMap_eq_map' _

theorem select_eq {α : Type} {t : FileTree} {p : Path} {d : Database}
    (held : database t p = .ok d) (relation : Relation) {rows : Database → Option (List α)}
    {list : List α} (found : rows d = some list) : select t p relation rows = .ok list := by
  unfold select
  simp only [held, bind, Except.bind, found]
  rfl

/-- A listing is the files that contain a match, unless the pattern is too long. -/
theorem listModules_eq {t : FileTree} {p : Path} {d : Database} {rows : List ModuleRow}
    (held : database t p = .ok d) (stored : d.modules = some rows) (fragment : String) :
    listModules t p fragment =
      if isOversized fragment && !rows.isEmpty then
        .error (queryFailed p "LIKE or GLOB pattern too complex")
      else .ok (d.files.filter (containsMatch fragment)) := by
  have files : d.files = rows.filterMap ModuleRow.file := by
    rw [Database.files, stored]
    rfl
  unfold listModules
  rw [select_eq held .modules stored, files]
  rfl

/-- Nothing stands somewhere in every path. -/
theorem containsMatch_empty (path : String) : containsMatch "" path = true := by
  have anywhere : ∀ s, afterPieces? [[]] s = some s := by
    intro s
    cases s with
    | nil => rfl
    | cons c s => rfl
  change (afterPieces? [[]] (beforeNull path.toList)).isSome = true
  rw [anywhere]
  rfl

/-- The modules of a saved registry are listed by their paths. -/
theorem listModules_of_database {t : FileTree} {p : Path} {r : Registry}
    (held : database t p = .ok (Database.ofRegistry r)) :
    listModules t p "" = .ok (r.modules.values.map ModuleEntry.path) := by
  have all := List.filter_eq_self.2 fun (path : String)
    (_ : path ∈ r.modules.values.map ModuleEntry.path) => containsMatch_empty path
  rw [listModules_eq held rfl, Database.files_ofRegistry, all]
  rfl

/-! ## Rows of parameters -/

theorem filter_ofFunction_self (f : FunctionEntry) :
    (ParameterRow.ofFunction f).filter
        (fun row => row.file == f.owner && row.function == f.qualifiedName) =
      ParameterRow.ofFunction f := by
  refine List.filter_eq_self.2 ?_
  intro row member
  obtain ⟨parameter, -, rfl⟩ := List.mem_map.1 member
  simp

theorem filter_ofFunction_of_ne {f : FunctionEntry} {fs : List FunctionEntry}
    (other : f.ref ∉ fs.map FunctionEntry.ref) :
    (fs.flatMap ParameterRow.ofFunction).filter
        (fun row => row.file == f.owner && row.function == f.qualifiedName) = [] := by
  refine List.filter_eq_nil_iff.2 ?_
  intro row member same
  obtain ⟨g, listed, shown⟩ := List.mem_flatMap.1 member
  obtain ⟨parameter, -, rfl⟩ := List.mem_map.1 shown
  simp only [Bool.and_eq_true, beq_iff_eq] at same
  refine other (List.mem_map.2 ⟨g, listed, ?_⟩)
  unfold FunctionEntry.ref
  rw [same.1, same.2]

/-- The rows of parameters that name a function are those of that function, where no other one has
its reference. -/
theorem filter_parameterRows {fs : List FunctionEntry} (nodup : (fs.map FunctionEntry.ref).Nodup)
    {f : FunctionEntry} (member : f ∈ fs) :
    (fs.flatMap ParameterRow.ofFunction).filter
        (fun row => row.file == f.owner && row.function == f.qualifiedName) =
      ParameterRow.ofFunction f := by
  obtain ⟨before, after, rfl⟩ := List.append_of_mem member
  rw [List.map_append, List.map_cons] at nodup
  obtain ⟨-, rest, apart⟩ := List.nodup_append.1 nodup
  have notBefore : f.ref ∉ before.map FunctionEntry.ref := fun held =>
    apart _ held _ List.mem_cons_self rfl
  rw [List.flatMap_append, List.flatMap_cons, List.filter_append, List.filter_append,
    filter_ofFunction_of_ne notBefore, filter_ofFunction_self,
    filter_ofFunction_of_ne (List.nodup_cons.1 rest).1, List.nil_append, List.append_nil]

end CallAtlas.Store
