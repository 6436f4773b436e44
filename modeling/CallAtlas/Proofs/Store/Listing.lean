import CallAtlas.Proofs.Store.Pattern
import CallAtlas.Proofs.Store.Transactions
import Mathlib.Data.List.Infix

/-!
# Which modules are listed

A listing takes the rows of the modules in their order and keeps those whose file the pattern around
a fragment stands for. However a database came about, it holds a file once
(`Database.Kept.nodup_files`), so no path is listed twice.

A listing is meant to hold the paths in which a fragment occurs, and it holds all of these. It holds
others as soon as one character of the fragment stands for another one: `listModules_fragment` says
which paths are listed, and for which fragments these are the ones that are meant.
-/

namespace CallAtlas.Store

/-! ## Databases -/

namespace Database

/-- The databases that a store comes to hold: by saving registries and by changes. -/
inductive Kept : Database → Prop
  | empty : Kept {}
  | saved {r : Registry} (reachable : r.Reachable) : Kept (.ofRegistry r)
  | created {d d' : Database} (kept : Kept d) (done : d.createAll = .ok d') : Kept d'
  | removed {d d' : Database} {relation : Relation} (kept : Kept d)
    (done : d.remove relation = .ok d') : Kept d'
  | inserted {d d' : Database} {rows : List (List Datum)} {relation : Relation} (kept : Kept d)
    (done : d.insert rows relation = .ok d') : Kept d'

theorem nodup_files_ofRegistry {r : Registry} (reachable : r.Reachable) :
    (ofRegistry r).files.Nodup := by
  rw [files_ofRegistry]
  have paths := reachable.filed.map_path_allModules
  rw [Registry.allModules, List.map_append] at paths
  rw [List.append_cancel_right paths]
  exact reachable.filed.nodup

theorem hasModule_iff (d : Database) (file : String) :
    d.hasModule file = true ↔ file ∈ d.files := by
  simp [hasModule, files]

/-- A row that is inserted is put at the end, and if it is a module, its file is new. -/
theorem insertRow_eq_ok {relation : Relation} {d d' : Database} {row : List Datum}
    (done : insertRow relation d row = .ok d') : d' = d.append [row] relation ∧
      (relation = .modules → ∀ file, row.head?.bind cellText? = some file → file ∉ d.files) := by
  have filled : ∀ (checks : Except ChangeError PUnit) (rest : Except ChangeError Database),
      (checks >>= fun _ => rest) = .ok d' → rest = .ok d' := by
    intro checks rest both
    cases checks with
    | error e => cases both
    | ok u => exact both
  have taken := filled _ _ done
  dsimp only at taken
  split at taken
  next => cases taken
  next free =>
    cases taken
    refine ⟨rfl, ?_⟩
    rintro rfl file first member
    rw [first] at free
    simp [(d.hasModule_iff file).2 member] at free

theorem file_of_ofCells? {row : List Datum} {m : ModuleRow}
    (read : ModuleRow.ofCells? row = some m) : m.file = row.head?.bind cellText? := by
  unfold ModuleRow.ofCells? at read
  split at read
  next =>
    cases read
    rfl
  next => cases read

/-- A row that is put at the end adds its file, if it has one. -/
theorem files_append_module (d : Database) (row : List Datum) :
    (d.append [row] .modules).files = d.files ∨ ∃ file, row.head?.bind cellText? = some file ∧
      (d.append [row] .modules).files = d.files ++ [file] := by
  cases stored : d.modules with
  | none => simp [files, append, extend, stored]
  | some rows =>
    cases read : ModuleRow.ofCells? row with
    | none => simp [files, append, extend, stored, read]
    | some m =>
      rw [← file_of_ofCells? read]
      cases file : m.file <;> simp [files, append, extend, stored, read, file]

theorem nodup_files_insertRow {relation : Relation} {d d' : Database} {row : List Datum}
    (nodup : d.files.Nodup) (done : insertRow relation d row = .ok d') : d'.files.Nodup := by
  rcases insertRow_eq_ok done with ⟨rfl, fresh⟩
  cases relation with
  | modules =>
    rcases files_append_module d row with same | ⟨file, first, more⟩
    · exact same ▸ nodup
    · rw [more, List.nodup_append_comm]
      exact List.nodup_cons.2 ⟨fresh rfl file first, nodup⟩
  | imports => exact nodup
  | functions => exact nodup
  | parameters => exact nodup
  | calls => exact nodup

theorem nodup_files_insertRows {relation : Relation} {d d' : Database} {rows : List (List Datum)}
    (nodup : d.files.Nodup) (done : rows.foldlM (insertRow relation) d = .ok d') :
    d'.files.Nodup := by
  induction rows generalizing d with
  | nil =>
    cases done
    exact nodup
  | cons row rows ih =>
    rw [List.foldlM_cons] at done
    cases taken : insertRow relation d row with
    | error e =>
      rw [taken] at done
      cases done
    | ok next =>
      rw [taken] at done
      exact ih (nodup_files_insertRow nodup taken) done

/-- However a database came about, it holds each file once. -/
theorem Kept.nodup_files {d : Database} (kept : d.Kept) : d.files.Nodup := by
  induction kept with
  | empty => exact List.nodup_nil
  | saved reachable => exact nodup_files_ofRegistry reachable
  | created _ done =>
    unfold createAll at done
    split at done
    next => cases done
    next =>
      cases done
      exact List.nodup_nil
  | @removed d d' relation _ done ih =>
    unfold remove at done
    split at done
    next =>
      cases done
      cases relation with
      | modules => exact List.nodup_nil
      | imports => exact ih
      | functions => exact ih
      | parameters => exact ih
      | calls => exact ih
    next => cases done
  | @inserted d d' rows relation _ done ih =>
    unfold insert at done
    split at done
    next => exact nodup_files_insertRows ih done
    next => cases done

end Database

/-! ## Occurrences -/

/-- Asked for a fragment, every store lists the paths in which it occurs. No path has a null
character. -/
def ListsOccurrences (fragment : String) : Prop :=
  ∀ (t : FileTree) (p : Path) (d : Database) (rows : List ModuleRow), d.Kept →
    database t p = .ok d → d.modules = some rows → (∀ path ∈ d.files, '\x00' ∉ path.toList) →
    listModules t p fragment =
      .ok (d.files.filter fun path => fragment.toList <:+: path.toList)

/-- No path in which a fragment occurs is missed. -/
theorem containsMatch_of_infix {fragment path : String} (whole : '\x00' ∉ path.toList)
    (occurs : fragment.toList <:+: path.toList) : containsMatch fragment path = true := by
  rw [containsMatch_iff, patternAround_of_not_mem fun null => whole (occurs.subset null),
    beforeNull_of_not_mem whole]
  exact standsFor_of_infix occurs

/-- Of literal characters nothing else is found. -/
theorem containsMatch_iff_of_literal {fragment path : String} (whole : '\x00' ∉ path.toList)
    (literal : ∀ c ∈ fragment.toList, isLiteral c = true) :
    containsMatch fragment path = true ↔ fragment.toList <:+: path.toList := by
  refine ⟨fun found => ?_, containsMatch_of_infix whole⟩
  have noNull : '\x00' ∉ fragment.toList := fun null => absurd (literal _ null) (by decide)
  rw [containsMatch_iff, patternAround_of_not_mem noNull, beforeNull_of_not_mem whole] at found
  exact infix_of_standsFor literal found

/-- The registry of one module. -/
def oneModule (path : String) : Registry :=
  (Registry.addModule {} { path := path, qualifier := "a", uri := "urn:a" }).value

/-- Files with a store of one module. -/
def filesOfOne (path : String) : FileTree :=
  (FileTree.atFolder ["work"]).putFile (.ofString "a.db") (.database (.ofRegistry (oneModule path)))

theorem database_filesOfOne (path : String) :
    database (filesOfOne path) (.ofString "a.db") = .ok (.ofRegistry (oneModule path)) := by
  rfl

theorem files_oneModule (path : String) :
    (Database.ofRegistry (oneModule path)).files = [path] := by
  rfl

/-- A store of one module shows that a fragment with a sign, or one that is too long, is not listed
by its occurrences. -/
theorem literal_of_listsOccurrences {fragment : String} (lists : ListsOccurrences fragment) :
    (∀ c ∈ fragment.toList, isLiteral c = true) ∧ isOversized fragment = false := by
  have listed : ∀ path : String, '\x00' ∉ path.toList →
      listModules (filesOfOne path) (.ofString "a.db") fragment =
        .ok ([path].filter fun path => fragment.toList <:+: path.toList) := by
    intro path whole
    rw [← files_oneModule path]
    refine lists _ _ _ _ (.saved (.addModule _ (.fresh {}))) (database_filesOfOne path) rfl ?_
    intro other member
    rw [files_oneModule, List.mem_singleton] at member
    exact member ▸ whole
  have shortEnough : isOversized fragment = false := by
    rw [← Bool.not_eq_true]
    intro long
    have outcome := listed "a" (by decide)
    rw [listModules_eq (database_filesOfOne "a") rfl, long] at outcome
    cases outcome
  refine ⟨?_, shortEnough⟩
  by_contra sign
  rcases exists_lookalike sign with ⟨path, whole, found, missing⟩
  have outcome := listed path whole
  rw [listModules_eq (database_filesOfOne path) rfl, shortEnough, files_oneModule] at outcome
  simp [found, missing] at outcome

/-- **A listing holds what the pattern stands for, which is more than the occurrences of a
fragment.** The paths of a listing stand in their order, each once, and are those for which the
pattern around the fragment stands; each path in which the fragment occurs is one of them. No others
are listed, whatever is stored, exactly if every character of the fragment is literal; and a pattern
that is too long is refused. -/
theorem listModules_fragment (fragment : String) :
    (∀ (t : FileTree) (p : Path) (d : Database) (rows : List ModuleRow), d.Kept →
      database t p = .ok d → d.modules = some rows →
      (isOversized fragment = false → ∃ listed, listModules t p fragment = .ok listed ∧
        listed.Nodup ∧ listed.Sublist d.files ∧
        (∀ path, path ∈ listed ↔ path ∈ d.files ∧
          StandsFor (patternAround fragment) (beforeNull path.toList)) ∧
        ∀ path ∈ d.files, '\x00' ∉ path.toList → fragment.toList <:+: path.toList →
          path ∈ listed) ∧
      (isOversized fragment = true → rows ≠ [] → ∃ e, listModules t p fragment = .error e)) ∧
    (ListsOccurrences fragment ↔
      (∀ c ∈ fragment.toList, isLiteral c = true) ∧ isOversized fragment = false) := by
  refine ⟨?_, literal_of_listsOccurrences, ?_⟩
  · intro t p d rows kept held stored
    have listing := listModules_eq held stored fragment
    constructor
    · intro short
      rw [short, Bool.false_and] at listing
      refine ⟨_, listing, kept.nodup_files.filter _, List.filter_sublist, ?_, ?_⟩
      · intro path
        rw [List.mem_filter, containsMatch_iff]
      · intro path member whole occurs
        exact List.mem_filter.2 ⟨member, containsMatch_of_infix whole occurs⟩
    · intro long some
      rw [long, Bool.true_and, if_pos (by simpa using some)] at listing
      exact ⟨_, listing⟩
  · rintro ⟨literal, short⟩ t p d rows kept held stored whole
    rw [listModules_eq held stored, short, Bool.false_and, if_neg Bool.false_ne_true]
    congr 1
    refine List.filter_congr fun path member => ?_
    rw [Bool.eq_iff_iff, containsMatch_iff_of_literal (whole path member) literal,
      decide_eq_true_eq]

/-- A slash is listed by its occurrences: it is a literal character. -/
theorem slash_fragment :
    (Database.ofRegistry (oneModule "/a.xqy")).Kept ∧
      database (filesOfOne "/a.xqy") (.ofString "a.db") = .ok (.ofRegistry (oneModule "/a.xqy")) ∧
      isOversized "/" = false ∧ "/".toList <:+: "/a.xqy".toList ∧ ListsOccurrences "/" ∧
      ∃ listed, listModules (filesOfOne "/a.xqy") (.ofString "a.db") "/" = .ok listed ∧
        listed.Nodup ∧ "/a.xqy" ∈ listed := by
  have kept : (Database.ofRegistry (oneModule "/a.xqy")).Kept := .saved (.addModule _ (.fresh {}))
  have short : isOversized "/" = false := by decide
  have literal : ∀ c ∈ "/".toList, isLiteral c = true := List.forall_mem_singleton.2 rfl
  have occurs : "/".toList <:+: "/a.xqy".toList := by decide
  obtain ⟨listings, exact⟩ := listModules_fragment "/"
  obtain ⟨listed, outcome, nodup, -, -, complete⟩ :=
    (listings _ _ _ _ kept (database_filesOfOne "/a.xqy") rfl).1 short
  refine ⟨kept, database_filesOfOne _, short, occurs, exact.2 ⟨literal, short⟩, listed, outcome,
    nodup, ?_⟩
  exact complete "/a.xqy" (by decide) (by decide) occurs

/-- An underscore lists a path without one. -/
theorem underscore_fragment :
    listModules (filesOfOne "/a.xqy") (.ofString "a.db") "_" = .ok ["/a.xqy"] ∧
      ¬"_".toList <:+: "/a.xqy".toList ∧ ¬∀ fragment, ListsOccurrences fragment := by
  refine ⟨rfl, by decide, fun lists => ?_⟩
  exact absurd ((literal_of_listsOccurrences (lists "_")).1 '_' (by decide)) (by decide)

end CallAtlas.Store
