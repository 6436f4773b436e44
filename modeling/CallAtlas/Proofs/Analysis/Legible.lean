import CallAtlas.Proofs.Analysis.Workers
import CallAtlas.Proofs.Canonical.Reading
import CallAtlas.Proofs.Source.Legible
import CallAtlas.Proofs.Written.Recovery

/-!
# Analyses of any texts

What stands in the files of a repository decides whether an analysis comes to its end. A file that
is no text is skipped, and a text that can be read gives its module whatever is malformed in it. One
text that cannot be read ends the whole run, and nothing of the other files is registered
(`run_of_texts`).

Which texts can be read is settled for one text at a time (`Source.Handles`). From there the
statement goes to one file, to a list of files, in which the first failure is the failure of the
list, and to the registry of the modules that were read.
-/

namespace CallAtlas

namespace Analysis

/-! ## Files -/

/-- Whether a file is a text. -/
def isText (t : FileTree) (s : SourceFile) : Bool :=
  (t.readText s.file).isSome

/-- Whether the text in a file, if it is one, can be read. -/
def IsLegible (t : FileTree) (s : SourceFile) : Prop :=
  ∀ text, t.readText s.file = some text → Source.IsLegible text s.modulePath

section Files

variable {t : FileTree} {s : SourceFile} {files : List SourceFile}

theorem readFile_of_text {text : String} (isText : t.readText s.file = some text) :
    readFile t s = some <$> (Source.readModule text s.modulePath).value := by
  unfold readFile
  rw [isText]
  rfl

theorem readFile_of_none (noText : t.readText s.file = none) : readFile t s = .ok none := by
  unfold readFile
  rw [noText]
  rfl

theorem exists_readFile_iff : (∃ outcome, readFile t s = .ok outcome) ↔ IsLegible t s := by
  unfold IsLegible
  cases content : t.readText s.file with
  | none => exact ⟨fun _ _ absent => (nomatch absent), fun _ => ⟨none, readFile_of_none content⟩⟩
  | some text =>
    have one : (∀ text', some text = some text' → Source.IsLegible text' s.modulePath) ↔
        Source.IsLegible text s.modulePath :=
      ⟨fun each => each text rfl, fun legible _ same => Option.some.inj same ▸ legible⟩
    rw [one, ← Source.exists_readModule_iff, readFile_of_text content]
    cases (Source.readModule text s.modulePath).value with
    | ok m => exact ⟨fun _ => ⟨m, rfl⟩, fun _ => ⟨some m, rfl⟩⟩
    | error e => exact ⟨fun ⟨_, absent⟩ => (nomatch absent), fun ⟨_, absent⟩ => nomatch absent⟩

theorem isTooLong_of_readFile {e : NumeralError} (failed : readFile t s = .error e) :
    Source.IsTooLong e := by
  cases content : t.readText s.file with
  | none =>
    rw [readFile_of_none content] at failed
    cases failed
  | some text =>
    rw [readFile_of_text content] at failed
    cases read : (Source.readModule text s.modulePath).value with
    | ok m =>
      rw [read] at failed
      cases failed
    | error e' =>
      rw [read] at failed
      cases failed
      exact Source.failsBy_readModule e read

theorem readFiles_of_legible (legible : ∀ s ∈ files, IsLegible t s) :
    ∃ parsed, readFiles t files = .ok parsed ∧ parsed.modules = files.filterMap (moduleIn t) :=
  ⟨_, readFiles_of_returns fun s member => exists_readFile_iff.2 (legible s member),
    modules_ofArrivals_inOrder t files⟩

/-- Files are read if and only if each of them can be. -/
theorem exists_readFiles_iff :
    (∃ parsed, readFiles t files = .ok parsed) ↔ ∀ s ∈ files, IsLegible t s := by
  constructor
  · rintro ⟨parsed, read⟩
    obtain ⟨outcomes, each, -⟩ := readFiles_eq_ok read
    exact fun s member => exists_readFile_iff.1 ((outcomes_eq each).2 s member)
  · exact fun legible => (readFiles_of_legible legible).imp fun _ read => read.1

theorem isTooLong_of_readFiles {e : NumeralError} (failed : readFiles t files = .error e) :
    Source.IsTooLong e := by
  cases arrived : arrivalsOf t files with
  | ok arrivals =>
    unfold readFiles at failed
    rw [arrived] at failed
    cases failed
  | error e' =>
    unfold readFiles at failed
    rw [arrived] at failed
    cases failed
    obtain ⟨⟨s, place⟩, -, first⟩ := exists_of_mapM_eq_error arrived
    dsimp only at first
    cases read : readFile t s with
    | ok outcome =>
      rw [read] at first
      cases first
    | error e' =>
      rw [read] at first
      cases first
      exact isTooLong_of_readFile read

/-- The module in a file is there if the file is a text, and has the module path of the file. -/
theorem map_path_moduleIn (legible : IsLegible t s) :
    (moduleIn t s).map ParsedModule.path =
      if isText t s then some s.modulePath else none := by
  obtain ⟨outcome, read⟩ := exists_readFile_iff.2 legible
  rw [moduleIn_of_ok read]
  unfold isText
  cases content : t.readText s.file with
  | none =>
    rw [readFile_of_none content] at read
    cases read
    rfl
  | some text =>
    cases outcome with
    | some m => exact congrArg some (readFile_spec read).1
    | none =>
      rw [readFile_of_text content] at read
      cases result : (Source.readModule text s.modulePath).value with
      | ok m => rw [result] at read; cases read
      | error e => rw [result] at read; cases read

/-- The modules in the files are those of the texts, in the order of the files. -/
theorem paths_filterMap_moduleIn (legible : ∀ s ∈ files, IsLegible t s) :
    (files.filterMap (moduleIn t)).map ParsedModule.path =
      (files.filter (isText t)).map SourceFile.modulePath := by
  rw [List.map_filterMap, ← List.filterMap_eq_map, List.filterMap_filter]
  refine List.filterMap_congr fun s member => ?_
  rw [map_path_moduleIn (legible s member)]
  rfl

end Files

/-! ## Whole runs -/

section Runs

variable {settings : Settings} {repository : Repository} {t : FileTree} {total : Nat}
  {files : List SourceFile}

/-- A run whose files were read comes to what saving the registry of their modules comes to. -/
theorem value_run_of_read {parsed : ParsedFiles}
    (collected : (collect t settings (0, []) repository.sources).value = .ok (total, files))
    (read : readFiles t files = .ok parsed) :
    let r := (Registry.merge { scheme := settings.scheme } parsed.modules).value
    Prod.map (Except.map Prod.snd) id ((run settings repository).value t) =
      Prod.map (Except.map fun _ => r) id
        ((Store.save (storePath settings repository) r).value t) := by
  intro r
  rw [value_run, collected]
  dsimp only
  rw [read]
  dsimp only
  rw [value_conclude]
  dsimp only
  rcases (Store.save (storePath settings repository) r).value t with ⟨_ | _, t'⟩
  · rfl
  · rfl

/-- The registry of legible files has the modules of the texts among them, in their order, but for
one at the path of the external node. -/
theorem keys_merge_moduleIn
    (collected : (collect t settings (0, []) repository.sources).value = .ok (total, files))
    (legible : ∀ s ∈ files, IsLegible t s) :
    (Registry.merge { scheme := settings.scheme }
        (files.filterMap (moduleIn t))).value.modules.keys =
      ((files.filter (isText t)).map SourceFile.modulePath).filter
        (· ≠ settings.scheme.externalPath) := by
  obtain ⟨parsed, read, modules⟩ := readFiles_of_legible legible
  obtain ⟨sublist, sound⟩ := readFiles_spec read
  rw [modules] at sublist sound
  have none : (([] : List SourceFile).map SourceFile.modulePath).Nodup := List.nodup_nil
  have paths := sublist.nodup (collect_spec none (Nat.le_refl 0) collected).1
  have distinct : ∀ m ∈ files.filterMap (moduleIn t), m.Distinct := fun m member =>
    (sound m member).distinct
  rw [Registry.value_merge distinct,
    Registry.modules_ofModules (Registry.nodup_paths_kept _ _), Table.keys, List.map_map,
    Registry.kept_of_nodup paths, ← paths_filterMap_moduleIn legible, List.filter_map]
  rfl

/-- **Which texts an analysis comes to its end with.** Reading takes every text as `Source.Handles`
says. Where all texts among the files found can be read, the run merges the modules of all of them
and saves that registry. Where one cannot, the run fails on its numeral and changes no file. The
content of a file may be any bytes, but its name is a text, as all names in a `FileTree` are. -/
theorem run_of_texts
    (collected : (collect t settings (0, []) repository.sources).value = .ok (total, files)) :
    (∀ text path, Source.Handles text path) ∧
    ((∀ s ∈ files, IsLegible t s) →
      let r := (Registry.merge { scheme := settings.scheme } (files.filterMap (moduleIn t))).value
      r.modules.keys = ((files.filter (isText t)).map SourceFile.modulePath).filter
          (· ≠ settings.scheme.externalPath) ∧
        Prod.map (Except.map Prod.snd) id ((run settings repository).value t) =
          Prod.map (Except.map fun _ => r) id
            ((Store.save (storePath settings repository) r).value t)) ∧
    ((∃ s ∈ files, ¬IsLegible t s) →
      ∃ e, Source.IsTooLong e ∧ (run settings repository).value t = (.error (.numeral e), t)) := by
  refine ⟨Source.handles, ?_, ?_⟩
  · intro legible
    obtain ⟨parsed, read, modules⟩ := readFiles_of_legible legible
    have ran := value_run_of_read collected read
    rw [modules] at ran
    exact ⟨keys_merge_moduleIn collected legible, ran⟩
  · rintro ⟨s, member, illegible⟩
    cases read : readFiles t files with
    | ok parsed => exact (illegible (exists_readFiles_iff.1 ⟨parsed, read⟩ s member)).elim
    | error e =>
      refine ⟨e, isTooLong_of_readFiles read, ?_⟩
      rw [value_run, collected]
      dsimp only
      rw [read]

end Runs

/-- A file that is no text is skipped, and the module of the other file is registered. -/
theorem mixed_registered :
    ∃ m, mixedFiles.filterMap (moduleIn mixedTree) = [m] ∧
      let r := (Registry.merge {} [m]).value
      r.modules.keys = ["/a.xqy"] ∧
        Prod.map (Except.map Prod.snd) id ((run {} mixedRepository).value mixedTree) =
          Prod.map (Except.map fun _ => r) id
            ((Store.save (storePath {} mixedRepository) r).value mixedTree) := by
  obtain ⟨m, first⟩ := mixed_first
  have legible : ∀ s ∈ mixedFiles, IsLegible mixedTree s := by
    refine List.forall_mem_cons.2 ⟨exists_readFile_iff.1 ⟨some m, first⟩, ?_⟩
    exact List.forall_mem_singleton.2 (exists_readFile_iff.1 ⟨none, mixed_second⟩)
  have modules : mixedFiles.filterMap (moduleIn mixedTree) = [m] := by
    unfold mixedFiles
    rw [List.filterMap_cons, moduleIn_of_ok first]
    rfl
  obtain ⟨keys, saved⟩ := (run_of_texts mixed_collected).2.1 legible
  rw [modules] at keys saved
  exact ⟨m, modules, keys.trans (by decide +kernel), saved⟩

/-! ## A text that cannot be read -/

section Unread

open Written Canonical

/-- A declaration that names a function of its own module by an arity of one digit too many. -/
def longLocal : Declaration :=
  ⟨"local", "f", [], "", String.ofList ("local:g#".toList ++ List.replicate (maxDigits + 1) '1')⟩

theorem body_longLocal : longLocal.body.toList =
    "local".toList ++ (":g#".toList ++ List.replicate (maxDigits + 1) '1') := by
  have parts : "local:g#".toList = "local".toList ++ ":g#".toList := by decide
  rw [← List.append_assoc, ← parts]
  exact String.toList_ofList

theorem written_longLocal : written [longLocal] =
    "declare function local:f() \x7blocal:g#".toList ++
    (List.replicate (maxDigits + 1) '1' ++ "\x7d;\n".toList) := by
  rw [written_cons, Declaration.tail, body_longLocal]
  simp only [List.append_assoc]
  rfl

theorem isUncommented_longLocal : IsUncommented (written [longLocal]) := by
  rw [written_longLocal]
  refine IsUncommented.append (by decide) (isUncommented_of_not_mem_paren ?_) ?_
  · rw [List.mem_append, List.mem_replicate]
    rintro (⟨-, digit⟩ | ending)
    · exact absurd digit (by decide)
    · exact absurd ending (by decide)
  · rw [List.replicate_succ]
    exact head?_cons_ne (by decide)

/-- The text of that declaration cannot be read as a module. -/
theorem longLocal_unread :
    ∃ e, Source.IsTooLong e ∧
      (Source.readModule (String.ofList (written [longLocal])) "/a.xqy").value = .error e := by
  have ⟨fits, quiet⟩ : longLocal.Fits ∧ longLocal.Quiet :=
    fits_quiet_of_ones rfl (by decide) (by decide) rfl rfl
      (List.all_iff_forall_prop.1 (by decide)) (by decide) (by decide)
  have illegible : ¬Source.IsLegible (String.ofList (written [longLocal])) "/a.xqy" := by
    rw [isLegible_written "/a.xqy" (List.forall_mem_singleton.2 fits)
      (List.forall_mem_singleton.2 quiet) (List.nodup_singleton _) isUncommented_longLocal]
    intro short
    have own := short longLocal (List.mem_singleton_self _)
    rw [body_longLocal] at own
    exact @not_hasShortArities_of_ones _ "local".toList _ (by decide)
      (List.mem_cons_of_mem _ List.mem_cons_self) (Nat.lt_succ_self maxDigits) own
  cases read : (Source.readModule (String.ofList (written [longLocal])) "/a.xqy").value with
  | ok m => exact (illegible (Source.exists_readModule_iff.1 ⟨m, read⟩)).elim
  | error e => exact ⟨e, Source.failsBy_readModule e read, rfl⟩

end Unread

end Analysis
end CallAtlas
