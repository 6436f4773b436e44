import CallAtlas.Files.Tree
import CallAtlas.Proofs.Report
import Mathlib.Data.List.Basic

/-!
# Putting files

A walk along a path asks which folders are there and which entries are. Putting a file where no
folder is takes no folder away and no entry, so every walk that led somewhere still leads there.
From this follows what a put is for: the path that a file was put at leads to that file.

`FileAction.value` is the outcome of an action on files, its notices left aside.
-/

namespace CallAtlas

/-! ## Outcomes of actions -/

namespace FileAction

variable {ε α β : Type}

/-- The outcome of an action and the files after it. -/
def value (a : FileAction ε α) (t : FileTree) : Except ε α × FileTree :=
  (StateT.run (ExceptT.run a) t).value

theorem value_bind (a : FileAction ε α) (f : α → FileAction ε β) (t : FileTree) :
    (a >>= f).value t = match a.value t with
      | (.ok x, s) => (f x).value s
      | (.error e, s) => (.error e, s) := by
  change (StateT.run (ExceptT.run a) t >>= fun found =>
    StateT.run (ExceptT.bindCont f found.1) found.2).value = _
  rw [Report.value_bind]
  unfold value
  rcases (StateT.run (ExceptT.run a) t).value with ⟨outcome, s⟩
  cases outcome with
  | ok x => rfl
  | error e => rfl

/-- An action of two steps succeeds only through a success of the first. -/
theorem value_bind_eq_ok {a : FileAction ε α} {f : α → FileAction ε β} {t t' : FileTree} {b : β}
    (h : (a >>= f).value t = (.ok b, t')) :
    ∃ x s, a.value t = (.ok x, s) ∧ (f x).value s = (.ok b, t') := by
  rw [value_bind] at h
  split at h
  next x s first => exact ⟨x, s, first, h⟩
  next => cases h

theorem value_get (t : FileTree) : (get : FileAction ε FileTree).value t = (.ok t, t) := rfl

theorem value_pure (a : α) (t : FileTree) : (pure a : FileAction ε α).value t = (.ok a, t) := rfl

theorem value_lift (r : Report α) (t : FileTree) :
    (liftM r : FileAction ε α).value t = (.ok r.value, t) := rfl

theorem value_ofChecked (c : Checked ε α) (t : FileTree) :
    (ofChecked c).value t = (c.value, t) := rfl

end FileAction

namespace FileTree

/-! ## Walks -/

/-- The tree with a file kept under some names. -/
def keep (t : FileTree) (names : List String) (content : Content) : FileTree :=
  { t with entries := t.entries.put names (.file content) }

section Keep

variable {t : FileTree} {key : List String} (content : Content)

theorem entry?_keep (names : List String) :
    FileTree.entry? (t.keep key content) names =
      if names = [] then some .folder
      else if names = key then some (.file content) else t.entry? names := by
  unfold entry? keep
  cases names with
  | nil => rfl
  | cons name names =>
    rw [Table.get?_put]
    rfl

theorem entry?_keep_self (nonempty : key ≠ []) :
    FileTree.entry? (t.keep key content) key = some (.file content) := by
  rw [entry?_keep, if_neg nonempty, if_pos rfl]

theorem isSome_entry?_keep {names : List String} (held : (t.entry? names).isSome = true) :
    Option.isSome ( FileTree.entry? (t.keep key content) names) = true := by
  rw [entry?_keep]
  split
  next => rfl
  next =>
    split
    next => rfl
    next => exact held

theorem hasFolder_keep (free : t.hasFolder key = false) {names : List String}
    (folder : t.hasFolder names = true) : (t.keep key content).hasFolder names = true := by
  by_cases same : names = key
  · rw [same, free] at folder
    cases folder
  · unfold hasFolder at folder ⊢
    by_cases top : names = []
    · rw [entry?_keep, if_pos top]
    · rw [entry?_keep, if_neg top, if_neg same]
      exact folder

/-- A step that leads somewhere leads there after a file was put where no folder is. -/
theorem step_keep (free : t.hasFolder key = false) {names found : List String} {name : String}
    (leads : t.step names name = .ok found) : (t.keep key content).step names name = .ok found := by
  unfold step at leads ⊢
  split at leads
  next => cases leads
  next folder =>
    rw [Bool.not_eq_true, Bool.not_eq_false'] at folder
    rw [hasFolder_keep content free folder]
    simp only [Bool.not_true, Bool.false_eq_true, if_false]
    split at leads
    next up => rw [if_pos up]; exact leads
    next down =>
      rw [if_neg down]
      split at leads
      next => cases leads
      next short =>
        rw [if_neg short]
        split at leads
        next held => rw [if_pos (isSome_entry?_keep content held)]; exact leads
        next => cases leads

theorem foldlM_step_keep (free : t.hasFolder key = false) {walk start found : List String}
    (leads : walk.foldlM t.step start = .ok found) :
    walk.foldlM (t.keep key content).step start = .ok found := by
  induction walk generalizing start with
  | nil => exact leads
  | cons name walk ih =>
    rw [List.foldlM_cons] at leads ⊢
    cases first : t.step start name with
    | error e =>
      rw [first] at leads
      cases leads
    | ok next =>
      rw [first] at leads
      rw [step_keep content free first]
      exact ih leads

theorem seek_keep (free : t.hasFolder key = false) {p : Path} {found : List String}
    (leads : t.seek p = .ok found) : (t.keep key content).seek p = .ok found := by
  unfold seek at leads ⊢
  split at leads
  next => cases leads
  next whole =>
    rw [if_neg whole]
    split at leads
    next => cases leads
    next short =>
      rw [if_neg short]
      exact foldlM_step_keep content free leads

end Keep

/-! ## Putting a file at a path -/

theorem hasFolder_eq_false {t : FileTree} {names : List String}
    (other : t.entry? names ≠ some .folder) : t.hasFolder names = false := by
  unfold hasFolder
  split
  next folder => exact (other folder).elim
  next => rfl

theorem ne_nil_of_entry?_ne {t : FileTree} {names : List String}
    (other : t.entry? names ≠ some .folder) : names ≠ [] := by
  rintro rfl
  exact other rfl

/-- A step that finds nothing starts in a folder that has no entry of the name. -/
theorem step_eq_missing {t : FileTree} {names : List String} {name : String}
    (missing : t.step names name = .error .missing) :
    t.hasFolder names = true ∧ name ≠ Path.up ∧ ¬ name.utf8ByteSize > maxNameSize ∧
      t.entry? (names ++ [name]) = none := by
  unfold step at missing
  split at missing
  next => cases missing
  next folder =>
    split at missing
    next => cases missing
    next down =>
      split at missing
      next => cases missing
      next short =>
        split at missing
        next => cases missing
        next absent =>
          rw [Bool.not_eq_true, Bool.not_eq_false'] at folder
          rw [Option.not_isSome_iff_eq_none] at absent
          exact ⟨folder, down, short, absent⟩

theorem step_keep_of_missing {t : FileTree} {names : List String} {name : String}
    (missing : t.step names name = .error .missing) (content : Content) :
    (t.keep (names ++ [name]) content).step names name = .ok (names ++ [name]) := by
  obtain ⟨folder, down, short, absent⟩ := step_eq_missing missing
  have free : t.hasFolder (names ++ [name]) = false :=
    hasFolder_eq_false (absent ▸ Option.some_ne_none _ |>.symm)
  have self := entry?_keep_self (t := t) content
    (List.append_ne_nil_of_right_ne_nil names (List.cons_ne_nil name []))
  unfold step
  rw [hasFolder_keep content free folder, self]
  simp only [Bool.not_true, Bool.false_eq_true, if_false, down, short, Option.isSome_some, if_true]

/-- A path whose last name alone is missing leads to a file that is kept under that name. -/
theorem seek_keep_of_missing {t : FileTree} {p : Path} {folder : List String}
    (missing : t.seek p = .error .missing) (parent : t.seek p.parent = .ok folder)
    (content : Content) :
    (t.keep (folder ++ [p.name]) content).seek p = .ok (folder ++ [p.name]) := by
  let start := if p.isAbsolute then [] else t.workFolder
  have walked : p.names.dropLast.foldlM t.step start = .ok folder := by
    unfold seek at parent
    split at parent
    next => cases parent
    next =>
      split at parent
      next => cases parent
      next => exact parent
  unfold seek at missing ⊢
  split at missing
  next => cases missing
  next whole =>
    rw [if_neg whole]
    split at missing
    next => cases missing
    next short =>
      rw [if_neg short]
      change p.names.foldlM t.step start = _ at missing
      change p.names.foldlM (t.keep (folder ++ [p.name]) content).step start = _
      have nonempty : p.names ≠ [] := by
        intro empty
        rw [empty] at missing
        cases missing
      have parts : p.names = p.names.dropLast ++ [p.name] := by
        unfold Path.name
        rw [List.getLast?_eq_some_getLast nonempty, Option.getD_some,
          List.dropLast_append_getLast nonempty]
      have last : t.step folder p.name = .error .missing := by
        rw [parts, List.foldlM_append, walked] at missing
        change (t.step folder p.name >>= pure) = _ at missing
        rw [bind_pure] at missing
        exact missing
      have free : t.hasFolder (folder ++ [p.name]) = false :=
        hasFolder_eq_false ((step_eq_missing last).2.2.2 ▸ Option.some_ne_none _ |>.symm)
      rw [parts, List.foldlM_append, foldlM_step_keep content free walked]
      change ((t.keep (folder ++ [p.name]) content).step folder p.name >>= pure) = _
      rw [bind_pure]
      exact step_keep_of_missing last content

/-- A path that a file was put at leads to the file, unless a folder was there. -/
theorem find?_putFile {t : FileTree} {p : Path} {names : List String}
    (placed : t.place p = some names) (other : t.find? p ≠ some .folder) (content : Content) :
    (t.putFile p content).find? p = some (.file content) := by
  have put : t.putFile p content = t.keep names content := by
    unfold putFile
    rw [placed]
    rfl
  rw [put]
  unfold place at placed
  split at placed
  next found leads =>
    cases placed
    have entry : t.entry? names ≠ some .folder := by
      intro folder
      refine other ?_
      unfold find? locate
      rw [leads]
      exact folder
    unfold find? locate
    rw [seek_keep content (hasFolder_eq_false entry) leads]
    exact entry?_keep_self content (ne_nil_of_entry?_ne entry)
  next missing =>
    obtain ⟨folder, located, rfl⟩ := Option.map_eq_some_iff.1 placed
    have parent : t.seek p.parent = .ok folder := by
      unfold locate at located
      cases leads : t.seek p.parent with
      | ok found => rw [leads] at located; cases located; rfl
      | error e => rw [leads] at located; cases located
    unfold find? locate
    rw [seek_keep_of_missing missing parent content]
    exact entry?_keep_self content (List.append_ne_nil_of_right_ne_nil _ (List.cons_ne_nil _ _))
  next => cases placed

theorem exists_place {t : FileTree} {p : Path} {e : Entry} (found : t.find? p = some e) :
    ∃ names, t.place p = some names := by
  unfold find? locate at found
  cases leads : t.seek p with
  | error o => rw [leads] at found; cases found
  | ok names =>
    refine ⟨names, ?_⟩
    unfold place
    rw [leads]

theorem putFile_of_place_eq_none {t : FileTree} {p : Path} (unplaced : t.place p = none)
    (content : Content) : t.putFile p content = t := by
  unfold putFile
  rw [unplaced]

theorem probe_of_find? {t : FileTree} {p : Path} {e : Entry} (found : t.find? p = some e) :
    t.probe p = .ok (some e) := by
  unfold find? locate at found
  unfold probe
  cases leads : t.seek p with
  | error o => rw [leads] at found; cases found
  | ok names =>
    rw [leads] at found
    exact congrArg Except.ok found

theorem workFolder_putFile (t : FileTree) (p : Path) (content : Content) :
    (t.putFile p content).workFolder = t.workFolder := by
  unfold putFile
  split <;> rfl

end FileTree
end CallAtlas
