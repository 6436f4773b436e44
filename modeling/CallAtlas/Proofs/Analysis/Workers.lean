import CallAtlas.Proofs.Analysis.Accounting
import Mathlib.Data.List.Perm.Basic
import Mathlib.Logic.Relation
import Mathlib.Order.WellFounded

/-!
# Workers

Files are read by workers, some at a time. Which worker is done first is left open, and so is which
of the files that are done is entered next; `Pool.Step` is one step of such a reading, and a run is
any sequence of steps that cannot be continued.

Along a run files are only moved on, so what was entered in the end is what reading the files one
after another gives, in some order (`Pool.Reaches.entered_perm`). Every file is entered at its own
place, so the order does not show in the places (`fillPlaces_perm`). Hence an analysis may take the
modules from any run, and comes to what `run` comes to.
-/

namespace CallAtlas.Analysis

/-! ## Pools -/

/-- A file that is to be read, with its place in the list of files. -/
abbrev Task := SourceFile × Nat

/-- How far the reading of some files has come. -/
structure Pool where
  /-- The files that no worker has taken yet, in their order. -/
  waiting : List Task
  /-- The files that workers are reading. -/
  reading : List Task := []
  /-- What came of the files that were read but not entered yet. -/
  finished : List Arrival := []
  /-- What came of the other files, in the order in which it was entered. -/
  entered : List Arrival := []

/-- The number of workers for some files: no more than there are files, but one at least. -/
def poolSize (workers : Int) (files : Nat) : Nat :=
  (max 1 (min workers (Int.ofNat (max files 1)))).toNat

namespace Pool

/-- The pool before any file is taken. -/
def ofFiles (files : List SourceFile) : Pool :=
  { waiting := files.zipIdx }

/-- One step of `size` workers. -/
inductive Step (t : FileTree) (size : Nat) : Pool → Pool → Prop
  /-- A free worker takes the next file. -/
  | take {p : Pool} {task : Task} {rest : List Task} :
    p.waiting = task :: rest → p.reading.length < size →
    Step t size p { p with waiting := rest, reading := p.reading ++ [task] }
  /-- A worker is done with its file. -/
  | finish {p : Pool} {before after : List Task} {task : Task} {outcome : Option ParsedModule} :
    p.reading = before ++ task :: after → readFile t task.1 = .ok outcome →
    Step t size p
      { p with reading := before ++ after, finished := p.finished ++ [(task.2, outcome)] }
  /-- What came of a file is entered. -/
  | enter {p : Pool} {before after : List Arrival} {arrival : Arrival} :
    p.finished = before ++ arrival :: after →
    Step t size p { p with finished := before ++ after, entered := p.entered ++ [arrival] }

/-- A pool can become another one. -/
abbrev Reaches (t : FileTree) (size : Nat) : Pool → Pool → Prop :=
  Relation.ReflTransGen (Step t size)

/-- No step is left. -/
def Final (t : FileTree) (size : Nat) (p : Pool) : Prop :=
  ∀ q, ¬ Step t size p q

/-! ## Runs end -/

/-- How many steps a pool is away from its end. -/
def stepsLeft (p : Pool) : Nat :=
  3 * p.waiting.length + 2 * p.reading.length + p.finished.length

theorem Step.stepsLeft_lt {t : FileTree} {size : Nat} {p q : Pool} (step : Step t size p q) :
    q.stepsLeft < p.stepsLeft := by
  unfold stepsLeft
  cases step with
  | take waiting free =>
    simp only [waiting, List.length_cons, List.length_append, List.length_nil]
    omega
  | finish reading read =>
    simp only [reading, List.length_cons, List.length_append, List.length_nil]
    omega
  | enter finished =>
    simp only [finished, List.length_cons, List.length_append]
    omega

/-- No run goes on forever. -/
theorem wellFounded_step (t : FileTree) (size : Nat) :
    WellFounded fun q p => Step t size p q :=
  Subrelation.wf (fun step => Step.stepsLeft_lt step) (measure stepsLeft).wf

theorem exists_final (t : FileTree) (size : Nat) (p : Pool) :
    ∃ q, Reaches t size p q ∧ q.Final t size := by
  induction p using (wellFounded_step t size).induction with
  | _ p ih =>
    by_cases final : p.Final t size
    · exact ⟨p, .refl, final⟩
    · obtain ⟨next, step⟩ : ∃ next, Step t size p next := by
        simpa only [Final, not_forall, not_not] using final
      obtain ⟨q, reaches, last⟩ := ih next step
      exact ⟨q, .head step reaches, last⟩

end Pool

/-! ## What a run enters -/

/-- The module in a file, none if there is none to be read. -/
def moduleIn (t : FileTree) (s : SourceFile) : Option ParsedModule :=
  match readFile t s with
  | .ok outcome => outcome
  | .error _ => none

/-- What comes of a file. -/
def arrivalOf (t : FileTree) (task : Task) : Arrival :=
  (task.2, moduleIn t task.1)

theorem moduleIn_of_ok {t : FileTree} {s : SourceFile} {outcome : Option ParsedModule}
    (read : readFile t s = .ok outcome) : moduleIn t s = outcome := by
  unfold moduleIn
  rw [read]

namespace Pool

/-- What came and will come of all files of a pool. -/
def arrivals (t : FileTree) (p : Pool) : List Arrival :=
  (p.waiting ++ p.reading).map (arrivalOf t) ++ (p.finished ++ p.entered)

/-- A step moves one file on, and what comes of it stays the same. -/
theorem Step.arrivals_perm {t : FileTree} {size : Nat} {p q : Pool} (step : Step t size p q) :
    (q.arrivals t).Perm (p.arrivals t) := by
  classical
  refine List.perm_iff_count.2 fun arrival => ?_
  unfold arrivals
  cases step with
  | take waiting _ =>
    simp only [waiting, List.map_append, List.map_cons, List.map_nil, List.count_append,
      List.count_cons, List.count_nil]
    omega
  | @finish _ _ task outcome reading read =>
    have same : (task.2, outcome) = arrivalOf t task := by
      rw [arrivalOf, moduleIn_of_ok read]
    simp only [reading, same, List.map_append, List.map_cons, List.count_append, List.count_cons,
      List.count_nil]
    omega
  | enter finished =>
    simp only [finished, List.count_append, List.count_cons, List.count_nil]
    omega

/-- The files of a pool that are not read yet were there before the step. -/
theorem Step.unread_subset {t : FileTree} {size : Nat} {p q : Pool} (step : Step t size p q) :
    q.waiting ++ q.reading ⊆ p.waiting ++ p.reading := by
  intro task member
  cases step with
  | take waiting _ =>
    rw [waiting]
    simp only [List.mem_append, List.mem_cons, List.not_mem_nil, or_false] at member ⊢
    tauto
  | finish reading _ =>
    rw [reading]
    simp only [List.mem_append, List.mem_cons] at member ⊢
    tauto
  | enter _ => exact member

section Runs

variable {t : FileTree} {size : Nat} {files : List SourceFile} {p : Pool}

theorem Reaches.arrivals_perm (reaches : Reaches t size (ofFiles files) p) :
    (p.arrivals t).Perm (files.zipIdx.map (arrivalOf t)) := by
  induction reaches with
  | refl =>
    unfold arrivals ofFiles
    rw [List.append_nil, List.append_nil, List.append_nil]
  | tail _ step ih => exact step.arrivals_perm.trans ih

theorem Reaches.unread_subset (reaches : Reaches t size (ofFiles files) p) :
    p.waiting ++ p.reading ⊆ files.zipIdx := by
  induction reaches with
  | refl => exact List.append_nil files.zipIdx ▸ List.Subset.refl _
  | tail _ step ih => exact fun _ member => ih (step.unread_subset member)

/-- At the end nothing is left to be read or entered, if all files that are read come to an end. -/
theorem Final.nothing_left (final : p.Final t size) (workers : 0 < size)
    (returns : ∀ task ∈ p.reading, ∃ outcome, readFile t task.1 = .ok outcome) :
    p.waiting = [] ∧ p.reading = [] ∧ p.finished = [] := by
  have reading : p.reading = [] := by
    cases busy : p.reading with
    | nil => rfl
    | cons task after =>
      obtain ⟨outcome, read⟩ := returns task (busy ▸ List.mem_cons_self)
      exact (final _ (.finish (busy.trans (List.nil_append _).symm) read)).elim
  have finished : p.finished = [] := by
    cases done : p.finished with
    | nil => rfl
    | cons arrival after =>
      exact (final _ (.enter (done.trans (List.nil_append _).symm))).elim
  have waiting : p.waiting = [] := by
    cases queue : p.waiting with
    | nil => rfl
    | cons task rest =>
      exact (final _ (.take queue (by rw [reading]; exact workers))).elim
  exact ⟨waiting, reading, finished⟩

theorem final_of_nothing_left (t : FileTree) (size : Nat) (entered : List Arrival) :
    Final t size { waiting := [], entered := entered } := by
  intro q step
  cases step with
  | take waiting _ => cases waiting
  | finish reading _ =>
    exact List.append_ne_nil_of_right_ne_nil _ (List.cons_ne_nil _ _) reading.symm
  | enter finished =>
    exact List.append_ne_nil_of_right_ne_nil _ (List.cons_ne_nil _ _) finished.symm

/-- A run that ends has entered what comes of each file, in some order. -/
theorem Reaches.entered_perm (reaches : Reaches t size (ofFiles files) p)
    (final : p.Final t size) (workers : 0 < size)
    (returns : ∀ s ∈ files, ∃ outcome, readFile t s = .ok outcome) :
    p.entered.Perm (files.zipIdx.map (arrivalOf t)) := by
  have left : p.waiting = [] ∧ p.reading = [] ∧ p.finished = [] := by
    refine final.nothing_left workers ?_
    intro task member
    have listed := reaches.unread_subset (List.mem_append_right _ member)
    exact returns task.1 (List.fst_mem_of_mem_zipIdx listed)
  have moved := reaches.arrivals_perm
  unfold arrivals at moved
  rw [left.1, left.2.1, left.2.2] at moved
  exact moved

end Runs

end Pool

/-! ## Places -/

/-- Where each file has its own place, the order of the arrivals does not show. -/
theorem fillPlaces_perm {count : Nat} {arrivals others : List Arrival}
    (perm : arrivals.Perm others) (places : (arrivals.map Prod.fst).Nodup) :
    fillPlaces count arrivals = fillPlaces count others := by
  refine perm.foldl_eq' ?_ _
  intro a listed b listed' filled
  by_cases same : a.1 = b.1
  · rw [List.inj_on_of_nodup_map places listed listed' same]
  · exact List.set_comm _ _ same

/-- Arrivals in the order of the files are entered as they come. -/
theorem fillPlaces_inOrder (t : FileTree) (files : List SourceFile) :
    fillPlaces files.length (files.zipIdx.map (arrivalOf t)) = files.map (moduleIn t) := by
  have filled := fillPlaces_zipIdx (files.map (moduleIn t)) []
  rw [List.zipIdx_map, List.length_map, List.foldl_map] at filled
  unfold fillPlaces
  rw [List.foldl_map]
  exact filled

/-- Files that all come to an end are read one after another. -/
theorem readFiles_of_returns {t : FileTree} {files : List SourceFile}
    (returns : ∀ s ∈ files, ∃ outcome, readFile t s = .ok outcome) :
    readFiles t files = .ok (.ofArrivals files.length (files.zipIdx.map (arrivalOf t))) := by
  have arrived : arrivalsOf t files = .ok (files.zipIdx.map (arrivalOf t)) := by
    refine mapM_of_ok ?_
    rintro ⟨s, place⟩ member
    obtain ⟨outcome, read⟩ := returns s (List.fst_mem_of_mem_zipIdx member)
    rw [arrivalOf, moduleIn_of_ok read]
    dsimp only
    rw [read]
    rfl
  unfold readFiles
  rw [arrived]
  rfl

theorem modules_ofArrivals_inOrder (t : FileTree) (files : List SourceFile) :
    (ParsedFiles.ofArrivals files.length (files.zipIdx.map (arrivalOf t))).modules =
      files.filterMap (moduleIn t) := by
  unfold ParsedFiles.ofArrivals
  rw [fillPlaces_inOrder, List.filterMap_map]
  rfl

theorem outcomes_eq {t : FileTree} {files : List SourceFile}
    {outcomes : List (Option ParsedModule)}
    (read : List.Forall₂ (fun s outcome => readFile t s = .ok outcome) files outcomes) :
    outcomes = files.map (moduleIn t) ∧ ∀ s ∈ files, ∃ outcome, readFile t s = .ok outcome := by
  induction read with
  | nil => exact ⟨rfl, fun s none => nomatch none⟩
  | @cons s outcome files outcomes first _ ih =>
    refine ⟨?_, List.forall_mem_cons.2 ⟨⟨outcome, first⟩, ih.2⟩⟩
    rw [List.map_cons, moduleIn_of_ok first, ← ih.1]

/-- The files without a module are those that are missing among the modules. -/
theorem countP_isNone (outcomes : List (Option ParsedModule)) :
    outcomes.length - (outcomes.filterMap id).length = outcomes.countP Option.isNone := by
  have split := List.length_eq_countP_add_countP Option.isSome (l := outcomes)
  have none : (fun outcome : Option ParsedModule => decide ¬ outcome.isSome = true) =
      Option.isNone := by
    funext outcome
    cases outcome <;> rfl
  rw [none] at split
  rw [List.length_filterMap_eq_countP]
  change outcomes.length - outcomes.countP Option.isSome = _
  omega

/-- **Which worker is done first does not show.** The files may be any for which reading comes to an
end, with a module or with none. No run of the workers goes on forever, there are runs that end, and
whichever ends has the modules in the order of the files and skips the files without one. An
analysis that goes on with them comes to the same counts, the same registry and the same files as
one that reads the files one after another. -/
theorem workers_order_invisible {t : FileTree} {files : List SourceFile}
    {outcomes : List (Option ParsedModule)}
    (read : List.Forall₂ (fun s outcome => readFile t s = .ok outcome) files outcomes)
    (workers : Int) :
    let size := poolSize workers files.length
    (WellFounded fun q p => Pool.Step t size p q) ∧
    (∃ p, Pool.Reaches t size (Pool.ofFiles files) p ∧ p.Final t size) ∧
    ∀ p, Pool.Reaches t size (Pool.ofFiles files) p → p.Final t size →
      let parsed := ParsedFiles.ofArrivals files.length p.entered
      parsed.modules = outcomes.filterMap id ∧
      parsed.skipped = outcomes.countP Option.isNone ∧
      ∀ settings repository total,
        (collect t settings (0, []) repository.sources).value = .ok (total, files) →
        (conclude settings repository (total, files) parsed).value t =
          (run settings repository).value t := by
  intro size
  refine ⟨Pool.wellFounded_step t size, Pool.exists_final t size _, ?_⟩
  intro p reaches final parsed
  obtain ⟨same, returns⟩ := outcomes_eq read
  have positive : 0 < size := by
    unfold size poolSize
    omega
  have entered := reaches.entered_perm final positive returns
  have places : (p.entered.map Prod.fst).Nodup := by
    rw [(entered.map Prod.fst).nodup_iff, List.map_map]
    change (files.zipIdx.map Prod.snd).Nodup
    rw [List.zipIdx_map_snd]
    exact List.nodup_range'
  have inOrder : parsed = .ofArrivals files.length (files.zipIdx.map (arrivalOf t)) := by
    unfold parsed ParsedFiles.ofArrivals
    rw [fillPlaces_perm entered places]
  have modules : parsed.modules = outcomes.filterMap id := by
    rw [inOrder, modules_ofArrivals_inOrder, same, List.filterMap_map]
    rfl
  refine ⟨modules, ?_, ?_⟩
  · change files.length - parsed.modules.length = _
    rw [modules, ← countP_isNone, read.length_eq]
  · intro settings repository total collected
    have inTurn : readFiles t files = .ok parsed := by
      rw [readFiles_of_returns returns, inOrder]
    rw [value_run, collected]
    dsimp only
    rw [inTurn]

/-- A folder with a module, and one with a file that is no text. -/
def mixedTree : FileTree :=
  ((FileTree.atFolder ["work"]).plant (.ofString "src/a.xqy")
    (.bytes "module namespace a=\"u\";".toUTF8)).plant (.ofString "lib/b.xqy")
    (.bytes (ByteArray.mk #[255]))

/-- A repository with both folders. -/
def mixedRepository : Repository :=
  { id := "mixed", sources := [{ path := .ofString "src" }, { path := .ofString "lib" }] }

/-- The files in the folders. -/
def mixedFiles : List SourceFile :=
  [⟨.ofString "src/a.xqy", "/a.xqy"⟩, ⟨.ofString "lib/b.xqy", "/b.xqy"⟩]

theorem mixed_collected :
    (collect mixedTree {} (0, []) mixedRepository.sources).value = .ok (2, mixedFiles) := by
  have found : (collect mixedTree {} (0, []) mixedRepository.sources).value.toOption =
      some (2, mixedFiles) := by
    decide +kernel
  cases result : (collect mixedTree {} (0, []) mixedRepository.sources).value with
  | error e => rw [result] at found; cases found
  | ok files => rw [result] at found; cases found; rfl

/-- The first file has a module. -/
theorem mixed_first :
    ∃ m, readFile mixedTree ⟨.ofString "src/a.xqy", "/a.xqy"⟩ = .ok (some m) := by
  have legible : (readFile mixedTree ⟨.ofString "src/a.xqy", "/a.xqy"⟩).toOption.join.isSome =
      true := by
    decide +kernel
  match result : readFile mixedTree ⟨.ofString "src/a.xqy", "/a.xqy"⟩ with
  | .ok (some m) => exact ⟨m, rfl⟩
  | .ok none => rw [result] at legible; cases legible
  | .error e => rw [result] at legible; cases legible

/-- The second file has none. -/
theorem mixed_second : readFile mixedTree ⟨.ofString "lib/b.xqy", "/b.xqy"⟩ = .ok none := rfl

/-- Two workers may be done with the second file first; the module of the first one is taken. -/
theorem mixed_order_invisible : ∃ p m,
    Pool.Reaches mixedTree (poolSize 4 2) (Pool.ofFiles mixedFiles) p ∧
      p.entered = [(1, none), (0, some m)] ∧ ParsedFiles.ofArrivals 2 p.entered = ⟨[m], 1⟩ ∧
      (conclude {} mixedRepository (2, mixedFiles) ⟨[m], 1⟩).value mixedTree =
        (run {} mixedRepository).value mixedTree := by
  obtain ⟨m, first⟩ := mixed_first
  let a : Task := (⟨.ofString "src/a.xqy", "/a.xqy"⟩, 0)
  let b : Task := (⟨.ofString "lib/b.xqy", "/b.xqy"⟩, 1)
  have taken : Pool.Reaches mixedTree (poolSize 4 2) (Pool.ofFiles mixedFiles)
      { waiting := [], reading := [a, b] } :=
    .tail (b := { waiting := [b], reading := [a] })
      (.single (.take rfl (by decide))) (.take rfl (by decide))
  have entered : Pool.Reaches mixedTree (poolSize 4 2) (Pool.ofFiles mixedFiles)
      { waiting := [], reading := [a], entered := [(1, none)] } :=
    (taken.tail (@Pool.Step.finish _ _ _ [a] [] b none rfl mixed_second)).tail
      (@Pool.Step.enter _ _ _ [] [] (1, none) rfl)
  have reaches : Pool.Reaches mixedTree (poolSize 4 2) (Pool.ofFiles mixedFiles)
      { waiting := [], entered := [(1, none), (0, some m)] } :=
    (entered.tail (@Pool.Step.finish _ _ _ [] [] a (some m) rfl first)).tail
      (@Pool.Step.enter _ _ _ [] [] (0, some m) rfl)
  obtain ⟨-, -, ends⟩ := workers_order_invisible (.cons first (.cons mixed_second .nil)) 4
  obtain ⟨-, -, same⟩ := ends _ reaches (Pool.final_of_nothing_left mixedTree _ _)
  exact ⟨_, m, reaches, rfl, rfl, same {} mixedRepository 2 mixed_collected⟩

end CallAtlas.Analysis
