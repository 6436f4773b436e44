import CallAtlas.Proofs.Registry.Reachable
import CallAtlas.Proofs.Store.Saving

/-!
# What a refused save leaves behind

A save is a script: the five relations are dropped, made again and filled. Only an insertion opens
a transaction, and it stays open until the script ends; dropping and making relations before that
is committed statement by statement. So when a row is refused, taking the transaction back undoes
the insertions and nothing else: whatever the store held before, it holds five relations without
rows after.

`Store.writeRows` gives the outcome of the script in one step. `value_writeRows` shows that it is
the outcome of running the script statement by statement.
-/

namespace CallAtlas.Store

/-! ## Statements and transactions -/

/-- Why a database refuses a row or a statement. -/
inductive Refusal
  /-- The database refuses the change. -/
  | change (cause : ChangeError)
  /-- An integer of the row does not fit 64 bits. -/
  | integerTooLarge
deriving Repr, DecidableEq

/-- One statement of a script. -/
inductive Statement
  /-- Takes a relation away if it is there. -/
  | drop (relation : Relation)
  /-- Makes a relation without rows. -/
  | create (relation : Relation)
  /-- Inserts rows, given column by column. -/
  | insert (relation : Relation) (rows : List (List Datum))

/-- A connection to a database. -/
structure Connection where
  /-- What is left of all changes if the connection fails. -/
  committed : Database
  /-- What the open transaction makes of it; none if no transaction is open. -/
  pending : Option Database := none

namespace Connection

/-- The database as the connection sees it. -/
def current (c : Connection) : Database :=
  c.pending.getD c.committed

/-- A change that opens no transaction: outside of one it is committed at once. -/
def alter (c : Connection) (d : Database) : Connection :=
  match c.pending with
  | some _ => { c with pending := some d }
  | none => { c with committed := d }

end Connection

/-- Whether a value fits its column. -/
def fitsCell : Datum → Bool
  | .int n => Numeral.fitsWord n
  | _ => true

/-- Inserts one row, unless a value does not fit or the database refuses the row. -/
def insertCells (relation : Relation) (d : Database) (row : List Datum) :
    Except Refusal Database :=
  if row.all fitsCell then (d.insertRow relation row).mapError .change
  else .error .integerTooLarge

/-- Runs a statement. An insertion opens a transaction unless one is open. -/
def Connection.execute (c : Connection) : Statement → Except Refusal Connection
  | .drop relation => .ok (c.alter (c.current.drop relation))
  | .create relation =>
    if c.current.has relation then .error (.change (.present relation))
    else .ok (c.alter (c.current.create relation))
  | .insert relation rows => do
    return { c with pending := some (← rows.foldlM (insertCells relation) c.current) }

/-- Runs a script: at its end the open transaction is committed, and where a statement is refused
it is taken back. The outcome stands beside the database that is left. -/
def Connection.run (c : Connection) : List Statement → Except Refusal Unit × Database
  | [] => (.ok (), c.current)
  | statement :: script =>
    match c.execute statement with
    | .ok next => next.run script
    | .error refusal => (.error refusal, c.committed)

/-- The script that replaces the contents of a database by some rows. -/
def replacing (rows : Relation → List (List Datum)) : List Statement :=
  Relation.all.map .drop ++ (Relation.all.map .create ++
    Relation.all.map fun relation => .insert relation (rows relation))

/-- The rows of a database, column by column. -/
def Database.cellsOf (d : Database) : Relation → List (List Datum)
  | .modules => (d.modules.getD []).map (·.columns.map Prod.snd)
  | .imports => (d.imports.getD []).map (·.columns.map Prod.snd)
  | .functions => (d.functions.getD []).map (·.columns.map Prod.snd)
  | .parameters => (d.parameters.getD []).map (·.columns.map Prod.snd)
  | .calls => (d.calls.getD []).map (·.columns.map Prod.snd)

/-! ## Runs of the script -/

theorem execute_insert (c : Connection) (relation : Relation) (rows : List (List Datum)) :
    c.execute (.insert relation rows) =
      (rows.foldlM (insertCells relation) c.current).map fun d => { c with pending := some d } :=
  rfl

/-- Outside of a transaction the relations are replaced by empty ones for good. -/
theorem run_replacing (d : Database) (rows : Relation → List (List Datum)) :
    Connection.run ⟨d, none⟩ (replacing rows) = Connection.run ⟨Database.fresh, none⟩
      (Relation.all.map fun relation => .insert relation (rows relation)) := rfl

/-- An insertion changes nothing that is committed. -/
theorem committed_of_insert {c next : Connection} {relation : Relation} {rows : List (List Datum)}
    (done : c.execute (.insert relation rows) = .ok next) : next.committed = c.committed := by
  rw [execute_insert] at done
  cases inserted : rows.foldlM (insertCells relation) c.current with
  | error refusal =>
    rw [inserted] at done
    cases done
  | ok d =>
    rw [inserted] at done
    cases done
    rfl

/-- Refused insertions leave what was committed before the first of them. -/
theorem run_inserts_refused {relations : List Relation} {rows : Relation → List (List Datum)}
    {c : Connection} {refusal : Refusal} {left : Database}
    (refused : c.run (relations.map fun relation => .insert relation (rows relation)) =
      (.error refusal, left)) : left = c.committed := by
  induction relations generalizing c with
  | nil => cases refused
  | cons relation relations ih =>
    rw [List.map_cons, Connection.run] at refused
    split at refused
    next next done => rw [ih refused, committed_of_insert done]
    next => cases refused; rfl

/-- Wherever the script stops, it leaves five relations without rows. -/
theorem run_replacing_refused {d left : Database} {rows : Relation → List (List Datum)}
    {refusal : Refusal}
    (refused : Connection.run ⟨d, none⟩ (replacing rows) = (.error refusal, left)) :
    left = Database.fresh := by
  rw [run_replacing] at refused
  exact run_inserts_refused refused

/-! ## The rows of a registry -/

theorem cellText?_textCell (value : Option String) : cellText? (textCell value) = value := by
  cases value <;> rfl

theorem cellInt?_intCell (value : Option Int) : cellInt? (intCell value) = value := by
  cases value <;> rfl

theorem fitsCell_textCell (value : Option String) : fitsCell (textCell value) = true := by
  cases value <;> rfl

theorem fitsCell_intCell (value : Option Int) : fitsCell (intCell value) = fitsColumn value := by
  cases value <;> rfl

theorem append_append (d : Database) (first second : List (List Datum)) (relation : Relation) :
    (d.append first relation).append second relation = d.append (first ++ second) relation := by
  cases relation <;>
    simp [Database.append, Database.extend, Option.map_map, Function.comp_def,
      List.filterMap_append]

theorem append_nil (d : Database) (relation : Relation) : d.append [] relation = d := by
  cases relation <;> simp [Database.append, Database.extend]

/-- Rows that a database takes one after the other, as long as their values fit. -/
def Takes (relation : Relation) (d : Database) : List (List Datum) → Prop
  | [] => True
  | row :: rows => d.insertRow relation row = .ok (d.append [row] relation) ∧
    Takes relation (d.append [row] relation) rows

/-- Rows that a database takes are inserted if all their values fit, and refused otherwise. -/
theorem foldlM_insertCells {relation : Relation} {d : Database} {rows : List (List Datum)}
    (takes : Takes relation d rows) :
    rows.foldlM (insertCells relation) d =
      if rows.all (·.all fitsCell) then .ok (d.append rows relation)
      else .error .integerTooLarge := by
  induction rows generalizing d with
  | nil =>
    rw [append_nil]
    rfl
  | cons row rows ih =>
    obtain ⟨taken, later⟩ := takes
    rw [List.foldlM_cons, List.all_cons]
    cases fits : row.all fitsCell with
    | false =>
      have refused : insertCells relation d row = .error .integerTooLarge := by
        rw [insertCells, fits]
        rfl
      rw [refused]
      rfl
    | true =>
      have inserted : insertCells relation d row = .ok (d.append [row] relation) := by
        rw [insertCells, fits, if_pos rfl, taken]
        rfl
      rw [inserted, Bool.true_and]
      change rows.foldlM (insertCells relation) (d.append [row] relation) = _
      rw [ih later, append_append, List.singleton_append]

theorem takes_of_each {relation : Relation} {rows : List (List Datum)}
    (each : ∀ row ∈ rows, ∀ d : Database, d.insertRow relation row = .ok (d.append [row] relation))
    (d : Database) : Takes relation d rows := by
  induction rows generalizing d with
  | nil => trivial
  | cons row rows ih =>
    refine ⟨each row List.mem_cons_self d, ih ?_ _⟩
    intro later member
    exact each later (List.mem_cons_of_mem _ member)

theorem hasModule_append {d : Database} {m : ModuleEntry} {file : String}
    (absent : d.hasModule file = false) (other : m.path ≠ file) :
    Database.hasModule (d.append [(ModuleRow.ofEntry m).columns.map Prod.snd] .modules) file =
      false := by
  cases held : d.modules with
  | none => simp [Database.hasModule, Database.append, Database.extend, held]
  | some rows =>
    have old : rows.any (·.file == some file) = false := by
      simpa [Database.hasModule, held] using absent
    simp [Database.hasModule, Database.append, Database.extend, held, old, ModuleRow.ofEntry,
      ModuleRow.columns, ModuleRow.ofCells?, cellText?_textCell, other]

/-- A database takes modules whose paths differ from each other and from those that it holds. -/
theorem takes_modules {entries : List ModuleEntry} (distinct : (entries.map ModuleEntry.path).Nodup)
    {d : Database} (absent : ∀ m ∈ entries, d.hasModule m.path = false) :
    Takes .modules d ((entries.map ModuleRow.ofEntry).map (·.columns.map Prod.snd)) := by
  induction entries generalizing d with
  | nil => trivial
  | cons m entries ih =>
    rw [List.map_cons, List.nodup_cons] at distinct
    refine ⟨?_, ih distinct.2 ?_⟩
    · have single : ¬(decide (Relation.modules = Relation.modules) &&
          ((((ModuleRow.ofEntry m).columns.map Prod.snd).head?).bind cellText?).any
            d.hasModule) = true := by
        rw [Bool.not_eq_true]
        exact absent m List.mem_cons_self
      exact if_neg single
    · intro later member
      refine hasModule_append (absent later (List.mem_cons_of_mem _ member)) ?_
      intro same
      exact distinct.1 (List.mem_map.2 ⟨later, member, same.symm⟩)

/-- An insertion that is taken goes on in the open transaction, unless a value does not fit. -/
theorem run_insert {c : Connection} {relation : Relation} {rows : List (List Datum)}
    (takes : Takes relation c.current rows) (script : List Statement) :
    c.run (.insert relation rows :: script) =
      if rows.all (·.all fitsCell) then
        Connection.run { c with pending := some (c.current.append rows relation) } script
      else (.error .integerTooLarge, c.committed) := by
  rw [Connection.run, execute_insert, foldlM_insertCells takes]
  cases fits : rows.all (·.all fitsCell) <;> rfl

theorem run_inserts {relations : List Relation} {rows : Relation → List (List Datum)}
    (takes : ∀ relation ∈ relations, ∀ d, Takes relation d (rows relation)) (c : Connection) :
    c.run (relations.map fun relation => .insert relation (rows relation)) =
      if relations.all fun relation => (rows relation).all (·.all fitsCell) then
        (.ok (), relations.foldl (fun d relation => d.append (rows relation) relation) c.current)
      else (.error .integerTooLarge, c.committed) := by
  induction relations generalizing c with
  | nil => rfl
  | cons relation relations ih =>
    have later := ih fun next member => takes next (List.mem_cons_of_mem _ member)
    rw [List.map_cons, run_insert (takes relation List.mem_cons_self _), List.all_cons]
    cases fits : (rows relation).all (·.all fitsCell) with
    | false => rfl
    | true =>
      rw [if_pos rfl, Bool.true_and, later]
      rfl

section Registries

variable (r : Registry)

/-- A database takes the rows of a registry, its modules first. -/
theorem takes_ofRegistry {relation : Relation} (other : relation ≠ .modules) (d : Database) :
    Takes relation d ((Database.ofRegistry r).cellsOf relation) := by
  refine takes_of_each ?_ d
  intro row member d
  cases relation with
  | modules => exact (other rfl).elim
  | imports =>
    obtain ⟨shown, -, rfl⟩ := List.mem_map.1 member
    rfl
  | functions =>
    obtain ⟨shown, -, rfl⟩ := List.mem_map.1 member
    rfl
  | parameters =>
    obtain ⟨shown, -, rfl⟩ := List.mem_map.1 member
    rfl
  | calls =>
    obtain ⟨shown, -, rfl⟩ := List.mem_map.1 member
    rfl

/-- The values of all rows fit exactly if the integers of modules and functions do. -/
theorem all_fitsCell : (Relation.all.all fun relation =>
    ((Database.ofRegistry r).cellsOf relation).all (·.all fitsCell)) =
      (Database.ofRegistry r).fits := by
  have plain : ∀ value : String, fitsCell (.text value) = true := fun _ => rfl
  have anything : ∀ {α : Type} (rows : List α), rows.all (fun _ => true) = true :=
    fun rows => List.all_eq_true.2 fun _ _ => rfl
  simp only [Relation.all, List.all_cons, List.all_nil, Bool.and_true, Database.cellsOf,
    Database.ofRegistry, Option.getD_some, List.all_map, Function.comp_def, ModuleRow.columns,
    ImportRow.columns, FunctionRow.columns, ParameterRow.columns, CallRow.columns, List.map_cons,
    List.map_nil, fitsCell_textCell, fitsCell_intCell, plain, Bool.true_and, anything,
    Database.fits, ModuleRow.fits, FunctionRow.fits]

theorem filterMap_map_of_back {α β : Type} {f : α → β} {g : β → Option α}
    (back : ∀ a, g (f a) = some a) (xs : List α) : (xs.map f).filterMap g = xs := by
  rw [List.filterMap_map, show g ∘ f = some from funext back, List.filterMap_some]

/-- Filling the five relations gives the database of the registry. -/
theorem append_cellsOf : Relation.all.foldl
    (fun d relation => d.append ((Database.ofRegistry r).cellsOf relation) relation)
      Database.fresh = Database.ofRegistry r := by
  have modules : ∀ row : ModuleRow, ModuleRow.ofCells? (row.columns.map Prod.snd) = some row := by
    intro row
    simp only [ModuleRow.columns, List.map_cons, List.map_nil, ModuleRow.ofCells?,
      cellText?_textCell, cellInt?_intCell]
  have imports : ∀ row : ImportRow, ImportRow.ofCells? (row.columns.map Prod.snd) = some row := by
    intro row
    simp only [ImportRow.columns, List.map_cons, List.map_nil, ImportRow.ofCells?,
      cellText?_textCell]
  have functions : ∀ row : FunctionRow,
      FunctionRow.ofCells? (row.columns.map Prod.snd) = some row := by
    intro row
    simp only [FunctionRow.columns, List.map_cons, List.map_nil, FunctionRow.ofCells?,
      cellInt?_intCell]
  have parameters : ∀ row : ParameterRow,
      ParameterRow.ofCells? (row.columns.map Prod.snd) = some row := by
    intro row
    simp only [ParameterRow.columns, List.map_cons, List.map_nil, ParameterRow.ofCells?,
      cellText?_textCell]
  have calls : ∀ row : CallRow, CallRow.ofCells? (row.columns.map Prod.snd) = some row := by
    intro row
    simp only [CallRow.columns, List.map_cons, List.map_nil, CallRow.ofCells?, cellText?_textCell]
  simp only [Relation.all, List.foldl_cons, List.foldl_nil, Database.append, Database.extend,
    Database.cellsOf, Database.ofRegistry, Database.fresh, Option.map_some, Option.getD_some,
    List.nil_append, filterMap_map_of_back modules, filterMap_map_of_back imports,
    filterMap_map_of_back functions, filterMap_map_of_back parameters, filterMap_map_of_back calls]

variable {r}

/-- The script of a registry leaves its database if all integers fit, and otherwise five relations
without rows. -/
theorem run_ofRegistry (reachable : r.Reachable) (d : Database) :
    Connection.run ⟨d, none⟩ (replacing (Database.ofRegistry r).cellsOf) =
      if (Database.ofRegistry r).fits then (.ok (), Database.ofRegistry r)
      else (.error .integerTooLarge, Database.fresh) := by
  have distinct : (r.modules.values.map ModuleEntry.path).Nodup := by
    have filed := reachable.filed
    have paths : r.modules.values.map ModuleEntry.path = r.modules.keys := by
      unfold Table.values Table.keys
      rw [List.map_map]
      exact List.map_congr_left fun entry member => (filed.held entry member).symm
    rw [paths]
    exact filed.nodup
  have modules : Takes .modules Database.fresh ((Database.ofRegistry r).cellsOf .modules) :=
    takes_modules distinct fun _ _ => rfl
  have others : ∀ relation ∈ [Relation.imports, .functions, .parameters, .calls], ∀ d,
      Takes relation d ((Database.ofRegistry r).cellsOf relation) := by
    intro relation listed d
    refine takes_ofRegistry r ?_ d
    rintro rfl
    exact absurd listed (by decide)
  have fit := all_fitsCell r
  rw [Relation.all, List.all_cons] at fit
  rw [run_replacing, Relation.all, List.map_cons, run_insert modules, ← fit]
  cases fits : ((Database.ofRegistry r).cellsOf .modules).all (·.all fitsCell) with
  | false => rfl
  | true =>
    rw [if_pos rfl, Bool.true_and, run_inserts others]
    exact if_congr Iff.rfl (congrArg (Prod.mk _) (append_cellsOf r)) rfl

end Registries

/-! ## Saving -/

/-- **Rows are written by the script of the registry.** What is kept is what running it statement
by statement leaves, whatever the database held before. -/
theorem value_writeRows {r : Registry} (reachable : r.Reachable) (d : Database)
    (keep : Database → FileTree → FileTree) (t : FileTree) :
    (writeRows keep r).value t =
      match Connection.run ⟨d, none⟩ (replacing (Database.ofRegistry r).cellsOf) with
      | (.ok (), left) => (.ok (), keep left t)
      | (.error _, left) => (.error .integerTooLarge, keep left t) := by
  rw [run_ofRegistry reachable]
  unfold writeRows
  dsimp only
  cases (Database.ofRegistry r).fits <;> rfl

/-- An action of two steps fails in the first or in the second. -/
theorem value_bind_eq_error {ε α β : Type} {a : FileAction ε α} {f : α → FileAction ε β}
    {t t' : FileTree} {e : ε} (h : (a >>= f).value t = (.error e, t')) :
    a.value t = (.error e, t') ∨
      ∃ x s, a.value t = (.ok x, s) ∧ (f x).value s = (.error e, t') := by
  rw [FileAction.value_bind] at h
  split at h
  next x s first => exact .inr ⟨x, s, first, h⟩
  next e s first =>
    cases h
    exact .inl first

/-- No integer is looked at before the rows are written. -/
theorem openTarget_ne_tooLarge {p : Path} {target : Target} {t t' : FileTree} :
    (openTarget p target).value t ≠ (.error .integerTooLarge, t') := by
  intro failed
  unfold openTarget at failed
  rcases value_bind_eq_error failed with got | ⟨_, _, got, failed⟩
  · cases got
  · cases got
    dsimp only at failed
    split at failed
    next => cases failed
    next =>
      split at failed
      next => cases failed
      next => cases failed
      next => cases failed
      next =>
        split at failed
        next => cases failed
        next => cases failed

/-- A refused row leaves a database of five relations without rows. -/
theorem database_of_refused_writeTarget {p : Path} {target : Target} {r : Registry}
    (reachable : r.Reachable) {t t' : FileTree}
    (refused : (writeTarget p target r).value t = (.error .integerTooLarge, t')) :
    (Database.ofRegistry r).fits = false ∧ database t' target.path = .ok Database.fresh := by
  unfold writeTarget at refused
  rcases value_bind_eq_error refused with failed | ⟨foreign, s, opened, refused⟩
  · exact (openTarget_ne_tooLarge failed).elim
  obtain ⟨near, e, found, other⟩ := find?_of_openTarget opened
  split at refused
  next => cases refused
  next =>
    split at refused
    next => cases refused
    next =>
      split at refused
      next => cases refused
      next =>
        rw [value_writeRows reachable Database.fresh, run_ofRegistry reachable] at refused
        cases fits : (Database.ofRegistry r).fits with
        | true =>
          rw [fits] at refused
          cases refused
        | false =>
          rw [fits] at refused
          cases refused
          exact ⟨rfl, database_putFile near found other⟩

theorem database_of_refused_save {p : Path} {target : Target} {r : Registry}
    (named : Target.ofName p.text = .ok target) (onFile : target.inMemory = false)
    (reachable : r.Reachable) {t t' : FileTree}
    (refused : (save p r).value t = (.error .integerTooLarge, t')) :
    (Database.ofRegistry r).fits = false ∧ database t' target.path = .ok Database.fresh := by
  unfold save at refused
  rcases value_bind_eq_error refused with failed | ⟨_, _, -, refused⟩
  · have adapted : FileAction.value
        (ExceptT.adapt Failure.file (FileTree.ensureFolder p.parent) : FileAction Failure Unit) t =
          (((FileTree.ensureFolder p.parent).value t).1.mapError Failure.file,
            ((FileTree.ensureFolder p.parent).value t).2) := rfl
    rw [adapted] at failed
    cases outcome : ((FileTree.ensureFolder p.parent).value t).1 with
    | ok done =>
      rw [outcome] at failed
      cases failed
    | error cause =>
      rw [outcome] at failed
      cases failed
  · dsimp only at refused
    split at refused
    next => cases refused
    next =>
      rw [named] at refused
      dsimp only at refused
      rw [onFile, if_neg Bool.false_ne_true] at refused
      rcases value_bind_eq_error refused with failed | ⟨_, _, -, noted⟩
      · exact database_of_refused_writeTarget reachable failed
      · cases noted

/-- The database of a registry is without rows if nothing is registered. -/
theorem ofRegistry_eq_fresh_iff (r : Registry) : Database.ofRegistry r = Database.fresh ↔
    r.modules.values = [] ∧ r.allFunctions = [] ∧ r.calls = [] := by
  constructor
  · intro same
    simp only [Database.ofRegistry, Database.fresh, Database.mk.injEq, Option.some.injEq,
      List.map_eq_nil_iff] at same
    exact ⟨same.1, same.2.2.1, same.2.2.2.2⟩
  · rintro ⟨modules, functions, calls⟩
    unfold Database.ofRegistry
    rw [modules, functions, calls]
    rfl

/-- **A refused save empties the store.** Where a registry was saved and a row of the next one is
refused, the script has dropped the relations for good before its first insertion: it leaves five
relations without rows, and so does any other script of this form, whichever of its rows is refused
and why. The rows are what they were only if there were none. -/
theorem refused_save_empties {p : Path} {target : Target} {earlier r : Registry}
    {t t₁ t₂ : FileTree} (named : Target.ofName p.text = .ok target)
    (onFile : target.inMemory = false) (reachable : r.Reachable)
    (saved : (save p earlier).value t = (.ok (), t₁))
    (refused : (save p r).value t₁ = (.error .integerTooLarge, t₂)) :
    database t₁ target.path = .ok (Database.ofRegistry earlier) ∧
      Connection.run ⟨Database.ofRegistry earlier, none⟩
          (replacing (Database.ofRegistry r).cellsOf) =
        (.error .integerTooLarge, Database.fresh) ∧
      database t₂ target.path = .ok Database.fresh ∧
      (∀ rows refusal left, Connection.run ⟨Database.ofRegistry earlier, none⟩ (replacing rows) =
        (.error refusal, left) → left = Database.fresh) ∧
      (database t₂ target.path = database t₁ target.path ↔
        earlier.modules.values = [] ∧ earlier.allFunctions = [] ∧ earlier.calls = []) := by
  have before := database_of_save named onFile saved
  obtain ⟨unfit, after⟩ := database_of_refused_save named onFile reachable refused
  refine ⟨before, ?_, after, fun _ _ _ stopped => run_replacing_refused stopped, ?_⟩
  · rw [run_ofRegistry reachable, unfit]
    rfl
  · rw [before, after, ← ofRegistry_eq_fresh_iff, Except.ok.injEq]
    exact eq_comm

/-- A registry with one module. -/
def smallRegistry : Registry :=
  (Registry.addModule {} { path := "/a.xqy", qualifier := "a", uri := "urn:a" }).value

/-- A registry with one module, whose number of lines is the first that does not fit 64 bits. -/
def hugeRegistry : Registry :=
  (Registry.addModule {}
    { path := "/b.xqy", qualifier := "b", uri := "urn:b", lineCount := 9223372036854775808 }).value

/-- The files after the small registry was saved. -/
def smallFiles : FileTree :=
  ((save (.ofString "a.db") smallRegistry).value (.atFolder ["work"])).2

/-- The files after saving the huge registry there failed. -/
def emptiedFiles : FileTree :=
  ((save (.ofString "a.db") hugeRegistry).value smallFiles).2

/-- The module that was stored is gone after the huge registry was refused. -/
theorem hugeRegistry_empties :
    (save (.ofString "a.db") smallRegistry).value (.atFolder ["work"]) = (.ok (), smallFiles) ∧
      (save (.ofString "a.db") hugeRegistry).value smallFiles =
        (.error .integerTooLarge, emptiedFiles) ∧
      database emptiedFiles (.ofString "a.db") = .ok Database.fresh ∧
      database emptiedFiles (.ofString "a.db") ≠ database smallFiles (.ofString "a.db") := by
  have named : Target.ofName (Path.ofString "a.db").text = .ok { path := .ofString "a.db" } := rfl
  have saved : (save (.ofString "a.db") smallRegistry).value (.atFolder ["work"]) =
      (.ok (), smallFiles) := rfl
  have refused : (save (.ofString "a.db") hugeRegistry).value smallFiles =
      (.error .integerTooLarge, emptiedFiles) := rfl
  obtain ⟨-, -, emptied, -, same⟩ :=
    refused_save_empties named rfl (.addModule _ (.fresh {})) saved refused
  refine ⟨saved, refused, emptied, ?_⟩
  intro kept
  exact absurd (same.1 kept).1 (by decide)

/-- A refused save does not leave the listing of modules as it was. -/
theorem smallRegistry_lost :
    ¬∀ (p : Path) (earlier r : Registry) (t t₁ t₂ : FileTree) (failure : Failure),
      (save p earlier).value t = (.ok (), t₁) → (save p r).value t₁ = (.error failure, t₂) →
        listModules t₂ p "" = listModules t₁ p "" := by
  intro intact
  have same := intact (.ofString "a.db") smallRegistry hugeRegistry (.atFolder ["work"]) smallFiles
    emptiedFiles .integerTooLarge rfl rfl
  have before : listModules smallFiles (.ofString "a.db") "" = .ok ["/a.xqy"] := rfl
  have after : listModules emptiedFiles (.ofString "a.db") "" = .ok [] := rfl
  rw [before, after] at same
  cases same

end CallAtlas.Store
