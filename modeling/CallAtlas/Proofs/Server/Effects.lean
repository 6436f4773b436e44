import CallAtlas.Proofs.Analysis.Accounting
import CallAtlas.Server.Basic

/-!
# What requests do

A server and the files around it are a `World`, and a request takes one world to the next. This
module says what each operation leaves behind. An analysis that succeeds saves a registry, counts
it and forgets what was loaded; one that fails leaves the server as it was. All other operations
leave the files alone, and of the server they touch the chosen folder and the loaded registry only
(`perform_rests`).

Queries see the files only through the store, so they have the same answers wherever the path of the
store leads to the same entry (`Store.SameStore`).
-/

namespace CallAtlas

/-! ## Stores that look the same -/

namespace Store

/-- Two trees of files that show the same entry at the path of a store. -/
structure SameStore (p : Path) (t t' : FileTree) : Prop where
  workFolder : t'.workFolder = t.workFolder
  probe : t'.probe p = t.probe p

section Same

variable {p : Path} {t t' u : FileTree}

theorem SameStore.refl (p : Path) (t : FileTree) : SameStore p t t :=
  ⟨rfl, rfl⟩

theorem SameStore.symm (same : SameStore p t t') : SameStore p t' t :=
  ⟨same.workFolder.symm, same.probe.symm⟩

theorem SameStore.trans (same : SameStore p t t') (next : SameStore p t' u) : SameStore p t u :=
  ⟨next.workFolder.trans same.workFolder, next.probe.trans same.probe⟩

variable (same : SameStore p t t')
include same

theorem SameStore.database : database t' p = database t p := by
  unfold Store.database isFar
  rw [same.probe, same.workFolder]

theorem SameStore.select {α : Type} (relation : Relation) (rows : Database → Option (List α)) :
    select t' p relation rows = select t p relation rows := by
  unfold Store.select
  rw [same.database]

theorem SameStore.listModules (fragment : String) :
    listModules t' p fragment = listModules t p fragment := by
  unfold Store.listModules
  rw [same.select]

theorem SameStore.listFunctions (modules : List String) :
    listFunctions t' p modules = listFunctions t p modules := by
  unfold Store.listFunctions
  rw [same.select]

theorem SameStore.load (scheme : VendorScheme) : load t' p scheme = load t p scheme := by
  have rows : ∀ {α : Type} (relation : Relation) (rows : Database → Option (List α)),
      selectRows t' p relation rows = selectRows t p relation rows := by
    intro α relation rows
    unfold selectRows
    rw [same.select]
  unfold Store.load
  simp only [rows]

end Same

end Store

/-! ## Outcomes of queries -/

namespace Query

variable {α β : Type}

/-- The outcome of a query and the service after it. -/
def value (q : Query α) (s : Service) : Except Failure α × Service :=
  (StateT.run (ExceptT.run q) s).value

theorem value_bind (q : Query α) (f : α → Query β) (s : Service) :
    (q >>= f).value s = match q.value s with
      | (.ok a, s') => (f a).value s'
      | (.error e, s') => (.error e, s') := by
  change (StateT.run (ExceptT.run q) s >>= fun found =>
    StateT.run (ExceptT.bindCont f found.1) found.2).value = _
  rw [Report.value_bind]
  unfold value
  rcases (StateT.run (ExceptT.run q) s).value with ⟨outcome, s'⟩
  cases outcome with
  | ok a => rfl
  | error e => rfl

theorem value_get (s : Service) : (get : Query Service).value s = (.ok s, s) := rfl

/-- A computation that does not touch the service. -/
theorem value_query (c : Checked Failure α) (s : Service) :
    (Service.query c).value s = (c.value, s) := rfl

end Query

namespace Service

/-- What loading the store of a service gives. -/
def stored (s : Service) (t : FileTree) : Except Failure Registry :=
  (Store.load t s.storePath s.settings.scheme).value

/-- The registry that a service answers from: what it has loaded, or else what it loads. -/
def known (s : Service) (t : FileTree) : Except Failure Registry :=
  match s.cache with
  | some r => .ok r
  | none => s.stored t

/-- A service that has loaded its store, if it can be loaded. -/
def opened (s : Service) (t : FileTree) : Service :=
  { s with cache := s.cache.or (s.stored t).toOption }

theorem value_registry (t : FileTree) (s : Service) :
    (registry t).value s = (s.known t, s.opened t) := by
  obtain ⟨settings, cache⟩ := s
  unfold registry known opened stored
  rw [Query.value_bind, Query.value_get]
  cases cache with
  | some r => rfl
  | none =>
    dsimp only
    rw [Query.value_bind, Query.value_query]
    cases (Store.load t (storePath ⟨settings, none⟩) settings.scheme).value with
    | ok r => rfl
    | error e => rfl

theorem value_callTree (t : FileTree) (path function : String) (bound : Option Int)
    (s : Service) :
    (callTree t path function bound).value s =
      (s.known t >>= fun r =>
        (CallTree.ofFunction r path function (some (bound.getD s.settings.treeBound))).value,
        s.opened t) := by
  unfold callTree
  rw [Query.value_bind, value_registry]
  cases s.known t with
  | error e => rfl
  | ok r =>
    dsimp only
    rw [Query.value_bind, Query.value_get]
    exact Query.value_query _ _

theorem value_moduleGraph (t : FileTree) (connectedOnly : Bool) (s : Service) :
    (moduleGraph t connectedOnly).value s =
      (s.known t >>= fun r => .ok (ModuleGraph.ofRegistry r connectedOnly).value,
        s.opened t) := by
  unfold moduleGraph
  rw [Query.value_bind, value_registry]
  cases s.known t with
  | error e => rfl
  | ok r =>
    dsimp only
    rw [Query.value_query, Checked.value_lift]
    rfl

theorem value_modules (t : FileTree) (fragment : String) (s : Service) :
    (modules t fragment).value s = (Store.listModules t s.storePath fragment, s) := by
  unfold modules
  rw [Query.value_bind, Query.value_get]
  dsimp only
  cases Store.listModules t s.storePath fragment with
  | ok paths => rfl
  | error e => rfl

theorem value_functions (t : FileTree) (modules : List String) (s : Service) :
    (functions t modules).value s = (Store.listFunctions t s.storePath modules, s) := by
  unfold functions
  rw [Query.value_bind, Query.value_get]
  dsimp only
  cases Store.listFunctions t s.storePath modules with
  | ok found => rfl
  | error e => rfl

end Service

namespace Server

/-! ## Worlds -/

/-- A server and the files around it. -/
structure World where
  server : Server
  files : FileTree

namespace World

/-- The service of the server. -/
def service (w : World) : Service :=
  w.server.service

/-- The path of the store. -/
def storePath (w : World) : Path :=
  w.service.storePath

/-- What an analysis of a folder is about. -/
def repository (w : World) (folder : Path) : Repository :=
  { Repository.ofFolder w.files.workFolder folder "" with storePath := some w.storePath }

end World

/-- The result of an action and the world after it. -/
def Action.value {α : Type} (a : Action α) (w : World) : α × World :=
  let ((result, server), files) := (StateT.run (StateT.run a w.server) w.files).value
  (result, ⟨server, files⟩)

namespace Action

variable {α β : Type}

theorem value_bind (a : Action α) (f : α → Action β) (w : World) :
    Action.value (a >>= f) w = Action.value (f (Action.value a w).1) (Action.value a w).2 := rfl

theorem value_get (w : World) : Action.value get w = (w.server, w) := rfl

theorem value_files (w : World) : Action.value Server.files w = (w.files, w) := rfl

theorem value_ask (query : Query α) (w : World) :
    Action.value (ask query) w = ((query.value w.service).1,
      ⟨{ w.server with service := (query.value w.service).2 }, w.files⟩) := rfl

/-- An action on files, in the world of a server. -/
theorem value_lift {ε : Type} (a : FileAction ε α) (w : World) :
    Action.value (StateT.lift a.run) w =
      ((a.value w.files).1, { w with files := (a.value w.files).2 }) := rfl

end Action

/-- The response to a request and the world after it. -/
@[irreducible]
def World.answer (w : World) (request : Request) : Response × World :=
  Action.value (Server.answer request) w

theorem World.answer_of_operation {w : World} {request : Request} {operation : Operation}
    (asked : request.operation = .ok operation) :
    w.answer request = Action.value (perform operation) w := by
  unfold World.answer Server.answer
  rw [asked]

theorem World.answer_of_refusal {w : World} {request : Request} {refusal : Refusal}
    (refused : request.operation = .error refusal) :
    w.answer request = (.ofRefusal refusal, w) := by
  unfold World.answer Server.answer
  rw [refused]
  rfl

/-! ## Responses to queries -/

/-- The response for an outcome. -/
def responseTo {α : Type} (present : α → Response) : Except Failure α → Response
  | .ok a => present a
  | .error (.analysis e) => (Response.ofError? e).getD .collapse
  | .error _ => .collapse

theorem value_respond {α : Type} (query : FileTree → Query α) (present : α → Response)
    (w : World) :
    Action.value (respond query present) w =
      (responseTo present ((query w.files).value w.service).1,
        ⟨{ w.server with service := ((query w.files).value w.service).2 }, w.files⟩) := by
  unfold respond
  rw [Action.value_bind, Action.value_files, Action.value_bind, Action.value_ask]
  dsimp only
  rcases (query w.files).value w.service with ⟨outcome, service⟩
  cases outcome with
  | ok a => rfl
  | error e =>
    cases e with
    | analysis e => rfl
    | _ => rfl

theorem value_choose (folder : String) (w : World) :
    Action.value (choose folder) w =
      match w.files.probeFolder (.ofString folder) with
      | .error _ => (.collapse, w)
      | .ok true =>
        (.success (some ("Base folder set to " ++ (Path.ofString folder).text))
            (.record [("base_folder", .text (Path.ofString folder).text)]),
          { w with server := { w.server with folder := some (.ofString folder) } })
      | .ok false => (.explained 400 ("Folder not found: " ++ folder), w) := by
  unfold choose
  rw [Action.value_bind, Action.value_files]
  dsimp only
  cases w.files.probeFolder (.ofString folder) with
  | error e => rfl
  | ok found =>
    cases found with
    | true => rfl
    | false => rfl

theorem value_status (w : World) :
    Action.value status w =
      (match w.files.probe w.storePath with
        | .error _ => .collapse
        | .ok found => .success none (.record
            [("base_folder", .ofOption (fun p => .text p.text) w.server.folder),
              ("db_path", .text w.storePath.text),
              ("db_exists", .bool found.isSome),
              ("running", .bool false),
              ("last_run", .ofOption Statistics.toDatum w.server.lastRun)]), w) := by
  unfold status World.storePath World.service
  rw [Action.value_bind, Action.value_get, Action.value_bind, Action.value_files]
  dsimp only
  cases w.files.probe w.server.service.storePath with
  | error e => rfl
  | ok found => rfl

/-! ## Analyses -/

/-- The response to a failed analysis. -/
def failed : Failure → Response
  | .analysis e@(.storeUnavailable ..) => .detail 503 e.toDatum
  | e => .explained 500 e.message

theorem code_failed (e : Failure) : (failed e).code = 503 ∨ (failed e).code = 500 := by
  unfold failed
  split
  next => exact Or.inl rfl
  next => exact Or.inr rfl

theorem value_analyseFolder (folder : Path) (w : World) :
    Action.value (analyseFolder folder) w =
      match (Analysis.run w.service.settings (w.repository folder)).value w.files with
      | (.ok (statistics, _), files) =>
        (.counted statistics.modules "modules analysed" statistics.toDatum,
          ⟨{ w.server with
              lastRun := some statistics, service := { w.service with cache := none } }, files⟩)
      | (.error e, files) => (failed e, { w with files := files }) := by
  unfold analyseFolder
  rw [Action.value_bind, Action.value_get, Action.value_bind, Action.value_files,
    Action.value_bind, Action.value_lift]
  have same : { Repository.ofFolder w.files.workFolder folder "" with
      storePath := some (.ofString w.server.service.settings.storePath) } =
        w.repository folder := rfl
  dsimp only
  rw [same, World.service]
  rcases (Analysis.run w.server.service.settings (w.repository folder)).value w.files with
    ⟨outcome, files⟩
  cases outcome with
  | ok result => rfl
  | error e =>
    cases e with
    | analysis e =>
      cases e with
      | storeUnavailable _ _ => rfl
      | _ => rfl
    | _ => rfl

/-- What can come of an analysis. -/
inductive Analysed (w : World) : Response × World → Prop
  /-- Nothing was to be analysed, or something kept the analysis from saving. -/
  | refused {response : Response} : response.code ∈ [400, 500, 503] → Analysed w (response, w)
  /-- The registry could not be saved. -/
  | unsaved {response : Response} {folder : Path} {r : Registry} {e : Failure} {files : FileTree} :
    response.code ∈ [400, 500, 503] → w.server.folder = some folder →
    Analysis.merged w.files w.service.settings (w.repository folder) = .ok r →
    (Store.save w.storePath r).value w.files = (.error e, files) →
    Analysed w (response, { w with files := files })
  /-- The registry was saved and counted. -/
  | saved {statistics : Statistics} {r : Registry} {files : FileTree} :
    statistics.modules = r.size → (Store.save w.storePath r).value w.files = (.ok (), files) →
    Analysed w (.counted statistics.modules "modules analysed" statistics.toDatum,
      ⟨{ w.server with
          lastRun := some statistics, service := { w.service with cache := none } }, files⟩)

theorem analysed_analyseFolder {w : World} {folder : Path}
    (chosen : w.server.folder = some folder) :
    Analysed w (Action.value (analyseFolder folder) w) := by
  rw [value_analyseFolder]
  split
  next statistics r files ran =>
    obtain ⟨-, -, -, -, -, -, rfl, saved⟩ := Analysis.run_eq_ok ran
    exact .saved rfl saved
  next e files ran =>
    have code : (failed e).code ∈ [400, 500, 503] := by
      rcases code_failed e with unavailable | failing
      · rw [unavailable]
        decide
      · rw [failing]
        decide
    rcases Analysis.run_eq_error ran with rfl | ⟨r, merged, unsaved⟩
    · exact .refused code
    · exact .unsaved code chosen merged unsaved

theorem value_analyse (w : World) :
    Action.value analyse w =
      match w.server.folder with
      | none => (.explained 400 "Base folder not set or missing: None", w)
      | some folder =>
        match w.files.probeFolder folder with
        | .error _ => (.collapse, w)
        | .ok true => Action.value (analyseFolder folder) w
        | .ok false => (.explained 400 ("Base folder not set or missing: " ++ folder.text), w) := by
  unfold analyse
  rw [Action.value_bind, Action.value_get]
  dsimp only
  cases w.server.folder with
  | none => rfl
  | some folder =>
    dsimp only
    rw [Action.value_bind, Action.value_files]
    dsimp only
    cases w.files.probeFolder folder with
    | error e => rfl
    | ok found =>
      cases found with
      | true => rfl
      | false => rfl

theorem analysed (w : World) : Analysed w (Action.value analyse w) := by
  rw [value_analyse]
  split
  next => exact .refused List.mem_cons_self
  next folder chosen =>
    split
    next => exact .refused (List.mem_cons_of_mem _ List.mem_cons_self)
    next => exact analysed_analyseFolder chosen
    next => exact .refused List.mem_cons_self

/-! ## All other operations -/

/-- What was loaded is what loading the store gives, if anything was loaded. -/
def World.Fresh (w : World) : Prop :=
  ∀ r, w.service.cache = some r → w.service.stored w.files = .ok r

/-- One world comes from another by an operation that is no analysis. -/
structure Rests (w w' : World) : Prop where
  files : w'.files = w.files
  settings : w'.service.settings = w.service.settings
  lastRun : w'.server.lastRun = w.server.lastRun
  fresh : w.Fresh → w'.Fresh

theorem Rests.refl (w : World) : Rests w w :=
  ⟨rfl, rfl, rfl, id⟩

/-- Loading the store changes nothing else. -/
theorem rests_opened (w : World) :
    Rests w ⟨{ w.server with service := w.service.opened w.files }, w.files⟩ := by
  refine ⟨rfl, rfl, rfl, ?_⟩
  intro fresh r found
  change w.service.cache.or (w.service.stored w.files).toOption = some r at found
  cases cached : w.service.cache with
  | some r' =>
    rw [cached] at found
    cases found
    exact fresh r cached
  | none =>
    rw [cached, Option.none_or] at found
    cases loaded : w.service.stored w.files with
    | error e =>
      rw [loaded] at found
      cases found
    | ok r' =>
      rw [loaded] at found
      cases found
      exact loaded

/-- The world after an operation that is no analysis. -/
theorem perform_rests {operation : Operation} (other : operation ≠ .analyse) (w : World) :
    Rests w (Action.value (perform operation) w).2 := by
  cases operation with
  | analyse => exact absurd rfl other
  | choose folder =>
    change Rests w (Action.value (choose folder) w).2
    rw [value_choose]
    split
    next => exact .refl w
    next => exact ⟨rfl, rfl, rfl, id⟩
    next => exact .refl w
  | status =>
    change Rests w (Action.value status w).2
    rw [value_status]
    exact .refl w
  | modules fragment =>
    change Rests w (Action.value (respond _ _) w).2
    rw [value_respond, Service.value_modules]
    exact .refl w
  | functions modules =>
    change Rests w (Action.value (respond _ _) w).2
    rw [value_respond, Service.value_functions]
    exact .refl w
  | stack path function form bound =>
    change Rests w (Action.value (stack path function form bound) w).2
    unfold stack
    dsimp only
    split
    next =>
      rw [value_respond, Service.value_callTree]
      exact rests_opened w
    next =>
      rw [value_respond, Service.value_callTree]
      exact rests_opened w
    next => exact .refl w
  | graph connectedOnly =>
    change Rests w (Action.value (respond _ _) w).2
    rw [value_respond, Service.value_moduleGraph]
    exact rests_opened w

/-! ## Requests -/

theorem World.answer_analysed {request : Request} (asked : request.operation = .ok .analyse)
    (w : World) : Analysed w (w.answer request) := by
  rw [World.answer_of_operation asked]
  exact analysed w

theorem World.answer_rests {request : Request} (other : request.operation ≠ .ok .analyse)
    (w : World) : Rests w (w.answer request).2 := by
  cases asked : request.operation with
  | error refusal =>
    rw [World.answer_of_refusal asked]
    exact .refl w
  | ok operation =>
    rw [World.answer_of_operation asked]
    refine perform_rests ?_ w
    rintro rfl
    exact other asked

end Server
end CallAtlas
