import CallAtlas.Proofs.Server.Effects

/-!
# Answers are never stale

A server keeps the registry that it has loaded until an analysis succeeds, while files change around
it. `Reaches` is the closure of a server's first world under requests and changes of files, where
only analyses touch the store and a save that fails leaves it as it was. In every world that is
reached, what was loaded is what loading would give, so every request is answered as if nothing were
loaded; a failed analysis changes no later answer; and after an analysis that succeeded the counts
that are shown agree with the modules that are listed.

The last of these needs a store that is read where it is written. One that is kept in memory is not:
`inMemory_miscounts`.
-/

namespace CallAtlas

/-- A field of a record. -/
def Datum.field? : Datum → String → Option Datum
  | .record fields, key => fields.lookup key
  | _, _ => none

namespace Server

/-- What stands in the data of a response, one field inside another. -/
def Response.at? (r : Response) (keys : List String) : Option Datum :=
  match r.body with
  | .data d => keys.foldlM Datum.field? d
  | _ => none

/-! ## Answers from what was loaded -/

namespace World

/-- The world whose server has loaded nothing. -/
def forgotten (w : World) : World :=
  { w with server := { w.server with service := { w.service with cache := none } } }

theorem Fresh.known_eq {w : World} (fresh : w.Fresh) :
    w.service.known w.files = w.service.stored w.files := by
  unfold Service.known
  cases cached : w.service.cache with
  | some r => exact (fresh r cached).symm
  | none => rfl

theorem answer_analyse_forgotten (w : World) :
    (Action.value analyse w).1 = (Action.value analyse w.forgotten).1 := by
  have folder : w.forgotten.server.folder = w.server.folder := rfl
  have files : w.forgotten.files = w.files := rfl
  rw [value_analyse, value_analyse, folder, files]
  cases w.server.folder with
  | none => rfl
  | some folder =>
    dsimp only
    cases w.files.probeFolder folder with
    | error e => rfl
    | ok found =>
      cases found with
      | false => rfl
      | true =>
        have settings : w.forgotten.service.settings = w.service.settings := rfl
        have repository : w.forgotten.repository folder = w.repository folder := rfl
        dsimp only
        rw [value_analyseFolder, value_analyseFolder, settings, repository, files]
        rcases (Analysis.run w.service.settings (w.repository folder)).value w.files with
          ⟨_ | _, _⟩
        · rfl
        · rfl

/-- Where nothing loaded is stale, an operation is answered as if nothing were loaded. -/
theorem Fresh.perform_forgotten {w : World} (fresh : w.Fresh) (operation : Operation) :
    (Action.value (perform operation) w).1 = (Action.value (perform operation) w.forgotten).1 := by
  have stored : w.forgotten.service.known w.forgotten.files = w.service.stored w.files := rfl
  have settings : w.forgotten.service.settings = w.service.settings := rfl
  cases operation with
  | choose folder =>
    change (Action.value (choose folder) w).1 = (Action.value (choose folder) w.forgotten).1
    rw [value_choose, value_choose, show w.forgotten.files = w.files from rfl]
    split
    next => rfl
    next => rfl
    next => rfl
  | analyse => exact answer_analyse_forgotten w
  | status =>
    change (Action.value status w).1 = (Action.value status w.forgotten).1
    rw [value_status, value_status]
    rfl
  | modules fragment =>
    change (Action.value (respond _ _) w).1 = (Action.value (respond _ _) w.forgotten).1
    rw [value_respond, value_respond, Service.value_modules, Service.value_modules]
    rfl
  | functions modules =>
    change (Action.value (respond _ _) w).1 = (Action.value (respond _ _) w.forgotten).1
    rw [value_respond, value_respond, Service.value_functions, Service.value_functions]
    rfl
  | stack path function form bound =>
    change (Action.value (stack path function form bound) w).1 =
      (Action.value (stack path function form bound) w.forgotten).1
    unfold stack
    dsimp only
    split
    next =>
      rw [value_respond, value_respond, Service.value_callTree, Service.value_callTree,
        fresh.known_eq, stored, settings]
    next =>
      rw [value_respond, value_respond, Service.value_callTree, Service.value_callTree,
        fresh.known_eq, stored, settings]
    next => rfl
  | graph connectedOnly =>
    change (Action.value (respond _ _) w).1 = (Action.value (respond _ _) w.forgotten).1
    rw [value_respond, value_respond, Service.value_moduleGraph, Service.value_moduleGraph,
      fresh.known_eq, stored]

theorem Fresh.answer_forgotten {w : World} (fresh : w.Fresh) (request : Request) :
    (w.answer request).1 = (w.forgotten.answer request).1 := by
  cases asked : request.operation with
  | error refusal => rw [answer_of_refusal asked, answer_of_refusal asked]
  | ok operation =>
    rw [answer_of_operation asked, answer_of_operation asked]
    exact fresh.perform_forgotten operation

end World

/-! ## Queries see the store only -/

/-- Whether two trees with the same store look the same to an operation. The choice of a folder
looks at the folder, and an analysis at more than is compared here. -/
def Operation.LooksSame (t t' : FileTree) : Operation → Prop
  | .analyse => False
  | .choose folder => t'.probeFolder (.ofString folder) = t.probeFolder (.ofString folder)
  | _ => True

/-- Whether two trees with the same store look the same to a request. -/
def Request.LooksSame (request : Request) (t t' : FileTree) : Prop :=
  ∀ operation, request.operation = .ok operation → operation.LooksSame t t'

theorem Operation.LooksSame.ne_analyse {operation : Operation} {t t' : FileTree}
    (looks : operation.LooksSame t t') : operation ≠ .analyse := by
  rintro rfl
  exact looks

/-- The result of an action and the server after it. -/
def Action.outcome {α : Type} (a : Action α) (s : Server) (t : FileTree) : α × Server :=
  ((Action.value a ⟨s, t⟩).1, (Action.value a ⟨s, t⟩).2.server)

theorem outcome_respond {α : Type} {query : FileTree → Query α} {s : Server} {t t' : FileTree}
    (same : (query t').value s.service = (query t).value s.service) (present : α → Response) :
    Action.outcome (respond query present) s t' = Action.outcome (respond query present) s t := by
  unfold Action.outcome
  rw [value_respond, value_respond, World.service, World.service]
  dsimp only
  rw [same]

theorem outcome_choose {folder : String} {t t' : FileTree}
    (looks : t'.probeFolder (.ofString folder) = t.probeFolder (.ofString folder)) (s : Server) :
    Action.outcome (choose folder) s t' = Action.outcome (choose folder) s t := by
  unfold Action.outcome
  rw [value_choose, value_choose]
  dsimp only
  rw [looks]
  split
  next => rfl
  next => rfl
  next => rfl

section Same

variable {s : Server} {t t' : FileTree} (same : Store.SameStore s.service.storePath t t')
include same

theorem stored_sameStore : s.service.stored t' = s.service.stored t := by
  unfold Service.stored
  rw [same.load]

theorem callTree_sameStore (path function : String) (bound : Option Int) :
    (Service.callTree t' path function bound).value s.service =
      (Service.callTree t path function bound).value s.service := by
  rw [Service.value_callTree, Service.value_callTree, Service.known, Service.known,
    Service.opened, Service.opened, stored_sameStore same]

theorem moduleGraph_sameStore (connectedOnly : Bool) :
    (Service.moduleGraph t' connectedOnly).value s.service =
      (Service.moduleGraph t connectedOnly).value s.service := by
  rw [Service.value_moduleGraph, Service.value_moduleGraph, Service.known, Service.known,
    Service.opened, Service.opened, stored_sameStore same]

theorem status_sameStore : Action.outcome status s t' = Action.outcome status s t := by
  unfold Action.outcome
  rw [value_status, value_status, World.storePath, World.storePath, World.service, World.service]
  dsimp only
  rw [same.probe]

/-- An operation that sees the same has the same response, and leaves the same server. -/
theorem perform_sameStore {operation : Operation} (looks : operation.LooksSame t t') :
    Action.outcome (perform operation) s t' = Action.outcome (perform operation) s t := by
  cases operation with
  | analyse => exact looks.elim
  | choose folder => exact outcome_choose looks s
  | status => exact status_sameStore same
  | modules fragment =>
    refine outcome_respond ?_ _
    rw [Service.value_modules, Service.value_modules, same.listModules]
  | functions modules =>
    refine outcome_respond ?_ _
    rw [Service.value_functions, Service.value_functions, same.listFunctions]
  | stack path function form bound =>
    unfold perform stack
    dsimp only
    split
    next => exact outcome_respond (callTree_sameStore same path function bound) _
    next => exact outcome_respond (callTree_sameStore same path function bound) _
    next => rfl
  | graph connectedOnly => exact outcome_respond (moduleGraph_sameStore same connectedOnly) _

theorem answer_sameStore {request : Request} (looks : request.LooksSame t t') :
    Action.outcome (answer request) s t' = Action.outcome (answer request) s t := by
  unfold answer
  cases asked : request.operation with
  | error refusal => rfl
  | ok operation => exact perform_sameStore same (looks operation asked)

end Same

/-- The answers to requests, each asked when the files are as given. -/
def answers (s : Server) : List (FileTree × Request) → List Response
  | [] => []
  | (t, request) :: rest =>
    let answered := Action.outcome (answer request) s t
    answered.1 :: answers answered.2 rest

theorem settings_outcome {request : Request} {t t' : FileTree} (looks : request.LooksSame t t')
    (s : Server) :
    (Action.outcome (answer request) s t).2.service.settings = s.service.settings := by
  unfold answer
  cases asked : request.operation with
  | error refusal => rfl
  | ok operation => exact (perform_rests (looks operation asked).ne_analyse ⟨s, t⟩).settings

/-- Requests have the same answers, one after the other, where the store stays the same. -/
theorem answers_sameStore {p : Path} {asked asked' : List (FileTree × Request)}
    (alike : List.Forall₂ (fun a b => a.2 = b.2 ∧ a.2.LooksSame a.1 b.1 ∧
      Store.SameStore p a.1 b.1)
      asked asked') {s : Server} (stored : s.service.storePath = p) :
    s.answers asked = s.answers asked' := by
  induction alike generalizing s with
  | nil => rfl
  | @cons a b _ _ first _ ih =>
    obtain ⟨t, request⟩ := a
    obtain ⟨t', request'⟩ := b
    obtain ⟨rfl, looks, same⟩ := first
    have settings := settings_outcome looks s
    have outcomes : Action.outcome (answer request) s t' = Action.outcome (answer request) s t := by
      rw [← stored] at same
      exact answer_sameStore same looks
    unfold answers
    dsimp only
    rw [outcomes]
    refine congrArg (List.cons _) (ih ?_)
    unfold Service.storePath at stored ⊢
    rw [settings]
    exact stored

/-! ## Reachable worlds -/

/-- The registry that an analysis would merge now is saved, or not saving it leaves the store as it
is. -/
def World.SavesWhole (w : World) : Prop :=
  ∀ folder r e files, w.server.folder = some folder →
    Analysis.merged w.files w.service.settings (w.repository folder) = .ok r →
    (Store.save w.storePath r).value w.files = (.error e, files) →
    Store.SameStore w.storePath w.files files

/-- The worlds that requests to a server with some settings lead to, with the responses to them.
Between requests files may change, but not the store. -/
inductive Reaches (settings : Settings) : List (Request × Response) → World → Prop
  | start (files : FileTree) : Reaches settings [] ⟨.ofSettings settings, files⟩
  | change {history : List (Request × Response)} {w : World} {files : FileTree} :
    Reaches settings history w → Store.SameStore w.storePath w.files files →
    Reaches settings history { w with files := files }
  | ask {history : List (Request × Response)} {w : World} (request : Request) :
    Reaches settings history w → (request.operation = .ok .analyse → w.SavesWhole) →
    Reaches settings (history ++ [(request, (w.answer request).1)]) (w.answer request).2

/-- Whether the store of a server is the plain file at its path. -/
def HasPlainStore (settings : Settings) : Prop :=
  Store.Target.ofName (Path.ofString settings.storePath).text =
    .ok { path := .ofString settings.storePath }

/-- What holds of a world in every history. -/
structure World.Sound (settings : Settings) (w : World) : Prop where
  configured : w.service.settings = settings
  fresh : w.Fresh
  /-- The store holds the registry that was counted last. -/
  counted : HasPlainStore settings → ∀ statistics, w.server.lastRun = some statistics →
    ∃ r, Store.database w.files w.storePath = .ok (Store.Database.ofRegistry r) ∧
      statistics.modules = r.size

theorem World.storePath_eq {w : World} {settings : Settings}
    (configured : w.service.settings = settings) :
    w.storePath = .ofString settings.storePath := by
  unfold World.storePath Service.storePath
  rw [configured]

theorem World.Sound.change {settings : Settings} {w : World} (sound : w.Sound settings)
    {files : FileTree} (same : Store.SameStore w.storePath w.files files) :
    World.Sound settings { w with files := files } := by
  refine ⟨sound.configured, ?_, ?_⟩
  · intro r cached
    exact (stored_sameStore same).trans (sound.fresh r cached)
  · intro plain statistics ran
    obtain ⟨r, held, count⟩ := sound.counted plain statistics ran
    exact ⟨r, same.database.trans held, count⟩

theorem World.Sound.rests {settings : Settings} {w w' : World} (sound : w.Sound settings)
    (rests : Rests w w') : w'.Sound settings := by
  have path : w'.storePath = w.storePath := World.storePath_eq rests.settings
  refine ⟨rests.settings.trans sound.configured, rests.fresh sound.fresh, ?_⟩
  rw [rests.lastRun, rests.files, path]
  exact sound.counted

theorem World.Sound.analysed {settings : Settings} {w : World} (sound : w.Sound settings)
    (whole : w.SavesWhole) {after : Response × World} (analysed : Analysed w after) :
    after.2.Sound settings := by
  cases analysed with
  | refused _ => exact sound
  | unsaved _ chosen merged failed => exact sound.change (whole _ _ _ _ chosen merged failed)
  | @saved statistics r files count saved =>
    refine ⟨sound.configured, (fun r none => nomatch none), ?_⟩
    rintro plain _ ⟨⟩
    have path := World.storePath_eq sound.configured
    unfold HasPlainStore at plain
    rw [← path] at plain
    have held := Store.database_of_save plain rfl saved
    exact ⟨r, held, count⟩

theorem Reaches.sound {settings : Settings} {history : List (Request × Response)} {w : World}
    (reaches : Reaches settings history w) : w.Sound settings := by
  induction reaches with
  | start files =>
    exact ⟨rfl, (fun r none => nomatch none), fun _ statistics none => nomatch none⟩
  | change _ same ih => exact ih.change same
  | @ask history w request _ whole ih =>
    by_cases asked : request.operation = .ok .analyse
    · exact ih.analysed (whole asked) (w.answer_analysed asked)
    · exact ih.rests (w.answer_rests asked)

/-! ## Counts -/

/-- Some analysis in a history succeeded. -/
def HasAnalysed (history : List (Request × Response)) : Prop :=
  ∃ entry ∈ history, entry.1.operation = .ok .analyse ∧ entry.2.code = 200

theorem Analysed.exists_lastRun {w : World} {after : Response × World} (analysed : Analysed w after)
    (ran : after.1.code = 200 ∨ ∃ statistics, w.server.lastRun = some statistics) :
    ∃ statistics, after.2.server.lastRun = some statistics := by
  have failing : ∀ code ∈ [400, 500, 503], code ≠ 200 := by decide
  cases analysed with
  | refused code => exact ran.resolve_left (failing _ code)
  | unsaved code _ _ _ => exact ran.resolve_left (failing _ code)
  | saved _ _ => exact ⟨_, rfl⟩

theorem Reaches.exists_lastRun {settings : Settings} {history : List (Request × Response)}
    {w : World} (reaches : Reaches settings history w) (hasAnalysed : HasAnalysed history) :
    ∃ statistics, w.server.lastRun = some statistics := by
  induction reaches with
  | start files =>
    obtain ⟨entry, none, -⟩ := hasAnalysed
    cases none
  | change _ _ ih => exact ih hasAnalysed
  | @ask history w request _ _ ih =>
    have earlier : (∃ statistics, w.server.lastRun = some statistics) ∨
        request.operation = .ok .analyse ∧ (w.answer request).1.code = 200 := by
      obtain ⟨entry, member, analyses⟩ := hasAnalysed
      rcases List.mem_append.1 member with before | now
      · exact Or.inl (ih ⟨entry, before, analyses⟩)
      · rw [List.mem_singleton.1 now] at analyses
        exact Or.inr analyses
    by_cases asked : request.operation = .ok .analyse
    · exact (w.answer_analysed asked).exists_lastRun (earlier.symm.imp_left And.right)
    · obtain ⟨statistics, ran⟩ := earlier.resolve_right fun now => asked now.1
      exact ⟨statistics, (w.answer_rests asked).lastRun.trans ran⟩

/-- A failed analysis leaves the server as it was, and the store as well. -/
theorem Analysed.unchanged {w : World} {after : Response × World} (analysed : Analysed w after)
    (whole : w.SavesWhole) (failing : after.1.code ≠ 200) :
    after.2.server = w.server ∧ Store.SameStore w.storePath w.files after.2.files := by
  cases analysed with
  | refused _ => exact ⟨rfl, .refl _ _⟩
  | unsaved _ chosen merged failed => exact ⟨rfl, whole _ _ _ _ chosen merged failed⟩
  | saved _ _ => exact absurd rfl failing

/-- The counts that are shown agree with the modules that are listed. -/
theorem World.Sound.counts {settings : Settings} {w : World} (sound : w.Sound settings)
    (plain : HasPlainStore settings) {statistics : Statistics}
    (ran : w.server.lastRun = some statistics) {status modules : Request}
    (asksStatus : status.operation = .ok .status)
    (asksModules : modules.operation = .ok (.modules "")) :
    ∃ paths : List String,
      (w.answer modules).1 = .counted paths.length "modules" (.list (paths.map .text)) ∧
      (w.answer status).1.at? ["data", "last_run", "modules"] = some (.nat paths.length) := by
  obtain ⟨r, held, count⟩ := sound.counted plain statistics ran
  have length : (r.modules.values.map ModuleEntry.path).length = r.size := by
    rw [List.length_map]
    exact List.length_map ..
  refine ⟨r.modules.values.map ModuleEntry.path, ?_, ?_⟩
  · rw [World.answer_of_operation asksModules]
    change (Action.value (respond _ _) w).1 = _
    rw [value_respond, Service.value_modules]
    change responseTo _ (Store.listModules w.files w.storePath "") = _
    rw [Store.listModules_of_database held]
    rfl
  · have found : ∃ entry, w.files.probe w.storePath = .ok entry := by
      unfold Store.database at held
      split at held
      next => cases held
      next => cases held
      next entry there => exact ⟨some entry, there⟩
    obtain ⟨entry, found⟩ := found
    rw [World.answer_of_operation asksStatus]
    change (Action.value Server.status w).1.at? _ = _
    rw [value_status, found, ran, length, ← count]
    rfl

/-- **Answers are never stale.** In every world that a server reaches, what it has loaded is what
loading its store gives, and each request is answered as if it had loaded nothing. An analysis that
fails leaves the answers to later queries, and to choices of folders among them, as they were. Where
the store is the plain file at its path, and once an analysis has succeeded, the number of modules
in the status is that of the modules that are listed. -/
theorem answers_never_stale {settings : Settings} {history : List (Request × Response)} {w : World}
    (reaches : Reaches settings history w) :
    (w.service.cache = none ∨ ∃ r, w.service.cache = some r ∧
        (Store.load w.files (.ofString settings.storePath) settings.scheme).value = .ok r) ∧
      (∀ request, (w.answer request).1 = (w.forgotten.answer request).1) ∧
      (∀ request, request.operation = .ok .analyse → w.SavesWhole →
        (w.answer request).1.code ≠ 200 →
          (w.answer request).2.server = w.server ∧
          ∀ before after, List.Forall₂ (fun (a b : FileTree × Request) =>
              a.2 = b.2 ∧ a.2.LooksSame a.1 b.1 ∧ Store.SameStore w.storePath w.files a.1 ∧
                Store.SameStore w.storePath (w.answer request).2.files b.1) before after →
            (w.answer request).2.server.answers after = w.server.answers before) ∧
      (HasPlainStore settings → HasAnalysed history → ∀ status modules : Request,
        status.operation = .ok .status → modules.operation = .ok (.modules "") →
          ∃ paths : List String,
            (w.answer modules).1 = .counted paths.length "modules" (.list (paths.map .text)) ∧
            (w.answer status).1.at? ["data", "last_run", "modules"] =
              some (.nat paths.length)) := by
  have sound := reaches.sound
  refine ⟨?_, sound.fresh.answer_forgotten, ?_, ?_⟩
  · cases cached : w.service.cache with
    | none => exact Or.inl rfl
    | some r =>
      have loaded := sound.fresh r cached
      unfold Service.stored Service.storePath at loaded
      rw [sound.configured] at loaded
      exact Or.inr ⟨r, rfl, loaded⟩
  · intro request asked whole failing
    obtain ⟨server, kept⟩ := (w.answer_analysed asked).unchanged whole failing
    refine ⟨server, ?_⟩
    intro before after alike
    rw [server]
    refine (answers_sameStore (alike.imp ?_) rfl).symm
    rintro a b ⟨same, looks, seen, seen'⟩
    exact ⟨same, looks, seen.symm.trans (kept.trans seen')⟩
  · intro plain hasAnalysed status modules asksStatus asksModules
    obtain ⟨statistics, ran⟩ := reaches.exists_lastRun hasAnalysed
    exact sound.counts plain ran asksStatus asksModules

/-! ## A small world -/

/-- Whether the registry that an analysis would merge now is saved, if one is merged. -/
def World.saves (w : World) : Bool :=
  w.server.folder.all fun folder =>
    (Analysis.merged w.files w.service.settings (w.repository folder)).toOption.all fun r =>
      ((Store.save w.storePath r).value w.files).1.isOk

theorem World.savesWhole_of_saves {w : World} (saves : w.saves = true) : w.SavesWhole := by
  intro folder r e files chosen merged failed
  unfold World.saves at saves
  rw [chosen, Option.all_some, merged, Except.toOption, Option.all_some, failed] at saves
  cases saves

/-- A request to analyse. -/
def analyseRequest : Request := ⟨"PUT", "/xqanalyse/init", []⟩

/-- A request for the status. -/
def statusRequest : Request := ⟨"GET", "/xqanalyse/status", []⟩

/-- A request for the paths of all modules. -/
def modulesRequest : Request := ⟨"GET", "/xqanalyse/modules", []⟩

/-- Settings for a folder, with a store of some name. -/
def smallSettings (storePath : String) : Settings :=
  { storePath := storePath, basePath := "src" }

/-- A server for a folder with one module. -/
def smallWorld (storePath : String) : World where
  server := .ofSettings (smallSettings storePath)
  files := (FileTree.atFolder ["work"]).plant (.ofString "src/a.xqy") (.bytes "1".toUTF8)

/-- The small world after an analysis. -/
def analysedWorld (storePath : String) : World :=
  ((smallWorld storePath).answer analyseRequest).2

/-- The requests so far in the small world, with their responses. -/
def analysedHistory (storePath : String) : List (Request × Response) :=
  [(analyseRequest, ((smallWorld storePath).answer analyseRequest).1)]

theorem reaches_analysedWorld {storePath : String} (saves : (smallWorld storePath).saves = true) :
    Reaches (smallSettings storePath) (analysedHistory storePath) (analysedWorld storePath) :=
  .ask analyseRequest (.start _) fun _ => World.savesWhole_of_saves saves

/-- After an analysis of the small world, its one module is counted and listed. -/
theorem analysedWorld_never_stale :
    ∃ paths : List String,
      ((analysedWorld "a.db").answer modulesRequest).1 =
          .counted paths.length "modules" (.list (paths.map .text)) ∧
        ((analysedWorld "a.db").answer statusRequest).1.at? ["data", "last_run", "modules"] =
          some (.nat paths.length) := by
  have reaches := reaches_analysedWorld (show (smallWorld "a.db").saves = true by decide +kernel)
  have hasAnalysed : HasAnalysed (analysedHistory "a.db") := by
    refine ⟨_, List.mem_singleton_self _, ?_, ?_⟩
    · decide +kernel
    · decide +kernel
  have plain : HasPlainStore (smallSettings "a.db") := by
    unfold HasPlainStore
    decide +kernel
  obtain ⟨-, -, -, counts⟩ := answers_never_stale reaches
  exact counts plain hasAnalysed statusRequest modulesRequest (by decide +kernel)
    (by decide +kernel)

/-- A store in memory is saved but not read: after an analysis that counted one module, no modules
are listed. -/
theorem inMemory_miscounts :
    Reaches (smallSettings ":memory:") (analysedHistory ":memory:") (analysedWorld ":memory:") ∧
      HasAnalysed (analysedHistory ":memory:") ∧
      statusRequest.operation = .ok .status ∧ modulesRequest.operation = .ok (.modules "") ∧
      ¬ ∃ paths : List String,
        ((analysedWorld ":memory:").answer modulesRequest).1 =
            .counted paths.length "modules" (.list (paths.map .text)) ∧
          ((analysedWorld ":memory:").answer statusRequest).1.at? ["data", "last_run", "modules"] =
            some (.nat paths.length) := by
  have hasAnalysed : HasAnalysed (analysedHistory ":memory:") := by
    refine ⟨_, List.mem_singleton_self _, ?_, ?_⟩
    · decide +kernel
    · decide +kernel
  have refused : ((analysedWorld ":memory:").answer modulesRequest).1.code = 503 := by
    decide +kernel
  refine ⟨reaches_analysedWorld (by decide +kernel), hasAnalysed, by decide +kernel,
    by decide +kernel, ?_⟩
  rintro ⟨paths, listed, -⟩
  rw [listed] at refused
  cases refused

end Server
end CallAtlas
