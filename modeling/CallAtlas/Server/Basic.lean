import CallAtlas.Analysis
import CallAtlas.Server.Response
import CallAtlas.Service

/-!
# Servers

A server analyses a folder when told to and answers queries about the result. It
remembers the folder, the counts of the last analysis that succeeded, and the
registry that its service has loaded, which a new analysis makes it forget.
-/

namespace CallAtlas

/-- A server. -/
structure Server where
  service : Service
  /-- The folder that the next analysis is about. -/
  folder : Option Path
  /-- What the last analysis counted. -/
  lastRun : Option Statistics := none
deriving Repr

namespace Server

/-- An action of a server on itself and on files. -/
abbrev Action (α : Type) := StateT Server (StateT FileTree Report) α

/-- The server that settings describe. -/
def ofSettings (s : Settings) : Server where
  service := { settings := s }
  folder := if s.basePath = "" then none else some (.ofString s.basePath)

/-- The files as they are now. -/
def files : Action FileTree :=
  StateT.lift get

/-- Gives a notice. -/
def report (n : Notice) : Action Unit :=
  StateT.lift (StateT.lift (Report.note n))

/-- The answer of the service to a query. -/
def ask {α : Type} (query : Query α) : Action (Except Failure α) := do
  let s ← get
  let (answer, service) ← StateT.lift (StateT.lift (query.run.run s.service))
  set { s with service := service }
  return answer

/-- The response to a query. -/
def respond {α : Type} (query : FileTree → Query α) (present : α → Response) :
    Action Response := do
  match ← ask (query (← files)) with
  | .ok a => return present a
  | .error (.analysis e) => return (Response.ofError? e).getD .collapse
  | .error _ => return .collapse

/-! ## Operations -/

/-- Chooses the folder to analyse. -/
def choose (folder : String) : Action Response := do
  let path := Path.ofString folder
  match (← files).probeFolder path with
  | .error _ => return .collapse
  | .ok true =>
    modify fun s => { s with folder := some path }
    report (.folderChosen path.text)
    return .success (some ("Base folder set to " ++ path.text))
      (.record [("base_folder", .text path.text)])
  | .ok false => return .explained 400 ("Folder not found: " ++ folder)

/-- Analyses a folder that is there. -/
def analyseFolder (folder : Path) : Action Response := do
  let settings := (← get).service.settings
  let repository :=
    { Repository.ofFolder (← files).workFolder folder "" with
      storePath := some (.ofString settings.storePath) }
  match ← StateT.lift (Analysis.run settings repository).run with
  | .ok (statistics, _) =>
    modify fun s => { s with lastRun := some statistics }
    let _ ← ask Service.forget
    return .counted statistics.modules "modules analysed" statistics.toDatum
  | .error (.analysis e@(.storeUnavailable ..)) => return .detail 503 e.toDatum
  | .error e => return .explained 500 e.message

/-- Analyses the chosen folder. -/
def analyse : Action Response := do
  let missing (folder : String) : Response :=
    .explained 400 ("Base folder not set or missing: " ++ folder)
  match (← get).folder with
  | none => return missing "None"
  | some folder =>
    match (← files).probeFolder folder with
    | .error _ => return .collapse
    | .ok true => analyseFolder folder
    | .ok false => return missing folder.text

/-- How the server is set up and what it did last. No operation runs beside another one. -/
def status : Action Response := do
  let s ← get
  let store := s.service.storePath
  match (← files).probe store with
  | .error _ => return .collapse
  | .ok found =>
    return .success none (.record
      [("base_folder", .ofOption (fun p => .text p.text) s.folder),
        ("db_path", .text store.text),
        ("db_exists", .bool found.isSome),
        ("running", .bool false),
        ("last_run", .ofOption Statistics.toDatum s.lastRun)])

/-- The call tree of a function in one of two forms. -/
def stack (path function form : String) (bound : Option Int) : Action Response :=
  let query (t : FileTree) := Service.callTree t path function bound
  match form with
  | "gml" => respond query fun tree => .text tree.toSheet.write
  | "json" => respond query fun tree => .counted tree.nodes.length "nodes" tree.toDatum
  | form => return .explained 400 ("Unknown format: " ++ form)

/-- A function as data. -/
def functionDatum (f : FunctionRef) : Datum :=
  .record [("module", .text f.path), ("name", .text f.function)]

/-- Does what is asked for. -/
def perform : Operation → Action Response
  | .choose folder => choose folder
  | .analyse => analyse
  | .status => status
  | .modules fragment =>
    respond (Service.modules · fragment) fun paths =>
      .counted paths.length "modules" (.list (paths.map .text))
  | .functions modules =>
    respond (Service.functions · modules) fun found =>
      .counted found.length "functions" (.list (found.map functionDatum))
  | .stack path function form bound => stack path function form bound
  | .graph connectedOnly =>
    respond (Service.moduleGraph · connectedOnly) fun graph => .text graph.toSheet.write

/-- Answers a request. -/
def answer (r : Request) : Action Response :=
  match r.operation with
  | .ok operation => perform operation
  | .error refusal => return .ofRefusal refusal

end Server
end CallAtlas
