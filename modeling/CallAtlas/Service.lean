import CallAtlas.CallTree
import CallAtlas.ModuleGraph
import CallAtlas.Settings
import CallAtlas.Store.Reading

/-!
# Queries over a stored analysis

A service answers queries about one store. Listings read the store each time;
graphs need a registry, which is loaded once and kept until the service is told
to forget it.
-/

namespace CallAtlas

/-- The settings of a service and the registry it has loaded. -/
structure Service where
  settings : Settings
  cache : Option Registry := none
deriving Repr

/-- A query that may load the registry, report and fail. A registry that was loaded stays even
if the query fails. -/
abbrev Query (α : Type) := ExceptT Failure (StateT Service Report) α

namespace Service

/-- The path of the store. -/
def storePath (s : Service) : Path :=
  .ofString s.settings.storePath

/-- A computation that does not touch the service, as a query. -/
def query {α : Type} (c : Checked Failure α) : Query α :=
  ExceptT.mk (StateT.lift c.run)

/-- The registry of the store, loaded if it is not there yet. -/
def registry (t : FileTree) : Query Registry := do
  let s ← get
  match s.cache with
  | some r => return r
  | none =>
    let r ← query (Store.load t s.storePath s.settings.scheme)
    set { s with cache := some r }
    return r

/-- Forgets the registry. -/
def forget : Query Unit := do
  let s ← get
  set { s with cache := none }
  Report.note (.cacheCleared s.storePath.text)

/-- The paths of the modules that contain a match of a fragment. -/
def modules (t : FileTree) (fragment : String) : Query (List String) := do
  match Store.listModules t (← get).storePath fragment with
  | .ok paths => return paths
  | .error e => throw e

/-- The functions of some modules, or of all if none are named. -/
def functions (t : FileTree) (modules : List String) : Query (List FunctionRef) := do
  match Store.listFunctions t (← get).storePath modules with
  | .ok functions => return functions
  | .error e => throw e

/-- The call tree of a function. Without a bound the settings give one. -/
def callTree (t : FileTree) (path function : String) (bound : Option Int) : Query CallTree := do
  let r ← registry t
  let bound := bound.getD (← get).settings.treeBound
  query (CallTree.ofFunction r path function (some bound))

/-- The module graph. -/
def moduleGraph (t : FileTree) (connectedOnly : Bool) : Query ModuleGraph := do
  let r ← registry t
  query (ModuleGraph.ofRegistry r connectedOnly)

end Service
end CallAtlas
