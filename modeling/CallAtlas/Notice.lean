import CallAtlas.Error

/-!
# Notices

What an operation reports on the way to its result. A notice is a value with a
level and a wording; operations return their notices beside their result, in
the order in which they were given.
-/

namespace CallAtlas

/-- How serious a notice is. -/
inductive Level
  | debug
  | info
  | warning
  | error
deriving Repr, DecidableEq

/-- The name of a level. -/
def Level.name : Level → String
  | debug => "DEBUG"
  | info => "INFO"
  | warning => "WARNING"
  | error => "ERROR"

/-- One thing reported. -/
inductive Notice
  /-- A module declares no namespace and is taken for a main module. -/
  | mainModule (path : String)
  /-- An import statement was skipped. -/
  | importSkipped (cause : AnalysisError)
  /-- A function declaration was skipped. -/
  | functionSkipped (cause : AnalysisError)
  /-- A declaration repeats the name and arity of an earlier one. -/
  | functionRepeated (qualifier qualified path : String) (line : Nat)
  /-- A declaration has no body. -/
  | functionExternal (qualifier name path : String) (line : Nat)
  /-- The parenthesis of a call is never closed. -/
  | callUnclosed (qualifier name : String)
  /-- A module is registered a second time. -/
  | moduleReplaced (path : String)
  /-- A qualifier now belongs to another module. -/
  | qualifierMoved (qualifier source target : String)
  /-- A function is already registered. -/
  | functionKept (qualified path : String)
  /-- A parsed module is already registered. -/
  | moduleKept (path : String)
  /-- A registry was filled. -/
  | registryBuilt (modules functions calls : Nat)
  /-- A call site could not be resolved. -/
  | callDropped (called caller : String) (cause : AnalysisError)
  /-- An import names a location that is not registered. -/
  | locationUnknown (location path : String)
  /-- A call site belongs to a module that is not registered. -/
  | callerUnknown (path : String)
  /-- A call resolves to a module that is not registered. -/
  | targetUnknown (target source : String)
  /-- A module graph was built. -/
  | graphBuilt (nodes edges dropped : Nat)
  /-- A call tree reached its bound. -/
  | treeTruncated (path function : String) (bound : Int)
  /-- A call tree was built. -/
  | treeBuilt (path function : String) (nodes depth : Nat)
  /-- A registry was written to a store. -/
  | storeSaved (modules : Nat) (store : String)
  /-- A registry was read from a store. -/
  | storeLoaded (modules : Nat) (store : String)
  /-- A module row of a store names no file. -/
  | moduleRowSkipped (row : String)
  /-- An import row of a store names no file. -/
  | importRowSkipped (row : String)
  /-- A service forgot its registry. -/
  | cacheCleared (store : String)
  /-- An analysis starts. -/
  | analysisStarted (repository : String)
  /-- A source root does not exist. -/
  | sourceMissing (path : String)
  /-- A file would take a module path that an earlier file has. -/
  | fileShadowed (file path owner : String)
  /-- All files were parsed. -/
  | filesParsed (parsed skipped : Nat)
  /-- All call sites were resolved. -/
  | callsResolved (edges unresolved : Nat)
  /-- The results of an analysis were saved. -/
  | analysisSaved (store : String)
  /-- The folder to be analysed does not exist. -/
  | folderMissing (path : String)
  /-- A configuration file does not exist. -/
  | configurationMissing (path : String)
  /-- The text of a configuration is not well formed. -/
  | configurationMalformed
  /-- A configuration does not describe a repository. -/
  | configurationInvalid
  /-- The root function of a call tree does not exist. -/
  | functionMissing (wording : String)
  /-- A command could not use the store. -/
  | storeFailed (wording : String)
  /-- A command failed. -/
  | commandFailed (command wording : String)
  /-- The folder to be analysed was chosen. -/
  | folderChosen (path : String)
deriving Repr

namespace Notice

/-- The level of a notice. -/
def level : Notice → Level
  | mainModule .. => .debug
  | importSkipped .. => .debug
  | functionSkipped .. => .warning
  | functionRepeated .. => .warning
  | functionExternal .. => .debug
  | callUnclosed .. => .debug
  | moduleReplaced .. => .warning
  | qualifierMoved .. => .debug
  | functionKept .. => .warning
  | moduleKept .. => .warning
  | registryBuilt .. => .info
  | callDropped .. => .warning
  | locationUnknown .. => .debug
  | callerUnknown .. => .warning
  | targetUnknown .. => .warning
  | graphBuilt .. => .info
  | treeTruncated .. => .warning
  | treeBuilt .. => .info
  | storeSaved .. => .info
  | storeLoaded .. => .info
  | moduleRowSkipped .. => .warning
  | importRowSkipped .. => .warning
  | cacheCleared .. => .info
  | analysisStarted .. => .info
  | sourceMissing .. => .warning
  | fileShadowed .. => .warning
  | filesParsed .. => .info
  | callsResolved .. => .info
  | analysisSaved .. => .info
  | folderMissing .. => .error
  | configurationMissing .. => .error
  | configurationMalformed => .error
  | configurationInvalid => .error
  | functionMissing .. => .error
  | storeFailed .. => .error
  | commandFailed .. => .error
  | folderChosen .. => .info

/-- The wording of a notice. -/
def message : Notice → String
  | mainModule path => s!"No module namespace in {path}, treating as main module"
  | importSkipped cause => "Skipping import: " ++ cause.text
  | functionSkipped cause => "Skipping function: " ++ cause.text
  | functionRepeated qualifier qualified path line =>
    s!"Duplicate function {qualifier}:{qualified} in {path}:{line}, keeping the first declaration"
  | functionExternal qualifier name path line =>
    s!"Skipping external function {qualifier}:{name} in {path}:{line}"
  | callUnclosed qualifier name => s!"Unbalanced call to {qualifier}:{name}, skipping call-site"
  | moduleReplaced path => s!"Module {path} registered twice, replacing"
  | qualifierMoved qualifier source target =>
    s!"Prefix {qualifier} moves from {source} to {target}"
  | functionKept qualified path => s!"Duplicate function {qualified} in {path}, keeping first"
  | moduleKept path => s!"Module {path} already registered, skipping"
  | registryBuilt modules functions calls =>
    s!"Registry built: {modules} modules, {functions} functions, {calls} invocations"
  | callDropped called caller cause =>
    s!"Dropping invocation of {called} from {caller}: " ++ cause.text
  | locationUnknown location path => s!"Import location {location} in {path} is not a known module"
  | callerUnknown path => s!"Skipping invocation from unknown module {path}"
  | targetUnknown target source => s!"Target module {target} not found for {source}"
  | graphBuilt nodes edges dropped =>
    s!"Module graph: {nodes} nodes, {edges} edges, {dropped} invocations dropped"
  | treeTruncated path function bound =>
    s!"Call stack for {path} {function} truncated at {bound} nodes"
  | treeBuilt path function nodes depth =>
    s!"Call stack for {path} {function}: {nodes} nodes, depth {depth}"
  | storeSaved modules store => s!"Saved {modules} modules to {store}"
  | storeLoaded modules store => s!"Loaded {modules} modules from {store}"
  | moduleRowSkipped row => s!"Skipping module row with missing filename: {row}"
  | importRowSkipped row => s!"Skipping import row with missing filename: {row}"
  | cacheCleared store => s!"Registry cache cleared for {store}"
  | analysisStarted repository => s!"Starting analysis for {repository}"
  | sourceMissing path => s!"Source path does not exist: {path}"
  | fileShadowed file path owner =>
    s!"Skipping {file}: module path {path} already taken by {owner}"
  | filesParsed parsed skipped =>
    s!"Pass 1 complete: {parsed} modules parsed, {skipped} files skipped"
  | callsResolved edges unresolved =>
    s!"Pass 2 complete: {edges} edges, {unresolved} unresolved invocations"
  | analysisSaved store => s!"Analysis saved to {store}"
  | folderMissing path => s!"Base folder not found: {path}"
  | configurationMissing path => s!"Config file not found: {path}"
  | configurationMalformed => "Invalid YAML in config file:"
  | configurationInvalid => "Invalid configuration:"
  | functionMissing wording => wording
  | storeFailed wording => "Store unavailable: " ++ wording
  | commandFailed command wording => command ++ " failed: " ++ wording
  | folderChosen path => s!"Base folder set to {path}"

/-- A notice as one line of a log. -/
def line (n : Notice) : String :=
  n.level.name ++ " " ++ n.message

end Notice

/-- A result with the notices given on the way to it. -/
structure Report (α : Type) where
  value : α
  notices : List Notice := []

namespace Report

instance : Monad Report where
  pure a := ⟨a, []⟩
  bind r f :=
    let next := f r.value
    ⟨next.value, r.notices ++ next.notices⟩

instance : LawfulMonad Report :=
  LawfulMonad.mk' Report
    (fun r => by simp [Functor.map])
    (fun a f => by simp [bind, pure])
    (fun r f g => by simp [bind])

/-- Gives one notice. -/
def note (n : Notice) : Report Unit :=
  ⟨(), [n]⟩

end Report

/-- A computation that reports on its way and may fail; its notices outlive a failure. -/
abbrev Checked (ε α : Type) := ExceptT ε Report α

end CallAtlas
