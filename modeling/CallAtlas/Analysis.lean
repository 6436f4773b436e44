import CallAtlas.Registry.Merge
import CallAtlas.Registry.Resolve
import CallAtlas.Repository
import CallAtlas.Settings
import CallAtlas.Store.Writing

/-!
# Analysing a repository

An analysis finds the source files of a repository, reads each one, merges them into
a registry, resolves every call to see which lead nowhere, and saves the registry.

A file gives its module the path from its source root. Where two files would give
the same path, the first one found counts and the others are skipped, as are files
that cannot be read.
-/

namespace CallAtlas

/-- What an analysis counted. -/
structure Statistics where
  files : Nat := 0
  skipped : Nat := 0
  modules : Nat := 0
  functions : Nat := 0
  calls : Nat := 0
  edges : Nat := 0
  unresolved : Nat := 0
deriving Repr, DecidableEq

/-- The counts as data. -/
def Statistics.toDatum (s : Statistics) : Datum :=
  .record
    [("files", .nat s.files), ("skipped_files", .nat s.skipped), ("modules", .nat s.modules),
      ("functions", .nat s.functions), ("invocations", .nat s.calls),
      ("resolved_edges", .nat s.edges), ("unresolved_invocations", .nat s.unresolved)]

/-- A source file and the path of its module. Both are texts. A system of files may hold names
whose bytes are no text; files with such names are not among those of a `FileTree`. -/
structure SourceFile where
  file : Path
  modulePath : String
deriving Repr, DecidableEq

namespace Analysis

/-- Whether a file has one of some extensions, in any case. -/
def hasExtension (extensions : List String) (file : Path) : Bool :=
  let lowered (s : String) := Text.lower s.toList
  (extensions.map lowered).contains (lowered (Path.extension file.name))

/-- The extensions of the source files of a root. -/
def extensionsOf (settings : Settings) (root : SourceRoot) : List String :=
  match root.extensions with
  | none | some [] => settings.extensions
  | some extensions => extensions

/-- The source files of a root. -/
def filesOf (t : FileTree) (settings : Settings) (root : SourceRoot) :
    Checked Failure (List SourceFile) := do
  match t.probe root.path with
  | .error e => throw (.file e)
  | .ok (some _) =>
    let found := (t.filesIn root.path root.isDeep).filter
      (hasExtension (extensionsOf settings root))
    return found.map fun file => ⟨file, Path.moduleIn t.workFolder root.path file⟩
  | .ok none =>
    Report.note (.sourceMissing root.path.text)
    return []

/-- The files that count: of those with one module path the first. `taken` are those that
were found before. -/
def firstOfPath (taken : List SourceFile) : List SourceFile → Report (List SourceFile)
  | [] => pure taken
  | s :: rest => do
    match taken.find? (·.modulePath == s.modulePath) with
    | some owner =>
      Report.note (.fileShadowed s.file.text s.modulePath owner.file.text)
      firstOfPath taken rest
    | none => firstOfPath (taken ++ [s]) rest

/-- The files of some roots: how many there are, and those that count. -/
def collect (t : FileTree) (settings : Settings) :
    (found : Nat × List SourceFile) → List SourceRoot → Checked Failure (Nat × List SourceFile)
  | found, [] => pure found
  | (total, taken), root :: roots => do
    let files ← filesOf t settings root
    let taken ← (firstOfPath taken files : Report _)
    collect t settings (total + files.length, taken) roots

/-- The module in a file, if the file can be read. What is reported while reading a module is
not passed on. -/
def readFile (t : FileTree) (s : SourceFile) : Except NumeralError (Option ParsedModule) :=
  match t.readText s.file with
  | some text => some <$> (Source.readModule text s.modulePath).run.value
  | none => pure none

/-- What came of reading one file: the place of the file in its list, and its module if it could
be read. -/
abbrev Arrival := Nat × Option ParsedModule

/-- The places of a list of files, each filled by the arrival of its file. -/
def fillPlaces (count : Nat) (arrivals : List Arrival) : List (Option ParsedModule) :=
  arrivals.foldl (fun places (i, m) => places.set i m) (List.replicate count none)

/-- What came of reading some files: their modules, and how many files could not be read. -/
structure ParsedFiles where
  modules : List ParsedModule
  skipped : Nat

/-- What came of `count` files. The modules stand in the order of the files, whatever the order of
the arrivals. -/
def ParsedFiles.ofArrivals (count : Nat) (arrivals : List Arrival) : ParsedFiles :=
  let modules := (fillPlaces count arrivals).filterMap id
  ⟨modules, count - modules.length⟩

/-- Reads files one after another. -/
def arrivalsOf (t : FileTree) (files : List SourceFile) : Except NumeralError (List Arrival) :=
  files.zipIdx.mapM fun (s, i) => return (i, ← readFile t s)

/-- The modules in the files that can be read, in the order of the files, with the number of the
other ones. -/
def readFiles (t : FileTree) (files : List SourceFile) : Except NumeralError ParsedFiles :=
  return .ofArrivals files.length (← arrivalsOf t files)

/-- How many edges calls have, and how many calls have none. -/
def countEdges (r : Registry) (calls : List CallEntry) : Report (Nat × Nat) := do
  let edges ← calls.mapM r.resolve
  return (edges.flatten.length, edges.countP List.isEmpty)

/-- The path of the store of a repository. -/
def storePath (settings : Settings) (repository : Repository) : Path :=
  repository.storePath.getD (.ofString settings.storePath)

/-- Merges the modules that were read, and saves the result. Of the files that were found, those
that do not count are skipped like those that could not be read. -/
def conclude (settings : Settings) (repository : Repository) (found : Nat × List SourceFile)
    (parsed : ParsedFiles) : FileAction Failure (Statistics × Registry) := do
  let (total, files) := found
  let skipped := parsed.skipped + (total - files.length)
  let r ← (Registry.merge { scheme := settings.scheme } parsed.modules : Report Registry)
  Report.note (.filesParsed parsed.modules.length skipped)
  let (edges, unresolved) ← (countEdges r r.calls : Report _)
  Report.note (.callsResolved edges unresolved)
  let store := storePath settings repository
  Store.save store r
  Report.note (.analysisSaved store.text)
  return (⟨total, skipped, r.size, r.allFunctions.length, r.calls.length, edges, unresolved⟩, r)

/-- Analyses a repository and saves the result. -/
def run (settings : Settings) (repository : Repository) :
    FileAction Failure (Statistics × Registry) := do
  let t ← get
  Report.note (.analysisStarted repository.id)
  let found ← FileAction.ofChecked (collect t settings (0, []) repository.sources)
  let parsed ← match readFiles t found.2 with
    | .ok parsed => pure parsed
    | .error e => throw (Failure.numeral e)
  conclude settings repository found parsed

end Analysis
end CallAtlas
