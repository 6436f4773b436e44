import CallAtlas.Files.Tree
import CallAtlas.Registry.Basic
import CallAtlas.Source.Naming
import CallAtlas.Store.Pattern

/-!
# Reading a store

A store is a database file. Listings read one relation; loading reads all five
into a registry. Rows without a file name are skipped with a notice, and columns
that are empty take default values.
-/

namespace CallAtlas.Store

/-- A store error about the file at a path. -/
def fault (p : Path) (before after : String) : Failure :=
  .analysis (.store p.text (before ++ p.text ++ after))

/-- A file that cannot be opened. -/
def cannotOpen (p : Path) (reason : String) : Failure :=
  fault p "Cannot open " (": " ++ reason)

/-- A query that fails. -/
def queryFailed (p : Path) (reason : String) : Failure :=
  fault p "Query failed on " (": " ++ reason)

/-- The wording for files that cannot be opened at all. -/
def unopenable : String := "unable to open database file"

/-- The wording for folders that are opened to be read. -/
def unreadable : String := "disk I/O error"

/-- The wording for files that are no databases. -/
def notDatabase : String := "file is not a database"

/-- How many bytes the path of a database has at most, from the top. -/
def maxStorePathSize : Nat := 504

/-- Whether a path is too long for a database. -/
def isFar (t : FileTree) (p : Path) : Bool :=
  Path.size ⟨1, p.absolute t.workFolder⟩ > maxStorePathSize

/-- Whether the bytes of a file are no database. A file of one byte counts as empty. -/
def isForeign (data : ByteArray) : Bool :=
  data.size > 1

/-- The database at a path. An empty file is a database without relations. -/
def database (t : FileTree) (p : Path) : Except Failure Database :=
  match t.probe p with
  | .error e => .error (.file e)
  | .ok none => .error (fault p "Database not found: " "")
  | .ok (some entry) =>
    if isFar t p then .error (cannotOpen p unopenable)
    else match entry with
      | .folder => .error (cannotOpen p unreadable)
      | .file (.database d) => .ok d
      | .file (.bytes data) =>
        if isForeign data then .error (queryFailed p notDatabase) else .ok {}

/-- The rows of a relation of the database at a path. -/
def select {α : Type} (t : FileTree) (p : Path) (relation : Relation)
    (rows : Database → Option (List α)) : Except Failure (List α) := do
  match rows (← database t p) with
  | some rows => return rows
  | none => throw (queryFailed p ("no such table: " ++ relation.name))

/-! ## Listings -/

/-- The paths of the modules that contain a match of a fragment. A pattern that is too long fails
at the first row. -/
def listModules (t : FileTree) (p : Path) (fragment : String) : Except Failure (List String) := do
  let rows ← select t p .modules Database.modules
  if isOversized fragment && !rows.isEmpty then
    throw (queryFailed p "LIKE or GLOB pattern too complex")
  return (rows.filterMap ModuleRow.file).filter (containsMatch fragment)

/-- The functions of some modules, or of all if none are named. -/
def listFunctions (t : FileTree) (p : Path) (modules : List String) :
    Except Failure (List FunctionRef) := do
  let rows ← select t p .functions Database.functions
  let chosen := rows.filter fun row => modules.isEmpty || modules.contains row.file
  return chosen.map fun row => ⟨row.file, row.name⟩

/-! ## Loading -/

/-- A text column, with a default where it is empty or holds the empty text. -/
def textOr (default : String) : Option String → String
  | none | some "" => default
  | some value => value

/-- The module of a row, given its path. -/
def ModuleRow.entry (row : ModuleRow) (path : String) : ModuleEntry :=
  let uri := textOr "" row.uri
  { path := path
    qualifier := textOr "unknown" row.qualifier
    uri := uri
    lineCount := row.lineCount.getD 0
    functionCount := row.functionCount.getD 0
    isMain := Naming.mainScheme.toList.isPrefixOf uri.toList }

/-- Registers the module of a row. -/
def loadModule (r : Registry) (row : ModuleRow) : Report Registry :=
  match row.file with
  | none | some "" => do
    Report.note (.moduleRowSkipped (showRow row.columns))
    return r
  | some path => r.addModule (row.entry path)

/-- Registers the import of a row. -/
def loadImport (r : Registry) (row : ImportRow) : Report Registry := do
  if row.file = "" then
    Report.note (.importRowSkipped (showRow row.columns))
    return r
  else
    return r.addImport ⟨row.file, textOr "unknown" row.qualifier, textOr "" row.uri, row.location⟩

/-- The parameters of one function. -/
def parametersOf (rows : List ParameterRow) (file function : String) : List ParameterEntry :=
  (rows.filter fun row => row.file == file && row.function == function).map fun row =>
    ⟨row.name, row.typeText⟩

/-- The function of a row. Where its name gives no arity it has as many parameters as there are
rows for them. -/
def FunctionRow.entry (row : FunctionRow) (parameters : List ParameterRow) :
    Except NumeralError FunctionEntry := do
  let (name, arity) ← splitQualified row.name
  let own := parametersOf parameters row.file row.name
  return {
    owner := row.file
    name := name
    arity := arity.getD (Int.ofNat own.length)
    line := row.line
    isPrivate := row.isPrivate.any (· != 0)
    loc := row.loc
    invertedLoc := row.invertedLoc
    callCount := row.callCount.getD 0
    parameters := own }

/-- The call of a row. -/
def CallRow.entry (row : CallRow) : Except NumeralError CallEntry := do
  let (name, arity) ← splitQualified row.called
  return { owner := row.file, caller := row.caller, token := row.token, name := name, arity := arity }

/-- Registers the function of a row. -/
def loadFunction (parameters : List ParameterRow) (r : Registry) (row : FunctionRow) :
    Checked Failure Registry := do
  match row.entry parameters with
  | .ok f => return (← r.addFunction f).2
  | .error e => throw (.numeral e)

/-- Registers the call of a row. -/
def loadCall (r : Registry) (row : CallRow) : Checked Failure Registry :=
  match row.entry with
  | .ok c => return r.addCall c
  | .error e => throw (.numeral e)

/-- The rows of a relation, while loading. -/
def selectRows {α : Type} (t : FileTree) (p : Path) (relation : Relation)
    (rows : Database → Option (List α)) : Checked Failure (List α) :=
  match select t p relation rows with
  | .ok rows => return rows
  | .error e => throw e

/-- Loads the database at a path into a new registry. -/
def load (t : FileTree) (p : Path) (scheme : VendorScheme) : Checked Failure Registry := do
  let modules ← selectRows t p .modules Database.modules
  let r ← (modules.foldlM loadModule { scheme := scheme } : Report Registry)
  let imports ← selectRows t p .imports Database.imports
  let r ← (imports.foldlM loadImport r : Report Registry)
  let parameters ← selectRows t p .parameters Database.parameters
  let functions ← selectRows t p .functions Database.functions
  let r ← functions.foldlM (loadFunction parameters) r
  let calls ← selectRows t p .calls Database.calls
  let r ← calls.foldlM loadCall r
  Report.note (.storeLoaded r.size p.text)
  return r

end CallAtlas.Store
