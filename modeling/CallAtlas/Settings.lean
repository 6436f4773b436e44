import CallAtlas.Numeral
import CallAtlas.Registry.Basic
import CallAtlas.Text.Blank

/-!
# Settings

Settings come from variables. A file of variables gives those that are not set
already: one assignment a line, with comments, quotes and an optional `export`.
-/

namespace CallAtlas

/-- What an analysis and its queries depend on. -/
structure Settings where
  storePath : String := "xqanalyse.db"
  /-- The folder that is analysed unless another one is named. -/
  basePath : String := "."
  /-- The extensions of source files. -/
  extensions : List String := [".xqy", ".xqm", ".xq", ".xql"]
  scheme : VendorScheme := {}
  /-- How many nodes a call tree has at most. -/
  treeBound : Int := 5000
  /-- How many files are read at a time; no answer depends on it. -/
  workers : Int := 4
deriving Repr, DecidableEq

/-- Settings as data. -/
def Settings.toDatum (s : Settings) : Datum :=
  .record
    [("db_path", .text s.storePath), ("base_path", .text s.basePath),
      ("extensions", .list (s.extensions.map .text)),
      ("vendor_prefix", .text s.scheme.vendorRoot),
      ("external_module", .text s.scheme.externalPath),
      ("external_prefix", .text s.scheme.externalQualifier),
      ("max_stack_nodes", .int s.treeBound), ("workers", .int s.workers)]

/-- Variables by name. -/
abbrev Variables := Table String String

namespace Settings

/-- The parts of a list that commas separate, without blanks around them and without empty
ones. -/
def readList (s : String) : List String :=
  (((s.toList.splitOn ',').map Text.trim).filter (!·.isEmpty)).map String.ofList

/-- A variable that holds an integer. -/
def readCount (vars : Variables) (name : String) (default : Int) : Except NumeralError Int :=
  match vars.get? name with
  | some value => Numeral.readInt value.toList
  | none => pure default

/-- The names of the variables that settings come from. -/
def variableNames : List String :=
  ["XQY_DB_PATH", "XQY_BASE_PATH", "XQY_EXTENSIONS", "XQY_VENDOR_PREFIX", "XQY_EXTERNAL_MODULE",
    "XQY_EXTERNAL_PREFIX", "XQY_MAX_STACK_NODES", "XQY_WORKERS"]

/-- Settings from variables. -/
def ofVariables (vars : Variables) : Except NumeralError Settings := do
  let defaults : Settings := {}
  let text (name default : String) := (vars.get? name).getD default
  let bound ← readCount vars "XQY_MAX_STACK_NODES" defaults.treeBound
  let workers ← readCount vars "XQY_WORKERS" defaults.workers
  return {
    storePath := text "XQY_DB_PATH" defaults.storePath
    basePath := text "XQY_BASE_PATH" defaults.basePath
    extensions := ((vars.get? "XQY_EXTENSIONS").map readList).getD defaults.extensions
    scheme := {
      vendorRoot := text "XQY_VENDOR_PREFIX" defaults.scheme.vendorRoot
      externalPath := text "XQY_EXTERNAL_MODULE" defaults.scheme.externalPath
      externalQualifier := text "XQY_EXTERNAL_PREFIX" defaults.scheme.externalQualifier }
    treeBound := bound
    workers := workers }

end Settings
end CallAtlas
