import CallAtlas.Datum

/-!
# Errors of an analysis

Errors that a caller can act on carry a code, a message and details. The
wording of each is here and nowhere else.
-/

namespace CallAtlas

/-- What can go wrong in an analysis or a query. -/
inductive AnalysisError
  /-- Anything without a code of its own. -/
  | general (wording : String) (fields : List (String × Datum))
  /-- A declaration, import or function is malformed. -/
  | malformed (wording : String) (path : Option String) (line : Option Int)
  /-- The token of a call site names no module. -/
  | unresolved (caller : String) (token : Option String) (reason : String)
  /-- Something asked for does not exist. -/
  | absent (wording : String) (fields : List (String × Datum))
  /-- The root function of a call tree does not exist; `available` are the functions of the
  module that do. -/
  | functionAbsent (path function : String) (available : List String)
  /-- The store cannot be opened, read or written. -/
  | storeUnavailable (wording : String) (fields : List (String × Datum))
deriving Repr

namespace AnalysisError

/-- The code by which callers tell errors apart. -/
def code : AnalysisError → String
  | general .. => "XQY_ERR_INTERNAL"
  | malformed .. => "XQY_ERR_PARSE"
  | unresolved .. => "XQY_ERR_UNRESOLVED"
  | absent .. => "XQY_ERR_NOT_FOUND"
  | functionAbsent .. => "XQY_ERR_NOT_FOUND"
  | storeUnavailable .. => "XQY_ERR_STORE"

/-- The message, without a position in the source. -/
def message : AnalysisError → String
  | general wording _ => wording
  | malformed wording _ _ => wording
  | unresolved caller token reason =>
    "Cannot resolve invoked module '" ++ token.getD "None" ++ "' for " ++ caller ++ ": " ++ reason
  | absent wording _ => wording
  | functionAbsent path function available =>
    "Function '" ++ function ++ "' in module '" ++ path ++ "' not found." ++
      (if available.isEmpty then " The module was not found or contains no functions." else "")
  | storeUnavailable wording _ => wording

/-- The details, in the order in which they are shown. -/
def details : AnalysisError → List (String × Datum)
  | general _ fields => fields
  | malformed _ path line =>
    [("file_path", .ofOption .text path), ("line", .ofOption .int line)]
  | unresolved caller token _ =>
    [("module", .text caller), ("token", .ofOption .text token)]
  | absent _ fields => fields
  | functionAbsent path function available =>
    [("module", .text path), ("function", .text function),
      ("available_functions", .list (available.map .text))]
  | storeUnavailable _ fields => fields

/-- The message with the position in the source, where there is one. -/
def text : AnalysisError → String
  | malformed wording path line =>
    let place := match path with
      | none | some "" => "<source>"
      | some path => path
    let placed := match line with
      | none => place
      | some line => place ++ ":" ++ toString line
    placed ++ ": " ++ wording
  | e => e.message

/-- The error as data. -/
def toDatum (e : AnalysisError) : Datum :=
  .record
    [("error", .bool true), ("code", .text e.code), ("message", .text e.message),
      ("details", .record e.details)]

/-- The reason given when no rule of resolution applies. -/
def noMatch : String := "no matching module"

/-- A store error about the database at a path. -/
def store (path wording : String) : AnalysisError :=
  .storeUnavailable wording [("db_path", .text path)]

end AnalysisError
end CallAtlas
