import CallAtlas.Source.Comment
import CallAtlas.Source.Declaration
import CallAtlas.Source.ImportClause
import CallAtlas.Source.Naming
import CallAtlas.Table

/-!
# One module of source text

Everything that the analysis needs of a module: its name, its imports, its
functions with their call sites, and its length. Nothing here looks at other
modules.
-/

namespace CallAtlas

/-- What one source text declares. -/
structure ParsedModule where
  path : String
  naming : Naming
  /-- The imports by qualifier; a later one replaces an earlier one in its place. -/
  imports : Table String ImportClause
  functions : List FunctionDecl
  lineCount : Nat
deriving Repr

namespace Source

/-- The language of the sources. -/
def language : String := "xquery"

/-- The qualifiers by which a module calls functions of the repository. -/
def knownQualifiers (naming : Naming) (imports : Table String ImportClause) : List String :=
  naming.qualifier :: localQualifier :: imports.keys

/-- Reads a module. Lines are counted before comments are taken out. -/
def readModule (text path : String) : Checked NumeralError ParsedModule := do
  let stripped := stripComments text.toList
  let naming ← naming stripped path
  let clauses ← importClauses stripped path
  let imports := clauses.foldl (fun table clause => table.put clause.qualifier clause) Table.empty
  let functions ← declarations (knownQualifiers naming imports) stripped path
  return {
    path := path
    naming := naming
    imports := imports
    functions := functions
    lineCount := (Text.lines text.toList).length }

end Source

/-- The qualifiers by which a module calls functions of the repository. -/
def ParsedModule.knownQualifiers (m : ParsedModule) : List String :=
  Source.knownQualifiers m.naming m.imports

end CallAtlas
