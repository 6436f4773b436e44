import CallAtlas.Digest
import CallAtlas.Location
import CallAtlas.Notice
import CallAtlas.Source.Balanced
import CallAtlas.Source.Scan

/-!
# The namespace of a module

A library module says under which qualifier and URI its functions are known:
`module namespace q = "uri";`. A module that does not is a main module and gets
a qualifier made from its path.
-/

namespace CallAtlas

/-- The name under which a module is known. -/
structure Naming where
  qualifier : String
  uri : String
  /-- Whether the name was made up for a main module. -/
  isMain : Bool := false
deriving Repr, DecidableEq

namespace Naming

/-- The scheme of the URIs made up for main modules. -/
def mainScheme : String := "urn:xqy-main:"

/-- How many digits of the fingerprint of its path a main module's qualifier shows. -/
def shownDigits : Nat := 6

/-- The qualifier made up for a main module from its file name and its path. -/
def mainQualifier (path : String) : String :=
  let stem := Location.stem path.toList
  let shown := if stem.isEmpty then "module".toList else stem
  String.ofList
    ("main-".toList ++ shown ++ ['-'] ++ (Digest.hex path).take shownDigits)

/-- The name made up for a main module. -/
def ofMain (path : String) : Naming :=
  ⟨mainQualifier path, mainScheme ++ path, true⟩

end Naming

namespace Source

/-- Reads up to a closing quote that blanks and a semicolon follow, and the semicolon. Other
quotes of the kind belong to the text read. -/
def untilStatementEnd (quote : Char) : Scan (List Char)
  | [] => none
  | c :: s =>
    if c == quote && semicolonFollows s then some ([], (Text.dropBlanks s).tail)
    else (untilStatementEnd quote s).map fun read => (c :: read.1, read.2)

/-- Reads a namespace declaration: the qualifier, which may stand in quotes, and the URI. -/
def namingClause (before : Option Char) : Scan (List Char × List Char) := do
  Scan.wordStart before
  Scan.keyword "module"
  Scan.someBlanks
  Scan.keyword "namespace"
  Scan.someBlanks
  discard (Scan.optional Scan.quote)
  let qualifier ← Scan.name
  discard (Scan.optional Scan.quote)
  Scan.blanks
  Scan.literal ['=']
  Scan.blanks
  let quote ← Scan.quote
  let uri ← untilStatementEnd quote
  return (qualifier, uri)

/-- How far back from a namespace clause the word `import` is looked for. -/
def importReach : Nat := 32

/-- Whether a text, read backwards, ends in the word `import` and blanks, within reach. -/
def followsImport (before : List Char) : Bool :=
  let near := before.take importReach
  let word := near.dropWhile Text.isBlank
  let keyword := "import".toList.reverse
  word.length < near.length && keyword.isPrefixOf word &&
    !((word.drop keyword.length).head?.any Text.isWord)

/-- The namespace clauses of a text that belong to no import. -/
def ownNamings (s : List Char) : List (Occurrence (List Char × List Char)) :=
  (occurrences namingClause s).filter (!followsImport ·.before)

/-- The name of a module: its first namespace clause, or the name of a main module. -/
def naming (s : List Char) (path : String) : Report Naming :=
  match ownNamings s with
  | o :: _ => pure ⟨String.ofList o.value.1, String.ofList o.value.2, false⟩
  | [] => do
    Report.note (.mainModule path)
    return Naming.ofMain path

end Source
end CallAtlas
