import CallAtlas.Location
import CallAtlas.Notice
import CallAtlas.Source.Scan
import CallAtlas.Text.Lines

/-!
# Imports

`import module namespace q = "uri" at "location";` makes a module known under a
qualifier. The location may be left out, and further locations may follow the
first. Statements of any other form are skipped with a notice.
-/

namespace CallAtlas

/-- An import as a module declares it. -/
structure ImportClause where
  qualifier : String
  uri : String
  /-- Where the module lies, if the import says so. -/
  location : Option String
  line : Nat
deriving Repr, DecidableEq

namespace Source

/-- Why an import statement is skipped. -/
inductive ImportFault
  /-- It does not bind a qualifier to a URI. -/
  | unrecognized (statement : List Char)
  /-- What follows the URI is no list of locations. -/
  | malformedLocation (qualifier : List Char)
deriving Repr, DecidableEq

/-- The wording of an import fault. -/
def ImportFault.message : ImportFault → String
  | unrecognized statement =>
    "unrecognized import statement: " ++ String.ofList (Text.squeeze statement)
  | malformedLocation qualifier =>
    "malformed 'at' clause for prefix " ++ String.ofList qualifier

/-- Reads an import statement up to its semicolon. -/
def importStatement (before : Option Char) : Scan Unit := do
  Scan.wordStart before
  Scan.keyword "import"
  Scan.someBlanks
  Scan.keyword "module"
  Scan.wordEnd
  discard (Scan.run (· != ';'))
  Scan.literal [';']

/-- Reads the binding of an import statement: the qualifier and the URI. -/
def importBinding : Scan (List Char × List Char) := do
  Scan.keyword "import"
  Scan.someBlanks
  Scan.keyword "module"
  Scan.someBlanks
  Scan.keyword "namespace"
  Scan.someBlanks
  let qualifier ← Scan.name
  Scan.blanks
  Scan.literal ['=']
  Scan.blanks
  let quote ← Scan.quote
  let uri ← Scan.run (· != quote)
  Scan.literal [quote]
  return (qualifier, uri)

mutual

/-- Whether a text is a comma, a quoted text, and so on to its end, after blanks. -/
def commaFollows : List Char → Bool
  | [] => false
  | c :: s => if Text.isBlank c then commaFollows s else c == ',' && quotedFollows s

/-- Whether a text is a quoted text and what may follow one, after blanks. -/
def quotedFollows : List Char → Bool
  | [] => false
  | c :: s => if Text.isBlank c then quotedFollows s else isQuote c && closingFollows c s

/-- Whether some quote of a kind in a text can end a quoted text: nothing but further quoted
texts follows it. -/
def closingFollows (quote : Char) : List Char → Bool
  | [] => false
  | c :: s => (c == quote && (s.isEmpty || commaFollows s)) || closingFollows quote s

end

/-- The text up to the first quote of a kind after which only further quoted texts follow. -/
def firstQuoted? (quote : Char) : List Char → Option (List Char)
  | [] => none
  | c :: s =>
    if c == quote && (s.isEmpty || commaFollows s) then some []
    else (firstQuoted? quote s).map (c :: ·)

/-- The first location of a clause `at "first", "second", …`. -/
def firstLocation? (s : List Char) : Option (List Char) := do
  let (quote, rest) ← (do Scan.keyword "at"; Scan.someBlanks; Scan.quote : Scan Char) s
  firstQuoted? quote rest

/-- Reads one import statement, semicolon included, of the module at a path. -/
def readImport (path : String) (line : Nat) (statement : List Char) :
    Except ImportFault ImportClause :=
  match importBinding statement with
  | none => .error (.unrecognized statement)
  | some ((qualifier, uri), rest) =>
    let clause := ImportClause.mk (String.ofList qualifier) (String.ofList uri)
    let places := Text.trim rest.dropLast
    if places.isEmpty then .ok (clause none line)
    else match firstLocation? places with
      | none => .error (.malformedLocation qualifier)
      | some location =>
        .ok (clause (some (String.ofList (Location.ofImport path.toList location))) line)

/-- The import of one statement found in a text, if it is well formed. -/
def importAt (path : String) (o : Occurrence Unit) : Report (Option ImportClause) :=
  let line := Text.lineAfter o.before
  match readImport path line o.text with
  | .ok clause => pure (some clause)
  | .error fault => do
    Report.note (.importSkipped (.malformed fault.message (some path) (some (Int.ofNat line))))
    return none

/-- The imports of a module text in their order, malformed ones left out. -/
def importClauses (s : List Char) (path : String) : Report (List ImportClause) := do
  return (← (occurrences importStatement s).mapM (importAt path)).filterMap id

end Source
end CallAtlas
