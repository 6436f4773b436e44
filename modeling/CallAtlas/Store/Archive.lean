import CallAtlas.Store.Database

/-!
# Databases as text

A database is kept in a file line by line: a heading, then for each relation that is
there its name and its rows. A row has a tab before each of its cells, and a cell is a
dash, an integer or a text, told apart by its first character. Tabs and line ends in
texts are escaped, so that cutting at them gives the cells back.
-/

namespace CallAtlas.Store.Archive

/-- The first line of a written database. -/
def heading : List Char :=
  "call atlas store".toList

/-! ## Texts -/

/-- One character of a text. -/
def escapeChar (c : Char) : List Char :=
  if c = '\\' then ['\\', '\\']
  else if c = '\t' then ['\\', 't']
  else if c = '\n' then ['\\', 'n']
  else [c]

/-- A text without tabs and line ends. -/
def escape (s : List Char) : List Char :=
  s.flatMap escapeChar

/-- The text that was escaped. -/
def unescape : List Char → List Char
  | [] => []
  | '\\' :: 't' :: s => '\t' :: unescape s
  | '\\' :: 'n' :: s => '\n' :: unescape s
  | '\\' :: c :: s => c :: unescape s
  | c :: s => c :: unescape s

/-- Escaping loses nothing. -/
theorem unescape_escape (s : List Char) : unescape (escape s) = s := by
  induction s with
  | nil => rfl
  | cons c s ih =>
    have cut : escape (c :: s) = escapeChar c ++ escape s := rfl
    rw [cut, escapeChar]
    split
    next h => subst h; simp [unescape, ih]
    next slash =>
      split
      next h => subst h; simp [unescape, ih]
      next =>
        split
        next h => subst h; simp [unescape, ih]
        next => simp [unescape, slash, ih]

/-! ## Rows -/

/-- A cell as text. -/
def writeCell : Datum → List Char
  | .int value => 'i' :: (toString value).toList
  | .text value => 't' :: escape value.toList
  | _ => ['-']

/-- The cell that a text stands for. -/
def readCell : List Char → Datum
  | 'i' :: digits => .ofOption .int (String.ofList digits).toInt?
  | 't' :: text => .text (String.ofList (unescape text))
  | _ => .null

/-- A row as a line. -/
def writeRow : Datum → List Char
  | .list cells => cells.flatMap fun cell => '\t' :: writeCell cell
  | _ => []

/-- The cells of a line. -/
def readRow (line : List Char) : List Datum :=
  ((line.splitOn '\t').drop 1).map readCell

/-- Whether a line is a row. -/
def isRow (line : List Char) : Bool :=
  line.head? == some '\t'

/-! ## Databases -/

/-- The lines of a relation, none if it is not there. -/
def writeRelation (d : Database) (relation : Relation) : List (List Char) :=
  if d.has relation then relation.name.toList :: (d.rows relation).map writeRow else []

/-- A database as text. -/
def write (d : Database) : List Char :=
  (heading :: Relation.all.flatMap (writeRelation d)).flatMap (· ++ ['\n'])

/-- Lines in groups: each line that is no row with the rows after it. The rows before the first
such line come first. -/
def groups : List (List Char) → List (List Char) × List (List Char × List (List Char))
  | [] => ([], [])
  | line :: lines =>
    let (rows, rest) := groups lines
    if isRow line then (line :: rows, rest) else ([], (line, rows) :: rest)

/-- Adds a relation with its rows, if there is one of that name. -/
def addRelation (d : Database) (name : List Char) (rows : List (List Char)) : Database :=
  match Relation.all.find? (·.name.toList == name) with
  | some relation => (d.create relation).append (rows.map readRow) relation
  | none => d

/-- The database that a text holds, if the text starts with the heading. -/
def read? (s : List Char) : Option Database :=
  match s.splitOn '\n' with
  | first :: lines =>
    if first = heading then
      some ((groups lines).2.foldl (fun d (name, rows) => addRelation d name rows) {})
    else none
  | [] => none

end CallAtlas.Store.Archive
