import CallAtlas.Store.Row

/-!
# Databases

A database has some of the five relations of a store, each with its rows in the
order of their insertion. Reading a relation that is not there fails. A database
refuses rows whose required columns are empty and modules whose file it holds already.
-/

namespace CallAtlas.Store

/-- Why a database refuses a change. -/
inductive ChangeError
  /-- The relation is not there. -/
  | absent (relation : Relation)
  /-- The relation is there already. -/
  | present (relation : Relation)
  /-- A required column is empty. -/
  | emptyColumn (relation : Relation) (column : String)
  /-- The file of a module is there already. -/
  | repeatedModule
deriving Repr, DecidableEq

/-- The wording of a refused change. -/
def ChangeError.message : ChangeError → String
  | .absent relation => "no such table: " ++ relation.name
  | .present relation => "table " ++ relation.name ++ " already exists"
  | .emptyColumn relation column =>
    "NOT NULL constraint failed: " ++ relation.name ++ "." ++ column
  | .repeatedModule => "UNIQUE constraint failed: " ++ Relation.modules.name ++ ".filename"

/-- The relations that are there, with their rows. -/
structure Database where
  modules : Option (List ModuleRow) := none
  imports : Option (List ImportRow) := none
  functions : Option (List FunctionRow) := none
  parameters : Option (List ParameterRow) := none
  calls : Option (List CallRow) := none
deriving Repr, DecidableEq

namespace Database

/-- The database with all relations and no rows. -/
def fresh : Database :=
  ⟨some [], some [], some [], some [], some []⟩

/-- Whether a relation is there. -/
def has (d : Database) : Relation → Bool
  | .modules => d.modules.isSome
  | .imports => d.imports.isSome
  | .functions => d.functions.isSome
  | .parameters => d.parameters.isSome
  | .calls => d.calls.isSome

/-- Makes a relation without rows. -/
def create (d : Database) : Relation → Database
  | .modules => { d with modules := some [] }
  | .imports => { d with imports := some [] }
  | .functions => { d with functions := some [] }
  | .parameters => { d with parameters := some [] }
  | .calls => { d with calls := some [] }

/-- Takes a relation away. -/
def drop (d : Database) : Relation → Database
  | .modules => { d with modules := none }
  | .imports => { d with imports := none }
  | .functions => { d with functions := none }
  | .parameters => { d with parameters := none }
  | .calls => { d with calls := none }

/-- Rows with further ones at the end. -/
def extend {α : Type} (rows : Option (List α)) (read : List Datum → Option α)
    (cells : List (List Datum)) : Option (List α) :=
  rows.map (· ++ cells.filterMap read)

/-- Adds rows, given column by column, to a relation that is there. -/
def append (d : Database) (rows : List (List Datum)) : Relation → Database
  | .modules => { d with modules := extend d.modules ModuleRow.ofCells? rows }
  | .imports => { d with imports := extend d.imports ImportRow.ofCells? rows }
  | .functions => { d with functions := extend d.functions FunctionRow.ofCells? rows }
  | .parameters => { d with parameters := extend d.parameters ParameterRow.ofCells? rows }
  | .calls => { d with calls := extend d.calls CallRow.ofCells? rows }

/-- Makes all relations. -/
def createAll (d : Database) : Except ChangeError Database :=
  match Relation.all.find? d.has with
  | some relation => .error (.present relation)
  | none => .ok fresh

/-- Takes a relation away that is there. -/
def remove (d : Database) (relation : Relation) : Except ChangeError Database :=
  if d.has relation then .ok (d.drop relation) else .error (.absent relation)

/-- Whether the file of a module is there. -/
def hasModule (d : Database) (file : String) : Bool :=
  (d.modules.getD []).any (·.file == some file)

/-- Inserts a row. -/
def insertRow (relation : Relation) (d : Database) (row : List Datum) :
    Except ChangeError Database := do
  for (position, column) in relation.required do
    if (row[position]?.bind cellText?).isNone then throw (.emptyColumn relation column)
  if relation = .modules && (row.head?.bind cellText?).any d.hasModule then
    throw .repeatedModule
  return d.append [row] relation

/-- Inserts rows into a relation. Unless all of them fit, none is inserted. -/
def insert (d : Database) (rows : List (List Datum)) (relation : Relation) :
    Except ChangeError Database :=
  if d.has relation then rows.foldlM (insertRow relation) d else .error (.absent relation)

/-- The values of a row, without the names of the columns. -/
def cells (columns : List (String × Datum)) : Datum :=
  .list (columns.map Prod.snd)

/-- The rows of a relation as data, none if it is not there. -/
def rows (d : Database) : Relation → List Datum
  | .modules => (d.modules.getD []).map (cells ·.columns)
  | .imports => (d.imports.getD []).map (cells ·.columns)
  | .functions => (d.functions.getD []).map (cells ·.columns)
  | .parameters => (d.parameters.getD []).map (cells ·.columns)
  | .calls => (d.calls.getD []).map (cells ·.columns)

end Database
end CallAtlas.Store
