import CallAtlas.Datum
import CallAtlas.Text.Quoted

/-!
# Rows of a store

A store has five relations: modules, imports, functions, parameters and calls.
Functions are named `name#arity` in all of them. Columns that the relation does
not require may be empty.
-/

namespace CallAtlas.Store

/-- The relations of a store. -/
inductive Relation
  | modules
  | imports
  | functions
  | parameters
  | calls
deriving Repr, DecidableEq

/-- All relations. -/
def Relation.all : List Relation :=
  [modules, imports, functions, parameters, calls]

/-- The name of a relation. -/
def Relation.name : Relation → String
  | modules => "xqy_modules"
  | imports => "xqy_imports"
  | functions => "xqy_functions"
  | parameters => "xqy_parameters"
  | calls => "xqy_invocations"

/-- The columns of a relation that must be filled, with their positions. -/
def Relation.required : Relation → List (Nat × String)
  | modules => []
  | imports => [(0, "filename")]
  | functions => [(0, "filename"), (1, "name")]
  | parameters => [(0, "filename"), (1, "function_name")]
  | calls => [(0, "filename"), (1, "caller"), (3, "invoked_function")]

/-- A module. -/
structure ModuleRow where
  file : Option String
  qualifier : Option String
  uri : Option String
  functionCount : Option Int
  lineCount : Option Int
deriving Repr, DecidableEq

/-- An import of the module in a file. -/
structure ImportRow where
  file : String
  qualifier : Option String
  uri : Option String
  location : Option String
deriving Repr, DecidableEq

/-- A function of the module in a file. -/
structure FunctionRow where
  file : String
  name : String
  line : Option Int
  /-- Zero unless the function is private. -/
  isPrivate : Option Int
  loc : Option Int
  invertedLoc : Option Int
  callCount : Option Int
deriving Repr, DecidableEq

/-- A parameter of a function. -/
structure ParameterRow where
  file : String
  function : String
  name : Option String
  typeText : Option String
deriving Repr, DecidableEq

/-- A call in a function. -/
structure CallRow where
  file : String
  caller : String
  token : Option String
  called : String
deriving Repr, DecidableEq

/-! ## Columns -/

/-- A text column that may be empty. -/
def textCell (value : Option String) : Datum :=
  .ofOption .text value

/-- An integer column that may be empty. -/
def intCell (value : Option Int) : Datum :=
  .ofOption .int value

/-- The text in a column that may be empty. -/
def cellText? : Datum → Option String
  | .text value => some value
  | _ => none

/-- The integer in a column that may be empty. -/
def cellInt? : Datum → Option Int
  | .int value => some value
  | _ => none

/-- The columns of a module, in order. -/
def ModuleRow.columns (r : ModuleRow) : List (String × Datum) :=
  [("filename", textCell r.file), ("prefix", textCell r.qualifier), ("uri", textCell r.uri),
    ("numFunctions", intCell r.functionCount), ("numLines", intCell r.lineCount)]

/-- The columns of an import, in order. -/
def ImportRow.columns (r : ImportRow) : List (String × Datum) :=
  [("filename", .text r.file), ("prefix", textCell r.qualifier), ("uri", textCell r.uri),
    ("filePath", textCell r.location)]

/-- The columns of a function, in order. -/
def FunctionRow.columns (r : FunctionRow) : List (String × Datum) :=
  [("filename", .text r.file), ("name", .text r.name), ("line", intCell r.line),
    ("private", intCell r.isPrivate), ("loc", intCell r.loc),
    ("invertedLoc", intCell r.invertedLoc), ("numInvocations", intCell r.callCount)]

/-- The columns of a parameter, in order. -/
def ParameterRow.columns (r : ParameterRow) : List (String × Datum) :=
  [("filename", .text r.file), ("function_name", .text r.function), ("parameter", textCell r.name),
    ("type", textCell r.typeText)]

/-- The columns of a call, in order. -/
def CallRow.columns (r : CallRow) : List (String × Datum) :=
  [("filename", .text r.file), ("caller", .text r.caller), ("invoked_module", textCell r.token),
    ("invoked_function", .text r.called)]

/-- The module whose columns hold some values. -/
def ModuleRow.ofCells? : List Datum → Option ModuleRow
  | [file, qualifier, uri, functionCount, lineCount] =>
    some ⟨cellText? file, cellText? qualifier, cellText? uri, cellInt? functionCount,
      cellInt? lineCount⟩
  | _ => none

/-- The import whose columns hold some values. -/
def ImportRow.ofCells? : List Datum → Option ImportRow
  | [.text file, qualifier, uri, location] =>
    some ⟨file, cellText? qualifier, cellText? uri, cellText? location⟩
  | _ => none

/-- The function whose columns hold some values. -/
def FunctionRow.ofCells? : List Datum → Option FunctionRow
  | [.text file, .text name, line, isPrivate, loc, invertedLoc, callCount] =>
    some ⟨file, name, cellInt? line, cellInt? isPrivate, cellInt? loc, cellInt? invertedLoc,
      cellInt? callCount⟩
  | _ => none

/-- The parameter whose columns hold some values. -/
def ParameterRow.ofCells? : List Datum → Option ParameterRow
  | [.text file, .text function, name, typeText] =>
    some ⟨file, function, cellText? name, cellText? typeText⟩
  | _ => none

/-- The call whose columns hold some values. -/
def CallRow.ofCells? : List Datum → Option CallRow
  | [.text file, .text caller, token, .text called] =>
    some ⟨file, caller, cellText? token, called⟩
  | _ => none

/-! ## Shown rows -/

/-- A value of a column as it is shown in a notice. -/
def showCell : Datum → String
  | .int value => toString value
  | .text value => String.ofList (Text.quoted value.toList)
  | _ => "None"

/-- A row as it is shown in a notice. -/
def showRow (columns : List (String × Datum)) : String :=
  let shown := columns.map fun (name, value) => "'" ++ name ++ "': " ++ showCell value
  "\x7b" ++ String.intercalate ", " shown ++ "\x7d"

end CallAtlas.Store
