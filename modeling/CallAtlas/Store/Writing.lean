import CallAtlas.Store.Reading
import CallAtlas.Store.Target

/-!
# Writing a store

Saving a registry replaces whatever the database held. The external node is not
stored. Integers beyond 64 bits do not fit: the relations are then there, but
without rows. A file that is made stays, empty, when nothing can be written to it.
-/

namespace CallAtlas.Store

/-- The row of a module. -/
def ModuleRow.ofEntry (m : ModuleEntry) : ModuleRow :=
  ⟨some m.path, some m.qualifier, some m.uri, some m.functionCount, some m.lineCount⟩

/-- The row of an import. -/
def ImportRow.ofEntry (i : ImportEntry) : ImportRow :=
  ⟨i.owner, some i.qualifier, some i.uri, i.location⟩

/-- The row of a function. -/
def FunctionRow.ofEntry (f : FunctionEntry) : FunctionRow :=
  ⟨f.owner, f.qualifiedName, f.line, some (if f.isPrivate then 1 else 0), f.loc, f.invertedLoc,
    some f.callCount⟩

/-- The rows of the parameters of a function. -/
def ParameterRow.ofFunction (f : FunctionEntry) : List ParameterRow :=
  f.parameters.map fun p => ⟨f.owner, f.qualifiedName, p.name, p.typeText⟩

/-- The row of a call. -/
def CallRow.ofEntry (c : CallEntry) : CallRow :=
  ⟨c.owner, c.caller, c.token, c.called⟩

/-- The database of a registry. Imports are stored for registered modules only. -/
def Database.ofRegistry (r : Registry) : Database :=
  let modules := r.modules.values
  let functions := r.allFunctions
  { modules := some (modules.map ModuleRow.ofEntry)
    imports := some ((modules.flatMap fun m => (r.importsOf m.path).values).map ImportRow.ofEntry)
    functions := some (functions.map FunctionRow.ofEntry)
    parameters := some (functions.flatMap ParameterRow.ofFunction)
    calls := some (r.calls.map CallRow.ofEntry) }

/-- Whether an integer column fits 64 bits. -/
def fitsColumn : Option Int → Bool
  | none => true
  | some n => Numeral.fitsWord n

/-- Whether the integers of a module fit. -/
def ModuleRow.fits (r : ModuleRow) : Bool :=
  [r.functionCount, r.lineCount].all fitsColumn

/-- Whether the integers of a function fit. -/
def FunctionRow.fits (r : FunctionRow) : Bool :=
  [r.line, r.isPrivate, r.loc, r.invertedLoc, r.callCount].all fitsColumn

/-- Whether all integers of a database fit. -/
def Database.fits (d : Database) : Bool :=
  (d.modules.getD []).all ModuleRow.fits && (d.functions.getD []).all FunctionRow.fits

/-- Writes the rows of a registry where a database can be kept. -/
def writeRows (keep : Database → FileTree → FileTree) (r : Registry) : FileAction Failure Unit := do
  let rows := Database.ofRegistry r
  if rows.fits then
    modify (keep rows)
  else
    modify (keep Database.fresh)
    throw .integerTooLarge

/-- What is added to the name of a database for the file that its changes are kept in. -/
def journalEnding : String := "-journal"

/-- Opens the file of a target, and says whether it holds something that is no database. A file
that is not there is made, empty. `p` is the path that the store goes by. -/
def openTarget (p : Path) (target : Target) : FileAction Failure Bool := do
  let t ← get
  if isFar t target.path then throw (cannotOpen p unopenable)
  match t.find? target.path with
  | some .folder =>
    throw (cannotOpen p (if target.access == .reading then unreadable else unopenable))
  | some (.file (.bytes data)) => return isForeign data
  | some (.file (.database _)) => return false
  | none =>
    let made := t.putFile target.path (.bytes .empty)
    if target.access != .making || !made.has target.path then throw (cannotOpen p unopenable)
    set made
    return false

/-- A write that fails. -/
def writeFailed (p : Path) (reason : String) : Failure :=
  fault p "Write failed on " (": " ++ reason)

/-- The wording for databases that can only be read. -/
def readOnly : String := "attempt to write a readonly database"

/-- Writes a registry to memory, which leaves no file. -/
def writeMemory (p : Path) (target : Target) (r : Registry) : FileAction Failure Unit := do
  if target.isReadOnly then throw (writeFailed p readOnly)
  writeRows (fun _ t => t) r

/-- Writes a registry to the file of a target. -/
def writeTarget (p : Path) (target : Target) (r : Registry) : FileAction Failure Unit := do
  let foreign ← openTarget p target
  if foreign then throw (writeFailed p notDatabase)
  else if target.isReadOnly then throw (writeFailed p readOnly)
  else if (target.path.name ++ journalEnding).utf8ByteSize > FileTree.maxNameSize then
    throw (writeFailed p unopenable)
  else writeRows (fun d t => t.putFile target.path (.database d)) r

/-- Saves a registry at a path. The folders above it are made. -/
def save (p : Path) (r : Registry) : FileAction Failure Unit := do
  ExceptT.adapt Failure.file (FileTree.ensureFolder p.parent)
  if p.hasNull then throw (.file .nullInPath)
  match Target.ofName p.text with
  | .error reason => throw (cannotOpen p reason)
  | .ok target =>
    if target.inMemory then writeMemory p target r else writeTarget p target r
  Report.note (.storeSaved r.size p.text)

end CallAtlas.Store
