import CallAtlas.Failure
import CallAtlas.Files.Path
import CallAtlas.Notice
import CallAtlas.Store.Database
import CallAtlas.Table
import CallAtlas.Text.Lines

/-!
# Trees of files

A tree holds files and folders by their names from the top. A process works in
one folder, from which relative paths start. `..` leads up from a folder that is
there, so a path through something missing leads nowhere. Names and paths have a
greatest length; to ask for a longer one is an error, even where nothing is.
-/

namespace CallAtlas

/-- What a file holds. -/
inductive Content
  | bytes (data : ByteArray)
  | database (data : Store.Database)

/-- A file or a folder. -/
inductive Entry
  | file (content : Content)
  | folder

/-- Files and folders by their names from the top, and the folder that a process works in. Names
are texts: what a system of files keeps under bytes that are no text is not among them. -/
structure FileTree where
  workFolder : List String
  entries : Table (List String) Entry := ⟨[]⟩

/-- An action on files. What it did to them and what it reported outlive a failure. -/
abbrev FileAction (ε α : Type) := ExceptT ε (StateT FileTree Report) α

/-- A computation that does not touch files, as an action on them. -/
def FileAction.ofChecked {ε α : Type} (c : Checked ε α) : FileAction ε α :=
  ExceptT.mk (StateT.lift c.run)

namespace FileTree

/-- The file or folder with some names from the top. The top is a folder. -/
def entry? (t : FileTree) (names : List String) : Option Entry :=
  if names.isEmpty then some .folder else t.entries.get? names

/-- Whether there is a folder with some names from the top. -/
def hasFolder (t : FileTree) (names : List String) : Bool :=
  match t.entry? names with
  | some .folder => true
  | _ => false

/-- The tree with a folder and all folders above it. -/
def withFolder (t : FileTree) (names : List String) : FileTree :=
  { t with
    entries := (Path.takes names).foldl
      (fun es folder => if es.contains folder then es else es.put folder .folder)
      t.entries }

/-- The tree whose only folder is the one worked in, with the folders above it. -/
def atFolder (workFolder : List String) : FileTree :=
  FileTree.withFolder ⟨workFolder, ⟨[]⟩⟩ workFolder

/-- Why a path leads nowhere. -/
inductive Obstacle
  | missing
  | throughFile
  | nameTooLong
  | nullInPath
deriving Repr, DecidableEq

/-- The error about a path that leads nowhere. -/
def Obstacle.error (p : Path) : Obstacle → FileError
  | missing => .missing p.text
  | throughFile => .notFolder p.text
  | nameTooLong => .nameTooLong p.text
  | nullInPath => .nullInPath

/-- How many bytes a name has at most. -/
def maxNameSize : Nat := 255

/-- How many bytes a path has at most. -/
def maxPathSize : Nat := 4095

/-- One step along a path, from the names of a file or folder that is there. -/
def step (t : FileTree) (names : List String) (name : String) :
    Except Obstacle (List String) :=
  if !t.hasFolder names then .error .throughFile
  else if name = Path.up then .ok names.dropLast
  else if name.utf8ByteSize > maxNameSize then .error .nameTooLong
  else if (t.entry? (names ++ [name])).isSome then .ok (names ++ [name])
  else .error .missing

/-- The names from the top of what a path leads to, or why it leads nowhere. -/
def seek (t : FileTree) (p : Path) : Except Obstacle (List String) :=
  if p.hasNull then .error .nullInPath
  else if p.size > maxPathSize then .error .nameTooLong
  else p.names.foldlM t.step (if p.isAbsolute then [] else t.workFolder)

/-- The names from the top of what a path leads to, if there is something. -/
def locate (t : FileTree) (p : Path) : Option (List String) :=
  (t.seek p).toOption

/-- What a path leads to. -/
def find? (t : FileTree) (p : Path) : Option Entry :=
  (t.locate p).bind t.entry?

/-- Whether a path leads to something. -/
def has (t : FileTree) (p : Path) : Bool :=
  (t.find? p).isSome

/-- What a path leads to, for one who asks. Names that are too long are an error. -/
def probe (t : FileTree) (p : Path) : Except FileError (Option Entry) :=
  match t.seek p with
  | .error .nameTooLong => .error (.nameTooLong p.text)
  | .error _ => .ok none
  | .ok names => .ok (t.entry? names)

/-- Whether a path leads to a folder, for one who asks. -/
def probeFolder (t : FileTree) (p : Path) : Except FileError Bool :=
  (t.probe p).map fun found => found matches some .folder

/-- Whether a path leads to a folder. -/
def isFolder (t : FileTree) (p : Path) : Bool :=
  match t.find? p with
  | some .folder => true
  | _ => false

/-- Whether a path leads to a file. -/
def isFile (t : FileTree) (p : Path) : Bool :=
  match t.find? p with
  | some (.file _) => true
  | _ => false

/-- The names under which a new file at a path is kept, if the folder for it is there and its
name is not too long. -/
def place (t : FileTree) (p : Path) : Option (List String) :=
  match t.seek p with
  | .ok names => some names
  | .error .missing => (t.locate p.parent).map (· ++ [p.name])
  | .error _ => none

/-- Puts a file at a path, if the folder for it is there. -/
def putFile (t : FileTree) (p : Path) (content : Content) : FileTree :=
  match t.place p with
  | some names => { t with entries := t.entries.put names (.file content) }
  | none => t

/-- Puts a file at a path and makes the folders above it. -/
def plant (t : FileTree) (p : Path) (content : Content) : FileTree :=
  let names := p.absolute t.workFolder
  let t := t.withFolder names.dropLast
  { t with entries := t.entries.put names (.file content) }

/-- Makes the folder at a path and the folders above it. -/
def plantFolder (t : FileTree) (p : Path) : FileTree :=
  t.withFolder (p.absolute t.workFolder)

/-- Takes what a path leads to away, with everything below it. -/
def remove (t : FileTree) (p : Path) : FileTree :=
  match t.locate p with
  | some names =>
    { t with entries := ⟨t.entries.entries.filter fun (other, _) => !names.isPrefixOf other⟩ }
  | none => t

/-! ## Reading -/

/-- The text of some bytes, if they are well formed. Every kind of line end becomes a line
feed. -/
def decode (data : ByteArray) : Option String :=
  (String.fromUTF8? data).map fun s => String.ofList (Text.unifyNewlines s.toList)

/-- The text of the file at a path. -/
def readText (t : FileTree) (p : Path) : Option String :=
  match t.find? p with
  | some (.file (.bytes data)) => decode data
  | _ => none

/-! ## Listing -/

/-- The names below a folder of everything in it: in the folder itself, or at any depth. -/
def below (t : FileTree) (folder : List String) (deep : Bool) : List (List String) :=
  (t.entries.keys.filter fun names =>
    folder.isPrefixOf names && folder.length < names.length &&
      (deep || names.length == folder.length + 1)).map (·.drop folder.length)

/-- The paths of the files in a folder, name by name in order. -/
def filesIn (t : FileTree) (p : Path) (deep : Bool) : List Path :=
  match t.locate p with
  | some folder =>
    if t.hasFolder folder then
      (((t.below folder deep).mergeSort Path.namesInOrder).map p.append).filter t.isFile
    else []
  | none => []

/-! ## Writing -/

/-- The tree with a new folder at a path. The folder above it is there, and nothing else is in
its place. -/
def makeFolder (t : FileTree) (p : Path) : Except FileError FileTree :=
  match t.seek p with
  | .ok _ => .error (.occupied p.text)
  | .error .missing =>
    match t.seek p.parent with
    | .ok folder => .ok { t with entries := t.entries.put (folder ++ [p.name]) .folder }
    | .error _ => .error (.missing p.text)
  | .error o => .error (o.error p)

/-- Makes the folder at a path, unless it is there. -/
def makeFolderOnce (p : Path) : FileAction FileError Unit := do
  let t ← get
  match t.makeFolder p with
  | .ok t => set t
  | .error e => if t.isFolder p then pure () else throw e

/-- Makes the folder at a path, and as many missing folders above it as are named. What was made
stays when a folder cannot be made. -/
def ensureFolders : (count : Nat) → Path → FileAction FileError Unit
  | 0, p => makeFolderOnce p
  | count + 1, p => do
    match (← get).makeFolder p with
    | .error (.missing _) =>
      ensureFolders count p.parent
      makeFolderOnce p
    | _ => makeFolderOnce p

/-- Makes the folder at a path and the missing folders above it. -/
def ensureFolder (p : Path) : FileAction FileError Unit :=
  ensureFolders p.names.length p

/-- Puts a file at a path. The folder for it is there. -/
def writeFile (p : Path) (content : Content) : FileAction FileError Unit := do
  let t ← get
  match t.seek p with
  | .ok _ => if t.isFolder p then throw (.isFolder p.text) else set (t.putFile p content)
  | .error .missing => if t.isFolder p.parent then set (t.putFile p content) else throw (.missing p.text)
  | .error o => throw (o.error p)

/-- Puts a file at a path, where a file may be or not. The folders above it are made. -/
def write (p : Path) (content : Content) : FileAction FileError Unit := do
  ensureFolder p.parent
  writeFile p content

/-- Writes a text to a file. -/
def writeText (p : Path) (text : String) : FileAction FileError Unit :=
  write p (.bytes text.toUTF8)

/-- Takes a file away, if there is one. -/
def removeFile (p : Path) : FileAction FileError Unit := do
  let t ← get
  match t.seek p with
  | .ok _ => if t.isFolder p then throw (.isFolder p.text) else set (t.remove p)
  | .error .missing => pure ()
  | .error o => throw (o.error p)

end FileTree
end CallAtlas
