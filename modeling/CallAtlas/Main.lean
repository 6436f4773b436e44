import CallAtlas.CommandLine.Run
import CallAtlas.Files.Bytes
import CallAtlas.Settings.VariableFile

/-!
# The program

The program reads the files below the folder it works in and the variables of its
settings, runs the command of its command line on them, shows what the command says,
and writes the files that the command made or changed.
-/

namespace CallAtlas.Program

/-- The file that gives variables which are not set. -/
def variableFile : Path := .ofString ".env"

/-- A tree with the files and folders of a folder on the disk, whose names from the working
folder are given. Files that cannot be read are left out. -/
partial def readEntries (names : List String) (entries : Array IO.FS.DirEntry) (t : FileTree) :
    IO FileTree :=
  entries.foldlM (fun t entry => do
    let names := names ++ [entry.fileName]
    let path : Path := { names := names }
    if ← entry.path.isDir then
      readEntries names (← entry.path.readDir) (t.plantFolder path)
    else
      try return t.plant path (.ofBytes (← IO.FS.readBinFile entry.path))
      catch _ => return t) t

/-- The files below the folder that the program works in. -/
def readFiles : IO FileTree := do
  let folder ← IO.currentDir
  let names := folder.components.filter (· != "")
  readEntries [] (← folder.readDir) (.atFolder names)

/-- The variables that are set. -/
def readVariables (t : FileTree) : IO Variables := do
  let set ← Settings.variableNames.foldlM (fun vars name => do
    return match ← IO.getEnv name with
      | some value => vars.put name value
      | none => vars) Table.empty
  match t.readText variableFile with
  | some text =>
    match VariableFile.extend set text with
    | .ok vars => return vars
    | .error e => throw (IO.userError e.message)
  | none => return set

/-- Whether two entries hold the same. -/
def sameEntry : Option Entry → Entry → Bool
  | some (.file a), .file b => a.toBytes == b.toBytes
  | some .folder, .folder => true
  | _, _ => false

/-- Writes the files and folders of a tree that are not in another one. -/
def writeFiles (before after : FileTree) : IO Unit :=
  after.entries.entries.forM fun (names, entry) => do
    let path : Path := { slashes := 1, names := names }
    if !sameEntry (before.entry? names) entry then
      match entry with
      | .folder => IO.FS.createDirAll path.text
      | .file content => IO.FS.writeBinFile path.text content.toBytes

/-- Shows how a program ended, and gives its exit code. -/
def conclude : CommandLine.Ending → IO UInt32
  | .finished transcript => do
    IO.print transcript.output
    return transcript.exitCode.toUInt32
  | .refused error => do
    IO.eprintln error.line
    return 2
  | .unsettled cause => do
    IO.eprintln cause.message
    return 1

end CallAtlas.Program

/-- Runs the program on the words of its command line. -/
def main (words : List String) : IO UInt32 := do
  let before ← CallAtlas.Program.readFiles
  let vars ← CallAtlas.Program.readVariables before
  let run := (CallAtlas.CommandLine.run vars words).run before
  let (ending, after) := run.value
  (CallAtlas.CommandLine.shownNotices words run.notices).forM fun notice =>
    IO.eprintln notice.line
  CallAtlas.Program.writeFiles before after
  CallAtlas.Program.conclude ending
