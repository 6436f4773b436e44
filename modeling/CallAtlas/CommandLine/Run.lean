import CallAtlas.Analysis
import CallAtlas.CommandLine.Command
import CallAtlas.Service

/-!
# Running commands

A command reads and changes files, writes to its output, reports, and ends with an
exit code. Failures are reported as errors and give the exit code one.
-/

namespace CallAtlas.CommandLine

/-- An action of a command. -/
abbrev Action (α : Type) := StateT FileTree Report α

/-- What a command wrote, and its exit code. -/
structure Transcript where
  output : String := ""
  exitCode : Nat := 0
deriving Repr, DecidableEq

/-- How a program ends. -/
inductive Ending
  | finished (transcript : Transcript)
  /-- The command line is refused. -/
  | refused (error : UsageError)
  /-- The settings cannot be read. -/
  | unsettled (cause : NumeralError)

/-- A text with a line break at its end. -/
def outputLine (s : String) : String :=
  s ++ "\n"

/-- Each text on a line of its own. -/
def outputLines (texts : List String) : String :=
  String.join (texts.map outputLine)

/-- Gives a notice. -/
def report (n : Notice) : Action Unit :=
  StateT.lift (Report.note n)

/-- Reports why a command failed. -/
def reportFailure (command : Command) (e : Failure) : Action Unit :=
  match e with
  | .analysis (.storeUnavailable wording _) => report (.storeFailed wording)
  | e => report (.commandFailed command.name e.message)

/-- The end of a failed command that wrote some output. -/
def failed (output : String) : Transcript :=
  ⟨output, 1⟩

/-! ## Analyses -/

/-- Why there is no repository to analyse. -/
inductive SubjectError
  | notice (n : Notice)
  | failure (wording : String)

/-- The error of a description that is refused. -/
def SubjectError.ofDescription : DescriptionError → SubjectError
  | .unreadable .malformed | .unreadable .unclosed => .notice .configurationMalformed
  | .invalid _ => .notice .configurationInvalid
  | e => .failure e.message

/-- What a path leads to, or the error of asking. -/
def found (t : FileTree) (p : Path) : Except SubjectError (Option Entry) :=
  (t.probe p).mapError fun e => .failure e.message

/-- The repository that an analysis is about. -/
def repositoryOf (t : FileTree) : Subject → Except SubjectError Repository
  | .folder path => do
    match ← found t path with
    | some .folder => return .ofFolder t.workFolder path ""
    | _ => throw (.notice (.folderMissing path.text))
  | .configuration file => do
    match ← found t file with
    | none => throw (.notice (.configurationMissing file.text))
    | some .folder => throw (.failure (FileError.isFolder file.text).message)
    | some (.file (.database _)) => throw (.notice .configurationMalformed)
    | some (.file (.bytes data)) =>
      (Repository.ofDelivery (Text.deliver data)).mapError .ofDescription

/-- What is written before an analysis. -/
def heading (settings : Settings) (r : Repository) : String :=
  outputLines
    ["Analysing " ++ r.id ++ "...", "  Database: " ++ (Analysis.storePath settings r).text,
      "  Sources: " ++ toString r.sources.length]

/-- What is written after an analysis. -/
def summary (s : Statistics) : String :=
  let count (n : Nat) (what : String) := toString n ++ " " ++ what
  outputLine ("Done. " ++ count s.modules "modules, " ++ count s.functions "functions, " ++
    count s.calls "invocations (" ++ count s.unresolved "unresolved)")

/-- Analyses sources. A store that was named on the command line goes before that of the
repository. -/
def runInit (settings : Settings) (store : Option Path) (subject : Subject) : Action Transcript := do
  let command := Command.init subject
  match repositoryOf (← get) subject with
  | .error (.notice n) =>
    report n
    return failed ""
  | .error (.failure wording) =>
    report (.commandFailed command.name wording)
    return failed ""
  | .ok r =>
    let r := { r with storePath := store.or r.storePath }
    let before := heading settings r
    match ← (Analysis.run settings r).run with
    | .ok (statistics, _) => return ⟨before ++ summary statistics, 0⟩
    | .error e =>
      reportFailure command e
      return failed before

/-! ## Queries -/

/-- The answer to a query to a new service. -/
def ask {α : Type} (settings : Settings) (query : Query α) : Action (Except Failure α) := do
  let (answer, _) ← StateT.lift (query.run.run { settings := settings })
  return answer

/-- Writes a text to a file if one is named, else to the output. -/
def emit (command : Command) (text : String) (output : Option Path) : Action Transcript := do
  match output with
  | none => return ⟨text, 0⟩
  | some file =>
    match ← (FileTree.writeText file text).run with
    | .ok () => return ⟨outputLine ("Written to " ++ file.text), 0⟩
    | .error e =>
      reportFailure command (.file e)
      return failed ""

/-- Answers a query that fails as any command does. -/
def answer {α : Type} (settings : Settings) (command : Command) (query : Query α)
    (present : α → Action Transcript) : Action Transcript := do
  match ← ask settings query with
  | .ok a => present a
  | .error (.analysis e@(.functionAbsent _ _ available)) =>
    report (.functionMissing e.message)
    if available.isEmpty then return failed ""
    else return failed (outputLine "Available functions:" ++ outputLines (available.map ("  " ++ ·)))
  | .error e =>
    reportFailure command e
    return failed ""

/-- Runs a command. -/
def runCommand (settings : Settings) (store : Option Path) (command : Command) :
    Action Transcript := do
  let t ← get
  match command with
  | .init subject => runInit settings store subject
  | .modules fragment =>
    answer settings command (Service.modules t fragment) fun paths =>
      return ⟨outputLines paths, 0⟩
  | .functions modules =>
    answer settings command (Service.functions t modules) fun refs =>
      return ⟨outputLines (refs.map fun f => f.path ++ "\t" ++ f.function), 0⟩
  | .stack path function bound output asData =>
    answer settings command (Service.callTree t path function bound) fun tree =>
      emit command (if asData then outputLine tree.toDatum.print else tree.toSheet.write) output
  | .graph connectedOnly output =>
    answer settings command (Service.moduleGraph t connectedOnly) fun graph =>
      emit command graph.toSheet.write output

/-- The explanation of the flags of a program. -/
def helpText (g : Grammar) : String :=
  outputLine ("usage: " ++ g.program ++ " " ++
    String.intercalate " " (g.flags.map fun f => "[" ++ f.title ++ "]"))

/-- Runs a program on the words of its command line, with the settings that variables give. -/
def run (vars : Variables) (words : List String) : Action Ending := do
  match readRequest words with
  | .error e => return .refused e
  | .ok (.help g) => return .finished ⟨helpText g, 0⟩
  | .ok (.run store _ command) =>
    match Settings.ofVariables vars with
    | .error e => return .unsettled e
    | .ok settings =>
      let named := (store.map Path.text).getD settings.storePath
      return .finished (← runCommand { settings with storePath := named } store command)

/-- The notices that a program shows: those for its users, or all of them if asked to. -/
def shownNotices (words : List String) (notices : List Notice) : List Notice :=
  match readRequest words with
  | .ok (.run _ true _) => notices
  | _ => notices.filter (·.level != .debug)

end CallAtlas.CommandLine
