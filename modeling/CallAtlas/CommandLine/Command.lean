import CallAtlas.CommandLine.Flag
import CallAtlas.Files.Path

/-!
# Commands

What a command line asks for: to analyse sources, or to list or draw what a store
holds. Flags before the command hold for all commands.
-/

namespace CallAtlas.CommandLine

/-- The sources that an analysis is about. -/
inductive Subject
  /-- Those that a configuration file describes. -/
  | configuration (file : Path)
  /-- One folder. -/
  | folder (path : Path)
deriving Repr, DecidableEq

/-- A command. -/
inductive Command
  | init (subject : Subject)
  | modules (fragment : String)
  | functions (modules : List String)
  | stack (path function : String) (bound : Option Int) (output : Option Path) (asData : Bool)
  | graph (connectedOnly : Bool) (output : Option Path)
deriving Repr, DecidableEq

/-- The name of a command. -/
def Command.name : Command → String
  | init .. => "init"
  | modules .. => "modules"
  | functions .. => "functions"
  | stack .. => "stack"
  | graph .. => "graph"

/-- What a command line asks for. -/
inductive Request
  /-- An explanation of the flags of a program. -/
  | help (grammar : Grammar)
  /-- To run a command, with a store other than that of the settings if one is given. -/
  | run (store : Option Path) (isVerbose : Bool) (command : Command)
deriving Repr

/-! ## Grammars -/

/-- The name of the program. -/
def programName : String := "xqy-watcher"

/-- The flag that asks for an explanation. -/
def helpFlag : Flag := { names := ["-h", "--help"], arity := .none }

/-- The flag that asks for every notice. -/
def verboseFlag : Flag := { names := ["--verbose", "-v"], arity := .none }

/-- The flags before the command. -/
def mainGrammar : Grammar where
  program := programName
  flags := [helpFlag, { names := ["--db"] }, verboseFlag]

/-- The flag that names a configuration file. -/
def configurationFlag : Flag := { names := ["--config"] }

/-- The flag that names a folder. -/
def folderFlag : Flag := { names := ["--base-folder"] }

/-- The grammar of a command. -/
def commandGrammar (name : String) (flags : List Flag) (alternatives : List Flag) : Grammar :=
  { program := programName ++ " " ++ name
    flags := helpFlag :: flags
    alternatives := alternatives }

/-- The grammars of all commands by name. -/
def grammars : List (String × Grammar) :=
  [("init", [configurationFlag, folderFlag], [configurationFlag, folderFlag]),
    ("modules", [{ names := ["--match"] }], []),
    ("functions", [{ names := ["--module"], arity := .many }], []),
    ("stack",
      [{ names := ["--module"], isRequired := true }, { names := ["--function"], isRequired := true },
        { names := ["--max-nodes"], isInteger := true }, { names := ["--output"] },
        { names := ["--json"], arity := .none }], []),
    ("graph", [{ names := ["--remove-isolated"], arity := .none }, { names := ["--output"] }],
      [])].map
    fun (name, flags, alternatives) => (name, commandGrammar name flags alternatives)

/-! ## Reading a command line -/

/-- Whether an explanation was asked for. -/
def asksHelp (m : Matched) : Bool :=
  m.has helpFlag.key

/-- A path given to a flag. -/
def pathOf (m : Matched) (key : String) : Option Path :=
  (m.value? key).map Path.ofString

/-- An integer given to a flag. -/
def integerOf (m : Matched) (key : String) : Option Int :=
  (m.value? key).bind fun v => (Numeral.readInt v.toList).toOption

/-- A text given to a flag, empty if none was. -/
def textOf (m : Matched) (key : String) : String :=
  (m.value? key).getD ""

/-- The command of a name with the flags given to it. -/
def commandOf (name : String) (m : Matched) : Command :=
  match name with
  | "init" =>
    match pathOf m "--base-folder" with
    | some folder => .init (.folder folder)
    | none => .init (.configuration ((pathOf m "--config").getD {}))
  | "modules" => .modules (textOf m "--match")
  | "functions" => .functions ((m.values? "--module").getD [])
  | "stack" =>
    .stack (textOf m "--module") (textOf m "--function") (integerOf m "--max-nodes")
      (pathOf m "--output") (m.has "--json")
  | _ => .graph (m.has "--remove-isolated") (pathOf m "--output")

/-- Reads the words of a command line. Words that neither the program nor the command knows are
refused at the end, after everything that is wrong with the others. -/
def readRequest (words : List String) : Except UsageError Request := do
  let g := mainGrammar
  let main ← readWords g true (← classifyAll g words) {}
  if asksHelp main then return .help g
  match main.command with
  | [] => do
    checkRequired g main ["command"]
    return .help g
  | name :: rest =>
    match grammars.lookup name with
    | none => g.refuse (.unknownCommand name (grammars.map Prod.fst))
    | some sub => do
      let own ← readWords sub false (← classifyAll sub rest) {}
      if asksHelp own then return .help sub
      checkRequired sub own []
      let leftOver := main.leftOver ++ own.leftOver
      if leftOver.isEmpty then
        return .run (pathOf main "--db") (main.has verboseFlag.key) (commandOf name own)
      else g.refuse (.unrecognized leftOver)

end CallAtlas.CommandLine
