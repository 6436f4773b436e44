import CallAtlas.Numeral
import CallAtlas.Text.Quoted

/-!
# Flags of a command line

The words of a command line are flags, the values of flags, and operands. A flag may
be shortened as long as only one flag starts so, and a value may follow it after an
equals sign. Words that belong to nothing are left over and handed back.
-/

namespace CallAtlas.CommandLine

/-- How many values a flag takes. -/
inductive Arity
  | none
  | one
  | many
deriving Repr, DecidableEq

/-- A flag. -/
structure Flag where
  /-- The names, the first of which is the key of its values. -/
  names : List String
  arity : Arity := .one
  isInteger : Bool := false
  isRequired : Bool := false
deriving Repr, DecidableEq

/-- All names of a flag together. -/
def Flag.title (f : Flag) : String :=
  String.intercalate "/" f.names

/-- The key of the values of a flag. -/
def Flag.key (f : Flag) : String :=
  f.names.head?.getD ""

/-- Why a command line is refused. -/
inductive UsageFault
  | ambiguous (word : String) (names : List String)
  | valueMissing (flag : Flag)
  | valueIgnored (flag : Flag) (value : String)
  | notInteger (flag : Flag) (value : String)
  | excluded (flag other : Flag)
  | missing (titles : List String)
  | noneOf (titles : List String)
  | unknownCommand (word : String) (commands : List String)
  | unrecognized (words : List String)
deriving Repr, DecidableEq

/-- A text in quotes, as messages show it. -/
def shown (s : String) : String :=
  String.ofList (Text.quoted s.toList)

/-- The wording of a refusal. -/
def UsageFault.message : UsageFault → String
  | ambiguous word names =>
    "ambiguous option: " ++ word ++ " could match " ++ String.intercalate ", " names
  | valueMissing flag =>
    "argument " ++ flag.title ++ ": expected " ++
      (if flag.arity = .many then "at least one argument" else "one argument")
  | valueIgnored flag value =>
    "argument " ++ flag.title ++ ": ignored explicit argument " ++ shown value
  | notInteger flag value => "argument " ++ flag.title ++ ": invalid int value: " ++ shown value
  | excluded flag other => "argument " ++ flag.title ++ ": not allowed with argument " ++ other.title
  | missing titles => "the following arguments are required: " ++ String.intercalate ", " titles
  | noneOf titles => "one of the arguments " ++ String.intercalate " " titles ++ " is required"
  | unknownCommand word commands =>
    "argument command: invalid choice: " ++ shown word ++ " (choose from " ++
      String.intercalate ", " (commands.map shown) ++ ")"
  | unrecognized words => "unrecognized arguments: " ++ String.intercalate " " words

/-- A refusal with the program that gives it. -/
structure UsageError where
  program : String
  fault : UsageFault
deriving Repr, DecidableEq

/-- A refusal as one line. -/
def UsageError.line (e : UsageError) : String :=
  e.program ++ ": error: " ++ e.fault.message

/-- The flags of a program. -/
structure Grammar where
  program : String
  flags : List Flag
  /-- Flags of which exactly one is given. -/
  alternatives : List Flag := []
deriving Repr

namespace Grammar

/-- The names of all flags with their flags. -/
def names (g : Grammar) : List (String × Flag) :=
  g.flags.flatMap fun f => f.names.map fun n => (n, f)

/-- Refuses a command line. -/
def refuse {α : Type} (g : Grammar) (fault : UsageFault) : Except UsageError α :=
  .error ⟨g.program, fault⟩

end Grammar

/-! ## Words -/

/-- What a word of a command line is. -/
inductive Word
  | operand
  /-- Two dashes: all words after it are operands. -/
  | separator
  /-- A flag by one of its names, and the text that is joined to it. -/
  | flag (f : Flag) (name : String) (attached : Option (List Char))
  /-- It looks like a flag, but there is none of that name. -/
  | unknown
deriving Repr, DecidableEq

/-- Whether a text is a negative number. One line feed after it does not count. -/
def isNegativeNumber (s : List Char) : Bool :=
  match s with
  | '-' :: s =>
    let s := if s.getLast? == some '\n' then s.dropLast else s
    let rest := s.dropWhile Text.isDecimal
    match rest with
    | [] => !s.isEmpty
    | '.' :: digits => !digits.isEmpty && digits.all Text.isDecimal
    | _ => false
  | _ => false

/-- The part of a word before its first equals sign and what follows the sign. -/
def cutEquals (s : List Char) : List Char × Option (List Char) :=
  match s.dropWhile (· != '=') with
  | _ :: after => (s.takeWhile (· != '='), some after)
  | [] => (s, none)

/-- The flags that a shortened word can mean. -/
def matching (g : Grammar) (s : List Char) : List (String × Flag × Option (List Char)) :=
  if "--".toList.isPrefixOf s then
    let (start, attached) := cutEquals s
    (g.names.filter fun (name, _) => start.isPrefixOf name.toList).map
      fun (name, f) => (name, f, attached)
  else
    g.names.filterMap fun (name, f) =>
      if name.toList == s.take 2 then some (name, f, some (s.drop 2))
      else if s.isPrefixOf name.toList then some (name, f, none)
      else none

/-- What a word is. -/
def classify (g : Grammar) (word : String) : Except UsageError Word :=
  let s := word.toList
  let (start, attached) := cutEquals s
  if s.head? != some '-' then .ok .operand
  else match g.names.lookup word with
    | some f => .ok (.flag f word none)
    | none =>
      if s.length == 1 then .ok .operand
      else match attached, g.names.lookup (String.ofList start) with
        | some _, some f => .ok (.flag f (String.ofList start) attached)
        | _, _ =>
          match matching g s with
          | [(name, f, attached)] => .ok (.flag f name attached)
          | [] =>
            if isNegativeNumber s || s.contains ' ' then .ok .operand else .ok .unknown
          | several => g.refuse (.ambiguous word (several.map Prod.fst))

/-- All words with what they are. -/
def classifyAll (g : Grammar) : List String → Except UsageError (List (String × Word))
  | [] => .ok []
  | "--" :: words => .ok (("--", .separator) :: words.map (·, .operand))
  | word :: words => do
    let kind ← classify g word
    return (word, kind) :: (← classifyAll g words)

/-! ## Reading -/

/-- What was read from a command line. -/
structure Matched where
  /-- The flags that were given, with their values. -/
  given : List (Flag × List String) := []
  /-- The words that belong to nothing. -/
  leftOver : List String := []
  /-- The first operand and all words after it, where that is a command. -/
  command : List String := []
deriving Repr

namespace Matched

/-- The values last given to a flag. -/
def values? (m : Matched) (key : String) : Option (List String) :=
  (m.given.reverse.find? (·.1.key == key)).map Prod.snd

/-- The value last given to a flag. -/
def value? (m : Matched) (key : String) : Option String :=
  (m.values? key).bind List.head?

/-- Whether a flag was given. -/
def has (m : Matched) (key : String) : Bool :=
  m.given.any (·.1.key == key)

/-- Leaves words over. -/
def leave (m : Matched) (words : List String) : Matched :=
  { m with leftOver := m.leftOver ++ words }

end Matched

/-- Gives a flag its values. Values of integer flags are integers, and of alternatives only one
is given. -/
def give (g : Grammar) (m : Matched) (f : Flag) (values : List String) :
    Except UsageError Matched :=
  let wrong := values.find? fun v => f.isInteger && (Numeral.readInt v.toList).toOption.isNone
  let rival := g.alternatives.find? fun other =>
    g.alternatives.contains f && other != f && m.has other.key
  match wrong, rival with
  | some v, _ => g.refuse (.notInteger f v)
  | none, some other => g.refuse (.excluded f other)
  | none, none => .ok { m with given := m.given ++ [(f, values)] }

/-- Flags that are given by one word. -/
structure Cluster where
  /-- Flags without values. -/
  before : List Flag
  last : Flag
  /-- The value of the last flag, where the word gives it. -/
  value : Option String

/-- The flags of a word, from a flag and the text that is joined to it. A flag takes the text as
its value; one that takes none, and has one letter, may be followed by letters of further ones. -/
def clusterOf (g : Grammar) (f : Flag) (name : String) : List Char → Except UsageError Cluster
  | [] =>
    if f.arity = .none then g.refuse (.valueIgnored f "") else .ok ⟨[], f, some ""⟩
  | c :: s =>
    if f.arity != .none then .ok ⟨[], f, some (String.ofList (c :: s))⟩
    else if "--".toList.isPrefixOf name.toList then
      g.refuse (.valueIgnored f (String.ofList (c :: s)))
    else
      let next := String.ofList ['-', c]
      match g.names.lookup next with
      | none => g.refuse (.valueIgnored f (String.ofList (c :: s)))
      | some other =>
        if s.isEmpty then .ok ⟨[f], other, none⟩
        else (clusterOf g other next s).map fun k => { k with before := f :: k.before }

/-- How many of the words after a flag are its values, none if there are too few. -/
def valuesAfter (f : Flag) (rest : List (String × Word)) : Option Nat :=
  let operands := (rest.takeWhile (·.2 == .operand)).length
  match f.arity with
  | .none => some 0
  | .one => if operands = 0 then none else some 1
  | .many => if operands = 0 then none else some operands

/-- Reads words. With `findsCommand` the first operand ends the reading and starts a command;
otherwise operands are left over. -/
def readWords (g : Grammar) (findsCommand : Bool) :
    List (String × Word) → Matched → Except UsageError Matched
  | [], m => .ok m
  | (word, kind) :: rest, m =>
    match kind with
    | .unknown => readWords g findsCommand rest (m.leave [word])
    | .operand =>
      if findsCommand then .ok { m with command := word :: rest.map Prod.fst }
      else readWords g findsCommand rest (m.leave [word])
    | .separator =>
      if findsCommand && !rest.isEmpty then .ok { m with command := word :: rest.map Prod.fst }
      else readWords g findsCommand rest (m.leave [word])
    | .flag f name attached => do
      let k ← match attached with
        | some text => clusterOf g f name text
        | none => pure ⟨[], f, none⟩
      let (n, values) ← match k.value, valuesAfter k.last rest with
        | some v, _ => pure (0, [v])
        | none, some n => pure (n, (rest.take n).map Prod.fst)
        | none, none => g.refuse (.valueMissing k.last)
      let m ← k.before.foldlM (fun m f => give g m f []) m
      readWords g findsCommand (rest.drop n) (← give g m k.last values)
  termination_by words => words.length
  decreasing_by
    all_goals simp only [List.length_cons, List.length_drop]
    all_goals omega

/-- Refuses a reading that lacks required flags. -/
def checkRequired (g : Grammar) (m : Matched) (further : List String) : Except UsageError Unit :=
  let lacking := g.flags.filter fun f => f.isRequired && !m.has f.key
  let titles := lacking.map Flag.title ++ further
  if !titles.isEmpty then g.refuse (.missing titles)
  else if !g.alternatives.isEmpty && !g.alternatives.any (m.has ·.key) then
    g.refuse (.noneOf (g.alternatives.map Flag.title))
  else .ok ()

end CallAtlas.CommandLine
