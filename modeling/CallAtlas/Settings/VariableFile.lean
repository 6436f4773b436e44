import CallAtlas.Settings.Reference
import CallAtlas.Text.Lines

/-!
# Files of variables

One assignment a line: `NAME=value`. The word `export` may stand before it, blanks
around the equals sign do not count, and a number sign that starts a value or
follows a blank starts a comment. A value in quotes keeps its blanks and may run
over lines. A name alone takes an earlier value of it away. Lines of any other form
are left out. Values may refer to other variables.
-/

namespace CallAtlas.VariableFile

/-- Whether a character is a blank within a line. -/
def isInnerBlank (c : Char) : Bool :=
  Text.isBlank c && c != '\r' && c != '\n'

/-- Whether a character ends a line. -/
def isLineEnd (c : Char) : Bool :=
  c == '\r' || c == '\n'

/-- A text without the blanks at the start of its first line. -/
def skipInner (s : List Char) : List Char :=
  s.dropWhile isInnerBlank

/-- A text without the word `export` and the blanks after it. -/
def skipExport (s : List Char) : List Char :=
  let word := "export".toList
  let rest := s.drop word.length
  if word.isPrefixOf s && rest.head?.any isInnerBlank then skipInner rest else s

/-- What follows the rest of a line. -/
def skipLine (s : List Char) : List Char :=
  (s.dropWhile (!isLineEnd ·)).tail

/-- What is inside a quoted text and what follows it. A backslash keeps the character after it
inside, which is not a line feed. -/
def quotedText (quote : Char) : List Char → Option (List Char × List Char)
  | [] => none
  | '\\' :: c :: s =>
    if c == '\n' then none
    else (quotedText quote s).map fun (inside, rest) => ('\\' :: c :: inside, rest)
  | c :: s =>
    if c == quote then some ([], s)
    else (quotedText quote s).map fun (inside, rest) => (c :: inside, rest)

/-- The characters that letters after a backslash stand for. -/
def escapes : List (Char × Char) :=
  [('\\', '\\'), ('\'', '\''), ('"', '"'), ('a', '\x07'), ('b', '\x08'), ('f', '\x0c'),
    ('n', '\n'), ('r', '\r'), ('t', '\t'), ('v', '\x0b')]

/-- The escapes in single quotes: a backslash and the quote. -/
def plainEscapes : List (Char × Char) :=
  [('\\', '\\'), ('\'', '\'')]

/-- A text with its escapes replaced. -/
def unescape (table : List (Char × Char)) : List Char → List Char
  | '\\' :: c :: s =>
    match table.lookup c with
    | some d => d :: unescape table s
    | none => '\\' :: unescape table (c :: s)
  | c :: s => c :: unescape table s
  | [] => []

/-- A value without the comment that starts at a number sign after a blank. -/
def dropComment : List Char → List Char
  | [] => []
  | c :: s =>
    if Text.isBlank c && (Text.dropBlanks s).head? == some '#' then []
    else c :: dropComment s

/-- A value without its comment, which may also take all of it. -/
def uncommented (line : List Char) : List Char :=
  if line.head? == some '#' then [] else dropComment line

/-- A value and what follows it. -/
def readValue (s : List Char) : Option (List Char × List Char) :=
  match s with
  | '\'' :: s => (quotedText '\'' s).map fun (inside, rest) => (unescape plainEscapes inside, rest)
  | '"' :: s => (quotedText '"' s).map fun (inside, rest) => (unescape escapes inside, rest)
  | s =>
    let line := s.takeWhile (!isLineEnd ·)
    some (Text.dropBlanksEnd (uncommented line), s.dropWhile (!isLineEnd ·))

/-- A name and what follows it. -/
def readName (s : List Char) : Option (List Char × List Char) :=
  match s with
  | '\'' :: s =>
    let name := s.takeWhile (· != '\'')
    match s.dropWhile (· != '\'') with
    | _ :: rest => if name.isEmpty then none else some (name, rest)
    | [] => none
  | s =>
    let isPart := fun c => c != '=' && c != '#' && !Text.isBlank c
    let name := s.takeWhile isPart
    if name.isEmpty then none else some (name, s.dropWhile isPart)

/-- What follows the comment and the end of a line, if nothing else is there. -/
def endLine (s : List Char) : Option (List Char) :=
  let s := skipInner s
  let s := if s.head? == some '#' then s.dropWhile (!isLineEnd ·) else s
  match s with
  | [] => some []
  | c :: s => if isLineEnd c then some s else none

/-- A name with its value, if it has one. -/
structure Binding where
  name : String
  value : Option String
deriving Repr, DecidableEq

/-- A step of reading that, where it fails, leaves the text from there on. -/
def orStuck {α : Type} (s : List Char) : Option α → Except (List Char) α
  | some a => .ok a
  | none => .error s

/-- Reads one assignment. Where it fails, the text from there on is left. -/
def readBinding (s : List Char) : Except (List Char) (Binding × List Char) := do
  let s := skipExport s
  let (name, s) ← orStuck s (readName s)
  let s := skipInner s
  let (value, s) ←
    if s.head? == some '=' then
      let s := skipInner s.tail
      let (value, s) ← orStuck s (readValue s)
      pure (some (String.ofList value), s)
    else pure (none, s)
  let rest ← orStuck s (endLine s)
  return (⟨String.ofList name, value⟩, rest)

/-- The assignments of a file. Each takes at least one character, so the number of characters
bounds their number. Comments take a line of their own. -/
def bindings : (bound : Nat) → List Char → List Binding
  | 0, _ => []
  | bound + 1, s =>
    let s := Text.dropBlanks s
    if s.isEmpty then []
    else match readBinding s with
      | .ok (binding, rest) => binding :: bindings bound rest
      | .error rest => bindings bound (skipLine rest)

/-- A text without the byte order mark that it may start with. -/
def dropMark : List Char → List Char
  | '\ufeff' :: s => s
  | s => s

/-- Why a variable cannot be set. -/
inductive SettingError
  /-- A name has an equals sign. -/
  | illegalName
  /-- A name or a value has a null character. -/
  | nullInside
deriving Repr, DecidableEq

/-- The wording for a variable that cannot be set. -/
def SettingError.message : SettingError → String
  | illegalName => "illegal environment variable name"
  | nullInside => "embedded null byte"

/-- Sets a variable. -/
def set (vars : Variables) (name value : String) : Except SettingError Variables :=
  if name.contains '\x00' || value.contains '\x00' then .error .nullInside
  else if name.contains '=' then .error .illegalName
  else .ok (vars.put name value)

/-- The last value of each name in a file, with the values of the references in it. -/
def values (vars : Variables) (file : String) : Table String (Option String) :=
  let text := Text.unifyNewlines (dropMark file.toList)
  (bindings text.length text).foldl (fun given b =>
    let expanded := b.value.map fun v =>
      String.ofList (Reference.expand (Reference.resolve vars given) v.toList)
    given.put b.name expanded) .empty

/-- The variables that a file gives to those that are set. The last value of a name counts, and
a name that is set already keeps its value. -/
def extend (vars : Variables) (file : String) : Except SettingError Variables :=
  (values vars file).entries.foldlM
    (fun all (name, value) =>
      match value with
      | some value => if vars.contains name then .ok all else set all name value
      | none => .ok all)
    vars

end CallAtlas.VariableFile
