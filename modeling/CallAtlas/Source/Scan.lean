import CallAtlas.Source.Literal
import CallAtlas.Text.Blank
import CallAtlas.Text.Word

/-!
# Scanning a source text

A scanner reads from the start of a text and leaves what remains, or fails and
reads nothing. `occurrences` runs one along a whole text and lists, from left to
right, the places where it reads something, each starting after the end of the
one before.
-/

namespace CallAtlas.Source

/-- Reads from the start of a text. -/
abbrev Scan := StateT (List Char) Option

namespace Scan

/-- Reads a given text. -/
def literal (word : List Char) : Scan Unit := fun s =>
  if word.isPrefixOf s then some ((), s.drop word.length) else none

/-- Reads a keyword, without regard to what follows it. -/
def keyword (word : String) : Scan Unit :=
  literal word.toList

/-- Reads any blanks. -/
def blanks : Scan Unit := fun s =>
  some ((), Text.dropBlanks s)

/-- Reads one blank at least. -/
def someBlanks : Scan Unit := fun s =>
  if s.head?.any Text.isBlank then some ((), Text.dropBlanks s) else none

/-- Reads the longest run of a class of characters, which may be empty. -/
def run (p : Char → Bool) : Scan (List Char) := fun s =>
  some (s.takeWhile p, s.dropWhile p)

/-- Reads the longest run of a class of characters, one at least. -/
def someRun (p : Char → Bool) : Scan (List Char) := fun s =>
  if s.head?.any p then some (s.takeWhile p, s.dropWhile p) else none

/-- Reads one character of a class. -/
def char (p : Char → Bool) : Scan Char
  | [] => none
  | c :: s => if p c then some (c, s) else none

/-- Reads a quote. -/
def quote : Scan Char :=
  char isQuote

/-- Reads a name. -/
def name : Scan (List Char) :=
  someRun Text.isNameChar

/-- Reads what a scanner reads, or nothing. -/
def optional {α : Type} (p : Scan α) : Scan (Option α) :=
  (some <$> p) <|> pure none

/-- Whether a scanner reads something. -/
def succeeds {α : Type} (p : Scan α) : Scan Bool :=
  (p *> pure true) <|> pure false

/-- Succeeds where a word may start: after no character or one that is no word character. -/
def wordStart (before : Option Char) : Scan Unit :=
  if before.any Text.isWord then failure else pure ()

/-- Succeeds where a word may end. -/
def wordEnd : Scan Unit := fun s =>
  if s.head?.any Text.isWord then none else some ((), s)

end Scan

/-- A place in a text where a scanner reads something. -/
structure Occurrence (α : Type) where
  /-- The text before it, read backwards. -/
  before : List Char
  /-- What the scanner returns. -/
  value : α
  /-- The text that it reads. -/
  text : List Char
  /-- The text after it. -/
  rest : List Char

/-- The offset at which an occurrence starts. -/
def Occurrence.offset {α : Type} (o : Occurrence α) : Nat :=
  o.before.length

/-- The occurrences of a scanner in a text that follows `before`, read backwards. The
scanner is told the character before its start, and reading nothing is no occurrence. -/
def occurrencesFrom {α : Type} (p : Option Char → Scan α) (before : List Char) :
    List Char → List (Occurrence α)
  | [] => []
  | c :: s =>
    match p before.head? (c :: s) with
    | some (value, rest) =>
      let left := rest.length
      let whole := s.length + 1
      if _shorter : left < whole then
        let text := (c :: s).take (whole - left)
        ⟨before, value, text, rest⟩ :: occurrencesFrom p (text.reverse ++ before) rest
      else occurrencesFrom p (c :: before) s
    | none => occurrencesFrom p (c :: before) s
termination_by s => s.length
decreasing_by
  · assumption
  all_goals simp only [List.length_cons, Nat.lt_add_one]

/-- The occurrences of a scanner in a text, from left to right. -/
def occurrences {α : Type} (p : Option Char → Scan α) (s : List Char) : List (Occurrence α) :=
  occurrencesFrom p [] s

end CallAtlas.Source
