/-!
# A place in a text

Block structure depends on lines and columns, so reading keeps count of them. A
cursor is the text that is still to be read and where it starts.
-/

namespace CallAtlas.Yaml

/-- Whether a character breaks a line. -/
def isBreak (c : Char) : Bool :=
  c == '\n' || c == '\r' || c == '\x85' || c == '\u2028' || c == '\u2029'

/-- Whether a character is a space or a tab. -/
def isInset (c : Char) : Bool :=
  c == ' ' || c == '\t'

/-- Whether a character separates words. -/
def isGap (c : Char) : Bool :=
  isInset c || isBreak c

/-- The text that is still to be read, with the place where it starts. -/
structure Cursor where
  rest : List Char
  index : Nat := 0
  line : Nat := 0
  column : Nat := 0
deriving Repr

namespace Cursor

/-- The next character. -/
def head? (k : Cursor) : Option Char :=
  k.rest.head?

/-- Whether the text ends here. -/
def atEnd (k : Cursor) : Bool :=
  k.rest.isEmpty

/-- Whether the next character passes a test. -/
def sees (k : Cursor) (test : Char → Bool) : Bool :=
  k.rest.head?.any test

/-- Whether a gap or the end of the text comes after some characters. -/
def gapAfter (k : Cursor) (n : Nat) : Bool :=
  (k.rest[n]?).all isGap

/-- The place after the next character. A byte order mark takes no column. -/
def advance (k : Cursor) : Cursor :=
  match k.rest with
  | [] => k
  | c :: rest =>
    if isBreak c then ⟨rest, k.index + 1, k.line + 1, 0⟩
    else ⟨rest, k.index + 1, k.line, if c == '\ufeff' then k.column else k.column + 1⟩

/-- The place after some characters. -/
def skip : Nat → Cursor → Cursor
  | 0, k => k
  | n + 1, k => skip n k.advance

/-- The longest run of characters that pass a test, and the place after it. -/
def run (k : Cursor) (test : Char → Bool) : List Char × Cursor :=
  let found := k.rest.takeWhile test
  (found, k.skip found.length)

/-- The place after a run. -/
def past (k : Cursor) (test : Char → Bool) : Cursor :=
  (k.run test).2

/-- A line break as it counts in a text, and the place after it. Only the two Unicode breaks
stay as they are. -/
def lineBreak? (k : Cursor) : Option (List Char × Cursor) :=
  match k.head? with
  | some c =>
    if isBreak c then some ([if c == '\u2028' || c == '\u2029' then c else '\n'], k.advance)
    else none
  | none => none

/-- Whether a marker of three characters stands here, with a gap after it. -/
def atMarker (k : Cursor) (marker : String) : Bool :=
  marker.toList.isPrefixOf k.rest && k.gapAfter marker.length

/-- Whether a separator of documents stands here. -/
def atSeparator (k : Cursor) : Bool :=
  k.atMarker "---" || k.atMarker "..."

/-- The place after a comment, if one starts here. -/
def pastComment (k : Cursor) : Cursor :=
  if k.head? == some '#' then k.past (!isBreak ·) else k

end Cursor
end CallAtlas.Yaml
