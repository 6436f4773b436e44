/-!
# Lines

A text is cut into lines at any of the ten line-breaking characters, a carriage
return with its line feed counting once. Positions in a source text are told by
line feeds alone.
-/

namespace CallAtlas.Text

/-- A character that ends a line. -/
def isLineBreak (c : Char) : Bool :=
  c == '\n' || c == '\r' || c == '\x0b' || c == '\x0c' || c == '\x1c' || c == '\x1d' ||
    c == '\x1e' || c == '\x85' || c == '\u2028' || c == '\u2029'

/-- The lines of a text whose first line already holds `line`, read backwards. -/
def linesFrom (line : List Char) : List Char → List (List Char)
  | [] => if line.isEmpty then [] else [line.reverse]
  | '\r' :: '\n' :: s => line.reverse :: linesFrom [] s
  | c :: s => if isLineBreak c then line.reverse :: linesFrom [] s else linesFrom (c :: line) s

/-- The lines of a text, without their breaks. A break at the end opens no further line. -/
def lines (s : List Char) : List (List Char) :=
  linesFrom [] s

/-- A text in which every line ends in a line feed, whatever ended it among carriage
return, line feed, or both in this order. -/
def unifyNewlines : List Char → List Char
  | [] => []
  | '\r' :: '\n' :: s => '\n' :: unifyNewlines s
  | '\r' :: s => '\n' :: unifyNewlines s
  | c :: s => c :: unifyNewlines s

/-- The number of the line on which the text after `before` starts. Lines count from one. -/
def lineAfter (before : List Char) : Nat :=
  before.count '\n' + 1

/-- The number of the line that holds an offset. -/
def lineOf (s : List Char) (offset : Nat) : Nat :=
  lineAfter (s.take offset)

end CallAtlas.Text
