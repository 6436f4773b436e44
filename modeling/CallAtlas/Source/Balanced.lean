import CallAtlas.Source.Literal
import CallAtlas.Text.Blank

/-!
# Balanced delimiters

Bodies and argument lists nest to any depth. The walks of this module count
depth along a text and jump over literals, whose delimiters do not count.
-/

namespace CallAtlas.Source

/-! ## Matching delimiters -/

/-- The rest of a text from the delimiter on that closes depth `depth`. -/
def fromClosing? (isOpen isClose : Char → Bool) (depth : Nat) : List Char → Option (List Char)
  | [] => none
  | c :: s =>
    if isQuote c then fromClosing? isOpen isClose depth (cutLiteral c s).2
    else if isOpen c then fromClosing? isOpen isClose (depth + 1) s
    else if isClose c then
      match depth with
      | 0 => none
      | 1 => some (c :: s)
      | depth + 2 => fromClosing? isOpen isClose (depth + 1) s
    else fromClosing? isOpen isClose depth s
termination_by s => s.length
decreasing_by
  · have := length_cutLiteral_le c s
    simp only [List.length_cons]
    omega
  all_goals simp only [List.length_cons, Nat.lt_add_one]

/-- The offset of the delimiter that matches the opening one at an offset. -/
def findClosing? (isOpen isClose : Char → Bool) (s : List Char) (offset : Nat) : Option Nat :=
  match s.drop offset with
  | [] => none
  | c :: rest =>
    if isOpen c then
      (fromClosing? isOpen isClose 0 (c :: rest)).map fun found => s.length - found.length
    else none

/-- The text between a parenthesis just read and the one that closes it, and what follows
the latter. -/
def cutParenthesis? (s : List Char) : Option (List Char × List Char) :=
  (fromClosing? (· == '(') (· == ')') 1 s).map fun found =>
    (s.take (s.length - found.length), found.tail)

/-! ## Function bodies -/

/-- Whether the next character that is not blank is a semicolon. -/
def semicolonFollows (s : List Char) : Bool :=
  (Text.dropBlanks s).head? == some ';'

/-- The rest of a text from the brace on that ends a body open to depth `depth`. A brace
that closes the last one ends the body only before a semicolon; otherwise the walk goes on. -/
def fromBodyEnd? (depth : Nat) : List Char → Option (List Char)
  | [] => none
  | c :: s =>
    if isQuote c then fromBodyEnd? depth (cutLiteral c s).2
    else if c == '{' then fromBodyEnd? (depth + 1) s
    else if c == '}' then
      match depth with
      | 0 => none
      | 1 => if semicolonFollows s then some (c :: s) else fromBodyEnd? 0 s
      | depth + 2 => fromBodyEnd? (depth + 1) s
    else fromBodyEnd? depth s
termination_by s => s.length
decreasing_by
  · have := length_cutLiteral_le c s
    simp only [List.length_cons]
    omega
  all_goals simp only [List.length_cons, Nat.lt_add_one]

/-- The offset of the brace that ends the body opened at an offset. -/
def findBodyEnd? (s : List Char) (offset : Nat) : Option Nat :=
  match s.drop offset with
  | '{' :: rest => (fromBodyEnd? 0 ('{' :: rest)).map fun found => s.length - found.length
  | _ => none

/-! ## Lists of segments -/

/-- An opening bracket of any of the three kinds. -/
def isOpener (c : Char) : Bool :=
  c == '(' || c == '[' || c == '{'

/-- A closing bracket of any of the three kinds. -/
def isCloser (c : Char) : Bool :=
  c == ')' || c == ']' || c == '}'

/-- The pieces of a text between the separators outside all brackets and literals. `piece`
is the piece under way, read backwards. A closing bracket too many is ignored. -/
def piecesFrom (isSeparator : Char → Bool) (depth : Nat) (piece : List Char) :
    List Char → List (List Char)
  | [] => [piece.reverse]
  | c :: s =>
    if isQuote c then
      piecesFrom isSeparator depth ((cutLiteral c s).1.reverse ++ piece) (cutLiteral c s).2
    else if isOpener c then piecesFrom isSeparator (depth + 1) (c :: piece) s
    else if isCloser c then piecesFrom isSeparator (depth - 1) (c :: piece) s
    else if isSeparator c && depth == 0 then piece.reverse :: piecesFrom isSeparator 0 [] s
    else piecesFrom isSeparator depth (c :: piece) s
termination_by s => s.length
decreasing_by
  · have := length_cutLiteral_le c s
    simp only [List.length_cons]
    omega
  all_goals simp only [List.length_cons, Nat.lt_add_one]

/-- The trimmed segments of a text. A blank text has none. -/
def segments (isSeparator : Char → Bool) (s : List Char) : List (List Char) :=
  if Text.isAllBlank s then [] else (piecesFrom isSeparator 0 [] s).map Text.trim

/-- The arguments or parameters of a list without its parentheses. -/
def arguments (s : List Char) : List (List Char) :=
  segments (· == ',') s

/-- How many arguments a call passes. -/
def countArguments (s : List Char) : Nat :=
  (arguments s).length

end CallAtlas.Source
