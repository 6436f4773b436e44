/-!
# Patterns of a store

Listings of a store are filtered by patterns. A percent sign stands for any text
and an underscore for any one character; ASCII letters match in either case. A
null character ends a pattern and a text alike, and the two characters after the
sign for no character count as that sign.

A pattern stands for a text if its pieces between percent signs stand in the text
one after the other; taking each where it stands first leaves the most for those
that follow.
-/

namespace CallAtlas.Store

/-- A character as it counts. -/
def counted (c : Char) : Char :=
  if c == '\ufffe' || c == '\uffff' then '\ufffd' else c

/-- Whether two characters match. Only ASCII letters have a case. -/
def sameLetter (c d : Char) : Bool :=
  (counted c).toLower == (counted d).toLower

/-- Whether a piece of a pattern stands at the start of a text. -/
def standsAtStart : List Char → List Char → Bool
  | [], _ => true
  | _ :: _, [] => false
  | c :: piece, d :: s => (c == '_' || sameLetter c d) && standsAtStart piece s

/-- What follows the first place in a text where a piece stands. -/
def afterPiece? (piece : List Char) : List Char → Option (List Char)
  | [] => if piece.isEmpty then some [] else none
  | c :: s =>
    if standsAtStart piece (c :: s) then some ((c :: s).drop piece.length) else afterPiece? piece s

/-- What follows some pieces that stand in a text one after the other. -/
def afterPieces? (pieces : List (List Char)) (s : List Char) : Option (List Char) :=
  pieces.foldlM (fun s piece => afterPiece? piece s) s

/-- Whether a text ends in a piece. -/
def endsInPiece (piece s : List Char) : Bool :=
  piece.length ≤ s.length && standsAtStart piece (s.drop (s.length - piece.length))

/-- What stands before the first null character. -/
def beforeNull (s : List Char) : List Char :=
  s.takeWhile (· != '\x00')

/-- Whether a path contains something that a fragment of a pattern stands for. A fragment with a
null character must stand at the end. -/
def containsMatch (fragment path : String) : Bool :=
  let pieces := (beforeNull fragment.toList).splitOn '%'
  let s := beforeNull path.toList
  if fragment.toList.contains '\x00' then
    (afterPieces? pieces.dropLast s).any (endsInPiece (pieces.getLast?.getD []))
  else (afterPieces? pieces s).isSome

/-- How many bytes a pattern has at most. -/
def maxPatternSize : Nat := 50000

/-- Whether the pattern around a fragment, with a percent sign on each side, is too long. -/
def isOversized (fragment : String) : Bool :=
  fragment.utf8ByteSize + 2 > maxPatternSize

end CallAtlas.Store
