import CallAtlas.Text.Ranges

/-!
# Blanks

The blank characters, and the three things done with them: trimming a text,
cutting it into words, and squeezing every run of blanks to one space.
-/

namespace CallAtlas.Text

/-- The code points of the blank characters. -/
def blanks : Ranges :=
  [(0x09, 0x0d), (0x1c, 0x20), (0x85, 0x85), (0xa0, 0xa0), (0x1680, 0x1680), (0x2000, 0x200a),
   (0x2028, 0x2029), (0x202f, 0x202f), (0x205f, 0x205f), (0x3000, 0x3000)]

/-- A blank character: tabs, line ends, information separators and spaces. -/
def isBlank (c : Char) : Bool :=
  blanks.contains c.toNat

/-- A text without its leading blanks. -/
def dropBlanks (s : List Char) : List Char :=
  s.dropWhile isBlank

/-- A text without its trailing blanks. -/
def dropBlanksEnd (s : List Char) : List Char :=
  (s.reverse.dropWhile isBlank).reverse

/-- A text without surrounding blanks. -/
def trim (s : List Char) : List Char :=
  dropBlanksEnd (dropBlanks s)

/-- The maximal runs of characters that are not blank. -/
def words (s : List Char) : List (List Char) :=
  (s.splitOnP isBlank).filter (!·.isEmpty)

/-- The words of a text with one space between neighbours. -/
def squeeze (s : List Char) : List Char :=
  List.intercalate [' '] (words s)

/-- A text is blank when it has no other characters. -/
def isAllBlank (s : List Char) : Bool :=
  s.all isBlank

theorem dropBlanks_suffix (s : List Char) : dropBlanks s <:+ s :=
  List.dropWhile_suffix _

end CallAtlas.Text
