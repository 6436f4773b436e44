import CallAtlas.Numeral

/-!
# Qualified names

A function is told apart within its module by its name and its arity, written
`name#arity`. Where the arity is unknown the name stands alone.
-/

namespace CallAtlas

/-- A name with its arity, if that is known. Numerals have at most `maxDigits` digits, and an
integer with more digits is refused where it is written as it is where it is read. This function
writes it all the same, so what it gives for such an arity stands for no name. An arity that is
read from a text, or counted in one of fewer than `10 ^ maxDigits` characters, is never so long. -/
def qualify (name : String) : Option Int → String
  | some arity => name ++ "#" ++ toString arity
  | none => name

/-- The arity that a text after the number sign gives: none unless all its characters are
digits. -/
def readArity (s : List Char) : Except NumeralError (Option Int) :=
  if !s.isEmpty && s.all Text.isDigitLike then some <$> Numeral.readInt s else pure none

/-- A name without the qualifier that ends at its first colon. -/
def unqualified (s : List Char) : List Char :=
  if s.contains ':' then (s.dropWhile (· != ':')).tail else s

/-- The name and the arity of a qualified name, which may start with a qualifier. -/
def splitQualified (qualified : String) : Except NumeralError (String × Option Int) := do
  let s := qualified.toList
  let arity ← readArity (s.dropWhile (· != '#')).tail
  return (String.ofList (unqualified (s.takeWhile (· != '#'))), arity)

end CallAtlas
