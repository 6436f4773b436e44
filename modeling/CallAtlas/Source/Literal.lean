/-!
# String literals

A literal stands between two quotes of one kind. A doubled quote inside it is
part of its text. A quote that is never closed is a plain character, so that an
apostrophe in element content does not swallow the rest of a module.
-/

namespace CallAtlas.Source

/-- A character that opens a literal. -/
def isQuote (c : Char) : Bool :=
  c == '"' || c == '\''

/-- The rest of a literal whose opening quote has been read, up to and with its closing
quote, and what follows it. -/
def literalTail? (quote : Char) : List Char → Option (List Char × List Char)
  | [] => none
  | [c] => if c == quote then some ([c], []) else none
  | c :: d :: s =>
    if c == quote then
      if d == quote then
        (literalTail? quote s).map fun cut => (c :: d :: cut.1, cut.2)
      else some ([c], d :: s)
    else (literalTail? quote (d :: s)).map fun cut => (c :: cut.1, cut.2)

/-- Cuts the literal off a text whose first character is a quote: the whole literal if it is
closed, and the quote alone otherwise. -/
def cutLiteral (quote : Char) (s : List Char) : List Char × List Char :=
  match literalTail? quote s with
  | some cut => (quote :: cut.1, cut.2)
  | none => ([quote], s)

/-- Cutting a closed literal loses nothing. -/
theorem literalTail?_append {quote : Char} {s text rest : List Char}
    (h : literalTail? quote s = some (text, rest)) : text ++ rest = s := by
  fun_induction literalTail? quote s generalizing text rest with
  | case1 => cases h
  | case2 c hc => cases h; rfl
  | case3 c hc => cases h
  | case4 c s hc d hd ih =>
    obtain ⟨cut, hcut, hpair⟩ := Option.map_eq_some_iff.1 h
    cases hpair
    simp [ih hcut]
  | case5 c s hc d hd => cases h; rfl
  | case6 c d s hc ih =>
    obtain ⟨cut, hcut, hpair⟩ := Option.map_eq_some_iff.1 h
    cases hpair
    simp [ih hcut]

/-- Cutting a literal loses nothing. -/
theorem cutLiteral_append (quote : Char) (s : List Char) :
    (cutLiteral quote s).1 ++ (cutLiteral quote s).2 = quote :: s := by
  unfold cutLiteral
  split
  next cut h => simp [literalTail?_append h]
  next => rfl

/-- What follows a literal is no longer than what follows its opening quote. -/
theorem length_cutLiteral_le (quote : Char) (s : List Char) :
    (cutLiteral quote s).2.length ≤ s.length := by
  have whole := congrArg List.length (cutLiteral_append quote s)
  have opened : 0 < (cutLiteral quote s).1.length := by
    unfold cutLiteral
    split <;> simp
  simp only [List.length_append, List.length_cons] at whole
  omega

/-- Why an offset names no literal. -/
inductive OffsetError
  /-- The offset is not inside the text. -/
  | outOfRange
deriving Repr, DecidableEq

/-- The wording of an offset error. -/
def OffsetError.message : OffsetError → String
  | .outOfRange => "string index out of range"

/-- The offset just after the literal that is opened at an offset, whatever character
stands there. -/
def literalEnd (s : List Char) (offset : Nat) : Except OffsetError Nat :=
  match s.drop offset with
  | [] => .error .outOfRange
  | quote :: rest => .ok (offset + (cutLiteral quote rest).1.length)

end CallAtlas.Source
