import CallAtlas.Proofs.Text.Lines
import CallAtlas.Source.Balanced
import Mathlib.Data.List.Basic
import Mathlib.Data.List.TakeWhile

/-!
# Walks over balanced delimiters

What a walk over balanced delimiters finds is the end of the text it walks over, and a text has at
most one separator for each of its characters. So the number of arguments of a call and of
parameters of a function never exceeds the length of the text that they stand in. The walk along a
body stops only before a semicolon, so that the semicolon is there when it is looked for.

A text is balanced in which literals are closed and parentheses match (`Balanced`). A literal that
is closed in a text is cut off there, whatever follows the text but a quote.
-/

namespace CallAtlas.Source

/-! ## Remainders -/

/-- What follows a literal ends what follows its opening quote. -/
theorem cutLiteral_suffix (quote : Char) (s : List Char) : (cutLiteral quote s).2 <:+ s := by
  unfold cutLiteral
  split
  next cut closed => exact ⟨cut.1, literalTail?_append closed⟩
  next => exact List.suffix_rfl

/-- The delimiter that is found, with what follows it, ends the text. -/
theorem fromClosing?_suffix {isOpen isClose : Char → Bool} {depth : Nat} {s found : List Char}
    (h : fromClosing? isOpen isClose depth s = some found) : found ≠ [] ∧ found <:+ s := by
  fun_induction fromClosing? isOpen isClose depth s with
  | case1 => cases h
  | case2 depth c s _ ih =>
    obtain ⟨nonempty, suffix⟩ := ih h
    exact ⟨nonempty, (suffix.trans (cutLiteral_suffix c s)).trans (List.suffix_cons c s)⟩
  | case3 depth c s _ _ ih => exact ⟨(ih h).1, (ih h).2.trans (List.suffix_cons c s)⟩
  | case4 => cases h
  | case5 =>
    cases h
    exact ⟨List.cons_ne_nil _ _, List.suffix_rfl⟩
  | case6 c s _ _ _ depth ih => exact ⟨(ih h).1, (ih h).2.trans (List.suffix_cons c s)⟩
  | case7 depth c s _ _ _ ih => exact ⟨(ih h).1, (ih h).2.trans (List.suffix_cons c s)⟩

theorem cutParenthesis?_suffix {s inside rest : List Char}
    (h : cutParenthesis? s = some (inside, rest)) : rest <:+ s := by
  obtain ⟨found, closes, same⟩ := Option.map_eq_some_iff.1 h
  cases same
  exact (List.tail_suffix found).trans (fromClosing?_suffix closes).2

/-- Blanks and a semicolon start a text. -/
def IsTerminated (s : List Char) : Prop :=
  ∃ gap rest, s = gap ++ ';' :: rest ∧ ∀ c ∈ gap, Text.isBlank c = true

theorem semicolonFollows_iff {s : List Char} : semicolonFollows s = true ↔ IsTerminated s := by
  unfold semicolonFollows IsTerminated Text.dropBlanks
  rw [beq_iff_eq]
  constructor
  · intro next
    obtain ⟨rest, starts⟩ := List.head?_eq_some_iff.1 next
    refine ⟨s.takeWhile Text.isBlank, rest, ?_, fun c inside => List.mem_takeWhile_imp inside⟩
    rw [← starts, List.takeWhile_append_dropWhile]
  · rintro ⟨gap, rest, rfl, blank⟩
    rw [List.dropWhile_append_of_pos blank]
    rfl

/-- From the brace on that ends a body, the semicolon is the next that is met. -/
theorem dropWhile_gap {gap : List Char} (blank : ∀ c ∈ gap, Text.isBlank c = true)
    (more : List Char) : ('}' :: (gap ++ ';' :: more)).dropWhile (· != ';') = ';' :: more := by
  have absent : ';' ∉ '}' :: gap := by
    intro member
    rcases List.mem_cons.1 member with brace | inGap
    · cases brace
    · exact absurd (blank ';' inGap) (by decide)
  exact (Text.cut_append absent more).2

/-- The brace that ends a body, with what follows it, ends the text, and a semicolon is next. -/
theorem fromBodyEnd?_suffix {depth : Nat} {s found : List Char}
    (h : fromBodyEnd? depth s = some found) :
    found <:+ s ∧ ∃ after, found = '}' :: after ∧ semicolonFollows after = true := by
  fun_induction fromBodyEnd? depth s with
  | case1 => cases h
  | case2 depth c s _ ih =>
    obtain ⟨suffix, brace⟩ := ih h
    exact ⟨(suffix.trans (cutLiteral_suffix c s)).trans (List.suffix_cons c s), brace⟩
  | case3 depth c s _ _ ih => exact ⟨(ih h).1.trans (List.suffix_cons c s), (ih h).2⟩
  | case4 => cases h
  | case5 c s _ _ closer follows =>
    cases h
    exact ⟨List.suffix_rfl, s, by rw [eq_of_beq closer], follows⟩
  | case6 c s _ _ _ _ ih => exact ⟨(ih h).1.trans (List.suffix_cons c s), (ih h).2⟩
  | case7 c s _ _ _ depth ih => exact ⟨(ih h).1.trans (List.suffix_cons c s), (ih h).2⟩
  | case8 depth c s _ _ _ ih => exact ⟨(ih h).1.trans (List.suffix_cons c s), (ih h).2⟩

/-- Behind the brace that ends a body there is a semicolon to be found. -/
theorem exists_semicolon_of_fromBodyEnd? {depth : Nat} {s found : List Char}
    (h : fromBodyEnd? depth s = some found) :
    ∃ after, found.dropWhile (· != ';') = ';' :: after := by
  obtain ⟨-, after, rfl, follows⟩ := fromBodyEnd?_suffix h
  obtain ⟨gap, rest, rfl, blank⟩ := semicolonFollows_iff.1 follows
  exact ⟨rest, dropWhile_gap blank rest⟩

/-! ## Lengths -/

theorem length_cutParenthesis?_lt {s inside rest : List Char}
    (h : cutParenthesis? s = some (inside, rest)) :
    inside.length < s.length ∧ rest.length < s.length := by
  obtain ⟨found, closes, same⟩ := Option.map_eq_some_iff.1 h
  obtain ⟨nonempty, suffix⟩ := fromClosing?_suffix closes
  have positive := List.length_pos_iff.2 nonempty
  have inside_le := suffix.length_le
  cases same
  rw [List.length_take, List.length_tail]
  omega

theorem length_piecesFrom_le (isSeparator : Char → Bool) (depth : Nat) (piece s : List Char) :
    (piecesFrom isSeparator depth piece s).length ≤ s.length + 1 := by
  fun_induction piecesFrom isSeparator depth piece s with
  | case1 => exact Nat.le_refl _
  | case2 depth piece c s _ ih =>
    have shorter := length_cutLiteral_le c s
    rw [List.length_cons]
    omega
  | case3 depth piece c s _ _ ih => exact Nat.le_succ_of_le ih
  | case4 depth piece c s _ _ _ ih => exact Nat.le_succ_of_le ih
  | case5 depth piece c s _ _ _ _ ih => exact Nat.succ_le_succ ih
  | case6 depth piece c s _ _ _ _ ih => exact Nat.le_succ_of_le ih

/-- A text has at most one argument more than it has characters. -/
theorem length_arguments_le (s : List Char) : (arguments s).length ≤ s.length + 1 := by
  unfold arguments segments
  split
  next => exact Nat.zero_le _
  next =>
    rw [List.length_map]
    exact length_piecesFrom_le ..

/-! ## Balanced texts -/

/-- A quote does not stand at the start of a text. -/
def NoQuoteAhead (rest : List Char) : Prop :=
  ∀ c, rest.head? = some c → isQuote c = false

/-- A text of plain characters, closed literals and matching parentheses. Outside of these it has
commas only where they are allowed. -/
inductive Balanced : (commas : Bool) → List Char → Prop
  | nil {commas : Bool} : Balanced commas []
  | plain {commas : Bool} {c : Char} {s : List Char} (quote : isQuote c = false)
    (opener : isOpener c = false) (closer : isCloser c = false) (comma : commas = false → c ≠ ',')
    (rest : Balanced commas s) : Balanced commas (c :: s)
  | literal {commas : Bool} {quote : Char} {text s : List Char} (delimiter : isQuote quote = true)
    (closed : quote ∉ text) (ahead : NoQuoteAhead s) (rest : Balanced commas s) :
    Balanced commas (quote :: (text ++ quote :: s))
  | group {commas : Bool} {inside s : List Char} (within : Balanced true inside)
    (rest : Balanced commas s) : Balanced commas ('(' :: (inside ++ ')' :: s))

theorem NoQuoteAhead.append {s rest : List Char} (ahead : NoQuoteAhead s)
    (after : NoQuoteAhead rest) : NoQuoteAhead (s ++ rest) := by
  cases s with
  | nil => exact after
  | cons c s => exact ahead

theorem noQuoteAhead_cons {c : Char} {rest : List Char} (other : isQuote c = false) :
    NoQuoteAhead (c :: rest) := by
  intro d same
  cases same
  exact other

theorem Balanced.append {commas : Bool} {s t : List Char} (first : Balanced commas s)
    (second : Balanced commas t) (ahead : NoQuoteAhead t) : Balanced commas (s ++ t) := by
  induction first with
  | nil => exact second
  | plain quote opener closer comma _ ih => exact .plain quote opener closer comma (ih second)
  | literal delimiter closed next _ ih =>
    rw [List.cons_append, List.append_assoc, List.cons_append]
    exact .literal delimiter closed (next.append ahead) (ih second)
  | group within _ _ ih =>
    rw [List.cons_append, List.append_assoc, List.cons_append]
    exact .group within (ih second)

/-- Where commas are allowed a text without them is balanced too. -/
theorem Balanced.allowCommas {s : List Char} (balanced : Balanced false s) : Balanced true s := by
  generalize none : false = commas at balanced
  induction balanced with
  | nil => exact .nil
  | plain quote opener closer _ _ ih =>
    exact .plain quote opener closer (fun absent => nomatch absent) (ih none)
  | literal delimiter closed ahead _ ih => exact .literal delimiter closed ahead (ih none)
  | group within _ _ ih => exact .group within (ih none)

/-- Text without quotes, brackets and commas is balanced. -/
theorem balanced_of_plain {commas : Bool} {s : List Char}
    (plain : ∀ c ∈ s, isQuote c = false ∧ isOpener c = false ∧ isCloser c = false ∧ c ≠ ',') :
    Balanced commas s := by
  induction s with
  | nil => exact .nil
  | cons c s ih =>
    obtain ⟨quote, opener, closer, comma⟩ := plain c List.mem_cons_self
    refine .plain quote opener closer (fun _ => comma) (ih ?_)
    intro d member
    exact plain d (List.mem_cons_of_mem _ member)

/-- A literal ends at its closing quote, unless that quote is doubled. -/
theorem literalTail?_closed {quote : Char} {text rest : List Char} (closed : quote ∉ text)
    (single : rest.head? ≠ some quote) :
    literalTail? quote (text ++ quote :: rest) = some (text ++ [quote], rest) := by
  induction text with
  | nil =>
    cases rest with
    | nil => simp only [List.nil_append, literalTail?, BEq.rfl, if_true]
    | cons d rest =>
      have other : ¬(d == quote) = true := by
        intro same
        exact single (congrArg some (eq_of_beq same))
      simp only [List.nil_append, literalTail?, BEq.rfl, if_true, if_neg other]
  | cons c text ih =>
    have other : ¬(c == quote) = true := by
      intro same
      exact closed (eq_of_beq same ▸ List.mem_cons_self)
    have later := ih fun member => closed (List.mem_cons_of_mem _ member)
    rw [List.cons_append, literalTail?.eq_def]
    cases shape : text ++ quote :: rest with
    | nil => exact absurd shape (by simp)
    | cons d s =>
      rw [shape] at later
      simp only [if_neg other, later, Option.map_some, List.cons_append]

theorem NoQuoteAhead.ne {t : List Char} (ahead : NoQuoteAhead t) {quote : Char}
    (delimiter : isQuote quote = true) : t.head? ≠ some quote := by
  intro same
  rw [ahead quote same] at delimiter
  cases delimiter

/-- A literal that is closed in a text is closed there whatever follows, unless its closing quote
ends the text and is doubled by what follows. -/
theorem literalTail?_extend {quote : Char} {s text rest t : List Char}
    (closes : literalTail? quote s = some (text, rest))
    (single : rest = [] → t.head? ≠ some quote) :
    literalTail? quote (s ++ t) = some (text, rest ++ t) := by
  fun_induction literalTail? quote s generalizing text rest with
  | case1 => cases closes
  | case2 c hc =>
    cases closes
    cases t with
    | nil => simp [literalTail?, hc]
    | cons d t =>
      have other : ¬(d == quote) = true := fun same => single rfl (congrArg some (eq_of_beq same))
      simp [literalTail?, hc, other]
  | case3 => cases closes
  | case4 c d s hc hd ih =>
    obtain ⟨cut, found, same⟩ := Option.map_eq_some_iff.1 closes
    cases same
    simp [literalTail?, hc, hd, ih found single]
  | case5 c d s hc hd =>
    cases closes
    simp [literalTail?, hc, hd]
  | case6 c d s hc ih =>
    obtain ⟨cut, found, same⟩ := Option.map_eq_some_iff.1 closes
    cases same
    have later := ih found single
    rw [List.cons_append] at later
    simp [literalTail?, hc, later]

theorem cutLiteral_of_closes {quote : Char} {s text rest : List Char}
    (closes : literalTail? quote s = some (text, rest)) :
    cutLiteral quote s = (quote :: text, rest) := by
  unfold cutLiteral
  rw [closes]

theorem length_of_closes {quote : Char} {s text rest : List Char}
    (closes : literalTail? quote s = some (text, rest)) : rest.length ≤ s.length := by
  rw [← literalTail?_append closes, List.length_append]
  exact Nat.le_add_left _ _

/-- A literal that is closed in a text is cut off there, whatever follows but a quote. -/
theorem cutLiteral_extend {quote : Char} {s text rest t : List Char}
    (delimiter : isQuote quote = true) (closes : literalTail? quote s = some (text, rest))
    (ahead : NoQuoteAhead t) : cutLiteral quote (s ++ t) = (quote :: text, rest ++ t) :=
  cutLiteral_of_closes (literalTail?_extend closes fun _ => ahead.ne delimiter)

/-! ## Steps of the walks -/

theorem fromClosing?_cons (isOpen isClose : Char → Bool) (depth : Nat) (c : Char)
    (s : List Char) :
    fromClosing? isOpen isClose depth (c :: s) =
      if isQuote c then fromClosing? isOpen isClose depth (cutLiteral c s).2
      else if isOpen c then fromClosing? isOpen isClose (depth + 1) s
      else if isClose c then
        match depth with
        | 0 => none
        | 1 => some (c :: s)
        | depth + 2 => fromClosing? isOpen isClose (depth + 1) s
      else fromClosing? isOpen isClose depth s :=
  fromClosing?.eq_def isOpen isClose depth (c :: s)

theorem fromBodyEnd?_cons (depth : Nat) (c : Char) (s : List Char) :
    fromBodyEnd? depth (c :: s) =
      if isQuote c then fromBodyEnd? depth (cutLiteral c s).2
      else if c == '{' then fromBodyEnd? (depth + 1) s
      else if c == '}' then
        match depth with
        | 0 => none
        | 1 => if semicolonFollows s then some (c :: s) else fromBodyEnd? 0 s
        | depth + 2 => fromBodyEnd? (depth + 1) s
      else fromBodyEnd? depth s :=
  fromBodyEnd?.eq_def depth (c :: s)

end CallAtlas.Source
