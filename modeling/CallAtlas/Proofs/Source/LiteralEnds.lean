import CallAtlas.Proofs.Source.Groups

/-!
# Where literals end

A run of quotes is read in pairs from the left, so whether a quote closes a literal depends on all
that stands before it. `Doubled` says what may stand between the two quotes of a literal, and
`EndsLiteral` says so of a place in a text. No literal has two ends (`ClosesBefore.unique`): at the
earlier one the later literal would have a quote that is not in a pair.

`literalEnd` tells that end, or the offset behind the quote if there is none
(`literalEnd_endsLiteral`). Every walk that counts depth goes on from what it tells, which is
further on in the text (`GoesOn`).
-/

namespace CallAtlas.Source

/-! ## Ends in what follows a quote -/

/-- A literal has one end. -/
theorem ClosesBefore.unique {quote : Char} {s rest rest' : List Char}
    (first : ClosesBefore quote s rest) (second : ClosesBefore quote s rest') : rest = rest' := by
  obtain ⟨body, doubled, shape, single⟩ := first
  obtain ⟨body', doubled', shape', single'⟩ := second
  have cut := literalTail?_eq_some_iff.2 ⟨body, doubled, rfl, shape, single⟩
  have cut' := literalTail?_eq_some_iff.2 ⟨body', doubled', rfl, shape', single'⟩
  rw [cut] at cut'
  exact (Prod.mk.inj (Option.some.inj cut')).2

/-- What is cut off behind a quote is a literal that is closed before the rest, or the quote alone
where no literal is closed. -/
theorem cutLiteral_cases (quote : Char) (s : List Char) :
    ClosesBefore quote s (cutLiteral quote s).2 ∨
      cutLiteral quote s = ([quote], s) ∧ ∀ rest, ¬ClosesBefore quote s rest := by
  cases closes : literalTail? quote s with
  | none =>
    refine Or.inr ⟨?_, literalTail?_eq_none_iff.1 closes⟩
    rw [cutLiteral, closes]
  | some cut =>
    obtain ⟨body, doubled, -, shape, single⟩ := literalTail?_eq_some_iff.1 closes
    rw [cutLiteral_of_closes closes]
    exact Or.inl ⟨body, doubled, shape, single⟩

/-! ## Ends in a text -/

/-- The literal that a quote opens at `first` ends before `last`. Between its two quotes that quote
stands in pairs only, and it does not stand right behind the literal. -/
structure EndsLiteral (quote : Char) (s : List Char) (first last : Nat) : Prop where
  literal : ∃ body, Doubled quote body ∧ s.extract first last = quote :: (body ++ [quote])
  inside : last ≤ s.length
  single : s[last]? ≠ some quote

/-- A literal has two quotes at least. -/
theorem EndsLiteral.le {quote : Char} {s : List Char} {first last : Nat}
    (ends : EndsLiteral quote s first last) : first + 2 ≤ last := by
  obtain ⟨body, -, text⟩ := ends.literal
  have size := congrArg List.length text
  rw [List.extract_eq_take_drop, List.length_take] at size
  simp only [List.length_cons, List.length_append, List.length_nil] at size
  omega

/-- All walks that count depth go on from `first` to `last`. -/
structure GoesOn (s : List Char) (first last : Nat) : Prop where
  closing : ∀ isOpen isClose depth,
    fromClosing? isOpen isClose depth (s.drop first) =
      fromClosing? isOpen isClose depth (s.drop last)
  bodyEnd : ∀ depth, fromBodyEnd? depth (s.drop first) = fromBodyEnd? depth (s.drop last)
  pieces : ∀ isSeparator depth piece,
    piecesFrom isSeparator depth piece (s.drop first) =
      piecesFrom isSeparator depth ((s.extract first last).reverse ++ piece) (s.drop last)

section Ends

variable {quote : Char} {before s : List Char} {last : Nat}

theorem extract_append (before text rest : List Char) :
    (before ++ (text ++ rest)).extract before.length (before.length + text.length) = text := by
  rw [List.extract_eq_take_drop, List.drop_left, Nat.add_sub_cancel_left, List.take_left]

/-- A literal ends where what follows its quote closes it. -/
theorem endsLiteral_iff :
    EndsLiteral quote (before ++ quote :: s) before.length last ↔
      ∃ rest, ClosesBefore quote s rest ∧ last + rest.length = (before ++ quote :: s).length := by
  constructor
  · intro ends
    obtain ⟨body, doubled, text⟩ := ends.literal
    have inside := ends.inside
    have size := congrArg List.length text
    have behind := List.take_append_drop (last - before.length) (quote :: s)
    rw [List.extract_eq_take_drop, List.drop_left] at text size
    rw [text, List.cons_append, List.append_assoc, List.singleton_append] at behind
    simp only [List.length_take, List.length_cons, List.length_append, List.length_nil]
      at size inside
    refine ⟨(quote :: s).drop (last - before.length), ⟨body, doubled, ?_, ?_⟩, ?_⟩
    · exact (List.tail_eq_of_cons_eq behind).symm
    · have single := ends.single
      rw [List.getElem?_append_right (by omega), ← List.head?_drop] at single
      exact single
    · rw [List.length_drop, List.length_append, List.length_cons]
      omega
  · rintro ⟨rest, ⟨body, doubled, rfl, single⟩, size⟩
    have shape : quote :: (body ++ quote :: rest) = quote :: (body ++ [quote]) ++ rest := by simp
    have place : last = before.length + (quote :: (body ++ [quote])).length := by
      rw [shape] at size
      simp only [List.length_append] at size ⊢
      omega
    subst place
    rw [shape]
    refine ⟨⟨body, doubled, extract_append before _ rest⟩, ?_, ?_⟩
    · simp only [List.length_append]
      omega
    · rw [← List.append_assoc, ← List.length_append, ← List.head?_drop, List.drop_left]
      exact single

/-- What is behind a literal, or behind a quote that opens none. -/
theorem drop_cutLiteral (before : List Char) (quote : Char) (s : List Char) :
    (before ++ quote :: s).drop (before.length + (cutLiteral quote s).1.length) =
      (cutLiteral quote s).2 := by
  rw [← cutLiteral_append quote s, ← List.append_assoc, ← List.length_append, List.drop_left]

/-- Every walk cuts a literal off as a whole. -/
theorem goesOn_cutLiteral (delimiter : isQuote quote = true) :
    GoesOn (before ++ quote :: s) before.length
      (before.length + (cutLiteral quote s).1.length) := by
  have text := extract_append before (cutLiteral quote s).1 (cutLiteral quote s).2
  rw [cutLiteral_append] at text
  constructor
  case closing =>
    intro isOpen isClose depth
    rw [drop_cutLiteral, List.drop_left, fromClosing?_cons, if_pos delimiter]
  case bodyEnd =>
    intro depth
    rw [drop_cutLiteral, List.drop_left, fromBodyEnd?_cons, if_pos delimiter]
  case pieces =>
    intro isSeparator depth piece
    rw [drop_cutLiteral, List.drop_left, text, piecesFrom, if_pos delimiter]

theorem literalEnd_append (before : List Char) (quote : Char) (s : List Char) :
    literalEnd (before ++ quote :: s) before.length =
      .ok (before.length + (cutLiteral quote s).1.length) := by
  rw [literalEnd, List.drop_left]

end Ends

/-- **The end of a literal is found, and it is the only one.** At any character of a text at most
one literal of that character ends. The offset told is its end, or the one behind the character if
no literal opened there is closed; it lies in the text and further on. From a quote every walk goes
on at that offset. -/
theorem literalEnd_endsLiteral {s : List Char} {first : Nat} {quote : Char}
    (there : s[first]? = some quote) :
    (∀ last last', EndsLiteral quote s first last → EndsLiteral quote s first last' →
      last = last') ∧
    ∃ last, literalEnd s first = .ok last ∧ first < last ∧ last ≤ s.length ∧
      (EndsLiteral quote s first last ∨
        last = first + 1 ∧ ∀ other, ¬EndsLiteral quote s first other) ∧
      (isQuote quote = true → GoesOn s first last) := by
  obtain ⟨before, s, rfl, rfl⟩ := exists_before_of_getElem? there
  have whole := congrArg List.length (cutLiteral_append quote s)
  rw [List.length_append, List.length_cons] at whole
  have shorter := length_cutLiteral_le quote s
  refine ⟨?_, _, literalEnd_append before quote s, by omega, ?_, ?_, goesOn_cutLiteral⟩
  · intro last last' ends ends'
    obtain ⟨rest, closes, size⟩ := endsLiteral_iff.1 ends
    obtain ⟨rest', closes', size'⟩ := endsLiteral_iff.1 ends'
    rw [closes.unique closes'] at size
    omega
  · rw [List.length_append, List.length_cons]
    omega
  · rcases cutLiteral_cases quote s with closes | ⟨cut, unclosed⟩
    · refine Or.inl (endsLiteral_iff.2 ⟨_, closes, ?_⟩)
      rw [List.length_append, List.length_cons]
      omega
    · refine Or.inr ⟨by rw [cut, List.length_singleton], ?_⟩
      intro other ends
      obtain ⟨rest, closes, -⟩ := endsLiteral_iff.1 ends
      exact unclosed rest closes

/-- A literal that starts and ends with runs of quotes, and the same but for its last quote. -/
def quoteRuns : List Char := "'''b''''' '''b''''".toList

/-- The quotes of a run are paired from the left: the run of five closes the literal at its last
quote, and the run of four does not close it. -/
theorem quoteRuns_endsLiteral :
    quoteRuns[0]? = some '\'' ∧ quoteRuns[10]? = some '\'' ∧
      EndsLiteral '\'' quoteRuns 0 9 ∧ literalEnd quoteRuns 10 = .ok 11 ∧
      ∀ other, ¬EndsLiteral '\'' quoteRuns 10 other := by
  have first : quoteRuns[0]? = some '\'' := rfl
  have second : quoteRuns[10]? = some '\'' := rfl
  refine ⟨first, second, ?_, rfl, ?_⟩
  · obtain ⟨-, last, told, -, -, ends, -⟩ := literalEnd_endsLiteral first
    cases told
    rcases ends with ends | ⟨short, -⟩
    · exact ends
    · cases short
  · obtain ⟨-, last, told, -, -, ends, -⟩ := literalEnd_endsLiteral second
    cases told
    rcases ends with ends | ⟨-, unclosed⟩
    · exact absurd ends.le (by decide)
    · exact unclosed

end CallAtlas.Source
