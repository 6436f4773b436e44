import CallAtlas.Proofs.Source.Levels

/-!
# Groups and their ends

A literal is closed by the first quote that is not doubled (`literalTail?_eq_some_iff`), so where it
ends depends on what follows. Whether a text is a list of items is asked in two ways. `Items` looks
at the text alone, as a writer does, and takes literals one by one. `Grouped` looks at the text
where it stands: literals that touch are one, and a quote that opens no literal counts as any other
character.

The walk to a closing delimiter passes over grouped text (`Grouped.fromClosing?`), and what it
passes over is grouped (`exists_grouped_of_fromClosing?`). Text that is made of items leads back to
the depth where it started, whatever its literals touch, so `findClosing_isMatch` says of every
text which delimiter is found, and that it is the one that a writer put there.
-/

namespace CallAtlas.Source

/-! ## Literals -/

/-- Text in which a quote stands in pairs only. -/
inductive Doubled (quote : Char) : List Char → Prop
  | nil : Doubled quote []
  | other {c : Char} {s : List Char} (single : c ≠ quote) (rest : Doubled quote s) :
    Doubled quote (c :: s)
  | pair {s : List Char} (rest : Doubled quote s) : Doubled quote (quote :: quote :: s)

/-- A literal whose opening quote has been read is closed before `rest`: by a quote that is not
doubled. -/
def ClosesBefore (quote : Char) (s rest : List Char) : Prop :=
  ∃ body, Doubled quote body ∧ s = body ++ quote :: rest ∧ rest.head? ≠ some quote

theorem Doubled.append {quote : Char} {s t : List Char} (first : Doubled quote s)
    (second : Doubled quote t) : Doubled quote (s ++ t) := by
  induction first with
  | nil => exact second
  | other single _ ih => exact .other single ih
  | pair _ ih => exact .pair ih

/-- The walk along a literal goes past doubled quotes and ends at a single one. -/
theorem Doubled.literalTail? {quote : Char} {body rest : List Char} (doubled : Doubled quote body)
    (single : rest.head? ≠ some quote) :
    literalTail? quote (body ++ quote :: rest) = some (body ++ [quote], rest) := by
  induction doubled with
  | nil => exact literalTail?_closed List.not_mem_nil single
  | @other c s other _ ih =>
    obtain ⟨d, t, shape⟩ : ∃ d t, s ++ quote :: rest = d :: t :=
      List.exists_cons_of_ne_nil (by simp)
    rw [shape] at ih
    simp [Source.literalTail?, shape, other, ih]
  | pair _ ih => simp [Source.literalTail?, ih]

/-- A literal ends at the first quote that is not doubled. -/
theorem literalTail?_eq_some_iff {quote : Char} {s text rest : List Char} :
    literalTail? quote s = some (text, rest) ↔
      ∃ body, Doubled quote body ∧ text = body ++ [quote] ∧ s = body ++ quote :: rest ∧
        rest.head? ≠ some quote := by
  constructor
  · intro closes
    fun_induction literalTail? quote s generalizing text rest with
    | case1 => cases closes
    | case2 c same =>
      cases closes
      rw [eq_of_beq same]
      exact ⟨[], .nil, rfl, rfl, by simp⟩
    | case3 => cases closes
    | case4 c d s same again ih =>
      rcases Option.map_eq_some_iff.1 closes with ⟨cut, found, rfl, rfl⟩
      rcases ih found with ⟨body, doubled, text, shape, single⟩
      rw [eq_of_beq same, eq_of_beq again]
      exact ⟨quote :: quote :: body, .pair doubled, by simp [text], by simp [shape], single⟩
    | case5 c d s same other =>
      cases closes
      rw [eq_of_beq same]
      exact ⟨[], .nil, rfl, rfl, by simpa using other⟩
    | case6 c d s other ih =>
      rcases Option.map_eq_some_iff.1 closes with ⟨cut, found, rfl, rfl⟩
      rcases ih found with ⟨body, doubled, text, shape, single⟩
      exact ⟨c :: body, .other (by simpa using other) doubled, by simp [text], by simp [shape],
        single⟩
  · rintro ⟨body, doubled, rfl, rfl, single⟩
    exact doubled.literalTail? single

/-- A quote opens no literal if the walk along it finds no end. -/
theorem literalTail?_eq_none_iff {quote : Char} {s : List Char} :
    literalTail? quote s = none ↔ ∀ rest, ¬ClosesBefore quote s rest := by
  rw [Option.eq_none_iff_forall_ne_some]
  constructor
  · rintro unread rest ⟨body, doubled, shape, single⟩
    exact unread _ (literalTail?_eq_some_iff.2 ⟨body, doubled, rfl, shape, single⟩)
  · rintro unclosed ⟨text, rest⟩ closes
    rcases literalTail?_eq_some_iff.1 closes with ⟨body, doubled, -, shape, single⟩
    exact unclosed rest ⟨body, doubled, shape, single⟩

/-! ## Items -/

section Groups

variable {opener closer : Char}

/-- A text of plain characters, literals and groups, each taken by itself. -/
inductive Items (opener closer : Char) : List Char → Prop
  | nil : Items opener closer []
  | plain {c : Char} {s : List Char} (quote : isQuote c = false) (notOpener : c ≠ opener)
    (notCloser : c ≠ closer) (rest : Items opener closer s) : Items opener closer (c :: s)
  | literal {quote : Char} {body s : List Char} (delimiter : isQuote quote = true)
    (doubled : Doubled quote body) (rest : Items opener closer s) :
    Items opener closer (quote :: (body ++ quote :: s))
  | group {inside s : List Char} (within : Items opener closer inside)
    (rest : Items opener closer s) : Items opener closer (opener :: (inside ++ closer :: s))

/-- A text of plain characters, literals and groups where it stands, before `after`. A quote that
opens no literal there is a plain character. -/
inductive Grouped (opener closer : Char) : (after s : List Char) → Prop
  | nil {after : List Char} : Grouped opener closer after []
  | plain {after : List Char} {c : Char} {s : List Char} (quote : isQuote c = false)
    (notOpener : c ≠ opener) (notCloser : c ≠ closer) (rest : Grouped opener closer after s) :
    Grouped opener closer after (c :: s)
  | stray {after : List Char} {quote : Char} {s : List Char} (delimiter : isQuote quote = true)
    (unclosed : ∀ rest, ¬ClosesBefore quote (s ++ after) rest)
    (rest : Grouped opener closer after s) : Grouped opener closer after (quote :: s)
  | literal {after : List Char} {quote : Char} {body s : List Char}
    (delimiter : isQuote quote = true) (doubled : Doubled quote body)
    (single : (s ++ after).head? ≠ some quote) (rest : Grouped opener closer after s) :
    Grouped opener closer after (quote :: (body ++ quote :: s))
  | group {after inside s : List Char}
    (within : Grouped opener closer (closer :: (s ++ after)) inside)
    (rest : Grouped opener closer after s) :
    Grouped opener closer after (opener :: (inside ++ closer :: s))

/-- Items lead back to the depth where they started. Literals that touch are walked over as one,
which changes nothing. -/
theorem Items.level? {s : List Char} (distinct : opener ≠ closer) (opens : isQuote opener = false)
    (closes : isQuote closer = false) (items : Items opener closer s) (depth : Nat) :
    level? opener closer depth s = some depth := by
  induction items generalizing depth with
  | nil => rw [Source.level?]
  | plain quote notOpener notCloser _ ih =>
    rw [level?_cons (by simp [quote])]
    simpa [notOpener, notCloser] using ih depth
  | @literal quote body s delimiter doubled _ ih =>
    have later := ih depth
    by_cases touches : s.head? = some quote
    case neg => rw [level?_literal delimiter (doubled.literalTail? touches), later]
    case pos =>
      rcases List.head?_eq_some_iff.1 touches with ⟨t, rfl⟩
      rw [level?.eq_def] at later
      dsimp only at later
      rw [if_pos delimiter] at later
      split at later
      next text rest ends =>
        rcases literalTail?_eq_some_iff.1 ends with ⟨next, doubledNext, -, rfl, single⟩
        have merged := (doubled.append (.pair doubledNext)).literalTail? single
        rw [List.append_assoc, List.cons_append, List.cons_append] at merged
        rw [level?_literal delimiter merged, later]
      next => cases later
  | @group inside s _ _ ihWithin ih =>
    rw [level?_cons (by simp [opens]), if_pos BEq.rfl,
      level?_append (ihWithin (depth + 1)) (noQuoteAhead_cons closes),
      level?_cons (by simp [closes])]
    simpa [distinct.symm] using ih depth

/-! ## Walks -/

/-- A delimiter that closes a group is found, or leads one level up. -/
theorem fromClosing?_closer (distinct : opener ≠ closer) (closes : isQuote closer = false)
    (depth : Nat) (s : List Char) :
    fromClosing? (· == opener) (· == closer) (depth + 1) (closer :: s) =
      match depth with
      | 0 => some (closer :: s)
      | depth + 1 => fromClosing? (· == opener) (· == closer) (depth + 1) s := by
  rw [fromClosing?_cons, if_neg (by simp [closes]), if_neg (by simpa using distinct.symm),
    if_pos BEq.rfl]
  cases depth <;> rfl

/-- The walk to a closing delimiter passes over grouped text. -/
theorem Grouped.fromClosing? {after s : List Char} (distinct : opener ≠ closer)
    (opens : isQuote opener = false) (closes : isQuote closer = false)
    (grouped : Grouped opener closer after s) (depth : Nat) :
    fromClosing? (· == opener) (· == closer) (depth + 1) (s ++ after) =
      fromClosing? (· == opener) (· == closer) (depth + 1) after := by
  induction grouped generalizing depth with
  | nil => rfl
  | plain quote notOpener notCloser _ ih =>
    rw [List.cons_append, fromClosing?_cons]
    simpa [quote, notOpener, notCloser] using ih depth
  | stray delimiter unclosed _ ih =>
    have cut := literalTail?_eq_none_iff.2 unclosed
    rw [List.cons_append, fromClosing?_cons, if_pos delimiter, cutLiteral, cut]
    exact ih depth
  | literal delimiter doubled single _ ih =>
    have cut := cutLiteral_of_closes (doubled.literalTail? single)
    rw [List.cons_append, List.append_assoc, List.cons_append, fromClosing?_cons, if_pos delimiter,
      cut]
    exact ih depth
  | group _ _ ihWithin ih =>
    rw [List.cons_append, List.append_assoc, List.cons_append, fromClosing?_cons,
      if_neg (by simp [opens]), if_pos BEq.rfl, ihWithin (depth + 1),
      fromClosing?_closer distinct closes]
    exact ih depth

/-- What the walk passes over before the first delimiter that closes the innermost group is grouped.
The recursion of the walk follows the depth and not the groups, so the induction is on the length of
the text: behind the delimiter that closes a group there is less of it. -/
theorem exists_grouped_of_fromClosing? (distinct : opener ≠ closer)
    (closes : isQuote closer = false) {depth : Nat} {s found : List Char}
    (h : fromClosing? (· == opener) (· == closer) (depth + 1) s = some found) :
    ∃ inner post, s = inner ++ closer :: post ∧ Grouped opener closer (closer :: post) inner ∧
      fromClosing? (· == opener) (· == closer) (depth + 1) (closer :: post) = some found := by
  induction size : s.length using Nat.strongRecOn generalizing depth s with
  | ind n ih =>
    subst size
    cases s with
    | nil => simp [Source.fromClosing?] at h
    | cons c s =>
      rw [fromClosing?_cons] at h
      split at h
      next delimiter =>
        have shorter := Nat.lt_succ_of_le (length_cutLiteral_le c s)
        rcases ih _ shorter h rfl with ⟨inner, post, shape, grouped, rest⟩
        cases ends : literalTail? c s with
        | none =>
          rw [cutLiteral, ends] at shape
          refine ⟨c :: inner, post, by simp [← shape], ?_, rest⟩
          exact .stray delimiter (literalTail?_eq_none_iff.1 (shape ▸ ends)) grouped
        | some cut =>
          rw [cutLiteral_of_closes ends] at shape
          rcases literalTail?_eq_some_iff.1 ends with ⟨body, doubled, -, whole, single⟩
          refine ⟨c :: (body ++ c :: inner), post, by simp [whole, ← shape], ?_, rest⟩
          exact .literal delimiter doubled (shape ▸ single) grouped
      next plain =>
        rw [Bool.not_eq_true] at plain
        split at h
        next isOpener =>
          rcases ih _ (Nat.lt_succ_self _) h rfl with ⟨inside, behind, rfl, within, rest⟩
          rw [fromClosing?_closer distinct closes] at rest
          have shorter : behind.length < (c :: (inside ++ closer :: behind)).length := by
            simp only [List.length_cons, List.length_append]
            omega
          rcases ih _ shorter rest rfl with ⟨inner, post, rfl, grouped, rest⟩
          refine ⟨opener :: (inside ++ closer :: inner), post, ?_, .group within grouped, rest⟩
          simp [eq_of_beq isOpener]
        next notOpener =>
          split at h
          next isCloser =>
            rw [eq_of_beq isCloser] at h ⊢
            refine ⟨[], s, rfl, .nil, ?_⟩
            rw [fromClosing?_closer distinct closes]
            cases depth with
            | zero => exact h
            | succ depth => exact h
          next notCloser =>
            rcases ih _ (Nat.lt_succ_self _) h rfl with ⟨inner, post, rfl, grouped, rest⟩
            exact ⟨c :: inner, post, rfl,
              .plain plain (by simpa using notOpener) (by simpa using notCloser) grouped, rest⟩

/-! ## Matching delimiters -/

/-- The delimiter at `last` matches the opening one at `first`: what is between them is grouped
where it stands. -/
def IsMatch (opener closer : Char) (s : List Char) (first last : Nat) : Prop :=
  ∃ before inner after, s = before ++ opener :: (inner ++ closer :: after) ∧
    first = before.length ∧ last = first + 1 + inner.length ∧
    Grouped opener closer (closer :: after) inner

theorem exists_before_of_getElem? {s : List Char} {offset : Nat} {c : Char}
    (there : s[offset]? = some c) :
    ∃ before rest, s = before ++ c :: rest ∧ offset = before.length := by
  obtain ⟨inside, same⟩ := List.getElem?_eq_some_iff.1 there
  refine ⟨s.take offset, s.drop (offset + 1), ?_, ?_⟩
  · rw [← same, List.getElem_cons_drop, List.take_append_drop]
  · rw [List.length_take_of_le (Nat.le_of_lt inside)]

/-- The walk from an opening delimiter tells where its match is. -/
theorem findClosing?_opener (plain : isQuote opener = false) (before s : List Char) :
    findClosing? (· == opener) (· == closer) (before ++ opener :: s) before.length =
      (fromClosing? (· == opener) (· == closer) 1 s).map fun found =>
        (before ++ opener :: s).length - found.length := by
  unfold findClosing?
  rw [List.drop_left]
  dsimp only
  rw [if_pos BEq.rfl, fromClosing?_cons, if_neg (by simp [plain]), if_pos BEq.rfl]

theorem findClosing?_grouped {before inner after : List Char} (distinct : opener ≠ closer)
    (opens : isQuote opener = false) (closes : isQuote closer = false)
    (walked : fromClosing? (· == opener) (· == closer) 1 (inner ++ closer :: after) =
      fromClosing? (· == opener) (· == closer) 1 (closer :: after)) :
    findClosing? (· == opener) (· == closer) (before ++ opener :: (inner ++ closer :: after))
      before.length = some (before.length + 1 + inner.length) := by
  rw [findClosing?_opener opens, walked, fromClosing?_closer distinct closes]
  simp only [Option.map_some, List.length_append, List.length_cons, Option.some.injEq]
  omega

/-- **The delimiter that is found is the one that closes a balanced group.** Behind an opening
delimiter the delimiter behind any items is found, whatever stands before and behind. What is found
behind an opening delimiter in any text is its match, and nothing is found if there is no match. -/
theorem findClosing_isMatch (distinct : opener ≠ closer) (opens : isQuote opener = false)
    (closes : isQuote closer = false) :
    (∀ before inner after, Items opener closer inner →
      findClosing? (· == opener) (· == closer) (before ++ opener :: (inner ++ closer :: after))
        before.length = some (before.length + 1 + inner.length)) ∧
    ∀ s first, s[first]? = some opener →
      (∀ last, findClosing? (· == opener) (· == closer) s first = some last ↔
        IsMatch opener closer s first last) ∧
      (findClosing? (· == opener) (· == closer) s first = none ↔
        ¬∃ last, IsMatch opener closer s first last) := by
  have found : ∀ s first, s[first]? = some opener → ∀ last,
      findClosing? (· == opener) (· == closer) s first = some last ↔
        IsMatch opener closer s first last := by
    intro s first starts last
    constructor
    · intro h
      rcases exists_before_of_getElem? starts with ⟨before, rest, rfl, rfl⟩
      rw [findClosing?_opener opens, Option.map_eq_some_iff] at h
      rcases h with ⟨left, walked, rfl⟩
      rcases exists_grouped_of_fromClosing? distinct closes walked with
        ⟨inner, after, rfl, grouped, ends⟩
      rw [fromClosing?_closer distinct closes] at ends
      refine ⟨before, inner, after, rfl, rfl, ?_, grouped⟩
      simp only [← Option.some.inj ends, List.length_append, List.length_cons]
      omega
    · rintro ⟨before, inner, after, rfl, rfl, rfl, grouped⟩
      exact findClosing?_grouped distinct opens closes
        (grouped.fromClosing? distinct opens closes 0)
  refine ⟨?_, fun s first starts => ⟨found s first starts, ?_⟩⟩
  · intro before inner after items
    refine findClosing?_grouped distinct opens closes ?_
    exact fromClosing?_append (items.level? distinct opens closes 0) (noQuoteAhead_cons closes)
  · rw [Option.eq_none_iff_forall_ne_some, not_exists]
    exact forall_congr' fun last => not_congr (found s first starts last)

end Groups

/-- Two literals that touch, with a parenthesis in each. -/
def touching : List Char := "\"(\"\")\"".toList

theorem items_touching : Items '(' ')' touching := by
  have first : Doubled '"' ['('] := .other (by decide) .nil
  have second : Doubled '"' [')'] := .other (by decide) .nil
  exact .literal rfl first (.literal rfl second .nil)

/-- The parenthesis behind the touching literals is found, although a quote that opens no literal
follows. A parenthesis in a literal matches none before it. -/
theorem touching_isMatch :
    '(' ≠ ')' ∧ isQuote '(' = false ∧ isQuote ')' = false ∧ Items '(' ')' touching ∧
      findClosing? (· == '(') (· == ')') (['f'] ++ '(' :: (touching ++ ')' :: ['\''])) 1 = some 8 ∧
      ¬∃ last, IsMatch '(' ')' "(')'".toList 0 last := by
  have distinct : '(' ≠ ')' := by decide
  obtain ⟨found, matched⟩ := findClosing_isMatch distinct rfl rfl
  refine ⟨distinct, rfl, rfl, items_touching, found ['f'] touching ['\''] items_touching, ?_⟩
  refine (matched _ 0 rfl).2.1 ?_
  decide +kernel

end CallAtlas.Source
