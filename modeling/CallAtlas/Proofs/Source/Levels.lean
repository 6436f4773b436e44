import CallAtlas.Proofs.Source.Segments
import CallAtlas.Source.Declaration

/-!
# Depth along a text

`level?` counts how deep a text is in delimiters of one kind, literals left aside. It has no answer
for a text that closes one delimiter too many or leaves a literal open. The walks to a closing
delimiter and to the end of a body go by this count: where it has an answer, they pass over the
text and go on behind it, at the depth that the text leads to.

`isEnclosed` looks at all three kinds of brackets at once, as lists of segments do. A text that
passes leads back to where it started in each kind, and is one segment. Balanced texts lead back to
where they started too.

So the outline of a declaration is known from its parts: parameters that lead back to where they
started, no brace and no semicolon up to the body (`Opened`), and a body that does the same.
-/

namespace CallAtlas.Source

/-! ## Levels -/

/-- Whether every quote outside literals opens a literal that is closed in the text. -/
def isClosed : List Char → Bool
  | [] => true
  | c :: s =>
    if isQuote c then
      match _closes : literalTail? c s with
      | some (_, rest) => isClosed rest
      | none => false
    else isClosed s
termination_by s => s.length
decreasing_by
  · exact Nat.lt_succ_of_le (length_of_closes _closes)
  · exact Nat.lt_succ_self _

/-- The depth in delimiters of one kind after a text that starts at a depth; none if the text
closes one too many or leaves a literal open. Delimiters in literals do not count. -/
def level? (opener closer : Char) (depth : Nat) : List Char → Option Nat
  | [] => some depth
  | c :: s =>
    if isQuote c then
      match _closes : literalTail? c s with
      | some (_, rest) => level? opener closer depth rest
      | none => none
    else if c == opener then level? opener closer (depth + 1) s
    else if c == closer then
      match depth with
      | 0 => none
      | depth + 1 => level? opener closer depth s
    else level? opener closer depth s
termination_by s => s.length
decreasing_by
  · exact Nat.lt_succ_of_le (length_of_closes _closes)
  all_goals exact Nat.lt_succ_self _

section Levels

variable {opener closer : Char} {depth level : Nat} {s t : List Char}

theorem level?_literal {quote : Char} {text rest : List Char} (delimiter : isQuote quote = true)
    (closes : literalTail? quote s = some (text, rest)) :
    level? opener closer depth (quote :: s) = level? opener closer depth rest := by
  rw [level?.eq_def]
  dsimp only
  rw [if_pos delimiter]
  split
  next found =>
    rw [closes] at found
    cases found
    rfl
  next absent =>
    rw [closes] at absent
    cases absent

theorem level?_cons {c : Char} (plain : ¬isQuote c = true) :
    level? opener closer depth (c :: s) =
      if c == opener then level? opener closer (depth + 1) s
      else if c == closer then
        match depth with
        | 0 => none
        | depth + 1 => level? opener closer depth s
      else level? opener closer depth s := by
  rw [level?.eq_def]
  dsimp only
  rw [if_neg plain]

/-- The depth after two texts is that after the second, from where the first leads to. -/
theorem level?_append (leads : level? opener closer depth s = some level) (ahead : NoQuoteAhead t) :
    level? opener closer depth (s ++ t) = level? opener closer level t := by
  fun_induction level? opener closer depth s with
  | case1 depth =>
    cases leads
    rfl
  | case2 depth c s delimiter text rest closes ih =>
    rw [List.cons_append,
      level?_literal delimiter (literalTail?_extend closes fun _ => ahead.ne delimiter)]
    exact ih leads
  | case3 => cases leads
  | case4 depth c s plain opens ih =>
    rw [List.cons_append, level?_cons plain, if_pos opens]
    exact ih leads
  | case5 => cases leads
  | case6 c s plain other closes depth ih =>
    rw [List.cons_append, level?_cons plain, if_neg other, if_pos closes]
    exact ih leads
  | case7 depth c s plain other inside ih =>
    rw [List.cons_append, level?_cons plain, if_neg other, if_neg inside]
    exact ih leads

/-- A text leads as far up from a higher depth. -/
theorem level?_add (leads : level? opener closer depth s = some level) (base : Nat) :
    level? opener closer (depth + base) s = some (level + base) := by
  fun_induction level? opener closer depth s with
  | case1 depth =>
    cases leads
    rw [level?]
  | case2 depth c s delimiter text rest closes ih =>
    rw [level?_literal delimiter closes]
    exact ih leads
  | case3 => cases leads
  | case4 depth c s plain opens ih =>
    rw [level?_cons plain, if_pos opens, Nat.add_right_comm]
    exact ih leads
  | case5 => cases leads
  | case6 c s plain other closes depth ih =>
    rw [level?_cons plain, if_neg other, if_pos closes, Nat.succ_add]
    exact ih leads
  | case7 depth c s plain other inside ih =>
    rw [level?_cons plain, if_neg other, if_neg inside]
    exact ih leads

/-- Text without quotes and delimiters leads nowhere. -/
theorem level?_append_of_plain (plain : ∀ c ∈ s, isQuote c = false ∧ c ≠ opener ∧ c ≠ closer)
    (depth : Nat) : level? opener closer depth (s ++ t) = level? opener closer depth t := by
  induction s with
  | nil => rfl
  | cons c s ih =>
    obtain ⟨quote, opens, closes⟩ := plain c List.mem_cons_self
    rw [List.cons_append, level?_cons (by simp [quote]), if_neg (by simpa using opens),
      if_neg (by simpa using closes)]
    exact ih fun d member => plain d (List.mem_cons_of_mem _ member)

theorem level?_of_plain (plain : ∀ c ∈ s, isQuote c = false ∧ c ≠ opener ∧ c ≠ closer)
    (depth : Nat) : level? opener closer depth s = some depth := by
  have alone := level?_append_of_plain plain (t := []) depth
  rw [List.append_nil, level?] at alone
  exact alone

/-- A start of a text that is not cut inside a literal closes nothing too much if the text does
not. -/
theorem level?_left (closed : isClosed s = true)
    (whole : level? opener closer depth (s ++ t) = some level) :
    ∃ between, level? opener closer depth s = some between := by
  fun_induction level? opener closer depth s with
  | case1 depth => exact ⟨depth, rfl⟩
  | case2 depth c s delimiter text rest closes ih =>
    have after : isClosed rest = true := by
      rw [isClosed, if_pos delimiter] at closed
      split at closed
      next found =>
        rw [closes] at found
        cases found
        exact closed
      next => cases closed
    -- A quote at the end of the first text may be doubled by the second. The literal then ends
    -- later in the whole, but nothing of the first text is left to count.
    cases rest with
    | nil => exact ⟨depth, by rw [level?]⟩
    | cons d rest =>
      rw [List.cons_append, level?_literal delimiter
        (literalTail?_extend closes fun none => nomatch none)] at whole
      exact ih after whole
  | case3 depth c s delimiter absent =>
    rw [isClosed, if_pos delimiter] at closed
    split at closed
    next found =>
      rw [absent] at found
      cases found
    next => cases closed
  | case4 depth c s plain opens ih =>
    rw [isClosed, if_neg plain] at closed
    rw [List.cons_append, level?_cons plain, if_pos opens] at whole
    exact ih closed whole
  | case5 c s plain other closes =>
    rw [List.cons_append, level?_cons plain, if_neg other,
      if_pos closes] at whole
    cases whole
  | case6 c s plain other closes depth ih =>
    rw [isClosed, if_neg plain] at closed
    rw [List.cons_append, level?_cons plain, if_neg other,
      if_pos closes] at whole
    exact ih closed whole
  | case7 depth c s plain other inside ih =>
    rw [isClosed, if_neg plain] at closed
    rw [List.cons_append, level?_cons plain, if_neg other,
      if_neg inside] at whole
    exact ih closed whole

/-- No literal of a text with a level is open at its end. -/
theorem isClosed_append (leads : level? opener closer depth s = some level)
    (ahead : NoQuoteAhead t) : isClosed (s ++ t) = isClosed t := by
  fun_induction level? opener closer depth s with
  | case1 => rfl
  | case2 depth c s delimiter text rest closes ih =>
    rw [List.cons_append, isClosed, if_pos delimiter]
    split
    next found =>
      rw [literalTail?_extend closes fun _ => ahead.ne delimiter] at found
      cases found
      exact ih leads
    next absent =>
      rw [literalTail?_extend closes fun _ => ahead.ne delimiter] at absent
      cases absent
  | case3 => cases leads
  | case4 depth c s plain _ ih =>
    rw [List.cons_append, isClosed, if_neg plain]
    exact ih leads
  | case5 => cases leads
  | case6 c s plain _ _ depth ih =>
    rw [List.cons_append, isClosed, if_neg plain]
    exact ih leads
  | case7 depth c s plain _ _ ih =>
    rw [List.cons_append, isClosed, if_neg plain]
    exact ih leads

/-! ## Walks to the end of a group -/

/-- The walk to a closing delimiter passes over a text with a level. -/
theorem fromClosing?_append (leads : level? opener closer depth s = some level)
    (ahead : NoQuoteAhead t) :
    fromClosing? (· == opener) (· == closer) (depth + 1) (s ++ t) =
      fromClosing? (· == opener) (· == closer) (level + 1) t := by
  fun_induction level? opener closer depth s with
  | case1 depth =>
    cases leads
    rfl
  | case2 depth c s delimiter text rest closes ih =>
    rw [List.cons_append, fromClosing?_cons, if_pos delimiter,
      cutLiteral_extend delimiter closes ahead]
    exact ih leads
  | case3 => cases leads
  | case4 depth c s plain opens ih =>
    rw [List.cons_append, fromClosing?_cons, if_neg plain, if_pos opens]
    exact ih leads
  | case5 => cases leads
  | case6 c s plain other closes depth ih =>
    rw [List.cons_append, fromClosing?_cons, if_neg plain, if_neg other, if_pos closes]
    exact ih leads
  | case7 depth c s plain other inside ih =>
    rw [List.cons_append, fromClosing?_cons, if_neg plain, if_neg other, if_neg inside]
    exact ih leads

/-- A group is not closed by a text with a level. -/
theorem fromClosing?_eq_none (leads : level? opener closer depth s = some level) :
    fromClosing? (· == opener) (· == closer) (depth + 1) s = none := by
  have passed := fromClosing?_append leads (t := []) fun c absent => nomatch absent
  rw [List.append_nil] at passed
  rw [passed, fromClosing?]

/-- What stands between a parenthesis just read and the one that closes it leads back to where it
started. -/
theorem cutParenthesis?_of_level (leads : level? '(' ')' 0 s = some 0) (t : List Char) :
    cutParenthesis? (s ++ ')' :: t) = some (s, t) := by
  unfold cutParenthesis?
  rw [fromClosing?_append leads (noQuoteAhead_cons rfl), fromClosing?_cons, if_neg (by decide),
    if_neg (by decide), if_pos (by decide)]
  simp only [Option.map_some, List.length_append, Nat.add_sub_cancel, List.take_left,
    List.tail_cons]

/-- The walk to the end of a body passes over a text with a level. -/
theorem fromBodyEnd?_append (leads : level? '{' '}' depth s = some level) (ahead : NoQuoteAhead t) :
    fromBodyEnd? (depth + 1) (s ++ t) = fromBodyEnd? (level + 1) t := by
  fun_induction level? '{' '}' depth s with
  | case1 depth =>
    cases leads
    rfl
  | case2 depth c s delimiter text rest closes ih =>
    rw [List.cons_append, fromBodyEnd?_cons, if_pos delimiter,
      cutLiteral_extend delimiter closes ahead]
    exact ih leads
  | case3 => cases leads
  | case4 depth c s plain opens ih =>
    rw [List.cons_append, fromBodyEnd?_cons, if_neg plain, if_pos opens]
    exact ih leads
  | case5 => cases leads
  | case6 c s plain other closes depth ih =>
    rw [List.cons_append, fromBodyEnd?_cons, if_neg plain, if_neg other, if_pos closes]
    exact ih leads
  | case7 depth c s plain other inside ih =>
    rw [List.cons_append, fromBodyEnd?_cons, if_neg plain, if_neg other, if_neg inside]
    exact ih leads

/-- A text that leads back to where it started ends at a brace before a semicolon. -/
theorem fromBodyEnd?_of_level (leads : level? '{' '}' 0 s = some 0) (t : List Char) :
    fromBodyEnd? 1 (s ++ '}' :: ';' :: t) = some ('}' :: ';' :: t) := by
  rw [fromBodyEnd?_append leads (noQuoteAhead_cons rfl), fromBodyEnd?_cons, if_neg (by decide),
    if_neg (by decide), if_pos (by decide)]
  exact if_pos rfl

/-- A body is not ended by a text with a level. -/
theorem fromBodyEnd?_eq_none (leads : level? '{' '}' depth s = some level) :
    fromBodyEnd? (depth + 1) s = none := by
  have passed := fromBodyEnd?_append leads (t := []) fun c absent => nomatch absent
  rw [List.append_nil] at passed
  rw [passed, fromBodyEnd?]

/-- Outside of all braces the walk to the end of a body passes over a text that opens none. -/
theorem fromBodyEnd?_append_of_not_mem (leads : level? '{' '}' 0 s = some level)
    (unopened : '{' ∉ s) (ahead : NoQuoteAhead t) : fromBodyEnd? 0 (s ++ t) = fromBodyEnd? 0 t := by
  generalize zero : 0 = depth at leads
  fun_induction level? '{' '}' depth s with
  | case1 => rfl
  | case2 depth c s delimiter text rest closes ih =>
    rw [List.cons_append, fromBodyEnd?_cons, if_pos delimiter,
      cutLiteral_extend delimiter closes ahead]
    refine ih ?_ zero leads
    intro inside
    exact unopened (List.mem_cons_of_mem _
      (literalTail?_append closes ▸ List.mem_append_right _ inside))
  | case3 => cases leads
  | case4 depth c s plain opens ih =>
    rw [eq_of_beq opens] at unopened
    exact absurd List.mem_cons_self unopened
  | case5 => cases leads
  | case6 => cases zero
  | case7 depth c s plain other inside ih =>
    rw [List.cons_append, fromBodyEnd?_cons, if_neg plain, if_neg other, if_neg inside]
    exact ih (fun later => unopened (List.mem_cons_of_mem _ later)) zero leads

end Levels

/-! ## Enclosed texts -/

/-- The bracket that closes an opening bracket. -/
def closerOf? : Char → Option Char
  | '(' => some ')'
  | '[' => some ']'
  | '{' => some '}'
  | _ => none

/-- Whether a text closes its literals and its brackets, each by one of its own kind, and has no
comma outside of them. `closers` are the brackets that close those open at its start, innermost
first. -/
def isEnclosed (closers : List Char) : List Char → Bool
  | [] => closers.isEmpty
  | c :: s =>
    if isQuote c then
      match _closes : literalTail? c s with
      | some (_, rest) => isEnclosed closers rest
      | none => false
    else
      match closerOf? c with
      | some closer => isEnclosed (closer :: closers) s
      | none =>
        if isCloser c then closers.head? == some c && isEnclosed closers.tail s
        else (c != ',' || !closers.isEmpty) && isEnclosed closers s
termination_by s => s.length
decreasing_by
  · exact Nat.lt_succ_of_le (length_of_closes _closes)
  all_goals exact Nat.lt_succ_self _

section Enclosed

variable {closers s t : List Char}

theorem closerOf?_eq_some {opener closer : Char} (pair : closerOf? opener = some closer) :
    opener = '(' ∧ closer = ')' ∨ opener = '[' ∧ closer = ']' ∨ opener = '{' ∧ closer = '}' := by
  unfold closerOf? at pair
  split at pair
  next => exact Or.inl ⟨rfl, (Option.some.inj pair).symm⟩
  next => exact Or.inr (Or.inl ⟨rfl, (Option.some.inj pair).symm⟩)
  next => exact Or.inr (Or.inr ⟨rfl, (Option.some.inj pair).symm⟩)
  next => cases pair

theorem closerOf?_injective {c d closer : Char} (first : closerOf? c = some closer)
    (second : closerOf? d = some closer) : c = d := by
  rcases closerOf?_eq_some first with ⟨rfl, rfl⟩ | ⟨rfl, rfl⟩ | ⟨rfl, rfl⟩ <;>
    rcases closerOf?_eq_some second with ⟨rfl, same⟩ | ⟨rfl, same⟩ | ⟨rfl, same⟩ <;> trivial

theorem isCloser_of_closerOf? {opener closer : Char} (pair : closerOf? opener = some closer) :
    isCloser closer = true ∧ closerOf? closer = none := by
  rcases closerOf?_eq_some pair with ⟨-, rfl⟩ | ⟨-, rfl⟩ | ⟨-, rfl⟩ <;> decide

theorem isOpener_eq (c : Char) : isOpener c = (closerOf? c).isSome := by
  unfold closerOf?
  split
  next => rfl
  next => rfl
  next => rfl
  next round square brace =>
    unfold isOpener
    rw [beq_eq_false_iff_ne.2 round, beq_eq_false_iff_ne.2 square, beq_eq_false_iff_ne.2 brace]
    rfl

theorem ne_of_closerOf? {opener closer c : Char} (pair : closerOf? opener = some closer)
    (notOpener : isOpener c = false) (notCloser : isCloser c = false) :
    c ≠ opener ∧ c ≠ closer := by
  constructor
  · rintro rfl
    rw [isOpener_eq, pair] at notOpener
    cases notOpener
  · rintro rfl
    rw [(isCloser_of_closerOf? pair).1] at notCloser
    cases notCloser

/-- An enclosed text leads back to where it started in each kind of brackets. -/
theorem level?_of_isEnclosed {opener closer : Char} (pair : closerOf? opener = some closer)
    (enclosed : isEnclosed closers s = true) :
    level? opener closer (closers.count closer) s = some 0 := by
  obtain ⟨isCloser, notOpener⟩ := isCloser_of_closerOf? pair
  fun_induction isEnclosed closers s with
  | case1 closers =>
    rw [List.isEmpty_iff.1 enclosed, List.count_nil, level?]
  | case2 closers c s delimiter text rest closes ih =>
    rw [level?_literal delimiter closes]
    exact ih enclosed
  | case3 => cases enclosed
  | case4 closers c s plain d opens ih =>
    have later := ih enclosed
    by_cases same : c = opener
    · subst same
      rw [pair] at opens
      cases opens
      rw [List.count_cons_self] at later
      rw [level?_cons plain, if_pos BEq.rfl]
      exact later
    · have other : d ≠ closer := fun twin => same (closerOf?_injective (twin ▸ opens) pair)
      have open' : c ≠ closer := by
        rintro rfl
        rw [notOpener] at opens
        cases opens
      rw [List.count_cons_of_ne other] at later
      rw [level?_cons plain, if_neg (by simpa using same), if_neg (by simpa using open')]
      exact later
  | case5 closers c s plain absent _ ih =>
    obtain ⟨innermost, inside⟩ := Bool.and_eq_true_iff.1 enclosed
    have other : c ≠ opener := by
      rintro rfl
      rw [pair] at absent
      cases absent
    obtain ⟨outer, rfl⟩ := List.head?_eq_some_iff.1 (eq_of_beq innermost)
    have later := ih inside
    rw [List.tail_cons] at later
    rw [level?_cons plain, if_neg (by simpa using other)]
    by_cases same : c = closer
    · rw [if_pos (by simpa using same), same, List.count_cons_self]
      exact later
    · rw [if_neg (by simpa using same), List.count_cons_of_ne same]
      exact later
  | case6 closers c s plain absent inner ih =>
    have other : c ≠ opener := by
      rintro rfl
      rw [pair] at absent
      cases absent
    have outer : c ≠ closer := by
      rintro rfl
      exact inner isCloser
    rw [level?_cons plain, if_neg (by simpa using other), if_neg (by simpa using outer)]
    exact ih (Bool.and_eq_true_iff.1 enclosed).2

/-- An enclosed text closes the brackets that are open and has no separator behind them. -/
theorem segmentDepth?_of_isEnclosed (enclosed : isEnclosed closers s = true) :
    segmentDepth? ',' closers.length s = some 0 := by
  fun_induction isEnclosed closers s with
  | case1 closers => rw [List.isEmpty_iff.1 enclosed, List.length_nil, segmentDepth?]
  | case2 closers c s delimiter text rest closes ih =>
    rw [segmentDepth?_literal delimiter closes]
    exact ih enclosed
  | case3 => cases enclosed
  | case4 closers c s plain d opens ih =>
    have opener : isOpener c = true := by
      rw [isOpener_eq, opens]
      rfl
    rw [segmentDepth?_cons plain, if_pos opener]
    exact ih enclosed
  | case5 closers c s plain absent closes ih =>
    have opener : ¬isOpener c = true := by
      rw [isOpener_eq, absent]
      exact Bool.false_ne_true
    rw [segmentDepth?_cons plain, if_neg opener, if_pos closes, ← List.length_tail]
    exact ih (Bool.and_eq_true_iff.1 enclosed).2
  | case6 closers c s plain absent inner ih =>
    have opener : ¬isOpener c = true := by
      rw [isOpener_eq, absent]
      exact Bool.false_ne_true
    obtain ⟨joined, later⟩ := Bool.and_eq_true_iff.1 enclosed
    have separates : ¬(c == ',' && closers.length == 0) = true := by
      rw [Bool.and_eq_true, beq_iff_eq, beq_iff_eq, List.length_eq_zero_iff]
      rintro ⟨rfl, rfl⟩
      exact absurd joined (by decide)
    rw [segmentDepth?_cons plain, if_neg opener, if_neg inner, if_neg separates]
    exact ih later

/-- Text without quotes, brackets and commas encloses nothing. -/
theorem isEnclosed_append_of_plain (closers : List Char)
    (plain : ∀ c ∈ s, isQuote c = false ∧ isOpener c = false ∧ isCloser c = false ∧ c ≠ ',') :
    isEnclosed closers (s ++ t) = isEnclosed closers t := by
  induction s with
  | nil => rfl
  | cons c s ih =>
    obtain ⟨quote, opener, closer, comma⟩ := plain c List.mem_cons_self
    rw [isOpener_eq, Option.isSome_eq_false_iff, Option.isNone_iff_eq_none] at opener
    rw [List.cons_append, isEnclosed.eq_def]
    dsimp only
    rw [if_neg (by simp [quote]), opener]
    dsimp only
    rw [if_neg (by simp [closer]), bne_iff_ne.2 comma, Bool.true_or, Bool.true_and]
    exact ih fun d member => plain d (List.mem_cons_of_mem _ member)

/-- Balanced text leads back to where it started in each kind of brackets. -/
theorem Balanced.level? {opener closer : Char} (pair : closerOf? opener = some closer)
    {commas : Bool} (balanced : Balanced commas s) (depth : Nat) :
    level? opener closer depth s = some depth := by
  induction balanced generalizing depth with
  | nil => rw [Source.level?]
  | plain quote isOpener isCloser _ _ ih =>
    obtain ⟨opens, closes⟩ := ne_of_closerOf? pair isOpener isCloser
    rw [level?_cons (by simp [quote]), if_neg (by simpa using opens),
      if_neg (by simpa using closes)]
    exact ih depth
  | literal delimiter closed ahead _ ih =>
    rw [level?_literal delimiter (literalTail?_closed closed (ahead.ne delimiter))]
    exact ih depth
  | group _ _ ihWithin ih =>
    rw [level?_cons (by decide)]
    rcases closerOf?_eq_some pair with ⟨rfl, rfl⟩ | ⟨rfl, rfl⟩ | ⟨rfl, rfl⟩
    · rw [if_pos (by decide), level?_append (ihWithin (depth + 1)) (noQuoteAhead_cons rfl),
        level?_cons (by decide), if_neg (by decide), if_pos (by decide)]
      exact ih depth
    all_goals
      rw [if_neg (by decide), if_neg (by decide),
        level?_append (ihWithin depth) (noQuoteAhead_cons rfl), level?_cons (by decide),
        if_neg (by decide), if_neg (by decide)]
      exact ih depth

end Enclosed

/-! ## Outlines of declarations -/

section Outlines

variable {content : List Char} {o : Occurrence Header} {inside between afterBrace : List Char}
  {parameters : List Parameter}

/-- Without a parenthesis that closes its parameters a declaration is malformed. -/
theorem outline_of_unclosed (unclosed : fromClosing? (· == '(') (· == ')') 1 o.rest = none) :
    ∃ fault, outline content o = .error fault := by
  have uncut : cutParenthesis? o.rest = none := by
    unfold cutParenthesis?
    rw [unclosed]
    rfl
  unfold outline
  dsimp only
  rw [uncut]
  exact ⟨_, rfl⟩

/-- What a declaration has between its parameters and the brace that opens its body. -/
structure Opened (rest inside between afterBrace : List Char) (parameters : List Parameter) :
    Prop where
  shape : rest = inside ++ ')' :: (between ++ '{' :: afterBrace)
  level : level? '(' ')' 0 inside = some 0
  read : readParameters inside = .ok parameters
  clear : ∀ c ∈ between, (c != '{' && c != ';') = true

/-- The outline of a declaration up to its brace leaves the end of the body to be found. -/
theorem Opened.outline (opened : Opened o.rest inside between afterBrace parameters)
    (content : List Char) :
    outline content o =
      match fromBodyEnd? 1 afterBrace with
      | none => .error (.unbalancedBody o.value.qualifier o.value.name)
      | some fromBrace => .ok (some
          { parameters := parameters
            signature := o.value.fromQualifier.take
              (o.value.fromQualifier.length - ('{' :: afterBrace).length)
            body := afterBrace.take (afterBrace.length - fromBrace.length)
            bodyOffset := content.length - afterBrace.length
            endOffset := content.length - (fromBrace.dropWhile (· != ';')).length }) := by
  have brace : (between ++ '{' :: afterBrace).dropWhile (fun c => c != '{' && c != ';') =
      '{' :: afterBrace := by
    rw [List.dropWhile_append_of_pos opened.clear]
    rfl
  unfold Source.outline
  dsimp only
  rw [opened.shape, cutParenthesis?_of_level opened.level]
  dsimp only
  rw [opened.read, brace]
  dsimp only [bind, Except.bind]
  rw [if_neg (by decide)]
  cases fromBodyEnd? 1 afterBrace with
  | none => rfl
  | some fromBrace => rfl

end Outlines

end CallAtlas.Source
