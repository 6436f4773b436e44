import CallAtlas.Proofs.Source.Balanced

/-!
# Lists of segments

A text is cut into segments at the separators outside of brackets and literals. Brackets of all
kinds share one depth, and a closing bracket too many leaves it at zero, so what a text does to the
walk is the depth that it leads to (`segmentDepth?`). The depth is found by looking at the text
alone: what stands behind it can change only how a literal ends that is open or doubled there, and
neither a separator nor the end of the text is a quote (`piecesFrom_of_segmentDepth`).

So texts that lead from depth zero to depth zero, joined by separators, are cut into themselves
again, and the pieces of any text joined by separators are that text (`segments_intercalate`).
-/

namespace CallAtlas.Source

/-- The depth in brackets of any kind after a text that starts at a depth; none if the text has a
separator outside of brackets and literals or leaves a literal open. A closing bracket too many is
ignored. -/
def segmentDepth? (separator : Char) (depth : Nat) : List Char → Option Nat
  | [] => some depth
  | c :: s =>
    if isQuote c then
      match _closes : literalTail? c s with
      | some (_, rest) => segmentDepth? separator depth rest
      | none => none
    else if isOpener c then segmentDepth? separator (depth + 1) s
    else if isCloser c then segmentDepth? separator (depth - 1) s
    else if c == separator && depth == 0 then none
    else segmentDepth? separator depth s
termination_by s => s.length
decreasing_by
  · exact Nat.lt_succ_of_le (length_of_closes _closes)
  all_goals exact Nat.lt_succ_self _

section Segments

variable {separator : Char} {depth level : Nat} {s t : List Char}

/-! ## Depths -/

theorem segmentDepth?_literal {quote : Char} {text rest : List Char}
    (delimiter : isQuote quote = true) (closes : literalTail? quote s = some (text, rest)) :
    segmentDepth? separator depth (quote :: s) = segmentDepth? separator depth rest := by
  rw [segmentDepth?.eq_def]
  dsimp only
  rw [if_pos delimiter]
  split
  next found =>
    rw [closes] at found
    cases found
    rfl
  next absent =>
    rw [closes] at absent
    cases absent

theorem segmentDepth?_cons {c : Char} (plain : ¬isQuote c = true) :
    segmentDepth? separator depth (c :: s) =
      if isOpener c then segmentDepth? separator (depth + 1) s
      else if isCloser c then segmentDepth? separator (depth - 1) s
      else if c == separator && depth == 0 then none
      else segmentDepth? separator depth s := by
  rw [segmentDepth?.eq_def]
  dsimp only
  rw [if_neg plain]

/-- The depth after two texts is that after the second, from where the first leads to. -/
theorem segmentDepth?_append (leads : segmentDepth? separator depth s = some level)
    (ahead : NoQuoteAhead t) :
    segmentDepth? separator depth (s ++ t) = segmentDepth? separator level t := by
  fun_induction segmentDepth? separator depth s with
  | case1 depth =>
    cases leads
    rfl
  | case2 depth c s delimiter text rest closes ih =>
    rw [List.cons_append,
      segmentDepth?_literal delimiter (literalTail?_extend closes fun _ => ahead.ne delimiter)]
    exact ih leads
  | case3 => cases leads
  | case4 depth c s plain opener ih =>
    rw [List.cons_append, segmentDepth?_cons plain, if_pos opener]
    exact ih leads
  | case5 depth c s plain opener closer ih =>
    rw [List.cons_append, segmentDepth?_cons plain, if_neg opener, if_pos closer]
    exact ih leads
  | case6 => cases leads
  | case7 depth c s plain opener closer joined ih =>
    rw [List.cons_append, segmentDepth?_cons plain, if_neg opener, if_neg closer, if_neg joined]
    exact ih leads

/-- Text without quotes, brackets and separators leads nowhere. -/
theorem segmentDepth?_append_of_plain
    (plain : ∀ c ∈ s, isQuote c = false ∧ isOpener c = false ∧ isCloser c = false ∧ c ≠ separator)
    (depth : Nat) : segmentDepth? separator depth (s ++ t) = segmentDepth? separator depth t := by
  induction s with
  | nil => rfl
  | cons c s ih =>
    obtain ⟨quote, opener, closer, other⟩ := plain c List.mem_cons_self
    rw [List.cons_append, segmentDepth?_cons (by simp [quote]), if_neg (by simp [opener]),
      if_neg (by simp [closer]), if_neg (by simp [other])]
    exact ih fun d member => plain d (List.mem_cons_of_mem _ member)

/-- Balanced text leads back to where it started, if it is inside brackets or has no comma
outside. -/
theorem Balanced.segmentDepth? {commas : Bool} (balanced : Balanced commas s)
    (inside : commas = false ∨ 0 < depth) : segmentDepth? ',' depth s = some depth := by
  induction balanced generalizing depth with
  | nil => rw [Source.segmentDepth?]
  | @plain commas c s quote opener closer comma _ ih =>
    have joined : ¬(c == ',' && depth == 0) = true := by
      rw [Bool.and_eq_true, beq_iff_eq, beq_iff_eq]
      rintro ⟨same, zero⟩
      rcases inside with none | positive
      · exact comma none same
      · omega
    rw [segmentDepth?_cons (by simp [quote]), if_neg (by simp [opener]), if_neg (by simp [closer]),
      if_neg joined]
    exact ih inside
  | literal delimiter closed next _ ih =>
    rw [segmentDepth?_literal delimiter (literalTail?_closed closed (next.ne delimiter))]
    exact ih inside
  | group _ _ ihWithin ih =>
    rw [segmentDepth?_cons (by decide), if_pos (by decide),
      segmentDepth?_append (ihWithin (Or.inr (Nat.succ_pos depth))) (noQuoteAhead_cons rfl),
      segmentDepth?_cons (by decide), if_neg (by decide), if_pos (by decide)]
    exact ih inside

/-! ## Pieces -/

/-- The walk along a list of segments takes a text with a depth into the piece under way. -/
theorem piecesFrom_of_segmentDepth (leads : segmentDepth? separator depth s = some level)
    (ahead : NoQuoteAhead t) (piece : List Char) :
    piecesFrom (· == separator) depth piece (s ++ t) =
      piecesFrom (· == separator) level (s.reverse ++ piece) t := by
  fun_induction segmentDepth? separator depth s generalizing piece with
  | case1 depth =>
    cases leads
    rfl
  | case2 depth c s delimiter text rest closes ih =>
    rw [List.cons_append, piecesFrom, if_pos delimiter, cutLiteral_extend delimiter closes ahead,
      ih leads, ← literalTail?_append closes]
    simp only [List.reverse_cons, List.reverse_append, List.append_assoc, List.cons_append,
      List.nil_append]
  | case3 => cases leads
  | case4 depth c s plain opener ih =>
    rw [List.cons_append, piecesFrom, if_neg plain, if_pos opener, ih leads, List.reverse_cons,
      List.append_assoc, List.singleton_append]
  | case5 depth c s plain opener closer ih =>
    rw [List.cons_append, piecesFrom, if_neg plain, if_neg opener, if_pos closer, ih leads,
      List.reverse_cons, List.append_assoc, List.singleton_append]
  | case6 => cases leads
  | case7 depth c s plain opener closer joined ih =>
    rw [List.cons_append, piecesFrom, if_neg plain, if_neg opener, if_neg closer, if_neg joined,
      ih leads, List.reverse_cons, List.append_assoc, List.singleton_append]

/-- Texts that lead from depth zero to depth zero are the pieces of what they make when they are
joined. -/
theorem piecesFrom_intercalate {x : List Char} {xs : List (List Char)}
    (quote : isQuote separator = false) (opener : isOpener separator = false)
    (closer : isCloser separator = false)
    (each : ∀ y ∈ x :: xs, segmentDepth? separator 0 y = some 0) :
    piecesFrom (· == separator) 0 [] ([separator].intercalate (x :: xs)) = x :: xs := by
  induction xs generalizing x with
  | nil =>
    have walk := piecesFrom_of_segmentDepth (each x List.mem_cons_self) (t := [])
      (fun c absent => nomatch absent) []
    rw [List.append_nil, List.append_nil] at walk
    rw [List.intercalate_singleton, walk, piecesFrom, List.reverse_reverse]
  | cons y ys ih =>
    have later := ih fun z member => each z (List.mem_cons_of_mem _ member)
    rw [List.intercalate_cons_cons, List.append_assoc, List.singleton_append,
      piecesFrom_of_segmentDepth (each x List.mem_cons_self) (noQuoteAhead_cons quote), piecesFrom,
      if_neg (by simp [quote]), if_neg (by simp [opener]), if_neg (by simp [closer]),
      if_pos (by simp), later, List.append_nil, List.reverse_reverse]

theorem piecesFrom_ne_nil (isSeparator : Char → Bool) (depth : Nat) (piece s : List Char) :
    piecesFrom isSeparator depth piece s ≠ [] := by
  fun_induction piecesFrom isSeparator depth piece s with
  | case1 => exact List.cons_ne_nil _ _
  | case2 _ _ _ _ _ ih => exact ih
  | case3 _ _ _ _ _ _ ih => exact ih
  | case4 _ _ _ _ _ _ _ ih => exact ih
  | case5 => exact List.cons_ne_nil _ _
  | case6 _ _ _ _ _ _ _ _ ih => exact ih

/-- The pieces of a text, joined, are the text. -/
theorem intercalate_piecesFrom (separator : Char) (depth : Nat) (piece s : List Char) :
    [separator].intercalate (piecesFrom (· == separator) depth piece s) = piece.reverse ++ s := by
  fun_induction piecesFrom (· == separator) depth piece s with
  | case1 depth piece => rw [List.intercalate_singleton, List.append_nil]
  | case2 depth piece c s _ ih =>
    rw [ih, List.reverse_append, List.reverse_reverse, List.append_assoc, cutLiteral_append]
  | case3 depth piece c s _ _ ih =>
    rw [ih, List.reverse_cons, List.append_assoc, List.singleton_append]
  | case4 depth piece c s _ _ _ ih =>
    rw [ih, List.reverse_cons, List.append_assoc, List.singleton_append]
  | case5 depth piece c s _ _ _ ends ih =>
    rw [Bool.and_eq_true, beq_iff_eq] at ends
    rw [List.intercalate_cons_of_ne_nil (piecesFrom_ne_nil _ _ _ _), ih, List.append_assoc,
      List.singleton_append, ends.1]
    rfl
  | case6 depth piece c s _ _ _ _ ih =>
    rw [ih, List.reverse_cons, List.append_assoc, List.singleton_append]

theorem intercalate_cons (separator : Char) (x : List Char) (xs : List (List Char)) :
    [separator].intercalate (x :: xs) = x ++ xs.flatMap (separator :: ·) := by
  induction xs generalizing x with
  | nil => rw [List.intercalate_singleton, List.flatMap_nil, List.append_nil]
  | cons y ys ih =>
    rw [List.intercalate_cons_cons, ih, List.flatMap_cons, List.append_assoc,
      List.singleton_append, List.cons_append]

/-- Joined texts that are not blank have these texts as their segments, trimmed. -/
theorem segments_of_each {parts : List (List Char)} (quote : isQuote separator = false)
    (opener : isOpener separator = false) (closer : isCloser separator = false)
    (each : ∀ x ∈ parts, segmentDepth? separator 0 x = some 0)
    (inked : Text.isAllBlank ([separator].intercalate parts) = false) :
    segments (· == separator) ([separator].intercalate parts) = parts.map Text.trim := by
  cases parts with
  | nil => cases inked
  | cons x xs =>
    unfold segments
    rw [if_neg (by simp [inked]), piecesFrom_intercalate quote opener closer each]

end Segments

/-- **Cutting into segments undoes joining.** Texts that lead from depth zero to depth zero, without
a separator there or an open literal, are the segments of what they make when they are joined,
trimmed, unless that is blank; so as many arguments are counted as were joined by commas. The
segments of any text are pieces of it, trimmed, which make the text when they are joined. -/
theorem segments_intercalate {separator : Char} (quote : isQuote separator = false)
    (opener : isOpener separator = false) (closer : isCloser separator = false) :
    (∀ parts : List (List Char), (∀ x ∈ parts, segmentDepth? separator 0 x = some 0) →
      Text.isAllBlank ([separator].intercalate parts) = false →
      segments (· == separator) ([separator].intercalate parts) = parts.map Text.trim) ∧
    (∀ parts : List (List Char), (∀ x ∈ parts, segmentDepth? ',' 0 x = some 0) →
      Text.isAllBlank ([','].intercalate parts) = false →
      countArguments ([','].intercalate parts) = parts.length) ∧
    ∀ s, ∃ pieces, [separator].intercalate pieces = s ∧
      segments (· == separator) s = if Text.isAllBlank s then [] else pieces.map Text.trim := by
  refine ⟨fun parts => segments_of_each quote opener closer, ?_, ?_⟩
  · intro parts each inked
    rw [countArguments, arguments, segments_of_each rfl rfl rfl each inked, List.length_map]
  · intro s
    exact ⟨piecesFrom (· == separator) 0 [] s, intercalate_piecesFrom separator 0 [] s, rfl⟩

/-- Segments whose brackets match none of their own kind, with separators in brackets and literals,
and a blank one. -/
def mixedSegments : List (List Char) :=
  ["(a,b] ".toList, "])'),(' ".toList, " ".toList, "f(\"),\")".toList]

/-- The walk through the joined text comes to each segment at depth zero, whatever its neighbours
are. -/
theorem mixedSegments_joined :
    isQuote ',' = false ∧ isOpener ',' = false ∧ isCloser ',' = false ∧
      (∀ x ∈ mixedSegments, segmentDepth? ',' 0 x = some 0) ∧
      Text.isAllBlank ([','].intercalate mixedSegments) = false ∧
      segments (· == ',') "(a,b] ,])'),(' , ,f(\"),\")".toList =
        ["(a,b]".toList, "])'),('".toList, [], "f(\"),\")".toList] ∧
      countArguments "(a,b] ,])'),(' , ,f(\"),\")".toList = 4 := by
  have each : ∀ x ∈ mixedSegments, segmentDepth? ',' 0 x = some 0 := by decide +kernel
  have inked : Text.isAllBlank ([','].intercalate mixedSegments) = false := by decide +kernel
  obtain ⟨cut, counted, -⟩ := @segments_intercalate ',' rfl rfl rfl
  exact ⟨rfl, rfl, rfl, each, inked, cut mixedSegments each inked,
    counted mixedSegments each inked⟩

end CallAtlas.Source
