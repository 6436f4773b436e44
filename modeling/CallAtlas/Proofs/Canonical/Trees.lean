import CallAtlas.Proofs.Canonical.Scanning
import CallAtlas.Proofs.Source.Segments

/-!
# Texts of trees

The text of a tree that fits is balanced, no comment starts in it, and no statement does. Each of
these goes by induction on why the tree fits; the arguments of a call are a list of texts with
commas between them, so each has a lemma about such lists before it.
-/

namespace CallAtlas.Canonical

open Source

/-! ## Characters of names -/

theorem ne_of_isNameChar {c d : Char} (nameChar : Text.isNameChar c = true)
    (other : Text.isNameChar d = false) : c ≠ d := by
  rintro rfl
  rw [nameChar] at other
  cases other

/-- The quotes, the brackets and the comma. -/
def delimiters : List Char :=
  ['"', '\'', '(', '[', '{', ')', ']', '}', ',']

/-- A character of a class without delimiters is plain. -/
theorem plain_of_class {p : Char → Bool} {c : Char} (holds : p c = true)
    (outside : delimiters.any p = false) :
    isQuote c = false ∧ isOpener c = false ∧ isCloser c = false ∧ c ≠ ',' := by
  have differs : ∀ d ∈ delimiters, (c == d) = false := by
    intro d listed
    rw [beq_eq_false_iff_ne]
    rintro rfl
    exact List.any_eq_false.1 outside c listed holds
  refine ⟨?_, ?_, ?_, ?_⟩
  · unfold isQuote
    rw [differs '"' (by decide), differs '\'' (by decide)]
    rfl
  · unfold isOpener
    rw [differs '(' (by decide), differs '[' (by decide), differs '{' (by decide)]
    rfl
  · unfold isCloser
    rw [differs ')' (by decide), differs ']' (by decide), differs '}' (by decide)]
    rfl
  · exact beq_eq_false_iff_ne.1 (differs ',' (by decide))

theorem plain_of_isNameChar {c : Char} (nameChar : Text.isNameChar c = true) :
    isQuote c = false ∧ isOpener c = false ∧ isCloser c = false ∧ c ≠ ',' :=
  plain_of_class nameChar (by decide)

theorem plain_of_isBlank {c : Char} (blank : Text.isBlank c = true) :
    isQuote c = false ∧ isOpener c = false ∧ isCloser c = false ∧ c ≠ ',' :=
  plain_of_class blank (by decide)

theorem isName_iff {s : List Char} :
    isName s = true ↔ s ≠ [] ∧ ∀ c ∈ s, Text.isNameChar c = true := by
  unfold isName
  rw [Bool.and_eq_true, Bool.not_eq_true', List.isEmpty_eq_false_iff, List.all_eq_true]

theorem isName_cons {c : Char} {s : List Char} (first : Text.isNameChar c = true)
    (more : ∀ d ∈ s, Text.isNameChar d = true) : isName (c :: s) = true := by
  refine isName_iff.2 ⟨List.cons_ne_nil _ _, ?_⟩
  intro d member
  rcases List.mem_cons.1 member with rfl | later
  · exact first
  · exact more d later

theorem isNameChar_of_isDigit {c : Char} (digit : c.isDigit = true) :
    Text.isNameChar c = true := by
  have ascii : c.toNat < 0x80 := by
    unfold Char.isDigit at digit
    simp only [Bool.and_eq_true, decide_eq_true_eq, ge_iff_le, UInt32.le_iff_toNat_le] at digit
    have : '9'.val.toNat = 57 := rfl
    change c.val.toNat < 0x80
    omega
  unfold Text.isNameChar Text.isWord
  rw [if_pos ascii, Char.isAlphanum, digit, Bool.or_true]
  rfl

theorem isName_of_isNumeral {s : List Char} (numeral : isNumeral s = true) : isName s = true := by
  cases s with
  | nil => cases numeral
  | cons c s =>
    obtain ⟨digit, more⟩ := Bool.and_eq_true_iff.1 numeral
    exact isName_cons (isNameChar_of_isDigit digit) (List.all_eq_true.1 more)

theorem isName_of_isQualifier {s : List Char} (qualifier : isQualifier s = true) :
    isName s = true := by
  cases s with
  | nil => cases qualifier
  | cons c s =>
    obtain ⟨start, more⟩ := Bool.and_eq_true_iff.1 qualifier
    exact isName_cons (nameChar_of_isNameStart start) (List.all_eq_true.1 more)

theorem isNameChar_of_isFunctionChar {c : Char} (function : isFunctionChar c = true) :
    Text.isNameChar c = true := by
  unfold isFunctionChar at function
  unfold Text.isNameChar
  rw [Bool.or_eq_true] at function
  rcases function with word | hyphen
  · rw [word]
    rfl
  · rw [hyphen, Bool.or_true]

theorem isNameChar_of_isFunctionTail {s : List Char} (tail : isFunctionTail s = true) :
    ∀ c ∈ s, Text.isNameChar c = true := by
  induction s with
  | nil => exact fun c member => nomatch member
  | cons c s ih =>
    obtain ⟨first, more⟩ := Bool.and_eq_true_iff.1 tail
    intro d member
    rcases List.mem_cons.1 member with rfl | later
    · rw [Bool.or_eq_true] at first
      rcases first with function | point
      · exact isNameChar_of_isFunctionChar function
      · rw [eq_of_beq (Bool.and_eq_true_iff.1 point).1]
        decide
    · exact ih more d later

theorem isName_of_isFunctionName {s : List Char} (name : isFunctionName s = true) :
    isName s = true := by
  cases s with
  | nil => cases name
  | cons c s =>
    obtain ⟨start, more⟩ := Bool.and_eq_true_iff.1 name
    exact isName_cons (nameChar_of_isNameStart start) (isNameChar_of_isFunctionTail more)

/-- A name has no blanks, quotes, brackets, commas and colons. -/
theorem solid_of_isName {s : List Char} (name : isName s = true) :
    ∀ c ∈ s, Text.isBlank c = false := fun c member =>
  Text.not_blank_of_isNameChar ((isName_iff.1 name).2 c member)

theorem not_mem_of_isName {s : List Char} {d : Char} (name : isName s = true)
    (other : Text.isNameChar d = false) : d ∉ s := fun member =>
  ne_of_isNameChar ((isName_iff.1 name).2 d member) other rfl

theorem of_isQuote {c : Char} (quote : isQuote c = true) :
    Text.isBlank c = false ∧ c.isAlpha = false ∧ c ≠ ':' := by
  rcases Bool.or_eq_true_iff.1 quote with double | single
  · rw [eq_of_beq double]
    decide
  · rw [eq_of_beq single]
    decide

/-! ## Lists of texts -/

theorem separated_cons_cons (x y : List Char) (ys : List (List Char)) :
    separated (x :: y :: ys) = x ++ ',' :: ' ' :: separated (y :: ys) := rfl

theorem separated_singleton (x : List Char) : separated [x] = x :=
  List.append_nil x

theorem renderAll_eq_map (es : List Expr) : Expr.renderAll es = es.map Expr.render := by
  induction es with
  | nil => rfl
  | cons e es ih => rw [Expr.renderAll, ih, List.map_cons]

theorem callsAll_eq_flatMap (es : List Expr) : Expr.callsAll es = es.flatMap Expr.calls := by
  induction es with
  | nil => rfl
  | cons e es ih => rw [Expr.callsAll, ih, List.flatMap_cons]

theorem balanced_separated {xs : List (List Char)} (balanced : ∀ x ∈ xs, Balanced false x) :
    Balanced true (separated xs) := by
  induction xs with
  | nil => exact .nil
  | cons x xs ih =>
    have first := (balanced x List.mem_cons_self).allowCommas
    cases xs with
    | nil =>
      rw [separated_singleton]
      exact first
    | cons y ys =>
      have later := ih fun z member => balanced z (List.mem_cons_of_mem _ member)
      have joined : Balanced true (',' :: ' ' :: separated (y :: ys)) :=
        .plain rfl rfl rfl (fun absent => nomatch absent)
          (.plain rfl rfl rfl (fun absent => nomatch absent) later)
      rw [separated_cons_cons]
      exact first.append joined (noQuoteAhead_cons rfl)

/-- The arguments of a list of texts are the texts, trimmed. -/
theorem arguments_separated {xs : List (List Char)} (balanced : ∀ x ∈ xs, Balanced false x)
    (solid : ∀ x ∈ xs, ∃ c ∈ x, Text.isBlank c = false) :
    arguments (separated xs) = xs.map Text.trim := by
  cases xs with
  | nil => rfl
  | cons x xs =>
    have joined : separated (x :: xs) = [','].intercalate (x :: xs.map (' ' :: ·)) := by
      rw [intercalate_cons, List.flatMap_map]
      rfl
    have each : ∀ y ∈ x :: xs.map (' ' :: ·), segmentDepth? ',' 0 y = some 0 := by
      intro y member
      apply Balanced.segmentDepth? _ (Or.inl rfl)
      rcases List.mem_cons.1 member with rfl | later
      · exact balanced y List.mem_cons_self
      · obtain ⟨z, listed, rfl⟩ := List.mem_map.1 later
        exact .plain rfl rfl rfl (by decide) (balanced z (List.mem_cons_of_mem _ listed))
    have inked : Text.isAllBlank ([','].intercalate (x :: xs.map (' ' :: ·))) = false := by
      obtain ⟨c, member, other⟩ := solid x List.mem_cons_self
      rw [intercalate_cons]
      exact List.all_eq_false.2 ⟨c, List.mem_append_left _ member, by simp [other]⟩
    rw [joined, arguments, segments_of_each rfl rfl rfl each inked, List.map_cons, List.map_map,
      List.map_cons]
    rfl

/-! ## Literals and calls -/

/-- A literal has no colon if there is none between its quotes. -/
theorem colon_not_mem_literal {quote : Char} {text : List Char} (delimiter : isQuote quote = true)
    (colon : ':' ∉ text) : ':' ∉ quote :: (text ++ [quote]) := by
  have other : ':' ≠ quote := (of_isQuote delimiter).2.2.symm
  rw [List.mem_cons, List.mem_append, List.mem_singleton]
  rintro (same | inside | same)
  · exact other same
  · exact colon inside
  · exact other same

theorem balanced_of_isName {s : List Char} (name : isName s = true) : Balanced false s :=
  balanced_of_plain fun c member => plain_of_isNameChar ((isName_iff.1 name).2 c member)

/-- A call is balanced if its arguments are. -/
theorem balanced_call {qualifier name : String} {gap : List Char} {xs : List (List Char)}
    (grammar : isQualifier qualifier.toList = true) (named : isFunctionName name.toList = true)
    (blank : ∀ c ∈ gap, Text.isBlank c = true) (balanced : ∀ x ∈ xs, Balanced false x) :
    Balanced false ((qualifier.toList ++ ':' :: name.toList) ++
      (gap ++ '(' :: (separated xs ++ [')']))) := by
  have head : Balanced false (qualifier.toList ++ ':' :: name.toList) :=
    (balanced_of_isName (isName_of_isQualifier grammar)).append
      (.plain rfl rfl rfl (fun _ => by decide)
        (balanced_of_isName (isName_of_isFunctionName named)))
      (noQuoteAhead_cons rfl)
  have spaces : Balanced false gap :=
    balanced_of_plain fun c member => plain_of_isBlank (blank c member)
  have parenthesised : Balanced false ('(' :: (separated xs ++ [')'])) :=
    .group (balanced_separated balanced) .nil
  rw [← List.append_assoc]
  refine (head.append spaces ?_).append parenthesised (noQuoteAhead_cons rfl)
  intro c first
  exact (plain_of_isBlank (blank c (List.mem_of_mem_head? first))).1

/-! ## The text of a tree -/

section Trees

variable {known : List String} {e : Expr}

theorem render_call (qualifier name : String) (arguments : List Expr) :
    (Expr.call qualifier name arguments).render =
      (qualifier.toList ++ ':' :: name.toList) ++
        ('(' :: (separated (arguments.map Expr.render) ++ [')'])) := by
  rw [Expr.render, renderAll_eq_map]

/-- A tree starts with a character that is neither blank nor a colon. -/
theorem Expr.Fits.head (fits : e.Fits known) :
    ∃ c s, e.render = c :: s ∧ Text.isBlank c = false ∧ c ≠ ':' := by
  have ofName : ∀ {s : List Char}, isName s = true →
      ∃ c more, s = c :: more ∧ Text.isBlank c = false ∧ c ≠ ':' := by
    intro s name
    cases s with
    | nil => cases name
    | cons c more =>
      exact ⟨c, more, rfl, solid_of_isName name c List.mem_cons_self,
        ne_of_isNameChar ((isName_iff.1 name).2 c List.mem_cons_self) (by decide)⟩
  cases fits with
  | var chars => exact ⟨'$', _, rfl, by decide, by decide⟩
  | numeral chars => exact ofName (isName_of_isNumeral chars)
  | @literal quote text delimiter closed colon words =>
    have facts := of_isQuote delimiter
    exact ⟨quote, _, rfl, facts.1, facts.2.2⟩
  | @call qualifier name arguments isKnown grammar named fits =>
    obtain ⟨c, more, spelled, solid, colon⟩ := ofName (isName_of_isQualifier grammar)
    rw [Expr.render, spelled]
    exact ⟨c, _, rfl, solid, colon⟩

/-- The text of a tree is balanced, with commas in parentheses only. -/
theorem Expr.Fits.balanced (fits : e.Fits known) : Balanced false e.render := by
  induction fits with
  | var chars => exact .plain rfl rfl rfl (fun _ => by decide) (balanced_of_isName chars)
  | numeral chars => exact balanced_of_isName (isName_of_isNumeral chars)
  | literal delimiter closed colon words =>
    exact .literal delimiter closed (fun c absent => nomatch absent) .nil
  | @call qualifier name arguments isKnown grammar named fits ih =>
    have noGap : ∀ c ∈ ([] : List Char), Text.isBlank c = true := List.forall_mem_nil _
    rw [render_call]
    exact balanced_call grammar named noGap (List.forall_mem_map.2 ih)

/-! ## No comments -/

theorem isUncommented_of_not_mem_paren {s : List Char} (absent : '(' ∉ s) : IsUncommented s := by
  induction s with
  | nil => exact List.isChain_nil
  | cons c s ih =>
    rw [List.mem_cons, not_or] at absent
    refine List.isChain_cons.2 ⟨?_, ih absent.2⟩
    intro d _ starts
    exact absent.1 starts.1.symm

theorem isUncommented_of_not_mem_colon {s : List Char} (absent : ':' ∉ s) : IsUncommented s := by
  induction s with
  | nil => exact List.isChain_nil
  | cons c s ih =>
    rw [List.mem_cons, not_or] at absent
    refine List.isChain_cons.2 ⟨?_, ih absent.2⟩
    intro d next starts
    exact absent.2 (starts.2 ▸ List.mem_of_mem_head? next)

theorem IsUncommented.append {s t : List Char} (first : IsUncommented s) (second : IsUncommented t)
    (ahead : t.head? ≠ some ':') : IsUncommented (s ++ t) := by
  refine List.isChain_append.2 ⟨first, second, ?_⟩
  intro c _ d next starts
  rw [starts.2] at next
  exact ahead next

theorem head?_cons_ne {c : Char} {s : List Char} (other : c ≠ ':') : (c :: s).head? ≠ some ':' :=
  fun same => other (Option.some.inj same)

theorem head?_separated_append {xs : List (List Char)} {rest : List Char}
    (heads : ∀ x ∈ xs, ∃ c s, x = c :: s ∧ c ≠ ':') (ahead : rest.head? ≠ some ':') :
    (separated xs ++ rest).head? ≠ some ':' := by
  cases xs with
  | nil => exact ahead
  | cons x xs =>
    obtain ⟨c, s, rfl, other⟩ := heads x List.mem_cons_self
    exact head?_cons_ne other

theorem isUncommented_separated {xs : List (List Char)} (uncommented : ∀ x ∈ xs, IsUncommented x)
    (heads : ∀ x ∈ xs, ∃ c s, x = c :: s ∧ c ≠ ':') : IsUncommented (separated xs) := by
  induction xs with
  | nil => exact List.isChain_nil
  | cons x xs ih =>
    cases xs with
    | nil =>
      rw [separated_singleton]
      exact uncommented x List.mem_cons_self
    | cons y ys =>
      have laterHeads : ∀ z ∈ y :: ys, ∃ c s, z = c :: s ∧ c ≠ ':' := fun z member =>
        heads z (List.mem_cons_of_mem _ member)
      have later := ih (fun z member => uncommented z (List.mem_cons_of_mem _ member)) laterHeads
      have ahead : (separated (y :: ys) ++ []).head? ≠ some ':' :=
        head?_separated_append laterHeads (by decide)
      rw [List.append_nil] at ahead
      have comma : IsUncommented [',', ' '] := by decide
      rw [separated_cons_cons]
      exact (uncommented x List.mem_cons_self).append (comma.append later ahead)
        (head?_cons_ne (by decide))

/-- No comment starts in the text of a tree. -/
theorem Expr.Fits.uncommented (fits : e.Fits known) : IsUncommented e.render := by
  have ofName : ∀ {s : List Char}, isName s = true → '(' ∉ s := fun name =>
    not_mem_of_isName name (by decide)
  induction fits with
  | var chars =>
    refine isUncommented_of_not_mem_paren ?_
    rw [Expr.render, List.mem_cons, not_or]
    exact ⟨by decide, ofName chars⟩
  | numeral chars => exact isUncommented_of_not_mem_paren (ofName (isName_of_isNumeral chars))
  | literal delimiter closed colon words =>
    exact isUncommented_of_not_mem_colon (colon_not_mem_literal delimiter colon)
  | @call qualifier name arguments isKnown grammar named fits ih =>
    have head : IsUncommented (qualifier.toList ++ ':' :: name.toList) := by
      refine isUncommented_of_not_mem_paren ?_
      rw [List.mem_append, List.mem_cons]
      rintro (inside | same | inside)
      · exact ofName (isName_of_isQualifier grammar) inside
      · cases same
      · exact ofName (isName_of_isFunctionName named) inside
    have heads : ∀ x ∈ arguments.map Expr.render, ∃ c s, x = c :: s ∧ c ≠ ':' := by
      intro x member
      obtain ⟨e, listed, rfl⟩ := List.mem_map.1 member
      obtain ⟨c, s, spelled, -, other⟩ := (fits e listed).head
      exact ⟨c, s, spelled, other⟩
    have inside : IsUncommented (separated (arguments.map Expr.render)) := by
      refine isUncommented_separated ?_ heads
      intro x member
      obtain ⟨e, listed, rfl⟩ := List.mem_map.1 member
      exact ih e listed
    have opened : IsUncommented ['('] := by decide
    have closed : IsUncommented [')'] := by decide
    rw [render_call]
    exact head.append (opened.append (inside.append closed (by decide))
      (head?_separated_append heads (by decide))) (head?_cons_ne (by decide))

/-! ## No statements -/

theorem isCalm_cons {c : Char} {rest : List Char} (solid : Text.isBlank c = false)
    (other : startsClause c = false) : IsCalm (c :: rest) := by
  have same : Text.dropBlanks (c :: rest) = c :: rest := Text.dropBlanks_of_not_blank solid
  unfold IsCalm
  rw [same]
  exact other

section Statements

variable {word : List Char} (listed : word ∈ statementWords) {before rest : List Char}
include listed

theorem avoids_separated {xs : List (List Char)}
    (each : ∀ x ∈ xs, ∀ {before rest : List Char}, IsCalm rest → Avoids (Opens word) before x rest)
    (calm : IsCalm rest) : Avoids (Opens word) before (separated xs) rest := by
  induction xs generalizing before with
  | nil => trivial
  | cons x xs ih =>
    cases xs with
    | nil =>
      rw [separated_singleton]
      exact each x List.mem_cons_self calm
    | cons y ys =>
      have later : ∀ {before}, Avoids (Opens word) before (separated (y :: ys)) rest :=
        ih fun z member => each z (List.mem_cons_of_mem _ member)
      have comma : ∀ {before}, Avoids (Opens word) before ([',', ' '] ++ separated (y :: ys)) rest :=
        fun {_} => (avoids_of_letterless listed (by decide)).append later
      rw [separated_cons_cons]
      exact (each x List.mem_cons_self (isCalm_cons (by decide) (by decide))).append comma

/-- No statement starts in the text of a tree, if none goes on behind it. -/
theorem Expr.Fits.avoids (fits : e.Fits known) (calm : IsCalm rest) :
    Avoids (Opens word) before e.render rest := by
  induction fits generalizing before rest with
  | @var name chars =>
    refine avoids_of_solid listed ?_ calm
    intro c member
    rcases List.mem_cons.1 member with rfl | later
    · decide
    · exact solid_of_isName chars c later
  | numeral chars => exact avoids_of_solid listed (solid_of_isName (isName_of_isNumeral chars)) calm
  | @literal quote text delimiter closed colon words =>
    have facts := of_isQuote delimiter
    have delimits : ∀ {before rest}, Avoids (Opens word) before [quote] rest := by
      intro before rest
      refine avoids_of_letterless listed ?_
      rw [List.any_cons, facts.2.1]
      rfl
    have inside : ∀ {before}, Avoids (Opens word) before text.toList (quote :: rest) := by
      intro before
      exact avoids_of_wordless listed (fun _ => rfl) (words word listed) facts.2.1
    exact delimits.append (inside.append delimits)
  | @call qualifier name arguments isKnown grammar named fits ih =>
    have head : ∀ {before rest}, Avoids (Opens word) before (qualifier.toList ++ ':' :: name.toList)
        ('(' :: rest) := by
      intro before rest
      refine avoids_of_solid listed ?_ (isCalm_cons (by decide) (by decide))
      intro c member
      rw [List.mem_append, List.mem_cons] at member
      rcases member with inside | rfl | inside
      · exact solid_of_isName (isName_of_isQualifier grammar) c inside
      · decide
      · exact solid_of_isName (isName_of_isFunctionName named) c inside
    have inside : ∀ {before}, Avoids (Opens word) before
        (separated (arguments.map Expr.render)) (')' :: rest) := by
      intro before
      refine avoids_separated listed ?_ (isCalm_cons (by decide) (by decide))
      intro x member before rest calm
      obtain ⟨e, own, rfl⟩ := List.mem_map.1 member
      exact ih e own calm
    have opened : ∀ {before rest}, Avoids (Opens word) before ['('] rest :=
      avoids_of_letterless listed (by decide)
    have closed : ∀ {before}, Avoids (Opens word) before [')'] rest :=
      avoids_of_letterless listed (by decide)
    rw [render_call]
    exact head.append (opened.append (inside.append closed))

end Statements

end Trees

end CallAtlas.Canonical
