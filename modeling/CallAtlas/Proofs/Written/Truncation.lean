import CallAtlas.Proofs.Written.Declarations

/-!
# Truncated declarations

A declaration that is cut off stands before a whole one. Where the cut lies inside its parameters or
inside its body, the walk from there finds no end in the text and the declaration is skipped, so
that the whole one is recovered. Where the cut lies between the two, or behind the brace that ends
the body, the walk goes on into the whole declaration and ends with it: the first function takes
the body of the second, and the second is lost.
-/

namespace CallAtlas.Written

open Source Canonical

/-! ## Heads in a text -/

section Heads

variable {α : Type} {p : Option Char → Scan α}

/-- Nothing is found behind the end of a text. -/
theorem offset_lt_of_mem {before s : List Char} {o : Occurrence α}
    (member : o ∈ occurrencesFrom p before s) : o.offset < before.length + s.length := by
  fun_induction occurrencesFrom p before s with
  | case1 => cases member
  | case2 before c s value rest read left whole shorter text ih =>
    rcases List.mem_cons.1 member with rfl | later
    · change before.length < _
      rw [List.length_cons]
      omega
    · have bound := ih later
      have taken : text.length = whole - left := List.length_take_of_le (by
        rw [List.length_cons]
        omega)
      rw [List.length_append, List.length_reverse, taken] at bound
      rw [List.length_cons]
      omega
  | case3 before c s value rest read left whole longer ih =>
    have bound := ih member
    rw [List.length_cons] at bound ⊢
    omega
  | case4 before c s fails ih =>
    have bound := ih member
    rw [List.length_cons] at bound ⊢
    omega

end Heads

section Walk

variable {known : List String} {content : List Char} {path : String} {start : Nat}
  {seen : List String} {o : Occurrence Header} {heads : List (Occurrence Header)}

/-- Heads inside a declaration that was read add nothing. -/
theorem value_declarationsFrom_of_lt (inside : ∀ o ∈ heads, o.offset < start) :
    (declarationsFrom known content path start seen heads).value = .ok [] := by
  induction heads with
  | nil => rfl
  | cons o heads ih =>
    rw [declarationsFrom, if_pos (inside o List.mem_cons_self)]
    exact ih fun o member => inside o (List.mem_cons_of_mem _ member)

/-- The head of a malformed declaration is passed over. -/
theorem value_declarationsFrom_of_error {fault : DeclarationFault}
    (malformed : outline content o = .error fault) :
    (declarationsFrom known content path start seen (o :: heads)).value =
      (declarationsFrom known content path start seen heads).value := by
  rw [declarationsFrom]
  split
  next => rfl
  next =>
    rw [malformed]
    exact Checked.value_bind_of_ok rfl _

/-- A declaration that takes up the rest of a text is all that is read from its head on. -/
theorem exists_value_declarationsFrom {parts : Outline} (reached : start ≤ o.offset)
    (outlined : outline content o = .ok (some parts)) (short : HasShortArities known parts.body)
    (unseen : ∀ d, (functionOf known content o parts).value = .ok d → d.qualifiedName ∉ seen)
    (inside : ∀ o ∈ heads, o.offset < parts.endOffset + 1) :
    ∃ f, (functionOf known content o parts).value = .ok f ∧
      (declarationsFrom known content path start seen (o :: heads)).value = .ok [f] := by
  obtain ⟨f, read⟩ := exists_functionOf_iff.2 short
  refine ⟨f, read, ?_⟩
  rw [value_declarationsFrom_cons reached outlined unseen]
  exact ⟨f, [], read, value_declarationsFrom_of_lt inside, rfl⟩

end Walk

/-! ## Levels along a declaration -/

namespace Declaration

/-- The keywords and the name. -/
def lead (d : Declaration) : List Char :=
  "declare function ".toList ++ (d.qualifier.toList ++ ':' :: d.name.toList)

/-- The text up to the brace that opens the body. -/
def opening (d : Declaration) : List Char :=
  d.lead ++ '(' :: (d.parameterText ++ [')', ' '])

theorem text_eq_opening (d : Declaration) :
    d.text = d.opening ++ '{' :: (d.body.toList ++ ['}', ';']) := by
  unfold text opening head tail lead
  simp only [List.append_assoc, List.cons_append, List.nil_append]
  rfl

/-- No quote, bracket or semicolon stands before the parameters. -/
theorem Fits.plain_of_mem_lead {d : Declaration} (fits : d.Fits) {c : Char} (member : c ∈ d.lead) :
    isQuote c = false ∧ isOpener c = false ∧ isCloser c = false ∧ c ≠ ';' := by
  have keyword : ∀ c ∈ "declare function ".toList,
      isQuote c = false ∧ isOpener c = false ∧ isCloser c = false ∧ c ≠ ';' :=
    List.all_iff_forall_prop.1 (by decide)
  have name : Text.isNameChar c = true →
      isQuote c = false ∧ isOpener c = false ∧ isCloser c = false ∧ c ≠ ';' := by
    intro nameChar
    obtain ⟨quote, opener, closer, -⟩ := plain_of_isNameChar nameChar
    exact ⟨quote, opener, closer, ne_of_isNameChar nameChar (by decide)⟩
  unfold lead at member
  rw [List.mem_append, List.mem_append, List.mem_cons] at member
  rcases member with inKeyword | inQualifier | rfl | inName
  · exact keyword c inKeyword
  · exact name ((isName_iff.1 fits.qualifier).2 c inQualifier)
  · decide
  · exact name ((isName_iff.1 fits.name).2 c inName)

theorem Fits.level?_lead {d : Declaration} (fits : d.Fits) {opener closer : Char}
    (pair : closerOf? opener = some closer) (rest : List Char) :
    level? opener closer 0 (d.lead ++ rest) = level? opener closer 0 rest := by
  refine level?_append_of_plain ?_ 0
  intro c member
  obtain ⟨quote, isOpener, isCloser, -⟩ := fits.plain_of_mem_lead member
  exact ⟨quote, ne_of_closerOf? pair isOpener isCloser⟩

/-- The text up to the body leads back to where it started in braces. -/
theorem Fits.level?_opening_braces {d : Declaration} (fits : d.Fits) :
    level? '{' '}' 0 d.opening = some 0 := by
  unfold opening
  rw [fits.level?_lead rfl, level?_cons (by decide), if_neg (by decide), if_neg (by decide),
    level?_append (fits.level?_parameterText rfl) (noQuoteAhead_cons rfl)]
  decide +kernel

/-- The text up to the body leads back to where it started in parentheses. -/
theorem Fits.level?_opening_parentheses {d : Declaration} (fits : d.Fits) :
    level? '(' ')' 0 d.opening = some 0 := by
  unfold opening
  rw [fits.level?_lead rfl, level?_cons (by decide), if_pos (by decide),
    level?_append (level?_add (fits.level?_parameterText rfl) 1) (noQuoteAhead_cons rfl)]
  decide +kernel

/-- A declaration leads back to where it started in braces. -/
theorem Fits.level?_braces {d : Declaration} (fits : d.Fits) :
    level? '{' '}' 0 d.text = some 0 := by
  rw [text_eq_opening, level?_append fits.level?_opening_braces (noQuoteAhead_cons rfl),
    level?_cons (by decide), if_pos (by decide),
    level?_append (level?_add fits.body 1) (noQuoteAhead_cons rfl)]
  decide +kernel

/-- A declaration closes no parenthesis too many if its body does not. -/
theorem Fits.level?_parentheses {d : Declaration} (fits : d.Fits) {level : Nat}
    (leads : level? '(' ')' 0 d.body.toList = some level) :
    level? '(' ')' 0 d.text = some level := by
  rw [text_eq_opening, level?_append fits.level?_opening_parentheses (noQuoteAhead_cons rfl),
    level?_cons (by decide), if_neg (by decide), if_neg (by decide),
    level?_append leads (noQuoteAhead_cons rfl)]
  exact level?_of_plain (List.all_iff_forall_prop.1 (by decide)) level

end Declaration

/-! ## Cuts -/

/-- A cut of what follows the head of a declaration lies inside its parameters or inside its
body. -/
def Declaration.IsInner (d : Declaration) (cut : List Char) : Prop :=
  cut <+: d.parameterText ∨
    d.parameterText ++ ") \x7b".toList <+: cut ∧
      cut <+: d.parameterText ++ (") \x7b".toList ++ d.body.toList)

/-- A start of two texts lies inside the first or goes on in the second. -/
theorem inside_or_behind {cut first second : List Char} (start : cut <+: first ++ second) :
    cut <+: first ∨ ∃ more, cut = first ++ more ∧ more <+: second := by
  have whole : first <+: first ++ second := List.prefix_append first second
  rcases List.prefix_or_prefix_of_prefix start whole with inside | ⟨more, rfl⟩
  · exact Or.inl inside
  · exact Or.inr ⟨more, rfl, (List.prefix_append_right_inj first).1 start⟩

/-- A cut lies inside the parameters, before the brace of the body, inside the body, or behind
it. -/
theorem cut_cases {d : Declaration} {cut : List Char} (start : cut <+: d.tail)
    (proper : cut ≠ d.tail) :
    cut <+: d.parameterText ∨
      (∃ gap, cut = d.parameterText ++ ')' :: gap ∧ gap <+: [' ']) ∨
      (∃ body, cut = d.parameterText ++ ')' :: ' ' :: '{' :: body ∧ body <+: d.body.toList) ∨
      cut = d.parameterText ++ ')' :: ' ' :: '{' :: (d.body.toList ++ ['}']) := by
  have shape : d.tail = d.parameterText ++ ')' :: ' ' :: '{' :: (d.body.toList ++ ['}', ';']) := rfl
  rw [shape] at start proper
  rcases inside_or_behind start with inside | ⟨behind, rfl, fromParenthesis⟩
  · exact Or.inl inside
  rcases List.prefix_cons_iff.1 fromParenthesis with rfl | ⟨gap, rfl, fromGap⟩
  · exact Or.inl (List.append_nil _ ▸ List.prefix_rfl)
  rcases List.prefix_cons_iff.1 fromGap with rfl | ⟨brace, rfl, fromBrace⟩
  · exact Or.inr (Or.inl ⟨[], rfl, List.nil_prefix⟩)
  rcases List.prefix_cons_iff.1 fromBrace with rfl | ⟨body, rfl, fromBody⟩
  · exact Or.inr (Or.inl ⟨[' '], rfl, List.prefix_rfl⟩)
  rcases inside_or_behind fromBody with inside | ⟨ending, rfl, fromEnd⟩
  · exact Or.inr (Or.inr (Or.inl ⟨body, rfl, inside⟩))
  rcases List.prefix_cons_iff.1 fromEnd with rfl | ⟨semicolon, rfl, fromSemicolon⟩
  · exact Or.inr (Or.inr (Or.inl ⟨_, rfl, List.append_nil _ ▸ List.prefix_rfl⟩))
  rcases List.prefix_cons_iff.1 fromSemicolon with rfl | ⟨more, rfl, nothing⟩
  · exact Or.inr (Or.inr (Or.inr rfl))
  · rw [List.prefix_nil.1 nothing] at proper
    exact absurd rfl proper

/-- A declaration that can be told from what is cut off before it: no brace and no semicolon stands
in its parameters, and its body closes no parenthesis too many. -/
structure Declaration.StandsAlone (d : Declaration) : Prop extends d.Fits where
  brace : '{' ∉ d.parameterText
  semicolon : ';' ∉ d.parameterText
  parentheses : (level? '(' ')' 0 d.body.toList).isSome = true

/-- What is left of a declaration behind its head: not all of it, cut outside literals, and without
the word that opens a declaration. -/
structure Declaration.IsCut (d : Declaration) (cut : List Char) : Prop where
  start : cut <+: d.tail
  proper : cut ≠ d.tail
  closed : isClosed cut = true
  quiet : hasWord "declare".toList none cut = false

theorem Declaration.StandsAlone.clear_of_mem_opening {d : Declaration} (alone : d.StandsAlone)
    {c : Char} (member : c ∈ d.opening) : (c != '{' && c != ';') = true := by
  rw [Bool.and_eq_true, bne_iff_ne, bne_iff_ne]
  unfold opening at member
  rw [List.mem_append, List.mem_cons, List.mem_append] at member
  rcases member with inLead | rfl | inParameters | ending
  · obtain ⟨-, opener, closer, semicolon⟩ := alone.plain_of_mem_lead inLead
    have pair : closerOf? '{' = some '}' := rfl
    exact ⟨(ne_of_closerOf? pair opener closer).1, semicolon⟩
  · decide
  · exact ⟨fun same => alone.brace (same ▸ inParameters),
      fun same => alone.semicolon (same ▸ inParameters)⟩
  · have all : ∀ c ∈ [')', ' '], c ≠ '{' ∧ c ≠ ';' := List.all_iff_forall_prop.1 (by decide)
    exact all c ending

section Cuts

variable {d y : Declaration} {cut content : List Char} {o : Occurrence Header}

/-- Cut inside its parameters, a declaration is malformed: no parenthesis closes them. -/
theorem malformed_of_parameters (fits : d.Fits) (whole : y.Fits) {level : Nat}
    (leads : level? '(' ')' 0 y.body.toList = some level) (inside : cut <+: d.parameterText)
    (closed : isClosed cut = true) (rest : o.rest = cut ++ '\n' :: y.text) :
    ∃ fault, outline content o = .error fault := by
  obtain ⟨missing, same⟩ := inside
  obtain ⟨depth, leadsCut⟩ : ∃ depth, level? '(' ')' 0 cut = some depth :=
    level?_left closed (same ▸ fits.level?_parameterText rfl)
  have behind : level? '(' ')' 0 o.rest = some (level + depth) := by
    rw [rest, level?_append leadsCut (noQuoteAhead_cons rfl), level?_cons (by decide),
      if_neg (by decide), if_neg (by decide), ← level?_add (whole.level?_parentheses leads) depth,
      Nat.zero_add]
  exact outline_of_unclosed (fromClosing?_eq_none behind)

/-- Cut inside its body, a declaration is malformed: no brace ends it. -/
theorem malformed_of_body (fits : d.Fits) (whole : y.Fits) {body : List Char}
    (inside : body <+: d.body.toList) (closed : isClosed body = true)
    (rest : o.rest = d.parameterText ++ ')' :: ([' '] ++ '{' :: (body ++ '\n' :: y.text))) :
    ∃ fault, outline content o = .error fault := by
  obtain ⟨missing, same⟩ := inside
  obtain ⟨depth, leadsCut⟩ : ∃ depth, level? '{' '}' 0 body = some depth :=
    level?_left closed (same ▸ fits.body)
  have behind : level? '{' '}' 0 (body ++ '\n' :: y.text) = some (0 + depth) := by
    rw [level?_append leadsCut (noQuoteAhead_cons rfl), level?_cons (by decide),
      if_neg (by decide), if_neg (by decide), ← level?_add whole.level?_braces depth, Nat.zero_add]
  refine ⟨.unbalancedBody o.value.qualifier o.value.name, ?_⟩
  have opened := fits.opened rest (List.forall_mem_singleton.2 (by decide))
  rw [opened.outline content, fromBodyEnd?_eq_none behind]

/-- A declaration whose walk ends with the whole one behind it takes up the rest of the text. -/
theorem swallows_of_bodyEnd (fits : d.Fits) {between afterBrace : List Char}
    (rest : o.rest = d.parameterText ++ ')' :: (between ++ '{' :: afterBrace))
    (clear : ∀ c ∈ between, (c != '{' && c != ';') = true)
    (ends : fromBodyEnd? 1 afterBrace = some ['}', ';']) :
    ∃ parts, outline content o = .ok (some parts) ∧ parts.parameters = d.parameters ∧
      parts.endOffset = content.length - 1 :=
  ⟨_, ((fits.opened rest clear).outline content).trans (by rw [ends]), rfl, rfl⟩

/-- Cut before the brace of its body, a declaration takes the body of the whole one. -/
theorem swallows_of_gap (fits : d.Fits) (whole : y.StandsAlone) {gap : List Char}
    (blank : gap <+: [' '])
    (rest : o.rest = d.parameterText ++ ')' :: (gap ++ '\n' :: y.text)) :
    ∃ parts, outline content o = .ok (some parts) ∧ parts.parameters = d.parameters ∧
      parts.endOffset = content.length - 1 := by
  have shape : o.rest = d.parameterText ++ ')' :: ((gap ++ '\n' :: y.opening) ++ '{' ::
      (y.body.toList ++ ['}', ';'])) := by
    rw [rest, y.text_eq_opening, List.append_assoc, List.cons_append]
  refine swallows_of_bodyEnd fits shape ?_ (whole.fromBodyEnd?_body [])
  intro c member
  rw [List.mem_append, List.mem_cons] at member
  rcases member with inGap | rfl | inOpening
  · rw [List.mem_singleton.1 (blank.subset inGap)]
    decide
  · decide
  · exact whole.clear_of_mem_opening inOpening

/-- Cut behind the brace of its body, a declaration goes on to the end of the whole one. -/
theorem swallows_of_brace (fits : d.Fits) (whole : y.StandsAlone)
    (rest : o.rest = d.parameterText ++ ')' :: ([' '] ++ '{' ::
      (d.body.toList ++ '}' :: '\n' :: y.text))) :
    ∃ parts, outline content o = .ok (some parts) ∧ parts.parameters = d.parameters ∧
      parts.endOffset = content.length - 1 := by
  have goesOn : semicolonFollows ('\n' :: y.text) = false := rfl
  have unopened : '{' ∉ '\n' :: y.opening := by
    rw [List.mem_cons, not_or]
    refine ⟨by decide, ?_⟩
    intro member
    exact absurd (whole.clear_of_mem_opening member) (by decide)
  have leads : level? '{' '}' 0 ('\n' :: y.opening) = some 0 := by
    rw [level?_cons (by decide), if_neg (by decide), if_neg (by decide)]
    exact whole.level?_opening_braces
  refine swallows_of_bodyEnd fits rest (List.forall_mem_singleton.2 (by decide)) ?_
  -- At the brace without a semicolon the walk goes on outside of all braces, and the brace that
  -- opens the other body takes it in again.
  rw [fromBodyEnd?_append fits.body (noQuoteAhead_cons rfl), fromBodyEnd?_cons,
    if_neg (by decide), if_neg (by decide), if_pos (by decide)]
  change (if semicolonFollows ('\n' :: y.text) = true then _ else _) = _
  rw [goesOn, if_neg Bool.false_ne_true, y.text_eq_opening, ← List.cons_append,
    fromBodyEnd?_append_of_not_mem leads unopened (noQuoteAhead_cons rfl), fromBodyEnd?_cons,
    if_neg (by decide), if_pos (by decide)]
  exact whole.fromBodyEnd?_body []

/-- A cut declaration is malformed if it is cut inside its parameters or inside its body. -/
theorem malformed_of_isInner (fits : d.Fits) (whole : y.StandsAlone) (isCut : d.IsCut cut)
    (inner : d.IsInner cut) (rest : o.rest = cut ++ '\n' :: y.text) :
    ∃ fault, outline content o = .error fault := by
  rcases inner with inside | ⟨⟨body, rfl⟩, inside⟩
  · obtain ⟨level, leads⟩ := Option.isSome_iff_exists.1 whole.parentheses
    exact malformed_of_parameters fits whole.toFits leads inside isCut.closed rest
  · rw [← List.append_assoc, List.prefix_append_right_inj] at inside
    have leads : level? '{' '}' 0 d.parameterText = some 0 := fits.level?_parameterText rfl
    have closed : isClosed (d.parameterText ++ ')' :: ' ' :: '{' :: body) = true := by
      rw [← isCut.closed, List.append_assoc]
      rfl
    rw [isClosed_append leads (noQuoteAhead_cons rfl), isClosed, if_neg (by decide), isClosed,
      if_neg (by decide), isClosed, if_neg (by decide)] at closed
    refine malformed_of_body fits whole.toFits inside closed ?_
    rw [rest, List.append_assoc, List.append_assoc]
    rfl

/-- A cut declaration that is cut elsewhere takes up the rest of the text. -/
theorem swallows_of_not_isInner (fits : d.Fits) (whole : y.StandsAlone) (isCut : d.IsCut cut)
    (outer : ¬d.IsInner cut) (rest : o.rest = cut ++ '\n' :: y.text) :
    ∃ parts, outline content o = .ok (some parts) ∧ parts.parameters = d.parameters ∧
      parts.endOffset = content.length - 1 := by
  rcases cut_cases isCut.start isCut.proper with
    inside | ⟨gap, rfl, blank⟩ | ⟨body, rfl, inside⟩ | rfl
  · exact absurd (Or.inl inside) outer
  · refine swallows_of_gap fits whole blank ?_
    rw [rest, List.append_assoc, List.cons_append]
  · refine absurd (Or.inr ⟨⟨body, ?_⟩, ?_⟩) outer
    · rw [List.append_assoc]
      rfl
    · rw [List.prefix_append_right_inj]
      exact (List.prefix_append_right_inj [')', ' ', '{']).2 inside
  · refine swallows_of_brace fits whole ?_
    rw [rest]
    simp only [List.append_assoc, List.cons_append, List.nil_append]

end Cuts

/-! ## Recovery -/

section Recovery

variable {d y : Declaration} {cut : List Char}

/-- The text of a cut declaration and a whole one has the heads of both, in this order. -/
theorem occurrences_cut (fits : d.Fits) (whole : y.Fits) (isCut : d.IsCut cut) :
    ∃ o o' heads, occurrences header (d.head ++ (cut ++ '\n' :: y.text)) = o :: o' :: heads ∧
      IsHead d [] (cut ++ '\n' :: y.text) o ∧
      IsHead y ((cut ++ ['\n']).reverse ++ d.head.reverse) y.tail o' ∧
      ∀ head ∈ o' :: heads, head.offset < (d.head ++ (cut ++ '\n' :: y.text)).length := by
  have isWord : "declare".toList ∈ statementWords := by decide
  have atStart : ([] : List Char).head?.any Text.isWord = false := rfl
  have afterLine : ((cut ++ ['\n']).reverse ++ d.head.reverse).head?.any Text.isWord = false := by
    rw [List.reverse_append]
    rfl
  obtain ⟨o, found, head⟩ := fits.occurrencesFrom_head atStart (cut ++ '\n' :: y.text)
  obtain ⟨o', found', head'⟩ := whole.occurrencesFrom_head afterLine y.tail
  have avoids : Avoids (Opens "declare".toList) d.head.reverse (cut ++ ['\n']) y.text :=
    (avoids_of_wordless isWord (fun _ => rfl) isCut.quiet rfl).append
      (avoids_of_letterless isWord (by decide))
  have skipped := occurrencesFrom_of_avoids (fun _ _ _ => opens_of_header) avoids
  rw [List.append_assoc, List.singleton_append] at skipped
  rw [List.append_nil, skipped, Declaration.text, found'] at found
  refine ⟨o, o', _, found, head, head', ?_⟩
  intro later member
  rw [← found'] at member
  have bound := offset_lt_of_mem member
  rw [← Declaration.text] at bound
  simp only [List.length_append, List.length_reverse, List.length_cons, List.length_nil] at bound ⊢
  omega

/-- Behind a declaration that is cut inside its parameters or inside its body, the whole one is
recovered. -/
theorem recovered_of_isInner (known : List String) (path : String) (fits : d.Fits)
    (isCut : d.IsCut cut) (whole : y.StandsAlone) (short : HasShortArities known y.body.toList)
    (inner : d.IsInner cut) :
    ∃ f, (declarations known (d.head ++ (cut ++ '\n' :: y.text)) path).value = .ok [f] ∧
      Recovers y f := by
  obtain ⟨o, o', heads, found, head, head', inside⟩ := occurrences_cut fits whole.toFits isCut
  generalize d.head ++ (cut ++ '\n' :: y.text) = content at found inside ⊢
  obtain ⟨fault, malformed⟩ : ∃ fault, outline content o = .error fault :=
    malformed_of_isInner fits whole isCut inner head.rest
  obtain ⟨parts, outlined, shape⟩ :=
    whole.toFits.outline content (head'.rest.trans (List.append_nil _).symm)
  obtain ⟨f, read⟩ : ∃ f, (functionOf known content o' parts).value = .ok f :=
    exists_functionOf_iff.2 (shape.body ▸ short)
  have nothing : (declarationsFrom known content path (parts.endOffset + 1) [f.qualifiedName]
      heads).value = .ok [] := by
    refine value_declarationsFrom_of_lt ?_
    intro later member
    have bound := inside later (List.mem_cons_of_mem _ member)
    rw [shape.endOffset, List.length_nil]
    omega
  refine ⟨f, ?_, recovers_of_functionOf head' shape read⟩
  unfold declarations
  rw [found, value_declarationsFrom_of_error malformed,
    value_declarationsFrom_cons (Nat.zero_le _) outlined fun _ _ => List.not_mem_nil]
  exact ⟨f, [], read, nothing, rfl⟩

/-- Behind a declaration that is cut elsewhere, no function has the name of the whole one. -/
theorem qualifiedName_of_not_isInner {known : List String} {path : String} (fits : d.Fits)
    (isCut : d.IsCut cut) (whole : y.StandsAlone) (outer : ¬d.IsInner cut) {fs : List FunctionDecl}
    (read : (declarations known (d.head ++ (cut ++ '\n' :: y.text)) path).value = .ok fs) :
    ∃ f, fs = [f] ∧ f.qualifiedName = d.qualifiedName := by
  obtain ⟨o, o', heads, found, head, -, inside⟩ := occurrences_cut fits whole.toFits isCut
  generalize d.head ++ (cut ++ '\n' :: y.text) = content at found inside read
  obtain ⟨parts, outlined, parameters, ending⟩ : ∃ parts, outline content o = .ok (some parts) ∧
      parts.parameters = d.parameters ∧ parts.endOffset = content.length - 1 :=
    swallows_of_not_isInner fits whole isCut outer head.rest
  unfold declarations at read
  rw [found, value_declarationsFrom_cons (Nat.zero_le _) outlined fun _ _ => List.not_mem_nil]
    at read
  obtain ⟨f, rest, own, others, rfl⟩ := read
  have nothing : (declarationsFrom known content path (parts.endOffset + 1) [f.qualifiedName]
      (o' :: heads)).value = .ok [] := by
    refine value_declarationsFrom_of_lt ?_
    intro later member
    have bound := inside later member
    rw [ending]
    omega
  rw [nothing] at others
  cases others
  obtain ⟨signature, calls, rfl⟩ := functionOf_eq_ok own
  refine ⟨_, rfl, ?_⟩
  unfold FunctionDecl.qualifiedName FunctionDecl.arity Declaration.qualifiedName
  dsimp only
  rw [head.name, parameters, String.ofList_toList]

/-- The whole declaration behind one that is cut is recovered if and only if the cut lies inside the
parameters or inside the body. -/
theorem recovered_iff_isInner (known : List String) (path : String) (fits : d.Fits)
    (isCut : d.IsCut cut) (whole : y.StandsAlone) (short : HasShortArities known y.body.toList)
    (different : y.qualifiedName ≠ d.qualifiedName) :
    (∃ fs, (declarations known (d.head ++ (cut ++ '\n' :: y.text)) path).value = .ok fs ∧
      ∃ f ∈ fs, Recovers y f) ↔ d.IsInner cut := by
  constructor
  · rintro ⟨fs, read, f, member, recovers⟩
    by_contra outer
    obtain ⟨g, rfl, name⟩ := qualifiedName_of_not_isInner fits isCut whole outer read
    rw [← List.mem_singleton.1 member, recovers.qualifiedName] at name
    exact different name
  · intro inner
    obtain ⟨f, read, recovers⟩ := recovered_of_isInner known path fits isCut whole short inner
    exact ⟨[f], read, f, List.mem_singleton_self f, recovers⟩

end Recovery

/-! ## Two declarations, one of them cut -/

/-- A declaration with literals and brackets in its parameters and its body. -/
def lookup : Declaration :=
  ⟨"a", "f", [⟨"x", some "map(xs:string, item()*)"⟩, ⟨"y", none⟩], " ",
    " if ($x) then \x7b \"\x7d;\" \x7d else a:g($y, (1, 2)) "⟩

/-- A declaration to stand behind another. -/
def follower : Declaration :=
  ⟨"a", "g", [⟨"z", some "xs:string"⟩], "", " a:f(map \x7b $z : \";\" \x7d, ')') "⟩

/-- What is left of `lookup` behind its head, up to the braces inside its body. -/
def lookupCut : List Char :=
  "$x as map(xs:string, item()*), $y) \x7b if ($x) then \x7b \"\x7d;\"".toList

theorem lookup_fits : lookup.Fits := by decide +kernel

theorem follower_standsAlone : follower.StandsAlone :=
  ⟨by decide +kernel, by decide +kernel, by decide +kernel, by decide +kernel⟩

theorem follower_ne_lookup : follower.qualifiedName ≠ lookup.qualifiedName := by decide +kernel

theorem follower_recovered :
    (lookup.Fits ∧ lookup.IsCut lookupCut ∧ follower.StandsAlone ∧
        HasShortArities ["a"] follower.body.toList ∧
        follower.qualifiedName ≠ lookup.qualifiedName ∧ lookup.IsInner lookupCut) ∧
      ∃ fs, (declarations ["a"] (lookup.head ++ (lookupCut ++ '\n' :: follower.text))
        "/a.xqy").value = .ok fs ∧ ∃ f ∈ fs, Recovers follower f := by
  have isCut : lookup.IsCut lookupCut :=
    ⟨by decide +kernel, by decide +kernel, by decide +kernel, by decide +kernel⟩
  have short : HasShortArities ["a"] follower.body.toList := by decide +kernel
  have inner : lookup.IsInner lookupCut := Or.inr (by decide +kernel)
  exact ⟨⟨lookup_fits, isCut, follower_standsAlone, short, follower_ne_lookup, inner⟩,
    (recovered_iff_isInner ["a"] "/a.xqy" lookup_fits isCut follower_standsAlone short
      follower_ne_lookup).2 inner⟩

/-- Cut before its body, `lookup` takes the body of the declaration behind it, and no other function
is returned. -/
theorem follower_lost :
    (lookup.Fits ∧ follower.StandsAlone ∧ follower.qualifiedName ≠ lookup.qualifiedName) ∧
      lookup.parameterText ++ [')'] <+: lookup.tail ∧
      (declarations ["a"]
        (lookup.head ++ ((lookup.parameterText ++ [')']) ++ '\n' :: follower.text))
        "/a.xqy").value.toOption.map (·.map fun f => (f.qualifiedName, f.body)) =
          some [(lookup.qualifiedName, "a:f(map \x7b $z : \";\" \x7d, ')')")] :=
  ⟨⟨lookup_fits, follower_standsAlone, follower_ne_lookup⟩, by decide +kernel, by decide +kernel⟩

end CallAtlas.Written
