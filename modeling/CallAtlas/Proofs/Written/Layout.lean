import CallAtlas.Proofs.Source.Heads
import CallAtlas.Proofs.Written.Truncation

/-!
# Declarations in any layout

A declaration is laid out in many ways: with annotations of any kind, over several lines, with a
type of its own, with blanks before its semicolon, with a body or without one. A `Layout` is any
text whose head the grammar accepts and whose parts close their brackets and literals. Wherever it
stands behind a place at which a word may start, its head is found, and its outline is read up to
its own semicolon.
-/

namespace CallAtlas.Written

open Source Canonical

instance : DecidableEq Header := fun h k =>
  decidable_of_iff
    (h.annotationText = k.annotationText ∧ h.saysPrivate = k.saysPrivate ∧
      h.qualifier = k.qualifier ∧ h.name = k.name ∧ h.fromQualifier = k.fromQualifier)
    (by
      cases h
      cases k
      rw [Header.mk.injEq])

/-- The body of a declaration, and the blanks between the brace that ends it and the semicolon. -/
structure Block where
  text : List Char
  gap : List Char
  closed : level? '{' '}' 0 text = some 0
  blank : ∀ c ∈ gap, Text.isBlank c = true

/-- A declaration in any layout. Without a block it is external. -/
structure Layout where
  /-- The text up to the parenthesis that opens the parameters. -/
  head : List Char
  value : Header
  /-- The text between the parentheses. -/
  inside : List Char
  parameters : List Parameter
  /-- The text from the parameters up to the body or the semicolon. -/
  between : List Char
  block : Option Block
  isHead : header none head = some (value, [])
  enclosed : level? '(' ')' 0 inside = some 0
  read : readParameters inside = .ok parameters
  clear : ∀ c ∈ between, (c != '{' && c != ';') = true

/-- The text of a body with its braces, up to the semicolon. -/
def Block.ending (block : Block) : List Char :=
  '{' :: (block.text ++ '}' :: (block.gap ++ [';']))

namespace Layout

/-- The text from the body on. -/
def ending (l : Layout) : List Char :=
  match l.block with
  | none => [';']
  | some block => block.ending

/-- The text from the parameters on. -/
def tail (l : Layout) : List Char :=
  l.inside ++ ')' :: (l.between ++ l.ending)

/-- The whole text. -/
def text (l : Layout) : List Char :=
  l.head ++ l.tail

/-- The name with the arity. -/
def qualifiedName (l : Layout) : String :=
  qualify (String.ofList l.value.name) (some (Int.ofNat l.parameters.length))

variable {l : Layout} {content before more : List Char} {o : Occurrence Header}

/-! ## The head of a layout -/

theorem head_ne_nil (l : Layout) : l.head ≠ [] := by
  intro none
  have paren := (paren_suffix_of_header l.isHead).length_le
  rw [none] at paren
  exact Nat.not_succ_le_zero _ paren

/-- The head of a layout, between two texts. -/
def found (l : Layout) (before rest : List Char) : Occurrence Header :=
  ⟨before, l.value.extend rest, l.head, rest⟩

/-- The head of a layout is found where it stands, if no word goes on before it. -/
theorem occurrencesFrom_head (wordStart : before.head?.any Text.isWord = false)
    (rest : List Char) :
    occurrencesFrom header before (l.head ++ rest) =
      l.found before rest :: occurrencesFrom header (l.head.reverse ++ before) rest := by
  have read : header before.head? (l.head ++ rest) = some (l.value.extend rest, rest) := by
    rw [header_of_not_isWord wordStart]
    exact header_append l.isHead rest
  exact occurrencesFrom_of_read l.head_ne_nil read

/-! ## The outline of a layout -/

/-- A body ends at its own brace, whatever follows its semicolon. -/
theorem fromBodyEnd?_block (block : Block) (more : List Char) :
    fromBodyEnd? 1 (block.text ++ '}' :: (block.gap ++ ';' :: more)) =
      some ('}' :: (block.gap ++ ';' :: more)) := by
  rw [fromBodyEnd?_append block.closed (noQuoteAhead_cons rfl), fromBodyEnd?_cons,
    if_neg (by decide), if_neg (by decide), if_pos (by decide)]
  exact if_pos (semicolonFollows_iff.2 ⟨block.gap, more, rfl, block.blank⟩)

/-- A layout with a body has an outline up to its own semicolon. -/
theorem outline_of_block {block : Block} (own : l.block = some block) (content : List Char)
    (rest : o.rest = l.tail ++ more) :
    ∃ parts, outline content o = .ok (some parts) ∧ parts.parameters = l.parameters ∧
      parts.body = block.text ∧ parts.endOffset = content.length - (more.length + 1) := by
  have shape : o.rest = l.inside ++ ')' :: (l.between ++ '{' ::
      (block.text ++ '}' :: (block.gap ++ ';' :: more))) := by
    rw [rest, tail, ending, own]
    simp only [Block.ending, List.append_assoc, List.cons_append, List.nil_append]
  have opened : Opened o.rest l.inside l.between
      (block.text ++ '}' :: (block.gap ++ ';' :: more)) l.parameters :=
    ⟨shape, l.enclosed, l.read, l.clear⟩
  refine ⟨_, (opened.outline content).trans (by rw [fromBodyEnd?_block]), rfl, ?_, ?_⟩
  · dsimp only
    rw [List.length_append, Nat.add_sub_cancel]
    exact List.take_left
  · dsimp only
    rw [dropWhile_gap block.blank, List.length_cons]

/-- A layout without a body has no outline. -/
theorem outline_of_external (external : l.block = none) (content : List Char)
    (rest : o.rest = l.tail ++ more) : outline content o = .ok none := by
  have shape : o.rest = l.inside ++ ')' :: (l.between ++ ';' :: more) := by
    rw [rest, tail, ending, external]
    simp only [List.append_assoc, List.cons_append, List.nil_append]
  have semicolon : (l.between ++ ';' :: more).dropWhile (fun c => c != '{' && c != ';') =
      ';' :: more := by
    rw [List.dropWhile_append_of_pos l.clear]
    rfl
  unfold outline
  dsimp only
  rw [shape, cutParenthesis?_of_level l.enclosed]
  dsimp only
  rw [l.read, semicolon]
  rfl

/-! ## A layout at the end of a text -/

/-- What is read of a layout behind a text, which is read backwards. -/
structure ReadBehind (l : Layout) (before : List Char) (f : FunctionDecl) : Prop where
  qualifiedName : f.qualifiedName = l.qualifiedName
  annotations : f.annotations = leadingAnnotations before ++ annotationsIn l.value.annotationText
  isPrivate : f.isPrivate =
    (l.value.saysPrivate || f.annotations.any privateAnnotations.contains)

variable {known : List String} {path : String} {start : Nat} {seen : List String}

theorem readBehind_of_functionOf {parts : Outline} {f : FunctionDecl} {rest : List Char}
    (parameters : parts.parameters = l.parameters)
    (read : (functionOf known content (l.found before rest) parts).value = .ok f) :
    ReadBehind l before f := by
  obtain ⟨signature, calls, rfl⟩ := functionOf_eq_ok read
  refine ⟨?_, rfl, rfl⟩
  unfold FunctionDecl.qualifiedName FunctionDecl.arity Layout.qualifiedName
  dsimp only
  rw [parameters]
  rfl

/-- A layout with a body at the end of a text is read as one function, if no function has its name
yet. -/
theorem declarationsFrom_text {block : Block} (own : l.block = some block)
    (short : HasShortArities known block.text)
    (size : content.length = before.length + l.text.length)
    (wordStart : before.head?.any Text.isWord = false) (reached : start ≤ before.length)
    (unseen : l.qualifiedName ∉ seen) :
    ∃ f, (declarationsFrom known content path start seen
      (occurrencesFrom header before l.text)).value = .ok [f] ∧ ReadBehind l before f := by
  have found : occurrencesFrom header before l.text =
      l.found before l.tail :: occurrencesFrom header (l.head.reverse ++ before) l.tail :=
    occurrencesFrom_head wordStart l.tail
  have rest : (l.found before l.tail).rest = l.tail ++ [] := (List.append_nil l.tail).symm
  obtain ⟨parts, outlined, parameters, body, ending⟩ := outline_of_block own content rest
  have fresh : ∀ d, (functionOf known content (l.found before l.tail) parts).value = .ok d →
      d.qualifiedName ∉ seen := by
    intro d own
    rw [(readBehind_of_functionOf parameters own).qualifiedName]
    exact unseen
  have inside : ∀ o ∈ occurrencesFrom header (l.head.reverse ++ before) l.tail,
      o.offset < parts.endOffset + 1 := by
    intro o member
    have bound := offset_lt_of_mem member
    rw [text, List.length_append] at size
    rw [List.length_append, List.length_reverse] at bound
    rw [List.length_nil] at ending
    omega
  obtain ⟨f, read, last⟩ :=
    exists_value_declarationsFrom reached outlined (body.symm ▸ short) fresh inside
  refine ⟨f, ?_, readBehind_of_functionOf parameters read⟩
  rw [found]
  exact last

end Layout

end CallAtlas.Written
