import CallAtlas.Proofs.Canonical.Functions
import CallAtlas.Proofs.Source.Arities
import CallAtlas.Proofs.Source.Levels
import Mathlib.Data.Bool.AllAny

/-!
# Written declarations

A declaration is given by its qualifier, its name, its parameters and the text of its body. This
module says how it is written, when its parts can be told apart (`Fits`), and that it is then read
as it was written: its head up to the parenthesis, its parameters with their types, its body up to
the brace before the semicolon, whatever follows. Bodies are any texts that close their braces and
literals; types are any that close their brackets and literals and keep commas inside.
-/

namespace CallAtlas

/-! ## Texts -/

/-- A parameter as it is written. -/
def Parameter.text (p : Parameter) : List Char :=
  '$' :: (p.name.toList ++
    match p.typeText with
    | none => []
    | some type => " as ".toList ++ type.toList)

namespace Written

open Source Canonical

/-- A function declaration to be written. -/
structure Declaration where
  qualifier : String
  name : String
  parameters : List Parameter
  /-- What follows each comma between parameters. -/
  gap : String
  /-- The text between the outermost braces. -/
  body : String
deriving Repr, DecidableEq

/-- Texts with a comma and a gap between neighbours. -/
def listed (gap : List Char) : List (List Char) → List Char
  | [] => []
  | x :: xs => x ++ xs.flatMap fun y => ',' :: (gap ++ y)

namespace Declaration

/-- The text up to the parenthesis that opens the parameters. -/
def head (d : Declaration) : List Char :=
  "declare function ".toList ++ (d.qualifier.toList ++ ':' :: (d.name.toList ++ ['(']))

/-- The text between the parentheses. -/
def parameterText (d : Declaration) : List Char :=
  listed d.gap.toList (d.parameters.map Parameter.text)

/-- The text from the parameters on. -/
def tail (d : Declaration) : List Char :=
  d.parameterText ++ (") \x7b".toList ++ (d.body.toList ++ "\x7d;".toList))

/-- The whole text. -/
def text (d : Declaration) : List Char :=
  d.head ++ d.tail

/-- The name with the arity. -/
def qualifiedName (d : Declaration) : String :=
  qualify d.name (some (Int.ofNat d.parameters.length))

end Declaration

/-! ## Conditions -/

/-- Whether single spaces are the only blanks of a text and none of them stands at its end or,
after a blank, at its start. -/
def isSpaced (afterBlank : Bool) : List Char → Bool
  | [] => !afterBlank
  | c :: s =>
    if Text.isBlank c then c == ' ' && !afterBlank && isSpaced true s else isSpaced false s

/-- A name of a parameter: a name, or two with a colon between them. -/
def isParameterName (s : List Char) : Bool :=
  isName s || (isName (s.takeWhile (· != ':')) && isName (s.dropWhile (· != ':')).tail)

/-- A type that can stand in a list of parameters. -/
def isType (s : List Char) : Bool :=
  isSpaced true s && isEnclosed [] s

/-- A parameter that can be written. -/
def fitsParameter (p : Parameter) : Bool :=
  isParameterName p.name.toList && p.typeText.all fun type => isType type.toList

/-- A declaration that can be written. -/
structure Declaration.Fits (d : Declaration) : Prop where
  qualifier : isName d.qualifier.toList = true
  name : isName d.name.toList = true
  parameters : ∀ p ∈ d.parameters, fitsParameter p = true
  gap : ∀ c ∈ d.gap.toList, Text.isBlank c = true
  body : level? '{' '}' 0 d.body.toList = some 0

instance (d : Declaration) : Decidable d.Fits :=
  decidable_of_iff (isName d.qualifier.toList = true ∧ isName d.name.toList = true ∧
      (∀ p ∈ d.parameters, fitsParameter p = true) ∧ d.gap.toList.all Text.isBlank = true ∧
      level? '{' '}' 0 d.body.toList = some 0)
    ⟨fun ⟨qualifier, name, parameters, gap, body⟩ =>
        ⟨qualifier, name, parameters, List.all_eq_true.1 gap, body⟩,
      fun fits =>
        ⟨fits.qualifier, fits.name, fits.parameters, List.all_eq_true.2 fits.gap, fits.body⟩⟩

/-! ## Types -/

/-- The words of a spaced text, with one space between neighbours, are the text. -/
theorem splitOnP_of_isSpaced {afterBlank : Bool} {s : List Char}
    (spaced : isSpaced afterBlank s = true) :
    ∃ w ws, s.splitOnP Text.isBlank = w :: ws ∧ [' '].intercalate (w :: ws) = s ∧
      (afterBlank = true → w ≠ []) ∧ ∀ v ∈ ws, v ≠ [] := by
  induction s generalizing afterBlank with
  | nil =>
    cases afterBlank with
    | true => cases spaced
    | false =>
      exact ⟨[], [], rfl, rfl, fun absent => (nomatch absent), fun v absent => nomatch absent⟩
  | cons c s ih =>
    rw [List.splitOnP_cons_eq_if_modifyHead]
    rw [isSpaced] at spaced
    split at spaced
    next blank =>
      simp only [Bool.and_eq_true, Bool.not_eq_true', beq_iff_eq] at spaced
      obtain ⟨⟨rfl, inside⟩, later⟩ := spaced
      obtain ⟨w, ws, split, joined, first, rest⟩ := ih later
      rw [if_pos blank, split]
      refine ⟨[], w :: ws, rfl, ?_, ?_, ?_⟩
      · rw [List.intercalate_cons_cons, joined]
        rfl
      · intro after
        rw [inside] at after
        cases after
      · intro v member
        rcases List.mem_cons.1 member with rfl | inRest
        · exact first rfl
        · exact rest v inRest
    next solid =>
      obtain ⟨w, ws, split, joined, first, rest⟩ := ih spaced
      rw [if_neg solid, split]
      refine ⟨c :: w, ws, rfl, ?_, fun _ => List.cons_ne_nil _ _, rest⟩
      rw [← joined]
      cases ws with
      | nil => rw [List.intercalate_singleton, List.intercalate_singleton]
      | cons v ws =>
        rw [List.intercalate_cons_cons, List.intercalate_cons_cons, List.cons_append,
          List.cons_append]

theorem squeeze_of_isSpaced {s : List Char} (spaced : isSpaced true s = true) :
    Text.squeeze s = s := by
  obtain ⟨w, ws, split, joined, first, rest⟩ := splitOnP_of_isSpaced spaced
  have whole : (w :: ws).filter (!·.isEmpty) = w :: ws := by
    rw [List.filter_eq_self]
    intro v member
    rw [Bool.not_eq_true', List.isEmpty_eq_false_iff]
    rcases List.mem_cons.1 member with rfl | later
    · exact first rfl
    · exact rest v later
  unfold Text.squeeze Text.words
  rw [split, whole, joined]

theorem isSpaced_head {s : List Char} (spaced : isSpaced true s = true) :
    s ≠ [] ∧ s.head?.any Text.isBlank = false := by
  cases s with
  | nil => cases spaced
  | cons c s =>
    refine ⟨List.cons_ne_nil _ _, ?_⟩
    rw [isSpaced] at spaced
    split at spaced
    next =>
      rw [Bool.not_true, Bool.and_false, Bool.false_and] at spaced
      cases spaced
    next solid => exact Bool.not_eq_true _ ▸ solid

theorem isSpaced_getLast {afterBlank : Bool} {s : List Char}
    (spaced : isSpaced afterBlank s = true) : s.getLast?.any Text.isBlank = false := by
  induction s generalizing afterBlank with
  | nil => rfl
  | cons c s ih =>
    rw [isSpaced] at spaced
    cases s with
    | nil =>
      split at spaced
      next =>
        rw [isSpaced, Bool.not_true, Bool.and_false] at spaced
        cases spaced
      next solid => exact Bool.not_eq_true _ ▸ solid
    | cons d s =>
      rw [List.getLast?_cons_cons]
      split at spaced
      next => exact ih (Bool.and_eq_true_iff.1 spaced).2
      next => exact ih spaced

/-! ## Parameters -/

theorem isParameterName_cases {s : List Char} (name : isParameterName s = true) :
    isName s = true ∨ ∃ first second, isName first = true ∧ isName second = true ∧
      s = first ++ ':' :: second := by
  rcases Bool.or_eq_true_iff.1 name with single | double
  · exact Or.inl single
  · obtain ⟨first, second⟩ := Bool.and_eq_true_iff.1 double
    refine Or.inr ⟨_, _, first, second, ?_⟩
    cases rest : s.dropWhile (· != ':') with
    | nil =>
      rw [rest] at second
      cases second
    | cons c more =>
      have stops := List.head?_dropWhile_not (· != ':') s
      rw [rest] at stops
      have colon : c = ':' := by simpa using stops
      rw [List.tail_cons, show ':' :: more = s.dropWhile (· != ':') by rw [rest, colon],
        List.takeWhile_append_dropWhile]

/-- What is read of a parameter whose name ends before `rest`. -/
theorem readParameter?_append {name rest : List Char} (isNamed : isParameterName name = true)
    (stops : StopsName rest) :
    readParameter? ('$' :: (name ++ rest)) =
      if rest.isEmpty then some ⟨String.ofList name, none⟩
      else (do Scan.someBlanks; Scan.keyword "as"; Scan.someBlanks : Scan Unit) rest >>= fun read =>
        if read.2.isEmpty then none
        else some ⟨String.ofList name, some (String.ofList (Text.squeeze read.2))⟩ := by
  have ends : rest.head?.any Text.isNameChar = false := by
    cases rest with
    | nil => rfl
    | cons c rest => exact (stops c rfl).1
  unfold readParameter?
  rw [Scan.bind_of_read (Scan.literal_cons '$' _)]
  rcases isParameterName_cases isNamed with single | ⟨first, second, isFirst, isSecond, rfl⟩
  · have noSecond : (Scan.literal [':'] *> Scan.name) rest = none := by
      refine Scan.bind_of_none ?_
      unfold Scan.literal
      rw [if_neg]
      cases rest with
      | nil => exact Bool.false_ne_true
      | cons c rest =>
        intro starts
        exact (stops c rfl).2 (eq_of_beq (Bool.and_eq_true_iff.1 starts).1).symm
    rw [Scan.bind_of_read (name_append single ends),
      Scan.bind_of_read (Scan.optional_of_none noSecond)]
    rfl
  · have colon : (Scan.literal [':'] *> Scan.name) (':' :: (second ++ rest)) =
        some (second, rest) := by
      change (Scan.literal [':'] >>= fun _ => Scan.name) _ = _
      rw [Scan.bind_of_read (Scan.literal_cons ':' _), name_append isSecond ends]
    rw [List.append_assoc, List.cons_append, Scan.bind_of_read (name_append isFirst rfl),
      Scan.bind_of_read (Scan.optional_of_read colon)]
    rfl

/-- A parameter is read as it was written. -/
theorem readParameter?_text {p : Parameter} (fits : fitsParameter p = true) :
    readParameter? p.text = some p := by
  obtain ⟨name, typeText⟩ := p
  obtain ⟨isNamed, typed⟩ := Bool.and_eq_true_iff.1 fits
  cases typeText with
  | none =>
    have alone : StopsName [] := fun c absent => nomatch absent
    change readParameter? ('$' :: (name.toList ++ [])) = _
    rw [readParameter?_append isNamed alone, String.ofList_toList]
    rfl
  | some type =>
    obtain ⟨spaced, -⟩ := Bool.and_eq_true_iff.1 (show isType type.toList = true from typed)
    obtain ⟨nonempty, solid⟩ := isSpaced_head spaced
    have stops : StopsName (' ' :: ("as".toList ++ ' ' :: type.toList)) :=
      stopsName_cons (by decide) (by decide)
    have between : (do Scan.someBlanks; Scan.keyword "as"; Scan.someBlanks : Scan Unit)
        (' ' :: ("as".toList ++ ' ' :: type.toList)) = some ((), type.toList) := by
      rw [Scan.bind_of_read (Scan.someBlanks_space rfl),
        Scan.bind_of_read (Scan.keyword_append "as" _), Scan.someBlanks_space solid]
    change readParameter? ('$' :: (name.toList ++ ' ' :: ("as".toList ++ ' ' :: type.toList))) = _
    rw [readParameter?_append isNamed stops, between, List.isEmpty_cons, if_neg Bool.false_ne_true]
    change (if type.toList.isEmpty = true then none else some _) = _
    rw [if_neg (by simpa using nonempty), squeeze_of_isSpaced spaced, String.ofList_toList,
      String.ofList_toList]

theorem chars_of_isParameterName {s : List Char} (name : isParameterName s = true) :
    ∀ c ∈ s, Text.isNameChar c = true ∨ c = ':' := by
  intro c member
  rcases isParameterName_cases name with single | ⟨first, second, isFirst, isSecond, rfl⟩
  · exact Or.inl ((isName_iff.1 single).2 c member)
  · rcases List.mem_append.1 member with inFirst | later
    · exact Or.inl ((isName_iff.1 isFirst).2 c inFirst)
    · rcases List.mem_cons.1 later with colon | inSecond
      · exact Or.inr colon
      · exact Or.inl ((isName_iff.1 isSecond).2 c inSecond)

/-- The text of a parameter is one segment of a list. -/
theorem isEnclosed_text {p : Parameter} (fits : fitsParameter p = true) :
    isEnclosed [] p.text = true := by
  obtain ⟨name, typeText⟩ := p
  obtain ⟨isNamed, typed⟩ := Bool.and_eq_true_iff.1 fits
  have dollar : ∀ c ∈ '$' :: name.toList,
      isQuote c = false ∧ isOpener c = false ∧ isCloser c = false ∧ c ≠ ',' := by
    intro c member
    rcases List.mem_cons.1 member with rfl | inside
    · decide
    · rcases chars_of_isParameterName isNamed c inside with nameChar | rfl
      · exact plain_of_isNameChar nameChar
      · decide
  cases typeText with
  | none =>
    change isEnclosed [] ('$' :: name.toList ++ []) = true
    rw [isEnclosed_append_of_plain [] dollar, isEnclosed]
    rfl
  | some type =>
    change isEnclosed [] ('$' :: name.toList ++ (" as ".toList ++ type.toList)) = true
    rw [isEnclosed_append_of_plain [] dollar,
      isEnclosed_append_of_plain [] (List.all_iff_forall_prop.1 (by decide))]
    exact (Bool.and_eq_true_iff.1 (show isType type.toList = true from typed)).2

/-- No blanks surround the text of a parameter. -/
theorem solid_text {p : Parameter} (fits : fitsParameter p = true) :
    p.text.head?.any Text.isBlank = false ∧ p.text.getLast?.any Text.isBlank = false := by
  refine ⟨rfl, ?_⟩
  obtain ⟨name, typeText⟩ := p
  obtain ⟨isNamed, typed⟩ := Bool.and_eq_true_iff.1 fits
  cases typeText with
  | none =>
    obtain ⟨last, ends⟩ : ∃ c, ('$' :: (name.toList ++ [])).getLast? = some c :=
      ⟨_, List.getLast?_eq_some_getLast (List.cons_ne_nil _ _)⟩
    change ('$' :: (name.toList ++ [])).getLast?.any Text.isBlank = false
    rw [ends]
    rw [List.append_nil] at ends
    rcases List.mem_cons.1 (List.mem_of_getLast? ends) with rfl | inside
    · decide
    · rcases chars_of_isParameterName isNamed last inside with nameChar | rfl
      · exact Text.not_blank_of_isNameChar nameChar
      · decide
  | some type =>
    obtain ⟨spaced, -⟩ := Bool.and_eq_true_iff.1 (show isType type.toList = true from typed)
    have same : (⟨name, some type⟩ : Parameter).text =
        ('$' :: (name.toList ++ " as ".toList)) ++ type.toList := by
      unfold Parameter.text
      rw [List.cons_append, List.append_assoc]
    rw [same, List.getLast?_append_of_ne_nil _ (isSpaced_head spaced).1]
    exact isSpaced_getLast spaced

/-! ## Lists of texts -/

section Listed

variable {gap : List Char} {xs : List (List Char)}

theorem listed_cons_cons (gap x y : List Char) (ys : List (List Char)) :
    listed gap (x :: y :: ys) = x ++ ',' :: (gap ++ listed gap (y :: ys)) := by
  rw [listed, listed, List.flatMap_cons, List.cons_append, List.append_assoc]

theorem listed_singleton (gap x : List Char) : listed gap [x] = x :=
  List.append_nil x

/-- Segments make a list that leads back to where it started in each kind of brackets. -/
theorem level?_listed {opener closer : Char} (pair : closerOf? opener = some closer)
    (blank : ∀ c ∈ gap, Text.isBlank c = true) (enclosed : ∀ x ∈ xs, isEnclosed [] x = true) :
    level? opener closer 0 (listed gap xs) = some 0 := by
  have plain : ∀ c ∈ ',' :: gap, isQuote c = false ∧ c ≠ opener ∧ c ≠ closer := by
    intro c member
    rcases List.mem_cons.1 member with rfl | inside
    · exact ⟨rfl, ne_of_closerOf? pair rfl rfl⟩
    · obtain ⟨quote, notOpener, notCloser, -⟩ := plain_of_isBlank (blank c inside)
      exact ⟨quote, ne_of_closerOf? pair notOpener notCloser⟩
  induction xs with
  | nil => exact level?.eq_1 ..
  | cons x xs ih =>
    have first : level? opener closer 0 x = some 0 :=
      level?_of_isEnclosed pair (enclosed x List.mem_cons_self)
    cases xs with
    | nil =>
      rw [listed_singleton]
      exact first
    | cons y ys =>
      rw [listed_cons_cons, level?_append first (noQuoteAhead_cons rfl), ← List.cons_append,
        level?_append_of_plain plain]
      exact ih fun z member => enclosed z (List.mem_cons_of_mem _ member)

/-- The arguments of a list of segments are the segments. -/
theorem arguments_listed (blank : ∀ c ∈ gap, Text.isBlank c = true)
    (enclosed : ∀ x ∈ xs, isEnclosed [] x = true)
    (solid : ∀ x ∈ xs, x ≠ [] ∧ x.head?.any Text.isBlank = false ∧
      x.getLast?.any Text.isBlank = false) :
    arguments (listed gap xs) = xs := by
  cases xs with
  | nil => rfl
  | cons x xs =>
    have joined : listed gap (x :: xs) = [','].intercalate (x :: xs.map (gap ++ ·)) := by
      rw [intercalate_cons, List.flatMap_map, listed]
    have each : ∀ y ∈ x :: xs.map (gap ++ ·), segmentDepth? ',' 0 y = some 0 := by
      intro y member
      rcases List.mem_cons.1 member with rfl | later
      · exact segmentDepth?_of_isEnclosed (enclosed y List.mem_cons_self)
      · obtain ⟨z, given, rfl⟩ := List.mem_map.1 later
        rw [segmentDepth?_append_of_plain fun c inside => plain_of_isBlank (blank c inside)]
        exact segmentDepth?_of_isEnclosed (enclosed z (List.mem_cons_of_mem _ given))
    have inked : Text.isAllBlank ([','].intercalate (x :: xs.map (gap ++ ·))) = false := by
      obtain ⟨nonempty, first, -⟩ := solid x List.mem_cons_self
      obtain ⟨c, more, rfl⟩ := List.exists_cons_of_ne_nil nonempty
      have solidFirst : Text.isBlank c = false := first
      rw [intercalate_cons]
      exact List.all_eq_false.2 ⟨c, List.mem_cons_self, by simp [solidFirst]⟩
    obtain ⟨-, first, last⟩ := solid x List.mem_cons_self
    rw [joined, arguments, segments_of_each rfl rfl rfl each inked, List.map_cons, List.map_map,
      Text.trim_eq_self first last]
    congr 1
    conv_rhs => rw [← List.map_id xs]
    refine List.map_congr_left ?_
    intro y member
    obtain ⟨-, first, last⟩ := solid y (List.mem_cons_of_mem _ member)
    exact Text.trim_append blank first last

end Listed

/-! ## Heads and outlines -/

/-- The outline of a declaration is that which was written, with `more` behind its semicolon. -/
structure IsOutline (d : Declaration) (content more : List Char) (parts : Outline) : Prop where
  parameters : parts.parameters = d.parameters
  body : parts.body = d.body.toList
  endOffset : parts.endOffset = content.length - (more.length + 1)

/-- The head of a declaration is that which was written, between two texts. -/
structure IsHead (d : Declaration) (before rest : List Char) (o : Occurrence Header) : Prop where
  before : o.before = before
  rest : o.rest = rest
  qualifier : o.value.qualifier = d.qualifier.toList
  name : o.value.name = d.name.toList
  saysPrivate : o.value.saysPrivate = false
  annotationText : o.value.annotationText = []

namespace Declaration.Fits

variable {d : Declaration}

/-- The parameters of a declaration lead back to where they started in each kind of brackets. -/
theorem level?_parameterText (fits : d.Fits) {opener closer : Char}
    (pair : closerOf? opener = some closer) : level? opener closer 0 d.parameterText = some 0 := by
  refine level?_listed pair fits.gap ?_
  intro x member
  obtain ⟨p, own, rfl⟩ := List.mem_map.1 member
  exact isEnclosed_text (fits.parameters p own)

/-- The parameters of a declaration are read as they were written. -/
theorem readParameters (fits : d.Fits) : readParameters d.parameterText = .ok d.parameters := by
  have segments : arguments d.parameterText = d.parameters.map Parameter.text := by
    refine arguments_listed fits.gap ?_ ?_
    · intro x member
      obtain ⟨p, own, rfl⟩ := List.mem_map.1 member
      exact isEnclosed_text (fits.parameters p own)
    · intro x member
      obtain ⟨p, own, rfl⟩ := List.mem_map.1 member
      exact ⟨List.cons_ne_nil _ _, solid_text (fits.parameters p own)⟩
  have each := fits.parameters
  unfold Source.readParameters
  rw [segments]
  generalize d.parameters = parameters at each
  induction parameters with
  | nil => rfl
  | cons p parameters ih =>
    have later := ih fun q member => each q (List.mem_cons_of_mem _ member)
    rw [List.map_cons, List.mapM_cons, readParameter?_text (each p List.mem_cons_self), later]
    rfl

/-- Whatever follows the parameters up to a brace, they are read. -/
theorem opened (fits : d.Fits) {rest between afterBrace : List Char}
    (shape : rest = d.parameterText ++ ')' :: (between ++ '{' :: afterBrace))
    (clear : ∀ c ∈ between, (c != '{' && c != ';') = true) :
    Opened rest d.parameterText between afterBrace d.parameters :=
  ⟨shape, fits.level?_parameterText rfl, fits.readParameters, clear⟩

/-- The body of a declaration ends at its own brace. -/
theorem fromBodyEnd?_body (fits : d.Fits) (more : List Char) :
    fromBodyEnd? 1 (d.body.toList ++ '}' :: ';' :: more) = some ('}' :: ';' :: more) :=
  fromBodyEnd?_of_level fits.body more

/-- A declaration has the outline that was written. -/
theorem outline (fits : d.Fits) (content : List Char) {o : Occurrence Header} {more : List Char}
    (rest : o.rest = d.tail ++ more) :
    ∃ parts, Source.outline content o = .ok (some parts) ∧ IsOutline d content more parts := by
  have shape : o.rest = d.parameterText ++ ')' :: ([' '] ++ '{' ::
      (d.body.toList ++ '}' :: ';' :: more)) := by
    rw [rest]
    unfold tail
    simp only [List.append_assoc]
    rfl
  have opened := fits.opened shape (List.forall_mem_singleton.2 (by decide))
  refine ⟨_, (opened.outline content).trans (by rw [fits.fromBodyEnd?_body]), rfl, ?_, rfl⟩
  dsimp only
  rw [List.length_append, Nat.add_sub_cancel]
  exact List.take_left

/-- The head of a declaration is found where it stands, if no word goes on before it. -/
theorem occurrencesFrom_head (fits : d.Fits) {before : List Char}
    (wordStart : before.head?.any Text.isWord = false) (rest : List Char) :
    ∃ o, occurrencesFrom header before (d.head ++ rest) =
        o :: occurrencesFrom header (d.head.reverse ++ before) rest ∧ IsHead d before rest o := by
  have nonempty : d.head ≠ [] := by
    intro none
    cases (List.append_eq_nil_iff.1 none).1
  exact ⟨_, occurrencesFrom_of_read nonempty
    (header_function wordStart fits.qualifier fits.name rest), rfl, rfl, rfl, rfl, rfl, rfl⟩

end Declaration.Fits

/-! ## Functions -/

/-- A function that was read is the one that was written. -/
structure Recovers (d : Declaration) (f : FunctionDecl) : Prop where
  qualifier : f.qualifier = d.qualifier
  name : f.name = d.name
  parameters : f.parameters = d.parameters
  body : f.body = String.ofList (Text.trim d.body.toList)

theorem Recovers.qualifiedName {d : Declaration} {f : FunctionDecl} (recovers : Recovers d f) :
    f.qualifiedName = d.qualifiedName := by
  unfold FunctionDecl.qualifiedName Declaration.qualifiedName FunctionDecl.arity
  rw [recovers.name, recovers.parameters]

section Functions

variable {known : List String} {content : List Char} {o : Occurrence Header} {parts : Outline}

/-- A function has the name of its head, the parameters and the body of its outline, and the lines
of both. -/
theorem functionOf_eq_ok {f : FunctionDecl}
    (read : (functionOf known content o parts).value = .ok f) :
    ∃ signature calls, f =
      { name := String.ofList o.value.name
        qualifier := String.ofList o.value.qualifier
        line := Text.lineAfter o.before
        lineEnd := Text.lineOf content parts.endOffset
        signature := signature
        body := String.ofList (Text.trim parts.body)
        parameters := parts.parameters
        isPrivate := o.value.saysPrivate ||
          (leadingAnnotations o.before ++ annotationsIn o.value.annotationText).any
            privateAnnotations.contains
        annotations := leadingAnnotations o.before ++ annotationsIn o.value.annotationText
        calls := calls } := by
  obtain ⟨calls, -, made⟩ := Checked.value_bind_eq_ok.1 read
  exact ⟨_, calls, (Except.ok.inj made).symm⟩

/-- A function that has the head and the outline of a declaration is the one that was written. -/
theorem recovers_of_functionOf {d : Declaration} {before rest more : List Char} {f : FunctionDecl}
    (head : IsHead d before rest o) (outlined : IsOutline d content more parts)
    (read : (functionOf known content o parts).value = .ok f) : Recovers d f := by
  obtain ⟨signature, calls, rfl⟩ := functionOf_eq_ok read
  refine ⟨?_, ?_, outlined.parameters, ?_⟩
  · exact (congrArg String.ofList head.qualifier).trans String.ofList_toList
  · exact (congrArg String.ofList head.name).trans String.ofList_toList
  · exact congrArg (fun s => String.ofList (Text.trim s)) outlined.body

end Functions

end Written
end CallAtlas
