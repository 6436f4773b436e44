import CallAtlas.Proofs.Canonical.Reading
import CallAtlas.Proofs.Source.Legible
import CallAtlas.Proofs.Written.Declarations

/-!
# Written declarations are recovered

A text of declarations, a line feed after each, is read as the declarations that were written, in
their order and with the lines that they stand on, as long as no parameter and no body has the word
that opens a declaration. Reading fails only at an explicit arity in a body that is too long to be
read. The walk along the heads is by induction on the declarations still to come: each is closed by
its own semicolon, so the next head lies behind it. Without comments in it such a text is a module
that can be read under the same condition (`isLegible_written`).
-/

namespace CallAtlas.Written

open Source Canonical

/-- Declarations with a line feed after each. -/
def written (ds : List Declaration) : List Char :=
  ds.flatMap fun d => d.text ++ ['\n']

/-- Declarations with the offsets at which they start, the first at a given one. -/
def placed (start : Nat) : List Declaration → List (Nat × Declaration)
  | [] => []
  | d :: ds => (start, d) :: placed (start + d.text.length + 1) ds

/-- A function that was read is the declaration that was written at an offset of a text. -/
structure RecoversAt (text : List Char) (place : Nat × Declaration) (f : FunctionDecl) : Prop
    extends Recovers place.2 f where
  arity : f.arity = place.2.parameters.length
  isPrivate : f.isPrivate = false
  line : f.line = Text.lineOf text place.1
  lineEnd : f.lineEnd = Text.lineOf text (place.1 + place.2.text.length - 1)

/-! ## Quiet texts -/

/-- A text with neither the word that opens a declaration nor the sign of annotations. -/
structure IsQuiet (s : List Char) : Prop where
  word : hasWord "declare".toList none s = false
  sign : '%' ∉ s

instance (s : List Char) : Decidable (IsQuiet s) :=
  decidable_of_iff (hasWord "declare".toList none s = false ∧ '%' ∉ s)
    ⟨fun ⟨word, sign⟩ => ⟨word, sign⟩, fun quiet => ⟨quiet.word, quiet.sign⟩⟩

/-- A declaration whose parameters and body are quiet. -/
structure Declaration.Quiet (d : Declaration) : Prop where
  parameters : ∀ p ∈ d.parameters, IsQuiet p.text
  body : IsQuiet d.body.toList

instance (d : Declaration) : Decidable d.Quiet :=
  decidable_of_iff ((∀ p ∈ d.parameters, IsQuiet p.text) ∧ IsQuiet d.body.toList)
    ⟨fun ⟨parameters, body⟩ => ⟨parameters, body⟩, fun quiet => ⟨quiet.parameters, quiet.body⟩⟩

/-- No declaration opens in a list of quiet texts, if no letter follows it. -/
theorem avoids_listed {gap : List Char} {xs : List (List Char)}
    (blank : ∀ c ∈ gap, Text.isBlank c = true) (quiet : ∀ x ∈ xs, IsQuiet x)
    {before rest : List Char} (sealed : rest.head?.any Char.isAlpha = false) :
    Avoids (Opens "declare".toList) before (listed gap xs) rest := by
  have isWord : "declare".toList ∈ statementWords := by decide
  have gapless : (',' :: gap).any Char.isAlpha = false := by
    rw [List.any_cons, Text.any_eq_false_of_isBlank Text.not_blank_of_isAlpha blank]
    rfl
  induction xs generalizing before with
  | nil => trivial
  | cons x xs ih =>
    have first : ∀ {rest : List Char}, rest.head?.any Char.isAlpha = false →
        Avoids (Opens "declare".toList) before x rest :=
      avoids_of_wordless isWord (fun _ => rfl) (quiet x List.mem_cons_self).word
    cases xs with
    | nil =>
      rw [listed_singleton]
      exact first sealed
    | cons y ys =>
      have later : ∀ {before}, Avoids (Opens "declare".toList) before (listed gap (y :: ys)) rest :=
        ih fun z member => quiet z (List.mem_cons_of_mem _ member)
      rw [listed_cons_cons, ← List.cons_append]
      exact (first rfl).append ((avoids_of_letterless isWord gapless).append later)

/-- No declaration opens in the parameters and the body of a quiet one. -/
theorem Declaration.Quiet.avoids_tail {d : Declaration} (quiet : d.Quiet) (fits : d.Fits)
    {before rest : List Char} :
    Avoids (Opens "declare".toList) before (d.tail ++ ['\n']) rest := by
  have isWord : "declare".toList ∈ statementWords := by decide
  have parameters : ∀ {rest},
      Avoids (Opens "declare".toList) before d.parameterText (')' :: rest) := by
    intro rest
    refine avoids_listed fits.gap ?_ rfl
    intro x member
    obtain ⟨p, own, rfl⟩ := List.mem_map.1 member
    exact quiet.parameters p own
  have body : ∀ {before rest},
      Avoids (Opens "declare".toList) before d.body.toList ('}' :: rest) :=
    avoids_of_wordless isWord (fun _ => rfl) quiet.body.word rfl
  have regrouped : d.tail ++ ['\n'] =
      d.parameterText ++ (") \x7b".toList ++ (d.body.toList ++ "\x7d;\n".toList)) := by
    unfold tail
    simp only [List.append_assoc]
    rfl
  rw [regrouped]
  refine parameters.append ?_
  refine (avoids_of_letterless isWord (by decide)).append ?_
  exact body.append (avoids_of_letterless isWord (by decide))

theorem not_mem_listed {gap : List Char} {xs : List (List Char)} {c : Char} (comma : c ≠ ',')
    (inGap : c ∉ gap) (inTexts : ∀ x ∈ xs, c ∉ x) : c ∉ listed gap xs := by
  induction xs with
  | nil => exact fun member => nomatch member
  | cons x xs ih =>
    have first := inTexts x List.mem_cons_self
    cases xs with
    | nil =>
      rw [listed_singleton]
      exact first
    | cons y ys =>
      have later := ih fun z member => inTexts z (List.mem_cons_of_mem _ member)
      rw [listed_cons_cons, List.mem_append, List.mem_cons, List.mem_append]
      rintro (inX | same | inside | inside)
      · exact first inX
      · exact comma same
      · exact inGap inside
      · exact later inside

/-- A quiet declaration has no sign of annotations. -/
theorem Declaration.Quiet.sign_not_mem_text {d : Declaration} (quiet : d.Quiet) (fits : d.Fits) :
    '%' ∉ d.text := by
  have name : ∀ {s : List Char}, isName s = true → '%' ∉ s := fun name =>
    not_mem_of_isName name (by decide)
  have parameters : '%' ∉ d.parameterText := by
    refine not_mem_listed (by decide) ?_ ?_
    · intro member
      exact absurd (fits.gap '%' member) (by decide)
    · intro x member
      obtain ⟨p, own, rfl⟩ := List.mem_map.1 member
      exact (quiet.parameters p own).sign
  unfold text head tail
  simp only [List.mem_append, List.mem_cons, List.not_mem_nil, or_false, not_or]
  exact ⟨⟨by decide, name fits.qualifier, by decide, name fits.name, by decide⟩, parameters,
    by decide, quiet.body.sign, by decide⟩

/-- No annotations stand before a declaration in a text without their sign. -/
theorem leadingAnnotations_of_not_mem {before : List Char} (absent : '%' ∉ before) :
    leadingAnnotations before = [] := by
  have noLines : ∀ {above : List Char}, '%' ∉ above → annotationLines above = [] := by
    intro above absent
    rw [annotationLines]
    refine if_neg ?_
    rw [beq_iff_eq]
    intro starts
    have inLine := (Text.trim_sublist _).subset (List.mem_of_mem_head? starts)
    exact absent ((List.takeWhile_sublist _).subset (List.mem_reverse.1 inLine))
  unfold leadingAnnotations
  split
  next =>
    split
    next => rfl
    next c above same =>
      rw [noLines, List.reverse_nil, List.flatMap_nil]
      intro inAbove
      have inRest : '%' ∈ before.dropWhile (· != '\n') := same ▸ List.mem_cons_of_mem _ inAbove
      exact absent ((List.dropWhile_sublist _).subset inRest)
  next => rfl

/-! ## Whole texts -/

theorem written_cons (d : Declaration) (ds : List Declaration) :
    written (d :: ds) = d.head ++ (d.tail ++ '\n' :: written ds) := by
  unfold written Declaration.text
  rw [List.flatMap_cons, List.append_assoc, List.append_assoc, List.singleton_append]

theorem length_written_cons (d : Declaration) (ds : List Declaration) :
    (written (d :: ds)).length = d.text.length + 1 + (written ds).length := by
  unfold written
  rw [List.flatMap_cons, List.length_append, List.length_append, List.length_singleton]

theorem length_text_pos (d : Declaration) : 0 < d.text.length := by
  unfold Declaration.text Declaration.head
  rw [List.length_append, List.length_append]
  have : 0 < "declare function ".toList.length := by decide
  omega

/-- What stands before the next declaration, read backwards, once one was read. -/
def beyond (d : Declaration) (before : List Char) : List Char :=
  (d.text ++ ['\n']).reverse ++ before

theorem length_beyond (d : Declaration) (before : List Char) :
    (beyond d before).length = before.length + d.text.length + 1 := by
  unfold beyond
  rw [List.length_append, List.length_reverse, List.length_append, List.length_singleton]
  omega

/-- Where the walk along the heads stands when `ds` are still to come: behind `before`, of which
nothing spoils the next head, and with names in `seen` that they do not repeat. -/
structure Ahead (content : List Char) (ds : List Declaration) (before : List Char) (start : Nat)
    (seen : List String) : Prop where
  split : content = before.reverse ++ written ds
  wordStart : before.head?.any Text.isWord = false
  unannotated : '%' ∉ before
  reached : start ≤ before.length
  fresh : ∀ d ∈ ds, d.qualifiedName ∉ seen

theorem ahead_start (ds : List Declaration) : Ahead (written ds) ds [] 0 [] :=
  ⟨rfl, rfl, List.not_mem_nil, Nat.le_refl 0, fun _ _ => List.not_mem_nil⟩

section Walk

variable {known : List String} {content before : List Char} {start : Nat} {seen : List String}
  {d : Declaration} {ds : List Declaration}

/-- Behind the semicolon of a declaration the walk stands before the next one. -/
theorem Ahead.next (ahead : Ahead content (d :: ds) before start seen) (fits : d.Fits)
    (quiet : d.Quiet) (single : d.qualifiedName ∉ ds.map Declaration.qualifiedName)
    {parts : Outline} (outlined : IsOutline d content ('\n' :: written ds) parts) :
    Ahead content ds (beyond d before) (parts.endOffset + 1) (d.qualifiedName :: seen) where
  split := by
    rw [ahead.split, written_cons, beyond, Declaration.text]
    simp only [List.reverse_append, List.reverse_reverse, List.append_assoc,
      List.singleton_append]
  wordStart := by
    unfold beyond
    rw [List.reverse_append]
    rfl
  unannotated := by
    unfold beyond
    simp only [List.mem_append, List.mem_reverse, List.mem_singleton, not_or]
    exact ⟨⟨quiet.sign_not_mem_text fits, by decide⟩, ahead.unannotated⟩
  reached := by
    have whole := congrArg List.length ahead.split
    have nonempty := length_text_pos d
    rw [List.length_append, List.length_reverse, length_written_cons] at whole
    rw [outlined.endOffset, length_beyond, List.length_cons]
    omega
  fresh := by
    intro e member
    rw [List.mem_cons, not_or]
    refine ⟨?_, ahead.fresh e (List.mem_cons_of_mem _ member)⟩
    intro same
    exact single (List.mem_map.2 ⟨e, member, same⟩)

/-- The head of the first declaration is found first, and then those of the declarations after
it. -/
theorem occurrencesFrom_written (fits : d.Fits) (quiet : d.Quiet) (ds : List Declaration)
    (wordStart : before.head?.any Text.isWord = false) :
    ∃ o, occurrencesFrom header before (written (d :: ds)) =
        o :: occurrencesFrom header (beyond d before) (written ds) ∧
      IsHead d before (d.tail ++ '\n' :: written ds) o := by
  obtain ⟨o, found, head⟩ := fits.occurrencesFrom_head wordStart (d.tail ++ '\n' :: written ds)
  have avoids : Avoids (Opens "declare".toList) (d.head.reverse ++ before) (d.tail ++ ['\n'])
      (written ds) := quiet.avoids_tail fits
  have skipped := occurrencesFrom_of_avoids (fun _ _ _ => opens_of_header) avoids
  refine ⟨o, ?_, head⟩
  rw [List.append_assoc, List.singleton_append] at skipped
  rw [written_cons, found, skipped, beyond, Declaration.text]
  simp only [List.reverse_append, List.append_assoc]

/-- The function of a declaration stands where the declaration was written. -/
theorem recoversAt_of_functionOf (ahead : Ahead content (d :: ds) before start seen)
    {o : Occurrence Header} (head : IsHead d before (d.tail ++ '\n' :: written ds) o)
    {parts : Outline} (outlined : IsOutline d content ('\n' :: written ds) parts)
    {f : FunctionDecl} (read : (functionOf known content o parts).value = .ok f) :
    RecoversAt content (before.length, d) f := by
  have recovers := recovers_of_functionOf head outlined read
  obtain ⟨signature, calls, rfl⟩ := functionOf_eq_ok read
  have noAnnotations :
      leadingAnnotations o.before ++ annotationsIn o.value.annotationText = [] := by
    rw [head.before, leadingAnnotations_of_not_mem ahead.unannotated, head.annotationText]
    unfold annotationsIn occurrences
    rw [occurrencesFrom]
    rfl
  refine ⟨recovers, congrArg List.length recovers.parameters, ?_, ?_, ?_⟩
  · dsimp only
    rw [noAnnotations, head.saysPrivate]
    rfl
  · dsimp only
    unfold Text.lineOf Text.lineAfter
    rw [head.before, ahead.split, List.take_left' (by rw [List.length_reverse]),
      List.count_reverse]
  · have whole := congrArg List.length ahead.split
    have nonempty := length_text_pos d
    rw [List.length_append, List.length_reverse, length_written_cons] at whole
    dsimp only
    rw [outlined.endOffset, List.length_cons]
    congr 1
    omega

/-- The declarations still to come are recovered, unless an explicit arity is too long to be
read. -/
theorem declarationsFrom_written (known : List String) (path : String) (fits : ∀ d ∈ ds, d.Fits)
    (quiet : ∀ d ∈ ds, d.Quiet) (distinct : (ds.map Declaration.qualifiedName).Nodup)
    (ahead : Ahead content ds before start seen) :
    (∀ fs, (declarationsFrom known content path start seen
        (occurrencesFrom header before (written ds))).value = .ok fs →
      List.Forall₂ (RecoversAt content) (placed before.length ds) fs) ∧
    ((∃ fs, (declarationsFrom known content path start seen
        (occurrencesFrom header before (written ds))).value = .ok fs) ↔
      ∀ d ∈ ds, HasShortArities known d.body.toList) := by
  -- On the declarations still to come; `Ahead` says where the walk stands when one of them is next.
  induction ds generalizing before start seen with
  | nil =>
    have none : occurrencesFrom header before (written []) = [] := by
      unfold written
      rw [List.flatMap_nil, occurrencesFrom]
    rw [none, declarationsFrom]
    refine ⟨?_, fun _ => List.forall_mem_nil _, fun _ => ⟨[], rfl⟩⟩
    intro fs read
    cases read
    exact .nil
  | cons d ds ih =>
    have own := fits d List.mem_cons_self
    have ownQuiet := quiet d List.mem_cons_self
    rw [List.map_cons, List.nodup_cons] at distinct
    obtain ⟨o, found, head⟩ := occurrencesFrom_written own ownQuiet ds ahead.wordStart
    obtain ⟨parts, outlined, shape⟩ := own.outline content head.rest
    have recovers : ∀ f, (functionOf known content o parts).value = .ok f →
        RecoversAt content (before.length, d) f := fun f =>
      recoversAt_of_functionOf ahead head shape
    have unseen : ∀ f, (functionOf known content o parts).value = .ok f →
        f.qualifiedName ∉ seen := by
      intro f read
      rw [(recovers f read).qualifiedName]
      exact ahead.fresh d List.mem_cons_self
    have behind : start ≤ o.offset := by
      unfold Occurrence.offset
      rw [head.before]
      exact ahead.reached
    have later := ih (fun e member => fits e (List.mem_cons_of_mem _ member))
      (fun e member => quiet e (List.mem_cons_of_mem _ member)) distinct.2
      (ahead.next own ownQuiet distinct.1 shape)
    rw [length_beyond] at later
    have step : ∀ fs, (declarationsFrom known content path start seen (o ::
          occurrencesFrom header (beyond d before) (written ds))).value = .ok fs ↔ _ := fun fs =>
      value_declarationsFrom_cons behind outlined unseen
    rw [found, List.forall_mem_cons, ← shape.body, ← later.2]
    refine ⟨?_, ?_, ?_⟩
    · intro fs read
      obtain ⟨f, rest, first, others, rfl⟩ := (step fs).1 read
      rw [(recovers f first).qualifiedName] at others
      exact .cons (recovers f first) (later.1 rest others)
    · rintro ⟨fs, read⟩
      obtain ⟨f, rest, first, others, -⟩ := (step fs).1 read
      rw [(recovers f first).qualifiedName] at others
      exact ⟨exists_functionOf_iff.1 ⟨f, first⟩, ⟨rest, others⟩⟩
    · rintro ⟨short, rest, others⟩
      obtain ⟨f, first⟩ := exists_functionOf_iff.2 short
      rw [← (recovers f first).qualifiedName] at others
      exact ⟨f :: rest, (step _).2 ⟨f, rest, first, others, rfl⟩⟩

end Walk

/-- A text of declarations without comments can be read as a module if and only if its explicit
arities are short. -/
theorem isLegible_written (path : String) {ds : List Declaration} (fits : ∀ d ∈ ds, d.Fits)
    (quiet : ∀ d ∈ ds, d.Quiet) (distinct : (ds.map Declaration.qualifiedName).Nodup)
    (uncommented : IsUncommented (written ds)) :
    Source.IsLegible (String.ofList (written ds)) path ↔
      ∀ d ∈ ds, HasShortArities (qualifiersOf (written ds) path) d.body.toList := by
  unfold Source.IsLegible
  rw [String.toList_ofList, stripComments_of_isUncommented uncommented]
  exact exists_declarationsFrom_iff.symm.trans
    (declarationsFrom_written _ path fits quiet distinct (ahead_start ds)).2

/-- A text of declarations is read if and only if its explicit arities are short, and then there is
one function for each declaration, in order, with its name, parameters, body and lines. -/
theorem declarations_written (known : List String) (path : String) {ds : List Declaration}
    (fits : ∀ d ∈ ds, d.Fits) (quiet : ∀ d ∈ ds, d.Quiet)
    (distinct : (ds.map Declaration.qualifiedName).Nodup) :
    (∀ fs, (declarations known (written ds) path).value = .ok fs →
      List.Forall₂ (RecoversAt (written ds)) (placed 0 ds) fs) ∧
    ((∃ fs, (declarations known (written ds) path).value = .ok fs) ↔
      ∀ d ∈ ds, HasShortArities known d.body.toList) :=
  declarationsFrom_written known path fits quiet distinct (ahead_start ds)

/-- Two declarations of one name, with nested braces, and with braces, semicolons and doubled quotes
in literals. -/
def overloads : List Declaration :=
  [⟨"a", "f", [⟨"x", some "map(xs:string, item()*)"⟩, ⟨"p:y", none⟩], "\n  ",
      " if ($x) then \x7b \"\x7d;\" \x7d else a:g#1 "⟩,
    ⟨"b", "f", [], "", "\n'it''s \x7b'\n"⟩]

theorem overloads_recovered :
    ((∀ d ∈ overloads, d.Fits) ∧ (∀ d ∈ overloads, d.Quiet) ∧
        (overloads.map Declaration.qualifiedName).Nodup) ∧
      ∃ fs, (declarations ["a", "local"] (written overloads) "/a.xqy").value = .ok fs ∧
        List.Forall₂ (RecoversAt (written overloads)) (placed 0 overloads) fs := by
  have fits : ∀ d ∈ overloads, d.Fits := by decide +kernel
  have quiet : ∀ d ∈ overloads, d.Quiet := by decide +kernel
  have distinct : (overloads.map Declaration.qualifiedName).Nodup := by decide +kernel
  have short : ∀ d ∈ overloads, HasShortArities ["a", "local"] d.body.toList := by decide +kernel
  obtain ⟨recovers, reads⟩ := declarations_written ["a", "local"] "/a.xqy" fits quiet distinct
  obtain ⟨fs, read⟩ := reads.2 short
  exact ⟨⟨fits, quiet, distinct⟩, fs, read, recovers fs read⟩

/-! ## A body that cannot be read -/

/-- A declaration whose body names a function by an arity of one digit too many. -/
def longArity : Declaration :=
  ⟨"a", "f", [], "", String.ofList ("a:g#".toList ++ List.replicate (maxDigits + 1) '1')⟩

theorem mem_append_ones {start : List Char} {n : Nat} {c : Char}
    (member : c ∈ (String.ofList (start ++ List.replicate n '1')).toList) : c ∈ start ++ ['1'] := by
  rw [String.toList_ofList, List.mem_append, List.mem_replicate] at member
  rcases member with inStart | ⟨-, rfl⟩
  · exact List.mem_append_left _ inStart
  · exact List.mem_append_right _ (List.mem_singleton_self _)

/-- A function without parameters can be written if its body has neither quotes nor braces. -/
theorem fits_of_plain {d : Declaration} (qualifier : isName d.qualifier.toList = true)
    (name : isName d.name.toList = true) (parameters : d.parameters = [])
    (gap : d.gap.toList = [])
    (plain : ∀ c ∈ d.body.toList, isQuote c = false ∧ c ≠ '{' ∧ c ≠ '}') : d.Fits :=
  ⟨qualifier, name, parameters ▸ List.forall_mem_nil _, gap ▸ List.forall_mem_nil _,
    level?_of_plain plain 0⟩

theorem hasWord_of_not_mem {c : Char} {word : List Char} {before : Option Char} {s : List Char}
    (absent : c ∉ s) : hasWord (c :: word) before s = false := by
  induction s generalizing before with
  | nil => rfl
  | cons d s ih =>
    rw [List.mem_cons, not_or] at absent
    have other : (c :: word).isPrefixOf (d :: s) = false := by
      rw [List.isPrefixOf, beq_eq_false_iff_ne.2 absent.1]
      rfl
    rw [hasWord, other, ih absent.2]
    simp

theorem quiet_of_not_mem {d : Declaration} (parameters : d.parameters = [])
    (letter : 'd' ∉ d.body.toList) (sign : '%' ∉ d.body.toList) : d.Quiet :=
  ⟨parameters ▸ List.forall_mem_nil _, hasWord_of_not_mem letter, sign⟩

/-- Digits at the end of a body do not keep a declaration from being written. -/
theorem fits_quiet_of_ones {d : Declaration} {start : List Char} {n : Nat}
    (body : d.body = String.ofList (start ++ List.replicate n '1'))
    (qualifier : isName d.qualifier.toList = true) (name : isName d.name.toList = true)
    (parameters : d.parameters = []) (gap : d.gap.toList = [])
    (plain : ∀ c ∈ start ++ ['1'], isQuote c = false ∧ c ≠ '{' ∧ c ≠ '}')
    (letter : 'd' ∉ start ++ ['1']) (sign : '%' ∉ start ++ ['1']) : d.Fits ∧ d.Quiet := by
  have within : ∀ c ∈ d.body.toList, c ∈ start ++ ['1'] := fun c member =>
    mem_append_ones (body ▸ member)
  exact ⟨fits_of_plain qualifier name parameters gap fun c member => plain c (within c member),
    quiet_of_not_mem parameters (fun member => letter (within _ member))
      fun member => sign (within _ member)⟩

/-- A function that is named by too long an arity and a known qualifier is in the way. -/
theorem not_hasShortArities {known : List String} {qualifier digits : List Char}
    (grammar : isQualifier qualifier = true) (isKnown : String.ofList qualifier ∈ known)
    (decimals : ∀ c ∈ digits, Text.isDecimal c = true) (long : maxDigits < digits.length) :
    ¬HasShortArities known (qualifier ++ (":g#".toList ++ digits)) := by
  have explicit : explicitArity ('#' :: digits) = some (some digits, []) := by
    have run : Scan.someRun Text.isDecimal digits = some (digits, []) := by
      cases digits with
      | nil => cases long
      | cons c digits =>
        have read : Scan.someRun Text.isDecimal (c :: digits ++ []) = some (c :: digits, []) :=
          Scan.someRun_append decimals rfl
        rw [List.append_nil] at read
        exact read
    exact Scan.optional_of_read ((Scan.bind_of_read (Scan.literal_cons '#' _)).trans run)
  have shape : qualifier ++ (":g#".toList ++ digits) =
      (qualifier ++ ':' :: ['g']) ++ '#' :: digits := by
    simp
  have head : callHead none (qualifier ++ (":g#".toList ++ digits)) =
      some (⟨qualifier, ['g'], some digits⟩, []) := by
    rw [shape]
    exact callHead_append rfl grammar (by decide) rfl explicit
  intro short
  have read : callHead ([] : List Char).head? ((qualifier ++ (":g#".toList ++ digits)) ++ []) =
      some (⟨qualifier, ['g'], some digits⟩, []) := by
    rw [List.append_nil]
    exact head
  have found := occurrencesFrom_of_read (by simp) read
  rw [List.append_nil] at found
  have bounded := short _ (found ▸ List.mem_cons_self) isKnown digits rfl
  omega

theorem not_hasShortArities_of_ones {known : List String} {qualifier : List Char} {n : Nat}
    (grammar : isQualifier qualifier = true) (isKnown : String.ofList qualifier ∈ known)
    (long : maxDigits < n) :
    ¬HasShortArities known (qualifier ++ (":g#".toList ++ List.replicate n '1')) := by
  refine not_hasShortArities grammar isKnown (fun c member => ?_)
    (by rw [List.length_replicate]; exact long)
  rw [(List.mem_replicate.1 member).2]
  decide

/-- One digit too many in a body, and no function of the text is returned. -/
theorem longArity_refused :
    (longArity.Fits ∧ longArity.Quiet) ∧
      ∀ fs, (declarations ["a"] (written [longArity]) "/a.xqy").value ≠ .ok fs := by
  have ⟨fits, quiet⟩ : longArity.Fits ∧ longArity.Quiet :=
    fits_quiet_of_ones rfl (by decide) (by decide) rfl rfl
      (List.all_iff_forall_prop.1 (by decide)) (by decide) (by decide)
  refine ⟨⟨fits, quiet⟩, fun fs read => ?_⟩
  have reads := (declarationsFrom_written ["a"] "/a.xqy"
    (List.forall_mem_singleton.2 fits) (List.forall_mem_singleton.2 quiet)
    (List.nodup_singleton _) (ahead_start [longArity])).2
  have short := reads.1 ⟨fs, read⟩ longArity (List.mem_singleton_self _)
  unfold longArity at short
  rw [String.toList_ofList] at short
  exact @not_hasShortArities_of_ones _ ['a'] _ (by decide) (by decide)
    (Nat.lt_succ_self maxDigits) short

end CallAtlas.Written
