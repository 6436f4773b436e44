import CallAtlas.Proofs.Canonical.Calls
import CallAtlas.Proofs.Canonical.Statements
import CallAtlas.Proofs.QualifiedName

/-!
# Reading the functions of a module

The functions read from the statements of a module are those that were written, each with its
arity and the calls of its body. The walk along the heads is by induction on the functions that are
still to come: each declaration ends just before the line of the next one starts.
-/

namespace CallAtlas.Canonical

open Source

/-! ## Heads -/

theorem headerTail_function {qualifier name : List Char} (annotations rest : List Char)
    (qualifierName : isName qualifier = true) (isFunction : isName name = true) :
    headerTail annotations
        ("function".toList ++ ' ' :: (qualifier ++ ':' :: (name ++ '(' :: rest))) =
      some (⟨annotations, false, qualifier, name, qualifier ++ ':' :: (name ++ '(' :: rest)⟩,
        rest) := by
  have noPrivate : (Scan.keyword "private" *> Scan.someBlanks)
      ("function".toList ++ ' ' :: (qualifier ++ ':' :: (name ++ '(' :: rest))) = none :=
    Scan.bind_of_none rfl
  have noKind : ((Scan.keyword "updating" <|> Scan.keyword "sequential") *> Scan.someBlanks)
      ("function".toList ++ ' ' :: (qualifier ++ ':' :: (name ++ '(' :: rest))) = none :=
    Scan.bind_of_none rfl
  unfold headerTail
  rw [Scan.bind_of_read (Scan.succeeds_of_none noPrivate),
    Scan.bind_of_read (Scan.discard_of_read (Scan.optional_of_none noKind)),
    Scan.bind_of_read (Scan.keyword_append "function" _),
    Scan.bind_of_read (Scan.someBlanks_space (head?_append_of_isName _ qualifierName).1),
    Scan.bind_of_read (show (get : Scan (List Char)) _ = some (_, _) from rfl),
    Scan.bind_of_read (name_append qualifierName rfl), Scan.bind_of_read (Scan.literal_cons ':' _),
    Scan.bind_of_read (name_append isFunction rfl),
    Scan.bind_of_read (show Scan.blanks ('(' :: rest) = some ((), '(' :: rest) from rfl),
    Scan.bind_of_read (Scan.literal_cons '(' _)]
  rfl

/-- The head of a function is read up to the parenthesis that opens its parameters. -/
theorem header_function {qualifier name : List Char} {before : Option Char}
    (start : before.any Text.isWord = false) (qualifierName : isName qualifier = true)
    (isFunction : isName name = true) (rest : List Char) :
    header before ("declare function ".toList ++ (qualifier ++ ':' :: (name ++ ['('])) ++ rest) =
      some (⟨[], false, qualifier, name, qualifier ++ ':' :: (name ++ '(' :: rest)⟩, rest) := by
  have shape : "declare function ".toList ++ (qualifier ++ ':' :: (name ++ ['('])) ++ rest =
      "declare".toList ++ ' ' :: ("function".toList ++ ' ' ::
        (qualifier ++ ':' :: (name ++ '(' :: rest))) := by
    simp only [List.append_assoc, List.cons_append, List.nil_append]
    rfl
  unfold header
  rw [Scan.bind_of_read (Scan.wordStart_of_not_isWord start _), shape, Scan.bind_of_read (Scan.keyword_append "declare" _),
    Scan.bind_of_read (Scan.someBlanks_space rfl)]
  rw [skipAnnotations_of_head (by exact fun percent => nomatch percent)]
  dsimp only
  rw [Nat.sub_self, List.take_zero, headerTail_function _ _ qualifierName isFunction]
  rfl

/-! ## Parameters and bodies -/

theorem readParameter?_dollar {x : List Char} (name : isName x = true) :
    readParameter? ('$' :: x) = some ⟨String.ofList x, none⟩ := by
  have first : Scan.name x = some (x, []) := by
    have read : Scan.name (x ++ []) = some (x, []) := name_append name rfl
    rw [List.append_nil] at read
    exact read
  have noSecond : (Scan.literal [':'] *> Scan.name) [] = none := Scan.bind_of_none rfl
  unfold readParameter?
  rw [Scan.bind_of_read (Scan.literal_cons '$' _), Scan.bind_of_read first,
    Scan.bind_of_read (Scan.optional_of_none noSecond)]
  rfl

theorem trim_dollar {x : List Char} (name : isName x = true) : Text.trim ('$' :: x) = '$' :: x := by
  refine Text.trim_eq_self rfl ?_
  obtain ⟨last, member⟩ : ∃ c, ('$' :: x).getLast? = some c :=
    ⟨_, List.getLast?_eq_some_getLast (List.cons_ne_nil _ _)⟩
  rw [member]
  rcases List.mem_cons.1 (List.mem_of_getLast? member) with rfl | inside
  · decide
  · exact solid_of_isName name last inside

/-- The parameters of a function are read as they were written. -/
theorem readParameters_separated {parameters : List String}
    (names : ∀ x ∈ parameters, isName x.toList = true) :
    Balanced true (separated (parameters.map fun x => '$' :: x.toList)) ∧
      readParameters (separated (parameters.map fun x => '$' :: x.toList)) =
        .ok (parameters.map fun x => ⟨x, none⟩) := by
  have balanced : ∀ s ∈ parameters.map fun x => '$' :: x.toList, Balanced false s := by
    intro s member
    obtain ⟨x, own, rfl⟩ := List.mem_map.1 member
    refine .plain rfl rfl rfl (fun _ => by decide) (balanced_of_plain ?_)
    exact fun c inside => plain_of_isNameChar ((isName_iff.1 (names x own)).2 c inside)
  have solid : ∀ s ∈ parameters.map fun x => '$' :: x.toList, ∃ c ∈ s, Text.isBlank c = false := by
    intro s member
    obtain ⟨x, -, rfl⟩ := List.mem_map.1 member
    exact ⟨'$', List.mem_cons_self, by decide⟩
  refine ⟨balanced_separated balanced, ?_⟩
  unfold readParameters
  rw [arguments_separated balanced solid]
  clear balanced solid
  induction parameters with
  | nil => rfl
  | cons x parameters ih =>
    have later := ih fun y member => names y (List.mem_cons_of_mem _ member)
    rw [List.map_cons, List.map_cons, List.mapM_cons, trim_dollar (names x List.mem_cons_self),
      readParameter?_dollar (names x List.mem_cons_self), later, String.ofList_toList]
    rfl

/-- The outline of a function, from what follows its head. -/
theorem outline_tail {known : List String} {f : Definition} (fits : f.Fits known)
    (content : List Char) {o : Occurrence Header} {more : List Char}
    (rest : o.rest = f.tail ++ '\n' :: more) :
    ∃ parts, outline content o = .ok (some parts) ∧
      parts.parameters = f.parameters.map (fun x => ⟨x, none⟩) ∧
      parts.body = ' ' :: (f.body.render ++ [' ']) ∧
      parts.endOffset = content.length - (more.length + 2) := by
  obtain ⟨balanced, parameters⟩ := readParameters_separated fits.parameters
  have shape : o.rest = separated (f.parameters.map fun x => '$' :: x.toList) ++ ')' :: ' ' :: '{' ::
      (' ' :: (f.body.render ++ [' ']) ++ '}' :: ';' :: '\n' :: more) := by
    rw [rest]
    unfold Definition.tail
    simp only [List.append_assoc, List.cons_append, List.nil_append]
    rfl
  have inside : Balanced false (' ' :: (f.body.render ++ [' '])) := by
    refine .plain rfl rfl rfl (fun _ => by decide) ?_
    exact fits.body.balanced.append (.plain rfl rfl rfl (fun _ => by decide) .nil)
      (noQuoteAhead_cons rfl)
  have opened : Opened o.rest (separated (f.parameters.map fun x => '$' :: x.toList)) [' ']
      (' ' :: (f.body.render ++ [' ']) ++ '}' :: ';' :: '\n' :: more)
      (f.parameters.map fun x => ⟨x, none⟩) :=
    ⟨shape, balanced.level? rfl 0, parameters, List.forall_mem_singleton.2 (by decide)⟩
  have ends := fromBodyEnd?_of_level (inside.level? rfl 0) ('\n' :: more)
  refine ⟨_, (opened.outline content).trans (by rw [ends]), rfl, ?_, rfl⟩
  dsimp only
  rw [List.length_append, Nat.add_sub_cancel]
  exact List.take_left

/-! ## Whole functions -/

/-- The name of a function with its arity. -/
def Definition.qualifiedName (f : Definition) : String :=
  qualify f.name (some (Int.ofNat f.parameters.length))

/-- A function that was read is the one that was written. -/
structure Declares (d : FunctionDecl) (f : Definition) : Prop where
  name : d.name = f.name
  arity : d.arity = f.parameters.length
  calls : d.calls.map (fun s => (s.qualifier, s.name, s.arity)) =
    f.body.calls.map fun c => (c.token, c.name, c.arity)

theorem Declares.qualifiedName {d : FunctionDecl} {f : Definition} (declares : Declares d f) :
    d.qualifiedName = f.qualifiedName := by
  unfold FunctionDecl.qualifiedName Definition.qualifiedName
  rw [declares.name, declares.arity]

theorem value_functionOf {known : List String} {f : Definition} (fits : f.Fits known)
    (content : List Char) {o : Occurrence Header} {parts : Outline}
    (name : o.value.name = f.name.toList)
    (parameters : parts.parameters = f.parameters.map fun x => ⟨x, none⟩)
    (body : parts.body = ' ' :: (f.body.render ++ [' '])) :
    ∃ d, (functionOf known content o parts).value = .ok d ∧ Declares d f := by
  obtain ⟨sites, read, same⟩ := fits.body.callSites (Text.lineOf content parts.bodyOffset)
  rw [← body] at read
  unfold functionOf
  dsimp only
  rw [Checked.value_bind_of_ok read]
  refine ⟨_, rfl, ?_, ?_, same⟩
  · exact (congrArg String.ofList name).trans String.ofList_toList
  · unfold FunctionDecl.arity
    dsimp only
    rw [parameters, List.length_map]

theorem renderFunctions_cons (qualifier : String) (f : Definition) (functions : List Definition) :
    renderFunctions qualifier (f :: functions) =
      f.head qualifier ++ (f.tail ++ '\n' :: renderFunctions qualifier functions) := by
  unfold renderFunctions
  rw [List.flatMap_cons, List.append_assoc, List.append_assoc, List.singleton_append]

/-- The head of the first function is found first, and then those of the functions after it. -/
theorem occurrencesFrom_renderFunctions {known : List String} {qualifier : String}
    (grammar : isQualifier qualifier.toList = true) {f : Definition} (fits : f.Fits known)
    (functions : List Definition) {before : List Char}
    (wordStart : before.head?.any Text.isWord = false) :
    ∃ o, occurrencesFrom header before (renderFunctions qualifier (f :: functions)) =
        o :: occurrencesFrom header
          ((f.tail ++ ['\n']).reverse ++ ((f.head qualifier).reverse ++ before))
          (renderFunctions qualifier functions) ∧
      o.offset = before.length ∧ o.value.name = f.name.toList ∧
      o.rest = f.tail ++ '\n' :: renderFunctions qualifier functions := by
  have nonempty : f.head qualifier ≠ [] := by
    intro none
    cases (List.append_eq_nil_iff.1 none).1
  have skipped : Avoids (Opens "declare".toList) ((f.head qualifier).reverse ++ before)
      (f.tail ++ ['\n']) (renderFunctions qualifier functions) :=
    (fits.avoids_tail (by decide)).append (avoids_of_letterless (by decide) (by decide))
  have later := occurrencesFrom_of_avoids (fun _ _ _ => opens_of_header) skipped
  rw [List.append_assoc, List.singleton_append] at later
  rw [renderFunctions_cons, occurrencesFrom_of_read nonempty (header_function wordStart
      (isName_of_isQualifier grammar) (isName_of_isFunctionName fits.name) _),
    later]
  exact ⟨_, rfl, rfl, rfl, rfl⟩

/-- A head behind the functions read so far adds a function if its name is not among theirs. -/
theorem value_declarationsFrom_cons {known : List String} {content : List Char} {path : String}
    {start : Nat} {seen : List String} {o : Occurrence Header} {heads : List (Occurrence Header)}
    {parts : Outline} {fs : List FunctionDecl} (reached : start ≤ o.offset)
    (outlined : outline content o = .ok (some parts))
    (unseen : ∀ d, (functionOf known content o parts).value = .ok d → d.qualifiedName ∉ seen) :
    (declarationsFrom known content path start seen (o :: heads)).value = .ok fs ↔
      ∃ d ds, (functionOf known content o parts).value = .ok d ∧
        (declarationsFrom known content path (parts.endOffset + 1) (d.qualifiedName :: seen)
          heads).value = .ok ds ∧ fs = d :: ds := by
  rw [declarationsFrom, if_neg (Nat.not_lt.2 reached), outlined]
  dsimp only
  rw [Checked.value_bind_eq_ok]
  refine exists_congr fun d => ?_
  rw [exists_and_left]
  refine and_congr_right fun read => ?_
  have fresh := unseen d read
  rw [← List.contains_iff_mem] at fresh
  rw [if_neg fresh, Checked.value_bind_eq_ok]
  refine exists_congr fun ds => and_congr_right fun _ => ?_
  rw [Checked.value_pure, Except.ok.injEq, eq_comm]

/-- The functions read from a text of functions are those that were written. -/
theorem declarationsFrom_renderFunctions {known : List String} {qualifier : String}
    (grammar : isQualifier qualifier.toList = true) (path : String) {functions : List Definition}
    (fits : ∀ f ∈ functions, f.Fits known) (nodup : (functions.map Definition.qualifiedName).Nodup)
    {content before : List Char} (split : content = before.reverse ++ renderFunctions qualifier functions)
    (wordStart : before.head?.any Text.isWord = false) {start : Nat} (reached : start ≤ before.length)
    {seen : List String} (fresh : ∀ f ∈ functions, f.qualifiedName ∉ seen) :
    ∃ ds, (declarationsFrom known content path start seen
        (occurrencesFrom header before (renderFunctions qualifier functions))).value = .ok ds ∧
      List.Forall₂ Declares ds functions := by
  induction functions generalizing before start seen with
  | nil =>
    refine ⟨[], ?_, .nil⟩
    unfold renderFunctions
    rw [List.flatMap_nil, occurrencesFrom, declarationsFrom]
    rfl
  | cons f functions ih =>
    have own := fits f List.mem_cons_self
    obtain ⟨o, found, offset, name, rest⟩ :=
      occurrencesFrom_renderFunctions grammar own functions wordStart
    obtain ⟨parts, outlined, parameters, body, ending⟩ := outline_tail own content rest
    obtain ⟨d, read, declares⟩ := value_functionOf own content name parameters body
    rw [List.map_cons, List.nodup_cons] at nodup
    rw [renderFunctions_cons] at split
    -- What was read before the next function: its length bounds where the search goes on.
    have splitLater : content = ((f.tail ++ ['\n']).reverse ++ ((f.head qualifier).reverse ++
        before)).reverse ++ renderFunctions qualifier functions := by
      rw [split]
      simp only [List.reverse_append, List.reverse_reverse, List.append_assoc, List.singleton_append]
    have startLater : ((f.tail ++ ['\n']).reverse ++ ((f.head qualifier).reverse ++
        before)).head?.any Text.isWord = false := by
      rw [List.reverse_append]
      rfl
    have reachedLater : parts.endOffset + 1 ≤
        ((f.tail ++ ['\n']).reverse ++ ((f.head qualifier).reverse ++ before)).length := by
      have whole := congrArg List.length split
      rw [ending]
      simp only [List.length_append, List.length_reverse, List.length_cons, List.length_nil]
        at whole ⊢
      omega
    have freshLater : ∀ g ∈ functions, g.qualifiedName ∉ d.qualifiedName :: seen := by
      intro g member
      rw [declares.qualifiedName, List.mem_cons, not_or]
      refine ⟨?_, fresh g (List.mem_cons_of_mem _ member)⟩
      intro same
      exact nodup.1 (List.mem_map.2 ⟨g, member, same⟩)
    have unseen : ∀ d', (functionOf known content o parts).value = .ok d' →
        d'.qualifiedName ∉ seen := by
      intro d' same
      rw [read] at same
      cases same
      rw [declares.qualifiedName]
      exact fresh f List.mem_cons_self
    obtain ⟨ds, readLater, declaresLater⟩ := ih
      (fun g member => fits g (List.mem_cons_of_mem _ member)) nodup.2 splitLater startLater
      reachedLater freshLater
    refine ⟨d :: ds, ?_, .cons declares declaresLater⟩
    rw [found, value_declarationsFrom_cons (offset ▸ reached) outlined unseen]
    exact ⟨d, ds, read, readLater, rfl⟩

end CallAtlas.Canonical
