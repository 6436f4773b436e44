import CallAtlas.Proofs.Canonical.Trees
import CallAtlas.Proofs.Report
import CallAtlas.Proofs.Source.Levels

/-!
# Calls read from trees

The text of a tree has one head of a call for each call of the tree, in the same order, and the
parentheses after a head hold the arguments of its call. So the calls read from a body are the calls
of its tree, with the numbers of their arguments.
-/

namespace CallAtlas.Canonical

open Source

/-! ## Heads of calls -/

/-- A text starts with a name and a colon, as calls do. -/
def StartsCall (s : List Char) : Prop :=
  ∃ c more rest, s = c :: (more ++ ':' :: rest) ∧ isNameStart c = true ∧
    ∀ d ∈ more, Text.isNameChar d = true

/-- No name goes on at the start of a text, and no colon follows one there. -/
def StopsName (rest : List Char) : Prop :=
  ∀ c, rest.head? = some c → Text.isNameChar c = false ∧ c ≠ ':'

theorem stopsName_cons {c : Char} {rest : List Char} (other : Text.isNameChar c = false)
    (colon : c ≠ ':') : StopsName (c :: rest) := by
  intro d same
  cases same
  exact ⟨other, colon⟩

theorem startsCall_of_callHead {before : Option Char} {s : List Char} {read : CallHead × List Char}
    (h : callHead before s = some read) : StartsCall s := by
  unfold callHead at h
  split at h
  next => cases h
  next =>
    obtain ⟨c, fromMore, starts, h⟩ := Scan.bind_eq_some h
    obtain ⟨more, fromColon, run, h⟩ := Scan.bind_eq_some h
    obtain ⟨_, fromName, colon, -⟩ := Scan.bind_eq_some h
    obtain ⟨rfl, start⟩ := Scan.char_eq_some starts
    cases run
    unfold Scan.literal at colon
    split at colon
    next spelled =>
      obtain ⟨rest, same⟩ := List.isPrefixOf_iff_prefix.1 spelled
      refine ⟨c, fromMore.takeWhile Text.isNameChar, rest, ?_, start, ?_⟩
      · rw [show ':' :: rest = fromMore.dropWhile Text.isNameChar from same,
          List.takeWhile_append_dropWhile]
      · exact fun d member => List.mem_takeWhile_imp member
    next => cases colon

theorem apart_of_callHead {before : Option Char} {s : List Char} {read : CallHead × List Char}
    (h : callHead before s = some read) : before.any joinsName = false := by
  unfold callHead at h
  split at h
  next => cases h
  next apart => exact Bool.not_eq_true _ ▸ apart

/-- No call starts in a part without colons, if no name goes on behind it. -/
theorem avoids_of_no_colon {before part rest : List Char} (absent : ':' ∉ part)
    (stops : StopsName rest) : Avoids (fun _ => StartsCall) before part rest := by
  induction part generalizing before with
  | nil => trivial
  | cons c part ih =>
    rw [List.mem_cons, not_or] at absent
    refine ⟨?_, ih absent.2⟩
    rintro ⟨d, more, after, same, -, chars⟩
    rw [List.cons.injEq] at same
    rcases List.append_eq_append_iff.1 same.2 with ⟨left, rfl, later⟩ | ⟨left, rfl, later⟩
    · cases left with
      | nil => exact (stops ':' (by rw [later]; rfl)).2 rfl
      | cons d left =>
        have other := (stops d (by rw [later]; rfl)).1
        rw [chars d (List.mem_append_right _ List.mem_cons_self)] at other
        cases other
    · cases left with
      | nil => exact (stops ':' (congrArg List.head? later.symm)).2 rfl
      | cons d left =>
        have colon : ':' = d := (List.cons.inj later).1
        exact absent.2 (colon ▸ List.mem_append_right _ List.mem_cons_self)

/-- No call starts at characters that start no name. -/
theorem avoids_of_not_isNameStart {before part rest : List Char}
    (other : part.any isNameStart = false) : Avoids (fun _ => StartsCall) before part rest := by
  induction part generalizing before with
  | nil => trivial
  | cons c part ih =>
    obtain ⟨first, later⟩ := Bool.or_eq_false_iff.1 other
    refine ⟨?_, ih later⟩
    rintro ⟨d, more, after, same, start, -⟩
    rw [← (List.cons.inj same).1, first] at start
    cases start

theorem functionTail_append {tail rest : List Char} (grammar : isFunctionTail tail = true)
    (stops : functionTail rest = some ([], rest)) :
    functionTail (tail ++ rest) = some (tail, rest) := by
  induction tail with
  | nil => exact stops
  | cons c tail ih =>
    obtain ⟨first, more⟩ := Bool.and_eq_true_iff.1 grammar
    have continues : (isFunctionChar c ||
        (c == '.' && (tail ++ rest).head?.any isFunctionChar)) = true := by
      cases tail with
      | nil =>
        rw [List.head?_nil, Option.any_none, Bool.and_false, Bool.or_false] at first
        rw [first, Bool.true_or]
      | cons d tail => exact first
    rw [List.cons_append, functionTail, if_pos continues, ih more]
    rfl

/-- Reads the explicit arity of a call. -/
def explicitArity : Scan (Option (List Char)) :=
  Scan.optional (Scan.literal ['#'] *> Scan.someRun Text.isDecimal)

/-- The head of a call is read up to where its name and its explicit arity end. -/
theorem callHead_append {before : Option Char} {qualifier name rest after : List Char}
    {arity : Option (List Char)} (apart : before.any joinsName = false)
    (grammar : isQualifier qualifier = true) (named : isFunctionName name = true)
    (stops : functionTail rest = some ([], rest))
    (reads : explicitArity rest = some (arity, after)) :
    callHead before ((qualifier ++ ':' :: name) ++ rest) =
      some (⟨qualifier, name, arity⟩, after) := by
  cases qualifier with
  | nil => cases grammar
  | cons c more =>
    cases name with
    | nil => cases named
    | cons d tail =>
      obtain ⟨start, chars⟩ := Bool.and_eq_true_iff.1 grammar
      obtain ⟨nameStart, tailChars⟩ := Bool.and_eq_true_iff.1 named
      have first : Scan.char isNameStart (c :: (more ++ ':' :: (d :: tail) ++ rest)) =
          some (c, more ++ ':' :: (d :: tail ++ rest)) := by
        change (if isNameStart c then some _ else none) = _
        rw [if_pos start, List.append_assoc]
        rfl
      have run : Scan.run Text.isNameChar (more ++ ':' :: (d :: tail ++ rest)) =
          some (more, ':' :: (d :: tail ++ rest)) :=
        Scan.run_append (List.all_eq_true.1 chars) rfl
      have second : Scan.char isNameStart (d :: tail ++ rest) = some (d, tail ++ rest) :=
        if_pos nameStart
      unfold explicitArity at reads
      unfold callHead
      rw [if_neg (by rw [apart]; exact Bool.false_ne_true)]
      beta_reduce
      rw [List.cons_append, List.cons_append, Scan.bind_of_read first, Scan.bind_of_read run,
        Scan.bind_of_read (Scan.literal_cons ':' _), Scan.bind_of_read second,
        Scan.bind_of_read (functionTail_append tailChars stops), Scan.bind_of_read reads]
      rfl

/-- Neither a name nor an explicit arity goes on at blanks before a parenthesis. -/
theorem stops_gap {gap rest : List Char} (blank : ∀ c ∈ gap, Text.isBlank c = true) :
    functionTail (gap ++ '(' :: rest) = some ([], gap ++ '(' :: rest) ∧
      explicitArity (gap ++ '(' :: rest) = some (none, gap ++ '(' :: rest) := by
  cases gap with
  | nil => exact ⟨rfl, Scan.optional_of_none (Scan.bind_of_none rfl)⟩
  | cons c gap =>
    have isBlank := blank c List.mem_cons_self
    have notName := Text.isNameChar_of_isBlank isBlank
    have notFunction : isFunctionChar c = false := by
      rw [← Bool.not_eq_true]
      intro function
      rw [isNameChar_of_isFunctionChar function] at notName
      cases notName
    have notPoint : (c == '.') = false := by
      rw [beq_eq_false_iff_ne]
      rintro rfl
      cases isBlank
    have notSign : ('#' == c) = false := by
      rw [beq_eq_false_iff_ne]
      rintro rfl
      cases isBlank
    constructor
    · rw [List.cons_append, functionTail, notFunction, notPoint]
      rfl
    · refine Scan.optional_of_none (Scan.bind_of_none ?_)
      unfold Scan.literal
      rw [List.cons_append, List.isPrefixOf, notSign]
      rfl

/-- The head of a call that was found in a text, with all that follows it, is that of a call. -/
structure Finds (o : Occurrence CallHead) (c : Call) : Prop where
  qualifier : String.ofList o.value.qualifier = c.qualifier
  name : String.ofList o.value.name = c.name
  arity : (arityOf o.value o.rest).value = .ok (some c.arity)

/-- The arity of a call whose parentheses hold a list of texts is the number of texts. -/
theorem arityOf_separated {qualifier name gap rest : List Char} {xs : List (List Char)}
    (blank : ∀ c ∈ gap, Text.isBlank c = true) (balanced : ∀ x ∈ xs, Balanced false x)
    (solid : ∀ x ∈ xs, ∃ c ∈ x, Text.isBlank c = false) :
    (arityOf ⟨qualifier, name, none⟩ (gap ++ '(' :: (separated xs ++ ')' :: rest))).value =
      .ok (some xs.length) := by
  have solidHead : Text.dropBlanks (gap ++ '(' :: (separated xs ++ ')' :: rest)) =
      '(' :: (separated xs ++ ')' :: rest) := by
    unfold Text.dropBlanks
    rw [List.dropWhile_append_of_pos blank]
    exact Text.dropBlanks_of_not_blank rfl
  have leads := (balanced_separated balanced).level? (show closerOf? '(' = some ')' from rfl) 0
  unfold arityOf
  simp only [solidHead, cutParenthesis?_of_level leads rest]
  rw [countArguments, arguments_separated balanced solid, List.length_map]
  rfl

/-- The heads that are found in a part of a text are those of some calls. -/
def FindsAll (before part rest : List Char) (calls : List Call) : Prop :=
  ∃ os, occurrencesFrom callHead before (part ++ rest) =
      os ++ occurrencesFrom callHead (part.reverse ++ before) rest ∧ List.Forall₂ Finds os calls

theorem findsAll_of_avoids {before part rest : List Char}
    (avoids : Avoids (fun _ => StartsCall) before part rest) : FindsAll before part rest [] :=
  ⟨[], occurrencesFrom_of_avoids (fun _ _ _ => startsCall_of_callHead) avoids, .nil⟩

/-- No head is found where names and variables go on. -/
theorem findsAll_of_joined {before part rest : List Char}
    (joined : before.head?.any joinsName = true) (joins : ∀ c ∈ part, joinsName c = true) :
    FindsAll before part rest [] := by
  have avoids : Avoids (fun before _ => before.any joinsName = false) before part rest := by
    induction part generalizing before with
    | nil => trivial
    | cons c part ih =>
      refine ⟨?_, ih (joins c List.mem_cons_self) fun d member => ?_⟩
      · intro (apart : before.head?.any joinsName = false)
        rw [joined] at apart
        cases apart
      · exact joins d (List.mem_cons_of_mem _ member)
  exact ⟨[], occurrencesFrom_of_avoids (fun _ _ _ => apart_of_callHead) avoids, .nil⟩

theorem FindsAll.append {before first second rest : List Char} {calls more : List Call}
    (finds : FindsAll before first (second ++ rest) calls)
    (findsSecond : FindsAll (first.reverse ++ before) second rest more) :
    FindsAll before (first ++ second) rest (calls ++ more) := by
  obtain ⟨os, split, found⟩ := finds
  obtain ⟨os', split', found'⟩ := findsSecond
  refine ⟨os ++ os', ?_, List.rel_append found found'⟩
  rw [List.append_assoc, split, split', List.append_assoc, List.reverse_append, List.append_assoc]

/-- The head of a call is found in front of its arguments. -/
theorem findsAll_head {qualifier name : String} {gap : List Char} {xs : List (List Char)}
    {before rest : List Char} (apart : before.head?.any joinsName = false)
    (grammar : isQualifier qualifier.toList = true) (named : isFunctionName name.toList = true)
    (blank : ∀ c ∈ gap, Text.isBlank c = true) (balanced : ∀ x ∈ xs, Balanced false x)
    (solid : ∀ x ∈ xs, ∃ c ∈ x, Text.isBlank c = false) :
    FindsAll before (qualifier.toList ++ ':' :: name.toList)
      (gap ++ '(' :: (separated xs ++ ')' :: rest)) [⟨qualifier, name, xs.length⟩] := by
  have nonempty : qualifier.toList ++ ':' :: name.toList ≠ [] :=
    List.append_ne_nil_of_right_ne_nil _ (List.cons_ne_nil _ _)
  obtain ⟨stops, reads⟩ := stops_gap blank
  refine ⟨_, occurrencesFrom_of_read nonempty (callHead_append apart grammar named stops reads),
    .cons ⟨?_, ?_, ?_⟩ .nil⟩
  · exact String.ofList_toList
  · exact String.ofList_toList
  · exact arityOf_separated blank balanced solid

section Texts

variable {α : Type} {render : α → List Char} {calls : α → List Call} {xs : List α}
  (each : ∀ x ∈ xs, ∀ {before rest : List Char}, before.head?.any joinsName = false →
    StopsName rest → FindsAll before (render x) rest (calls x))
include each

/-- The heads found in a list of texts are those found in each of them. -/
theorem findsAll_separated {before rest : List Char}
    (apart : before.head?.any joinsName = false) (stops : StopsName rest) :
    FindsAll before (separated (xs.map render)) rest (xs.flatMap calls) := by
  induction xs generalizing before with
  | nil => exact findsAll_of_avoids trivial
  | cons x xs ih =>
    cases xs with
    | nil =>
      rw [List.map_singleton, separated_singleton, List.flatMap_singleton]
      exact each x List.mem_cons_self apart stops
    | cons y ys =>
      have first : FindsAll before (render x)
          ([',', ' '] ++ separated ((y :: ys).map render) ++ rest) (calls x) :=
        each x List.mem_cons_self apart (stopsName_cons (by decide) (by decide))
      have comma : FindsAll ((render x).reverse ++ before) [',', ' ']
          (separated ((y :: ys).map render) ++ rest) [] :=
        findsAll_of_avoids (avoids_of_not_isNameStart (by decide))
      have later : FindsAll ([',', ' '].reverse ++ ((render x).reverse ++ before))
          (separated ((y :: ys).map render)) rest ((y :: ys).flatMap calls) :=
        ih (fun z member => each z (List.mem_cons_of_mem _ member)) rfl
      rw [List.map_cons, List.map_cons, separated_cons_cons, List.flatMap_cons]
      exact first.append (comma.append later)

/-- The heads found in the text of a call are its own and, after it, those of its arguments. -/
theorem findsAll_call {qualifier name : String} {gap before rest : List Char}
    (apart : before.head?.any joinsName = false) (grammar : isQualifier qualifier.toList = true)
    (named : isFunctionName name.toList = true) (blank : ∀ c ∈ gap, Text.isBlank c = true)
    (balanced : ∀ x ∈ xs, Balanced false (render x))
    (solid : ∀ x ∈ xs, ∃ c ∈ render x, Text.isBlank c = false) :
    FindsAll before ((qualifier.toList ++ ':' :: name.toList) ++
      (gap ++ '(' :: (separated (xs.map render) ++ [')']))) rest
      (⟨qualifier, name, xs.length⟩ :: xs.flatMap calls) := by
  have head : FindsAll before (qualifier.toList ++ ':' :: name.toList)
      (gap ++ '(' :: (separated (xs.map render) ++ ')' :: rest))
      [⟨qualifier, name, (xs.map render).length⟩] :=
    findsAll_head apart grammar named blank (List.forall_mem_map.2 balanced)
      (List.forall_mem_map.2 solid)
  have nameless : gap.any isNameStart = false :=
    Text.any_eq_false_of_isBlank
      (fun start => Text.not_blank_of_isNameChar (nameChar_of_isNameStart start)) blank
  have spaces : ∀ {before rest}, FindsAll before gap rest [] :=
    findsAll_of_avoids (avoids_of_not_isNameStart nameless)
  have opened : ∀ {before rest}, FindsAll before ['('] rest [] :=
    findsAll_of_avoids (avoids_of_not_isNameStart (by decide))
  have closed : ∀ {before rest}, FindsAll before [')'] rest [] :=
    findsAll_of_avoids (avoids_of_not_isNameStart (by decide))
  have inside : ∀ {before}, FindsAll (['('].reverse ++ before)
      (separated (xs.map render)) (')' :: rest) (xs.flatMap calls) :=
    findsAll_separated each rfl (stopsName_cons (by decide) (by decide))
  have regrouped : gap ++ '(' :: (separated (xs.map render) ++ ')' :: rest) =
      gap ++ (['('] ++ (separated (xs.map render) ++ [')'])) ++ rest := by
    simp only [List.append_assoc, List.cons_append, List.nil_append]
  rw [regrouped, List.length_map] at head
  have whole := head.append (spaces.append (opened.append (inside.append closed)))
  rw [List.append_nil, List.nil_append, List.nil_append] at whole
  exact whole

end Texts

/-- The heads found in the text of a tree are those of its calls. -/
theorem Expr.Fits.findsAll {known : List String} {e : Expr} (fits : e.Fits known)
    {before rest : List Char} (apart : before.head?.any joinsName = false) (stops : StopsName rest) :
    FindsAll before e.render rest e.calls := by
  have ofName : ∀ {s : List Char}, isName s = true → ':' ∉ s := fun name =>
    not_mem_of_isName name (by decide)
  induction fits generalizing before rest with
  | @var name chars =>
    refine findsAll_of_avoids (avoids_of_no_colon ?_ stops)
    rw [Expr.render, List.mem_cons, not_or]
    exact ⟨by decide, ofName chars⟩
  | numeral chars =>
    exact findsAll_of_avoids (avoids_of_no_colon (ofName (isName_of_isNumeral chars)) stops)
  | literal delimiter closed colon words =>
    exact findsAll_of_avoids (avoids_of_no_colon (colon_not_mem_literal delimiter colon) stops)
  | @call qualifier name arguments isKnown grammar named fits ih =>
    have solid : ∀ e ∈ arguments, ∃ c ∈ e.render, Text.isBlank c = false := by
      intro e listed
      obtain ⟨c, s, spelled, isSolid, -⟩ := (fits e listed).head
      exact ⟨c, spelled ▸ List.mem_cons_self, isSolid⟩
    have noGap : ∀ c ∈ ([] : List Char), Text.isBlank c = true := List.forall_mem_nil _
    rw [render_call, Expr.calls, callsAll_eq_flatMap]
    exact findsAll_call (fun e listed => ih e listed) apart grammar named noGap
      (fun e listed => (fits e listed).balanced) solid

/-! ## Call sites -/

/-- What stands for the called module of a call; none for the module itself. -/
def Call.token (c : Call) : Option String :=
  if c.qualifier = localQualifier then none else some c.qualifier

/-- A tree calls functions by known qualifiers only. -/
theorem Expr.Fits.known_of_mem_calls {known : List String} {e : Expr} (fits : e.Fits known) :
    ∀ c ∈ e.calls, c.qualifier ∈ known := by
  induction fits with
  | var => exact fun c member => nomatch member
  | numeral => exact fun c member => nomatch member
  | literal => exact fun c member => nomatch member
  | @call qualifier name arguments isKnown grammar named fits ih =>
    intro c member
    rw [Expr.calls, callsAll_eq_flatMap] at member
    rcases List.mem_cons.1 member with rfl | later
    · exact isKnown
    · obtain ⟨e, listed, inside⟩ := List.mem_flatMap.1 later
      exact ih e listed c inside

section Sites

variable (known : List String) (lineAfter : List Char → Nat)

/-- The head of a call by a known qualifier gives its call site. -/
theorem value_callSiteAt_of_mem {o : Occurrence CallHead} {c : Call} (finds : Finds o c)
    (isKnown : c.qualifier ∈ known) :
    (callSiteAt known lineAfter o).value =
      .ok (some ⟨c.token, c.name, c.arity, lineAfter o.before⟩) := by
  unfold callSiteAt
  rw [finds.qualifier, finds.name, if_pos (List.contains_iff_mem.2 isKnown),
    Checked.value_bind_of_ok finds.arity]
  simp only [Checked.value_pure, Option.map_some, Call.token, beq_iff_eq]

/-- The head of a call by any other qualifier gives none. -/
theorem value_callSiteAt_of_not_mem {o : Occurrence CallHead} {c : Call} (finds : Finds o c)
    (unknown : c.qualifier ∉ known) : (callSiteAt known lineAfter o).value = .ok none := by
  unfold callSiteAt
  rw [finds.qualifier, if_neg fun listed => unknown (List.contains_iff_mem.1 listed)]
  rfl

theorem value_mapM_callSiteAt {os : List (Occurrence CallHead)} {calls : List Call}
    (finds : List.Forall₂ Finds os calls) :
    ∃ sites : List (Option CallSite), (os.mapM (callSiteAt known lineAfter)).value = .ok sites ∧
      (sites.filterMap id).map (fun s => (s.qualifier, s.name, s.arity)) =
        (calls.filter (·.qualifier ∈ known)).map fun c => (c.token, c.name, c.arity) := by
  induction finds with
  | nil => exact ⟨[], rfl, rfl⟩
  | @cons o c os calls first rest ih =>
    obtain ⟨sites, read, same⟩ := ih
    by_cases isKnown : c.qualifier ∈ known
    · refine ⟨some ⟨c.token, c.name, c.arity, lineAfter o.before⟩ :: sites, ?_, ?_⟩
      · rw [List.mapM_cons,
          Checked.value_bind_of_ok (value_callSiteAt_of_mem known lineAfter first isKnown),
          Checked.value_bind_of_ok read]
        rfl
      · rw [List.filter_cons_of_pos (by rwa [decide_eq_true_eq]), List.map_cons, ← same]
        rfl
    · refine ⟨none :: sites, ?_, ?_⟩
      · rw [List.mapM_cons,
          Checked.value_bind_of_ok (value_callSiteAt_of_not_mem known lineAfter first isKnown),
          Checked.value_bind_of_ok read]
        rfl
      · rw [List.filter_cons_of_neg (by rwa [decide_eq_true_eq]), ← same]
        rfl

/-- The call sites of a text in which the heads of some calls are found are those calls that have a
known qualifier. -/
theorem value_callSitesBy {body : List Char} {calls : List Call}
    (finds : FindsAll [] body [] calls) :
    ∃ sites : List CallSite, (callSitesBy known lineAfter body).value = .ok sites ∧
      sites.map (fun s => (s.qualifier, s.name, s.arity)) =
        (calls.filter (·.qualifier ∈ known)).map fun c => (c.token, c.name, c.arity) := by
  obtain ⟨os, found, finds⟩ := finds
  rw [occurrencesFrom, List.append_nil, List.append_nil] at found
  obtain ⟨sites, read, same⟩ := value_mapM_callSiteAt known lineAfter finds
  refine ⟨sites.filterMap id, ?_, same⟩
  unfold callSitesBy occurrences
  rw [found, Checked.value_bind_of_ok read]
  rfl

end Sites

/-- The calls read from the body of a function are those of its tree. -/
theorem Expr.Fits.callSites {known : List String} {e : Expr} (fits : e.Fits known)
    (firstLine : Nat) :
    ∃ sites : List CallSite, (callSites known firstLine (' ' :: (e.render ++ [' ']))).value = .ok sites ∧
      sites.map (fun s => (s.qualifier, s.name, s.arity)) =
        e.calls.map fun c => (c.token, c.name, c.arity) := by
  have space : ∀ {before rest}, FindsAll before [' '] rest [] :=
    findsAll_of_avoids (avoids_of_not_isNameStart (by decide))
  have tree : FindsAll ([' '].reverse ++ []) e.render ([' '] ++ []) e.calls :=
    fits.findsAll rfl (stopsName_cons (by decide) (by decide))
  have all : e.calls.filter (·.qualifier ∈ known) = e.calls :=
    List.filter_eq_self.2 fun c member => decide_eq_true (fits.known_of_mem_calls c member)
  have whole := space.append (tree.append space)
  rw [List.append_nil, List.nil_append] at whole
  have sites := value_callSitesBy known (fun before => firstLine + before.count '\n') whole
  rw [all] at sites
  exact sites

end CallAtlas.Canonical
