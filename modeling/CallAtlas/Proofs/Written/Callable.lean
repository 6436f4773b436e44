import CallAtlas.Proofs.Source.Heads
import CallAtlas.Proofs.Written.Truncation

/-!
# Functions that can be called

Declarations and calls do not have the same names. A function is declared by any two names, but
a call starts only with a letter of ASCII or an underscore, on both sides of its colon, and a point
belongs to the name that is called only if the name goes on behind it. So some functions that are
declared are called by no text: of `q:f()` either the head of a call is read and a part of the name
is left in front of the parenthesis, or no head is read at all (`accented_uncalled`).
`value_callSitesBy_callText` says which calls are found, for any two names, and
`callSites_of_declares` says so of the functions that are declared.
-/

namespace CallAtlas.Written

open Source Canonical

/-! ## Functions that can be declared -/

/-- A function without parameters. -/
def constant (qualifier name : String) : Declaration :=
  ⟨qualifier, name, [], "", "1"⟩

/-- A declaration is read as a function with the qualifier and the name that are written there. -/
def Declares (known : List String) (path qualifier name : String) : Prop :=
  ∃ fs f, (declarations known (constant qualifier name).text path).value = .ok fs ∧ f ∈ fs ∧
    f.qualifier = qualifier ∧ f.name = name

/-- A declaration that stands alone is read as the function that was written. -/
theorem Declaration.Fits.declarations_text {d : Declaration} (fits : d.Fits) (path : String)
    {known : List String} (short : HasShortArities known d.body.toList) :
    ∃ f, (declarations known d.text path).value = .ok [f] ∧ Recovers d f := by
  have wordStart : ([] : List Char).head?.any Text.isWord = false := rfl
  obtain ⟨o, found, head⟩ := fits.occurrencesFrom_head wordStart d.tail
  obtain ⟨parts, outlined, shape⟩ := fits.outline d.text
    (head.rest.trans (List.append_nil d.tail).symm)
  have ended : parts.endOffset + 1 = d.text.length := by
    have nonempty := d.text_eq_opening ▸ List.length_append
    rw [shape.endOffset, List.length_nil, d.text_eq_opening]
    simp only [List.length_append, List.length_cons]
    omega
  have inside : ∀ o ∈ occurrencesFrom header (d.head.reverse ++ []) d.tail,
      o.offset < parts.endOffset + 1 := by
    intro o member
    have bound := offset_lt_of_mem member
    rw [List.append_nil, List.length_reverse, ← List.length_append] at bound
    exact ended ▸ bound
  obtain ⟨f, read, alone⟩ := exists_value_declarationsFrom (Nat.zero_le _) outlined
    (shape.body.symm ▸ short) (fun _ _ => List.not_mem_nil) inside
  refine ⟨f, ?_, recovers_of_functionOf head shape read⟩
  unfold declarations occurrences
  rw [show d.text = d.head ++ d.tail from rfl, found]
  exact alone

/-- The functions that can be declared are those with any two names. -/
theorem declares_iff {known : List String} {path qualifier name : String} :
    Declares known path qualifier name ↔
      isName qualifier.toList = true ∧ isName name.toList = true := by
  constructor
  · rintro ⟨fs, f, read, member, qualified, named⟩
    obtain ⟨-, o, found, parts, -, made⟩ := (declarationsFrom_spec read).2 f member
    obtain ⟨start, -, -, head⟩ := exists_read_of_mem found
    obtain ⟨signature, calls, rfl⟩ := functionOf_eq_ok made
    rw [← qualified, ← named, String.toList_ofList, String.toList_ofList]
    exact isName_of_header head
  · rintro ⟨isQualifierName, isFunction⟩
    have fits : (constant qualifier name).Fits :=
      ⟨isQualifierName, isFunction, List.forall_mem_nil _, List.forall_mem_nil _,
        show level? '{' '}' 0 "1".toList = some 0 by decide +kernel⟩
    have short : HasShortArities known "1".toList := by
      have none : occurrences callHead "1".toList = [] := by decide +kernel
      unfold HasShortArities
      rw [none]
      exact List.forall_mem_nil _
    obtain ⟨f, read, recovers⟩ := fits.declarations_text path short
    exact ⟨[f], f, read, List.mem_singleton_self f, recovers.qualifier, recovers.name⟩

/-! ## Functions that can be called -/

/-- A call of a function without arguments. -/
def callText (qualifier name : String) : List Char :=
  (qualifier.toList ++ ':' :: name.toList) ++ ['(', ')']

/-- A function that can be called: both names start with a letter or an underscore, and behind each
point of its own name that goes on. -/
def IsCallable (qualifier name : String) : Prop :=
  isQualifier qualifier.toList = true ∧ isFunctionName name.toList = true

instance (qualifier name : String) : Decidable (IsCallable qualifier name) :=
  inferInstanceAs (Decidable (_ ∧ _))

theorem functionTail_of_isFunctionChar {c : Char} {s : List Char}
    (goesOn : isFunctionChar c = true) : functionTail (c :: s) ≠ some ([], c :: s) := by
  rw [functionTail, goesOn, Bool.true_or, if_pos rfl]
  intro same
  obtain ⟨read, -, made⟩ := Option.map_eq_some_iff.1 same
  cases (Prod.mk.inj made).1

/-- A name is read up to its first loose point, if it has one. -/
theorem functionTail_split (t : List Char) :
    ∃ front back, t = front ++ back ∧ isFunctionTail front = true ∧
      functionTail (back ++ ['(', ')']) = some ([], back ++ ['(', ')']) ∧
      (back = [] ↔ isFunctionTail t = true) := by
  induction t with
  | nil => exact ⟨[], [], rfl, rfl, rfl, iff_of_true rfl rfl⟩
  | cons c t ih =>
    obtain ⟨front, back, rfl, grammar, stops, whole⟩ := ih
    by_cases goesOn : (isFunctionChar c || (c == '.' && (front ++ back).head?.any isFunctionChar)) =
        true
    case pos =>
      refine ⟨c :: front, back, rfl, ?_, stops, ?_⟩
      · have ahead : (front ++ back).head?.any isFunctionChar = true →
            front.head?.any isFunctionChar = true := by
          cases front with
          | nil =>
            cases back with
            | nil => exact id
            | cons d back => exact fun next => (functionTail_of_isFunctionChar next stops).elim
          | cons d front => exact id
        rw [isFunctionTail, grammar, Bool.and_true]
        rw [Bool.or_eq_true, Bool.and_eq_true] at goesOn ⊢
        exact goesOn.imp_right fun point => ⟨point.1, ahead point.2⟩
      · rw [isFunctionTail, goesOn, Bool.true_and]
        exact whole
    case neg =>
      have ahead : (front ++ back ++ ['(', ')']).head?.any isFunctionChar =
          (front ++ back).head?.any isFunctionChar := by
        cases front ++ back with
        | nil => decide
        | cons d t => rfl
      refine ⟨[], c :: (front ++ back), rfl, rfl, ?_, ?_⟩
      · rw [List.cons_append, functionTail, ahead, if_neg goesOn]
      · rw [isFunctionTail, Bool.and_eq_true]
        exact iff_of_false (List.cons_ne_nil _ _) fun both => goesOn both.1

theorem explicitArity_of_head? {s : List Char} (other : s.head? ≠ some '#') :
    explicitArity s = some (none, s) := by
  refine Scan.optional_of_none (Scan.bind_of_none ?_)
  unfold Scan.literal
  refine if_neg fun starts => other ?_
  obtain ⟨more, rfl⟩ := List.isPrefixOf_iff_prefix.1 starts
  rfl

theorem value_arityOf_of_head? {head : CallHead} {rest : List Char} (implicit : head.arity = none)
    (other : (Text.dropBlanks rest).head? ≠ some '(') : (arityOf head rest).value = .ok none := by
  unfold arityOf
  rw [implicit]
  dsimp only
  split
  next s opened => exact absurd (congrArg List.head? opened) other
  next => rfl

theorem value_callSiteAt_of_head? {known : List String} {lineAfter : List Char → Nat}
    {o : Occurrence CallHead} (implicit : o.value.arity = none)
    (other : (Text.dropBlanks o.rest).head? ≠ some '(') :
    (callSiteAt known lineAfter o).value = .ok none := by
  unfold callSiteAt
  dsimp only
  split
  next => exact Checked.value_bind_of_ok (value_arityOf_of_head? implicit other) _
  next => rfl

theorem occurrencesFrom_of_findsAll {before part : List Char} (finds : FindsAll before part [] []) :
    occurrencesFrom callHead before part = [] := by
  obtain ⟨os, found, none⟩ := finds
  cases none
  rw [List.append_nil] at found
  rw [found, occurrencesFrom]
  rfl

/-- Where a name goes on no call is found up to the end of an empty list of arguments. -/
theorem occurrencesFrom_of_joined {before part : List Char}
    (joined : before.head?.any joinsName = true) (joins : ∀ c ∈ part, joinsName c = true) :
    occurrencesFrom callHead before (part ++ ['(', ')']) = [] := by
  have nameless : ['(', ')'].any isNameStart = false := by decide
  have inName : FindsAll before part (['(', ')'] ++ []) [] := findsAll_of_joined joined joins
  exact occurrencesFrom_of_findsAll
    (inName.append (findsAll_of_avoids (avoids_of_not_isNameStart nameless)))

theorem joinsName_of_isNameChar {c : Char} (nameChar : Text.isNameChar c = true) :
    joinsName c = true := by
  unfold joinsName
  rw [nameChar]
  rfl

/-- Without a letter or an underscore at the start of both names, no head of a call is read. -/
theorem callHead_of_not_isNameStart {c d : Char} {more rest : List Char}
    (chars : ∀ e ∈ more, Text.isNameChar e = true)
    (other : ¬(isNameStart c = true ∧ isNameStart d = true)) :
    callHead none (c :: (more ++ ':' :: d :: rest)) = none := by
  cases read : callHead none (c :: (more ++ ':' :: d :: rest)) with
  | none => rfl
  | some pair =>
    refine absurd ?_ other
    unfold callHead at read
    rw [Option.any_none, if_neg Bool.false_ne_true] at read
    obtain ⟨_, _, starts, read⟩ := Scan.bind_eq_some read
    obtain ⟨same, first⟩ := Scan.char_eq_some starts
    obtain ⟨rfl, rfl⟩ := List.cons.inj same
    have run : Scan.run Text.isNameChar (more ++ ':' :: d :: rest) =
      some (more, ':' :: d :: rest) :=
      Scan.run_append chars rfl
    rw [Scan.bind_of_read run, Scan.bind_of_read (Scan.literal_cons ':' _)] at read
    obtain ⟨_, _, starts, -⟩ := Scan.bind_eq_some read
    obtain ⟨same, second⟩ := Scan.char_eq_some starts
    obtain ⟨rfl, -⟩ := List.cons.inj same
    exact ⟨first, second⟩

section Sites

variable {known : List String} {lineAfter : List Char → Nat} {body : List Char}

theorem value_callSitesBy_of_none (none : occurrences callHead body = []) :
    (callSitesBy known lineAfter body).value = .ok [] := by
  unfold callSitesBy
  rw [none]
  rfl

theorem value_callSitesBy_of_singleton {o : Occurrence CallHead} {site : Option CallSite}
    (found : occurrences callHead body = [o])
    (read : (callSiteAt known lineAfter o).value = .ok site) :
    (callSitesBy known lineAfter body).value = .ok site.toList := by
  have sites : ([o].mapM (callSiteAt known lineAfter)).value = .ok [site] := by
    rw [List.mapM_cons, Checked.value_bind_of_ok read]
    rfl
  unfold callSitesBy
  rw [found, Checked.value_bind_of_ok sites]
  cases site with
  | none => rfl
  | some site => rfl

end Sites

/-- The only head of a call that is read of two names starts at the first of them. It leaves what
stands behind a loose point in front of the parenthesis. -/
theorem occurrences_callText {c d : Char} {more front back : List Char}
    (qualifier : isQualifier (c :: more) = true) (named : isFunctionName (d :: front) = true)
    (chars : ∀ e ∈ d :: (front ++ back), Text.isNameChar e = true)
    (stops : functionTail (back ++ ['(', ')']) = some ([], back ++ ['(', ')'])) :
    occurrences callHead ((c :: more ++ ':' :: (d :: (front ++ back))) ++ ['(', ')']) =
      [⟨[], ⟨c :: more, d :: front, none⟩, c :: more ++ ':' :: (d :: front),
        back ++ ['(', ')']⟩] := by
  have implicit : explicitArity (back ++ ['(', ')']) = some (none, back ++ ['(', ')']) := by
    refine explicitArity_of_head? ?_
    cases back with
    | nil => exact fun sign => nomatch sign
    | cons e back =>
      intro sign
      cases sign
      exact absurd (chars '#' (by simp)) (by decide)
  have read : callHead ([] : List Char).head?
      ((c :: more ++ ':' :: (d :: front)) ++ (back ++ ['(', ')'])) =
        some (⟨c :: more, d :: front, none⟩, back ++ ['(', ')']) :=
    callHead_append rfl qualifier named stops implicit
  have joined : ((c :: more ++ ':' :: (d :: front)).reverse ++ []).head?.any joinsName = true := by
    obtain ⟨last, ends⟩ : ∃ e, (d :: front).getLast? = some e :=
      ⟨_, List.getLast?_eq_some_getLast (List.cons_ne_nil _ _)⟩
    have inName : last ∈ d :: (front ++ back) := by
      rw [← List.cons_append]
      exact List.mem_append_left _ (List.mem_of_getLast? ends)
    rw [List.append_nil, List.head?_reverse,
      List.getLast?_append_of_ne_nil _ (List.cons_ne_nil _ _),
      List.getLast?_cons_of_ne_nil (List.cons_ne_nil _ _), ends]
    exact joinsName_of_isNameChar (chars last inName)
  have joins : ∀ e ∈ back, joinsName e = true := fun e member =>
    joinsName_of_isNameChar (chars e (List.mem_cons_of_mem _ (List.mem_append_right _ member)))
  have shape : (c :: more ++ ':' :: (d :: (front ++ back))) ++ ['(', ')'] =
      (c :: more ++ ':' :: (d :: front)) ++ (back ++ ['(', ')']) := by
    simp only [List.append_assoc, List.cons_append]
  have nonempty : c :: more ++ ':' :: (d :: front) ≠ [] := List.cons_ne_nil _ _
  unfold occurrences
  rw [shape, occurrencesFrom_of_read nonempty read, occurrencesFrom_of_joined joined joins]

/-- Without a letter or an underscore at the start of both names, no head of a call is found. -/
theorem occurrences_callText_of_not_isNameStart {c d : Char} {more tail : List Char}
    (qualifierChars : ∀ e ∈ c :: more, Text.isNameChar e = true)
    (chars : ∀ e ∈ d :: tail, Text.isNameChar e = true)
    (other : ¬(isNameStart c = true ∧ isNameStart d = true)) :
    occurrences callHead ((c :: more ++ ':' :: (d :: tail)) ++ ['(', ')']) = [] := by
  have inMore : ∀ e ∈ more, Text.isNameChar e = true := fun e member =>
    qualifierChars e (List.mem_cons_of_mem _ member)
  have joined : [c].head?.any joinsName = true :=
    joinsName_of_isNameChar (qualifierChars c List.mem_cons_self)
  have joins : ∀ e ∈ more ++ ':' :: (d :: tail), joinsName e = true := by
    intro e member
    rcases List.mem_append.1 member with inQualifier | later
    · exact joinsName_of_isNameChar (inMore e inQualifier)
    · rcases List.mem_cons.1 later with rfl | inName
      · decide
      · exact joinsName_of_isNameChar (chars e inName)
  have fails : callHead ([] : List Char).head?
      (c :: ((more ++ ':' :: (d :: tail)) ++ ['(', ')'])) = none := by
    rw [List.append_assoc]
    exact callHead_of_not_isNameStart inMore other
  unfold occurrences
  rw [List.cons_append, List.cons_append, occurrencesFrom_of_none fails]
  exact occurrencesFrom_of_joined joined joins

/-- The head of a call with the parenthesis of an empty list behind it is that of a call without
arguments. -/
theorem finds_callText {qualifier name : String} {qualifierText nameText : List Char}
    (qualified : qualifier.toList = qualifierText) (named : name.toList = nameText)
    (text : List Char) :
    Finds (⟨[], ⟨qualifierText, nameText, none⟩, text, ['(', ')']⟩ : Occurrence CallHead)
      ⟨qualifier, name, 0⟩ := by
  refine ⟨?_, ?_, ?_⟩
  · exact qualified ▸ String.ofList_toList
  · exact named ▸ String.ofList_toList
  · exact @arityOf_separated _ _ [] [] [] (List.forall_mem_nil _) (List.forall_mem_nil _)
      (List.forall_mem_nil _)

/-- Where a name goes on, no parenthesis opens. -/
theorem head?_dropBlanks_of_isNameChar {c : Char} (nameChar : Text.isNameChar c = true)
    (s : List Char) : (Text.dropBlanks (c :: s)).head? ≠ some '(' := by
  have solid : (c :: s).head?.any Text.isBlank = false := Text.not_blank_of_isNameChar nameChar
  rw [Text.dropBlanks_of_not_blank solid]
  rintro ⟨rfl⟩
  exact absurd nameChar (by decide)

/-- Of a call of any two names the call site is found if the function can be called, and nothing
otherwise. -/
theorem value_callSitesBy_callText {known : List String} {qualifier name : String}
    (isQualifierName : isName qualifier.toList = true) (isFunction : isName name.toList = true)
    (isKnown : qualifier ∈ known) (lineAfter : List Char → Nat) :
    (callSitesBy known lineAfter (callText qualifier name)).value =
      .ok (if IsCallable qualifier name then
          [⟨if qualifier = localQualifier then none else some qualifier, name, 0, lineAfter []⟩]
        else []) := by
  obtain ⟨nonempty, qualifierChars⟩ := isName_iff.1 isQualifierName
  obtain ⟨c, more, qualifierText⟩ := List.exists_cons_of_ne_nil nonempty
  obtain ⟨nonempty, chars⟩ := isName_iff.1 isFunction
  obtain ⟨d, tail, nameText⟩ := List.exists_cons_of_ne_nil nonempty
  rw [qualifierText] at qualifierChars
  rw [nameText] at chars
  have text : callText qualifier name = (c :: more ++ ':' :: (d :: tail)) ++ ['(', ')'] := by
    unfold callText
    rw [qualifierText, nameText]
  have inMore : more.all Text.isNameChar = true :=
    List.all_eq_true.2 fun e member => qualifierChars e (List.mem_cons_of_mem _ member)
  have callable : IsCallable qualifier name ↔
      (isNameStart c = true ∧ isNameStart d = true) ∧ isFunctionTail tail = true := by
    unfold IsCallable
    rw [qualifierText, nameText, isQualifier, isFunctionName, inMore, Bool.and_true,
      Bool.and_eq_true, and_assoc]
  by_cases starts : isNameStart c = true ∧ isNameStart d = true
  case neg =>
    rw [if_neg fun both => starts (callable.1 both).1, text]
    exact value_callSitesBy_of_none
      (occurrences_callText_of_not_isNameStart qualifierChars chars starts)
  case pos =>
    obtain ⟨front, back, rfl, grammar, stops, whole⟩ := functionTail_split tail
    rw [← whole, and_iff_right starts] at callable
    have isCallQualifier : isQualifier (c :: more) = true :=
      Bool.and_eq_true_iff.2 ⟨starts.1, inMore⟩
    have isCallName : isFunctionName (d :: front) = true :=
      Bool.and_eq_true_iff.2 ⟨starts.2, grammar⟩
    have found := occurrences_callText isCallQualifier isCallName chars stops
    rw [← text] at found
    cases back with
    | nil =>
      rw [List.append_nil] at nameText
      rw [if_pos (callable.2 rfl)]
      exact value_callSitesBy_of_singleton found (value_callSiteAt_of_mem known lineAfter
        (finds_callText qualifierText nameText _) isKnown)
    | cons e back =>
      rw [if_neg fun both => List.cons_ne_nil _ _ (callable.1 both)]
      exact value_callSitesBy_of_singleton found
        (value_callSiteAt_of_head? rfl (head?_dropBlanks_of_isNameChar (chars e (by simp)) _))

/-- **Which declared functions are called.** A function that is declared is called by its two names
with an empty list of arguments, exactly once and without arguments, if both names start with
a letter or an underscore of ASCII and its own name goes on behind each point. No call of any other
function that is declared is found. -/
theorem callSites_of_declares {known : List String} {path qualifier name : String}
    (declares : Declares known path qualifier name) (isKnown : qualifier ∈ known)
    (lineAfter : List Char → Nat) :
    (callSitesBy known lineAfter (callText qualifier name)).value =
      .ok (if IsCallable qualifier name then
          [⟨if qualifier = localQualifier then none else some qualifier, name, 0, lineAfter []⟩]
        else []) := by
  obtain ⟨qualified, named⟩ := declares_iff.1 declares
  exact value_callSitesBy_callText qualified named isKnown lineAfter

/-- A name with a point, a digit and a hyphen behind its first letter is declared and called. -/
theorem callSites_of_declares_points :
    Declares ["a", "local"] "/a.xqy" "a" "f.1-x" ∧ "a" ∈ ["a", "local"] ∧
      (callSites ["a", "local"] 1 (callText "a" "f.1-x")).value =
        .ok [⟨some "a", "f.1-x", 0, 1⟩] := by
  have declares : Declares ["a", "local"] "/a.xqy" "a" "f.1-x" :=
    declares_iff.2 (by decide)
  have isKnown : "a" ∈ ["a", "local"] := by decide
  have callable : IsCallable "a" "f.1-x" := by decide
  have found := callSites_of_declares declares isKnown fun before => 1 + before.count '\n'
  rw [if_pos callable] at found
  exact ⟨declares, isKnown, found⟩

/-- A function is declared by a name that starts with a letter outside of ASCII, and no call of it
is found. -/
theorem accented_uncalled :
    Declares ["a", "local"] "/a.xqy" "a" "été" ∧ "a" ∈ ["a", "local"] ∧
      (callSites ["a", "local"] 1 (callText "a" "été")).value = .ok [] :=
  ⟨declares_iff.2 (by decide), by decide, by decide +kernel⟩

end CallAtlas.Written
