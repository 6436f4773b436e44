import CallAtlas.Proofs.Canonical.Statements

/-!
# Imports are no names of their module

An import binds a qualifier by the same clause by which a module names itself, so the clause counts
for the module unless the word `import` stands before it. That word is looked for within a fixed
reach: blanks that fill it hide the word, and the import names the module
(`followsImport_of_import`). The import itself is read across any blanks.

Both readings rest on one fact about the text around the import: without the word `module` in it,
neither scanner starts there.
-/

namespace CallAtlas.Source

open Canonical

/-! ## Where imports start -/

/-- An import statement has its second word behind its first and some blanks. -/
theorem exists_module_of_importStatement {before : Option Char} {s : List Char}
    {read : Unit × List Char} (h : importStatement before s = some read) :
    ∃ gap more, s = "import".toList ++ (gap ++ more) ∧ gap ≠ [] ∧
      (∀ c ∈ gap, Text.isBlank c = true) ∧ Stands "module".toList gap.getLast? more := by
  unfold importStatement at h
  obtain ⟨_, _, started, fromWord⟩ := Scan.bind_eq_some h
  obtain ⟨-, rfl⟩ := Scan.wordStart_eq_some started
  obtain ⟨_, _, word, fromBlanks⟩ := Scan.bind_eq_some fromWord
  obtain ⟨spelled, rfl⟩ := Scan.keyword_eq_some word
  obtain ⟨after, rfl⟩ := List.isPrefixOf_iff_prefix.1 spelled
  rw [List.drop_left] at fromBlanks
  obtain ⟨_, _, blanks, fromSecond⟩ := Scan.bind_eq_some fromBlanks
  obtain ⟨blank, rfl⟩ := Scan.someBlanks_eq_some blanks
  obtain ⟨_, _, second, fromEnd⟩ := Scan.bind_eq_some fromSecond
  obtain ⟨spelled', rfl⟩ := Scan.keyword_eq_some second
  obtain ⟨_, _, ended, -⟩ := Scan.bind_eq_some fromEnd
  have gap : after.takeWhile Text.isBlank ≠ [] := by
    cases after with
    | nil => cases blank
    | cons c after =>
      rw [List.takeWhile_cons_of_pos (by exact blank)]
      exact List.cons_ne_nil _ _
  have blanks : ∀ c ∈ after.takeWhile Text.isBlank, Text.isBlank c = true :=
    fun c member => List.mem_takeWhile_imp member
  refine ⟨_, Text.dropBlanks after, ?_, gap, blanks, ?_⟩
  · rw [Text.dropBlanks, List.takeWhile_append_dropWhile]
  · exact ⟨Text.getLast?_not_word_of_blank blanks, List.isPrefixOf_iff_prefix.1 spelled',
      (Scan.wordEnd_eq_some ended).1⟩

/-- No import starts in a part without the word `module`, if what follows starts with the letter
of another import or not at all. -/
theorem avoids_importStatement {before part rest : List Char}
    (avoids : Avoids (Stands "module".toList) before part rest)
    (next : ∀ d ∈ rest.head?, d = 'i') :
    Avoids (fun b s => ∃ read, importStatement b s = some read) before part rest := by
  rw [avoids_iff] at avoids ⊢
  rintro front c back rfl ⟨read, reads⟩
  obtain ⟨gap, more, spelled, nonempty, blank, stands⟩ := exists_module_of_importStatement reads
  rw [← List.cons_append, ← List.append_assoc] at spelled
  have apart : ¬"module".toList <+: rest := by
    rintro ⟨tail, rfl⟩
    exact absurd (next 'm' rfl) (by decide)
  rcases List.append_eq_append_iff.1 spelled with ⟨left, words, rfl⟩ | ⟨left, inside, rfl⟩
  · -- The first word and its blanks reach into what follows.
    cases left with
    | nil => exact apart stands.spelled
    | cons d left =>
      obtain rfl := next d rfl
      have tails : "mport".toList ++ gap = back ++ 'i' :: left := (List.cons.inj words).2
      have member : 'i' ∈ "mport".toList ++ gap :=
        tails ▸ List.mem_append_right _ List.mem_cons_self
      rcases List.mem_append.1 member with letter | inGap
      · exact absurd letter (by decide)
      · exact absurd (blank _ inGap) (by decide)
  · -- They lie in the part, and the second word does not stand behind them.
    cases left with
    | nil => exact apart stands.spelled
    | cons d left =>
      refine avoids (front ++ ("import".toList ++ gap)) d left ?_ ?_
      · simp only [inside, List.append_assoc]
      · have last : ((front ++ ("import".toList ++ gap)).reverse ++ before).head? =
            gap.getLast? := by
          simp only [List.reverse_append, List.append_assoc, List.head?_append, List.head?_reverse]
          rw [Option.or_of_isSome (by simpa using nonempty)]
        rw [last]
        exact stands

/-! ## What precedes a clause -/

/-- The word `import` before blanks is found if it lies within reach with them. -/
theorem followsImport_of_import {before gap : List Char}
    (start : before.head?.any Text.isWord = false) (nonempty : gap ≠ []) (blank : ∀ c ∈ gap, Text.isBlank c = true) :
    followsImport (gap ++ ("import".toList.reverse ++ before)) =
      decide (gap.length + "import".toList.length ≤ importReach) := by
  obtain ⟨room, left⟩ : ∃ room, room = importReach - gap.length := ⟨_, rfl⟩
  obtain ⟨seen, isSeen⟩ : ∃ seen, seen = ("import".toList.reverse ++ before).take room := ⟨_, rfl⟩
  have near : (gap ++ ("import".toList.reverse ++ before)).take importReach =
      gap.take importReach ++ seen := by
    rw [List.take_append, isSeen, left]
  have solid : seen.head?.any Text.isBlank = false := by
    rw [isSeen]
    cases room with
    | zero => rfl
    | succ room => rfl
  have word : (gap.take importReach ++ seen).dropWhile Text.isBlank = seen := by
    rw [List.dropWhile_append_of_pos fun c member => blank c (List.mem_of_mem_take member)]
    exact Text.dropBlanks_of_not_blank solid
  unfold followsImport
  dsimp only
  rw [near, word]
  by_cases within : gap.length + "import".toList.length ≤ importReach
  case pos =>
    have shown : seen = "import".toList.reverse ++ before.take (room - "import".toList.length) := by
      rw [isSeen, List.take_append, List.length_reverse, List.take_of_length_le]
      rw [List.length_reverse]
      omega
    have stops : (before.take (room - "import".toList.length)).head?.any Text.isWord = false := by
      cases room - "import".toList.length with
      | zero => rfl
      | succ n =>
        cases before with
        | nil => rfl
        | cons c before => exact start
    have longer : seen.length < (gap.take importReach ++ seen).length := by
      have some := List.length_pos_of_ne_nil nonempty
      have reach : 0 < importReach := by decide
      rw [List.length_append, List.length_take (l := gap)]
      omega
    rw [decide_eq_true within, decide_eq_true longer, shown, List.drop_left, stops,
      List.isPrefixOf_iff_prefix.2 (List.prefix_append _ _)]
    rfl
  case neg =>
    have short : ¬"import".toList.reverse <+: seen := by
      intro spelled
      have fits := spelled.length_le
      have letters : 0 < "import".toList.length := by decide
      rw [isSeen, List.length_reverse, List.length_take] at fits
      omega
    rw [decide_eq_false within, Bool.eq_false_iff.2 (mt List.isPrefixOf_iff_prefix.1 short),
      Bool.and_false, Bool.false_and]

/-- A namespace clause has its first word at its start. -/
theorem stands_of_namingClause {before : Option Char} {s : List Char}
    {read : (List Char × List Char) × List Char} (h : namingClause before s = some read) :
    Stands "module".toList before s := by
  unfold namingClause at h
  obtain ⟨_, _, started, fromWord⟩ := Scan.bind_eq_some h
  obtain ⟨start, rfl⟩ := Scan.wordStart_eq_some started
  obtain ⟨_, _, word, fromBlanks⟩ := Scan.bind_eq_some fromWord
  obtain ⟨spelled, rfl⟩ := Scan.keyword_eq_some word
  obtain ⟨_, _, blanks, -⟩ := Scan.bind_eq_some fromBlanks
  exact ⟨start, List.isPrefixOf_iff_prefix.1 spelled,
    Text.head?_not_word_of_blank (Scan.someBlanks_eq_some blanks).1⟩

/-! ## Texts with one import -/

/-- A text with an import: what stands before it, the blanks after its first word, the qualifier
and the URI that it binds, and what stands after it. -/
structure ImportText where
  before : List Char
  gap : List Char
  qualifier : List Char
  uri : List Char
  after : List Char

namespace ImportText

/-- The import without its semicolon. -/
def statement (t : ImportText) : List Char :=
  "import".toList ++ (t.gap ++ namespaceBinding t.qualifier t.uri)

/-- The whole text. -/
def text (t : ImportText) : List Char :=
  t.before ++ (t.statement ++ ';' :: t.after)

/-- The import starts as a word and is well formed, and the word `module` stands nowhere else but in
its URI, which ends at the first double quote. -/
structure Fits (t : ImportText) : Prop where
  start : t.before.getLast?.any Text.isWord = false
  nonempty : t.gap ≠ []
  blank : ∀ c ∈ t.gap, Text.isBlank c = true
  qualifier : isName t.qualifier = true
  quote : '"' ∉ t.uri
  before : hasWord "module".toList none t.before = false
  after : hasWord "module".toList none t.after = false

instance (t : ImportText) : Decidable t.Fits :=
  decidable_of_iff (t.before.getLast?.any Text.isWord = false ∧ t.gap ≠ [] ∧
      t.gap.all Text.isBlank = true ∧ isName t.qualifier = true ∧ '"' ∉ t.uri ∧
      hasWord "module".toList none t.before = false ∧ hasWord "module".toList none t.after = false)
    ⟨fun ⟨start, nonempty, blank, qualifier, quote, before, after⟩ =>
        ⟨start, nonempty, List.all_eq_true.1 blank, qualifier, quote, before, after⟩,
      fun fits => ⟨fits.start, fits.nonempty, List.all_eq_true.2 fits.blank, fits.qualifier,
        fits.quote, fits.before, fits.after⟩⟩

variable {t : ImportText}

section Fits

variable (fits : t.Fits)
include fits

/-- The word `module` does not stand before the import. -/
theorem Fits.avoids_before (rest : List Char) :
    Avoids (Stands "module".toList) [] t.before (t.statement ++ rest) := by
  refine avoids_of_hasWord (fun _ => rfl) fits.before ?_
  intro d next
  obtain rfl : 'i' = d := Option.some.inj next
  decide

/-- Nor does it stand behind the import, whatever the import ends in. -/
theorem Fits.avoids_after (before : List Char) :
    Avoids (Stands "module".toList) before t.after [] :=
  avoids_of_hasWord (fun _ => rfl) fits.after fun _ next => nomatch next

/-- Up to its second word the import has no such word. -/
theorem Fits.avoids_opening (before rest : List Char) :
    Avoids (Stands "module".toList) before ("import".toList ++ t.gap) rest := by
  have absent : 'm' ∉ t.gap := fun member => absurd (fits.blank _ member) (by decide)
  have spelled : Avoids (fun _ s => "module".toList <+: s) before ("import".toList ++ t.gap) rest :=
    (avoids_spelled_of_excludes (by decide)).append (avoids_spelled_of_not_mem absent)
  exact spelled.mono fun _ _ => Stands.spelled

/-- The import has the only namespace clause. -/
theorem Fits.occurrences_namingClause :
    occurrences namingClause t.text =
      [⟨(t.before ++ ("import".toList ++ t.gap)).reverse, (t.qualifier, t.uri),
        namespaceBinding t.qualifier t.uri ++ [';'], t.after⟩] := by
  have shape : t.text = (t.before ++ ("import".toList ++ t.gap)) ++
      ((namespaceBinding t.qualifier t.uri ++ [';']) ++ (t.after ++ [])) := by
    unfold text statement
    simp only [List.append_assoc, List.append_nil, List.singleton_append]
  have opening : Avoids (Stands "module".toList) [] (t.before ++ ("import".toList ++ t.gap))
      ((namespaceBinding t.qualifier t.uri ++ [';']) ++ (t.after ++ [])) := by
    refine Avoids.append ?_ (fits.avoids_opening _ _)
    have before := fits.avoids_before (';' :: t.after)
    unfold statement at before
    simpa only [List.append_assoc, List.append_nil, List.singleton_append] using before
  have read : namingClause ((t.before ++ ("import".toList ++ t.gap)).reverse ++ []).head?
      ((namespaceBinding t.qualifier t.uri ++ [';']) ++ (t.after ++ [])) =
        some ((t.qualifier, t.uri), t.after ++ []) := by
    have start : ((t.before ++ ("import".toList ++ t.gap)).reverse ++ []).head?.any Text.isWord =
        false := by
      rw [List.append_nil, List.head?_reverse, List.getLast?_append, List.getLast?_append,
        Option.or_of_isSome (by simp), Option.or_of_isSome (by simp [fits.nonempty])]
      exact Text.getLast?_not_word_of_blank fits.blank
    rw [List.append_assoc]
    exact namingClause_append start fits.qualifier fits.quote _
  have nonempty : namespaceBinding t.qualifier t.uri ++ [';'] ≠ [] := by simp
  unfold occurrences
  rw [shape, occurrencesFrom_of_avoids (fun _ _ _ => stands_of_namingClause) opening,
    occurrencesFrom_of_read nonempty read,
    occurrencesFrom_of_avoids (fun _ _ _ => stands_of_namingClause) (fits.avoids_after _),
    occurrencesFrom, List.append_nil, List.append_nil]

/-- The import names the module if its first word is out of reach. -/
theorem Fits.value_naming (path : String) :
    (naming t.text path).value =
      if t.gap.length + "import".toList.length ≤ importReach then Naming.ofMain path
      else ⟨String.ofList t.qualifier, String.ofList t.uri, false⟩ := by
  have start : t.before.reverse.head?.any Text.isWord = false := by
    rw [List.head?_reverse]
    exact fits.start
  have blank : ∀ c ∈ t.gap.reverse, Text.isBlank c = true := fun c member =>
    fits.blank c (List.mem_reverse.1 member)
  have follows := followsImport_of_import start (by simpa using fits.nonempty) blank
  rw [List.length_reverse] at follows
  have shown : (t.before ++ ("import".toList ++ t.gap)).reverse =
      t.gap.reverse ++ ("import".toList.reverse ++ t.before.reverse) := by
    simp only [List.reverse_append, List.append_assoc]
  unfold naming ownNamings
  rw [fits.occurrences_namingClause, List.filter_cons, List.filter_nil]
  dsimp only
  rw [shown, follows]
  by_cases within : t.gap.length + "import".toList.length ≤ importReach
  · rw [decide_eq_true within, if_pos within]
    rfl
  · rw [decide_eq_false within, if_neg within]
    rfl

/-- The import statement is the only one. -/
theorem Fits.occurrences_importStatement (semicolon : ';' ∉ t.uri) :
    occurrences importStatement t.text =
      [⟨t.before.reverse, (), t.statement ++ [';'], t.after⟩] := by
  have shape : t.text = t.before ++ ((t.statement ++ [';']) ++ (t.after ++ [])) := by
    unfold text
    simp only [List.append_assoc, List.append_nil, List.singleton_append]
  have opening : Avoids (fun b s => ∃ read, importStatement b s = some read) [] t.before
      ((t.statement ++ [';']) ++ (t.after ++ [])) := by
    refine avoids_importStatement ?_ fun d next => (Option.some.inj next).symm
    rw [List.append_assoc]
    exact fits.avoids_before _
  have read : importStatement (t.before.reverse ++ []).head?
      ((t.statement ++ [';']) ++ (t.after ++ [])) = some ((), t.after ++ []) := by
    have start : (t.before.reverse ++ []).head?.any Text.isWord = false := by
      rw [List.append_nil, List.head?_reverse]
      exact fits.start
    have name := not_mem_of_isName fits.qualifier (show Text.isNameChar ';' = false by decide)
    have inside : ';' ∉ ' ' :: ("namespace".toList ++ ' ' :: (t.qualifier ++
        ' ' :: '=' :: ' ' :: '"' :: (t.uri ++ ['"']))) := by
      simp [name, semicolon]
    have whole := importStatement_append start fits.nonempty fits.blank rfl inside (t.after ++ [])
    unfold statement
    simp only [List.append_assoc, namespaceBinding_append]
    simpa only [List.cons_append, List.append_assoc, List.nil_append] using whole
  have nonempty : t.statement ++ [';'] ≠ [] := by simp
  have closing := avoids_importStatement
    (fits.avoids_after ((t.statement ++ [';']).reverse ++ (t.before.reverse ++ [])))
    fun _ next => nomatch next
  unfold occurrences
  rw [shape, occurrencesFrom_of_avoids (fun _ _ read h => ⟨read, h⟩) opening,
    occurrencesFrom_of_read nonempty read,
    occurrencesFrom_of_avoids (fun _ _ read h => ⟨read, h⟩) closing,
    occurrencesFrom, List.append_nil, List.append_nil]

/-- The import is read across all its blanks. -/
theorem Fits.readImport (path : String) (line : Nat) :
    readImport path line (t.statement ++ [';']) =
      .ok ⟨String.ofList t.qualifier, String.ofList t.uri, none, line⟩ := by
  have binding := importBinding_append fits.nonempty fits.blank fits.qualifier fits.quote [';']
  have shape : t.statement ++ [';'] =
      "import".toList ++ (t.gap ++ (namespaceBinding t.qualifier t.uri ++ [';'])) := by
    unfold statement
    simp only [List.append_assoc]
  unfold Source.readImport
  rw [shape, binding]
  rfl

theorem Fits.value_importClauses (semicolon : ';' ∉ t.uri) (path : String) :
    (importClauses t.text path).value = [⟨String.ofList t.qualifier, String.ofList t.uri, none,
      Text.lineAfter t.before.reverse⟩] := by
  unfold importClauses
  rw [fits.occurrences_importStatement semicolon, Report.value_bind, Report.value_mapM,
    Report.value_pure, List.map_singleton]
  unfold importAt
  dsimp only
  rw [fits.readImport]
  rfl

end Fits

/-- **An import names its module where its first word is out of reach.** The blanks behind that word
decide: a module with an import and no other clause is a main module as long as they leave the word
within reach, and takes the name that it imports otherwise. In both cases the statement is read as
an import. -/
theorem naming_of_import (fits : t.Fits) (path : String) :
    (naming t.text path).value =
        (if t.gap.length + "import".toList.length ≤ importReach then Naming.ofMain path
          else ⟨String.ofList t.qualifier, String.ofList t.uri, false⟩) ∧
      (';' ∉ t.uri → (importClauses t.text path).value = [⟨String.ofList t.qualifier,
        String.ofList t.uri, none, Text.lineAfter t.before.reverse⟩]) :=
  ⟨fits.value_naming path, fun semicolon => fits.value_importClauses semicolon path⟩

/-- The text of an import with some spaces behind its first word and a call behind it. -/
def spaced (spaces : Nat) : ImportText :=
  { before := ['\n']
    gap := List.replicate spaces ' '
    qualifier := ['p']
    uri := ['u']
    after := "\np:f()".toList }

/-- A module whose import has a single space is a main module. -/
theorem spaced_naming :
    (spaced 1).Fits ∧ ';' ∉ (spaced 1).uri ∧
      (naming (spaced 1).text "/a.xqy").value = Naming.ofMain "/a.xqy" ∧
      (importClauses (spaced 1).text "/a.xqy").value = [⟨"p", "u", none, 2⟩] := by
  have fits : (spaced 1).Fits := by decide
  have semicolon : ';' ∉ (spaced 1).uri := by decide
  obtain ⟨named, imported⟩ := naming_of_import fits "/a.xqy"
  rw [if_pos (by decide)] at named
  exact ⟨fits, semicolon, named, imported semicolon⟩

/-- Twenty-seven spaces make the import the name of the module. -/
theorem spaced_misnamed :
    (spaced 27).Fits ∧ (naming (spaced 27).text "/a.xqy").value = ⟨"p", "u", false⟩ ∧
      (importClauses (spaced 27).text "/a.xqy").value = [⟨"p", "u", none, 2⟩] := by
  have fits : (spaced 27).Fits := by decide
  have named := fits.value_naming "/a.xqy"
  rw [if_neg (by decide)] at named
  exact ⟨fits, named, fits.value_importClauses (by decide) "/a.xqy"⟩

end ImportText

end CallAtlas.Source
