import CallAtlas.Proofs.Location
import CallAtlas.Proofs.Source.Places
import Mathlib.Data.List.TFAE

/-!
# Written imports

An import is given by its qualifier, its URI and perhaps its location, the last two without double
quotes. A text of imports, a line each, is read as the imports that were written, in their order and
with the lines that they stand on, if and only if none of their URIs and locations has a semicolon
(`importClauses_written`): a statement ends at its first semicolon, wherever that stands, so nothing
that is read has one in it (`semicolon_of_importAt`).
-/

namespace CallAtlas.Written

open Source Canonical

/-- An import to be written. -/
structure Import where
  qualifier : String
  uri : String
  location : Option String
  name : isName qualifier.toList = true := by decide
  uriQuote : '"' ∉ uri.toList := by decide
  locationQuote : ∀ l ∈ location, '"' ∉ l.toList := by decide

namespace Import

/-- What follows the URI, up to the semicolon. -/
def place (i : Import) : List Char :=
  match i.location with
  | none => []
  | some location => " at \"".toList ++ (location.toList ++ ['"'])

/-- The whole statement. -/
def statement (i : Import) : List Char :=
  "import module namespace ".toList ++ (i.qualifier.toList ++ (" = \"".toList ++ (i.uri.toList ++
    '"' :: (i.place ++ [';']))))

/-- What is to be read of an import on a line of the module at a path. -/
def clause (path : String) (line : Nat) (i : Import) : ImportClause where
  qualifier := i.qualifier
  uri := i.uri
  location := i.location.map fun l => String.ofList (Location.ofImport path.toList l.toList)
  line := line

/-- Neither the URI nor the location has a semicolon. -/
structure IsWhole (i : Import) : Prop where
  uri : ';' ∉ i.uri.toList
  location : ∀ l ∈ i.location, ';' ∉ l.toList

end Import

/-- Imports with a line feed after each. -/
def importLines (imports : List Import) : List Char :=
  imports.flatMap fun i => i.statement ++ ['\n']

/-- What is to be read of imports, the first of them on a given line. -/
def clausesFrom (path : String) (line : Nat) : List Import → List ImportClause
  | [] => []
  | i :: imports =>
    i.clause path line :: clausesFrom path (line + (i.statement ++ ['\n']).count '\n') imports

/-! ## Statements end at their first semicolon -/

theorem semicolon_of_importStatement {before : Option Char} {s rest : List Char} {read : Unit}
    (h : importStatement before s = some (read, rest)) :
    ∃ front, s = front ++ ';' :: rest ∧ ';' ∉ front := by
  unfold importStatement at h
  obtain ⟨_, _, started, fromWord⟩ := Scan.bind_eq_some h
  obtain ⟨-, rfl⟩ := Scan.wordStart_eq_some started
  obtain ⟨_, afterWord, word, fromBlanks⟩ := Scan.bind_eq_some fromWord
  obtain ⟨_, _, blanks, fromClause⟩ := Scan.bind_eq_some fromBlanks
  obtain ⟨-, rfl⟩ := Scan.someBlanks_eq_some blanks
  obtain ⟨_, _, next, fromEnd⟩ := Scan.bind_eq_some fromClause
  obtain ⟨_, clause, ends, fromRun⟩ := Scan.bind_eq_some fromEnd
  obtain ⟨-, rfl⟩ := Scan.wordEnd_eq_some ends
  have run : Scan.run (· != ';') clause =
    some (clause.takeWhile (· != ';'), clause.dropWhile (· != ';')) := rfl
  rw [Scan.bind_of_read (Scan.discard_of_read run)] at fromRun
  have closed : clause.dropWhile (· != ';') = ';' :: rest := Scan.literal_eq_some fromRun
  refine ⟨"import".toList ++ (afterWord.takeWhile Text.isBlank ++
    ("module".toList ++ clause.takeWhile (· != ';'))), ?_, ?_⟩
  · have blanked : afterWord = afterWord.takeWhile Text.isBlank ++ Text.dropBlanks afterWord :=
      List.takeWhile_append_dropWhile.symm
    rw [Scan.literal_eq_some word, List.append_assoc, List.append_assoc, List.append_assoc,
      ← closed, List.takeWhile_append_dropWhile, ← Scan.literal_eq_some next, ← blanked]
  · simp only [List.mem_append, not_or]
    refine ⟨by decide, fun inBlanks => ?_, by decide, fun inClause => ?_⟩
    · exact absurd (List.mem_takeWhile_imp inBlanks) (by decide)
    · exact absurd (List.mem_takeWhile_imp inClause) (by decide)

/-- The statements of a text end at their first semicolon. -/
theorem semicolon_of_mem {before s : List Char} {o : Occurrence Unit}
    (member : o ∈ occurrencesFrom importStatement before s) :
    ∃ front, o.text = front ++ [';'] ∧ ';' ∉ front := by
  obtain ⟨start, -, -, read, taken⟩ := exists_taken_of_mem member
  obtain ⟨front, rfl, absent⟩ := semicolon_of_importStatement read
  refine ⟨front, ?_, absent⟩
  rw [← List.singleton_append, ← List.append_assoc, List.length_append, Nat.add_sub_cancel,
    List.take_left] at taken
  exact taken

/-- The URI of a binding stands between two quotes. -/
theorem uri_of_importBinding {s qualifier uri rest : List Char}
    (h : importBinding s = some ((qualifier, uri), rest)) :
    ∃ front quote, s = front ++ quote :: (uri ++ quote :: rest) ∧ isQuote quote = true := by
  have word : ∀ word : String, (Scan.keyword word).LeavesEnd := fun word =>
    Scan.leavesEnd_literal word.toList
  have reached : ∃ t, t <:+ s ∧ importBinding t = some ((qualifier, uri), rest) :=
    ⟨s, List.suffix_rfl, h⟩
  unfold importBinding at reached
  obtain ⟨_, reached⟩ := Scan.exists_next (word "import") reached
  obtain ⟨_, reached⟩ := Scan.exists_next Scan.leavesEnd_someBlanks reached
  obtain ⟨_, reached⟩ := Scan.exists_next (word "module") reached
  obtain ⟨_, reached⟩ := Scan.exists_next Scan.leavesEnd_someBlanks reached
  obtain ⟨_, reached⟩ := Scan.exists_next (word "namespace") reached
  obtain ⟨_, reached⟩ := Scan.exists_next Scan.leavesEnd_someBlanks reached
  obtain ⟨_, reached⟩ := Scan.exists_next (Scan.leavesEnd_someRun _) reached
  obtain ⟨_, reached⟩ := Scan.exists_next Scan.leavesEnd_blanks reached
  obtain ⟨_, reached⟩ := Scan.exists_next (Scan.leavesEnd_literal _) reached
  obtain ⟨_, t, ⟨front, rfl⟩, reads⟩ := Scan.exists_next Scan.leavesEnd_blanks reached
  obtain ⟨quote, inside, opened, fromUri⟩ := Scan.bind_eq_some reads
  obtain ⟨rfl, delimiter⟩ := Scan.char_eq_some opened
  have run : Scan.run (· != quote) inside =
    some (inside.takeWhile (· != quote), inside.dropWhile (· != quote)) := rfl
  rw [Scan.bind_of_read run] at fromUri
  obtain ⟨_, _, closed, made⟩ := Scan.bind_eq_some fromUri
  cases made
  refine ⟨front, quote, ?_, delimiter⟩
  rw [← List.singleton_append (x := quote) (l := rest), ← Scan.literal_eq_some closed,
    List.takeWhile_append_dropWhile]

theorem mem_text_of_mem_first {p : Places} {c : Char} (member : c ∈ p.first.text) :
    c ∈ p.text := by
  unfold Places.text QuotedText.written
  simp only [List.mem_append, List.mem_cons]
  exact Or.inr (Or.inr (Or.inl (Or.inr (Or.inl member))))

/-- What is read of a statement has no semicolon, unless the path of the module has one. -/
theorem semicolon_of_importAt {path : String} {before s : List Char} {o : Occurrence Unit}
    {c : ImportClause} (member : o ∈ occurrencesFrom importStatement before s)
    (read : (importAt path o).value = some c) :
    ';' ∉ c.uri.toList ∧ (';' ∉ path.toList → ∀ l ∈ c.location, ';' ∉ l.toList) := by
  obtain ⟨qualifier, uri, rest, bound, located, same⟩ :=
    readImport_eq_ok_iff.1 (value_importAt_eq_some_iff.1 read)
  obtain ⟨front, ends, absent⟩ := semicolon_of_mem member
  obtain ⟨opening, quote, split, -⟩ := uri_of_importBinding bound
  -- Without its last character the statement still has the URI, and the rest up to that character.
  have parts : front = opening ++ quote :: (uri ++ (quote :: rest).dropLast) := by
    have whole := congrArg List.dropLast (ends.symm.trans split)
    rwa [List.dropLast_concat, List.dropLast_append_cons, ← List.cons_append,
      List.dropLast_append_cons, List.cons_append] at whole
  rw [parts] at absent
  simp only [List.mem_append, List.mem_cons, not_or] at absent
  obtain ⟨-, -, inUri, inRest⟩ := absent
  refine ⟨?_, ?_⟩
  · rw [same, String.toList_ofList]
    exact inUri
  · intro inPath location given semicolon
    rcases located with ⟨-, nowhere⟩ | ⟨p, text, -, somewhere⟩
    · rw [nowhere] at given
      cases given
    · rw [somewhere] at given
      cases given
      rw [String.toList_ofList] at semicolon
      rcases Location.of_mem_ofImport semicolon with inText | inSource | slash | point
      · have inPlaces : ';' ∈ rest.dropLast :=
          (Text.trim_sublist _).subset (text ▸ mem_text_of_mem_first inText)
        cases rest with
        | nil => cases inPlaces
        | cons c rest => exact inRest (List.mem_cons_of_mem _ inPlaces)
      · exact inPath inSource
      · cases slash
      · cases point

/-! ## Statements are read -/

namespace Import

variable (i : Import)

/-- A location behind the word `at` as places. -/
def placesOf (location : String) : Places where
  gap := [' ']
  first := ⟨'"', location.toList, rfl⟩
  further := []
  spaced := List.cons_ne_nil _ _
  blank := List.forall_mem_singleton.2 rfl

theorem placesOf_text (location : String) :
    (placesOf location).text = "at \"".toList ++ (location.toList ++ ['"']) := by
  unfold placesOf Places.text QuotedText.written
  rw [List.flatMap_nil, List.append_nil]
  rfl

/-- What follows the URI says where the module lies. -/
theorem locatedBy (path : String) (line : Nat) :
    LocatedBy path (Text.trim i.place) (i.clause path line).location := by
  unfold place clause
  cases given : i.location with
  | none => exact Or.inl ⟨rfl, rfl⟩
  | some location =>
    refine Or.inr ⟨placesOf location, ?_, ?_, rfl⟩
    · have last : ("at \"".toList ++ (location.toList ++ ['"'])).getLast?.any Text.isBlank =
          false := by
        rw [← List.append_assoc, List.getLast?_concat]
        decide
      rw [placesOf_text]
      exact (Text.trim_append (List.forall_mem_singleton.2 rfl) rfl last).symm
    · exact Places.isShortest_of_not_mem (i.locationQuote location given)

theorem statement_append (rest : List Char) :
    i.statement ++ rest = "import".toList ++ ([' '] ++
      (namespaceBinding i.qualifier.toList i.uri.toList ++ (i.place ++ ';' :: rest))) := by
  unfold statement namespaceBinding
  simp only [List.append_assoc, List.cons_append, List.nil_append]
  rfl

/-- A statement is read as the import that it was written for. -/
theorem readImport_statement (path : String) (line : Nat) :
    readImport path line i.statement = .ok (i.clause path line) := by
  have bound : importBinding i.statement =
      some ((i.qualifier.toList, i.uri.toList), i.place ++ [';']) := by
    have whole := i.statement_append []
    rw [List.append_nil] at whole
    rw [whole]
    exact importBinding_append (by decide) (List.forall_mem_singleton.2 rfl) i.name i.uriQuote _
  refine readImport_eq_ok_iff.2 ⟨_, _, _, bound, ?_, ?_⟩
  · rw [List.dropLast_concat]
    exact i.locatedBy path line
  · rw [String.ofList_toList, String.ofList_toList]
    rfl

variable {i}

/-- Without semicolons in its URI and its location, a statement ends where it was written to end. -/
theorem IsWhole.importStatement (whole : i.IsWhole) {before : Option Char}
    (start : before.any Text.isWord = false) (rest : List Char) :
    importStatement before (i.statement ++ rest) = some ((), rest) := by
  have name : ';' ∉ i.qualifier.toList := not_mem_of_isName i.name (by decide)
  have place : ';' ∉ i.place := by
    unfold Import.place
    cases given : i.location with
    | none => exact List.not_mem_nil
    | some location =>
      simp only [List.mem_append, List.mem_singleton, not_or]
      exact ⟨by decide, whole.location location given, by decide⟩
  have clause : ';' ∉ " namespace ".toList ++ (i.qualifier.toList ++ (" = \"".toList ++
      (i.uri.toList ++ '"' :: i.place))) := by
    simp only [List.mem_append, List.mem_cons, not_or]
    exact ⟨by decide, name, by decide, whole.uri, by decide, place⟩
  have shape : i.statement ++ rest = "import".toList ++ ([' '] ++ ("module".toList ++
      (" namespace ".toList ++ (i.qualifier.toList ++ (" = \"".toList ++
        (i.uri.toList ++ '"' :: i.place))) ++ ';' :: rest))) := by
    unfold statement
    simp only [List.append_assoc, List.cons_append, List.nil_append]
    rfl
  rw [shape]
  exact importStatement_append start (by decide) (List.forall_mem_singleton.2 rfl) rfl clause rest

end Import

/-- Imports without semicolons are read as they were written, each on its line. -/
theorem filterMap_importLines (path : String) {imports : List Import}
    (whole : ∀ i ∈ imports, i.IsWhole) {before : List Char}
    (start : before.head?.any Text.isWord = false) :
    (occurrencesFrom importStatement before (importLines imports)).filterMap
        (fun o => (importAt path o).value) =
      clausesFrom path (Text.lineAfter before) imports := by
  induction imports generalizing before with
  | nil =>
    unfold importLines
    rw [List.flatMap_nil, occurrencesFrom]
    rfl
  | cons i imports ih =>
    have later := @ih (fun j member => whole j (List.mem_cons_of_mem _ member))
      ('\n' :: (i.statement.reverse ++ before)) rfl
    have nonempty : i.statement ≠ [] := by
      intro none
      cases (List.append_eq_nil_iff.1 none).1
    have shape : importLines (i :: imports) = i.statement ++ (['\n'] ++ importLines imports) := by
      unfold importLines
      rw [List.flatMap_cons, List.append_assoc]
    have skipped : Avoids (Opens "import".toList) (i.statement.reverse ++ before) ['\n']
        (importLines imports) := avoids_of_letterless (by decide) (by decide)
    have read : ∀ rest, (importAt path ⟨before, (), i.statement, rest⟩).value =
        some (i.clause path (Text.lineAfter before)) := by
      intro rest
      rw [value_importAt, i.readImport_statement]
      rfl
    have line : Text.lineAfter ('\n' :: (i.statement.reverse ++ before)) =
        Text.lineAfter before + (i.statement ++ ['\n']).count '\n' := by
      unfold Text.lineAfter
      simp only [List.count_cons, List.count_append, List.count_reverse, List.count_nil]
      omega
    rw [shape, occurrencesFrom_of_read nonempty
      ((whole i List.mem_cons_self).importStatement start _),
      occurrencesFrom_of_avoids (fun _ _ _ => opens_of_importStatement) skipped,
      List.filterMap_cons_some (f := fun o => (importAt path o).value) (read _), clausesFrom,
      ← line, ← later]
    rfl

theorem exists_mem_clausesFrom (path : String) (line : Nat) {imports : List Import} {i : Import}
    (member : i ∈ imports) : ∃ own, i.clause path own ∈ clausesFrom path line imports := by
  induction imports generalizing line with
  | nil => cases member
  | cons j imports ih =>
    rcases List.mem_cons.1 member with rfl | later
    · exact ⟨line, List.mem_cons_self⟩
    · obtain ⟨own, listed⟩ := ih _ later
      exact ⟨own, List.mem_cons_of_mem _ listed⟩

/-- **When imports are read as they were written.** Imports without semicolons are, in a module at
any path: in their order, with their qualifiers, URIs, locations and lines. A semicolon in a URI or
a location ends the statement there, so that an import with one is never among those that are read.
Only the path of the module could bring a semicolon back into a location. -/
theorem importClauses_written (imports : List Import) :
    [∀ i ∈ imports, i.IsWhole,
      ∀ path, (importClauses (importLines imports) path).value = clausesFrom path 1 imports,
      ∃ path, ';' ∉ path.toList ∧
        (importClauses (importLines imports) path).value = clausesFrom path 1 imports].TFAE := by
  tfae_have 1 → 2 := by
    intro whole path
    rw [value_importClauses]
    exact filterMap_importLines path whole rfl
  tfae_have 2 → 3 := fun read => ⟨"", by decide, read ""⟩
  tfae_have 3 → 1 := by
    rintro ⟨path, inPath, read⟩ i member
    obtain ⟨line, listed⟩ := exists_mem_clausesFrom path 1 member
    rw [← read, value_importClauses, List.mem_filterMap] at listed
    obtain ⟨o, found, made⟩ := listed
    obtain ⟨uri, location⟩ := semicolon_of_importAt found made
    refine ⟨uri, fun l given semicolon => ?_⟩
    refine location inPath _ (Option.mem_map_of_mem _ given) ?_
    rw [String.toList_ofList]
    exact Location.mem_ofImport semicolon (by decide)
  tfae_finish

/-- An import whose URI has a semicolon. -/
def parted : Import where
  qualifier := "p"
  uri := "urn:a;b"
  location := none

/-- An import with a semicolon in its URI is skipped. -/
theorem parted_skipped :
    (importClauses (importLines [parted]) "/a.xqy").value = [] ∧
      clausesFrom "/a.xqy" 1 [parted] = [⟨"p", "urn:a;b", none, 1⟩] := by
  decide +kernel

end CallAtlas.Written
