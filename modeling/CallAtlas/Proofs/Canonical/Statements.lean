import CallAtlas.Proofs.Canonical.Trees
import CallAtlas.Proofs.Report

/-!
# Reading the statements of a module

A statement is read as what it was written for, and between the statements of one kind nothing else
is read: the scanners start in no name, no address, no tree and no statement of another kind.
-/

namespace CallAtlas.Canonical

open Source

/-! ## Parts of statements without a start -/

theorem isCalm_space {c : Char} {rest : List Char} (solid : Text.isBlank c = false)
    (other : startsClause c = false) : IsCalm (' ' :: c :: rest) := by
  have calm : IsCalm (c :: rest) := isCalm_cons solid other
  exact calm

section Parts

variable {word : List Char} (listed : word ∈ statementWords) {before rest : List Char}
include listed

/-- No statement starts in an address that a quote ends. -/
theorem IsAddress.avoids {s : List Char} (address : IsAddress s) :
    Avoids (Opens word) before s ('"' :: rest) :=
  avoids_of_wordless listed (fun _ => rfl) (address.words word listed) rfl

/-- No statement starts in a name before an equals sign. -/
theorem avoids_qualifier {s : List Char} (qualifier : isQualifier s = true) :
    Avoids (Opens word) before s (' ' :: '=' :: rest) :=
  avoids_of_solid listed (solid_of_isName (isName_of_isQualifier qualifier))
    (isCalm_space (by decide) (by decide))

theorem avoids_statement {m : Module} (qualifier : isQualifier m.qualifier.toList = true)
    (uri : IsAddress m.uri.toList) : Avoids (Opens word) before m.statement rest := by
  have excluded : ∀ w ∈ statementWords, excludes w "module namespace ".toList = true := by decide
  refine (avoids_of_excludes (excluded word listed)).append ?_
  refine (avoids_qualifier listed qualifier).append ?_
  refine (avoids_of_letterless listed (by decide)).append ?_
  exact (uri.avoids listed).append (avoids_of_letterless listed (by decide))

/-- No statement starts in the parameters and the body of a function. -/
theorem Definition.Fits.avoids_tail {known : List String} {f : Definition} (fits : f.Fits known) :
    Avoids (Opens word) before f.tail rest := by
  have parameters : ∀ {before rest}, Avoids (Opens word) before
      (separated (f.parameters.map fun x => '$' :: x.toList)) (')' :: rest) := by
    intro before rest
    refine avoids_separated listed ?_ (isCalm_cons (by decide) (by decide))
    intro s member before rest calm
    obtain ⟨x, own, rfl⟩ := List.mem_map.1 member
    refine avoids_of_solid listed ?_ calm
    intro c inside
    rcases List.mem_cons.1 inside with rfl | later
    · decide
    · exact solid_of_isName (fits.parameters x own) c later
  have body : ∀ {before}, Avoids (Opens word) before f.body.render (" \x7d;".toList ++ rest) :=
    fits.body.avoids listed (isCalm_space (by decide) (by decide))
  refine parameters.append ?_
  refine (avoids_of_letterless listed (by decide)).append ?_
  exact body.append (avoids_of_letterless listed (by decide))

end Parts

theorem avoids_import {i : Import} {paths : List String} (fits : i.Fits paths)
    {before rest : List Char} : Avoids (Opens "declare".toList) before i.statement rest := by
  have listed : "declare".toList ∈ statementWords := by decide
  refine (avoids_of_excludes (by decide)).append ?_
  refine (avoids_qualifier listed fits.qualifier).append ?_
  refine (avoids_of_letterless listed (by decide)).append ?_
  refine (fits.uri.avoids listed).append ?_
  refine (avoids_of_excludes (by decide)).append ?_
  exact (fits.path.avoids listed).append (avoids_of_letterless listed (by decide))

theorem avoids_head {qualifier : String} {f : Definition} {known : List String}
    (grammar : isQualifier qualifier.toList = true) (fits : f.Fits known) {before rest : List Char} :
    Avoids (Opens "import".toList) before (f.head qualifier) rest := by
  have listed : "import".toList ∈ statementWords := by decide
  have named : ∀ c ∈ qualifier.toList ++ ':' :: f.name.toList, Text.isBlank c = false := by
    intro c member
    rw [List.mem_append, List.mem_cons] at member
    rcases member with inside | rfl | inside
    · exact solid_of_isName (isName_of_isQualifier grammar) c inside
    · decide
    · exact solid_of_isName (isName_of_isFunctionName fits.name) c inside
  have name : ∀ {before}, Avoids (Opens "import".toList) before
      (qualifier.toList ++ ':' :: f.name.toList) ('(' :: rest) :=
    avoids_of_solid listed named (isCalm_cons (by decide) (by decide))
  have regrouped : f.head qualifier =
      "declare function ".toList ++ (qualifier.toList ++ ':' :: f.name.toList ++ ['(']) := by
    unfold Definition.head
    rw [List.append_assoc, List.cons_append]
  rw [regrouped]
  refine (avoids_of_excludes (by decide)).append ?_
  exact name.append (avoids_of_letterless listed (by decide))

/-! ## The name of a module -/

theorem name_append {s rest : List Char} (name : isName s = true)
    (stops : rest.head?.any Text.isNameChar = false) : Scan.name (s ++ rest) = some (s, rest) := by
  cases s with
  | nil => cases name
  | cons c s => exact Scan.someRun_append (isName_iff.1 name).2 stops

theorem head?_append_of_isName {s : List Char} (rest : List Char) (name : isName s = true) :
    (s ++ rest).head?.any Text.isBlank = false ∧ (s ++ rest).head?.any isQuote = false := by
  cases s with
  | nil => cases name
  | cons c s =>
    have first := (isName_iff.1 name).2 c List.mem_cons_self
    exact ⟨Text.not_blank_of_isNameChar first, (plain_of_isNameChar first).1⟩

theorem quote_of_head? {s : List Char} (other : s.head?.any isQuote = false) :
    Scan.quote s = none := by
  cases s with
  | nil => rfl
  | cons c s =>
    have isOther : ¬isQuote c = true := by
      rw [Bool.not_eq_true]
      exact other
    exact if_neg isOther

theorem untilStatementEnd_append {uri rest : List Char} (quote : '"' ∉ uri) :
    untilStatementEnd '"' (uri ++ '"' :: ';' :: rest) = some (uri, rest) := by
  induction uri with
  | nil => rfl
  | cons c uri ih =>
    rw [List.mem_cons, not_or] at quote
    have other : ¬(c == '"' && semicolonFollows (uri ++ '"' :: ';' :: rest)) = true := by
      rw [Bool.and_eq_true, beq_iff_eq]
      exact fun both => quote.1 both.1.symm
    rw [List.cons_append, untilStatementEnd, if_neg other, ih quote.2]
    rfl

/-- What binds a qualifier to a URI, as modules and imports write it. -/
def namespaceBinding (qualifier uri : List Char) : List Char :=
  "module namespace ".toList ++ (qualifier ++ (" = \"".toList ++ (uri ++ ['"'])))

theorem namespaceBinding_append (qualifier uri rest : List Char) :
    namespaceBinding qualifier uri ++ rest = "module".toList ++ ' ' :: ("namespace".toList ++ ' ' ::
      (qualifier ++ ' ' :: '=' :: ' ' :: '"' :: (uri ++ '"' :: rest))) := by
  unfold namespaceBinding
  simp only [List.append_assoc]
  rfl

theorem namingClause_append {before : Option Char} {qualifier uri : List Char}
    (start : before.any Text.isWord = false) (name : isName qualifier = true) (quote : '"' ∉ uri)
    (rest : List Char) :
    namingClause before (namespaceBinding qualifier uri ++ ';' :: rest) =
      some ((qualifier, uri), rest) := by
  have head := head?_append_of_isName
    (' ' :: '=' :: ' ' :: '"' :: (uri ++ '"' :: ';' :: rest)) name
  unfold namingClause
  rw [namespaceBinding_append, Scan.bind_of_read (Scan.wordStart_of_not_isWord start _),
    Scan.bind_of_read (Scan.keyword_append "module" _),
    Scan.bind_of_read (Scan.someBlanks_space rfl),
    Scan.bind_of_read (Scan.keyword_append "namespace" _),
    Scan.bind_of_read (Scan.someBlanks_space head.1),
    Scan.bind_of_read (Scan.discard_of_read (Scan.optional_of_none (quote_of_head? head.2))),
    Scan.bind_of_read (name_append name rfl),
    Scan.bind_of_read (Scan.discard_of_read (Scan.optional_of_none (quote_of_head? rfl))),
    Scan.bind_of_read (Scan.blanks_space rfl), Scan.bind_of_read (Scan.literal_cons '=' _),
    Scan.bind_of_read (Scan.blanks_space rfl),
    Scan.bind_of_read (show Scan.quote ('"' :: _) = some ('"', _) from rfl),
    Scan.bind_of_read (untilStatementEnd_append quote)]
  rfl

theorem statement_eq (m : Module) :
    m.statement = namespaceBinding m.qualifier.toList m.uri.toList ++ [';'] := by
  unfold Module.statement namespaceBinding
  simp only [List.append_assoc]
  rfl

/-- A module is named by its first statement. -/
theorem naming_render {m : Module} (qualifier : isQualifier m.qualifier.toList = true)
    (uri : IsAddress m.uri.toList) (rest : List Char) (path : String) :
    (naming (m.statement ++ rest) path).value = ⟨m.qualifier, m.uri, false⟩ := by
  have nonempty : m.statement ≠ [] := by
    intro none
    cases (List.append_eq_nil_iff.1 none).1
  have read : namingClause none (m.statement ++ rest) =
      some ((m.qualifier.toList, m.uri.toList), rest) := by
    rw [statement_eq, List.append_assoc]
    exact namingClause_append rfl (isName_of_isQualifier qualifier) uri.quote rest
  have found : occurrencesFrom namingClause [] (m.statement ++ rest) = _ :=
    occurrencesFrom_of_read nonempty read
  have first : (!followsImport []) = true := by decide
  unfold naming ownNamings occurrences
  rw [found, List.filter_cons_of_pos (by exact first)]
  dsimp only
  rw [Report.value_pure, String.ofList_toList, String.ofList_toList]

/-! ## Imports -/

/-- An import statement is read up to its first semicolon. -/
theorem importStatement_append {before : Option Char} {gap clause : List Char}
    (start : before.any Text.isWord = false) (nonempty : gap ≠ [])
    (blank : ∀ c ∈ gap, Text.isBlank c = true) (stops : clause.head?.any Text.isWord = false)
    (semicolon : ';' ∉ clause) (rest : List Char) :
    importStatement before
        ("import".toList ++ (gap ++ ("module".toList ++ (clause ++ ';' :: rest)))) =
      some ((), rest) := by
  have within : ∀ c ∈ clause, (c != ';') = true := by
    intro c member
    rw [bne_iff_ne]
    rintro rfl
    exact semicolon member
  have ended : Scan.wordEnd (clause ++ ';' :: rest) = some ((), clause ++ ';' :: rest) := by
    have stops : ¬(clause ++ ';' :: rest).head?.any Text.isWord = true := by
      cases clause with
      | nil => exact Bool.false_ne_true
      | cons c clause => simpa using stops
    unfold Scan.wordEnd
    rw [if_neg stops]
  have run : Scan.run (· != ';') (clause ++ ';' :: rest) = some (clause, ';' :: rest) :=
    Scan.run_append within rfl
  unfold importStatement
  rw [Scan.bind_of_read (Scan.wordStart_of_not_isWord start _),
    Scan.bind_of_read (Scan.keyword_append "import" _),
    Scan.bind_of_read (Scan.someBlanks_append nonempty blank rfl),
    Scan.bind_of_read (Scan.keyword_append "module" _), Scan.bind_of_read ended,
    Scan.bind_of_read (Scan.discard_of_read run)]
  exact Scan.literal_cons ';' rest

/-- The binding of an import is read up to the quote that closes its URI. -/
theorem importBinding_append {gap qualifier uri : List Char} (nonempty : gap ≠ [])
    (blank : ∀ c ∈ gap, Text.isBlank c = true) (name : isName qualifier = true) (quote : '"' ∉ uri)
    (rest : List Char) :
    importBinding ("import".toList ++ (gap ++ (namespaceBinding qualifier uri ++ rest))) =
      some ((qualifier, uri), rest) := by
  have closed : ∀ c ∈ uri, (c != '"') = true := by
    intro c member
    rw [bne_iff_ne]
    rintro rfl
    exact quote member
  unfold importBinding
  rw [namespaceBinding_append, Scan.bind_of_read (Scan.keyword_append "import" _),
    Scan.bind_of_read (Scan.someBlanks_append nonempty blank rfl),
    Scan.bind_of_read (Scan.keyword_append "module" _),
    Scan.bind_of_read (Scan.someBlanks_space rfl),
    Scan.bind_of_read (Scan.keyword_append "namespace" _),
    Scan.bind_of_read (Scan.someBlanks_space (head?_append_of_isName _ name).1),
    Scan.bind_of_read (name_append name rfl), Scan.bind_of_read (Scan.blanks_space rfl),
    Scan.bind_of_read (Scan.literal_cons '=' _), Scan.bind_of_read (Scan.blanks_space rfl),
    Scan.bind_of_read (show Scan.quote ('"' :: _) = some ('"', _) from rfl),
    Scan.bind_of_read (Scan.run_append closed rfl), Scan.bind_of_read (Scan.literal_cons '"' _)]
  rfl

/-- What an import statement says after its first two words, up to its semicolon. -/
def Import.clause (i : Import) : List Char :=
  "namespace".toList ++ ' ' :: (i.qualifier.toList ++ ' ' :: '=' :: ' ' :: '"' ::
    (i.uri.toList ++ '"' :: ' ' :: ("at".toList ++ ' ' :: '"' :: (i.path.toList ++ ['"']))))

theorem statement_append (i : Import) (rest : List Char) :
    i.statement ++ rest =
      "import".toList ++ ([' '] ++ ("module".toList ++ (' ' :: i.clause ++ ';' :: rest))) := by
  unfold Import.statement Import.clause
  simp only [List.append_assoc, List.cons_append, List.nil_append]
  rfl

section Imports

variable {i : Import} {paths : List String} (fits : i.Fits paths)
include fits

theorem Import.Fits.semicolon : ';' ∉ i.clause := by
  have name := not_mem_of_isName (isName_of_isQualifier fits.qualifier)
    (show Text.isNameChar ';' = false by decide)
  unfold Import.clause
  simp only [List.mem_append, List.mem_cons, not_or]
  exact ⟨by decide, by decide, name, by decide, by decide, by decide, by decide,
    fits.uri.semicolon, by decide, by decide, by decide, by decide, by decide,
    fits.path.semicolon, by decide⟩

theorem Import.Fits.importStatement {before : Option Char}
    (start : before.any Text.isWord = false) (rest : List Char) :
    importStatement before (i.statement ++ rest) = some ((), rest) := by
  have semicolon : ';' ∉ ' ' :: i.clause := by
    rw [List.mem_cons, not_or]
    exact ⟨by decide, fits.semicolon⟩
  rw [statement_append]
  exact importStatement_append start (by decide) (List.forall_mem_singleton.2 rfl) rfl semicolon
    rest

theorem Import.Fits.importBinding :
    importBinding i.statement = some ((i.qualifier.toList, i.uri.toList),
      ' ' :: ("at".toList ++ ' ' :: '"' :: (i.path.toList ++ ['"', ';']))) := by
  have shape : i.statement = "import".toList ++ ([' '] ++
      (namespaceBinding i.qualifier.toList i.uri.toList ++
        ' ' :: ("at".toList ++ ' ' :: '"' :: (i.path.toList ++ ['"', ';'])))) := by
    have whole := statement_append i []
    rw [List.append_nil] at whole
    rw [whole, namespaceBinding_append]
    unfold Import.clause
    simp only [List.append_assoc, List.cons_append, List.nil_append]
  rw [shape]
  exact importBinding_append (by decide) (List.forall_mem_singleton.2 rfl)
    (isName_of_isQualifier fits.qualifier) fits.uri.quote _

theorem Import.Fits.firstLocation? :
    firstLocation? ("at".toList ++ ' ' :: '"' :: (i.path.toList ++ ['"'])) =
      some i.path.toList := by
  have opened : (do Scan.keyword "at"; Scan.someBlanks; Scan.quote : Scan Char)
      ("at".toList ++ ' ' :: '"' :: (i.path.toList ++ ['"'])) =
        some ('"', i.path.toList ++ ['"']) := by
    rw [Scan.bind_of_read (Scan.keyword_append "at" _),
      Scan.bind_of_read (Scan.someBlanks_space rfl)]
    rfl
  have closed : ∀ {s : List Char}, '"' ∉ s → firstQuoted? '"' (s ++ ['"']) = some s := by
    intro s absent
    induction s with
    | nil => rfl
    | cons c s ih =>
      rw [List.mem_cons, not_or] at absent
      have other : ¬(c == '"' && ((s ++ ['"']).isEmpty || commaFollows (s ++ ['"']))) = true := by
        rw [Bool.and_eq_true, beq_iff_eq]
        exact fun both => absent.1 both.1.symm
      rw [List.cons_append, firstQuoted?, if_neg other, ih absent.2]
      rfl
  unfold Source.firstLocation?
  rw [opened]
  exact closed fits.path.quote

/-- An import statement is read as the import that it was written for. -/
theorem Import.Fits.readImport (absolute : i.path.toList.head? = some '/') (path : String)
    (line : Nat) :
    readImport path line i.statement = .ok ⟨i.qualifier, i.uri, some i.path, line⟩ := by
  have places : Text.trim (' ' :: ("at".toList ++ ' ' :: '"' ::
      (i.path.toList ++ ['"', ';']))).dropLast =
        "at".toList ++ ' ' :: '"' :: (i.path.toList ++ ['"']) := by
    have regrouped : ∀ s : List Char, ' ' :: ("at".toList ++ ' ' :: '"' :: (s ++ ['"', ';'])) =
        (' ' :: ("at".toList ++ ' ' :: '"' :: (s ++ ['"']))) ++ [';'] := by
      intro s
      simp only [List.cons_append, List.append_assoc, List.nil_append]
    have last : ("at".toList ++ ' ' :: '"' :: (i.path.toList ++ ['"'])).getLast? = some '"' := by
      rw [show "at".toList ++ ' ' :: '"' :: (i.path.toList ++ ['"']) =
        ("at".toList ++ ' ' :: '"' :: i.path.toList) ++ ['"'] from rfl, List.getLast?_concat]
    rw [regrouped, List.dropLast_concat]
    change Text.trim ("at".toList ++ ' ' :: '"' :: (i.path.toList ++ ['"'])) = _
    refine Text.trim_eq_self rfl ?_
    rw [last]
    decide
  have nonempty : ¬("at".toList ++ ' ' :: '"' :: (i.path.toList ++ ['"'])).isEmpty = true :=
    Bool.false_ne_true
  have slash : i.path.toList.contains '/' = true :=
    List.contains_iff_mem.2 (List.mem_of_mem_head? absolute)
  unfold Source.readImport
  rw [fits.importBinding]
  dsimp only
  rw [places, if_neg nonempty, fits.firstLocation?]
  dsimp only
  rw [Location.ofImport, if_pos slash, String.ofList_toList, String.ofList_toList,
    String.ofList_toList]

end Imports

/-- The imports that a text of statements declares, followed by one that declares none. -/
theorem occurrencesFrom_renderImports {imports : List Import} {paths : List String}
    (fits : ∀ i ∈ imports, i.Fits paths) {before rest : List Char}
    (start : before.head?.any Text.isWord = false) :
    ∃ os, occurrencesFrom importStatement before (renderImports imports ++ rest) =
        os ++ occurrencesFrom importStatement ((renderImports imports).reverse ++ before) rest ∧
      List.Forall₂ (fun o i => o.text = i.statement) os imports := by
  induction imports generalizing before with
  | nil => exact ⟨[], rfl, .nil⟩
  | cons i imports ih =>
    have own := fits i List.mem_cons_self
    have nonempty : i.statement ≠ [] := by
      intro none
      cases (List.append_eq_nil_iff.1 none).1
    have shape : renderImports (i :: imports) ++ rest =
        i.statement ++ (['\n'] ++ (renderImports imports ++ rest)) := by
      unfold renderImports
      rw [List.flatMap_cons, List.append_assoc, List.append_assoc]
    have reversed : (renderImports (i :: imports)).reverse ++ before =
        (renderImports imports).reverse ++ (['\n'].reverse ++ (i.statement.reverse ++ before)) := by
      unfold renderImports
      rw [List.flatMap_cons, List.reverse_append, List.reverse_append, List.append_assoc,
        List.append_assoc]
    have skipped : Avoids (Opens "import".toList) (i.statement.reverse ++ before) ['\n']
        (renderImports imports ++ rest) := avoids_of_letterless (by decide) (by decide)
    obtain ⟨os, found, same⟩ := ih (fun j member => fits j (List.mem_cons_of_mem _ member))
      (show (['\n'].reverse ++ (i.statement.reverse ++ before)).head?.any Text.isWord = false from rfl)
    refine ⟨⟨before, (), i.statement, ['\n'] ++ (renderImports imports ++ rest)⟩ :: os, ?_,
      .cons rfl same⟩
    rw [shape, occurrencesFrom_of_read nonempty (own.importStatement start _),
      occurrencesFrom_of_avoids (fun _ _ _ => opens_of_importStatement) skipped, found, reversed]
    rfl

/-- No import is read from functions. -/
theorem avoids_renderFunctions {qualifier : String} {functions : List Definition}
    {known : List String} (grammar : isQualifier qualifier.toList = true)
    (fits : ∀ f ∈ functions, f.Fits known) {before rest : List Char} :
    Avoids (Opens "import".toList) before (renderFunctions qualifier functions) rest := by
  induction functions generalizing before with
  | nil => trivial
  | cons f functions ih =>
    have own := fits f List.mem_cons_self
    have later : ∀ {before}, Avoids (Opens "import".toList) before
        (renderFunctions qualifier functions) rest :=
      ih fun g member => fits g (List.mem_cons_of_mem _ member)
    have shape : renderFunctions qualifier (f :: functions) =
        f.head qualifier ++ (f.tail ++ (['\n'] ++ renderFunctions qualifier functions)) := by
      unfold renderFunctions
      rw [List.flatMap_cons, List.append_assoc, List.append_assoc]
    rw [shape]
    refine (avoids_head grammar own).append ((own.avoids_tail (by decide)).append ?_)
    exact (avoids_of_letterless (by decide) (by decide)).append later

theorem value_mapM_importAt {imports : List Import} {paths : List String}
    (fits : ∀ i ∈ imports, i.Fits paths)
    (absolute : ∀ i ∈ imports, i.path.toList.head? = some '/') (path : String)
    {os : List (Occurrence Unit)} (texts : List.Forall₂ (fun o i => o.text = i.statement) os imports) :
    ∃ clauses : List ImportClause, (os.mapM (importAt path)).value = clauses.map some ∧
      clauses.map (fun c => (c.qualifier, c.uri, c.location)) =
        imports.map fun i => (i.qualifier, i.uri, some i.path) := by
  rw [Report.value_mapM]
  induction texts with
  | nil => exact ⟨[], rfl, rfl⟩
  | @cons o i os imports text rest ih =>
    obtain ⟨clauses, read, same⟩ := ih (fun j member => fits j (List.mem_cons_of_mem _ member))
      (fun j member => absolute j (List.mem_cons_of_mem _ member))
    have first : (importAt path o).value =
        some ⟨i.qualifier, i.uri, some i.path, Text.lineAfter o.before⟩ := by
      unfold importAt
      dsimp only
      rw [text, (fits i List.mem_cons_self).readImport (absolute i List.mem_cons_self)]
      rfl
    refine ⟨⟨i.qualifier, i.uri, some i.path, Text.lineAfter o.before⟩ :: clauses, ?_, ?_⟩
    · rw [List.map_cons, List.map_cons, read, first]
    · rw [List.map_cons, List.map_cons, same]

/-- The imports read from a module are those of the module. -/
theorem importClauses_render {m : Module} {scheme : VendorScheme} {paths : List String}
    (fits : m.Fits scheme paths) (absolute : ∀ i ∈ m.imports, i.path.toList.head? = some '/')
    (path : String) :
    (importClauses m.render path).value.map (fun c => (c.qualifier, c.uri, c.location)) =
      m.imports.map fun i => (i.qualifier, i.uri, some i.path) := by
  have opening : Avoids (Opens "import".toList) [] (m.statement ++ ['\n'])
      (renderImports m.imports ++ renderFunctions m.qualifier m.functions) :=
    (avoids_statement (by decide) fits.qualifier fits.uri).append
      (avoids_of_letterless (by decide) (by decide))
  have start : ((m.statement ++ ['\n']).reverse ++ []).head?.any Text.isWord = false := by
    rw [List.reverse_append]
    rfl
  obtain ⟨os, found, texts⟩ := occurrencesFrom_renderImports fits.imports start
  have rest : ∀ {before}, occurrencesFrom importStatement before
      (renderFunctions m.qualifier m.functions ++ []) = [] := by
    intro before
    rw [occurrencesFrom_of_avoids (fun _ _ _ => opens_of_importStatement)
      (avoids_renderFunctions fits.qualifier fits.functions), occurrencesFrom]
  have all : occurrences importStatement m.render = os := by
    have shape : m.render = (m.statement ++ ['\n']) ++
        (renderImports m.imports ++ renderFunctions m.qualifier m.functions) := by
      unfold Module.render
      rw [List.append_assoc, List.singleton_append]
    unfold occurrences
    rw [shape, occurrencesFrom_of_avoids (fun _ _ _ => opens_of_importStatement) opening, found]
    rw [List.append_nil] at rest
    rw [rest, List.append_nil]
  obtain ⟨clauses, read, same⟩ := value_mapM_importAt fits.imports absolute path texts
  unfold importClauses
  rw [all, Report.value_bind, read, Report.value_pure]
  rw [List.filterMap_map, Function.id_comp, List.filterMap_some]
  exact same

end CallAtlas.Canonical
