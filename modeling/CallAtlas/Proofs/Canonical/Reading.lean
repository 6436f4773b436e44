import CallAtlas.Proofs.Canonical.Functions
import CallAtlas.Proofs.Table
import CallAtlas.Registry.Merge

/-!
# Reading canonical modules

The text of a canonical module is read without an error, and what is read is the module: no comment
is taken out of it, its name, imports and functions are those that were written, and so are the
calls in its functions.
-/

namespace CallAtlas.Canonical

open Source

/-! ## No comments -/

theorem stripComments_of_isUncommented {s : List Char} (uncommented : IsUncommented s) :
    stripComments s = s := by
  fun_induction stripComments s with
  | case1 => rfl
  | case2 s rest closes shorter ih => exact absurd (List.isChain_cons_cons.1 uncommented).1 (by decide)
  | case3 s opens ih => exact absurd (List.isChain_cons_cons.1 uncommented).1 (by decide)
  | case4 c s _ ih => rw [ih uncommented.tail]

theorem IsUncommented.append_of_last {s t : List Char} (first : IsUncommented s)
    (second : IsUncommented t) (last : s.getLast? ≠ some '(') : IsUncommented (s ++ t) := by
  refine List.isChain_append.2 ⟨first, second, ?_⟩
  intro c final d _ starts
  rw [starts.1] at final
  exact last final

theorem isUncommented_of_isName {s : List Char} (name : isName s = true) : IsUncommented s :=
  isUncommented_of_not_mem_paren (not_mem_of_isName name (by decide))

theorem isUncommented_statement {m : Module} (qualifier : isQualifier m.qualifier.toList = true)
    (uri : IsAddress m.uri.toList) : IsUncommented m.statement := by
  have word : IsUncommented "module namespace ".toList := by decide
  have equals : IsUncommented " = \"".toList := by decide
  have ending : IsUncommented "\";".toList := by decide
  have name := isUncommented_of_isName (isName_of_isQualifier qualifier)
  have address := uri.comment.append ending (by decide)
  have value := equals.append_of_last address (by decide)
  exact word.append_of_last (name.append value (head?_cons_ne (by decide))) (by decide)

theorem Import.Fits.isUncommented {i : Import} {paths : List String} (fits : i.Fits paths) :
    IsUncommented i.statement := by
  have word : IsUncommented "import module namespace ".toList := by decide
  have equals : IsUncommented " = \"".toList := by decide
  have place : IsUncommented "\" at \"".toList := by decide
  have ending : IsUncommented "\";".toList := by decide
  have name := isUncommented_of_isName (isName_of_isQualifier fits.qualifier)
  have path := place.append_of_last (fits.path.comment.append ending (by decide)) (by decide)
  have value := equals.append_of_last (fits.uri.comment.append path (head?_cons_ne (by decide)))
    (by decide)
  exact word.append_of_last (name.append value (head?_cons_ne (by decide))) (by decide)

theorem Definition.Fits.isUncommented {known : List String} {f : Definition} {qualifier : String}
    (fits : f.Fits known) (grammar : isQualifier qualifier.toList = true) :
    IsUncommented (f.head qualifier ++ f.tail) := by
  have word : IsUncommented "declare function ".toList := by decide
  have opened : IsUncommented ['('] := by decide
  have between : IsUncommented ") \x7b ".toList := by decide
  have ending : IsUncommented " \x7d;".toList := by decide
  have name : IsUncommented (qualifier.toList ++ ':' :: f.name.toList) := by
    refine isUncommented_of_not_mem_paren ?_
    rw [List.mem_append, List.mem_cons]
    rintro (inside | same | inside)
    · exact not_mem_of_isName (isName_of_isQualifier grammar) (by decide) inside
    · cases same
    · exact not_mem_of_isName (isName_of_isFunctionName fits.name) (by decide) inside
  have heads : ∀ x ∈ f.parameters.map (fun x => '$' :: x.toList), ∃ c s, x = c :: s ∧ c ≠ ':' := by
    intro s member
    obtain ⟨x, -, rfl⟩ := List.mem_map.1 member
    exact ⟨'$', x.toList, rfl, by decide⟩
  have parameters : IsUncommented (separated (f.parameters.map fun x => '$' :: x.toList)) := by
    refine isUncommented_separated ?_ heads
    intro s member
    obtain ⟨x, own, rfl⟩ := List.mem_map.1 member
    refine isUncommented_of_not_mem_paren ?_
    rw [List.mem_cons, not_or]
    exact ⟨by decide, not_mem_of_isName (fits.parameters x own) (by decide)⟩
  have body := between.append_of_last (fits.body.uncommented.append ending (by decide)) (by decide)
  have tail : IsUncommented f.tail := parameters.append body (head?_cons_ne (by decide))
  have regrouped : f.head qualifier ++ f.tail =
      "declare function ".toList ++ ((qualifier.toList ++ ':' :: f.name.toList) ++ (['('] ++ f.tail)) := by
    unfold Definition.head
    simp only [List.append_assoc, List.cons_append]
  rw [regrouped]
  refine word.append_of_last (name.append (opened.append tail ?_) (head?_cons_ne (by decide)))
    (by decide)
  exact head?_separated_append heads (head?_cons_ne (by decide))

theorem isUncommented_lines {α : Type} {text : α → List Char} {xs : List α}
    (each : ∀ x ∈ xs, IsUncommented (text x)) :
    IsUncommented (xs.flatMap fun x => text x ++ ['\n']) := by
  induction xs with
  | nil => exact List.isChain_nil
  | cons x xs ih =>
    have line : IsUncommented ['\n'] := by decide
    have first := (each x List.mem_cons_self).append line (by decide)
    have later := ih fun y member => each y (List.mem_cons_of_mem _ member)
    rw [List.flatMap_cons]
    refine first.append_of_last later ?_
    rw [List.getLast?_concat]
    decide

/-- Lines end with the end of a line. -/
theorem getLast?_lines {α : Type} {text : α → List Char} {xs : List α} {s : List Char}
    (ends : s.getLast? = some '\n') :
    (s ++ xs.flatMap fun x => text x ++ ['\n']).getLast? = some '\n' := by
  induction xs generalizing s with
  | nil =>
    rw [List.flatMap_nil, List.append_nil]
    exact ends
  | cons x xs ih =>
    have line : (s ++ (text x ++ ['\n'])).getLast? = some '\n' := by
      rw [← List.append_assoc, List.getLast?_concat]
    rw [List.flatMap_cons, ← List.append_assoc]
    exact ih line

/-- No comment starts in the text of a module. -/
theorem Module.Fits.isUncommented {scheme : VendorScheme} {paths : List String} {m : Module}
    (fits : m.Fits scheme paths) : IsUncommented m.render := by
  have line : IsUncommented ['\n'] := by decide
  have opening := isUncommented_statement fits.qualifier fits.uri
  have imports : IsUncommented (renderImports m.imports) :=
    isUncommented_lines fun i member => (fits.imports i member).isUncommented
  have functions : IsUncommented (renderFunctions m.qualifier m.functions) := by
    have lines := isUncommented_lines fun f member =>
      (fits.functions f member).isUncommented fits.qualifier
    simp only [List.append_assoc] at lines
    exact lines
  have statements : IsUncommented
      (renderImports m.imports ++ renderFunctions m.qualifier m.functions) := by
    refine imports.append functions ?_
    cases m.functions with
    | nil => exact fun absent => nomatch absent
    | cons f fs => exact head?_cons_ne (by decide)
  exact opening.append (line.append_of_last statements (by decide)) (head?_cons_ne (by decide))

/-! ## Whole modules -/

/-- The import of a module as a registry knows it. -/
def Module.importEntries (m : Module) : List ImportEntry :=
  m.imports.map fun i => ⟨m.path, i.qualifier, i.uri, some i.path⟩

/-- A module that was read is the one that was written. -/
structure Reads (parsed : ParsedModule) (m : Module) : Prop where
  entry : parsed.entry = m.entry
  imports : parsed.importEntries = m.importEntries
  functions : List.Forall₂ Declares parsed.functions m.functions

theorem nodup_qualifiedName {functions : List Definition}
    (signatures : (functions.map fun f => (f.name, f.parameters.length)).Nodup) :
    (functions.map Definition.qualifiedName).Nodup := by
  have spelled : functions.map Definition.qualifiedName =
      (functions.map fun f => (f.name, f.parameters.length)).map fun signature =>
        qualify signature.1 (some (Int.ofNat signature.2)) := by
    rw [List.map_map]
    rfl
  rw [spelled]
  refine signatures.map ?_
  intro a b same
  obtain ⟨name, arity⟩ := qualify_injective same
  exact Prod.ext name (Int.ofNat.inj arity)

/-- No function is read from imports. -/
theorem avoids_renderImports {imports : List Import} {paths : List String}
    (fits : ∀ i ∈ imports, i.Fits paths) {before rest : List Char} :
    Avoids (Opens "declare".toList) before (renderImports imports) rest := by
  induction imports generalizing before with
  | nil => trivial
  | cons i imports ih =>
    have later : ∀ {before}, Avoids (Opens "declare".toList) before (renderImports imports) rest :=
      ih fun j member => fits j (List.mem_cons_of_mem _ member)
    have first : Avoids (Opens "declare".toList) before (i.statement ++ ['\n'])
        (renderImports imports ++ rest) :=
      (avoids_import (fits i List.mem_cons_self)).append
        (avoids_of_letterless (by decide) (by decide))
    exact first.append later

/-- The functions read from a module are those of the module. -/
theorem declarations_render {scheme : VendorScheme} {paths : List String} {m : Module}
    (fits : m.Fits scheme paths) (path : String) :
    ∃ ds, (declarations m.known m.render path).value = .ok ds ∧
      List.Forall₂ Declares ds m.functions := by
  have shape : m.render = (m.statement ++ (['\n'] ++ renderImports m.imports)) ++
      renderFunctions m.qualifier m.functions := by
    unfold Module.render
    simp only [List.append_assoc, List.singleton_append]
    rfl
  have opening : Avoids (Opens "declare".toList) []
      (m.statement ++ (['\n'] ++ renderImports m.imports))
      (renderFunctions m.qualifier m.functions) :=
    (avoids_statement (by decide) fits.qualifier fits.uri).append
      ((avoids_of_letterless (by decide) (by decide)).append (avoids_renderImports fits.imports))
  have split : m.render = ((m.statement ++ (['\n'] ++ renderImports m.imports)).reverse ++
      []).reverse ++ renderFunctions m.qualifier m.functions := by
    rw [List.append_nil, List.reverse_reverse]
    exact shape
  have start : ((m.statement ++ (['\n'] ++ renderImports m.imports)).reverse ++
      []).head?.any Text.isWord = false := by
    have ends : ((m.statement ++ ['\n']) ++ renderImports m.imports).getLast? = some '\n' :=
      getLast?_lines List.getLast?_concat
    rw [List.append_assoc] at ends
    rw [List.append_nil, List.head?_reverse, ends]
    decide
  unfold declarations
  have found : occurrences header m.render = occurrencesFrom header
      ((m.statement ++ (['\n'] ++ renderImports m.imports)).reverse ++ [])
      (renderFunctions m.qualifier m.functions) := by
    unfold occurrences
    rw [shape]
    exact occurrencesFrom_of_avoids (fun _ _ _ => opens_of_header) opening
  rw [found]
  exact declarationsFrom_renderFunctions fits.qualifier path fits.functions
    (nodup_qualifiedName fits.signatures) split start (Nat.zero_le _) (fun f _ absent => nomatch absent)

/-- The text of a module is read as the module. -/
theorem Module.Fits.readModule {scheme : VendorScheme} {paths : List String} {m : Module}
    (fits : m.Fits scheme paths) (absolute : ∀ i ∈ m.imports, i.path.toList.head? = some '/') :
    ∃ parsed, (readModule (String.ofList m.render) m.path).value = .ok parsed ∧ Reads parsed m := by
  have stripped : stripComments (String.ofList m.render).toList = m.render := by
    rw [String.toList_ofList]
    exact stripComments_of_isUncommented fits.isUncommented
  have named : (naming m.render m.path).value = ⟨m.qualifier, m.uri, false⟩ :=
    naming_render fits.qualifier fits.uri _ m.path
  have imported := importClauses_render fits absolute m.path
  obtain ⟨ds, declared, declares⟩ := declarations_render fits m.path
  generalize read : (importClauses m.render m.path).value = clauses at imported
  have qualifiers : clauses.map ImportClause.qualifier = m.imports.map Import.qualifier := by
    have firsts := congrArg (List.map Prod.fst) imported
    rw [List.map_map, List.map_map] at firsts
    exact firsts
  have nodup : ((Table.empty : Table String ImportClause).keys ++
      clauses.map ImportClause.qualifier).Nodup := by
    rw [Table.keys_empty, List.nil_append, qualifiers]
    exact (List.nodup_cons.1 (List.nodup_cons.1 fits.known).2).2
  have table : clauses.foldl (fun table clause => table.put clause.qualifier clause) Table.empty =
      ⟨clauses.map fun clause => (clause.qualifier, clause)⟩ := by
    rw [Table.foldl_put_of_nodup nodup, Table.entries_empty, List.nil_append]
  have known : knownQualifiers ⟨m.qualifier, m.uri, false⟩
      ⟨clauses.map fun clause => (clause.qualifier, clause)⟩ = m.known := by
    unfold knownQualifiers Module.known Table.keys
    rw [List.map_map, ← qualifiers]
    rfl
  refine ⟨⟨m.path, ⟨m.qualifier, m.uri, false⟩, ⟨clauses.map fun clause => (clause.qualifier, clause)⟩,
    ds, (Text.lines m.render).length⟩, ?_, ?_, ?_, declares⟩
  · unfold Source.readModule
    rw [stripped, Checked.value_bind_of_ok (Checked.value_lift _),
      Checked.value_bind_of_ok (Checked.value_lift _), named, read, table]
    dsimp only
    rw [known, Checked.value_bind_of_ok declared, String.toList_ofList]
    rfl
  · unfold ParsedModule.entry Module.entry
    rw [declares.length_eq]
  · unfold ParsedModule.importEntries Module.importEntries Table.values
    rw [List.map_map, List.map_map]
    have entries := congrArg (List.map fun key => ImportEntry.mk m.path key.1 key.2.1 key.2.2) imported
    rw [List.map_map, List.map_map] at entries
    exact entries

end CallAtlas.Canonical
