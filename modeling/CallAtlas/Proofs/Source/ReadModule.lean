import CallAtlas.Proofs.QualifiedName
import CallAtlas.Proofs.Report
import CallAtlas.Proofs.Source.Balanced
import CallAtlas.Proofs.Source.Comments
import CallAtlas.Proofs.Source.Scan
import CallAtlas.Proofs.Table
import CallAtlas.Source.Module

/-!
# What a module holds that was read

Whatever the text, a module that was read names each function once by name and arity and binds each
qualifier once, its names hold no number sign and no colon, and its qualifiers are not empty. Where
the text is no longer than the largest integer that can be read back, neither is any arity in it.
These are the facts that merging and storing modules rest on.
-/

namespace CallAtlas

/-- Whether a name can be told from its arity and from a qualifier before it. -/
def IsPlainName (name : String) : Prop :=
  '#' ∉ name.toList ∧ ':' ∉ name.toList

/-- Whether an arity is short enough to be read back. -/
def IsShortArity (arity : Nat) : Prop :=
  arity < 10 ^ maxDigits

namespace FunctionDecl

/-- A function whose name, and those that it calls, are plain. -/
structure Plain (f : FunctionDecl) : Prop where
  name : IsPlainName f.name
  calls : ∀ c ∈ f.calls, IsPlainName c.name

/-- A function whose arity, and those that it calls for, are short. -/
structure Short (f : FunctionDecl) : Prop where
  arity : IsShortArity f.arity
  calls : ∀ c ∈ f.calls, IsShortArity c.arity

end FunctionDecl

namespace Source

/-! ## Names -/

theorem isPlainName_of_nameChars {name : List Char} (chars : ∀ c ∈ name, Text.isNameChar c = true) :
    IsPlainName (String.ofList name) := by
  unfold IsPlainName
  rw [String.toList_ofList]
  constructor
  · intro member
    exact absurd (chars _ member) (by decide)
  · intro member
    exact absurd (chars _ member) (by decide)

theorem nameChars_functionTail {s tail rest : List Char} (h : functionTail s = some (tail, rest)) :
    ∀ c ∈ tail, Text.isNameChar c = true := by
  induction s generalizing tail with
  | nil =>
    cases h
    intro c member
    cases member
  | cons c s ih =>
    rw [functionTail] at h
    split at h
    next continues =>
      obtain ⟨read, readTail, same⟩ := Option.map_eq_some_iff.1 h
      cases same
      intro d member
      rcases List.mem_cons.1 member with rfl | later
      · unfold isFunctionChar at continues
        unfold Text.isNameChar
        simp only [Bool.or_eq_true, Bool.and_eq_true] at continues ⊢
        rcases continues with (word | hyphen) | ⟨point, -⟩
        · exact Or.inl (Or.inl word)
        · exact Or.inr hyphen
        · exact Or.inl (Or.inr point)
      · exact ih readTail d later
    next =>
      cases h
      intro c member
      cases member

theorem nameChar_of_isNameStart {c : Char} (starts : isNameStart c = true) :
    Text.isNameChar c = true := by
  unfold isNameStart at starts
  rw [Bool.or_eq_true, beq_iff_eq] at starts
  have word : Text.isWord c = true := by
    rcases starts with alpha | rfl
    · have ascii : c.toNat < 0x80 := by
        unfold Char.isAlpha Char.isUpper Char.isLower at alpha
        simp only [Bool.or_eq_true, Bool.and_eq_true, decide_eq_true_eq, ge_iff_le,
          UInt32.le_iff_toNat_le] at alpha
        change c.val.toNat < 0x80
        rcases alpha with ⟨-, high⟩ | ⟨-, high⟩
        · have : 'Z'.val.toNat = 90 := rfl
          omega
        · have : 'z'.val.toNat = 122 := rfl
          omega
      unfold Text.isWord
      rw [if_pos ascii, Char.isAlphanum, alpha]
      rfl
    · rfl
  unfold Text.isNameChar
  rw [word]
  rfl

theorem name_of_callHead {before : Option Char} {s rest : List Char} {head : CallHead}
    (h : callHead before s = some (head, rest)) : IsPlainName (String.ofList head.name) := by
  unfold callHead at h
  split at h
  next => cases h
  next =>
    obtain ⟨first, _, -, h⟩ := Scan.bind_eq_some h
    obtain ⟨more, _, -, h⟩ := Scan.bind_eq_some h
    obtain ⟨_, _, -, h⟩ := Scan.bind_eq_some h
    obtain ⟨start, _, starts, h⟩ := Scan.bind_eq_some h
    obtain ⟨tail, _, readTail, h⟩ := Scan.bind_eq_some h
    obtain ⟨arity, _, -, h⟩ := Scan.bind_eq_some h
    cases h
    refine isPlainName_of_nameChars ?_
    intro c member
    rcases List.mem_cons.1 member with rfl | later
    · unfold Scan.char at starts
      split at starts
      next => cases starts
      next =>
        split at starts
        next isStart => cases starts; exact nameChar_of_isNameStart isStart
        next => cases starts
    · exact nameChars_functionTail readTail c later

/-- The qualifier and the name in a head are names. -/
theorem names_of_headerTail {annotations s rest : List Char} {head : Header}
    (h : headerTail annotations s = some (head, rest)) :
    (head.qualifier ≠ [] ∧ ∀ c ∈ head.qualifier, Text.isNameChar c = true) ∧
      head.name ≠ [] ∧ ∀ c ∈ head.name, Text.isNameChar c = true := by
  unfold headerTail at h
  obtain ⟨_, _, -, h⟩ := Scan.bind_eq_some h
  obtain ⟨_, _, -, h⟩ := Scan.bind_eq_some h
  obtain ⟨_, _, -, h⟩ := Scan.bind_eq_some h
  obtain ⟨_, _, -, h⟩ := Scan.bind_eq_some h
  obtain ⟨_, _, -, h⟩ := Scan.bind_eq_some h
  obtain ⟨qualifier, _, readQualifier, h⟩ := Scan.bind_eq_some h
  obtain ⟨_, _, -, h⟩ := Scan.bind_eq_some h
  obtain ⟨name, _, readName, h⟩ := Scan.bind_eq_some h
  obtain ⟨_, _, -, h⟩ := Scan.bind_eq_some h
  obtain ⟨_, _, -, h⟩ := Scan.bind_eq_some h
  cases h
  exact ⟨Scan.name_eq_some readQualifier, Scan.name_eq_some readName⟩

theorem exists_headerTail_of_giveBack {s kept given rest : List Char} {head : Header}
    (h : giveBack s kept given = some (head, rest)) :
    ∃ annotations t, t <:+ kept.reverse ++ given ∧
      headerTail annotations t = some (head, rest) := by
  fun_induction giveBack s kept given with
  | case1 => cases h
  | case2 => cases h
  | case3 => cases h
  | case4 c kept given _ _ text ih =>
    rw [List.reverse_cons, List.append_assoc, List.singleton_append]
    cases tail : headerTail text (c :: given) with
    | none =>
      rw [tail] at h
      exact ih h
    | some read =>
      rw [tail] at h
      cases h
      exact ⟨text, c :: given, List.suffix_append _ _, tail⟩

/-- Whatever annotations a head has, and however it gives back the end of the last one, the rest of
it is read by one scanner. -/
theorem exists_headerTail_of_header {before : Option Char} {s rest : List Char} {head : Header}
    (h : header before s = some (head, rest)) :
    ∃ annotations t, headerTail annotations t = some (head, rest) := by
  unfold header at h
  obtain ⟨_, _, -, h⟩ := Scan.bind_eq_some h
  obtain ⟨_, _, -, h⟩ := Scan.bind_eq_some h
  obtain ⟨_, s, -, h⟩ := Scan.bind_eq_some h
  dsimp only at h
  cases tail : headerTail (s.take (s.length - (skipAnnotations none s).1.length))
      (skipAnnotations none s).1 with
  | some read =>
    rw [tail] at h
    cases h
    exact ⟨_, _, tail⟩
  | none =>
    rw [tail] at h
    cases last : (skipAnnotations none s).2 with
    | none => rw [last] at h; cases h
    | some name =>
      rw [last] at h
      obtain ⟨annotations, t, -, tail⟩ := exists_headerTail_of_giveBack h
      exact ⟨annotations, t, tail⟩

theorem name_of_header {before : Option Char} {s rest : List Char} {head : Header}
    (h : header before s = some (head, rest)) : IsPlainName (String.ofList head.name) := by
  obtain ⟨_, _, tail⟩ := exists_headerTail_of_header h
  exact isPlainName_of_nameChars (names_of_headerTail tail).2.2

/-! ## Calls -/

theorem arity_of_arityOf {head : CallHead} {rest : List Char} {arity : Nat}
    (short : rest.length < 10 ^ maxDigits) (h : (arityOf head rest).value = .ok (some arity)) :
    IsShortArity arity := by
  unfold IsShortArity
  unfold arityOf at h
  split at h
  next digits _ =>
    split at h
    next n read =>
      cases h
      exact Numeral.readInt_lt read
    next => cases h
  next =>
    split at h
    next s opened =>
      split at h
      next inside after cut =>
        cases h
        have dropped : ('(' :: s).length ≤ rest.length :=
          opened ▸ (Text.dropBlanks_suffix rest).length_le
        have inside_lt := (length_cutParenthesis?_lt cut).1
        have counted := length_arguments_le inside
        rw [List.length_cons] at dropped
        unfold countArguments
        omega
      next => cases h
    next => cases h

theorem callSitesBy_spec {known : List String} {lineAfter : List Char → Nat} {body : List Char}
    {calls : List CallSite} (h : (callSitesBy known lineAfter body).value = .ok calls) :
    ∀ c ∈ calls, IsPlainName c.name ∧ (body.length < 10 ^ maxDigits → IsShortArity c.arity) := by
  obtain ⟨found, results, h⟩ := Checked.value_bind_eq_ok.1 h
  cases h
  intro c member
  obtain ⟨result, listed, same⟩ := List.mem_filterMap.1 member
  obtain ⟨o, occurs, atPlace⟩ := Checked.exists_of_mem_mapM results result listed
  obtain ⟨start, within, after, read⟩ := exists_read_of_mem occurs
  unfold callSiteAt at atPlace
  dsimp only at atPlace
  split at atPlace
  next =>
    obtain ⟨arity, counted, made⟩ := Checked.value_bind_eq_ok.1 atPlace
    cases made
    obtain ⟨n, rfl, rfl⟩ := Option.map_eq_some_iff.1 same
    exact ⟨name_of_callHead read, fun short => arity_of_arityOf (by omega) counted⟩
  next =>
    cases atPlace
    cases same

/-! ## Functions -/

/-- A declaration with an outline has parameters in parentheses, and a brace behind them that opens
a body whose end is found. -/
theorem outline_eq_some {content : List Char} {o : Occurrence Header} {parts : Outline}
    (h : outline content o = .ok (some parts)) :
    ∃ inside afterParameters afterBrace fromBrace,
      cutParenthesis? o.rest = some (inside, afterParameters) ∧
      readParameters inside = .ok parts.parameters ∧
      afterBrace <:+ afterParameters ∧ fromBodyEnd? 1 afterBrace = some fromBrace ∧
      parts.body = afterBrace.take (afterBrace.length - fromBrace.length) ∧
      parts.bodyOffset = content.length - afterBrace.length ∧
      parts.endOffset = content.length - (fromBrace.dropWhile (· != ';')).length := by
  unfold outline at h
  dsimp only at h
  split at h
  next => cases h
  next inside afterParameters cut =>
    cases read : readParameters inside with
    | error e => rw [read] at h; cases h
    | ok parameters =>
      cases found : afterParameters.dropWhile fun c => c != '{' && c != ';' with
      | nil => rw [read, found] at h; cases h
      | cons c afterBrace =>
        rw [read, found] at h
        change (if c == ';' then _ else _) = _ at h
        have suffix : c :: afterBrace <:+ afterParameters := found ▸ List.dropWhile_suffix _
        split at h
        next => cases h
        next =>
          split at h
          next => cases h
          next fromBrace ends =>
            cases h
            exact ⟨inside, afterParameters, afterBrace, fromBrace, cut, read,
              (List.suffix_cons c afterBrace).trans suffix, ends, rfl, rfl, rfl⟩

/-- The parameters and the body of a declaration are no longer than what follows its head. -/
theorem length_outline {content : List Char} {o : Occurrence Header} {parts : Outline}
    (h : outline content o = .ok (some parts)) :
    parts.parameters.length ≤ o.rest.length ∧ parts.body.length ≤ o.rest.length := by
  obtain ⟨inside, afterParameters, afterBrace, fromBrace, cut, read, suffix, -, body, -⟩ :=
    outline_eq_some h
  obtain ⟨inside_lt, after_lt⟩ := length_cutParenthesis?_lt cut
  have counted := length_arguments_le inside
  have same := length_of_mapM_eq_ok read
  have shorter := suffix.length_le
  rw [body, List.length_take]
  omega

/-- The offset at which a declaration ends is that of a semicolon in what follows its head. -/
theorem exists_semicolon_of_outline {content : List Char} {o : Occurrence Header} {parts : Outline}
    (h : outline content o = .ok (some parts)) :
    ∃ front after, o.rest = front ++ ';' :: after ∧
      parts.endOffset = content.length - (after.length + 1) := by
  obtain ⟨inside, afterParameters, afterBrace, fromBrace, cut, -, suffix, ends, -, -, offset⟩ :=
    outline_eq_some h
  obtain ⟨after, semicolon⟩ := exists_semicolon_of_fromBodyEnd? ends
  have inBrace : ';' :: after <:+ fromBrace := semicolon ▸ List.dropWhile_suffix _
  obtain ⟨front, same⟩ := ((inBrace.trans (fromBodyEnd?_suffix ends).1).trans suffix).trans
    (cutParenthesis?_suffix cut)
  rw [semicolon, List.length_cons] at offset
  exact ⟨front, after, same.symm, offset⟩

theorem functionOf_spec {known : List String} {content : List Char} {o : Occurrence Header}
    {parts : Outline} {f : FunctionDecl} (occurs : o ∈ occurrences header content)
    (outlined : outline content o = .ok (some parts))
    (h : (functionOf known content o parts).value = .ok f) :
    f.Plain ∧ (content.length < 10 ^ maxDigits → f.Short) := by
  obtain ⟨start, within, after, read⟩ := exists_read_of_mem occurs
  obtain ⟨parameters, body⟩ := length_outline outlined
  obtain ⟨calls, found, h⟩ := Checked.value_bind_eq_ok.1 h
  have sites := callSitesBy_spec found
  cases h
  refine ⟨⟨name_of_header read, fun c member => (sites c member).1⟩, ?_⟩
  intro short
  refine ⟨?_, fun c member => (sites c member).2 (by omega)⟩
  change parts.parameters.length < _
  omega

/-- The functions of a list of heads have names and arities of their own, which none seen before
has, and each is what one of the heads declares. -/
theorem declarationsFrom_spec {known : List String} {content : List Char} {path : String}
    {start : Nat} {seen : List String} {heads : List (Occurrence Header)} {fs : List FunctionDecl}
    (h : (declarationsFrom known content path start seen heads).value = .ok fs) :
    (fs.map FunctionDecl.qualifiedName).Nodup ∧ ∀ f ∈ fs, f.qualifiedName ∉ seen ∧
      ∃ o ∈ heads, ∃ parts, outline content o = .ok (some parts) ∧
        (functionOf known content o parts).value = .ok f := by
  induction heads generalizing start seen fs with
  | nil =>
    cases h
    refine ⟨List.nodup_nil, ?_⟩
    intro f member
    cases member
  | cons o heads ih =>
    have later : ∀ {start' : Nat} {gs : List FunctionDecl},
        (declarationsFrom known content path start' seen heads).value = .ok gs →
        (gs.map FunctionDecl.qualifiedName).Nodup ∧ ∀ f ∈ gs, f.qualifiedName ∉ seen ∧
          ∃ o' ∈ o :: heads, ∃ parts, outline content o' = .ok (some parts) ∧
            (functionOf known content o' parts).value = .ok f := by
      intro start' gs rest
      obtain ⟨nodup, each⟩ := ih rest
      refine ⟨nodup, ?_⟩
      intro f member
      obtain ⟨fresh, o', listed, found⟩ := each f member
      exact ⟨fresh, o', List.mem_cons_of_mem _ listed, found⟩
    rw [declarationsFrom] at h
    split at h
    next => exact later h
    next =>
      dsimp only at h
      split at h
      next fault _ =>
        obtain ⟨_, -, rest⟩ := Checked.value_bind_eq_ok.1 h
        exact later rest
      next =>
        obtain ⟨_, -, rest⟩ := Checked.value_bind_eq_ok.1 h
        exact later rest
      next parts outlined =>
        obtain ⟨f, made, h⟩ := Checked.value_bind_eq_ok.1 h
        split at h
        next =>
          obtain ⟨_, -, rest⟩ := Checked.value_bind_eq_ok.1 h
          exact later rest
        next unseen =>
          obtain ⟨gs, rest, h⟩ := Checked.value_bind_eq_ok.1 h
          cases h
          rw [List.contains_iff_mem] at unseen
          obtain ⟨nodup, each⟩ := ih rest
          constructor
          · rw [List.map_cons, List.nodup_cons]
            refine ⟨?_, nodup⟩
            intro again
            obtain ⟨g, member, same⟩ := List.mem_map.1 again
            exact (each g member).1 (same ▸ List.mem_cons_self)
          · intro g member
            rcases List.mem_cons.1 member with rfl | member
            · exact ⟨unseen, o, List.mem_cons_self, parts, outlined, made⟩
            · obtain ⟨fresh, o', listed, found⟩ := each g member
              exact ⟨fun held => fresh (List.mem_cons_of_mem _ held), o',
                List.mem_cons_of_mem _ listed, found⟩

/-! ## Qualifiers -/

theorem nonempty_of_ne_nil {name : List Char} (nonempty : name ≠ []) : String.ofList name ≠ "" := by
  intro same
  have lists := congrArg String.toList same
  rw [String.toList_ofList] at lists
  exact nonempty lists

theorem mainQualifier_ne_empty (path : String) : Naming.mainQualifier path ≠ "" := by
  unfold Naming.mainQualifier
  refine nonempty_of_ne_nil (List.append_ne_nil_of_left_ne_nil ?_ _)
  exact List.append_ne_nil_of_right_ne_nil _ (List.cons_ne_nil '-' [])

theorem qualifier_of_naming (s : List Char) (path : String) :
    (naming s path).value.qualifier ≠ "" := by
  unfold naming
  split
  next o os found =>
    have listed : o ∈ ownNamings s := found ▸ List.mem_cons_self
    obtain ⟨start, -, -, read⟩ := exists_read_of_mem (List.mem_filter.1 listed).1
    unfold namingClause at read
    obtain ⟨_, _, -, read⟩ := Scan.bind_eq_some read
    obtain ⟨_, _, -, read⟩ := Scan.bind_eq_some read
    obtain ⟨_, _, -, read⟩ := Scan.bind_eq_some read
    obtain ⟨_, _, -, read⟩ := Scan.bind_eq_some read
    obtain ⟨_, _, -, read⟩ := Scan.bind_eq_some read
    obtain ⟨_, _, -, read⟩ := Scan.bind_eq_some read
    obtain ⟨qualifier, _, named, read⟩ := Scan.bind_eq_some read
    obtain ⟨_, _, -, read⟩ := Scan.bind_eq_some read
    obtain ⟨_, _, -, read⟩ := Scan.bind_eq_some read
    obtain ⟨_, _, -, read⟩ := Scan.bind_eq_some read
    obtain ⟨_, _, -, read⟩ := Scan.bind_eq_some read
    obtain ⟨quote, _, -, read⟩ := Scan.bind_eq_some read
    obtain ⟨uri, _, -, read⟩ := Scan.bind_eq_some read
    change String.ofList o.value.1 ≠ ""
    rw [show o.value = (qualifier, uri) from congrArg Prod.fst (Option.some.inj read).symm]
    exact nonempty_of_ne_nil (Scan.name_eq_some named).1
  next => exact mainQualifier_ne_empty path

theorem uri_of_naming (s : List Char) (path : String)
    (main : (naming s path).value.isMain = true) :
    Naming.mainScheme.toList.isPrefixOf (naming s path).value.uri.toList = true := by
  unfold naming at main ⊢
  split at main
  next => cases main
  next =>
    change Naming.mainScheme.toList.isPrefixOf (Naming.mainScheme ++ path).toList = true
    rw [String.toList_append, List.isPrefixOf_iff_prefix]
    exact List.prefix_append _ _

theorem qualifier_of_importBinding {s rest qualifier uri : List Char}
    (h : importBinding s = some ((qualifier, uri), rest)) : qualifier ≠ [] := by
  unfold importBinding at h
  obtain ⟨_, _, -, h⟩ := Scan.bind_eq_some h
  obtain ⟨_, _, -, h⟩ := Scan.bind_eq_some h
  obtain ⟨_, _, -, h⟩ := Scan.bind_eq_some h
  obtain ⟨_, _, -, h⟩ := Scan.bind_eq_some h
  obtain ⟨_, _, -, h⟩ := Scan.bind_eq_some h
  obtain ⟨_, _, -, h⟩ := Scan.bind_eq_some h
  obtain ⟨name, _, named, h⟩ := Scan.bind_eq_some h
  obtain ⟨_, _, -, h⟩ := Scan.bind_eq_some h
  obtain ⟨_, _, -, h⟩ := Scan.bind_eq_some h
  obtain ⟨_, _, -, h⟩ := Scan.bind_eq_some h
  obtain ⟨_, _, -, h⟩ := Scan.bind_eq_some h
  obtain ⟨_, _, -, h⟩ := Scan.bind_eq_some h
  obtain ⟨_, _, -, h⟩ := Scan.bind_eq_some h
  cases h
  exact (Scan.name_eq_some named).1

theorem qualifier_of_readImport {path : String} {line : Nat} {statement : List Char}
    {clause : ImportClause} (h : readImport path line statement = .ok clause) :
    clause.qualifier ≠ "" := by
  unfold readImport at h
  split at h
  next => cases h
  next qualifier uri rest bound =>
    have nonempty := nonempty_of_ne_nil (qualifier_of_importBinding bound)
    dsimp only at h
    split at h
    next => cases h; exact nonempty
    next =>
      split at h
      next => cases h
      next => cases h; exact nonempty

theorem qualifier_of_importClauses (s : List Char) (path : String) :
    ∀ clause ∈ (importClauses s path).value, clause.qualifier ≠ "" := by
  intro clause member
  unfold importClauses at member
  rw [Report.value_bind, Report.value_mapM, Report.value_pure, List.mem_filterMap] at member
  obtain ⟨found, listed, same⟩ := member
  obtain ⟨o, -, rfl⟩ := List.mem_map.1 listed
  unfold importAt at same
  dsimp only at same
  split at same
  next clause' read =>
    cases same
    exact qualifier_of_readImport read
  next => cases same

/-- Clauses are filed under their qualifiers. -/
theorem filed_clauses {table : Table String ImportClause} (clauses : List ImportClause)
    (nodup : table.keys.Nodup)
    (held : ∀ entry ∈ table.entries, entry.1 = entry.2.qualifier ∧ entry.1 ≠ "")
    (nonempty : ∀ clause ∈ clauses, clause.qualifier ≠ "") :
    let filed := clauses.foldl (fun table clause => table.put clause.qualifier clause) table
    filed.keys.Nodup ∧ ∀ entry ∈ filed.entries, entry.1 = entry.2.qualifier ∧ entry.1 ≠ "" := by
  induction clauses generalizing table with
  | nil => exact ⟨nodup, held⟩
  | cons clause clauses ih =>
    refine ih (Table.nodup_keys_put nodup _ _) ?_
      fun clause member => nonempty clause (List.mem_cons_of_mem _ member)
    rintro ⟨key, value⟩ member
    rw [Table.mem_entries_iff_get? (Table.nodup_keys_put nodup _ _), Table.get?_put] at member
    split at member
    next same =>
      cases member
      exact ⟨same, same ▸ nonempty clause List.mem_cons_self⟩
    next => exact held _ (Table.mem_entries_of_get? member)

end Source

namespace ParsedModule

/-- What holds of every module that was read. -/
structure Sound (m : ParsedModule) : Prop where
  qualifier : m.naming.qualifier ≠ ""
  /-- Main modules are told by the scheme of their URIs. -/
  main : m.naming.isMain = true → Naming.mainScheme.toList.isPrefixOf m.naming.uri.toList = true
  imports : m.imports.keys.Nodup
  held : ∀ entry ∈ m.imports.entries, entry.1 = entry.2.qualifier ∧ entry.1 ≠ ""
  functions : (m.functions.map FunctionDecl.qualifiedName).Nodup
  plain : ∀ f ∈ m.functions, f.Plain

end ParsedModule

/-- A module that was read has the path it was read for, and its names are plain and told apart.
Where the text is no longer than numerals reach, neither is any arity in it. -/
theorem Source.readModule_spec {text path : String} {m : ParsedModule}
    (h : (readModule text path).value = .ok m) :
    m.path = path ∧ m.Sound ∧ (text.length < 10 ^ maxDigits → ∀ f ∈ m.functions, f.Short) := by
  unfold readModule at h
  dsimp only at h
  obtain ⟨named, naming_eq, h⟩ := Checked.value_bind_eq_ok.1 h
  obtain ⟨clauses, clauses_eq, h⟩ := Checked.value_bind_eq_ok.1 h
  obtain ⟨functions, declared, h⟩ := Checked.value_bind_eq_ok.1 h
  cases naming_eq
  cases clauses_eq
  cases h
  obtain ⟨nodup, each⟩ := declarationsFrom_spec declared
  have sound : ∀ f ∈ functions, f.Plain ∧
      ((stripComments text.toList).length < 10 ^ maxDigits → f.Short) := by
    intro f member
    obtain ⟨-, o, occurs, parts, outlined, made⟩ := each f member
    exact functionOf_spec occurs outlined made
  have empty : (Table.empty : Table String ImportClause).keys.Nodup := List.nodup_nil
  obtain ⟨imports, held⟩ := filed_clauses (importClauses (stripComments text.toList) path).value
    empty (fun _ member => nomatch member)
    (qualifier_of_importClauses (stripComments text.toList) path)
  refine ⟨rfl, ⟨qualifier_of_naming _ _, uri_of_naming _ _, imports, held, nodup,
    fun f member => (sound f member).1⟩, ?_⟩
  intro short f member
  refine (sound f member).2 ?_
  have stripped := length_stripComments_le text.toList
  rw [String.length_toList] at stripped
  omega

end CallAtlas
