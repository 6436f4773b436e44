import CallAtlas.Proofs.Canonical.Statements

/-!
# Heads of declarations

The head of a declaration ends at a parenthesis, and how it is read is not decided by anything
behind that parenthesis (`header_append`). Most of its scanners stop at a parenthesis whatever
follows (`Scan.Halts`). The exception are the arguments of annotations: a text that breaks off
inside of them is read as if they were none, but then it is no head at all.
-/

namespace CallAtlas.Source

open Canonical

variable {α β : Type}

/-! ## Scanners before a parenthesis -/

namespace Scan

/-- What a scanner reads before a parenthesis does not depend on what follows that. -/
def Halts (p : Scan α) : Prop :=
  ∀ front, ∃ read : Option (α × List Char), ∀ rest,
    p (front ++ '(' :: rest) = read.map fun r => (r.1, r.2 ++ '(' :: rest)

theorem halts_pure (a : α) : (pure a : Scan α).Halts :=
  fun front => ⟨some (a, front), fun _ => rfl⟩

section Combined

variable {p q : Scan α} {f : α → Scan β}

theorem Halts.bind (first : p.Halts) (second : ∀ a, (f a).Halts) : (p >>= f).Halts := by
  intro front
  obtain ⟨read, reads⟩ := first front
  cases read with
  | none => exact ⟨none, fun rest => bind_of_none (reads rest)⟩
  | some pair =>
    obtain ⟨read, next⟩ := second pair.1 pair.2
    exact ⟨read, fun rest => (bind_of_read (reads rest)).trans (next rest)⟩

theorem Halts.orElse (first : p.Halts) (second : q.Halts) : (p <|> q).Halts := by
  intro front
  obtain ⟨read, reads⟩ := first front
  obtain ⟨other, others⟩ := second front
  refine ⟨read <|> other, fun rest => ?_⟩
  change (p _ <|> q _) = _
  rw [reads, others]
  cases read with
  | none => rfl
  | some pair => rfl

theorem Halts.map (halts : p.Halts) (g : α → β) : (g <$> p).Halts := by
  intro front
  obtain ⟨read, reads⟩ := halts front
  refine ⟨read.map fun r => (g r.1, r.2), fun rest => ?_⟩
  change (p _ >>= fun r => pure (g r.1, r.2)) = _
  rw [reads]
  cases read with
  | none => rfl
  | some pair => rfl

theorem Halts.discard (halts : p.Halts) : (discard p : Scan Unit).Halts :=
  halts.map fun _ => ()

theorem Halts.seqRight {r : Scan β} (first : p.Halts) (second : r.Halts) : (p *> r).Halts :=
  first.bind fun _ => second

theorem Halts.optional (halts : p.Halts) : (optional p).Halts :=
  (halts.map some).orElse (halts_pure none)

theorem Halts.succeeds (halts : p.Halts) : (succeeds p).Halts :=
  (halts.seqRight (halts_pure true)).orElse (halts_pure false)

end Combined

theorem halts_literal {word : List Char} (absent : '(' ∉ word) : (literal word).Halts := by
  intro front
  by_cases spelled : word <+: front
  case pos =>
    obtain ⟨more, rfl⟩ := spelled
    refine ⟨some ((), more), fun rest => ?_⟩
    rw [List.append_assoc, literal_append]
    rfl
  case neg =>
    refine ⟨none, fun rest => ?_⟩
    unfold literal
    refine if_neg fun starts => ?_
    rcases inside_or_across_of_prefix (List.isPrefixOf_iff_prefix.1 starts) with
      ⟨more, rfl⟩ | ⟨d, letter, next⟩
    · exact spelled (List.prefix_append _ _)
    · cases next
      exact absent letter

section Runs

variable {p : Char → Bool} (other : p '(' = false)
include other

theorem takeWhile_append_paren (front rest : List Char) :
    (front ++ '(' :: rest).takeWhile p = front.takeWhile p := by
  induction front with
  | nil => exact List.takeWhile_cons_of_neg (by rw [other]; exact Bool.false_ne_true)
  | cons c front ih => rw [List.cons_append, List.takeWhile_cons, List.takeWhile_cons, ih]

theorem dropWhile_append_paren (front rest : List Char) :
    (front ++ '(' :: rest).dropWhile p = front.dropWhile p ++ '(' :: rest := by
  induction front with
  | nil => exact List.dropWhile_cons_of_neg (by rw [other]; exact Bool.false_ne_true)
  | cons c front ih =>
    rw [List.cons_append, List.dropWhile_cons, List.dropWhile_cons, ih]
    split
    next => rfl
    next => rfl

theorem head?_append_paren (front rest : List Char) :
    (front ++ '(' :: rest).head?.any p = front.head?.any p := by
  cases front with
  | nil => exact other
  | cons c front => rfl

theorem halts_someRun : (someRun p).Halts := by
  intro front
  refine ⟨someRun p front, fun rest => ?_⟩
  unfold someRun
  rw [head?_append_paren other, takeWhile_append_paren other, dropWhile_append_paren other]
  split
  next => rfl
  next => rfl

end Runs

theorem halts_blanks : blanks.Halts := by
  intro front
  refine ⟨some ((), Text.dropBlanks front), fun rest => ?_⟩
  unfold blanks Text.dropBlanks
  rw [dropWhile_append_paren (by decide)]
  rfl

theorem halts_someBlanks : someBlanks.Halts := by
  intro front
  refine ⟨someBlanks front, fun rest => ?_⟩
  unfold someBlanks Text.dropBlanks
  rw [head?_append_paren (by decide), dropWhile_append_paren (by decide)]
  split
  next => rfl
  next => rfl

theorem halts_name : name.Halts :=
  halts_someRun (by decide)

theorem halts_wordStart (before : Option Char) : (wordStart before).Halts := by
  unfold wordStart
  split
  next => exact fun front => ⟨none, fun _ => rfl⟩
  next => exact halts_pure ()

end Scan

/-! ## The head behind its annotations -/

/-- Reads a head from behind its annotations up to its qualifier. -/
def headLead : Scan Bool := do
  let saysPrivate ← Scan.succeeds (Scan.keyword "private" *> Scan.someBlanks)
  discard (Scan.optional
    ((Scan.keyword "updating" <|> Scan.keyword "sequential") *> Scan.someBlanks))
  Scan.keyword "function"
  Scan.someBlanks
  return saysPrivate

/-- Reads the names in a head and the blanks behind them. -/
def headNames : Scan (List Char × List Char) := do
  let qualifier ← Scan.name
  Scan.literal [':']
  let name ← Scan.name
  Scan.blanks
  return (qualifier, name)

theorem headerTail_eq (annotations : List Char) :
    headerTail annotations = do
      let saysPrivate ← headLead
      let fromQualifier ← get
      let names ← headNames
      Scan.literal ['(']
      return ⟨annotations, saysPrivate, names.1, names.2, fromQualifier⟩ := by
  unfold headerTail headLead headNames
  simp only [bind_assoc, pure_bind]

theorem halts_headLead : headLead.Halts := by
  have word : ∀ word : String, '(' ∉ word.toList → (Scan.keyword word).Halts := fun _ absent =>
    Scan.halts_literal absent
  refine ((word "private" (by decide)).seqRight Scan.halts_someBlanks).succeeds.bind fun _ => ?_
  refine ((((word "updating" (by decide)).orElse (word "sequential" (by decide))).seqRight
    Scan.halts_someBlanks).optional.discard).bind fun _ => ?_
  refine (word "function" (by decide)).bind fun _ => ?_
  exact Scan.halts_someBlanks.bind fun _ => Scan.halts_pure _

theorem halts_headNames : headNames.Halts :=
  Scan.halts_name.bind fun _ => (Scan.halts_literal (by decide)).bind fun _ =>
    Scan.halts_name.bind fun _ => Scan.halts_blanks.bind fun _ => Scan.halts_pure _

/-- The qualifier and the name in a head are names. -/
theorem isName_of_header {before : Option Char} {s rest : List Char} {head : Header}
    (h : header before s = some (head, rest)) :
    isName head.qualifier = true ∧ isName head.name = true := by
  obtain ⟨_, _, tail⟩ := exists_headerTail_of_header h
  obtain ⟨qualifier, name⟩ := names_of_headerTail tail
  exact ⟨isName_iff.2 qualifier, isName_iff.2 name⟩

/-- A head in a text that goes on. -/
def Header.extend (h : Header) (rest : List Char) : Header :=
  { h with fromQualifier := h.fromQualifier ++ rest }

/-- What is read of a text, in a text that goes on. -/
def extendRead (rest : List Char) (read : Header × List Char) : Header × List Char :=
  (read.1.extend rest, read.2 ++ rest)

theorem literal_paren_append (front rest : List Char) :
    Scan.literal ['('] (front ++ '(' :: rest) =
      (Scan.literal ['('] (front ++ ['('])).map fun r => (r.1, r.2 ++ rest) := by
  cases front with
  | nil =>
    rw [List.nil_append, List.nil_append, Scan.literal_cons, Scan.literal_cons]
    rfl
  | cons c front =>
    have step : ∀ t, Scan.literal ['('] (c :: t) = if '(' == c then some ((), t) else none := by
      intro t
      unfold Scan.literal
      simp [List.isPrefixOf]
    rw [List.cons_append, List.cons_append, step, step]
    split
    next => simp
    next => rfl

/-- Behind a parenthesis a text may go on: the head before it is read as before. -/
theorem headerTail_append (annotations front rest : List Char) :
    headerTail annotations (front ++ '(' :: rest) =
      (headerTail annotations (front ++ ['('])).map (extendRead rest) := by
  obtain ⟨lead, leads⟩ := halts_headLead front
  rw [headerTail_eq]
  cases lead with
  | none =>
    rw [Scan.bind_of_none (leads rest), Scan.bind_of_none (leads [])]
    rfl
  | some pair =>
    obtain ⟨names, reads⟩ := halts_headNames pair.2
    have got : ∀ s : List Char, (get : Scan (List Char)) s = some (s, s) := fun _ => rfl
    rw [Scan.bind_of_read (leads rest), Scan.bind_of_read (leads []),
      Scan.bind_of_read (got _), Scan.bind_of_read (got _)]
    cases names with
    | none =>
      rw [Scan.bind_of_none (reads rest), Scan.bind_of_none (reads [])]
      rfl
    | some named =>
      rw [Scan.bind_of_read (reads rest), Scan.bind_of_read (reads [])]
      have paren := literal_paren_append named.2 rest
      cases short : Scan.literal ['('] (named.2 ++ ['(']) with
      | none =>
        rw [short] at paren
        rw [Scan.bind_of_none paren, Scan.bind_of_none short]
        rfl
      | some closed =>
        rw [short] at paren
        rw [Scan.bind_of_read paren, Scan.bind_of_read short]
        change some _ = some _
        simp [extendRead, Header.extend]

section Solid

variable {front rest : List Char} (solid : ∀ c ∈ front, Text.isBlank c = false)
include solid

/-- Without blanks before a parenthesis, a keyword there is followed by a part of the text or by the
parenthesis. -/
theorem someBlanks_of_solid (word : String) (absent : '(' ∉ word.toList)
    (read : Unit × List Char) (spells : Scan.keyword word (front ++ '(' :: rest) = some read) :
    Scan.someBlanks read.2 = none := by
  obtain ⟨_, t⟩ := read
  have spelled : word.toList ++ t = front ++ '(' :: rest := (Scan.literal_eq_some spells).symm
  rcases inside_or_across_of_prefix ⟨t, spelled⟩ with ⟨more, rfl⟩ | ⟨d, letter, next⟩
  · rw [List.append_assoc] at spelled
    obtain rfl := List.append_cancel_left spelled
    have first : more.head?.any Text.isBlank = false := by
      cases more with
      | nil => rfl
      | cons c more => exact solid c (by simp)
    unfold Scan.someBlanks
    rw [Scan.head?_append_paren (by decide), first]
    rfl
  · cases next
    exact (absent letter).elim

theorem headLead_of_solid : headLead (front ++ '(' :: rest) = none := by
  have fails : ∀ {p : Scan Unit}, (∀ read, p (front ++ '(' :: rest) = some read →
      Scan.someBlanks read.2 = none) → (p *> Scan.someBlanks) (front ++ '(' :: rest) = none := by
    intro p after
    cases read : p (front ++ '(' :: rest) with
    | none => exact Scan.bind_of_none read
    | some pair => exact (Scan.bind_of_read read).trans (after pair read)
  have noPrivate : (Scan.keyword "private" *> Scan.someBlanks) (front ++ '(' :: rest) = none :=
    fails (someBlanks_of_solid solid "private" (by decide))
  have noKind : ((Scan.keyword "updating" <|> Scan.keyword "sequential") *> Scan.someBlanks)
      (front ++ '(' :: rest) = none := by
    refine fails fun read both => ?_
    change (Scan.keyword "updating" _ <|> Scan.keyword "sequential" _) = _ at both
    cases first : Scan.keyword "updating" (front ++ '(' :: rest) with
    | none =>
      rw [first] at both
      exact someBlanks_of_solid solid "sequential" (by decide) read both
    | some pair =>
      rw [first] at both
      exact someBlanks_of_solid solid "updating" (by decide) read (first.trans both)
  unfold headLead
  rw [Scan.bind_of_read (Scan.succeeds_of_none noPrivate),
    Scan.bind_of_read (Scan.discard_of_read (Scan.optional_of_none noKind))]
  cases word : Scan.keyword "function" (front ++ '(' :: rest) with
  | none => exact Scan.bind_of_none word
  | some after =>
    rw [Scan.bind_of_read word]
    exact Scan.bind_of_none (someBlanks_of_solid solid "function" (by decide) after word)

/-- A head has blanks before its parenthesis. -/
theorem headerTail_of_solid (annotations : List Char) :
    headerTail annotations (front ++ '(' :: rest) = none := by
  rw [headerTail_eq]
  exact Scan.bind_of_none (headLead_of_solid solid)

end Solid

/-! ## Annotations -/

theorem take_append_paren (s given rest : List Char) :
    (s ++ '(' :: rest).take ((s ++ '(' :: rest).length - (given ++ '(' :: rest).length) =
      s.take (s.length - given.length) := by
  rw [List.length_append, List.length_append, Nat.add_sub_add_right]
  exact List.take_append_of_le_length (Nat.sub_le _ _)

theorem map_orElse {γ : Type} (f : β → γ) (first second : Option β) :
    (first <|> second).map f = (first.map f <|> second.map f) := by
  cases first with
  | none => rfl
  | some b => rfl

theorem giveBack_append (s kept given rest : List Char) :
    giveBack (s ++ '(' :: rest) kept (given ++ '(' :: rest) =
      (giveBack (s ++ ['(']) kept (given ++ ['('])).map (extendRead rest) := by
  induction kept generalizing given with
  | nil => rfl
  | cons c kept ih =>
    rcases kept with _ | ⟨d, _ | ⟨e, kept⟩⟩
    · rfl
    · rfl
    · have step : ∀ t, giveBack (s ++ '(' :: t) (c :: d :: e :: kept) (given ++ '(' :: t) =
          (headerTail (s.take (s.length - (c :: given).length)) (c :: given ++ '(' :: t) <|>
            giveBack (s ++ '(' :: t) (d :: e :: kept) (c :: given ++ '(' :: t)) := by
        intro t
        rw [← take_append_paren s (c :: given) t]
        rfl
      rw [step, step, map_orElse, headerTail_append, ih]

theorem not_blank_of_isAnnotationChar {c : Char} (own : isAnnotationChar c = true) :
    Text.isBlank c = false := by
  rcases Bool.or_eq_true_iff.1 own with nameChar | colon
  · exact Text.not_blank_of_isNameChar nameChar
  · rw [eq_of_beq colon]
    decide

/-- The name of an annotation is read off the start of a text, and has no blanks. -/
theorem annotationName_eq_some {s name after : List Char}
    (h : annotationName s = some (name, after)) :
    s = name ++ after ∧ name ≠ [] ∧ ∀ c ∈ name, Text.isBlank c = false := by
  unfold annotationName at h
  obtain ⟨_, t, sign, h⟩ := Scan.bind_eq_some h
  obtain ⟨chars, behind, run, made⟩ := Scan.bind_eq_some h
  cases made
  obtain ⟨-, all⟩ := Scan.someRun_eq_some run
  have whole : t = chars ++ after := by
    unfold Scan.someRun at run
    split at run
    next =>
      cases run
      exact List.takeWhile_append_dropWhile.symm
    next => cases run
  refine ⟨?_, List.cons_ne_nil _ _, List.forall_mem_cons.2 ⟨by decide, fun c member => ?_⟩⟩
  · rw [Scan.literal_eq_some sign, whole]
    rfl
  · exact not_blank_of_isAnnotationChar (all c member)

theorem halts_annotationName : annotationName.Halts :=
  (Scan.halts_literal (by decide)).bind fun _ =>
    (Scan.halts_someRun (by decide)).bind fun _ => Scan.halts_pure _

theorem leavesEnd_annotationArguments : annotationArguments.LeavesEnd := by
  intro s a rest read
  unfold annotationArguments at read
  obtain ⟨_, t, opened, read⟩ := Scan.bind_eq_some read
  have run : Scan.run (· != ')') t = some (t.takeWhile (· != ')'), t.dropWhile (· != ')')) := rfl
  rw [Scan.bind_of_read (Scan.discard_of_read run)] at read
  exact ((Scan.leavesEnd_literal _ _ _ _ read).trans (List.dropWhile_suffix _)).trans
    (Scan.leavesEnd_literal _ _ _ _ opened)

/-- What follows the name of an annotation, its arguments and blanks left out. -/
def behindName (after : List Char) : List Char :=
  match annotationArguments after with
  | some (_, rest) => Text.dropBlanks rest
  | none => Text.dropBlanks after

theorem behindName_suffix (after : List Char) : behindName after <:+ after := by
  unfold behindName
  split
  next read =>
    exact (Text.dropBlanks_suffix _).trans (leavesEnd_annotationArguments _ _ _ read)
  next => exact Text.dropBlanks_suffix after

theorem skipAnnotations_of_none {last : Option (List Char × List Char)} {s : List Char}
    (noName : annotationName s = none) : skipAnnotations last s = (s, last) := by
  rw [skipAnnotations]
  split
  next => rfl
  next name rest read =>
    rw [noName] at read
    cases read

theorem skipAnnotations_of_read {last : Option (List Char × List Char)} {s name after : List Char}
    (read : annotationName s = some (name, after)) :
    skipAnnotations last s = skipAnnotations (some (name, after)) (behindName after) := by
  have skips : (do discard (Scan.optional annotationArguments); Scan.blanks : Scan Unit) after =
      some ((), behindName after) := by
    unfold behindName
    cases arguments : annotationArguments after with
    | none => exact Scan.bind_of_read (Scan.discard_of_read (Scan.optional_of_none arguments))
    | some pair => exact Scan.bind_of_read (Scan.discard_of_read (Scan.optional_of_read arguments))
  have shorter : (behindName after).length < s.length := by
    obtain ⟨rfl, nonempty, -⟩ := annotationName_eq_some read
    have longer := List.length_pos_of_ne_nil nonempty
    have suffix := (behindName_suffix after).length_le
    rw [List.length_append]
    omega
  rw [skipAnnotations, read]
  dsimp only
  rw [skips]
  exact dif_pos shorter

theorem annotationArguments_of_head? {s : List Char} (other : s.head? ≠ some '(') :
    annotationArguments s = none := by
  refine Scan.bind_of_none ?_
  unfold Scan.literal
  refine if_neg fun starts => other ?_
  obtain ⟨more, rfl⟩ := List.isPrefixOf_iff_prefix.1 starts
  rfl

theorem annotationArguments_closed {inside : List Char} (closed : ')' ∉ inside)
    (rest : List Char) :
    annotationArguments ('(' :: (inside ++ ')' :: rest)) = some ((), rest) := by
  have within : ∀ c ∈ inside, (c != ')') = true := by
    intro c member
    rw [bne_iff_ne]
    rintro rfl
    exact closed member
  have run : Scan.run (· != ')') (inside ++ ')' :: rest) = some (inside, ')' :: rest) :=
    Scan.run_append within rfl
  unfold annotationArguments
  rw [Scan.bind_of_read (Scan.literal_cons '(' _), Scan.bind_of_read (Scan.discard_of_read run)]
  exact Scan.literal_cons ')' rest

theorem annotationArguments_unclosed {s : List Char} (unclosed : ')' ∉ s) :
    annotationArguments s = none := by
  cases read : annotationArguments s with
  | none => rfl
  | some pair =>
    unfold annotationArguments at read
    obtain ⟨_, t, opened, read⟩ := Scan.bind_eq_some read
    have run : Scan.run (· != ')') t = some (t.takeWhile (· != ')'), t.dropWhile (· != ')')) := rfl
    rw [Scan.bind_of_read (Scan.discard_of_read run)] at read
    have inRest : ')' ∈ t.dropWhile (· != ')') := Scan.literal_eq_some read ▸ List.mem_cons_self
    have inside := (List.dropWhile_suffix _).subset inRest
    exact absurd ((Scan.leavesEnd_literal _ _ _ _ opened).subset inside) unclosed

theorem dropBlanks_append_paren (front rest : List Char) :
    Text.dropBlanks (front ++ '(' :: rest) = Text.dropBlanks front ++ '(' :: rest :=
  Scan.dropWhile_append_paren (by decide) front rest

/-- The arguments of an annotation are open at a parenthesis, or what follows them does not depend
on what follows it. -/
theorem behindName_append (after : List Char) :
    (∃ inside, after ++ ['('] = '(' :: inside ∧ ')' ∉ after) ∨
      ∃ next, next.length ≤ after.length ∧
        ∀ rest, behindName (after ++ '(' :: rest) = next ++ '(' :: rest := by
  have length_dropBlanks : ∀ s : List Char, (Text.dropBlanks s).length ≤ s.length := fun s =>
    (Text.dropBlanks_suffix s).length_le
  rcases after with _ | ⟨c, inside⟩
  · exact Or.inl ⟨[], rfl, List.not_mem_nil⟩
  · by_cases opens : c = '('
    case pos =>
      rw [opens]
      by_cases closes : ')' ∈ inside
      case pos =>
        obtain ⟨arguments, next, rfl, closed⟩ := List.eq_append_cons_of_mem closes
        refine Or.inr ⟨Text.dropBlanks next, ?_, fun rest => ?_⟩
        · have := length_dropBlanks next
          simp only [List.length_cons, List.length_append]
          omega
        · have read : annotationArguments ('(' :: (arguments ++ ')' :: next) ++ '(' :: rest) =
              some ((), next ++ '(' :: rest) := by
            rw [List.cons_append, List.append_assoc]
            exact annotationArguments_closed closed _
          unfold behindName
          rw [read]
          exact dropBlanks_append_paren next rest
      case neg =>
        refine Or.inl ⟨inside ++ ['('], rfl, ?_⟩
        rw [List.mem_cons, not_or]
        exact ⟨by decide, closes⟩
    case neg =>
      refine Or.inr ⟨Text.dropBlanks (c :: inside), length_dropBlanks _, fun rest => ?_⟩
      have none : annotationArguments (c :: inside ++ '(' :: rest) = none :=
        annotationArguments_of_head? fun same => opens (Option.some.inj same)
      unfold behindName
      rw [none]
      exact dropBlanks_append_paren (c :: inside) rest

/-- A last annotation name and what follows it, up to a parenthesis and with more behind that. -/
def followed (rest : List Char) (last : Option (List Char × List Char)) :
    Option (List Char × List Char) :=
  last.map fun named => (named.1, named.2 ++ '(' :: rest)

/-- The annotations before a parenthesis are skipped whatever follows it, unless the arguments of
one of them are still open there. -/
theorem skipAnnotations_append (front : List Char) (last : Option (List Char × List Char)) :
    (∃ left behind, ∀ rest, skipAnnotations (followed rest last) (front ++ '(' :: rest) =
      (left ++ '(' :: rest, followed rest behind)) ∨
    ∃ name behind, (∀ c ∈ name, Text.isBlank c = false) ∧
      skipAnnotations (followed [] last) (front ++ ['(']) =
        ('(' :: behind, some (name, '(' :: behind)) := by
  induction length : front.length using Nat.strong_induction_on generalizing front last with
  | _ n ih =>
    obtain ⟨read, reads⟩ := halts_annotationName front
    cases read with
    | none => exact Or.inl ⟨front, last, fun rest => skipAnnotations_of_none (reads rest)⟩
    | some named =>
      obtain ⟨name, after⟩ := named
      obtain ⟨whole, nonempty, solid⟩ := annotationName_eq_some (reads [])
      have shorter : after.length < n := by
        have longer : 0 < name.length := List.length_pos_of_ne_nil nonempty
        have lengths := congrArg List.length whole
        simp only [List.length_append] at lengths
        omega
      rcases behindName_append after with ⟨inside, opened, unclosed⟩ | ⟨next, within, skips⟩
      · have noArguments : annotationArguments ('(' :: inside) = none := by
          refine annotationArguments_unclosed ?_
          rw [← opened, List.mem_append, not_or]
          exact ⟨unclosed, by decide⟩
        have stays : behindName ('(' :: inside) = '(' :: inside := by
          unfold behindName
          rw [noArguments]
          exact Text.dropBlanks_of_not_blank rfl
        have noName : annotationName ('(' :: inside) = none := Scan.bind_of_none rfl
        have read := reads []
        dsimp only [Option.map_some] at read
        rw [opened] at read
        refine Or.inr ⟨name, inside, solid, ?_⟩
        rw [skipAnnotations_of_read read, stays, skipAnnotations_of_none noName]
      · have step : ∀ rest, skipAnnotations (followed rest last) (front ++ '(' :: rest) =
            skipAnnotations (followed rest (some (name, after))) (next ++ '(' :: rest) :=
          fun rest => (skipAnnotations_of_read (reads rest)).trans (congrArg _ (skips rest))
        simp only [step]
        exact ih next.length (by omega) next (some (name, after)) rfl

/-! ## Whole heads -/

/-- Reads the word that opens a head. -/
def headWord (before : Option Char) : Scan Unit := do
  Scan.wordStart before
  Scan.keyword "declare"
  Scan.someBlanks

/-- Reads a head from its annotations on. -/
def annotatedTail : Scan Header := fun s =>
  let (rest, lastName) := skipAnnotations none s
  headerTail (s.take (s.length - rest.length)) rest <|>
    match lastName with
    | none => none
    | some (name, afterName) => giveBack s name.reverse afterName

theorem header_eq (before : Option Char) :
    header before = headWord before >>= fun _ => annotatedTail := by
  unfold header headWord annotatedTail
  exact (bind_congr fun _ => (bind_assoc _ _ _).symm).trans (bind_assoc _ _ _).symm

theorem halts_headWord (before : Option Char) : (headWord before).Halts :=
  (Scan.halts_wordStart before).bind fun _ => (Scan.halts_literal (by decide)).bind fun _ =>
    Scan.halts_someBlanks

theorem giveBack_of_solid {s kept front rest : List Char}
    (solid : ∀ c ∈ kept ++ front, Text.isBlank c = false) :
    giveBack s kept (front ++ '(' :: rest) = none := by
  induction kept generalizing front with
  | nil => rfl
  | cons c kept ih =>
    rcases kept with _ | ⟨d, _ | ⟨e, kept⟩⟩
    · rfl
    · rfl
    · have moved : ∀ b ∈ d :: e :: kept ++ c :: front, Text.isBlank b = false := by
        intro b member
        refine solid b ?_
        simp only [List.mem_append, List.mem_cons] at member ⊢
        tauto
      have noHead : ∀ text, headerTail text (c :: front ++ '(' :: rest) = none := fun text =>
        headerTail_of_solid (fun b member => moved b (List.mem_append_right _ member)) text
      have step : giveBack s (c :: d :: e :: kept) (front ++ '(' :: rest) =
          (headerTail (s.take (s.length - (c :: front ++ '(' :: rest).length))
            (c :: front ++ '(' :: rest) <|>
              giveBack s (d :: e :: kept) (c :: front ++ '(' :: rest)) := rfl
      rw [step, noHead, ih moved]
      rfl

/-- Behind a parenthesis a text may go on: what follows its first word is read as before, if it was
a head. -/
theorem annotatedTail_append (front rest : List Char) :
    annotatedTail (front ++ '(' :: rest) =
        (annotatedTail (front ++ ['('])).map (extendRead rest) ∨
      annotatedTail (front ++ ['(']) = none := by
  unfold annotatedTail
  rcases skipAnnotations_append front none with ⟨left, behind, skips⟩ | ⟨name, behind, solid, skips⟩
  · refine Or.inl ?_
    have skipped : ∀ rest, skipAnnotations none (front ++ '(' :: rest) =
        (left ++ '(' :: rest, followed rest behind) := skips
    rw [skipped, skipped]
    dsimp only
    rw [take_append_paren, take_append_paren, map_orElse, headerTail_append]
    cases behind with
    | none => rfl
    | some named =>
      dsimp only [followed, Option.map_some]
      rw [giveBack_append]
  · refine Or.inr ?_
    have skipped : skipAnnotations none (front ++ ['(']) =
      ('(' :: behind, some (name, '(' :: behind)) := skips
    have noHead : ∀ text, headerTail text ('(' :: behind) = none := fun text =>
      @headerTail_of_solid [] behind (List.forall_mem_nil _) text
    have noGift : ∀ s, giveBack s name.reverse ('(' :: behind) = none := fun s =>
      @giveBack_of_solid s name.reverse [] behind fun c member => solid c (by simpa using member)
    rw [skipped]
    dsimp only
    rw [noHead, noGift]
    rfl

theorem header_append_paren (before : Option Char) (front rest : List Char) :
    header before (front ++ '(' :: rest) =
        (header before (front ++ ['('])).map (extendRead rest) ∨
      header before (front ++ ['(']) = none := by
  obtain ⟨word, reads⟩ := halts_headWord before front
  rw [header_eq]
  cases word with
  | none =>
    rw [Scan.bind_of_none (reads rest), Scan.bind_of_none (reads [])]
    exact Or.inl rfl
  | some behind =>
    rw [Scan.bind_of_read (reads rest), Scan.bind_of_read (reads [])]
    exact annotatedTail_append behind.2 rest

/-! ## Where heads end -/

/-- What is left behind annotations, and the last name among them with what follows it, are ends of
the text. -/
theorem skipAnnotations_suffix (last : Option (List Char × List Char)) (s : List Char) :
    (skipAnnotations last s).1 <:+ s ∧
      ∀ name after, (skipAnnotations last s).2 = some (name, after) →
        last = some (name, after) ∨ name ++ after <:+ s := by
  induction length : s.length using Nat.strong_induction_on generalizing last s with
  | _ n ih =>
    cases read : annotationName s with
    | none =>
      rw [skipAnnotations_of_none read]
      exact ⟨List.suffix_rfl, fun _ _ same => Or.inl same⟩
    | some named =>
      obtain ⟨name, after⟩ := named
      obtain ⟨rfl, nonempty, -⟩ := annotationName_eq_some read
      have behind : behindName after <:+ name ++ after :=
        (behindName_suffix after).trans (List.suffix_append _ _)
      have shorter : (behindName after).length < n := by
        have longer : 0 < name.length := List.length_pos_of_ne_nil nonempty
        have within := (behindName_suffix after).length_le
        rw [List.length_append] at length
        omega
      obtain ⟨left, names⟩ := ih _ shorter (some (name, after)) (behindName after) rfl
      rw [skipAnnotations_of_read read]
      refine ⟨left.trans behind, fun lastName lastAfter same => Or.inr ?_⟩
      rcases names lastName lastAfter same with this | later
      · cases this
        exact List.suffix_rfl
      · exact later.trans behind

theorem leavesEnd_headLead : headLead.LeavesEnd := by
  have word : ∀ word : String, (Scan.keyword word).LeavesEnd := fun word =>
    Scan.leavesEnd_literal word.toList
  refine ((word "private").bind fun _ => Scan.leavesEnd_someBlanks).succeeds.bind fun _ => ?_
  refine ((((word "updating").orElse (word "sequential")).bind fun _ =>
    Scan.leavesEnd_someBlanks).optional.map _).bind fun _ => ?_
  refine (word "function").bind fun _ => ?_
  exact Scan.leavesEnd_someBlanks.bind fun _ => Scan.leavesEnd_pure _

theorem leavesEnd_headNames : headNames.LeavesEnd :=
  (Scan.leavesEnd_someRun _).bind fun _ => (Scan.leavesEnd_literal _).bind fun _ =>
    (Scan.leavesEnd_someRun _).bind fun _ => Scan.leavesEnd_blanks.bind fun _ =>
      Scan.leavesEnd_pure _

theorem leavesEnd_headWord (before : Option Char) : (headWord before).LeavesEnd := by
  have start : (Scan.wordStart before).LeavesEnd := by
    intro s a rest read
    exact (Scan.wordStart_eq_some read).2 ▸ List.suffix_rfl
  exact start.bind fun _ => (Scan.leavesEnd_literal _).bind fun _ => Scan.leavesEnd_someBlanks

/-- The parenthesis that ends a head stands before what is left. -/
theorem paren_suffix_of_headerTail {annotations s rest : List Char} {head : Header}
    (h : headerTail annotations s = some (head, rest)) : '(' :: rest <:+ s := by
  have get : (get : Scan (List Char)).LeavesEnd := by
    intro s a rest read
    cases read
    exact List.suffix_rfl
  have reached : ∃ t, t <:+ s ∧ headerTail annotations t = some (head, rest) :=
    ⟨s, List.suffix_rfl, h⟩
  rw [headerTail_eq] at reached
  obtain ⟨_, reached⟩ := Scan.exists_next leavesEnd_headLead reached
  obtain ⟨_, reached⟩ := Scan.exists_next get reached
  obtain ⟨_, t, behind, reads⟩ := Scan.exists_next leavesEnd_headNames reached
  obtain ⟨_, _, paren, made⟩ := Scan.bind_eq_some reads
  cases made
  rw [Scan.literal_eq_some paren] at behind
  exact behind

theorem paren_suffix_of_annotatedTail {s rest : List Char} {head : Header}
    (h : annotatedTail s = some (head, rest)) : '(' :: rest <:+ s := by
  obtain ⟨left, names⟩ := skipAnnotations_suffix none s
  unfold annotatedTail at h
  dsimp only at h
  cases tail : headerTail (s.take (s.length - (skipAnnotations none s).1.length))
      (skipAnnotations none s).1 with
  | some read =>
    rw [tail] at h
    cases h
    exact (paren_suffix_of_headerTail tail).trans left
  | none =>
    rw [tail] at h
    cases last : (skipAnnotations none s).2 with
    | none =>
      rw [last] at h
      cases h
    | some named =>
      rw [last] at h
      obtain ⟨annotations, t, behind, tail⟩ := exists_headerTail_of_giveBack h
      rcases names named.1 named.2 last with absent | suffix
      · cases absent
      · rw [List.reverse_reverse] at behind
        exact ((paren_suffix_of_headerTail tail).trans behind).trans suffix

/-- A head leaves the end of its text that stands behind a parenthesis. -/
theorem paren_suffix_of_header {before : Option Char} {s rest : List Char} {head : Header}
    (h : header before s = some (head, rest)) : '(' :: rest <:+ s := by
  rw [header_eq] at h
  obtain ⟨_, t, word, tail⟩ := Scan.bind_eq_some h
  exact (paren_suffix_of_annotatedTail tail).trans (leavesEnd_headWord before _ _ _ word)

theorem leavesEnd_header (before : Option Char) : (header before).LeavesEnd := by
  intro s head rest read
  exact (List.suffix_cons '(' rest).trans (paren_suffix_of_header read)

/-- Where a word may start, a head is read as at the start of a text. -/
theorem header_of_not_isWord {before : Option Char} (start : before.any Text.isWord = false) :
    header before = header none := by
  have same : Scan.wordStart before = Scan.wordStart none := by
    unfold Scan.wordStart
    rw [start]
    rfl
  unfold header
  rw [same]

/-- No head starts with a line feed. -/
theorem occurrencesFrom_header_feed (before s : List Char) :
    occurrencesFrom header before ('\n' :: s) = occurrencesFrom header ('\n' :: before) s := by
  have skipped : Avoids (Opens "declare".toList) before ['\n'] s :=
    avoids_of_letterless (by decide) (by decide)
  exact occurrencesFrom_of_avoids (fun _ _ _ => opens_of_header) skipped

/-- A head is read from the start of every text that it starts. -/
theorem header_append {before : Option Char} {s : List Char} {head : Header}
    (h : header before s = some (head, [])) (rest : List Char) :
    header before (s ++ rest) = some (head.extend rest, rest) := by
  obtain ⟨front, rfl⟩ := paren_suffix_of_header h
  rw [List.append_assoc, List.singleton_append]
  rcases header_append_paren before front rest with same | none
  · rw [same, h]
    rfl
  · rw [none] at h
    cases h

end CallAtlas.Source
