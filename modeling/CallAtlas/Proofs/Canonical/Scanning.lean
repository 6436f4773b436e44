import CallAtlas.Proofs.Canonical.Syntax
import CallAtlas.Proofs.Source.ReadModule
import CallAtlas.Proofs.Source.Scan
import CallAtlas.Proofs.Text.Blank
import CallAtlas.Proofs.Text.Lines

/-!
# Where scanners read nothing

A scanner that runs along a canonical text reads each statement of its kind and nothing in between.
The second half is the work: names, URIs and literals may spell keywords, and a keyword may lie
across two parts of a text. `Avoids` says of a part of a text that a scanner starts nowhere in it,
in view of what stands before and after; it is composed part by part.

Both statement scanners start with a word, blanks and a letter or percent sign (`Opens`), and that
is all the composition needs to know about them.
-/

namespace CallAtlas

theorem Text.not_blank_of_isAlpha {c : Char} (alpha : c.isAlpha = true) : isBlank c = false := by
  have starts : Source.isNameStart c = true := by
    unfold Source.isNameStart
    rw [alpha, Bool.true_or]
  exact not_blank_of_isNameChar (Source.nameChar_of_isNameStart starts)

namespace Source

/-! ## What scanners need -/

namespace Scan

variable {α β : Type}

theorem wordStart_eq_some {before : Option Char} {s rest : List Char} {read : Unit}
    (h : wordStart before s = some (read, rest)) :
    before.any Text.isWord = false ∧ rest = s := by
  unfold wordStart at h
  split at h
  next => cases h
  next other =>
    cases h
    exact ⟨Bool.not_eq_true _ ▸ other, rfl⟩

theorem keyword_eq_some {word : String} {s rest : List Char} {read : Unit}
    (h : keyword word s = some (read, rest)) :
    word.toList.isPrefixOf s = true ∧ rest = s.drop word.toList.length := by
  unfold keyword literal at h
  split at h
  next starts =>
    cases h
    exact ⟨starts, rfl⟩
  next => cases h

theorem wordEnd_eq_some {s rest : List Char} {read : Unit}
    (h : wordEnd s = some (read, rest)) : s.head?.any Text.isWord = false ∧ rest = s := by
  unfold wordEnd at h
  split at h
  next => cases h
  next other =>
    cases h
    exact ⟨Bool.not_eq_true _ ▸ other, rfl⟩

theorem someBlanks_eq_some {s rest : List Char} {read : Unit}
    (h : someBlanks s = some (read, rest)) :
    s.head?.any Text.isBlank = true ∧ rest = Text.dropBlanks s := by
  unfold someBlanks at h
  split at h
  next starts =>
    cases h
    exact ⟨starts, rfl⟩
  next => cases h

theorem char_eq_some {p : Char → Bool} {s rest : List Char} {c : Char}
    (h : char p s = some (c, rest)) : s = c :: rest ∧ p c = true := by
  cases s with
  | nil => cases h
  | cons d s =>
    change (if p d then some (d, s) else none) = some (c, rest) at h
    split at h
    next holds =>
      cases h
      exact ⟨rfl, holds⟩
    next => cases h

theorem optional_of_none {p : Scan α} {s : List Char} (fails : p s = none) :
    optional p s = some (none, s) := by
  have mapped : (some <$> p) s = none := by
    change (p s >>= fun x => pure (some x.1, x.2)) = none
    rw [fails]
    rfl
  change ((some <$> p) s <|> some (none, s)) = some (none, s)
  rw [mapped]
  rfl

theorem optional_of_read {p : Scan α} {s rest : List Char} {a : α} (read : p s = some (a, rest)) :
    optional p s = some (some a, rest) := by
  have mapped : (some <$> p) s = some (some a, rest) := by
    change (p s >>= fun x => pure (some x.1, x.2)) = _
    rw [read]
    rfl
  change ((some <$> p) s <|> some (none, s)) = _
  rw [mapped]
  rfl

theorem succeeds_of_none {p : Scan α} {s : List Char} (fails : p s = none) :
    succeeds p s = some (false, s) := by
  have mapped : (p *> pure true) s = none := bind_of_none fails
  change ((p *> pure true) s <|> some (false, s)) = some (false, s)
  rw [mapped]
  rfl

/-! ## What scanners read -/

theorem wordStart_of_not_isWord {before : Option Char} (start : before.any Text.isWord = false)
    (s : List Char) : wordStart before s = some ((), s) := by
  unfold wordStart
  rw [start]
  rfl

theorem literal_append (word s : List Char) : literal word (word ++ s) = some ((), s) := by
  unfold literal
  rw [if_pos (List.isPrefixOf_iff_prefix.2 (List.prefix_append word s)), List.drop_left]

theorem literal_cons (c : Char) (s : List Char) : literal [c] (c :: s) = some ((), s) :=
  literal_append [c] s

theorem keyword_append (word : String) (s : List Char) :
    keyword word (word.toList ++ s) = some ((), s) :=
  literal_append word.toList s

theorem blanks_append {gap s : List Char} (blank : ∀ c ∈ gap, Text.isBlank c = true)
    (solid : s.head?.any Text.isBlank = false) : blanks (gap ++ s) = some ((), s) := by
  have dropped : Text.dropBlanks (gap ++ s) = Text.dropBlanks s := List.dropWhile_append_of_pos blank
  unfold blanks
  rw [dropped, Text.dropBlanks_of_not_blank solid]

theorem someBlanks_append {gap s : List Char} (nonempty : gap ≠ [])
    (blank : ∀ c ∈ gap, Text.isBlank c = true) (solid : s.head?.any Text.isBlank = false) :
    someBlanks (gap ++ s) = some ((), s) := by
  obtain ⟨c, gap, rfl⟩ := List.exists_cons_of_ne_nil nonempty
  have first : (c :: gap ++ s).head?.any Text.isBlank = true := blank c List.mem_cons_self
  unfold someBlanks
  rw [if_pos first]
  exact blanks_append blank solid

theorem blanks_space {s : List Char} (solid : s.head?.any Text.isBlank = false) :
    blanks (' ' :: s) = some ((), s) :=
  @blanks_append [' '] s (List.forall_mem_singleton.2 rfl) solid

theorem someBlanks_space {s : List Char} (solid : s.head?.any Text.isBlank = false) :
    someBlanks (' ' :: s) = some ((), s) :=
  @someBlanks_append [' '] s (by decide) (List.forall_mem_singleton.2 rfl) solid

theorem run_append {p : Char → Bool} {chars rest : List Char} (all : ∀ c ∈ chars, p c = true)
    (stops : rest.head?.any p = false) : run p (chars ++ rest) = some (chars, rest) := by
  have none : rest.takeWhile p = [] ∧ rest.dropWhile p = rest := by
    cases rest with
    | nil => exact ⟨rfl, rfl⟩
    | cons c rest =>
      have other : ¬p c = true := by
        rw [Bool.not_eq_true]
        exact stops
      exact ⟨List.takeWhile_cons_of_neg other, List.dropWhile_cons_of_neg other⟩
  unfold run
  rw [List.takeWhile_append_of_pos all, List.dropWhile_append_of_pos all, none.1, none.2,
    List.append_nil]

theorem discard_of_read {p : Scan α} {s rest : List Char} {a : α} (read : p s = some (a, rest)) :
    (discard p : Scan Unit) s = some ((), rest) := by
  change (p s >>= fun x => pure ((), x.2)) = _
  rw [read]
  rfl

theorem someRun_append {p : Char → Bool} {c : Char} {chars rest : List Char}
    (all : ∀ d ∈ c :: chars, p d = true) (stops : rest.head?.any p = false) :
    someRun p (c :: chars ++ rest) = some (c :: chars, rest) := by
  have first : (c :: chars ++ rest).head?.any p = true := all c List.mem_cons_self
  unfold someRun
  rw [if_pos first]
  exact run_append all stops

end Scan

end Source

namespace Canonical

open Source

/-! ## Openings of statements -/

/-- A character with which the second word of a statement starts. -/
def startsClause (c : Char) : Bool :=
  c.isAlpha || c == '%'

/-- A word at the start of a text opens a statement: it starts there, blanks follow it, and then
something with which a statement goes on. -/
structure Opens (word : List Char) (before : Option Char) (s : List Char) : Prop where
  start : before.any Text.isWord = false
  spelled : word <+: s
  blank : (s.drop word.length).head?.any Text.isBlank = true
  clause : (Text.dropBlanks (s.drop word.length)).head?.any startsClause = true

theorem startsClause_of_keyword {word : String} {s rest : List Char} {read : Unit}
    (letter : word.toList.head?.any startsClause = true)
    (h : Scan.keyword word s = some (read, rest)) : s.head?.any startsClause = true := by
  obtain ⟨tail, rfl⟩ := List.isPrefixOf_iff_prefix.1 (Scan.keyword_eq_some h).1
  cases spelled : word.toList with
  | nil =>
    rw [spelled] at letter
    cases letter
  | cons c more =>
    rw [spelled] at letter
    exact letter

theorem keyword_of_not_startsClause {word : String} {s : List Char}
    (letter : word.toList.head?.any startsClause = true) (other : s.head?.any startsClause = false) :
    Scan.keyword word s = none := by
  cases read : Scan.keyword word s with
  | none => rfl
  | some pair =>
    rw [startsClause_of_keyword letter read] at other
    cases other

/-- An import statement opens with its first word. -/
theorem opens_of_importStatement {before : Option Char} {s : List Char} {read : Unit × List Char}
    (h : importStatement before s = some read) : Opens "import".toList before s := by
  unfold importStatement at h
  obtain ⟨_, _, started, fromWord⟩ := Scan.bind_eq_some h
  obtain ⟨start, rfl⟩ := Scan.wordStart_eq_some started
  obtain ⟨_, _, word, fromBlanks⟩ := Scan.bind_eq_some fromWord
  obtain ⟨spelled, rfl⟩ := Scan.keyword_eq_some word
  obtain ⟨_, _, blanks, fromClause⟩ := Scan.bind_eq_some fromBlanks
  obtain ⟨blank, rfl⟩ := Scan.someBlanks_eq_some blanks
  obtain ⟨_, _, next, -⟩ := Scan.bind_eq_some fromClause
  exact ⟨start, List.isPrefixOf_iff_prefix.1 spelled, blank, startsClause_of_keyword rfl next⟩

/-- What follows the first word of a declaration starts with a letter or a percent sign. -/
theorem headerTail_of_not_startsClause {annotations s : List Char}
    (other : s.head?.any startsClause = false) : headerTail annotations s = none := by
  have noPrivate : (Scan.keyword "private" *> Scan.someBlanks) s = none :=
    Scan.bind_of_none (keyword_of_not_startsClause rfl other)
  have noKind : ((Scan.keyword "updating" <|> Scan.keyword "sequential") *> Scan.someBlanks) s =
      none := by
    refine Scan.bind_of_none ?_
    change (Scan.keyword "updating" s <|> Scan.keyword "sequential" s) = none
    rw [keyword_of_not_startsClause rfl other, keyword_of_not_startsClause rfl other]
    rfl
  unfold headerTail
  rw [Scan.bind_of_read (Scan.succeeds_of_none noPrivate)]
  rw [Scan.bind_of_read (Scan.discard_of_read (Scan.optional_of_none noKind))]
  exact Scan.bind_of_none (keyword_of_not_startsClause rfl other)

theorem skipAnnotations_of_head {s : List Char} (other : s.head? ≠ some '%') :
    skipAnnotations none s = (s, none) := by
  have noName : annotationName s = none := by
    refine Scan.bind_of_none ?_
    unfold Scan.literal
    rw [if_neg]
    cases s with
    | nil => exact Bool.false_ne_true
    | cons c s =>
      intro starts
      have same : '%' = c := eq_of_beq (Bool.and_eq_true_iff.1 starts).1
      exact other (congrArg some same.symm)
  rw [skipAnnotations]
  split
  next => rfl
  next name rest read =>
    rw [noName] at read
    cases read

/-- A declaration opens with its first word. -/
theorem opens_of_header {before : Option Char} {s : List Char} {read : Header × List Char}
    (h : header before s = some read) : Opens "declare".toList before s := by
  unfold header at h
  obtain ⟨_, _, started, fromWord⟩ := Scan.bind_eq_some h
  obtain ⟨start, rfl⟩ := Scan.wordStart_eq_some started
  obtain ⟨_, _, word, fromBlanks⟩ := Scan.bind_eq_some fromWord
  obtain ⟨spelled, rfl⟩ := Scan.keyword_eq_some word
  obtain ⟨_, rest, blanks, fromClause⟩ := Scan.bind_eq_some fromBlanks
  obtain ⟨blank, same⟩ := Scan.someBlanks_eq_some blanks
  refine ⟨start, List.isPrefixOf_iff_prefix.1 spelled, blank, ?_⟩
  rw [← same, ← Bool.not_eq_false]
  intro other
  have noPercent : rest.head? ≠ some '%' := by
    intro percent
    rw [percent] at other
    cases other
  rw [skipAnnotations_of_head noPercent] at fromClause
  dsimp only at fromClause
  rw [headerTail_of_not_startsClause other] at fromClause
  cases fromClause

/-! ## Parts without a start -/

/-- Nothing that a condition describes starts in a part of a text, which stands between `before`,
read backwards, and `rest`. -/
def Avoids (P : Option Char → List Char → Prop) (before : List Char) : (part rest : List Char) → Prop
  | [], _ => True
  | c :: part, rest => ¬P before.head? (c :: (part ++ rest)) ∧ Avoids P (c :: before) part rest

theorem Avoids.append {P : Option Char → List Char → Prop} {before first second rest : List Char}
    (avoids : Avoids P before first (second ++ rest))
    (avoidsSecond : Avoids P (first.reverse ++ before) second rest) :
    Avoids P before (first ++ second) rest := by
  induction first generalizing before with
  | nil => exact avoidsSecond
  | cons c first ih =>
    refine ⟨?_, ih avoids.2 ?_⟩
    · change ¬P before.head? (c :: (first ++ second ++ rest))
      rw [List.append_assoc]
      exact avoids.1
    · rw [List.reverse_cons, List.append_assoc] at avoidsSecond
      exact avoidsSecond

/-- A scanner passes over a part in which it starts nowhere. -/
theorem occurrencesFrom_of_avoids {α : Type} {p : Option Char → Scan α}
    {P : Option Char → List Char → Prop}
    (needs : ∀ before s read, p before s = some read → P before s) {before part rest : List Char}
    (avoids : Avoids P before part rest) :
    occurrencesFrom p before (part ++ rest) = occurrencesFrom p (part.reverse ++ before) rest := by
  induction part generalizing before with
  | nil => rfl
  | cons c part ih =>
    have fails : p before.head? (c :: (part ++ rest)) = none := by
      cases read : p before.head? (c :: (part ++ rest)) with
      | none => rfl
      | some pair => exact (avoids.1 (needs _ _ _ read)).elim
    rw [List.cons_append, occurrencesFrom_of_none fails, ih avoids.2, List.reverse_cons,
      List.append_assoc, List.singleton_append]

theorem Avoids.mono {P Q : Option Char → List Char → Prop} {before part rest : List Char}
    (avoids : Avoids P before part rest) (only : ∀ before s, Q before s → P before s) :
    Avoids Q before part rest := by
  induction part generalizing before with
  | nil => trivial
  | cons c part ih => exact ⟨fun holds => avoids.1 (only _ _ holds), ih avoids.2⟩

/-- A condition is avoided by a part if it holds at no place of it. -/
theorem avoids_iff {P : Option Char → List Char → Prop} {before part rest : List Char} :
    Avoids P before part rest ↔ ∀ front c back, part = front ++ c :: back →
      ¬P (front.reverse ++ before).head? (c :: (back ++ rest)) := by
  induction part generalizing before with
  | nil => exact ⟨fun _ front c back absent => by simp at absent, fun _ => trivial⟩
  | cons d part ih =>
    constructor
    · rintro ⟨first, later⟩ front c back same
      cases front with
      | nil =>
        cases same
        exact first
      | cons e front =>
        obtain ⟨rfl, rfl⟩ := List.cons.inj same
        rw [List.reverse_cons, List.append_assoc]
        exact ih.1 later front c back rfl
    · intro nowhere
      refine ⟨nowhere [] d part rfl, ih.2 fun front c back same => ?_⟩
      have other := nowhere (d :: front) c back (by rw [same, List.cons_append])
      rwa [List.reverse_cons, List.append_assoc] at other

theorem isAlpha_of_mem_statementWords {word : List Char} (listed : word ∈ statementWords) {c : Char}
    (letter : c ∈ word) : c.isAlpha = true := by
  have all : ∀ word ∈ statementWords, word.all Char.isAlpha = true := by decide
  exact List.all_eq_true.1 (all word listed) c letter

/-! ## Words in parts -/

/-- A word spelled from the start of a part on either lies in the part or reaches into what
follows. -/
theorem inside_or_across_of_prefix {word part rest : List Char} (spelled : word <+: part ++ rest) :
    (∃ more, part = word ++ more) ∨ ∃ d ∈ word, rest.head? = some d := by
  rcases List.prefix_or_prefix_of_prefix spelled (List.prefix_append part rest) with
    ⟨more, rfl⟩ | ⟨left, rfl⟩
  · exact Or.inl ⟨more, rfl⟩
  · cases left with
    | nil => exact Or.inl ⟨[], by rw [List.append_nil, List.append_nil]⟩
    | cons d left =>
      obtain ⟨more, rfl⟩ := (List.prefix_append_right_inj part).1 spelled
      exact Or.inr ⟨d, List.mem_append_right _ List.mem_cons_self, rfl⟩

/-- A word that opens a statement at the start of a part either lies in the part or reaches into
what follows. -/
theorem Opens.inside_or_across {word part rest : List Char} {before : Option Char}
    (opens : Opens word before (part ++ rest)) :
    (∃ more, part = word ++ more ∧ (more ++ rest).head?.any Text.isBlank = true ∧
        (Text.dropBlanks (more ++ rest)).head?.any startsClause = true) ∨
      ∃ d ∈ word, rest.head? = some d := by
  rcases inside_or_across_of_prefix opens.spelled with ⟨more, rfl⟩ | across
  · have blank := opens.blank
    have clause := opens.clause
    rw [List.append_assoc, List.drop_left] at blank clause
    exact Or.inl ⟨more, rfl, blank, clause⟩
  · exact Or.inr across

/-- A word stands at the start of a text: neither of its neighbours is a word character. -/
structure Stands (word : List Char) (before : Option Char) (s : List Char) : Prop where
  start : before.any Text.isWord = false
  spelled : word <+: s
  ends : (s.drop word.length).head?.any Text.isWord = false

theorem Opens.stands {word s : List Char} {before : Option Char} (opens : Opens word before s) :
    Stands word before s :=
  ⟨opens.start, opens.spelled, Text.head?_not_word_of_blank opens.blank⟩

/-- A word stands nowhere in a part that does not have it, if it cannot reach over its end. -/
theorem avoids_of_hasWord {word before part rest : List Char} {start : Option Char}
    (within : before.head?.any Text.isWord = false → start.any Text.isWord = false)
    (absent : hasWord word start part = false) (apart : ∀ d ∈ rest.head?, d ∉ word) :
    Avoids (Stands word) before part rest := by
  induction part generalizing before start with
  | nil => trivial
  | cons c part ih =>
    rw [hasWord, Bool.or_eq_false_iff] at absent
    refine ⟨?_, ih id absent.2⟩
    intro (stands : Stands word before.head? (c :: part ++ rest))
    rcases inside_or_across_of_prefix stands.spelled with ⟨more, spelled⟩ | ⟨d, letter, next⟩
    · have starts : word.isPrefixOf (word ++ more) = true :=
        List.isPrefixOf_iff_prefix.2 (List.prefix_append _ _)
      have ends : more.head?.any Text.isWord = false := by
        cases more with
        | nil => rfl
        | cons d more =>
          have ends := stands.ends
          rwa [spelled, List.append_assoc, List.drop_left] at ends
      have occurs := absent.1
      rw [spelled, List.drop_left, within stands.start, starts, ends] at occurs
      cases occurs
    · exact apart d next letter

/-- A word is spelled nowhere in a part without its first letter. -/
theorem avoids_spelled_of_not_mem {c : Char} {word before part rest : List Char}
    (absent : c ∉ part) : Avoids (fun _ s => c :: word <+: s) before part rest := by
  rw [avoids_iff]
  rintro front d back rfl spelled
  obtain rfl := (List.cons_prefix_cons.1 spelled).1
  simp at absent

/-- No statement goes on at the start of a text, blanks aside. -/
def IsCalm (rest : List Char) : Prop :=
  (Text.dropBlanks rest).head?.any startsClause = false

/-- Whether a word lies in no part of a text and reaches over none of its ends. -/
def excludes (word : List Char) : List Char → Bool
  | [] => true
  | c :: part => !word.isPrefixOf (c :: part) && !(c :: part).isPrefixOf word && excludes word part

theorem avoids_spelled_of_excludes {word before part rest : List Char}
    (excluded : excludes word part = true) : Avoids (fun _ s => word <+: s) before part rest := by
  induction part generalizing before with
  | nil => trivial
  | cons c part ih =>
    simp only [excludes, Bool.and_eq_true, Bool.not_eq_true'] at excluded
    obtain ⟨⟨inside, across⟩, later⟩ := excluded
    refine ⟨?_, ih later⟩
    intro spelled
    rcases List.prefix_or_prefix_of_prefix spelled (List.prefix_append (c :: part) rest) with
      whole | longer
    · rw [List.isPrefixOf_iff_prefix.2 whole] at inside
      cases inside
    · rw [List.isPrefixOf_iff_prefix.2 longer] at across
      cases across

section Openings

variable {word : List Char} (listed : word ∈ statementWords) {before part rest : List Char}
include listed

/-- A statement word in a part without blanks needs a statement to go on behind the part. -/
theorem avoids_of_solid (solid : ∀ c ∈ part, Text.isBlank c = false) (calm : IsCalm rest) :
    Avoids (Opens word) before part rest := by
  induction part generalizing before with
  | nil => trivial
  | cons c part ih =>
    refine ⟨?_, ih fun d member => solid d (List.mem_cons_of_mem _ member)⟩
    intro (opens : Opens word before.head? (c :: part ++ rest))
    unfold IsCalm at calm
    rcases opens.inside_or_across with ⟨more, spelled, blank, clause⟩ | ⟨d, letter, next⟩
    · cases more with
      | nil =>
        rw [List.nil_append, calm] at clause
        cases clause
      | cons d more =>
        have other := solid d (spelled ▸ List.mem_append_right _ List.mem_cons_self)
        rw [show (d :: more ++ rest).head?.any Text.isBlank = Text.isBlank d from rfl, other] at blank
        cases blank
    · have alpha := isAlpha_of_mem_statementWords listed letter
      have same : Text.dropBlanks rest = rest := by
        refine Text.dropBlanks_of_not_blank ?_
        rw [next]
        exact Text.not_blank_of_isAlpha alpha
      rw [same, next] at calm
      rw [show (some d).any startsClause = (d.isAlpha || d == '%') from rfl, alpha] at calm
      cases calm

/-- A part without a statement word has none if it is closed off by what follows. -/
theorem avoids_of_wordless {start : Option Char}
    (within : before.head?.any Text.isWord = false → start.any Text.isWord = false)
    (wordless : hasWord word start part = false)
    (sealed : rest.head?.any Char.isAlpha = false) : Avoids (Opens word) before part rest := by
  have apart : ∀ d ∈ rest.head?, d ∉ word := by
    intro d next letter
    rw [Option.mem_def.1 next, Option.any_some, isAlpha_of_mem_statementWords listed letter] at sealed
    cases sealed
  exact (avoids_of_hasWord within wordless apart).mono fun _ _ => Opens.stands

/-- No statement word starts in a part without letters. -/
theorem avoids_of_letterless (letterless : part.any Char.isAlpha = false) :
    Avoids (Opens word) before part rest := by
  cases word with
  | nil => exact absurd listed (by decide)
  | cons d word =>
    have absent : d ∉ part := by
      intro member
      have alpha := isAlpha_of_mem_statementWords listed List.mem_cons_self
      exact List.any_eq_false.1 letterless d member alpha
    exact (avoids_spelled_of_not_mem absent).mono fun _ _ => Opens.spelled

omit listed in
theorem avoids_of_excludes (excluded : excludes word part = true) :
    Avoids (Opens word) before part rest :=
  (avoids_spelled_of_excludes excluded).mono fun _ _ => Opens.spelled

end Openings

end Canonical
end CallAtlas
