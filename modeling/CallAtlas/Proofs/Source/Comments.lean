import CallAtlas.Source.Comment
import Mathlib.Data.List.Basic
import Mathlib.Data.List.Infix

/-!
# Comments in a text

A text has one division into comments and the stretches between them in which no comment could have
started earlier than it does (`Division.IsLeftmost`), and what is left of the text are the stretches
(`stripComments_division`). Both follow the walk that takes comments out, one character or one
comment at a time: a character goes into the first stretch of what follows it (`Division.prepend`),
and a comment that starts the text is the first of the division.

Where an opening has no end it is plain text, and so are all openings behind it. A text without such
openings can be put before a comment, and nothing in it changes.
-/

namespace CallAtlas.Source

/-! ## Ends of comments -/

/-- Two characters stand side by side at the start of a text or later. -/
theorem pair_infix_cons_iff {a b c : Char} {s : List Char} :
    [a, b] <:+: c :: s ↔ a = c ∧ s.head? = some b ∨ [a, b] <:+: s := by
  have first : [b] <+: s ↔ s.head? = some b := by
    cases s with
    | nil => simp
    | cons d s => simp [List.cons_prefix_cons, eq_comm]
  rw [List.infix_cons_iff, List.cons_prefix_cons, first]

theorem afterComment?_append {body : List Char} (absent : ¬[':', ')'] <:+: body)
    (rest : List Char) : afterComment? (body ++ ':' :: ')' :: rest) = some rest := by
  induction body with
  | nil => rfl
  | cons c body ih =>
    rw [pair_infix_cons_iff, not_or] at absent
    rw [List.cons_append, afterComment?.eq_3, ih absent.2]
    rintro s rfl shape
    apply absent.1
    refine ⟨rfl, ?_⟩
    cases body with
    | nil => cases shape
    | cons d body =>
      cases shape
      rfl

/-- The end of a comment that is found has no other one before it. -/
theorem exists_body_of_afterComment? {s rest : List Char} (ends : afterComment? s = some rest) :
    ∃ body, s = body ++ ':' :: ')' :: rest ∧ ¬[':', ')'] <:+: body := by
  fun_induction afterComment? s with
  | case1 => cases ends
  | case2 s =>
    cases ends
    exact ⟨[], rfl, by simp⟩
  | case3 c s goesOn ih =>
    obtain ⟨body, rfl, absent⟩ := ih ends
    refine ⟨c :: body, rfl, ?_⟩
    rw [pair_infix_cons_iff]
    rintro (⟨rfl, next⟩ | later)
    · obtain ⟨more, rfl⟩ := List.head?_eq_some_iff.1 next
      exact goesOn _ rfl rfl
    · exact absent later

/-- A comment has no end where none stands behind its opening. -/
theorem afterComment?_eq_none_iff {s : List Char} :
    afterComment? s = none ↔ ¬[':', ')'] <:+: s := by
  fun_induction afterComment? s with
  | case1 => simp
  | case2 s => simp [pair_infix_cons_iff]
  | case3 c s goesOn ih =>
    rw [ih, pair_infix_cons_iff, not_or, and_iff_right_of_imp]
    intro _
    rintro ⟨rfl, next⟩
    obtain ⟨more, rfl⟩ := List.head?_eq_some_iff.1 next
    exact goesOn _ rfl rfl

/-! ## Steps of the walk -/

theorem stripComments_of_ended {s rest : List Char} (ends : afterComment? s = some rest) :
    stripComments ('(' :: ':' :: s) = stripComments rest := by
  rw [stripComments]
  split
  next found =>
    rw [ends] at found
    cases found
    rfl
  next absent =>
    rw [ends] at absent
    cases absent

/-- A character that opens no comment is left in the text. -/
theorem stripComments_cons {c : Char} {s : List Char}
    (plain : ∀ t, c = '(' → s = ':' :: t → ¬[':', ')'] <:+: t) :
    stripComments (c :: s) = c :: stripComments s := by
  by_cases opens : c = '(' ∧ s.head? = some ':'
  · obtain ⟨rfl, next⟩ := opens
    obtain ⟨t, rfl⟩ := List.head?_eq_some_iff.1 next
    have unended := afterComment?_eq_none_iff.2 (plain t rfl rfl)
    rw [stripComments]
    split
    next found =>
      rw [unended] at found
      cases found
    next => rfl
  · rw [stripComments]
    rintro t rfl rfl
    exact opens ⟨rfl, rfl⟩

theorem length_stripComments_le (s : List Char) : (stripComments s).length ≤ s.length := by
  fun_induction stripComments s with
  | case1 => exact Nat.le_refl _
  | case2 s rest found shorter ih =>
    simp only [List.length_cons]
    omega
  | case3 s _ ih =>
    simp only [List.length_cons] at ih ⊢
    omega
  | case4 c s _ ih =>
    simp only [List.length_cons]
    omega

/-- A comment ends at the first `:)` behind its opening. -/
def IsComment (comment : List Char) : Prop :=
  ∃ body, comment = '(' :: ':' :: (body ++ [':', ')']) ∧ ¬[':', ')'] <:+: body

/-- A comment at the start of a text is taken out. -/
theorem IsComment.stripComments_append {comment : List Char} (isComment : IsComment comment)
    (s : List Char) : stripComments (comment ++ s) = stripComments s := by
  obtain ⟨body, rfl, absent⟩ := isComment
  rw [List.cons_append, List.cons_append, List.append_assoc]
  exact stripComments_of_ended (afterComment?_append absent s)

/-! ## Divisions -/

/-- A text cut into stretches of plain text with a comment behind each, and a last stretch. -/
inductive Division
  | last (stretch : List Char)
  | next (stretch comment : List Char) (rest : Division)

namespace Division

/-- The text that is divided. -/
def text : Division → List Char
  | last stretch => stretch
  | next stretch comment rest => stretch ++ (comment ++ rest.text)

/-- The stretches of plain text. -/
def stretches : Division → List (List Char)
  | last stretch => [stretch]
  | next stretch _ rest => stretch :: rest.stretches

/-- An opening that begins in a stretch has no end, neither in the stretch nor in the text behind
it. -/
def IsClear (stretch after : List Char) : Prop :=
  ∀ before s, stretch ++ after = before ++ '(' :: ':' :: s → before.length < stretch.length →
    ¬[':', ')'] <:+: s

/-- Each comment of a division ends at its first end, and none could begin earlier. -/
def IsLeftmost : Division → Prop
  | last stretch => IsClear stretch []
  | next stretch comment rest =>
    IsClear stretch (comment ++ rest.text) ∧ IsComment comment ∧ rest.IsLeftmost

/-- Puts a character before the first stretch. -/
def prepend (c : Char) : Division → Division
  | last stretch => last (c :: stretch)
  | next stretch comment rest => next (c :: stretch) comment rest

theorem text_prepend (c : Char) (d : Division) : (d.prepend c).text = c :: d.text := by
  cases d <;> rfl

theorem isClear_nil (after : List Char) : IsClear [] after :=
  fun _ _ _ short => absurd short (Nat.not_lt_zero _)

/-- A stretch is clear if no comment begins at its first character and none begins later. -/
theorem isClear_cons_iff {c : Char} {stretch after : List Char} :
    IsClear (c :: stretch) after ↔
      (∀ t, c = '(' → stretch ++ after = ':' :: t → ¬[':', ')'] <:+: t) ∧
        IsClear stretch after := by
  constructor
  · intro clear
    constructor
    · rintro t rfl shape
      exact clear [] t (by rw [List.cons_append, shape, List.nil_append]) (Nat.zero_lt_succ _)
    · intro before s shape short
      exact clear (c :: before) s (by rw [List.cons_append, shape, List.cons_append])
        (Nat.succ_lt_succ short)
  · rintro ⟨first, later⟩ before s shape short
    cases before with
    | nil =>
      obtain ⟨rfl, same⟩ := List.cons.inj shape
      exact first s rfl same
    | cons d before =>
      exact later before s (List.cons.inj shape).2 (Nat.lt_of_succ_lt_succ short)

/-- A character goes before the first stretch if no comment begins there. -/
theorem isLeftmost_prepend_iff {c : Char} {d : Division} :
    (d.prepend c).IsLeftmost ↔
      (∀ t, c = '(' → d.text = ':' :: t → ¬[':', ')'] <:+: t) ∧ d.IsLeftmost := by
  cases d with
  | last stretch =>
    rw [prepend, IsLeftmost, isClear_cons_iff, List.append_nil]
    rfl
  | next stretch comment rest =>
    rw [prepend, IsLeftmost, isClear_cons_iff, and_assoc]
    rfl

/-- The first character of a text is in the first stretch, or a comment starts the text. -/
theorem cases_of_text_cons {c : Char} {s : List Char} {d : Division} (whole : d.text = c :: s) :
    (∃ d' : Division, d = d'.prepend c ∧ d'.text = s) ∨
      ∃ comment rest, d = .next [] comment rest ∧ comment ++ rest.text = c :: s := by
  cases d with
  | last stretch =>
    obtain rfl : stretch = c :: s := whole
    exact Or.inl ⟨.last s, rfl, rfl⟩
  | next stretch comment rest =>
    cases stretch with
    | nil => exact Or.inr ⟨comment, rest, rfl, whole⟩
    | cons b stretch =>
      obtain ⟨rfl, same⟩ := List.cons.inj whole
      exact Or.inl ⟨.next stretch comment rest, rfl, same⟩

/-! ## The one division of a text -/

theorem existsUnique_nil : ∃! d : Division, d.text = [] ∧ d.IsLeftmost := by
  refine ⟨.last [], ⟨rfl, isClear_nil []⟩, ?_⟩
  rintro d ⟨whole, leftmost⟩
  cases d with
  | last stretch =>
    obtain rfl : stretch = [] := whole
    rfl
  | next stretch comment rest =>
    obtain ⟨-, ⟨body, rfl, -⟩, -⟩ := leftmost
    simp [text] at whole

/-- A character that opens no comment goes into the first stretch. -/
theorem existsUnique_cons {c : Char} {s : List Char}
    (plain : ∀ t, c = '(' → s = ':' :: t → ¬[':', ')'] <:+: t)
    (behind : ∃! d : Division, d.text = s ∧ d.IsLeftmost) :
    ∃! d : Division, d.text = c :: s ∧ d.IsLeftmost := by
  obtain ⟨d, ⟨whole, leftmost⟩, unique⟩ := behind
  refine ⟨d.prepend c, ⟨by rw [text_prepend, whole], ?_⟩, ?_⟩
  · exact isLeftmost_prepend_iff.2 ⟨whole ▸ plain, leftmost⟩
  · rintro other ⟨whole', leftmost'⟩
    rcases cases_of_text_cons whole' with ⟨d', rfl, same⟩ | ⟨comment, rest, rfl, starts⟩
    · rw [unique d' ⟨same, (isLeftmost_prepend_iff.1 leftmost').2⟩]
    · obtain ⟨-, ⟨body, rfl, -⟩, -⟩ := leftmost'
      obtain ⟨rfl, same⟩ := List.cons.inj starts
      refine absurd ?_ (plain _ rfl same.symm)
      exact ⟨body, rest.text, rfl⟩

/-- A comment at the start of a text is the first of its division. -/
theorem existsUnique_comment {body rest : List Char} (absent : ¬[':', ')'] <:+: body)
    (behind : ∃! d : Division, d.text = rest ∧ d.IsLeftmost) :
    ∃! d : Division, d.text = '(' :: ':' :: (body ++ ':' :: ')' :: rest) ∧ d.IsLeftmost := by
  obtain ⟨d, ⟨rfl, leftmost⟩, unique⟩ := behind
  refine ⟨.next [] ('(' :: ':' :: (body ++ [':', ')'])) d, ⟨?_, ?_⟩, ?_⟩
  · simp [text]
  · exact ⟨isClear_nil _, ⟨body, rfl, absent⟩, leftmost⟩
  · rintro other ⟨whole', leftmost'⟩
    rcases cases_of_text_cons whole' with ⟨d', rfl, same⟩ | ⟨comment, rest, rfl, starts⟩
    · have open' := (isLeftmost_prepend_iff.1 leftmost').1 _ rfl same
      exact absurd ⟨body, d.text, by simp⟩ open'
    · obtain ⟨-, ⟨body', rfl, absent'⟩, leftmost''⟩ := leftmost'
      have shape : body' ++ ':' :: ')' :: rest.text = body ++ ':' :: ')' :: d.text := by
        simpa using starts
      have ends := afterComment?_append absent d.text
      rw [← shape, afterComment?_append absent'] at ends
      rw [Option.some.inj ends] at shape
      rw [List.append_cancel_right shape, unique rest ⟨Option.some.inj ends, leftmost''⟩]

theorem existsUnique_isLeftmost (s : List Char) :
    ∃! d : Division, d.text = s ∧ d.IsLeftmost := by
  fun_induction stripComments s with
  | case1 => exact existsUnique_nil
  | case2 s rest ends shorter ih =>
    obtain ⟨body, rfl, absent⟩ := exists_body_of_afterComment? ends
    exact existsUnique_comment absent ih
  | case3 s unended ih =>
    refine existsUnique_cons ?_ ih
    rintro t - same
    rw [← (List.cons.inj same).2]
    exact afterComment?_eq_none_iff.1 unended
  | case4 c s plain ih =>
    refine existsUnique_cons ?_ ih
    rintro t rfl rfl
    exact absurd rfl (plain t rfl)

/-! ## Taking comments out -/

theorem IsClear.stripComments_append {stretch after : List Char} (clear : IsClear stretch after) :
    stripComments (stretch ++ after) = stretch ++ stripComments after := by
  induction stretch with
  | nil => rfl
  | cons c stretch ih =>
    obtain ⟨first, later⟩ := isClear_cons_iff.1 clear
    rw [List.cons_append, stripComments_cons first, ih later, List.cons_append]

/-- What is left of a text are the stretches of its division. -/
theorem IsLeftmost.stripComments_text {d : Division} (leftmost : d.IsLeftmost) :
    stripComments d.text = d.stretches.flatten := by
  induction d with
  | last stretch =>
    have clear : IsClear stretch [] := leftmost
    have left := clear.stripComments_append
    rw [List.append_nil, stripComments, List.append_nil] at left
    rw [text, left, stretches, List.flatten_singleton]
  | next stretch comment rest ih =>
    obtain ⟨clear, isComment, leftmost⟩ := leftmost
    rw [text, clear.stripComments_append, isComment.stripComments_append, ih leftmost, stretches,
      List.flatten_cons]

/-- A stretch without an opening is clear, unless its last character and what follows make one. -/
theorem isClear_of_unopened {stretch after : List Char} (unopened : ¬['(', ':'] <:+: stretch)
    (apart : after.head? ≠ some ':') : IsClear stretch after := by
  induction stretch with
  | nil => exact isClear_nil after
  | cons c stretch ih =>
    rw [pair_infix_cons_iff, not_or] at unopened
    refine isClear_cons_iff.2 ⟨?_, ih unopened.2⟩
    rintro t rfl same
    cases stretch with
    | nil =>
      obtain rfl : after = ':' :: t := same
      exact absurd rfl apart
    | cons b stretch =>
      obtain ⟨rfl, -⟩ := List.cons.inj same
      exact absurd ⟨rfl, rfl⟩ unopened.1

/-- Text in which no opening is left can be put before other text, and nothing in it changes. -/
theorem IsLeftmost.stripComments_append {d : Division} (leftmost : d.IsLeftmost)
    (unopened : ∀ stretch ∈ d.stretches, ¬['(', ':'] <:+: stretch) {after : List Char}
    (apart : after.head? ≠ some ':') :
    Source.stripComments (d.text ++ after) = d.stretches.flatten ++ Source.stripComments after := by
  induction d with
  | last stretch =>
    have clear := isClear_of_unopened (unopened stretch List.mem_cons_self) apart
    rw [text, clear.stripComments_append, stretches, List.flatten_singleton]
  | next stretch comment rest ih =>
    obtain ⟨-, isComment, leftmost⟩ := leftmost
    have starts : (comment ++ (rest.text ++ after)).head? ≠ some ':' := by
      obtain ⟨body, rfl, -⟩ := isComment
      simp
    have clear := isClear_of_unopened (unopened stretch List.mem_cons_self) starts
    have later := ih leftmost fun u member => unopened u (List.mem_cons_of_mem _ member)
    rw [text, List.append_assoc, List.append_assoc, clear.stripComments_append,
      isComment.stripComments_append, later, stretches, List.flatten_cons, List.append_assoc]

end Division

/-- **The leftmost shortest comments are taken out, and nothing else.** A text has one division into
comments and stretches in which none could begin earlier, and the stretches are left of it. Where no
opening is left, the text can be put before a comment and any other text, and both are stripped by
themselves. -/
theorem stripComments_division (s : List Char) :
    (∃! d : Division, d.text = s ∧ d.IsLeftmost) ∧
      ∀ d : Division, d.text = s → d.IsLeftmost →
        stripComments s = d.stretches.flatten ∧
        ((∀ stretch ∈ d.stretches, ¬['(', ':'] <:+: stretch) →
          ∀ body rest, ¬[':', ')'] <:+: body →
            stripComments (s ++ '(' :: ':' :: (body ++ ':' :: ')' :: rest)) =
              stripComments s ++ stripComments rest) := by
  refine ⟨Division.existsUnique_isLeftmost s, ?_⟩
  rintro d rfl leftmost
  have stripped := leftmost.stripComments_text
  refine ⟨stripped, ?_⟩
  intro unopened body rest absent
  rw [leftmost.stripComments_append unopened (by simp),
    stripComments_of_ended (afterComment?_append absent rest), stripped]

/-- Comments that start and end with a colon, behind a parenthesis of their own and before one that
opens nothing. -/
def crowded : Division :=
  .next [] "(::)".toList (.next ['('] "(:):)".toList (.last ['(']))

theorem isLeftmost_crowded : crowded.IsLeftmost := by
  refine ⟨Division.isClear_nil _, ⟨[], rfl, by decide⟩, ?_, ⟨[')'], rfl, by decide⟩, ?_⟩
  · exact Division.isClear_of_unopened (by decide) (by decide)
  · exact Division.isClear_of_unopened (by decide) (by decide)

/-- The colon of an opening is no part of an end, and behind the comments an opening without an end
stays. -/
theorem crowded_stripped :
    crowded.text = "(::)((:):)(".toList ∧ crowded.IsLeftmost ∧
      (∀ stretch ∈ crowded.stretches, ¬['(', ':'] <:+: stretch) ∧ ¬[':', ')'] <:+: [')'] ∧
      stripComments "(::)((:):)((:):):) (: x".toList =
        stripComments "(::)((:):)(".toList ++ stripComments ":) (: x".toList := by
  have whole : crowded.text = "(::)((:):)(".toList := rfl
  have unopened : ∀ stretch ∈ crowded.stretches, ¬['(', ':'] <:+: stretch := by decide
  have absent : ¬[':', ')'] <:+: [')'] := by decide
  refine ⟨whole, isLeftmost_crowded, unopened, absent, ?_⟩
  obtain ⟨-, divided⟩ := stripComments_division "(::)((:):)(".toList
  exact (divided crowded whole isLeftmost_crowded).2 unopened [')'] ":) (: x".toList absent

end CallAtlas.Source
