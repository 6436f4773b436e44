import CallAtlas.Proofs.Text.Lines
import CallAtlas.Store.Pattern
import Mathlib.Data.List.TakeWhile

/-!
# What a pattern stands for

`StandsFor` says for which texts a pattern stands, sign by sign. The listings of a store look for
the pieces between percent signs instead, each where it stands first. That is enough: what stands
behind a percent sign may do so in any longer end of the text as well (`StandsFor.of_suffix`), so
the first place of a piece leaves the most for those that follow (`standsFor_piece_iff`). So a path
contains a match of a fragment exactly if the pattern around the fragment stands for the path
(`containsMatch_iff`).

A fragment of literal characters stands for itself only. Any other fragment stands for a text in
which it does not occur (`exists_lookalike`).
-/

namespace CallAtlas.Store

/-- A pattern stands for a text. -/
inductive StandsFor : (pattern s : List Char) → Prop
  | nil : StandsFor [] []
  | percent {pattern s : List Char} (before : List Char) (rest : StandsFor pattern s) :
    StandsFor ('%' :: pattern) (before ++ s)
  | one {c d : Char} {pattern s : List Char} (single : c ≠ '%')
    (fits : c = '_' ∨ sameLetter c d = true) (rest : StandsFor pattern s) :
    StandsFor (c :: pattern) (d :: s)

/-! ## Signs -/

section Signs

variable {c : Char} {pattern piece s t : List Char}

theorem standsFor_nil_iff : StandsFor [] s ↔ s = [] := by
  constructor
  · rintro ⟨⟩
    rfl
  · rintro rfl
    exact .nil

theorem standsFor_percent_iff :
    StandsFor ('%' :: pattern) s ↔ ∃ t, t <:+ s ∧ StandsFor pattern t := by
  constructor
  · intro stands
    generalize shape : '%' :: pattern = whole at stands
    cases stands with
    | nil => cases shape
    | percent before rest =>
      cases shape
      exact ⟨_, List.suffix_append before _, rest⟩
    | one single =>
      cases shape
      exact absurd rfl single
  · rintro ⟨t, ⟨before, rfl⟩, rest⟩
    exact .percent before rest

theorem standsFor_cons_iff (single : c ≠ '%') : StandsFor (c :: pattern) s ↔
    ∃ d t, s = d :: t ∧ (c = '_' ∨ sameLetter c d = true) ∧ StandsFor pattern t := by
  constructor
  · intro stands
    cases stands with
    | percent => exact absurd rfl single
    | one _ fits rest => exact ⟨_, _, rfl, fits, rest⟩
  · rintro ⟨d, t, rfl, fits, rest⟩
    exact .one single fits rest

/-- What stands behind a percent sign may do so in any longer end of a text. -/
theorem StandsFor.of_suffix (stands : StandsFor ('%' :: pattern) s) (ends : s <:+ t) :
    StandsFor ('%' :: pattern) t := by
  rcases standsFor_percent_iff.1 stands with ⟨u, inside, rest⟩
  exact standsFor_percent_iff.2 ⟨u, inside.trans ends, rest⟩

theorem standsFor_percent (s : List Char) : StandsFor ['%'] s :=
  standsFor_percent_iff.2 ⟨[], List.nil_suffix, .nil⟩

/-- A percent sign stands for nothing or for the first character and more. -/
theorem standsFor_percent_cons_iff : StandsFor ('%' :: pattern) (c :: s) ↔
    StandsFor pattern (c :: s) ∨ StandsFor ('%' :: pattern) s := by
  rw [standsFor_percent_iff, standsFor_percent_iff]
  constructor
  · rintro ⟨t, ends, rest⟩
    rcases List.suffix_cons_iff.1 ends with rfl | later
    · exact Or.inl rest
    · exact Or.inr ⟨t, later, rest⟩
  · rintro (rest | ⟨t, ends, rest⟩)
    · exact ⟨_, List.suffix_rfl, rest⟩
    · exact ⟨t, ends.trans (List.suffix_cons c s), rest⟩

theorem StandsFor.append {first second : List Char} (stands : StandsFor first s)
    (more : StandsFor second t) : StandsFor (first ++ second) (s ++ t) := by
  induction stands with
  | nil => exact more
  | percent before _ ih =>
    rw [List.append_assoc]
    exact .percent before ih
  | one single fits _ ih => exact .one single fits ih

/-- Any pattern stands for its own text. -/
theorem standsFor_self (s : List Char) : StandsFor s s := by
  induction s with
  | nil => exact .nil
  | cons c s ih =>
    by_cases percent : c = '%'
    · rw [percent]
      exact .percent ['%'] ih
    · exact .one percent (.inr (beq_self_eq_true _)) ih

/-! ## Pieces -/

/-- A piece without percent signs is compared character by character. -/
theorem standsFor_append_iff (solid : '%' ∉ piece) : StandsFor (piece ++ pattern) s ↔
    standsAtStart piece s = true ∧ StandsFor pattern (s.drop piece.length) := by
  induction piece generalizing s with
  | nil => simp [standsAtStart]
  | cons c piece ih =>
    rw [List.mem_cons, not_or] at solid
    rw [List.cons_append, standsFor_cons_iff (Ne.symm solid.1)]
    cases s with
    | nil => simp [standsAtStart]
    | cons d s =>
      rw [standsAtStart, Bool.and_eq_true, Bool.or_eq_true, beq_iff_eq, List.length_cons,
        List.drop_succ_cons, and_assoc, ← ih solid.2]
      constructor
      · rintro ⟨d, t, shape, fits, rest⟩
        cases shape
        exact ⟨fits, rest⟩
      · rintro ⟨fits, rest⟩
        exact ⟨d, s, rfl, fits, rest⟩

/-- A piece between percent signs may be taken where it stands first. The rest of the pattern needs
some end of what follows there, and what follows any later place is such an end. -/
theorem standsFor_piece_iff (solid : '%' ∉ piece) :
    StandsFor ('%' :: (piece ++ '%' :: pattern)) s ↔
      ∃ t, afterPiece? piece s = some t ∧ StandsFor ('%' :: pattern) t := by
  induction s with
  | nil =>
    rw [standsFor_percent_iff, afterPiece?]
    simp only [List.suffix_nil, exists_eq_left, standsFor_append_iff solid, List.drop_nil]
    cases piece with
    | nil => simp [standsAtStart]
    | cons c piece => simp [standsAtStart]
  | cons c s ih =>
    rw [standsFor_percent_cons_iff, standsFor_append_iff solid, afterPiece?]
    by_cases starts : standsAtStart piece (c :: s) = true
    case neg => simp [starts, ih]
    case pos =>
      rw [if_pos starts]
      simp only [starts, true_and, Option.some.injEq, exists_eq_left']
      refine or_iff_left_of_imp fun later => ?_
      rcases standsFor_percent_iff.1 later with ⟨t, ⟨before, shape⟩, stands⟩
      refine ((standsFor_append_iff solid).1 stands).2.of_suffix ?_
      have ends : t = (c :: s).drop (before.length + 1) := by simp [← shape]
      rw [ends, List.drop_drop]
      exact List.drop_suffix_drop_left _ (Nat.le_add_left ..)

/-- So it is with all pieces before a percent sign. -/
theorem standsFor_pieces_iff {f : List Char} : StandsFor ('%' :: (f ++ '%' :: pattern)) s ↔
    ∃ t, afterPieces? (f.splitOn '%') s = some t ∧ StandsFor ('%' :: pattern) t := by
  induction size : f.length using Nat.strongRecOn generalizing f s with
  | ind n ih =>
    subst size
    by_cases solid : '%' ∈ f
    case neg =>
      rw [standsFor_piece_iff solid, List.splitOn_eq_singleton solid, afterPieces?,
        List.foldlM_cons]
      simp only [List.foldlM_nil, bind_pure]
    case pos =>
      rcases List.eq_append_cons_of_mem solid with ⟨piece, rest, rfl, first⟩
      have shorter : rest.length < (piece ++ '%' :: rest).length := by
        simp only [List.length_append, List.length_cons]
        omega
      have pieces : ∀ s, afterPieces? ((piece ++ '%' :: rest).splitOn '%') s =
          (afterPiece? piece s).bind (afterPieces? (rest.splitOn '%')) := by
        intro s
        rw [List.splitOn_append_cons_self, List.splitOn_eq_singleton first]
        rfl
      rw [List.append_assoc, List.cons_append, standsFor_piece_iff first, pieces]
      simp only [ih _ shorter rfl, Option.bind_eq_some_iff]
      constructor
      · rintro ⟨t, found, u, later, stands⟩
        exact ⟨u, ⟨t, found, later⟩, stands⟩
      · rintro ⟨u, ⟨t, found, later⟩, stands⟩
        exact ⟨t, found, u, later, stands⟩

theorem length_le_of_standsAtStart (starts : standsAtStart piece s = true) :
    piece.length ≤ s.length := by
  fun_induction standsAtStart piece s with
  | case1 => exact Nat.zero_le _
  | case2 => cases starts
  | case3 c piece d s ih =>
    rw [Bool.and_eq_true] at starts
    exact Nat.succ_le_succ (ih starts.2)

/-- A piece stands for a text if it stands at its start and the text is no longer. -/
theorem standsFor_solid_iff (solid : '%' ∉ piece) :
    StandsFor piece s ↔ standsAtStart piece s = true ∧ s.length ≤ piece.length := by
  rw [← List.append_nil piece, standsFor_append_iff solid, standsFor_nil_iff, List.drop_eq_nil_iff,
    List.append_nil]

/-- Behind the last percent sign the end of a text is compared. -/
theorem standsFor_last_iff (solid : '%' ∉ piece) :
    StandsFor ('%' :: piece) s ↔ endsInPiece piece s = true := by
  rw [standsFor_percent_iff, endsInPiece, Bool.and_eq_true, decide_eq_true_eq]
  constructor
  · rintro ⟨t, ends, stands⟩
    rcases (standsFor_solid_iff solid).1 stands with ⟨starts, short⟩
    have same := Nat.le_antisymm (length_le_of_standsAtStart starts) short
    refine ⟨same ▸ ends.length_le, ?_⟩
    rw [same, ← List.suffix_iff_eq_drop.1 ends]
    exact starts
  · rintro ⟨fits, starts⟩
    refine ⟨_, List.drop_suffix _ s, (standsFor_solid_iff solid).2 ⟨starts, ?_⟩⟩
    rw [List.length_drop]
    omega

end Signs

/-! ## Fragments -/

/-- The pattern around a fragment. A null character ends it. -/
def patternAround (fragment : String) : List Char :=
  beforeNull ('%' :: (fragment.toList ++ ['%']))

theorem beforeNull_of_not_mem {s : List Char} (whole : '\x00' ∉ s) : beforeNull s = s := by
  refine List.takeWhile_eq_self_iff.2 fun c member => ?_
  rw [bne_iff_ne]
  rintro rfl
  exact whole member

theorem not_mem_beforeNull (s : List Char) : '\x00' ∉ beforeNull s := by
  intro member
  have other := List.mem_takeWhile_imp member
  simp at other

theorem patternAround_of_not_mem {fragment : String} (whole : '\x00' ∉ fragment.toList) :
    patternAround fragment = '%' :: (fragment.toList ++ ['%']) := by
  refine beforeNull_of_not_mem ?_
  simp [whole]

theorem patternAround_of_mem {fragment : String} (ends : '\x00' ∈ fragment.toList) :
    patternAround fragment = '%' :: beforeNull fragment.toList := by
  have cut : ∃ c ∈ fragment.toList, ¬(c != '\x00') = true := ⟨_, ends, by simp⟩
  unfold patternAround beforeNull
  rw [List.takeWhile_cons_of_pos (by decide), List.takeWhile_append]
  rw [if_neg]
  intro same
  rcases cut with ⟨c, member, null⟩
  have full := (List.takeWhile_prefix (· != '\x00')).eq_of_length same
  exact null (List.takeWhile_eq_self_iff.1 full c member)

/-- A path contains a match of a fragment exactly if the pattern around the fragment stands for it,
up to a null character. -/
theorem containsMatch_iff (fragment path : String) : containsMatch fragment path = true ↔
    StandsFor (patternAround fragment) (beforeNull path.toList) := by
  generalize text : beforeNull path.toList = s
  unfold containsMatch
  simp only [text, List.contains_iff_mem]
  by_cases ends : '\x00' ∈ fragment.toList
  case neg =>
    rw [if_neg ends, patternAround_of_not_mem ends, standsFor_pieces_iff,
      beforeNull_of_not_mem ends, Option.isSome_iff_exists]
    exact exists_congr fun t => ⟨fun found => ⟨found, standsFor_percent t⟩, And.left⟩
  case pos =>
    rw [if_pos ends, patternAround_of_mem ends]
    by_cases solid : '%' ∈ beforeNull fragment.toList
    case neg =>
      rw [standsFor_last_iff solid, List.splitOn_eq_singleton solid]
      simp [afterPieces?]
    case pos =>
      rcases List.eq_append_cons_of_mem (List.mem_reverse.2 solid) with ⟨last, front, shape, behind⟩
      have parts : beforeNull fragment.toList = front.reverse ++ '%' :: last.reverse := by
        rw [← List.reverse_reverse (beforeNull _), shape]
        simp
      rw [← List.mem_reverse] at behind
      rw [parts, standsFor_pieces_iff, List.splitOn_append_cons_self,
        List.splitOn_eq_singleton behind, List.dropLast_concat, List.getLast?_concat,
        Option.getD_some, Option.any_eq_true]
      simp only [standsFor_last_iff behind]

/-! ## Literal characters -/

/-- A character that stands for itself in a pattern and for nothing else: neither a sign, nor an
ASCII letter, nor one of the characters that count as no character. -/
def isLiteral (c : Char) : Bool :=
  !(c == '%' || c == '_' || c == '\x00' || c.isAlpha ||
    c == '\ufffd' || c == '\ufffe' || c == '\uffff')

theorem toLower_of_not_isAlpha {c : Char} (other : c.isAlpha = false) : c.toLower = c := by
  have notUpper : c.isUpper = false := (Bool.or_eq_false_iff.1 other).1
  refine dif_neg fun upper => ?_
  exact absurd (notUpper.symm.trans (decide_eq_true upper)) Bool.false_ne_true

/-- A letter in the other case. -/
def otherCase (c : Char) : Char :=
  if c.isUpper then c.toLower else c.toUpper

/-- The cases of an ASCII letter. There are few, so they are looked at one by one. -/
theorem cases_of_isAlpha {c : Char} (letter : c.isAlpha = true) :
    c.toLower.isAlpha = true ∧ (otherCase c).isAlpha = true ∧ otherCase c ≠ c ∧
      (otherCase c).toLower = c.toLower := by
  have small : c.toNat < 128 := by
    rcases Bool.or_eq_true_iff.1 letter with upper | lower
    · have last : c.val ≤ 'Z'.val := (of_decide_eq_true upper).2
      exact Nat.lt_of_le_of_lt (UInt32.le_iff_toNat_le.1 last) (by decide)
    · have last : c.val ≤ 'z'.val := (of_decide_eq_true (Bool.and_eq_true_iff.1 lower).2)
      exact Nat.lt_of_le_of_lt (UInt32.le_iff_toNat_le.1 last) (by decide)
  have each : ∀ n < 128, (Char.ofNat n).isAlpha = true →
      (Char.ofNat n).toLower.isAlpha = true ∧ (otherCase (Char.ofNat n)).isAlpha = true ∧
        otherCase (Char.ofNat n) ≠ Char.ofNat n ∧
        (otherCase (Char.ofNat n)).toLower = (Char.ofNat n).toLower := by
    decide +kernel
  have found := each c.toNat small
  rw [Char.ofNat_toNat] at found
  exact found letter

theorem eq_of_sameLetter {c d : Char} (literal : isLiteral c = true)
    (same : sameLetter c d = true) : d = c := by
  simp only [isLiteral, Bool.not_eq_true', Bool.or_eq_false_iff, beq_eq_false_iff_ne] at literal
  rcases literal with ⟨⟨⟨⟨⟨⟨-, -⟩, -⟩, notAlpha⟩, notSign⟩, first⟩, second⟩
  have self : counted c = c := if_neg (by simp [first, second])
  have lower : (counted d).toLower = c := by
    rw [sameLetter, beq_iff_eq, self, toLower_of_not_isAlpha notAlpha] at same
    exact same.symm
  have unlike : (counted d).isAlpha = false := by
    rw [← Bool.not_eq_true]
    intro letter
    have same := (cases_of_isAlpha letter).1
    rw [lower, notAlpha] at same
    cases same
  rw [toLower_of_not_isAlpha unlike] at lower
  unfold counted at lower
  split at lower
  next => exact absurd lower.symm notSign
  next => exact lower

/-- Literal characters stand for themselves only. -/
theorem standsFor_literal_append_iff {f pattern s : List Char}
    (literal : ∀ c ∈ f, isLiteral c = true) :
    StandsFor (f ++ pattern) s ↔ ∃ t, s = f ++ t ∧ StandsFor pattern t := by
  induction f generalizing s with
  | nil => simp
  | cons c f ih =>
    rw [List.forall_mem_cons] at literal
    have single : c ≠ '%' := by
      rintro rfl
      exact absurd literal.1 (by decide)
    rw [List.cons_append, standsFor_cons_iff single]
    simp only [ih literal.2]
    constructor
    · rintro ⟨d, -, rfl, fits, t, rfl, rest⟩
      refine ⟨t, ?_, rest⟩
      rcases fits with rfl | same
      · exact absurd literal.1 (by decide)
      · rw [eq_of_sameLetter literal.1 same, List.cons_append]
    · rintro ⟨t, rfl, rest⟩
      exact ⟨c, f ++ t, rfl, .inr (beq_self_eq_true _), t, rfl, rest⟩

/-- The pattern around a fragment stands for every text that contains the fragment. -/
theorem standsFor_of_infix {f s : List Char} (inside : f <:+: s) :
    StandsFor ('%' :: (f ++ ['%'])) s := by
  rcases inside with ⟨before, after, rfl⟩
  rw [List.append_assoc]
  exact .percent before ((standsFor_self f).append (standsFor_percent after))

/-- Around literal characters, it stands for no other text. -/
theorem infix_of_standsFor {f s : List Char} (literal : ∀ c ∈ f, isLiteral c = true)
    (stands : StandsFor ('%' :: (f ++ ['%'])) s) : f <:+: s := by
  rcases standsFor_percent_iff.1 stands with ⟨t, ⟨before, rfl⟩, rest⟩
  rcases (standsFor_literal_append_iff literal).1 rest with ⟨after, rfl, -⟩
  exact ⟨before, after, List.append_assoc ..⟩

/-- An ASCII letter stands for the same letter in the other case. -/
theorem standsFor_otherCase {c : Char} (letter : c.isAlpha = true) :
    StandsFor [c] [otherCase c] := by
  rcases cases_of_isAlpha letter with ⟨-, other, -, same⟩
  have self : ∀ {d : Char}, d.isAlpha = true → counted d = d := by
    intro d isLetter
    refine if_neg ?_
    rw [Bool.or_eq_true, beq_iff_eq, beq_iff_eq]
    rintro (rfl | rfl) <;> exact absurd isLetter (by decide)
  refine .one ?_ (.inr ?_) .nil
  · rintro rfl
    exact absurd letter (by decide)
  · rw [sameLetter, self letter, self other, same]
    exact beq_self_eq_true _

/-- A character that is not literal stands for another one. -/
theorem exists_other {c : Char} (sign : isLiteral c = false) (notNull : c ≠ '\x00') :
    ∃ d, d ≠ c ∧ d ≠ '\x00' ∧ StandsFor [c] [d] := by
  have alike : ∀ d, c ≠ '%' → sameLetter c d = true → StandsFor [c] [d] := fun d single same =>
    .one single (.inr same) .nil
  simp only [isLiteral, Bool.not_eq_false', Bool.or_eq_true, beq_iff_eq] at sign
  rcases sign with (((((rfl | rfl) | null) | letter) | rfl) | rfl) | rfl
  · exact ⟨'x', by decide, by decide, .percent ['x'] .nil⟩
  · exact ⟨'x', by decide, by decide, .one (by decide) (.inl rfl) .nil⟩
  · exact absurd null notNull
  · rcases cases_of_isAlpha letter with ⟨-, other, differs, -⟩
    refine ⟨otherCase c, differs, fun null => ?_, standsFor_otherCase letter⟩
    rw [null] at other
    cases other
  · exact ⟨'\ufffe', by decide, by decide, alike _ (by decide) rfl⟩
  · exact ⟨'\ufffd', by decide, by decide, alike _ (by decide) rfl⟩
  · exact ⟨'\ufffd', by decide, by decide, alike _ (by decide) rfl⟩

/-- A fragment that is not literal matches some path in which it does not occur: the path has
another character where the fragment has a sign, or lacks what follows a null character. -/
theorem exists_lookalike {fragment : String} (sign : ¬∀ c ∈ fragment.toList, isLiteral c = true) :
    ∃ path : String, '\x00' ∉ path.toList ∧ containsMatch fragment path = true ∧
      ¬fragment.toList <:+: path.toList := by
  suffices ∃ s : List Char, '\x00' ∉ s ∧ StandsFor (patternAround fragment) s ∧
      ¬fragment.toList <:+: s by
    rcases this with ⟨s, whole, stands, missing⟩
    refine ⟨String.ofList s, ?_, ?_, ?_⟩
    · rwa [String.toList_ofList]
    · rwa [containsMatch_iff, String.toList_ofList, beforeNull_of_not_mem whole]
    · rwa [String.toList_ofList]
  by_cases ends : '\x00' ∈ fragment.toList
  case pos =>
    have whole := not_mem_beforeNull fragment.toList
    refine ⟨beforeNull fragment.toList, whole, ?_, fun inside => whole (inside.subset ends)⟩
    rw [patternAround_of_mem ends]
    exact .percent [] (standsFor_self _)
  case neg =>
    simp only [not_forall, Bool.not_eq_true] at sign
    rcases sign with ⟨c, member, sign⟩
    obtain ⟨before, after, shape⟩ := List.append_of_mem member
    rw [shape, List.mem_append, List.mem_cons, not_or, not_or] at ends
    rcases exists_other sign (Ne.symm ends.2.1) with ⟨d, other, notNull, stands⟩
    refine ⟨before ++ d :: after, ?_, ?_, ?_⟩
    · rw [List.mem_append, List.mem_cons, not_or, not_or]
      exact ⟨ends.1, Ne.symm notNull, ends.2.2⟩
    · have whole : '\x00' ∉ fragment.toList := by
        rw [shape, List.mem_append, List.mem_cons, not_or, not_or]
        exact ends
      rw [patternAround_of_not_mem whole, shape]
      have inner := (standsFor_self before).append (stands.append (standsFor_self after))
      have around := StandsFor.percent [] (inner.append (standsFor_percent []))
      simpa using around
    · rw [shape]
      intro inside
      have same := inside.eq_of_length (by simp)
      exact other (List.cons.inj (List.append_cancel_left same)).1.symm

end CallAtlas.Store
