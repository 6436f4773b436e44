import CallAtlas.Text.Blank
import CallAtlas.Text.Lines
import Mathlib.Data.List.Basic

/-!
# Lines and blanks

A text is *unbroken* if none of its characters ends a line. Cutting a text into lines gives unbroken
lines, and unbroken lines that are written with a line feed after each are cut apart again as they
were. Blanks around a line are trimmed away, and nothing else. A text is cut at the first of a mark.
Offsets further on have lines further on.
-/

namespace CallAtlas.Text

/-! ## Blanks -/

theorem dropBlanks_of_not_blank {s : List Char} (solid : s.head?.any isBlank = false) :
    dropBlanks s = s := by
  cases s with
  | nil => rfl
  | cons c s =>
    have other : ¬isBlank c = true := by
      rw [Bool.not_eq_true]
      exact solid
    exact List.dropWhile_cons_of_neg other

/-- A text without blanks at its ends is trimmed. -/
theorem trim_eq_self {s : List Char} (first : s.head?.any isBlank = false)
    (last : s.getLast?.any isBlank = false) : trim s = s := by
  unfold trim dropBlanksEnd
  rw [dropBlanks_of_not_blank first]
  rw [← List.head?_reverse] at last
  rw [show s.reverse.dropWhile isBlank = s.reverse from dropBlanks_of_not_blank last,
    List.reverse_reverse]

/-- Blanks before a trimmed text are trimmed away. -/
theorem trim_append {pad s : List Char} (blank : ∀ c ∈ pad, isBlank c = true)
    (first : s.head?.any isBlank = false) (last : s.getLast?.any isBlank = false) :
    trim (pad ++ s) = s := by
  have dropped : dropBlanks (pad ++ s) = dropBlanks s := List.dropWhile_append_of_pos blank
  have trimmed := trim_eq_self first last
  unfold trim at trimmed ⊢
  rw [dropped]
  exact trimmed

theorem trim_sublist (s : List Char) : (trim s).Sublist s := by
  unfold trim dropBlanksEnd
  have ends : (dropBlanks s).reverse.dropWhile isBlank <:+ (dropBlanks s).reverse :=
    List.dropWhile_suffix _
  have shorter := ends.sublist.reverse
  rw [List.reverse_reverse] at shorter
  exact shorter.trans (dropBlanks_suffix s).sublist

/-! ## Cuts -/

/-- A text is cut at the first of a mark. -/
theorem cut_append {mark : Char} {before : List Char} (absent : mark ∉ before)
    (after : List Char) :
    (before ++ mark :: after).takeWhile (· != mark) = before ∧
      (before ++ mark :: after).dropWhile (· != mark) = mark :: after := by
  have differ : ∀ c ∈ before, (c != mark) = true := by
    intro c member
    rw [bne_iff_ne]
    rintro rfl
    exact absent member
  rw [List.takeWhile_append_of_pos differ, List.dropWhile_append_of_pos differ]
  simp

/-- What stands before and behind the first of a mark is determined by the text. -/
theorem cut_unique {mark : Char} {s t u v : List Char} (inFirst : mark ∉ s) (inSecond : mark ∉ t)
    (same : s ++ mark :: u = t ++ mark :: v) : s = t ∧ u = v := by
  obtain ⟨before, behind⟩ := cut_append inFirst u
  obtain ⟨otherBefore, otherBehind⟩ := cut_append inSecond v
  rw [same, otherBefore] at before
  rw [same, otherBehind] at behind
  exact ⟨before.symm, (List.cons.inj behind).2.symm⟩

/-! ## Lines -/

/-- A text in which no line ends. -/
def IsUnbroken (s : List Char) : Prop :=
  ∀ c ∈ s, isLineBreak c = false

instance (s : List Char) : Decidable (IsUnbroken s) :=
  List.decidableBAll (fun c => isLineBreak c = false) s

theorem isUnbroken_nil : IsUnbroken [] :=
  fun _ member => nomatch member

theorem IsUnbroken.append {s t : List Char} (first : IsUnbroken s) (second : IsUnbroken t) :
    IsUnbroken (s ++ t) := by
  intro c member
  rcases List.mem_append.1 member with inFirst | inSecond
  · exact first c inFirst
  · exact second c inSecond

theorem IsUnbroken.of_subset {s t : List Char} (unbroken : IsUnbroken s) (part : t ⊆ s) :
    IsUnbroken t :=
  fun c member => unbroken c (part member)

/-- What ends a line is a blank. -/
theorem isBlank_of_isLineBreak {c : Char} (ends : isLineBreak c = true) : isBlank c = true := by
  unfold isLineBreak at ends
  simp only [Bool.or_eq_true, beq_iff_eq] at ends
  rcases ends with ((((((((rfl | rfl) | rfl) | rfl) | rfl) | rfl) | rfl) | rfl) | rfl) | rfl <;>
    decide

theorem isUnbroken_of_not_blank {s : List Char} (solid : ∀ c ∈ s, isBlank c = false) :
    IsUnbroken s := by
  intro c member
  rw [← Bool.not_eq_true]
  intro ends
  have blank := isBlank_of_isLineBreak ends
  rw [solid c member] at blank
  cases blank

theorem linesFrom_cons {c : Char} (other : c ≠ '\r') (line s : List Char) :
    linesFrom line (c :: s) =
      if isLineBreak c then line.reverse :: linesFrom [] s else linesFrom (c :: line) s := by
  rw [linesFrom.eq_def]
  split
  next same => cases same
  next same =>
    cases same
    exact absurd rfl other
  next same =>
    cases same
    rfl

/-- An unbroken text before a line feed is the rest of a line. -/
theorem linesFrom_append {s : List Char} (unbroken : IsUnbroken s) (line rest : List Char) :
    linesFrom line (s ++ '\n' :: rest) = (line.reverse ++ s) :: linesFrom [] rest := by
  induction s generalizing line with
  | nil =>
    rw [List.nil_append, linesFrom_cons (by decide), List.append_nil]
    rfl
  | cons c s ih =>
    have inside : isLineBreak c = false := unbroken c List.mem_cons_self
    have other : c ≠ '\r' := by
      rintro rfl
      cases inside
    have later : IsUnbroken s := fun d member => unbroken d (List.mem_cons_of_mem _ member)
    rw [List.cons_append, linesFrom_cons other, inside, if_neg Bool.false_ne_true, ih later,
      List.reverse_cons, List.append_assoc]
    rfl

/-- Unbroken lines are cut apart as they were written. -/
theorem lines_flatMap {ls : List (List Char)} (unbroken : ∀ l ∈ ls, IsUnbroken l) :
    lines (ls.flatMap (· ++ ['\n'])) = ls := by
  unfold lines
  induction ls with
  | nil => rfl
  | cons l ls ih =>
    rw [List.flatMap_cons, List.append_assoc, List.singleton_append,
      linesFrom_append (unbroken l List.mem_cons_self), List.reverse_nil, List.nil_append,
      ih fun l member => unbroken l (List.mem_cons_of_mem _ member)]

theorem isUnbroken_of_mem_linesFrom {line s l : List Char} (unbroken : IsUnbroken line)
    (member : l ∈ linesFrom line s) : IsUnbroken l := by
  have turned : IsUnbroken line.reverse :=
    unbroken.of_subset fun c inLine => List.mem_reverse.1 inLine
  fun_induction linesFrom line s with
  | case1 line empty => cases member
  | case2 line nonempty =>
    rw [List.mem_singleton.1 member]
    exact turned
  | case3 line s ih =>
    rcases List.mem_cons.1 member with rfl | later
    · exact turned
    · exact ih isUnbroken_nil later isUnbroken_nil
  | case4 line c s _ ends ih =>
    rcases List.mem_cons.1 member with rfl | later
    · exact turned
    · exact ih isUnbroken_nil later isUnbroken_nil
  | case5 line c s _ inside ih =>
    have longer : IsUnbroken (c :: line) := by
      intro d inLine
      rcases List.mem_cons.1 inLine with rfl | old
      · exact Bool.not_eq_true _ ▸ inside
      · exact unbroken d old
    exact ih longer member (longer.of_subset fun d inLine => List.mem_reverse.1 inLine)

/-- The lines of a text are unbroken. -/
theorem isUnbroken_of_mem_lines {s l : List Char} (member : l ∈ lines s) : IsUnbroken l :=
  isUnbroken_of_mem_linesFrom isUnbroken_nil member

/-! ## Numbers of lines -/

theorem lineOf_mono (s : List Char) {first last : Nat} (le : first ≤ last) :
    lineOf s first ≤ lineOf s last := by
  have part : (s.take first).Sublist (s.take last) := (List.take_prefix_take_left le).sublist
  exact Nat.succ_le_succ (part.count_le '\n')

theorem lineOf_le (s : List Char) (offset : Nat) : lineOf s offset ≤ s.count '\n' + 1 :=
  Nat.succ_le_succ ((List.take_sublist offset s).count_le '\n')

theorem one_le_lineOf (s : List Char) (offset : Nat) : 1 ≤ lineOf s offset :=
  Nat.succ_le_succ (Nat.zero_le _)

/-- The line behind a text that starts at an offset. -/
theorem lineOf_add {s : List Char} {offset : Nat} {before : List Char}
    (starts : before.reverse <+: s.drop offset) :
    lineOf s (offset + before.length) = lineOf s offset + before.count '\n' := by
  have taken := List.prefix_iff_eq_take.1 starts
  rw [List.length_reverse] at taken
  unfold lineOf lineAfter
  rw [List.take_add, ← taken, List.count_append, List.count_reverse]
  omega

end CallAtlas.Text
