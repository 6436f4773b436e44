import CallAtlas.Text.Blank
import CallAtlas.Text.Digit
import CallAtlas.Text.Word
import Mathlib.Data.List.Basic

/-!
# Blanks and other classes of characters

A blank is neither part of a name nor a digit. The classes are tables of code points, and there are
few blanks, so each of these facts is one look at the codes of the blanks (`not_of_isBlank`).
-/

namespace CallAtlas.Text

/-- A blank is in no class that excludes the blanks. -/
theorem not_of_isBlank {p : Char → Bool} {c : Char} (blank : isBlank c = true)
    (codes : ∀ range ∈ blanks, ∀ i < range.2 + 1 - range.1,
      p (Char.ofNat (range.1 + i)) = false) : p c = false := by
  obtain ⟨range, listed, within⟩ := List.any_eq_true.1 blank
  rw [Bool.and_eq_true, decide_eq_true_eq, decide_eq_true_eq] at within
  have other := codes range listed (c.toNat - range.1) (by omega)
  rw [Nat.add_sub_cancel' within.1, Char.ofNat_toNat] at other
  exact other

theorem isNameChar_of_isBlank {c : Char} (blank : isBlank c = true) :
    isNameChar c = false :=
  not_of_isBlank blank (by decide +kernel)

theorem not_digitLike_of_isBlank {c : Char} (blank : isBlank c = true) :
    isDigitLike c = false :=
  not_of_isBlank blank (by decide +kernel)

theorem not_blank_of_isNameChar {c : Char} (nameChar : isNameChar c = true) :
    isBlank c = false := by
  rw [← Bool.not_eq_true]
  intro blank
  rw [isNameChar_of_isBlank blank] at nameChar
  cases nameChar

theorem not_word_of_isBlank {c : Char} (blank : isBlank c = true) : isWord c = false := by
  have other := isNameChar_of_isBlank blank
  unfold isNameChar at other
  simp only [Bool.or_eq_false_iff] at other
  exact other.1.1

theorem head?_not_word_of_blank {s : List Char} (blank : s.head?.any isBlank = true) :
    s.head?.any isWord = false := by
  cases s with
  | nil => rfl
  | cons c s => exact not_word_of_isBlank blank

theorem getLast?_not_word_of_blank {s : List Char} (blank : ∀ c ∈ s, isBlank c = true) :
    s.getLast?.any isWord = false := by
  cases last : s.getLast? with
  | none => rfl
  | some c => exact not_word_of_isBlank (blank c (List.mem_of_getLast? last))

/-- Blanks have no character of a class without blanks. -/
theorem any_eq_false_of_isBlank {p : Char → Bool} {s : List Char}
    (solid : ∀ {c}, p c = true → isBlank c = false) (blank : ∀ c ∈ s, isBlank c = true) :
    s.any p = false := by
  rw [List.any_eq_false]
  intro c member holds
  have other := solid holds
  rw [blank c member] at other
  cases other

end CallAtlas.Text
