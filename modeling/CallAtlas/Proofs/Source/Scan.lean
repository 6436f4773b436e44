import CallAtlas.Source.Scan
import Mathlib.Data.List.Basic
import Mathlib.Data.List.TakeWhile

/-!
# Scanners along a text

A scanner made of two reads the first and then the second, and a scanner that runs along a text
either fails at a place and goes on one character further, or reads something and goes on behind
it. What it reads is a part of the text (`Occurrence.In`). The lemmas here are all that later
proofs use of scanners: nothing below them opens the monad of scanners or the recursion of
`occurrencesFrom`.
-/

namespace CallAtlas.Source

variable {α β : Type}

namespace Scan

/-! ## Two scanners in a row -/

theorem bind_of_read {p : Scan α} {f : α → Scan β} {s rest : List Char} {a : α}
    (read : p s = some (a, rest)) : (p >>= f) s = f a rest := by
  change (p s >>= fun x => f x.1 x.2) = f a rest
  rw [read]
  rfl

theorem bind_of_none {p : Scan α} {f : α → Scan β} {s : List Char} (fails : p s = none) :
    (p >>= f) s = none := by
  change (p s >>= fun x => f x.1 x.2) = none
  rw [fails]
  rfl

/-- Two scanners in a row read something only if the first one does. -/
theorem bind_eq_some {p : Scan α} {f : α → Scan β} {s : List Char} {read : β × List Char}
    (h : (p >>= f) s = some read) : ∃ a rest, p s = some (a, rest) ∧ f a rest = some read := by
  cases first : p s with
  | none =>
    rw [bind_of_none first] at h
    cases h
  | some pair =>
    rw [bind_of_read first] at h
    exact ⟨pair.1, pair.2, rfl, h⟩

/-- A run that needs a character has one, and all of its characters are of its class. -/
theorem someRun_eq_some {p : Char → Bool} {s n rest : List Char}
    (h : someRun p s = some (n, rest)) : n ≠ [] ∧ ∀ c ∈ n, p c = true := by
  unfold someRun at h
  split at h
  next starts =>
    cases h
    cases s with
    | nil => cases starts
    | cons c s =>
      have first : p c = true := starts
      rw [List.takeWhile_cons_of_pos first]
      refine ⟨List.cons_ne_nil _ _, ?_⟩
      intro d member
      rcases List.mem_cons.1 member with rfl | later
      · exact first
      · exact List.mem_takeWhile_imp later
  next => cases h

/-- A name has a character, and all of its characters are those of names. -/
theorem name_eq_some {s n rest : List Char} (h : name s = some (n, rest)) :
    n ≠ [] ∧ ∀ c ∈ n, Text.isNameChar c = true :=
  someRun_eq_some h

/-! ## What scanners leave -/

/-- What a scanner leaves is an end of the text. -/
def LeavesEnd (p : Scan α) : Prop :=
  ∀ s a rest, p s = some (a, rest) → rest <:+ s

theorem literal_eq_some {word s rest : List Char} {read : Unit}
    (h : literal word s = some (read, rest)) : s = word ++ rest := by
  unfold literal at h
  split at h
  next starts =>
    cases h
    obtain ⟨more, rfl⟩ := List.isPrefixOf_iff_prefix.1 starts
    rw [List.drop_left]
  next => cases h

theorem leavesEnd_literal (word : List Char) : LeavesEnd (literal word) := by
  intro s a rest read
  rw [literal_eq_some read]
  exact List.suffix_append word rest

theorem leavesEnd_blanks : LeavesEnd blanks := by
  intro s a rest read
  cases read
  exact Text.dropBlanks_suffix s

theorem leavesEnd_someBlanks : LeavesEnd someBlanks := by
  intro s a rest read
  unfold someBlanks at read
  split at read
  next =>
    cases read
    exact Text.dropBlanks_suffix s
  next => cases read

theorem leavesEnd_someRun (p : Char → Bool) : LeavesEnd (someRun p) := by
  intro s a rest read
  unfold someRun at read
  split at read
  next =>
    cases read
    exact List.dropWhile_suffix _
  next => cases read

theorem leavesEnd_pure (a : α) : LeavesEnd (pure a : Scan α) := by
  intro s b rest read
  cases read
  exact List.suffix_rfl

theorem LeavesEnd.bind {p : Scan α} {f : α → Scan β} (first : p.LeavesEnd)
    (second : ∀ a, (f a).LeavesEnd) : (p >>= f).LeavesEnd := by
  intro s b rest read
  obtain ⟨a, behind, reads, next⟩ := bind_eq_some read
  exact (second a behind b rest next).trans (first s a behind reads)

theorem LeavesEnd.map {p : Scan α} (leaves : p.LeavesEnd) (g : α → β) : (g <$> p).LeavesEnd :=
  leaves.bind fun a => leavesEnd_pure (g a)

theorem LeavesEnd.orElse {p q : Scan α} (first : p.LeavesEnd) (second : q.LeavesEnd) :
    (p <|> q).LeavesEnd := by
  intro s a rest read
  change (p s <|> q s) = some (a, rest) at read
  cases reads : p s with
  | none =>
    rw [reads] at read
    exact second s a rest read
  | some pair =>
    rw [reads] at read
    exact first s a rest (reads.trans read)

theorem LeavesEnd.optional {p : Scan α} (leaves : p.LeavesEnd) : (optional p).LeavesEnd :=
  (leaves.map some).orElse (leavesEnd_pure none)

theorem LeavesEnd.succeeds {p : Scan α} (leaves : p.LeavesEnd) : (succeeds p).LeavesEnd :=
  (leaves.bind fun _ => leavesEnd_pure true).orElse (leavesEnd_pure false)

theorem leavesEnd_char (p : Char → Bool) : (char p).LeavesEnd := by
  intro s a rest read
  unfold char at read
  split at read
  next => cases read
  next c s =>
    split at read
    next =>
      cases read
      exact List.suffix_cons _ _
    next => cases read

theorem leavesEnd_run (p : Char → Bool) : (run p).LeavesEnd := by
  intro s a rest read
  cases read
  exact List.dropWhile_suffix p

/-- A scanner that runs somewhere behind the start of a text hands the next one a place behind the
start too. -/
theorem exists_next {p : Scan α} {f : α → Scan β} {s : List Char} {read : β × List Char}
    (leaves : p.LeavesEnd) (reached : ∃ t, t <:+ s ∧ (p >>= f) t = some read) :
    ∃ a t, t <:+ s ∧ f a t = some read := by
  obtain ⟨t, behind, reads⟩ := reached
  obtain ⟨a, rest, first, next⟩ := bind_eq_some reads
  exact ⟨a, rest, (leaves t a rest first).trans behind, next⟩

end Scan

/-! ## Places along a text -/

/-- Where a scanner reads nothing it goes on one character further. -/
theorem occurrencesFrom_of_none {p : Option Char → Scan α} {before s : List Char} {c : Char}
    (fails : p before.head? (c :: s) = none) :
    occurrencesFrom p before (c :: s) = occurrencesFrom p (c :: before) s := by
  rw [occurrencesFrom]
  split
  next read => rw [fails] at read; cases read
  next => rfl

/-- Where a scanner reads a part of a text it goes on behind that part. -/
theorem occurrencesFrom_of_read {p : Option Char → Scan α} {before text rest : List Char} {value : α}
    (nonempty : text ≠ []) (reads : p before.head? (text ++ rest) = some (value, rest)) :
    occurrencesFrom p before (text ++ rest) =
      ⟨before, value, text, rest⟩ :: occurrencesFrom p (text.reverse ++ before) rest := by
  cases text with
  | nil => exact (nonempty rfl).elim
  | cons c text =>
    rw [List.cons_append] at reads ⊢
    have shorter : rest.length < (text ++ rest).length + 1 := by
      rw [List.length_append]
      omega
    have taken : (c :: (text ++ rest)).take ((text ++ rest).length + 1 - rest.length) =
        c :: text := by
      rw [← List.cons_append, show (text ++ rest).length + 1 - rest.length = (c :: text).length by
        rw [List.length_append, List.length_cons]; omega]
      exact List.take_left
    rw [occurrencesFrom, reads]
    dsimp only
    rw [dif_pos shorter, taken]

/-- Where a scanner reads nothing of a text, though it does not fail, it goes on one character
further too. -/
theorem occurrencesFrom_of_idle {p : Option Char → Scan α} {before s : List Char} {c : Char}
    {value : α} (reads : p before.head? (c :: s) = some (value, c :: s)) :
    occurrencesFrom p before (c :: s) = occurrencesFrom p (c :: before) s := by
  have longer : ¬(c :: s).length < s.length + 1 := by
    rw [List.length_cons]
    omega
  rw [occurrencesFrom, reads]
  dsimp only
  rw [dif_neg longer]

/-- An occurrence is read from some place of the text, and takes a part of what stands there: what
is not left as the rest. -/
theorem exists_taken_of_mem {p : Option Char → Scan α} {before s : List Char} {o : Occurrence α}
    (member : o ∈ occurrencesFrom p before s) :
    ∃ start, start.length ≤ s.length ∧ o.rest.length < start.length ∧
      p o.before.head? start = some (o.value, o.rest) ∧
      o.text = start.take (start.length - o.rest.length) := by
  fun_induction occurrencesFrom p before s with
  | case1 => cases member
  | case2 before c s value rest read left whole shorter text ih =>
    rcases List.mem_cons.1 member with rfl | later
    · exact ⟨c :: s, Nat.le_refl _, shorter, read, rfl⟩
    · obtain ⟨start, inside, found⟩ := ih later
      refine ⟨start, ?_, found⟩
      have : left < whole := shorter
      simp only [List.length_cons]
      omega
  | case3 before c s value rest read left whole longer ih =>
    obtain ⟨start, inside, found⟩ := ih member
    exact ⟨start, Nat.le_succ_of_le inside, found⟩
  | case4 before c s fails ih =>
    obtain ⟨start, inside, found⟩ := ih member
    exact ⟨start, Nat.le_succ_of_le inside, found⟩

/-- An occurrence is read from some place of the text. -/
theorem exists_read_of_mem {p : Option Char → Scan α} {before s : List Char} {o : Occurrence α}
    (member : o ∈ occurrencesFrom p before s) :
    ∃ start, start.length ≤ s.length ∧ o.rest.length < start.length ∧
      p o.before.head? start = some (o.value, o.rest) := by
  obtain ⟨start, inside, shorter, read, -⟩ := exists_taken_of_mem member
  exact ⟨start, inside, shorter, read⟩

/-- Occurrences lie behind the text before the part that is searched. -/
theorem le_offset_of_mem {p : Option Char → Scan α} {before s : List Char} {o : Occurrence α}
    (member : o ∈ occurrencesFrom p before s) : before.length ≤ o.offset := by
  fun_induction occurrencesFrom p before s with
  | case1 => cases member
  | case2 before c s value rest read left whole shorter text ih =>
    rcases List.mem_cons.1 member with rfl | later
    · exact Nat.le_refl _
    · have bound := ih later
      rw [List.length_append] at bound
      omega
  | case3 before c s value rest read left whole longer ih =>
    have bound := ih member
    rw [List.length_cons] at bound
    omega
  | case4 before c s fails ih =>
    have bound := ih member
    rw [List.length_cons] at bound
    omega

/-- Occurrences come in the order in which they start. -/
theorem pairwise_offset (p : Option Char → Scan α) (before s : List Char) :
    (occurrencesFrom p before s).Pairwise fun o o' => o.offset < o'.offset := by
  fun_induction occurrencesFrom p before s with
  | case1 => exact List.Pairwise.nil
  | case2 before c s value rest read left whole shorter text ih =>
    refine List.pairwise_cons.2 ⟨fun o later => ?_, ih⟩
    have behind := le_offset_of_mem later
    have longer : 0 < text.length := by
      rw [List.length_take, List.length_cons]
      omega
    rw [List.length_append, List.length_reverse] at behind
    change before.length < o.offset
    omega
  | case3 before c s value rest read left whole longer ih => exact ih
  | case4 before c s fails ih => exact ih

/-- An occurrence is a part of a text, and a scanner reads it where it stands. -/
structure Occurrence.In (p : Option Char → Scan α) (s : List Char) (o : Occurrence α) : Prop where
  split : o.before.reverse ++ (o.text ++ o.rest) = s
  nonempty : o.text ≠ []
  read : p o.before.head? (o.text ++ o.rest) = some (o.value, o.rest)

/-- What a scanner reads along a text is in the text, if it always leaves the end of what it reads
from. -/
theorem in_of_mem_occurrencesFrom {p : Option Char → Scan α}
    (leaves : ∀ before, (p before).LeavesEnd) {before s : List Char} {o : Occurrence α}
    (member : o ∈ occurrencesFrom p before s) : o.In p (before.reverse ++ s) := by
  fun_induction occurrencesFrom p before s with
  | case1 => cases member
  | case2 before c s value rest read left whole shorter text ih =>
    have cut : text ++ rest = c :: s := by
      rcases leaves _ _ _ _ read with ⟨front, same⟩
      have lengths := congrArg List.length same
      rw [List.length_append, List.length_cons] at lengths
      have size : whole - left = front.length := by omega
      change (c :: s).take (whole - left) ++ rest = c :: s
      rw [size, ← same, List.take_left]
    rcases List.mem_cons.1 member with rfl | later
    · refine ⟨by rw [cut], ?_, by rw [cut]; exact read⟩
      intro none
      change text = [] at none
      have lengths := congrArg List.length cut
      rw [none, List.length_append, List.length_cons, List.length_nil] at lengths
      omega
    · have inLater := ih later
      rw [List.reverse_append, List.reverse_reverse, List.append_assoc, cut] at inLater
      exact inLater
  | case3 before c s value rest read left whole longer ih =>
    have inLater := ih member
    rw [List.reverse_cons, List.append_assoc, List.singleton_append] at inLater
    exact inLater
  | case4 before c s fails ih =>
    have inLater := ih member
    rw [List.reverse_cons, List.append_assoc, List.singleton_append] at inLater
    exact inLater

theorem in_of_mem {p : Option Char → Scan α} (leaves : ∀ before, (p before).LeavesEnd)
    {s : List Char} {o : Occurrence α} (member : o ∈ occurrences p s) : o.In p s :=
  in_of_mem_occurrencesFrom leaves member

namespace Occurrence

variable {p : Option Char → Scan α} {s : List Char} {o : Occurrence α} (inText : o.In p s)
include inText

theorem In.length_eq : s.length = o.offset + o.text.length + o.rest.length := by
  rw [← inText.split, List.length_append, List.length_append, List.length_reverse, Nat.add_assoc]
  rfl

theorem In.starts : o.before.reverse <+: s :=
  ⟨_, inText.split⟩

end Occurrence

/-- Of two cuts through a text, the one that leaves more lies before the other. -/
theorem exists_middle {text rest first second : List α} (whole : text ++ rest = first ++ second)
    (longer : second.length ≤ rest.length) :
    ∃ left, first = text ++ left ∧ rest = left ++ second := by
  rcases List.append_eq_append_iff.1 whole with ⟨left, behind, same⟩ | ⟨left, behind, same⟩
  · exact ⟨left, behind, same⟩
  · have none : left = [] := by
      have lengths := congrArg List.length same
      rw [List.length_append] at lengths
      exact List.eq_nil_of_length_eq_zero (by omega)
    rw [none, List.append_nil] at behind
    rw [none, List.nil_append] at same
    exact ⟨[], by rw [behind, List.append_nil], by rw [same, List.nil_append]⟩

/-- A text can be searched in two parts if nothing that is found in the first part reaches into the
second. -/
theorem occurrencesFrom_append_of_apart {p : Option Char → Scan α}
    (leaves : ∀ before, (p before).LeavesEnd) {before first second : List Char}
    (apart : ∀ o ∈ occurrencesFrom p before (first ++ second),
      o.offset < before.length + first.length → second.length ≤ o.rest.length) :
    ∃ os, occurrencesFrom p before (first ++ second) =
        os ++ occurrencesFrom p (first.reverse ++ before) second ∧
      ∀ o ∈ os, o.offset < before.length + first.length := by
  -- By induction on the first part: a piece of it is left behind each occurrence.
  induction length : first.length using Nat.strong_induction_on generalizing before first with
  | _ n ih =>
    cases first with
    | nil => exact ⟨[], rfl, List.forall_mem_nil _⟩
    | cons c first =>
      rw [List.length_cons] at length
      have passed : occurrencesFrom p before (c :: first ++ second) =
          occurrencesFrom p (c :: before) (first ++ second) →
          ∃ os, occurrencesFrom p before (c :: first ++ second) =
              os ++ occurrencesFrom p ((c :: first).reverse ++ before) second ∧
            ∀ o ∈ os, o.offset < before.length + n := by
        intro goesOn
        rw [goesOn] at apart ⊢
        obtain ⟨os, split, bound⟩ := ih first.length (by omega) (fun o member early =>
          apart o member (by simp only [List.length_cons] at early ⊢; omega)) rfl
        refine ⟨os, ?_, fun o member => ?_⟩
        · rw [split, List.reverse_cons, List.append_assoc, List.singleton_append]
        · have early := bound o member
          rw [List.length_cons] at early
          omega
      cases read : p before.head? (c :: first ++ second) with
      | none => exact passed (occurrencesFrom_of_none read)
      | some pair =>
        obtain ⟨value, rest⟩ := pair
        obtain ⟨text, whole⟩ := leaves _ _ _ _ read
        by_cases idle : text = []
        case pos =>
          rw [idle, List.nil_append] at whole
          rw [whole] at read
          exact passed (occurrencesFrom_of_idle read)
        case neg =>
          rw [← whole] at read apart ⊢
          rw [occurrencesFrom_of_read idle read] at apart ⊢
          have own : second.length ≤ rest.length :=
            apart _ List.mem_cons_self (by
              change before.length < _
              rw [List.length_cons]
              omega)
          obtain ⟨left, split, rfl⟩ := exists_middle whole own
          have lengths : n = text.length + left.length := by
            rw [← length, ← List.length_cons (a := c), split, List.length_append]
          have longer : 0 < text.length := List.length_pos_of_ne_nil idle
          have moved : (text.reverse ++ before).length + left.length = before.length + n := by
            rw [List.length_append, List.length_reverse]
            omega
          obtain ⟨os, found, bound⟩ := ih left.length (by omega) (fun o member early =>
            apart o (List.mem_cons_of_mem _ member) (by
              rw [List.length_cons]
              omega)) rfl
          refine ⟨⟨before, value, text, left ++ second⟩ :: os, ?_, ?_⟩
          · rw [found, split, List.reverse_append, List.append_assoc, List.cons_append]
          · refine List.forall_mem_cons.2 ⟨?_, fun o member => moved ▸ bound o member⟩
            change before.length < _
            omega

end CallAtlas.Source
