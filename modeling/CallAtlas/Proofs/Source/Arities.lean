import CallAtlas.Proofs.Canonical.Scanning
import CallAtlas.Proofs.QualifiedName
import CallAtlas.Proofs.Report

/-!
# Explicit arities

A call may name its arity in digits of any script. Reading the calls of a body, and so the function
with that body, fails where such a numeral is longer than numerals may be and the qualifier of the
call is known, and nowhere else. A call that is never closed is passed over with a notice.
-/

namespace CallAtlas

namespace Source

/-! ## Calls -/

theorem Scan.optional_eq_some {α : Type} {p : Scan α} {s rest : List Char} {a : α}
    (h : Scan.optional p s = some (some a, rest)) : p s = some (a, rest) := by
  cases read : p s with
  | none =>
    rw [Scan.optional_of_none read] at h
    cases h
  | some pair =>
    rw [Scan.optional_of_read read] at h
    cases h
    rfl

/-- An explicit arity is a numeral of decimal digits. -/
theorem isDecimal_of_callHead {before : Option Char} {s rest : List Char} {head : CallHead}
    (h : callHead before s = some (head, rest)) {digits : List Char}
    (explicit : head.arity = some digits) :
    digits ≠ [] ∧ ∀ c ∈ digits, Text.isDecimal c = true := by
  unfold callHead at h
  split at h
  next => cases h
  next =>
    obtain ⟨first, _, -, h⟩ := Scan.bind_eq_some h
    obtain ⟨more, _, -, h⟩ := Scan.bind_eq_some h
    obtain ⟨_, _, -, h⟩ := Scan.bind_eq_some h
    obtain ⟨start, _, -, h⟩ := Scan.bind_eq_some h
    obtain ⟨tail, _, -, h⟩ := Scan.bind_eq_some h
    obtain ⟨arity, _, readArity, h⟩ := Scan.bind_eq_some h
    cases h
    cases explicit
    obtain ⟨_, _, -, run⟩ := Scan.bind_eq_some (Scan.optional_eq_some readArity)
    exact Scan.someRun_eq_some run

/-- Whether every explicit arity in a body, at a call by a known qualifier, is short enough to be
read. -/
def HasShortArities (known : List String) (body : List Char) : Prop :=
  ∀ o ∈ occurrences callHead body, String.ofList o.value.qualifier ∈ known →
    ∀ digits ∈ o.value.arity, digits.length ≤ maxDigits

instance (known : List String) (body : List Char) : Decidable (HasShortArities known body) :=
  inferInstanceAs (Decidable (∀ o ∈ occurrences callHead body,
    String.ofList o.value.qualifier ∈ known → ∀ digits ∈ o.value.arity, digits.length ≤ maxDigits))

theorem exists_arityOf_iff {head : CallHead} (rest : List Char) (decimal : ∀ digits,
      head.arity = some digits → digits ≠ [] ∧ ∀ c ∈ digits, Text.isDecimal c = true) :
    (∃ arity, (arityOf head rest).value = .ok arity) ↔
      ∀ digits ∈ head.arity, digits.length ≤ maxDigits := by
  unfold arityOf
  cases explicit : head.arity with
  | some digits =>
    obtain ⟨nonempty, decimals⟩ := decimal digits explicit
    simp only [Option.mem_def, Option.some.injEq, forall_eq']
    rw [Numeral.readInt_of_isDecimal nonempty decimals]
    by_cases short : digits.length ≤ maxDigits
    · rw [if_pos short]
      exact ⟨fun _ => short, fun _ => ⟨_, rfl⟩⟩
    · rw [if_neg short]
      exact ⟨fun ⟨arity, absent⟩ => (nomatch absent), fun holds => (short holds).elim⟩
  | none =>
    refine ⟨fun _ digits absent => (nomatch absent), fun _ => ?_⟩
    dsimp only
    split
    next s _ =>
      cases cutParenthesis? s with
      | some cut => exact ⟨_, rfl⟩
      | none => exact ⟨_, rfl⟩
    next => exact ⟨_, rfl⟩

/-- A numeral has more digits than are read. -/
def IsTooLong (e : NumeralError) : Prop :=
  ∃ digits, maxDigits < digits ∧ e = .tooLong digits

theorem failsBy_arityOf {head : CallHead} (rest : List Char) (decimal : ∀ digits,
      head.arity = some digits → digits ≠ [] ∧ ∀ c ∈ digits, Text.isDecimal c = true) :
    (arityOf head rest).FailsBy IsTooLong := by
  unfold arityOf
  cases explicit : head.arity with
  | some digits =>
    obtain ⟨nonempty, decimals⟩ := decimal digits explicit
    dsimp only
    rw [Numeral.readInt_of_isDecimal nonempty decimals]
    by_cases short : digits.length ≤ maxDigits
    · rw [if_pos short]
      exact Checked.failsBy_of_ok rfl
    · rw [if_neg short]
      intro e failed
      cases failed
      exact ⟨_, Nat.lt_of_not_le short, rfl⟩
  | none =>
    have returns := (exists_arityOf_iff rest decimal).2 (by simp [explicit])
    obtain ⟨arity, returns⟩ := returns
    unfold arityOf at returns
    rw [explicit] at returns
    exact Checked.failsBy_of_ok returns

/-- A call whose parenthesis is not closed is passed over with a notice. -/
theorem mem_notices_arityOf {head : CallHead} {rest s : List Char} (implicit : head.arity = none)
    (opened : Text.dropBlanks rest = '(' :: s) (unclosed : cutParenthesis? s = none) :
    .callUnclosed (String.ofList head.qualifier) (String.ofList head.name) ∈
      (arityOf head rest).notices := by
  unfold arityOf
  rw [implicit]
  simp only [opened, unclosed]
  exact List.mem_cons_self

/-- The calls of a body are read if and only if its explicit arities by known qualifiers are
short. -/
theorem exists_callSitesBy_iff {known : List String} {lineAfter : List Char → Nat}
    {body : List Char} :
    (∃ sites, (callSitesBy known lineAfter body).value = .ok sites) ↔
      HasShortArities known body := by
  have loop : (∃ sites, (callSitesBy known lineAfter body).value = .ok sites) ↔
      ∃ results, ((occurrences callHead body).mapM (callSiteAt known lineAfter)).value =
        .ok results := by
    constructor
    · rintro ⟨sites, read⟩
      obtain ⟨results, each, -⟩ := Checked.value_bind_eq_ok.1 read
      exact ⟨results, each⟩
    · rintro ⟨results, each⟩
      refine ⟨results.filterMap id, ?_⟩
      unfold callSitesBy
      rw [Checked.value_bind_of_ok each]
      rfl
  rw [loop, Checked.exists_value_mapM_iff]
  unfold HasShortArities
  refine forall₂_congr fun o found => ?_
  obtain ⟨start, -, -, read⟩ := exists_read_of_mem found
  have arity := exists_arityOf_iff o.rest fun digits explicit => isDecimal_of_callHead read explicit
  rw [← List.contains_iff_mem]
  unfold callSiteAt
  dsimp only
  split
  next isKnown =>
    constructor
    · rintro ⟨site, made⟩ -
      obtain ⟨n, counted, -⟩ := Checked.value_bind_eq_ok.1 made
      exact arity.1 ⟨n, counted⟩
    · intro short
      obtain ⟨n, counted⟩ := arity.2 (short isKnown)
      exact ⟨_, Checked.value_bind_of_ok counted _⟩
  next unknown => exact ⟨fun _ isKnown => absurd isKnown unknown, fun _ => ⟨none, rfl⟩⟩

/-- Reading the calls of a body fails on nothing but explicit arities that are too long. -/
theorem failsBy_callSitesBy {known : List String} {lineAfter : List Char → Nat} {body : List Char} :
    (callSitesBy known lineAfter body).FailsBy IsTooLong := by
  refine (Checked.FailsBy.mapM fun o found => ?_).bind fun _ _ => Checked.failsBy_of_ok rfl
  obtain ⟨start, -, -, read⟩ := exists_read_of_mem found
  have arity := failsBy_arityOf o.rest fun digits explicit => isDecimal_of_callHead read explicit
  unfold callSiteAt
  dsimp only
  split
  next => exact arity.bind fun _ _ => Checked.failsBy_of_ok rfl
  next => exact Checked.failsBy_of_ok rfl

/-- Every call by a known qualifier that is not closed is reported. -/
theorem mem_notices_callSitesBy {known : List String} {lineAfter : List Char → Nat}
    {body s : List Char} {o : Occurrence CallHead} (short : HasShortArities known body)
    (found : o ∈ occurrences callHead body) (isKnown : String.ofList o.value.qualifier ∈ known)
    (implicit : o.value.arity = none) (opened : Text.dropBlanks o.rest = '(' :: s)
    (unclosed : cutParenthesis? s = none) :
    .callUnclosed (String.ofList o.value.qualifier) (String.ofList o.value.name) ∈
      (callSitesBy known lineAfter body).notices := by
  obtain ⟨sites, returns⟩ := (@exists_callSitesBy_iff known lineAfter body).2 short
  obtain ⟨results, each, -⟩ := Checked.value_bind_eq_ok.1 returns
  refine Checked.mem_notices_of_first
    (Checked.mem_notices_mapM (Checked.exists_value_mapM_iff.1 ⟨results, each⟩) found ?_) _
  unfold callSiteAt
  dsimp only
  rw [if_pos (List.contains_iff_mem.2 isKnown)]
  exact Checked.mem_notices_of_first (mem_notices_arityOf implicit opened unclosed) _

/-- A declaration with an outline gives a function if and only if the explicit arities in its body
can be read. -/
theorem exists_functionOf_iff {known : List String} {content : List Char} {o : Occurrence Header}
    {parts : Outline} :
    (∃ f, (functionOf known content o parts).value = .ok f) ↔ HasShortArities known parts.body := by
  rw [← exists_callSitesBy_iff]
  constructor
  · rintro ⟨f, read⟩
    obtain ⟨calls, sites, -⟩ := Checked.value_bind_eq_ok.1 read
    exact ⟨calls, sites⟩
  · rintro ⟨calls, sites⟩
    exact ⟨_, Checked.value_bind_of_ok sites _⟩

theorem failsBy_functionOf {known : List String} {content : List Char} {o : Occurrence Header}
    {parts : Outline} : (functionOf known content o parts).FailsBy IsTooLong :=
  failsBy_callSitesBy.bind fun _ _ => Checked.failsBy_of_ok rfl

end Source
end CallAtlas
