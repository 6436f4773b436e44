import CallAtlas.Numeral
import CallAtlas.Proofs.Text.Blank
import Mathlib.Algebra.Ring.Nat
import Mathlib.Data.List.TakeWhile

/-!
# Reading numerals

A text of digits, of any script and with or without decimal values, has no sign, no padding and no
underscore. So the digits read are those before the first without a decimal value, and the text is
an integer where there is no such digit and it is not too long (`exists_readInt_iff`). The digits
that a number is written with are read as that number, an integer is told by its digits and minus
sign, and a numeral that is read stays below the bound on its length.
-/

namespace CallAtlas.Numeral

/-! ## Digits -/

theorem digitValue?_of_isDigit {c : Char} (digit : c.isDigit = true) :
    Text.digitValue? c = some (c.toNat - '0'.toNat) := by
  have small : c.toNat < 0x80 := by
    rw [Char.isDigit_iff_toNat] at digit
    have := digit.2
    change c.toNat ≤ 57 at this
    omega
  unfold Text.digitValue?
  rw [if_pos small, if_pos digit]

theorem isDecimal_of_isDigit {c : Char} (digit : c.isDigit = true) : Text.isDecimal c = true := by
  unfold Text.isDecimal
  rw [digitValue?_of_isDigit digit, Option.isSome_some]

theorem isDigitLike_of_isDecimal {c : Char} (decimal : Text.isDecimal c = true) :
    Text.isDigitLike c = true := by
  unfold Text.isDigitLike
  rw [decimal, Bool.true_or]

theorem digitValue?_lt {c : Char} {d : Nat} (h : Text.digitValue? c = some d) : d < 10 := by
  unfold Text.digitValue? at h
  split at h
  next =>
    split at h
    next digit =>
      cases h
      rw [Char.isDigit_iff_toNat] at digit
      have high : c.toNat ≤ 57 := digit.2
      have zero : '0'.toNat = 48 := rfl
      omega
    next => cases h
  next =>
    obtain ⟨first, found, rfl⟩ := Option.map_eq_some_iff.1 h
    have bounds := List.find?_some found
    simp only [Bool.and_eq_true, decide_eq_true_eq] at bounds
    omega

theorem isPadding_of_isDigitLike {c : Char} (digit : Text.isDigitLike c = true) :
    isPadding c = false := by
  unfold isPadding
  rw [Bool.and_eq_false_iff]
  left
  rw [← Bool.not_eq_true]
  intro blank
  rw [Text.not_digitLike_of_isBlank blank] at digit
  cases digit

/-- A text of digits has neither padding nor a sign in front. -/
theorem sign_of_isDigitLike {s : List Char} (digits : ∀ c ∈ s, Text.isDigitLike c = true) :
    sign (s.dropWhile isPadding) = (false, s) := by
  cases s with
  | nil => rfl
  | cons c s =>
    have digit := digits c List.mem_cons_self
    have solid : ¬isPadding c = true := by
      rw [isPadding_of_isDigitLike digit]
      exact Bool.false_ne_true
    rw [List.dropWhile_cons_of_neg solid]
    unfold sign
    split
    next same =>
      cases same
      exact absurd digit (by decide)
    next same =>
      cases same
      exact absurd digit (by decide)
    next => rfl

theorem unmarked_of_isDigitLike {s : List Char} (digits : ∀ c ∈ s, Text.isDigitLike c = true) :
    '_' ∉ s := by
  intro member
  exact absurd (digits _ member) (by decide)

/-! ## Runs of digits -/

/-- Without underscores the decimal digits in front are read. -/
theorem digitsFrom_of_unmarked {mayEnd : Bool} {s : List Char} (unmarked : '_' ∉ s)
    (given : mayEnd = true ∨ s.takeWhile Text.isDecimal ≠ []) :
    digitsFrom mayEnd s = some ((s.takeWhile Text.isDecimal).filterMap Text.digitValue?,
      s.dropWhile Text.isDecimal) := by
  induction s generalizing mayEnd with
  | nil =>
    rcases given with rfl | nonempty
    · rfl
    · exact (nonempty rfl).elim
  | cons c s ih =>
    have others := ih (fun member => unmarked (List.mem_cons_of_mem _ member)) (Or.inl rfl)
    cases value : Text.digitValue? c with
    | some d =>
      have decimal : Text.isDecimal c = true := by simp [Text.isDecimal, value]
      rw [digitsFrom, value, List.takeWhile_cons_of_pos decimal, List.dropWhile_cons_of_pos decimal,
        List.filterMap_cons_some value]
      simp only [others, Option.map_some]
    | none =>
      have other : ¬Text.isDecimal c = true := by simp [Text.isDecimal, value]
      have mayEnd : mayEnd = true := by
        rcases given with mayEnd | nonempty
        · exact mayEnd
        · exact (nonempty (List.takeWhile_cons_of_neg other)).elim
      have solid : ¬(c == '_') = true := by
        rw [beq_iff_eq]
        rintro rfl
        exact unmarked List.mem_cons_self
      rw [digitsFrom, value, List.takeWhile_cons_of_neg other, List.dropWhile_cons_of_neg other]
      simp only [mayEnd, Bool.not_true, Bool.false_eq_true, if_false, if_neg solid,
        List.filterMap_nil]

theorem digitsFrom_of_isDecimal {mayEnd : Bool} {s : List Char}
    (decimals : ∀ c ∈ s, Text.isDecimal c = true) (given : mayEnd = true ∨ s ≠ []) :
    digitsFrom mayEnd s = some (s.filterMap Text.digitValue?, []) := by
  have unmarked : '_' ∉ s :=
    unmarked_of_isDigitLike fun c member => isDigitLike_of_isDecimal (decimals c member)
  have whole : s.takeWhile Text.isDecimal = s := List.takeWhile_eq_self_iff.2 decimals
  have read := @digitsFrom_of_unmarked mayEnd s unmarked (by rwa [whole])
  rwa [whole, List.dropWhile_eq_nil_iff.2 decimals] at read

theorem length_filterMap_digitValue? {s : List Char}
    (decimals : ∀ c ∈ s, Text.isDecimal c = true) :
    (s.filterMap Text.digitValue?).length = s.length := by
  induction s with
  | nil => rfl
  | cons c s ih =>
    obtain ⟨d, value⟩ := Option.isSome_iff_exists.1 (decimals c List.mem_cons_self)
    rw [List.filterMap_cons_some value, List.length_cons, List.length_cons,
      ih fun c member => decimals c (List.mem_cons_of_mem _ member)]

/-! ## Texts of digits -/

/-- Decimal digits behind a sign are an integer unless they are too many. -/
theorem readInt_of_sign {s digits : List Char} {negative : Bool}
    (signed : sign (s.dropWhile isPadding) = (negative, digits)) (nonempty : digits ≠ [])
    (decimals : ∀ c ∈ digits, Text.isDecimal c = true) :
    readInt s =
      if digits.length ≤ maxDigits then
        let n := Int.ofNat (value (digits.filterMap Text.digitValue?))
        .ok (if negative then -n else n)
      else .error (.tooLong digits.length) := by
  unfold readInt
  rw [signed]
  simp only [digitsFrom_of_isDecimal decimals (Or.inr nonempty),
    length_filterMap_digitValue? decimals, List.all_nil, if_true]
  by_cases short : digits.length ≤ maxDigits
  · rw [if_neg (Nat.not_lt.2 short), if_pos short]
  · rw [if_pos (Nat.lt_of_not_le short), if_neg short]

theorem readInt_of_isDecimal {s : List Char} (nonempty : s ≠ [])
    (decimals : ∀ c ∈ s, Text.isDecimal c = true) :
    readInt s =
      if s.length ≤ maxDigits then .ok (Int.ofNat (value (s.filterMap Text.digitValue?)))
      else .error (.tooLong s.length) :=
  readInt_of_sign (sign_of_isDigitLike fun c member => isDigitLike_of_isDecimal (decimals c member))
    nonempty decimals

/-- A text of digits of which one has no decimal value is malformed or too long. -/
theorem not_readInt_of_not_isDecimal {s : List Char}
    (digits : ∀ c ∈ s, Text.isDigitLike c = true)
    (other : ∃ c ∈ s, ¬Text.isDecimal c = true) (n : Int) : readInt s ≠ .ok n := by
  have unmarked := unmarked_of_isDigitLike digits
  unfold readInt
  rw [sign_of_isDigitLike digits]
  by_cases first : s.takeWhile Text.isDecimal = []
  case pos =>
    have unread : digitsFrom false s = none := by
      cases s with
      | nil => rfl
      | cons c s =>
        have noValue : Text.digitValue? c = none := by
          rw [← Option.not_isSome_iff_eq_none]
          intro decimal
          have taken := List.takeWhile_cons_of_pos (p := Text.isDecimal) (l := s) decimal
          rw [first] at taken
          cases taken
        rw [digitsFrom, noValue]
        rfl
    dsimp only
    rw [unread]
    exact fun absent => nomatch absent
  case neg =>
    -- What follows the decimal digits starts with a digit, which is no padding.
    have solid : ¬(s.dropWhile Text.isDecimal).all isPadding = true := by
      intro padding
      cases after : s.dropWhile Text.isDecimal with
      | nil =>
        obtain ⟨c, member, other⟩ := other
        exact other (List.dropWhile_eq_nil_iff.1 after c member)
      | cons c rest =>
        have member : c ∈ s := (List.dropWhile_suffix _).subset (after ▸ List.mem_cons_self)
        have padding := List.all_eq_true.1 padding c (after ▸ List.mem_cons_self)
        rw [isPadding_of_isDigitLike (digits c member)] at padding
        cases padding
    dsimp only
    rw [digitsFrom_of_unmarked unmarked (Or.inr first)]
    dsimp only
    rw [if_neg solid]
    split
    next => exact fun absent => nomatch absent
    next => exact fun absent => nomatch absent

/-- A text of digits is read as an integer exactly where each has a decimal value and they are not
too many. -/
theorem exists_readInt_iff {s : List Char} (nonempty : s ≠ [])
    (digits : ∀ c ∈ s, Text.isDigitLike c = true) :
    (∃ n, readInt s = .ok n) ↔
      (∀ c ∈ s, Text.isDecimal c = true) ∧ s.length ≤ maxDigits := by
  by_cases decimals : ∀ c ∈ s, Text.isDecimal c = true
  case pos =>
    rw [readInt_of_isDecimal nonempty decimals]
    split
    next short => exact ⟨fun _ => ⟨decimals, short⟩, fun _ => ⟨_, rfl⟩⟩
    next long => exact ⟨fun ⟨_, absent⟩ => (nomatch absent), fun both => (long both.2).elim⟩
  case neg =>
    have other : ∃ c ∈ s, ¬Text.isDecimal c = true := by
      simpa only [not_forall, exists_prop] using decimals
    exact ⟨fun ⟨n, read⟩ => (not_readInt_of_not_isDecimal digits other n read).elim,
      fun both => (decimals both.1).elim⟩

/-- Some decimal digits write a number. -/
structure Writes (digits : List Char) (n : Int) : Prop where
  nonempty : digits ≠ []
  decimals : ∀ c ∈ digits, Text.isDecimal c = true
  value : n = Int.ofNat (value (digits.filterMap Text.digitValue?))

theorem Writes.isDigitLike {digits : List Char} {n : Int} (writes : Writes digits n) :
    ∀ c ∈ digits, Text.isDigitLike c = true :=
  fun c member => isDigitLike_of_isDecimal (writes.decimals c member)

/-- Of the texts of digits, those that write a number and are not too long are read. -/
theorem readInt_eq_ok_iff {s : List Char} (nonempty : s ≠ [])
    (digits : ∀ c ∈ s, Text.isDigitLike c = true) {n : Int} :
    readInt s = .ok n ↔ Writes s n ∧ s.length ≤ maxDigits := by
  constructor
  · intro read
    obtain ⟨decimals, short⟩ := (exists_readInt_iff nonempty digits).1 ⟨n, read⟩
    rw [readInt_of_isDecimal nonempty decimals, if_pos short, Except.ok.injEq] at read
    exact ⟨⟨nonempty, decimals, read.symm⟩, short⟩
  · rintro ⟨writes, short⟩
    rw [readInt_of_isDecimal nonempty writes.decimals, if_pos short, writes.value]

/-! ## The digits of a number -/

theorem isDigit_of_mem_toDigits {n : Nat} {c : Char} (member : c ∈ Nat.toDigits 10 n) :
    c.isDigit = true :=
  Nat.isDigit_of_mem_toDigits (by decide) (by decide) member

theorem value_toDigits (n : Nat) : value ((Nat.toDigits 10 n).filterMap Text.digitValue?) = n := by
  have values : (Nat.toDigits 10 n).filterMap Text.digitValue? =
      (Nat.toDigits 10 n).map fun c => c.toNat - '0'.toNat := by
    rw [← List.filterMap_eq_map]
    exact List.filterMap_congr fun c member =>
      digitValue?_of_isDigit (isDigit_of_mem_toDigits member)
  have read := Nat.ofDigitChars_ten_toDigits (n := n)
  unfold Nat.ofDigitChars at read
  unfold value
  rw [values, List.foldl_map]
  exact read

/-- The digits of a number behind a sign are read as the number with that sign, unless they are
too many. -/
theorem readInt_of_sign_toDigits {s : List Char} {negative : Bool} {n : Nat}
    (signed : sign (s.dropWhile isPadding) = (negative, Nat.toDigits 10 n)) :
    readInt s =
      if n < 10 ^ maxDigits then .ok (if negative then -Int.ofNat n else Int.ofNat n)
      else .error (.tooLong (Nat.toDigits 10 n).length) := by
  have length : (Nat.toDigits 10 n).length ≤ maxDigits ↔ n < 10 ^ maxDigits :=
    Nat.length_toDigits_le_iff (by decide) (by decide)
  rw [readInt_of_sign signed Nat.toDigits_ne_nil fun c member =>
    isDecimal_of_isDigit (isDigit_of_mem_toDigits member)]
  simp only [length, value_toDigits]

/-- The digits of a number are read as the number, unless they are too many. -/
theorem readInt_toDigits (n : Nat) :
    readInt (Nat.toDigits 10 n) =
      if n < 10 ^ maxDigits then .ok (Int.ofNat n)
      else .error (.tooLong (Nat.toDigits 10 n).length) := by
  have unsigned := sign_of_isDigitLike fun _ member =>
    isDigitLike_of_isDecimal (isDecimal_of_isDigit (isDigit_of_mem_toDigits (n := n) member))
  rw [readInt_of_sign_toDigits unsigned, if_neg Bool.false_ne_true]

/-! ## Integers as they are written -/

theorem toList_toString_int (a : Int) :
    (toString a).toList =
      if 0 ≤ a then Nat.toDigits 10 a.toNat else '-' :: Nat.toDigits 10 (-a).toNat := by
  rw [Int.toString_eq_repr, Int.repr_eq_if]
  split <;> simp

/-- An integer is written with digits and a minus sign. -/
theorem digit_of_mem_toString {n : Int} {c : Char} (member : c ∈ (toString n).toList) :
    c.isDigit = true ∨ c = '-' := by
  have digit : ∀ m : Nat, c ∈ Nat.toDigits 10 m → c.isDigit = true := fun _ inDigits =>
    isDigit_of_mem_toDigits inDigits
  rw [toList_toString_int] at member
  split at member
  next => exact Or.inl (digit _ member)
  next =>
    rcases List.mem_cons.1 member with rfl | later
    · exact Or.inr rfl
    · exact Or.inl (digit _ later)

theorem not_blank_of_mem_toString {n : Int} {c : Char} (member : c ∈ (toString n).toList) :
    Text.isBlank c = false := by
  rcases digit_of_mem_toString member with digit | rfl
  · rw [Char.isDigit_iff_toNat] at digit
    obtain ⟨low, high⟩ := digit
    change 48 ≤ c.toNat at low
    change c.toNat ≤ 57 at high
    unfold Text.isBlank Text.blanks Text.Ranges.contains
    simp only [List.any_cons, List.any_nil, Bool.or_false, Bool.or_eq_false_iff,
      Bool.and_eq_false_iff, decide_eq_false_iff_not]
    omega
  · decide

theorem toString_int_ne_nil (n : Int) : (toString n).toList ≠ [] := by
  rw [toList_toString_int]
  split
  next => exact Nat.toDigits_ne_nil
  next => exact List.cons_ne_nil _ _

theorem toDigits_ten_injective {m n : Nat} (same : Nat.toDigits 10 m = Nat.toDigits 10 n) :
    m = n := by
  have read := congrArg (fun s => Nat.ofDigitChars 10 s 0) same
  simpa using read

theorem toString_int_injective {a b : Int} (same : toString a = toString b) : a = b := by
  have lists := congrArg String.toList same
  have minus : ∀ n : Nat, '-' ∉ Nat.toDigits 10 n := by
    intro n member
    have digit := isDigit_of_mem_toDigits member
    cases digit
  rw [toList_toString_int, toList_toString_int] at lists
  split at lists <;> split at lists
  next => have := toDigits_ten_injective lists; omega
  next => exact (minus _ (lists ▸ List.mem_cons_self)).elim
  next => exact (minus _ (lists ▸ List.mem_cons_self)).elim
  next => have := toDigits_ten_injective (List.cons.inj lists).2; omega

theorem readInt_toString {n : Int} (short : n.natAbs < 10 ^ maxDigits) :
    readInt (toString n).toList = .ok n := by
  rw [toList_toString_int]
  split
  next positive =>
    rw [readInt_toDigits, if_pos (by omega)]
    congr 1
    exact Int.toNat_of_nonneg positive
  next negative =>
    have minus : isPadding '-' = false := by decide
    have signed : sign (('-' :: Nat.toDigits 10 (-n).toNat).dropWhile isPadding) =
        (true, Nat.toDigits 10 (-n).toNat) := by
      rw [List.dropWhile_cons_of_neg (by rw [minus]; decide)]
      rfl
    rw [readInt_of_sign_toDigits signed, if_pos (by omega), if_pos rfl]
    congr 1
    change -((-n).toNat : Int) = n
    omega

/-! ## The bound on integers -/

theorem lt_of_mem_digitsFrom {mayEnd : Bool} {s rest : List Char} {digits : List Nat}
    (h : digitsFrom mayEnd s = some (digits, rest)) : ∀ d ∈ digits, d < 10 := by
  fun_induction digitsFrom mayEnd s generalizing digits rest with
  | case1 => cases h; intro d member; cases member
  | case2 => cases h
  | case3 mayEnd c s d digit ih =>
    obtain ⟨found, read, same⟩ := Option.map_eq_some_iff.1 h
    cases same
    intro e member
    rcases List.mem_cons.1 member with rfl | later
    · exact digitValue?_lt digit
    · exact ih read e later
  | case4 => cases h
  | case5 _ _ _ _ _ _ ih => exact ih h
  | case6 => cases h; intro d member; cases member

theorem value_lt {digits : List Nat} (small : ∀ d ∈ digits, d < 10) :
    value digits < 10 ^ digits.length := by
  have grown : ∀ n, digits.foldl (fun n d => 10 * n + d) n < (n + 1) * 10 ^ digits.length := by
    induction digits with
    | nil => intro n; simp
    | cons d digits ih =>
      intro n
      have digit := small d List.mem_cons_self
      have rest := ih (fun d member => small d (List.mem_cons_of_mem _ member)) (10 * n + d)
      have step : (10 * n + d + 1) * 10 ^ digits.length ≤ (n + 1) * 10 ^ (d :: digits).length := by
        rw [List.length_cons, Nat.pow_succ', ← Nat.mul_assoc]
        exact Nat.mul_le_mul_right _ (by omega)
      exact Nat.lt_of_lt_of_le rest step
  have whole := grown 0
  rwa [Nat.zero_add, Nat.one_mul] at whole

/-- An integer that was read has no more digits than numerals may have. -/
theorem readInt_lt {s : List Char} {n : Int} (h : readInt s = .ok n) :
    n.toNat < 10 ^ maxDigits := by
  unfold readInt at h
  dsimp only at h
  split at h
  next => cases h
  next digits rest read =>
    split at h
    next => cases h
    next short =>
      have small := value_lt (lt_of_mem_digitsFrom read)
      have bound : 10 ^ digits.length ≤ 10 ^ maxDigits :=
        Nat.pow_le_pow_right (by decide) (Nat.not_lt.1 short)
      have below := Nat.lt_of_lt_of_le small bound
      split at h
      next =>
        cases h
        split
        next => rw [Int.ofNat_eq_natCast, Int.toNat_neg_natCast]; exact Nat.zero_lt_of_lt below
        next => exact below
      next => cases h

end CallAtlas.Numeral
