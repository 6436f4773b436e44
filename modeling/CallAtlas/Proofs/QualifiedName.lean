import CallAtlas.Proofs.Numeral
import CallAtlas.Proofs.Text.Lines
import CallAtlas.QualifiedName

/-!
# Qualified names are read back

A qualified name ends in a number sign and the digits of an arity, and neither digits nor a minus
sign is a number sign. So a qualified name determines its name and arity, and splitting it gives
both back just where the name holds no mark of its own and the arity is no longer than numerals may
be (`qualify_lossless`).

Any other text is split at its first number sign. Whether that succeeds is up to the digits behind
it (`IsLegible`), and `Names` says of which name and arity a text is one of the spellings.
-/

namespace CallAtlas

/-! ## Splitting -/

/-- What stands behind a name in a qualified name. -/
def arityMark : Option Int → List Char
  | some arity => '#' :: (toString arity).toList
  | none => []

theorem toList_qualify (name : String) (arity : Option Int) :
    (qualify name arity).toList = name.toList ++ arityMark arity := by
  cases arity with
  | none => exact (List.append_nil _).symm
  | some a =>
    change (name ++ "#" ++ toString a).toList = _
    rw [String.toList_append, String.toList_append, List.append_assoc]
    rfl

theorem number_sign_not_mem_toString (a : Int) : '#' ∉ (toString a).toList := by
  intro member
  rcases Numeral.digit_of_mem_toString member with digit | minus
  · cases digit
  · cases minus

theorem arityMark_ofNat (n : Nat) : arityMark (some (Int.ofNat n)) = '#' :: Nat.toDigits 10 n := by
  rw [Int.ofNat_eq_natCast, arityMark, Numeral.toList_toString_int, if_pos (Int.natCast_nonneg n),
    Int.toNat_natCast]

/-- What stands before and after the last number sign of two equal texts is the same. -/
theorem eq_of_append_number_sign {s t u v : List Char} (hu : '#' ∉ u) (hv : '#' ∉ v)
    (same : s ++ '#' :: u = t ++ '#' :: v) : s = t ∧ u = v := by
  -- Turned around, the last number sign is the first.
  have turned := congrArg List.reverse same
  rw [List.reverse_append, List.reverse_cons, List.append_assoc, List.singleton_append,
    List.reverse_append, List.reverse_cons, List.append_assoc, List.singleton_append] at turned
  obtain ⟨after, before⟩ :=
    Text.cut_unique (mt List.mem_reverse.1 hu) (mt List.mem_reverse.1 hv) turned
  exact ⟨List.reverse_inj.1 before, List.reverse_inj.1 after⟩

/-- A qualified name determines its name and its arity. -/
theorem qualify_injective {name other : String} {a b : Int}
    (same : qualify name (some a) = qualify other (some b)) : name = other ∧ a = b := by
  have lists := congrArg String.toList same
  rw [toList_qualify, toList_qualify] at lists
  obtain ⟨names, arities⟩ := eq_of_append_number_sign (number_sign_not_mem_toString a)
    (number_sign_not_mem_toString b) lists
  exact ⟨String.toList_inj.1 names, Numeral.toString_int_injective (String.toList_inj.1 arities)⟩

/-! ## Qualifiers -/

/-- A name stands bare, or after a qualifier and the first colon. -/
theorem unqualified_eq_iff {before name : List Char} :
    unqualified before = name ↔
      before = name ∧ ':' ∉ name ∨
        ∃ qualifier, before = qualifier ++ ':' :: name ∧ ':' ∉ qualifier := by
  unfold unqualified
  by_cases colon : ':' ∈ before
  case pos =>
    obtain ⟨qualifier, after, rfl, absent⟩ := List.eq_append_cons_of_mem colon
    rw [if_pos (List.contains_iff_mem.2 colon), (Text.cut_append absent after).2, List.tail_cons]
    constructor
    · rintro rfl
      exact Or.inr ⟨qualifier, rfl, absent⟩
    · rintro (⟨rfl, bare⟩ | ⟨other, same, otherAbsent⟩)
      · exact (bare colon).elim
      · exact (Text.cut_unique absent otherAbsent same).2
  case neg =>
    rw [if_neg (mt List.contains_iff_mem.1 colon)]
    constructor
    · rintro rfl
      exact Or.inl ⟨rfl, colon⟩
    · rintro (⟨same, -⟩ | ⟨qualifier, rfl, -⟩)
      · exact same
      · simp at colon

/-! ## Reading arities -/

/-- Whether digits after a number sign are those of an arity: all of them have a decimal value, and
they are not too many. What is not made of digits alone is no arity at all. -/
def IsLegible (digits : List Char) : Prop :=
  digits ≠ [] → (∀ c ∈ digits, Text.isDigitLike c = true) →
    (∀ c ∈ digits, Text.isDecimal c = true) ∧ digits.length ≤ maxDigits

instance (digits : List Char) : Decidable (IsLegible digits) :=
  decidable_of_iff (digits ≠ [] → digits.all Text.isDigitLike = true →
      digits.all Text.isDecimal = true ∧ digits.length ≤ maxDigits)
    (by rw [IsLegible, List.all_eq_true, List.all_eq_true])

theorem readArity_of_digits {digits : List Char} (nonempty : digits ≠ [])
    (each : ∀ c ∈ digits, Text.isDigitLike c = true) :
    readArity digits = some <$> Numeral.readInt digits := by
  unfold readArity
  rw [if_pos]
  simpa [nonempty] using each

theorem readArity_of_not_digits {digits : List Char}
    (other : ¬(digits ≠ [] ∧ ∀ c ∈ digits, Text.isDigitLike c = true)) :
    readArity digits = .ok none := by
  unfold readArity
  rw [if_neg]
  · rfl
  · simpa using other

theorem exists_readArity_iff {digits : List Char} :
    (∃ arity, readArity digits = .ok arity) ↔ IsLegible digits := by
  by_cases each : digits ≠ [] ∧ ∀ c ∈ digits, Text.isDigitLike c = true
  case pos =>
    obtain ⟨nonempty, each⟩ := each
    rw [readArity_of_digits nonempty each]
    have read := Numeral.exists_readInt_iff nonempty each
    constructor
    · rintro ⟨arity, h⟩ - -
      apply read.1
      cases number : Numeral.readInt digits with
      | ok n => exact ⟨n, rfl⟩
      | error e => simp [number] at h
    · intro legible
      obtain ⟨n, number⟩ := read.2 (legible nonempty each)
      exact ⟨some n, by simp [number]⟩
  case neg =>
    refine ⟨fun _ nonempty digitLike => (each ⟨nonempty, digitLike⟩).elim, fun _ => ⟨none, ?_⟩⟩
    exact readArity_of_not_digits each

/-- The arities that are read are the numbers that are written in digits and not too long. -/
theorem readArity_eq_some_iff {digits : List Char} {arity : Int} :
    readArity digits = .ok (some arity) ↔
      Numeral.Writes digits arity ∧ digits.length ≤ maxDigits := by
  by_cases each : digits ≠ [] ∧ ∀ c ∈ digits, Text.isDigitLike c = true
  case pos =>
    obtain ⟨nonempty, each⟩ := each
    rw [readArity_of_digits nonempty each, ← Numeral.readInt_eq_ok_iff nonempty each]
    cases Numeral.readInt digits <;> simp
  case neg =>
    rw [readArity_of_not_digits each]
    refine ⟨fun absent => (nomatch absent), fun ⟨writes, _⟩ => ?_⟩
    exact (each ⟨writes.nonempty, writes.isDigitLike⟩).elim

/-! ## Taking names apart -/

/-- The text after the first number sign, where the digits of an arity stand. -/
def arityText (text : String) : List Char :=
  (text.toList.dropWhile (· != '#')).tail

theorem arityText_of_cut {text : String} {before digits : List Char} (absent : '#' ∉ before)
    (whole : text.toList = before ++ '#' :: digits) : arityText text = digits := by
  rw [arityText, whole, (Text.cut_append absent digits).2, List.tail_cons]

/-- A text without a number sign is a name alone. -/
theorem uncut_of_not_mem {text : String} (unsigned : '#' ∉ text.toList) :
    text.toList.takeWhile (· != '#') = text.toList ∧ arityText text = [] := by
  have all : ∀ c ∈ text.toList, (c != '#') = true := by
    intro c member
    rw [bne_iff_ne]
    rintro rfl
    exact unsigned member
  rw [arityText, List.dropWhile_eq_nil_iff.2 all]
  exact ⟨List.takeWhile_eq_self_iff.2 all, rfl⟩

theorem splitQualified_eq (text : String) :
    splitQualified text = (fun arity =>
      (String.ofList (unqualified (text.toList.takeWhile (· != '#'))), arity)) <$>
        readArity (arityText text) := by
  unfold splitQualified arityText
  dsimp only
  cases readArity _ <;> rfl

theorem exists_splitQualified_iff {text : String} :
    (∃ name arity, splitQualified text = .ok (name, arity)) ↔ IsLegible (arityText text) := by
  rw [← exists_readArity_iff, splitQualified_eq]
  cases readArity (arityText text) <;> simp

theorem splitQualified_eq_ok_iff {text name : String} {arity : Option Int} :
    splitQualified text = .ok (name, arity) ↔
      unqualified (text.toList.takeWhile (· != '#')) = name.toList ∧
        readArity (arityText text) = .ok arity := by
  rw [splitQualified_eq]
  cases readArity (arityText text) <;> simp [← String.toList_inj]

/-- A text names a function by its name, which a qualifier may precede, a number sign and the
digits of its arity. -/
inductive Names (name : String) (arity : Int) : List Char → Prop
  | bare {digits : List Char} (unsigned : '#' ∉ name.toList) (unmarked : ':' ∉ name.toList)
    (writes : Numeral.Writes digits arity) : Names name arity (name.toList ++ '#' :: digits)
  | qualified {qualifier digits : List Char} (unsigned : '#' ∉ qualifier ++ ':' :: name.toList)
    (unmarked : ':' ∉ qualifier) (writes : Numeral.Writes digits arity) :
    Names name arity (qualifier ++ ':' :: name.toList ++ '#' :: digits)

theorem names_iff {name : String} {arity : Int} {s : List Char} :
    Names name arity s ↔ ∃ before digits, s = before ++ '#' :: digits ∧ '#' ∉ before ∧
      unqualified before = name.toList ∧ Numeral.Writes digits arity := by
  simp only [unqualified_eq_iff]
  constructor
  · rintro (⟨unsigned, unmarked, writes⟩ | ⟨unsigned, unmarked, writes⟩)
    · exact ⟨_, _, rfl, unsigned, Or.inl ⟨rfl, unmarked⟩, writes⟩
    · exact ⟨_, _, rfl, unsigned, Or.inr ⟨_, rfl, unmarked⟩, writes⟩
  · rintro ⟨before, digits, rfl, unsigned, ⟨rfl, unmarked⟩ | ⟨qualifier, rfl, unmarked⟩, writes⟩
    · exact .bare unsigned unmarked writes
    · exact .qualified unsigned unmarked writes

/-- A text is taken apart into the name and the arity that it names. -/
theorem splitQualified_eq_some_iff {text name : String} {arity : Int}
    (legible : IsLegible (arityText text)) :
    splitQualified text = .ok (name, some arity) ↔ Names name arity text.toList := by
  rw [splitQualified_eq_ok_iff, readArity_eq_some_iff, names_iff]
  by_cases sign : '#' ∈ text.toList
  case pos =>
    obtain ⟨before, digits, whole, absent⟩ := List.eq_append_cons_of_mem sign
    rw [arityText_of_cut absent whole] at legible ⊢
    rw [whole, (Text.cut_append absent digits).1]
    constructor
    · rintro ⟨named, writes, -⟩
      exact ⟨before, digits, rfl, absent, named, writes⟩
    · rintro ⟨otherBefore, otherDigits, same, otherAbsent, named, writes⟩
      obtain ⟨rfl, rfl⟩ := Text.cut_unique absent otherAbsent same
      exact ⟨named, writes, (legible writes.nonempty writes.isDigitLike).2⟩
  case neg =>
    have none := (uncut_of_not_mem sign).2
    constructor
    · rintro ⟨-, writes, -⟩
      exact (writes.nonempty none).elim
    · rintro ⟨before, digits, whole, -⟩
      simp [whole] at sign

/-- The name that a text is taken apart into holds no number sign. -/
theorem number_sign_not_mem_of_splitQualified {text name : String} {arity : Option Int}
    (split : splitQualified text = .ok (name, arity)) : '#' ∉ name.toList := by
  have suffix : ∀ s : List Char, unqualified s <:+ s := by
    intro s
    unfold unqualified
    split
    · exact (List.tail_suffix _).trans (List.dropWhile_suffix _)
    · exact List.suffix_rfl
  obtain ⟨named, -⟩ := splitQualified_eq_ok_iff.1 split
  rw [← named]
  intro member
  have differs := List.mem_takeWhile_imp ((suffix _).subset member)
  simp at differs

/-- A qualified name gives its name and arity back where the name holds neither a number sign
nor a colon and the arity is not too long. -/
theorem splitQualified_qualify {name : String} (unsigned : '#' ∉ name.toList)
    (unmarked : ':' ∉ name.toList) (arity : Nat) :
    splitQualified (qualify name (some (Int.ofNat arity))) =
      if arity < 10 ^ maxDigits then .ok (name, some (Int.ofNat arity))
      else .error (.tooLong (Nat.toDigits 10 arity).length) := by
  have digits : ∀ c ∈ Nat.toDigits 10 arity, Text.isDigitLike c = true := fun c member =>
    Numeral.isDigitLike_of_isDecimal
      (Numeral.isDecimal_of_isDigit (Numeral.isDigit_of_mem_toDigits member))
  have whole := toList_qualify name (some (Int.ofNat arity))
  rw [arityMark_ofNat] at whole
  have before := (Text.cut_append unsigned (Nat.toDigits 10 arity)).1
  rw [← whole] at before
  rw [splitQualified_eq, before, arityText_of_cut unsigned whole,
    unqualified_eq_iff.2 (Or.inl ⟨rfl, unmarked⟩), String.ofList_toList,
    readArity_of_digits Nat.toDigits_ne_nil digits, Numeral.readInt_toDigits]
  split <;> rfl

/-! ## Names and arities without loss -/

/-- Whether an arity, if it is known, is a natural number with no more digits than numerals may
have. -/
def HasNumeral (arity : Option Int) : Prop :=
  ∀ a ∈ arity, 0 ≤ a ∧ (toString a).length ≤ maxDigits

theorem readArity_toString_iff {a : Int} :
    readArity (toString a).toList = .ok (some a) ↔ 0 ≤ a ∧ (toString a).length ≤ maxDigits := by
  rw [readArity_eq_some_iff, String.length_toList]
  refine and_congr_left fun _ => ⟨fun writes => ?_, fun natural => ?_⟩
  · by_contra negative
    have decimals := writes.decimals
    rw [Numeral.toList_toString_int, if_neg negative] at decimals
    exact absurd (decimals '-' List.mem_cons_self) (by decide)
  · rw [Numeral.toList_toString_int, if_pos natural]
    refine ⟨Nat.toDigits_ne_nil, fun c member => ?_, ?_⟩
    · exact Numeral.isDecimal_of_isDigit (Numeral.isDigit_of_mem_toDigits member)
    · rw [Numeral.value_toDigits, Int.ofNat_eq_natCast, Int.toNat_of_nonneg natural]

/-- Behind a text without a number sign an arity is read back if it has a numeral. -/
theorem splitQualified_marked_iff {text name : String} {before : List Char} {arity : Option Int}
    (unsigned : '#' ∉ before) (whole : text.toList = before ++ arityMark arity) :
    splitQualified text = .ok (name, arity) ↔
      unqualified before = name.toList ∧ HasNumeral arity := by
  rw [splitQualified_eq_ok_iff]
  cases arity with
  | none =>
    rw [arityMark, List.append_nil] at whole
    obtain ⟨uncut, none⟩ := uncut_of_not_mem (whole ▸ unsigned)
    rw [uncut, none, whole]
    exact and_congr_right fun _ => ⟨fun _ => nofun, fun _ => rfl⟩
  | some a =>
    have read := @readArity_toString_iff a
    rw [arityText_of_cut unsigned whole, whole, arityMark, (Text.cut_append unsigned _).1, read]
    unfold HasNumeral
    simp only [Option.mem_some_iff, forall_eq']

/-- A qualified name is taken apart as it was put together just where its name holds no mark of its
own and its arity has a numeral. -/
theorem splitQualified_qualify_iff {name : String} {arity : Option Int} :
    splitQualified (qualify name arity) = .ok (name, arity) ↔
      '#' ∉ name.toList ∧ ':' ∉ name.toList ∧ HasNumeral arity := by
  have whole := toList_qualify name arity
  constructor
  · intro split
    have unsigned := number_sign_not_mem_of_splitQualified split
    obtain ⟨own, numeral⟩ := (splitQualified_marked_iff unsigned whole).1 split
    rcases unqualified_eq_iff.1 own with ⟨-, unmarked⟩ | ⟨qualifier, longer, -⟩
    · exact ⟨unsigned, unmarked, numeral⟩
    · have lengths := congrArg List.length longer
      rw [List.length_append, List.length_cons] at lengths
      omega
  · intro ⟨unsigned, unmarked, numeral⟩
    have own := unqualified_eq_iff.2 (Or.inl ⟨rfl, unmarked⟩)
    exact (splitQualified_marked_iff unsigned whole).2 ⟨own, numeral⟩

/-- Behind a qualifier without marks the name may hold colons. -/
theorem splitQualified_qualified_iff {qualifier name : String} {arity : Option Int}
    (unsigned : '#' ∉ qualifier.toList) (unmarked : ':' ∉ qualifier.toList) :
    splitQualified (qualifier ++ ":" ++ qualify name arity) = .ok (name, arity) ↔
      '#' ∉ name.toList ∧ HasNumeral arity := by
  have whole : (qualifier ++ ":" ++ qualify name arity).toList =
      qualifier.toList ++ ':' :: name.toList ++ arityMark arity := by
    rw [String.toList_append, String.toList_append, toList_qualify, List.append_assoc,
      List.append_assoc]
    rfl
  have apart : '#' ∉ name.toList → '#' ∉ qualifier.toList ++ ':' :: name.toList := by
    intro absent member
    rcases List.mem_append.1 member with inQualifier | behind
    · exact unsigned inQualifier
    · rcases List.mem_cons.1 behind with colon | inName
      · cases colon
      · exact absent inName
  have own : unqualified (qualifier.toList ++ ':' :: name.toList) = name.toList :=
    unqualified_eq_iff.2 (Or.inr ⟨_, rfl, unmarked⟩)
  constructor
  · intro split
    have absent := number_sign_not_mem_of_splitQualified split
    exact ⟨absent, ((splitQualified_marked_iff (apart absent) whole).1 split).2⟩
  · intro ⟨absent, numeral⟩
    exact (splitQualified_marked_iff (apart absent) whole).2 ⟨own, numeral⟩

/-- **Qualified names lose neither name nor arity.** An arity that is unknown or has a numeral is
read back with every name without marks, and nothing else is. Behind a qualifier without marks the
name may hold colons too. Where both arities are known, no two pairs have one qualified name,
whatever the names hold. -/
theorem qualify_lossless (name : String) (arity : Option Int) :
    (splitQualified (qualify name arity) = .ok (name, arity) ↔
      '#' ∉ name.toList ∧ ':' ∉ name.toList ∧ HasNumeral arity) ∧
    (∀ qualifier : String, '#' ∉ qualifier.toList → ':' ∉ qualifier.toList →
      (splitQualified (qualifier ++ ":" ++ qualify name arity) = .ok (name, arity) ↔
        '#' ∉ name.toList ∧ HasNumeral arity)) ∧
    ∀ (other : String) (a b : Int), qualify name (some a) = qualify other (some b) →
      name = other ∧ a = b :=
  ⟨splitQualified_qualify_iff,
    fun _ unsigned unmarked => splitQualified_qualified_iff unsigned unmarked,
    fun _ _ _ same => qualify_injective same⟩

/-- A colon in a name is taken for the end of a qualifier, unless a qualifier stands before it. -/
theorem marked_lossless :
    splitQualified "b:c#12" ≠ .ok ("b:c", some 12) ∧
      '#' ∉ "a".toList ∧ ':' ∉ "a".toList ∧ splitQualified "a:b:c#12" = .ok ("b:c", some 12) ∧
      qualify "b:c" (some 12) = qualify ("b" ++ ":c") (some (10 + 2)) ∧ "b:c" = "b" ++ ":c" := by
  obtain ⟨alone, behind, same⟩ := qualify_lossless "b:c" (some 12)
  have unsigned : '#' ∉ "a".toList := by decide
  have unmarked : ':' ∉ "a".toList := by decide
  have numeral : HasNumeral (some 12) := by
    intro a known
    obtain rfl := Option.some.inj known
    decide
  refine ⟨fun read => ?_, unsigned, unmarked, ?_, rfl, (same ("b" ++ ":c") 12 (10 + 2) rfl).1⟩
  · exact absurd (alone.1 read).2.1 (by decide)
  · exact (behind "a" unsigned unmarked).2 ⟨by decide, numeral⟩

end CallAtlas
