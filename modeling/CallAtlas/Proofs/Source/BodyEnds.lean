import CallAtlas.Proofs.Source.Groups

/-!
# Where bodies end

The walk to the end of a body looks at the characters outside literals (`visits`), counts braces and
stops at the first brace that closes the last one open and stands before a semicolon. It goes on
behind a brace that closes the last one without a semicolon, and gives up where more braces are
closed than were opened. `IsBodyEnd` says by counts which offset that is, without a walk: one offset
that is looked at changes the depth from which the rest counts, and nothing else
(`isBodyEnd_cons_iff`). So the counts and the walk agree, from any depth
(`fromBodyEnd?_eq_some_iff`).

Up to the first brace that closes the last one open this walk and the one to a closing delimiter are
the same, so the delimiter found is no later than the end of the body
(`exists_closing_of_fromBodyEnd?`).
-/

namespace CallAtlas.Source

/-! ## Offsets outside literals -/

/-- The offsets that are looked at along a text which starts at an offset. Literals are passed over
as a whole. -/
def visits (offset : Nat) : List Char → List Nat
  | [] => []
  | c :: s =>
    if isQuote c then visits (offset + (cutLiteral c s).1.length) (cutLiteral c s).2
    else offset :: visits (offset + 1) s
termination_by s => s.length
decreasing_by
  · exact Nat.lt_succ_of_le (length_cutLiteral_le c s)
  · exact Nat.lt_succ_self _

/-- The offsets of a text from `first` on that lie outside literals. -/
def visited (s : List Char) (first : Nat) : List Nat :=
  visits first (s.drop first)

/-- How many of some offsets up to `last` hold a character. -/
def countUpTo (c : Char) (s : List Char) (offsets : List Nat) (last : Nat) : Nat :=
  offsets.countP fun i => i ≤ last && s[i]? == some c

theorem le_of_mem_visits {offset i : Nat} {s : List Char} (member : i ∈ visits offset s) :
    offset ≤ i := by
  fun_induction visits offset s with
  | case1 => cases member
  | case2 offset c s _ ih => exact (Nat.le_add_right _ _).trans (ih member)
  | case3 offset c s _ ih =>
    rcases List.mem_cons.1 member with rfl | later
    · exact Nat.le_refl _
    · exact (Nat.le_succ offset).trans (ih later)

/-! ## Ends by counts -/

/-- At `last` there is a brace outside literals that closes the last one open, before a semicolon.
`depth` braces are open before the offsets that are looked at. -/
structure ClosesLast (s : List Char) (depth : Nat) (offsets : List Nat) (last : Nat) : Prop where
  visited : last ∈ offsets
  brace : s[last]? = some '}'
  level : depth + countUpTo '{' s offsets last = countUpTo '}' s offsets last
  terminated : IsTerminated (s.drop (last + 1))

/-- The first such brace, if no more braces are closed than were opened before it. -/
structure IsBodyEnd (s : List Char) (depth : Nat) (offsets : List Nat) (last : Nat) : Prop
    extends ClosesLast s depth offsets last where
  least : ∀ other, ClosesLast s depth offsets other → last ≤ other
  above : ∀ i ∈ offsets, i < last → countUpTo '}' s offsets i ≤ depth + countUpTo '{' s offsets i

section Steps

variable {s : List Char} {c : Char} {depth next offset last : Nat} {offsets : List Nat}

theorem countUpTo_cons (there : s[offset]? = some c) (before : offset ≤ last) (d : Char) :
    countUpTo d s (offset :: offsets) last =
      (if c = d then 1 else 0) + countUpTo d s offsets last := by
  rw [countUpTo, countUpTo, List.countP_cons, there, Nat.add_comm]
  simp [before]

theorem countUpTo_eq_zero (behind : ∀ i ∈ offsets, last < i) (d : Char) :
    countUpTo d s offsets last = 0 := by
  rw [countUpTo, List.countP_eq_zero]
  intro i member
  have later := behind i member
  simp
  omega

/-- Behind an offset that is looked at, the offsets count from the depth that it leads to. -/
theorem closesLast_cons_iff (there : s[offset]? = some c) (behind : offset < last)
    (step : depth + (if c = '{' then 1 else 0) = next + (if c = '}' then 1 else 0)) :
    ClosesLast s depth (offset :: offsets) last ↔ ClosesLast s next offsets last := by
  have opened := @countUpTo_cons s c offset last offsets there (Nat.le_of_lt behind) '{'
  have closed := @countUpTo_cons s c offset last offsets there (Nat.le_of_lt behind) '}'
  constructor
  · rintro ⟨member, brace, level, terminated⟩
    refine ⟨(List.mem_cons.1 member).resolve_left (Nat.ne_of_gt behind), brace, ?_, terminated⟩
    omega
  · rintro ⟨member, brace, level, terminated⟩
    refine ⟨List.mem_cons_of_mem _ member, brace, ?_, terminated⟩
    omega

/-- Where an offset that is looked at is not the end of a body, the end is behind it, from the depth
that it leads to. -/
theorem isBodyEnd_cons_iff (there : s[offset]? = some c) (behind : ∀ i ∈ offsets, offset < i)
    (step : depth + (if c = '{' then 1 else 0) = next + (if c = '}' then 1 else 0))
    (goesOn : ¬ClosesLast s depth (offset :: offsets) offset) :
    IsBodyEnd s depth (offset :: offsets) last ↔ IsBodyEnd s next offsets last := by
  have counts : ∀ i, offset ≤ i → ∀ d, countUpTo d s (offset :: offsets) i =
      (if c = d then 1 else 0) + countUpTo d s offsets i :=
    fun i before d => countUpTo_cons there before d
  constructor
  · intro ends
    have later : offset < last := by
      rcases List.mem_cons.1 ends.visited with rfl | member
      · exact absurd ends.toClosesLast goesOn
      · exact behind last member
    refine ⟨(closesLast_cons_iff there later step).1 ends.toClosesLast, ?_, ?_⟩
    · intro other closes
      have apart := behind other closes.visited
      exact ends.least other ((closesLast_cons_iff there apart step).2 closes)
    · intro i member before
      have apart := behind i member
      have bound := ends.above i (List.mem_cons_of_mem _ member) before
      rw [counts i (Nat.le_of_lt apart), counts i (Nat.le_of_lt apart)] at bound
      omega
  · intro ends
    have later := behind last ends.visited
    refine ⟨(closesLast_cons_iff there later step).2 ends.toClosesLast, ?_, ?_⟩
    · intro other closes
      rcases List.mem_cons.1 closes.visited with rfl | member
      · exact absurd closes goesOn
      · exact ends.least other ((closesLast_cons_iff there (behind other member) step).1 closes)
    · intro i member before
      rcases List.mem_cons.1 member with rfl | member
      · rw [counts i (Nat.le_refl i), counts i (Nat.le_refl i), countUpTo_eq_zero behind,
          countUpTo_eq_zero behind]
        omega
      · have apart := behind i member
        have bound := ends.above i member before
        rw [counts i (Nat.le_of_lt apart), counts i (Nat.le_of_lt apart)]
        omega

/-- An offset that closes the last brace open, before a semicolon, is the end of the body. -/
theorem ClosesLast.isBodyEnd_iff (closes : ClosesLast s depth (offset :: offsets) offset)
    (behind : ∀ i ∈ offsets, offset < i) :
    IsBodyEnd s depth (offset :: offsets) last ↔ last = offset := by
  have first : ∀ i ∈ offset :: offsets, offset ≤ i := by
    intro i member
    rcases List.mem_cons.1 member with rfl | later
    · exact Nat.le_refl _
    · exact Nat.le_of_lt (behind i later)
  constructor
  · intro ends
    exact Nat.le_antisymm (ends.least offset closes) (first last ends.visited)
  · rintro rfl
    refine ⟨closes, fun other later => first other later.visited, ?_⟩
    intro i member before
    exact absurd (first i member) (Nat.not_le_of_lt before)

theorem not_closesLast (there : s[offset]? = some c) (other : c ≠ '}') :
    ¬ClosesLast s depth offsets offset := by
  intro closes
  have brace := closes.brace
  rw [there] at brace
  exact other (Option.some.inj brace)

/-- A brace closes the last one open if one is open before it. -/
theorem closesLast_self_iff (there : s[offset]? = some '}') (behind : ∀ i ∈ offsets, offset < i) :
    ClosesLast s depth (offset :: offsets) offset ↔
      depth = 1 ∧ IsTerminated (s.drop (offset + 1)) := by
  have opened := @countUpTo_cons s '}' offset offset offsets there (Nat.le_refl _) '{'
  have closed := @countUpTo_cons s '}' offset offset offsets there (Nat.le_refl _) '}'
  rw [countUpTo_eq_zero behind] at opened closed
  constructor
  · rintro ⟨-, -, level, terminated⟩
    rw [opened, closed] at level
    exact ⟨level, terminated⟩
  · rintro ⟨rfl, terminated⟩
    refine ⟨List.mem_cons_self, there, ?_, terminated⟩
    rw [opened, closed]
    rfl

/-- Where no brace is open, a body has no end behind a brace that closes one. -/
theorem not_isBodyEnd_of_closer (there : s[offset]? = some '}')
    (behind : ∀ i ∈ offsets, offset < i) : ¬IsBodyEnd s 0 (offset :: offsets) last := by
  intro ends
  rcases List.mem_cons.1 ends.visited with rfl | later
  · exact absurd ((closesLast_self_iff there behind).1 ends.toClosesLast).1 (by decide)
  · have above := ends.above offset List.mem_cons_self (behind last later)
    rw [countUpTo_cons there (Nat.le_refl _), countUpTo_cons there (Nat.le_refl _),
      countUpTo_eq_zero behind, countUpTo_eq_zero behind] at above
    exact absurd above (by decide)

end Steps

/-! ## The walk -/

section Walk

variable {s t found : List Char} {depth offset : Nat}

theorem lt_of_mem_visits {i : Nat} (member : i ∈ visits (offset + 1) t) : offset < i :=
  le_of_mem_visits member

/-- What stands at an offset, and what is behind it. -/
theorem getElem?_of_drop {c : Char} (rest : s.drop offset = c :: t) :
    s[offset]? = some c ∧ s.drop (offset + 1) = t := by
  constructor
  · rw [← List.head?_drop, rest, List.head?_cons]
  · rw [← List.tail_drop, rest, List.tail_cons]

/-- The walk from an offset finds the end of the body, whatever the depth it starts at. -/
theorem fromBodyEnd?_eq_some_iff (rest : s.drop offset = t) :
    fromBodyEnd? depth t = some found ↔
      ∃ last, IsBodyEnd s depth (visits offset t) last ∧ found = s.drop last := by
  fun_induction fromBodyEnd? depth t generalizing offset with
  | case1 depth =>
    rw [visits]
    simp only [false_iff, reduceCtorEq]
    rintro ⟨last, ends, -⟩
    exact absurd ends.visited List.not_mem_nil
  | case2 depth c t quote ih =>
    rw [visits, if_pos quote]
    apply ih
    rw [← List.drop_drop, rest, ← cutLiteral_append c t, List.drop_left]
  | case3 depth c t plain opens ih =>
    obtain ⟨there, next⟩ := getElem?_of_drop rest
    rw [eq_of_beq opens] at there
    rw [visits, if_neg plain, ih next]
    refine exists_congr fun last => and_congr_left fun _ => ?_
    refine (isBodyEnd_cons_iff there (fun i => lt_of_mem_visits) rfl ?_).symm
    exact not_closesLast there (by decide)
  | case4 c t plain other closes =>
    obtain ⟨there, -⟩ := getElem?_of_drop rest
    rw [eq_of_beq closes] at there
    rw [visits, if_neg plain]
    simp only [false_iff, reduceCtorEq]
    rintro ⟨last, ends, -⟩
    exact not_isBodyEnd_of_closer there (fun i => lt_of_mem_visits) ends
  | case5 c t plain other closes follows =>
    obtain ⟨there, next⟩ := getElem?_of_drop rest
    rw [eq_of_beq closes] at there
    have closesLast := (closesLast_self_iff there fun i => lt_of_mem_visits (t := t)).2
      ⟨rfl, next ▸ semicolonFollows_iff.1 follows⟩
    rw [visits, if_neg plain]
    simp only [closesLast.isBodyEnd_iff fun i => lt_of_mem_visits, exists_eq_left, rest,
      Option.some.injEq]
    exact eq_comm
  | case6 c t plain other closes unended ih =>
    obtain ⟨there, next⟩ := getElem?_of_drop rest
    rw [eq_of_beq closes] at there
    rw [visits, if_neg plain, ih next]
    refine exists_congr fun last => and_congr_left fun _ => ?_
    refine (isBodyEnd_cons_iff there (fun i => lt_of_mem_visits) rfl ?_).symm
    rw [closesLast_self_iff there fun i => lt_of_mem_visits, next, ← semicolonFollows_iff]
    exact fun ends => unended ends.2
  | case7 c t plain other closes depth ih =>
    obtain ⟨there, next⟩ := getElem?_of_drop rest
    rw [eq_of_beq closes] at there
    rw [visits, if_neg plain, ih next]
    refine exists_congr fun last => and_congr_left fun _ => ?_
    refine (isBodyEnd_cons_iff there (fun i => lt_of_mem_visits) rfl ?_).symm
    rw [closesLast_self_iff there fun i => lt_of_mem_visits]
    rintro ⟨one, -⟩
    cases one
  | case8 depth c t plain other inside ih =>
    obtain ⟨there, next⟩ := getElem?_of_drop rest
    have notOpener : c ≠ '{' := by simpa using other
    have notCloser : c ≠ '}' := by simpa using inside
    rw [visits, if_neg plain, ih next]
    refine exists_congr fun last => and_congr_left fun _ => ?_
    refine (isBodyEnd_cons_iff there (fun i => lt_of_mem_visits) ?_ ?_).symm
    · rw [if_neg notOpener, if_neg notCloser]
    · exact not_closesLast there notCloser

/-- The walk to a closing delimiter and the one to the end of a body are the same up to the first
brace that closes the last one open. That brace is the end of the body if a semicolon follows. -/
theorem exists_closing_of_fromBodyEnd? (open' : 0 < depth)
    (h : fromBodyEnd? depth t = some found) :
    ∃ after, fromClosing? (· == '{') (· == '}') depth t = some ('}' :: after) ∧
      found <:+ '}' :: after ∧ (found = '}' :: after ↔ semicolonFollows after = true) := by
  fun_induction fromBodyEnd? depth t with
  | case1 => cases h
  | case2 depth c t quote ih =>
    rw [fromClosing?_cons, if_pos quote]
    exact ih open' h
  | case3 depth c t plain opens ih =>
    rw [fromClosing?_cons, if_neg plain, if_pos opens]
    exact ih (Nat.succ_pos depth) h
  | case4 => cases h
  | case5 c t plain other closes follows =>
    cases h
    rw [fromClosing?_cons, if_neg plain, if_neg other, if_pos closes, eq_of_beq closes]
    exact ⟨t, rfl, List.suffix_rfl, iff_of_true rfl follows⟩
  | case6 c t plain other closes unended ih =>
    rw [fromClosing?_cons, if_neg plain, if_neg other, if_pos closes, eq_of_beq closes]
    have later := (fromBodyEnd?_suffix h).1
    refine ⟨t, rfl, later.trans (List.suffix_cons _ t), iff_of_false ?_ unended⟩
    rintro rfl
    exact absurd later.length_le (Nat.not_succ_le_self _)
  | case7 c t plain other closes depth ih =>
    rw [fromClosing?_cons, if_neg plain, if_neg other, if_pos closes]
    exact ih (Nat.succ_pos depth) h
  | case8 depth c t plain other inside ih =>
    rw [fromClosing?_cons, if_neg plain, if_neg other, if_neg inside]
    exact ih open' h

end Walk

/-! ## Bodies -/

section Bodies

variable {before s t : List Char} {first last : Nat}

theorem fromBodyEnd?_opener (t : List Char) : fromBodyEnd? 0 ('{' :: t) = fromBodyEnd? 1 t := by
  rw [fromBodyEnd?_cons, if_neg (by decide), if_pos BEq.rfl]

/-- The walk from an opening brace tells where its body ends. -/
theorem findBodyEnd?_opener (before t : List Char) :
    findBodyEnd? (before ++ '{' :: t) before.length =
      (fromBodyEnd? 1 t).map fun found => (before ++ '{' :: t).length - found.length := by
  unfold findBodyEnd?
  rw [List.drop_left, ← fromBodyEnd?_opener]
  rfl

theorem findBodyEnd?_eq_some_iff :
    findBodyEnd? (before ++ '{' :: t) before.length = some last ↔
      IsBodyEnd (before ++ '{' :: t) 0 (visited (before ++ '{' :: t) before.length) last := by
  have walk : ∀ found, fromBodyEnd? 1 t = some found ↔ ∃ last,
      IsBodyEnd (before ++ '{' :: t) 0 (visited (before ++ '{' :: t) before.length) last ∧
        found = (before ++ '{' :: t).drop last := by
    intro found
    rw [visited, ← fromBodyEnd?_eq_some_iff rfl, List.drop_left, fromBodyEnd?_opener]
  rw [findBodyEnd?_opener, Option.map_eq_some_iff]
  constructor
  · rintro ⟨found, walked, rfl⟩
    obtain ⟨last, ends, rfl⟩ := (walk found).1 walked
    have inside := (List.getElem?_eq_some_iff.1 ends.brace).1
    rw [List.length_drop, Nat.sub_sub_self (Nat.le_of_lt inside)]
    exact ends
  · intro ends
    have inside := (List.getElem?_eq_some_iff.1 ends.brace).1
    refine ⟨(before ++ '{' :: t).drop last, (walk _).2 ⟨last, ends, rfl⟩, ?_⟩
    rw [List.length_drop, Nat.sub_sub_self (Nat.le_of_lt inside)]

/-- The delimiter that matches the brace of a body is no later than the end of the body. -/
theorem exists_closing_of_findBodyEnd?
    (h : findBodyEnd? (before ++ '{' :: t) before.length = some last) :
    ∃ closing,
      findClosing? (· == '{') (· == '}') (before ++ '{' :: t) before.length = some closing ∧
      closing ≤ last ∧
      (closing = last ↔ IsTerminated ((before ++ '{' :: t).drop (closing + 1))) := by
  rw [findBodyEnd?_opener, Option.map_eq_some_iff] at h
  obtain ⟨found, walked, rfl⟩ := h
  obtain ⟨after, matched, suffix, same⟩ := exists_closing_of_fromBodyEnd? Nat.one_pos walked
  have inText : '}' :: after <:+ before ++ '{' :: t :=
    (fromClosing?_suffix matched).2.trans
      ((List.suffix_cons '{' t).trans (List.suffix_append before ('{' :: t)))
  have from' := (List.suffix_iff_eq_drop.1 inText).symm
  have shorter := suffix.length_le
  have longer := inText.length_le
  refine ⟨(before ++ '{' :: t).length - ('}' :: after).length, ?_, by omega, ?_⟩
  · rw [findClosing?_opener rfl, matched, Option.map_some]
  · rw [(getElem?_of_drop from').2, ← semicolonFollows_iff, ← same]
    constructor
    · intro lengths
      exact suffix.eq_of_length (by omega)
    · rintro rfl
      rfl

/-- The first semicolon from the end of a body on is the one behind the blanks that follow. -/
theorem exists_semicolon_of_isBodyEnd (ends : IsBodyEnd s 0 (visited s first) last) :
    ∃ gap rest, s.drop (last + 1) = gap ++ ';' :: rest ∧ (∀ c ∈ gap, Text.isBlank c = true) ∧
      s.length - ((s.drop last).dropWhile (· != ';')).length = last + 1 + gap.length := by
  obtain ⟨inside, brace⟩ := List.getElem?_eq_some_iff.1 ends.brace
  obtain ⟨gap, rest, behind, blank⟩ := ends.terminated
  have lengths := congrArg List.length behind
  rw [List.length_drop, List.length_append, List.length_cons] at lengths
  refine ⟨gap, rest, behind, blank, ?_⟩
  rw [← List.getElem_cons_drop inside, brace, behind, dropWhile_gap blank, List.length_cons]
  omega

end Bodies

/-- **A body ends at the first brace that closes it before a semicolon.** The offset that is found
behind an opening brace is the one that the counts of braces outside literals give, and none is
found if they give none. The delimiter that matches the brace is no later than the end of the body,
and is the end if a semicolon follows it. The first semicolon from the end on is the one behind the
blanks that follow. -/
theorem findBodyEnd_isBodyEnd {s : List Char} {first : Nat} (brace : s[first]? = some '{') :
    (∀ last, findBodyEnd? s first = some last ↔ IsBodyEnd s 0 (visited s first) last) ∧
    (findBodyEnd? s first = none ↔ ¬∃ last, IsBodyEnd s 0 (visited s first) last) ∧
    ∀ last, findBodyEnd? s first = some last →
      (∃ closing, findClosing? (· == '{') (· == '}') s first = some closing ∧ closing ≤ last ∧
        (closing = last ↔ IsTerminated (s.drop (closing + 1)))) ∧
      ∃ gap rest, s.drop (last + 1) = gap ++ ';' :: rest ∧ (∀ c ∈ gap, Text.isBlank c = true) ∧
        s.length - ((s.drop last).dropWhile (· != ';')).length = last + 1 + gap.length := by
  obtain ⟨before, t, rfl, rfl⟩ := exists_before_of_getElem? brace
  have ends : ∀ last, findBodyEnd? (before ++ '{' :: t) before.length = some last ↔
      IsBodyEnd (before ++ '{' :: t) 0 (visited (before ++ '{' :: t) before.length) last :=
    fun last => findBodyEnd?_eq_some_iff
  refine ⟨ends, ?_, ?_⟩
  · rw [Option.eq_none_iff_forall_ne_some, not_exists]
    exact forall_congr' fun last => not_congr (ends last)
  · intro last found
    exact ⟨exists_closing_of_findBodyEnd? found,
      exists_semicolon_of_isBodyEnd ((ends last).1 found)⟩

/-- A body that opens and closes twice before its semicolon, with braces and a semicolon in a
literal and a quote that opens none. -/
def twoPartBody : List Char := "\x7b '\x7d;' \x7d \x7bit's\x7d\n; \x7d".toList

/-- The end is the second brace that closes the last one open, the first one that a semicolon
follows. The delimiter that matches is the first. -/
theorem twoPartBody_isBodyEnd :
    twoPartBody[0]? = some '{' ∧ findBodyEnd? twoPartBody 0 = some 14 ∧
      IsBodyEnd twoPartBody 0 (visited twoPartBody 0) 14 ∧
      findClosing? (· == '{') (· == '}') twoPartBody 0 = some 7 ∧
      ¬IsTerminated (twoPartBody.drop 8) := by
  have brace : twoPartBody[0]? = some '{' := rfl
  have found : findBodyEnd? twoPartBody 0 = some 14 := by decide +kernel
  have matched : findClosing? (· == '{') (· == '}') twoPartBody 0 = some 7 := by decide +kernel
  obtain ⟨ends, -, more⟩ := findBodyEnd_isBodyEnd brace
  obtain ⟨⟨closing, matched', -, same⟩, -⟩ := more 14 found
  rw [matched] at matched'
  cases matched'
  refine ⟨brace, found, (ends 14).1 found, matched, ?_⟩
  intro terminated
  exact absurd (same.2 terminated) (by decide)

end CallAtlas.Source
