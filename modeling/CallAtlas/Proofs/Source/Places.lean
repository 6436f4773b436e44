import CallAtlas.Proofs.Canonical.Statements

/-!
# Where imports say that modules lie

Behind the URI of an import stands nothing, or the word `at` and quoted texts with commas between
them (`Places`). A quoted text is not read up to its next quote, but up to the first quote that
leaves nothing or further quoted texts behind it, so that its own quote may stand in it. An import
is read if and only if what stands behind its URI can be taken apart in such a way, and its location
is the shortest first text (`readImport_eq_ok_iff`). Where no text has its own quote in it, that is
the text up to the next quote.

So there is little that is refused: quoted texts can be joined, with all that stands between them,
until there are no more than two, and those of different kinds (`exists_joined`).
-/

namespace CallAtlas.Source

open Canonical

/-! ## Quoted texts -/

/-- A text between two quotes of a kind. The same quote may stand in it. -/
structure QuotedText where
  quote : Char
  text : List Char
  delimiter : isQuote quote = true := by decide

/-- The text with its quotes. -/
def QuotedText.written (q : QuotedText) : List Char :=
  q.quote :: (q.text ++ [q.quote])

/-- A quoted text behind a comma and blanks. -/
structure FurtherText extends QuotedText where
  /-- The blanks before the comma. -/
  before : List Char
  /-- The blanks behind it. -/
  behind : List Char
  blankBefore : ∀ c ∈ before, Text.isBlank c = true := by decide
  blankBehind : ∀ c ∈ behind, Text.isBlank c = true := by decide

/-- The text with its quotes and the comma. -/
def FurtherText.listed (f : FurtherText) : List Char :=
  f.before ++ ',' :: (f.behind ++ f.written)

/-- Quoted texts, the first behind the word `at`, the others behind commas. -/
structure Places where
  /-- The blanks behind the word. -/
  gap : List Char
  first : QuotedText
  further : List FurtherText
  spaced : gap ≠ [] := by decide
  blank : ∀ c ∈ gap, Text.isBlank c = true := by decide

namespace Places

/-- What is written. -/
def text (p : Places) : List Char :=
  "at".toList ++ (p.gap ++ (p.first.written ++ p.further.flatMap FurtherText.listed))

/-- No text has its own quote in it. -/
def IsClean (p : Places) : Prop :=
  p.first.quote ∉ p.first.text ∧ ∀ f ∈ p.further, f.quote ∉ f.text

/-- What is written cannot be taken apart with a shorter first text. -/
def IsShortest (p : Places) : Prop :=
  ∀ q : Places, q.text = p.text → p.first.text.length ≤ q.first.text.length

end Places

/-! ## Lists of quoted texts -/

/-- A text is a list of further quoted texts. -/
def IsFurther (s : List Char) : Prop :=
  ∃ fs : List FurtherText, s = fs.flatMap FurtherText.listed

theorem commaFollows_iff {s : List Char} :
    commaFollows s = true ↔ ∃ gap t, s = gap ++ ',' :: t ∧ (∀ c ∈ gap, Text.isBlank c = true) ∧
      quotedFollows t = true := by
  constructor
  · intro follows
    induction s with
    | nil => cases follows
    | cons c s ih =>
      rw [commaFollows] at follows
      split at follows
      next blank =>
        obtain ⟨gap, t, rfl, blanks, quoted⟩ := ih follows
        exact ⟨c :: gap, t, rfl, List.forall_mem_cons.2 ⟨blank, blanks⟩, quoted⟩
      next =>
        obtain ⟨comma, quoted⟩ := Bool.and_eq_true_iff.1 follows
        exact ⟨[], s, by rw [eq_of_beq comma]; rfl, List.forall_mem_nil _, quoted⟩
  · rintro ⟨gap, t, rfl, blanks, quoted⟩
    induction gap with
    | nil => exact quoted
    | cons c gap ih =>
      rw [List.forall_mem_cons] at blanks
      rw [List.cons_append, commaFollows, if_pos blanks.1]
      exact ih blanks.2

theorem quotedFollows_iff {s : List Char} :
    quotedFollows s = true ↔ ∃ gap quote t, s = gap ++ quote :: t ∧
      (∀ c ∈ gap, Text.isBlank c = true) ∧ isQuote quote = true ∧
      closingFollows quote t = true := by
  constructor
  · intro follows
    induction s with
    | nil => cases follows
    | cons c s ih =>
      rw [quotedFollows] at follows
      split at follows
      next blank =>
        obtain ⟨gap, quote, t, rfl, blanks, delimiter, closing⟩ := ih follows
        exact ⟨c :: gap, quote, t, rfl, List.forall_mem_cons.2 ⟨blank, blanks⟩, delimiter, closing⟩
      next =>
        obtain ⟨delimiter, closing⟩ := Bool.and_eq_true_iff.1 follows
        exact ⟨[], c, s, rfl, List.forall_mem_nil _, delimiter, closing⟩
  · rintro ⟨gap, quote, t, rfl, blanks, delimiter, closing⟩
    induction gap with
    | nil =>
      rw [List.nil_append, quotedFollows, if_neg, delimiter, closing]
      · rfl
      · rw [(of_isQuote delimiter).1]
        exact Bool.false_ne_true
    | cons c gap ih =>
      rw [List.forall_mem_cons] at blanks
      rw [List.cons_append, quotedFollows, if_pos blanks.1]
      exact ih blanks.2

theorem closingFollows_iff {quote : Char} {s : List Char} :
    closingFollows quote s = true ↔ ∃ t rest, s = t ++ quote :: rest ∧
      (rest.isEmpty || commaFollows rest) = true := by
  constructor
  · intro follows
    induction s with
    | nil => cases follows
    | cons c s ih =>
      rw [closingFollows, Bool.or_eq_true] at follows
      rcases follows with here | later
      · obtain ⟨closes, ends⟩ := Bool.and_eq_true_iff.1 here
        exact ⟨[], s, by rw [eq_of_beq closes]; rfl, ends⟩
      · obtain ⟨t, rest, rfl, ends⟩ := ih later
        exact ⟨c :: t, rest, rfl, ends⟩
  · rintro ⟨t, rest, rfl, ends⟩
    induction t with
    | nil => rw [List.nil_append, closingFollows, BEq.rfl, ends]; rfl
    | cons c t ih => rw [List.cons_append, closingFollows, ih, Bool.or_true]

theorem isFurther_cons {before behind rest : List Char} {q : QuotedText}
    (blankBefore : ∀ c ∈ before, Text.isBlank c = true)
    (blankBehind : ∀ c ∈ behind, Text.isBlank c = true) (further : IsFurther rest) :
    IsFurther (before ++ ',' :: (behind ++ (q.written ++ rest))) := by
  obtain ⟨fs, rfl⟩ := further
  refine ⟨⟨q, before, behind, blankBefore, blankBehind⟩ :: fs, ?_⟩
  rw [List.flatMap_cons, FurtherText.listed]
  simp only [List.append_assoc, List.cons_append]

/-- Nothing or a comma with a quoted text behind it starts a list of further ones if and only if the
text is such a list. -/
theorem isEmpty_or_commaFollows_iff {s : List Char} :
    (s.isEmpty || commaFollows s) = true ↔ IsFurther s := by
  constructor
  · -- By induction on the length: behind a quoted text the question is that of the rest.
    obtain ⟨n, bound⟩ : ∃ n, s.length < n := ⟨s.length + 1, Nat.lt_succ_self _⟩
    induction n generalizing s with
    | zero => omega
    | succ n ih =>
      intro whole
      rcases Bool.or_eq_true_iff.1 whole with empty | follows
      · exact ⟨[], List.isEmpty_iff.1 empty⟩
      · obtain ⟨before, t, rfl, blankBefore, quoted⟩ := commaFollows_iff.1 follows
        obtain ⟨behind, quote, u, rfl, blankBehind, delimiter, closing⟩ :=
          quotedFollows_iff.1 quoted
        obtain ⟨text, rest, rfl, ends⟩ := closingFollows_iff.1 closing
        have shorter : rest.length < n := by
          simp only [List.length_append, List.length_cons] at bound
          omega
        have further := isFurther_cons (q := ⟨quote, text, delimiter⟩) blankBefore blankBehind
          (ih shorter ends)
        simpa only [QuotedText.written, List.cons_append, List.append_assoc, List.nil_append]
          using further
  · rintro ⟨fs, rfl⟩
    induction fs with
    | nil => rfl
    | cons f fs ih =>
      refine Bool.or_eq_true_iff.2 (Or.inr (commaFollows_iff.2 ⟨f.before, _, ?_, f.blankBefore,
        quotedFollows_iff.2 ⟨f.behind, f.quote, _, rfl, f.blankBehind, f.delimiter,
          closingFollows_iff.2 ⟨f.text, _, rfl, ih⟩⟩⟩))
      rw [List.flatMap_cons, FurtherText.listed, QuotedText.written]
      simp only [List.append_assoc, List.cons_append, List.nil_append]

/-- The first quoted text is the shortest one that leaves nothing but further ones. -/
theorem firstQuoted?_eq_some_iff {quote : Char} {s text : List Char} :
    firstQuoted? quote s = some text ↔
      (∃ rest, s = text ++ quote :: rest ∧ IsFurther rest) ∧
        ∀ t rest, s = t ++ quote :: rest → IsFurther rest → text.length ≤ t.length := by
  induction s generalizing text with
  | nil =>
    rw [firstQuoted?]
    constructor
    · intro absent
      cases absent
    · rintro ⟨⟨rest, split, -⟩, -⟩
      simp at split
  | cons c s ih =>
    rw [firstQuoted?]
    by_cases here : (c == quote && (s.isEmpty || commaFollows s)) = true
    case pos =>
      rw [if_pos here]
      obtain ⟨closes, ends⟩ := Bool.and_eq_true_iff.1 here
      have further := isEmpty_or_commaFollows_iff.1 ends
      rw [eq_of_beq closes]
      constructor
      · rintro ⟨rfl⟩
        exact ⟨⟨s, rfl, further⟩, fun t rest _ _ => Nat.zero_le _⟩
      · rintro ⟨-, shortest⟩
        rw [List.eq_nil_of_length_eq_zero (Nat.le_zero.1 (shortest [] s rfl further))]
    case neg =>
      rw [if_neg here, Option.map_eq_some_iff]
      -- A text that ends at the first character would be the one of the other case.
      have goesOn : ∀ t rest, c :: s = t ++ quote :: rest → IsFurther rest →
          ∃ more, t = c :: more ∧ s = more ++ quote :: rest := by
        intro t rest split further
        cases t with
        | nil =>
          obtain ⟨rfl, rfl⟩ := List.cons.inj split
          refine absurd ?_ here
          rw [BEq.rfl, isEmpty_or_commaFollows_iff.2 further]
          rfl
        | cons d more =>
          obtain ⟨rfl, rfl⟩ := List.cons.inj split
          exact ⟨more, rfl, rfl⟩
      constructor
      · rintro ⟨more, found, rfl⟩
        obtain ⟨⟨rest, rfl, further⟩, shortest⟩ := ih.1 found
        refine ⟨⟨rest, rfl, further⟩, fun t rest' split further' => ?_⟩
        obtain ⟨more', rfl, split'⟩ := goesOn t rest' split further'
        exact Nat.succ_le_succ (shortest more' rest' split' further')
      · rintro ⟨⟨rest, split, further⟩, shortest⟩
        obtain ⟨more, rfl, split'⟩ := goesOn text rest split further
        refine ⟨more, ih.2 ⟨⟨rest, split', further⟩, fun t rest' again further' => ?_⟩, rfl⟩
        exact Nat.le_of_succ_le_succ
          (shortest (c :: t) rest' (congrArg (c :: ·) again) further')

/-! ## Places -/

theorem places_opening_iff {s rest : List Char} {quote : Char} :
    (do Scan.keyword "at"; Scan.someBlanks; Scan.quote : Scan Char) s = some (quote, rest) ↔
      ∃ gap, s = "at".toList ++ (gap ++ quote :: rest) ∧ gap ≠ [] ∧
        (∀ c ∈ gap, Text.isBlank c = true) ∧ isQuote quote = true := by
  constructor
  · intro h
    obtain ⟨_, _, word, h⟩ := Scan.bind_eq_some h
    obtain ⟨spelled, rfl⟩ := Scan.keyword_eq_some word
    obtain ⟨more, rfl⟩ := List.isPrefixOf_iff_prefix.1 spelled
    rw [List.drop_left] at h
    obtain ⟨_, _, blanks, h⟩ := Scan.bind_eq_some h
    obtain ⟨starts, rfl⟩ := Scan.someBlanks_eq_some blanks
    obtain ⟨split, delimiter⟩ := Scan.char_eq_some h
    refine ⟨more.takeWhile Text.isBlank, ?_, ?_, fun c member => List.mem_takeWhile_imp member,
      delimiter⟩
    · rw [← split, Text.dropBlanks, List.takeWhile_append_dropWhile]
    · cases more with
      | nil => cases starts
      | cons c more =>
        rw [List.takeWhile_cons_of_pos (by exact starts)]
        exact List.cons_ne_nil _ _
  · rintro ⟨gap, rfl, nonempty, blank, delimiter⟩
    have solid : (quote :: rest).head?.any Text.isBlank = false := (of_isQuote delimiter).1
    rw [Scan.bind_of_read (Scan.keyword_append "at" _),
      Scan.bind_of_read (Scan.someBlanks_append nonempty blank solid)]
    exact if_pos delimiter

namespace Places

variable {p q : Places}

/-- What stands behind the quote that opens the first text. -/
def rest (p : Places) : List Char :=
  p.first.text ++ p.first.quote :: p.further.flatMap FurtherText.listed

theorem opening (p : Places) :
    (do Scan.keyword "at"; Scan.someBlanks; Scan.quote : Scan Char) p.text =
      some (p.first.quote, p.rest) := by
  refine places_opening_iff.2 ⟨p.gap, ?_, p.spaced, p.blank, p.first.delimiter⟩
  unfold text rest QuotedText.written
  simp only [List.cons_append, List.append_assoc, List.nil_append]

/-- What is written says by which quote the first text is opened and what stands behind that
quote. -/
theorem same_of_text (same : q.text = p.text) :
    q.first.quote = p.first.quote ∧ q.rest = p.rest := by
  have read := q.opening
  rw [same, p.opening] at read
  have pair := Prod.mk.inj (Option.some.inj read)
  exact ⟨pair.1.symm, pair.2.symm⟩

/-- Where the first text does not have its own quote, it is the shortest one. -/
theorem isShortest_of_not_mem (clean : p.first.quote ∉ p.first.text) : p.IsShortest := by
  intro q same
  obtain ⟨quote, rest⟩ := same_of_text same
  unfold Places.rest at rest
  rw [quote] at rest
  rcases List.append_eq_append_iff.1 rest with ⟨left, whole, behind⟩ | ⟨left, whole, -⟩
  · cases left with
    | nil => rw [whole, List.append_nil]
    | cons c left =>
      have closes : p.first.quote = c := (List.cons.inj behind).1
      rw [whole, closes] at clean
      exact absurd (List.mem_append_right _ List.mem_cons_self) clean
  · rw [whole, List.length_append]
    exact Nat.le_add_right _ _

end Places

/-- The first location is the shortest first text of the places that are written. -/
theorem firstLocation?_eq_some_iff {s text : List Char} :
    firstLocation? s = some text ↔
      ∃ p : Places, p.text = s ∧ p.IsShortest ∧ p.first.text = text := by
  unfold firstLocation?
  rw [Option.bind_eq_bind, Option.bind_eq_some_iff]
  constructor
  · rintro ⟨⟨quote, rest⟩, opened, found⟩
    obtain ⟨gap, rfl, nonempty, blank, delimiter⟩ := places_opening_iff.1 opened
    obtain ⟨⟨more, rfl, fs, rfl⟩, shortest⟩ := firstQuoted?_eq_some_iff.1 found
    refine ⟨⟨gap, ⟨quote, text, delimiter⟩, fs, nonempty, blank⟩, ?_, ?_, rfl⟩
    · unfold Places.text QuotedText.written
      simp only [List.cons_append, List.append_assoc, List.nil_append]
    · intro q same
      obtain ⟨ownQuote, ownRest⟩ := Places.same_of_text same
      refine shortest q.first.text _ ?_ ⟨q.further, rfl⟩
      unfold Places.rest at ownRest
      rw [ownQuote] at ownRest
      exact ownRest.symm
  · rintro ⟨p, rfl, shortest, rfl⟩
    refine ⟨(p.first.quote, p.rest), p.opening, firstQuoted?_eq_some_iff.2
      ⟨⟨_, rfl, p.further, rfl⟩, ?_⟩⟩
    rintro t rest split ⟨fs, rfl⟩
    refine shortest ⟨p.gap, ⟨p.first.quote, t, p.first.delimiter⟩, fs, p.spaced, p.blank⟩ ?_
    unfold Places.text QuotedText.written
    unfold Places.rest at split
    simp only [List.cons_append, List.append_assoc, List.nil_append, split]

/-! ## Joined texts -/

/-- Whether two quoted texts have the same quote. There are only two quotes, so of three texts two
have the same. -/
theorem eq_of_ne_of_ne {a b c : Char} (first : isQuote a = true) (second : isQuote b = true)
    (third : isQuote c = true) (one : b ≠ a) (other : c ≠ b) : c = a := by
  unfold isQuote at first second third
  simp only [Bool.or_eq_true, beq_iff_eq] at first second third
  rcases first with rfl | rfl <;> rcases second with rfl | rfl <;> rcases third with rfl | rfl <;>
    simp_all

/-- Quoted texts can be joined to one or to two of different kinds. -/
theorem exists_joined (first : QuotedText) (further : List FurtherText) :
    ∃ (joined : QuotedText) (more : Option FurtherText),
      joined.quote = first.quote ∧ (∀ f ∈ more, f.quote ≠ first.quote) ∧
      first.written ++ further.flatMap FurtherText.listed =
        joined.written ++ more.toList.flatMap FurtherText.listed := by
  induction further generalizing first with
  | nil => exact ⟨first, none, rfl, fun f absent => (nomatch absent), rfl⟩
  | cons f further ih =>
    -- The texts behind the first one are joined already, to `next` and perhaps `last`.
    obtain ⟨next, last, same, different, joined⟩ := ih f.toQuotedText
    have whole : first.written ++ (f :: further).flatMap FurtherText.listed =
        first.quote :: (first.text ++ first.quote :: (f.before ++ ',' :: (f.behind ++
          (next.written ++ last.toList.flatMap FurtherText.listed)))) := by
      rw [List.flatMap_cons, FurtherText.listed, ← joined, QuotedText.written]
      simp only [List.append_assoc, List.cons_append, List.nil_append]
    rw [whole]
    by_cases kind : f.quote = first.quote
    case pos =>
      -- The first text is closed by the quote that closes the next one.
      refine ⟨⟨first.quote, first.text ++ first.quote :: (f.before ++ ',' :: (f.behind ++
        next.quote :: next.text)), first.delimiter⟩, last, rfl, kind ▸ different, ?_⟩
      unfold QuotedText.written
      rw [same, kind]
      simp only [List.append_assoc, List.cons_append, List.nil_append]
    case neg =>
      cases last with
      | none =>
        refine ⟨first, some ⟨next, f.before, f.behind, f.blankBefore, f.blankBehind⟩, rfl, ?_, ?_⟩
        · rintro _ ⟨rfl⟩
          exact same ▸ kind
        · unfold QuotedText.written
          simp [FurtherText.listed, QuotedText.written]
      | some g =>
        -- The last text has the kind of the first one, and its quote closes all of them.
        have back : g.quote = first.quote :=
          eq_of_ne_of_ne first.delimiter f.delimiter g.delimiter kind (different g rfl)
        refine ⟨⟨first.quote, first.text ++ first.quote :: (f.before ++ ',' :: (f.behind ++
          (next.written ++ (g.before ++ ',' :: (g.behind ++ g.quote :: g.text))))),
          first.delimiter⟩, none, rfl, fun f absent => (nomatch absent), ?_⟩
        unfold QuotedText.written
        simp [FurtherText.listed, QuotedText.written, back]

/-! ## Imports with locations -/

/-- The location of an import at a path whose places are some text. -/
def LocatedBy (path : String) (places : List Char) (location : Option String) : Prop :=
  places = [] ∧ location = none ∨ ∃ p : Places, p.text = places ∧ p.IsShortest ∧
    location = some (String.ofList (Location.ofImport path.toList p.first.text))

theorem Places.text_ne_nil (p : Places) : p.text ≠ [] :=
  List.append_ne_nil_of_left_ne_nil (by decide) _

/-- A statement is read as an import if and only if it binds a qualifier to a URI and what stands
behind that can be taken apart. -/
theorem readImport_eq_ok_iff {path : String} {line : Nat} {statement : List Char}
    {c : ImportClause} :
    readImport path line statement = .ok c ↔ ∃ qualifier uri rest,
      importBinding statement = some ((qualifier, uri), rest) ∧
      LocatedBy path (Text.trim rest.dropLast) c.location ∧
      c = ⟨String.ofList qualifier, String.ofList uri, c.location, line⟩ := by
  unfold readImport
  cases bound : importBinding statement with
  | none => simp
  | some read =>
    obtain ⟨⟨qualifier, uri⟩, rest⟩ := read
    simp only [Option.some.injEq, Prod.mk.injEq, and_assoc, exists_and_left, exists_eq_left',
      List.isEmpty_iff]
    unfold LocatedBy
    by_cases empty : Text.trim rest.dropLast = []
    case pos =>
      have nowhere : ¬∃ p : Places, p.text = Text.trim rest.dropLast ∧ p.IsShortest ∧ c.location =
          some (String.ofList (Location.ofImport path.toList p.first.text)) := by
        rintro ⟨p, same, -⟩
        exact p.text_ne_nil (same.trans empty)
      rw [if_pos empty, or_iff_left nowhere, and_iff_right empty, Except.ok.injEq, eq_comm]
      constructor
      · rintro rfl
        exact ⟨rfl, rfl⟩
      · rintro ⟨none, same⟩
        rw [same, none]
    case neg =>
      rw [if_neg empty, or_iff_right fun both => empty both.1]
      cases located : firstLocation? (Text.trim rest.dropLast) with
      | none =>
        refine ⟨fun absent => (nomatch absent), ?_⟩
        rintro ⟨⟨p, same, shortest, -⟩, -⟩
        have found := firstLocation?_eq_some_iff.2 ⟨p, same, shortest, rfl⟩
        rw [located] at found
        cases found
      | some location =>
        dsimp only
        rw [Except.ok.injEq, eq_comm]
        constructor
        · rintro rfl
          obtain ⟨p, same, shortest, rfl⟩ := firstLocation?_eq_some_iff.1 located
          exact ⟨⟨p, same, shortest, rfl⟩, rfl⟩
        · rintro ⟨⟨p, same, shortest, given⟩, clause⟩
          have found := firstLocation?_eq_some_iff.2 ⟨p, same, shortest, rfl⟩
          rw [located] at found
          cases found
          rw [clause, given]

theorem value_importAt (path : String) (o : Occurrence Unit) :
    (importAt path o).value = (readImport path (Text.lineAfter o.before) o.text).toOption := by
  unfold importAt
  dsimp only
  cases readImport path (Text.lineAfter o.before) o.text with
  | ok clause => rfl
  | error fault => rfl

theorem value_importAt_eq_some_iff {path : String} {o : Occurrence Unit} {c : ImportClause} :
    (importAt path o).value = some c ↔
      readImport path (Text.lineAfter o.before) o.text = .ok c := by
  rw [value_importAt]
  cases readImport path (Text.lineAfter o.before) o.text with
  | ok clause => simp [Except.toOption]
  | error fault => simp [Except.toOption]

/-- The imports of a text are those of its statements, in their order. -/
theorem value_importClauses (s : List Char) (path : String) :
    (importClauses s path).value =
      (occurrences importStatement s).filterMap fun o => (importAt path o).value := by
  unfold importClauses
  rw [Report.value_bind, Report.value_mapM, Report.value_pure, List.filterMap_map]
  rfl

/-- **Which statements are imports, and with which location.** Of the statements of a text those are
read that bind a qualifier to a URI and say behind it nothing or `at` and quoted texts with commas
between them; the location is the shortest first text. No other first text is shorter than one
without its own quote. But quoted texts may have their own quotes, so that whatever is read can be
taken for no more than two of them, of different kinds. -/
theorem importClauses_located (s : List Char) (path : String) :
    (importClauses s path).value =
        (occurrences importStatement s).filterMap (fun o => (importAt path o).value) ∧
      (∀ o ∈ occurrences importStatement s, ∀ c, (importAt path o).value = some c ↔
        ∃ qualifier uri rest, importBinding o.text = some ((qualifier, uri), rest) ∧
          LocatedBy path (Text.trim rest.dropLast) c.location ∧
          c = ⟨String.ofList qualifier, String.ofList uri, c.location,
            Text.lineAfter o.before⟩) ∧
      (∀ p : Places, p.IsClean → p.IsShortest) ∧
      ∀ p : Places, ∃ q : Places, q.text = p.text ∧ q.further.length ≤ 1 ∧
        ∀ f ∈ q.further, f.quote ≠ q.first.quote := by
  refine ⟨value_importClauses s path, ?_, ?_, ?_⟩
  · intro o _ c
    rw [value_importAt_eq_some_iff, readImport_eq_ok_iff]
  · exact fun p clean => Places.isShortest_of_not_mem clean.1
  · intro p
    obtain ⟨joined, more, quote, different, same⟩ := exists_joined p.first p.further
    refine ⟨⟨p.gap, joined, more.toList, p.spaced, p.blank⟩, ?_, ?_, ?_⟩
    · unfold Places.text
      rw [same]
    · exact Option.length_toList_le
    · intro f listed
      rw [quote]
      exact different f (Option.mem_toList.1 listed)

/-- An import with two locations and no comma between them. -/
def unseparated : List Char :=
  "import module namespace p = \"u\" at \"/b.xqy\" \"/c.xqy\";".toList

/-- Without the comma both locations are read as one, which has its own quotes in it, though no
texts without their own quotes are written there. -/
theorem unseparated_located :
    (importClauses unseparated "/a.xqy").value = [⟨"p", "u", some "/b.xqy\" \"/c.xqy", 1⟩] ∧
      ¬∃ p : Places, p.text = "at \"/b.xqy\" \"/c.xqy\"".toList ∧ p.IsClean := by
  refine ⟨by decide +kernel, ?_⟩
  rintro ⟨p, same, clean⟩
  have read := firstLocation?_eq_some_iff.2
    ⟨p, same, Places.isShortest_of_not_mem clean.1, rfl⟩
  have joined : firstLocation? "at \"/b.xqy\" \"/c.xqy\"".toList =
      some "/b.xqy\" \"/c.xqy".toList := by decide +kernel
  have opened := p.opening
  rw [same] at opened
  have quote : '"' = p.first.quote := (Prod.mk.inj (Option.some.inj opened)).1
  rw [joined] at read
  refine clean.1 ?_
  rw [← quote, ← Option.some.inj read]
  decide

end CallAtlas.Source
