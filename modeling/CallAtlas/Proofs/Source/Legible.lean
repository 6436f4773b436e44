import CallAtlas.Proofs.Source.Arities
import CallAtlas.Proofs.Source.ReadModule

/-!
# Which texts are read

Reading a module passes over whatever is malformed with a notice (`Diagnoses`), so almost every
text is read. The exception are numerals: a text is read if and only if the explicit arities in the
bodies of its declarations, at calls by known qualifiers, are no longer than numerals may be
(`exists_readModule_iff`), and nothing but such a numeral is what the reading fails with.

A declaration that has a body is closed by a semicolon that is there, so no other step of the
reading can go astray (`Handles`).

The walk along the heads of declarations carries these facts. At each head it either goes on as
it is, or gives a notice and goes on, or reads a function and goes on behind it; what it does with a
function that was read does not change whether the rest is read (`wraps_declarationsFrom`).
-/

namespace CallAtlas.Source

/-! ## The walk along the heads -/

/-- The heads that do not lie inside the declaration of an earlier one. -/
def headsFrom (content : List Char) (start : Nat) :
    List (Occurrence Header) → List (Occurrence Header)
  | [] => []
  | o :: heads =>
    if o.offset < start then headsFrom content start heads
    else
      match outline content o with
      | .ok (some parts) => o :: headsFrom content (parts.endOffset + 1) heads
      | _ => o :: headsFrom content start heads

section Walk

variable {known : List String} {content : List Char} {path : String} {start : Nat}
  {seen : List String} {o : Occurrence Header} {heads : List (Occurrence Header)}

theorem headsFrom_of_lt (inside : o.offset < start) :
    headsFrom content start (o :: heads) = headsFrom content start heads := by
  rw [headsFrom, if_pos inside]

theorem headsFrom_of_outline (behind : ¬o.offset < start) {parts : Outline}
    (outlined : outline content o = .ok (some parts)) :
    headsFrom content start (o :: heads) = o :: headsFrom content (parts.endOffset + 1) heads := by
  rw [headsFrom, if_neg behind, outlined]

theorem headsFrom_of_none (behind : ¬o.offset < start)
    (none : ∀ parts, outline content o ≠ .ok (some parts)) :
    headsFrom content start (o :: heads) = o :: headsFrom content start heads := by
  rw [headsFrom, if_neg behind]
  split
  next parts outlined => exact (none parts outlined).elim
  next => rfl

/-- The notice of a declaration that is skipped. -/
def skipNotice (path : String) (o : Occurrence Header) (fault : DeclarationFault) : Notice :=
  .functionSkipped
    (.malformed fault.message (some path) (some (Int.ofNat (Text.lineAfter o.before))))

/-- A head without a body is passed over with a notice. -/
theorem declarationsFrom_of_none (known : List String) (path : String) (seen : List String)
    (heads : List (Occurrence Header)) (behind : ¬o.offset < start)
    (none : ∀ parts, outline content o ≠ .ok (some parts)) :
    ∃ n, declarationsFrom known content path start seen (o :: heads) = (do
        liftM (Report.note n)
        declarationsFrom known content path start seen heads) ∧
      ∀ fault, outline content o = .error fault → n = skipNotice path o fault := by
  rw [declarationsFrom, if_neg behind]
  cases outlined : outline content o with
  | error fault =>
    refine ⟨_, rfl, ?_⟩
    rintro _ ⟨rfl⟩
    rfl
  | ok parts =>
    cases parts with
    | none =>
      refine ⟨_, rfl, ?_⟩
      intro fault absent
      cases absent
    | some parts => exact (none parts outlined).elim

/-- Behind a function the rest is read, whatever becomes of the function. -/
theorem wraps_declarationsFrom (known : List String) (path : String) (seen : List String)
    (heads : List (Occurrence Header)) (behind : ¬o.offset < start) {parts : Outline}
    (outlined : outline content o = .ok (some parts)) :
    ∃ next, declarationsFrom known content path start seen (o :: heads) =
        (functionOf known content o parts >>= next) ∧
      ∀ f, ∃ seen, Checked.Wraps (next f)
        (declarationsFrom known content path (parts.endOffset + 1) seen heads) := by
  rw [declarationsFrom, if_neg behind, outlined]
  refine ⟨_, rfl, fun f => ?_⟩
  dsimp only
  split
  next => exact ⟨seen, Checked.wraps_of_note _ _⟩
  next => exact ⟨f.qualifiedName :: seen, Checked.wraps_of_map _ _⟩

/-- Whether the explicit arities in the bodies behind some heads can be read. -/
def HaveShortArities (known : List String) (content : List Char)
    (heads : List (Occurrence Header)) : Prop :=
  ∀ o ∈ heads, ∀ parts, outline content o = .ok (some parts) → HasShortArities known parts.body

theorem haveShortArities_cons_of_none (none : ∀ parts, outline content o ≠ .ok (some parts)) :
    HaveShortArities known content (o :: heads) ↔ HaveShortArities known content heads := by
  unfold HaveShortArities
  rw [List.forall_mem_cons, and_iff_right_of_imp]
  exact fun _ parts outlined => (none parts outlined).elim

theorem haveShortArities_cons_of_outline {parts : Outline}
    (outlined : outline content o = .ok (some parts)) :
    HaveShortArities known content (o :: heads) ↔
      HasShortArities known parts.body ∧ HaveShortArities known content heads := by
  unfold HaveShortArities
  rw [List.forall_mem_cons]
  refine and_congr_left' ⟨fun each => each parts outlined, ?_⟩
  intro short other outlined'
  rw [outlined] at outlined'
  cases outlined'
  exact short

/-- The declarations of a list of heads are read if and only if the explicit arities in them are
short. -/
theorem exists_declarationsFrom_iff :
    (∃ fs, (declarationsFrom known content path start seen heads).value = .ok fs) ↔
      HaveShortArities known content (headsFrom content start heads) := by
  induction heads generalizing start seen with
  | nil => exact ⟨fun _ o member => (nomatch member), fun _ => ⟨[], rfl⟩⟩
  | cons o heads ih =>
    by_cases inside : o.offset < start
    case pos =>
      rw [declarationsFrom, if_pos inside, headsFrom_of_lt inside]
      exact ih
    case neg =>
      by_cases body : ∃ parts, outline content o = .ok (some parts)
      case pos =>
        obtain ⟨parts, outlined⟩ := body
        obtain ⟨next, walk, wraps⟩ := wraps_declarationsFrom known path seen heads inside outlined
        rw [walk, headsFrom_of_outline inside outlined, haveShortArities_cons_of_outline outlined,
          ← exists_functionOf_iff]
        constructor
        · rintro ⟨fs, read⟩
          obtain ⟨f, first, others⟩ := Checked.value_bind_eq_ok.1 read
          obtain ⟨seen, wrapped⟩ := wraps f
          exact ⟨⟨f, first⟩, ih.1 (wrapped.exists_value_iff.1 ⟨fs, others⟩)⟩
        · rintro ⟨⟨f, first⟩, others⟩
          obtain ⟨seen, wrapped⟩ := wraps f
          rw [Checked.value_bind_of_ok first]
          exact wrapped.exists_value_iff.2 (ih.2 others)
      case neg =>
        have none := not_exists.1 body
        obtain ⟨n, walk, -⟩ := declarationsFrom_of_none known path seen heads inside none
        rw [walk, headsFrom_of_none inside none, haveShortArities_cons_of_none none, ← ih]
        exact (Checked.wraps_of_note n _).exists_value_iff

/-- Nothing but an explicit arity that is too long stops the walk. -/
theorem failsBy_declarationsFrom :
    (declarationsFrom known content path start seen heads).FailsBy IsTooLong := by
  induction heads generalizing start seen with
  | nil => exact Checked.failsBy_of_ok rfl
  | cons o heads ih =>
    by_cases inside : o.offset < start
    case pos =>
      rw [declarationsFrom, if_pos inside]
      exact ih
    case neg =>
      by_cases body : ∃ parts, outline content o = .ok (some parts)
      case pos =>
        obtain ⟨parts, outlined⟩ := body
        obtain ⟨next, walk, wraps⟩ := wraps_declarationsFrom known path seen heads inside outlined
        rw [walk]
        refine failsBy_functionOf.bind fun f _ => ?_
        obtain ⟨seen, wrapped⟩ := wraps f
        exact wrapped.failsBy ih
      case neg =>
        obtain ⟨n, walk, -⟩ :=
          declarationsFrom_of_none known path seen heads inside (not_exists.1 body)
        rw [walk]
        exact (Checked.wraps_of_note n _).failsBy ih

/-- A notice that is due for a head: its declaration is skipped, or something in it is. -/
def Due (known : List String) (content : List Char) (path : String) (o : Occurrence Header)
    (n : Notice) : Prop :=
  (∃ fault, outline content o = .error fault ∧ n = skipNotice path o fault) ∨
    ∃ parts, outline content o = .ok (some parts) ∧ n ∈ (functionOf known content o parts).notices

/-- A walk to the end of the heads gives the notices that are due for each. -/
theorem mem_notices_declarationsFrom
    (short : HaveShortArities known content (headsFrom content start heads))
    {at' : Occurrence Header} (listed : at' ∈ headsFrom content start heads) {n : Notice}
    (due : Due known content path at' n) :
    n ∈ (declarationsFrom known content path start seen heads).notices := by
  induction heads generalizing start seen with
  | nil => cases listed
  | cons o heads ih =>
    by_cases inside : o.offset < start
    case pos =>
      rw [headsFrom_of_lt inside] at short listed
      rw [declarationsFrom, if_pos inside]
      exact ih short listed
    case neg =>
      by_cases body : ∃ parts, outline content o = .ok (some parts)
      case pos =>
        obtain ⟨parts, outlined⟩ := body
        rw [headsFrom_of_outline inside outlined] at short listed
        rw [haveShortArities_cons_of_outline outlined] at short
        obtain ⟨f, first⟩ := (@exists_functionOf_iff known content o parts).2 short.1
        obtain ⟨next, walk, wraps⟩ := wraps_declarationsFrom known path seen heads inside outlined
        rw [walk]
        rcases List.mem_cons.1 listed with rfl | later
        · rcases due with ⟨fault, absent, -⟩ | ⟨parts', same, given⟩
          · rw [outlined] at absent
            cases absent
          · rw [outlined] at same
            cases same
            exact Checked.mem_notices_of_first given _
        · obtain ⟨seen, wrapped⟩ := wraps f
          exact Checked.mem_notices_of_next first (wrapped.mem_notices (ih short.2 later))
      case neg =>
        have none := not_exists.1 body
        rw [headsFrom_of_none inside none] at short listed
        rw [haveShortArities_cons_of_none none] at short
        obtain ⟨note, walk, skips⟩ := declarationsFrom_of_none known path seen heads inside none
        rw [walk]
        rcases List.mem_cons.1 listed with rfl | later
        · rcases due with ⟨fault, absent, rfl⟩ | ⟨parts, outlined, -⟩
          · rw [skips fault absent]
            exact Checked.mem_notices_of_first List.mem_cons_self _
          · exact (none parts outlined).elim
        · exact (Checked.wraps_of_note note _).mem_notices (ih short later)

end Walk

/-! ## Modules -/

/-- The qualifiers by which the module in a text calls functions of the repository. -/
def qualifiersOf (s : List Char) (path : String) : List String :=
  knownQualifiers (naming s path).value ((importClauses s path).value.foldl
    (fun table clause => table.put clause.qualifier clause) Table.empty)

/-- The heads of declarations in a text that do not lie inside an earlier declaration. -/
def headsOf (s : List Char) : List (Occurrence Header) :=
  headsFrom s 0 (occurrences header s)

/-- Whether a text, its comments left aside, can be read as the module at a path: every explicit
arity in a body, at a call by a qualifier that the module knows, is short enough. -/
def IsLegible (text path : String) : Prop :=
  let s := stripComments text.toList
  HaveShortArities (qualifiersOf s path) s (headsOf s)

/-- Some notices tell of everything that is malformed in a text: the import statements that are
none, the declarations that break off, and the calls by known qualifiers that are never closed. -/
structure Diagnoses (s : List Char) (path : String) (notices : List Notice) : Prop where
  imports : ∀ o ∈ occurrences importStatement s, ∀ fault,
    readImport path (Text.lineAfter o.before) o.text = .error fault →
    .importSkipped (.malformed fault.message (some path)
      (some (Int.ofNat (Text.lineAfter o.before)))) ∈ notices
  declarations : ∀ o ∈ headsOf s, ∀ fault, outline s o = .error fault →
    skipNotice path o fault ∈ notices
  calls : ∀ o ∈ headsOf s, ∀ parts, outline s o = .ok (some parts) →
    ∀ c ∈ occurrences callHead parts.body, String.ofList c.value.qualifier ∈ qualifiersOf s path →
    c.value.arity = none → ∀ inside, Text.dropBlanks c.rest = '(' :: inside →
    cutParenthesis? inside = none →
    .callUnclosed (String.ofList c.value.qualifier) (String.ofList c.value.name) ∈ notices

section Modules

variable {text path : String}

/-- The name and the imports of a module are always read, and its declarations behind them. -/
theorem wraps_readModule (text path : String) :
    Checked.Wraps (readModule text path)
      (declarations (qualifiersOf (stripComments text.toList) path) (stripComments text.toList)
        path) :=
  .lift_bind (.lift_bind (Checked.wraps_of_map _ _))

/-- A text is read if and only if it is legible. -/
theorem exists_readModule_iff :
    (∃ m, (readModule text path).value = .ok m) ↔ IsLegible text path :=
  (wraps_readModule text path).exists_value_iff.trans exists_declarationsFrom_iff

theorem failsBy_readModule : (readModule text path).FailsBy IsTooLong :=
  (wraps_readModule text path).failsBy failsBy_declarationsFrom

/-- Reading a legible text tells of everything that is malformed in it. -/
theorem diagnoses_readModule (legible : IsLegible text path) :
    Diagnoses (stripComments text.toList) path (readModule text path).notices := by
  have walk : ∀ o ∈ headsOf (stripComments text.toList), ∀ n,
      Due (qualifiersOf (stripComments text.toList) path) (stripComments text.toList) path o n →
        n ∈ (readModule text path).notices := fun o listed n due =>
    (wraps_readModule text path).mem_notices (mem_notices_declarationsFrom legible listed due)
  constructor
  case imports =>
    intro o found fault unread
    refine Checked.mem_notices_of_next (Checked.value_lift _) (Checked.mem_notices_of_first ?_ _)
    rw [Checked.notices_lift]
    refine Report.mem_notices_of_first (Report.mem_notices_mapM found ?_) _
    unfold importAt
    dsimp only
    rw [unread]
    exact List.mem_cons_self
  case declarations =>
    exact fun o listed fault skipped => walk o listed _ (.inl ⟨fault, skipped, rfl⟩)
  case calls =>
    intro o listed parts outlined c found isKnown implicit inside opened unclosed
    have short := legible o listed parts outlined
    refine walk o listed _ (.inr ⟨parts, outlined, Checked.mem_notices_of_first ?_ _⟩)
    exact mem_notices_callSitesBy short found isKnown implicit opened unclosed

/-- How reading takes a text as the module at a path. -/
structure Handles (text path : String) : Prop where
  returns : (∃ m, (readModule text path).value = .ok m ∧ m.path = path) ↔ IsLegible text path
  fails : ∀ e, (readModule text path).value = .error e → IsTooLong e
  diagnoses : IsLegible text path →
    Diagnoses (stripComments text.toList) path (readModule text path).notices
  /-- The semicolon behind a body is there when its place is looked up. -/
  closed : ∀ o ∈ headsOf (stripComments text.toList), ∀ parts,
    outline (stripComments text.toList) o = .ok (some parts) →
    ∃ front after, o.rest = front ++ ';' :: after ∧
      parts.endOffset = (stripComments text.toList).length - (after.length + 1)

theorem handles (text path : String) : Handles text path where
  returns := by
    rw [← exists_readModule_iff]
    constructor
    · rintro ⟨m, read, -⟩
      exact ⟨m, read⟩
    · rintro ⟨m, read⟩
      exact ⟨m, read, (readModule_spec read).1⟩
  fails := failsBy_readModule
  diagnoses := diagnoses_readModule
  closed := fun _ _ _ outlined => exists_semicolon_of_outline outlined

end Modules

end CallAtlas.Source
