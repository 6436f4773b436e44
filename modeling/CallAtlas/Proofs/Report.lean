import CallAtlas.Notice
import Mathlib.Data.List.Forall2

/-!
# Values and notices of reports

A report is a value with notices. Most statements of the theory are about values; this module
follows a value through the steps of a computation, so that no later proof opens the monads of
reports, checked computations or loops over them. It does the same for what a computation can fail
with (`Checked.FailsBy`), and for a notice, which is kept by all later steps. Where steps on a list
only give results or fail, the first failure is that of the list.
-/

namespace CallAtlas

/-! ## Lists of steps -/

section Lists

variable {ε α β : Type} {f : α → Except ε β} {x : α} {xs : List α}

/-- A list of steps gives results if and only if the first step and the others do. -/
theorem mapM_cons_eq_ok {ys : List β} : (x :: xs).mapM f = .ok ys ↔
    ∃ y rest, f x = .ok y ∧ xs.mapM f = .ok rest ∧ ys = y :: rest := by
  rw [List.mapM_cons]
  cases f x with
  | error e => simp [bind, Except.bind]
  | ok y =>
    cases xs.mapM f with
    | error e => simp [bind, Except.bind]
    | ok rest => simp [bind, Except.bind, pure, Except.pure, eq_comm]

/-- A list of steps fails with the first failure. -/
theorem mapM_cons_eq_error {e : ε} : (x :: xs).mapM f = .error e ↔
    f x = .error e ∨ (∃ y, f x = .ok y) ∧ xs.mapM f = .error e := by
  rw [List.mapM_cons]
  cases f x with
  | error e => simp [bind, Except.bind]
  | ok y =>
    cases xs.mapM f with
    | error e => simp [bind, Except.bind]
    | ok rest => simp [bind, Except.bind, pure, Except.pure]

theorem length_of_mapM_eq_ok {ys : List β} (results : xs.mapM f = .ok ys) :
    ys.length = xs.length := by
  induction xs generalizing ys with
  | nil =>
    cases results
    rfl
  | cons x xs ih =>
    obtain ⟨y, rest, -, later, rfl⟩ := mapM_cons_eq_ok.1 results
    rw [List.length_cons, List.length_cons, ih later]

/-- A list of steps that fails has the failure of one of them. -/
theorem exists_of_mapM_eq_error {e : ε} (failed : xs.mapM f = .error e) :
    ∃ x ∈ xs, f x = .error e := by
  induction xs with
  | nil => cases failed
  | cons x xs ih =>
    rcases mapM_cons_eq_error.1 failed with first | ⟨-, later⟩
    · exact ⟨x, List.mem_cons_self, first⟩
    · obtain ⟨x', listed, given⟩ := ih later
      exact ⟨x', List.mem_cons_of_mem _ listed, given⟩

theorem mapM_of_ok {g : α → β} (each : ∀ x ∈ xs, f x = .ok (g x)) :
    xs.mapM f = .ok (xs.map g) := by
  induction xs with
  | nil => rfl
  | cons x xs ih =>
    exact mapM_cons_eq_ok.2 ⟨g x, xs.map g, each x List.mem_cons_self,
      ih fun y member => each y (List.mem_cons_of_mem _ member), rfl⟩

end Lists

namespace Report

/-! ## Steps -/

@[simp]
theorem value_pure {α : Type} (a : α) : (pure a : Report α).value = a := rfl

@[simp]
theorem value_bind {α β : Type} (r : Report α) (f : α → Report β) :
    (r >>= f).value = (f r.value).value := rfl

/-! ## Loops -/

theorem value_foldlM {α β : Type} (f : β → α → Report β) (b : β) (xs : List α) :
    (xs.foldlM f b).value = xs.foldl (fun b x => (f b x).value) b := by
  induction xs generalizing b with
  | nil => rfl
  | cons x xs ih =>
    rw [List.foldlM_cons, value_bind, ih]
    rfl

theorem value_mapM {α β : Type} (f : α → Report β) (xs : List α) :
    (xs.mapM f).value = xs.map fun x => (f x).value := by
  induction xs with
  | nil => rfl
  | cons x xs ih =>
    rw [List.mapM_cons, value_bind, value_bind, ih]
    rfl

/-! ## Notices -/

theorem mem_notices_of_first {α β : Type} {r : Report α} {n : Notice} (given : n ∈ r.notices)
    (f : α → Report β) : n ∈ (r >>= f).notices :=
  List.mem_append_left _ given

theorem mem_notices_of_next {α β : Type} {r : Report α} {f : α → Report β} {n : Notice}
    (given : n ∈ (f r.value).notices) : n ∈ (r >>= f).notices :=
  List.mem_append_right _ given

theorem mem_notices_mapM {α β : Type} {f : α → Report β} {xs : List α} {x : α} {n : Notice}
    (member : x ∈ xs) (given : n ∈ (f x).notices) : n ∈ (xs.mapM f).notices := by
  induction xs with
  | nil => cases member
  | cons y xs ih =>
    rw [List.mapM_cons]
    rcases List.mem_cons.1 member with rfl | later
    · exact mem_notices_of_first given _
    · exact mem_notices_of_next (mem_notices_of_first (ih later) _)

end Report

namespace Checked

/-- The outcome of a checked computation, its notices left aside. -/
def value {ε α : Type} (c : Checked ε α) : Except ε α :=
  c.run.value

variable {ε α β : Type}

@[simp]
theorem value_pure (a : α) : (pure a : Checked ε α).value = .ok a := rfl

@[simp]
theorem value_lift (r : Report α) : (liftM r : Checked ε α).value = .ok r.value := rfl

theorem value_bind (c : Checked ε α) (f : α → Checked ε β) :
    (c >>= f).value = c.value >>= fun a => (f a).value := by
  change (c.run >>= ExceptT.bindCont f).value = _
  rw [Report.value_bind]
  unfold value
  cases c.run.value with
  | ok a => rfl
  | error e => rfl

/-- A step that gives a result hands it to the next step. -/
theorem value_bind_of_ok {c : Checked ε α} {a : α} (h : c.value = .ok a) (f : α → Checked ε β) :
    (c >>= f).value = (f a).value := by
  rw [value_bind, h]
  rfl

/-- A computation of two steps gives a result only through a result of the first. -/
theorem value_bind_eq_ok {c : Checked ε α} {f : α → Checked ε β} {b : β} :
    (c >>= f).value = .ok b ↔ ∃ a, c.value = .ok a ∧ (f a).value = .ok b := by
  rw [value_bind]
  cases c.value with
  | ok a => simp [bind, Except.bind]
  | error e => simp [bind, Except.bind]

/-- Every result of a list of computations is the result of one of them. -/
theorem exists_of_mem_mapM {f : α → Checked ε β} {xs : List α} {ys : List β}
    (h : (xs.mapM f).value = .ok ys) : ∀ y ∈ ys, ∃ x ∈ xs, (f x).value = .ok y := by
  induction xs generalizing ys with
  | nil =>
    cases h
    intro y member
    cases member
  | cons x xs ih =>
    rw [List.mapM_cons, value_bind_eq_ok] at h
    obtain ⟨first, result, h⟩ := h
    obtain ⟨rest, results, h⟩ := value_bind_eq_ok.1 h
    cases h
    intro y member
    rcases List.mem_cons.1 member with rfl | later
    · exact ⟨x, List.mem_cons_self, result⟩
    · obtain ⟨x', listed, found⟩ := ih results y later
      exact ⟨x', List.mem_cons_of_mem _ listed, found⟩

/-- The results that are there come from some of the computations, in their order. -/
theorem exists_sublist_of_mapM {f : α → Checked ε (Option β)} {xs : List α}
    {ys : List (Option β)} (h : (xs.mapM f).value = .ok ys) :
    ∃ zs, zs.Sublist xs ∧
      List.Forall₂ (fun z y => (f z).value = .ok (some y)) zs (ys.filterMap id) := by
  induction xs generalizing ys with
  | nil =>
    cases h
    exact ⟨[], List.Sublist.refl _, .nil⟩
  | cons x xs ih =>
    rw [List.mapM_cons, value_bind_eq_ok] at h
    rcases h with ⟨first, result, h⟩
    rcases value_bind_eq_ok.1 h with ⟨rest, results, made⟩
    cases made
    rcases ih results with ⟨zs, part, each⟩
    cases first with
    | none => exact ⟨zs, part.cons x, each⟩
    | some y => exact ⟨x :: zs, part.cons_cons x, .cons result each⟩

/-- A list of computations gives results if and only if each of them does. -/
theorem exists_value_mapM_iff {f : α → Checked ε β} {xs : List α} :
    (∃ ys, (xs.mapM f).value = .ok ys) ↔ ∀ x ∈ xs, ∃ y, (f x).value = .ok y := by
  induction xs with
  | nil => exact ⟨fun _ x member => (nomatch member), fun _ => ⟨[], rfl⟩⟩
  | cons x xs ih =>
    rw [List.mapM_cons, List.forall_mem_cons, ← ih]
    constructor
    · rintro ⟨ys, results⟩
      obtain ⟨y, first, results⟩ := value_bind_eq_ok.1 results
      obtain ⟨rest, later, -⟩ := value_bind_eq_ok.1 results
      exact ⟨⟨y, first⟩, ⟨rest, later⟩⟩
    · rintro ⟨⟨y, first⟩, ⟨rest, later⟩⟩
      refine ⟨y :: rest, ?_⟩
      rw [value_bind_of_ok first, value_bind_of_ok later]
      rfl

/-- A loop whose steps all give results gives the result of the loop over them. -/
theorem value_foldlM_of_ok {f : β → α → Checked ε β} {g : β → α → β} {xs : List α}
    (each : ∀ b, ∀ x ∈ xs, (f b x).value = .ok (g b x)) (b : β) :
    (xs.foldlM f b).value = .ok (xs.foldl g b) := by
  induction xs generalizing b with
  | nil => rfl
  | cons x xs ih =>
    rw [List.foldlM_cons, value_bind_of_ok (each b x List.mem_cons_self), List.foldl_cons]
    exact ih (fun b x member => each b x (List.mem_cons_of_mem _ member)) (g b x)

/-- A loop gives a result only if each of its steps does. -/
theorem exists_of_value_foldlM {f : β → α → Checked ε β} {xs : List α} {b last : β}
    (h : (xs.foldlM f b).value = .ok last) : ∀ x ∈ xs, ∃ b next, (f b x).value = .ok next := by
  induction xs generalizing b with
  | nil => exact fun x member => nomatch member
  | cons x xs ih =>
    rw [List.foldlM_cons, value_bind_eq_ok] at h
    obtain ⟨next, first, rest⟩ := h
    intro y member
    rcases List.mem_cons.1 member with rfl | later
    · exact ⟨b, next, first⟩
    · exact ih rest y later

/-! ## Failures -/

/-- Whatever a computation fails with meets a condition. -/
def FailsBy (p : ε → Prop) (c : Checked ε α) : Prop :=
  ∀ e, c.value = .error e → p e

variable {p : ε → Prop}

theorem failsBy_of_ok {c : Checked ε α} {a : α} (h : c.value = .ok a) : c.FailsBy p := by
  intro e failed
  rw [h] at failed
  cases failed

theorem FailsBy.bind {c : Checked ε α} {f : α → Checked ε β} (first : c.FailsBy p)
    (next : ∀ a, c.value = .ok a → (f a).FailsBy p) : (c >>= f).FailsBy p := by
  intro e failed
  cases outcome : c.value with
  | ok a =>
    rw [value_bind_of_ok outcome] at failed
    exact next a outcome e failed
  | error e' =>
    rw [value_bind, outcome] at failed
    cases failed
    exact first e outcome

theorem FailsBy.mapM {f : α → Checked ε β} {xs : List α} (each : ∀ x ∈ xs, (f x).FailsBy p) :
    (xs.mapM f).FailsBy p := by
  induction xs with
  | nil => exact failsBy_of_ok rfl
  | cons x xs ih =>
    rw [List.mapM_cons]
    refine (each x List.mem_cons_self).bind fun y _ => ?_
    exact (ih fun z member => each z (List.mem_cons_of_mem _ member)).bind fun ys _ =>
      failsBy_of_ok rfl

/-! ## Notices -/

/-- The notices of a checked computation, which outlive its failure. -/
def notices (c : Checked ε α) : List Notice :=
  c.run.notices

@[simp]
theorem notices_lift (r : Report α) : (liftM r : Checked ε α).notices = r.notices :=
  List.append_nil _

theorem mem_notices_of_first {c : Checked ε α} {n : Notice} (given : n ∈ c.notices)
    (f : α → Checked ε β) : n ∈ (c >>= f).notices :=
  List.mem_append_left _ given

theorem mem_notices_of_next {c : Checked ε α} {f : α → Checked ε β} {a : α} {n : Notice}
    (h : c.value = .ok a) (given : n ∈ (f a).notices) : n ∈ (c >>= f).notices := by
  refine List.mem_append_right _ ?_
  have outcome : c.run.value = .ok a := h
  change n ∈ (ExceptT.bindCont f c.run.value).notices
  rw [outcome]
  exact given

theorem mem_notices_mapM {f : α → Checked ε β} {xs : List α} {x : α} {n : Notice}
    (each : ∀ y ∈ xs, ∃ b, (f y).value = .ok b) (member : x ∈ xs) (given : n ∈ (f x).notices) :
    n ∈ (xs.mapM f).notices := by
  induction xs with
  | nil => cases member
  | cons y xs ih =>
    rw [List.mapM_cons]
    obtain ⟨b, first⟩ := each y List.mem_cons_self
    rcases List.mem_cons.1 member with rfl | later
    · exact mem_notices_of_first given _
    · refine mem_notices_of_next first (mem_notices_of_first ?_ _)
      exact ih (fun z listed => each z (List.mem_cons_of_mem _ listed)) later

/-! ## Wrapped computations -/

/-- A computation gives notices and then does what another one does, up to a change of its
result. -/
def Wraps (c : Checked ε β) (inner : Checked ε α) : Prop :=
  ∃ (r : Report Unit) (g : α → β), c = do
    liftM r
    return g (← inner)

theorem wraps_of_note (n : Notice) (inner : Checked ε α) :
    Wraps (do liftM (Report.note n); inner) inner :=
  ⟨Report.note n, id, by simp⟩

theorem wraps_of_map (g : α → β) (inner : Checked ε α) : Wraps (do return g (← inner)) inner :=
  ⟨pure (), g, rfl⟩

/-- A report in front of a computation gives its notices, and its value is known. -/
theorem lift_bind (r : Report α) (f : α → Checked ε β) :
    (liftM r >>= f : Checked ε β) = liftM r >>= fun _ => f r.value :=
  rfl

theorem Wraps.lift_bind {γ : Type} {r : Report γ} {f : γ → Checked ε β} {inner : Checked ε α}
    (wraps : Wraps (f r.value) inner) : Wraps (liftM r >>= f) inner := by
  obtain ⟨first, g, same⟩ := wraps
  refine ⟨r >>= fun _ => first, g, ?_⟩
  rw [Checked.lift_bind, same, liftM_bind, bind_assoc]

namespace Wraps

variable {c : Checked ε β} {inner : Checked ε α}

theorem exists_value_iff (wraps : Wraps c inner) :
    (∃ b, c.value = .ok b) ↔ ∃ a, inner.value = .ok a := by
  obtain ⟨r, g, rfl⟩ := wraps
  rw [value_bind_of_ok (value_lift r)]
  constructor
  · rintro ⟨b, given⟩
    obtain ⟨a, first, -⟩ := value_bind_eq_ok.1 given
    exact ⟨a, first⟩
  · rintro ⟨a, first⟩
    exact ⟨g a, value_bind_of_ok first _⟩

theorem failsBy (wraps : Wraps c inner) (fails : inner.FailsBy p) : c.FailsBy p := by
  obtain ⟨r, g, rfl⟩ := wraps
  exact (failsBy_of_ok (value_lift r)).bind fun _ _ => fails.bind fun _ _ => failsBy_of_ok rfl

theorem mem_notices (wraps : Wraps c inner) {n : Notice} (given : n ∈ inner.notices) :
    n ∈ c.notices := by
  obtain ⟨r, g, rfl⟩ := wraps
  exact mem_notices_of_next (value_lift r) (mem_notices_of_first given _)

end Wraps

end Checked
end CallAtlas
