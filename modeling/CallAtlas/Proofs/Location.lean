import CallAtlas.Location
import CallAtlas.Proofs.Text.Lines

/-!
# Characters of locations

The normal form of a location drops components and adds none, so that its characters are those of
the location, slashes and points. The location of an import has all characters of the text that
names it, points aside: either it is that text, or that text is its last component.
-/

namespace CallAtlas.Location

variable {c : Char} {s source part : List Char} {parts stack : List (List Char)} {rooted : Bool}

/-! ## Components -/

theorem joinComponents_components (s : List Char) : joinComponents (components s) = s :=
  List.intercalate_splitOn '/'

/-- The characters of joined components are theirs and slashes. -/
theorem of_mem_joinComponents (member : c ∈ joinComponents parts) :
    c = '/' ∨ ∃ part ∈ parts, c ∈ part := by
  induction parts with
  | nil => cases member
  | cons first parts ih =>
    cases parts with
    | nil =>
      unfold joinComponents at member
      rw [List.intercalate_singleton] at member
      exact Or.inr ⟨first, List.mem_cons_self, member⟩
    | cons second parts =>
      unfold joinComponents at member
      rw [List.intercalate_cons_cons, List.mem_append, List.mem_append,
        List.mem_singleton] at member
      rcases member with (inFirst | slash) | later
      · exact Or.inr ⟨first, List.mem_cons_self, inFirst⟩
      · exact Or.inl slash
      · exact (ih later).imp_right fun ⟨part, listed, inPart⟩ =>
          ⟨part, List.mem_cons_of_mem _ listed, inPart⟩

theorem mem_joinComponents (listed : part ∈ parts) (member : c ∈ part) :
    c ∈ joinComponents parts := by
  induction parts with
  | nil => cases listed
  | cons first parts ih =>
    cases parts with
    | nil =>
      unfold joinComponents
      rw [List.intercalate_singleton]
      exact List.mem_singleton.1 listed ▸ member
    | cons second parts =>
      unfold joinComponents
      rw [List.intercalate_cons_cons, List.mem_append, List.mem_append]
      rcases List.mem_cons.1 listed with rfl | later
      · exact Or.inl (Or.inl member)
      · exact Or.inr (ih later)

/-! ## The normal form -/

theorem of_mem_pushComponent {p : List Char} (member : p ∈ pushComponent rooted stack part) :
    p = part ∨ p ∈ stack := by
  unfold pushComponent at member
  split at member
  next => exact Or.inr member
  next =>
    split at member
    next => exact List.mem_cons.1 member
    next =>
      split at member
      next =>
        split at member
        next => cases member
        next => exact Or.inl (List.mem_singleton.1 member)
      next =>
        split at member
        next => exact List.mem_cons.1 member
        next => exact Or.inr (List.mem_cons_of_mem _ member)

theorem of_mem_foldl_pushComponent {p : List Char}
    (member : p ∈ parts.foldl (pushComponent rooted) stack) : p ∈ parts ∨ p ∈ stack := by
  induction parts generalizing stack with
  | nil => exact Or.inr member
  | cons part parts ih =>
    rcases ih member with later | pushed
    · exact Or.inl (List.mem_cons_of_mem _ later)
    · rcases of_mem_pushComponent pushed with rfl | old
      · exact Or.inl List.mem_cons_self
      · exact Or.inr old

theorem of_mem_normalize (member : c ∈ normalize s) : c ∈ s ∨ c = '/' ∨ c = '.' := by
  unfold normalize at member
  dsimp only at member
  split at member
  next => exact Or.inr (Or.inr (List.mem_singleton.1 member))
  next =>
    rcases List.mem_append.1 member with leading | later
    · exact Or.inr (Or.inl (List.eq_of_mem_replicate leading))
    · rcases of_mem_joinComponents later with slash | ⟨part, listed, inPart⟩
      · exact Or.inr (Or.inl slash)
      · rcases of_mem_foldl_pushComponent (List.mem_reverse.1 listed) with own | absent
        · exact Or.inl (joinComponents_components s ▸ mem_joinComponents own inPart)
        · cases absent

/-- A component that is not made of points alone is put on the stack. -/
theorem pushComponent_of_mem (member : c ∈ part) (other : c ≠ '.') :
    pushComponent rooted stack part = part :: stack := by
  have only : ∀ points : List Char, (∀ d ∈ points, d = '.') → part ≠ points := by
    rintro points all rfl
    exact other (all c member)
  have named : ¬(part == [] || part == ['.']) = true := by
    rw [Bool.or_eq_true, beq_iff_eq, beq_iff_eq, not_or]
    exact ⟨only [] (by simp), only ['.'] (by simp)⟩
  have down : (part != ['.', '.']) = true := bne_iff_ne.2 (only ['.', '.'] (by simp))
  unfold pushComponent
  rw [if_neg named, if_pos down]

/-- A last component that is not made of points alone stays. -/
theorem mem_normalize (last : components s = parts ++ [part]) (member : c ∈ part)
    (other : c ≠ '.') : c ∈ normalize s := by
  have kept : c ∈ joinComponents
      ((components s).foldl (pushComponent (leadingSlashes s > 0)) []).reverse := by
    rw [last, List.foldl_append, List.foldl_cons, List.foldl_nil, pushComponent_of_mem member other]
    exact mem_joinComponents (List.mem_reverse.2 List.mem_cons_self) member
  have whole := List.mem_append_right (List.replicate (leadingSlashes s) '/') kept
  unfold normalize
  dsimp only
  rw [if_neg fun empty => List.ne_nil_of_mem whole (List.isEmpty_iff.1 empty)]
  exact whole

/-! ## Locations of imports -/

theorem of_mem_directory (member : c ∈ directory s) : c ∈ s := by
  have head : s.reverse.dropWhile (· != '/') ⊆ s.reverse := (List.dropWhile_suffix _).subset
  unfold directory at member
  dsimp only at member
  split at member
  next => exact List.mem_reverse.1 (head (List.mem_reverse.1 member))
  next =>
    have bare := (List.dropWhile_suffix _).subset (List.mem_reverse.1 member)
    exact List.mem_reverse.1 (head bare)

theorem of_mem_ofImport (member : c ∈ ofImport source s) :
    c ∈ s ∨ c ∈ source ∨ c = '/' ∨ c = '.' := by
  unfold ofImport at member
  split at member
  next => exact Or.inl member
  next =>
    rcases of_mem_normalize member with joined | added
    · unfold join at joined
      split at joined
      next => exact Or.inl joined
      next =>
        split at joined
        next =>
          exact (List.mem_append.1 joined).symm.imp_right fun inFolder =>
            Or.inl (of_mem_directory inFolder)
        next =>
          rcases List.mem_append.1 joined with inFolder | later
          · exact Or.inr (Or.inl (of_mem_directory inFolder))
          · rcases List.mem_cons.1 later with slash | own
            · exact Or.inr (Or.inr (Or.inl slash))
            · exact Or.inl own
    · exact Or.inr (Or.inr added)

/-- Joining puts the same text before all locations without a slash in front, and their components
behind the same components. -/
theorem join_unrooted (folder : List Char) : ∃ front parts, ∀ s : List Char, s.head? ≠ some '/' →
    join folder s = front ++ s ∧ components (front ++ s) = parts ++ components s := by
  have parted : ∀ init s, components (init ++ ['/'] ++ s) = components init ++ components s := by
    intro init s
    rw [List.append_assoc, List.singleton_append]
    exact List.splitOn_append_cons_self init s
  have relative : ∀ s : List Char, s.head? ≠ some '/' → ¬(s.head? == some '/') = true :=
    fun s unrooted => by rwa [beq_iff_eq]
  unfold join
  by_cases closed : (folder.isEmpty || folder.getLast? == some '/') = true
  case pos =>
    rcases Bool.or_eq_true_iff.1 closed with empty | slash
    · refine ⟨[], [], fun s unrooted => ⟨?_, rfl⟩⟩
      rw [if_neg (relative s unrooted), if_pos closed, List.isEmpty_iff.1 empty]
    · obtain ⟨init, rfl⟩ := List.getLast?_eq_some_iff.1 (eq_of_beq slash)
      refine ⟨init ++ ['/'], components init, fun s unrooted => ⟨?_, parted init s⟩⟩
      rw [if_neg (relative s unrooted), if_pos closed]
  case neg =>
    refine ⟨folder ++ ['/'], components folder, fun s unrooted => ⟨?_, parted folder s⟩⟩
    rw [if_neg (relative s unrooted), if_neg closed, List.append_assoc, List.singleton_append]

theorem mem_ofImport (member : c ∈ s) (other : c ≠ '.') : c ∈ ofImport source s := by
  unfold ofImport
  split
  next => exact member
  next bare =>
    have single : '/' ∉ s := fun slash => bare (List.contains_iff_mem.2 slash)
    have unrooted : s.head? ≠ some '/' := fun starts => single (List.mem_of_mem_head? starts)
    obtain ⟨front, parts, joined⟩ := join_unrooted (directory source)
    obtain ⟨same, last⟩ := joined s unrooted
    rw [show components s = [s] from List.splitOn_eq_singleton single, ← same] at last
    exact mem_normalize last member other

end CallAtlas.Location
