import CallAtlas.Proofs.Location
import Mathlib.Data.List.Induction

/-!
# Canonical locations

A canonical location is a slash and names, with a slash between neighbours. A relative location that
is read in the directory of a canonical one is a *walk* from there: a component enters a name, stays
or goes up, and above the top there is nothing to go up to.

Joining puts the components of both locations one after another (`components_lead`), and the stack
on which the normal form is built is the walk with the last name first (`pushComponent_reverse`). So
the result is canonical again, and it is where the walk ends (`resolveIn_walks`). That theorem also
says, of locations of any form, that a bare name may be written with `./` before it.
-/

namespace CallAtlas.Location

variable {s part last : List Char} {folder parts : List (List Char)}

/-! ## Names from the top -/

/-- A component that names a file or a folder: it does not stay or go up, and holds no slash. -/
structure IsName (part : List Char) : Prop where
  nonempty : part ≠ []
  notHere : part ≠ ['.']
  notUp : part ≠ ['.', '.']
  whole : '/' ∉ part

instance (part : List Char) : Decidable (IsName part) :=
  decidable_of_iff (part ≠ [] ∧ part ≠ ['.'] ∧ part ≠ ['.', '.'] ∧ '/' ∉ part)
    ⟨fun ⟨nonempty, notHere, notUp, whole⟩ => ⟨nonempty, notHere, notUp, whole⟩,
      fun name => ⟨name.nonempty, name.notHere, name.notUp, name.whole⟩⟩

/-- The location that components lead to from the top. Without any it is a slash alone. -/
def fromTop (parts : List (List Char)) : List Char :=
  '/' :: joinComponents parts

/-- The components behind the first slash. A slash alone has none. -/
def names (s : List Char) : List (List Char) :=
  if s.tail.isEmpty then [] else components s.tail

/-- A single slash, and behind it names with a slash between neighbours. -/
structure IsCanonical (s : List Char) : Prop where
  single : s.takeWhile (· == '/') = ['/']
  named : ∀ part ∈ names s, IsName part

instance (s : List Char) : Decidable (IsCanonical s) :=
  decidable_of_iff (s.takeWhile (· == '/') = ['/'] ∧ ∀ part ∈ names s, IsName part)
    ⟨fun ⟨single, named⟩ => ⟨single, named⟩, fun canonical => ⟨canonical.single, canonical.named⟩⟩

/-- What stands before a further component: each component with a slash in front. -/
def lead (parts : List (List Char)) : List Char :=
  parts.flatMap ('/' :: ·)

theorem lead_concat (parts : List (List Char)) (last : List Char) :
    lead (parts ++ [last]) = lead parts ++ '/' :: last := by
  unfold lead
  rw [List.flatMap_append, List.flatMap_singleton]

theorem components_lead (whole : ∀ part ∈ parts, '/' ∉ part) :
    components (lead parts) = [] :: parts := by
  induction parts using List.reverseRecOn with
  | nil => rfl
  | append_singleton parts last ih =>
    have first := ih fun part member => whole part (List.mem_append_left _ member)
    have single : components last = [last] :=
      List.splitOn_eq_singleton (whole last (List.mem_append_right _ List.mem_cons_self))
    rw [lead_concat]
    calc components (lead parts ++ '/' :: last)
        = components (lead parts) ++ components last := List.splitOn_append_cons_self _ _
      _ = [] :: (parts ++ [last]) := by rw [first, single, List.cons_append]

/-- Where there are components, a slash before each is one before them all. -/
theorem lead_eq_fromTop (nonempty : parts ≠ []) (whole : ∀ part ∈ parts, '/' ∉ part) :
    lead parts = fromTop parts := by
  obtain ⟨first, others, rfl⟩ := List.exists_cons_of_ne_nil nonempty
  have joined := joinComponents_components (lead (first :: others))
  rw [components_lead whole] at joined
  rw [← joined]
  unfold fromTop joinComponents
  rw [List.intercalate_cons_cons, List.nil_append, List.singleton_append]

theorem fromTop_concat (whole : ∀ part ∈ parts, '/' ∉ part) (lastWhole : '/' ∉ last) :
    fromTop (parts ++ [last]) = lead parts ++ '/' :: last := by
  rw [← lead_concat, lead_eq_fromTop (by simp)]
  intro part member
  rcases List.mem_append.1 member with before | only
  · exact whole part before
  · rwa [List.mem_singleton.1 only]

/-- A name does not end in a slash, so neither do names from the top. -/
theorem getLast?_lead (named : ∀ part ∈ parts, IsName part) :
    (lead parts).getLast? ≠ some '/' := by
  rcases List.eq_nil_or_concat parts with rfl | ⟨front, last, rfl⟩
  · exact nofun
  · rw [List.concat_eq_append] at named ⊢
    have name := named last (List.mem_append_right _ List.mem_cons_self)
    intro slash
    rw [lead_concat, ← List.singleton_append, ← List.append_assoc,
      List.getLast?_append_of_ne_nil _ name.nonempty] at slash
    exact name.whole (List.mem_of_getLast? slash)

/-- Behind one slash comes a name, or nothing. -/
theorem takeWhile_slash_cons (unrooted : s.head? ≠ some '/') :
    ('/' :: s).takeWhile (· == '/') = ['/'] := by
  rw [List.takeWhile_cons_of_pos (by decide)]
  cases s with
  | nil => rfl
  | cons c s =>
    have other : c ≠ '/' := by
      rintro rfl
      exact unrooted rfl
    rw [List.takeWhile_cons_of_neg (by simpa using other)]

theorem IsName.head?_append (name : IsName part) (rest : List Char) :
    (part ++ rest).head? ≠ some '/' := by
  obtain ⟨c, others, rfl⟩ := List.exists_cons_of_ne_nil name.nonempty
  intro slash
  rw [List.cons_append, List.head?_cons, Option.some.injEq] at slash
  exact name.whole (slash ▸ List.mem_cons_self)

theorem takeWhile_lead_append (nonempty : parts ≠ []) (named : ∀ part ∈ parts, IsName part)
    (rest : List Char) : (lead parts ++ rest).takeWhile (· == '/') = ['/'] := by
  obtain ⟨first, others, rfl⟩ := List.exists_cons_of_ne_nil nonempty
  unfold lead
  rw [List.flatMap_cons, List.append_assoc, List.cons_append]
  exact takeWhile_slash_cons ((named first List.mem_cons_self).head?_append _)

theorem names_fromTop (named : ∀ part ∈ parts, IsName part) : names (fromTop parts) = parts := by
  unfold names fromTop
  rw [List.tail_cons]
  cases parts with
  | nil => rfl
  | cons first others =>
    have parted : components (joinComponents (first :: others)) = first :: others :=
      List.splitOn_intercalate '/' (fun part member => (named part member).whole) (by simp)
    rw [parted, if_neg]
    intro empty
    -- The empty location has one component, and that is empty.
    rw [List.isEmpty_iff.1 empty] at parted
    obtain ⟨rfl, -⟩ := List.cons.inj parted
    exact (named [] List.mem_cons_self).nonempty rfl

theorem isCanonical_fromTop (named : ∀ part ∈ parts, IsName part) :
    IsCanonical (fromTop parts) where
  single := by
    by_cases nonempty : parts = []
    case pos => rw [nonempty]; rfl
    case neg =>
      have single := takeWhile_lead_append nonempty named []
      rwa [List.append_nil, lead_eq_fromTop nonempty fun part member => (named part member).whole]
        at single
  named := (names_fromTop named).symm ▸ named

theorem IsCanonical.fromTop_names (canonical : IsCanonical s) : fromTop (names s) = s := by
  have single := canonical.single
  cases s with
  | nil => cases single
  | cons c s =>
    by_cases slash : c = '/'
    case pos =>
      subst slash
      unfold fromTop names
      rw [List.tail_cons]
      split
      next empty => rw [List.isEmpty_iff.1 empty]; rfl
      next => rw [joinComponents_components]
    case neg =>
      rw [List.takeWhile_cons_of_neg (by simpa using slash)] at single
      cases single

/-! ## Walks -/

/-- Where a component leads from a folder: it stays, goes up or enters. Nothing is above the top. -/
def enter (folder : List (List Char)) (part : List Char) : List (List Char) :=
  if part = [] ∨ part = ['.'] then folder
  else if part = ['.', '.'] then folder.dropLast
  else folder ++ [part]

/-- Where components lead from a folder, from left to right. -/
def walk (folder parts : List (List Char)) : List (List Char) :=
  parts.foldl enter folder

theorem named_enter (named : ∀ name ∈ folder, IsName name) (whole : '/' ∉ part) :
    ∀ name ∈ enter folder part, IsName name := by
  intro name member
  unfold enter at member
  split at member
  next => exact named name member
  next other =>
    obtain ⟨nonempty, notHere⟩ := not_or.1 other
    split at member
    next => exact named name (List.dropLast_subset folder member)
    next notUp =>
      rcases List.mem_append.1 member with before | entered
      · exact named name before
      · obtain rfl := List.mem_singleton.1 entered
        exact ⟨nonempty, notHere, notUp, whole⟩

theorem named_walk (named : ∀ name ∈ folder, IsName name) (whole : ∀ part ∈ parts, '/' ∉ part) :
    ∀ name ∈ walk folder parts, IsName name := by
  induction parts generalizing folder with
  | nil => exact named
  | cons part parts ih =>
    exact ih (named_enter named (whole part List.mem_cons_self))
      fun other member => whole other (List.mem_cons_of_mem _ member)

theorem enter_name (folder : List (List Char)) (name : IsName part) :
    enter folder part = folder ++ [part] := by
  unfold enter
  rw [if_neg (not_or.2 ⟨name.nonempty, name.notHere⟩), if_neg name.notUp]

/-- Names are entered one after the other. -/
theorem walk_names (named : ∀ part ∈ parts, IsName part) (rest : List (List Char)) :
    walk folder (parts ++ rest) = walk (folder ++ parts) rest := by
  induction parts generalizing folder with
  | nil => rw [List.nil_append, List.append_nil]
  | cons part parts ih =>
    have later := fun other member => named other (List.mem_cons_of_mem _ member)
    calc walk folder (part :: parts ++ rest)
        = walk (enter folder part) (parts ++ rest) := rfl
      _ = walk (folder ++ [part]) (parts ++ rest) := by
        rw [enter_name folder (named part List.mem_cons_self)]
      _ = walk (folder ++ part :: parts) rest := by
        rw [ih later, List.append_assoc, List.singleton_append]

/-- On a stack of names a component is put as it is entered, with the last name first. -/
theorem pushComponent_reverse (named : ∀ name ∈ folder, IsName name) (part : List Char) :
    pushComponent true folder.reverse part = (enter folder part).reverse := by
  unfold pushComponent enter
  simp only [Bool.or_eq_true, beq_iff_eq, bne_iff_ne, ne_eq]
  split
  next => rfl
  next =>
    by_cases up : part = ['.', '.']
    case neg => rw [if_pos up, if_neg up, List.reverse_append, List.reverse_singleton,
      List.singleton_append]
    case pos =>
      rw [if_neg (not_not.2 up), if_pos up]
      rcases List.eq_nil_or_concat folder with rfl | ⟨front, last, rfl⟩
      · rfl
      · rw [List.concat_eq_append] at named ⊢
        have name := named last (List.mem_append_right _ List.mem_cons_self)
        rw [List.reverse_append, List.reverse_singleton, List.singleton_append,
          List.dropLast_concat]
        exact if_neg name.notUp

theorem foldl_pushComponent_reverse (named : ∀ name ∈ folder, IsName name)
    (whole : ∀ part ∈ parts, '/' ∉ part) :
    parts.foldl (pushComponent true) folder.reverse = (walk folder parts).reverse := by
  induction parts generalizing folder with
  | nil => rfl
  | cons part parts ih =>
    have entered := named_enter named (whole part List.mem_cons_self)
    have later := ih entered fun other member => whole other (List.mem_cons_of_mem _ member)
    rw [List.foldl_cons, pushComponent_reverse named, later]
    rfl

/-! ## Reading in a canonical directory -/

theorem slash_not_mem_of_mem_components (listed : part ∈ components s) : '/' ∉ part := by
  unfold components at listed
  induction s generalizing part with
  | nil =>
    obtain rfl := List.mem_singleton.1 listed
    exact List.not_mem_nil
  | cons c s ih =>
    obtain ⟨first, others, parted⟩ := List.exists_cons_of_ne_nil (List.splitOn_ne_nil '/' s)
    rw [List.splitOn_cons_eq_if_modifyHead, parted] at listed
    rw [parted] at ih
    split at listed
    next =>
      rcases List.mem_cons.1 listed with rfl | later
      · exact List.not_mem_nil
      · exact ih later
    next other =>
      rcases List.mem_cons.1 listed with rfl | later
      · rw [List.mem_cons, not_or]
        exact ⟨fun slash => other (beq_iff_eq.2 slash.symm), ih List.mem_cons_self⟩
      · exact ih (List.mem_cons_of_mem _ later)

theorem directory_append (folder : List Char) (whole : '/' ∉ last)
    (closed : folder.getLast? ≠ some '/') :
    directory (folder ++ '/' :: last) = if folder.isEmpty then ['/'] else folder := by
  have head : (folder ++ '/' :: last).reverse.dropWhile (· != '/') = '/' :: folder.reverse := by
    rw [List.reverse_append, List.reverse_cons, List.append_assoc, List.singleton_append]
    exact (Text.cut_append (fun slash => whole (List.mem_reverse.1 slash)) _).2
  have bare : ('/' :: folder.reverse).dropWhile (· == '/') = folder.reverse := by
    rw [List.dropWhile_cons_of_pos (by decide)]
    rw [← List.head?_reverse] at closed
    cases turned : folder.reverse with
    | nil => rfl
    | cons c rest =>
      rw [turned] at closed
      exact List.dropWhile_cons_of_neg (by simpa using closed)
  unfold directory
  dsimp only
  rw [head, bare, List.isEmpty_reverse, List.reverse_reverse]
  split
  next empty => rw [List.isEmpty_iff.1 empty]; rfl
  next => rfl

/-- The directory of a canonical location is canonical: the last name is left out. -/
theorem directory_fromTop (named : ∀ part ∈ parts, IsName part) :
    directory (fromTop parts) = fromTop parts.dropLast := by
  rcases List.eq_nil_or_concat parts with rfl | ⟨front, last, rfl⟩
  · rfl
  · rw [List.concat_eq_append] at named ⊢
    have before := fun part member => named part (List.mem_append_left [last] member)
    have whole := fun part member => (before part member).whole
    have name := named last (List.mem_append_right _ List.mem_cons_self)
    rw [fromTop_concat whole name.whole, directory_append _ name.whole (getLast?_lead before),
      List.dropLast_concat]
    cases front with
    | nil => rfl
    | cons first front => exact lead_eq_fromTop (List.cons_ne_nil _ _) whole

theorem join_fromTop (named : ∀ part ∈ parts, IsName part) (unrooted : s.head? ≠ some '/') :
    join (fromTop parts) s = lead parts ++ '/' :: s := by
  unfold join
  rw [if_neg (by rwa [beq_iff_eq])]
  cases parts with
  | nil => rfl
  | cons first others =>
    have closed := getLast?_lead named
    rw [← lead_eq_fromTop (List.cons_ne_nil _ _) fun part member => (named part member).whole]
    rw [if_neg]
    rw [Bool.or_eq_true, beq_iff_eq, not_or]
    exact ⟨by simp [lead], closed⟩

theorem leadingSlashes_lead (named : ∀ part ∈ parts, IsName part) (unrooted : s.head? ≠ some '/') :
    leadingSlashes (lead parts ++ '/' :: s) = 1 := by
  have single : (lead parts ++ '/' :: s).takeWhile (· == '/') = ['/'] := by
    by_cases nonempty : parts = []
    case pos => rw [nonempty]; exact takeWhile_slash_cons unrooted
    case neg => exact takeWhile_lead_append nonempty named _
  unfold leadingSlashes
  rw [single]
  rfl

/-- Below the top the normal form is where the components lead from there. -/
theorem normalize_of_rooted (single : leadingSlashes s = 1)
    (rooted : components s = [] :: parts) : normalize s = fromTop (walk [] parts) := by
  have whole : ∀ part ∈ parts, '/' ∉ part := fun part member =>
    slash_not_mem_of_mem_components (rooted ▸ List.mem_cons_of_mem [] member)
  have stack : (components s).foldl (pushComponent true) [] = (walk [] parts).reverse := by
    rw [rooted, List.foldl_cons]
    exact @foldl_pushComponent_reverse [] parts nofun whole
  unfold normalize
  dsimp only
  rw [single, show decide (1 > 0) = true from rfl, stack, List.reverse_reverse]
  rfl

/-- Reading a location without a slash in front goes from the folder of the other one to where its
components lead. -/
theorem resolveIn_fromTop (named : ∀ part ∈ parts, IsName part) (unrooted : s.head? ≠ some '/') :
    resolveIn (fromTop parts) s = fromTop (walk parts.dropLast (components s)) := by
  have before : ∀ part ∈ parts.dropLast, IsName part := fun part member =>
    named part (List.dropLast_subset parts member)
  have parted : components (lead parts.dropLast ++ '/' :: s) =
      [] :: (parts.dropLast ++ components s) := by
    have first := components_lead fun part member => (before part member).whole
    calc components (lead parts.dropLast ++ '/' :: s)
        = components (lead parts.dropLast) ++ components s := List.splitOn_append_cons_self _ _
      _ = [] :: (parts.dropLast ++ components s) := by rw [first, List.cons_append]
  unfold resolveIn
  rw [directory_fromTop named, join_fromTop before unrooted,
    normalize_of_rooted (leadingSlashes_lead before unrooted) parted, walk_names before,
    List.nil_append]

/-! ## Bare names -/

theorem leadingSlashes_append (front : List Char) (unrooted : s.head? ≠ some '/') :
    leadingSlashes (front ++ s) = leadingSlashes front := by
  have same : (front ++ s).takeWhile (· == '/') = front.takeWhile (· == '/') := by
    induction front with
    | nil => exact (List.cons.inj (takeWhile_slash_cons unrooted)).2
    | cons c front ih =>
      rw [List.cons_append, List.takeWhile_cons, List.takeWhile_cons, ih]
  unfold leadingSlashes
  rw [same]

/-- It makes no difference whether `./` stands before a location without a slash in front. -/
theorem resolveIn_here (source : List Char) (unrooted : s.head? ≠ some '/') :
    resolveIn source ('.' :: '/' :: s) = resolveIn source s := by
  obtain ⟨front, parts, joined⟩ := join_unrooted (directory source)
  obtain ⟨bare, bareParts⟩ := joined s unrooted
  obtain ⟨here, hereParts⟩ := joined ('.' :: '/' :: s) (by simp)
  have stays : components ('.' :: '/' :: s) = ['.'] :: components s :=
    List.splitOn_append_cons_self ['.'] s
  have sameStack : ∀ rooted : Bool,
      (components (front ++ '.' :: '/' :: s)).foldl (pushComponent rooted) [] =
        (components (front ++ s)).foldl (pushComponent rooted) [] := by
    intro rooted
    rw [hereParts, bareParts, stays, List.foldl_append, List.foldl_append, List.foldl_cons]
    rfl
  unfold resolveIn normalize
  rw [bare, here, leadingSlashes_append front unrooted, leadingSlashes_append front (by simp)]
  dsimp only
  rw [sameStack]

theorem unrooted_of_isRelative (relative : isRelative s = true) : s.head? ≠ some '/' := by
  cases s with
  | nil => exact nofun
  | cons c s =>
    intro slash
    obtain rfl := Option.some.inj slash
    cases relative

/-- **A relative location is a walk from where it is read.** Read in the directory of a canonical
location it is the canonical location where its components lead, taken from left to right, from the
names of the other one without the last. A bare name leads to the same place, from any location,
with `./` before it or without. -/
theorem resolveIn_walks :
    (∀ source s : List Char, IsCanonical source → isRelative s = true →
      IsCanonical (resolveIn source s) ∧
        resolveIn source s = fromTop (walk (names source).dropLast (components s))) ∧
      ∀ source s : List Char, '/' ∉ s → ofImport source s = resolveIn source ('.' :: '/' :: s) := by
  constructor
  · intro source s canonical relative
    have walks := resolveIn_fromTop canonical.named (unrooted_of_isRelative relative)
    rw [canonical.fromTop_names] at walks
    have before : ∀ name ∈ (names source).dropLast, IsName name := fun name member =>
      canonical.named name (List.dropLast_subset _ member)
    refine ⟨?_, walks⟩
    rw [walks]
    exact isCanonical_fromTop (named_walk before fun _ => slash_not_mem_of_mem_components)
  · intro source s bare
    have unrooted : s.head? ≠ some '/' := fun starts => bare (List.mem_of_mem_head? starts)
    rw [resolveIn_here source unrooted]
    unfold ofImport
    exact if_neg fun slash => bare (List.contains_iff_mem.1 slash)

/-- Going up stops at the top, and two slashes at the start of a location stay. -/
theorem aboveTop_resolved :
    IsCanonical "/app/lib/a.xqy".toList ∧ isRelative "../..//../lib/./b.xqy".toList = true ∧
      resolveIn "/app/lib/a.xqy".toList "../..//../lib/./b.xqy".toList = "/lib/b.xqy".toList ∧
      '/' ∉ "..".toList ∧ resolveIn "//x/a.xqy".toList "./..".toList = "//".toList ∧
      ofImport "//x/a.xqy".toList "..".toList = resolveIn "//x/a.xqy".toList "./..".toList := by
  have canonical : IsCanonical "/app/lib/a.xqy".toList := by decide
  have relative : isRelative "../..//../lib/./b.xqy".toList = true := by decide
  have bare : '/' ∉ "..".toList := by decide
  obtain ⟨walks, beside⟩ := resolveIn_walks
  exact ⟨canonical, relative, (walks _ _ canonical relative).2, bare, rfl, beside _ _ bare⟩

end CallAtlas.Location
