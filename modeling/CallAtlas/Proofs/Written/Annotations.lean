import CallAtlas.Proofs.Text.Lines
import CallAtlas.Proofs.Written.Layout

/-!
# Annotations above a declaration

The annotations of a function are those in its head and those on the lines just above it, as long
as annotations start these lines. Where the declaration above is laid out so that annotations of its
own start its last lines, as with `declare` alone on its first line, these annotations count twice:
`annotations_behind` says which of them are passed on to the function below, and that this one is
read as it is alone only if there are none.
-/

namespace CallAtlas.Written

open Source Canonical

/-! ## Lines above a declaration -/

/-- A line that an annotation starts. -/
def isAnnotationLine (line : List Char) : Bool :=
  (Text.trim line).head? == some '%'

/-- The annotations on the last lines of a text, as long as annotations start these lines. -/
def trailingAnnotations (s : List Char) : List String :=
  ((s.splitOn '\n').reverse.takeWhile isAnnotationLine).reverse.flatMap fun line =>
    annotationsIn (Text.trim line)

/-- Read backwards, the last line of a text comes first. -/
theorem reverse_splitOn_reverse (s : List Char) :
    (s.reverse.splitOn '\n').reverse = (s.takeWhile (· != '\n')).reverse ::
      match s.dropWhile (· != '\n') with
      | [] => []
      | _ :: above => (above.reverse.splitOn '\n').reverse := by
  have unbroken : '\n' ∉ (s.takeWhile (· != '\n')).reverse := by
    intro member
    exact absurd (List.mem_takeWhile_imp (List.mem_reverse.1 member)) (by decide)
  have whole : s.takeWhile (· != '\n') ++ s.dropWhile (· != '\n') = s :=
    List.takeWhile_append_dropWhile
  cases behind : s.dropWhile (· != '\n') with
  | nil =>
    rw [behind, List.append_nil] at whole
    rw [whole] at unbroken ⊢
    rw [List.splitOn_eq_singleton unbroken]
    rfl
  | cons c above =>
    have feed : c = '\n' := by
      have stops := List.head?_dropWhile_not (· != '\n') s
      rw [behind] at stops
      simpa using stops
    rw [behind, feed] at whole
    have turned : s.reverse = above.reverse ++ '\n' :: (s.takeWhile (· != '\n')).reverse := by
      conv_lhs => rw [← whole]
      rw [List.reverse_append, List.reverse_cons, List.append_assoc, List.singleton_append]
    rw [turned, List.splitOn_append_cons_self, List.splitOn_eq_singleton unbroken,
      List.reverse_append]
    rfl

/-- The lines that are read backwards are the last lines, as long as annotations start them. -/
theorem annotationLines_eq (s : List Char) :
    annotationLines s =
      ((s.reverse.splitOn '\n').reverse.takeWhile isAnnotationLine).map Text.trim := by
  fun_induction annotationLines s with
  | case1 s line starts behind =>
    rw [reverse_splitOn_reverse, List.takeWhile_cons_of_pos (by exact starts), behind]
    rfl
  | case2 s line starts c above behind shorter ih =>
    rw [reverse_splitOn_reverse s, List.takeWhile_cons_of_pos (by exact starts), behind,
      List.map_cons, ih]
  | case3 s line other =>
    rw [reverse_splitOn_reverse, List.takeWhile_cons_of_neg (by exact other)]
    rfl

/-- On a line of its own, a declaration has the trailing annotations of the text above it. -/
theorem leadingAnnotations_feed (s : List Char) :
    leadingAnnotations ('\n' :: s.reverse) = trailingAnnotations s := by
  change (annotationLines s.reverse).reverse.flatMap annotationsIn = _
  rw [annotationLines_eq, List.reverse_reverse, ← List.map_reverse, List.flatMap_map]
  rfl

/-! ## Two declarations -/

/-- Two declarations are apart if what starts inside of the first, and is read as a head, ends there
too. Without a body, the first must have no head but its own. -/
structure Apart (a b : Layout) : Prop where
  ends : ∀ o ∈ occurrences header (a.text ++ '\n' :: b.text), o.offset < a.text.length →
    b.text.length < o.rest.length
  single : a.block = none → ∀ o ∈ occurrences header (a.text ++ '\n' :: b.text),
    o.offset < a.text.length → o.offset = 0

section Apart

variable {a b : Layout}

theorem occurrences_text (a : Layout) (rest : List Char) :
    occurrences header (a.text ++ rest) =
      a.found [] (a.tail ++ rest) :: occurrencesFrom header a.head.reverse (a.tail ++ rest) := by
  have found := @Layout.occurrencesFrom_head a [] rfl (a.tail ++ rest)
  rw [List.append_nil] at found
  unfold occurrences Layout.text
  rw [List.append_assoc]
  exact found

/-- Declarations are apart if the word that opens them stands in the first one only at its start. -/
theorem apart_of_hasWord (quiet : hasWord "declare".toList none a.tail = false) (b : Layout) :
    Apart a b := by
  have avoids : Avoids (Opens "declare".toList) a.head.reverse a.tail ('\n' :: b.text) :=
    avoids_of_wordless (by decide) (fun _ => rfl) quiet rfl
  have skipped := occurrencesFrom_of_avoids (fun _ _ _ => opens_of_header) avoids
  have ownHead : ∀ o ∈ occurrences header (a.text ++ '\n' :: b.text), o.offset < a.text.length →
      o = a.found [] (a.tail ++ '\n' :: b.text) := by
    intro o member inside
    rw [occurrences_text, skipped] at member
    rcases List.mem_cons.1 member with own | later
    · exact own
    · have behind := le_offset_of_mem later
      rw [Layout.text, List.length_append] at inside
      simp only [List.length_append, List.length_reverse] at behind
      omega
  refine ⟨fun o member inside => ?_, fun _ o member inside => ?_⟩
  · rw [ownHead o member inside]
    change b.text.length < (a.tail ++ '\n' :: b.text).length
    rw [List.length_append, List.length_cons]
    omega
  · rw [ownHead o member inside]
    rfl

/-- Behind the head of the first declaration come heads inside of it, and then those of the
second. -/
theorem Apart.occurrencesFrom_tail (apart : Apart a b) :
    ∃ os, occurrencesFrom header a.head.reverse (a.tail ++ '\n' :: b.text) =
        os ++ occurrencesFrom header ('\n' :: a.text.reverse) b.text ∧
      (∀ o ∈ os, o.offset < a.text.length) ∧ (a.block = none → os = []) := by
  have length : a.head.reverse.length + a.tail.length = a.text.length := by
    rw [Layout.text, List.length_append, List.length_reverse]
  have own : ∀ o ∈ occurrencesFrom header a.head.reverse (a.tail ++ '\n' :: b.text),
      o ∈ occurrences header (a.text ++ '\n' :: b.text) := by
    intro o member
    rw [occurrences_text]
    exact List.mem_cons_of_mem _ member
  obtain ⟨os, split, inside⟩ := occurrencesFrom_append_of_apart leavesEnd_header
    (fun o member early => apart.ends o (own o member) (length ▸ early))
  rw [length] at inside
  refine ⟨os, ?_, inside, fun external => ?_⟩
  · have turned : a.text.reverse = a.tail.reverse ++ a.head.reverse := List.reverse_append
    rw [split, occurrencesFrom_header_feed, turned]
  · -- A head inside of the first declaration lies behind its own head.
    refine List.eq_nil_iff_forall_not_mem.2 fun o member => ?_
    have found : o ∈ occurrencesFrom header a.head.reverse (a.tail ++ '\n' :: b.text) := by
      rw [split]
      exact List.mem_append_left _ member
    have first := apart.single external o (own o found) (inside o member)
    have behind := le_offset_of_mem found
    have nonempty := List.length_pos_of_ne_nil a.head_ne_nil
    rw [List.length_reverse] at behind
    omega

end Apart

/-! ## The walk up to the second declaration -/

section Walk

variable (known : List String) {content : List Char} (path : String) {start : Nat}
  {seen : List String} {o : Occurrence Header} {heads os : List (Occurrence Header)}

/-- Heads inside a declaration that was read are passed over. -/
theorem declarationsFrom_append_of_lt (inside : ∀ o ∈ os, o.offset < start) :
    declarationsFrom known content path start seen (os ++ heads) =
      declarationsFrom known content path start seen heads := by
  induction os with
  | nil => rfl
  | cons o os ih =>
    rw [List.cons_append, declarationsFrom, if_pos (inside o List.mem_cons_self)]
    exact ih fun o member => inside o (List.mem_cons_of_mem _ member)

/-- The head of an external declaration is passed over. -/
theorem value_declarationsFrom_of_external (external : outline content o = .ok none) :
    (declarationsFrom known content path start seen (o :: heads)).value =
      (declarationsFrom known content path start seen heads).value := by
  rw [declarationsFrom]
  split
  next => rfl
  next =>
    rw [external]
    exact Checked.value_bind_of_ok rfl _

/-- The first of two declarations adds functions of its own name only, and the walk goes on at the
second. -/
theorem Apart.value_declarations {a b : Layout} (apart : Apart a b)
    (short : ∀ block ∈ a.block, HasShortArities known block.text) :
    ∃ fs start seen, start ≤ a.text.length ∧ (∀ f ∈ fs, f.qualifiedName = a.qualifiedName) ∧
      (∀ name ∈ seen, name = a.qualifiedName) ∧
      ∀ gs, (declarationsFrom known (a.text ++ '\n' :: b.text) path start seen
          (occurrencesFrom header ('\n' :: a.text.reverse) b.text)).value = .ok gs →
        (declarations known (a.text ++ '\n' :: b.text) path).value = .ok (fs ++ gs) := by
  obtain ⟨os, split, inside, none⟩ := apart.occurrencesFrom_tail
  have heads := occurrences_text a ('\n' :: b.text)
  rw [split] at heads
  unfold declarations
  rw [heads]
  generalize size : a.text ++ '\n' :: b.text = content at *
  cases own : a.block with
  | none =>
    have external : outline content (a.found [] (a.tail ++ '\n' :: b.text)) = .ok .none :=
      Layout.outline_of_external own content rfl
    refine ⟨[], 0, [], Nat.zero_le _, List.forall_mem_nil _, List.forall_mem_nil _,
      fun gs read => ?_⟩
    rw [value_declarationsFrom_of_external known path external, none own]
    exact read
  | some block =>
    obtain ⟨parts, outlined, parameters, body, ending⟩ := Layout.outline_of_block own content
      (show (a.found [] (a.tail ++ '\n' :: b.text)).rest = a.tail ++ '\n' :: b.text from rfl)
    obtain ⟨f, read⟩ : ∃ f, (functionOf known content
        (a.found [] (a.tail ++ '\n' :: b.text)) parts).value = .ok f :=
      exists_functionOf_iff.2 (body.symm ▸ short block own)
    have ended : parts.endOffset + 1 = a.text.length := by
      have nonempty := List.length_pos_of_ne_nil a.head_ne_nil
      rw [ending, ← size, Layout.text]
      simp only [List.length_append, List.length_cons]
      omega
    have name : f.qualifiedName = a.qualifiedName :=
      (Layout.readBehind_of_functionOf parameters read).qualifiedName
    refine ⟨[f], parts.endOffset + 1, [f.qualifiedName], Nat.le_of_eq ended,
      List.forall_mem_singleton.2 name, List.forall_mem_singleton.2 name, fun gs later => ?_⟩
    rw [value_declarationsFrom_cons (Nat.zero_le _) outlined fun _ _ => List.not_mem_nil]
    rw [← declarationsFrom_append_of_lt known path (ended ▸ inside)] at later
    exact ⟨f, gs, read, later, rfl⟩

end Walk

/-! ## What is passed on -/

/-- A function that is read of a declaration alone, and the one that is read behind another: the
second one has further annotations. -/
structure Inherits (passed : List String) (alone behind : FunctionDecl) : Prop where
  qualifiedName : behind.qualifiedName = alone.qualifiedName
  annotations : behind.annotations = passed ++ alone.annotations
  isPrivate : behind.isPrivate = (alone.isPrivate || passed.any privateAnnotations.contains)

/-- **What a function gets from the declaration above it.** A declaration with a body that stands on
a line of its own behind another one has the annotations it has alone and, before them, the trailing
annotations of the other one. It is private if it is so alone or if one of them makes it so. Both
are as they are alone if and only if the declaration above has no trailing annotations. -/
theorem annotations_behind (known : List String) (path : String) {a b : Layout} {block : Block}
    (own : b.block = some block) (apart : Apart a b)
    (shortAbove : ∀ block ∈ a.block, HasShortArities known block.text)
    (short : HasShortArities known block.text) (different : a.qualifiedName ≠ b.qualifiedName) :
    ∃ fs f g, (declarations known b.text path).value = .ok [f] ∧
      (declarations known (a.text ++ '\n' :: b.text) path).value = .ok (fs ++ [g]) ∧
      (∀ h ∈ fs, h.qualifiedName = a.qualifiedName) ∧ f.qualifiedName = b.qualifiedName ∧
      Inherits (trailingAnnotations a.text) f g ∧
      (g.annotations = f.annotations ∧ g.isPrivate = f.isPrivate ↔
        trailingAnnotations a.text = []) := by
  obtain ⟨f, alone, readAlone⟩ : ∃ f, (declarations known b.text path).value = .ok [f] ∧
      Layout.ReadBehind b [] f :=
    Layout.declarationsFrom_text own short (Nat.zero_add _).symm rfl (Nat.le_refl 0)
      List.not_mem_nil
  obtain ⟨fs, start, seen, reached, names, others, walk⟩ :=
    apart.value_declarations known path shortAbove
  have size : (a.text ++ '\n' :: b.text).length =
      ('\n' :: a.text.reverse).length + b.text.length := by
    simp only [List.length_append, List.length_cons, List.length_reverse]
    omega
  have reachedBehind : start ≤ ('\n' :: a.text.reverse).length := by
    rw [List.length_cons, List.length_reverse]
    omega
  obtain ⟨g, behind, readBehind⟩ := Layout.declarationsFrom_text own short size rfl reachedBehind
    (fun member => different (others _ member).symm)
  have inherits : Inherits (trailingAnnotations a.text) f g := by
    have annotations : g.annotations = trailingAnnotations a.text ++ f.annotations := by
      rw [readBehind.annotations, readAlone.annotations, leadingAnnotations_feed]
      rfl
    refine ⟨readBehind.qualifiedName.trans readAlone.qualifiedName.symm, annotations, ?_⟩
    rw [readBehind.isPrivate, readAlone.isPrivate, annotations, List.any_append, Bool.or_assoc,
      Bool.or_comm (List.any _ _)]
  refine ⟨fs, f, g, alone, walk [g] behind, names, readAlone.qualifiedName, inherits, ?_⟩
  rw [inherits.annotations, inherits.isPrivate]
  constructor
  · rintro ⟨same, -⟩
    exact List.append_left_eq_self.1 same
  · intro nothing
    rw [nothing, List.nil_append, List.any_nil, Bool.or_false]
    exact ⟨rfl, rfl⟩

/-! ## Annotations that are passed on -/

/-- A function with annotations on three lines. -/
def spread : Layout where
  head := "declare %one\n%two(\";\")\n%private function a:f(".toList
  value := ⟨"%one\n%two(\";\")\n%private ".toList, false, ['a'], ['f'], "a:f(".toList⟩
  inside := "$x as map(xs:string, item()*)".toList
  parameters := [⟨"x", some "map(xs:string, item()*)"⟩]
  between := " as item()* ".toList
  block := some ⟨" \"\x7d;\" ".toList, ['\t'], by decide +kernel, List.forall_mem_singleton.2 rfl⟩
  isHead := by decide +kernel
  enclosed := by decide +kernel
  read := by decide +kernel
  clear := List.all_eq_true.1 (by decide +kernel)

/-- A private function whose annotation starts a line of its own. -/
def marked : Layout where
  head := "declare\n%private function a:f(".toList
  value := ⟨"%private ".toList, false, ['a'], ['f'], "a:f(".toList⟩
  inside := []
  parameters := []
  between := [' ']
  block := some ⟨" 1 ".toList, [], by decide +kernel, List.forall_mem_nil _⟩
  isHead := by decide +kernel
  enclosed := by decide +kernel
  read := by decide +kernel
  clear := List.forall_mem_singleton.2 rfl

/-- A function without annotations. -/
def plain : Layout where
  head := "declare function a:g(".toList
  value := ⟨[], false, ['a'], ['g'], "a:g(".toList⟩
  inside := []
  parameters := []
  between := [' ']
  block := some ⟨" 2 ".toList, [], by decide +kernel, List.forall_mem_nil _⟩
  isHead := by decide +kernel
  enclosed := by decide +kernel
  read := by decide +kernel
  clear := List.forall_mem_singleton.2 rfl

/-- Of three annotations those are passed on that start the last lines. -/
theorem annotations_behind_spread :
    (Apart spread plain ∧ spread.qualifiedName ≠ plain.qualifiedName ∧
        trailingAnnotations spread.text = ["%two", "%private"]) ∧
      ∃ fs f g, (declarations ["a"] plain.text "/a.xqy").value = .ok [f] ∧
        (declarations ["a"] (spread.text ++ '\n' :: plain.text) "/a.xqy").value =
          .ok (fs ++ [g]) ∧
        Inherits ["%two", "%private"] f g := by
  have apart : Apart spread plain := apart_of_hasWord (by decide +kernel) plain
  have shortAbove : ∀ block ∈ spread.block, HasShortArities ["a"] block.text := by
    rintro block ⟨rfl⟩
    decide +kernel
  have short : HasShortArities ["a"] " 2 ".toList := by decide +kernel
  have different : spread.qualifiedName ≠ plain.qualifiedName := by decide +kernel
  have passed : trailingAnnotations spread.text = ["%two", "%private"] := by decide +kernel
  obtain ⟨fs, f, g, alone, behind, -, -, inherits, -⟩ :=
    annotations_behind ["a"] "/a.xqy" rfl apart shortAbove short different
  exact ⟨⟨apart, different, passed⟩, fs, f, g, alone, behind, passed ▸ inherits⟩

/-- A function without annotations becomes private behind one whose annotation starts its last
line. -/
theorem plain_private_behind_marked :
    marked.text = "declare\n%private function a:f() \x7b 1 \x7d;".toList ∧
      plain.text = "declare function a:g() \x7b 2 \x7d;".toList ∧
      marked.qualifiedName ≠ plain.qualifiedName ∧
      (declarations ["a"] plain.text "/a.xqy").value.toOption.map
        (·.map fun f => (f.qualifiedName, f.annotations, f.isPrivate)) =
          some [("g#0", [], false)] ∧
      (declarations ["a"] (marked.text ++ '\n' :: plain.text) "/a.xqy").value.toOption.map
        (·.map fun f => (f.qualifiedName, f.annotations, f.isPrivate)) =
          some [("f#0", ["%private"], true), ("g#0", ["%private"], true)] := by
  decide +kernel

end CallAtlas.Written
