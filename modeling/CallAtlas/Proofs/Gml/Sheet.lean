import CallAtlas.Gml.Document
import CallAtlas.Gml.Sheet
import CallAtlas.Proofs.Numeral
import CallAtlas.Proofs.Table
import CallAtlas.Proofs.Text.Lines

/-!
# Sheets are read back

A sheet is written line by line and read line by line, so the only way to spoil it is a text that
breaks a line. `Sheet.read_write` reads a sheet back whose texts are unbroken: a cell is read as it
was written (`readValue_write`), the lines of a block fill a table, and blocks add up to a document.

`Reads` composes the reading of lines: what some lines do to the progress of a reader does not
depend on the number of the first line, which only errors show.
-/

namespace CallAtlas.Gml

/-! ## Cells -/

/-- An integer that is not too long to be read; texts have any length. -/
def Cell.IsShort : Cell → Prop
  | int value => (Nat.toDigits 10 value.natAbs).length ≤ maxDigits
  | text _ => True

/-- A text in which no line ends; integers never hold a line end. -/
def Cell.IsUnbroken : Cell → Prop
  | int _ => True
  | text value => Text.IsUnbroken value.toList

instance : DecidablePred Cell.IsShort
  | .int value => inferInstanceAs (Decidable ((Nat.toDigits 10 value.natAbs).length ≤ maxDigits))
  | .text _ => inferInstanceAs (Decidable True)

instance : DecidablePred Cell.IsUnbroken
  | .int _ => inferInstanceAs (Decidable True)
  | .text value => inferInstanceAs (Decidable (Text.IsUnbroken value.toList))

theorem escape_subset (s : List Char) : escape s ⊆ '\\' :: '"' :: s := by
  fun_induction escape s with
  | case1 => exact List.nil_subset _
  | case2 c s _ ih => grind
  | case3 c s _ ih => grind

theorem unescape_subset (s : List Char) : unescape s ⊆ s := by
  fun_induction unescape s with
  | case1 => exact List.nil_subset _
  | case2 s ih => grind
  | case3 c s _ ih => grind

theorem toList_write_text (value : String) :
    (Cell.text value).write.toList = '"' :: (escape value.toList ++ ['"']) := by
  unfold Cell.write
  simp

/-- No cell is written with a blank at one of its ends, with nothing, or as an opening bracket. -/
theorem Cell.write_ends (cell : Cell) :
    cell.write.toList.head?.any Text.isBlank = false ∧
      cell.write.toList.getLast?.any Text.isBlank = false ∧ cell.write.toList ≠ ['['] := by
  cases cell with
  | int value =>
    have solid : ∀ found : Option Char, (∀ c ∈ found, c ∈ (toString value).toList) →
        found.any Text.isBlank = false := by
      intro found inside
      cases found with
      | none => rfl
      | some c => exact Numeral.not_blank_of_mem_toString (inside c rfl)
    refine ⟨solid _ fun c first => List.mem_of_mem_head? first,
      solid _ fun c last => List.mem_of_getLast? last, ?_⟩
    intro bracket
    have member : '[' ∈ (toString value).toList := by
      rw [show (toString value).toList = ['['] from bracket]
      exact List.mem_singleton_self _
    rcases Numeral.digit_of_mem_toString member with digit | same
    · exact absurd digit (by decide)
    · exact absurd same (by decide)
  | text value =>
    rw [toList_write_text, ← List.cons_append, List.getLast?_concat]
    refine ⟨rfl, by decide, ?_⟩
    intro bracket
    exact absurd (List.cons.inj bracket).1 (by decide)

theorem Cell.IsUnbroken.write {cell : Cell} (unbroken : cell.IsUnbroken) :
    Text.IsUnbroken cell.write.toList := by
  cases cell with
  | int value => exact Text.isUnbroken_of_not_blank fun c member => Numeral.not_blank_of_mem_toString member
  | text value =>
    have quote : Text.isLineBreak '"' = false := by decide
    have slash : Text.isLineBreak '\\' = false := by decide
    have inside : Text.IsUnbroken (escape value.toList) := by
      intro c member
      rcases List.mem_cons.1 (escape_subset _ member) with rfl | member
      · exact slash
      · rcases List.mem_cons.1 member with rfl | member
        · exact quote
        · exact unbroken c member
    rw [toList_write_text]
    intro c member
    rcases List.mem_cons.1 member with rfl | member
    · exact quote
    · rcases List.mem_append.1 member with member | last
      · exact inside c member
      · rw [List.mem_singleton.1 last]
        exact quote

/-- A cell that was written is read as it was. -/
theorem readValue_write {cell : Cell} (short : cell.IsShort) :
    readValue cell.write.toList = cell.value := by
  cases cell with
  | int value =>
    have small : value.natAbs < 10 ^ maxDigits :=
      (Nat.length_toDigits_le_iff (by decide) (by decide)).1 short
    change readValue (toString value).toList = _
    unfold readValue
    split
    next inside quoted =>
      have member : '"' ∈ (toString value).toList := quoted ▸ List.mem_cons_self
      rcases Numeral.digit_of_mem_toString member with digit | same
      · exact absurd digit (by decide)
      · exact absurd same (by decide)
    next =>
      rw [Numeral.readInt_toString small]
      rfl
  | text value =>
    rw [toList_write_text]
    change (if (escape value.toList ++ ['"']).getLast? == some '"' then
      Value.text (String.ofList (unescape (escape value.toList ++ ['"']).dropLast)) else _) = _
    rw [List.getLast?_concat, if_pos (by decide), List.dropLast_concat, unescape_escape,
      String.ofList_toList]
    rfl

/-! ## Forms of lines -/

/-- A key that a reader takes for one: it is not empty and has no blanks. -/
def IsKey (key : String) : Prop :=
  key.toList ≠ [] ∧ ∀ c ∈ key.toList, Text.isBlank c = false

instance (key : String) : Decidable (IsKey key) :=
  @instDecidableAnd _ _ inferInstance
    (List.decidableBAll (fun c => Text.isBlank c = false) key.toList)

/-- The form of a line that has a key, a space and a value. -/
theorem LineForm.of_key {key : String} (isKey : IsKey key) {value : List Char}
    (first : value.head?.any Text.isBlank = false)
    (last : value.getLast?.any Text.isBlank = false) :
    LineForm.of (key.toList ++ ' ' :: value) =
      if value == ['['] then .opens key.toList else .sets key.toList value := by
  have solid : ∀ c ∈ key.toList, (c != ' ') = true := by
    intro c member
    rw [bne_iff_ne]
    rintro rfl
    exact absurd (isKey.2 _ member) (by decide)
  have nonempty : (key.toList ++ ' ' :: value).isEmpty = false := by
    rw [List.isEmpty_eq_false_iff]
    exact List.append_ne_nil_of_right_ne_nil _ (List.cons_ne_nil _ _)
  have longer : (key.toList ++ ' ' :: value == [']']) = false := by
    rw [beq_eq_false_iff_ne]
    intro same
    have length := congrArg List.length same
    have one := List.length_pos_iff.2 isKey.1
    rw [List.length_append, List.length_cons, List.length_singleton] at length
    omega
  unfold LineForm.of
  rw [nonempty, longer, if_neg Bool.false_ne_true, if_neg Bool.false_ne_true]
  dsimp only
  rw [List.takeWhile_append_of_pos solid, List.dropWhile_append_of_pos solid]
  simp only [List.takeWhile_cons, List.dropWhile_cons, bne_self_eq_false, Bool.false_eq_true,
    if_false, List.append_nil, List.tail_cons]
  rw [Text.trim_eq_self first last]

/-- A padded line that has a key, a space and a value is trimmed to these. -/
theorem trim_line {key : String} (isKey : IsKey key) (indent : Nat) {value : List Char}
    (nonempty : value ≠ []) (last : value.getLast?.any Text.isBlank = false) :
    Text.trim (List.replicate indent ' ' ++ (key.toList ++ ' ' :: value)) =
      key.toList ++ ' ' :: value := by
  refine Text.trim_append ?_ ?_ ?_
  · intro c member
    rw [(List.mem_replicate.1 member).2]
    decide
  · rw [List.head?_append_of_ne_nil _ isKey.1]
    cases found : key.toList.head? with
    | none => rfl
    | some c => exact isKey.2 c (List.mem_of_mem_head? found)
  · rw [List.getLast?_append_of_ne_nil _ (List.cons_ne_nil _ _),
      List.getLast?_cons_of_ne_nil nonempty]
    exact last

/-! ## Reading lines -/

/-- Lines that bring a reader from one progress to another, wherever in a file they stand. -/
inductive Reads : List (List Char) → Progress → Progress → Prop
  | nil (p : Progress) : Reads [] p p
  | cons {line : List Char} {ls : List (List Char)} {p q r : Progress} :
    (∀ number, p.readLine number (Text.trim line) = .ok q) → Reads ls q r → Reads (line :: ls) p r

theorem Reads.append {ls more : List (List Char)} {p q r : Progress} (first : Reads ls p q)
    (rest : Reads more q r) : Reads (ls ++ more) p r := by
  induction first with
  | nil p => exact rest
  | cons step _ ih => exact .cons step (ih rest)

theorem Reads.readLines {ls : List (List Char)} {p q : Progress} (reads : Reads ls p q)
    (number : Nat) : p.readLines number ls = .ok q := by
  induction reads generalizing number with
  | nil p => rfl
  | cons step _ ih =>
    rw [Progress.readLines, step number]
    exact ih (number + 1)

/-! ## Lines of a sheet -/

/-- The line of an attribute. -/
def attributeLine (entry : String × Cell) : List Char :=
  List.replicate 4 ' ' ++ (entry.1.toList ++ ' ' :: entry.2.write.toList)

/-- The line that opens a block. -/
def openingLine (indent : Nat) (kind : String) : List Char :=
  List.replicate indent ' ' ++ (kind.toList ++ ' ' :: ['['])

/-- The line that closes a block. -/
def closingLine (indent : Nat) : List Char :=
  List.replicate indent ' ' ++ [']']

/-- The lines of a block. -/
def blockLines (kind : String) (attributes : Attributes) : List (List Char) :=
  openingLine 2 kind :: (attributes.map attributeLine ++ [closingLine 2])

/-- The lines of a sheet. -/
def Sheet.lines (sheet : Sheet) : List (List Char) :=
  openingLine 0 "graph" :: (List.replicate 2 ' ' ++ ("directed".toList ++ ' ' :: ['1'])) ::
    (sheet.nodes.flatMap (blockLines "node") ++ sheet.edges.flatMap (blockLines "edge") ++
      [closingLine 0])

theorem toList_join_map {α : Type} {f : α → String} {g : α → List (List Char)} (xs : List α)
    (each : ∀ x, (f x).toList = (g x).flatMap (· ++ ['\n'])) :
    (String.join (xs.map f)).toList = (xs.flatMap g).flatMap (· ++ ['\n']) := by
  rw [String.toList_join, List.flatMap_map, List.flatMap_assoc]
  exact List.flatMap_congr fun x _ => each x

theorem toList_writeBlock (kind : String) (attributes : Attributes) :
    (writeBlock kind attributes).toList = (blockLines kind attributes).flatMap (· ++ ['\n']) := by
  unfold writeBlock blockLines
  rw [String.toList_append, String.toList_append,
    toList_join_map (g := fun entry => [attributeLine entry]) attributes]
  · simp [openingLine, closingLine, List.map_eq_flatMap]
  · rintro ⟨key, cell⟩
    simp [writeLine, attributeLine]

/-- A sheet is written as its lines with a line feed after each. -/
theorem Sheet.toList_write (sheet : Sheet) :
    sheet.write.toList = sheet.lines.flatMap (· ++ ['\n']) := by
  unfold Sheet.write Sheet.lines
  simp only [String.toList_append, toList_join_map _ (toList_writeBlock _), List.flatMap_cons,
    List.flatMap_append, List.flatMap_nil, openingLine, closingLine]
  simp

/-! ## Sheets that can be read -/

/-- Attributes whose keys are keys to a reader, each of them once. -/
structure IsKeyed (attributes : Attributes) : Prop where
  isKey : ∀ entry ∈ attributes, IsKey entry.1
  nodup : (attributes.map Prod.fst).Nodup

/-- What a reader finds of a block. -/
def tableOf (attributes : Attributes) : Table String Value :=
  ⟨attributes.map fun entry => (entry.1, entry.2.value)⟩

/-- A statement about every cell of a sheet. -/
def Sheet.Each (sheet : Sheet) (holds : Cell → Prop) : Prop :=
  ∀ attributes ∈ sheet.nodes ++ sheet.edges, ∀ entry ∈ attributes, holds entry.2

instance (sheet : Sheet) (holds : Cell → Prop) [DecidablePred holds] :
    Decidable (sheet.Each holds) :=
  inferInstanceAs (Decidable (∀ attributes ∈ sheet.nodes ++ sheet.edges, ∀ entry ∈ attributes, _))

/-- A sheet whose blocks all have keys that a reader can tell apart. -/
def Sheet.IsKeyed (sheet : Sheet) : Prop :=
  ∀ attributes ∈ sheet.nodes ++ sheet.edges, Gml.IsKeyed attributes

/-! ## Blocks -/

theorem readLine_attributeLine {kind : List Char} (other : kind ≠ graphKind) {entry : String × Cell}
    (isKey : IsKey entry.1) (short : entry.2.IsShort) (d : Document) (t : Table String Value)
    (outer : List Block) (number : Nat) :
    Progress.readLine ⟨d, ⟨kind, t⟩ :: outer⟩ number (Text.trim (attributeLine entry)) =
      .ok ⟨d, ⟨kind, t.put entry.1 entry.2.value⟩ :: outer⟩ := by
  obtain ⟨first, last, plain⟩ := entry.2.write_ends
  have nonempty : entry.2.write.toList ≠ [] := by
    cases entry.2 with
    | int value => exact Numeral.toString_int_ne_nil value
    | text value =>
      rw [toList_write_text]
      exact List.cons_ne_nil _ _
  unfold attributeLine Progress.readLine
  rw [trim_line isKey 4 nonempty last, LineForm.of_key isKey first last,
    if_neg (by rw [beq_iff_eq]; exact plain)]
  dsimp only
  unfold Progress.set
  dsimp only
  rw [if_neg (by rw [beq_iff_eq]; exact other), readValue_write short, String.ofList_toList]

/-- The lines of attributes fill the block that is open. -/
theorem reads_attributes {kind : List Char} (other : kind ≠ graphKind) (done : Attributes)
    {attributes : Attributes} (keyed : IsKeyed (done ++ attributes))
    (short : ∀ entry ∈ attributes, entry.2.IsShort) (d : Document) (outer : List Block) :
    Reads (attributes.map attributeLine) ⟨d, ⟨kind, tableOf done⟩ :: outer⟩
      ⟨d, ⟨kind, tableOf (done ++ attributes)⟩ :: outer⟩ := by
  induction attributes generalizing done with
  | nil =>
    rw [List.append_nil]
    exact .nil _
  | cons entry attributes ih =>
    have regrouped : done ++ [entry] ++ attributes = done ++ entry :: attributes := by
      rw [List.append_assoc, List.singleton_append]
    have fresh : entry.1 ∉ (tableOf done).keys := by
      have nodup := keyed.nodup
      rw [List.map_append] at nodup
      unfold tableOf Table.keys
      rw [List.map_map]
      intro held
      exact (List.nodup_append.1 nodup).2.2 _ held _ List.mem_cons_self rfl
    have grown : (tableOf done).put entry.1 entry.2.value = tableOf (done ++ [entry]) := by
      rw [Table.put_of_not_mem fresh]
      unfold tableOf
      rw [List.map_append]
      rfl
    have rest := ih _ (regrouped ▸ keyed)
      fun entry member => short entry (List.mem_cons_of_mem _ member)
    rw [regrouped] at rest
    refine .cons ?_ rest
    intro number
    rw [← grown]
    exact readLine_attributeLine other
      (keyed.isKey entry (List.mem_append_right _ List.mem_cons_self))
      (short entry List.mem_cons_self) d (tableOf done) outer number

theorem readLine_openingLine {kind : String} (isKey : IsKey kind) (indent : Nat) (d : Document)
    {outer : List Block} (inside : outer = [] → kind.toList = graphKind) (number : Nat) :
    Progress.readLine ⟨d, outer⟩ number (Text.trim (openingLine indent kind)) =
      .ok ⟨d, ⟨kind.toList, ⟨[]⟩⟩ :: outer⟩ := by
  unfold openingLine Progress.readLine
  rw [trim_line isKey indent (List.cons_ne_nil _ _) (by decide),
    LineForm.of_key isKey (by decide) (by decide), if_pos (by decide)]
  dsimp only
  have allowed : (outer.isEmpty && kind.toList != graphKind) = false := by
    cases outer with
    | nil => rw [inside rfl, bne_self_eq_false, Bool.and_false]
    | cons block outer => rfl
  rw [allowed, if_neg Bool.false_ne_true]

theorem readLine_closingLine (indent : Nat) (p : Progress) (number : Nat) :
    p.readLine number (Text.trim (closingLine indent)) = p.close number := by
  have trimmed : Text.trim (closingLine indent) = [']'] := by
    refine Text.trim_append ?_ (by decide) (by decide)
    intro c member
    rw [(List.mem_replicate.1 member).2]
    decide
  rw [trimmed]
  rfl

section Blocks

variable (kind : String) (add : Document → Table String Value → Document) {outer : List Block}
  (isKey : IsKey kind) (other : kind.toList ≠ graphKind)
  (closes : ∀ d t number,
    Progress.close ⟨d, ⟨kind.toList, t⟩ :: outer⟩ number = .ok ⟨add d t, outer⟩)
  (inside : outer ≠ [])
include isKey other closes inside

theorem reads_block {attributes : Attributes} (keyed : IsKeyed attributes)
    (short : ∀ entry ∈ attributes, entry.2.IsShort) (d : Document) :
    Reads (blockLines kind attributes) ⟨d, outer⟩ ⟨add d (tableOf attributes), outer⟩ := by
  refine .cons (readLine_openingLine isKey 2 d fun none => absurd none inside) ?_
  have filled : Reads (attributes.map attributeLine) ⟨d, ⟨kind.toList, tableOf []⟩ :: outer⟩
      ⟨d, ⟨kind.toList, tableOf attributes⟩ :: outer⟩ :=
    reads_attributes other [] keyed short d outer
  refine filled.append (.cons ?_ (.nil _))
  intro number
  rw [readLine_closingLine]
  exact closes d (tableOf attributes) number

/-- The lines of blocks add what they hold to the document, one block after another. -/
theorem reads_blocks {blocks : List Attributes} (keyed : ∀ attributes ∈ blocks, IsKeyed attributes)
    (short : ∀ attributes ∈ blocks, ∀ entry ∈ attributes, entry.2.IsShort) (d : Document) :
    Reads (blocks.flatMap (blockLines kind)) ⟨d, outer⟩
      ⟨(blocks.map tableOf).foldl add d, outer⟩ := by
  induction blocks generalizing d with
  | nil => exact .nil _
  | cons attributes blocks ih =>
    have first := reads_block kind add isKey other closes inside
      (keyed attributes List.mem_cons_self) (short attributes List.mem_cons_self) d
    exact first.append (ih (fun as member => keyed as (List.mem_cons_of_mem _ member))
      (fun as member => short as (List.mem_cons_of_mem _ member)) _)

end Blocks

/-! ## Whole sheets -/

/-- A document with one more node. -/
def Document.addNode (d : Document) (t : Table String Value) : Document :=
  { d with nodes := d.nodes ++ [t] }

/-- A document with one more edge. -/
def Document.addEdge (d : Document) (t : Table String Value) : Document :=
  { d with edges := d.edges ++ [t] }

theorem foldl_addNode (ts : List (Table String Value)) (d : Document) :
    ts.foldl Document.addNode d = { d with nodes := d.nodes ++ ts } := by
  induction ts generalizing d with
  | nil => simp
  | cons t ts ih =>
    rw [List.foldl_cons, ih]
    simp [Document.addNode]

theorem foldl_addEdge (ts : List (Table String Value)) (d : Document) :
    ts.foldl Document.addEdge d = { d with edges := d.edges ++ ts } := by
  induction ts generalizing d with
  | nil => simp
  | cons t ts ih =>
    rw [List.foldl_cons, ih]
    simp [Document.addEdge]

/-- What a reader finds of a sheet. -/
def Sheet.document (sheet : Sheet) : Document where
  attributes := ⟨[("directed", .int 1)]⟩
  nodes := sheet.nodes.map tableOf
  edges := sheet.edges.map tableOf

/-- The block that stands for the whole graph. -/
def graphBlock : Block :=
  ⟨graphKind, ⟨[]⟩⟩

theorem readLine_directedLine (number : Nat) :
    Progress.readLine ⟨{}, [graphBlock]⟩ number
        (Text.trim (List.replicate 2 ' ' ++ ("directed".toList ++ ' ' :: ['1']))) =
      .ok ⟨{ attributes := ⟨[("directed", .int 1)]⟩ }, [graphBlock]⟩ := by
  have form : LineForm.of
      (Text.trim (List.replicate 2 ' ' ++ ("directed".toList ++ ' ' :: ['1']))) =
        .sets "directed".toList ['1'] := by decide
  have value : readValue ['1'] = .int 1 := by decide
  unfold Progress.readLine
  rw [form]
  dsimp only
  rw [value]
  rfl

/-- The lines of a sheet give its document. -/
theorem Sheet.reads_lines {sheet : Sheet} (keyed : sheet.IsKeyed)
    (short : sheet.Each Cell.IsShort) : Reads sheet.lines {} ⟨sheet.document, []⟩ := by
  have inside : [graphBlock] ≠ [] := List.cons_ne_nil _ _
  let start : Document := { attributes := ⟨[("directed", .int 1)]⟩ }
  let middle : Document := { start with nodes := sheet.nodes.map tableOf }
  have nodes := reads_blocks "node" Document.addNode (by decide) (by decide) (fun _ _ _ => rfl)
    inside (fun as member => keyed as (List.mem_append_left _ member))
    (fun as member => short as (List.mem_append_left _ member)) start
  have edges := reads_blocks "edge" Document.addEdge (by decide) (by decide) (fun _ _ _ => rfl)
    inside (fun as member => keyed as (List.mem_append_right _ member))
    (fun as member => short as (List.mem_append_right _ member)) middle
  rw [foldl_addNode] at nodes
  rw [foldl_addEdge] at edges
  have opened : ∀ number, Progress.readLine {} number (Text.trim (openingLine 0 "graph")) =
      .ok ⟨{}, [graphBlock]⟩ :=
    readLine_openingLine (by decide) 0 {} fun _ => rfl
  have closed : ∀ number, Progress.readLine ⟨sheet.document, [graphBlock]⟩ number
      (Text.trim (closingLine 0)) = .ok ⟨sheet.document, []⟩ := by
    intro number
    rw [readLine_closingLine]
    rfl
  exact .cons opened (.cons readLine_directedLine
    ((nodes.append edges).append (.cons closed (.nil _))))

theorem isUnbroken_line {key : String} (isKey : IsKey key) (indent : Nat) {value : List Char}
    (unbroken : Text.IsUnbroken value) :
    Text.IsUnbroken (List.replicate indent ' ' ++ (key.toList ++ ' ' :: value)) := by
  have space : Text.isLineBreak ' ' = false := by decide
  have padding : Text.IsUnbroken (List.replicate indent ' ') := by
    intro c member
    rw [(List.mem_replicate.1 member).2]
    exact space
  refine padding.append ((Text.isUnbroken_of_not_blank isKey.2).append ?_)
  intro c member
  rcases List.mem_cons.1 member with rfl | later
  · exact space
  · exact unbroken c later

theorem isUnbroken_closingLine (indent : Nat) : Text.IsUnbroken (closingLine indent) := by
  intro c member
  rcases List.mem_append.1 member with padding | last
  · rw [(List.mem_replicate.1 padding).2]
    decide
  · rw [List.mem_singleton.1 last]
    decide

theorem isUnbroken_blockLines {kind : String} (isKey : IsKey kind) {attributes : Attributes}
    (keyed : IsKeyed attributes) (unbroken : ∀ entry ∈ attributes, entry.2.IsUnbroken) :
    ∀ l ∈ blockLines kind attributes, Text.IsUnbroken l := by
  intro l member
  rcases List.mem_cons.1 member with rfl | member
  · exact isUnbroken_line isKey 2 (by decide)
  · rcases List.mem_append.1 member with member | last
    · obtain ⟨entry, listed, rfl⟩ := List.mem_map.1 member
      exact isUnbroken_line (keyed.isKey entry listed) 4 (unbroken entry listed).write
    · rw [List.mem_singleton.1 last]
      exact isUnbroken_closingLine 2

theorem Sheet.isUnbroken_lines {sheet : Sheet} (keyed : sheet.IsKeyed)
    (unbroken : sheet.Each Cell.IsUnbroken) : ∀ l ∈ sheet.lines, Text.IsUnbroken l := by
  intro l member
  rcases List.mem_cons.1 member with rfl | member
  · exact isUnbroken_line (by decide) 0 (by decide)
  rcases List.mem_cons.1 member with rfl | member
  · exact isUnbroken_line (by decide) 2 (by decide)
  rcases List.mem_append.1 member with member | last
  · rcases List.mem_append.1 member with inNodes | inEdges
    · obtain ⟨as, listed, inBlock⟩ := List.mem_flatMap.1 inNodes
      have present := List.mem_append_left sheet.edges listed
      exact isUnbroken_blockLines (by decide) (keyed as present) (unbroken as present) l inBlock
    · obtain ⟨as, listed, inBlock⟩ := List.mem_flatMap.1 inEdges
      have present := List.mem_append_right sheet.nodes listed
      exact isUnbroken_blockLines (by decide) (keyed as present) (unbroken as present) l inBlock
  · rw [List.mem_singleton.1 last]
    exact isUnbroken_closingLine 0

/-- **A sheet with unbroken texts is read back.** -/
theorem Sheet.read_write {sheet : Sheet} (keyed : sheet.IsKeyed) (short : sheet.Each Cell.IsShort)
    (unbroken : sheet.Each Cell.IsUnbroken) :
    Document.read sheet.write.toList = .ok sheet.document := by
  unfold Document.read
  rw [sheet.toList_write, Text.lines_flatMap (sheet.isUnbroken_lines keyed unbroken),
    (sheet.reads_lines keyed short).readLines 1]
  rfl

end CallAtlas.Gml
