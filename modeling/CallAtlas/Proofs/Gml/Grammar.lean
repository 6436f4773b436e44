import CallAtlas.Gml.Document
import CallAtlas.Proofs.Table
import CallAtlas.Proofs.Text.Lines
import Mathlib.Data.List.TakeWhile

/-!
# The language of graph files

The lines of a graph file that are not blank are blocks `graph`, one after another, and in them
attributes and further blocks, as deep as one likes. `Items` is the tree of what stands in a block,
and `IsFile` says which lines are a file with a given tree.

A reader goes along the lines and keeps a stack of open blocks. What the lines of some items do to
it depends on the innermost block only (`Spells.runs`), and a reader that ends with no open block
has read items and a closing line for each block that was open (`closes_of_runs`). So a file is read
exactly if it has a tree, and what is read is the document of the tree (`read_isFile`).
-/

namespace CallAtlas.Gml

/-! ## Items -/

/-- What stands in a block: attributes, and blocks with what stands in them. -/
inductive Items
  | nil
  | set (key value : List Char) (rest : Items)
  | block (key : List Char) (inside rest : Items)

/-- A line opens a block: it is a key without spaces, a space and, blanks aside, a bracket. -/
def Opens (key line : List Char) : Prop :=
  ∃ rest, line = key ++ ' ' :: rest ∧ ' ' ∉ key ∧ Text.trim rest = ['[']

/-- The line that closes a block. -/
def closingBracket : List Char := [']']

/-- A line that is not blank sets an attribute: it neither closes nor opens a block. Its key ends at
the first space, and its value is the rest, blanks aside. -/
structure Sets (key value line : List Char) : Prop where
  solid : line ≠ []
  notClosing : line ≠ closingBracket
  notOpening : ∀ key, ¬Opens key line
  key : key = line.takeWhile (· != ' ')
  value : value = Text.trim (line.dropWhile (· != ' ')).tail

/-- Lines that are the items in a block. -/
inductive Spells : List (List Char) → Items → Prop
  | nil : Spells [] .nil
  | set {line key value : List Char} {ls : List (List Char)} {rest : Items}
    (sets : Sets key value line) (more : Spells ls rest) :
    Spells (line :: ls) (.set key value rest)
  | block {line key : List Char} {inner ls : List (List Char)} {inside rest : Items}
    (opens : Opens key line) (within : Spells inner inside) (more : Spells ls rest) :
    Spells (line :: (inner ++ closingBracket :: ls)) (.block key inside rest)

/-- Lines that are a file: blocks `graph` and nothing else. -/
inductive IsFile : List (List Char) → Items → Prop
  | nil : IsFile [] .nil
  | graph {line : List Char} {inner ls : List (List Char)} {inside rest : Items}
    (opens : Opens graphKind line) (within : Spells inner inside) (more : IsFile ls rest) :
    IsFile (line :: (inner ++ closingBracket :: ls)) (.block graphKind inside rest)

/-- The lines of a text without blanks around them, blank lines left out. -/
def solidLines (ls : List (List Char)) : List (List Char) :=
  (ls.map Text.trim).filter (!·.isEmpty)

/-! ## Documents of items -/

/-- A table into which attributes are put in their order: the last value of a key stays. -/
def putAll (t : Table String Value) (attributes : List (String × Value)) : Table String Value :=
  attributes.foldl (fun t entry => t.put entry.1 entry.2) t

namespace Items

/-- The attributes that stand in a block itself. -/
def attributes : Items → List (String × Value)
  | nil => []
  | set key value rest => (String.ofList key, readValue value) :: rest.attributes
  | block _ _ rest => rest.attributes

/-- The table of a block with some items. -/
def table (items : Items) : Table String Value :=
  putAll ⟨[]⟩ items.attributes

/-- What stands in the blocks with a key, at whatever depth, in the order of their closing lines. -/
def blocks (kind : List Char) : Items → List Items
  | nil => []
  | set _ _ rest => rest.blocks kind
  | block key inside rest =>
    inside.blocks kind ++ ((if key == kind then [inside] else []) ++ rest.blocks kind)

/-- The attributes that stand in blocks `graph` themselves, in the order of their lines. -/
def graphAttributes (inGraph : Bool) : Items → List (String × Value)
  | nil => []
  | set key value rest =>
    (if inGraph then [(String.ofList key, readValue value)] else []) ++ rest.graphAttributes inGraph
  | block key inside rest =>
    inside.graphAttributes (key == graphKind) ++ rest.graphAttributes inGraph

/-- The document of a file. -/
def document (items : Items) : Document :=
  { attributes := putAll ⟨[]⟩ (items.graphAttributes false)
    nodes := (items.blocks "node".toList).map table
    edges := (items.blocks "edge".toList).map table }

end Items

/-- A document to which items add what they hold. -/
def Document.add (d : Document) (inGraph : Bool) (items : Items) : Document :=
  { attributes := putAll d.attributes (items.graphAttributes inGraph)
    nodes := d.nodes ++ (items.blocks "node".toList).map Items.table
    edges := d.edges ++ (items.blocks "edge".toList).map Items.table }

/-- A document to which a block is added if it is a node or an edge. -/
def Document.close (d : Document) (b : Block) : Document :=
  { d with
    nodes := d.nodes ++ if b.kind == "node".toList then [b.attributes] else []
    edges := d.edges ++ if b.kind == "edge".toList then [b.attributes] else [] }

/-- A block to which items add their attributes. Blocks `graph` have none of their own. -/
def Block.add (b : Block) (items : Items) : Block :=
  if b.kind == graphKind then b else { b with attributes := putAll b.attributes items.attributes }

theorem putAll_append (t : Table String Value) (first second : List (String × Value)) :
    putAll t (first ++ second) = putAll (putAll t first) second :=
  List.foldl_append

/-- The last value of a key is the one that a table holds. -/
theorem Items.get?_table (items : Items) (key : String) :
    items.table.get? key = (items.attributes.reverse.find? (·.1 = key)).map Prod.snd := by
  unfold table putAll
  rw [Table.get?_foldl_put, show (⟨[]⟩ : Table String Value).get? key = none from rfl,
    Option.or_none]

/-! ## Forms of lines -/

/-- A key ends at the first space. -/
theorem opens_iff {key line : List Char} :
    Opens key line ↔ key = line.takeWhile (· != ' ') ∧
      Text.trim (line.dropWhile (· != ' ')).tail = ['['] := by
  constructor
  · rintro ⟨rest, rfl, absent, bracket⟩
    obtain ⟨inKey, behind⟩ := Text.cut_append absent rest
    rw [inKey, behind]
    exact ⟨rfl, bracket⟩
  · rintro ⟨rfl, bracket⟩
    cases behind : line.dropWhile (· != ' ') with
    | nil =>
      rw [behind] at bracket
      cases bracket
    | cons c rest =>
      rw [behind] at bracket
      have space := List.head_dropWhile_not (· != ' ') (l := line) (by simp [behind])
      simp only [behind, List.head_cons, bne_eq_false_iff_eq] at space
      subst space
      refine ⟨rest, ?_, fun member => ?_, bracket⟩
      · rw [← behind, List.takeWhile_append_dropWhile]
      · simpa using List.mem_takeWhile_imp member

theorem ne_closingBracket {key line : List Char} (opens : Opens key line) :
    line ≠ [] ∧ line ≠ closingBracket := by
  rcases opens with ⟨rest, rfl, -, bracket⟩
  refine ⟨by simp, fun same => ?_⟩
  have space : ' ' ∈ closingBracket := same ▸ by simp
  exact absurd space (by decide)

theorem of_eq_close_iff {line : List Char} : LineForm.of line = .close ↔ line = closingBracket := by
  unfold LineForm.of
  constructor
  · intro form
    split at form
    next => cases form
    next =>
      split at form
      next closes => exact eq_of_beq closes
      next =>
        dsimp only at form
        split at form <;> cases form
  · rintro rfl
    rfl

theorem of_eq_opens_iff {key line : List Char} :
    LineForm.of line = .opens key ↔ Opens key line := by
  rw [opens_iff]
  constructor
  · intro form
    unfold LineForm.of at form
    split at form
    next => cases form
    next =>
      split at form
      next => cases form
      next =>
        dsimp only at form
        split at form
        next bracket =>
          cases form
          exact ⟨rfl, eq_of_beq bracket⟩
        next => cases form
  · intro opens
    rcases ne_closingBracket (opens_iff.2 opens) with ⟨solid, notClosing⟩
    have other : ¬(line == [']']) = true := fun same => notClosing (eq_of_beq same)
    unfold LineForm.of
    rw [if_neg (by simpa using solid), if_neg other]
    simp [opens.1, opens.2]

theorem of_eq_sets_iff {key value line : List Char} :
    LineForm.of line = .sets key value ↔ Sets key value line := by
  constructor
  · intro form
    have notOpening : ∀ key, ¬Opens key line := by
      intro key opens
      rw [of_eq_opens_iff.2 opens] at form
      cases form
    unfold LineForm.of at form
    split at form
    next => cases form
    next solid =>
      split at form
      next => cases form
      next notClosing =>
        dsimp only at form
        split at form
        next => cases form
        next =>
          cases form
          exact ⟨by simpa using solid, fun same => notClosing (beq_iff_eq.2 same), notOpening, rfl,
            rfl⟩
  · rintro ⟨solid, notClosing, notOpening, rfl, rfl⟩
    have bracket : Text.trim (line.dropWhile (· != ' ')).tail ≠ ['['] := fun bracket =>
      notOpening _ (opens_iff.2 ⟨rfl, bracket⟩)
    have other : ¬(line == [']']) = true := fun same => notClosing (eq_of_beq same)
    unfold LineForm.of
    rw [if_neg (by simpa using solid), if_neg other]
    simp [bracket]

/-! ## Runs of a reader -/

/-- Trimmed lines that bring a reader from one progress to another, whatever their numbers. -/
inductive Runs : List (List Char) → Progress → Progress → Prop
  | nil (p : Progress) : Runs [] p p
  | cons {line : List Char} {ls : List (List Char)} {p q r : Progress}
    (step : ∀ number, p.readLine number line = .ok q) (more : Runs ls q r) : Runs (line :: ls) p r

theorem Runs.append {ls more : List (List Char)} {p q r : Progress} (first : Runs ls p q)
    (second : Runs more q r) : Runs (ls ++ more) p r := by
  induction first with
  | nil p => exact second
  | cons step _ ih => exact .cons step (ih second)

/-- Numbers of lines are only told in errors. -/
theorem readLine_number {p q : Progress} {number : Nat} {line : List Char}
    (read : p.readLine number line = .ok q) (other : Nat) : p.readLine other line = .ok q := by
  unfold Progress.readLine at read ⊢
  split at read
  next => exact read
  next =>
    unfold Progress.close at read ⊢
    split at read
    next => cases read
    next => exact read
  next =>
    split at read
    next => cases read
    next closed => rw [if_neg closed]; exact read
  next =>
    unfold Progress.set at read ⊢
    split at read
    next => cases read
    next => exact read

theorem solidLines_cons (line : List Char) (ls : List (List Char)) :
    solidLines (line :: ls) =
      if Text.trim line = [] then solidLines ls else Text.trim line :: solidLines ls := by
  unfold solidLines
  rw [List.map_cons, List.filter_cons]
  by_cases blank : Text.trim line = [] <;> simp [blank]

/-- Reading lines is a run along those that are not blank. -/
theorem readLines_eq_ok_iff {ls : List (List Char)} {p q : Progress} {number : Nat} :
    p.readLines number ls = .ok q ↔ Runs (solidLines ls) p q := by
  induction ls generalizing p number with
  | nil =>
    constructor
    · intro read
      cases read
      exact .nil _
    · intro runs
      cases runs
      rfl
  | cons line ls ih =>
    rw [Progress.readLines, solidLines_cons]
    split
    next blank =>
      rw [blank]
      exact ih
    next =>
      constructor
      · intro read
        cases step : p.readLine number (Text.trim line) with
        | error e =>
          rw [step] at read
          cases read
        | ok next =>
          rw [step] at read
          exact .cons (readLine_number step) (ih.1 read)
      · intro runs
        cases runs with
        | cons step more =>
          rw [step number]
          exact ih.2 more

/-! ## Steps of a reader -/

section Steps

variable {line key value : List Char} {d : Document} {b : Block} {outer : List Block}

theorem readLine_opens (opens : Opens key line) (p : Progress)
    (allowed : p.blocks = [] → key = graphKind) (number : Nat) :
    p.readLine number line = .ok { p with blocks := ⟨key, ⟨[]⟩⟩ :: p.blocks } := by
  unfold Progress.readLine
  rw [of_eq_opens_iff.2 opens]
  dsimp only
  rw [if_neg]
  rw [Bool.and_eq_true, List.isEmpty_iff, bne_iff_ne]
  rintro ⟨none, other⟩
  exact other (allowed none)

theorem readLine_sets (sets : Sets key value line) (number : Nat) :
    Progress.readLine ⟨d, b :: outer⟩ number line =
      if b.kind == graphKind then
        .ok ⟨{ d with attributes := d.attributes.put (String.ofList key) (readValue value) },
          b :: outer⟩
      else .ok ⟨d, { b with
        attributes := b.attributes.put (String.ofList key) (readValue value) } :: outer⟩ := by
  unfold Progress.readLine
  rw [of_eq_sets_iff.2 sets]
  rfl

theorem readLine_close (number : Nat) :
    Progress.readLine ⟨d, b :: outer⟩ number closingBracket = .ok ⟨d.close b, outer⟩ := by
  unfold Progress.readLine
  rw [of_eq_close_iff.2 rfl]
  unfold Progress.close Document.close
  dsimp only
  cases isNode : b.kind == "node".toList with
  | true =>
    have notEdge : (b.kind == "edge".toList) = false := by rw [eq_of_beq isNode]; rfl
    rw [notEdge]
    simp
  | false => cases b.kind == "edge".toList <;> simp

end Steps

/-! ## Runs along items -/

section Adding

variable (d : Document) (b : Block) (inGraph : Bool) (key value : List Char) (inside rest : Items)

theorem Document.add_nil : d.add inGraph .nil = d := by
  simp [add, Items.graphAttributes, Items.blocks, putAll]

theorem Block.add_nil : b.add .nil = b := by
  simp [add, Items.attributes, putAll]

/-- An attribute of a block `graph` goes to the document. -/
theorem Document.add_set :
    d.add inGraph (.set key value rest) =
      (if inGraph then
        { d with attributes := d.attributes.put (String.ofList key) (readValue value) }
      else d).add inGraph rest := by
  cases inGraph <;> simp [add, Items.graphAttributes, Items.blocks, putAll]

/-- An attribute of any other block stays there. -/
theorem Block.add_set :
    b.add (.set key value rest) =
      (if b.kind == graphKind then b
      else { b with attributes := b.attributes.put (String.ofList key) (readValue value) }).add
        rest := by
  unfold add
  cases inGraph : b.kind == graphKind <;> simp [inGraph, Items.attributes, putAll]

theorem Block.add_block : b.add (.block key inside rest) = b.add rest := rfl

theorem Block.kind_add (items : Items) : (b.add items).kind = b.kind := by
  unfold add
  split <;> rfl

/-- The table of a block is that of its items, unless the block is a `graph`. -/
theorem Block.attributes_add (other : (key == graphKind) = false) (items : Items) :
    (add ⟨key, ⟨[]⟩⟩ items).attributes = items.table := by
  unfold add
  rw [if_neg (by simp [other])]
  rfl

/-- What a block holds is added before the block itself, and that before what follows it. -/
theorem Document.add_block :
    d.add inGraph (.block key inside rest) =
      ((d.add (key == graphKind) inside).close (Block.add ⟨key, ⟨[]⟩⟩ inside)).add inGraph
        rest := by
  have collected : ∀ kind : List Char, (kind == graphKind) = false →
      ((Items.block key inside rest).blocks kind).map Items.table =
        (inside.blocks kind).map Items.table ++
          ((if key == kind then [(Block.add ⟨key, ⟨[]⟩⟩ inside).attributes] else []) ++
            (rest.blocks kind).map Items.table) := by
    intro kind other
    rw [Items.blocks, List.map_append, List.map_append]
    cases same : key == kind with
    | false => rfl
    | true =>
      rw [if_pos rfl, if_pos rfl, Block.attributes_add key (eq_of_beq same ▸ other)]
      rfl
  unfold add close
  rw [collected _ (by decide), collected _ (by decide), Block.kind_add, Items.graphAttributes,
    putAll_append]
  simp only [List.append_assoc]

end Adding

/-- The lines of some items add these to the innermost block and to the document. -/
theorem Spells.runs {ls : List (List Char)} {items : Items} (spells : Spells ls items)
    (d : Document) (b : Block) (outer : List Block) :
    Runs ls ⟨d, b :: outer⟩ ⟨d.add (b.kind == graphKind) items, b.add items :: outer⟩ := by
  induction spells generalizing d b outer with
  | nil =>
    rw [Document.add_nil, Block.add_nil]
    exact .nil _
  | set sets _ ih =>
    rw [Document.add_set, Block.add_set]
    by_cases inGraph : (b.kind == graphKind) = true
    · rw [if_pos inGraph, if_pos inGraph]
      exact .cons (fun number => (readLine_sets sets number).trans (if_pos inGraph)) (ih _ b outer)
    · rw [if_neg inGraph, if_neg inGraph]
      exact .cons (fun number => (readLine_sets sets number).trans (if_neg inGraph)) (ih d _ outer)
  | @block line key inner ls inside rest opens _ _ ihWithin ih =>
    rw [Document.add_block, Block.add_block]
    refine .cons (readLine_opens opens _ (fun absent => nomatch absent)) ?_
    exact (ihWithin d ⟨key, ⟨[]⟩⟩ (b :: outer)).append (.cons readLine_close (ih _ b outer))

/-- The lines of a file leave no block open, and add the items of the file to the document. -/
theorem IsFile.runs {ls : List (List Char)} {items : Items} (isFile : IsFile ls items)
    (d : Document) : Runs ls ⟨d, []⟩ ⟨d.add false items, []⟩ := by
  induction isFile generalizing d with
  | nil =>
    rw [Document.add_nil]
    exact .nil _
  | @graph line inner ls inside rest opens within _ ih =>
    rw [Document.add_block]
    refine .cons (readLine_opens opens _ fun _ => rfl) ?_
    exact (within.runs d ⟨graphKind, ⟨[]⟩⟩ []).append (.cons readLine_close (ih _))

/-! ## What a reader has read -/

/-- Lines that close some open blocks, and are a file once no block is open. -/
def Closes : Nat → List (List Char) → Prop
  | 0, ls => ∃ items, IsFile ls items
  | n + 1, ls => ∃ inner rest items, ls = inner ++ closingBracket :: rest ∧ Spells inner items ∧
    Closes n rest

/-- A line that is read closes a block, opens one or sets an attribute of one. -/
theorem readLine_cases {p q : Progress} {line : List Char} (solid : line ≠ []) {number : Nat}
    (read : p.readLine number line = .ok q) :
    (line = closingBracket ∧ p.blocks.length = q.blocks.length + 1) ∨
      (∃ key, Opens key line ∧ (p.blocks.length = 0 → key = graphKind) ∧
        q.blocks.length = p.blocks.length + 1) ∨
      (∃ key value, Sets key value line ∧ 0 < p.blocks.length ∧
        q.blocks.length = p.blocks.length) := by
  unfold Progress.readLine at read
  split at read
  next form =>
    unfold LineForm.of at form
    split at form
    next blank => exact absurd (List.isEmpty_iff.1 blank) solid
    next =>
      split at form
      next => cases form
      next =>
        dsimp only at form
        split at form <;> cases form
  next form =>
    refine Or.inl ⟨of_eq_close_iff.1 form, ?_⟩
    unfold Progress.close at read
    split at read
    next => cases read
    next b outer shape =>
      rw [shape, List.length_cons]
      dsimp only at read
      split at read
      next => cases read; rfl
      next => split at read <;> cases read <;> rfl
  next key form =>
    split at read
    next => cases read
    next allowed =>
      cases read
      refine Or.inr (Or.inl ⟨key, of_eq_opens_iff.1 form, fun none => ?_, rfl⟩)
      simpa [List.length_eq_zero_iff.1 none] using allowed
  next key value form =>
    refine Or.inr (Or.inr ⟨key, value, of_eq_sets_iff.1 form, ?_⟩)
    unfold Progress.set at read
    split at read
    next => cases read
    next b outer shape =>
      rw [shape]
      dsimp only at read
      split at read <;> cases read <;> exact ⟨Nat.succ_pos _, rfl⟩

/-- Only items and closing lines bring a reader to where no block is open. The first line decides
whether the innermost block ends, gets an attribute or gets a block. -/
theorem closes_of_runs {ls : List (List Char)} {p q : Progress} (runs : Runs ls p q)
    (solid : ∀ line ∈ ls, line ≠ []) (none : q.blocks = []) : Closes p.blocks.length ls := by
  induction runs with
  | nil p =>
    rw [none]
    exact ⟨.nil, .nil⟩
  | @cons line ls p q r step _ ih =>
    rw [List.forall_mem_cons] at solid
    have later := ih solid.2 none
    rcases readLine_cases solid.1 (step 0) with
      ⟨rfl, fewer⟩ | ⟨key, opens, outermost, more⟩ | ⟨key, value, sets, inside, same⟩
    · rw [fewer]
      exact ⟨[], ls, .nil, rfl, .nil, later⟩
    · rw [more] at later
      rcases later with ⟨inner, rest, items, rfl, within, behind⟩
      cases depth : p.blocks.length with
      | zero =>
        rw [depth] at behind
        rcases behind with ⟨others, isFile⟩
        exact ⟨_, .graph (outermost depth ▸ opens) within isFile⟩
      | succ n =>
        rw [depth] at behind
        rcases behind with ⟨inner', rest', items', rfl, after, behind⟩
        exact ⟨_, rest', _, by simp, .block opens within after, behind⟩
    · rw [same] at later
      obtain ⟨n, depth⟩ := Nat.exists_eq_add_one.2 inside
      rw [depth] at later ⊢
      rcases later with ⟨inner, rest, items, rfl, within, behind⟩
      exact ⟨line :: inner, rest, _, rfl, .set sets within, behind⟩

theorem solid_of_mem_solidLines {ls : List (List Char)} {line : List Char}
    (member : line ∈ solidLines ls) : line ≠ [] := by
  simpa using (List.mem_filter.1 member).2

theorem document_eq_add (items : Items) : items.document = Document.add {} false items := by
  simp [Items.document, Document.add]

/-- The document of a file is what is read of its lines. -/
theorem read_of_isFile {s : List Char} {items : Items}
    (isFile : IsFile (solidLines (Text.lines s)) items) :
    Document.read s = .ok items.document := by
  have runs := isFile.runs {}
  unfold Document.read
  rw [readLines_eq_ok_iff.2 runs, document_eq_add]
  rfl

/-- A text that is read has the lines of a file. -/
theorem exists_isFile_of_read {s : List Char} {d : Document} (read : Document.read s = .ok d) :
    ∃ items, IsFile (solidLines (Text.lines s)) items := by
  unfold Document.read at read
  cases lines : Progress.readLines {} 1 (Text.lines s) with
  | error e =>
    rw [lines] at read
    cases read
  | ok p =>
    rw [lines] at read
    change (if p.blocks.isEmpty then _ else _) = _ at read
    split at read
    next none =>
      exact closes_of_runs (readLines_eq_ok_iff.1 lines) (fun _ => solid_of_mem_solidLines)
        (List.isEmpty_iff.1 none)
    next => cases read

/-- **A text is read as a graph file exactly if its lines are one.** The lines that are not blank
are blocks `graph` with any items in them; then the document holds the nodes and edges among the
items, each after those inside it and with the last value of each of its own keys. Any other text is
refused. -/
theorem read_isFile (s : List Char) :
    (∀ d, Document.read s = .ok d ↔
      ∃ items, IsFile (solidLines (Text.lines s)) items ∧ d = items.document) ∧
    ((∃ e, Document.read s = .error e) ↔ ¬∃ items, IsFile (solidLines (Text.lines s)) items) ∧
    ∀ (items : Items) (key : String), items.table.get? key =
      (items.attributes.reverse.find? (·.1 = key)).map Prod.snd := by
  have accepts : ∀ d, Document.read s = .ok d ↔
      ∃ items, IsFile (solidLines (Text.lines s)) items ∧ d = items.document := by
    intro d
    constructor
    · intro read
      rcases exists_isFile_of_read read with ⟨items, isFile⟩
      exact ⟨items, isFile, Except.ok.inj (read.symm.trans (read_of_isFile isFile))⟩
    · rintro ⟨items, isFile, rfl⟩
      exact read_of_isFile isFile
  refine ⟨accepts, ?_, Items.get?_table⟩
  constructor
  · rintro ⟨e, refused⟩ ⟨items, isFile⟩
    rw [read_of_isFile isFile] at refused
    cases refused
  · intro other
    cases read : Document.read s with
    | error e => exact ⟨e, rfl⟩
    | ok d => exact absurd (exists_isFile_of_read read) other

/-- A node in a node comes first, and of two values of a key the last one stays. -/
example :
    Document.read "graph [\nnode [\nid 1\nnode [\nid 2\n]\nid 3\n]\n]".toList =
      .ok { nodes := [⟨[("id", .int 2)]⟩, ⟨[("id", .int 3)]⟩] } := by
  rfl

end CallAtlas.Gml
