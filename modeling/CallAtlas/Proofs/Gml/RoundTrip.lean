import CallAtlas.CallTree
import CallAtlas.ModuleGraph
import CallAtlas.Proofs.Gml.Sheet

/-!
# Which graphs are read back

No file whatever gives a node or an edge with a text in which a line ends: a reader cuts the file
into lines first (`isUnbroken_of_read`). So a sheet is read back exactly if its texts are unbroken
(`Sheet.readsAs_write_iff`). The sheets of module graphs and of call trees are such sheets, and they
keep the graph key by key and value by value.
-/

namespace CallAtlas

namespace Gml

/-! ## What a reader can find -/

/-- A value that is no text in which a line ends. -/
def Value.IsUnbroken : Value → Prop
  | .text value => Text.IsUnbroken value.toList
  | _ => True

/-- A table without texts in which a line ends. -/
def IsUnbrokenTable (t : Table String Value) : Prop :=
  ∀ entry ∈ t.entries, entry.2.IsUnbroken

/-- A reader that has found no text in which a line ends. -/
structure Progress.IsUnbroken (p : Progress) : Prop where
  nodes : ∀ t ∈ p.document.nodes, IsUnbrokenTable t
  edges : ∀ t ∈ p.document.edges, IsUnbrokenTable t
  blocks : ∀ b ∈ p.blocks, IsUnbrokenTable b.attributes

theorem Value.isUnbroken_text {s : List Char} :
    (Value.text (String.ofList s)).IsUnbroken ↔ Text.IsUnbroken s := by
  change Text.IsUnbroken (String.ofList s).toList ↔ _
  rw [String.toList_ofList]

theorem isUnbroken_readValue {s : List Char} (unbroken : Text.IsUnbroken s) :
    (readValue s).IsUnbroken := by
  have whole := Value.isUnbroken_text.2 unbroken
  unfold readValue
  split
  next inside =>
    split
    next =>
      rw [Value.isUnbroken_text]
      refine unbroken.of_subset fun c member => List.mem_cons_of_mem _ ?_
      exact List.dropLast_subset _ (unescape_subset _ member)
    next => exact whole
  next =>
    split
    next => trivial
    next =>
      split
      next => trivial
      next => exact whole

theorem LineForm.isUnbroken_of_sets {line key value : List Char} (unbroken : Text.IsUnbroken line)
    (form : LineForm.of line = .sets key value) : Text.IsUnbroken value := by
  unfold LineForm.of at form
  split at form
  next => cases form
  next =>
    split at form
    next => cases form
    next =>
      dsimp only at form
      split at form
      next => cases form
      next =>
        cases form
        refine unbroken.of_subset fun c member => ?_
        exact (List.dropWhile_suffix _).subset
          (List.mem_of_mem_tail ((Text.trim_sublist _).subset member))

theorem Progress.IsUnbroken.close {p q : Progress} (unbroken : p.IsUnbroken) {number : Nat}
    (closed : p.close number = .ok q) : q.IsUnbroken := by
  unfold Progress.close at closed
  split at closed
  next => cases closed
  next block blocks shape =>
    have own : IsUnbrokenTable block.attributes :=
      unbroken.blocks block (shape ▸ List.mem_cons_self)
    have outer : ∀ b ∈ blocks, IsUnbrokenTable b.attributes := fun b member =>
      unbroken.blocks b (shape ▸ List.mem_cons_of_mem _ member)
    have added : ∀ ts : List (Table String Value), (∀ t ∈ ts, IsUnbrokenTable t) →
        ∀ t ∈ ts ++ [block.attributes], IsUnbrokenTable t := by
      intro ts each t member
      rcases List.mem_append.1 member with old | new
      · exact each t old
      · rw [List.mem_singleton.1 new]
        exact own
    dsimp only at closed
    split at closed
    next =>
      cases closed
      exact ⟨added _ unbroken.nodes, unbroken.edges, outer⟩
    next =>
      split at closed
      next =>
        cases closed
        exact ⟨unbroken.nodes, added _ unbroken.edges, outer⟩
      next =>
        cases closed
        exact ⟨unbroken.nodes, unbroken.edges, outer⟩

theorem Progress.IsUnbroken.set {p q : Progress} (unbroken : p.IsUnbroken) {number : Nat}
    {key : List Char} {value : Value} (whole : value.IsUnbroken)
    (done : p.set number key value = .ok q) : q.IsUnbroken := by
  unfold Progress.set at done
  split at done
  next => cases done
  next block blocks shape =>
    dsimp only at done
    split at done
    next =>
      cases done
      refine ⟨unbroken.nodes, unbroken.edges, ?_⟩
      rw [← shape]
      exact unbroken.blocks
    next =>
      cases done
      refine ⟨unbroken.nodes, unbroken.edges, ?_⟩
      intro b member
      rcases List.mem_cons.1 member with rfl | later
      · intro entry held
        rcases Table.mem_entries_put held with rfl | old
        · exact whole
        · exact unbroken.blocks block (shape ▸ List.mem_cons_self) entry old
      · exact unbroken.blocks b (shape ▸ List.mem_cons_of_mem _ later)

/-- A line in which no line ends brings in no text in which one does. -/
theorem Progress.IsUnbroken.readLine {p q : Progress} (unbroken : p.IsUnbroken) {number : Nat}
    {line : List Char} (whole : Text.IsUnbroken line) (read : p.readLine number line = .ok q) :
    q.IsUnbroken := by
  unfold Progress.readLine at read
  split at read
  next =>
    cases read
    exact unbroken
  next => exact unbroken.close read
  next key _ =>
    split at read
    next => cases read
    next =>
      cases read
      refine ⟨unbroken.nodes, unbroken.edges, ?_⟩
      intro b member
      rcases List.mem_cons.1 member with rfl | outer
      · exact fun entry held => nomatch held
      · exact unbroken.blocks b outer
  next key value form =>
    exact unbroken.set (isUnbroken_readValue (LineForm.isUnbroken_of_sets whole form)) read

theorem Progress.IsUnbroken.readLines {p q : Progress} (unbroken : p.IsUnbroken) {number : Nat}
    {ls : List (List Char)} (whole : ∀ l ∈ ls, Text.IsUnbroken l)
    (read : p.readLines number ls = .ok q) : q.IsUnbroken := by
  induction ls generalizing p number with
  | nil =>
    cases read
    exact unbroken
  | cons line ls ih =>
    rw [Progress.readLines] at read
    cases step : p.readLine number (Text.trim line) with
    | error e =>
      rw [step] at read
      cases read
    | ok next =>
      rw [step] at read
      have trimmed : Text.IsUnbroken (Text.trim line) :=
        (whole line List.mem_cons_self).of_subset (Text.trim_sublist line).subset
      exact ih (unbroken.readLine trimmed step)
        (fun l member => whole l (List.mem_cons_of_mem _ member)) read

/-- No file has a node or an edge with a text in which a line ends. -/
theorem isUnbroken_of_read {s : List Char} {d : Document} (read : Document.read s = .ok d) :
    ∀ t ∈ d.nodes ++ d.edges, IsUnbrokenTable t := by
  have start : ({} : Progress).IsUnbroken :=
    ⟨(fun _ none => nomatch none), (fun _ none => nomatch none), (fun _ none => nomatch none)⟩
  unfold Document.read at read
  cases lines : Progress.readLines {} 1 (Text.lines s) with
  | error e =>
    rw [lines] at read
    cases read
  | ok p =>
    rw [lines] at read
    have found := start.readLines (fun l member => Text.isUnbroken_of_mem_lines member) lines
    change (if p.blocks.isEmpty then _ else _) = _ at read
    split at read
    next =>
      cases read
      intro t member
      rcases List.mem_append.1 member with inNodes | inEdges
      · exact found.nodes t inNodes
      · exact found.edges t inEdges
    next => cases read

/-- A file that is read as a directed graph with some nodes and edges. -/
def ReadsAs (s : String) (nodes edges : List (Table String Value)) : Prop :=
  ∃ d, Document.read s.toList = .ok d ∧ d.directed = true ∧ d.nodes = nodes ∧ d.edges = edges

theorem Cell.isUnbroken_value {cell : Cell} : cell.value.IsUnbroken ↔ cell.IsUnbroken := by
  cases cell with
  | int value => exact Iff.rfl
  | text value => exact Iff.rfl

/-- **A sheet is read back exactly if its texts are unbroken.** -/
theorem Sheet.readsAs_write_iff {sheet : Sheet} (keyed : sheet.IsKeyed)
    (short : sheet.Each Cell.IsShort) :
    ReadsAs sheet.write (sheet.nodes.map tableOf) (sheet.edges.map tableOf) ↔
      sheet.Each Cell.IsUnbroken := by
  constructor
  · rintro ⟨d, read, -, nodes, edges⟩ as member entry listed
    have found := isUnbroken_of_read read
    rw [nodes, edges, ← List.map_append] at found
    rw [← Cell.isUnbroken_value]
    exact found (tableOf as) (List.mem_map_of_mem member) (entry.1, entry.2.value)
      (List.mem_map.2 ⟨entry, listed, rfl⟩)
  · intro unbroken
    exact ⟨sheet.document, sheet.read_write keyed short unbroken, rfl, rfl, rfl⟩

end Gml

/-! ## Module graphs and call trees -/

/-- The table of a node of a module graph. -/
def ModuleNode.table (n : ModuleNode) : Table String Gml.Value :=
  ⟨[("id", .int n.id), ("label", .text n.label), ("numFunctions", .int n.entry.functionCount),
    ("numLines", .int n.entry.lineCount), ("filename", .text n.entry.path)]⟩

/-- The table of an edge of a module graph. -/
def ModuleEdge.table (e : ModuleEdge) : Table String Gml.Value :=
  ⟨[("source", .int e.source), ("target", .int e.target), ("label", .text e.label),
    ("numInvocations", .int e.callCount)]⟩

/-- The table of a node of a call tree. What is not known of it has no key. -/
def CallNode.table (n : CallNode) : Table String Gml.Value :=
  ⟨[("id", .int n.id), ("label", .text n.label), ("level", .int n.level),
      ("reverse_level", .int n.reverseLevel), ("function", .text n.shownFunction),
      ("filename", .text n.path)] ++
    (n.loc.map fun loc => ("loc", .int loc)).toList ++
    (n.invertedLoc.map fun loc => ("inverted_loc", .int loc)).toList ++
    (n.callCount.map fun count => ("call_count", .int count)).toList⟩

/-- The table of an edge of a call tree. -/
def CallTree.edgeTable (e : Int × Int) : Table String Gml.Value :=
  ⟨[("source", .int e.1), ("target", .int e.2)]⟩

namespace Gml

/-- Attributes with keys from a list are keyed, if the list is one of different keys. -/
theorem isKeyed_of_sublist {keys : List String} {attributes : Attributes}
    (within : (attributes.map Prod.fst).Sublist keys) (isKey : ∀ key ∈ keys, IsKey key)
    (nodup : keys.Nodup) : IsKeyed attributes := by
  refine ⟨?_, within.nodup nodup⟩
  intro entry member
  exact isKey entry.1 (within.subset (List.mem_map_of_mem member))

theorem isKeyed_nodeAttributes (n : ModuleNode) : IsKeyed (ModuleGraph.nodeAttributes n) :=
  isKeyed_of_sublist (List.Sublist.refl ["id", "label", "numFunctions", "numLines", "filename"])
    (by decide) (by decide)

theorem isKeyed_edgeAttributes (e : ModuleEdge) : IsKeyed (ModuleGraph.edgeAttributes e) :=
  isKeyed_of_sublist (List.Sublist.refl ["source", "target", "label", "numInvocations"])
    (by decide) (by decide)

theorem keys_optionalAttribute (key : String) (value : Option Int) :
    ((CallNode.optionalAttribute key value).map Prod.fst).Sublist [key] := by
  cases value with
  | none => exact List.nil_sublist _
  | some value => exact List.Sublist.refl _

theorem isKeyed_callNode (n : CallNode) : IsKeyed n.attributes := by
  have keys : (n.attributes.map Prod.fst).Sublist
      (["id", "label", "level", "reverse_level", "function", "filename"] ++ ["loc"] ++
        ["inverted_loc"] ++ ["call_count"]) := by
    unfold CallNode.attributes
    rw [List.map_append, List.map_append, List.map_append]
    exact (((List.Sublist.refl _).append (keys_optionalAttribute _ _)).append
      (keys_optionalAttribute _ _)).append (keys_optionalAttribute _ _)
  exact isKeyed_of_sublist keys (by decide) (by decide)

theorem isKeyed_callEdge (e : Int × Int) :
    IsKeyed [("source", .int e.1), ("target", .int e.2)] :=
  isKeyed_of_sublist (List.Sublist.refl ["source", "target"]) (by decide) (by decide)

/-- A sheet is keyed if the attributes of each node and each edge are. -/
theorem isKeyed_sheet {α β : Type} {nodes : List α} {edges : List β} {f : α → Attributes}
    {g : β → Attributes} (each : ∀ x, IsKeyed (f x)) (each' : ∀ x, IsKeyed (g x)) :
    Sheet.IsKeyed ⟨nodes.map f, edges.map g⟩ := by
  intro attributes member
  rcases List.mem_append.1 member with inNodes | inEdges
  · obtain ⟨x, -, rfl⟩ := List.mem_map.1 inNodes
    exact each x
  · obtain ⟨x, -, rfl⟩ := List.mem_map.1 inEdges
    exact each' x

theorem tableOf_optionalAttribute (key : String) (value : Option Int) :
    (CallNode.optionalAttribute key value).map (fun entry => (entry.1, entry.2.value)) =
      (value.map fun value => (key, Value.int value)).toList := by
  cases value with
  | none => rfl
  | some value => rfl

theorem tableOf_callNode (n : CallNode) : tableOf n.attributes = n.table := by
  unfold tableOf CallNode.attributes CallNode.table
  simp only [List.map_append, tableOf_optionalAttribute]
  rfl

/-- What is known of a node of a call tree has a key, and what is not known has none. -/
theorem get?_callNode (n : CallNode) :
    n.table.get? "loc" = n.loc.map .int ∧ n.table.get? "inverted_loc" = n.invertedLoc.map .int ∧
      n.table.get? "call_count" = n.callCount.map .int := by
  unfold CallNode.table Table.get?
  cases n.loc <;> cases n.invertedLoc <;> cases n.callCount <;> simp [List.lookup_cons]

/-- **A graph is read back exactly if its texts are unbroken.** The file of a module graph or of a
call tree without overlong integers is read as a directed graph with the same nodes and edges, in
order, with the same keys and values, if no line ends in one of its texts, and otherwise not. -/
theorem graph_readsAs_iff :
    (∀ g : ModuleGraph, g.toSheet.Each Cell.IsShort →
      (ReadsAs g.toSheet.write (g.nodes.map ModuleNode.table) (g.edges.map ModuleEdge.table) ↔
        g.toSheet.Each Cell.IsUnbroken)) ∧
    (∀ t : CallTree, t.toSheet.Each Cell.IsShort →
      (ReadsAs t.toSheet.write (t.nodes.map CallNode.table) (t.edges.map CallTree.edgeTable) ↔
        t.toSheet.Each Cell.IsUnbroken)) ∧
    ∀ n : CallNode,
      n.table.get? "loc" = n.loc.map .int ∧ n.table.get? "inverted_loc" = n.invertedLoc.map .int ∧
        n.table.get? "call_count" = n.callCount.map .int := by
  refine ⟨?_, ?_, get?_callNode⟩
  · intro g short
    have keyed : g.toSheet.IsKeyed := isKeyed_sheet isKeyed_nodeAttributes isKeyed_edgeAttributes
    have back := Sheet.readsAs_write_iff keyed short
    unfold ModuleGraph.toSheet at back
    rw [List.map_map, List.map_map] at back
    exact back
  · intro t short
    have keyed : t.toSheet.IsKeyed := isKeyed_sheet isKeyed_callNode isKeyed_callEdge
    have back := Sheet.readsAs_write_iff keyed short
    unfold CallTree.toSheet at back
    rw [List.map_map, List.map_map, show tableOf ∘ CallNode.attributes = CallNode.table from
      funext tableOf_callNode] at back
    exact back

/-- A module whose path has blanks around it, a quote and a backslash before its end, and calls
itself. -/
def awkwardGraph : ModuleGraph :=
  { nodes := [⟨1, { path := " [\"a\\ ", qualifier := "a", uri := "u", functionCount := -2 }⟩]
    edges := [⟨1, 1, "\\\"", 3⟩] }

/-- A call node whose path has a line separator in it. -/
def brokenTree : CallTree :=
  { nodes := [⟨1, "/a\u2028b", "f#0", "a", 0, none, false, 0, some 7, none, none⟩] }

/-- The awkward graph is read back, the broken tree is not. -/
theorem awkwardGraph_readsAs :
    awkwardGraph.toSheet.Each Cell.IsShort ∧ brokenTree.toSheet.Each Cell.IsShort ∧
      ReadsAs awkwardGraph.toSheet.write (awkwardGraph.nodes.map ModuleNode.table)
        (awkwardGraph.edges.map ModuleEdge.table) ∧
      ¬ ReadsAs brokenTree.toSheet.write (brokenTree.nodes.map CallNode.table)
        (brokenTree.edges.map CallTree.edgeTable) := by
  have short : awkwardGraph.toSheet.Each Cell.IsShort := by decide +kernel
  have shortTree : brokenTree.toSheet.Each Cell.IsShort := by decide +kernel
  refine ⟨short, shortTree, (graph_readsAs_iff.1 awkwardGraph short).2 (by decide +kernel), ?_⟩
  rw [graph_readsAs_iff.2.1 brokenTree shortTree]
  decide +kernel

end Gml
end CallAtlas
