import CallAtlas.Proofs.Registry.Additions
import CallAtlas.Registry.Resolve

/-!
# Indices by qualifier and URI

A registry leads from a qualifier or a URI to the path of the module that declared it last. A module
that comes again at its path takes the place of the earlier one, but what the indices hold of the
earlier one stays: a qualifier that no module declares any more still leads to the path
(`replaced_misleads`).

`ofAdditions_describes_iff` says exactly when the indices describe the modules that are registered:
whenever a module is replaced, its qualifier and its URI have to be declared again by a later
module, at whatever path.
-/

namespace CallAtlas

/-- The last member of a list with some property is followed by none with it. -/
theorem find?_reverse_eq_some_iff {α : Type} {p : α → Bool} {xs : List α} {x : α} :
    xs.reverse.find? p = some x ↔
      p x = true ∧ ∃ before after, xs = before ++ x :: after ∧ ∀ y ∈ after, p y = false := by
  rw [List.find?_eq_some_iff_append]
  refine and_congr_right fun _ => ?_
  constructor
  · rintro ⟨later, earlier, split, none⟩
    refine ⟨earlier.reverse, later.reverse, ?_, ?_⟩
    · have whole := congrArg List.reverse split
      rwa [List.reverse_reverse, List.reverse_append, List.reverse_cons, List.append_assoc,
        List.singleton_append] at whole
    · intro y member
      simpa using none y (List.mem_reverse.1 member)
  · rintro ⟨before, after, rfl, none⟩
    refine ⟨after.reverse, before.reverse, ?_, ?_⟩
    · rw [List.reverse_append, List.reverse_cons, List.append_assoc, List.singleton_append]
    · intro y member
      simpa using none y (List.mem_reverse.1 member)

namespace Registry

/-! ## Tables of modules -/

/-- Modules by path. -/
def moduleTable (modules : List ModuleEntry) : Table String ModuleEntry :=
  modules.foldl (fun table m => table.put m.path m) .empty

/-- Paths of modules by what they are named for, empty names left out. -/
def nameTable (name : ModuleEntry → String) (modules : List ModuleEntry) : Table String String :=
  modules.foldl (fun index m => indexed index (name m) m.path) .empty

/-- The module at a path is the last one that was put there. -/
theorem get?_moduleTable (modules : List ModuleEntry) (path : String) :
    (moduleTable modules).get? path = modules.reverse.find? (·.path = path) := by
  refine (Table.get?_foldl_put ModuleEntry.path id .empty modules path).trans ?_
  rw [Table.get?_empty, Option.or_none, Option.map_id]
  rfl

/-- A name leads to the last module that declared it. -/
theorem get?_nameTable (name : ModuleEntry → String) (modules : List ModuleEntry) (key : String) :
    (nameTable name modules).get? key =
      (modules.reverse.find? fun m => name m ≠ "" ∧ name m = key).map ModuleEntry.path := by
  have puts : nameTable name modules = (modules.filter fun m => name m ≠ "").foldl
      (fun index m => index.put (name m) m.path) .empty := by
    rw [List.foldl_filter]
    unfold nameTable indexed
    congr
    funext index m
    by_cases empty : name m = ""
    · simp [empty]
    · simp [empty]
  rw [puts, Table.get?_foldl_put, Table.get?_empty, Option.or_none, ← List.filter_reverse,
    List.find?_filter]
  simp only [Bool.decide_and, Bool.decide_eq_true]

/-- The tables of modules after additions are those of the modules that were added. -/
theorem tables_ofAdditions (scheme : VendorScheme) (additions : List Addition) :
    let r := ofAdditions scheme additions
    let modules := additions.filterMap Addition.module?
    r.modules = moduleTable modules ∧ r.pathsByQualifier = nameTable ModuleEntry.qualifier modules ∧
      r.pathsByUri = nameTable ModuleEntry.uri modules := by
  induction additions using List.reverseRecOn with
  | nil => exact ⟨rfl, rfl, rfl⟩
  | append_singleton additions a ih =>
    obtain ⟨modules, qualifiers, uris⟩ := ih
    dsimp only
    rw [ofAdditions_concat, List.filterMap_append]
    cases a with
    | ofModule m =>
      rw [add, value_addModule, modules, qualifiers, uris]
      unfold moduleTable nameTable
      simp only [Addition.module?, List.filterMap_cons, List.filterMap_nil, List.foldl_append,
        List.foldl_cons, List.foldl_nil, and_self]
    | ofImport i =>
      simp only [Addition.module?, List.filterMap_cons, List.filterMap_nil, List.append_nil]
      exact ⟨modules, qualifiers, uris⟩
    | ofFunction f =>
      simp only [Addition.module?, List.filterMap_cons, List.filterMap_nil, List.append_nil]
      rw [add, addFunction_frame]
      exact ⟨modules, qualifiers, uris⟩
    | ofCall c =>
      simp only [Addition.module?, List.filterMap_cons, List.filterMap_nil, List.append_nil]
      exact ⟨modules, qualifiers, uris⟩

/-! ## Replaced modules -/

/-- What a module is named for is declared again whenever the module is replaced. -/
def Redeclared (name : ModuleEntry → String) (modules : List ModuleEntry) : Prop :=
  ∀ before m after, modules = before ++ m :: after → name m ≠ "" →
    m.path ∈ after.map ModuleEntry.path → name m ∈ after.map name

/-- Every name leads to a module that declares it. -/
def Leads (name : ModuleEntry → String) (index : Table String String)
    (modules : Table String ModuleEntry) : Prop :=
  ∀ key path, index.get? key = some path → ∃ m, modules.get? path = some m ∧ name m = key

theorem leads_iff_redeclared (name : ModuleEntry → String) (modules : List ModuleEntry) :
    Leads name (nameTable name modules) (moduleTable modules) ↔ Redeclared name modules := by
  constructor
  · rintro leads before m after rfl named again
    -- If nothing later declared the name, it would lead to the path of the module replaced here.
    by_contra last
    have index : (nameTable name (before ++ m :: after)).get? (name m) = some m.path := by
      rw [get?_nameTable, Option.map_eq_some_iff]
      refine ⟨m, find?_reverse_eq_some_iff.2 ⟨?_, before, after, rfl, ?_⟩, rfl⟩
      · exact decide_eq_true ⟨named, rfl⟩
      · intro other later
        rw [decide_eq_false_iff_not]
        rintro ⟨-, same⟩
        exact last (List.mem_map.2 ⟨other, later, same⟩)
    obtain ⟨held, found, declares⟩ := leads _ _ index
    obtain ⟨other, later, same⟩ := List.mem_map.1 again
    -- The path was taken over by a later module, so the one found there is later, too.
    have taken : (after.reverse.find? fun x => x.path = m.path).isSome = true :=
      List.find?_isSome.2 ⟨other, List.mem_reverse.2 later, decide_eq_true same⟩
    obtain ⟨next, isNext⟩ := Option.isSome_iff_exists.1 taken
    rw [get?_moduleTable, List.reverse_append, List.reverse_cons, List.append_assoc,
      List.find?_append, isNext, Option.some_or, Option.some.injEq] at found
    subst found
    exact last (List.mem_map.2
      ⟨next, List.mem_reverse.1 (List.mem_of_find?_eq_some isNext), declares⟩)
  · intro redeclared key path found
    rw [get?_nameTable, Option.map_eq_some_iff] at found
    obtain ⟨m, last, rfl⟩ := found
    rw [find?_reverse_eq_some_iff, decide_eq_true_eq] at last
    obtain ⟨⟨named, rfl⟩, before, after, split, later⟩ := last
    refine ⟨m, ?_, rfl⟩
    rw [get?_moduleTable]
    refine find?_reverse_eq_some_iff.2 ⟨decide_eq_true rfl, before, after, split, ?_⟩
    intro other member
    rw [decide_eq_false_iff_not]
    intro same
    obtain ⟨again, listed, declares⟩ := List.mem_map.1
      (redeclared before m after split named (List.mem_map.2 ⟨other, member, same⟩))
    have none := later again listed
    rw [decide_eq_false_iff_not] at none
    exact none ⟨declares ▸ named, declares⟩

/-- The indices by qualifier and by URI lead to registered modules that declare them. -/
structure Describes (r : Registry) : Prop where
  qualifiers : ∀ qualifier path, r.pathOfQualifier? qualifier = some path →
    ∃ m, r.modules.get? path = some m ∧ m.qualifier = qualifier
  uris : ∀ uri path, r.pathOfUri? uri = some path →
    ∃ m, r.modules.get? path = some m ∧ m.uri = uri

/-- **When indices describe the registered modules.** They do after exactly those additions where
the qualifier and the URI of every replaced module are declared again later. -/
theorem ofAdditions_describes_iff (scheme : VendorScheme) (additions : List Addition) :
    (ofAdditions scheme additions).Describes ↔
      Redeclared ModuleEntry.qualifier (additions.filterMap Addition.module?) ∧
        Redeclared ModuleEntry.uri (additions.filterMap Addition.module?) := by
  obtain ⟨modules, qualifiers, uris⟩ := tables_ofAdditions scheme additions
  rw [← leads_iff_redeclared, ← leads_iff_redeclared, ← modules, ← qualifiers, ← uris]
  constructor
  · intro describes
    exact ⟨describes.qualifiers, describes.uris⟩
  · rintro ⟨leadsQualifiers, leadsUris⟩
    exact ⟨leadsQualifiers, leadsUris⟩

/-- A registry where a module is replaced by one of another qualifier and URI. -/
def replaced : Registry :=
  ofAdditions {}
    [.ofModule { path := "/a.xqy", qualifier := "old", uri := "urn:old" },
      .ofModule { path := "/a.xqy", qualifier := "new", uri := "urn:new" }]

/-- The qualifier of the replaced module leads to its path, and calls that use it go there. -/
theorem replaced_misleads : ¬ replaced.Describes ∧
    (replaced.resolveModule "/b.xqy" (some "old")).value = .ok "/a.xqy" := by
  refine ⟨?_, rfl⟩
  intro describes
  obtain ⟨m, held, declares⟩ := describes.qualifiers "old" "/a.xqy" (by decide)
  have registered : replaced.modules.get? "/a.xqy" =
      some { path := "/a.xqy", qualifier := "new", uri := "urn:new" } := by decide
  rw [registered] at held
  cases held
  exact absurd declares (by decide)

end Registry
end CallAtlas
