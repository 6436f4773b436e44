import CallAtlas.Proofs.Registry.Merging

/-!
# Functions against the longest

The length that functions are compared with is computed before anything is registered, from the
modules that the registry is going to take and from the first declarations in them. The registry
decides for itself what it refuses. That both leave out the same functions is
`mem_allFunctions_merge`: the functions registered are the first declarations of the modules taken.
So the length is that of the longest function registered, and not that of one which was refused
(`merge_measured`).
-/

namespace CallAtlas

/-! ## First members -/

/-- Where names are distinct, each member is the first of its name. -/
theorem mem_iff_find?_of_nodup {α β : Type} [DecidableEq β] {name : α → β} {xs : List α}
    (nodup : (xs.map name).Nodup) (x : α) : x ∈ xs ↔ xs.find? (name · = name x) = some x := by
  constructor
  · intro member
    cases found : xs.find? (name · = name x) with
    | none => exact absurd (decide_eq_true rfl) (List.find?_eq_none.1 found x member)
    | some y =>
      have named := List.find?_some found
      have listed := List.mem_of_find?_eq_some found
      rw [List.inj_on_of_nodup_map nodup listed member (of_decide_eq_true named)]
  · exact List.mem_of_find?_eq_some

namespace ParsedModule

/-- The function of a name that is kept is the first one. -/
theorem find?_foldl_keepFirst (held fs : List FunctionDecl) (name : String) :
    (fs.foldl keepFirst held).find? (·.qualifiedName = name) =
      (held ++ fs).find? (·.qualifiedName = name) := by
  induction fs generalizing held with
  | nil => rw [List.append_nil, List.foldl_nil]
  | cons f fs ih =>
    rw [List.foldl_cons, ih]
    by_cases again : f.qualifiedName ∈ held.map FunctionDecl.qualifiedName
    · rw [keepFirst_of_held again, List.find?_append, List.find?_append, List.find?_cons]
      by_cases own : f.qualifiedName = name
      · -- An earlier function of that name is found, so the later ones do not matter.
        rcases List.mem_map.1 again with ⟨g, member, same⟩
        have isSome : (held.find? (·.qualifiedName = name)).isSome = true := by
          rw [List.find?_isSome]
          exact ⟨g, member, decide_eq_true (same.trans own)⟩
        rcases Option.isSome_iff_exists.1 isSome with ⟨g, found⟩
        rw [found, Option.some_or, Option.some_or]
      · rw [decide_eq_false own]
    · rw [keepFirst_of_fresh again, List.append_assoc, List.singleton_append]

theorem mem_firstDeclarations (m : ParsedModule) (f : FunctionDecl) :
    f ∈ m.firstDeclarations ↔
      m.functions.find? (·.qualifiedName = f.qualifiedName) = some f := by
  refine (mem_iff_find?_of_nodup m.nodup_registered f).trans ?_
  exact Eq.congr_left (find?_foldl_keepFirst [] m.functions f.qualifiedName)

end ParsedModule

namespace Registry

/-- The modules taken are the first ones of their paths. -/
theorem mem_kept (scheme : VendorScheme) (ms : List ParsedModule) (m : ParsedModule) :
    m ∈ kept scheme ms ↔
      m.path ≠ scheme.externalPath ∧ ms.find? (·.path = m.path) = some m := by
  have known : ({ scheme := scheme } : Registry).knows m.path = true ↔
      m.path = scheme.externalPath := by
    exact beq_iff_eq
  rw [mem_iff_find?_of_nodup (nodup_paths_kept scheme ms)]
  change (taken { scheme := scheme } ms).find? _ = _ ↔ _
  rw [find?_taken]
  by_cases outside : m.path = scheme.externalPath
  · rw [if_pos (known.2 outside)]
    exact iff_of_false nofun fun own => own.1 outside
  · rw [if_neg (mt known.1 outside)]
    exact (and_iff_right outside).symm

/-! ## The longest function -/

section Longest

variable {ms : List ParsedModule} {m : ParsedModule} {f : FunctionDecl}

theorem loc_le_longestLoc (listed : m ∈ ms) (declared : f ∈ m.firstDeclarations) :
    f.loc ≤ longestLoc ms := by
  have member : f.loc ∈ (ms.flatMap ParsedModule.firstDeclarations).map FunctionDecl.loc :=
    List.mem_map.2 ⟨f, List.mem_flatMap.2 ⟨m, listed, declared⟩, rfl⟩
  unfold longestLoc
  cases longest : ((ms.flatMap ParsedModule.firstDeclarations).map FunctionDecl.loc).max? with
  | none =>
    rw [List.max?_eq_none_iff.1 longest] at member
    cases member
  | some loc => exact (List.max?_eq_some_iff.1 longest).2 f.loc member

/-- Some function has the length in question, unless there is none at all. -/
theorem exists_loc_eq_longestLoc (listed : m ∈ ms) (declared : f ∈ m.firstDeclarations) :
    ∃ m ∈ ms, ∃ f ∈ m.firstDeclarations, f.loc = longestLoc ms := by
  have member : f.loc ∈ (ms.flatMap ParsedModule.firstDeclarations).map FunctionDecl.loc :=
    List.mem_map.2 ⟨f, List.mem_flatMap.2 ⟨m, listed, declared⟩, rfl⟩
  unfold longestLoc
  cases longest : ((ms.flatMap ParsedModule.firstDeclarations).map FunctionDecl.loc).max? with
  | none =>
    rw [List.max?_eq_none_iff.1 longest] at member
    cases member
  | some loc =>
    rcases List.mem_map.1 (List.max?_eq_some_iff.1 longest).1 with ⟨g, among, same⟩
    rcases List.mem_flatMap.1 among with ⟨n, listed, declared⟩
    exact ⟨n, listed, g, declared, same⟩

end Longest

/-! ## What is registered -/

theorem allFunctions_ofRegistered (scheme : VendorScheme) (longest : Int) {ms : List ParsedModule}
    (paths : (ms.map ParsedModule.path).Nodup) :
    (ofRegistered scheme longest ms).allFunctions =
      (ms.map ParsedModule.registered).flatMap (ParsedModule.functionEntries longest) := by
  have distinct : ((ms.map ParsedModule.registered).map ParsedModule.path).Nodup := by
    rw [List.map_map]
    exact paths
  apply Table.flatMap_values_fileAll distinct
  · intro m _ f
    exact ParsedModule.owner_of_mem_functionEntries
  · intro m member
    rcases List.mem_map.1 member with ⟨m, -, rfl⟩
    rw [ParsedModule.map_qualifiedName_functionEntries]
    exact m.nodup_registered

/-- The functions that a merge registers are the first declarations of the modules taken. -/
theorem mem_allFunctions_merge {scheme : VendorScheme} {ms : List ParsedModule}
    {f : FunctionEntry} :
    f ∈ (merge { scheme := scheme } ms).value.allFunctions ↔
      ∃ m ∈ kept scheme ms, ∃ d ∈ m.firstDeclarations,
        f = d.entry m.path (longestLoc (kept scheme ms)) := by
  rw [value_merge_eq_ofRegistered,
    allFunctions_ofRegistered _ _ (nodup_paths_kept scheme ms), List.flatMap_map, List.mem_flatMap]
  constructor
  · rintro ⟨m, taken, member⟩
    rcases List.mem_map.1 member with ⟨d, declared, rfl⟩
    exact ⟨m, taken, d, declared, rfl⟩
  · rintro ⟨m, taken, d, declared, rfl⟩
    exact ⟨m, taken, List.mem_map.2 ⟨d, declared, rfl⟩⟩

/-! ## Lengths -/

/-- A registry has the functions of some modules, and compares them with the longest it has. -/
structure MeasuredBy (r : Registry) (ms : List ParsedModule) (longest : Int) : Prop where
  /-- Of each path the first module is registered, and of it the first function of each name and
  arity; the path of the external node is left out. -/
  registered : ∀ f, f ∈ r.allFunctions ↔
    ∃ m d, (m.path ≠ r.scheme.externalPath ∧ ms.find? (·.path = m.path) = some m) ∧
      m.functions.find? (·.qualifiedName = d.qualifiedName) = some d ∧ f = d.entry m.path longest
  /-- A function and what it is shorter by make up the length of the longest. -/
  sum : ∀ f ∈ r.allFunctions, ∃ loc inverted, f.loc = some loc ∧ f.invertedLoc = some inverted ∧
    loc + inverted = longest ∧ loc ≤ longest ∧ 0 ≤ inverted
  /-- If there are functions, one of them is that long. -/
  reached : r.allFunctions ≠ [] →
    ∃ f ∈ r.allFunctions, f.loc = some longest ∧ f.invertedLoc = some 0

/-- After a merge, whatever came twice, functions are compared with the longest that is
registered. -/
theorem merge_measured (scheme : VendorScheme) (ms : List ParsedModule) :
    (merge { scheme := scheme } ms).value.MeasuredBy ms (longestLoc (kept scheme ms)) := by
  constructor
  case registered =>
    intro f
    rw [mem_allFunctions_merge, scheme_merge]
    constructor
    · rintro ⟨m, taken, d, declared, rfl⟩
      exact ⟨m, d, (mem_kept scheme ms m).1 taken, (m.mem_firstDeclarations d).1 declared, rfl⟩
    · rintro ⟨m, d, taken, declared, rfl⟩
      exact ⟨m, (mem_kept scheme ms m).2 taken, d, (m.mem_firstDeclarations d).2 declared, rfl⟩
  case sum =>
    intro f member
    rcases mem_allFunctions_merge.1 member with ⟨m, taken, d, declared, rfl⟩
    have bounded := loc_le_longestLoc taken declared
    exact ⟨d.loc, longestLoc (kept scheme ms) - d.loc, rfl, rfl, by omega, bounded, by omega⟩
  case reached =>
    intro some
    rcases List.exists_mem_of_ne_nil _ some with ⟨f, member⟩
    rcases mem_allFunctions_merge.1 member with ⟨m, taken, d, declared, rfl⟩
    rcases exists_loc_eq_longestLoc taken declared with ⟨n, taken, g, declared, long⟩
    refine ⟨_, mem_allFunctions_merge.2 ⟨n, taken, g, declared, rfl⟩, ?_, ?_⟩
    · exact congrArg Option.some long
    · change Option.some (longestLoc (kept scheme ms) - g.loc) = Option.some 0
      rw [long, Int.sub_self]

-- The longest functions are refused: one comes second in its module, one is in a second module.
example :
    let lines (name : String) (last : Nat) : FunctionDecl :=
      { name := name, qualifier := "a", line := 1, lineEnd := last, signature := "", body := "" }
    let read (functions : List FunctionDecl) : ParsedModule :=
      ⟨"/a.xqy", ⟨"a", "urn:a", false⟩, ⟨[]⟩, functions, 9⟩
    (merge {} [read [lines "f" 3, lines "f" 9, lines "g" 4], read [lines "h" 8]]
        ).value.allFunctions.map (fun f => (f.qualifiedName, f.loc, f.invertedLoc)) =
      [("f#0", some 3, some 1), ("g#0", some 4, some 0)] := by
  rfl

end Registry
end CallAtlas
