import CallAtlas.Proofs.Registry.Additions
import CallAtlas.Registry.Resolve

/-!
# Where tokens lead

A token can lead to a module that nobody registered, but only by the location of an import. The
earlier rules and the imports without a location lead to registered modules or to the external node:
they ask the registry, or they read its indices, which hold paths of registered modules only
(`Reachable.anchored`).

`resolveModule_destination` says so of every reachable registry. A token that is left to the imports
and the qualifiers of other modules is one that no earlier rule takes (`Registry.LeftToImports`).
-/

namespace CallAtlas.Registry

/-! ## Indices -/

/-- The indices by qualifier and by URI lead to registered modules. -/
structure Anchored (r : Registry) : Prop where
  qualifiers : ∀ qualifier path, r.pathOfQualifier? qualifier = some path → path ∈ r.modules.keys
  uris : ∀ uri path, r.pathOfUri? uri = some path → path ∈ r.modules.keys

theorem get?_indexed {index : Table String String} {name path key found : String}
    (leads : (indexed index name path).get? key = some found) :
    found = path ∨ index.get? key = some found := by
  unfold indexed at leads
  split at leads
  next => exact Or.inr leads
  next =>
    rw [Table.get?_put] at leads
    split at leads
    next => exact Or.inl (Option.some.inj leads).symm
    next => exact Or.inr leads

/-- A module that is registered keeps the indices on registered modules. -/
theorem Anchored.addModule {r : Registry} (anchored : r.Anchored) (m : ModuleEntry) :
    (r.addModule m).value.Anchored := by
  rw [value_addModule]
  constructor
  · intro qualifier path leads
    rw [Table.mem_keys_put]
    exact (get?_indexed leads).imp_right (anchored.qualifiers qualifier path)
  · intro uri path leads
    rw [Table.mem_keys_put]
    exact (get?_indexed leads).imp_right (anchored.uris uri path)

/-- The indices of every reachable registry lead to registered modules. -/
theorem Reachable.anchored {r : Registry} (reachable : r.Reachable) : r.Anchored := by
  induction reachable with
  | fresh scheme => exact ⟨fun _ _ leads => (nomatch leads), fun _ _ leads => (nomatch leads)⟩
  | addModule m _ ih => exact ih.addModule m
  | addImport i _ ih => exact ⟨ih.qualifiers, ih.uris⟩
  | addFunction f _ ih =>
    rw [addFunction_frame]
    exact ⟨ih.qualifiers, ih.uris⟩
  | addCall c _ ih => exact ⟨ih.qualifiers, ih.uris⟩

theorem knows_of_mem_keys {r : Registry} {path : String} (registered : path ∈ r.modules.keys) :
    r.knows path = true := by
  unfold knows
  rw [(Table.contains_iff_mem_keys _ _).2 registered, Bool.true_or]

theorem knows_external (r : Registry) : r.knows r.external.path = true := by
  unfold knows
  rw [beq_self_eq_true, Bool.or_true]

/-! ## Rules -/

/-- Where a location leads that an import in a module gives. -/
def located (caller location : String) : String :=
  if Location.isRelative location.toList then relativeTo caller location else location

/-- No rule takes a token before the imports of the caller: it is no vendor location, no path, not
the caller's own qualifier and not relative. -/
structure LeftToImports (r : Registry) (caller token : String) : Prop where
  vendor : r.isVendor token = false
  path : r.knows token = false
  own : ∀ m ∈ r.module? caller, m.qualifier ≠ token
  relative : Location.isRelative token.toList = false

/-- An import that gives a location leads there, or to the external node. -/
theorem value_importTarget_of_location (r : Registry) (caller : String) {i : ImportEntry}
    {location : String} (given : i.location = some location) (nonempty : location ≠ "") :
    (r.importTarget caller i).value =
      some (if r.isVendor location then r.external.path else located caller location) := by
  unfold importTarget located
  split
  next none => rw [none] at given; cases given
  next empty => rw [empty] at given; cases given; exact absurd rfl nonempty
  next other _ isLocation =>
    rw [given] at isLocation
    cases isLocation
    split
    next => rfl
    next =>
      split
      next => rfl
      next => split <;> rfl

/-- An import without a location leads to the module of its URI. -/
theorem value_importTarget_of_no_location (r : Registry) (caller : String) {i : ImportEntry}
    (absent : ∀ location ∈ i.location, location = "") :
    (r.importTarget caller i).value = r.pathOfUri? i.uri := by
  unfold importTarget
  split
  next => rfl
  next => rfl
  next location nonempty given => exact absurd (absent location given) nonempty

/-- A token that is left to the imports is led by the caller's import of that name, or else by the
index of all qualifiers. -/
theorem resolveModule_of_left {r : Registry} {caller token : String}
    (left : r.LeftToImports caller token) :
    r.resolveModule caller (some token) = r.resolveQualifier caller token := by
  have own : (r.module? caller).any (·.qualifier == token) = false := by
    rw [Option.any_eq_false]
    exact fun m named => beq_eq_false_iff_ne.2 (left.own m named)
  unfold resolveModule
  dsimp only
  rw [left.vendor, left.path, own, left.relative]
  rfl

/-- The imports come before the qualifiers of all modules. -/
theorem value_resolveQualifier (r : Registry) (caller token : String) :
    (r.resolveQualifier caller token).value =
      ((((r.importsOf caller).get? token).bind fun i => (r.importTarget caller i).value).or
        (r.pathOfQualifier? token)).elim
          (.error (.unresolved caller (some token) AnalysisError.noMatch)) .ok := by
  unfold resolveQualifier
  cases (r.importsOf caller).get? token with
  | none =>
    rw [Option.bind_none, Option.none_or]
    cases r.pathOfQualifier? token with
    | none => rfl
    | some path => rfl
  | some i =>
    dsimp only
    rw [Checked.value_bind_of_ok (Checked.value_lift _), Option.bind_some]
    cases (r.importTarget caller i).value.or (r.pathOfQualifier? token) with
    | none => rfl
    | some path => rfl

theorem resolveQualifier_eq_ok_iff (r : Registry) (caller token target : String) :
    (r.resolveQualifier caller token).value = .ok target ↔
      (((r.importsOf caller).get? token).bind fun i => (r.importTarget caller i).value).or
        (r.pathOfQualifier? token) = some target := by
  rw [value_resolveQualifier]
  cases Option.or _ (r.pathOfQualifier? token) with
  | none => exact iff_of_false (fun led => nomatch led) (fun led => nomatch led)
  | some path => exact (iff_of_eq (Except.ok.injEq ..)).trans Option.some_inj.symm

/-- A token leads to a registered module or to the external node, unless it is left to the
imports. -/
theorem knows_or_left {r : Registry} {caller token target : String} (known : r.knows caller = true)
    (leads : (r.resolveModule caller (some token)).value = .ok target) :
    r.knows target = true ∨ r.LeftToImports caller token := by
  unfold resolveModule at leads
  dsimp only at leads
  split at leads
  next => cases leads; exact Or.inl r.knows_external
  next vendor =>
    split at leads
    next path => cases leads; exact Or.inl path
    next path =>
      split at leads
      next => cases leads; exact Or.inl known
      next own =>
        split at leads
        next =>
          split at leads
          next path' => cases leads; exact Or.inl path'
          next => cases leads
        next relative =>
          rw [Bool.not_eq_true] at vendor path relative
          rw [Bool.not_eq_true, Option.any_eq_false] at own
          exact Or.inr ⟨vendor, path, fun m named => beq_eq_false_iff_ne.1 (own m named), relative⟩

/-! ## Destinations -/

/-- A token that no earlier rule takes stands for an import whose location, which is not one of a
vendor, leads to a target. -/
structure LeadsByLocation (r : Registry) (caller token target : String) : Prop where
  left : r.LeftToImports caller token
  imported : ∃ i location, (r.importsOf caller).get? token = some i ∧
    i.location = some location ∧ location ≠ "" ∧ r.isVendor location = false ∧
    target = located caller location

/-- What the imports and the qualifiers lead to is registered, unless a location leads there. -/
theorem Anchored.knows_or_leadsByLocation {r : Registry} (anchored : r.Anchored)
    {caller token target : String} (left : r.LeftToImports caller token)
    (leads : (r.resolveQualifier caller token).value = .ok target) :
    r.knows target = true ∨ r.LeadsByLocation caller token target := by
  rw [resolveQualifier_eq_ok_iff, Option.or_eq_some_iff, Option.bind_eq_some_iff] at leads
  rcases leads with ⟨i, imported, leads⟩ | ⟨-, leads⟩
  · by_cases given : ∃ location, i.location = some location ∧ location ≠ ""
    · obtain ⟨location, given, nonempty⟩ := given
      rw [value_importTarget_of_location r caller given nonempty, Option.some_inj] at leads
      subst leads
      cases vendor : r.isVendor location with
      | true => exact Or.inl r.knows_external
      | false => exact Or.inr ⟨left, i, location, imported, given, nonempty, vendor, rfl⟩
    · have absent : ∀ location ∈ i.location, location = "" := by
        intro location isLocation
        by_contra nonempty
        exact given ⟨location, isLocation, nonempty⟩
      rw [value_importTarget_of_no_location r caller absent] at leads
      exact Or.inl (knows_of_mem_keys (anchored.uris _ _ leads))
  · exact Or.inl (knows_of_mem_keys (anchored.qualifiers _ _ leads))

theorem LeadsByLocation.value_resolveModule {r : Registry} {caller token target : String}
    (leads : r.LeadsByLocation caller token target) :
    (r.resolveModule caller (some token)).value = .ok target := by
  obtain ⟨left, i, location, imported, given, nonempty, vendor, rfl⟩ := leads
  rw [resolveModule_of_left left, resolveQualifier_eq_ok_iff, imported, Option.bind_some,
    value_importTarget_of_location r caller given nonempty, vendor]
  rfl

/-- **Only the location of an import leads to a module that is not registered.** What a token leads
to is registered or the external node, unless no earlier rule takes the token and the caller imports
it from a location, not one of a vendor, that leads there; and then the token does lead there. -/
theorem resolveModule_destination {r : Registry} (reachable : r.Reachable) {caller : String}
    (known : r.knows caller = true) (token : Option String) (target : String) :
    ((r.resolveModule caller token).value = .ok target →
      r.knows target = true ∨ ∃ name ∈ token, r.LeadsByLocation caller name target) ∧
    ∀ name ∈ token, r.LeadsByLocation caller name target →
      (r.resolveModule caller token).value = .ok target := by
  cases token with
  | none =>
    refine ⟨?_, fun name named => (nomatch named)⟩
    intro leads
    cases leads
    exact Or.inl known
  | some name =>
    constructor
    · intro leads
      rcases knows_or_left known leads with registered | left
      · exact Or.inl registered
      · rw [resolveModule_of_left left] at leads
        exact (reachable.anchored.knows_or_leadsByLocation left leads).imp_right
          fun byLocation => ⟨name, rfl, byLocation⟩
    · intro name' named leads
      cases named
      exact leads.value_resolveModule

/-- A module that imports another one, which nobody registers. -/
def astray : Registry :=
  ofAdditions {}
    [.ofModule { path := "/lib/a.xqy", qualifier := "a", uri := "urn:a" },
      .ofImport
        { owner := "/lib/a.xqy", qualifier := "x", uri := "urn:x", location := some "../x.xqy" }]

/-- The qualifier of the import leads to its location, read in the directory of the module. -/
theorem astray_destination :
    astray.knows "/lib/a.xqy" = true ∧
      (astray.resolveModule "/lib/a.xqy" (some "x")).value = .ok "/x.xqy" ∧
      astray.knows "/x.xqy" = false ∧ astray.LeadsByLocation "/lib/a.xqy" "x" "/x.xqy" := by
  have known : astray.knows "/lib/a.xqy" = true := by decide
  have leads : (astray.resolveModule "/lib/a.xqy" (some "x")).value = .ok "/x.xqy" := by rfl
  have stranger : astray.knows "/x.xqy" = false := by decide
  have reachable : astray.Reachable := reachable_ofAdditions _ _
  rcases (resolveModule_destination reachable known (some "x") "/x.xqy").1 leads with
    registered | ⟨name, named, byLocation⟩
  · rw [stranger] at registered
    cases registered
  · cases named
    exact ⟨known, leads, stranger, byLocation⟩

end CallAtlas.Registry
