import CallAtlas.Proofs.Registry.Destinations
import CallAtlas.Proofs.Registry.Overloads

/-!
# Imports of vendor libraries

One external node stands for all vendor libraries. An import leads there if its location is that of
a vendor as it is written. A location that becomes one only when it is read in the directory of the
caller, such as `../MarkLogic/admin.xqy`, leads to the file in the library instead: the test for
vendors comes before the reading (`value_importTarget_of_location`).

`vendorImport_collapses_iff` says for which of the imports that mean a vendor the library collapses,
and where all calls by the others go.
-/

namespace CallAtlas.Registry

/-- A token that no earlier rule takes stands for an import whose location, once it is read in the
directory of the caller, is that of a vendor. -/
structure ImportsVendor (r : Registry) (caller token location : String) : Prop where
  left : r.LeftToImports caller token
  imported : ∃ i, (r.importsOf caller).get? token = some i ∧ i.location = some location
  vendor : r.isVendor (located caller location) = true

/-- No edge of a call leaves the module that the call leads to. -/
theorem path_of_mem_edgesInto {r : Registry} {path : String} {c : CallEntry} {e : Edge}
    (member : e ∈ r.edgesInto path c) : e.target.path = path := by
  unfold edgesInto at member
  split at member
  next =>
    rw [List.mem_singleton.1 member]
  next =>
    obtain ⟨f, -, rfl⟩ := List.mem_map.1 member
    rfl

namespace ImportsVendor

variable {r : Registry} {caller token location : String}
  (imports : r.ImportsVendor caller token location)
include imports

/-- The location of a vendor is not empty, and neither is one that is read as such. -/
theorem location_ne_empty : location ≠ "" := by
  rintro rfl
  have vendor := imports.vendor
  simp [located, Location.isRelative, isVendor, VendorScheme.covers] at vendor

/-- An import that means a vendor collapses if it is written so, and is followed otherwise. -/
theorem value_resolveModule : (r.resolveModule caller (some token)).value =
    .ok (if r.isVendor location then r.external.path else located caller location) := by
  obtain ⟨i, imported, given⟩ := imports.imported
  rw [resolveModule_of_left imports.left, resolveQualifier_eq_ok_iff, imported, Option.bind_some,
    value_importTarget_of_location r caller given imports.location_ne_empty, Option.some_or]

/-- A location that is not relative is read as it is written. -/
theorem isVendor_of_not_relative (absolute : Location.isRelative location.toList = false) :
    r.isVendor location = true := by
  have vendor := imports.vendor
  rwa [located, if_neg (by simp [absolute])] at vendor

end ImportsVendor

/-- **A vendor import collapses where it is written as one.** Of the imports that mean a vendor, all
those with a location that is not relative lead to the external node. A relative one does so only
if it is the location of a vendor even before it is read in the directory of the caller, or if it
comes out as the path of the external node itself. Every call by the import has an edge, and all its
edges go where the import leads: by a relative location to a module of the vendor, as a target of
its own. -/
theorem vendorImport_collapses_iff {r : Registry} {caller token location : String}
    (imports : r.ImportsVendor caller token location) :
    ((r.resolveModule caller (some token)).value = .ok r.external.path ↔
      Location.isRelative location.toList = false ∨ r.isVendor location = true ∨
        located caller location = r.external.path) ∧
    ∀ c : CallEntry, c.owner = caller → c.token = some token →
      (r.resolve c).value ≠ [] ∧ ∀ e ∈ (r.resolve c).value, e.target.path =
        if r.isVendor location then r.external.path else located caller location := by
  have leads := imports.value_resolveModule
  constructor
  · rw [leads, Except.ok.injEq]
    cases written : r.isVendor location with
    | true => simp
    | false =>
      have relative : Location.isRelative location.toList ≠ false := by
        intro absolute
        rw [imports.isVendor_of_not_relative absolute] at written
        cases written
      simp [relative]
  · rintro c rfl isToken
    rw [value_resolve, isToken, leads]
    exact ⟨r.edgesInto_ne_nil _ c, fun e member => path_of_mem_edgesInto member⟩

/-- A module that imports a library of a vendor twice, once by a path and once from its own
directory. -/
def vendorImporter : Registry :=
  ofAdditions {}
    [.ofModule { path := "/app/a.xqy", qualifier := "a", uri := "urn:a" },
      .ofImport
        { owner := "/app/a.xqy", qualifier := "adm", uri := "urn:adm",
          location := some "/MarkLogic/admin.xqy" },
      .ofImport
        { owner := "/app/a.xqy", qualifier := "up", uri := "urn:adm",
          location := some "../MarkLogic/admin.xqy" }]

theorem vendorImporter_left {token : String} (other : token ∈ ["adm", "up"]) :
    vendorImporter.LeftToImports "/app/a.xqy" token := by
  have each : ∀ token ∈ ["adm", "up"], vendorImporter.isVendor token = false ∧
      vendorImporter.knows token = false ∧
      (∀ m ∈ vendorImporter.module? "/app/a.xqy", m.qualifier ≠ token) ∧
      Location.isRelative token.toList = false := by
    decide
  obtain ⟨vendor, path, own, relative⟩ := each token other
  exact ⟨vendor, path, own, relative⟩

/-- The import by a path leads to the external node. -/
theorem vendorImporter_collapses :
    vendorImporter.ImportsVendor "/app/a.xqy" "adm" "/MarkLogic/admin.xqy" ∧
      (vendorImporter.resolveModule "/app/a.xqy" (some "adm")).value = .ok "MarkLogic-Library" := by
  have imports : vendorImporter.ImportsVendor "/app/a.xqy" "adm" "/MarkLogic/admin.xqy" :=
    ⟨vendorImporter_left (by decide), ⟨_, rfl, rfl⟩, by decide⟩
  exact ⟨imports, (vendorImport_collapses_iff imports).1.2 (Or.inl (by decide))⟩

/-- The same library, imported from the directory of the module, does not. -/
theorem vendorImporter_strays :
    vendorImporter.ImportsVendor "/app/a.xqy" "up" "../MarkLogic/admin.xqy" ∧
      (vendorImporter.resolveModule "/app/a.xqy" (some "up")).value ≠
        .ok vendorImporter.external.path := by
  refine ⟨⟨vendorImporter_left (by decide), ⟨_, rfl, rfl⟩, by decide⟩, ?_⟩
  intro collapses
  have strays : (vendorImporter.resolveModule "/app/a.xqy" (some "up")).value =
      .ok "/MarkLogic/admin.xqy" := by rfl
  rw [strays, Except.ok.injEq] at collapses
  exact absurd collapses (by decide)

end CallAtlas.Registry
