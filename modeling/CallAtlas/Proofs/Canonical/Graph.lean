import CallAtlas.Proofs.Canonical.Reading
import CallAtlas.Proofs.Registry.Assembly
import CallAtlas.Proofs.Registry.Destinations
import CallAtlas.Proofs.Registry.Edges

/-!
# The module graph of canonical modules

A qualifier in a canonical module stands for the module itself or for one that it imports, and the
rules of resolution find that module: a qualifier is no path, no vendor location and no relative
path. So each call of a tree takes the route from its module to the one that its qualifier stands
for, and the graph counts the calls by route.
-/

namespace CallAtlas.Canonical

open Source

/-! ## Qualifiers -/

/-- A qualifier does not start with a slash or a point. -/
theorem head?_of_isQualifier {s : List Char} (qualifier : isQualifier s = true) :
    ∃ c, s.head? = some c ∧ c ≠ '/' ∧ c ≠ '.' := by
  cases s with
  | nil => cases qualifier
  | cons c s =>
    have start := (Bool.and_eq_true_iff.1 qualifier).1
    refine ⟨c, rfl, ?_, ?_⟩
    · rintro rfl
      cases start
    · rintro rfl
      cases start

theorem isRelative_of_head? {s : List Char} {c : Char} (head : s.head? = some c) (other : c ≠ '.') :
    Location.isRelative s = false := by
  cases s with
  | nil => cases head
  | cons d s =>
    cases head
    have differs : ('.' == c) = false := beq_eq_false_iff_ne.2 other.symm
    unfold Location.isRelative
    simp [List.isPrefixOf, differs]

/-- What a qualifier of a module stands for is the module or one of its imports. -/
theorem Module.target?_of_known {m : Module} {qualifier : String} (known : qualifier ∈ m.known) :
    (qualifier = localQualifier ∧ m.target? qualifier = some m.path) ∨
    (qualifier ≠ localQualifier ∧ qualifier = m.qualifier ∧ m.target? qualifier = some m.path) ∨
    (qualifier ≠ localQualifier ∧ qualifier ≠ m.qualifier ∧ ∃ i ∈ m.imports,
      i.qualifier = qualifier ∧ m.target? qualifier = some i.path) := by
  by_cases isLocal : qualifier = localQualifier
  · exact Or.inl ⟨isLocal, if_pos (Or.inr isLocal)⟩
  by_cases isOwn : qualifier = m.qualifier
  · exact Or.inr (Or.inl ⟨isLocal, isOwn, if_pos (Or.inl isOwn)⟩)
  · refine Or.inr (Or.inr ⟨isLocal, isOwn, ?_⟩)
    have imported : qualifier ∈ m.imports.map Import.qualifier := by
      rcases List.mem_cons.1 known with own | later
      · exact absurd own isOwn
      · rcases List.mem_cons.1 later with own | later
        · exact absurd own isLocal
        · exact later
    obtain ⟨i, found⟩ : ∃ i, m.imports.find? (·.qualifier == qualifier) = some i := by
      obtain ⟨i, listed, same⟩ := List.mem_map.1 imported
      rw [← Option.isSome_iff_exists, List.find?_isSome]
      exact ⟨i, listed, beq_iff_eq.2 same⟩
    have same := List.find?_some found
    refine ⟨i, List.mem_of_find?_eq_some found, eq_of_beq same, ?_⟩
    unfold Module.target?
    rw [if_neg (by rintro (own | own); exacts [isOwn own, isLocal own]), found]
    rfl

theorem Module.Fits.isQualifier_of_known {scheme : VendorScheme} {paths : List String} {m : Module}
    (fits : m.Fits scheme paths) {qualifier : String} (known : qualifier ∈ m.known) :
    isQualifier qualifier.toList = true := by
  rcases List.mem_cons.1 known with rfl | later
  · exact fits.qualifier
  · rcases List.mem_cons.1 later with rfl | later
    · decide
    · obtain ⟨i, imported, rfl⟩ := List.mem_map.1 later
      exact (fits.imports i imported).qualifier

/-! ## The registry of a repository -/

/-- A registry holds the modules of a repository with their imports, and no others. -/
structure Holds (scheme : VendorScheme) (repository : List Module) (r : Registry) : Prop where
  scheme : r.scheme = scheme
  modules : r.modules = ⟨repository.map fun m => (m.path, m.entry)⟩
  imports : ∀ m ∈ repository, r.importsOf m.path = ⟨m.importEntries.map fun i => (i.qualifier, i)⟩
  consistent : r.Consistent

section Resolution

variable {scheme : VendorScheme} {repository : List Module} {r : Registry}
  (fits : Fits scheme repository) (holds : Holds scheme repository r)

include holds in
theorem Holds.knows_iff (path : String) :
    r.knows path = true ↔ path ∈ repository.map Module.path ∨ path = scheme.externalPath := by
  unfold Registry.knows
  rw [Bool.or_eq_true, Table.contains_iff_mem_keys, beq_iff_eq, holds.modules]
  unfold Registry.external Table.keys
  rw [holds.scheme, List.map_map]
  rfl

include fits in
theorem Fits.path_ne_external {m : Module} (member : m ∈ repository) :
    m.path ≠ scheme.externalPath := by
  intro same
  exact fits.external (List.mem_map.2 ⟨m, member, same⟩)

include fits holds

theorem Holds.module?_path {m : Module} (member : m ∈ repository) :
    r.module? m.path = some m.entry := by
  have other : ¬m.path = r.external.path := by
    unfold Registry.external
    rw [holds.scheme]
    exact fits.path_ne_external member
  have keys : (⟨repository.map fun m => (m.path, m.entry)⟩ : Table String ModuleEntry).keys =
      repository.map Module.path := by
    unfold Table.keys
    rw [List.map_map]
    rfl
  unfold Registry.module?
  rw [if_neg other, holds.modules]
  refine Table.get?_of_mem_entries ?_ (List.mem_map.2 ⟨m, member, rfl⟩)
  rw [keys]
  exact fits.paths

theorem Holds.get?_importsOf {m : Module} (member : m ∈ repository) {i : Import}
    (imported : i ∈ m.imports) :
    (r.importsOf m.path).get? i.qualifier = some ⟨m.path, i.qualifier, i.uri, some i.path⟩ := by
  have known := (fits.modules m member).known
  have keys : (⟨m.importEntries.map fun i => (i.qualifier, i)⟩ : Table String ImportEntry).keys =
      m.imports.map Import.qualifier := by
    unfold Table.keys Module.importEntries
    rw [List.map_map, List.map_map]
    rfl
  rw [holds.imports m member]
  refine Table.get?_of_mem_entries ?_ ?_
  · rw [keys]
    exact (List.nodup_cons.1 (List.nodup_cons.1 known).2).2
  · refine List.mem_map.2 ⟨⟨m.path, i.qualifier, i.uri, some i.path⟩, ?_, rfl⟩
    exact List.mem_map.2 ⟨i, imported, rfl⟩

/-- The location of an import leads to the imported module. -/
theorem Holds.value_importTarget {m : Module} (member : m ∈ repository) {i : Import}
    (imported : i ∈ m.imports) :
    (r.importTarget m.path ⟨m.path, i.qualifier, i.uri, some i.path⟩).value = some i.path := by
  have target := ((fits.modules m member).imports i imported).target
  obtain ⟨other, listed, same⟩ := List.mem_map.1 target
  have own := (fits.modules other listed).own
  have slash := (fits.modules other listed).path
  rw [same] at own slash
  have nonempty : i.path ≠ "" := by
    intro empty
    rw [empty] at slash
    cases slash
  have vendor : r.isVendor i.path = false := by
    unfold Registry.isVendor
    rw [holds.scheme]
    exact own
  have relative : Location.isRelative i.path.toList = false :=
    isRelative_of_head? slash (by decide)
  rw [r.value_importTarget_of_location m.path rfl nonempty, vendor, if_neg Bool.false_ne_true]
  unfold Registry.located
  rw [relative]
  rfl

theorem Holds.value_resolveQualifier {m : Module} (member : m ∈ repository) {i : Import}
    (imported : i ∈ m.imports) : (r.resolveQualifier m.path i.qualifier).value = .ok i.path := by
  rw [Registry.resolveQualifier_eq_ok_iff, holds.get?_importsOf fits member imported,
    Option.bind_some, holds.value_importTarget fits member imported]
  rfl

/-- A qualifier of a module leads to the module that it stands for. -/
theorem Holds.value_resolveModule {m : Module} (member : m ∈ repository) {c : Call}
    (known : c.qualifier ∈ m.known) :
    ∃ target, m.target? c.qualifier = some target ∧ target ∈ repository.map Module.path ∧
      (r.resolveModule m.path c.token).value = .ok target := by
  have listed : m.path ∈ repository.map Module.path := List.mem_map.2 ⟨m, member, rfl⟩
  have grammar := (fits.modules m member).isQualifier_of_known known
  obtain ⟨first, head, noSlash, noPoint⟩ := head?_of_isQualifier grammar
  have vendor : r.isVendor c.qualifier = false := by
    unfold Registry.isVendor
    rw [holds.scheme]
    exact ((fits.modules m member).apart c.qualifier known).2
  have unknown : r.knows c.qualifier = false := by
    rw [← Bool.not_eq_true, holds.knows_iff]
    rintro (path | external)
    · obtain ⟨other, inside, same⟩ := List.mem_map.1 path
      have slash := (fits.modules other inside).path
      rw [same, head] at slash
      exact noSlash (Option.some.inj slash)
    · exact ((fits.modules m member).apart c.qualifier known).1 external
  have relative := isRelative_of_head? head noPoint
  rcases m.target?_of_known known with ⟨isLocal, target⟩ | ⟨notLocal, isOwn, target⟩ |
    ⟨notLocal, notOwn, i, imported, same, target⟩
  · refine ⟨m.path, target, listed, ?_⟩
    unfold Call.token
    rw [if_pos isLocal]
    rfl
  · refine ⟨m.path, target, listed, ?_⟩
    have own : (r.module? m.path).any (·.qualifier == c.qualifier) = true := by
      rw [holds.module?_path fits member]
      exact beq_iff_eq.2 isOwn.symm
    unfold Call.token Registry.resolveModule
    rw [if_neg notLocal]
    dsimp only
    rw [vendor, unknown, own]
    rfl
  · refine ⟨i.path, target, ((fits.modules m member).imports i imported).target, ?_⟩
    have left : r.LeftToImports m.path c.qualifier := by
      refine ⟨vendor, unknown, ?_, relative⟩
      intro own named
      rw [holds.module?_path fits member] at named
      cases named
      exact Ne.symm notOwn
    unfold Call.token
    rw [if_neg notLocal, Registry.resolveModule_of_left left, ← same]
    exact holds.value_resolveQualifier fits member imported

end Resolution

/-! ## Routes -/

/-- The route of a call in a module. -/
def Module.route (m : Module) (c : Call) : ModuleGraph.Route :=
  ⟨m.path, (m.target? c.qualifier).getD m.path, qualify c.name (some (Int.ofNat c.arity))⟩

/-- The routes of the calls in a repository, in their order. -/
def routes (repository : List Module) : List ModuleGraph.Route :=
  repository.flatMap fun m => m.calls.map m.route

theorem forall₂_mem_right {α β : Type} {R : α → β → Prop} {xs : List α} {ys : List β}
    (related : List.Forall₂ R xs ys) : List.Forall₂ (fun x y => R x y ∧ y ∈ ys) xs ys :=
  List.forall₂_iff_zip.2 ⟨related.length_eq, fun member =>
    ⟨List.forall₂_zip related member, (List.of_mem_zip member).2⟩⟩

section Routes

variable {scheme : VendorScheme} {repository : List Module} {r : Registry}
  (fits : Fits scheme repository) (holds : Holds scheme repository r)

include fits in
theorem Fits.known_of_mem_calls {m : Module} (member : m ∈ repository) {c : Call}
    (called : c ∈ m.calls) : c.qualifier ∈ m.known := by
  obtain ⟨f, listed, inside⟩ := List.mem_flatMap.1 called
  exact ((fits.modules m member).functions f listed).body.known_of_mem_calls c inside

include fits holds

/-- The entry of a call takes the route of the call. -/
theorem Holds.takes {m : Module} (member : m ∈ repository) {c : Call} (called : c ∈ m.calls)
    {entry : CallEntry} (owner : entry.owner = m.path) (token : entry.token = c.token)
    (name : entry.name = c.name) (arity : entry.arity = some (Int.ofNat c.arity)) :
    ModuleGraph.Takes r entry (m.route c) := by
  obtain ⟨target, stands, known, leads⟩ :=
    holds.value_resolveModule fits member (fits.known_of_mem_calls member called)
  have route : m.route c = ⟨m.path, target, entry.called⟩ := by
    unfold Module.route CallEntry.called
    rw [stands, name, arity, Option.getD_some]
  rw [route]
  refine ⟨?_, (holds.knows_iff target).2 (Or.inl known), ?_, owner.symm⟩
  · rw [owner]
    exact (holds.knows_iff m.path).2 (Or.inl (List.mem_map.2 ⟨m, member, rfl⟩))
  · rw [holds.consistent.value_resolve_of_arity arity, owner, token, leads]

theorem Holds.takes_function {m : Module} (member : m ∈ repository) {d : FunctionDecl}
    {f : Definition} (declares : Declares d f) (listed : f ∈ m.functions) :
    List.Forall₂ (ModuleGraph.Takes r) (d.callEntries m.path) (f.body.calls.map m.route) := by
  have same : List.Forall₂ Eq (d.calls.map fun s => (s.qualifier, s.name, s.arity))
      (f.body.calls.map fun c => (c.token, c.name, c.arity)) := by
    rw [List.forall₂_eq_eq_eq]
    exact declares.calls
  rw [List.forall₂_map_left_iff, List.forall₂_map_right_iff] at same
  unfold FunctionDecl.callEntries
  rw [List.forall₂_map_left_iff, List.forall₂_map_right_iff]
  refine (forall₂_mem_right same).imp ?_
  rintro site c ⟨keys, called⟩
  simp only [Prod.mk.injEq] at keys
  refine holds.takes fits member (List.mem_flatMap.2 ⟨f, listed, called⟩) rfl keys.1 keys.2.1 ?_
  rw [keys.2.2]

theorem Holds.takes_module {m : Module} (member : m ∈ repository) {p : ParsedModule}
    (reads : Reads p m) :
    List.Forall₂ (ModuleGraph.Takes r) p.callEntries (m.calls.map m.route) := by
  have path : p.path = m.path := congrArg ModuleEntry.path reads.entry
  unfold ParsedModule.callEntries Module.calls
  rw [List.map_flatMap, path]
  refine List.rel_flatMap (forall₂_mem_right reads.functions) ?_
  rintro d f ⟨declares, listed⟩
  exact holds.takes_function fits member declares listed

/-- The calls of a repository take the routes of its trees. -/
theorem Holds.takes_repository {parsed : List ParsedModule}
    (reads : List.Forall₂ Reads parsed repository) :
    List.Forall₂ (ModuleGraph.Takes r) (parsed.flatMap ParsedModule.callEntries)
      (routes repository) := by
  refine List.rel_flatMap (forall₂_mem_right reads) ?_
  rintro p m ⟨reads, member⟩
  exact holds.takes_module fits member reads

end Routes

/-! ## Counts -/

/-- A route that starts at a module is counted in that module alone. -/
theorem count_routes_of_mem {ms : List Module} (paths : (ms.map Module.path).Nodup) {m : Module}
    (member : m ∈ ms) {route : ModuleGraph.Route} (source : route.source = m.path) :
    (routes ms).count route = (m.calls.map m.route).count route := by
  have home : ∀ {other : Module}, route ∈ other.calls.map other.route → other.path = m.path := by
    intro other inside
    obtain ⟨c, -, same⟩ := List.mem_map.1 inside
    exact (congrArg ModuleGraph.Route.source same).trans source
  unfold routes
  induction ms with
  | nil => cases member
  | cons first ms ih =>
    rw [List.map_cons, List.nodup_cons] at paths
    rw [List.flatMap_cons, List.count_append]
    rcases List.mem_cons.1 member with rfl | later
    · have none : route ∉ ms.flatMap fun m => m.calls.map m.route := by
        intro elsewhere
        obtain ⟨other, listed, inside⟩ := List.mem_flatMap.1 elsewhere
        exact paths.1 (List.mem_map.2 ⟨other, listed, home inside⟩)
      rw [List.count_eq_zero.2 none, Nat.add_zero]
    · have none : route ∉ first.calls.map first.route := by
        intro inside
        exact paths.1 (List.mem_map.2 ⟨m, later, (home inside).symm⟩)
      rw [List.count_eq_zero.2 none, Nat.zero_add, ih paths.2 later]

section Counts

variable {scheme : VendorScheme} {repository : List Module} (fits : Fits scheme repository)
include fits

/-- What a qualifier of a call stands for is a module of the repository. -/
theorem Fits.target?_of_mem_calls {m : Module} (member : m ∈ repository) {c : Call}
    (called : c ∈ m.calls) :
    ∃ target ∈ repository.map Module.path, m.target? c.qualifier = some target := by
  have known := fits.known_of_mem_calls member called
  have listed : m.path ∈ repository.map Module.path := List.mem_map.2 ⟨m, member, rfl⟩
  rcases m.target?_of_known known with ⟨-, target⟩ | ⟨-, -, target⟩ | ⟨-, -, i, imported, -, target⟩
  · exact ⟨m.path, listed, target⟩
  · exact ⟨m.path, listed, target⟩
  · exact ⟨i.path, ((fits.modules m member).imports i imported).target, target⟩

theorem Fits.count_routes {m : Module} (member : m ∈ repository) (target name : String)
    (arity : Nat) :
    (routes repository).count ⟨m.path, target, qualify name (some (Int.ofNat arity))⟩ =
      m.weight target name arity := by
  rw [count_routes_of_mem fits.paths member rfl]
  unfold Module.weight
  rw [List.count, List.countP_map]
  refine List.countP_congr ?_
  intro c called
  obtain ⟨stands, -, resolved⟩ := fits.target?_of_mem_calls member called
  unfold Module.route Function.comp
  dsimp only
  rw [resolved, Option.getD_some, beq_iff_eq, Bool.and_eq_true, Bool.and_eq_true, beq_iff_eq,
    beq_iff_eq, beq_iff_eq, ModuleGraph.Route.mk.injEq]
  constructor
  · rintro ⟨-, rfl, label⟩
    obtain ⟨sameName, sameArity⟩ := qualify_injective label
    exact ⟨⟨rfl, sameName⟩, Int.ofNat.inj sameArity⟩
  · rintro ⟨⟨same, rfl⟩, rfl⟩
    exact ⟨rfl, Option.some.inj same, rfl⟩

theorem Fits.mem_routes {route : ModuleGraph.Route} (member : route ∈ routes repository) :
    ∃ m ∈ repository, ∃ target ∈ repository.map Module.path, ∃ name arity,
      route = ⟨m.path, target, qualify name (some (Int.ofNat arity))⟩ := by
  obtain ⟨m, listed, inside⟩ := List.mem_flatMap.1 member
  obtain ⟨c, called, rfl⟩ := List.mem_map.1 inside
  obtain ⟨target, known, resolved⟩ := fits.target?_of_mem_calls listed called
  refine ⟨m, listed, target, known, c.name, c.arity, ?_⟩
  unfold Module.route
  rw [resolved, Option.getD_some]

/-- A module is an end of a call just if it is an end of a route. -/
theorem Fits.touches_iff (path : String) :
    touches repository path = true ↔
      ∃ route ∈ routes repository, route.source = path ∨ route.target = path := by
  unfold touches routes
  simp only [List.any_eq_true, Bool.or_eq_true, beq_iff_eq, List.mem_flatMap, List.mem_map]
  constructor
  · rintro ⟨m, listed, c, called, ends⟩
    refine ⟨m.route c, ⟨m, listed, c, called, rfl⟩, ends.imp_right ?_⟩
    intro target
    unfold Module.route
    rw [target, Option.getD_some]
  · rintro ⟨_, ⟨m, listed, c, called, rfl⟩, ends⟩
    refine ⟨m, listed, c, called, ends.imp_right ?_⟩
    obtain ⟨target, -, resolved⟩ := fits.target?_of_mem_calls listed called
    unfold Module.route
    rw [resolved, Option.getD_some]
    exact congrArg some

end Counts

/-! ## From texts to the graph -/

theorem exists_left_of_mem {α β : Type} {R : α → β → Prop} {xs : List α} {ys : List β}
    (related : List.Forall₂ R xs ys) {y : β} (member : y ∈ ys) : ∃ x ∈ xs, R x y := by
  induction related with
  | nil => cases member
  | @cons x y' xs ys first _ ih =>
    rcases List.mem_cons.1 member with rfl | later
    · exact ⟨x, List.mem_cons_self, first⟩
    · obtain ⟨x', listed, found⟩ := ih later
      exact ⟨x', List.mem_cons_of_mem _ listed, found⟩

section Main

variable {scheme : VendorScheme} {repository : List Module}

/-- The texts of a repository are read as its modules. -/
theorem Fits.readAll (fits : Fits scheme repository) :
    ∃ parsed, (repository.mapM fun m => readModule (String.ofList m.render) m.path).value =
        .ok parsed ∧
      List.Forall₂ Reads parsed repository ∧ ∀ p ∈ parsed, p.Distinct := by
  have each : ∀ m ∈ repository, ∃ p, (readModule (String.ofList m.render) m.path).value = .ok p ∧
      Reads p m ∧ p.Distinct := by
    intro m member
    have own := fits.modules m member
    have absolute : ∀ i ∈ m.imports, i.path.toList.head? = some '/' := by
      intro i imported
      obtain ⟨other, listed, same⟩ := List.mem_map.1 (own.imports i imported).target
      rw [← same]
      exact (fits.modules other listed).path
    obtain ⟨p, read, reads⟩ := own.readModule absolute
    exact ⟨p, read, reads, (readModule_spec read).2.1.distinct⟩
  clear fits
  induction repository with
  | nil => exact ⟨[], rfl, .nil, fun p member => nomatch member⟩
  | cons m ms ih =>
    obtain ⟨p, read, reads, distinct⟩ := each m List.mem_cons_self
    obtain ⟨ps, readLater, readsLater, distinctLater⟩ :=
      ih fun m member => each m (List.mem_cons_of_mem _ member)
    refine ⟨p :: ps, ?_, .cons reads readsLater, ?_⟩
    · rw [List.mapM_cons, Checked.value_bind_of_ok read, Checked.value_bind_of_ok readLater]
      rfl
    · intro q member
      rcases List.mem_cons.1 member with rfl | later
      · exact distinct
      · exact distinctLater q later

theorem map_entry_of_reads {parsed : List ParsedModule}
    (reads : List.Forall₂ Reads parsed repository) :
    parsed.map ParsedModule.entry = repository.map Module.entry := by
  have same : List.Forall₂ Eq (parsed.map ParsedModule.entry) (repository.map Module.entry) := by
    rw [List.forall₂_map_left_iff, List.forall₂_map_right_iff]
    exact reads.imp fun _ _ read => read.entry
  rw [List.forall₂_eq_eq_eq] at same
  exact same

theorem map_path_of_reads {parsed : List ParsedModule}
    (reads : List.Forall₂ Reads parsed repository) :
    parsed.map ParsedModule.path = repository.map Module.path := by
  have same := congrArg (List.map ModuleEntry.path) (map_entry_of_reads reads)
  rw [List.map_map, List.map_map] at same
  exact same

/-- Merging the modules of a repository gives a registry that holds it. -/
theorem Fits.holds (fits : Fits scheme repository) {parsed : List ParsedModule}
    (reads : List.Forall₂ Reads parsed repository) (distinct : ∀ p ∈ parsed, p.Distinct)
    (longest : Int) : Holds scheme repository (Registry.ofModules scheme longest parsed) := by
  have paths : (parsed.map ParsedModule.path).Nodup := by
    rw [map_path_of_reads reads]
    exact fits.paths
  refine ⟨rfl, ?_, ?_, (Registry.reachable_ofModules paths distinct).consistent⟩
  · have same := congrArg (List.map fun entry => (entry.path, entry)) (map_entry_of_reads reads)
    rw [List.map_map, List.map_map] at same
    rw [Registry.modules_ofModules paths]
    exact congrArg Table.mk same
  · intro m member
    obtain ⟨p, listed, read⟩ := exists_left_of_mem reads member
    have path : p.path = m.path := congrArg ModuleEntry.path read.entry
    rw [← path, Registry.importsOf_ofModules paths distinct listed, read.imports]

/-- A registry that holds a repository and its calls shows it. -/
theorem Holds.shows {r : Registry} (holds : Holds scheme repository r) (fits : Fits scheme repository)
    (takes : List.Forall₂ (ModuleGraph.Takes r) r.calls (routes repository)) (connectedOnly : Bool) :
    Shows scheme connectedOnly repository (ModuleGraph.ofRegistry r connectedOnly).value := by
  have counts := ModuleGraph.counts_of_takes takes
  have modules : r.allModules = repository.map Module.entry ++ [scheme.external] := by
    unfold Registry.allModules Registry.external Table.values
    rw [holds.scheme, holds.modules, List.map_map]
    rfl
  have paths : ∀ {path}, path ∈ repository.map Module.path →
      path ∈ r.allModules.map ModuleEntry.path := by
    intro path listed
    obtain ⟨m, member, rfl⟩ := List.mem_map.1 listed
    rw [modules]
    exact List.mem_map.2 ⟨m.entry, List.mem_append_left _ (List.mem_map.2 ⟨m, member, rfl⟩), rfl⟩
  have ends : ∀ route ∈ routes repository, route.source ∈ r.allModules.map ModuleEntry.path ∧
      route.target ∈ r.allModules.map ModuleEntry.path := by
    intro route member
    obtain ⟨m, listed, target, known, name, arity, rfl⟩ := fits.mem_routes member
    exact ⟨paths (List.mem_map.2 ⟨m, listed, rfl⟩), paths known⟩
  have tallies := ModuleGraph.tallies_ofTraffic counts ends connectedOnly
  have touched : ∀ path, (ModuleGraph.Traffic.ofRegistry r).value.touches path =
      touches repository path := by
    intro path
    rw [Bool.eq_iff_iff, counts.touches_iff, fits.touches_iff]
  rw [ModuleGraph.value_ofRegistry]
  refine ⟨?_, ?_, ?_, tallies.nodup_route?⟩
  · rw [modules]
    unfold ModuleGraph.ofTraffic
    simp only [touched]
  · intro m member target name arity count
    rw [tallies.exists_edge_iff, ← List.count_pos_iff, fits.count_routes member]
    constructor
    · rintro ⟨positive, rfl⟩
      exact ⟨positive, rfl⟩
    · rintro ⟨positive, rfl⟩
      exact ⟨positive, rfl⟩
  · intro e member
    obtain ⟨⟨route, count⟩, entered, run, -⟩ := tallies.exists_entry member
    have tallied := ((Table.mem_entries_tally _ _ _).1 entered).1
    obtain ⟨m, own, target, -, name, arity, rfl⟩ := fits.mem_routes tallied
    exact ⟨m, own, target, name, arity, run⟩

/-- The texts of a repository of canonical modules are read without an error, and the graph of the
modules merged from them shows the repository. -/
theorem moduleGraph_of_texts (fits : Fits scheme repository) :
    ∃ parsed, (repository.mapM fun m => readModule (String.ofList m.render) m.path).value =
        .ok parsed ∧
      ∀ connectedOnly, Shows scheme connectedOnly repository
        (ModuleGraph.ofRegistry (Registry.merge { scheme := scheme } parsed).value
          connectedOnly).value := by
  obtain ⟨parsed, read, reads, distinct⟩ := fits.readAll
  refine ⟨parsed, read, ?_⟩
  intro connectedOnly
  have paths : (parsed.map ParsedModule.path).Nodup := by
    rw [map_path_of_reads reads]
    exact fits.paths
  have own : ∀ p ∈ parsed, p.path ≠ scheme.externalPath := by
    intro p member
    have listed : p.path ∈ repository.map Module.path := by
      rw [← map_path_of_reads reads]
      exact List.mem_map.2 ⟨p, member, rfl⟩
    obtain ⟨m, inside, same⟩ := List.mem_map.1 listed
    rw [← same]
    exact fits.path_ne_external inside
  rw [Registry.value_merge distinct, Registry.kept_eq_self paths own]
  have holds := fits.holds reads distinct (Registry.longestLoc parsed)
  exact holds.shows fits (holds.takes_repository fits reads) connectedOnly

end Main

/-- Two modules that import each other. Their names spell keywords, and a literal holds
delimiters. -/
def mutualModules : List Module :=
  [{ path := "/lib/main.xqy"
     qualifier := "declare"
     uri := "urn:declared"
     imports := [⟨"import", "http://lib/tools", "/lib/tools.xqy"⟩]
     functions :=
       [⟨"run", ["function"], .call "import" "join.all"
          [.call "declare" "run" [.call "local" "pick" [.var "function"]],
            .literal '"' "a)]; 'b', c(", .numeral "42"]⟩,
         ⟨"pick", [], .var "declare"⟩] },
   { path := "/lib/tools.xqy"
     qualifier := "tools"
     uri := "http://lib/tools"
     imports := [⟨"d", "urn:declared", "/lib/main.xqy"⟩]
     functions :=
       [⟨"join.all", ["a", "b", "c"], .call "d" "run"
          [.call "tools" "join.all"
            [.call "d" "run" [.literal '\'' "important ("], .var "a", .call "tools" "missing" []]]⟩] }]

theorem mutualModules_fits : Fits {} mutualModules := by
  refine ⟨by decide, by decide, ?_⟩
  intro m member
  simp only [mutualModules, List.mem_cons, List.not_mem_nil, or_false] at member
  rcases member with rfl | rfl
  · exact ⟨by decide, by decide, by decide, by decide, by decide, by decide, by decide, by decide,
      by decide⟩
  · exact ⟨by decide, by decide, by decide, by decide, by decide, by decide, by decide, by decide,
      by decide⟩

/-- The graph of the two modules, from their texts. -/
theorem mutualModules_graph :
    Fits {} mutualModules ∧
    ∃ parsed, (mutualModules.mapM fun m => readModule (String.ofList m.render) m.path).value =
        .ok parsed ∧
      ∀ connectedOnly, Shows {} connectedOnly mutualModules
        (ModuleGraph.ofRegistry (Registry.merge {} parsed).value connectedOnly).value :=
  ⟨mutualModules_fits, moduleGraph_of_texts mutualModules_fits⟩

end CallAtlas.Canonical
