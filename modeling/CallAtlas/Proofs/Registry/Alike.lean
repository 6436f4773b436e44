import CallAtlas.CallTree
import CallAtlas.Proofs.Table

/-!
# Registries that answer alike

Resolving calls and growing call trees reads a registry through look-ups only, and of the entries
found it reads neither the text of a function nor the line of a call. `Registry.Alike` says that two
registries agree in what is read so. Everything that is made of it is then the same in both, with
the same notices and the same failures: calls resolve alike (`Alike.resolve`), and call trees are
equal (`Alike.ofFunction`).

In which order entries came in shows in none of these look-ups but within one module.
-/

namespace CallAtlas

/-! ## What is read of entries -/

/-- What calls and call trees read of a function. -/
def FunctionEntry.outline (f : FunctionEntry) : FunctionEntry :=
  { owner := f.owner, name := f.name, arity := f.arity, loc := f.loc, invertedLoc := f.invertedLoc }

/-- What is read of a call. -/
def CallEntry.outline (c : CallEntry) : CallEntry :=
  { c with line := none }

namespace Registry

theorem resolve_outline (r : Registry) (c : CallEntry) : r.resolve c.outline = r.resolve c := rfl

/-- Two registries agree in what calls and call trees read of them. -/
structure Alike (r s : Registry) : Prop where
  scheme : r.scheme = s.scheme
  knows : ∀ path, r.knows path = s.knows path
  qualifier : ∀ path,
    (r.module? path).map ModuleEntry.qualifier = (s.module? path).map ModuleEntry.qualifier
  pathOfQualifier? : ∀ qualifier, r.pathOfQualifier? qualifier = s.pathOfQualifier? qualifier
  pathOfUri? : ∀ uri, r.pathOfUri? uri = s.pathOfUri? uri
  importsOf : ∀ path, r.importsOf path = s.importsOf path
  functionTable : ∀ path, (r.functionTable path).mapValues FunctionEntry.outline =
    (s.functionTable path).mapValues FunctionEntry.outline
  functionsNamed : ∀ path name, (r.functionsNamed path name).map FunctionEntry.outline =
    (s.functionsNamed path name).map FunctionEntry.outline
  callsOf : ∀ caller,
    (r.callsOf caller).map CallEntry.outline = (s.callsOf caller).map CallEntry.outline
  /-- As many functions hold calls. -/
  callers : r.callsByCaller.size = s.callsByCaller.size

namespace Alike

variable {r s : Registry} (alike : r.Alike s)
include alike

/-! ## Look-ups -/

theorem external : r.external = s.external := by
  unfold Registry.external
  rw [alike.scheme]

theorem isVendor (location : String) : r.isVendor location = s.isVendor location := by
  unfold Registry.isVendor
  rw [alike.scheme]

theorem function? (path qualified : String) :
    (r.function? path qualified).map FunctionEntry.outline =
      (s.function? path qualified).map FunctionEntry.outline := by
  unfold Registry.function?
  rw [← Table.get?_mapValues, ← Table.get?_mapValues, alike.functionTable]

theorem bind_function? {β : Type} (read : FunctionEntry → Option β)
    (outlined : ∀ f, read f.outline = read f) (path qualified : String) :
    (r.function? path qualified).bind read = (s.function? path qualified).bind read := by
  have reads := congrArg (·.bind read) (alike.function? path qualified)
  simpa only [Option.bind_map, Function.comp_def, outlined] using reads

/-- The functions of a module have the same names, in the same order. -/
theorem functionNames (path : String) :
    (r.functionsOf path).map FunctionEntry.qualifiedName =
      (s.functionsOf path).map FunctionEntry.qualifiedName := by
  have outlines := congrArg Table.values (alike.functionTable path)
  rw [Table.values_mapValues, Table.values_mapValues] at outlines
  have names := congrArg (List.map FunctionEntry.qualifiedName) outlines
  rw [List.map_map, List.map_map] at names
  exact names

/-! ## Resolution -/

theorem importTarget (caller : String) (i : ImportEntry) :
    r.importTarget caller i = s.importTarget caller i := by
  unfold Registry.importTarget
  rw [alike.pathOfUri?, alike.external]
  simp only [alike.knows, alike.isVendor]

/-- A token leads to the same module, or fails with the same words. -/
theorem resolveModule (caller : String) (token : Option String) :
    r.resolveModule caller token = s.resolveModule caller token := by
  cases token with
  | none => rfl
  | some token =>
    have own : (r.module? caller).any (·.qualifier == token) =
        (s.module? caller).any (·.qualifier == token) := by
      have qualifiers := congrArg (·.any (· == token)) (alike.qualifier caller)
      simpa only [Option.any_map] using qualifiers
    unfold Registry.resolveModule resolveQualifier
    simp only [alike.isVendor, alike.external, alike.knows, own, alike.importsOf,
      alike.importTarget, alike.pathOfQualifier?]

theorem candidates (path : String) (c : CallEntry) :
    (r.candidates path c).map FunctionEntry.outline =
      (s.candidates path c).map FunctionEntry.outline := by
  unfold Registry.candidates
  cases c.arity with
  | none => exact alike.functionsNamed path c.name
  | some arity =>
    have filtered := congrArg (List.filter (·.arity == arity)) (alike.functionsNamed path c.name)
    rw [List.filter_map, List.filter_map] at filtered
    exact filtered

theorem edgesInto (path : String) (c : CallEntry) : r.edgesInto path c = s.edgesInto path c := by
  have names := congrArg (List.map fun f : FunctionEntry =>
    (⟨c.callerRef, ⟨path, f.qualifiedName⟩, c.arity⟩ : Edge)) (alike.candidates path c)
  rw [List.map_map, List.map_map] at names
  unfold Registry.edgesInto
  cases first : r.candidates path c with
  | nil =>
    rw [first, List.map_nil] at names
    rw [List.map_eq_nil_iff.1 names.symm]
  | cons f fs =>
    cases second : s.candidates path c with
    | nil => rw [first, second] at names; cases names
    | cons g gs => rw [first, second] at names; exact names

/-- A call resolves alike. -/
theorem resolve (c : CallEntry) : r.resolve c = s.resolve c := by
  unfold Registry.resolve
  rw [alike.resolveModule]
  simp only [alike.edgesInto]

theorem resolveAll {calls others : List CallEntry}
    (same : calls.map CallEntry.outline = others.map CallEntry.outline) :
    r.resolveAll calls = s.resolveAll others := by
  have outlined : ∀ (r : Registry) (calls : List CallEntry),
      (calls.map CallEntry.outline).mapM r.resolve = calls.mapM r.resolve := by
    intro r calls
    rw [List.mapM_map, show r.resolve ∘ CallEntry.outline = r.resolve from funext r.resolve_outline]
  unfold Registry.resolveAll
  rw [← outlined r, same, show r.resolve = s.resolve from funext alike.resolve, outlined s]

/-! ## Call trees -/

theorem qualifierOf (path : String) :
    CallTree.qualifierOf r path = CallTree.qualifierOf s path := by
  have shown : ∀ r : Registry, CallTree.qualifierOf r path =
      ((r.module? path).map ModuleEntry.qualifier).getD CallTree.unknownQualifier := by
    intro r
    unfold CallTree.qualifierOf
    cases r.module? path with
    | none => rfl
    | some m => rfl
  rw [shown, shown, alike.qualifier]

theorem targets (caller : FunctionRef) : CallTree.targets r caller = CallTree.targets s caller := by
  unfold CallTree.targets
  rw [alike.resolveAll (alike.callsOf caller)]

theorem child (b : CallTree.Branch) (id : Nat) (target : FunctionRef) (hits : Nat) :
    b.child r id target hits = b.child s id target hits := by
  unfold CallTree.Branch.child
  dsimp only
  rw [alike.qualifierOf, alike.bind_function? FunctionEntry.loc fun _ => rfl,
    alike.bind_function? FunctionEntry.invertedLoc fun _ => rfl]

theorem children (bound : Option Int) (b : CallTree.Branch) (size : Nat)
    (hits : List (FunctionRef × Nat)) :
    b.children r bound size hits = b.children s bound size hits := by
  induction hits generalizing size with
  | nil => rfl
  | cons hit hits ih =>
    obtain ⟨target, count⟩ := hit
    unfold CallTree.Branch.children
    rw [ih, alike.child]

theorem nextLevel (bound : Option Int) (level : List CallTree.Branch) (size : Nat) :
    CallTree.nextLevel r bound level size = CallTree.nextLevel s bound level size := by
  induction level generalizing size with
  | nil => rfl
  | cons b level ih =>
    unfold CallTree.nextLevel
    simp only [ih, alike.targets, alike.children]

theorem lowerLevels (bound : Option Int) (levels : Nat) (level : List CallTree.Branch)
    (size : Nat) :
    CallTree.lowerLevels r bound levels level size =
      CallTree.lowerLevels s bound levels level size := by
  induction levels generalizing level size with
  | zero => rfl
  | succ levels ih =>
    unfold CallTree.lowerLevels
    simp only [ih, alike.nextLevel]

theorem grow (path function : String) (bound : Option Int) (root : CallTree.Branch) :
    CallTree.grow r path function bound root = CallTree.grow s path function bound root := by
  unfold CallTree.grow
  rw [alike.lowerLevels, alike.callers]

theorem root (path : String) {f g : FunctionEntry} (same : f.outline = g.outline) :
    CallTree.Branch.root r path f = CallTree.Branch.root s path g := by
  have outlined : ∀ (r : Registry) (f : FunctionEntry),
      CallTree.Branch.root r path f = CallTree.Branch.root r path f.outline := fun _ _ => rfl
  rw [outlined r, outlined s, same]
  unfold CallTree.Branch.root
  rw [alike.qualifierOf]

/-- Call trees are the same, and the same functions are missed. -/
theorem ofFunction (path function : String) (bound : Option Int) :
    CallTree.ofFunction r path function bound = CallTree.ofFunction s path function bound := by
  unfold CallTree.ofFunction
  cases splitQualified function with
  | error e => rfl
  | ok parts =>
    obtain ⟨name, arity⟩ := parts
    have outlines := alike.function? path (qualify name arity)
    dsimp only
    cases first : r.function? path (qualify name arity) with
    | none =>
      rw [first, Option.map_none] at outlines
      rw [Option.map_eq_none_iff.1 outlines.symm]
      dsimp only
      rw [alike.functionNames]
    | some f =>
      rw [first, Option.map_some] at outlines
      obtain ⟨g, second, same⟩ := Option.map_eq_some_iff.1 outlines.symm
      rw [second]
      dsimp only
      rw [alike.grow, alike.root path same.symm]

end Alike

end Registry
end CallAtlas
