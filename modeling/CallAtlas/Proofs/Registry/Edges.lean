import CallAtlas.Proofs.Registry.Reachable
import CallAtlas.Registry.Resolve

/-!
# Edges of calls

An edge starts at the function that holds the call. So the edges out of a module, or out of a
function, are those of the calls there.

A call whose arity is known has one edge if its token leads to a module, and none otherwise: a
module holds a name and arity once, and the edge carries that name and arity whether or not the
module has such a function.
-/

namespace CallAtlas.Registry

theorem value_resolve (r : Registry) (c : CallEntry) :
    (r.resolve c).value = match (r.resolveModule c.owner c.token).value with
      | .ok path => r.edgesInto path c
      | .error _ => [] := by
  unfold resolve Checked.value
  rw [Report.value_bind]
  cases (ExceptT.run (r.resolveModule c.owner c.token)).value with
  | ok path => rfl
  | error cause => rfl

/-- The edges of all calls of a registry. -/
def edges (r : Registry) : List Edge :=
  r.calls.flatMap fun c => (r.resolve c).value

theorem source_of_mem_resolve {r : Registry} {c : CallEntry} {e : Edge}
    (member : e ∈ (r.resolve c).value) : e.source = c.callerRef := by
  rw [value_resolve] at member
  split at member
  next path _ =>
    unfold edgesInto at member
    split at member
    next =>
      rw [List.mem_singleton.1 member]
    next =>
      obtain ⟨f, -, rfl⟩ := List.mem_map.1 member
      rfl
  next => cases member

/-- The edges that start at some places are those of the calls that stand there. -/
theorem filter_edges (r : Registry) (here : FunctionRef → Bool) :
    (r.edges.filter fun e => here e.source) =
      (r.calls.filter fun c => here c.callerRef).flatMap fun c => (r.resolve c).value := by
  unfold edges
  induction r.calls with
  | nil => rfl
  | cons c calls ih =>
    have own : (r.resolve c).value.filter (fun e => here e.source) =
        if here c.callerRef then (r.resolve c).value else [] := by
      split
      next stays =>
        refine List.filter_eq_self.2 fun e member => ?_
        rw [source_of_mem_resolve member]
        exact stays
      next leaves =>
        refine List.filter_eq_nil_iff.2 fun e member => ?_
        rw [source_of_mem_resolve member]
        exact leaves
    rw [List.flatMap_cons, List.filter_append, ih, own, List.filter_cons]
    split
    next => rw [List.flatMap_cons]
    next => rfl

/-! ## Known arities -/

theorem Consistent.nodup_functionsOf {r : Registry} (consistent : r.Consistent) (path : String) :
    (r.functionsOf path).Nodup := by
  have nodup := consistent.nodup path
  rw [← consistent.map_qualifiedName_functionsOf] at nodup
  exact nodup.of_map _

/-- The candidates of a call with a known arity are one function at most. -/
theorem Consistent.candidates_of_arity {r : Registry} (consistent : r.Consistent) {path : String}
    {c : CallEntry} {arity : Int} (known : c.arity = some arity) :
    r.candidates path c = [] ∨ ∃ f, r.candidates path c = [f] ∧ f.qualifiedName = c.called := by
  have listed : ∀ f ∈ r.candidates path c,
      f ∈ r.functionsOf path ∧ f.name = c.name ∧ f.arity = arity := by
    intro f member
    unfold candidates at member
    rw [known] at member
    obtain ⟨named, same⟩ := List.mem_filter.1 member
    rw [consistent.functionsNamed_eq] at named
    obtain ⟨own, name⟩ := List.mem_filter.1 named
    exact ⟨own, of_decide_eq_true name, eq_of_beq same⟩
  have nodup : (r.candidates path c).Nodup := by
    unfold candidates
    rw [known, consistent.functionsNamed_eq]
    exact ((consistent.nodup_functionsOf path).filter _).filter _
  match found : r.candidates path c with
  | [] => exact Or.inl rfl
  | [f] =>
    obtain ⟨-, name, arity_eq⟩ := listed f (found ▸ List.mem_cons_self)
    refine Or.inr ⟨f, rfl, ?_⟩
    unfold FunctionEntry.qualifiedName CallEntry.called
    rw [name, arity_eq, known]
  | f :: g :: rest =>
    obtain ⟨ownF, nameF, arityF⟩ := listed f (found ▸ List.mem_cons_self)
    obtain ⟨ownG, nameG, arityG⟩ :=
      listed g (found ▸ List.mem_cons_of_mem _ List.mem_cons_self)
    have same : f = g := consistent.functionsOf_unique ownF ownG (nameF.trans nameG.symm)
      (arityF.trans arityG.symm)
    rw [found, same, List.nodup_cons] at nodup
    exact (nodup.1 List.mem_cons_self).elim

/-- A call with a known arity has one edge into a module, labelled by what it calls. -/
theorem Consistent.edgesInto_of_arity {r : Registry} (consistent : r.Consistent) {path : String}
    {c : CallEntry} {arity : Int} (known : c.arity = some arity) :
    r.edgesInto path c = [⟨c.callerRef, ⟨path, c.called⟩, c.arity⟩] := by
  unfold edgesInto
  have candidates : r.candidates path c = [] ∨
      ∃ f, r.candidates path c = [f] ∧ f.qualifiedName = c.called :=
    consistent.candidates_of_arity known
  rcases candidates with none | ⟨f, one, named⟩
  · rw [none]
  · rw [one, ← named]
    rfl

theorem Consistent.value_resolve_of_arity {r : Registry} (consistent : r.Consistent)
    {c : CallEntry} {arity : Int} (known : c.arity = some arity) :
    (r.resolve c).value = match (r.resolveModule c.owner c.token).value with
      | .ok path => [⟨c.callerRef, ⟨path, c.called⟩, c.arity⟩]
      | .error _ => [] := by
  rw [value_resolve]
  cases (r.resolveModule c.owner c.token).value with
  | ok path => exact consistent.edgesInto_of_arity known
  | error cause => rfl

/-- Of calls with known arities, the edges and the calls without edges are as many as the calls. -/
theorem Consistent.length_edges {r : Registry} (consistent : r.Consistent) {calls : List CallEntry}
    (known : ∀ c ∈ calls, ∃ arity, c.arity = some arity) :
    ((calls.map fun c => (r.resolve c).value).flatten).length +
      (calls.map fun c => (r.resolve c).value).countP List.isEmpty = calls.length := by
  induction calls with
  | nil => rfl
  | cons c calls ih =>
    have rest := ih fun c member => known c (List.mem_cons_of_mem _ member)
    obtain ⟨arity, hasArity⟩ := known c List.mem_cons_self
    have edges := consistent.value_resolve_of_arity hasArity
    rw [List.map_cons, List.flatten_cons, List.length_append, List.countP_cons, List.length_cons]
    cases led : (r.resolveModule c.owner c.token).value with
    | ok path =>
      rw [led] at edges
      simp only [edges, List.length_singleton, List.isEmpty_cons, Bool.false_eq_true, if_false]
      omega
    | error cause =>
      rw [led] at edges
      simp only [edges, List.length_nil, List.isEmpty_nil, if_true]
      omega

end CallAtlas.Registry
