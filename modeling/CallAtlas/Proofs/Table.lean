import CallAtlas.Table
import Mathlib.Algebra.Ring.Nat
import Mathlib.Data.List.Basic
import Mathlib.Data.List.Nodup

/-!
# Keys and values of tables

A table made by puts holds each key once, and a look-up finds exactly the entry with that key.
Putting a value under a new key appends an entry; putting one under a key that is there changes
the value in its place. Both are what the order of a registry's tables rests on.

`tally` counts a list of keys into a table. The hits of a call tree and the weights of a module
graph are such counts.
-/

namespace CallAtlas.Table

variable {κ α : Type}

/-! ## Look-ups -/

@[simp]
theorem entries_empty : (empty : Table κ α).entries = [] := rfl

@[simp]
theorem keys_empty : (empty : Table κ α).keys = [] := rfl

theorem length_keys (t : Table κ α) : t.keys.length = t.size :=
  List.length_map ..

variable [DecidableEq κ]

theorem contains_iff_mem_keys (t : Table κ α) (key : κ) :
    t.contains key = true ↔ key ∈ t.keys := by
  obtain ⟨entries⟩ := t
  change (entries.lookup key).isSome = true ↔ key ∈ entries.map Prod.fst
  induction entries with
  | nil => simp
  | cons entry entries ih =>
    obtain ⟨held, value⟩ := entry
    by_cases h : key = held
    · subst h
      simp
    · have differ : (key == held) = false := by simpa using h
      simp only [List.lookup_cons, differ, List.map_cons, List.mem_cons, h, false_or]
      exact ih

theorem contains_eq_false_iff (t : Table κ α) (key : κ) :
    t.contains key = false ↔ key ∉ t.keys := by
  rw [← contains_iff_mem_keys, Bool.not_eq_true]

theorem get?_eq_none_iff (t : Table κ α) (key : κ) : t.get? key = none ↔ key ∉ t.keys := by
  rw [← contains_eq_false_iff]
  unfold contains
  cases t.get? key <;> simp

/-- A value that a look-up finds stands in an entry with that key. -/
theorem mem_entries_of_get? {t : Table κ α} {key : κ} {value : α}
    (h : t.get? key = some value) : (key, value) ∈ t.entries := by
  obtain ⟨entries⟩ := t
  change entries.lookup key = some value at h
  induction entries with
  | nil => cases h
  | cons entry entries ih =>
    obtain ⟨held, old⟩ := entry
    by_cases same : key = held
    · subst same
      simp only [List.lookup_cons, beq_self_eq_true, Option.some.injEq] at h
      subst h
      exact List.mem_cons_self
    · have differ : (key == held) = false := by simpa using same
      simp only [List.lookup_cons, differ] at h
      exact List.mem_cons_of_mem _ (ih h)

/-- Where each key is held once, a look-up finds the value of every entry. -/
theorem get?_of_mem_entries {t : Table κ α} {key : κ} {value : α} (nodup : t.keys.Nodup)
    (h : (key, value) ∈ t.entries) : t.get? key = some value := by
  obtain ⟨entries⟩ := t
  change (entries.map Prod.fst).Nodup at nodup
  change entries.lookup key = some value
  change (key, value) ∈ entries at h
  induction entries with
  | nil => cases h
  | cons entry entries ih =>
    obtain ⟨held, old⟩ := entry
    rw [List.map_cons, List.nodup_cons] at nodup
    rcases List.mem_cons.1 h with same | later
    · cases same
      simp
    · have present : key ∈ entries.map Prod.fst := List.mem_map_of_mem later
      have differ : (key == held) = false := by
        simp only [beq_eq_false_iff_ne, ne_eq]
        rintro rfl
        exact nodup.1 present
      simp only [List.lookup_cons, differ]
      exact ih nodup.2 later

theorem mem_entries_iff_get? {t : Table κ α} (nodup : t.keys.Nodup) (key : κ) (value : α) :
    (key, value) ∈ t.entries ↔ t.get? key = some value :=
  ⟨get?_of_mem_entries nodup, mem_entries_of_get?⟩

/-! ## Puts -/

theorem putEntry_eq_append {key : κ} {value : α} {entries : List (κ × α)}
    (fresh : key ∉ entries.map Prod.fst) :
    putEntry key value entries = entries ++ [(key, value)] := by
  induction entries with
  | nil => rfl
  | cons entry entries ih =>
    rw [List.map_cons, List.mem_cons, not_or] at fresh
    rw [putEntry, if_neg fresh.1, ih fresh.2]
    rfl

theorem map_fst_putEntry_of_mem {key : κ} {value : α} {entries : List (κ × α)}
    (present : key ∈ entries.map Prod.fst) :
    (putEntry key value entries).map Prod.fst = entries.map Prod.fst := by
  induction entries with
  | nil => cases present
  | cons entry entries ih =>
    by_cases h : key = entry.1
    · rw [putEntry, if_pos h]
      rfl
    · rw [List.map_cons, List.mem_cons] at present
      rw [putEntry, if_neg h, List.map_cons, List.map_cons,
        ih (present.resolve_left h)]

/-- Putting a value under a new key appends an entry. -/
theorem put_of_not_mem {t : Table κ α} {key : κ} (fresh : key ∉ t.keys) (value : α) :
    t.put key value = ⟨t.entries ++ [(key, value)]⟩ := by
  unfold put
  rw [putEntry_eq_append fresh]

theorem keys_put_of_not_mem {t : Table κ α} {key : κ} (fresh : key ∉ t.keys) (value : α) :
    (t.put key value).keys = t.keys ++ [key] := by
  rw [put_of_not_mem fresh]
  exact List.map_append ..

theorem values_put_of_not_mem {t : Table κ α} {key : κ} (fresh : key ∉ t.keys) (value : α) :
    (t.put key value).values = t.values ++ [value] := by
  rw [put_of_not_mem fresh]
  exact List.map_append ..

theorem keys_put_of_mem {t : Table κ α} {key : κ} (present : key ∈ t.keys) (value : α) :
    (t.put key value).keys = t.keys :=
  map_fst_putEntry_of_mem present

@[simp]
theorem mem_keys_put (t : Table κ α) (key other : κ) (value : α) :
    other ∈ (t.put key value).keys ↔ other = key ∨ other ∈ t.keys := by
  by_cases present : key ∈ t.keys
  · rw [keys_put_of_mem present]
    constructor
    · exact Or.inr
    · rintro (rfl | h)
      · exact present
      · exact h
  · rw [keys_put_of_not_mem present, List.mem_append, List.mem_singleton, or_comm]

/-- A put brings in one entry and no other. -/
theorem mem_entries_put {t : Table κ α} {key : κ} {value : α} {entry : κ × α}
    (member : entry ∈ (t.put key value).entries) : entry = (key, value) ∨ entry ∈ t.entries := by
  obtain ⟨entries⟩ := t
  change entry ∈ putEntry key value entries at member
  change entry = (key, value) ∨ entry ∈ entries
  induction entries with
  | nil => exact Or.inl (List.mem_singleton.1 member)
  | cons first entries ih =>
    rw [putEntry] at member
    split at member
    next same =>
      rcases List.mem_cons.1 member with new | old
      · exact Or.inl (same ▸ new)
      · exact Or.inr (List.mem_cons_of_mem _ old)
    next =>
      rcases List.mem_cons.1 member with rfl | later
      · exact Or.inr List.mem_cons_self
      · rcases ih later with new | old
        · exact Or.inl new
        · exact Or.inr (List.mem_cons_of_mem _ old)

/-- A put never makes a table hold a key twice. -/
theorem nodup_keys_put {t : Table κ α} (nodup : t.keys.Nodup) (key : κ) (value : α) :
    (t.put key value).keys.Nodup := by
  by_cases present : key ∈ t.keys
  · rw [keys_put_of_mem present]
    exact nodup
  · rw [keys_put_of_not_mem present]
    exact List.nodup_append.2 ⟨nodup, List.nodup_singleton key, by
      intro a ha b hb same
      rw [List.mem_singleton] at hb
      subst hb same
      exact present ha⟩

/-- Values put under keys of their own stand in the order of the puts. -/
theorem foldl_put_of_nodup {key : α → κ} {t : Table κ α} {values : List α}
    (nodup : (t.keys ++ values.map key).Nodup) :
    values.foldl (fun t value => t.put (key value) value) t =
      ⟨t.entries ++ values.map fun value => (key value, value)⟩ := by
  induction values generalizing t with
  | nil => rw [List.map_nil, List.append_nil]; rfl
  | cons value values ih =>
    have fresh : key value ∉ t.keys := by
      intro held
      exact (List.nodup_append.1 nodup).2.2 _ held _ List.mem_cons_self rfl
    have rest : ((t.put (key value) value).keys ++ values.map key).Nodup := by
      rw [keys_put_of_not_mem fresh, List.append_assoc]
      exact nodup
    rw [List.foldl_cons, ih rest, put_of_not_mem fresh, List.map_cons, List.append_assoc]
    rfl

/-- After many puts, a look-up finds what was put last under its key. -/
theorem get?_foldl_put {β : Type} (key : β → κ) (value : β → α) (t : Table κ α) (xs : List β)
    (k : κ) :
    (xs.foldl (fun t x => t.put (key x) (value x)) t).get? k =
      ((xs.reverse.find? fun x => key x = k).map value).or (t.get? k) := by
  induction xs generalizing t with
  | nil => rfl
  | cons x xs ih =>
    rw [List.foldl_cons, ih, get?_put, List.reverse_cons, List.find?_append, Option.map_or,
      Option.or_assoc, List.find?_singleton]
    congr 1
    by_cases same : key x = k
    · rw [if_pos same.symm, if_pos (decide_eq_true same)]
      rfl
    · rw [if_neg fun e => same e.symm, if_neg fun e => same (of_decide_eq_true e)]
      rfl

theorem mem_keys_foldl_put {β : Type} (key : β → κ) (value : β → α) (t : Table κ α) (xs : List β)
    (k : κ) :
    k ∈ (xs.foldl (fun t x => t.put (key x) (value x)) t).keys ↔ k ∈ t.keys ∨ k ∈ xs.map key := by
  induction xs generalizing t with
  | nil => simp
  | cons x xs ih =>
    rw [List.foldl_cons, ih, mem_keys_put, List.map_cons, List.mem_cons]
    tauto

theorem get?_update (t : Table κ α) (key other : κ) (default : α) (f : α → α) :
    (t.update key default f).get? other =
      if other = key then some (f ((t.get? key).getD default)) else t.get? other :=
  get?_put ..

theorem getD_get?_update (t : Table κ α) (key other : κ) (default : α) (f : α → α) :
    ((t.update key default f).get? other).getD default =
      if other = key then f ((t.get? key).getD default) else (t.get? other).getD default := by
  rw [get?_update]
  split <;> rfl

/-! ## Many updates -/

section Updates

variable {β : Type} (key : β → κ) (default : α) (f : β → α → α)

/-- What stands under a key after many updates is made by those that are made there. -/
theorem getD_get?_foldl_update (t : Table κ α) (xs : List β) (k : κ) :
    ((xs.foldl (fun t x => t.update (key x) default (f x)) t).get? k).getD default =
      (xs.filter (key · = k)).foldl (fun value x => f x value) ((t.get? k).getD default) := by
  induction xs generalizing t with
  | nil => rfl
  | cons x xs ih =>
    rw [List.foldl_cons, ih, getD_get?_update]
    by_cases same : key x = k
    · have first : decide (key x = k) = true := decide_eq_true same
      rw [if_pos same.symm, List.filter_cons, first, same]
      rfl
    · have first : decide (key x = k) = false := decide_eq_false same
      rw [if_neg fun e => same e.symm, List.filter_cons, first]
      rfl

/-- What stands under a key depends on the updates that are made there only. -/
theorem getD_get?_foldl_update_congr {xs ys : List β} {k : κ}
    (same : xs.filter (key · = k) = ys.filter (key · = k)) :
    ((xs.foldl (fun t x => t.update (key x) default (f x)) (empty : Table κ α)).get? k).getD
        default =
      ((ys.foldl (fun t x => t.update (key x) default (f x)) (empty : Table κ α)).get? k).getD
        default := by
  rw [getD_get?_foldl_update, getD_get?_foldl_update, same]

theorem nodup_keys_foldl_update {t : Table κ α} (nodup : t.keys.Nodup) (xs : List β) :
    (xs.foldl (fun t x => t.update (key x) default (f x)) t).keys.Nodup := by
  induction xs generalizing t with
  | nil => exact nodup
  | cons x xs ih => exact ih (nodup_keys_put nodup _ _)

theorem mem_keys_foldl_update (t : Table κ α) (xs : List β) (k : κ) :
    k ∈ (xs.foldl (fun t x => t.update (key x) default (f x)) t).keys ↔
      k ∈ t.keys ∨ k ∈ xs.map key := by
  induction xs generalizing t with
  | nil => simp
  | cons x xs ih =>
    rw [List.foldl_cons, ih, update, mem_keys_put, List.map_cons, List.mem_cons]
    tauto

/-- In whatever order the updates are made, the keys are the same. -/
theorem perm_keys_foldl_update {xs ys : List β} (perm : xs.Perm ys) :
    (xs.foldl (fun t x => t.update (key x) default (f x)) (empty : Table κ α)).keys.Perm
      (ys.foldl (fun t x => t.update (key x) default (f x)) (empty : Table κ α)).keys := by
  have none : (empty : Table κ α).keys.Nodup := List.nodup_nil
  refine (List.perm_ext_iff_of_nodup (nodup_keys_foldl_update key default f none xs)
    (nodup_keys_foldl_update key default f none ys)).2 fun k => ?_
  rw [mem_keys_foldl_update, mem_keys_foldl_update, (perm.map key).mem_iff]

end Updates

/-! ## Tallies -/

/-- How often each key occurs in a list, in the order of first occurrence. -/
def tally (keys : List κ) : Table κ Nat :=
  keys.foldl (fun counts key => counts.update key 0 (· + 1)) empty

theorem getD_get?_tally (keys : List κ) (key : κ) :
    ((tally keys).get? key).getD 0 = keys.count key := by
  have counted : ∀ (keys : List κ) (count : Nat),
      keys.foldl (fun count _ => count + 1) count = count + keys.length := by
    intro keys
    induction keys with
    | nil => exact fun count => rfl
    | cons first keys ih =>
      intro count
      rw [List.foldl_cons, ih, List.length_cons]
      omega
  refine (getD_get?_foldl_update id 0 (fun _ => (· + 1)) empty keys key).trans ?_
  rw [counted, get?_empty, Option.getD_none, Nat.zero_add, ← List.countP_eq_length_filter]
  exact List.countP_congr fun x _ => by rw [decide_eq_true_iff, beq_iff_eq]; rfl

theorem nodup_keys_tally (keys : List κ) : (tally keys).keys.Nodup :=
  nodup_keys_foldl_update id 0 (fun _ => (· + 1))
    (show (empty : Table κ Nat).keys.Nodup from List.nodup_nil) keys

theorem mem_keys_tally (keys : List κ) (key : κ) : key ∈ (tally keys).keys ↔ key ∈ keys := by
  refine (mem_keys_foldl_update id 0 (fun _ => (· + 1)) empty keys key).trans ?_
  rw [keys_empty, List.map_id]
  simp

/-- A tally holds for each key of the list how often it occurs there, and nothing else. -/
theorem mem_entries_tally (keys : List κ) (key : κ) (count : Nat) :
    (key, count) ∈ (tally keys).entries ↔ key ∈ keys ∧ count = keys.count key := by
  have counted := getD_get?_tally keys key
  rw [mem_entries_iff_get? (nodup_keys_tally keys)]
  constructor
  · intro found
    rw [found, Option.getD_some] at counted
    refine ⟨?_, counted⟩
    rw [← mem_keys_tally, ← contains_iff_mem_keys, contains, found]
    rfl
  · rintro ⟨present, rfl⟩
    rw [← mem_keys_tally, ← contains_iff_mem_keys, contains] at present
    obtain ⟨held, found⟩ := Option.isSome_iff_exists.1 present
    rw [found, Option.getD_some] at counted
    rw [found, counted]

/-- In whatever order keys are counted, the counts are the same. -/
theorem perm_entries_tally {keys others : List κ} (perm : keys.Perm others) :
    (tally keys).entries.Perm (tally others).entries := by
  refine (List.perm_ext_iff_of_nodup ((nodup_keys_tally keys).of_map _)
    ((nodup_keys_tally others).of_map _)).2 ?_
  rintro ⟨key, count⟩
  rw [mem_entries_tally, mem_entries_tally, perm.mem_iff, perm.count_eq]

theorem sum_values_update (counts : Table κ Nat) (key : κ) :
    (counts.update key 0 (· + 1)).values.sum = counts.values.sum + 1 := by
  obtain ⟨entries⟩ := counts
  change ((putEntry key ((entries.lookup key).getD 0 + 1) entries).map Prod.snd).sum =
    (entries.map Prod.snd).sum + 1
  induction entries with
  | nil => rfl
  | cons entry entries ih =>
    by_cases h : key = entry.1
    · rw [putEntry, if_pos h, List.lookup_cons, h, beq_self_eq_true, List.map_cons, List.map_cons,
        List.sum_cons, List.sum_cons]
      change entry.2 + 1 + _ = _
      omega
    · have differ : (key == entry.1) = false := by simpa using h
      rw [putEntry, if_neg h, List.lookup_cons, differ, List.map_cons, List.map_cons,
        List.sum_cons, List.sum_cons, ih]
      omega

/-- The counts of a tally add up to the length of the list. -/
theorem sum_values_tally (keys : List κ) : (tally keys).values.sum = keys.length := by
  have grown : ∀ counts : Table κ Nat,
      (keys.foldl (fun counts key => counts.update key 0 (· + 1)) counts).values.sum =
        counts.values.sum + keys.length := by
    induction keys with
    | nil => exact fun counts => rfl
    | cons first keys ih =>
      intro counts
      rw [List.foldl_cons, ih, sum_values_update, List.length_cons]
      omega
  have whole := grown empty
  rw [show (empty : Table κ Nat).values.sum = 0 from rfl, Nat.zero_add] at whole
  exact whole

/-! ## Values changed in place -/

/-- The table with every value changed. -/
def mapValues {β : Type} (f : α → β) (t : Table κ α) : Table κ β :=
  ⟨t.entries.map fun entry => (entry.1, f entry.2)⟩

section MapValues

variable {β : Type} (f : α → β) (t : Table κ α)

omit [DecidableEq κ] in
@[simp]
theorem values_mapValues : (t.mapValues f).values = t.values.map f := by
  unfold values mapValues
  rw [List.map_map, List.map_map]
  rfl

omit [DecidableEq κ] in
@[simp]
theorem size_mapValues : (t.mapValues f).size = t.size :=
  List.length_map ..

@[simp]
theorem get?_mapValues (key : κ) : (t.mapValues f).get? key = (t.get? key).map f := by
  obtain ⟨entries⟩ := t
  change (entries.map fun entry => (entry.1, f entry.2)).lookup key = (entries.lookup key).map f
  induction entries with
  | nil => rfl
  | cons entry entries ih =>
    rw [List.map_cons, List.lookup_cons, List.lookup_cons, ih]
    split <;> rfl

/-- Where a key has no value, the default is mapped. -/
theorem getD_get?_mapValues (key : κ) (default : α) :
    ((t.mapValues f).get? key).getD (f default) = f ((t.get? key).getD default) := by
  rw [get?_mapValues, Option.getD_map]

@[simp]
theorem contains_mapValues (key : κ) : (t.mapValues f).contains key = t.contains key := by
  unfold contains
  rw [get?_mapValues, Option.isSome_map]

theorem mapValues_put (key : κ) (value : α) :
    (t.put key value).mapValues f = (t.mapValues f).put key (f value) := by
  obtain ⟨entries⟩ := t
  unfold put mapValues
  congr 1
  induction entries with
  | nil => rfl
  | cons entry entries ih =>
    by_cases same : key = entry.1
    · simp [putEntry, same]
    · simp only [putEntry, List.map_cons, same, if_false, ih]

/-- Changing a value where it stands and changing it elsewhere agree, if the changes do. -/
theorem mapValues_update (key : κ) (default : α) (g : α → α) (h : β → β)
    (agree : ∀ value, f (g value) = h (f value)) :
    (t.update key default g).mapValues f = (t.mapValues f).update key (f default) h := by
  unfold update
  rw [mapValues_put, agree, get?_mapValues]
  cases t.get? key <;> rfl

omit [DecidableEq κ] in
/-- Filling a table and changing its values is filling it with changed values, if this holds of
each step. -/
theorem mapValues_foldl {γ δ : Type} {step : Table κ α → γ → Table κ α}
    {changed : Table κ β → δ → Table κ β} {g : γ → δ}
    (agree : ∀ t x, (step t x).mapValues f = changed (t.mapValues f) (g x)) (xs : List γ) :
    (xs.foldl step t).mapValues f = (xs.map g).foldl changed (t.mapValues f) := by
  induction xs generalizing t with
  | nil => rfl
  | cons x xs ih =>
    rw [List.foldl_cons, ih, agree]
    rfl

end MapValues

/-! ## Tables of tables -/

/-- Values filed one after another under an owner and a key. -/
def fileAll {ι : Type} [DecidableEq ι] (owner : α → κ) (key : α → ι)
    (t : Table κ (Table ι α)) (values : List α) : Table κ (Table ι α) :=
  values.foldl (fun t value => t.update (owner value) .empty (·.put (key value) value)) t

section FileAll

variable {ι : Type} [DecidableEq ι] {owner : α → κ} {key : α → ι}

theorem update_concat {entries : List (κ × α)} {own : κ} {value : α}
    (fresh : own ∉ entries.map Prod.fst) (default : α) (f : α → α) :
    (⟨entries ++ [(own, value)]⟩ : Table κ α).update own default f =
      ⟨entries ++ [(own, f value)]⟩ := by
  have none : entries.lookup own = none := (get?_eq_none_iff ⟨entries⟩ own).2 fresh
  have found : (⟨entries ++ [(own, value)]⟩ : Table κ α).get? own = some value := by
    unfold get?
    rw [List.lookup_append, none]
    simp
  unfold update
  rw [found, Option.getD_some, put]
  congr 1
  clear none found
  induction entries with
  | nil => simp [putEntry]
  | cons entry entries ih =>
    rw [List.map_cons, List.mem_cons, not_or] at fresh
    rw [List.cons_append, putEntry, if_neg fresh.1, ih fresh.2, List.cons_append]

/-- Values of one owner go to the end of the table that it has, if that table is the last one. -/
theorem fileAll_concat {entries : List (κ × Table ι α)} {own : κ} {filed values : List α}
    (fresh : own ∉ entries.map Prod.fst) (owned : ∀ value ∈ values, owner value = own)
    (nodup : ((filed ++ values).map key).Nodup) :
    fileAll owner key ⟨entries ++ [(own, ⟨filed.map fun x => (key x, x)⟩)]⟩ values =
      ⟨entries ++ [(own, ⟨(filed ++ values).map fun x => (key x, x)⟩)]⟩ := by
  induction values generalizing filed with
  | nil => rw [List.append_nil]; rfl
  | cons value values ih =>
    have keyFresh : key value ∉ (⟨filed.map fun x => (key x, x)⟩ : Table ι α).keys := by
      unfold keys
      rw [List.map_map]
      rw [List.map_append, List.map_cons] at nodup
      intro member
      exact (List.nodup_append.1 nodup).2.2 _ member _ List.mem_cons_self rfl
    have grown : (⟨filed.map fun x => (key x, x)⟩ : Table ι α).put (key value) value =
        ⟨(filed ++ [value]).map fun x => (key x, x)⟩ := by
      rw [put_of_not_mem keyFresh, List.map_append]
      rfl
    have regrouped : filed ++ [value] ++ values = filed ++ value :: values := by
      rw [List.append_assoc, List.singleton_append]
    have rest := ih (fun x member => owned x (List.mem_cons_of_mem _ member)) (regrouped ▸ nodup)
    rw [regrouped] at rest
    rw [← rest]
    unfold fileAll
    rw [List.foldl_cons, owned value List.mem_cons_self, update_concat fresh, grown]

/-- The values of one new owner start a table at the end. -/
theorem fileAll_of_not_mem {t : Table κ (Table ι α)} {own : κ} {values : List α}
    (fresh : own ∉ t.keys) (owned : ∀ value ∈ values, owner value = own)
    (nodup : (values.map key).Nodup) (nonempty : values ≠ []) :
    fileAll owner key t values = ⟨t.entries ++ [(own, ⟨values.map fun x => (key x, x)⟩)]⟩ := by
  cases values with
  | nil => exact (nonempty rfl).elim
  | cons value values =>
    have absent : t.get? own = none := (get?_eq_none_iff t own).2 fresh
    have step : t.update own .empty (·.put (key value) value) =
        ⟨t.entries ++ [(own, ⟨[value].map fun x => (key x, x)⟩)]⟩ := by
      unfold update
      rw [absent, put_of_not_mem fresh]
      rfl
    have rest : fileAll owner key ⟨t.entries ++ [(own, ⟨[value].map fun x => (key x, x)⟩)]⟩ values =
        ⟨t.entries ++ [(own, ⟨([value] ++ values).map fun x => (key x, x)⟩)]⟩ :=
      fileAll_concat fresh (fun x member => owned x (List.mem_cons_of_mem _ member)) nodup
    rw [List.singleton_append] at rest
    rw [← rest, ← step]
    unfold fileAll
    rw [List.foldl_cons, owned value List.mem_cons_self]

theorem fileAll_append (t : Table κ (Table ι α)) (first second : List α) :
    fileAll owner key t (first ++ second) = fileAll owner key (fileAll owner key t first) second :=
  List.foldl_append ..

/-- What a table of filed values holds under an owner. -/
theorem mem_keys_fileAll (t : Table κ (Table ι α)) (values : List α) (own : κ) (k : ι) :
    k ∈ (((fileAll owner key t values).get? own).getD .empty).keys ↔
      k ∈ ((t.get? own).getD .empty).keys ∨ ∃ value ∈ values, owner value = own ∧ key value = k := by
  unfold fileAll
  rw [getD_get?_foldl_update owner empty (fun value (t : Table ι α) => t.put (key value) value)]
  refine (mem_keys_foldl_put key id _ _ k).trans (or_congr Iff.rfl ?_)
  simp only [List.mem_map, List.mem_filter, decide_eq_true_eq, and_assoc]

section Groups

variable {μ : Type} {name : μ → κ} {group : μ → List α} {ms : List μ}

/-- Groups of values, each of one owner, are filed as one table for each group that is not
empty, in the order of the groups. -/
theorem fileAll_groups {t : Table κ (Table ι α)} (fresh : ∀ m ∈ ms, name m ∉ t.keys)
    (distinct : (ms.map name).Nodup) (owned : ∀ m ∈ ms, ∀ value ∈ group m, owner value = name m)
    (nodup : ∀ m ∈ ms, ((group m).map key).Nodup) :
    fileAll owner key t (ms.flatMap group) =
      ⟨t.entries ++ (ms.filter (fun m => !(group m).isEmpty)).map
        fun m => (name m, ⟨(group m).map fun x => (key x, x)⟩)⟩ := by
  induction ms generalizing t with
  | nil => rw [List.filter_nil, List.map_nil, List.append_nil]; rfl
  | cons m ms ih =>
    rw [List.map_cons, List.nodup_cons] at distinct
    have ownedRest := fun other member => owned other (List.mem_cons_of_mem _ member)
    have nodupRest := fun other member => nodup other (List.mem_cons_of_mem _ member)
    rw [List.flatMap_cons, fileAll_append]
    by_cases empty : group m = []
    · rw [List.filter_cons_of_neg (by simp [empty]), empty]
      exact ih (fun other member => fresh other (List.mem_cons_of_mem _ member)) distinct.2
        ownedRest nodupRest
    · have first := fileAll_of_not_mem (fresh m List.mem_cons_self)
        (owned m List.mem_cons_self) (nodup m List.mem_cons_self) empty
      rw [first]
      refine (ih ?_ distinct.2 ownedRest nodupRest).trans ?_
      · intro other member
        unfold keys
        rw [List.map_append, List.mem_append, not_or]
        refine ⟨fresh other (List.mem_cons_of_mem _ member), ?_⟩
        simp only [List.map_cons, List.map_nil, List.mem_singleton]
        intro same
        exact distinct.1 (List.mem_map.2 ⟨other, member, same⟩)
      · rw [List.filter_cons_of_pos (by simpa using empty), List.map_cons, List.append_assoc]
        rfl

variable (distinct : (ms.map name).Nodup)
  (owned : ∀ m ∈ ms, ∀ value ∈ group m, owner value = name m)
  (nodup : ∀ m ∈ ms, ((group m).map key).Nodup)
include distinct owned nodup

/-- Filing groups and reading the tables one after another gives the groups back. -/
theorem flatMap_values_fileAll :
    (fileAll owner key .empty (ms.flatMap group)).values.flatMap Table.values =
      ms.flatMap group := by
  rw [fileAll_groups (fun _ _ => List.not_mem_nil) distinct owned nodup]
  clear distinct owned nodup
  unfold values
  rw [entries_empty, List.nil_append, List.map_map, List.flatMap_map]
  induction ms with
  | nil => rfl
  | cons m ms ih =>
    by_cases empty : group m = []
    · rw [List.filter_cons_of_neg (by simp [empty]), ih, List.flatMap_cons, empty, List.nil_append]
    · rw [List.filter_cons_of_pos (by simpa using empty), List.flatMap_cons, ih, List.flatMap_cons]
      simp [Function.comp_def]

/-- The table of an owner holds the group of that owner. -/
theorem getD_get?_fileAll {m : μ} (member : m ∈ ms) :
    ((fileAll owner key .empty (ms.flatMap group)).get? (name m)).getD .empty =
      ⟨(group m).map fun x => (key x, x)⟩ := by
  rw [fileAll_groups (fun _ _ => List.not_mem_nil) distinct owned nodup, entries_empty,
    List.nil_append]
  have keys_eq : (⟨(ms.filter (fun m => !(group m).isEmpty)).map fun m =>
      (name m, (⟨(group m).map fun x => (key x, x)⟩ : Table ι α))⟩ : Table κ (Table ι α)).keys =
      (ms.filter (fun m => !(group m).isEmpty)).map name := by
    unfold keys
    rw [List.map_map]
    rfl
  have sublist : ((ms.filter (fun m => !(group m).isEmpty)).map name).Sublist (ms.map name) :=
    List.Sublist.map _ List.filter_sublist
  by_cases empty : group m = []
  · -- An owner without values has no table; another group of the owner would be this one.
    have absent : name m ∉ (ms.filter (fun m => !(group m).isEmpty)).map name := by
      intro held
      obtain ⟨other, kept, same⟩ := List.mem_map.1 held
      obtain ⟨listed, nonempty⟩ := List.mem_filter.1 kept
      have : other = m := List.inj_on_of_nodup_map distinct listed member same
      subst this
      simp [empty] at nonempty
    rw [(get?_eq_none_iff _ _).2 (keys_eq ▸ absent), empty]
    rfl
  · have held : (name m, (⟨(group m).map fun x => (key x, x)⟩ : Table ι α)) ∈
        (ms.filter (fun m => !(group m).isEmpty)).map fun m =>
          (name m, (⟨(group m).map fun x => (key x, x)⟩ : Table ι α)) :=
      List.mem_map.2 ⟨m, List.mem_filter.2 ⟨member, by simpa using empty⟩, rfl⟩
    rw [get?_of_mem_entries (keys_eq ▸ sublist.nodup distinct) held]
    rfl

end Groups

end FileAll

end CallAtlas.Table
