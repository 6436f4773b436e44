/-!
# Tables

A table maps keys to values and remembers the order in which its keys first
came in. Putting a value under a key that is there replaces the value and keeps
the place.
-/

namespace CallAtlas

/-- Values by key, in the order in which the keys came in. -/
structure Table (κ α : Type) where
  entries : List (κ × α)
deriving Repr, DecidableEq

namespace Table

variable {κ α : Type} [DecidableEq κ]

/-- The table without keys. -/
def empty : Table κ α :=
  ⟨[]⟩

/-- The value under a key. -/
def get? (t : Table κ α) (key : κ) : Option α :=
  t.entries.lookup key

/-- Whether there is a value under a key. -/
def contains (t : Table κ α) (key : κ) : Bool :=
  (t.get? key).isSome

/-- Entries with one value put under a key. -/
def putEntry (key : κ) (value : α) : List (κ × α) → List (κ × α)
  | [] => [(key, value)]
  | entry :: entries =>
    if key = entry.1 then (entry.1, value) :: entries else entry :: putEntry key value entries

/-- The table with a value put under a key. -/
def put (t : Table κ α) (key : κ) (value : α) : Table κ α :=
  ⟨putEntry key value t.entries⟩

/-- The table with the value under a key changed, starting from a default where there is
none. -/
def update (t : Table κ α) (key : κ) (default : α) (f : α → α) : Table κ α :=
  t.put key (f ((t.get? key).getD default))

/-- The keys in the order in which they came in. -/
def keys (t : Table κ α) : List κ :=
  t.entries.map Prod.fst

/-- The values in the order of their keys. -/
def values (t : Table κ α) : List α :=
  t.entries.map Prod.snd

/-- The number of keys. -/
def size (t : Table κ α) : Nat :=
  t.entries.length

@[simp]
theorem get?_empty (key : κ) : (empty : Table κ α).get? key = none := rfl

theorem lookup_putEntry (key other : κ) (value : α) (entries : List (κ × α)) :
    (putEntry key value entries).lookup other =
      if other = key then some value else entries.lookup other := by
  induction entries with
  | nil =>
    by_cases h : other = key
    · simp [putEntry, h]
    · have differ : (other == key) = false := by simpa using h
      simp [putEntry, List.lookup_cons, h, differ]
  | cons entry entries ih =>
    obtain ⟨held, old⟩ := entry
    by_cases hkey : key = held
    · subst hkey
      by_cases h : other = key
      · simp [putEntry, h]
      · have differ : (other == key) = false := by simpa using h
        simp [putEntry, List.lookup_cons, h, differ]
    · by_cases h : other = held
      · have other_ne : ¬ held = key := fun e => hkey e.symm
        simp [putEntry, hkey, h, other_ne]
      · have differ : (other == held) = false := by simpa using h
        simp [putEntry, hkey, List.lookup_cons, differ, ih]

/-- What a put does to look-ups. -/
@[simp]
theorem get?_put (t : Table κ α) (key other : κ) (value : α) :
    (t.put key value).get? other = if other = key then some value else t.get? other :=
  lookup_putEntry key other value t.entries

end Table
end CallAtlas
