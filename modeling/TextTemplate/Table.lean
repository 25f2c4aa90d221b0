/-!
# Tables

A finite map kept as a list of entries. Each key has at most one entry, and a key keeps its place
when its value is replaced. `get?_insert` and `get?_erase` say all about reading after a write.
-/

namespace TextTemplate

/-- A finite map from keys to values. -/
structure Table (κ : Type) (α : Type) where
  entries : List (κ × α) := []

namespace Table

variable {κ α : Type} [DecidableEq κ]

/-- The table without entries. -/
def empty : Table κ α := {}

/-- The value under a key. -/
def get? (t : Table κ α) (k : κ) : Option α := t.entries.lookup k

/-- Replaces the value under a key in a list of entries, or appends a new entry. -/
def put (k : κ) (a : α) : List (κ × α) → List (κ × α)
  | [] => [(k, a)]
  | (k', a') :: es => if k = k' then (k, a) :: es else (k', a') :: put k a es

/-- Sets the value under a key. -/
def insert (t : Table κ α) (k : κ) (a : α) : Table κ α := ⟨put k a t.entries⟩

/-- Removes a key. -/
def erase (t : Table κ α) (k : κ) : Table κ α := ⟨t.entries.filter (·.1 ≠ k)⟩

/-- Whether a key has a value. -/
def contains (t : Table κ α) (k : κ) : Bool := (t.get? k).isSome

/-- The keys, in the order of their first insertion. -/
def keys (t : Table κ α) : List κ := t.entries.map (·.1)

/-- How many keys there are. -/
def size (t : Table κ α) : Nat := t.entries.length

@[simp] theorem get?_empty (k : κ) : (empty : Table κ α).get? k = none := rfl

theorem lookup_put (k k' : κ) (a : α) (es : List (κ × α)) :
    (put k a es).lookup k' = if k' = k then some a else es.lookup k' := by
  induction es with
  | nil => grind [put]
  | cons e es ih => obtain ⟨k₁, a₁⟩ := e; grind [put]

@[simp] theorem get?_insert (t : Table κ α) (k k' : κ) (a : α) :
    (t.insert k a).get? k' = if k' = k then some a else t.get? k' :=
  lookup_put k k' a t.entries

/-- What is read after a write was written, or it was there under another key. -/
theorem get?_insert_cases {t : Table κ α} {k k' : κ} {a c : α}
    (h : (t.insert k a).get? k' = some c) : k' = k ∧ a = c ∨ k' ≠ k ∧ t.get? k' = some c := by
  rw [get?_insert] at h
  split at h
  · next hk => exact .inl ⟨hk, Option.some.inj h⟩
  · next hk => exact .inr ⟨hk, h⟩

/-- A key is new, and comes last, unless it is there. -/
theorem keys_insert (t : Table κ α) (k : κ) (a : α) :
    (t.insert k a).keys = if k ∈ t.keys then t.keys else t.keys ++ [k] := by
  obtain ⟨es⟩ := t
  simp only [keys, insert]
  induction es with
  | nil => rfl
  | cons e es ih =>
    obtain ⟨k₁, a₁⟩ := e
    grind [put]

theorem lookup_filter_ne (k k' : κ) (es : List (κ × α)) :
    (es.filter (·.1 ≠ k)).lookup k' = if k' = k then none else es.lookup k' := by
  induction es with
  | nil => simp
  | cons e es ih => obtain ⟨k₁, a₁⟩ := e; grind

@[simp] theorem get?_erase (t : Table κ α) (k k' : κ) :
    (t.erase k).get? k' = if k' = k then none else t.get? k' :=
  lookup_filter_ne k k' t.entries

end Table

end TextTemplate
