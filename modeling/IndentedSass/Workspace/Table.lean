/-
  Finite tables.

  A table gives values to finitely many keys.  What a table says of a key is
  `Table.get?`, and every operation is described by what it does to that:

  * `Table.insert` gives a key a value (`get?_insert`);
  * `Table.erase` takes it away (`get?_erase`).

  `Table.size` counts the keys, each of which stands in a table only once.
-/
namespace IndentedSass

/-- A table from `α` to `β`. -/
structure Table (α β : Type) where
  /-- The keys and their values. -/
  entries : List (α × β) := []
  deriving Repr

namespace Table

variable {α β : Type} [DecidableEq α]

/-- The table without keys. -/
def empty : Table α β := {}

/-- The value of a key. -/
def get? (t : Table α β) (k : α) : Option β := t.entries.lookup k

/-- Whether a key has a value. -/
def contains (t : Table α β) (k : α) : Bool := (t.get? k).isSome

/-- The table without a key. -/
def erase (t : Table α β) (k : α) : Table α β := ⟨t.entries.filter fun e => e.1 ≠ k⟩

/-- The table in which a key has a value. -/
def insert (t : Table α β) (k : α) (v : β) : Table α β := ⟨(k, v) :: (t.erase k).entries⟩

/-- The number of keys. -/
def size (t : Table α β) : Nat := t.entries.length

/-- The keys. -/
def keys (t : Table α β) : List α := t.entries.map Prod.fst

@[simp] theorem get?_empty (k : α) : (empty : Table α β).get? k = none := rfl

@[simp] theorem get?_erase_self (t : Table α β) (k : α) : (t.erase k).get? k = none := by
  obtain ⟨entries⟩ := t
  simp only [get?, erase]
  induction entries with
  | nil => rfl
  | cons e es ih =>
    obtain ⟨a, b⟩ := e
    by_cases h : a = k
    · simpa [h] using ih
    · have h' : (k == a) = false := by simp [Ne.symm h]
      simpa [h, List.lookup_cons, h'] using ih

theorem get?_erase_of_ne (t : Table α β) {k k' : α} (h : k' ≠ k) :
    (t.erase k).get? k' = t.get? k' := by
  obtain ⟨entries⟩ := t
  simp only [get?, erase]
  induction entries with
  | nil => rfl
  | cons e es ih =>
    obtain ⟨a, b⟩ := e
    by_cases hk : k' = a
    · subst hk; simp [h]
    · have h' : (k' == a) = false := by simp [hk]
      rw [List.filter_cons]
      split <;> simp only [List.lookup_cons, h'] <;> exact ih

@[simp] theorem get?_insert_self (t : Table α β) (k : α) (v : β) :
    (t.insert k v).get? k = some v := by
  simp [get?, insert]

theorem get?_insert_of_ne (t : Table α β) {k k' : α} (v : β) (h : k' ≠ k) :
    (t.insert k v).get? k' = t.get? k' := by
  have h' : (k' == k) = false := by simp [h]
  rw [← get?_erase_of_ne t h]
  simp [get?, insert, List.lookup_cons, h']

theorem get?_insert (t : Table α β) (k k' : α) (v : β) :
    (t.insert k v).get? k' = if k' = k then some v else t.get? k' := by
  by_cases h : k' = k
  · subst h; simp
  · simp [h, get?_insert_of_ne t v h]

theorem get?_erase (t : Table α β) (k k' : α) :
    (t.erase k).get? k' = if k' = k then none else t.get? k' := by
  by_cases h : k' = k
  · subst h; simp
  · simp [h, get?_erase_of_ne t h]

/-- A key with a value is among the keys. -/
theorem mem_keys_of_get? {t : Table α β} {k : α} {v : β} (h : t.get? k = some v) : k ∈ t.keys := by
  obtain ⟨entries⟩ := t
  simp only [get?, keys] at *
  induction entries with
  | nil => simp at h
  | cons e es ih =>
    obtain ⟨a, b⟩ := e
    by_cases hk : k = a
    · simp [hk]
    · have h' : (k == a) = false := by simp [hk]
      simp only [List.lookup_cons, h'] at h
      exact List.mem_cons_of_mem _ (ih h)

end Table

end IndentedSass
