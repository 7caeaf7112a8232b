/-
This file defines finite tables: lists of entries in which a key stands at most once after any
sequence of insertions. A table is read through `find?` alone, and `find?_insert` and
`find?_erase` say what each operation does to it.
-/

namespace BinaryFacts

/-- A finite table from keys to values, newest entry first. -/
structure Table (Key Value : Type) where
  entries : List (Key × Value) := []

namespace Table

variable {Key Value : Type}

/-- The table without entries. -/
def empty : Table Key Value := {}

/-- The number of entries. -/
def size (table : Table Key Value) : Nat := table.entries.length

/-- Keep the entries that satisfy `keep`. -/
def filter (keep : Key → Value → Bool) (table : Table Key Value) : Table Key Value :=
  ⟨table.entries.filter fun entry => keep entry.1 entry.2⟩

variable [DecidableEq Key]

/-- The value of a key. -/
def find? (table : Table Key Value) (key : Key) : Option Value :=
  (table.entries.find? fun entry => entry.1 = key).map (·.2)

/-- Remove a key. -/
def erase (table : Table Key Value) (key : Key) : Table Key Value :=
  ⟨table.entries.filter fun entry => entry.1 ≠ key⟩

/-- Give a key a value; an earlier value of the same key is replaced. -/
def insert (table : Table Key Value) (key : Key) (value : Value) : Table Key Value :=
  ⟨(key, value) :: (table.erase key).entries⟩

@[simp] theorem find?_empty (key : Key) : (empty : Table Key Value).find? key = none := rfl

/-- Erasing a key hides that key and no other. -/
theorem find?_erase (table : Table Key Value) (key other : Key) :
    (table.erase key).find? other = if other = key then none else table.find? other := by
  unfold erase find?
  split
  · rename_i same
    simp [same, List.find?_filter]
  · rename_i different
    rw [List.find?_filter]
    congr 2
    funext entry
    by_cases h : entry.1 = other <;> simp [h, different]

/-- Inserting a key changes the value of that key and no other. -/
theorem find?_insert (table : Table Key Value) (key other : Key) (value : Value) :
    (table.insert key value).find? other =
      if other = key then some value else table.find? other := by
  by_cases same : key = other
  · subst same
    simp [insert, find?]
  · have step : (table.insert key value).find? other = (table.erase key).find? other := by
      simp [insert, find?, same]
    rw [step, find?_erase]
    simp [Ne.symm same]

/-- A key without a value has no entry. -/
theorem find?_eq_none_iff (table : Table Key Value) (key : Key) :
    table.find? key = none ↔ ∀ entry ∈ table.entries, entry.1 ≠ key := by
  simp [find?]

/-- Erasing a key without a value changes nothing. -/
theorem erase_of_find?_eq_none {table : Table Key Value} {key : Key}
    (absent : table.find? key = none) : table.erase key = table := by
  have keep : table.entries.filter (fun entry => entry.1 ≠ key) = table.entries := by
    rw [List.filter_eq_self]
    intro entry member
    simpa using (find?_eq_none_iff table key).mp absent entry member
  rw [erase, keep]

/-- A new key is entered before all others. -/
theorem entries_insert_of_find?_eq_none {table : Table Key Value} {key : Key} (value : Value)
    (absent : table.find? key = none) :
    (table.insert key value).entries = (key, value) :: table.entries := by
  rw [insert, erase_of_find?_eq_none absent]

end Table

end BinaryFacts
