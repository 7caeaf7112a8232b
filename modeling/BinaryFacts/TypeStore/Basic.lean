/-
This file defines the type store: the nodes of all types of a program, numbered in the order in
which they were added. Leaves are shared, through an index from leaf values to ids; all other
nodes are added as new. A node can be reserved before its children exist, which is how a type
comes to mention itself, and filled once they do. Truncation drops the newest nodes together with
their entries in the leaf index.
-/

import BinaryFacts.Fault
import BinaryFacts.Table
import BinaryFacts.TypeStore.Node

namespace BinaryFacts

/-- The nodes of a program's types, and the ids of its shared leaves. -/
structure TypeStore where
  nodes : Array (TypeNode TypeId) := #[]
  leaves : Table (TypeNode TypeId) TypeId := .empty

namespace TypeStore

/-- The store without nodes. -/
def empty : TypeStore := {}

/-- The number of nodes. -/
def size (store : TypeStore) : Nat := store.nodes.size

/-- The node with an id, if the store has one. -/
def get? (store : TypeStore) (id : TypeId) : Option (TypeNode TypeId) := store.nodes[id.index]?

/-- The node with an id; a fault if the store has none. -/
def node (store : TypeStore) (id : TypeId) : Except Fault (TypeNode TypeId) :=
  match store.get? id with
  | some node => .ok node
  | none => .error (.indexOutOfRange store.size id.index)

/-- The id of the next node; none once all ids are in use. -/
def next? (store : TypeStore) : Option TypeId := TypeId.ofIndex? store.size

/-- The store with one node more. -/
def push (store : TypeStore) (node : TypeNode TypeId) : TypeStore :=
  { store with nodes := store.nodes.push node }

/-- Add a node, if an id is left. -/
def add (store : TypeStore) (node : TypeNode TypeId) : Option (TypeId × TypeStore) := do
  let id ← store.next?
  return (id, store.push node)

/-- Add a node, unless it is a leaf that was shared before. A leaf that was shared needs no id of
its own. -/
def intern (store : TypeStore) (node : TypeNode TypeId) : Option (TypeId × TypeStore) :=
  if node.isLeaf then
    match store.leaves.find? node with
    | some id => some (id, store)
    | none => do
      let (id, store) ← store.add node
      return (id, { store with leaves := store.leaves.insert node id })
  else store.add node

/-- Add a node whose contents come later; until then it reads as void. -/
def reserve (store : TypeStore) : Option (TypeId × TypeStore) := store.add .void

/-- Give a reserved node its contents. -/
def fill (store : TypeStore) (id : TypeId) (node : TypeNode TypeId) : TypeStore :=
  { store with nodes := store.nodes.setIfInBounds id.index node }

/-- Keep only the first `count` nodes, and only their leaves. -/
def truncate (store : TypeStore) (count : Nat) : TypeStore where
  nodes := store.nodes.take count
  leaves := store.leaves.filter fun _ id => id.index < count

/-- The ids of a store, ascending. -/
def ids (store : TypeStore) : List TypeId :=
  (List.range store.size).map fun index => ⟨UInt32.ofNat index⟩

/-! ### What the operations do to the nodes -/

theorem next?_eq_some_iff {store : TypeStore} {id : TypeId} :
    store.next? = some id ↔ id.index = store.size :=
  TypeId.ofIndex?_eq_some_iff

theorem next?_eq_none_iff {store : TypeStore} :
    store.next? = none ↔ TypeId.count ≤ store.size :=
  TypeId.ofIndex?_eq_none_iff

theorem add_eq_some_iff {store larger : TypeStore} {node : TypeNode TypeId} {id : TypeId} :
    store.add node = some (id, larger) ↔ store.next? = some id ∧ larger = store.push node := by
  unfold add
  cases store.next? <;> simp [eq_comm]

theorem add_eq_none_iff {store : TypeStore} {node : TypeNode TypeId} :
    store.add node = none ↔ store.next? = none := by
  unfold add
  cases store.next? <;> simp

@[simp] theorem size_push (store : TypeStore) (node : TypeNode TypeId) :
    (store.push node).size = store.size + 1 := by
  simp [push, size]

@[simp] theorem size_fill (store : TypeStore) (id : TypeId) (node : TypeNode TypeId) :
    (store.fill id node).size = store.size := by
  simp [fill, size]

/-- A node that is added has the next index, and all others are kept. -/
theorem get?_push (store : TypeStore) (node : TypeNode TypeId) (id : TypeId) :
    (store.push node).get? id = if id.index = store.size then some node else store.get? id :=
  Array.getElem?_push

/-- Filling a node changes that node and no other. -/
theorem get?_fill (store : TypeStore) (id other : TypeId) (node : TypeNode TypeId)
    (present : id.index < store.size) :
    (store.fill id node).get? other = if other = id then some node else store.get? other := by
  simp only [fill, get?, Array.getElem?_setIfInBounds]
  by_cases same : id.index = other.index
  · obtain rfl := TypeId.ext_index same
    simpa [size] using present
  · have different : other ≠ id := fun equal => same (by rw [equal])
    simp [same, different]

theorem get?_fill_of_ne (store : TypeStore) {id other : TypeId} (node : TypeNode TypeId)
    (different : other ≠ id) : (store.fill id node).get? other = store.get? other := by
  have apart : id.index ≠ other.index := fun same => different (TypeId.ext_index same.symm)
  simp only [fill, get?, Array.getElem?_setIfInBounds, apart, if_false]

/-- An id belongs to a store exactly when it is below its size. -/
theorem get?_eq_none_iff (store : TypeStore) (id : TypeId) :
    store.get? id = none ↔ store.size ≤ id.index :=
  Array.getElem?_eq_none_iff

theorem index_lt_of_get?_eq_some {store : TypeStore} {id : TypeId} {node : TypeNode TypeId}
    (present : store.get? id = some node) : id.index < store.size := by
  obtain ⟨inside, -⟩ := Array.getElem?_eq_some_iff.mp present
  exact inside

/-- Truncation keeps the nodes below the count. -/
theorem getElem?_nodes_truncate (store : TypeStore) (count index : Nat) :
    (store.truncate count).nodes[index]? = if index < count then store.nodes[index]? else none := by
  simp only [truncate, Array.take_eq_extract, Array.getElem?_extract]
  by_cases below : index < count
  · by_cases present : index < store.nodes.size
    · simp [below, Nat.lt_min.mpr ⟨below, present⟩]
    · simp [below, present]
  · rw [if_neg below, if_neg fun inside => below (by omega)]

end TypeStore

end BinaryFacts
