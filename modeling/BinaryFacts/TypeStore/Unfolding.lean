/-
This file defines what a stored type means: the tree that appears when ids are replaced by the
nodes they stand for, again and again. A type that mentions itself has an infinite tree, so the
tree is cut at a depth; two types mean the same when their trees agree at every depth.
-/

import BinaryFacts.TypeStore.Basic

namespace BinaryFacts

/-- A type as a tree, cut at some depth. -/
inductive Unfolding where
  /-- The tree goes on below. -/
  | cut
  /-- No node has the id. -/
  | dangling (id : TypeId)
  | node (node : TypeNode Unfolding)

namespace TypeStore

/-- The tree of a stored type, cut after `depth` levels. -/
def unfold (store : TypeStore) : Nat → TypeId → Unfolding
  | 0, _ => .cut
  | depth + 1, id =>
    match store.get? id with
    | none => .dangling id
    | some node => .node (node.map (store.unfold depth))

end TypeStore

/-- Two stored types, each in its own store, mean the same. -/
def SameMeaning (left : TypeStore) (leftId : TypeId) (right : TypeStore) (rightId : TypeId) :
    Prop :=
  ∀ depth, left.unfold depth leftId = right.unfold depth rightId

end BinaryFacts
