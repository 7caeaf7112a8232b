/-
This file relates the trees of stored types in a store that grows. While a type is under
construction some nodes are reserved only; a promise says which tree such a node will have.
`unfoldWith` reads a store with promises: below a promised node it takes the promised tree.

Trees do not change when the store grows, and filling a promised node changes no tree, provided
that one level of the promised tree is what the new contents give. The promise itself may occur
below the new contents, so this is where types that mention themselves are closed: the proof goes
by induction on the depth.
-/

import BinaryFacts.Proofs.TypeStore.Integrity
import BinaryFacts.TypeStore.Unfolding

namespace BinaryFacts

theorem TypeNode.map_congr {Child Other : Type} {replace substitute : Child → Other}
    {node : TypeNode Child} (same : ∀ child ∈ node.children, replace child = substitute child) :
    node.map replace = node.map substitute := by
  cases node with
  | struct elements | union elements =>
    have elementsSame : elements.map replace = elements.map substitute := List.map_congr_left same
    rw [TypeNode.map, TypeNode.map, elementsSame]
  | function result parameters variadic =>
    have parametersSame := List.map_congr_left fun parameter member =>
      same parameter (List.mem_cons_of_mem _ member)
    rw [TypeNode.map, TypeNode.map, same result List.mem_cons_self, parametersSame]
  | pointer child | array child | enumeration child | typedef child =>
    rw [TypeNode.map, TypeNode.map, same child (List.mem_singleton.mpr rfl)]
  | void | bool | integer | float | padding => rfl

/-- The trees that nodes under construction are going to have. -/
def Promise := TypeId → Option (Nat → Unfolding)

namespace Promise

/-- No promises. -/
def empty : Promise := fun _ => none

/-- Promise a tree for one more node. -/
def promising (promise : Promise) (id : TypeId) (tree : Nat → Unfolding) : Promise :=
  fun other => if other = id then some tree else promise other

/-- The nodes with a promise. -/
def opened (promise : Promise) : Set TypeId := {id | (promise id).isSome}

theorem promising_self (promise : Promise) (id : TypeId) (tree : Nat → Unfolding) :
    promise.promising id tree id = some tree :=
  if_pos rfl

theorem promising_of_ne (promise : Promise) {id other : TypeId} (tree : Nat → Unfolding)
    (different : other ≠ id) : promise.promising id tree other = promise other :=
  if_neg different

theorem opened_empty : empty.opened = ∅ := by
  ext id
  exact iff_of_false (fun isSome => nomatch isSome) (Set.notMem_empty id)

theorem opened_promising (promise : Promise) (id : TypeId) (tree : Nat → Unfolding) :
    (promise.promising id tree).opened = insert id promise.opened := by
  ext other
  rw [Set.mem_insert_iff]
  by_cases same : other = id
  · subst same
    refine iff_of_true ?_ (Or.inl rfl)
    show (promise.promising other tree other).isSome
    rw [promising_self]
    rfl
  · show (promise.promising id tree other).isSome ↔ other = id ∨ (promise other).isSome
    rw [promising_of_ne promise tree same, or_iff_right same]

theorem eq_none_of_notMem {promise : Promise} {id : TypeId} (closed : id ∉ promise.opened) :
    promise id = none :=
  Option.not_isSome_iff_eq_none.mp closed

end Promise

namespace TypeStore

/-- The tree of a stored type, cut after `depth` levels, with promised trees below promised
nodes. -/
def unfoldWith (promise : Promise) (store : TypeStore) : Nat → TypeId → Unfolding
  | 0, _ => .cut
  | depth + 1, id =>
    match promise id with
    | some tree => tree (depth + 1)
    | none =>
      match store.get? id with
      | none => .dangling id
      | some node => .node (node.map (store.unfoldWith promise depth))

theorem unfoldWith_of_promised {promise : Promise} (store : TypeStore) {id : TypeId}
    {tree : Nat → Unfolding} (promised : promise id = some tree) (depth : Nat) :
    store.unfoldWith promise (depth + 1) id = tree (depth + 1) := by
  rw [unfoldWith, promised]

/-- A node with a promise has the promised tree. -/
theorem unfoldWith_promising (promise : Promise) (store : TypeStore) (id : TypeId)
    {tree : Nat → Unfolding} (begins : tree 0 = .cut) (depth : Nat) :
    store.unfoldWith (promise.promising id tree) depth id = tree depth := by
  cases depth with
  | zero => exact begins.symm
  | succ depth => exact unfoldWith_of_promised store (promise.promising_self id tree) depth

theorem unfoldWith_of_get? {promise : Promise} {store : TypeStore} {id : TypeId}
    {node : TypeNode TypeId} (closed : id ∉ promise.opened) (present : store.get? id = some node)
    (depth : Nat) :
    store.unfoldWith promise (depth + 1) id =
      .node (node.map (store.unfoldWith promise depth)) := by
  rw [unfoldWith, Promise.eq_none_of_notMem closed, present]

/-- Without promises the tree of a type is its unfolding. -/
theorem unfoldWith_empty (store : TypeStore) (depth : Nat) (id : TypeId) :
    store.unfoldWith .empty depth id = store.unfold depth id := by
  induction depth generalizing id with
  | zero => rfl
  | succ depth inductionHypothesis =>
    have below : store.unfoldWith .empty depth = store.unfold depth := funext inductionHypothesis
    rw [unfoldWith, unfold, below]
    rfl

/-- The trees of old nodes do not change as long as the old nodes do not. -/
theorem unfoldWith_eq_of_get?_eq {mark store : TypeStore} {promise larger : Promise}
    (kept : ∀ id : TypeId, id.index < mark.size → store.get? id = mark.get? id)
    (closed : ∀ id node, mark.get? id = some node → ∀ child ∈ node.children,
      child.index < mark.size)
    (same : ∀ id : TypeId, id.index < mark.size → larger id = promise id) (depth : Nat)
    {id : TypeId} (old : id.index < mark.size) :
    store.unfoldWith larger depth id = mark.unfoldWith promise depth id := by
  induction depth generalizing id with
  | zero => rfl
  | succ depth inductionHypothesis =>
    rw [unfoldWith, unfoldWith, same id old, kept id old]
    cases promise id with
    | some tree => rfl
    | none =>
      cases present : mark.get? id with
      | none => rfl
      | some node =>
        have below := TypeNode.map_congr fun child member =>
          inductionHypothesis (closed id node present child member)
        show Unfolding.node _ = Unfolding.node _
        rw [below]

/-- Filling a promised node keeps every tree, if one level of the promised tree is what the new
contents give. -/
theorem unfoldWith_fill {store : TypeStore} {promise : Promise} {id : TypeId}
    {node : TypeNode TypeId} {tree : Nat → Unfolding} (inside : id.index < store.size)
    (closed : id ∉ promise.opened)
    (kept : ∀ depth,
      tree (depth + 1) = .node (node.map (store.unfoldWith (promise.promising id tree) depth)))
    (depth : Nat) (other : TypeId) :
    (store.fill id node).unfoldWith promise depth other =
      store.unfoldWith (promise.promising id tree) depth other := by
  induction depth generalizing other with
  | zero => rfl
  | succ depth inductionHypothesis =>
    have below : (store.fill id node).unfoldWith promise depth =
        store.unfoldWith (promise.promising id tree) depth := funext inductionHypothesis
    -- At the filled node itself the promise is redeemed one level down, where the trees agree.
    by_cases same : other = id
    · subst same
      have filled := get?_fill store other other node inside
      rw [if_pos rfl] at filled
      rw [unfoldWith_of_get? closed filled, below, ← kept,
        unfoldWith_of_promised store (promise.promising_self other tree)]
    · rw [unfoldWith, unfoldWith, Promise.promising_of_ne promise tree same,
        get?_fill_of_ne store node same, below]

end TypeStore

end BinaryFacts
