/-
This file states what a type store is like in the middle of a request, and what each of its
operations keeps.

A store extends another one if it holds everything that the other holds, in its place: the nodes
under their ids, the shared leaves under their values. A store that grew from another one in this
way is taken back to it by truncation.

Nodes that are reserved and not yet filled are open: they read as void without being the shared
void leaf. Apart from the open nodes a sound store is in order: children exist, the leaf index
lists exactly the leaves, enumerations are over unsigned integers, and padding occurs in
structures only, never empty and never side by side.
-/

import BinaryFacts.TypeStore.Basic
import Mathlib.Data.List.Chain
import Mathlib.Data.Set.Insert

namespace BinaryFacts

/-! ### Stores that grow -/

/-- A store with everything that another one holds, in its place. -/
structure TypeStore.Extends (mark store : TypeStore) : Prop where
  size_le : mark.size ≤ store.size
  nodes_eq : ∀ index < mark.size, store.nodes[index]? = mark.nodes[index]?
  /-- New leaves are past the old nodes. -/
  leaves : ∃ added, store.leaves.entries = added ++ mark.leaves.entries ∧
    ∀ entry ∈ added, mark.size ≤ entry.2.index ∧ entry.2.index < store.size

/-! ### What interning comes to -/

namespace TypeStore

/-- The store with a new leaf that is shared under an id. -/
def pushLeaf (store : TypeStore) (node : TypeNode TypeId) (id : TypeId) : TypeStore :=
  { store.push node with leaves := store.leaves.insert node id }

@[simp] theorem get?_pushLeaf (store : TypeStore) (node : TypeNode TypeId) (id other : TypeId) :
    (store.pushLeaf node id).get? other = (store.push node).get? other := rfl

theorem intern_of_found {store : TypeStore} {node : TypeNode TypeId} {id : TypeId}
    (leaf : node.isLeaf = true) (found : store.leaves.find? node = some id) :
    store.intern node = some (id, store) := by
  rw [intern, if_pos leaf, found]

theorem intern_of_absent {store : TypeStore} {node : TypeNode TypeId}
    (leaf : node.isLeaf = true) (absent : store.leaves.find? node = none) :
    store.intern node = store.next?.map fun id => (id, store.pushLeaf node id) := by
  rw [intern, if_pos leaf, absent]
  unfold add
  cases store.next? <;> rfl

/-- A leaf that is interned was shared before, or it is new and gets the next id. -/
theorem intern_eq_some_iff {store larger : TypeStore} {node : TypeNode TypeId} {id : TypeId}
    (leaf : node.isLeaf = true) :
    store.intern node = some (id, larger) ↔
      (store.leaves.find? node = some id ∧ larger = store) ∨
        (store.leaves.find? node = none ∧ store.next? = some id ∧
          larger = store.pushLeaf node id) := by
  cases found : store.leaves.find? node with
  | some shared => simp [intern_of_found leaf found, eq_comm]
  | none =>
    simp only [intern_of_absent leaf found, Option.map_eq_some_iff, Prod.mk.injEq, reduceCtorEq,
      false_and, true_and, false_or]
    exact ⟨fun ⟨_, isNext, rfl, same⟩ => ⟨isNext, same.symm⟩,
      fun ⟨isNext, same⟩ => ⟨id, isNext, rfl, same.symm⟩⟩

/-- No leaf is refused unless all ids are in use. -/
theorem next?_eq_none_of_intern {store : TypeStore} {node : TypeNode TypeId}
    (full : store.intern node = none) : store.next? = none := by
  unfold intern at full
  split at full
  · split at full
    · cases full
    · cases next : store.next? with
      | none => rfl
      | some id => simp [add, next] at full
  · exact add_eq_none_iff.mp full

end TypeStore

namespace TypeStore.Extends

variable {mark store : TypeStore}

theorem get?_eq (grown : mark.Extends store) (id : TypeId) (old : id.index < mark.size) :
    store.get? id = mark.get? id :=
  grown.nodes_eq id.index old

theorem refl (store : TypeStore) : store.Extends store where
  size_le := Nat.le_refl _
  nodes_eq := fun _ _ => rfl
  leaves := ⟨[], rfl, fun _ member => nomatch member⟩

theorem push (grown : mark.Extends store) (node : TypeNode TypeId) :
    mark.Extends (store.push node) where
  size_le := by
    rw [size_push]
    exact Nat.le_succ_of_le grown.size_le
  nodes_eq := by
    intro index old
    have inside : index < store.nodes.size := Nat.lt_of_lt_of_le old grown.size_le
    simp only [TypeStore.push, Array.getElem?_push, Nat.ne_of_lt inside, if_false]
    exact grown.nodes_eq index old
  leaves := by
    obtain ⟨added, entries, past⟩ := grown.leaves
    refine ⟨added, entries, fun entry member => ⟨(past entry member).1, ?_⟩⟩
    rw [size_push]
    exact Nat.lt_succ_of_lt (past entry member).2

/-- A new leaf has a new id. -/
theorem pushLeaf (grown : mark.Extends store) {node : TypeNode TypeId} {id : TypeId}
    (absent : store.leaves.find? node = none) (isNext : id.index = store.size) :
    mark.Extends (store.pushLeaf node id) where
  size_le := (grown.push node).size_le
  nodes_eq := (grown.push node).nodes_eq
  leaves := by
    obtain ⟨added, entries, past⟩ := (grown.push node).leaves
    refine ⟨(node, id) :: added, ?_, ?_⟩
    · have entriesBefore : store.leaves.entries = added ++ mark.leaves.entries := entries
      show (store.leaves.insert node id).entries = _
      rw [Table.entries_insert_of_find?_eq_none _ absent, entriesBefore, List.cons_append]
    · intro entry member
      rcases List.mem_cons.mp member with rfl | old
      · exact ⟨isNext ▸ grown.size_le, isNext ▸ (size_push store node).symm ▸ Nat.lt_succ_self _⟩
      · exact past entry old

theorem intern (grown : mark.Extends store) {node : TypeNode TypeId} {id : TypeId}
    {larger : TypeStore} (interned : store.intern node = some (id, larger)) :
    mark.Extends larger := by
  by_cases leaf : node.isLeaf
  · rcases (intern_eq_some_iff leaf).mp interned with ⟨-, rfl⟩ | ⟨absent, isNext, rfl⟩
    · exact grown
    · exact grown.pushLeaf absent (next?_eq_some_iff.mp isNext)
  · rw [TypeStore.intern, if_neg leaf, add_eq_some_iff] at interned
    obtain ⟨-, rfl⟩ := interned
    exact grown.push node

/-- Filling a new node changes no old one. -/
theorem fill (grown : mark.Extends store) {id : TypeId} (node : TypeNode TypeId)
    (new : mark.size ≤ id.index) : mark.Extends (store.fill id node) where
  size_le := by
    rw [size_fill]
    exact grown.size_le
  nodes_eq := by
    intro index old
    have different : id.index ≠ index := fun same => Nat.not_lt.mpr new (same ▸ old)
    simp only [TypeStore.fill, Array.getElem?_setIfInBounds, different, if_false]
    exact grown.nodes_eq index old
  leaves := by
    rw [size_fill]
    exact grown.leaves

/-- Truncation takes a store back to the one it grew from. -/
theorem truncate (grown : mark.Extends store)
    (inside : ∀ entry ∈ mark.leaves.entries, entry.2.index < mark.size) :
    store.truncate mark.size = mark := by
  have nodes : (store.truncate mark.size).nodes = mark.nodes := by
    refine Array.ext_getElem? fun index => ?_
    rw [getElem?_nodes_truncate]
    by_cases old : index < mark.size
    · rw [if_pos old, grown.nodes_eq index old]
    · rw [if_neg old, Array.getElem?_eq_none (Nat.le_of_not_lt old)]
  have leaves : (store.truncate mark.size).leaves = mark.leaves := by
    obtain ⟨added, entries, past⟩ := grown.leaves
    unfold TypeStore.truncate Table.filter
    dsimp only
    have dropped : added.filter (fun entry => decide (entry.2.index < mark.size)) = [] := by
      rw [List.filter_eq_nil_iff]
      intro entry member
      simpa using (past entry member).1
    have kept : mark.leaves.entries.filter
        (fun entry => decide (entry.2.index < mark.size)) = mark.leaves.entries := by
      rw [List.filter_eq_self]
      intro entry member
      simpa using inside entry member
    rw [entries, List.filter_append, dropped, kept, List.nil_append]
  calc store.truncate mark.size
      = ⟨(store.truncate mark.size).nodes, (store.truncate mark.size).leaves⟩ := rfl
    _ = mark := by rw [nodes, leaves]

end TypeStore.Extends

/-! ### Nodes that fit into a store -/

/-- Whether a node is of a kind that is always known by a key. -/
def TypeNode.isKeyed {Child : Type} : TypeNode Child → Bool
  | .pointer _ | .array _ _ | .function _ _ _ | .typedef _ => true
  | .void | .bool | .integer _ _ | .float _ | .struct _ | .union _ | .enumeration _
  | .padding _ => false

theorem TypeNode.isKeyed_of_isLeaf {Child : Type} {node : TypeNode Child}
    (leaf : node.isLeaf = true) : node.isKeyed = false := by
  cases node <;> first | rfl | cases leaf

theorem TypeNode.ne_zero_of_isPadding {Child : Type} {node : TypeNode Child}
    (other : node.isPadding = false) : ∀ bytes, node = .padding bytes → bytes ≠ 0 := by
  rintro bytes rfl
  cases other

namespace TypeStore

/-- An id of padding. -/
def IsPadding (store : TypeStore) (id : TypeId) : Prop :=
  ∃ bytes, store.get? id = some (.padding bytes)

/-- Not both of two neighbours are padding. -/
def Apart (store : TypeStore) (left right : TypeId) : Prop :=
  store.IsPadding left → ¬ store.IsPadding right

/-- A node that can stand in a store. -/
structure Fits (store : TypeStore) (node : TypeNode TypeId) : Prop where
  children : ∀ child ∈ node.children, child.index < store.size
  underlying : ∀ id, node = .enumeration id →
    ∃ width, store.get? id = some (.integer width false)
  padding : ∀ child ∈ node.children, store.IsPadding child →
    ∃ elements, node = .struct elements
  apart : ∀ elements, node = .struct elements → elements.IsChain store.Apart
  bytes : ∀ bytes, node = .padding bytes → bytes ≠ 0

/-- A node that fits into a store fits into every store that has as many nodes, the same unsigned
integers and no padding in the place of other nodes. -/
theorem Fits.mono {store larger : TypeStore} {node : TypeNode TypeId} (fits : store.Fits node)
    (size_le : store.size ≤ larger.size)
    (integers : ∀ id width, store.get? id = some (.integer width false) →
      larger.get? id = some (.integer width false))
    (paddings : ∀ id, id.index < store.size → larger.IsPadding id → store.IsPadding id) :
    larger.Fits node where
  children child member := Nat.lt_of_lt_of_le (fits.children child member) size_le
  underlying id same := by
    obtain ⟨width, present⟩ := fits.underlying id same
    exact ⟨width, integers id width present⟩
  padding child member filler :=
    fits.padding child member (paddings child (fits.children child member) filler)
  apart elements same := by
    subst same
    refine (fits.apart elements rfl).imp_of_mem_imp fun left right leftIn rightIn apart => ?_
    intro leftFiller rightFiller
    exact apart (paddings left (fits.children left leftIn) leftFiller)
      (paddings right (fits.children right rightIn) rightFiller)
  bytes := fits.bytes

theorem Fits.extends {mark store : TypeStore} {node : TypeNode TypeId} (fits : mark.Fits node)
    (grown : mark.Extends store) : store.Fits node := by
  refine fits.mono grown.size_le ?_ ?_
  · intro id width present
    rw [grown.get?_eq id (index_lt_of_get?_eq_some present), present]
  · rintro id old ⟨bytes, present⟩
    exact ⟨bytes, by rw [← grown.get?_eq id old, present]⟩

/-- A leaf fits into every store, unless it is empty padding. -/
theorem fits_of_isLeaf (store : TypeStore) {node : TypeNode TypeId} (leaf : node.isLeaf = true)
    (nonempty : ∀ bytes, node = .padding bytes → bytes ≠ 0) : store.Fits node where
  children child member := by
    rw [TypeNode.children_of_isLeaf leaf] at member
    cases member
  underlying id same := by
    rw [same] at leaf
    cases leaf
  padding child member := by
    rw [TypeNode.children_of_isLeaf leaf] at member
    cases member
  apart elements same := by
    rw [same] at leaf
    cases leaf
  bytes := nonempty

/-- An id that can be a part of any type. -/
structure IsPart (store : TypeStore) (id : TypeId) : Prop where
  index_lt : id.index < store.size
  not_padding : ¬ store.IsPadding id

theorem IsPart.extends {mark store : TypeStore} {id : TypeId} (part : mark.IsPart id)
    (grown : mark.Extends store) : store.IsPart id where
  index_lt := Nat.lt_of_lt_of_le part.index_lt grown.size_le
  not_padding := by
    rintro ⟨bytes, present⟩
    exact part.not_padding ⟨bytes, by rw [← grown.get?_eq id part.index_lt, present]⟩

theorem isPart_of_get? {store : TypeStore} {id : TypeId} {node : TypeNode TypeId}
    (present : store.get? id = some node) (other : node.isPadding = false) :
    store.IsPart id where
  index_lt := index_lt_of_get?_eq_some present
  not_padding := by
    rintro ⟨bytes, filler⟩
    rw [present, Option.some.injEq] at filler
    rw [filler] at other
    cases other

end TypeStore

/-! ### Stores with open nodes -/

/-- A store that is in order, apart from the nodes in `opened`, which are reserved and not yet
filled. -/
structure TypeStore.Sound (opened : Set TypeId) (store : TypeStore) : Prop where
  fits : ∀ id node, store.get? id = some node → store.Fits node
  leaf_iff : ∀ node id, store.leaves.find? node = some id ↔
    node.isLeaf = true ∧ id ∉ opened ∧ store.get? id = some node
  opened_void : ∀ id ∈ opened, store.get? id = some .void

namespace TypeStore

/-- An interned leaf is shared. -/
theorem leaves_intern {store larger : TypeStore} {node : TypeNode TypeId} {id : TypeId}
    (leaf : node.isLeaf = true) (interned : store.intern node = some (id, larger)) :
    larger.leaves.find? node = some id := by
  rcases (intern_eq_some_iff leaf).mp interned with ⟨found, rfl⟩ | ⟨-, -, rfl⟩
  · exact found
  · exact (Table.find?_insert _ _ _ _).trans (if_pos rfl)

/-- A shared leaf stays shared. -/
theorem leaves_intern_of_shared {store larger : TypeStore} {node shared : TypeNode TypeId}
    {id place : TypeId} (found : store.leaves.find? shared = some place)
    (interned : store.intern node = some (id, larger)) :
    larger.leaves.find? shared = some place := by
  by_cases leaf : node.isLeaf
  · rcases (intern_eq_some_iff leaf).mp interned with ⟨-, rfl⟩ | ⟨absent, -, rfl⟩
    · exact found
    · refine (Table.find?_insert _ _ _ _).trans ?_
      rw [if_neg fun same => ?_]
      · exact found
      · rw [same, absent] at found
        cases found
  · rw [intern, if_neg leaf, add_eq_some_iff] at interned
    obtain ⟨-, rfl⟩ := interned
    exact found

namespace Sound

variable {opened : Set TypeId} {store larger : TypeStore} {node : TypeNode TypeId} {id : TypeId}

theorem opened_lt (sound : store.Sound opened) {id : TypeId} (isOpen : id ∈ opened) :
    id.index < store.size :=
  index_lt_of_get?_eq_some (sound.opened_void id isOpen)

theorem next_not_opened (sound : store.Sound opened) (isNext : store.next? = some id) :
    id ∉ opened := fun isOpen =>
  Nat.ne_of_lt (sound.opened_lt isOpen) (next?_eq_some_iff.mp isNext)

/-- Interning a leaf gives an id of this leaf that is not open. -/
theorem get?_intern (sound : store.Sound opened) (leaf : node.isLeaf = true)
    (interned : store.intern node = some (id, larger)) :
    larger.get? id = some node ∧ id ∉ opened := by
  rcases (intern_eq_some_iff leaf).mp interned with ⟨found, rfl⟩ | ⟨-, isNext, rfl⟩
  · obtain ⟨-, closed, present⟩ := (sound.leaf_iff node id).mp found
    exact ⟨present, closed⟩
  · refine ⟨?_, sound.next_not_opened isNext⟩
    rw [get?_pushLeaf, get?_push, if_pos (next?_eq_some_iff.mp isNext)]

/-- A leaf that is there is shared. -/
theorem find?_of_get? (sound : store.Sound opened) (leaf : node.isLeaf = true)
    (closed : id ∉ opened) (present : store.get? id = some node) :
    store.leaves.find? node = some id :=
  (sound.leaf_iff node id).mpr ⟨leaf, closed, present⟩

/-- The index of a leaf that is added lists this leaf and those it listed before. -/
theorem leaf_iff_pushLeaf (sound : store.Sound opened) (leaf : node.isLeaf = true)
    (absent : store.leaves.find? node = none) (isNext : store.next? = some id)
    (other : TypeNode TypeId) (place : TypeId) :
    (store.leaves.insert node id).find? other = some place ↔
      other.isLeaf = true ∧ place ∉ opened ∧
        (if place.index = store.size then some node else store.get? place) = some other := by
  have index := next?_eq_some_iff.mp isNext
  rw [Table.find?_insert]
  by_cases same : other = node
  · subst same
    rw [if_pos rfl]
    constructor
    · intro new
      cases new
      exact ⟨leaf, sound.next_not_opened isNext, if_pos index⟩
    · rintro ⟨-, closed, present⟩
      split at present
      · rename_i atEnd
        rw [TypeId.ext_index (index.trans atEnd.symm)]
      · rw [(sound.leaf_iff other place).mpr ⟨leaf, closed, present⟩] at absent
        cases absent
  · rw [if_neg same, sound.leaf_iff]
    refine and_congr_right fun _ => and_congr_right fun _ => ?_
    split
    · rename_i atEnd
      rw [(get?_eq_none_iff store place).mpr (Nat.le_of_eq atEnd.symm), Option.some.injEq]
      exact iff_of_false (fun impossible => nomatch impossible) (Ne.symm same)
    · exact Iff.rfl

theorem intern (sound : store.Sound opened) (leaf : node.isLeaf = true)
    (nonempty : ∀ bytes, node = .padding bytes → bytes ≠ 0)
    (interned : store.intern node = some (id, larger)) : larger.Sound opened := by
  rcases (intern_eq_some_iff leaf).mp interned with ⟨-, rfl⟩ | ⟨absent, isNext, rfl⟩
  · exact sound
  · have grown := (Extends.refl store).intern interned
    refine ⟨?_, ?_, ?_⟩
    · intro place other present
      rw [get?_pushLeaf, get?_push] at present
      split at present
      · cases present
        exact fits_of_isLeaf _ leaf nonempty
      · exact (sound.fits place other present).extends grown
    · intro other place
      rw [get?_pushLeaf, get?_push]
      exact sound.leaf_iff_pushLeaf leaf absent isNext other place
    · intro place isOpen
      rw [grown.get?_eq place (sound.opened_lt isOpen)]
      exact sound.opened_void place isOpen

/-- A reserved node is open. -/
theorem reserve (sound : store.Sound opened) (isNext : store.next? = some id) :
    (store.push .void).Sound (insert id opened) := by
  have grown := (Extends.refl store).push .void
  have index := next?_eq_some_iff.mp isNext
  refine ⟨?_, ?_, ?_⟩
  · intro place node present
    rw [get?_push] at present
    split at present
    · cases present
      exact fits_of_isLeaf _ rfl (fun _ impossible => nomatch impossible)
    · exact (sound.fits place node present).extends grown
  · intro node place
    show store.leaves.find? node = some place ↔ _
    rw [sound.leaf_iff, get?_push, Set.mem_insert_iff, not_or]
    refine and_congr_right fun _ => ?_
    split
    · rename_i atEnd
      have same : place = id := TypeId.ext_index (atEnd.trans index.symm)
      rw [(get?_eq_none_iff store place).mpr (Nat.le_of_eq atEnd.symm)]
      exact iff_of_false (fun both => nomatch both.2) (fun both => both.1.1 same)
    · rename_i inside
      have different : place ≠ id := fun same => inside (same ▸ index)
      exact ⟨fun both => ⟨⟨different, both.1⟩, both.2⟩, fun both => ⟨both.1.2, both.2⟩⟩
  · intro place isOpen
    rw [get?_push]
    rcases Set.mem_insert_iff.mp isOpen with rfl | old
    · exact if_pos index
    · rw [if_neg (Nat.ne_of_lt (sound.opened_lt old))]
      exact sound.opened_void place old

/-- Filling an open node with a node that fits closes it. -/
theorem fill (sound : store.Sound (insert id opened)) (closed : id ∉ opened)
    (inner : node.isLeaf = false) (fits : store.Fits node) :
    (store.fill id node).Sound opened := by
  have isVoid : store.get? id = some .void :=
    sound.opened_void id (Set.mem_insert_iff.mpr (Or.inl rfl))
  have get?_eq := fun other => get?_fill store id other node (index_lt_of_get?_eq_some isVoid)
  -- Only a void node changes, and it becomes no leaf, so what fitted before still fits.
  have still : ∀ other, store.Fits other → (store.fill id node).Fits other := by
    intro other fits
    refine fits.mono (Nat.le_of_eq (size_fill store id node).symm) ?_ ?_
    · intro place width present
      have different : place ≠ id := by
        rintro rfl
        rw [isVoid] at present
        cases present
      rw [get?_eq, if_neg different, present]
    · rintro place - ⟨bytes, present⟩
      rw [get?_eq] at present
      split at present
      · cases present
        cases inner
      · exact ⟨bytes, present⟩
  refine ⟨?_, ?_, ?_⟩
  · intro place other present
    rw [get?_eq] at present
    split at present
    · cases present
      exact still node fits
    · exact still other (sound.fits place other present)
  · intro other place
    show store.leaves.find? other = some place ↔ _
    rw [sound.leaf_iff, get?_eq, Set.mem_insert_iff, not_or]
    refine and_congr_right fun leaf => ?_
    split
    · rename_i same
      refine iff_of_false (fun both => both.1.1 same) ?_
      rintro ⟨-, present⟩
      cases present
      rw [leaf] at inner
      cases inner
    · rename_i different
      exact ⟨fun both => ⟨both.1.2, both.2⟩, fun both => ⟨⟨different, both.1⟩, both.2⟩⟩
  · intro place isOpen
    have different : place ≠ id := by
      rintro rfl
      exact closed isOpen
    rw [get?_eq, if_neg different]
    exact sound.opened_void place (Set.mem_insert_iff.mpr (Or.inr isOpen))

end Sound

end TypeStore

end BinaryFacts
