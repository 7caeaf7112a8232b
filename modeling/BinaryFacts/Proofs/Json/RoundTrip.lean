/-
This file proves that type stores, nodes and locations are read back from their JSON forms.

Numbers are written exactly and read within the bounds of their words, so all words are read back,
and so are type ids. From this it follows constructor by constructor for nodes, and for rows of
them. Of a store only the nodes are written, and what is read back has an empty
leaf index; but no query looks at the index, so the store that is read back answers all of them as
the one that was written.
-/

import BinaryFacts.Json.TypeStore
import BinaryFacts.TypeStore.Rendering
import BinaryFacts.TypeStore.Size

namespace BinaryFacts

/-! ### Values that are read back -/

namespace JsonForm

variable {Value Result : Type} [JsonForm Value]

/-- What is written for a value is read as the value. -/
def ReadsBack (value : Value) : Prop := decode? (encode value) = some value

/-- Reading goes on with a value that is read back. -/
theorem ReadsBack.bind {value : Value} (reads : ReadsBack value) (next : Value → Option Result) :
    (decode? (encode value) >>= next) = next value := by
  rw [show decode? (encode value) = some value from reads]
  rfl

theorem natBelow?_nat {bound value : Nat} (below : value < bound) :
    natBelow? bound (.nat value) = some value :=
  if_pos below

theorem readsBack_uint64 (value : UInt64) : ReadsBack value := by
  change (natBelow? UInt64.size (.nat value.toNat)).map UInt64.ofNat = some value
  rw [natBelow?_nat value.toNat_lt, Option.map_some, UInt64.ofNat_toNat]

theorem readsBack_int64 (value : Int64) : ReadsBack value := by
  have inRange : Int64.minValue.toInt ≤ value.toInt ∧ value.toInt ≤ Int64.maxValue.toInt :=
    ⟨value.minValue_le_toInt, value.toInt_le⟩
  change (if _ then some (Int64.ofInt value.toInt) else none) = some value
  rw [if_pos inRange, Int64.ofInt_toInt]

/-- A row is read back if its items are. -/
theorem readsBack_list {values : List Value} (each : ∀ value ∈ values, ReadsBack value) :
    ReadsBack values := by
  change (values.map encode).mapM decode? = some values
  induction values with
  | nil => rfl
  | cons value rest inductionHypothesis =>
    have others := inductionHypothesis fun other member =>
      each other (List.mem_cons_of_mem _ member)
    rw [List.map_cons, List.mapM_cons, (each value List.mem_cons_self).bind, others]
    rfl

end JsonForm

open JsonForm

/-! ### Nodes and locations -/

theorem TypeId.readsBack (id : TypeId) : ReadsBack id := by
  change (natBelow? TypeId.count (.nat id.index)).bind TypeId.ofIndex? = some id
  rw [natBelow?_nat id.index_lt_count]
  exact TypeId.ofIndex?_index id

/-- Nodes are read back. -/
theorem TypeNode.readsBack (node : TypeNode TypeId) : ReadsBack node := by
  have ids : ∀ ids : List TypeId, ReadsBack ids := fun ids =>
    readsBack_list fun id _ => id.readsBack
  cases node with
  | void | bool => rfl
  | integer size signed => exact (readsBack_uint64 size).bind _
  | float size => exact (readsBack_uint64 size).bind _
  | padding bytes => exact (readsBack_uint64 bytes).bind _
  | pointer element => exact element.readsBack.bind _
  | enumeration underlying | typedef underlying => exact underlying.readsBack.bind _
  | struct elements => exact (ids elements).bind _
  | union members => exact (ids members).bind _
  | array element count =>
    exact (element.readsBack.bind _).trans ((readsBack_uint64 count).bind _)
  | function result parameters variadic =>
    exact (result.readsBack.bind _).trans ((ids parameters).bind _)

theorem Storage.readsBack (storage : Storage) : ReadsBack storage := by
  cases storage with
  | register name => rfl
  | memory base offset => exact (readsBack_int64 offset).bind _

/-- Locations are read back. -/
theorem Location.readsBack (location : Location) : ReadsBack location := by
  obtain ⟨storage, type⟩ := location
  exact (storage.readsBack.bind _).trans (type.readsBack.bind _)

/-! ### Stores -/

/-- A node that is put into a store. -/
inductive Deposit where
  /-- As a new node. -/
  | add (node : TypeNode TypeId)
  /-- As a new node, or as a leaf that was shared before. -/
  | intern (node : TypeNode TypeId)

namespace TypeStore

/-- What a store gives for a deposit: an id, and the store with the node. -/
def ask (store : TypeStore) : Deposit → Option (TypeId × TypeStore)
  | .add node => store.add node
  | .intern node => store.intern node

/-- A store after a deposit; the same store if it has no id left for it. -/
def deposit (store : TypeStore) (deposit : Deposit) : TypeStore :=
  match store.ask deposit with
  | some (_, larger) => larger
  | none => store

/-- A store after a row of deposits. -/
def depositAll (store : TypeStore) (deposits : List Deposit) : TypeStore :=
  deposits.foldl deposit store

/-- A store is read as its nodes, without shared leaves. -/
theorem decode?_encode (store : TypeStore) :
    decode? (encode store) = some { nodes := store.nodes : TypeStore } := by
  have reads : ReadsBack store.nodes.toList := readsBack_list fun node _ => node.readsBack
  exact reads.bind _

/-! ### Queries -/

/-- Two stores that answer every query alike. -/
structure AnswersAlike (left right : TypeStore) : Prop where
  size : left.size = right.size
  get? : ∀ id, left.get? id = right.get? id
  node : ∀ id, left.node id = right.node id
  children : ∀ id, (left.get? id).map TypeNode.children = (right.get? id).map TypeNode.children
  render : ∀ id, left.render id = right.render id
  sizeOf? : ∀ pointerSize id, left.sizeOf? pointerSize id = right.sizeOf? pointerSize id

/-- The text of a type is found in the nodes alone. -/
theorem renderWithin_eq_of_nodes (nodes : Array (TypeNode TypeId))
    (leaves others : Table (TypeNode TypeId) TypeId) (remaining : Nat) (path : List TypeId)
    (id : TypeId) :
    renderWithin ⟨nodes, leaves⟩ remaining path id =
      renderWithin ⟨nodes, others⟩ remaining path id := by
  induction remaining generalizing path id with
  | zero => rfl
  | succ remaining inductionHypothesis =>
    have below : renderWithin ⟨nodes, leaves⟩ remaining (id :: path) =
        renderWithin ⟨nodes, others⟩ remaining (id :: path) :=
      funext (inductionHypothesis (id :: path))
    rw [renderWithin, renderWithin, below]
    rfl

theorem searchSize_of_ended {store : TypeStore} {pointerSize : UInt64} {search : SizeSearch}
    {size : Option UInt64} (step : store.sizeStep pointerSize search = .ended size) :
    store.searchSize pointerSize search = size := by
  rw [searchSize]
  split
  · rename_i ended
    rw [step] at ended
    cases ended
    rfl
  · rename_i going
    rw [step] at going
    cases going

theorem searchSize_of_going {store : TypeStore} {pointerSize : UInt64} {search next : SizeSearch}
    (step : store.sizeStep pointerSize search = .going next) :
    store.searchSize pointerSize search = store.searchSize pointerSize next := by
  rw [searchSize]
  split
  · rename_i ended
    rw [step] at ended
    cases ended
  · rename_i going
    rw [step] at going
    cases going
    rfl

/-- The size of a type is found in the nodes alone. -/
theorem searchSize_eq_of_nodes (nodes : Array (TypeNode TypeId))
    (leaves others : Table (TypeNode TypeId) TypeId) (pointerSize : UInt64)
    (search : SizeSearch) :
    searchSize ⟨nodes, leaves⟩ pointerSize search =
      searchSize ⟨nodes, others⟩ pointerSize search := by
  -- A step looks up one node, so both searches take the same steps.
  have sameStep : ∀ search : SizeSearch, sizeStep ⟨nodes, leaves⟩ pointerSize search =
      sizeStep ⟨nodes, others⟩ pointerSize search := fun _ => rfl
  fun_induction searchSize ⟨nodes, leaves⟩ pointerSize search with
  | case1 search size step => exact (searchSize_of_ended ((sameStep search).symm.trans step)).symm
  | case2 search next step inductionHypothesis =>
    exact inductionHypothesis.trans
      (searchSize_of_going ((sameStep search).symm.trans step)).symm

/-- Stores with the same nodes answer alike, whatever leaves they share. -/
theorem answersAlike_of_nodes_eq {left right : TypeStore} (same : left.nodes = right.nodes) :
    left.AnswersAlike right := by
  obtain ⟨nodes, leaves⟩ := left
  obtain ⟨_, others⟩ := right
  cases same
  refine ⟨rfl, fun _ => rfl, fun _ => rfl, fun _ => rfl, fun id => ?_, fun pointerSize id => ?_⟩
  · exact renderWithin_eq_of_nodes nodes leaves others renderDepth [] id
  · exact searchSize_eq_of_nodes nodes leaves others pointerSize _

/-! ### The round trip -/

/-- A store that was built by any row of deposits is read back: reading its JSON form gives a store
with the same nodes, which answers every query alike and is written in the same way. Single nodes
and locations are read back as they were. -/
theorem readsBack_depositAll (deposits : List Deposit) :
    (∃ decoded : TypeStore, decode? (encode (empty.depositAll deposits)) = some decoded ∧
        decoded.nodes = (empty.depositAll deposits).nodes ∧
        decoded.AnswersAlike (empty.depositAll deposits) ∧
        encode decoded = encode (empty.depositAll deposits)) ∧
      (∀ node : TypeNode TypeId, decode? (encode node) = some node) ∧
      ∀ location : Location, decode? (encode location) = some location :=
  ⟨⟨_, decode?_encode _, rfl, answersAlike_of_nodes_eq rfl, rfl⟩, TypeNode.readsBack,
    Location.readsBack⟩

/-- A shared leaf, the largest word, a pointer to an id without a node, and nodes over several ids,
one of them over itself. -/
def fewDeposits : List Deposit :=
  [.intern .bool, .intern .bool, .intern (.integer 18446744073709551615 false),
    .add (.array ⟨1⟩ 18446744073709551615), .add (.pointer ⟨4294967295⟩),
    .add (.struct [⟨0⟩, ⟨1⟩, ⟨0⟩]), .add (.union [⟨4⟩, ⟨5⟩, ⟨1⟩]),
    .add (.function ⟨3⟩ [⟨0⟩, ⟨6⟩, ⟨6⟩] true)]

/-- The leaf is stored once, and seven nodes are read back, with the size of the
structure and the text of the function. -/
theorem readsBack_fewDeposits :
    (empty.depositAll fewDeposits).size = 7 ∧
      (empty.depositAll fewDeposits).get? ⟨6⟩ = some (.function ⟨3⟩ [⟨0⟩, ⟨6⟩, ⟨6⟩] true) ∧
      ∃ decoded : TypeStore, decode? (encode (empty.depositAll fewDeposits)) = some decoded ∧
        decoded.nodes = (empty.depositAll fewDeposits).nodes ∧
        decoded.sizeOf? 8 ⟨4⟩ = (empty.depositAll fewDeposits).sizeOf? 8 ⟨4⟩ ∧
        decoded.render ⟨6⟩ = (empty.depositAll fewDeposits).render ⟨6⟩ := by
  obtain ⟨⟨decoded, reads, sameNodes, alike, -⟩, -⟩ := readsBack_depositAll fewDeposits
  exact ⟨by decide, by decide, decoded, reads, sameNodes, alike.sizeOf? 8 ⟨4⟩, alike.render ⟨6⟩⟩

end TypeStore

end BinaryFacts
