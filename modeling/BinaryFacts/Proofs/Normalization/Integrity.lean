/-
This file states what a draft is like in the middle of a request and proves that every successful
run keeps it so. Its store is sound apart from the open nodes, a key leads to a node of its own,
which may still be open, and every pointer, array, function and typedef has a key.

A run opens the nodes it reserves and closes them again, so it ends with the open nodes it
started with. With no open nodes this is the invariant of the type store between requests.
-/

import BinaryFacts.Proofs.Normalization.Growth

namespace BinaryFacts

/-! ### Drafts with open nodes -/

/-- A draft that is in order, apart from the nodes in `opened`. -/
structure Draft.Sound (opened : Set TypeId) (draft : Draft) : Prop where
  store : draft.store.Sound opened
  known_lt : ∀ key id, draft.identities.find? key = some id → id.index < draft.store.size
  known_inner : ∀ key id node, draft.identities.find? key = some id → id ∉ opened →
    draft.store.get? id = some node → node.isLeaf = false
  injective : ∀ key other id, draft.identities.find? key = some id →
    draft.identities.find? other = some id → key = other
  keyed : ∀ id node, draft.store.get? id = some node → node.isKeyed = true →
    ∃ key, draft.identities.find? key = some id

namespace Draft

/-- Adding a node is reserving it and filling it. -/
theorem withNode_eq_filled (draft : Draft) (keyed : Bool) (key : String) {id : TypeId}
    (isNext : draft.store.next? = some id) (node : TypeNode TypeId) :
    draft.withNode keyed key id node = (draft.withNode keyed key id .void).filled id node := by
  have index : id.index = draft.store.nodes.size := TypeStore.next?_eq_some_iff.mp isNext
  have nodes : draft.store.nodes.push node =
      (draft.store.nodes.push .void).setIfInBounds draft.store.nodes.size node := by
    refine Array.ext_getElem? fun index => ?_
    rw [Array.getElem?_setIfInBounds, Array.getElem?_push, Array.getElem?_push, Array.size_push]
    by_cases last : index = draft.store.nodes.size
    · simp [last]
    · simp [last, Ne.symm last]
  simp only [withNode, filled, TypeStore.push, TypeStore.fill, nodes, index]

theorem get?_withNode (draft : Draft) (keyed : Bool) (key : String) {id : TypeId}
    (isNext : draft.store.next? = some id) (node : TypeNode TypeId) :
    (draft.withNode keyed key id node).store.get? id = some node :=
  (TypeStore.get?_push _ _ _).trans (if_pos (TypeStore.next?_eq_some_iff.mp isNext))

theorem find?_withNode (draft : Draft) {keyed : Bool} (key : String) (id : TypeId)
    (node : TypeNode TypeId) (isKeyed : keyed = true) :
    (draft.withNode keyed key id node).identities.find? key = some id := by
  subst isKeyed
  exact (Table.find?_insert _ _ _ _).trans (if_pos rfl)

/-- A key that is known with a new node is the key of this node, or was known before. -/
theorem known_of_withNode {draft : Draft} {keyed : Bool} {key other : String}
    {node : TypeNode TypeId} {id place : TypeId}
    (known : (draft.withNode keyed key id node).identities.find? other = some place) :
    (keyed = true ∧ other = key ∧ place = id) ∨
      draft.identities.find? other = some place := by
  cases keyed with
  | false => exact Or.inr known
  | true =>
    change (draft.identities.insert key id).find? other = some place at known
    rw [Table.find?_insert] at known
    split at known
    · rename_i same
      cases known
      exact Or.inl ⟨rfl, same, rfl⟩
    · exact Or.inr known

namespace Sound

variable {opened : Set TypeId} {draft : Draft}

theorem isPart_of_known (sound : draft.Sound opened) {key : String} {id : TypeId}
    (known : draft.identities.find? key = some id) : draft.store.IsPart id where
  index_lt := sound.known_lt key id known
  not_padding := by
    rintro ⟨bytes, present⟩
    by_cases isOpen : id ∈ opened
    · rw [sound.store.opened_void id isOpen] at present
      cases present
    · cases sound.known_inner key id _ known isOpen present

theorem interned (sound : draft.Sound opened) {node : TypeNode TypeId} {id : TypeId}
    {store : TypeStore} (leaf : node.isLeaf = true)
    (nonempty : ∀ bytes, node = .padding bytes → bytes ≠ 0)
    (interned : draft.store.intern node = some (id, store)) :
    (draft.withStore store).Sound opened := by
  have grown := (TypeStore.Extends.refl draft.store).intern interned
  refine ⟨sound.store.intern leaf nonempty interned, ?_, ?_, sound.injective, ?_⟩
  · exact fun key place known =>
      Nat.lt_of_lt_of_le (sound.known_lt key place known) grown.size_le
  · intro key place other known closed present
    have old := grown.get?_eq place (sound.known_lt key place known)
    exact sound.known_inner key place other known closed (old ▸ present)
  · intro place other present isKeyed
    change store.get? place = some other at present
    rcases (TypeStore.intern_eq_some_iff leaf).mp interned with ⟨-, rfl⟩ | ⟨-, -, rfl⟩
    · exact sound.keyed place other present isKeyed
    · rw [TypeStore.get?_pushLeaf, TypeStore.get?_push] at present
      split at present
      · cases present
        rw [TypeNode.isKeyed_of_isLeaf leaf] at isKeyed
        cases isKeyed
      · exact sound.keyed place other present isKeyed

theorem interned_padding (sound : draft.Sound opened) {bytes : UInt64} (nonempty : bytes ≠ 0)
    {id : TypeId} {store : TypeStore}
    (interned : draft.store.intern (.padding bytes) = some (id, store)) :
    (draft.withStore store).Sound opened := by
  refine sound.interned rfl (fun others same => ?_) interned
  cases same
  exact nonempty

/-- A node reserved under a key that was unknown is open. -/
theorem reserved (sound : draft.Sound opened) (keyed : Bool) {key : String} {id : TypeId}
    (unknown : draft.identities.find? key = none) (isNext : draft.store.next? = some id) :
    (draft.withNode keyed key id .void).Sound (insert id opened) := by
  have grown := (Extends.refl draft).withNode keyed id .void unknown
  have index := TypeStore.next?_eq_some_iff.mp isNext
  have fresh : ∀ other, draft.identities.find? other ≠ some id := fun other known =>
    Nat.ne_of_lt (sound.known_lt other id known) index
  refine ⟨sound.store.reserve isNext, ?_, ?_, ?_, ?_⟩
  · intro other place known
    rcases known_of_withNode known with ⟨-, -, rfl⟩ | old
    · exact index.trans_lt ((Nat.lt_succ_self _).trans_eq (TypeStore.size_push _ _).symm)
    · exact Nat.lt_of_lt_of_le (sound.known_lt other place old) grown.store.size_le
  · intro other place node known closed present
    rw [Set.mem_insert_iff, not_or] at closed
    rcases known_of_withNode known with ⟨-, -, same⟩ | old
    · exact absurd same closed.1
    · rw [grown.store.get?_eq place (sound.known_lt other place old)] at present
      exact sound.known_inner other place node old closed.2 present
  · intro first second place knownFirst knownSecond
    rcases known_of_withNode knownFirst with ⟨-, rfl, rfl⟩ | oldFirst <;>
      rcases known_of_withNode knownSecond with ⟨-, rfl, same⟩ | oldSecond
    · rfl
    · exact absurd oldSecond (fresh second)
    · exact absurd (same ▸ oldFirst) (fresh first)
    · exact sound.injective first second place oldFirst oldSecond
  · intro place node present isKeyed
    change (draft.store.push .void).get? place = some node at present
    rw [TypeStore.get?_push] at present
    split at present
    · cases present
      cases isKeyed
    · obtain ⟨other, known⟩ := sound.keyed place node present isKeyed
      exact ⟨other, grown.find?_eq_some known⟩

/-- Filling an open node with a node that fits closes it, if its kind is known by a key where it
has to be. -/
theorem filled {id : TypeId} (sound : draft.Sound (insert id opened)) (closed : id ∉ opened)
    {node : TypeNode TypeId} (inner : node.isLeaf = false) (fits : draft.store.Fits node)
    (known : node.isKeyed = true → ∃ key, draft.identities.find? key = some id) :
    (draft.filled id node).Sound opened := by
  have isVoid := sound.store.opened_void id (Set.mem_insert_iff.mpr (Or.inl rfl))
  have get?_eq := fun other =>
    TypeStore.get?_fill draft.store id other node (TypeStore.index_lt_of_get?_eq_some isVoid)
  refine ⟨sound.store.fill closed inner fits, ?_, ?_, sound.injective, ?_⟩
  · intro key place knownPlace
    exact Nat.lt_of_lt_of_eq (sound.known_lt key place knownPlace)
      (TypeStore.size_fill _ _ _).symm
  · intro key place other knownPlace notOpen present
    change (draft.store.fill id node).get? place = some other at present
    rw [get?_eq] at present
    split at present
    · cases present
      exact inner
    · rename_i different
      refine sound.known_inner key place other knownPlace ?_ present
      rw [Set.mem_insert_iff, not_or]
      exact ⟨different, notOpen⟩
  · intro place other present isKeyed
    change (draft.store.fill id node).get? place = some other at present
    rw [get?_eq] at present
    split at present
    · rename_i same
      cases present
      rw [same]
      exact known isKeyed
    · exact sound.keyed place other present isKeyed

end Sound

end Draft

/-! ### The node of a form -/

namespace Form

/-- The node of a form, with padding given by its size. -/
def node {Child : Type} (padding : UInt64 → Child) : Form Child → TypeNode Child
  | .pointer target => .pointer target
  | .array element count => .array element count
  | .function result parameters variadic => .function result parameters variadic
  | .typedef target => .typedef target
  | .struct width spans =>
    .struct ((Layout.plan width spans).map (Layout.Element.child padding))
  | .union members => .union members

/-- A form whose node holds padding of this size. -/
def HasPadding {Child : Type} (form : Form Child) (bytes : UInt64) : Prop :=
  ∃ width spans, form = .struct width spans ∧ .padding bytes ∈ Layout.plan width spans

theorem isLeaf_node {Child : Type} (padding : UInt64 → Child) (form : Form Child) :
    (form.node padding).isLeaf = false := by
  cases form <;> rfl

/-- Whether a form is a structure or a union; every other form is known by a key. -/
def isAggregate {Part : Type} : Form Part → Bool
  | .struct _ _ | .union _ => true
  | .pointer _ | .array _ _ | .function _ _ _ | .typedef _ => false

theorem isKeyed_node {Child : Type} (padding : UInt64 → Child) (form : Form Child) :
    (form.node padding).isKeyed = !form.isAggregate := by
  cases form <;> rfl

theorem isAggregate_of_refill? {Part Other : Type} {form : Form Part} {items : List Other}
    {filled : Form Other} (refilled : form.refill? items = some filled) :
    filled.isAggregate = form.isAggregate := by
  unfold refill? at refilled
  split at refilled
  · cases refilled; rfl
  · cases refilled; rfl
  · split at refilled <;> cases refilled; rfl
  · cases refilled; rfl
  · split at refilled <;> cases refilled; rfl
  · split at refilled <;> cases refilled; rfl
  · cases refilled

end Form

theorem Binary.isKeyed_of_opening {binary : Binary} {pointerSize : UInt64}
    {descriptor : Descriptor} {form : Form Descriptor}
    (opens : binary.opening pointerSize descriptor = .form form)
    (plain : form.isAggregate = false) : binary.isKeyed descriptor = true := by
  obtain ⟨kind, width, registeredName, key⟩ := descriptor
  cases kind with
  | pointer | array | function => rfl
  | aggregate variant members =>
    cases opens
    cases variant <;> cases plain
  | reference category typeId name =>
    obtain ⟨rfl, target, found, -⟩ := Binary.eq_typedef_of_opening opens
    simp only [Binary.isKeyed, found, Option.isSome_some]
  | void | bool | integer | float | wideChar | varArgs | value | enumeration | other =>
    cases opens

theorem Binary.isLeaf_of_opening {binary : Binary} {pointerSize : UInt64}
    {descriptor : Descriptor} {node : TypeNode TypeId}
    (opens : binary.opening pointerSize descriptor = .leaf node) :
    node.isLeaf = true ∧ node.isPadding = false := by
  obtain ⟨kind, width, registeredName, key⟩ := descriptor
  cases kind with
  | integer signed =>
    cases opens
    unfold Building.integerNode
    split
    · exact ⟨rfl, rfl⟩
    · split <;> exact ⟨rfl, rfl⟩
  | reference category typeId name =>
    simp only [Binary.opening] at opens
    split at opens <;> cases opens
    exact ⟨rfl, rfl⟩
  | void | bool | float | wideChar | varArgs | value =>
    cases opens
    exact ⟨rfl, rfl⟩
  | pointer | array | function | aggregate | enumeration | other => cases opens

namespace TypeStore

/-- A node whose children are parts fits, unless it is an enumeration or a structure. -/
theorem fits_of_isPart {store : TypeStore} {node : TypeNode TypeId}
    (parts : ∀ child ∈ node.children, store.IsPart child) (inner : node.isLeaf = false)
    (noEnumeration : ∀ id, node ≠ .enumeration id)
    (noStruct : ∀ elements, node ≠ .struct elements) : store.Fits node where
  children child member := (parts child member).index_lt
  underlying id same := absurd same (noEnumeration id)
  padding child member filler := absurd filler (parts child member).not_padding
  apart elements same := absurd same (noStruct elements)
  bytes bytes same := by
    rw [same] at inner
    cases inner

/-- A structure over the elements of a plan fits, where its items are parts and its padding is
interned. -/
theorem fits_struct {store : TypeStore} {width : UInt64} {spans : List (Layout.Span TypeId)}
    {padding : UInt64 → TypeId} (parts : ∀ span ∈ spans, store.IsPart span.item)
    (paddings : ∀ bytes, .padding bytes ∈ Layout.plan width spans →
      store.get? (padding bytes) = some (.padding bytes)) :
    store.Fits (.struct ((Layout.plan width spans).map (Layout.Element.child padding))) where
  children child member := by
    obtain ⟨element, planned, rfl⟩ := List.mem_map.mp member
    cases element with
    | item item => exact (Layout.property_of_mem_plan parts planned).index_lt
    | padding bytes => exact index_lt_of_get?_eq_some (paddings bytes planned)
  underlying id impossible := nomatch impossible
  padding child member filler := ⟨_, rfl⟩
  apart elements same := by
    cases same
    rw [List.isChain_map]
    refine (Layout.isChain_plan width spans).imp_of_mem_imp ?_
    intro left right leftPlanned rightPlanned apart leftFiller
    cases left with
    | item item =>
      exact absurd leftFiller (Layout.property_of_mem_plan parts leftPlanned).not_padding
    | padding bytes =>
      cases right with
      | item item => exact (Layout.property_of_mem_plan parts rightPlanned).not_padding
      | padding others => cases apart rfl
  bytes bytes impossible := nomatch impossible

end TypeStore

namespace Draft.Sound

variable {opened : Set TypeId} {before after : Draft}

theorem elements {elements : List (Layout.Element TypeId)} {ids : List TypeId}
    (done : elements.mapM Building.elementId before = .ok ids after)
    (nonempty : ∀ bytes, .padding bytes ∈ elements → bytes ≠ 0) (sound : before.Sound opened) :
    after.Sound opened := by
  have keeps : Keeps (Draft.Sound opened) (elements.mapM Building.elementId) :=
    Building.keeps_elementIds fun draft bytes id store member interned holds =>
      holds.interned_padding (nonempty bytes member) interned
  have ends := keeps before sound
  rwa [done] at ends

/-- The ids of the elements of a structure are its items and the ids under which the store shares
its padding afterwards. -/
theorem elements_eq {elements : List (Layout.Element TypeId)} {ids : List TypeId}
    (done : elements.mapM Building.elementId before = .ok ids after)
    (nonempty : ∀ bytes, .padding bytes ∈ elements → bytes ≠ 0) (sound : before.Sound opened) :
    ids = elements.map
        (Layout.Element.child fun bytes => (after.store.leaves.find? (.padding bytes)).getD ⟨0⟩) ∧
      ∀ bytes, .padding bytes ∈ elements → ∃ id,
        after.store.leaves.find? (.padding bytes) = some id ∧
          after.store.get? id = some (.padding bytes) := by
  induction elements generalizing before ids with
  | nil =>
    cases done
    exact ⟨rfl, fun _ member => nomatch member⟩
  | cons element rest inductionHypothesis =>
    rw [List.mapM_cons] at done
    obtain ⟨id, middle, head, done⟩ := bind_eq_ok done
    obtain ⟨others, last, tail, done⟩ := bind_eq_ok done
    cases done
    have nonemptyRest : ∀ bytes, .padding bytes ∈ rest → bytes ≠ 0 :=
      fun bytes member => nonempty bytes (List.mem_cons_of_mem _ member)
    cases element with
    | item item =>
      cases head
      obtain ⟨rfl, present⟩ := inductionHypothesis tail nonemptyRest sound
      refine ⟨rfl, fun bytes member => ?_⟩
      rcases List.mem_cons.mp member with impossible | later
      · cases impossible
      · exact present bytes later
    | padding bytes =>
      rw [Building.elementId_padding] at head
      obtain ⟨store, interned, rfl⟩ := Building.exists_of_allocate_eq_ok head
      have soundMiddle : (before.withStore store).Sound opened :=
        sound.interned_padding (nonempty bytes List.mem_cons_self) interned
      have grown := (Extends.refl _).elementIds tail
      obtain ⟨rfl, presentRest⟩ := inductionHypothesis tail nonemptyRest soundMiddle
      obtain ⟨present, closed⟩ := sound.store.get?_intern rfl interned
      have presentAfter : after.store.get? id = some (.padding bytes) := by
        rw [← present]
        exact grown.store.get?_eq _ (TypeStore.index_lt_of_get?_eq_some present)
      have shared := (soundMiddle.elements tail nonemptyRest).store.find?_of_get? rfl closed
        presentAfter
      refine ⟨?_, fun others member => ?_⟩
      · rw [List.map_cons, Layout.Element.child, shared, Option.getD_some]
      · rcases List.mem_cons.mp member with same | later
        · cases same
          exact ⟨id, shared, presentAfter⟩
        · exact presentRest others later

/-- The node of a form holds the padding that the store shares. -/
theorem formNode_eq {form : Form TypeId} {node : TypeNode TypeId}
    (laid : Building.formNode form before = .ok node after) (sound : before.Sound opened) :
    ∃ padding, node = form.node padding ∧
      ∀ bytes, form.HasPadding bytes →
        after.store.get? (padding bytes) = some (.padding bytes) := by
  cases form with
  | struct width spans =>
    obtain ⟨ids, middle, done, laid⟩ := bind_eq_ok laid
    cases laid
    obtain ⟨rfl, present⟩ := sound.elements_eq done fun _ => Layout.ne_zero_of_mem_plan
    refine ⟨_, rfl, ?_⟩
    rintro bytes ⟨_, _, ⟨⟩, planned⟩
    obtain ⟨id, shared, presentId⟩ := present bytes planned
    rwa [shared]
  | pointer | array | function | typedef | union =>
    cases laid
    refine ⟨fun _ => ⟨0⟩, rfl, ?_⟩
    rintro bytes ⟨_, _, ⟨⟩, -⟩

theorem formNode {form : Form TypeId}
    (ended : finalState (Building.formNode form before) = after) (sound : before.Sound opened) :
    after.Sound opened :=
  Building.formNode_keeps ended
    (fun _ _ _ _ nonempty interned holds => Sound.interned_padding holds nonempty interned) sound

theorem fits_node {form : Form TypeId} {store : TypeStore} {padding : UInt64 → TypeId}
    (parts : ∀ id ∈ form.parts, store.IsPart id)
    (paddings : ∀ bytes, form.HasPadding bytes →
      store.get? (padding bytes) = some (.padding bytes)) :
    store.Fits (form.node padding) := by
  cases form with
  | struct width spans =>
    refine TypeStore.fits_struct (fun span member => parts _ (List.mem_map_of_mem member)) ?_
    exact fun bytes planned => paddings bytes ⟨width, spans, rfl, planned⟩
  | pointer | array | function | typedef | union =>
    exact TypeStore.fits_of_isPart parts rfl (fun _ impossible => nomatch impossible)
      (fun _ impossible => nomatch impossible)

/-! ### Runs -/

/-- Adding an enumeration over an unsigned integer keeps a draft in order. -/
theorem enumeration {draft : Draft} (sound : draft.Sound opened) (keyed : Bool) {key : String}
    (unknown : draft.identities.find? key = none) {width : UInt64} {underlying id : TypeId}
    {store : TypeStore}
    (interned : draft.store.intern (.integer width false) = some (underlying, store))
    (isNext : store.next? = some id) :
    ((draft.withStore store).withNode keyed key id (.enumeration underlying)).Sound opened ∧
      ∀ part ∈ [id],
        ((draft.withStore store).withNode keyed key id (.enumeration underlying)).store.IsPart
          part := by
  have soundInteger : (draft.withStore store).Sound opened :=
    sound.interned rfl (by rintro bytes ⟨⟩) interned
  have present : store.get? underlying = some (.integer width false) :=
    (sound.store.get?_intern rfl interned).1
  have grown := (TypeStore.Extends.refl store).push .void
  have presentReserved : (store.push .void).get? underlying = some (.integer width false) :=
    (grown.get?_eq _ (TypeStore.index_lt_of_get?_eq_some present)).trans present
  refine ⟨?_, fun part member => ?_⟩
  · rw [Draft.withNode_eq_filled _ keyed key isNext]
    refine (soundInteger.reserved keyed unknown isNext).filled
      (soundInteger.store.next_not_opened isNext) rfl ?_ (fun impossible => nomatch impossible)
    refine ⟨?_, ?_, ?_, ?_, ?_⟩
    · intro child member
      rw [List.mem_singleton.mp member]
      exact TypeStore.index_lt_of_get?_eq_some presentReserved
    · rintro child ⟨⟩
      exact ⟨width, presentReserved⟩
    · intro child member filler
      rw [List.mem_singleton.mp member] at filler
      exact absurd filler (TypeStore.isPart_of_get? presentReserved rfl).not_padding
    · rintro elements ⟨⟩
    · rintro bytes ⟨⟩
  · rw [List.mem_singleton.mp member]
    exact TypeStore.isPart_of_get? (Draft.get?_withNode _ keyed key isNext _) rfl

/-- Closing an open node over parts that are built keeps a draft in order. -/
theorem closed {id : TypeId} (sound : before.Sound (insert id opened)) (notOpen : id ∉ opened)
    {form : Form TypeId} {node : TypeNode TypeId}
    (laid : Building.formNode form before = .ok node after)
    (parts : ∀ part ∈ form.parts, before.store.IsPart part)
    (known : form.isAggregate = false → ∃ key, before.identities.find? key = some id) :
    (after.filled id node).Sound opened ∧
      ∀ part ∈ [id], (after.filled id node).store.IsPart part := by
  have grown := (Extends.refl before).formNode (congrArg finalState laid)
  obtain ⟨padding, rfl, paddings⟩ := sound.formNode_eq laid
  have soundAfter := sound.formNode (congrArg finalState laid)
  have isVoid := soundAfter.store.opened_void id (Set.mem_insert_iff.mpr (Or.inl rfl))
  have fits : after.store.Fits (form.node padding) :=
    fits_node (fun part member => (parts part member).extends grown.store) paddings
  refine ⟨soundAfter.filled notOpen (Form.isLeaf_node padding form) fits ?_, fun part member => ?_⟩
  · intro isKeyed
    rw [Form.isKeyed_node, Bool.not_eq_true'] at isKeyed
    obtain ⟨key, found⟩ := known isKeyed
    exact ⟨key, grown.find?_eq_some found⟩
  · rw [List.mem_singleton.mp member]
    have filled := TypeStore.get?_fill after.store id id (form.node padding)
      (TypeStore.index_lt_of_get?_eq_some isVoid)
    rw [if_pos rfl] at filled
    exact TypeStore.isPart_of_get? filled (by cases form <;> rfl)

/-- Every successful run keeps the draft in order and gives ids that can be parts. -/
theorem builds {binary : Binary} {pointerSize : UInt64} {row : List Descriptor}
    {result : Except NormalizeError (List TypeId)}
    (run : Building.Builds binary pointerSize before row result after) :
    ∀ {opened : Set TypeId} {ids : List TypeId}, result = .ok ids → before.Sound opened →
      after.Sound opened ∧ ∀ id ∈ ids, after.store.IsPart id := by
  induction run with
  | nil draft =>
    rintro opened ids ⟨⟩ sound
    exact ⟨sound, fun _ member => nomatch member⟩
  | cons head tail headSound tailSound =>
    rintro opened _ ⟨⟩ sound
    obtain ⟨soundMiddle, headPart⟩ := headSound rfl sound
    obtain ⟨soundAfter, tailParts⟩ := tailSound rfl soundMiddle
    refine ⟨soundAfter, fun id member => ?_⟩
    rcases List.mem_cons.mp member with rfl | later
    · exact (headPart _ List.mem_cons_self).extends ((Extends.refl _).builds tail).store
    · exact tailParts id later
  | known found =>
    rintro opened _ ⟨⟩ sound
    refine ⟨sound, fun id member => ?_⟩
    rw [List.mem_singleton.mp member]
    exact sound.isPart_of_known found
  | leaf unknown opens interned =>
    rintro opened _ ⟨⟩ sound
    obtain ⟨leaf, noPadding⟩ := Binary.isLeaf_of_opening opens
    refine ⟨sound.interned leaf (TypeNode.ne_zero_of_isPadding noPadding) interned,
      fun id member => ?_⟩
    rw [List.mem_singleton.mp member]
    exact TypeStore.isPart_of_get? (sound.store.get?_intern leaf interned).1 noPadding
  | enumeration unknown opens interned isNext =>
    rintro opened _ ⟨⟩ sound
    exact sound.enumeration _ unknown interned isNext
  | instead unknown opens same sameSound =>
    intro opened ids succeeded sound
    exact sameSound succeeded sound
  | form unknown opens isNext parts refilled laid partsSound =>
    rintro opened _ ⟨⟩ sound
    obtain ⟨soundMiddle, items⟩ := partsSound rfl (sound.reserved _ unknown isNext)
    rw [← Form.parts_of_refill? refilled] at items
    refine soundMiddle.closed (sound.store.next_not_opened isNext) laid items fun plain => ?_
    -- A form that is known by a key was entered under it when its node was reserved.
    rw [Form.isAggregate_of_refill? refilled] at plain
    exact ⟨_, ((Extends.refl _).builds parts).find?_eq_some
      (Draft.find?_withNode _ _ _ .void (Binary.isKeyed_of_opening opens plain))⟩
  | failedHead | failedTail | failedPart | failedLayout | unhandled | full =>
    rintro opened ids ⟨⟩

end Draft.Sound

end BinaryFacts
