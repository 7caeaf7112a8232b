/-
This file proves that normalization keeps the meaning of descriptors: where keys are consistent,
the tree of the id with which a request is answered is the meaning of its descriptor, at every
depth, after every history and through all later requests.

While a request is running, nodes are reserved whose parts are still to be built, and keys lead to
them already. The invariant promises for every open node the meaning of the descriptor it was
reserved for, and says of every known key that the tree of its node, read with these promises, is
the meaning of a keyed descriptor with this key. Closing a node keeps its promise: the trees of
its parts are meanings, and one level above them is a meaning again.
-/

import BinaryFacts.Proofs.Normalization.Meaning
import BinaryFacts.Proofs.Normalization.Permanence
import BinaryFacts.Proofs.TypeStore.Unfolding

namespace BinaryFacts

/-! ### Leaves in a store with promises -/

namespace TypeStore.Sound

variable {promise : Promise} {store : TypeStore}

/-- Open nodes read as void. -/
theorem notMem_opened {opened : Set TypeId} (sound : store.Sound opened) {id : TypeId}
    {node : TypeNode TypeId} (present : store.get? id = some node) (filled : node ≠ .void) :
    id ∉ opened := by
  intro isOpen
  rw [sound.opened_void id isOpen, Option.some.injEq] at present
  exact filled present.symm

/-- The tree of a leaf other than void is this leaf. -/
theorem unfoldWith_leaf (sound : store.Sound promise.opened) {id : TypeId}
    {node : TypeNode TypeId} (present : store.get? id = some node) (filled : node ≠ .void)
    {leaf : TypeNode Unfolding} (same : ∀ tree, node.map tree = leaf) (depth : Nat) :
    store.unfoldWith promise depth id = .leaf leaf depth := by
  cases depth with
  | zero => rfl
  | succ depth =>
    rw [unfoldWith_of_get? (sound.notMem_opened present filled) present, same]
    rfl

end TypeStore.Sound

/-! ### The invariant -/

/-- A draft whose known keys lead to the meanings of keyed descriptors of a family, where open
nodes keep their promises. -/
structure Draft.Faithful (binary : Binary) (pointerSize : UInt64) (family : Set Descriptor)
    (promise : Promise) (draft : Draft) : Prop where
  sound : draft.Sound promise.opened
  known : ∀ key id, draft.identities.find? key = some id →
    ∃ descriptor ∈ family, binary.isKeyed descriptor = true ∧ descriptor.key = key ∧
      ∀ depth, draft.store.unfoldWith promise depth id =
        binary.meaning pointerSize depth descriptor

namespace Draft.Faithful

variable {binary : Binary} {pointerSize : UInt64} {family : Set Descriptor} {promise : Promise}
  {draft after : Draft}

/-- The trees of a draft do not change when it grows and new nodes get promises. -/
theorem unfoldWith_eq (faithful : draft.Faithful binary pointerSize family promise)
    {larger : Promise} (grown : draft.store.Extends after.store)
    (same : ∀ id : TypeId, id.index < draft.store.size → larger id = promise id) (depth : Nat)
    {id : TypeId} (old : id.index < draft.store.size) :
    after.store.unfoldWith larger depth id = draft.store.unfoldWith promise depth id :=
  TypeStore.unfoldWith_eq_of_get?_eq grown.get?_eq
    (fun id node present => (faithful.sound.store.fits id node present).children) same depth old

/-- What is known of a draft stays known when it grows. -/
theorem known_extends (faithful : draft.Faithful binary pointerSize family promise)
    {larger : Promise} (grown : draft.store.Extends after.store)
    (same : ∀ id : TypeId, id.index < draft.store.size → larger id = promise id) {key : String}
    {id : TypeId} (known : draft.identities.find? key = some id) :
    ∃ descriptor ∈ family, binary.isKeyed descriptor = true ∧ descriptor.key = key ∧
      ∀ depth, after.store.unfoldWith larger depth id =
        binary.meaning pointerSize depth descriptor := by
  obtain ⟨descriptor, member, keyed, sameKey, means⟩ := faithful.known key id known
  refine ⟨descriptor, member, keyed, sameKey, fun depth => ?_⟩
  rw [faithful.unfoldWith_eq grown same depth (faithful.sound.known_lt key id known), means]

theorem interned (faithful : draft.Faithful binary pointerSize family promise)
    {node : TypeNode TypeId} {id : TypeId} {store : TypeStore} (leaf : node.isLeaf = true)
    (nonempty : ∀ bytes, node = .padding bytes → bytes ≠ 0)
    (interned : draft.store.intern node = some (id, store)) :
    (draft.withStore store).Faithful binary pointerSize family promise where
  sound := faithful.sound.interned leaf nonempty interned
  known _ _ known := faithful.known_extends ((TypeStore.Extends.refl _).intern interned)
    (fun _ _ => rfl) known

theorem formNode (faithful : draft.Faithful binary pointerSize family promise)
    {form : Form TypeId} (ended : finalState (Building.formNode form draft) = after) :
    after.Faithful binary pointerSize family promise := by
  refine Building.formNode_keeps ended (fun draft bytes id store nonempty interned holds => ?_)
    faithful
  refine Faithful.interned holds rfl (fun others same => ?_) interned
  cases same
  exact nonempty

/-- A node reserved for a descriptor of the family is promised to become its meaning. -/
theorem reserved (faithful : draft.Faithful binary pointerSize family promise)
    {descriptor : Descriptor} {id : TypeId} (member : descriptor ∈ family)
    (unknown : draft.identities.find? descriptor.key = none)
    (isNext : draft.store.next? = some id) :
    (draft.withNode (binary.isKeyed descriptor) descriptor.key id .void).Faithful binary
      pointerSize family (promise.promising id (binary.meaning pointerSize · descriptor)) where
  sound := by
    rw [Promise.opened_promising]
    exact faithful.sound.reserved _ unknown isNext
  known key place known := by
    rcases known_of_withNode known with ⟨keyed, rfl, rfl⟩ | old
    · exact ⟨descriptor, member, keyed, rfl, TypeStore.unfoldWith_promising _ _ _ rfl⟩
    · refine faithful.known_extends ((TypeStore.Extends.refl _).push .void) ?_ old
      intro other inside
      refine Promise.promising_of_ne _ _ fun same => Nat.ne_of_lt inside ?_
      rw [same]
      exact TypeStore.next?_eq_some_iff.mp isNext

/-- Filling a node with one level of the meaning it was promised keeps all trees. -/
theorem filled {id : TypeId} {descriptor : Descriptor} {node : TypeNode TypeId}
    (faithful : draft.Faithful binary pointerSize family
      (promise.promising id (binary.meaning pointerSize · descriptor)))
    (closed : id ∉ promise.opened) (sound : (draft.filled id node).Sound promise.opened)
    (level : ∀ depth, binary.meaning pointerSize (depth + 1) descriptor =
      .node (node.map (draft.store.unfoldWith
        (promise.promising id (binary.meaning pointerSize · descriptor)) depth))) :
    (draft.filled id node).Faithful binary pointerSize family promise ∧
      ∀ depth, [id].map ((draft.filled id node).store.unfoldWith promise depth) =
        [descriptor].map (binary.meaning pointerSize depth) := by
  have inside : id.index < draft.store.size := by
    refine faithful.sound.store.opened_lt ?_
    rw [Promise.opened_promising]
    exact Set.mem_insert id _
  have trees : ∀ depth other, (draft.store.fill id node).unfoldWith promise depth other =
      draft.store.unfoldWith (promise.promising id (binary.meaning pointerSize · descriptor))
        depth other :=
    TypeStore.unfoldWith_fill inside closed level
  refine ⟨⟨sound, fun key place known => ?_⟩, fun depth => ?_⟩
  · obtain ⟨keyed, member, isKeyed, sameKey, means⟩ := faithful.known key place known
    refine ⟨keyed, member, isKeyed, sameKey, fun depth => ?_⟩
    exact (trees depth place).trans (means depth)
  · have own : (draft.store.fill id node).unfoldWith promise depth id =
        binary.meaning pointerSize depth descriptor := by
      rw [trees]
      exact TypeStore.unfoldWith_promising promise draft.store id rfl depth
    exact congrArg (fun tree => [tree]) own

/-! ### Single nodes -/

/-- A leaf is interned as it is meant. -/
theorem leaf (faithful : draft.Faithful binary pointerSize family promise)
    {descriptor : Descriptor} {node : TypeNode TypeId} {id : TypeId} {store : TypeStore}
    (opens : binary.opening pointerSize descriptor = .leaf node)
    (interned : draft.store.intern node = some (id, store)) :
    (draft.withStore store).Faithful binary pointerSize family promise ∧
      ∀ depth, [id].map (store.unfoldWith promise depth) =
        [descriptor].map (binary.meaning pointerSize depth) := by
  obtain ⟨leaf, noPadding⟩ := Binary.isLeaf_of_opening opens
  refine ⟨faithful.interned leaf (TypeNode.ne_zero_of_isPadding noPadding) interned,
    fun depth => ?_⟩
  obtain ⟨present, notOpen⟩ := faithful.sound.store.get?_intern leaf interned
  cases depth with
  | zero => rfl
  | succ depth =>
    rw [List.map_singleton, List.map_singleton, Binary.meaning_of_opening_leaf opens]
    exact congrArg (fun tree => [tree]) (TypeStore.unfoldWith_of_get? notOpen present depth)

/-- An enumeration means an enumeration over an unsigned integer of its width. -/
theorem enumeration (faithful : draft.Faithful binary pointerSize family promise)
    {descriptor : Descriptor} {underlying id : TypeId} {store : TypeStore}
    (member : descriptor ∈ family) (unknown : draft.identities.find? descriptor.key = none)
    (opens : binary.opening pointerSize descriptor = .enumeration)
    (interned : draft.store.intern (.integer descriptor.width false) = some (underlying, store))
    (isNext : store.next? = some id) :
    let result := (draft.withStore store).withNode (binary.isKeyed descriptor) descriptor.key id
      (.enumeration underlying)
    result.Faithful binary pointerSize family promise ∧
      ∀ depth, [id].map (result.store.unfoldWith promise depth) =
        [descriptor].map (binary.meaning pointerSize depth) := by
  intro result
  have withInteger : (draft.withStore store).Faithful binary pointerSize family promise :=
    faithful.interned rfl (by rintro bytes ⟨⟩) interned
  have promised := withInteger.reserved member unknown isNext
  have present : store.get? underlying = some (.integer descriptor.width false) :=
    (faithful.sound.store.get?_intern rfl interned).1
  have sound : result.Sound promise.opened :=
    (faithful.sound.enumeration _ unknown interned isNext).1
  have same : result = ((draft.withStore store).withNode (binary.isKeyed descriptor)
      descriptor.key id .void).filled id (.enumeration underlying) :=
    withNode_eq_filled _ _ _ isNext _
  rw [same] at sound ⊢
  refine promised.filled (withInteger.sound.store.next_not_opened isNext) sound fun depth => ?_
  have presentReserved : ((draft.withStore store).withNode (binary.isKeyed descriptor)
      descriptor.key id .void).store.get? underlying = some (.integer descriptor.width false) :=
    (((TypeStore.Extends.refl _).push .void).get?_eq _
      (TypeStore.index_lt_of_get?_eq_some present)).trans present
  rw [Binary.meaning_of_opening_enumeration opens, TypeNode.map,
    promised.sound.store.unfoldWith_leaf presentReserved (by rintro ⟨⟩) (fun _ => rfl)]

/-- The node of a form over parts whose trees are meanings is one level of the meaning of the
descriptor. -/
theorem level (faithful : draft.Faithful binary pointerSize family promise)
    {descriptor : Descriptor} {form : Form Descriptor} {items : List TypeId} {filled : Form TypeId}
    {node : TypeNode TypeId} (opens : binary.opening pointerSize descriptor = .form form)
    (refilled : form.refill? items = some filled)
    (laid : Building.formNode filled draft = .ok node after)
    (inside : ∀ item ∈ items, item.index < draft.store.size)
    (means : ∀ depth, items.map (draft.store.unfoldWith promise depth) =
      form.parts.map (binary.meaning pointerSize depth)) (depth : Nat) :
    binary.meaning pointerSize (depth + 1) descriptor =
      .node (node.map (after.store.unfoldWith promise depth)) := by
  have grown := (Extends.refl draft).formNode (congrArg finalState laid)
  have soundAfter := (faithful.formNode (congrArg finalState laid)).sound
  obtain ⟨padding, rfl, paddings⟩ := faithful.sound.formNode_eq laid
  have parts : items.map (after.store.unfoldWith promise depth) =
      form.parts.map (binary.meaning pointerSize depth) := by
    rw [← means depth]
    exact List.map_congr_left fun item member =>
      faithful.unfoldWith_eq grown.store (fun _ _ => rfl) depth (inside item member)
  rw [Binary.meaning_of_opening_form opens, Form.map_node,
    Form.map_eq_of_refill? refilled parts]
  refine congrArg Unfolding.node (Form.node_congr fun bytes has => ?_)
  rw [← Form.map_eq_of_refill? refilled parts] at has
  have present := paddings bytes (Form.hasPadding_map _ has)
  exact (soundAfter.store.unfoldWith_leaf present (by rintro ⟨⟩) (fun _ => rfl) depth).symm

/-! ### Runs -/

/-- Where keys are unambiguous, every successful run keeps the invariant, and the trees of the ids
it gives are the meanings of its descriptors. -/
theorem builds {before : Draft} {row : List Descriptor}
    {result : Except NormalizeError (List TypeId)}
    (unambiguous : binary.Unambiguous pointerSize family) (closed : binary.IsClosed family)
    (run : Building.Builds binary pointerSize before row result after) :
    ∀ {promise : Promise} {ids : List TypeId}, result = .ok ids →
      (∀ descriptor ∈ row, descriptor ∈ family) →
      before.Faithful binary pointerSize family promise →
      after.Faithful binary pointerSize family promise ∧
        ∀ depth, ids.map (after.store.unfoldWith promise depth) =
          row.map (binary.meaning pointerSize depth) := by
  induction run with
  | nil draft =>
    rintro promise _ ⟨⟩ - faithful
    exact ⟨faithful, fun _ => rfl⟩
  | cons head tail headMeans tailMeans =>
    rintro promise _ ⟨⟩ members faithful
    have headMember := members _ List.mem_cons_self
    obtain ⟨faithfulMiddle, first⟩ := headMeans rfl
      (fun descriptor member => List.mem_singleton.mp member ▸ headMember) faithful
    obtain ⟨faithfulAfter, others⟩ := tailMeans rfl
      (fun descriptor member => members descriptor (List.mem_cons_of_mem _ member)) faithfulMiddle
    refine ⟨faithfulAfter, fun depth => ?_⟩
    have inside := (Draft.Sound.builds head rfl faithful.sound).2 _ (List.mem_singleton.mpr rfl)
    have kept := faithfulMiddle.unfoldWith_eq ((Extends.refl _).builds tail).store
      (fun _ _ => rfl) depth inside.index_lt
    rw [List.map_cons, List.map_cons, kept, others depth, (List.cons.inj (first depth)).1]
  | known found =>
    rintro promise _ ⟨⟩ members faithful
    refine ⟨faithful, fun depth => ?_⟩
    obtain ⟨keyed, member, isKeyed, sameKey, means⟩ := faithful.known _ _ found
    rw [List.map_singleton, List.map_singleton, means depth,
      unambiguous _ member _ (members _ List.mem_cons_self) sameKey isKeyed]
  | leaf unknown opens interned =>
    rintro promise _ ⟨⟩ - faithful
    exact faithful.leaf opens interned
  | enumeration unknown opens interned isNext =>
    rintro promise _ ⟨⟩ members faithful
    exact faithful.enumeration (members _ List.mem_cons_self) unknown opens interned isNext
  | instead unknown opens same sameMeans =>
    intro promise ids succeeded members faithful
    have targetMember := closed _ (members _ List.mem_cons_self) _
      (Binary.mem_successors_of_opening_instead opens)
    obtain ⟨faithfulAfter, means⟩ := sameMeans succeeded
      (fun descriptor member => List.mem_singleton.mp member ▸ targetMember) faithful
    refine ⟨faithfulAfter, fun depth => ?_⟩
    rw [means depth, List.map_singleton, List.map_singleton,
      Binary.meaning_of_opening_instead opens]
  | form unknown opens isNext parts refilled laid partsMean =>
    rintro promise _ ⟨⟩ members faithful
    have member := members _ List.mem_cons_self
    -- The parts may come back to this descriptor: there its meaning is promised already.
    have promised := faithful.reserved member unknown isNext
    have partMembers := fun part isPart =>
      closed _ member part (Binary.mem_successors_of_opening_form opens isPart)
    obtain ⟨faithfulMiddle, means⟩ := partsMean rfl partMembers promised
    have items := (Draft.Sound.builds parts rfl promised.sound).2
    have soundAfter := (Draft.Sound.builds (.form unknown opens isNext parts refilled laid) rfl
      faithful.sound).1
    exact (faithfulMiddle.formNode (congrArg finalState laid)).filled
      (faithful.sound.store.next_not_opened isNext) soundAfter
      (faithfulMiddle.level opens refilled laid (fun item isItem => (items item isItem).index_lt)
        means)
  | failedHead | failedTail | failedPart | failedLayout | unhandled | full =>
    rintro promise ids ⟨⟩

end Draft.Faithful

/-! ### Histories -/

namespace Normalizer

/-- A normalizer whose known keys lead to the meanings of keyed descriptors of a family. -/
structure Faithful (binary : Binary) (pointerSize : UInt64) (family : Set Descriptor)
    (normalizer : Normalizer) : Prop where
  sound : normalizer.Sound
  pointerSize_eq : normalizer.pointerSize = pointerSize
  draft : normalizer.draft.Faithful binary pointerSize family .empty

namespace Faithful

variable {binary : Binary} {pointerSize : UInt64} {family : Set Descriptor}
  {normalizer after : Normalizer} {descriptor : Descriptor} {id : TypeId}

theorem new (binary : Binary) (pointerSize : UInt64) (family : Set Descriptor) :
    (new pointerSize).Faithful binary pointerSize family where
  sound := Sound.new pointerSize
  pointerSize_eq := rfl
  draft :=
    { sound := by
        rw [Promise.opened_empty]
        exact (Sound.new pointerSize).draft
      known := fun _ _ known => nomatch known }

/-- Where keys are unambiguous, a request of the family that succeeds keeps the invariant and is
answered with the meaning of its descriptor. -/
theorem of_unambiguous (unambiguous : binary.Unambiguous pointerSize family)
    (closed : binary.IsClosed family)
    (faithful : normalizer.Faithful binary pointerSize family) (member : descriptor ∈ family)
    (done : normalize binary descriptor normalizer = .ok id after) :
    after.Faithful binary pointerSize family ∧
      ∀ depth, after.store.unfold depth id = binary.meaning pointerSize depth descriptor := by
  have soundAfter := faithful.sound.of_normalize_eq_ok done
  obtain ⟨draft, run, rfl⟩ := builds_of_normalize_eq_ok done
  rw [faithful.pointerSize_eq] at run
  obtain ⟨faithfulDraft, means⟩ := Draft.Faithful.builds unambiguous closed run rfl
    (fun other isOther => List.mem_singleton.mp isOther ▸ member) faithful.draft
  refine ⟨⟨soundAfter, faithful.pointerSize_eq, ?_, faithfulDraft.known⟩, fun depth => ?_⟩
  · rw [Promise.opened_empty]
    exact soundAfter.draft
  · rw [← TypeStore.unfoldWith_empty]
    exact (List.cons.inj (means depth)).1

theorem of_normalize_eq_ok (consistent : binary.KeyConsistent family)
    (closed : binary.IsClosed family)
    (faithful : normalizer.Faithful binary pointerSize family) (member : descriptor ∈ family)
    (done : normalize binary descriptor normalizer = .ok id after) :
    after.Faithful binary pointerSize family ∧
      ∀ depth, after.store.unfold depth id = binary.meaning pointerSize depth descriptor :=
  of_unambiguous (consistent.unambiguous pointerSize) closed faithful member done

/-- Every sequence of requests of the family keeps the invariant. -/
theorem performAll (consistent : binary.KeyConsistent family)
    (closed : binary.IsClosed family)
    (faithful : normalizer.Faithful binary pointerSize family) {requests : List Descriptor}
    (members : ∀ descriptor ∈ requests, descriptor ∈ family) :
    (normalizer.performAll (requests.map (.normalize binary))).2.Faithful binary pointerSize
      family := by
  induction requests generalizing normalizer with
  | nil => exact faithful
  | cons descriptor rest inductionHypothesis =>
    refine inductionHypothesis ?_
      (fun other isOther => members other (List.mem_cons_of_mem _ isOther))
    show (finalState (normalize binary descriptor normalizer)).Faithful binary pointerSize family
    cases ended : normalize binary descriptor normalizer with
    | ok id after =>
      exact (of_normalize_eq_ok consistent closed faithful (members _ List.mem_cons_self) ended).1
    | error error after =>
      have same := faithful.sound.eq_of_normalize_eq_error ended
      exact same ▸ faithful

end Faithful

/-- The tree of a type does not change in a normalizer that retains it. -/
theorem Retains.unfold_eq {mark later : Normalizer} (retains : mark.Retains later)
    (sound : mark.Sound) (depth : Nat) {id : TypeId} (inside : id.index < mark.store.size) :
    later.store.unfold depth id = mark.store.unfold depth id := by
  rw [← TypeStore.unfoldWith_empty, ← TypeStore.unfoldWith_empty]
  exact TypeStore.unfoldWith_eq_of_get?_eq retains.get?_eq
    (fun place node present => (sound.draft.store.fits place node present).children)
    (fun _ _ => rfl) depth inside

/-- Normalization keeps meanings. After any requests about a binary, failed ones included, whose
closure has consistent keys, the type with which a request is answered has the meaning of its
descriptor, at every depth and through all later requests. -/
theorem unfold_eq_meaning (binary : Binary) (pointerSize : UInt64) (earlier : List Descriptor)
    (descriptor : Descriptor)
    (consistent : binary.KeyConsistent (binary.closure (descriptor :: earlier)))
    {id : TypeId} {after : Normalizer}
    (done : normalize binary descriptor
      ((new pointerSize).performAll (earlier.map (.normalize binary))).2 = .ok id after)
    (later : List Request) (depth : Nat) :
    (after.performAll later).2.store.unfold depth id =
      binary.meaning pointerSize depth descriptor := by
  have closed := binary.isClosed_closure (descriptor :: earlier)
  have faithful := Faithful.performAll consistent closed (.new binary pointerSize _)
    fun request requested => Binary.mem_closure (List.mem_cons_of_mem _ requested)
  obtain ⟨faithfulAfter, means⟩ := Faithful.of_normalize_eq_ok consistent closed faithful
    (Binary.mem_closure List.mem_cons_self) done
  have inside := faithful.sound.index_lt_of_normalize_eq_ok done
  have retained := faithfulAfter.sound.retains_performAll later
  rw [retained.unfold_eq faithfulAfter.sound depth inside, means]

/-- A binary in which the structure that points to itself is registered. -/
def linkedBinary : Binary := Binary.linuxAmd64.registerType "record" none linkedRecord

/-- A reference to this structure. -/
def linkedReference : Descriptor := .reference .structType "record" none

/-- A descriptor of an unknown kind, and all that a pointer to the structure leads to. -/
def linkedFamily : Set Descriptor :=
  {.other "vector" 8, .pointer linkedReference 8, linkedReference, linkedRecord, .bool}

theorem isClosed_linkedFamily : linkedBinary.IsClosed linkedFamily := by
  intro descriptor member next follows
  rcases member with rfl | rfl | rfl | rfl | rfl
  · cases follows
  · rw [List.mem_singleton.mp follows]
    exact Or.inr (Or.inr (Or.inl rfl))
  · have only : linkedBinary.successors linkedReference = [linkedRecord] := rfl
    rw [only] at follows
    rw [List.mem_singleton.mp follows]
    exact Or.inr (Or.inr (Or.inr (Or.inl rfl)))
  · have both : linkedBinary.successors linkedRecord = [.bool, .pointer linkedReference 8] := rfl
    rw [both] at follows
    rcases List.mem_cons.mp follows with rfl | last
    · exact Or.inr (Or.inr (Or.inr (Or.inr rfl)))
    · rw [List.mem_singleton.mp last]
      exact Or.inr (Or.inl rfl)
  · cases follows

/-- The reference has the key of the structure it leads to; all other keys are different. -/
theorem keyConsistent_linkedFamily : linkedBinary.KeyConsistent linkedFamily := by
  intro first firstIn second secondIn sameKey keyed
  rcases firstIn with rfl | rfl | rfl | rfl | rfl
  · cases keyed
  · rcases secondIn with rfl | rfl | rfl | rfl | rfl <;>
      first | rfl | exact absurd sameKey (by decide)
  · cases keyed
  · rcases secondIn with rfl | rfl | rfl | rfl | rfl <;>
      first | rfl | exact absurd sameKey (by decide)
  · cases keyed

/-- After a request that fails and one for a pointer, the reference is answered with the structure
that points to itself. -/
theorem unfold_eq_meaning_linkedReference :
    let earlier : List Descriptor := [.other "vector" 8, .pointer linkedReference 8]
    linkedBinary.KeyConsistent (linkedBinary.closure (linkedReference :: earlier)) ∧
      ∃ after, normalize linkedBinary linkedReference
          ((new 8).performAll (earlier.map (.normalize linkedBinary))).2 = .ok ⟨1⟩ after ∧
        ∀ later depth, (after.performAll later).2.store.unfold depth ⟨1⟩ =
          linkedBinary.meaning 8 depth linkedReference := by
  intro earlier
  have requested : ∀ request ∈ linkedReference :: earlier, request ∈ linkedFamily := by
    intro request isRequest
    simp only [earlier, List.mem_cons, List.not_mem_nil, or_false] at isRequest
    rcases isRequest with rfl | rfl | rfl
    · exact Or.inr (Or.inr (Or.inl rfl))
    · exact Or.inl rfl
    · exact Or.inr (Or.inl rfl)
  have consistent := keyConsistent_linkedFamily.mono
    (Binary.closure_subset requested isClosed_linkedFamily)
  exact ⟨consistent, _, rfl, fun later depth =>
    unfold_eq_meaning linkedBinary 8 earlier linkedReference consistent rfl later depth⟩

example : linkedBinary.meaning 8 2 linkedReference =
    .node (.struct [.node .bool, .node (.padding 7), .node (.pointer .cut)]) := rfl

end Normalizer

end BinaryFacts
