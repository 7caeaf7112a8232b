/-
This file proves that the parts of a function type in the store are the types with which requests
for these parts are answered.

A descriptor is settled under an id if building it would give this id and change nothing: its key
is known, or it is a leaf that is shared, or it is a reference to a settled descriptor. What a run
has built is settled, apart from anonymous aggregates and enumerations, which become a new node
each time. In a family with consistent keys a settled descriptor stays settled: leaves stay
shared, and a key that comes to be known is that of a keyed descriptor, to which every other
descriptor with this key leads. So the function types of a normalizer are over settled parts after
every history, and to ask for such a part gives the id that stands in the function type.
-/

import BinaryFacts.Proofs.Normalization.Encounters
import BinaryFacts.Proofs.Normalization.Faithfulness

namespace BinaryFacts

/-! ### What the descriptors of a family stand for -/

/-- Whether a descriptor is an aggregate or enumeration without a registered name. -/
def Descriptor.isAnonymous (descriptor : Descriptor) : Bool :=
  match descriptor.kind with
  | .aggregate _ _ | .enumeration => descriptor.registeredName.isNone
  | _ => false

namespace Binary

variable {binary : Binary} {pointerSize : UInt64} {family : Set Descriptor}
  {descriptor target : Descriptor}

/-- A descriptor that stands for an aggregate or enumeration without a registered name. -/
def Anonymous (binary : Binary) (descriptor : Descriptor) : Prop :=
  ∃ target, binary.dereference? descriptor = some target ∧ target.isAnonymous = true

/-- The keys under which descriptors of a family are entered. -/
def keyedKeys (binary : Binary) (family : Set Descriptor) : Set String :=
  {key | ∃ descriptor ∈ family, binary.isKeyed descriptor = true ∧ descriptor.key = key}

/-- The work on a descriptor goes on with the descriptor it stands for. -/
theorem opening_of_dereference? (stands : binary.dereference? descriptor = some target)
    (pointerSize : UInt64) :
    descriptor = target ∨ binary.opening pointerSize descriptor = .instead target := by
  unfold dereference? at stands
  split at stands
  · rename_i category typeId name isReference
    split at stands
    · rename_i tagged
      right
      simp only [opening, isReference, resolve_of_isTag binary tagged, stands]
    · exact Or.inl (Option.some.inj stands)
  · exact Or.inl (Option.some.inj stands)

/-- A descriptor with which the work goes on stands for itself. -/
theorem dereference?_of_opening_instead
    (opens : binary.opening pointerSize descriptor = .instead target) :
    binary.dereference? descriptor = some target ∧ binary.dereference? target = some target := by
  obtain ⟨category, typeId, name, isReference, tagged, found⟩ := eq_reference_of_opening opens
  obtain ⟨next, -, chain⟩ := Option.bind_eq_some_iff.mp found
  refine ⟨?_, dereference?_of_follow? chain⟩
  rw [dereference?, isReference]
  exact (if_pos tagged).trans found

/-- A reference to an anonymous type is anonymous itself. -/
theorem anonymous_of_opening_instead
    (opens : binary.opening pointerSize descriptor = .instead target)
    (anonymous : binary.Anonymous target) : binary.Anonymous descriptor := by
  obtain ⟨stands, itself⟩ := dereference?_of_opening_instead opens
  obtain ⟨last, standsLast, isAnonymous⟩ := anonymous
  rw [itself] at standsLast
  cases standsLast
  exact ⟨target, stands, isAnonymous⟩

/-- An enumeration or a type with parts is known by its key, unless it is anonymous. -/
theorem isKeyed_of_named
    (opens : binary.opening pointerSize descriptor = .enumeration ∨
      ∃ form, binary.opening pointerSize descriptor = .form form)
    (named : ¬ binary.Anonymous descriptor) : binary.isKeyed descriptor = true := by
  obtain ⟨kind, width, registeredName, key⟩ := descriptor
  cases kind with
  | aggregate | enumeration =>
    cases registeredName with
    | none => exact absurd ⟨_, rfl, rfl⟩ named
    | some name => rfl
  | pointer | array | function => rfl
  | reference category typeId name =>
    rcases opens with opensEnumeration | ⟨form, opensForm⟩
    · simp only [opening] at opensEnumeration
      split at opensEnumeration <;> cases opensEnumeration
    · obtain ⟨rfl, target, found, -⟩ := eq_typedef_of_opening opensForm
      simp only [isKeyed, found, Option.isSome_some]
  | void | bool | integer | float | wideChar | varArgs | value | other =>
    rcases opens with impossible | ⟨form, impossible⟩ <;> cases impossible

namespace KeyConsistent

variable (consistent : binary.KeyConsistent family) (isMember : descriptor ∈ family)
include consistent isMember

/-- A descriptor with the key of a keyed one stands for it. -/
theorem exists_keyed (keyed : descriptor.key ∈ binary.keyedKeys family) :
    ∃ target, binary.isKeyed target = true ∧ target.key = descriptor.key ∧
      binary.dereference? descriptor = some target := by
  obtain ⟨target, targetIn, isKeyed, sameKey⟩ := keyed
  have chain := consistent target targetIn descriptor isMember sameKey isKeyed
  rw [follow?_of_isKeyed isKeyed] at chain
  exact ⟨target, isKeyed, sameKey, dereference?_eq_follow? chain.symm⟩

/-- A leaf does not have the key of a keyed descriptor. -/
theorem key_notMem_of_leaf {node : TypeNode TypeId}
    (opens : binary.opening pointerSize descriptor = .leaf node) :
    descriptor.key ∉ binary.keyedKeys family := by
  intro keyed
  obtain ⟨target, isKeyed, -, stands⟩ := consistent.exists_keyed isMember keyed
  rcases opening_of_dereference? stands pointerSize with rfl | opensInstead
  · rcases opening_of_isKeyed isKeyed pointerSize with inner | ⟨form, inner⟩ <;>
      rw [inner] at opens <;> cases opens
  · rw [opensInstead] at opens
    cases opens

/-- A reference with the key of a keyed descriptor leads to a descriptor with this key. -/
theorem key_eq_of_instead (opens : binary.opening pointerSize descriptor = .instead target)
    (keyed : descriptor.key ∈ binary.keyedKeys family) : target.key = descriptor.key := by
  obtain ⟨named, -, sameKey, stands⟩ := consistent.exists_keyed isMember keyed
  rw [(dereference?_of_opening_instead opens).1] at stands
  cases stands
  exact sameKey

end KeyConsistent

end Binary

/-! ### Drafts that carry on -/

/-- A draft in which every known key and every shared leaf of another one is as it was. -/
structure Draft.Carries (mark draft : Draft) : Prop where
  known : ∀ key id, mark.identities.find? key = some id → draft.identities.find? key = some id
  shared : ∀ node id, mark.store.leaves.find? node = some id →
    draft.store.leaves.find? node = some id

namespace Draft.Carries

variable {mark draft : Draft}

theorem refl (draft : Draft) : draft.Carries draft where
  known _ _ known := known
  shared _ _ shared := shared

theorem interned (carries : mark.Carries draft) {node : TypeNode TypeId} {id : TypeId}
    {store : TypeStore} (interned : draft.store.intern node = some (id, store)) :
    mark.Carries (draft.withStore store) where
  known := carries.known
  shared other place shared :=
    TypeStore.leaves_intern_of_shared (carries.shared other place shared) interned

theorem withNode (carries : mark.Carries draft) (keyed : Bool) {key : String} (id : TypeId)
    (node : TypeNode TypeId) (unknown : draft.identities.find? key = none) :
    mark.Carries (draft.withNode keyed key id node) where
  known other place known :=
    ((Extends.refl draft).withNode keyed id node unknown).find?_eq_some
      (carries.known other place known)
  shared := carries.shared

theorem filled (carries : mark.Carries draft) (id : TypeId) (node : TypeNode TypeId) :
    mark.Carries (draft.filled id node) where
  known := carries.known
  shared := carries.shared

theorem formNode {form : Form TypeId} {after : Draft}
    (ended : finalState (Building.formNode form draft) = after) (carries : mark.Carries draft) :
    mark.Carries after :=
  Building.formNode_keeps ended (fun _ _ _ _ _ interned old => old.interned interned) carries

/-- Every run carries on with what is known and shared. -/
theorem builds {binary : Binary} {pointerSize : UInt64} {row : List Descriptor}
    {result : Except NormalizeError (List TypeId)} {after : Draft}
    (run : Building.Builds binary pointerSize draft row result after)
    (carries : mark.Carries draft) : mark.Carries after := by
  induction run with
  | nil | known | unhandled => exact carries
  | cons head tail headCarries tailCarries | failedTail head tail headCarries tailCarries =>
    exact tailCarries (headCarries carries)
  | failedHead head headCarries => exact headCarries carries
  | leaf unknown opens interned => exact carries.interned interned
  | enumeration unknown opens interned isNext =>
    exact (carries.interned interned).withNode _ _ _ unknown
  | instead unknown opens same sameCarries => exact sameCarries carries
  | form unknown opens isNext parts refilled laid partsCarry =>
    have built := partsCarry (carries.withNode _ _ .void unknown)
    exact (formNode (congrArg finalState laid) built).filled _ _
  | failedPart unknown opens isNext parts partsCarry =>
    exact partsCarry (carries.withNode _ _ .void unknown)
  | failedLayout unknown opens isNext parts refilled failed partsCarry =>
    exact formNode (congrArg finalState failed) (partsCarry (carries.withNode _ _ .void unknown))
  | full fails =>
    obtain ⟨-, -, rfl | ⟨underlying, store, interned, rfl⟩⟩ := Building.start_eq_full fails
    · exact carries
    · exact carries.interned interned

end Draft.Carries

/-! ### Settled descriptors -/

/-- Building the descriptor gives the id and changes nothing. -/
inductive Draft.Settles (binary : Binary) (pointerSize : UInt64) (draft : Draft) :
    Descriptor → TypeId → Prop
  | known {descriptor : Descriptor} {id : TypeId}
      (found : draft.identities.find? descriptor.key = some id) :
      Settles binary pointerSize draft descriptor id
  | leaf {descriptor : Descriptor} {node : TypeNode TypeId} {id : TypeId}
      (unknown : draft.identities.find? descriptor.key = none)
      (opens : binary.opening pointerSize descriptor = .leaf node)
      (shared : draft.store.leaves.find? node = some id) :
      Settles binary pointerSize draft descriptor id
  | instead {descriptor target : Descriptor} {id : TypeId}
      (unknown : draft.identities.find? descriptor.key = none)
      (opens : binary.opening pointerSize descriptor = .instead target)
      (settled : Settles binary pointerSize draft target id) :
      Settles binary pointerSize draft descriptor id

namespace Draft.Settles

variable {binary : Binary} {pointerSize : UInt64} {family : Set Descriptor} {draft after : Draft}
  {descriptor target : Descriptor} {id : TypeId}

/-- Building a settled descriptor gives its id and takes no other. -/
theorem build_eq (settled : draft.Settles binary pointerSize descriptor id) :
    Building.build binary pointerSize descriptor draft = .ok id draft := by
  induction settled with
  | known found => exact Building.build_of_known found
  | leaf unknown opens shared =>
    have stays := TypeStore.intern_of_found (Binary.isLeaf_of_opening opens).1 shared
    exact Building.build_of_leaf unknown opens stays
  | instead unknown opens settled inductionHypothesis =>
    exact (Building.build_of_instead unknown opens).trans inductionHypothesis

section Family

variable (consistent : binary.KeyConsistent family) (isMember : descriptor ∈ family)
include consistent isMember

/-- A reference to a settled descriptor is settled under the same id, by its own key or by the
descriptor it leads to. -/
theorem of_instead (knows : draft.KnowsOnly (binary.keyedKeys family))
    (opens : binary.opening pointerSize descriptor = .instead target)
    (settled : draft.Settles binary pointerSize target id) :
    draft.Settles binary pointerSize descriptor id := by
  cases known : draft.identities.find? descriptor.key with
  | none => exact .instead known opens settled
  | some other =>
    have sameKey := consistent.key_eq_of_instead isMember opens (knows _ _ known)
    cases settled with
    | known found =>
      rw [sameKey] at found
      exact .known found
    | leaf unknown | instead unknown =>
      rw [sameKey, known] at unknown
      cases unknown

/-- A settled descriptor stays settled. -/
theorem carried (closed : binary.IsClosed family)
    (knows : after.KnowsOnly (binary.keyedKeys family)) (carries : draft.Carries after)
    (settled : draft.Settles binary pointerSize descriptor id) :
    after.Settles binary pointerSize descriptor id := by
  induction settled with
  | known found => exact .known (carries.known _ _ found)
  | leaf unknown opens shared =>
    cases known : after.identities.find? _ with
    | none => exact .leaf known opens (carries.shared _ _ shared)
    | some other =>
      exact absurd (knows _ _ known) (consistent.key_notMem_of_leaf isMember opens)
  | instead unknown opens settled settledAfter =>
    have target := closed _ isMember _ (Binary.mem_successors_of_opening_instead opens)
    exact of_instead consistent isMember knows opens (settledAfter target)

end Family

end Draft.Settles

/-! ### Function types over settled parts -/

section Family

variable {binary : Binary} {pointerSize : UInt64} {family : Set Descriptor}

/-- A descriptor of the family that is settled under the id, unless it is anonymous. -/
structure Draft.Lasts (binary : Binary) (pointerSize : UInt64) (family : Set Descriptor)
    (draft : Draft) (descriptor : Descriptor) (id : TypeId) : Prop where
  isMember : descriptor ∈ family
  settled : ¬ binary.Anonymous descriptor → draft.Settles binary pointerSize descriptor id

/-- A draft that knows keys of the family only, and in which every function type is known by the
key of a function of the family and is over its parts. -/
structure Draft.Linked (binary : Binary) (pointerSize : UInt64) (family : Set Descriptor)
    (draft : Draft) : Prop where
  knows : draft.KnowsOnly (binary.keyedKeys family)
  functions : ∀ id result parameters variadic,
    draft.store.get? id = some (.function result parameters variadic) →
      ∃ function ∈ family, ∃ resultType parameterTypes,
        function.kind = .function resultType parameterTypes variadic ∧
        draft.identities.find? function.key = some id ∧
        List.Forall₂ (draft.Lasts binary pointerSize family) (resultType :: parameterTypes)
          (result :: parameters)

/-- Only a function opens as the form of a function. -/
theorem Binary.kind_of_opening_function {descriptor result : Descriptor}
    {parameters : List Descriptor} {variadic : Bool}
    (opens : binary.opening pointerSize descriptor =
      .form (.function result parameters variadic)) :
    descriptor.kind = .function result parameters variadic := by
  obtain ⟨kind, width, registeredName, key⟩ := descriptor
  cases kind with
  | function =>
    cases opens
    rfl
  | aggregate variant members =>
    simp only [opening] at opens
    cases variant <;> cases opens
  | reference category typeId name =>
    obtain ⟨-, target, -, impossible⟩ := eq_typedef_of_opening opens
    cases impossible
  | void | bool | integer | float | wideChar | varArgs | value | pointer | array | enumeration
  | other => cases opens

/-- A form that becomes a function type is that of a function, refilled with new parts. -/
theorem Building.eq_function_of_formNode {form : Form Descriptor} {items : List TypeId}
    {filled : Form TypeId} {result : TypeId} {parameters : List TypeId} {variadic : Bool}
    {before after : Draft} (refilled : form.refill? items = some filled)
    (laid : formNode filled before = .ok (.function result parameters variadic) after) :
    items = result :: parameters ∧
      ∃ resultType parameterTypes, form = .function resultType parameterTypes variadic := by
  have isFunction : filled = .function result parameters variadic := by
    cases filled with
    | struct width spans =>
      obtain ⟨ids, middle, -, laid⟩ := bind_eq_ok laid
      cases laid
    | function =>
      cases laid
      rfl
    | pointer | array | typedef | union => cases laid
  subst isFunction
  refine ⟨(Form.parts_of_refill? refilled).symm, ?_⟩
  unfold Form.refill? at refilled
  split at refilled
  · cases refilled
  · cases refilled
  · split at refilled <;> cases refilled
    exact ⟨_, _, rfl⟩
  · cases refilled
  · split at refilled <;> cases refilled
  · split at refilled <;> cases refilled
  · cases refilled

variable (consistent : binary.KeyConsistent family) (closed : binary.IsClosed family)
  {before draft after : Draft}

namespace Draft

include consistent closed in
theorem Lasts.carried {descriptor : Descriptor} {id : TypeId}
    (lasts : draft.Lasts binary pointerSize family descriptor id)
    (knows : after.KnowsOnly (binary.keyedKeys family)) (carries : draft.Carries after) :
    after.Lasts binary pointerSize family descriptor id where
  isMember := lasts.isMember
  settled named := (lasts.settled named).carried consistent lasts.isMember closed knows carries

include consistent closed in
theorem forall₂_lasts_carried {row : List Descriptor} {ids : List TypeId}
    (lasts : List.Forall₂ (draft.Lasts binary pointerSize family) row ids)
    (knows : after.KnowsOnly (binary.keyedKeys family)) (carries : draft.Carries after) :
    List.Forall₂ (after.Lasts binary pointerSize family) row ids :=
  lasts.imp fun _ _ last => last.carried consistent closed knows carries

namespace Linked

include consistent closed

/-- A draft that carries on and gets no new function types stays linked. -/
theorem carried (linked : draft.Linked binary pointerSize family)
    (knows : after.KnowsOnly (binary.keyedKeys family)) (carries : draft.Carries after)
    (old : ∀ id result parameters variadic,
      after.store.get? id = some (.function result parameters variadic) →
        draft.store.get? id = some (.function result parameters variadic)) :
    after.Linked binary pointerSize family where
  knows := knows
  functions id result parameters variadic present := by
    obtain ⟨function, isMember, resultType, parameterTypes, kind, known, lasts⟩ :=
      linked.functions id result parameters variadic (old _ _ _ _ present)
    exact ⟨function, isMember, resultType, parameterTypes, kind, carries.known _ _ known,
      forall₂_lasts_carried consistent closed lasts knows carries⟩

theorem interned (linked : draft.Linked binary pointerSize family) {node : TypeNode TypeId}
    {id : TypeId} {store : TypeStore} (leaf : node.isLeaf = true)
    (interned : draft.store.intern node = some (id, store)) :
    (draft.withStore store).Linked binary pointerSize family := by
  refine linked.carried consistent closed (linked.knows.withStore store)
    ((Carries.refl draft).interned interned) fun place result parameters variadic present => ?_
  change store.get? place = _ at present
  rcases (TypeStore.intern_eq_some_iff leaf).mp interned with ⟨-, rfl⟩ | ⟨-, -, rfl⟩
  · exact present
  · rw [TypeStore.get?_pushLeaf, TypeStore.get?_push] at present
    split at present
    · cases present
      cases leaf
    · exact present

theorem withNode (linked : draft.Linked binary pointerSize family) {descriptor : Descriptor}
    (isMember : descriptor ∈ family) (unknown : draft.identities.find? descriptor.key = none)
    (id : TypeId) {node : TypeNode TypeId} (plain : node.isKeyed = false) :
    (draft.withNode (binary.isKeyed descriptor) descriptor.key id node).Linked binary pointerSize
      family := by
  refine linked.carried consistent closed
    (linked.knows.withNode id node fun keyed => ⟨descriptor, isMember, keyed, rfl⟩)
    ((Carries.refl draft).withNode _ id node unknown)
    fun place result parameters variadic present => ?_
  change (draft.store.push node).get? place = _ at present
  rw [TypeStore.get?_push] at present
  split at present
  · cases present
    cases plain
  · exact present

theorem formNode (linked : draft.Linked binary pointerSize family) {form : Form TypeId}
    (ended : finalState (Building.formNode form draft) = after) :
    after.Linked binary pointerSize family :=
  Building.formNode_keeps ended
    (fun _ _ _ _ _ interned holds => holds.interned consistent closed rfl interned) linked

/-- Closing a node over parts that last keeps a draft linked. -/
theorem closed_form {descriptor : Descriptor} {form : Form Descriptor} {items : List TypeId}
    {filled : Form TypeId} {node : TypeNode TypeId} {id : TypeId}
    (linked : draft.Linked binary pointerSize family) (isMember : descriptor ∈ family)
    (opens : binary.opening pointerSize descriptor = .form form)
    (known : binary.isKeyed descriptor = true →
      draft.identities.find? descriptor.key = some id)
    (inside : id.index < draft.store.size)
    (lasts : List.Forall₂ (draft.Lasts binary pointerSize family) form.parts items)
    (refilled : form.refill? items = some filled)
    (laid : Building.formNode filled draft = .ok node after) :
    (after.filled id node).Linked binary pointerSize family := by
  have linkedAfter := linked.formNode consistent closed (congrArg finalState laid)
  have carries : draft.Carries (after.filled id node) :=
    ((Carries.refl draft).formNode (congrArg finalState laid)).filled id node
  have insideAfter : id.index < after.store.size := Nat.lt_of_lt_of_le inside
    ((Extends.refl draft).formNode (congrArg finalState laid)).store.size_le
  refine ⟨linkedAfter.knows, fun place result parameters variadic present => ?_⟩
  -- The node that is filled is the only one that can be a new function type.
  change (after.store.fill id node).get? place = _ at present
  rw [TypeStore.get?_fill _ _ _ _ insideAfter] at present
  split at present
  · rename_i same
    cases present
    obtain ⟨rfl, resultType, parameterTypes, rfl⟩ :=
      Building.eq_function_of_formNode refilled laid
    have kind := Binary.kind_of_opening_function opens
    have keyed : binary.isKeyed descriptor = true := by rw [Binary.isKeyed, kind]
    refine ⟨descriptor, isMember, resultType, parameterTypes, kind, ?_,
      forall₂_lasts_carried consistent closed lasts linkedAfter.knows carries⟩
    rw [same]
    exact carries.known _ _ (known keyed)
  · obtain ⟨function, isFunction, resultType, parameterTypes, kind, found, lasting⟩ :=
      linkedAfter.functions place result parameters variadic present
    exact ⟨function, isFunction, resultType, parameterTypes, kind, found,
      forall₂_lasts_carried consistent closed lasting linkedAfter.knows
        ((Carries.refl after).filled id node)⟩

/-- Every successful run keeps a draft linked, and what it has built lasts. -/
theorem builds {row : List Descriptor} {result : Except NormalizeError (List TypeId)}
    (run : Building.Builds binary pointerSize draft row result after) :
    ∀ {ids}, result = .ok ids → (∀ descriptor ∈ row, descriptor ∈ family) →
      draft.Linked binary pointerSize family →
        after.Linked binary pointerSize family ∧
          List.Forall₂ (after.Lasts binary pointerSize family) row ids := by
  induction run with
  | nil =>
    rintro _ ⟨⟩ - linked
    exact ⟨linked, .nil⟩
  | cons head tail headLinks tailLinks =>
    rintro _ ⟨⟩ members linked
    obtain ⟨linkedMiddle, lastsHead⟩ := headLinks rfl (fun descriptor member =>
      List.mem_singleton.mp member ▸ members _ List.mem_cons_self) linked
    obtain ⟨linkedAfter, lastsTail⟩ := tailLinks rfl
      (fun descriptor member => members _ (List.mem_cons_of_mem _ member)) linkedMiddle
    have lastsFirst := (List.forall₂_cons.mp lastsHead).1.carried consistent closed
      linkedAfter.knows ((Carries.refl _).builds tail)
    exact ⟨linkedAfter, .cons lastsFirst lastsTail⟩
  | known found =>
    rintro _ ⟨⟩ members linked
    exact ⟨linked, .cons ⟨members _ List.mem_cons_self, fun _ => .known found⟩ .nil⟩
  | leaf unknown opens interned =>
    rintro _ ⟨⟩ members linked
    have leaf := (Binary.isLeaf_of_opening opens).1
    refine ⟨linked.interned consistent closed leaf interned,
      .cons ⟨members _ List.mem_cons_self, fun _ => ?_⟩ .nil⟩
    exact .leaf unknown opens (TypeStore.leaves_intern leaf interned)
  | enumeration unknown opens interned isNext =>
    rintro _ ⟨⟩ members linked
    have isMember := members _ List.mem_cons_self
    have linkedLeaf := linked.interned consistent closed rfl interned
    refine ⟨linkedLeaf.withNode consistent closed isMember unknown _ rfl,
      .cons ⟨isMember, fun named => ?_⟩ .nil⟩
    exact .known (find?_withNode _ _ _ _ (Binary.isKeyed_of_named (Or.inl opens) named))
  | instead unknown opens same sameLinks =>
    rintro ids succeeded members linked
    have isMember := members _ List.mem_cons_self
    have target := closed _ isMember _ (Binary.mem_successors_of_opening_instead opens)
    obtain ⟨linkedAfter, lasts⟩ := sameLinks succeeded
      (fun descriptor member => List.mem_singleton.mp member ▸ target) linked
    cases lasts with
    | cons lastsTarget rest =>
      cases rest
      refine ⟨linkedAfter, .cons ⟨isMember, fun named => ?_⟩ .nil⟩
      refine .of_instead consistent isMember linkedAfter.knows opens
        (lastsTarget.settled fun anonymous => named ?_)
      exact Binary.anonymous_of_opening_instead opens anonymous
  | form unknown opens isNext parts refilled laid partsLink =>
    rintro _ ⟨⟩ members linked
    have isMember := members _ List.mem_cons_self
    obtain ⟨linkedMiddle, lasts⟩ := partsLink rfl
      (fun part isPart =>
        closed _ isMember part (Binary.mem_successors_of_opening_form opens isPart))
      (linked.withNode consistent closed isMember unknown _ rfl)
    have entered := fun keyed => ((Carries.refl _).builds parts).known _ _
      (find?_withNode _ _ _ .void keyed)
    have inside := Nat.lt_of_lt_of_le
      (TypeStore.index_lt_of_get?_eq_some (get?_withNode _ _ _ isNext .void))
      ((Extends.refl _).builds parts).store.size_le
    refine ⟨linkedMiddle.closed_form consistent closed isMember opens entered inside lasts refilled
      laid, .cons ⟨isMember, fun named => ?_⟩ .nil⟩
    have keyed := Binary.isKeyed_of_named (Or.inr ⟨_, opens⟩) named
    have carries := (Carries.refl _).formNode (congrArg finalState laid)
    exact .known (carries.known _ _ (entered keyed))
  | failedHead | failedTail | failedPart | failedLayout | unhandled | full => rintro _ ⟨⟩

end Linked

end Draft

end Family

/-! ### Histories -/

namespace Normalizer

variable {binary : Binary} {pointerSize : UInt64} {family : Set Descriptor}
  {normalizer after : Normalizer} {descriptor : Descriptor} {id : TypeId}

/-- A settled descriptor is answered with its id, and nothing changes. -/
theorem normalize_of_settles
    (settled : normalizer.draft.Settles binary normalizer.pointerSize descriptor id) :
    normalize binary descriptor normalizer = .ok id normalizer := by
  rw [normalize, settled.build_eq]
  rfl

theorem exists_function_of_unfold_eq {store : TypeStore} {result : Unfolding}
    {parameters : List Unfolding} {variadic : Bool}
    (unfolds : store.unfold 1 id = .node (.function result parameters variadic)) :
    ∃ resultId parameterIds, store.get? id = some (.function resultId parameterIds variadic) := by
  rw [TypeStore.unfold] at unfolds
  split at unfolds
  · cases unfolds
  · rename_i node present
    cases node with
    | function resultId parameterIds isVariadic =>
      cases unfolds
      exact ⟨resultId, parameterIds, present⟩
    | void | bool | integer | float | pointer | array | struct | union | enumeration | typedef
    | padding => cases unfolds

/-- A normalizer with faithful types in which every function type is known by the key of a
function of the family and is over its parts. -/
structure Linked (binary : Binary) (pointerSize : UInt64) (family : Set Descriptor)
    (normalizer : Normalizer) : Prop where
  faithful : normalizer.Faithful binary pointerSize family
  draft : normalizer.draft.Linked binary pointerSize family

/-- A linked normalizer that holds all that an earlier one holds. -/
structure Continues (binary : Binary) (pointerSize : UInt64) (family : Set Descriptor)
    (mark later : Normalizer) : Prop where
  linked : later.Linked binary pointerSize family
  retains : mark.Retains later
  carries : mark.draft.Carries later.draft

namespace Linked

theorem new (binary : Binary) (pointerSize : UInt64) (family : Set Descriptor) :
    (new pointerSize).Linked binary pointerSize family where
  faithful := .new binary pointerSize family
  draft :=
    { knows := fun _ _ known => nomatch known
      functions := fun _ _ _ _ present => nomatch present }

theorem continues (linked : normalizer.Linked binary pointerSize family) :
    normalizer.Continues binary pointerSize family normalizer :=
  ⟨linked, .refl normalizer, .refl normalizer.draft⟩

theorem normalize_of_settles (linked : normalizer.Linked binary pointerSize family)
    (settled : normalizer.draft.Settles binary pointerSize descriptor id) :
    normalize binary descriptor normalizer = .ok id normalizer :=
  Normalizer.normalize_of_settles (linked.faithful.pointerSize_eq ▸ settled)

variable (consistent : binary.KeyConsistent family) (closed : binary.IsClosed family)
  (isMember : descriptor ∈ family)
include consistent closed isMember

theorem of_normalize_eq_ok (linked : normalizer.Linked binary pointerSize family)
    (done : normalize binary descriptor normalizer = .ok id after) :
    after.Linked binary pointerSize family := by
  have faithful := (linked.faithful.of_normalize_eq_ok consistent closed isMember done).1
  obtain ⟨draft, run, rfl⟩ := builds_of_normalize_eq_ok done
  rw [linked.faithful.pointerSize_eq] at run
  obtain ⟨linkedDraft, -⟩ := linked.draft.builds consistent closed run rfl
    (fun other isOther => List.mem_singleton.mp isOther ▸ isMember)
  exact ⟨faithful, linkedDraft.carried consistent closed linkedDraft.knows
    ⟨fun _ _ known => known, fun _ _ shared => shared⟩ fun _ _ _ _ present => present⟩

/-- Every request of the family continues what an earlier normalizer holds. -/
theorem keeps_continues (mark : Normalizer) :
    Keeps (mark.Continues binary pointerSize family) (normalize binary descriptor) := by
  intro later continues
  have sound := continues.linked.faithful.sound
  cases ended : normalize binary descriptor later with
  | ok id after =>
    have retained :=
      (Retains.keeps_normalize mark binary descriptor later ⟨sound, continues.retains⟩).2
    rw [ended] at retained
    refine ⟨continues.linked.of_normalize_eq_ok consistent closed isMember ended, retained,
      retained.known, fun node place shared => ?_⟩
    obtain ⟨draft, run, rfl⟩ := builds_of_normalize_eq_ok ended
    exact (continues.carries.builds run).shared node place shared
  | error error after =>
    rw [sound.eq_of_normalize_eq_error ended]
    exact continues

/-- A function is answered with a function type over its parts. -/
theorem function_of_normalize_eq_ok {result : Descriptor} {parameters : List Descriptor}
    {variadic : Bool} (linked : normalizer.Linked binary pointerSize family)
    (kind : descriptor.kind = .function result parameters variadic)
    (done : normalize binary descriptor normalizer = .ok id after) :
    ∃ resultId parameterIds,
      after.store.get? id = some (.function resultId parameterIds variadic) ∧
        List.Forall₂ (after.draft.Lasts binary pointerSize family) (result :: parameters)
          (resultId :: parameterIds) := by
  have linkedAfter := linked.of_normalize_eq_ok consistent closed isMember done
  have keyed : binary.isKeyed descriptor = true := by rw [Binary.isKeyed, kind]
  have opens : binary.opening pointerSize descriptor =
      .form (.function result parameters variadic) := by rw [Binary.opening, kind]
  have means := (linked.faithful.of_normalize_eq_ok consistent closed isMember done).2 1
  rw [Binary.meaning_of_opening_form opens] at means
  obtain ⟨resultId, parameterIds, present⟩ := exists_function_of_unfold_eq means
  obtain ⟨other, otherIn, otherResult, otherParameters, otherKind, knownOther, lasts⟩ :=
    linkedAfter.draft.functions id resultId parameterIds variadic present
  have otherKeyed : binary.isKeyed other = true := by rw [Binary.isKeyed, otherKind]
  have sameKey : other.key = descriptor.key :=
    linkedAfter.faithful.sound.draft.injective _ _ id knownOther
      (known?_of_normalize_eq_ok keyed done)
  have sameChain := consistent other otherIn descriptor isMember sameKey otherKeyed
  rw [Binary.follow?_of_isKeyed otherKeyed, Binary.follow?_of_isKeyed keyed] at sameChain
  cases sameChain
  rw [kind] at otherKind
  cases otherKind
  exact ⟨resultId, parameterIds, present, lasts⟩

end Linked

end Normalizer

end BinaryFacts
