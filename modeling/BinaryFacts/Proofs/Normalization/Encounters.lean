/-
This file follows a request through the descriptors that it meets. In a family that holds
everything to which its members lead, a request for members of the family meets nothing else: the
keys it enters are those of keyed descriptors of the family, and an error that ends it names a
descriptor of the family that is of an unknown kind.
-/

import BinaryFacts.Proofs.Normalization.Meaning

namespace BinaryFacts

/-! ### Families with one more descriptor -/

namespace Binary

variable {binary : Binary} {family : Set Descriptor} {descriptor : Descriptor}

theorem IsClosed.insert (closed : binary.IsClosed family)
    (leads : ∀ next ∈ binary.successors descriptor, next ∈ family) :
    binary.IsClosed (insert descriptor family) := by
  rintro other (rfl | member) next follows
  · exact Or.inr (leads next follows)
  · exact Or.inr (closed other member next follows)

/-- A descriptor with a key of its own keeps the keys of a family consistent. -/
theorem KeyConsistent.insert (consistent : binary.KeyConsistent family)
    (apart : ∀ other ∈ family, other.key ≠ descriptor.key) :
    binary.KeyConsistent (insert descriptor family) := by
  rintro first (rfl | firstIn) second (rfl | secondIn) sameKey keyed
  · rfl
  · exact absurd sameKey.symm (apart second secondIn)
  · exact absurd sameKey (apart first firstIn)
  · exact consistent first firstIn second secondIn sameKey keyed

end Binary

/-! ### Keys -/

/-- A draft in which every known key is one of `keys`. -/
def Draft.KnowsOnly (keys : Set String) (draft : Draft) : Prop :=
  ∀ key id, draft.identities.find? key = some id → key ∈ keys

namespace Draft.KnowsOnly

variable {keys : Set String} {draft : Draft}

theorem withStore (knows : draft.KnowsOnly keys) (store : TypeStore) :
    (draft.withStore store).KnowsOnly keys := knows

theorem withNode (knows : draft.KnowsOnly keys) {keyed : Bool} {key : String} (id : TypeId)
    (node : TypeNode TypeId) (allowed : keyed = true → key ∈ keys) :
    (draft.withNode keyed key id node).KnowsOnly keys := by
  intro other place known
  rcases known_of_withNode known with ⟨isKeyed, rfl, -⟩ | old
  · exact allowed isKeyed
  · exact knows other place old

theorem formNode (knows : draft.KnowsOnly keys) {form : Form TypeId} {after : Draft}
    (ended : finalState (Building.formNode form draft) = after) : after.KnowsOnly keys := by
  intro key id known
  rw [Building.identities_of_formNode ended] at known
  exact knows key id known

/-- The keys of a draft and those of the keyed descriptors that a run meets are all the keys that
it knows in the end. -/
theorem builds {binary : Binary} {pointerSize : UInt64} {family : Set Descriptor}
    {row : List Descriptor} {result : Except NormalizeError (List TypeId)} {after : Draft}
    (closed : binary.IsClosed family)
    (allowed : ∀ descriptor ∈ family, binary.isKeyed descriptor = true → descriptor.key ∈ keys)
    (run : Building.Builds binary pointerSize draft row result after)
    (members : ∀ descriptor ∈ row, descriptor ∈ family) (knows : draft.KnowsOnly keys) :
    after.KnowsOnly keys := by
  induction run with
  | nil | known | unhandled => exact knows
  | cons head tail headKnows tailKnows | failedTail head tail headKnows tailKnows =>
    have first := headKnows (fun descriptor member =>
      List.mem_singleton.mp member ▸ members _ List.mem_cons_self) knows
    exact tailKnows (fun descriptor member => members _ (List.mem_cons_of_mem _ member)) first
  | failedHead head headKnows =>
    exact headKnows (fun descriptor member =>
      List.mem_singleton.mp member ▸ members _ List.mem_cons_self) knows
  | leaf unknown opens interned => exact knows.withStore _
  | enumeration unknown opens interned isNext =>
    exact (knows.withStore _).withNode _ _ (allowed _ (members _ List.mem_cons_self))
  | instead unknown opens same sameKnows =>
    have target := closed _ (members _ List.mem_cons_self) _
      (Binary.mem_successors_of_opening_instead opens)
    exact sameKnows (fun descriptor member => List.mem_singleton.mp member ▸ target) knows
  | form unknown opens isNext parts refilled laid partsKnow =>
    have member := members _ List.mem_cons_self
    have built := partsKnow (fun part isPart =>
      closed _ member part (Binary.mem_successors_of_opening_form opens isPart))
      (knows.withNode _ .void (allowed _ member))
    have laidOut := built.formNode (congrArg finalState laid)
    exact laidOut
  | failedPart unknown opens isNext parts partsKnow =>
    have member := members _ List.mem_cons_self
    exact partsKnow (fun part isPart =>
      closed _ member part (Binary.mem_successors_of_opening_form opens isPart))
      (knows.withNode _ .void (allowed _ member))
  | failedLayout unknown opens isNext parts refilled failed partsKnow =>
    have member := members _ List.mem_cons_self
    have built := partsKnow (fun part isPart =>
      closed _ member part (Binary.mem_successors_of_opening_form opens isPart))
      (knows.withNode _ .void (allowed _ member))
    exact built.formNode (congrArg finalState failed)
  | full fails =>
    obtain ⟨-, -, rfl | ⟨underlying, store, -, rfl⟩⟩ := Building.start_eq_full fails
    · exact knows
    · exact knows.withStore store

end Draft.KnowsOnly

/-! ### Errors -/

namespace Binary

variable {binary : Binary} {pointerSize : UInt64} {descriptor : Descriptor}

theorem kind_of_opening_unhandled {kind : String}
    (opens : binary.opening pointerSize descriptor = .unhandled kind) :
    descriptor.kind = .other kind := by
  obtain ⟨ownKind, width, registeredName, key⟩ := descriptor
  cases ownKind with
  | other name =>
    cases opens
    rfl
  | reference category typeId name =>
    simp only [opening] at opens
    split at opens <;> cases opens
  | void | bool | integer | float | wideChar | varArgs | value | pointer | array | function
  | aggregate | enumeration => cases opens

end Binary

/-- The error of a descriptor of an unknown kind. -/
def NormalizeError.Names (error : NormalizeError) (descriptor : Descriptor) : Prop :=
  ∃ kind, descriptor.kind = .other kind ∧ error = .unhandledKind kind descriptor.key

/-- A run fails only at a descriptor of an unknown kind, which it names, or for want of an id. -/
theorem Building.Builds.exists_named {binary : Binary} {pointerSize : UInt64}
    {family : Set Descriptor} {row : List Descriptor}
    {result : Except NormalizeError (List TypeId)} {before after : Draft}
    (closed : binary.IsClosed family) (run : Builds binary pointerSize before row result after) :
    ∀ {error}, result = .error error → error ≠ .storeFull →
      (∀ descriptor ∈ row, descriptor ∈ family) → ∃ unknown ∈ family, error.Names unknown := by
  induction run with
  | nil | cons | known | leaf | enumeration | form => rintro error ⟨⟩
  | failedHead head headNames =>
    rintro error ⟨⟩ hasRoom members
    exact headNames rfl hasRoom (fun descriptor member =>
      List.mem_singleton.mp member ▸ members _ List.mem_cons_self)
  | failedTail head tail headNames tailNames =>
    rintro error ⟨⟩ hasRoom members
    exact tailNames rfl hasRoom
      (fun descriptor member => members _ (List.mem_cons_of_mem _ member))
  | instead unknown opens same sameNames =>
    intro error failed hasRoom members
    have target := closed _ (members _ List.mem_cons_self) _
      (Binary.mem_successors_of_opening_instead opens)
    exact sameNames failed hasRoom (fun descriptor member => List.mem_singleton.mp member ▸ target)
  | failedPart unknown opens isNext parts partsName =>
    rintro error ⟨⟩ hasRoom members
    exact partsName rfl hasRoom fun part isPart =>
      closed _ (members _ List.mem_cons_self) part
        (Binary.mem_successors_of_opening_form opens isPart)
  | unhandled unknown opens =>
    rintro error ⟨⟩ - members
    exact ⟨_, members _ List.mem_cons_self, _, Binary.kind_of_opening_unhandled opens, rfl⟩
  | failedLayout | full =>
    rintro error ⟨⟩ hasRoom
    exact absurd rfl hasRoom

end BinaryFacts
