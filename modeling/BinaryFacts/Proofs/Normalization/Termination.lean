/-
This file bounds how far down the work on a descriptor goes.

Whatever the descriptor, it goes down no further than the ids last, since of two levels one below
the other at least one reserves a node. Where no anonymous aggregate is nested in itself there is
a bound that has nothing to do with ids. On the way down from a request, consider the descriptors
that were passed since a key was last entered. None of them comes again, since all ways down but
those into an anonymous aggregate and those from a reference to the type it stands for enter a
key. The descriptors within reach are finitely many, and so are the keys that can still be
entered.
-/

import BinaryFacts.Proofs.Descriptor.Parts
import BinaryFacts.Proofs.Normalization.Encounters
import BinaryFacts.Proofs.Normalization.SameKeys
import Mathlib.Data.Set.Card

namespace BinaryFacts

namespace Building

variable {binary : Binary} {pointerSize : UInt64} {descriptor : Descriptor} {draft : Draft}

/-! ### Levels -/

/-- The work on a descriptor goes down less than so many levels: to the descriptor it stands for,
or to its parts, each in the draft that those before it left. -/
def GoesDown (binary : Binary) (pointerSize : UInt64) : Nat → Descriptor → Draft → Prop
  | 0, _, _ => False
  | levels + 1, descriptor, draft =>
    (∀ target after, start binary pointerSize descriptor draft = .ok (.instead target) after →
      GoesDown binary pointerSize levels target after) ∧
    ∀ id form after, start binary pointerSize descriptor draft = .ok (.parts id form) after →
      ∀ completed part rest ids middle, form.parts = completed ++ part :: rest →
        completed.mapM (build binary pointerSize) after = .ok ids middle →
          GoesDown binary pointerSize levels part middle

theorem start_eq_instead {target : Descriptor} {after : Draft}
    (begins : start binary pointerSize descriptor draft = .ok (.instead target) after) :
    draft.identities.find? descriptor.key = none ∧
      binary.opening pointerSize descriptor = .instead target ∧ after = draft := by
  have possible := begins_start binary pointerSize descriptor draft
  rw [begins] at possible
  cases possible with
  | instead unknown opens => exact ⟨unknown, opens, rfl⟩

theorem start_eq_parts {id : TypeId} {form : Form Descriptor} {after : Draft}
    (begins : start binary pointerSize descriptor draft = .ok (.parts id form) after) :
    draft.identities.find? descriptor.key = none ∧
      binary.opening pointerSize descriptor = .form form ∧ draft.store.next? = some id ∧
      after = draft.withNode (binary.isKeyed descriptor) descriptor.key id .void := by
  have possible := begins_start binary pointerSize descriptor draft
  rw [begins] at possible
  cases possible with
  | parts unknown opens isNext => exact ⟨unknown, opens, isNext, rfl⟩

/-- The ids bound the levels. -/
theorem goesDown_of_enough {levels : Nat}
    (enough : Enough binary pointerSize levels descriptor draft) :
    GoesDown binary pointerSize levels descriptor draft := by
  induction levels generalizing descriptor draft with
  | zero => exact absurd enough.1 (Nat.not_succ_le_zero _)
  | succ levels inductionHypothesis =>
    constructor
    · intro target after begins
      obtain ⟨-, opens, rfl⟩ := start_eq_instead begins
      exact inductionHypothesis (enough.instead opens)
    · intro id form after begins completed part rest ids middle splits built
      obtain ⟨-, -, isNext, rfl⟩ := start_eq_parts begins
      have reserved : draft.store.size + 1 ≤
          (draft.withNode (binary.isKeyed descriptor) descriptor.key id .void).store.size :=
        (TypeStore.size_push draft.store .void).ge
      exact inductionHypothesis
        (enough.part isNext (reserved.trans (builds_of_mapM_build built).size_le))

end Building

/-! ### Keys still to be entered -/

/-- The keys of some descriptors that a draft does not know. -/
def Draft.unknownKeys (reach : Set Descriptor) (draft : Draft) : Set String :=
  {key | key ∈ Descriptor.key '' reach ∧ draft.identities.find? key = none}

namespace Draft

variable {reach : Set Descriptor} {draft after : Draft}

theorem finite_unknownKeys (finite : reach.Finite) : (draft.unknownKeys reach).Finite :=
  (finite.image _).subset fun _ unknown => unknown.1

theorem ncard_unknownKeys_le (finite : reach.Finite) :
    (draft.unknownKeys reach).ncard ≤ reach.ncard :=
  (Set.ncard_le_ncard (fun _ unknown => unknown.1) (finite.image _)).trans
    (Set.ncard_image_le finite)

theorem SameKeys.unknownKeys_eq (same : draft.SameKeys Set.univ after) :
    after.unknownKeys reach = draft.unknownKeys reach := by
  ext key
  exact and_congr_right fun _ => (same key (Set.mem_univ key)).symm

/-- A draft that has grown by keys within reach has fewer of them left to enter. -/
theorem Extends.ncard_unknownKeys_lt (grown : draft.Extends after) (finite : reach.Finite)
    (knows : after.KnowsOnly
      ({key | (draft.identities.find? key).isSome} ∪ Descriptor.key '' reach))
    (different : ¬ draft.SameKeys Set.univ after) :
    (after.unknownKeys reach).ncard < (draft.unknownKeys reach).ncard := by
  have fewer : after.unknownKeys reach ⊆ draft.unknownKeys reach :=
    fun key unknown => ⟨unknown.1, grown.find?_eq_none unknown.2⟩
  refine Set.ncard_lt_ncard (Set.ssubset_iff_subset_ne.mpr ⟨fewer, fun same => ?_⟩)
    (finite_unknownKeys finite)
  refine different fun key _ => ⟨fun unknown => ?_, grown.find?_eq_none⟩
  cases known : after.identities.find? key with
  | none => rfl
  | some id =>
    rcases knows key id known with old | isReached
    · rw [Set.mem_ofPred_eq, unknown] at old
      cases old
    · have stillUnknown : key ∈ after.unknownKeys reach := same ▸ ⟨isReached, unknown⟩
      exact known.symm.trans stillUnknown.2

end Draft

/-! ### Nested aggregates -/

/-- Whether a descriptor is an aggregate without a registered name. -/
def Descriptor.isAnonymousAggregate (descriptor : Descriptor) : Bool :=
  match descriptor.kind with
  | .aggregate _ _ => descriptor.registeredName.isNone
  | _ => false

namespace Binary

/-- The steps down that enter no key: from an anonymous aggregate to a member, and from a
reference to a tagged type to the type it leads to. -/
inductive Nested (binary : Binary) : Descriptor → Descriptor → Prop
  | member {aggregate member : Descriptor} (anonymous : aggregate.isAnonymousAggregate = true)
      (isMember : member ∈ aggregate.kind.parts) : Nested binary aggregate member
  | reference {reference target : Descriptor} {category : ReferenceClass}
      {typeId : Option String} {name : String}
      (isReference : reference.kind = .reference category typeId name)
      (tagged : category.isTag = true)
      (leads : (binary.lookup? typeId name).bind (binary.follow? ReferenceClass.isTag) =
        some target) : Nested binary reference target

/-- A family in which no anonymous aggregate is nested in itself. -/
def Unnested (binary : Binary) (family : Set Descriptor) : Prop :=
  ∀ aggregate ∈ family, aggregate.isAnonymousAggregate = true →
    ¬ Relation.TransGen binary.Nested aggregate aggregate

variable {binary : Binary} {pointerSize : UInt64} {family : Set Descriptor}
  {descriptor target : Descriptor}

theorem successors_of_isAnonymousAggregate (anonymous : descriptor.isAnonymousAggregate = true) :
    binary.successors descriptor = descriptor.kind.parts := by
  obtain ⟨kind, width, registeredName, key⟩ := descriptor
  cases kind with
  | aggregate variant members => rfl
  | void | bool | integer | float | wideChar | varArgs | value | pointer | array | function
  | enumeration | reference | other => cases anonymous

theorem Nested.mem_successors (nested : binary.Nested descriptor target) :
    target ∈ binary.successors descriptor := by
  cases nested with
  | member anonymous isMember =>
    rw [successors_of_isAnonymousAggregate anonymous]
    exact isMember
  | reference isReference tagged leads =>
    rename_i category typeId name
    have different : category ≠ .typedef := by
      rintro rfl
      cases tagged
    simp only [successors, isReference]
    rw [if_neg different, if_pos tagged, leads]
    exact List.mem_singleton.mpr rfl

/-- A descriptor that leads into a closed family is not nested in itself unless it belongs to it. -/
theorem not_transGen_of_notMem (closed : binary.IsClosed family)
    (leads : ∀ next ∈ binary.successors descriptor, next ∈ family) (outside : descriptor ∉ family) :
    ¬ Relation.TransGen binary.Nested descriptor descriptor := by
  intro cycle
  obtain ⟨next, step, back⟩ := Relation.TransGen.head'_iff.mp cycle
  have inside : ∀ {last}, Relation.ReflTransGen binary.Nested next last → last ∈ family := by
    intro last path
    induction path with
    | refl => exact leads next step.mem_successors
    | tail _ further inductionHypothesis =>
      exact closed _ inductionHypothesis _ further.mem_successors
  exact outside (inside back)

/-- A descriptor with parts that is not entered under its key is an anonymous aggregate. -/
theorem isAnonymousAggregate_of_opening {form : Form Descriptor}
    (opens : binary.opening pointerSize descriptor = .form form)
    (unkeyed : binary.isKeyed descriptor = false) : descriptor.isAnonymousAggregate = true := by
  obtain ⟨kind, width, registeredName, key⟩ := descriptor
  cases kind with
  | aggregate variant members =>
    cases registeredName with
    | none => rfl
    | some name => cases unkeyed
  | reference category typeId name =>
    obtain ⟨rfl, target, found, -⟩ := eq_typedef_of_opening opens
    have missing : (binary.lookup? typeId name).isSome = false := unkeyed
    rw [found] at missing
    cases missing
  | pointer | array | function => cases unkeyed
  | void | bool | integer | float | wideChar | varArgs | value | enumeration | other => cases opens

/-- Where no anonymous aggregate is nested in itself, nothing is. -/
theorem Unnested.not_transGen (unnested : binary.Unnested family)
    (closed : binary.IsClosed family) (isMember : descriptor ∈ family) :
    ¬ Relation.TransGen binary.Nested descriptor descriptor := by
  intro cycle
  obtain ⟨next, step, back⟩ := Relation.TransGen.head'_iff.mp cycle
  have nextMember := closed _ isMember _ step.mem_successors
  cases step with
  | member anonymous isPart => exact unnested descriptor isMember anonymous cycle
  | reference isReference tagged leads =>
    -- The end of a chain of references is no such reference, so only an anonymous aggregate
    -- leads on from it, and that one comes back to itself as well.
    obtain ⟨found, -, chain⟩ := Option.bind_eq_some_iff.mp leads
    rcases Relation.ReflTransGen.cases_head back with rfl | ⟨further, stepOn, backOn⟩
    · have untagged := untagged_of_followWithin chain isReference
      rw [tagged] at untagged
      cases untagged
    · have around := Relation.TransGen.head' stepOn
        (backOn.tail (.reference isReference tagged leads))
      cases stepOn with
      | member anonymous isPart => exact unnested next nextMember anonymous around
      | reference isReferenceNext taggedNext leadsNext =>
        have untagged := untagged_of_followWithin chain isReferenceNext
        rw [taggedNext] at untagged
        cases untagged

end Binary

namespace Building

variable {binary : Binary} {pointerSize : UInt64} {family passed : Set Descriptor}
  {descriptor : Descriptor} {draft : Draft}

/-! ### The bound -/

/-- What is built before a part of a reserved form adds to the draft, and only keys of the
family. -/
theorem extends_of_completed (closed : binary.IsClosed family) {part : Descriptor}
    {form : Form Descriptor} {completed rest : List Descriptor} {id : TypeId} {ids : List TypeId}
    {middle : Draft} (isMember : descriptor ∈ family)
    (unknown : draft.identities.find? descriptor.key = none)
    (opens : binary.opening pointerSize descriptor = .form form)
    (splits : form.parts = completed ++ part :: rest)
    (built : completed.mapM (build binary pointerSize)
      (draft.withNode (binary.isKeyed descriptor) descriptor.key id .void) = .ok ids middle) :
    draft.Extends middle ∧
      (binary.isKeyed descriptor = true → middle.identities.find? descriptor.key ≠ none) ∧
      middle.KnowsOnly
        ({key | (draft.identities.find? key).isSome} ∪ Descriptor.key '' family) := by
  have run := builds_of_mapM_build built
  refine ⟨((Draft.Extends.refl draft).withNode _ id .void unknown).builds run, fun keyed => ?_, ?_⟩
  · have entered := ((Draft.Extends.refl _).builds run).find?_eq_some
      (Draft.find?_withNode draft descriptor.key id .void keyed)
    rw [entered]
    exact Option.some_ne_none _
  · refine Draft.KnowsOnly.builds closed (fun other member _ => Or.inr ⟨other, member, rfl⟩) run
      (fun other member => ?_) ?_
    · have isPart : other ∈ form.parts := splits ▸ List.mem_append_left _ member
      exact closed _ isMember _ (Binary.mem_successors_of_opening_form opens isPart)
    · refine Draft.KnowsOnly.withNode (fun key id known => Or.inl ?_) id .void
        fun _ => Or.inr ⟨descriptor, isMember, rfl⟩
      rw [Set.mem_ofPred_eq, known]
      rfl

/-- Where no anonymous aggregate is nested in itself, as many levels are enough as there are
descriptors in the family, for each key that can still be entered and once more for those left to
pass before the next key. -/
theorem goesDown_of_unnested (closed : binary.IsClosed family) (unnested : binary.Unnested family)
    (finite : family.Finite) (isMember : descriptor ∈ family) (within : passed ⊆ family)
    (below : ∀ earlier ∈ passed, Relation.TransGen binary.Nested earlier descriptor)
    {levels : Nat} (enough : (draft.unknownKeys family).ncard * family.ncard +
      (family.ncard - passed.ncard) ≤ levels) :
    GoesDown binary pointerSize levels descriptor draft := by
  induction levels generalizing descriptor draft passed with
  | zero =>
    have fresh : descriptor ∉ passed := fun again =>
      unnested.not_transGen closed isMember (below descriptor again)
    have room : passed.ncard < family.ncard :=
      Set.ncard_lt_ncard ⟨within, fun all => fresh (all isMember)⟩ finite
    omega
  | succ levels inductionHypothesis =>
    have fresh : descriptor ∉ passed := fun again =>
      unnested.not_transGen closed isMember (below descriptor again)
    have room : passed.ncard < family.ncard :=
      Set.ncard_lt_ncard ⟨within, fun all => fresh (all isMember)⟩ finite
    have passing : (insert descriptor passed).ncard = passed.ncard + 1 :=
      Set.ncard_insert_of_notMem fresh (finite.subset within)
    have withinNow : insert descriptor passed ⊆ family := Set.insert_subset isMember within
    have belowNow : ∀ {next}, binary.Nested descriptor next →
        ∀ earlier ∈ insert descriptor passed, Relation.TransGen binary.Nested earlier next := by
      rintro next nested earlier (rfl | before)
      · exact .single nested
      · exact (below earlier before).tail nested
    constructor
    · intro target after begins
      obtain ⟨-, opens, rfl⟩ := start_eq_instead begins
      obtain ⟨category, typeId, name, isReference, tagged, leads⟩ :=
        Binary.eq_reference_of_opening opens
      have nested : binary.Nested descriptor target := .reference isReference tagged leads
      exact inductionHypothesis (closed _ isMember _ nested.mem_successors) withinNow
        (belowNow nested) (by omega)
    · intro id form after begins completed part rest ids middle splits built
      obtain ⟨unknown, opens, -, rfl⟩ := start_eq_parts begins
      obtain ⟨grown, entered, knows⟩ :=
        extends_of_completed closed isMember unknown opens splits built
      have isPart : part ∈ form.parts := by
        rw [splits]
        exact List.mem_append_right _ List.mem_cons_self
      have follows := Binary.mem_successors_of_opening_form opens isPart
      have partMember := closed _ isMember _ follows
      by_cases same : draft.SameKeys Set.univ middle
      · -- No key was entered, so the descriptor is an anonymous aggregate.
        have unkeyed : binary.isKeyed descriptor = false :=
          Bool.eq_false_of_not_eq_true fun keyed =>
            entered keyed ((same _ (Set.mem_univ _)).mp unknown)
        have anonymous := Binary.isAnonymousAggregate_of_opening opens unkeyed
        rw [Binary.successors_of_isAnonymousAggregate anonymous] at follows
        refine inductionHypothesis partMember withinNow (belowNow (.member anonymous follows)) ?_
        rw [same.unknownKeys_eq]
        omega
      · have fewer := grown.ncard_unknownKeys_lt finite knows same
        have product := Nat.mul_le_mul_right family.ncard (Nat.succ_le_of_lt fewer)
        rw [Nat.succ_mul] at product
        refine inductionHypothesis partMember (Set.empty_subset family)
          (fun _ isPassed => isPassed.elim) ?_
        omega

end Building

namespace Binary

/-- A bound on the levels of a request in which no anonymous aggregate is nested in itself: all
descriptors within reach, for each of their keys and once more. -/
def levelBound (binary : Binary) (descriptor : Descriptor) : Nat :=
  (binary.reachCount descriptor + 1) * binary.reachCount descriptor

variable {binary : Binary} {descriptor : Descriptor}

theorem closure_subset_withinReach (binary : Binary) (descriptor : Descriptor) :
    binary.closure [descriptor] ⊆ {target | target ∈ binary.withinReach descriptor} := by
  refine closure_subset (fun request isRequest => ?_) (binary.isClosed_withinReach descriptor)
  rw [List.mem_singleton.mp isRequest]
  exact List.mem_append_left _ descriptor.mem_inside_self

theorem finite_closure (binary : Binary) (descriptor : Descriptor) :
    (binary.closure [descriptor]).Finite :=
  (List.finite_toSet _).subset (binary.closure_subset_withinReach descriptor)

theorem ncard_closure_le (binary : Binary) (descriptor : Descriptor) :
    (binary.closure [descriptor]).ncard ≤ binary.reachCount descriptor := by
  classical
  refine (Set.ncard_le_ncard (binary.closure_subset_withinReach descriptor)
    (List.finite_toSet _)).trans ?_
  rw [← length_withinReach, ← List.coe_toFinset, Set.ncard_coe_finset]
  exact List.toFinset_card_le _

end Binary

/-- Where no anonymous aggregate is nested in itself, the levels of a request have a bound that
depends on the request and the binary only. -/
theorem Building.goesDown_levelBound {binary : Binary} {descriptor : Descriptor}
    (unnested : binary.Unnested (binary.closure [descriptor])) (pointerSize : UInt64)
    (draft : Draft) :
    GoesDown binary pointerSize (binary.levelBound descriptor) descriptor draft := by
  have few := binary.ncard_closure_le descriptor
  have keys : (draft.unknownKeys (binary.closure [descriptor])).ncard ≤ _ :=
    Draft.ncard_unknownKeys_le (binary.finite_closure descriptor)
  refine goesDown_of_unnested (binary.isClosed_closure [descriptor]) unnested
    (binary.finite_closure descriptor) (Binary.mem_closure List.mem_cons_self)
    (Set.empty_subset _) (fun _ isPassed => isPassed.elim) ?_
  generalize (draft.unknownKeys (binary.closure [descriptor])).ncard = unknown at keys ⊢
  generalize (binary.closure [descriptor]).ncard = size at few keys ⊢
  generalize isCount : binary.reachCount descriptor = count at few
  rw [Binary.levelBound, isCount]
  calc unknown * size + (size - (∅ : Set Descriptor).ncard)
      ≤ size * size + size := Nat.add_le_add (Nat.mul_le_mul_right size keys) (Nat.sub_le _ _)
    _ = (size + 1) * size := (Nat.succ_mul size size).symm
    _ ≤ (count + 1) * count := Nat.mul_le_mul (Nat.succ_le_succ few) few

end BinaryFacts
