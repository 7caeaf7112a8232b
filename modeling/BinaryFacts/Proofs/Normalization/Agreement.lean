/-
This file proves that normalizers with different histories agree: on one family of descriptors
with consistent keys, a request is answered with the same error by both, or with types that mean
the same, unless one of them runs out of ids.

The two runs pass over different parts of the work, since they know different keys. What they
know in common decides how they go. A descriptor is doomed if it leads to one of an unknown kind.
Between requests no doomed descriptor is known by its key, so at first both know the same of the
keys of doomed descriptors: nothing. A descriptor that is not doomed is built without an error and
without entering such a key, whatever is known already, as long as there are ids; and over a
doomed one the two runs go together step by step, to the same error.
-/

import BinaryFacts.Proofs.Normalization.Failure
import BinaryFacts.Proofs.Normalization.SameKeys

namespace BinaryFacts

/-! ### Doomed descriptors -/

namespace Binary

variable {binary : Binary} {family : Set Descriptor} {descriptor target keyed : Descriptor}

/-- A descriptor that leads to one of an unknown kind. -/
def Doomed (binary : Binary) (descriptor : Descriptor) : Prop :=
  ∃ unknown ∈ binary.closure [descriptor], unknown.IsUnknown

/-- The keys of doomed descriptors of a family. -/
def doomedKeys (binary : Binary) (family : Set Descriptor) : Set String :=
  {key | ∃ descriptor ∈ family, binary.Doomed descriptor ∧ descriptor.key = key}

theorem closure_singleton_subset (closed : binary.IsClosed family)
    (isMember : descriptor ∈ family) : binary.closure [descriptor] ⊆ family :=
  closure_subset (fun _ isOwn => List.mem_singleton.mp isOwn ▸ isMember) closed

/-- What a doomed descriptor is reached from is doomed. -/
theorem Doomed.of_mem_closure (doomed : binary.Doomed target)
    (isReached : target ∈ binary.closure [descriptor]) : binary.Doomed descriptor := by
  obtain ⟨unknown, leads, isUnknown⟩ := doomed
  exact ⟨unknown, closure_singleton_subset (binary.isClosed_closure [descriptor]) isReached leads,
    isUnknown⟩

/-- A reference is doomed exactly if the descriptor it stands for is. -/
theorem doomed_iff_of_dereference? (stands : binary.dereference? descriptor = some target) :
    binary.Doomed descriptor ↔ binary.Doomed target := by
  rcases eq_or_successors_of_dereference? stands with rfl | ⟨isKnown, only⟩
  · exact Iff.rfl
  · have follows : target ∈ binary.successors descriptor := by
      rw [only]
      exact List.mem_singleton.mpr rfl
    refine ⟨?_, fun doomed => doomed.of_mem_closure
      (binary.isClosed_closure _ _ (mem_closure List.mem_cons_self) _ follows)⟩
    rintro ⟨unknown, ⟨start, isStart, leads⟩, isUnknown⟩
    rw [List.mem_singleton.mp isStart] at leads
    rcases Relation.ReflTransGen.cases_head leads with rfl | ⟨next, first, rest⟩
    · exact absurd isUnknown isKnown
    · rw [only] at first
      rw [List.mem_singleton.mp first] at rest
      exact ⟨unknown, ⟨target, List.mem_cons_self, rest⟩, isUnknown⟩

/-- Where keys are consistent, the key of a keyed descriptor is that of a doomed one only if it is
doomed itself. -/
theorem KeyConsistent.doomed_of_mem_doomedKeys (consistent : binary.KeyConsistent family)
    (isMember : keyed ∈ family) (isKeyed : binary.isKeyed keyed = true)
    (isKey : keyed.key ∈ binary.doomedKeys family) : binary.Doomed keyed := by
  obtain ⟨doomed, doomedMember, isDoomed, sameKey⟩ := isKey
  have chain := consistent keyed isMember doomed doomedMember sameKey.symm isKeyed
  rw [follow?_of_isKeyed isKeyed] at chain
  exact (doomed_iff_of_dereference? (dereference?_eq_follow? chain.symm)).mp isDoomed

end Binary

/-! ### Two drafts -/

namespace Building

variable {binary : Binary} {pointerSize : UInt64} {family : Set Descriptor}
  {descriptor : Descriptor}

/-- Building a descriptor that is not doomed enters no key of a doomed one. -/
theorem Builds.sameKeys_of_not_doomed (consistent : binary.KeyConsistent family)
    (closed : binary.IsClosed family) (isMember : descriptor ∈ family)
    (safe : ¬ binary.Doomed descriptor) {before after : Draft}
    {result : Except NormalizeError (List TypeId)}
    (run : Builds binary pointerSize before [descriptor] result after) :
    before.SameKeys (binary.doomedKeys family) after := by
  have knows : after.KnowsOnly
      ({key | before.identities.find? key ≠ none} ∪ {key | key ∉ binary.doomedKeys family}) := by
    refine Draft.KnowsOnly.builds (binary.isClosed_closure [descriptor]) ?_ run
      (fun other member => Binary.mem_closure member) fun key id known => Or.inl ?_
    · intro reached isReached isKeyed
      refine Or.inr fun isKey => safe ?_
      have reachedMember := Binary.closure_singleton_subset closed isMember isReached
      exact (consistent.doomed_of_mem_doomedKeys reachedMember isKeyed isKey).of_mem_closure
        isReached
    · rw [Set.mem_ofPred_eq, known]
      exact Option.some_ne_none id
  intro key isKey
  refine ⟨fun unknown => ?_, ((Draft.Extends.refl before).builds run).find?_eq_none⟩
  cases known : after.identities.find? key with
  | none => rfl
  | some id =>
    rcases knows key id known with old | notDoomed
    · exact absurd unknown old
    · exact absurd isKey notDoomed

/-- Descriptors that are not doomed make no difference for the doomed ones. -/
theorem sameWay_of_not_doomed (consistent : binary.KeyConsistent family)
    (closed : binary.IsClosed family) (isMember : descriptor ∈ family)
    (safe : ¬ binary.Doomed descriptor) {left right : Draft}
    (same : left.SameKeys (binary.doomedKeys family) right)
    {first second : EStateM.Result NormalizeError Draft TypeId}
    (followsLeft : Follows binary pointerSize left descriptor first)
    (followsRight : Follows binary pointerSize right descriptor second) :
    SameWay NormalizeError.IsFull (Draft.SameKeys (binary.doomedKeys family)) anyValues first
      second := by
  have isFull : ∀ {draft after error},
      Builds binary pointerSize draft [descriptor] (.error error) after → error.IsFull := by
    intro draft after error run
    by_contra hasRoom
    obtain ⟨unknown, isReached, kind, isOther, -⟩ := run.exists_named
      (binary.isClosed_closure [descriptor]) rfl (by rintro rfl; exact hasRoom .storeFull)
      (fun other member => Binary.mem_closure member)
    exact safe ⟨unknown, isReached, kind, isOther⟩
  cases first with
  | error error after => exact .passedLeft (isFull followsLeft) after _
  | ok id after =>
    cases second with
    | error error last => exact .passedRight (isFull followsRight) _ last
    | ok other last =>
      have keptLeft := Builds.sameKeys_of_not_doomed consistent closed isMember safe followsLeft
      have keptRight := Builds.sameKeys_of_not_doomed consistent closed isMember safe followsRight
      exact .ok ((keptLeft.symm.trans same).trans keptRight) trivial

/-- Runs in drafts that know the same of the keys of doomed descriptors go the same way, unless the
ids run out. -/
theorem sameWay_of_sameKeys (consistent : binary.KeyConsistent family)
    (closed : binary.IsClosed family) (isMember : descriptor ∈ family) {left right : Draft}
    (same : left.SameKeys (binary.doomedKeys family) right) :
    SameWay NormalizeError.IsFull (Draft.SameKeys (binary.doomedKeys family)) anyValues
      (build binary pointerSize descriptor left) (build binary pointerSize descriptor right) := by
  refine (steady_sameKeys _).sameWay_build closed ?_ isMember same
  intro other otherMember noKey before after sameBefore
  exact sameWay_of_not_doomed consistent closed otherMember
    (fun doomed => noKey ⟨other, otherMember, doomed, rfl⟩) sameBefore
    (follows_build binary pointerSize other before) (follows_build binary pointerSize other after)

end Building

/-! ### Two normalizers -/

/-- A family with consistent keys that holds all its members lead to. -/
structure Binary.Orderly (binary : Binary) (family : Set Descriptor) : Prop where
  closed : binary.IsClosed family
  consistent : binary.KeyConsistent family

namespace Normalizer

variable {binary : Binary} {pointerSize : UInt64} {family : Set Descriptor}
  {left right : Normalizer} {descriptor : Descriptor}

/-- A normalizer that has answered requests of a family only. -/
structure Ready (binary : Binary) (pointerSize : UInt64) (family : Set Descriptor)
    (normalizer : Normalizer) : Prop where
  faithful : normalizer.Faithful binary pointerSize family
  explored : normalizer.Explored binary family

theorem Ready.new (binary : Binary) (pointerSize : UInt64) (family : Set Descriptor) :
    (new pointerSize).Ready binary pointerSize family where
  faithful := .new binary pointerSize family
  explored := .new binary pointerSize family

/-- Between requests no doomed descriptor is known by its key. -/
theorem Ready.find?_eq_none {normalizer : Normalizer} (consistent : binary.KeyConsistent family)
    (ready : normalizer.Ready binary pointerSize family) {key : String}
    (isKey : key ∈ binary.doomedKeys family) :
    normalizer.draft.identities.find? key = none := by
  obtain ⟨explored, explores⟩ := ready.explored
  cases known : normalizer.draft.identities.find? key with
  | none => rfl
  | some id =>
    obtain ⟨keyed, isExplored, isKeyed, rfl⟩ := explores.known key id known
    obtain ⟨unknown, isReached, isUnknown⟩ :=
      consistent.doomed_of_mem_doomedKeys (explores.inside isExplored) isKeyed isKey
    have closed : binary.IsClosed explored :=
      fun other isOther => explores.leads other isOther (Set.notMem_empty other)
    exact absurd isUnknown
      (explores.kinds unknown (Binary.closure_singleton_subset closed isExplored isReached))

/-- A request of the family that succeeds is answered with the meaning of its descriptor. -/
theorem Ready.of_normalize_eq_ok {normalizer after : Normalizer} {id : TypeId}
    (consistent : binary.KeyConsistent family) (closed : binary.IsClosed family)
    (ready : normalizer.Ready binary pointerSize family) (isMember : descriptor ∈ family)
    (done : normalize binary descriptor normalizer = .ok id after) :
    after.Ready binary pointerSize family ∧
      ∀ depth, after.store.unfold depth id = binary.meaning pointerSize depth descriptor := by
  obtain ⟨faithful, means⟩ := ready.faithful.of_normalize_eq_ok consistent closed isMember done
  exact ⟨⟨faithful, (ready.explored.of_normalize_eq_ok consistent closed isMember done).1⟩, means⟩

theorem Ready.of_normalize_eq_error {normalizer after : Normalizer} {error : NormalizeError}
    (ready : normalizer.Ready binary pointerSize family)
    (failed : normalize binary descriptor normalizer = .error error after) :
    after.Ready binary pointerSize family :=
  ready.faithful.sound.eq_of_normalize_eq_error failed ▸ ready

/-- Every request of the family keeps a normalizer ready, whether it succeeds or fails. -/
theorem Ready.keeps_normalize (orderly : binary.Orderly family) (isMember : descriptor ∈ family) :
    Keeps (Ready binary pointerSize family) (normalize binary descriptor) := by
  intro normalizer ready
  cases ended : normalize binary descriptor normalizer with
  | ok id after =>
    exact (ready.of_normalize_eq_ok orderly.consistent orderly.closed isMember ended).1
  | error error after => exact ready.of_normalize_eq_error ended

/-- Two ids, each in its own normalizer, of types that mean the same. -/
structure SameType (id : TypeId) (left : Normalizer) (other : TypeId) (right : Normalizer) :
    Prop where
  inside : id.index < left.store.size
  insideOther : other.index < right.store.size
  same : SameMeaning left.store id right.store other

theorem Retains.index_lt {mark later : Normalizer} (retains : mark.Retains later) {id : TypeId}
    (inside : id.index < mark.store.size) : id.index < later.store.size := by
  cases present : mark.store.get? id with
  | none => exact absurd inside (Nat.not_lt.mpr ((TypeStore.get?_eq_none_iff _ _).mp present))
  | some node => exact TypeStore.index_lt_of_get?_eq_some (retains.node id node present)

/-- Later requests do not change what types mean. -/
theorem SameType.retained {id other : TypeId} {leftLater rightLater : Normalizer}
    (same : SameType id left other right) (soundLeft : left.Sound) (soundRight : right.Sound)
    (retainsLeft : left.Retains leftLater) (retainsRight : right.Retains rightLater) :
    SameType id leftLater other rightLater where
  inside := retainsLeft.index_lt same.inside
  insideOther := retainsRight.index_lt same.insideOther
  same depth := by
    rw [retainsLeft.unfold_eq soundLeft depth same.inside,
      retainsRight.unfold_eq soundRight depth same.insideOther]
    exact same.same depth

theorem normalize_eq (binary : Binary) (descriptor : Descriptor) (normalizer : Normalizer) :
    normalize binary descriptor normalizer =
      match Building.build binary normalizer.pointerSize descriptor normalizer.draft with
      | .ok id draft => .ok id (normalizer.commit draft)
      | .error error draft => .error error (normalizer.rollback normalizer.store.size draft) := rfl

/-- Two normalizers that have answered requests of a family only. -/
def BothReady (binary : Binary) (pointerSize : UInt64) (family : Set Descriptor)
    (left right : Normalizer) : Prop :=
  left.Ready binary pointerSize family ∧ right.Ready binary pointerSize family

/-- Two requests end together: with the same error, or with values that are alike. Errors of
requests that ran out of ids are passed over. -/
abbrev Together {Error Value : Type} (binary : Binary) (pointerSize : UInt64)
    (family : Set Descriptor) (passed : Error → Prop)
    (alike : Value → Normalizer → Value → Normalizer → Prop)
    (first second : EStateM.Result Error Normalizer Value) : Prop :=
  SameWay passed (BothReady binary pointerSize family) alike first second

/-- Normalizers with different histories answer a request in the same way. -/
theorem together_normalize (orderly : binary.Orderly family) (isMember : descriptor ∈ family)
    (ready : BothReady binary pointerSize family left right) :
    Together binary pointerSize family NormalizeError.IsFull SameType
      (normalize binary descriptor left) (normalize binary descriptor right) := by
  obtain ⟨closed, consistent⟩ := orderly
  obtain ⟨readyLeft, readyRight⟩ := ready
  have sameKeys : left.draft.SameKeys (binary.doomedKeys family) right.draft := fun key isKey =>
    iff_of_true (readyLeft.find?_eq_none consistent isKey)
      (readyRight.find?_eq_none consistent isKey)
  have way : SameWay _ _ _ (Building.build binary pointerSize descriptor left.draft)
      (Building.build binary pointerSize descriptor right.draft) :=
    Building.sameWay_of_sameKeys consistent closed isMember sameKeys
  have endsLeft := normalize_eq binary descriptor left
  have endsRight := normalize_eq binary descriptor right
  rw [readyLeft.faithful.pointerSize_eq] at endsLeft
  rw [readyRight.faithful.pointerSize_eq] at endsRight
  generalize Building.build binary pointerSize descriptor left.draft = leftResult at way endsLeft
  generalize Building.build binary pointerSize descriptor right.draft = rightResult
    at way endsRight
  cases way with
  | ok =>
    have insideLeft := readyLeft.faithful.sound.index_lt_of_normalize_eq_ok endsLeft
    have insideRight := readyRight.faithful.sound.index_lt_of_normalize_eq_ok endsRight
    obtain ⟨nextLeft, means⟩ := readyLeft.of_normalize_eq_ok consistent closed isMember endsLeft
    obtain ⟨nextRight, meansToo⟩ :=
      readyRight.of_normalize_eq_ok consistent closed isMember endsRight
    rw [endsLeft, endsRight]
    exact .ok ⟨nextLeft, nextRight⟩
      ⟨insideLeft, insideRight, fun depth => (means depth).trans (meansToo depth).symm⟩
  | error reason =>
    have nextLeft := readyLeft.of_normalize_eq_error endsLeft
    have nextRight := readyRight.of_normalize_eq_error endsRight
    rw [endsLeft, endsRight]
    exact .error reason ⟨nextLeft, nextRight⟩
  | passedLeft isPassed =>
    rw [endsLeft]
    exact .passedLeft isPassed _ _
  | passedRight isPassed =>
    rw [endsRight]
    exact .passedRight isPassed _ _

end Normalizer

end BinaryFacts
