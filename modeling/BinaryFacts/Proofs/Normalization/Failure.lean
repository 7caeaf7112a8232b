/-
This file proves which requests fail: where keys are consistent, exactly those whose descriptor
leads to one of an unknown kind, whatever was normalized before, and those that run out of ids.

A run passes over every known key, so it does not see all that its descriptors lead to. The
invariant says what the known keys stand for: a set of explored descriptors of known kinds that
holds a keyed one for every known key and leads to nothing outside itself, except from the
descriptors whose parts are still being built. When a run succeeds nothing is open any more, so
what its descriptor leads to is explored and of a known kind.
-/

import BinaryFacts.Proofs.Normalization.Encounters
import BinaryFacts.Proofs.Normalization.Faithfulness

namespace BinaryFacts

/-! ### Where a descriptor leads -/

/-- A descriptor of a kind that no type can be given to. -/
def Descriptor.IsUnknown (descriptor : Descriptor) : Prop := ∃ kind, descriptor.kind = .other kind

namespace Binary

variable {binary : Binary} {pointerSize : UInt64} {descriptor target : Descriptor}

theorem not_isUnknown_of_opening {opening : Opening}
    (opens : binary.opening pointerSize descriptor = opening)
    (handled : ∀ kind, opening ≠ .unhandled kind) : ¬ descriptor.IsUnknown := by
  rintro ⟨kind, same⟩
  refine handled kind (opens.symm.trans ?_)
  rw [Binary.opening, same]

/-- A descriptor is the one it stands for, or a reference that leads there only. -/
theorem eq_or_successors_of_dereference? (stands : binary.dereference? descriptor = some target) :
    descriptor = target ∨
      (¬ descriptor.IsUnknown ∧ binary.successors descriptor = [target]) := by
  unfold dereference? at stands
  split at stands
  · rename_i category typeId name isReference
    split at stands
    · rename_i tagged
      have different : category ≠ .typedef := by
        rintro rfl
        cases tagged
      refine Or.inr ⟨?_, ?_⟩
      · rintro ⟨kind, isOther⟩
        rw [isReference] at isOther
        cases isOther
      · simp only [successors, isReference]
        rw [if_neg different, if_pos tagged, stands]
        rfl
    · exact Or.inl (Option.some.inj stands)
  · exact Or.inl (Option.some.inj stands)

end Binary

/-! ### What a run has explored -/

/-- A draft whose known keys stand for explored descriptors of a family. Those that are not open
lead to explored ones only. -/
structure Draft.Explores (binary : Binary) (family explored opened : Set Descriptor)
    (draft : Draft) : Prop where
  inside : explored ⊆ family
  known : ∀ key id, draft.identities.find? key = some id →
    ∃ descriptor ∈ explored, binary.isKeyed descriptor = true ∧ descriptor.key = key
  kinds : ∀ descriptor ∈ explored, ¬ descriptor.IsUnknown
  leads : ∀ descriptor ∈ explored, descriptor ∉ opened →
    ∀ next ∈ binary.successors descriptor, next ∈ explored

namespace Draft.Explores

variable {binary : Binary} {family explored opened : Set Descriptor} {draft after : Draft}
  {descriptor : Descriptor}

/-- Only the known keys of a draft count. -/
theorem of_identities_eq (explores : draft.Explores binary family explored opened)
    (same : after.identities = draft.identities) :
    after.Explores binary family explored opened where
  inside := explores.inside
  known := by
    rw [same]
    exact explores.known
  kinds := explores.kinds
  leads := explores.leads

theorem withStore (explores : draft.Explores binary family explored opened)
    (store : TypeStore) : (draft.withStore store).Explores binary family explored opened :=
  explores.of_identities_eq rfl

/-- A descriptor that leads to explored ones is explored. -/
theorem adding (explores : draft.Explores binary family explored opened)
    (member : descriptor ∈ family) (isKnown : ¬ descriptor.IsUnknown)
    (leads : ∀ next ∈ binary.successors descriptor, next ∈ explored) :
    draft.Explores binary family (insert descriptor explored) opened where
  inside := Set.insert_subset member explores.inside
  known key id known := by
    obtain ⟨keyed, isExplored, facts⟩ := explores.known key id known
    exact ⟨keyed, Set.mem_insert_of_mem _ isExplored, facts⟩
  kinds := by
    rintro other (rfl | isExplored)
    · exact isKnown
    · exact explores.kinds other isExplored
  leads := by
    rintro other (rfl | isExplored) closed next follows
    · exact Set.mem_insert_of_mem _ (leads next follows)
    · exact Set.mem_insert_of_mem _ (explores.leads other isExplored closed next follows)

/-- A descriptor that is entered under its key is explored, and open until its parts are built. -/
theorem withNode (explores : draft.Explores binary family explored opened)
    (member : descriptor ∈ family) (isKnown : ¬ descriptor.IsUnknown) (id : TypeId)
    (node : TypeNode TypeId) :
    (draft.withNode (binary.isKeyed descriptor) descriptor.key id node).Explores binary family
      (insert descriptor explored) (insert descriptor opened) where
  inside := Set.insert_subset member explores.inside
  known key id known := by
    rcases known_of_withNode known with ⟨keyed, rfl, -⟩ | old
    · exact ⟨descriptor, Set.mem_insert descriptor explored, keyed, rfl⟩
    · obtain ⟨other, isExplored, facts⟩ := explores.known key id old
      exact ⟨other, Set.mem_insert_of_mem _ isExplored, facts⟩
  kinds := by
    rintro other (rfl | isExplored)
    · exact isKnown
    · exact explores.kinds other isExplored
  leads := by
    rintro other (rfl | isExplored) closed next follows
    · exact absurd (Set.mem_insert other opened) closed
    · exact Set.mem_insert_of_mem _ (explores.leads other isExplored
        (fun isOpen => closed (Set.mem_insert_of_mem _ isOpen)) next follows)

/-- A descriptor is closed once all it leads to is explored. -/
theorem closed (explores : draft.Explores binary family explored (insert descriptor opened))
    (leads : ∀ next ∈ binary.successors descriptor, next ∈ explored) :
    draft.Explores binary family explored opened where
  inside := explores.inside
  known := explores.known
  kinds := explores.kinds
  leads := by
    intro other isExplored closed next follows
    by_cases same : other = descriptor
    · exact leads next (same ▸ follows)
    · exact explores.leads other isExplored
        (fun isOpen => (Set.mem_insert_iff.mp isOpen).elim same closed) next follows

/-- Where keys are consistent, a descriptor with a known key is explored or can be added. -/
theorem adding_known (consistent : binary.KeyConsistent family)
    (explores : draft.Explores binary family explored opened) (member : descriptor ∈ family)
    {id : TypeId} (found : draft.identities.find? descriptor.key = some id) :
    draft.Explores binary family (insert descriptor explored) opened := by
  obtain ⟨keyed, isExplored, isKeyed, sameKey⟩ := explores.known _ id found
  have chain := consistent keyed (explores.inside isExplored) descriptor member sameKey isKeyed
  rw [Binary.follow?_of_isKeyed isKeyed] at chain
  rcases Binary.eq_or_successors_of_dereference? (Binary.dereference?_eq_follow? chain.symm) with
    rfl | ⟨isKnown, only⟩
  · rw [Set.insert_eq_of_mem isExplored]
    exact explores
  · refine explores.adding member isKnown fun next follows => ?_
    rw [only] at follows
    rw [List.mem_singleton.mp follows]
    exact isExplored

/-- Where keys are consistent, what a successful run builds becomes explored. -/
theorem builds {pointerSize : UInt64} {before : Draft} {row : List Descriptor}
    {result : Except NormalizeError (List TypeId)} (consistent : binary.KeyConsistent family)
    (closed : binary.IsClosed family)
    (run : Building.Builds binary pointerSize before row result after) :
    ∀ {explored opened : Set Descriptor} {ids : List TypeId}, result = .ok ids →
      (∀ descriptor ∈ row, descriptor ∈ family) →
      before.Explores binary family explored opened →
      ∃ larger, explored ⊆ larger ∧ (∀ descriptor ∈ row, descriptor ∈ larger) ∧
        after.Explores binary family larger opened := by
  induction run with
  | nil draft =>
    rintro explored opened ids - - explores
    exact ⟨explored, subset_rfl, fun descriptor member => absurd member List.not_mem_nil, explores⟩
  | cons head tail headExplores tailExplores =>
    rintro explored opened _ ⟨⟩ members explores
    obtain ⟨middle, grown, first, exploresMiddle⟩ := headExplores rfl
      (fun descriptor member => List.mem_singleton.mp member ▸ members _ List.mem_cons_self)
      explores
    obtain ⟨larger, grownRest, others, exploresAfter⟩ := tailExplores rfl
      (fun descriptor member => members _ (List.mem_cons_of_mem _ member)) exploresMiddle
    refine ⟨larger, grown.trans grownRest, fun descriptor member => ?_, exploresAfter⟩
    rcases List.mem_cons.mp member with rfl | inRest
    · exact grownRest (first _ List.mem_cons_self)
    · exact others descriptor inRest
  | known found =>
    rintro explored opened _ ⟨⟩ members explores
    exact ⟨_, Set.subset_insert _ _,
      fun descriptor member => Or.inl (List.mem_singleton.mp member),
      explores.adding_known consistent (members _ List.mem_cons_self) found⟩
  | leaf unknown opens interned =>
    rintro explored opened _ ⟨⟩ members explores
    refine ⟨_, Set.subset_insert _ _,
      fun descriptor member => Or.inl (List.mem_singleton.mp member), ?_⟩
    refine (explores.withStore _).adding (members _ List.mem_cons_self)
      (Binary.not_isUnknown_of_opening opens nofun) fun next follows => ?_
    rw [Binary.successors_of_opening_leaf opens] at follows
    cases follows
  | enumeration unknown opens interned isNext =>
    rintro explored opened _ ⟨⟩ members explores
    refine ⟨_, Set.subset_insert _ _,
      fun descriptor member => Or.inl (List.mem_singleton.mp member), ?_⟩
    refine ((explores.withStore _).withNode (members _ List.mem_cons_self)
      (Binary.not_isUnknown_of_opening opens nofun) _ _).closed fun next follows => ?_
    rw [Binary.successors_of_opening_enumeration opens] at follows
    cases follows
  | instead unknown opens same sameExplores =>
    intro explored opened ids succeeded members explores
    have member := members _ List.mem_cons_self
    have targetMember := closed _ member _ (Binary.mem_successors_of_opening_instead opens)
    obtain ⟨larger, grown, target, exploresAfter⟩ := sameExplores succeeded
      (fun descriptor isTarget => List.mem_singleton.mp isTarget ▸ targetMember) explores
    refine ⟨_, grown.trans (Set.subset_insert _ _),
      fun descriptor member => Or.inl (List.mem_singleton.mp member), ?_⟩
    refine exploresAfter.adding member (Binary.not_isUnknown_of_opening opens nofun)
      fun next follows => ?_
    rw [Binary.successors_of_opening_instead opens] at follows
    exact target next follows
  | form unknown opens isNext parts refilled laid partsExplore =>
    rintro explored opened _ ⟨⟩ members explores
    have member := members _ List.mem_cons_self
    obtain ⟨larger, grown, partsExplored, exploresMiddle⟩ := partsExplore rfl
      (fun part isPart => closed _ member part (Binary.mem_successors_of_opening_form opens isPart))
      (explores.withNode member (Binary.not_isUnknown_of_opening opens nofun) _ .void)
    have kept := Building.identities_of_formNode (congrArg finalState laid)
    refine ⟨larger, (Set.subset_insert _ _).trans grown, fun descriptor isOwn => ?_, ?_⟩
    · rw [List.mem_singleton.mp isOwn]
      exact grown (Set.mem_insert _ _)
    · refine Explores.closed (exploresMiddle.of_identities_eq kept) fun next follows => ?_
      rw [Binary.successors_of_opening_form opens] at follows
      exact partsExplored next follows
  | failedHead | failedTail | failedPart | failedLayout | unhandled | full =>
    rintro explored opened ids ⟨⟩

end Draft.Explores

/-! ### Requests -/

namespace Normalizer

/-- A normalizer whose known keys stand for descriptors of a family that lead to known kinds
only. -/
def Explored (binary : Binary) (family : Set Descriptor) (normalizer : Normalizer) : Prop :=
  ∃ explored, normalizer.draft.Explores binary family explored ∅

namespace Explored

variable {binary : Binary} {family : Set Descriptor} {normalizer after : Normalizer}
  {descriptor : Descriptor} {id : TypeId}

theorem new (binary : Binary) (pointerSize : UInt64) (family : Set Descriptor) :
    (new pointerSize).Explored binary family :=
  ⟨∅, { inside := Set.empty_subset family
        known := fun _ _ known => nomatch known
        kinds := fun _ isExplored => isExplored.elim
        leads := fun _ isExplored => isExplored.elim }⟩

/-- A request of the family that succeeds leads to known kinds only. -/
theorem of_normalize_eq_ok (consistent : binary.KeyConsistent family)
    (closed : binary.IsClosed family) (explored : normalizer.Explored binary family)
    (member : descriptor ∈ family) (done : normalize binary descriptor normalizer = .ok id after) :
    after.Explored binary family ∧
      ∀ reached ∈ binary.closure [descriptor], ¬ reached.IsUnknown := by
  obtain ⟨before, explores⟩ := explored
  obtain ⟨draft, run, rfl⟩ := builds_of_normalize_eq_ok done
  obtain ⟨larger, -, own, exploresAfter⟩ := Draft.Explores.builds consistent closed run rfl
    (fun other isOther => List.mem_singleton.mp isOther ▸ member) explores
  refine ⟨⟨larger, exploresAfter.of_identities_eq rfl⟩, fun reached isReached => ?_⟩
  have within : binary.closure [descriptor] ⊆ larger := Binary.closure_subset own
    fun other isExplored => exploresAfter.leads other isExplored (Set.notMem_empty other)
  exact exploresAfter.kinds reached (within isReached)

/-- Every sequence of requests of the family keeps the invariant. -/
theorem performAll (consistent : binary.KeyConsistent family) (closed : binary.IsClosed family)
    (sound : normalizer.Sound) (explored : normalizer.Explored binary family)
    {requests : List Descriptor} (members : ∀ descriptor ∈ requests, descriptor ∈ family) :
    (normalizer.performAll (requests.map (.normalize binary))).2.Explored binary family := by
  induction requests generalizing normalizer with
  | nil => exact explored
  | cons descriptor rest inductionHypothesis =>
    refine inductionHypothesis (Sound.keeps_normalize binary descriptor normalizer sound) ?_
      (fun other isOther => members other (List.mem_cons_of_mem _ isOther))
    show (finalState (normalize binary descriptor normalizer)).Explored binary family
    cases ended : normalize binary descriptor normalizer with
    | ok id after =>
      exact (of_normalize_eq_ok consistent closed explored (members _ List.mem_cons_self) ended).1
    | error error after =>
      have same := sound.eq_of_normalize_eq_error ended
      exact same ▸ explored

end Explored

/-- A request that comes to use all ids and needs one more. -/
def RunsOut (binary : Binary) (descriptor : Descriptor) (normalizer : Normalizer) : Prop :=
  ∃ draft, Building.build binary normalizer.pointerSize descriptor normalizer.draft =
    .error .storeFull draft ∧ TypeId.count ≤ draft.store.size

theorem RunsOut.exists_normalize_eq {binary : Binary} {normalizer : Normalizer}
    {descriptor : Descriptor} (runsOut : normalizer.RunsOut binary descriptor) :
    ∃ after, normalize binary descriptor normalizer = .error .storeFull after := by
  obtain ⟨draft, failed, -⟩ := runsOut
  unfold normalize
  rw [failed]
  exact ⟨_, rfl⟩

/-- A request fails only at a descriptor of an unknown kind to which it leads, or where it runs out
of ids. -/
theorem named_or_full_of_normalize_eq_error {binary : Binary} {normalizer after : Normalizer}
    {descriptor : Descriptor} {error : NormalizeError}
    (failed : normalize binary descriptor normalizer = .error error after) :
    (∃ unknown ∈ binary.closure [descriptor], error.Names unknown) ∨
      error = .storeFull ∧ normalizer.RunsOut binary descriptor := by
  have follows := Building.follows_build binary normalizer.pointerSize descriptor normalizer.draft
  unfold normalize at failed
  cases ended : Building.build binary normalizer.pointerSize descriptor normalizer.draft with
  | ok id draft =>
    rw [ended] at failed
    cases failed
  | error cause draft =>
    rw [ended] at failed follows
    cases failed
    by_cases full : error = .storeFull
    · subst full
      exact Or.inr ⟨rfl, draft, ended, Building.Builds.count_le_size follows rfl⟩
    · exact Or.inl (Building.Builds.exists_named (binary.isClosed_closure [descriptor]) follows rfl
        full fun other member => Binary.mem_closure member)

/-- A request that is refused for want of an id runs out of ids. -/
theorem runsOut_of_normalize_eq {binary : Binary} {normalizer after : Normalizer}
    {descriptor : Descriptor}
    (refused : normalize binary descriptor normalizer = .error .storeFull after) :
    normalizer.RunsOut binary descriptor := by
  rcases named_or_full_of_normalize_eq_error refused with ⟨_, -, _, -, ⟨⟩⟩ | ⟨-, runsOut⟩
  exact runsOut

/-- Exactly the requests fail that lead to a descriptor of an unknown kind or run out of ids, and
their errors say so: each one names such a descriptor or says that no id is left. What was
requested before makes no further difference, as long as the closure of all requests has consistent
keys. -/
theorem normalize_eq_error_iff (binary : Binary) (pointerSize : UInt64)
    (earlier : List Descriptor) (descriptor : Descriptor)
    (consistent : binary.KeyConsistent (binary.closure (descriptor :: earlier))) :
    let normalizer := ((new pointerSize).performAll (earlier.map (.normalize binary))).2
    ((∃ error after, normalize binary descriptor normalizer = .error error after) ↔
        (∃ unknown ∈ binary.closure [descriptor], unknown.IsUnknown) ∨
          normalizer.RunsOut binary descriptor) ∧
      ∀ error after, normalize binary descriptor normalizer = .error error after →
        (∃ unknown ∈ binary.closure [descriptor], error.Names unknown) ∨
          error = .storeFull ∧ normalizer.RunsOut binary descriptor := by
  intro normalizer
  have closed := binary.isClosed_closure (descriptor :: earlier)
  have requested : ∀ request ∈ earlier, request ∈ binary.closure (descriptor :: earlier) :=
    fun request isRequest => Binary.mem_closure (List.mem_cons_of_mem _ isRequest)
  have explored := Explored.performAll consistent closed (.new pointerSize)
    (.new binary pointerSize _) requested
  refine ⟨⟨?_, ?_⟩, fun error after failed => named_or_full_of_normalize_eq_error failed⟩
  · rintro ⟨error, after, failed⟩
    rcases named_or_full_of_normalize_eq_error failed with
      ⟨unknown, isReached, kind, isOther, -⟩ | ⟨-, runsOut⟩
    · exact Or.inl ⟨unknown, isReached, kind, isOther⟩
    · exact Or.inr runsOut
  · rintro (⟨unknown, isReached, isUnknown⟩ | runsOut)
    · cases ended : normalize binary descriptor normalizer with
      | error error after => exact ⟨error, after, rfl⟩
      | ok id after =>
        have kinds := (Explored.of_normalize_eq_ok consistent closed explored
          (Binary.mem_closure List.mem_cons_self) ended).2
        exact absurd isUnknown (kinds unknown isReached)
    · exact ⟨.storeFull, runsOut.exists_normalize_eq⟩

/-- A function whose result points to the structure and whose parameter is of an unknown kind. -/
def partlyKnown : Descriptor :=
  .function (.pointer linkedReference 8) [.other "vector" 8] false

/-- The function has a key of its own, and leads to the structure and to the unknown kind. -/
theorem keyConsistent_partlyKnown {requests : List Descriptor}
    (requested : ∀ request ∈ requests, request ∈ insert partlyKnown linkedFamily) :
    linkedBinary.KeyConsistent (linkedBinary.closure requests) := by
  have leads : ∀ next ∈ linkedBinary.successors partlyKnown, next ∈ linkedFamily := by
    intro next follows
    have both : linkedBinary.successors partlyKnown =
        [.pointer linkedReference 8, .other "vector" 8] := rfl
    rw [both] at follows
    rcases List.mem_cons.mp follows with rfl | last
    · exact Or.inr (Or.inl rfl)
    · rw [List.mem_singleton.mp last]
      exact Or.inl rfl
  have apart : ∀ descriptor ∈ linkedFamily, descriptor.key ≠ partlyKnown.key := by
    intro descriptor member
    rcases member with rfl | rfl | rfl | rfl | rfl <;> decide
  exact (keyConsistent_linkedFamily.insert apart).mono
    (Binary.closure_subset requested (isClosed_linkedFamily.insert leads))

/-- After a request for the pointer, which succeeds, the function fails at its parameter. -/
theorem normalize_eq_error_iff_partlyKnown :
    let earlier : List Descriptor := [.pointer linkedReference 8]
    let normalizer := ((new 8).performAll (earlier.map (.normalize linkedBinary))).2
    linkedBinary.KeyConsistent (linkedBinary.closure (partlyKnown :: earlier)) ∧
      ∃ error after, normalize linkedBinary partlyKnown normalizer = .error error after ∧
        ∃ unknown ∈ linkedBinary.closure [partlyKnown], error.Names unknown := by
  intro earlier normalizer
  have consistent : linkedBinary.KeyConsistent (linkedBinary.closure (partlyKnown :: earlier)) := by
    refine keyConsistent_partlyKnown fun request isRequest => ?_
    rcases List.mem_cons.mp isRequest with rfl | last
    · exact Or.inl rfl
    · rw [List.mem_singleton.mp last]
      exact Or.inr (Or.inr (Or.inl rfl))
  obtain ⟨fails, names⟩ := normalize_eq_error_iff linkedBinary 8 earlier partlyKnown consistent
  have leads : ∃ unknown ∈ linkedBinary.closure [partlyKnown], unknown.IsUnknown := by
    refine ⟨.other "vector" 8, ⟨partlyKnown, List.mem_cons_self, .single ?_⟩, "vector", rfl⟩
    exact List.mem_cons_of_mem _ List.mem_cons_self
  obtain ⟨error, after, failed⟩ := fails.mpr (Or.inl leads)
  refine ⟨consistent, error, after, failed, (names error after failed).resolve_right ?_⟩
  rintro ⟨rfl, -⟩
  cases failed

/-! ### Running out of ids -/

/-- Once all ids are in use, a descriptor with parts is refused unless it is known. -/
theorem exists_refused_of_form {binary : Binary} {normalizer : Normalizer} {descriptor : Descriptor}
    {form : Form Descriptor} (full : TypeId.count ≤ normalizer.store.size)
    (unknown : normalizer.identities.find? descriptor.key = none)
    (opens : binary.opening normalizer.pointerSize descriptor = .form form) :
    ∃ after, normalize binary descriptor normalizer = .error .storeFull after := by
  have unknownHere : normalizer.draft.identities.find? descriptor.key = none := unknown
  have noneLeft : normalizer.draft.store.next? = none := TypeStore.next?_eq_none_iff.mpr full
  have refused := Building.build_of_form unknownHere opens
  rw [noneLeft] at refused
  rw [normalize, refused]
  exact ⟨_, rfl⟩

/-- An enumeration without a registered name, which is never known by its key. -/
def namelessEnumeration : Descriptor := .enumeration none 4

/-- A normalizer of so many nodes that knows no keys and shares the integer under the
enumeration. -/
structure Enumerated (count : Nat) (normalizer : Normalizer) : Prop where
  unknown : ∀ key, normalizer.identities.find? key = none
  size : normalizer.store.size = count
  shared : ∃ id, normalizer.store.leaves.find? (.integer 4 false) = some id

namespace Enumerated

variable {binary : Binary} {normalizer : Normalizer} {count : Nat}

/-- A request for the enumeration adds a node, if an id is left. -/
theorem normalize_eq (enumerated : normalizer.Enumerated count) (binary : Binary) :
    ∃ underlying, normalize binary namelessEnumeration normalizer =
      match normalizer.store.next? with
      | some id => .ok id (normalizer.commit (normalizer.draft.withNode false
          namelessEnumeration.key id (.enumeration underlying)))
      | none => .error .storeFull (normalizer.rollback normalizer.store.size normalizer.draft) := by
  obtain ⟨underlying, shared⟩ := enumerated.shared
  have unknown : normalizer.draft.identities.find? namelessEnumeration.key = none :=
    enumerated.unknown _
  have opens : binary.opening normalizer.pointerSize namelessEnumeration = .enumeration := rfl
  have interned : normalizer.draft.store.intern (.integer namelessEnumeration.width false) =
      some (underlying, normalizer.draft.store) := TypeStore.intern_of_found rfl shared
  have built := Building.build_of_enumeration unknown opens interned
  refine ⟨underlying, ?_⟩
  cases next : normalizer.store.next? with
  | some id =>
    have isNext : normalizer.draft.store.next? = some id := next
    rw [isNext] at built
    rw [normalize, built]
    rfl
  | none =>
    have noneLeft : normalizer.draft.store.next? = none := next
    rw [noneLeft] at built
    rw [normalize, built]
    rfl

/-- The first request adds the integer and the enumeration. -/
theorem first (binary : Binary) (pointerSize : UInt64) :
    (finalState (normalize binary namelessEnumeration (new pointerSize))).Enumerated 2 :=
  ⟨fun _ => rfl, rfl, ⟨0⟩, rfl⟩

/-- Every further request takes one id. -/
theorem next (enumerated : normalizer.Enumerated count) (binary : Binary)
    (room : count < TypeId.count) :
    (finalState (normalize binary namelessEnumeration normalizer)).Enumerated (count + 1) := by
  obtain ⟨underlying, ended⟩ := enumerated.normalize_eq binary
  cases next : normalizer.store.next? with
  | none =>
    have full := TypeStore.next?_eq_none_iff.mp next
    rw [enumerated.size] at full
    exact absurd room (Nat.not_lt.mpr full)
  | some id =>
    simp only [next] at ended
    rw [ended]
    have grown := TypeStore.size_push normalizer.store (.enumeration underlying)
    rw [enumerated.size] at grown
    exact ⟨enumerated.unknown, grown, enumerated.shared⟩

/-- Where no id is left, the request is refused. -/
theorem exists_refused (enumerated : normalizer.Enumerated TypeId.count) (binary : Binary) :
    ∃ after, normalize binary namelessEnumeration normalizer = .error .storeFull after := by
  obtain ⟨underlying, ended⟩ := enumerated.normalize_eq binary
  have full := TypeStore.next?_eq_none_iff.mpr enumerated.size.ge
  simp only [full] at ended
  exact ⟨_, ended⟩

/-- Requests for the enumeration use up the ids one by one. -/
theorem performAll (enumerated : normalizer.Enumerated count) (binary : Binary) {requests : Nat}
    (room : count + requests ≤ TypeId.count) :
    (normalizer.performAll
      (List.replicate requests (.normalize binary namelessEnumeration))).2.Enumerated
        (count + requests) := by
  induction requests generalizing normalizer count with
  | zero => exact enumerated
  | succ requests inductionHypothesis =>
    have step := inductionHypothesis (enumerated.next binary (by omega)) (by omega)
    rw [show count + (requests + 1) = count + 1 + requests by omega]
    exact step

end Enumerated

/-- Once requests for the enumeration have used up all ids, the next one is refused, though none of
them leads to an unknown kind. -/
theorem namelessEnumeration_refused :
    let earlier := List.replicate (TypeId.count - 1) namelessEnumeration
    let normalizer := ((new 8).performAll (earlier.map (.normalize .linuxAmd64))).2
    Binary.linuxAmd64.KeyConsistent
        (Binary.linuxAmd64.closure (namelessEnumeration :: earlier)) ∧
      (∃ after, normalize .linuxAmd64 namelessEnumeration normalizer = .error .storeFull after) ∧
      ¬ ∃ unknown ∈ Binary.linuxAmd64.closure [namelessEnumeration], unknown.IsUnknown := by
  have closed : Binary.linuxAmd64.IsClosed {namelessEnumeration} := by
    rintro _ rfl next ⟨⟩
  have only : ∀ requests : List Descriptor, (∀ request ∈ requests, request = namelessEnumeration) →
      Binary.linuxAmd64.closure requests ⊆ {namelessEnumeration} :=
    fun requests same => Binary.closure_subset same closed
  intro earlier normalizer
  refine ⟨?_, ?_, ?_⟩
  · have within := only (namelessEnumeration :: earlier) fun request isRequest => by
      rcases List.mem_cons.mp isRequest with rfl | isEarlier
      · rfl
      · exact List.eq_of_mem_replicate isEarlier
    intro first firstIn second secondIn
    rw [within firstIn, within secondIn]
    exact fun _ _ => rfl
  · refine Enumerated.exists_refused ?_ .linuxAmd64
    obtain ⟨requests, isCount⟩ := Nat.exists_eq_add_of_le' (show 2 ≤ TypeId.count by decide)
    have used := (Enumerated.first .linuxAmd64 8).performAll .linuxAmd64
      (show 2 + requests ≤ TypeId.count by omega)
    have isEarlier : earlier.map (Request.normalize .linuxAmd64) =
        List.replicate (requests + 1) (.normalize .linuxAmd64 namelessEnumeration) := by
      rw [List.map_replicate, isCount]
      rfl
    show ((new 8).performAll (earlier.map (.normalize .linuxAmd64))).2.Enumerated TypeId.count
    rw [isEarlier, isCount, Nat.add_comm requests]
    exact used
  · rintro ⟨unknown, isReached, kind, isOther⟩
    rw [only [namelessEnumeration] (fun _ => List.mem_singleton.mp) isReached] at isOther
    cases isOther

end Normalizer

end BinaryFacts
