/-
This file proves that finished types are permanent. No later request, whether it succeeds or
fails, changes a node or a key of a normalizer between requests: a request only adds to its
draft, and a request that fails is undone to the last entry. So once a keyed descriptor has an
id, every descriptor with its key is answered with this id, and the answer changes nothing.
-/

import BinaryFacts.Proofs.Normalization.History

namespace BinaryFacts

/-! ### Keyed descriptors are entered -/

/-- A keyed descriptor is an enumeration or has parts. -/
theorem Binary.opening_of_isKeyed {binary : Binary} {descriptor : Descriptor}
    (keyed : binary.isKeyed descriptor = true) (pointerSize : UInt64) :
    binary.opening pointerSize descriptor = .enumeration ∨
      ∃ form, binary.opening pointerSize descriptor = .form form := by
  obtain ⟨kind, width, registeredName, key⟩ := descriptor
  cases kind with
  | pointer | array | function | aggregate => exact Or.inr ⟨_, rfl⟩
  | enumeration => exact Or.inl rfl
  | reference category typeId name =>
    cases category with
    | typedef =>
      obtain ⟨target, found⟩ := Option.isSome_iff_exists.mp keyed
      refine Or.inr ⟨.typedef target, ?_⟩
      simp only [opening, resolve_typedef, found]
    | structType | unionType | enumType | unknown | other => cases keyed
  | void | bool | integer | float | wideChar | varArgs | value | other => cases keyed

namespace Building.Builds

/-- A keyed descriptor that is built is known by its key. -/
theorem find?_key {binary : Binary} {pointerSize : UInt64} {before after : Draft}
    {row : List Descriptor} {result : Except NormalizeError (List TypeId)}
    (run : Builds binary pointerSize before row result after) :
    ∀ {descriptor id}, row = [descriptor] → result = .ok [id] →
      binary.isKeyed descriptor = true → after.identities.find? descriptor.key = some id := by
  induction run with
  | cons head tail headKnown tailKnown =>
    rintro descriptor id ⟨⟩ ⟨⟩ keyed
    exact ((Draft.Extends.refl _).builds tail).find?_eq_some (headKnown rfl rfl keyed)
  | known found =>
    rintro descriptor id ⟨⟩ ⟨⟩ -
    exact found
  | enumeration unknown opens interned isNext =>
    rintro descriptor id ⟨⟩ ⟨⟩ keyed
    exact Draft.find?_withNode _ _ _ _ keyed
  | form unknown opens isNext parts refilled laid partsKnown =>
    rintro descriptor id ⟨⟩ ⟨⟩ keyed
    have entered := ((Draft.Extends.refl _).builds parts).find?_eq_some
      (Draft.find?_withNode _ _ _ .void keyed)
    exact ((Draft.Extends.refl _).formNode (congrArg finalState laid)).find?_eq_some entered
  | leaf unknown opens interned =>
    rintro descriptor id ⟨⟩ - keyed
    rcases Binary.opening_of_isKeyed keyed pointerSize with inner | ⟨form, inner⟩ <;>
      rw [inner] at opens <;> cases opens
  | instead unknown opens same sameKnown =>
    rintro descriptor id ⟨⟩ - keyed
    rcases Binary.opening_of_isKeyed keyed pointerSize with inner | ⟨form, inner⟩ <;>
      rw [inner] at opens <;> cases opens
  | nil => rintro descriptor id ⟨⟩
  | failedHead | failedTail | failedPart | failedLayout | unhandled | full =>
    rintro descriptor id - ⟨⟩

end Building.Builds

/-! ### Known keys -/

namespace Normalizer

variable {normalizer after : Normalizer} {binary : Binary} {descriptor : Descriptor} {id : TypeId}

/-- A descriptor with a known key is answered with the id of the key, and nothing changes. -/
theorem normalize_of_known (known : normalizer.known? descriptor.key = some id) :
    normalize binary descriptor normalizer = .ok id normalizer := by
  have knownHere : normalizer.draft.identities.find? descriptor.key = some id := known
  rw [normalize, Building.build_of_known knownHere]
  rfl

/-- A keyed descriptor that was answered is known by its key. -/
theorem known?_of_normalize_eq_ok (keyed : binary.isKeyed descriptor = true)
    (done : normalize binary descriptor normalizer = .ok id after) :
    after.known? descriptor.key = some id := by
  obtain ⟨draft, run, rfl⟩ := builds_of_normalize_eq_ok done
  exact run.find?_key rfl rfl keyed

/-! ### Later requests -/

/-- A normalizer in which every node and every key of an earlier one is as it was. -/
structure Retains (mark later : Normalizer) : Prop where
  node : ∀ id node, mark.store.get? id = some node → later.store.get? id = some node
  known : ∀ key id, mark.known? key = some id → later.known? key = some id

theorem Retains.refl (normalizer : Normalizer) : normalizer.Retains normalizer where
  node := fun _ _ present => present
  known := fun _ _ known => known

theorem Retains.get?_eq {mark later : Normalizer} (retains : mark.Retains later) (id : TypeId)
    (inside : id.index < mark.store.size) : later.store.get? id = mark.store.get? id := by
  cases present : mark.store.get? id with
  | none => exact absurd inside (Nat.not_lt.mpr ((TypeStore.get?_eq_none_iff _ _).mp present))
  | some node => exact retains.node id node present

/-- A normalizer keeps what it retains through every request. -/
theorem Retains.keeps_normalize (mark : Normalizer) (binary : Binary) (descriptor : Descriptor) :
    Keeps (fun later => later.Sound ∧ mark.Retains later) (normalize binary descriptor) := by
  rintro later ⟨sound, retains⟩
  refine ⟨Sound.keeps_normalize binary descriptor later sound, ?_⟩
  cases ended : normalize binary descriptor later with
  | ok id after =>
    obtain ⟨draft, run, rfl⟩ := builds_of_normalize_eq_ok ended
    have grown := (Draft.Extends.refl later.draft).builds run
    refine ⟨fun place node present => ?_, fun key place known => ?_⟩
    · have old := retains.node place node present
      exact (grown.store.get?_eq place (TypeStore.index_lt_of_get?_eq_some old)).trans old
    · exact grown.find?_eq_some (retains.known key place known)
  | error error after =>
    show mark.Retains after
    rw [sound.eq_of_normalize_eq_error ended]
    exact retains

/-- A sound normalizer is retained by every sequence of requests. -/
theorem Sound.retains_performAll (sound : normalizer.Sound) (requests : List Request) :
    normalizer.Retains (normalizer.performAll requests).2 :=
  (performAll_keeps (Retains.keeps_normalize normalizer) ⟨sound, .refl normalizer⟩ requests).2

/-- Finished types are permanent: every later sequence of requests keeps every node and every
key, and once a keyed descriptor has an id, every later request with its key is answered with
this id and changes nothing. -/
theorem Reachable.permanent (reachable : normalizer.Reachable) :
    (∀ requests, normalizer.Retains (normalizer.performAll requests).2) ∧
      ∀ binary descriptor id after,
        normalize binary descriptor normalizer = .ok id after →
        binary.isKeyed descriptor = true →
        ∀ requests otherBinary (other : Descriptor), other.key = descriptor.key →
          normalize otherBinary other (after.performAll requests).2 =
            .ok id (after.performAll requests).2 := by
  refine ⟨reachable.sound.retains_performAll, ?_⟩
  intro binary descriptor id after done keyed requests otherBinary other sameKey
  have retained := (reachable.sound.of_normalize_eq_ok done).retains_performAll requests
  refine normalize_of_known ?_
  rw [sameKey]
  exact retained.known _ _ (known?_of_normalize_eq_ok keyed done)

/-- The pointer keeps its node and its id through a request that fails and one that succeeds, and
even a descriptor of an unknown kind is answered with the id when it has the key of the pointer. -/
theorem permanent_pointer :
    let requests : List Request :=
      [.normalize .linuxAmd64 partlyUnknown, .normalize .linuxAmd64 linkedRecord]
    let later := (withPointer.performAll requests).2
    withPointer.Reachable ∧ withPointer.Retains later ∧
      withPointer.store.get? ⟨0⟩ = some (.pointer ⟨1⟩) ∧ withPointer.known? "bool*" = some ⟨0⟩ ∧
      withPointer.store.size < later.store.size ∧
      normalize .linuxAmd64 (.pointer .bool 8) withPointer = .ok ⟨0⟩ withPointer ∧
      Binary.linuxAmd64.isKeyed (.pointer .bool 8) = true ∧
      normalize .linuxAmd64 (.other "bool*" 8) later = .ok ⟨0⟩ later := by
  intro requests later
  have reachable : withPointer.Reachable := .request (.new 8) _ _
  have grows : withPointer.store.size < later.store.size := by decide
  have answered : normalize .linuxAmd64 (.pointer .bool 8) withPointer = .ok ⟨0⟩ withPointer :=
    rfl
  refine ⟨reachable, reachable.permanent.1 _, rfl, rfl, grows, answered, rfl, ?_⟩
  exact reachable.permanent.2 _ _ _ _ answered rfl _ _ _ (by decide)

end Normalizer

end BinaryFacts
