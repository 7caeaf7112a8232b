/-
This file follows a normalizer through its history. A request that succeeds keeps a draft that
follows the rules of building, and a request that fails leaves the normalizer exactly as it was,
so the types of a normalizer are well formed after every history: nodes have children that exist,
leaves are shared, keys lead to nodes of their own, and structures are padded in order.
-/

import BinaryFacts.Proofs.Normalization.Integrity
import BinaryFacts.Proofs.Normalization.Recursion
import BinaryFacts.Proofs.Normalization.Request

namespace BinaryFacts

namespace Normalizer

/-! ### Single requests -/

section Request

variable {normalizer after : Normalizer} {binary : Binary} {descriptor : Descriptor}

/-- A request that succeeds follows the rules and keeps what it built. -/
theorem builds_of_normalize_eq_ok {id : TypeId}
    (done : normalize binary descriptor normalizer = .ok id after) :
    ∃ draft, Building.Builds binary normalizer.pointerSize normalizer.draft [descriptor]
      (.ok [id]) draft ∧ after = normalizer.commit draft := by
  have follows := Building.follows_build binary normalizer.pointerSize descriptor normalizer.draft
  unfold normalize at done
  split at done
  · rename_i built draft ended
    rw [ended] at follows
    cases done
    exact ⟨draft, follows, rfl⟩
  · cases done

/-- A request that fails follows the rules until it fails, and is rolled back. -/
theorem builds_of_normalize_eq_error {error : NormalizeError}
    (failed : normalize binary descriptor normalizer = .error error after) :
    ∃ draft, Building.Builds binary normalizer.pointerSize normalizer.draft [descriptor]
      (.error error) draft ∧ after = normalizer.rollback normalizer.store.size draft := by
  have follows := Building.follows_build binary normalizer.pointerSize descriptor normalizer.draft
  unfold normalize at failed
  split at failed
  · cases failed
  · rename_i cause draft ended
    rw [ended] at follows
    cases failed
    exact ⟨draft, follows, rfl⟩

end Request

/-! ### The invariant between requests -/

/-- A normalizer whose types are in order, with no open nodes. -/
structure Sound (normalizer : Normalizer) : Prop where
  draft : normalizer.draft.Sound ∅
  /-- The leaf index has no entries past the nodes. -/
  leaves_lt : ∀ entry ∈ normalizer.store.leaves.entries, entry.2.index < normalizer.store.size

namespace Sound

theorem new (pointerSize : UInt64) : (Normalizer.new pointerSize).Sound where
  draft :=
    { store :=
        { fits := fun _ _ present => nomatch present
          leaf_iff := fun _ _ => iff_of_false (fun found => nomatch found)
            (fun present => nomatch present.2.2)
          opened_void := fun _ isOpen => isOpen.elim }
      known_lt := fun _ _ known => nomatch known
      known_inner := fun _ _ _ known => nomatch known
      injective := fun _ _ _ known => nomatch known
      keyed := fun _ _ present => nomatch present }
  leaves_lt := fun _ member => nomatch member

variable {normalizer after : Normalizer} {binary : Binary} {descriptor : Descriptor}

/-- A request that fails leaves the normalizer as it was. -/
theorem eq_of_normalize_eq_error (sound : normalizer.Sound) {error : NormalizeError}
    (failed : normalize binary descriptor normalizer = .error error after) :
    after = normalizer := by
  obtain ⟨draft, run, rfl⟩ := builds_of_normalize_eq_error failed
  exact rollback_of_extends ((Draft.Extends.refl _).builds run) sound.leaves_lt

/-- A request that succeeds keeps the types in order. -/
theorem of_normalize_eq_ok (sound : normalizer.Sound) {id : TypeId}
    (done : normalize binary descriptor normalizer = .ok id after) : after.Sound := by
  obtain ⟨draft, run, rfl⟩ := builds_of_normalize_eq_ok done
  have soundDraft : draft.Sound ∅ := (Draft.Sound.builds run rfl sound.draft).1
  have grown : normalizer.draft.Extends draft := (Draft.Extends.refl _).builds run
  refine ⟨⟨soundDraft.store, soundDraft.known_lt, soundDraft.known_inner, soundDraft.injective,
    soundDraft.keyed⟩, fun entry member => ?_⟩
  obtain ⟨added, entries, past⟩ := grown.store.leaves
  change entry ∈ draft.store.leaves.entries at member
  rw [entries] at member
  rcases List.mem_append.mp member with new | old
  · exact (past entry new).2
  · exact Nat.lt_of_lt_of_le (sound.leaves_lt entry old) grown.store.size_le

/-- The answer to a request is the id of a node. -/
theorem index_lt_of_normalize_eq_ok (sound : normalizer.Sound) {id : TypeId}
    (done : normalize binary descriptor normalizer = .ok id after) :
    id.index < after.store.size := by
  obtain ⟨draft, run, rfl⟩ := builds_of_normalize_eq_ok done
  exact ((Draft.Sound.builds run rfl sound.draft).2 id (List.mem_singleton.mpr rfl)).index_lt

theorem keeps_normalize (binary : Binary) (descriptor : Descriptor) :
    Keeps Sound (normalize binary descriptor) := by
  intro normalizer sound
  cases ended : normalize binary descriptor normalizer with
  | ok id after => exact sound.of_normalize_eq_ok ended
  | error error after => exact sound.eq_of_normalize_eq_error ended ▸ sound

end Sound

/-! ### Histories -/

/-- The normalizers that arise from requests, successful or not, about any binaries. -/
inductive Reachable : Normalizer → Prop
  | new (pointerSize : UInt64) : Reachable (Normalizer.new pointerSize)
  | request {normalizer : Normalizer} (earlier : Reachable normalizer) (binary : Binary)
      (descriptor : Descriptor) : Reachable (finalState (normalize binary descriptor normalizer))

theorem Reachable.sound {normalizer : Normalizer} (reachable : normalizer.Reachable) :
    normalizer.Sound := by
  induction reachable with
  | new pointerSize => exact Sound.new pointerSize
  | request earlier binary descriptor sound =>
    exact Sound.keeps_normalize binary descriptor _ sound

/-- A request that fails leaves the nodes, the leaf index and the identities exactly as they were,
so every later sequence of requests is answered as if it had never been made. -/
theorem Reachable.unchanged_of_normalize_eq_error {normalizer after : Normalizer}
    (reachable : normalizer.Reachable) {binary : Binary} {descriptor : Descriptor}
    {error : NormalizeError}
    (failed : normalize binary descriptor normalizer = .error error after) :
    after.store.nodes = normalizer.store.nodes ∧
      after.store.leaves = normalizer.store.leaves ∧
      after.identities = normalizer.identities ∧
      ∀ requests, after.performAll requests = normalizer.performAll requests := by
  have same := reachable.sound.eq_of_normalize_eq_error failed
  subst same
  exact ⟨rfl, rfl, rfl, fun _ => rfl⟩

/-- A normalizer that has answered a request for a pointer. -/
def withPointer : Normalizer :=
  finalState (normalize .linuxAmd64 (.pointer .bool 8) (new 8))

/-- A structure whose last member is of an unknown kind. -/
def partlyUnknown : Descriptor :=
  .aggregate .structType (some "packet") 24
    [.ofType "flag" 0 .bool, .ofType "next" 8 (.pointer .void 8),
      .ofType "rest" 16 (.other "vector" 8)]

/-- The structure is entered and its first members are built before its last one fails. -/
theorem unchanged_of_partlyUnknown :
    withPointer.Reachable ∧
      ∃ error after, normalize .linuxAmd64 partlyUnknown withPointer = .error error after ∧
        after.store.nodes = withPointer.store.nodes ∧
        after.store.leaves = withPointer.store.leaves ∧
        after.identities = withPointer.identities ∧
        ∀ requests, after.performAll requests = withPointer.performAll requests := by
  have reachable : withPointer.Reachable := .request (.new 8) _ _
  have failed : normalize .linuxAmd64 partlyUnknown withPointer =
      .error (.unhandledKind "vector" "vector")
        (finalState (normalize .linuxAmd64 partlyUnknown withPointer)) := rfl
  exact ⟨reachable, _, _, failed, reachable.unchanged_of_normalize_eq_error failed⟩

/-! ### Well-formed types -/

/-- A normalizer whose types are well formed. -/
structure WellFormed (normalizer : Normalizer) : Prop where
  /-- Children exist. -/
  child_lt : ∀ id node, normalizer.store.get? id = some node →
    ∀ child ∈ node.children, child.index < normalizer.store.size
  /-- Equal leaves are the same leaf. -/
  leaf_unique : ∀ id other node, node.isLeaf = true → normalizer.store.get? id = some node →
    normalizer.store.get? other = some node → id = other
  /-- The leaf index lists exactly the leaves. -/
  leaves_iff : ∀ node id, normalizer.store.leaves.find? node = some id ↔
    node.isLeaf = true ∧ normalizer.store.get? id = some node
  /-- Keys lead to nodes that are no leaves. -/
  known_inner : ∀ key id, normalizer.known? key = some id →
    ∃ node, normalizer.store.get? id = some node ∧ node.isLeaf = false
  /-- Different keys lead to different nodes. -/
  known_injective : ∀ key other id, normalizer.known? key = some id →
    normalizer.known? other = some id → key = other
  /-- Pointers, arrays, functions and typedefs have one key each. -/
  known_unique : ∀ id node, normalizer.store.get? id = some node → node.isKeyed = true →
    ∃! key, normalizer.known? key = some id
  /-- Enumerations are over unsigned integers. -/
  underlying : ∀ id child, normalizer.store.get? id = some (.enumeration child) →
    ∃ width, normalizer.store.get? child = some (.integer width false)
  /-- Padding is a child of structures only. -/
  padding_struct : ∀ id node child, normalizer.store.get? id = some node →
    child ∈ node.children → normalizer.store.IsPadding child → ∃ elements, node = .struct elements
  /-- Padding is never empty. -/
  padding_ne_zero : ∀ id bytes, normalizer.store.get? id = some (.padding bytes) → bytes ≠ 0
  /-- No two neighbours in a structure are both padding. -/
  padding_apart : ∀ id elements, normalizer.store.get? id = some (.struct elements) →
    elements.IsChain normalizer.store.Apart

/-- With no open nodes, types that are in order are well formed. -/
theorem wellFormed_of_sound {normalizer : Normalizer} (sound : normalizer.Sound) :
    normalizer.WellFormed := by
  have leaves_iff : ∀ node id, normalizer.store.leaves.find? node = some id ↔
      node.isLeaf = true ∧ normalizer.store.get? id = some node := by
    intro node id
    rw [show normalizer.store.leaves.find? node = some id ↔ _ from
      sound.draft.store.leaf_iff node id]
    exact and_congr_right fun _ => and_iff_right (Set.notMem_empty id)
  refine ⟨?_, ?_, leaves_iff, ?_, sound.draft.injective, ?_, ?_, ?_, ?_, ?_⟩
  · intro id node present
    exact (sound.draft.store.fits id node present).children
  · intro id other node leaf present presentOther
    have found := (leaves_iff node id).mpr ⟨leaf, present⟩
    rw [(leaves_iff node other).mpr ⟨leaf, presentOther⟩, Option.some.injEq] at found
    exact found.symm
  · intro key id known
    cases present : normalizer.store.get? id with
    | none =>
      have outside := (TypeStore.get?_eq_none_iff _ _).mp present
      exact absurd (sound.draft.known_lt key id known) (Nat.not_lt.mpr outside)
    | some node =>
      exact ⟨node, rfl, sound.draft.known_inner key id node known (Set.notMem_empty id) present⟩
  · intro id node present isKeyed
    obtain ⟨key, known⟩ := sound.draft.keyed id node present isKeyed
    exact ⟨key, known, fun other knownOther => sound.draft.injective other key id knownOther known⟩
  · intro id child present
    exact (sound.draft.store.fits id _ present).underlying child rfl
  · intro id node child present
    exact (sound.draft.store.fits id node present).padding child
  · intro id bytes present
    exact (sound.draft.store.fits id _ present).bytes bytes rfl
  · intro id elements present
    exact (sound.draft.store.fits id _ present).apart elements rfl

/-- The types of a normalizer are well formed after every history. -/
theorem Reachable.wellFormed {normalizer : Normalizer} (reachable : normalizer.Reachable) :
    normalizer.WellFormed :=
  wellFormed_of_sound reachable.sound

/-- A structure with padding that points to itself. -/
def linkedRecord : Descriptor :=
  .aggregate .structType (some "record") 16
    [.ofType "flag" 0 .bool, .ofType "next" 8 (.pointer (.reference .structType "record" none) 8)]

/-- The types stay well formed through a request that succeeds and one that fails. -/
theorem wellFormed_linkedRecord :
    let built := finalState (normalize .linuxAmd64 linkedRecord withPointer)
    let last := finalState (normalize .linuxAmd64 (.pointer partlyUnknown 8) built)
    last.Reachable ∧ last.store.size = 5 ∧ last.WellFormed := by
  intro built last
  have reachable : last.Reachable := .request (.request (.request (.new 8) _ _) _ _) _ _
  exact ⟨reachable, by decide +kernel, reachable.wellFormed⟩

end Normalizer

end BinaryFacts
