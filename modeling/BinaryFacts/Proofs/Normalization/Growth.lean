/-
This file proves that a request only ever adds to its draft. Whatever a request has done, the
nodes of the draft it started from are still there under their ids, its shared leaves and its
keys are unchanged, and the new leaves and keys stand before the old ones: a new leaf has an id
past the old nodes, a new key is one that the start did not know, and the journal lists the new
keys. Filling a reserved node is no exception, since the node was reserved by the same request.

A draft that grew from a start in this way is taken back to it by the three parts of a rollback
together: truncating the nodes, dropping the leaves past them, erasing the keys of the journal.
-/

import BinaryFacts.Normalization.Normalizer
import BinaryFacts.Proofs.Normalization.Derivation

namespace BinaryFacts

/-! ### Drafts -/

/-- A draft with everything that another one holds, and with the journal of what is new. -/
structure Draft.Extends (mark draft : Draft) : Prop where
  store : mark.store.Extends draft.store
  /-- New keys are none of the old ones, and the journal lists them. -/
  identities : ∃ added : List (String × TypeId),
    draft.identities.entries = added ++ mark.identities.entries ∧
      draft.journal = added.map (·.1) ++ mark.journal ∧
      ∀ entry ∈ added, mark.identities.find? entry.1 = none

namespace Draft.Extends

variable {mark draft : Draft}

theorem refl (draft : Draft) : draft.Extends draft where
  store := .refl _
  identities := ⟨[], rfl, rfl, fun _ member => nomatch member⟩

/-- A known key stays known, with its id. -/
theorem find?_eq_some (grown : mark.Extends draft) {key : String} {id : TypeId}
    (known : mark.identities.find? key = some id) : draft.identities.find? key = some id := by
  obtain ⟨added, entries, -, fresh⟩ := grown.identities
  have skipped : added.find? (fun entry => entry.1 = key) = none := by
    rw [List.find?_eq_none]
    intro entry member same
    rw [← of_decide_eq_true same, fresh entry member] at known
    cases known
  rw [← known, Table.find?, Table.find?, entries, List.find?_append, skipped, Option.none_or]

/-- A key that is unknown was unknown at the start. -/
theorem find?_eq_none (grown : mark.Extends draft) {key : String}
    (unknown : draft.identities.find? key = none) : mark.identities.find? key = none := by
  cases known : mark.identities.find? key with
  | none => rfl
  | some id =>
    rw [grown.find?_eq_some known] at unknown
    cases unknown

theorem interned (grown : mark.Extends draft) {node : TypeNode TypeId} {id : TypeId}
    {store : TypeStore} (interned : draft.store.intern node = some (id, store)) :
    mark.Extends (draft.withStore store) where
  store := grown.store.intern interned
  identities := grown.identities

theorem withNode (grown : mark.Extends draft) (keyed : Bool) {key : String} (id : TypeId)
    (node : TypeNode TypeId) (unknown : draft.identities.find? key = none) :
    mark.Extends (draft.withNode keyed key id node) where
  store := grown.store.push node
  identities := by
    cases keyed with
    | false => exact grown.identities
    | true =>
      obtain ⟨added, entries, journal, fresh⟩ := grown.identities
      refine ⟨(key, id) :: added, ?_, ?_, ?_⟩
      · show (draft.identities.insert key id).entries = _
        rw [Table.entries_insert_of_find?_eq_none _ unknown, entries, List.cons_append]
      · show key :: draft.journal = _
        rw [journal, List.map_cons, List.cons_append]
      · intro entry member
        rcases List.mem_cons.mp member with rfl | old
        · exact grown.find?_eq_none unknown
        · exact fresh entry old

theorem filled (grown : mark.Extends draft) {id : TypeId} (node : TypeNode TypeId)
    (new : mark.store.size ≤ id.index) : mark.Extends (draft.filled id node) where
  store := grown.store.fill node new
  identities := grown.identities

theorem elementIds {elements : List (Layout.Element TypeId)} {ids : List TypeId} {after : Draft}
    (done : elements.mapM Building.elementId draft = .ok ids after) (grown : mark.Extends draft) :
    mark.Extends after := by
  have keeps : Keeps mark.Extends (elements.mapM Building.elementId) :=
    Building.keeps_elementIds fun _ _ _ _ _ added old => old.interned added
  have ends := keeps draft grown
  rwa [done] at ends

theorem formNode {form : Form TypeId} {after : Draft}
    (ended : finalState (Building.formNode form draft) = after) (grown : mark.Extends draft) :
    mark.Extends after :=
  Building.formNode_keeps ended (fun _ _ _ _ _ added old => old.interned added) grown

/-- Every run of a request, whether it succeeds or fails, extends what its draft extended. -/
theorem builds {binary : Binary} {pointerSize : UInt64} {row : List Descriptor}
    {result : Except NormalizeError (List TypeId)} {after : Draft}
    (run : Building.Builds binary pointerSize draft row result after)
    (grown : mark.Extends draft) : mark.Extends after := by
  induction run with
  | nil | known | unhandled => exact grown
  | cons head tail headGrows tailGrows => exact tailGrows (headGrows grown)
  | failedHead head headGrows => exact headGrows grown
  | failedTail head tail headGrows tailGrows => exact tailGrows (headGrows grown)
  | leaf unknown opens interned => exact grown.interned interned
  | enumeration unknown opens interned isNext =>
    exact (grown.interned interned).withNode _ _ _ unknown
  | instead unknown opens same sameGrows => exact sameGrows grown
  | form unknown opens isNext parts refilled laid partsGrow =>
    -- The node is filled at the id it was reserved under, which is past the mark.
    have built := partsGrow (grown.withNode _ _ .void unknown)
    exact (formNode (congrArg finalState laid) built).filled _
      (grown.store.size_le.trans_eq (TypeStore.next?_eq_some_iff.mp isNext).symm)
  | failedPart unknown opens isNext parts partsGrow =>
    exact partsGrow (grown.withNode _ _ .void unknown)
  | failedLayout unknown opens isNext parts refilled failed partsGrow =>
    exact formNode (congrArg finalState failed) (partsGrow (grown.withNode _ _ .void unknown))
  | full fails =>
    obtain ⟨-, -, rfl | ⟨underlying, store, interned, rfl⟩⟩ := Building.start_eq_full fails
    · exact grown
    · exact grown.interned interned

end Draft.Extends

/-! ### Rollback -/

/-- Erasing several keys keeps the entries under other keys. -/
theorem Table.entries_foldl_erase {Key Value : Type} [DecidableEq Key] (keys : List Key)
    (table : Table Key Value) :
    (keys.foldl (fun entries key => entries.erase key) table).entries =
      table.entries.filter (fun entry => entry.1 ∉ keys) := by
  induction keys generalizing table with
  | nil => simp
  | cons key rest inductionHypothesis =>
    rw [List.foldl_cons, inductionHypothesis, Table.erase, List.filter_filter]
    congr 1
    funext entry
    simp only [List.mem_cons, not_or, Bool.decide_and, Bool.and_comm, ne_eq]

/-- Erasing the keys of its journal takes the identities of a draft back to those it started
from. -/
theorem Draft.Extends.erase_journal {mark draft : Draft} (grown : mark.Extends draft)
    (started : mark.journal = []) :
    draft.journal.foldl (fun identities key => identities.erase key) draft.identities =
      mark.identities := by
  obtain ⟨added, entries, journal, fresh⟩ := grown.identities
  rw [started, List.append_nil] at journal
  have dropped : added.filter (fun entry => entry.1 ∉ draft.journal) = [] := by
    rw [List.filter_eq_nil_iff]
    intro entry member
    have listed : entry.1 ∈ draft.journal := journal ▸ List.mem_map_of_mem member
    simpa using listed
  have kept : mark.identities.entries.filter (fun entry => entry.1 ∉ draft.journal) =
      mark.identities.entries := by
    rw [List.filter_eq_self]
    intro entry member
    simp only [decide_eq_true_eq, journal, List.mem_map, not_exists, not_and]
    intro new isNew same
    exact (Table.find?_eq_none_iff _ _).mp (fresh new isNew) entry member same.symm
  have remaining := Table.entries_foldl_erase draft.journal draft.identities
  rw [entries, List.filter_append, dropped, kept, List.nil_append] at remaining
  calc draft.journal.foldl (fun identities key => identities.erase key) draft.identities
      = ⟨(draft.journal.foldl (fun identities key => identities.erase key)
          draft.identities).entries⟩ := rfl
    _ = mark.identities := by rw [remaining]

/-- A rollback takes every draft that grew from a normalizer back to this normalizer. -/
theorem Normalizer.rollback_of_extends {normalizer : Normalizer} {draft : Draft}
    (grown : normalizer.draft.Extends draft)
    (inside : ∀ entry ∈ normalizer.store.leaves.entries,
      entry.2.index < normalizer.store.size) :
    normalizer.rollback normalizer.store.size draft = normalizer := by
  have store : draft.store.truncate normalizer.store.size = normalizer.store :=
    grown.store.truncate inside
  have identities := grown.erase_journal rfl
  unfold Normalizer.rollback
  rw [store, identities]
  rfl

end BinaryFacts
