/-
This file counts descriptors. A descriptor has as many descriptors inside it as its node count
says, so every descriptor to which a request leads is one of finitely many: it lies inside the
requested descriptor or inside a type registered in the binary.
-/

import BinaryFacts.Proofs.Normalization.Meaning
import Mathlib.Algebra.GroupWithZero.Nat
import Mathlib.Algebra.Order.BigOperators.Group.List
import Mathlib.Algebra.Order.Group.Nat

namespace BinaryFacts

/-! ### Descriptors inside a descriptor -/

theorem Kind.parts_map {Part Other : Type} (replace : Part → Other) (kind : Kind Part) :
    (kind.map replace).parts = kind.parts.map replace := by
  cases kind with
  | aggregate variant members =>
    simp only [map, parts, List.map_map]
    rfl
  | pointer | array | function | void | bool | integer | float | wideChar | varArgs | value
  | enumeration | reference | other => rfl

namespace Descriptor

/-- The node count of a descriptor is one more than those of its parts together. -/
theorem nodeCount_eq (descriptor : Descriptor) :
    descriptor.nodeCount = (descriptor.kind.parts.map nodeCount).sum + 1 := by
  have total : ∀ counts : List Nat, counts.foldr (· + ·) 1 = counts.sum + 1 := by
    intro counts
    induction counts with
    | nil => rfl
    | cons count rest inductionHypothesis =>
      rw [List.foldr_cons, List.sum_cons, inductionHypothesis, Nat.add_assoc]
  unfold nodeCount
  rw [fold_eq, Kind.parts_map, total]

theorem nodeCount_lt_of_mem_parts {descriptor part : Descriptor}
    (member : part ∈ descriptor.kind.parts) : part.nodeCount < descriptor.nodeCount := by
  rw [nodeCount_eq descriptor]
  exact Nat.lt_succ_of_le (List.le_sum_of_mem (List.mem_map_of_mem member))

/-- The descriptors inside a descriptor, itself first. -/
def inside (descriptor : Descriptor) : List Descriptor :=
  descriptor :: descriptor.kind.parts.attach.flatMap fun part => part.1.inside
termination_by descriptor.nodeCount
decreasing_by exact nodeCount_lt_of_mem_parts part.2

theorem inside_eq (descriptor : Descriptor) :
    descriptor.inside = descriptor :: descriptor.kind.parts.flatMap inside := by
  rw [inside, List.flatMap_subtype (g := inside) (fun _ _ => rfl), List.unattach_attach]

/-- What holds of a descriptor whenever it holds of its parts holds of all descriptors. -/
theorem induction_on_parts {property : Descriptor → Prop}
    (step : ∀ descriptor, (∀ part ∈ descriptor.kind.parts, property part) → property descriptor)
    (descriptor : Descriptor) : property descriptor := by
  induction size : descriptor.nodeCount using Nat.strongRecOn generalizing descriptor with
  | ind count inductionHypothesis =>
    subst size
    refine step descriptor fun part member => ?_
    exact inductionHypothesis _ (nodeCount_lt_of_mem_parts member) part rfl

theorem length_inside (descriptor : Descriptor) :
    descriptor.inside.length = descriptor.nodeCount := by
  induction descriptor using induction_on_parts with
  | step descriptor inductionHypothesis =>
    rw [inside_eq, List.length_cons, List.length_flatMap, nodeCount_eq,
      List.map_congr_left inductionHypothesis]

theorem mem_inside_self (descriptor : Descriptor) : descriptor ∈ descriptor.inside := by
  rw [inside_eq]
  exact List.mem_cons_self

/-- The parts of a descriptor inside another one lie inside it as well. -/
theorem mem_inside_of_mem_parts {descriptor inner part : Descriptor}
    (innerInside : inner ∈ descriptor.inside) (member : part ∈ inner.kind.parts) :
    part ∈ descriptor.inside := by
  induction descriptor using induction_on_parts with
  | step descriptor inductionHypothesis =>
    rw [inside_eq] at innerInside ⊢
    rcases List.mem_cons.mp innerInside with rfl | deeper
    · exact List.mem_cons_of_mem _ (List.mem_flatMap.mpr ⟨part, member, mem_inside_self part⟩)
    · obtain ⟨between, isPart, below⟩ := List.mem_flatMap.mp deeper
      exact List.mem_cons_of_mem _ (List.mem_flatMap.mpr
        ⟨between, isPart, inductionHypothesis between isPart below⟩)

theorem nodeCount_le_of_mem_inside {descriptor inner : Descriptor}
    (member : inner ∈ descriptor.inside) : inner.nodeCount ≤ descriptor.nodeCount := by
  induction descriptor using induction_on_parts with
  | step descriptor inductionHypothesis =>
    rw [inside_eq] at member
    rcases List.mem_cons.mp member with rfl | deeper
    · exact Nat.le_refl _
    · obtain ⟨between, isPart, below⟩ := List.mem_flatMap.mp deeper
      exact (inductionHypothesis between isPart below).trans (nodeCount_lt_of_mem_parts isPart).le

/-- A descriptor has fewer parts than nodes. -/
theorem length_parts_lt_nodeCount (descriptor : Descriptor) :
    descriptor.kind.parts.length < descriptor.nodeCount := by
  rw [nodeCount_eq]
  refine Nat.lt_succ_of_le ?_
  rw [← List.length_map nodeCount]
  refine List.length_le_sum_of_one_le _ fun count isCount => ?_
  obtain ⟨part, -, rfl⟩ := List.mem_map.mp isCount
  rw [nodeCount_eq]
  exact Nat.le_add_left 1 _

end Descriptor

/-! ### Descriptors within reach of a request -/

namespace Binary

variable {binary : Binary}

/-- The registered types of a binary. -/
def registered (binary : Binary) : List Descriptor :=
  (binary.typesById.entries ++ binary.typesByName.entries).map (·.2)

theorem mem_registered_of_lookup? {typeId : Option String} {name : String} {found : Descriptor}
    (looked : binary.lookup? typeId name = some found) : found ∈ binary.registered := by
  have entered : ∀ {table : Table String Descriptor} {key : String},
      table.find? key = some found → ∃ entry ∈ table.entries, entry.2 = found := by
    intro table key isFound
    obtain ⟨entry, isEntry, same⟩ := Option.map_eq_some_iff.mp isFound
    exact ⟨entry, List.mem_of_find?_eq_some isEntry, same⟩
  rw [lookup?, Option.orElse_eq_or, Option.or_eq_some_iff] at looked
  rw [registered, List.map_append]
  rcases looked with byId | ⟨-, byName⟩
  · obtain ⟨id, -, isFound⟩ := Option.bind_eq_some_iff.mp byId
    obtain ⟨entry, isEntry, same⟩ := entered isFound
    exact List.mem_append_left _ (List.mem_map.mpr ⟨entry, isEntry, same⟩)
  · obtain ⟨entry, isEntry, same⟩ := entered byName
    exact List.mem_append_right _ (List.mem_map.mpr ⟨entry, isEntry, same⟩)

/-- A chain of references from a registered type ends at a registered type. -/
theorem mem_registered_of_followWithin {follows : ReferenceClass → Bool} {steps : Nat}
    {seen : List String} {start target : Descriptor}
    (found : binary.followWithin follows steps seen start = some target)
    (isRegistered : start ∈ binary.registered) : target ∈ binary.registered := by
  induction steps generalizing seen start with
  | zero => cases found
  | succ steps inductionHypothesis =>
    unfold followWithin at found
    split at found
    · split at found
      · split at found
        · cases found
        · split at found
          · rename_i next looked
            exact inductionHypothesis found (mem_registered_of_lookup? looked)
          · cases found
      · cases found
        exact isRegistered
    · cases found
      exact isRegistered

/-- The descriptors to which a request may lead: those inside it and inside registered types. -/
def withinReach (binary : Binary) (descriptor : Descriptor) : List Descriptor :=
  descriptor.inside ++ binary.registered.flatMap Descriptor.inside

/-- The number of descriptors inside the registered types of a binary. -/
def registeredNodeCount (binary : Binary) : Nat :=
  (binary.typesById.entries ++ binary.typesByName.entries).foldr
    (fun entry count => entry.2.nodeCount + count) 0

/-- The number of descriptors within reach of a request. -/
def reachCount (binary : Binary) (descriptor : Descriptor) : Nat :=
  descriptor.nodeCount + binary.registeredNodeCount

theorem length_withinReach (binary : Binary) (descriptor : Descriptor) :
    (binary.withinReach descriptor).length = binary.reachCount descriptor := by
  have total : ∀ entries : List (String × Descriptor),
      ((entries.map (·.2)).flatMap Descriptor.inside).length =
        entries.foldr (fun entry count => entry.2.nodeCount + count) 0 := by
    intro entries
    induction entries with
    | nil => rfl
    | cons entry rest inductionHypothesis =>
      rw [List.map_cons, List.flatMap_cons, List.length_append, inductionHypothesis,
        Descriptor.length_inside, List.foldr_cons]
  rw [withinReach, List.length_append, Descriptor.length_inside, registered, total,
    reachCount, registeredNodeCount]

theorem mem_withinReach_of_mem_registered {descriptor target : Descriptor}
    (isRegistered : target ∈ binary.registered) : target ∈ binary.withinReach descriptor :=
  List.mem_append_right _
    (List.mem_flatMap.mpr ⟨target, isRegistered, target.mem_inside_self⟩)

theorem mem_withinReach_of_mem_parts {descriptor inner part : Descriptor}
    (within : inner ∈ binary.withinReach descriptor) (member : part ∈ inner.kind.parts) :
    part ∈ binary.withinReach descriptor := by
  rcases List.mem_append.mp within with here | there
  · exact List.mem_append_left _ (Descriptor.mem_inside_of_mem_parts here member)
  · obtain ⟨type, isRegistered, below⟩ := List.mem_flatMap.mp there
    exact List.mem_append_right _ (List.mem_flatMap.mpr
      ⟨type, isRegistered, Descriptor.mem_inside_of_mem_parts below member⟩)

/-- No step leads out of the reach of a request. -/
theorem isClosed_withinReach (binary : Binary) (descriptor : Descriptor) :
    binary.IsClosed {target | target ∈ binary.withinReach descriptor} := by
  intro current within next follows
  cases kind : current.kind with
  | reference category typeId name =>
    simp only [successors, kind] at follows
    split at follows
    · exact mem_withinReach_of_mem_registered
        (mem_registered_of_lookup? (Option.mem_toList.mp follows))
    · split at follows
      · obtain ⟨found, looked, chain⟩ :=
          Option.bind_eq_some_iff.mp (Option.mem_toList.mp follows)
        exact mem_withinReach_of_mem_registered
          (mem_registered_of_followWithin chain (mem_registered_of_lookup? looked))
      · cases follows
  | pointer | array | function | aggregate | void | bool | integer | float | wideChar | varArgs
  | value | enumeration | other =>
    refine mem_withinReach_of_mem_parts within ?_
    simp only [successors, kind] at follows
    rw [kind]
    exact follows

/-- A descriptor within reach has no more nodes than there are within reach. -/
theorem nodeCount_le_reachCount {descriptor target : Descriptor}
    (within : target ∈ binary.withinReach descriptor) :
    target.nodeCount ≤ binary.reachCount descriptor := by
  rw [← length_withinReach, withinReach, List.length_append, Descriptor.length_inside,
    List.length_flatMap]
  rcases List.mem_append.mp within with here | there
  · exact (Descriptor.nodeCount_le_of_mem_inside here).trans (Nat.le_add_right _ _)
  · obtain ⟨type, isRegistered, below⟩ := List.mem_flatMap.mp there
    have counted : type.inside.length ≤
        (binary.registered.map fun type => type.inside.length).sum :=
      List.le_sum_of_mem (List.mem_map_of_mem isRegistered)
    rw [Descriptor.length_inside] at counted
    exact ((Descriptor.nodeCount_le_of_mem_inside below).trans counted).trans
      (Nat.le_add_left _ _)

/-- A descriptor within reach leads to no more descriptors than there are within reach. -/
theorem length_successors_le {descriptor target : Descriptor}
    (within : target ∈ binary.withinReach descriptor) :
    (binary.successors target).length ≤ binary.reachCount descriptor := by
  refine le_trans ?_ (nodeCount_le_reachCount within)
  have parts := target.length_parts_lt_nodeCount
  have single : ∀ found : Option Descriptor, found.toList.length ≤ target.nodeCount := by
    intro found
    cases found with
    | none => exact Nat.zero_le _
    | some next => exact Nat.one_le_of_lt parts
  unfold successors
  split
  · split
    · exact single _
    · split
      · exact single _
      · exact Nat.zero_le _
  · exact parts.le

end Binary

end BinaryFacts
