/-
This file defines rows of aliases. An alias is a reference to a typedef that exists; a row of
aliases leads from each one to the next, and from the last one to a target. Aliases with keys of
their own rename the target: no other descriptor to which the target leads has such a key. The
target may lead back to its aliases. It then stands for a descriptor with parts, and what matters
about this descriptor is whether it is known by a key or is an aggregate without a name.
-/

import BinaryFacts.Proofs.Normalization.Failure
import BinaryFacts.Proofs.Normalization.Settled
import BinaryFacts.Proofs.Normalization.Termination

namespace BinaryFacts.Binary

variable {binary : Binary} {pointerSize : UInt64} {row : List Descriptor}
  {start target own current : Descriptor}

/-! ### Rows of aliases -/

/-- References to typedefs, each of which names the next one and the last one the target. -/
inductive Aliases (binary : Binary) : List Descriptor → Descriptor → Descriptor → Prop
  | here (target : Descriptor) : Aliases binary [] target target
  | further {current next target : Descriptor} {row : List Descriptor} {typeId : Option String}
      {name : String} (isAlias : current.kind = .reference .typedef typeId name)
      (found : binary.lookup? typeId name = some next)
      (rest : Aliases binary row next target) :
      Aliases binary (current :: row) current target

/-- An alias has the form of a typedef and is known by its key. -/
theorem opening_of_isAlias {next : Descriptor} {typeId : Option String} {name : String}
    (isAlias : current.kind = .reference .typedef typeId name)
    (found : binary.lookup? typeId name = some next) (pointerSize : UInt64) :
    binary.opening pointerSize current = .form (.typedef next) ∧
      binary.isKeyed current = true := by
  simp only [opening, isKeyed, isAlias, resolve_typedef, found, Option.isSome_some, and_self]

/-- From every alias of a row the rest of the row leads to the target. -/
theorem Aliases.exists_suffix (aliases : binary.Aliases row start target)
    (isAlias : current ∈ row) :
    ∃ rest, binary.Aliases (current :: rest) current target ∧ current :: rest <:+ row := by
  induction aliases with
  | here => cases isAlias
  | further isAliasHere found rest inductionHypothesis =>
    rcases List.mem_cons.mp isAlias with rfl | later
    · exact ⟨_, .further isAliasHere found rest, List.suffix_rfl⟩
    · obtain ⟨others, aliases, isSuffix⟩ := inductionHypothesis later
      exact ⟨others, aliases, isSuffix.trans (List.suffix_cons _ _)⟩

/-- The keys of some descriptors. -/
def keysOf (row : List Descriptor) : Set String := {key | key ∈ row.map (·.key)}

instance (key : String) (row : List Descriptor) : Decidable (key ∈ keysOf row) :=
  inferInstanceAs (Decidable (key ∈ row.map (·.key)))

theorem key_mem_keysOf (isMember : current ∈ row) : current.key ∈ keysOf row :=
  List.mem_map_of_mem isMember

/-! ### The descriptor that the target stands for -/

/-- What a descriptor stands for stands for itself. -/
theorem dereference?_of_stands (stands : binary.dereference? target = some own) :
    binary.dereference? own = some own := by
  rcases opening_of_dereference? stands 0 with rfl | opens
  · exact stands
  · exact (dereference?_of_opening_instead opens).2

theorem mem_closure_of_stands (stands : binary.dereference? target = some own) :
    own ∈ binary.closure [target] := by
  have isTarget : target ∈ binary.closure [target] := mem_closure List.mem_cons_self
  rcases eq_or_successors_of_dereference? stands with rfl | ⟨-, only⟩
  · exact isTarget
  · exact binary.isClosed_closure _ _ isTarget _ (only ▸ List.mem_singleton.mpr rfl)

/-- A descriptor that stands for itself and leads somewhere has parts. -/
theorem exists_form_of_successor {next : Descriptor}
    (itself : binary.dereference? own = some own) (follows : next ∈ binary.successors own)
    (pointerSize : UInt64) : ∃ form, binary.opening pointerSize own = .form form := by
  cases opens : binary.opening pointerSize own with
  | form form => exact ⟨form, rfl⟩
  | leaf node =>
    rw [successors_of_opening_leaf opens] at follows
    cases follows
  | enumeration =>
    rw [successors_of_opening_enumeration opens] at follows
    cases follows
  | instead other =>
    rw [(dereference?_of_opening_instead opens).1] at itself
    cases itself
    exact absurd opens (opening_ne_instead opens own)
  | unhandled kind =>
    have isOther := kind_of_opening_unhandled opens
    simp only [successors, isOther] at follows
    cases follows

/-- A descriptor that leads somewhere stands for one. -/
theorem exists_stands_of_successor {next : Descriptor} (follows : next ∈ binary.successors target) :
    ∃ own, binary.dereference? target = some own := by
  cases stands : binary.dereference? target with
  | some own => exact ⟨own, rfl⟩
  | none =>
    unfold dereference? at stands
    split at stands
    · rename_i category typeId name isReference
      split at stands
      · rename_i tagged
        have different : category ≠ .typedef := by
          rintro rfl
          cases tagged
        simp only [successors, isReference] at follows
        rw [if_neg different, if_pos tagged, stands] at follows
        cases follows
      · cases stands
    · cases stands

/-- Aliases with keys of their own, which no other descriptor has to which the target leads. -/
structure Renames (binary : Binary) (row : List Descriptor) (start target : Descriptor) :
    Prop where
  aliases : binary.Aliases row start target
  distinct : ((row ++ [target]).map (·.key)).Nodup
  exclusive : ∀ reached ∈ binary.closure [target], reached.key ∈ keysOf row → reached ∈ row

namespace Renames

variable (renames : binary.Renames row start target)
include renames

theorem nodup : (row.map (·.key)).Nodup := by
  have distinct := renames.distinct
  rw [List.map_append] at distinct
  exact distinct.of_append_left

theorem target_notMem : target.key ∉ keysOf row := by
  intro isKey
  have distinct := renames.distinct
  rw [List.map_append] at distinct
  exact List.disjoint_of_nodup_append distinct isKey (List.mem_singleton.mpr rfl)

/-- A target that leads to an alias stands for a descriptor with parts. -/
theorem exists_own (isAlias : current ∈ row) (isReached : current ∈ binary.closure [target])
    (pointerSize : UInt64) :
    ∃ own form, binary.dereference? target = some own ∧
      binary.opening pointerSize own = .form form := by
  obtain ⟨request, isRequest, leads⟩ := isReached
  rw [List.mem_singleton.mp isRequest] at leads
  rcases Relation.ReflTransGen.cases_head leads with rfl | ⟨next, first, further⟩
  · exact absurd (key_mem_keysOf isAlias) renames.target_notMem
  · obtain ⟨own, stands⟩ := exists_stands_of_successor first
    have itself := dereference?_of_stands stands
    rcases eq_or_successors_of_dereference? stands with rfl | ⟨-, only⟩
    · obtain ⟨form, opens⟩ := exists_form_of_successor itself first pointerSize
      exact ⟨target, form, stands, opens⟩
    · rw [only] at first
      rw [List.mem_singleton.mp first] at further
      rcases Relation.ReflTransGen.cases_head further with rfl | ⟨later, second, -⟩
      · obtain ⟨rest, aliases, -⟩ := renames.aliases.exists_suffix isAlias
        cases aliases with
        | further isAliasOwn found =>
          exact ⟨own, _, stands, (opening_of_isAlias isAliasOwn found pointerSize).1⟩
      · obtain ⟨form, opens⟩ := exists_form_of_successor itself second pointerSize
        exact ⟨own, form, stands, opens⟩

end Renames

/-- If the target stands for an aggregate without a registered name that leads to an alias again,
then it leads to no unknown kind. -/
def TamelyNamed (binary : Binary) (row : List Descriptor) (target : Descriptor) : Prop :=
  ∀ current ∈ row, current ∈ binary.closure [target] →
    ∀ own, binary.dereference? target = some own → own.isAnonymousAggregate = true →
      ∀ reached ∈ binary.closure [target], ¬ reached.IsUnknown

theorem Aliases.start_mem (aliases : binary.Aliases row start target) :
    start ∈ {current | current ∈ row} ∪ binary.closure [target] := by
  cases aliases with
  | here => exact Or.inr (mem_closure List.mem_cons_self)
  | further => exact Or.inl List.mem_cons_self

/-- Aliases lead to aliases and to the target only. -/
theorem Aliases.isClosed (aliases : binary.Aliases row start target) :
    binary.IsClosed ({current | current ∈ row} ∪ binary.closure [target]) := by
  induction aliases with
  | here =>
    rintro current (isAlias | isReached) next follows
    · cases isAlias
    · exact Or.inr (binary.isClosed_closure _ _ isReached _ follows)
  | @further first onward target rest typeId name isAlias found aliases inductionHypothesis =>
    rintro current (isHere | isReached) next follows
    · rcases List.mem_cons.mp isHere with rfl | later
      · have only : binary.successors current = [onward] :=
          successors_of_opening_form (opening_of_isAlias isAlias found 0).1
        rw [only] at follows
        rw [List.mem_singleton.mp follows]
        exact aliases.start_mem.imp_left (List.mem_cons_of_mem _)
      · exact (inductionHypothesis _ (Or.inl later) _ follows).imp_left (List.mem_cons_of_mem _)
    · exact Or.inr (binary.isClosed_closure _ _ isReached _ follows)

end BinaryFacts.Binary
