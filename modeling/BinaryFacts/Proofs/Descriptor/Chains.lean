/-
This file says which references are followed to an end. `Chain` is the chain of references from a
descriptor to the first one that is no reference to follow, with the keys on the way. Following
references finds the end of a chain exactly if no key stands on it twice. Apart from the first,
every key on a chain belongs to a registered type, so a chain without a repeated key is no longer
than the registrations allow.
-/

import BinaryFacts.Proofs.Descriptor.Parts

namespace BinaryFacts.Binary

variable {binary : Binary} {follows : ReferenceClass → Bool} {keys : List String}
  {start target : Descriptor}

/-- References with these keys lead from a descriptor to one that is no reference to follow. -/
inductive Chain (binary : Binary) (follows : ReferenceClass → Bool) :
    List String → Descriptor → Descriptor → Prop
  | here {descriptor : Descriptor}
      (final : ∀ category typeId name, descriptor.kind = .reference category typeId name →
        follows category = false) :
      Chain binary follows [] descriptor descriptor
  | further {descriptor next target : Descriptor} {keys : List String}
      {category : ReferenceClass} {typeId : Option String} {name : String}
      (isReference : descriptor.kind = .reference category typeId name)
      (followed : follows category = true) (found : binary.lookup? typeId name = some next)
      (rest : Chain binary follows keys next target) :
      Chain binary follows (descriptor.key :: keys) descriptor target

namespace Chain

/-- The keys on a chain from a registered type are keys of registered types. -/
theorem keys_subset (chain : binary.Chain follows keys start target)
    (isRegistered : start ∈ binary.registered) :
    keys ⊆ binary.registered.map (·.key) := by
  induction chain with
  | here => exact List.nil_subset _
  | further isReference followed found rest inductionHypothesis =>
    exact List.cons_subset.mpr ⟨List.mem_map_of_mem isRegistered,
      inductionHypothesis (mem_registered_of_lookup? found)⟩

/-- A chain without a repeated key passes every registration once at most. -/
theorem length_le (chain : binary.Chain follows keys start target) (distinct : keys.Nodup) :
    keys.length ≤ binary.registrations + 1 := by
  have total : (binary.registered.map (·.key)).length = binary.registrations := by
    simp [registered, registrations, Table.size]
  cases chain with
  | here => exact Nat.zero_le _
  | further isReference followed found rest =>
    have within := rest.keys_subset (mem_registered_of_lookup? found)
    have bound := (List.nodup_cons.mp distinct).2.length_le_of_subset within
    rw [total] at bound
    exact Nat.succ_le_succ bound

end Chain

/-- Within its steps, following references finds the end of a chain that repeats no key and meets
none of the keys seen before. -/
theorem followWithin_eq_some_iff {steps : Nat} {seen : List String} :
    binary.followWithin follows steps seen start = some target ↔
      ∃ keys, binary.Chain follows keys start target ∧ keys.Nodup ∧
        (∀ key ∈ keys, key ∉ seen) ∧ keys.length < steps := by
  induction steps generalizing seen start with
  | zero => simp [followWithin]
  | succ steps inductionHypothesis =>
    rw [followWithin]
    constructor
    · intro found
      split at found
      · rename_i category typeId name isReference
        split at found
        · rename_i followed
          split at found
          · cases found
          · rename_i unseen
            split at found
            · rename_i next looked
              obtain ⟨keys, chain, distinct, avoids, short⟩ := inductionHypothesis.mp found
              refine ⟨_, .further isReference followed looked chain, ?_, ?_,
                Nat.succ_lt_succ short⟩
              · exact List.nodup_cons.mpr
                  ⟨fun again => avoids _ again List.mem_cons_self, distinct⟩
              · exact List.forall_mem_cons.mpr ⟨unseen, fun key isKey again =>
                  avoids key isKey (List.mem_cons_of_mem _ again)⟩
            · cases found
        · rename_i unfollowed
          cases found
          refine ⟨[], .here fun other otherId otherName same => ?_, by simp⟩
          rw [isReference] at same
          cases same
          exact Bool.eq_false_of_not_eq_true unfollowed
      · rename_i noReference
        cases found
        exact ⟨[], .here fun _ _ _ same => absurd same (noReference _ _ _), by simp⟩
    · rintro ⟨keys, chain, distinct, avoids, short⟩
      cases chain with
      | here final =>
        split
        · rename_i category typeId name isReference
          rw [if_neg (Bool.not_eq_true _ ▸ final _ _ _ isReference)]
        · rfl
      | @further _ next _ keys category typeId name isReference followed looked rest =>
        obtain ⟨fresh, distinctRest⟩ := List.nodup_cons.mp distinct
        obtain ⟨unseen, avoidsRest⟩ := List.forall_mem_cons.mp avoids
        rw [isReference]
        dsimp only
        rw [if_pos followed, if_neg unseen, looked]
        refine inductionHypothesis.mpr ⟨keys, rest, distinctRest, fun key isKey again => ?_,
          Nat.lt_of_succ_lt_succ short⟩
        rcases List.mem_cons.mp again with rfl | earlier
        · exact fresh isKey
        · exact avoidsRest key isKey earlier

/-- Following references finds the end of a chain that repeats no key. -/
theorem follow?_eq_some_iff :
    binary.follow? follows start = some target ↔
      ∃ keys, binary.Chain follows keys start target ∧ keys.Nodup := by
  rw [follow?, followWithin_eq_some_iff]
  constructor
  · rintro ⟨keys, chain, distinct, -, -⟩
    exact ⟨keys, chain, distinct⟩
  · rintro ⟨keys, chain, distinct⟩
    exact ⟨keys, chain, distinct, fun _ _ => List.not_mem_nil,
      Nat.lt_succ_of_le (chain.length_le distinct)⟩

/-- A descriptor is declared void if it is void or typedefs lead from it to void, no key twice. -/
def DeclaresVoid (binary : Binary) (descriptor : Descriptor) : Prop :=
  ∃ keys target, binary.Chain ReferenceClass.isTypedef keys descriptor target ∧ keys.Nodup ∧
    target.kind = .void

theorem isDeclaredVoid_iff :
    binary.isDeclaredVoid start = true ↔ binary.DeclaresVoid start := by
  have isVoid_iff : ∀ descriptor : Descriptor,
      descriptor.isVoid = true ↔ descriptor.kind = .void := by
    intro descriptor
    unfold Descriptor.isVoid Kind.isVoid
    cases descriptor.kind <;> simp
  rw [isDeclaredVoid, Option.any_eq_true]
  constructor
  · rintro ⟨target, found, isVoid⟩
    obtain ⟨keys, chain, distinct⟩ := follow?_eq_some_iff.mp found
    exact ⟨keys, target, chain, distinct, (isVoid_iff target).mp isVoid⟩
  · rintro ⟨keys, target, chain, distinct, isVoid⟩
    exact ⟨target, follow?_eq_some_iff.mpr ⟨keys, chain, distinct⟩, (isVoid_iff target).mpr isVoid⟩

end BinaryFacts.Binary
