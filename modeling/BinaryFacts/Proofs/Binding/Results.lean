/-
This file says where the result of a function is passed if its type is an alias.

A request for an alias ends as the request for the target of the alias does, unless the ids run
out. So the result is refused with the same error, or it is bound; and it is bound to the result
registers unless the node of its type is void. The node is the first level of what the type means.
An alias means a typedef and never void, also where the target is void: the result is then bound to
registers for the alias and to none for the target. In all other cases the storages are the same.
-/

import BinaryFacts.Proofs.Binding.Agreement
import BinaryFacts.Proofs.Normalization.Aliases

namespace BinaryFacts

/-! ### The node of a new type -/

/-- In a draft that knows no keys, the node of a type is the first level of its meaning. -/
theorem Building.Builds.unfold_one {binary : Binary} {pointerSize : UInt64}
    {before after : Draft} {row : List Descriptor} {result : Except NormalizeError (List TypeId)}
    (run : Builds binary pointerSize before row result after) :
    ∀ {opened : Set TypeId} {descriptor : Descriptor} {id : TypeId}, row = [descriptor] →
      result = .ok [id] → before.Sound opened → (∀ key, before.identities.find? key = none) →
        after.store.unfold 1 id = binary.meaning pointerSize 1 descriptor := by
  induction run with
  | nil => rintro _ _ _ ⟨⟩
  | cons head tail headMeans tailMeans =>
    rintro opened descriptor id ⟨⟩ ⟨⟩ sound fresh
    cases tail
    exact headMeans rfl rfl sound fresh
  | known found =>
    rintro opened descriptor id - - - fresh
    rw [fresh] at found
    cases found
  | @leaf descriptor node draft id store unknown opens interned =>
    rintro opened _ _ ⟨⟩ ⟨⟩ sound -
    have present := (sound.store.get?_intern (Binary.isLeaf_of_opening opens).1 interned).1
    rw [Binary.meaning_of_opening_leaf opens (TypeStore.unfold _ 0) 0]
    show TypeStore.unfold store 1 id = _
    rw [TypeStore.unfold, present]
  | enumeration unknown opens interned isNext =>
    rintro opened descriptor id ⟨⟩ ⟨⟩ - -
    rw [Binary.meaning_of_opening_enumeration opens, TypeStore.unfold,
      Draft.get?_withNode _ _ _ isNext]
    rfl
  | instead unknown opens same sameMeans =>
    rintro opened descriptor id ⟨⟩ succeeded sound fresh
    rw [Binary.meaning_of_opening_instead opens]
    exact sameMeans rfl succeeded sound fresh
  | @form descriptor form filled id items node before middle last unknown opens isNext parts
      refilled laid =>
    rintro opened _ _ ⟨⟩ ⟨⟩ sound -
    have soundMiddle := (Draft.Sound.builds parts rfl (sound.reserved _ unknown isNext)).1
    have reserved := (soundMiddle.formNode (congrArg finalState laid)).store.opened_void id
      (Set.mem_insert_iff.mpr (Or.inl rfl))
    obtain ⟨padding, rfl, -⟩ := soundMiddle.formNode_eq laid
    have present := TypeStore.get?_fill last.store id id (filled.node padding)
      (TypeStore.index_lt_of_get?_eq_some reserved)
    rw [if_pos rfl] at present
    -- Below the node both trees are cut, so only the number of the parts matters.
    have cuts : filled.map (fun _ => Unfolding.cut) = form.map fun _ => Unfolding.cut := by
      refine Form.map_eq_of_refill? refilled ?_
      rw [List.map_const', List.map_const', Form.length_of_refill? refilled]
    rw [Binary.meaning_of_opening_form opens]
    show TypeStore.unfold (last.store.fill id (filled.node padding)) 1 _ = _
    rw [TypeStore.unfold, present]
    show Unfolding.node ((filled.node padding).map fun _ => .cut) = _
    rw [Form.map_node, cuts]
    rfl
  | failedHead | failedTail | failedPart | failedLayout | unhandled | full => rintro _ _ _ - ⟨⟩

namespace Normalizer

/-! ### Results -/

variable {binary : Binary} {pointerSize : UInt64} {descriptor : Descriptor} {id : TypeId}
  {after : Normalizer}

theorem normalize_new (binary : Binary) (pointerSize : UInt64) (descriptor : Descriptor) :
    normalize binary descriptor (new pointerSize) =
      match Building.build binary pointerSize descriptor (new pointerSize).draft with
      | .ok id draft => .ok id ((new pointerSize).commit draft)
      | .error error draft => .error error ((new pointerSize).rollback 0 draft) := rfl

/-- A type in a new normalizer is void if it means void. -/
theorem isVoid_iff_of_normalize_new
    (done : normalize binary descriptor (new pointerSize) = .ok id after) :
    (after.store.get? id).any TypeNode.isVoid = true ↔
      binary.meaning pointerSize 1 descriptor = .node .void := by
  obtain ⟨draft, run, rfl⟩ := builds_of_normalize_eq_ok done
  have means := run.unfold_one rfl rfl (Sound.new pointerSize).draft fun _ => rfl
  rw [show (new pointerSize).pointerSize = pointerSize from rfl] at means
  rw [← means, TypeStore.unfold]
  show (draft.store.get? id).any TypeNode.isVoid = true ↔ _
  cases draft.store.get? id with
  | none => simp
  | some node => cases node <;> simp [TypeNode.isVoid, TypeNode.map]

/-- The storages to which the result of a function is bound in a new normalizer. -/
def resultStorages (binary : Binary) (pointerSize : UInt64) (function : BinaryFunction) :
    Except BindError (List Storage) :=
  (outcome (bindResults binary function (new pointerSize))).map fun locations =>
    locations.map (·.storage)

/-- The registers that hold the result of a function. -/
def allResultRegisters (function : BinaryFunction) : List Storage :=
  function.resultRegisters.map fun register => .register (Text.upper register)

/-- The result is bound to all result registers, unless its type means void. -/
theorem resultStorages_of_ok (function : BinaryFunction)
    (done : normalize binary function.result (new pointerSize) = .ok id after) :
    (binary.meaning pointerSize 1 function.result = .node .void →
        resultStorages binary pointerSize function = .ok []) ∧
      (binary.meaning pointerSize 1 function.result ≠ .node .void →
        resultStorages binary pointerSize function = .ok (allResultRegisters function)) := by
  rw [ne_eq, ← isVoid_iff_of_normalize_new done]
  unfold resultStorages bindResults
  rw [bind_of_ok _ (normalizeBound_of_ok done),
    bind_of_ok _ (show (get : Normalizing BindError Normalizer) after = .ok after after from rfl)]
  constructor
  · intro isVoid
    rw [if_pos isVoid]
    rfl
  · intro notVoid
    rw [if_neg notVoid]
    exact congrArg Except.ok List.map_map

theorem resultStorages_of_error (function : BinaryFunction) {error : NormalizeError}
    (failed : normalize binary function.result (new pointerSize) = .error error after) :
    resultStorages binary pointerSize function = .error (.normalize error) := by
  unfold resultStorages bindResults
  rw [bind_of_error _ (normalizeBound_of_error failed)]
  rfl

/-- A descriptor that means void is a leaf or a reference. -/
theorem opening_of_meaning_void (means : binary.meaning pointerSize 1 descriptor = .node .void) :
    (∃ node, binary.opening pointerSize descriptor = .leaf node) ∨
      ∃ own, binary.opening pointerSize descriptor = .instead own := by
  cases opens : binary.opening pointerSize descriptor with
  | leaf node => exact Or.inl ⟨node, rfl⟩
  | instead own => exact Or.inr ⟨own, rfl⟩
  | enumeration =>
    rw [Binary.meaning_of_opening_enumeration opens] at means
    cases means
  | form form =>
    rw [Binary.meaning_of_opening_form opens] at means
    cases form <;> cases means
  | unhandled kind =>
    have isOther := Binary.kind_of_opening_unhandled opens
    obtain ⟨ownKind, width, registeredName, key⟩ := descriptor
    cases isOther
    cases means

/-- A request for a descriptor that means void is answered with the first id. -/
theorem exists_normalize_of_meaning_void
    (means : binary.meaning pointerSize 1 descriptor = .node .void) :
    ∃ after, normalize binary descriptor (new pointerSize) = .ok ⟨0⟩ after := by
  have leaf : ∀ {own node}, binary.opening pointerSize own = .leaf node →
      ∃ after, Building.build binary pointerSize own (new pointerSize).draft = .ok ⟨0⟩ after :=
    fun opens => ⟨_, Building.build_of_leaf rfl opens
      (TypeStore.intern_of_absent (Binary.isLeaf_of_opening opens).1 rfl)⟩
  obtain ⟨after, built⟩ : ∃ after, Building.build binary pointerSize descriptor
      (new pointerSize).draft = .ok ⟨0⟩ after := by
    rcases opening_of_meaning_void means with ⟨node, opens⟩ | ⟨own, opens⟩
    · exact leaf opens
    · rw [Building.build_of_instead rfl opens]
      rw [Binary.meaning_of_opening_instead opens] at means
      rcases opening_of_meaning_void means with ⟨node, opensOwn⟩ | ⟨next, opensOwn⟩
      · exact leaf opensOwn
      · exact absurd opensOwn (Binary.opening_ne_instead opens next)
  refine ⟨(new pointerSize).commit after, ?_⟩
  rw [normalize_new, built]

/-- Requests that end in the same way are both answered, or both refused with the same error, or
one of them is refused for want of an id. -/
theorem answers_of_sameEnd {left right : Descriptor}
    (same : Building.SameEnd (Building.build binary pointerSize left (new pointerSize).draft)
      (Building.build binary pointerSize right (new pointerSize).draft)) :
    SameWay NormalizeError.IsFull (fun _ _ => True) anyValues
      (normalize binary left (new pointerSize)) (normalize binary right (new pointerSize)) := by
  rw [normalize_new, normalize_new]
  unfold Building.SameEnd at same
  generalize Building.build binary pointerSize left (new pointerSize).draft = first at same
  generalize Building.build binary pointerSize right (new pointerSize).draft = second at same
  cases same with
  | ok => exact .ok trivial trivial
  | error reason => exact .error reason trivial
  | passedLeft isPassed => exact .passedLeft isPassed _ _
  | passedRight isPassed => exact .passedRight isPassed _ _

/-- An alias does not mean void. -/
theorem meaning_ne_void_of_aliases {row : List Descriptor} {start target : Descriptor}
    (aliases : binary.Aliases row start target) (nonempty : row ≠ []) :
    binary.meaning pointerSize 1 start ≠ .node .void := by
  cases aliases with
  | here => exact absurd rfl nonempty
  | further isAlias found =>
    rw [Binary.meaning_of_opening_form (Binary.opening_of_isAlias isAlias found pointerSize).1]
    rintro ⟨⟩

/-- A function with an alias as the type of its result. Unless the target of the alias means void,
the result is bound to the same storages as with the target, or refused with the same error, or
one of the two requests runs out of ids. If the target means void, the result has no location with
the target, and with the alias it has one in each result register, unless there are too many
aliases for the ids. -/
theorem resultStorages_of_renames (binary : Binary) (pointerSize : UInt64)
    (function : BinaryFunction) {row : List Descriptor} {start target : Descriptor}
    (renames : binary.Renames row start target) (tame : binary.TamelyNamed row target) :
    (binary.meaning pointerSize 1 target ≠ .node .void →
        (new pointerSize).RunsOut binary start ∨ (new pointerSize).RunsOut binary target ∨
          resultStorages binary pointerSize (function.withResult start) =
            resultStorages binary pointerSize (function.withResult target)) ∧
      (binary.meaning pointerSize 1 target = .node .void → row ≠ [] →
        resultStorages binary pointerSize (function.withResult target) = .ok [] ∧
          ((new pointerSize).RunsOut binary start ∨
            resultStorages binary pointerSize (function.withResult start) =
              .ok (allResultRegisters function))) := by
  have fresh : ∀ key, (new pointerSize).draft.identities.find? key = none := fun _ => rfl
  have same := answers_of_sameEnd (Building.sameEnd_of_renames pointerSize renames tame fresh)
  generalize startEnds : normalize binary start (new pointerSize) = first at same
  generalize targetEnds : normalize binary target (new pointerSize) = second at same
  constructor
  · intro notVoid
    cases same with
    | ok =>
      rw [(resultStorages_of_ok (function.withResult target) targetEnds).2 notVoid]
      refine Or.inr (Or.inr ((resultStorages_of_ok (function.withResult start) startEnds).2 ?_))
      intro isVoid
      cases renames.aliases with
      | here => exact notVoid isVoid
      | further isAlias found rest =>
        exact meaning_ne_void_of_aliases (.further isAlias found rest) (List.cons_ne_nil _ _) isVoid
    | error reason =>
      rw [resultStorages_of_error (function.withResult start) startEnds,
        resultStorages_of_error (function.withResult target) targetEnds]
      exact Or.inr (Or.inr rfl)
    | passedLeft isFull =>
      cases isFull
      exact Or.inl (runsOut_of_normalize_eq startEnds)
    | passedRight isFull =>
      cases isFull
      exact Or.inr (Or.inl (runsOut_of_normalize_eq targetEnds))
  · intro isVoid nonempty
    obtain ⟨after, done⟩ := exists_normalize_of_meaning_void isVoid
    refine ⟨(resultStorages_of_ok (function.withResult target) done).1 isVoid, ?_⟩
    rw [done] at targetEnds
    subst targetEnds
    cases same with
    | ok =>
      exact Or.inr ((resultStorages_of_ok (function.withResult start) startEnds).2
        (meaning_ne_void_of_aliases renames.aliases nonempty))
    | passedLeft isFull =>
      cases isFull
      exact Or.inl (runsOut_of_normalize_eq startEnds)

/-- A reference to a typedef. -/
def namedAlias (name : String) : Descriptor := .reference .typedef name none

/-- A structure that points to itself by its alias. -/
def chainedRecord : Descriptor :=
  .aggregate .structType (some "chained") 8 [.ofType "next" 0 (.pointer (namedAlias "chained_t") 8)]

/-- A binary with an alias of the structure, an alias of this alias, and an alias of void. -/
def aliasBinary : Binary :=
  ((Binary.linuxAmd64.registerType "chained_t" none chainedRecord).registerType "outer_t" none
    (namedAlias "chained_t")).registerType "nothing_t" none .void

/-- A function with one result register. -/
def callee : BinaryFunction := { name := "callee", start := 4096 }

/-- What the structure leads to. -/
def chainedFamily : Set Descriptor :=
  {chainedRecord, .pointer (namedAlias "chained_t") 8, namedAlias "chained_t"}

theorem isClosed_chainedFamily : aliasBinary.IsClosed chainedFamily := by
  rintro descriptor (rfl | rfl | rfl) next follows
  · have only : aliasBinary.successors chainedRecord = [.pointer (namedAlias "chained_t") 8] := rfl
    rw [only] at follows
    exact Or.inr (Or.inl (List.mem_singleton.mp follows))
  · have only : aliasBinary.successors (.pointer (namedAlias "chained_t") 8) =
        [namedAlias "chained_t"] := rfl
    rw [only] at follows
    exact Or.inr (Or.inr (List.mem_singleton.mp follows))
  · have only : aliasBinary.successors (namedAlias "chained_t") = [chainedRecord] := rfl
    rw [only] at follows
    exact Or.inl (List.mem_singleton.mp follows)

theorem renames_chainedRecord :
    aliasBinary.Renames [namedAlias "outer_t", namedAlias "chained_t"] (namedAlias "outer_t")
      chainedRecord where
  aliases := .further rfl rfl (.further rfl rfl (.here _))
  distinct := by decide
  exclusive := by
    intro reached isReached isKey
    rcases Binary.closure_singleton_subset isClosed_chainedFamily (Or.inl rfl) isReached with
      rfl | rfl | rfl
    · exact absurd isKey (by decide)
    · exact absurd isKey (by decide)
    · exact List.mem_cons_of_mem _ List.mem_cons_self

theorem tamelyNamed_chainedRecord :
    aliasBinary.TamelyNamed [namedAlias "outer_t", namedAlias "chained_t"] chainedRecord := by
  rintro current - - own ⟨⟩ anonymous
  cases anonymous

/-- The structure has a name, so it may lead back to its alias, and the result is passed in the
same register under the outer alias as under the structure. -/
theorem resultStorages_of_renames_chainedRecord :
    aliasBinary.Renames [namedAlias "outer_t", namedAlias "chained_t"] (namedAlias "outer_t")
        chainedRecord ∧
      aliasBinary.TamelyNamed [namedAlias "outer_t", namedAlias "chained_t"] chainedRecord ∧
      resultStorages aliasBinary 8 (callee.withResult (namedAlias "outer_t")) =
        .ok [.register "RAX"] := by
  refine ⟨renames_chainedRecord, tamelyNamed_chainedRecord, ?_⟩
  have compares := (resultStorages_of_renames aliasBinary 8 callee renames_chainedRecord
    tamelyNamed_chainedRecord).1 (by rintro ⟨⟩)
  rcases compares with ⟨_, ⟨⟩, -⟩ | ⟨_, ⟨⟩, -⟩ | same
  exact same.trans rfl

/-- The alias of void renames it, but the result is passed in a register under the alias and
nowhere under void. -/
theorem voidAlias_passed :
    aliasBinary.Renames [namedAlias "nothing_t"] (namedAlias "nothing_t") .void ∧
      aliasBinary.TamelyNamed [namedAlias "nothing_t"] .void ∧
      resultStorages aliasBinary 8 (callee.withResult (namedAlias "nothing_t")) =
        .ok [.register "RAX"] ∧
      resultStorages aliasBinary 8 (callee.withResult .void) = .ok [] := by
  have closed : aliasBinary.IsClosed {Descriptor.void} := by
    rintro _ rfl next ⟨⟩
  refine ⟨⟨.further rfl rfl (.here _), by decide, ?_⟩, ?_, rfl, rfl⟩
  · intro reached isReached isKey
    rw [Binary.closure_singleton_subset closed rfl isReached] at isKey
    exact absurd isKey (by decide)
  · rintro current - - own ⟨⟩ ⟨⟩

-- A structure without a name may lead to its own alias and to two unknown kinds. The run of the
-- structure comes to the second kind on its detour through the alias, and the run of the alias,
-- which has no detour to make, to the first.
example :
    let name := "nameless_t"
    let again : Descriptor := .reference .typedef name none
    let inner : Descriptor := .aggregate .structType none 16
      [.ofType "again" 0 again, .ofType "first" 8 (.other "first" 8)]
    let nameless : Descriptor := .aggregate .structType none 16
      [.ofType "inner" 0 (.pointer inner 8), .ofType "second" 8 (.other "second" 8)]
    let binary := Binary.linuxAmd64.registerType name none nameless
    let returning : Descriptor → BinaryFunction := fun result =>
      { name := "returning", start := 4096, result := result }
    outcome (bindResults binary (returning again) (new 8)) =
        .error (.normalize (.unhandledKind "first" "first")) ∧
      outcome (bindResults binary (returning nameless) (new 8)) =
        .error (.normalize (.unhandledKind "second" "second")) := ⟨rfl, rfl⟩

end Normalizer

end BinaryFacts
