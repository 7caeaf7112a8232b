/-
This file proves that building a descriptor is plain recursion and follows the rules, however it
ends. The allowance of levels is never what ends it: of two levels one below the other at least
one has reserved a node, and there are two levels for every id. So the ids run out before the
levels do, and with or without an allowance the work on a descriptor is to begin it, to build its
parts in order and to close its node.
-/

import BinaryFacts.Proofs.Normalization.Derivation

namespace BinaryFacts

namespace Building

/-! ### Rows and forms -/

section Row

variable {binary : Binary} {pointerSize : UInt64} {build : Descriptor → Building TypeId}
  {size : Nat} {row : List Descriptor} {before after : Draft}

/-- Where building each descriptor of a row follows the rules in every draft of a size or more, so
does building the row in such a draft. -/
theorem builds_of_mapM_eq_ok
    (follows : ∀ descriptor ∈ row, ∀ draft : Draft, size ≤ draft.store.size →
      Follows binary pointerSize draft descriptor (build descriptor draft))
    (large : size ≤ before.store.size) {ids : List TypeId}
    (done : row.mapM build before = .ok ids after) :
    Builds binary pointerSize before row (.ok ids) after := by
  induction row generalizing before ids with
  | nil =>
    cases done
    exact .nil _
  | cons descriptor rest inductionHypothesis =>
    rw [List.mapM_cons] at done
    obtain ⟨id, middle, built, done⟩ := bind_eq_ok done
    obtain ⟨others, last, builtRest, done⟩ := bind_eq_ok done
    cases done
    have head := follows descriptor List.mem_cons_self before large
    rw [built] at head
    exact .cons head (inductionHypothesis
      (fun other isOther => follows other (List.mem_cons_of_mem _ isOther))
      (large.trans head.size_le) builtRest)

theorem builds_of_mapM_eq_error
    (follows : ∀ descriptor ∈ row, ∀ draft : Draft, size ≤ draft.store.size →
      Follows binary pointerSize draft descriptor (build descriptor draft))
    (large : size ≤ before.store.size) {error : NormalizeError}
    (failed : row.mapM build before = .error error after) :
    Builds binary pointerSize before row (.error error) after := by
  induction row generalizing before with
  | nil => cases failed
  | cons descriptor rest inductionHypothesis =>
    rw [List.mapM_cons] at failed
    have head := follows descriptor List.mem_cons_self before large
    rcases bind_eq_error failed with failedHead | ⟨id, middle, built, failed⟩
    · rw [failedHead] at head
      exact .failedHead head
    · rw [built] at head
      rcases bind_eq_error failed with failedTail | ⟨others, last, -, impossible⟩
      · exact .failedTail head (inductionHypothesis
          (fun other isOther => follows other (List.mem_cons_of_mem _ isOther))
          (large.trans head.size_le) failedTail)
      · cases impossible

/-- The work on a descriptor with parts, from its reserved node on. -/
def buildForm (build : Descriptor → Building TypeId) (id : TypeId) (form : Form Descriptor) :
    Building TypeId := do
  close id (← form.mapM build)

theorem buildForm_congr {rebuild : Descriptor → Building TypeId} {form : Form Descriptor}
    {draft : Draft} (id : TypeId)
    (same : form.parts.mapM rebuild draft = form.parts.mapM build draft) :
    buildForm rebuild id form draft = buildForm build id form draft := by
  have sameForm := Form.mapM_congr same
  unfold buildForm
  cases built : form.mapM build draft with
  | ok filled middle =>
    rw [built] at sameForm
    rw [bind_of_ok _ built, bind_of_ok _ sameForm]
  | error error middle =>
    rw [built] at sameForm
    rw [bind_of_error _ built, bind_of_error _ sameForm]

/-- Where the parts of a form are built, what is left is to put them in place and to close the
node. -/
theorem exists_buildForm_eq {form : Form Descriptor} {draft middle : Draft} {items : List TypeId}
    (built : form.parts.mapM build draft = .ok items middle) (id : TypeId) :
    ∃ filled, form.refill? items = some filled ∧
      buildForm build id form draft = close id filled middle := by
  cases filled : form.mapM build draft with
  | error error last =>
    rw [Form.mapM_eq_error filled] at built
    cases built
  | ok whole last =>
    obtain ⟨others, builtOthers, refilled⟩ := Form.mapM_eq_ok filled
    rw [builtOthers] at built
    cases built
    exact ⟨whole, refilled, bind_of_ok _ filled⟩

/-- The error of a part is the error of the form. -/
theorem buildForm_of_error {form : Form Descriptor} {draft middle : Draft} {error : NormalizeError}
    (failed : form.parts.mapM build draft = .error error middle) (id : TypeId) :
    buildForm build id form draft = .error error middle := by
  cases filled : form.mapM build draft with
  | ok whole last =>
    obtain ⟨others, builtOthers, -⟩ := Form.mapM_eq_ok filled
    rw [builtOthers] at failed
    cases failed
  | error cause last =>
    rw [Form.mapM_eq_error filled] at failed
    cases failed
    exact bind_of_error _ filled

/-- Where building the parts follows the rules, so does closing a node over them. -/
theorem follows_of_form {descriptor : Descriptor} {form : Form Descriptor} {draft : Draft}
    {id : TypeId} (unknown : draft.identities.find? descriptor.key = none)
    (opens : binary.opening pointerSize descriptor = .form form)
    (isNext : draft.store.next? = some id)
    (follows : ∀ part ∈ form.parts, ∀ middle : Draft,
      draft.store.size + 1 ≤ middle.store.size →
        Follows binary pointerSize middle part (build part middle)) :
    Follows binary pointerSize draft descriptor (buildForm build id form
      (draft.withNode (binary.isKeyed descriptor) descriptor.key id .void)) := by
  have large : draft.store.size + 1 ≤
      (draft.withNode (binary.isKeyed descriptor) descriptor.key id .void).store.size :=
    (TypeStore.size_push _ _).ge
  cases built : form.parts.mapM build
    (draft.withNode (binary.isKeyed descriptor) descriptor.key id .void) with
  | error error after =>
    rw [buildForm_of_error built]
    exact .failedPart unknown opens isNext (builds_of_mapM_eq_error follows large built)
  | ok items middle =>
    have parts := builds_of_mapM_eq_ok follows large built
    obtain ⟨filled, refilled, closing⟩ := exists_buildForm_eq built id
    rw [closing]
    cases laid : formNode filled middle with
    | ok node after =>
      rw [close, bind_of_ok _ laid]
      exact .form unknown opens isNext parts refilled laid
    | error error after =>
      obtain ⟨rfl, -⟩ := formNode_eq_error laid
      rw [close, bind_of_error _ laid]
      exact .failedLayout unknown opens isNext parts refilled laid

end Row

/-! ### One level -/

variable {binary : Binary} {pointerSize : UInt64} {descriptor : Descriptor} {draft : Draft}

/-- What building does on the first level. -/
theorem buildWithin_succ (binary : Binary) (pointerSize : UInt64) (levels : Nat)
    (descriptor : Descriptor) (draft : Draft) :
    buildWithin binary pointerSize (levels + 1) descriptor draft =
      match start binary pointerSize descriptor draft with
      | .ok (.done id) after => .ok id after
      | .ok (.instead target) after => buildWithin binary pointerSize levels target after
      | .ok (.parts id form) after =>
        buildForm (buildWithin binary pointerSize levels) id form after
      | .error error after => .error error after := by
  rw [buildWithin]
  cases begins : start binary pointerSize descriptor draft with
  | ok task after =>
    rw [bind_of_ok _ begins]
    cases task <;> rfl
  | error error after => rw [bind_of_error _ begins]

/-- All that the work on a descriptor can begin with. -/
inductive Begins (binary : Binary) (pointerSize : UInt64) (descriptor : Descriptor)
    (draft : Draft) : EStateM.Result NormalizeError Draft Task → Prop
  | done {id : TypeId} {after : Draft}
      (built : Builds binary pointerSize draft [descriptor] (.ok [id]) after) :
      Begins binary pointerSize descriptor draft (.ok (.done id) after)
  | instead {target : Descriptor} (unknown : draft.identities.find? descriptor.key = none)
      (opens : binary.opening pointerSize descriptor = .instead target) :
      Begins binary pointerSize descriptor draft (.ok (.instead target) draft)
  | parts {id : TypeId} {form : Form Descriptor}
      (unknown : draft.identities.find? descriptor.key = none)
      (opens : binary.opening pointerSize descriptor = .form form)
      (isNext : draft.store.next? = some id) :
      Begins binary pointerSize descriptor draft (.ok (.parts id form)
        (draft.withNode (binary.isKeyed descriptor) descriptor.key id .void))
  | failed {error : NormalizeError} {after : Draft}
      (built : Builds binary pointerSize draft [descriptor] (.error error) after) :
      Begins binary pointerSize descriptor draft (.error error after)

theorem begins_start (binary : Binary) (pointerSize : UInt64) (descriptor : Descriptor)
    (draft : Draft) :
    Begins binary pointerSize descriptor draft (start binary pointerSize descriptor draft) := by
  have begins := start_eq binary pointerSize descriptor draft
  cases unknown : draft.identities.find? descriptor.key with
  | some id =>
    simp only [unknown] at begins
    exact begins ▸ .done (.known unknown)
  | none =>
    cases opens : binary.opening pointerSize descriptor with
    | leaf node =>
      cases interned : draft.store.intern node with
      | some entry =>
        simp only [unknown, opens, interned] at begins
        exact begins ▸ .done (.leaf unknown opens interned)
      | none =>
        simp only [unknown, opens, interned] at begins
        exact begins.symm ▸ .failed (.full begins)
    | enumeration =>
      cases interned : draft.store.intern (.integer descriptor.width false) with
      | none =>
        simp only [unknown, opens, interned] at begins
        exact begins.symm ▸ .failed (.full begins)
      | some entry =>
        cases next : entry.2.next? with
        | some id =>
          simp only [unknown, opens, interned, next] at begins
          exact begins ▸ .done (.enumeration unknown opens interned next)
        | none =>
          simp only [unknown, opens, interned, next] at begins
          exact begins.symm ▸ .failed (.full begins)
    | instead target =>
      simp only [unknown, opens] at begins
      exact begins ▸ .instead unknown opens
    | form form =>
      cases next : draft.store.next? with
      | some id =>
        simp only [unknown, opens, next] at begins
        exact begins ▸ .parts unknown opens next
      | none =>
        simp only [unknown, opens, next] at begins
        exact begins.symm ▸ .failed (.full begins)
    | unhandled kind =>
      simp only [unknown, opens] at begins
      exact begins ▸ .failed (.unhandled unknown opens)

/-! ### The allowance is enough -/

/-- An allowance of two levels for every id that is left, and of one more or, for a descriptor
that stands for another one, two more. -/
def Enough (binary : Binary) (pointerSize : UInt64) (levels : Nat) (descriptor : Descriptor)
    (draft : Draft) : Prop :=
  2 * (TypeId.count - draft.store.size) + 1 ≤ levels ∧
    ∀ target, binary.opening pointerSize descriptor = .instead target →
      2 * (TypeId.count - draft.store.size) + 2 ≤ levels

theorem enough_of_le {levels : Nat} (enough : 2 * (TypeId.count - draft.store.size) + 2 ≤ levels) :
    Enough binary pointerSize levels descriptor draft :=
  ⟨Nat.le_of_succ_le enough, fun _ _ => enough⟩

/-- An allowance that is enough for a descriptor leaves enough for the one it stands for. -/
theorem Enough.instead {levels : Nat} {target : Descriptor}
    (enough : Enough binary pointerSize (levels + 1) descriptor draft)
    (opens : binary.opening pointerSize descriptor = .instead target) :
    Enough binary pointerSize levels target draft :=
  ⟨Nat.le_of_succ_le_succ (enough.2 target opens), fun further opensFurther =>
    absurd opensFurther (Binary.opening_ne_instead opens further)⟩

/-- An allowance that is enough for a descriptor leaves enough for its parts, once its node is
reserved. -/
theorem Enough.part {levels : Nat} {part : Descriptor} {id : TypeId} {middle : Draft}
    (enough : Enough binary pointerSize (levels + 1) descriptor draft)
    (isNext : draft.store.next? = some id)
    (grown : draft.store.size + 1 ≤ middle.store.size) :
    Enough binary pointerSize levels part middle := by
  have room := id.index_lt_count
  rw [TypeStore.next?_eq_some_iff.mp isNext] at room
  have here := enough.1
  exact enough_of_le (by omega)

/-- Building within an allowance that is enough follows the rules. -/
theorem follows_of_enough {levels : Nat}
    (enough : Enough binary pointerSize levels descriptor draft) :
    Follows binary pointerSize draft descriptor
      (buildWithin binary pointerSize levels descriptor draft) := by
  induction levels generalizing descriptor draft with
  | zero => exact absurd enough.1 (Nat.not_succ_le_zero _)
  | succ levels inductionHypothesis =>
    rw [buildWithin_succ]
    have begins := begins_start binary pointerSize descriptor draft
    generalize start binary pointerSize descriptor draft = begun at begins
    cases begins with
    | done built => exact built
    | failed built => exact built
    | @instead target unknown opens =>
      have same := inductionHypothesis (enough.instead opens)
      show Follows binary pointerSize draft descriptor
        (buildWithin binary pointerSize levels target draft)
      generalize buildWithin binary pointerSize levels target draft = result at same ⊢
      cases result with
      | ok id after => exact .instead unknown opens same
      | error error after => exact .instead unknown opens same
    | parts unknown opens isNext =>
      exact follows_of_form unknown opens isNext fun part isPart middle grown =>
        inductionHypothesis (enough.part isNext grown)

theorem enough_levels : Enough binary pointerSize levels descriptor draft :=
  enough_of_le (by unfold levels; omega)

/-- Building a descriptor follows the rules. -/
theorem follows_build (binary : Binary) (pointerSize : UInt64) (descriptor : Descriptor)
    (draft : Draft) :
    Follows binary pointerSize draft descriptor (build binary pointerSize descriptor draft) :=
  follows_of_enough enough_levels

/-- Building a row follows the rules. -/
theorem builds_of_mapM_build {row : List Descriptor} {ids : List TypeId} {before after : Draft}
    (done : row.mapM (build binary pointerSize) before = .ok ids after) :
    Builds binary pointerSize before row (.ok ids) after :=
  builds_of_mapM_eq_ok (fun part _ middle _ => follows_build binary pointerSize part middle)
    (Nat.zero_le _) done

/-- A row is built in the same way by two functions that agree on each of its descriptors in every
draft of a size or more. -/
theorem mapM_congr_of_size {first second : Descriptor → Building TypeId} {size : Nat}
    {row : List Descriptor}
    (follows : ∀ descriptor ∈ row, ∀ draft : Draft, size ≤ draft.store.size →
      Follows binary pointerSize draft descriptor (first descriptor draft))
    (same : ∀ descriptor ∈ row, ∀ draft : Draft, size ≤ draft.store.size →
      second descriptor draft = first descriptor draft)
    (large : size ≤ draft.store.size) : row.mapM second draft = row.mapM first draft := by
  induction row generalizing draft with
  | nil => rfl
  | cons part rest inductionHypothesis =>
    have head := follows part List.mem_cons_self draft large
    have samePart := same part List.mem_cons_self draft large
    rw [List.mapM_cons, List.mapM_cons]
    cases built : first part draft with
    | error error middle =>
      rw [built] at samePart
      rw [bind_of_error _ built, bind_of_error _ samePart]
    | ok id middle =>
      rw [built] at samePart head
      have sameRest := inductionHypothesis
        (fun other isOther => follows other (List.mem_cons_of_mem _ isOther))
        (fun other isOther => same other (List.mem_cons_of_mem _ isOther))
        (large.trans (Builds.size_le head))
      rw [bind_of_ok _ built, bind_of_ok _ samePart]
      cases builtRest : rest.mapM first middle with
      | ok ids last =>
        rw [builtRest] at sameRest
        rw [bind_of_ok _ builtRest, bind_of_ok _ sameRest]
      | error error last =>
        rw [builtRest] at sameRest
        rw [bind_of_error _ builtRest, bind_of_error _ sameRest]

/-- An allowance that is enough can be one level larger. -/
theorem buildWithin_succ_of_enough {levels : Nat}
    (enough : Enough binary pointerSize levels descriptor draft) :
    buildWithin binary pointerSize (levels + 1) descriptor draft =
      buildWithin binary pointerSize levels descriptor draft := by
  induction levels generalizing descriptor draft with
  | zero => exact absurd enough.1 (Nat.not_succ_le_zero _)
  | succ levels inductionHypothesis =>
    rw [buildWithin_succ, buildWithin_succ]
    have begins := begins_start binary pointerSize descriptor draft
    generalize start binary pointerSize descriptor draft = begun at begins
    cases begins with
    | done | failed => rfl
    | instead unknown opens => exact inductionHypothesis (enough.instead opens)
    | @parts id form unknown opens isNext =>
      have reserved : draft.store.size + 1 ≤
          (draft.withNode (binary.isKeyed descriptor) descriptor.key id .void).store.size :=
        (TypeStore.size_push draft.store .void).ge
      have follows : ∀ part ∈ form.parts, ∀ middle : Draft,
          draft.store.size + 1 ≤ middle.store.size →
            Follows binary pointerSize middle part
              (buildWithin binary pointerSize levels part middle) :=
        fun part _ middle grown => follows_of_enough (enough.part isNext grown)
      exact buildForm_congr id (mapM_congr_of_size follows
        (fun part _ middle grown => inductionHypothesis (enough.part isNext grown)) reserved)

/-- A larger allowance makes no difference. -/
theorem buildWithin_eq_build {allowance : Nat} (enough : levels ≤ allowance) :
    buildWithin binary pointerSize allowance descriptor draft =
      build binary pointerSize descriptor draft := by
  induction enough with
  | refl => rfl
  | @step allowance enough inductionHypothesis =>
    have wide : 2 * TypeId.count + 2 ≤ allowance := enough
    have room : 2 * (TypeId.count - draft.store.size) + 2 ≤ allowance := by omega
    exact (buildWithin_succ_of_enough (enough_of_le room)).trans inductionHypothesis

/-- Building a descriptor is to begin the work on it, to build its parts and to close its node. -/
theorem build_eq (binary : Binary) (pointerSize : UInt64) (descriptor : Descriptor)
    (draft : Draft) :
    build binary pointerSize descriptor draft =
      match start binary pointerSize descriptor draft with
      | .ok (.done id) after => .ok id after
      | .ok (.instead target) after => build binary pointerSize target after
      | .ok (.parts id form) after => buildForm (build binary pointerSize) id form after
      | .error error after => .error error after :=
  (buildWithin_succ_of_enough enough_levels).symm.trans (buildWithin_succ _ _ _ _ _)

/-- A descriptor with a known key needs no building. -/
theorem build_of_known {id : TypeId} (known : draft.identities.find? descriptor.key = some id) :
    build binary pointerSize descriptor draft = .ok id draft := by
  have begins := start_eq binary pointerSize descriptor draft
  simp only [known] at begins
  rw [build_eq, begins]

/-- A leaf is interned. -/
theorem build_of_leaf {node : TypeNode TypeId} {id : TypeId} {store : TypeStore}
    (unknown : draft.identities.find? descriptor.key = none)
    (opens : binary.opening pointerSize descriptor = .leaf node)
    (interned : draft.store.intern node = some (id, store)) :
    build binary pointerSize descriptor draft = .ok id (draft.withStore store) := by
  have begins := start_eq binary pointerSize descriptor draft
  simp only [unknown, opens, interned] at begins
  rw [build_eq, begins]

/-- An enumeration is added as new, behind the integer it consists of. -/
theorem build_of_enumeration {underlying : TypeId} {store : TypeStore}
    (unknown : draft.identities.find? descriptor.key = none)
    (opens : binary.opening pointerSize descriptor = .enumeration)
    (interned : draft.store.intern (.integer descriptor.width false) = some (underlying, store)) :
    build binary pointerSize descriptor draft =
      match store.next? with
      | some id => .ok id ((draft.withStore store).withNode (binary.isKeyed descriptor)
          descriptor.key id (.enumeration underlying))
      | none => .error .storeFull (draft.withStore store) := by
  have begins := start_eq binary pointerSize descriptor draft
  cases next : store.next? with
  | some id =>
    simp only [unknown, opens, interned, next] at begins
    rw [build_eq, begins]
  | none =>
    simp only [unknown, opens, interned, next] at begins
    rw [build_eq, begins]

/-- The work that is left to another descriptor does what the work on that one does. -/
theorem build_of_instead {target : Descriptor}
    (unknown : draft.identities.find? descriptor.key = none)
    (opens : binary.opening pointerSize descriptor = .instead target) :
    build binary pointerSize descriptor draft = build binary pointerSize target draft := by
  have begins := start_eq binary pointerSize descriptor draft
  simp only [unknown, opens] at begins
  rw [build_eq, begins]

/-- The work on a descriptor with parts reserves a node for it and goes on with the parts. -/
theorem build_of_form {form : Form Descriptor}
    (unknown : draft.identities.find? descriptor.key = none)
    (opens : binary.opening pointerSize descriptor = .form form) :
    build binary pointerSize descriptor draft =
      match draft.store.next? with
      | some id => buildForm (build binary pointerSize) id form
          (draft.withNode (binary.isKeyed descriptor) descriptor.key id .void)
      | none => .error .storeFull draft := by
  have begins := start_eq binary pointerSize descriptor draft
  cases next : draft.store.next? with
  | some id =>
    simp only [unknown, opens, next] at begins
    rw [build_eq, begins]
  | none =>
    simp only [unknown, opens, next] at begins
    rw [build_eq, begins]

/-! ### Smaller allowances -/

/-- The second of two runs ends as the first does, unless the first found no id or no level left. -/
def Continues {Value : Type} (first second : EStateM.Result NormalizeError Draft Value) : Prop :=
  first = second ∨ ∃ after, first = .error .storeFull after

namespace Continues

variable {Value Other : Type}

theorem refl (result : EStateM.Result NormalizeError Draft Value) : Continues result result :=
  Or.inl rfl

theorem trans {first second third : EStateM.Result NormalizeError Draft Value}
    (goesOn : Continues first second) (further : Continues second third) :
    Continues first third := by
  rcases goesOn with rfl | full
  · exact further
  · exact Or.inr full

theorem bind {first second : Building Value} {next last : Value → Building Other}
    (goesOn : Continues (first draft) (second draft))
    (further : ∀ value middle, Continues (next value middle) (last value middle)) :
    Continues ((first >>= next) draft) ((second >>= last) draft) := by
  rcases goesOn with same | ⟨after, full⟩
  · cases ended : first draft with
    | ok value middle =>
      rw [ended] at same
      rw [bind_of_ok _ ended, bind_of_ok _ same.symm]
      exact further value middle
    | error error middle =>
      rw [ended] at same
      rw [bind_of_error _ ended, bind_of_error _ same.symm]
      exact refl _
  · exact Or.inr ⟨after, bind_of_error _ full⟩

variable {Part : Type} {build rebuild : Part → Building Value}

theorem mapM (goesOn : ∀ part middle, Continues (build part middle) (rebuild part middle))
    (row : List Part) (draft : Draft) :
    Continues (row.mapM build draft) (row.mapM rebuild draft) := by
  induction row generalizing draft with
  | nil => exact refl _
  | cons part rest inductionHypothesis =>
    rw [List.mapM_cons, List.mapM_cons]
    exact (goesOn part draft).bind fun _ middle =>
      (inductionHypothesis middle).bind fun _ _ => refl _

theorem formMapM (goesOn : ∀ part middle, Continues (build part middle) (rebuild part middle))
    (form : Form Part) (draft : Draft) :
    Continues (form.mapM build draft) (form.mapM rebuild draft) := by
  cases form with
  | pointer target | array target | typedef target =>
    exact (goesOn target draft).bind fun _ _ => refl _
  | function result parameters variadic =>
    exact (goesOn result draft).bind fun _ middle =>
      (mapM goesOn parameters middle).bind fun _ _ => refl _
  | struct width spans =>
    exact (mapM (fun span middle => (goesOn span.item middle).bind fun _ _ => refl _) spans
      draft).bind fun _ _ => refl _
  | union members => exact (mapM goesOn members draft).bind fun _ _ => refl _

end Continues

theorem continues_buildWithin_succ (levels : Nat) (descriptor : Descriptor) (draft : Draft) :
    Continues (buildWithin binary pointerSize levels descriptor draft)
      (buildWithin binary pointerSize (levels + 1) descriptor draft) := by
  induction levels generalizing descriptor draft with
  | zero => exact Or.inr ⟨draft, rfl⟩
  | succ levels inductionHypothesis =>
    refine (Continues.refl _).bind fun task middle => ?_
    cases task with
    | done id => exact Continues.refl _
    | instead target => exact inductionHypothesis target middle
    | parts id form =>
      exact (Continues.formMapM inductionHypothesis form middle).bind fun _ _ => Continues.refl _

/-- A run with a smaller allowance ends in the same way, unless it finds no id or no level left. -/
theorem continues_build (allowance : Nat) (descriptor : Descriptor) (draft : Draft) :
    Continues (buildWithin binary pointerSize allowance descriptor draft)
      (build binary pointerSize descriptor draft) := by
  rw [← buildWithin_eq_build (Nat.le_max_left levels allowance)]
  have enough := Nat.le_max_right levels allowance
  generalize max levels allowance = more at enough
  induction enough with
  | refl => exact Continues.refl _
  | step _ inductionHypothesis =>
    exact inductionHypothesis.trans (continues_buildWithin_succ _ descriptor draft)

end Building

end BinaryFacts
