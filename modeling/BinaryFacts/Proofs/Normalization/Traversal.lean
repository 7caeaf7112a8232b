/-
This file proves that building on a stack of tasks does what building by recursion does, and in how
many steps.

The loop works off the frames of a row of descriptors as the recursion builds the row, and leaves
the ids of the row on the stack of ids, whatever lies below on both stacks. The steps it takes are
bounded by the levels to which the recursion goes down: every descriptor takes a step to begin it,
a step to close it, and the steps of its parts.
-/

import BinaryFacts.Normalization.Normalizer
import BinaryFacts.Normalization.Traversal
import BinaryFacts.Proofs.Normalization.Termination

namespace BinaryFacts

namespace Building

variable {binary : Binary} {pointerSize : UInt64}

/-! ### Single steps of the loop -/

/-- What the loop does with a descriptor. -/
theorem traverseWithin_visit (binary : Binary) (pointerSize : UInt64) (root : String)
    (steps : Nat) (descriptor : Descriptor) (stack : List Frame) (built : List TypeId)
    (draft : Draft) :
    traverseWithin binary pointerSize root (steps + 1) (.visit descriptor :: stack) built draft =
      match start binary pointerSize descriptor draft with
      | .ok (.done id) after =>
        traverseWithin binary pointerSize root steps stack (id :: built) after
      | .ok (.instead target) after =>
        traverseWithin binary pointerSize root steps (.visit target :: stack) built after
      | .ok (.parts id form) after =>
        traverseWithin binary pointerSize root steps
          (form.parts.map .visit ++ .finish id form :: stack) built after
      | .error error after => .error error after := by
  rw [traverseWithin]
  cases begins : start binary pointerSize descriptor draft with
  | ok task after =>
    rw [bind_of_ok _ begins]
    cases task <;> rfl
  | error error after => rw [bind_of_error _ begins]

/-- The loop closes a node whose parts are the newest ids. -/
theorem traverseWithin_finish {form : Form Descriptor} {items : List TypeId} {filled : Form TypeId}
    (refilled : form.refill? items = some filled) (root : String) (steps : Nat) (id : TypeId)
    (stack : List Frame) (built : List TypeId) (draft : Draft) :
    traverseWithin binary pointerSize root (steps + 1) (.finish id form :: stack)
        (items.reverse ++ built) draft =
      match close id filled draft with
      | .ok last after => traverseWithin binary pointerSize root steps stack (last :: built) after
      | .error error after => .error error after := by
  have arity : items.reverse.length = form.parts.length :=
    (List.length_reverse).trans (Form.length_of_refill? refilled)
  have newest : ((items.reverse ++ built).take form.parts.length).reverse = items := by
    rw [← arity, List.take_left, List.reverse_reverse]
  have older : (items.reverse ++ built).drop form.parts.length = built := by
    rw [← arity, List.drop_left]
  rw [traverseWithin]
  simp only [newest, refilled, older]
  cases closes : close id filled draft with
  | ok last after => rw [bind_of_ok _ closes]
  | error error after => rw [bind_of_error _ closes]

/-! ### The loop follows the recursion -/

/-- Where the loop is once the recursion has built a row: the ids lie on the stack of ids, or an
error has ended it. -/
def arrival (binary : Binary) (pointerSize : UInt64) (root : String) (more : Nat)
    (stack : List Frame) (built : List TypeId) :
    EStateM.Result NormalizeError Draft (List TypeId) →
      EStateM.Result NormalizeError Draft (Option (List TypeId))
  | .ok ids after => traverseWithin binary pointerSize root more stack (ids.reverse ++ built) after
  | .error error after => .error error after

/-- The loop works off the frames of a row as the recursion builds the row, in at most so many
steps. -/
def WorksOff (binary : Binary) (pointerSize : UInt64) (steps : Nat) (row : List Descriptor)
    (draft : Draft) : Prop :=
  ∃ taken ≤ steps, ∀ root more stack built,
    traverseWithin binary pointerSize root (more + taken) (row.map .visit ++ stack) built draft =
      arrival binary pointerSize root more stack built
        (row.mapM (build binary pointerSize) draft)

theorem mapM_singleton_eq (descriptor : Descriptor) (draft : Draft) :
    [descriptor].mapM (build binary pointerSize) draft =
      match build binary pointerSize descriptor draft with
      | .ok id after => .ok [id] after
      | .error error after => .error error after := by
  rw [List.mapM_cons]
  cases built : build binary pointerSize descriptor draft with
  | ok id after =>
    rw [bind_of_ok _ built]
    rfl
  | error error after => rw [bind_of_error _ built]

section Rows

variable {descriptor target : Descriptor} {rest : List Descriptor} {draft middle after : Draft}
  {steps others : Nat}

theorem worksOff_nil (draft : Draft) : WorksOff binary pointerSize 0 [] draft :=
  ⟨0, Nat.le_refl 0, fun _ _ _ _ => rfl⟩

/-- The frames of a row come one after the other. -/
theorem WorksOff.cons (head : WorksOff binary pointerSize steps [descriptor] draft)
    (tail : ∀ id middle, build binary pointerSize descriptor draft = .ok id middle →
      WorksOff binary pointerSize others rest middle) :
    WorksOff binary pointerSize (steps + others) (descriptor :: rest) draft := by
  obtain ⟨taken, few, first⟩ := head
  cases built : build binary pointerSize descriptor draft with
  | error error middle =>
    refine ⟨taken, few.trans (Nat.le_add_right _ _), fun root more stack ids => ?_⟩
    refine (first root more (rest.map .visit ++ stack) ids).trans ?_
    rw [List.mapM_cons, List.mapM_cons, bind_of_error _ built, bind_of_error _ built]
    rfl
  | ok id middle =>
    obtain ⟨takenRest, fewRest, further⟩ := tail id middle built
    refine ⟨taken + takenRest, Nat.add_le_add few fewRest, fun root more stack ids => ?_⟩
    rw [Nat.add_comm taken, ← Nat.add_assoc]
    refine (first root (more + takenRest) (rest.map .visit ++ stack) ids).trans ?_
    rw [List.mapM_cons, List.mapM_cons, bind_of_ok _ built, bind_of_ok _ built]
    refine (further root more stack (id :: ids)).trans ?_
    cases builtRest : rest.mapM (build binary pointerSize) middle with
    | error error last => rw [bind_of_error _ builtRest]; rfl
    | ok items last =>
      rw [bind_of_ok _ builtRest]
      simp only [arrival, pure, EStateM.pure, List.reverse_cons, List.append_assoc,
        List.cons_append, List.nil_append]

/-- A row takes as many steps as its members together. -/
theorem worksOff_row {row : List Descriptor}
    (each : ∀ completed part rest ids middle, row = completed ++ part :: rest →
      completed.mapM (build binary pointerSize) draft = .ok ids middle →
        WorksOff binary pointerSize steps [part] middle) :
    WorksOff binary pointerSize (row.length * steps) row draft := by
  induction row generalizing draft with
  | nil =>
    rw [List.length_nil, Nat.zero_mul]
    exact worksOff_nil draft
  | cons first rest inductionHypothesis =>
    rw [List.length_cons, Nat.succ_mul, Nat.add_comm]
    refine (each [] first rest [] draft rfl rfl).cons fun id middle built => ?_
    refine inductionHypothesis fun completed part others ids last splits builtBefore => ?_
    refine each (first :: completed) part others (id :: ids) last ?_ ?_
    · rw [splits, List.cons_append]
    · rw [List.mapM_cons, bind_of_ok _ built, bind_of_ok _ builtBefore]
      rfl

theorem WorksOff.mono (works : WorksOff binary pointerSize steps rest draft)
    (enough : steps ≤ others) : WorksOff binary pointerSize others rest draft := by
  obtain ⟨taken, few, follows⟩ := works
  exact ⟨taken, few.trans enough, follows⟩

theorem worksOff_of_done {id : TypeId}
    (begins : start binary pointerSize descriptor draft = .ok (.done id) after) :
    WorksOff binary pointerSize 1 [descriptor] draft := by
  have same := build_eq binary pointerSize descriptor draft
  simp only [begins] at same
  refine ⟨1, Nat.le_refl 1, fun root more stack built => ?_⟩
  refine (traverseWithin_visit binary pointerSize root more descriptor stack built draft).trans ?_
  rw [mapM_singleton_eq, same, begins]
  rfl

theorem worksOff_of_error {error : NormalizeError}
    (begins : start binary pointerSize descriptor draft = .error error after) :
    WorksOff binary pointerSize 1 [descriptor] draft := by
  have same := build_eq binary pointerSize descriptor draft
  simp only [begins] at same
  refine ⟨1, Nat.le_refl 1, fun root more stack built => ?_⟩
  refine (traverseWithin_visit binary pointerSize root more descriptor stack built draft).trans ?_
  rw [mapM_singleton_eq, same, begins]
  rfl

/-- A descriptor that stands for another one takes one step more. -/
theorem WorksOff.instead
    (begins : start binary pointerSize descriptor draft = .ok (.instead target) after)
    (works : WorksOff binary pointerSize steps [target] after) :
    WorksOff binary pointerSize (steps + 1) [descriptor] draft := by
  have same := build_eq binary pointerSize descriptor draft
  simp only [begins] at same
  obtain ⟨taken, few, follows⟩ := works
  refine ⟨taken + 1, Nat.succ_le_succ few, fun root more stack built => ?_⟩
  refine (traverseWithin_visit binary pointerSize root (more + taken) descriptor stack built
    draft).trans ?_
  rw [mapM_singleton_eq, same, begins, ← mapM_singleton_eq]
  exact follows root more stack built

/-- A descriptor with parts takes a step to begin it and one to close it. -/
theorem WorksOff.parts {id : TypeId} {form : Form Descriptor}
    (begins : start binary pointerSize descriptor draft = .ok (.parts id form) after)
    (works : WorksOff binary pointerSize steps form.parts after) :
    WorksOff binary pointerSize (steps + 2) [descriptor] draft := by
  have same := build_eq binary pointerSize descriptor draft
  simp only [begins] at same
  obtain ⟨taken, few, follows⟩ := works
  refine ⟨1 + taken + 1, by omega, fun root more stack built => ?_⟩
  refine (traverseWithin_visit binary pointerSize root (more + (1 + taken)) descriptor stack built
    draft).trans ?_
  rw [mapM_singleton_eq, same, begins, ← Nat.add_assoc]
  refine (follows root (more + 1) (.finish id form :: stack) built).trans ?_
  cases builtParts : form.parts.mapM (build binary pointerSize) after with
  | error error middle =>
    rw [buildForm_of_error builtParts]
    rfl
  | ok items middle =>
    obtain ⟨filled, refilled, closing⟩ := exists_buildForm_eq builtParts id
    rw [closing]
    refine (traverseWithin_finish refilled root more id stack built middle).trans ?_
    cases close id filled middle <;> rfl

end Rows

/-- The steps for a descriptor whose work goes down less than some levels, if no form has more than
`breadth` parts. -/
def stepsWithin (breadth : Nat) : Nat → Nat
  | 0 => 0
  | levels + 1 => breadth * stepsWithin breadth levels + 2

/-- The loop works off a descriptor in as many steps as its levels allow. -/
theorem worksOff_of_goesDown {family : Set Descriptor} {breadth : Nat}
    (closed : binary.IsClosed family)
    (narrow : ∀ descriptor ∈ family, (binary.successors descriptor).length ≤ breadth)
    {levels : Nat} {descriptor : Descriptor} {draft : Draft} (isMember : descriptor ∈ family)
    (down : GoesDown binary pointerSize levels descriptor draft) :
    WorksOff binary pointerSize (stepsWithin breadth levels) [descriptor] draft := by
  induction levels generalizing descriptor draft with
  | zero => exact down.elim
  | succ levels inductionHypothesis =>
    have narrowHere := narrow descriptor isMember
    rw [stepsWithin]
    cases begins : start binary pointerSize descriptor draft with
    | error error after => exact (worksOff_of_error begins).mono (by omega)
    | ok task after =>
      cases task with
      | done id => exact (worksOff_of_done begins).mono (by omega)
      | instead target =>
        obtain ⟨-, opens, -⟩ := start_eq_instead begins
        rw [Binary.successors_of_opening_instead opens] at narrowHere
        have product := Nat.mul_le_mul_right (stepsWithin breadth levels) narrowHere
        rw [List.length_singleton, Nat.one_mul] at product
        have works := inductionHypothesis
          (closed _ isMember _ (Binary.mem_successors_of_opening_instead opens))
          (down.1 target after begins)
        exact (works.instead begins).mono (by omega)
      | parts id form =>
        obtain ⟨-, opens, -, -⟩ := start_eq_parts begins
        rw [Binary.successors_of_opening_form opens] at narrowHere
        have product := Nat.mul_le_mul_right (stepsWithin breadth levels) narrowHere
        refine (WorksOff.parts begins (worksOff_row ?_)).mono (Nat.add_le_add_right product 2)
        intro completed part rest ids middle splits built
        have isPart : part ∈ form.parts := by
          rw [splits]
          exact List.mem_append_right _ List.mem_cons_self
        exact inductionHypothesis
          (closed _ isMember _ (Binary.mem_successors_of_opening_form opens isPart))
          (down.2 id form after begins completed part rest ids middle splits built)

/-- No form within reach of a request has more parts than there are descriptors within reach. -/
theorem GoesDown.worksOff {levels : Nat} {descriptor : Descriptor} {draft : Draft}
    (down : GoesDown binary pointerSize levels descriptor draft) :
    WorksOff binary pointerSize (stepsWithin (binary.reachCount descriptor) levels) [descriptor]
      draft :=
  worksOff_of_goesDown (binary.isClosed_closure [descriptor])
    (fun _ isReached =>
      Binary.length_successors_le (binary.closure_subset_withinReach descriptor isReached))
    (Binary.mem_closure List.mem_cons_self) down

/-- Once a descriptor is worked off, one step more finds the stack empty. -/
theorem WorksOff.traverseWithin_eq {steps : Nat} {descriptor : Descriptor} {draft : Draft}
    (works : WorksOff binary pointerSize steps [descriptor] draft) (root : String) {allowed : Nat}
    (enough : steps + 1 ≤ allowed) :
    traverseWithin binary pointerSize root allowed [.visit descriptor] [] draft =
      match build binary pointerSize descriptor draft with
      | .ok id after => .ok (some [id]) after
      | .error error after => .error error after := by
  obtain ⟨taken, few, follows⟩ := works
  obtain ⟨more, rfl⟩ := Nat.exists_eq_add_of_le (show taken + 1 ≤ allowed by omega)
  have arrives := follows root (more + 1) [] []
  rw [mapM_singleton_eq] at arrives
  rw [show taken + 1 + more = more + 1 + taken by omega]
  refine Eq.trans arrives ?_
  cases build binary pointerSize descriptor draft <;> rfl

/-- The steps of any request are bounded, if only by the ids. -/
theorem exists_worksOff (binary : Binary) (pointerSize : UInt64) (descriptor : Descriptor)
    (draft : Draft) : ∃ steps, WorksOff binary pointerSize steps [descriptor] draft :=
  ⟨_, (goesDown_of_enough enough_levels).worksOff⟩

end Building

/-- A bound on the steps of a request in which no anonymous aggregate is nested in itself. It
depends on the request and on the registered types only. -/
def Binary.stepBound (binary : Binary) (descriptor : Descriptor) : Nat :=
  Building.stepsWithin (binary.reachCount descriptor) (binary.levelBound descriptor) + 1

namespace Normalizer

/-- Normalization ends. If no anonymous aggregate to which a descriptor leads is nested in itself,
the loop works off its stack within a number of steps that depends on the descriptor and the
registered types only, whatever the normalizer has answered before. It comes to a single id, to a
descriptor of an unknown kind, or to a node for which no id is left, and the request is answered
so. -/
theorem traverseWithin_stepBound (binary : Binary) (normalizer : Normalizer)
    (descriptor : Descriptor) (unnested : binary.Unnested (binary.closure [descriptor])) :
    ∀ allowed ≥ binary.stepBound descriptor,
      (∃ id after, Building.traverseWithin binary normalizer.pointerSize descriptor.key allowed
          [.visit descriptor] [] normalizer.draft = .ok (some [id]) after ∧
        normalize binary descriptor normalizer = .ok id (normalizer.commit after)) ∨
      (∃ kind key after, Building.traverseWithin binary normalizer.pointerSize descriptor.key
          allowed [.visit descriptor] [] normalizer.draft = .error (.unhandledKind kind key) after ∧
        normalize binary descriptor normalizer =
          .error (.unhandledKind kind key) (normalizer.rollback normalizer.store.size after)) ∨
      ∃ after, Building.traverseWithin binary normalizer.pointerSize descriptor.key allowed
          [.visit descriptor] [] normalizer.draft = .error .storeFull after ∧
        TypeId.count ≤ after.store.size ∧
        normalize binary descriptor normalizer =
          .error .storeFull (normalizer.rollback normalizer.store.size after) := by
  intro allowed enough
  have works :=
    (Building.goesDown_levelBound unnested normalizer.pointerSize normalizer.draft).worksOff
  have follows := Building.follows_build binary normalizer.pointerSize descriptor normalizer.draft
  rw [works.traverseWithin_eq descriptor.key enough, normalize]
  generalize Building.build binary normalizer.pointerSize descriptor normalizer.draft = result
    at follows ⊢
  cases result with
  | ok id after => exact Or.inl ⟨id, after, rfl, rfl⟩
  | error error after =>
    by_cases full : error = .storeFull
    · subst full
      exact Or.inr (Or.inr ⟨after, rfl, Building.Builds.count_le_size follows rfl, rfl⟩)
    · obtain ⟨unknown, -, kind, -, rfl⟩ := Building.Builds.exists_named
        (binary.isClosed_closure [descriptor]) follows rfl full
        (fun other member => Binary.mem_closure member)
      exact Or.inr (Or.inl ⟨kind, unknown.key, after, rfl, rfl⟩)

/-- A reference to a typedef. -/
def aliasOf (name : String) : Descriptor := .reference .typedef name none

/-- A binary with a structure that points to itself, a typedef of itself and two references that
lead to each other. -/
def tangledBinary : Binary :=
  (((Binary.linuxAmd64.registerType "record" none
      (.aggregate .structType (some "record") 8
        [.ofType "next" 0 (.pointer (.reference .structType "record" none) 8)])).registerType
    "alias" none (aliasOf "alias")).registerType
    "ping" none (.reference .structType "pong" none)).registerType
    "pong" none (.reference .structType "ping" none)

/-- An anonymous structure of them. -/
def tangledRecord : Descriptor :=
  .aggregate .structType none 24
    [⟨"record", 0, 8, .reference .structType "record" none⟩,
      ⟨"alias", 8, 8, aliasOf "alias"⟩,
      ⟨"ping", 16, 8, .reference .structType "ping" none⟩]

/-- What the members of this structure lead to. -/
def tangledFamily : Set Descriptor :=
  {.reference .structType "record" none, aliasOf "alias",
    .reference .structType "ping" none,
    .aggregate .structType (some "record") 8
      [.ofType "next" 0 (.pointer (.reference .structType "record" none) 8)],
    .pointer (.reference .structType "record" none) 8}

theorem isClosed_tangledFamily : tangledBinary.IsClosed tangledFamily := by
  intro descriptor member next follows
  rcases member with rfl | rfl | rfl | rfl | rfl
  · rw [List.mem_singleton.mp follows]
    exact Or.inr (Or.inr (Or.inr (Or.inl rfl)))
  · rw [List.mem_singleton.mp follows]
    exact Or.inr (Or.inl rfl)
  · cases follows
  · rw [List.mem_singleton.mp follows]
    exact Or.inr (Or.inr (Or.inr (Or.inr rfl)))
  · rw [List.mem_singleton.mp follows]
    exact Or.inl rfl

/-- The only anonymous aggregate is the structure itself, and its members do not lead back. -/
theorem unnested_tangledRecord :
    tangledBinary.Unnested (tangledBinary.closure [tangledRecord]) := by
  have leads : ∀ next ∈ tangledBinary.successors tangledRecord, next ∈ tangledFamily := by
    intro next follows
    simp only [Binary.successors, tangledRecord, Descriptor.aggregate, Kind.parts, List.map_cons,
      List.map_nil, List.mem_cons, List.not_mem_nil, or_false] at follows
    rcases follows with rfl | rfl | rfl
    · exact Or.inl rfl
    · exact Or.inr (Or.inl rfl)
    · exact Or.inr (Or.inr (Or.inl rfl))
  have outside : tangledRecord ∉ tangledFamily := by
    intro member
    rcases member with same | same | same | same | same <;>
      exact absurd (congrArg Descriptor.key same) (by decide)
  have requested : ∀ request ∈ [tangledRecord], request ∈ insert tangledRecord tangledFamily :=
    fun request isRequest => Or.inl (List.mem_singleton.mp isRequest)
  intro aggregate member anonymous
  rcases Binary.closure_subset requested (isClosed_tangledFamily.insert leads) member with
    rfl | inner
  · exact Binary.not_transGen_of_notMem isClosed_tangledFamily leads outside
  · rcases inner with rfl | rfl | rfl | rfl | rfl <;> cases anonymous

/-- The work on the anonymous structure ends with an id. -/
theorem traverseWithin_stepBound_tangledRecord :
    tangledBinary.Unnested (tangledBinary.closure [tangledRecord]) ∧
      ∀ allowed ≥ tangledBinary.stepBound tangledRecord, ∃ after,
        Building.traverseWithin tangledBinary 8 tangledRecord.key allowed [.visit tangledRecord] []
          (new 8).draft = .ok (some [⟨0⟩]) after := by
  refine ⟨unnested_tangledRecord, fun allowed enough => ?_⟩
  have answer : ∃ after, normalize tangledBinary tangledRecord (new 8) = .ok ⟨0⟩ after :=
    ⟨_, rfl⟩
  obtain ⟨last, answer⟩ := answer
  rcases traverseWithin_stepBound tangledBinary (new 8) tangledRecord unnested_tangledRecord
    allowed enough with
    ⟨id, after, arrives, done⟩ | ⟨kind, key, after, -, failed⟩ | ⟨after, -, -, failed⟩
  · rw [answer] at done
    cases done
    exact ⟨after, arrives⟩
  · rw [answer] at failed
    cases failed
  · rw [answer] at failed
    cases failed

end Normalizer

end BinaryFacts
