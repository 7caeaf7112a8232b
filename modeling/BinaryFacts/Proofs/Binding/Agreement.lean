/-
This file carries the agreement of normalizers over to what is made of their types: where the
parameters and the result of a function are passed, and what its registers hold along the way.
Register classes and void results depend on the meaning of types only, so both normalizers give
the same storages and entries in the same order, with types that mean the same.
-/

import BinaryFacts.Proofs.Normalization.Agreement
import BinaryFacts.Proofs.TypeStore.Peeling

namespace BinaryFacts

/-- The error of a request that found no id left. -/
inductive BindError.IsFull : BindError → Prop
  | normalize {error : NormalizeError} (isFull : error.IsFull) : IsFull (.normalize error)

namespace Normalizer

variable {left right leftLater rightLater : Normalizer} {Error Value : Type}

/-! ### Values that mention types -/

/-- A comparison of values that mention types, each in its own normalizer, that later requests do
not change. -/
def Lasting (alike : Value → Normalizer → Value → Normalizer → Prop) : Prop :=
  ∀ {value other left right leftLater rightLater}, alike value left other right → left.Sound →
    right.Sound → left.Retains leftLater → right.Retains rightLater →
      alike value leftLater other rightLater

/-- Two locations with the same storage and types that mean the same. -/
structure SameLocation (location : Location) (left : Normalizer) (other : Location)
    (right : Normalizer) : Prop where
  storage : location.storage = other.storage
  type : SameType location.type left other.type right

/-- The same pointer, or types that mean the same. -/
inductive SameContent : RegisterContent → Normalizer → RegisterContent → Normalizer → Prop
  | value (address : UInt64) (left right : Normalizer) :
      SameContent (.value address) left (.value address) right
  | type {id other : TypeId} {left right : Normalizer} (same : SameType id left other right) :
      SameContent (.type id) left (.type other) right

/-- Two entries for the same register at the same address with the same contents. -/
structure SameEntry (entry : TimelineEntry) (left : Normalizer) (other : TimelineEntry)
    (right : Normalizer) : Prop where
  address : entry.address = other.address
  register : entry.register = other.register
  content : SameContent entry.content left other.content right

/-- Two rows of values that are alike one by one. -/
def SameRow (alike : Value → Normalizer → Value → Normalizer → Prop) (row : List Value)
    (left : Normalizer) (others : List Value) (right : Normalizer) : Prop :=
  List.Forall₂ (fun value other => alike value left other right) row others

theorem lasting_sameLocation : Lasting SameLocation := by
  intro location other left right leftLater rightLater same soundLeft soundRight retains retainsToo
  exact ⟨same.storage, same.type.retained soundLeft soundRight retains retainsToo⟩

theorem lasting_sameContent : Lasting SameContent := by
  intro content other left right leftLater rightLater same soundLeft soundRight retains retainsToo
  cases same with
  | value address => exact .value address _ _
  | type sameType => exact .type (sameType.retained soundLeft soundRight retains retainsToo)

theorem lasting_sameEntry : Lasting SameEntry := by
  intro entry other left right leftLater rightLater same soundLeft soundRight retains retainsToo
  exact ⟨same.address, same.register,
    lasting_sameContent same.content soundLeft soundRight retains retainsToo⟩

theorem Lasting.row {alike : Value → Normalizer → Value → Normalizer → Prop}
    (lasting : Lasting alike) : Lasting (SameRow alike) :=
  fun same soundLeft soundRight retains retainsToo =>
    List.Forall₂.imp (fun _ _ alike => lasting alike soundLeft soundRight retains retainsToo) same

/-! ### Parameters and results -/

section

variable {binary : Binary} {descriptor : Descriptor} {normalizer last : Normalizer}

theorem normalizeBound_of_ok {id : TypeId}
    (done : normalize binary descriptor normalizer = .ok id last) :
    normalizeBound binary descriptor normalizer = .ok id last := by
  rw [normalizeBound, EStateM.adaptExcept, done]

theorem normalizeBound_of_error {cause : NormalizeError}
    (failed : normalize binary descriptor normalizer = .error cause last) :
    normalizeBound binary descriptor normalizer = .error (.normalize cause) last := by
  rw [normalizeBound, EStateM.adaptExcept, failed]

end

theorem parameterClass_eq (binary : Binary) (function : BinaryFunction) (parameter : Variable)
    (id : TypeId) (normalizer : Normalizer) :
    parameterClass binary function parameter id normalizer =
      match normalizer.store.registerClass? id with
      | some kind => .ok kind normalizer
      | none =>
        .error
          (if normalizer.store.isVoidPeeled id && binary.isDeclaredVoid parameter.type then
            .voidParameter function.name parameter.name
          else .noRegisterClass function.name parameter.name) normalizer := by
  unfold parameterClass
  rw [bind_of_ok _ (show (get : Normalizing BindError Normalizer) normalizer =
    .ok normalizer normalizer from rfl)]
  cases normalizer.store.registerClass? id with
  | some kind => rfl
  | none =>
    cases normalizer.store.isVoidPeeled id && binary.isDeclaredVoid parameter.type <;> rfl

section

variable {binary : Binary} {pointerSize : UInt64} {family : Set Descriptor} {passed : Error → Prop}
  {alike : Value → Normalizer → Value → Normalizer → Prop}

/-- Two requests that end together keep what was there before them. -/
theorem Together.retaining {run : Normalizing Error Value}
    (same : Together binary pointerSize family passed alike (run left) (run right))
    (ready : BothReady binary pointerSize family left right)
    (keeps : ∀ mark : Normalizer, Keeps (fun later => later.Sound ∧ mark.Retains later) run) :
    Together binary pointerSize family passed
      (fun value before other after => alike value before other after ∧
        (before.Sound ∧ left.Retains before) ∧ after.Sound ∧ right.Retains after)
      (run left) (run right) :=
  same.keeping (keeps left) (keeps right) ⟨ready.1.faithful.sound, .refl left⟩
    ⟨ready.2.faithful.sound, .refl right⟩

/-- The register class of a parameter follows the meaning of its type. -/
theorem together_parameterClass (function : BinaryFunction) (parameter : Variable)
    {id other : TypeId} (same : SameType id left other right)
    (ready : BothReady binary pointerSize family left right) :
    Together binary pointerSize family BindError.IsFull
      (fun kind before otherKind after => kind = otherKind ∧ before = left ∧ after = right)
      (parameterClass binary function parameter id left)
      (parameterClass binary function parameter other right) := by
  have classes := same.same.registerClass?_eq
  have voids := same.same.isVoidPeeled_eq
  rw [parameterClass_eq, parameterClass_eq, ← classes, ← voids]
  split
  · exact .ok ready ⟨rfl, rfl, rfl⟩
  · exact .error _ ready

/-- A value in front of a row that comes later. -/
theorem together_cons {run : Normalizing Error (List Value)} {value other : Value}
    (lasting : Lasting alike) (ready : BothReady binary pointerSize family left right)
    (first : alike value left other right)
    (same : Together binary pointerSize family passed (SameRow alike) (run left) (run right))
    (keeps : ∀ mark : Normalizer, Keeps (fun later => later.Sound ∧ mark.Retains later) run) :
    Together binary pointerSize family passed (SameRow alike)
      ((do return value :: (← run)) left) ((do return other :: (← run)) right) := by
  refine SameWay.bind (Together.retaining same ready keeps) ?_
  rintro row others before after readyNow ⟨sameRow, ⟨-, retains⟩, -, retainsToo⟩
  exact .ok readyNow (.cons
    (lasting first ready.1.faithful.sound ready.2.faithful.sound retains retainsToo) sameRow)

/-- A row in front of a row that comes later. -/
theorem together_append {run : Normalizing Error (List Value)} {row others : List Value}
    (lasting : Lasting alike) (ready : BothReady binary pointerSize family left right)
    (first : SameRow alike row left others right)
    (same : Together binary pointerSize family passed (SameRow alike) (run left) (run right))
    (keeps : ∀ mark : Normalizer, Keeps (fun later => later.Sound ∧ mark.Retains later) run) :
    Together binary pointerSize family passed (SameRow alike)
      ((do return row ++ (← run)) left) ((do return others ++ (← run)) right) := by
  refine SameWay.bind (Together.retaining same ready keeps) ?_
  rintro rest restOthers before after readyNow ⟨sameRest, ⟨-, retains⟩, -, retainsToo⟩
  have firstNow := lasting.row first ready.1.faithful.sound ready.2.faithful.sound retains
    retainsToo
  exact .ok readyNow (List.rel_append firstNow sameRest)

variable (orderly : binary.Orderly family)
include orderly

theorem together_normalizeBound {descriptor : Descriptor} (isMember : descriptor ∈ family)
    (ready : BothReady binary pointerSize family left right) :
    Together binary pointerSize family BindError.IsFull SameType
      (normalizeBound binary descriptor left) (normalizeBound binary descriptor right) :=
  (together_normalize orderly isMember ready).adaptExcept fun _ isFull => .normalize isFull

/-- Parameters are bound to the same storages. -/
theorem together_bindParametersWith (function : BinaryFunction) (registers : ArgumentRegisters)
    {parameters : List Variable} (members : ∀ parameter ∈ parameters, parameter.type ∈ family)
    (ready : BothReady binary pointerSize family left right) :
    Together binary pointerSize family BindError.IsFull (SameRow SameLocation)
      (bindParametersWith binary function registers parameters left)
      (bindParametersWith binary function registers parameters right) := by
  induction parameters generalizing registers left right with
  | nil => exact .ok ready .nil
  | cons parameter rest inductionHypothesis =>
    have isMember := members parameter List.mem_cons_self
    have restMembers : ∀ other ∈ rest, other.type ∈ family :=
      fun other isOther => members other (List.mem_cons_of_mem _ isOther)
    rw [bindParametersWith]
    cases parameter.source with
    | register =>
      refine SameWay.bind (together_normalizeBound orderly isMember ready)
        fun id other before after readyNow same => ?_
      refine SameWay.bind (together_parameterClass function parameter same readyNow) ?_
      rintro kind _ _ _ - ⟨rfl, rfl, rfl⟩
      cases registers.next? kind with
      | none => exact .error _ readyNow
      | some taken =>
        exact together_cons lasting_sameLocation readyNow ⟨rfl, same⟩
          (inductionHypothesis taken.2 restMembers readyNow) fun mark =>
            keeps_bindParametersWith (fun _ _ => Retains.keeps_normalize mark binary _) function
              taken.2
    | stack =>
      refine SameWay.bind (together_normalizeBound orderly isMember ready)
        fun id other before after readyNow same => ?_
      exact together_cons lasting_sameLocation readyNow ⟨rfl, same⟩
        (inductionHypothesis registers restMembers readyNow) fun mark =>
          keeps_bindParametersWith (fun _ _ => Retains.keeps_normalize mark binary _) function
            registers
    | flag => exact inductionHypothesis registers restMembers ready

/-- The result is bound to the same registers. -/
theorem together_bindResults {function : BinaryFunction} (isMember : function.result ∈ family)
    (ready : BothReady binary pointerSize family left right) :
    Together binary pointerSize family BindError.IsFull (SameRow SameLocation)
      (bindResults binary function left) (bindResults binary function right) := by
  refine SameWay.bind (together_normalizeBound orderly isMember ready)
    fun id other before after readyNow same => ?_
  have row : SameRow SameLocation
      (function.resultRegisters.map fun register => ⟨.register (Text.upper register), id⟩) before
      (function.resultRegisters.map fun register => ⟨.register (Text.upper register), other⟩)
      after :=
    List.forall₂_map_left_iff.mpr (List.forall₂_map_right_iff.mpr
      (List.forall₂_same.mpr fun register _ => ⟨rfl, same⟩))
  refine SameWay.get ?_
  rw [same.same.isVoid_eq]
  split
  · exact .ok readyNow .nil
  · exact .ok readyNow row

/-! ### Timelines -/

/-- The entries for the types of pointers are the same. -/
theorem together_typeEntries (address : UInt64) {pointers : List Variable}
    (members : ∀ pointer ∈ pointers, pointer.type ∈ family)
    (ready : BothReady binary pointerSize family left right) :
    Together binary pointerSize family NormalizeError.IsFull (SameRow SameEntry)
      (typeEntries binary address pointers left) (typeEntries binary address pointers right) := by
  induction pointers generalizing left right with
  | nil => exact .ok ready .nil
  | cons pointer rest inductionHypothesis =>
    have restMembers : ∀ other ∈ rest, other.type ∈ family :=
      fun other isOther => members other (List.mem_cons_of_mem _ isOther)
    rw [typeEntries]
    cases binary.registerName? pointer.storage with
    | none => exact inductionHypothesis restMembers ready
    | some register =>
      refine SameWay.bind (together_normalize orderly (members pointer List.mem_cons_self) ready)
        fun id other before after readyNow same => ?_
      exact together_cons lasting_sameEntry readyNow ⟨rfl, rfl, .type same⟩
        (inductionHypothesis restMembers readyNow) fun mark =>
          keeps_typeEntries (fun _ _ => Retains.keeps_normalize mark binary _) address

omit orderly in
/-- Entries that hold no types are the same everywhere. -/
theorem sameRow_valueEntries (instruction : Instruction) (register : String) :
    SameRow SameEntry (instruction.valueEntries register) left
      (instruction.valueEntries register) right := by
  unfold Instruction.valueEntries
  split
  · exact .cons ⟨rfl, rfl, .value _ _ _⟩ .nil
  · exact .nil

theorem together_operandEntries {instruction : Instruction}
    (members : ∀ pointer ∈ instruction.pointerVariables, pointer.type ∈ family)
    (registers : List String) (ready : BothReady binary pointerSize family left right) :
    Together binary pointerSize family NormalizeError.IsFull (SameRow SameEntry)
      (operandEntries binary instruction registers left)
      (operandEntries binary instruction registers right) := by
  induction registers generalizing left right with
  | nil => exact .ok ready .nil
  | cons register rest inductionHypothesis =>
    rw [operandEntries]
    refine SameWay.bind (together_typeEntries orderly instruction.address members ready)
      fun types others before after readyNow same => ?_
    exact together_append lasting_sameEntry readyNow
      (List.rel_append (sameRow_valueEntries instruction register) same)
      (inductionHypothesis readyNow) fun mark =>
        keeps_operandEntries (fun _ _ => Retains.keeps_normalize mark binary _) rest

theorem together_instructionEntries {instructions : List Instruction}
    (members : ∀ instruction ∈ instructions, ∀ pointer ∈ instruction.pointerVariables,
      pointer.type ∈ family)
    (ready : BothReady binary pointerSize family left right) :
    Together binary pointerSize family NormalizeError.IsFull (SameRow SameEntry)
      (instructionEntries binary instructions left)
      (instructionEntries binary instructions right) := by
  induction instructions generalizing left right with
  | nil => exact .ok ready .nil
  | cons instruction rest inductionHypothesis =>
    rw [instructionEntries]
    refine SameWay.bind (together_operandEntries orderly
      (members instruction List.mem_cons_self) instruction.registerOperands ready)
      fun entries others before after readyNow same => ?_
    exact together_append lasting_sameEntry readyNow same
      (inductionHypothesis (fun other isOther => members other (List.mem_cons_of_mem _ isOther))
        readyNow) fun mark =>
          keeps_instructionEntries fun _ _ _ _ => Retains.keeps_normalize mark binary _

end

end Normalizer

end BinaryFacts
