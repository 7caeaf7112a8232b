/-
This file proves that programs agree however they came about: two programs loaded from the same
binary in the same way, and then asked for different types, signatures and bodies, some of them in
vain, answer every further call with the same error or with facts that differ in the ids of types
only, where corresponding ids mean the same. The one thing in which they may differ is whether ids
are left.
-/

import BinaryFacts.Proofs.Binding.Agreement
import BinaryFacts.Proofs.Normalization.Termination
import BinaryFacts.Proofs.Program.Calls

namespace BinaryFacts

/-- The error of a call that found no id left. -/
inductive ProgramError.IsFull : ProgramError → Prop
  | normalize {error : NormalizeError} (isFull : error.IsFull) : IsFull (.normalize error)
  | bind {error : BindError} (isFull : error.IsFull) : IsFull (.bind error)

namespace Program

/-! ### Facts that mention types -/

open Normalizer in
/-- Two signatures that differ in the ids of types only, where these mean the same. -/
structure SameSignature (signature : Signature) (left : Normalizer) (other : Signature)
    (right : Normalizer) : Prop where
  address : signature.address = other.address
  name : signature.name = other.name
  type : SameType signature.type left other.type right
  parameters : SameRow SameLocation signature.parameters left other.parameters right
  results : SameRow SameLocation signature.results left other.results right

open Normalizer in
/-- Two bodies that differ in the ids of types only, where these mean the same. -/
structure SameBody (body : FunctionBody) (left : Normalizer) (other : FunctionBody)
    (right : Normalizer) : Prop where
  address : body.address = other.address
  memory : body.memory = other.memory
  references : body.references = other.references
  timeline : SameRow SameEntry body.timeline left other.timeline right

/-- Two calls fail with the same error, or both succeed with facts that are alike. -/
def SameAnswer {Value : Type} (alike : Value → Normalizer → Value → Normalizer → Prop)
    (first second : EStateM.Result ProgramError Program Value) : Prop :=
  (∃ error left right, first = .error error left ∧ second = .error error right) ∨
    ∃ value left other right, first = .ok value left ∧ second = .ok other right ∧
      alike value left.types other right.types

/-- A call was refused, because the program had no id left. -/
def RanOut {Value : Type} (result : EStateM.Result ProgramError Program Value) : Prop :=
  ∃ error after, result = .error error after ∧ error.IsFull

/-- Two calls give the same answer, unless one of them was refused for want of an id. -/
def AgreeUnlessFull {Value : Type} (alike : Value → Normalizer → Value → Normalizer → Prop)
    (first second : EStateM.Result ProgramError Program Value) : Prop :=
  RanOut first ∨ RanOut second ∨ SameAnswer alike first second

/-! ### Two programs -/

/-- A program over a binary that was asked for descriptors of a family only. -/
structure Ready (binary : Binary) (config : ProgramConfig) (pointerSize : UInt64)
    (family : Set Descriptor) (program : Program) : Prop where
  binary_eq : program.view.binary = binary
  config_eq : program.config = config
  types : program.types.Ready binary pointerSize family

/-- Two programs over a binary that were asked for descriptors of a family only. -/
def BothReady (binary : Binary) (config : ProgramConfig) (pointerSize : UInt64)
    (family : Set Descriptor) (left right : Program) : Prop :=
  left.Ready binary config pointerSize family ∧ right.Ready binary config pointerSize family

/-- Two calls end together: with the same error, or with facts that are alike. Errors of calls that
found no id left are passed over. -/
abbrev Together {Value : Type} (binary : Binary) (config : ProgramConfig) (pointerSize : UInt64)
    (family : Set Descriptor) (alike : Value → Normalizer → Value → Normalizer → Prop)
    (first second : EStateM.Result ProgramError Program Value) : Prop :=
  SameWay ProgramError.IsFull (BothReady binary config pointerSize family)
    (fun value left other right => alike value left.types other right.types) first second

variable {Value Error : Type} {binary : Binary} {config : ProgramConfig} {pointerSize : UInt64}
  {family : Set Descriptor} {left right : Program}
  {alike : Value → Normalizer → Value → Normalizer → Prop}

theorem Together.agreeUnlessFull {first second : EStateM.Result ProgramError Program Value}
    (same : Together binary config pointerSize family alike first second) :
    AgreeUnlessFull alike first second := by
  cases same with
  | ok close sameValue => exact Or.inr (Or.inr (Or.inr ⟨_, _, _, _, rfl, rfl, sameValue⟩))
  | error reason close => exact Or.inr (Or.inr (Or.inl ⟨reason, _, _, rfl, rfl⟩))
  | passedLeft isPassed => exact Or.inl ⟨_, _, rfl, isPassed⟩
  | passedRight isPassed => exact Or.inr (Or.inl ⟨_, _, rfl, isPassed⟩)

theorem BothReady.types (ready : BothReady binary config pointerSize family left right) :
    Normalizer.BothReady binary pointerSize family left.types right.types :=
  ⟨ready.1.types, ready.2.types⟩

/-- Requests to the types of two programs go the same way as the requests do. -/
theorem together_withTypes {request : Normalizing Error Value} {passed : Error → Prop}
    {wrap : Error → ProgramError} (wraps : ∀ {reason}, passed reason → (wrap reason).IsFull)
    (ready : BothReady binary config pointerSize family left right)
    (same : Normalizer.Together binary pointerSize family passed alike (request left.types)
      (request right.types)) :
    Together binary config pointerSize family alike (withTypes wrap request left)
      (withTypes wrap request right) := by
  unfold withTypes
  generalize request left.types = leftResult at same
  generalize request right.types = rightResult at same
  have next : ∀ {leftTypes rightTypes : Normalizer},
      Normalizer.BothReady binary pointerSize family leftTypes rightTypes →
      BothReady binary config pointerSize family { left with types := leftTypes }
        { right with types := rightTypes } := fun readyTypes =>
    ⟨⟨ready.1.binary_eq, ready.1.config_eq, readyTypes.1⟩,
      ⟨ready.2.binary_eq, ready.2.config_eq, readyTypes.2⟩⟩
  cases same with
  | ok close sameValue => exact .ok (next close) sameValue
  | error reason close => exact .error (wrap reason) (next close)
  | passedLeft isPassed => exact .passedLeft (wraps isPassed) _ _
  | passedRight isPassed => exact .passedRight (wraps isPassed) _ _

/-- Two programs over a binary find the same functions. -/
theorem together_functionNear {next : BinaryFunction → Requesting Value} (address : UInt64)
    (ready : BothReady binary config pointerSize family left right)
    (step : ∀ function ∈ binary.functions.values,
      Together binary config pointerSize family alike (next function left) (next function right)) :
    Together binary config pointerSize family alike ((functionNear address >>= next) left)
      ((functionNear address >>= next) right) := by
  have sameFunction : right.find? address = left.find? address := by
    rw [find?, find?, ready.1.binary_eq, ready.2.binary_eq]
  have near := functionNear_eq address left
  have nearToo := functionNear_eq address right
  rw [sameFunction] at nearToo
  cases found : left.find? address with
  | none =>
    rw [found] at near nearToo
    rw [bind_of_error _ near, bind_of_error _ nearToo]
    exact .error _ ready
  | some function =>
    rw [found] at near nearToo
    have isFunction := mem_values_of_find? found
    rw [ready.1.binary_eq] at isFunction
    rw [bind_of_ok _ near, bind_of_ok _ nearToo]
    exact step function isFunction

/-! ### Single calls -/

section Calls

variable (orderly : binary.Orderly family)
include orderly

theorem together_typeOf {descriptor : Descriptor} (isMember : descriptor ∈ family)
    (ready : BothReady binary config pointerSize family left right) :
    Together binary config pointerSize family Normalizer.SameType (typeOf descriptor left)
      (typeOf descriptor right) := by
  refine SameWay.get ?_
  rw [ready.1.binary_eq, ready.2.binary_eq]
  exact together_withTypes .normalize ready
    (Normalizer.together_normalize orderly isMember ready.types)

variable (described : ∀ descriptor ∈ binary.functionDescriptors, descriptor ∈ family)
include described

/-- Two programs agree on the signatures of functions. -/
theorem together_signature (address : UInt64)
    (ready : BothReady binary config pointerSize family left right) :
    Together binary config pointerSize family SameSignature (signature address left)
      (signature address right) := by
  refine together_functionNear address ready fun function isFunction => ?_
  have members : ∀ descriptor ∈ function.descriptors, descriptor ∈ family :=
    fun descriptor mentioned =>
      described descriptor (List.mem_flatMap.mpr ⟨function, isFunction, mentioned⟩)
  refine SameWay.get ?_
  rw [ready.1.binary_eq, ready.2.binary_eq]
  refine SameWay.bind (together_withTypes .normalize ready (Normalizer.together_normalize orderly
    (members _ BinaryFunction.type_mem_descriptors) ready.types)) ?_
  intro type otherType leftTyped rightTyped readyTyped sameType
  refine SameWay.bind (together_withTypes .bind readyTyped (Normalizer.Together.retaining
    (Normalizer.together_bindParametersWith orderly function _
      (fun parameter member => members _ (BinaryFunction.parameter_mem_descriptors member))
      readyTyped.types)
    readyTyped.types fun mark => Normalizer.keeps_bindParametersWith
      (fun _ _ => Normalizer.Retains.keeps_normalize mark binary _) function _)) ?_
  rintro parameters otherParameters leftBound rightBound readyBound
    ⟨sameParameters, ⟨-, retains⟩, -, retainsToo⟩
  have sameTypeBound := sameType.retained readyTyped.1.types.faithful.sound
    readyTyped.2.types.faithful.sound retains retainsToo
  refine SameWay.bind (together_withTypes .bind readyBound (Normalizer.Together.retaining
    (Normalizer.together_bindResults orderly (members _ BinaryFunction.result_mem_descriptors)
      readyBound.types)
    readyBound.types fun mark => Normalizer.keeps_bindResults
      (Normalizer.Retains.keeps_normalize mark binary _))) ?_
  rintro results otherResults leftLast rightLast readyLast
    ⟨sameResults, ⟨-, retainsLast⟩, -, retainsLastToo⟩
  have soundLeft := readyBound.1.types.faithful.sound
  have soundRight := readyBound.2.types.faithful.sound
  exact .ok readyLast
    { address := rfl
      name := rfl
      type := sameTypeBound.retained soundLeft soundRight retainsLast retainsLastToo
      parameters := Normalizer.lasting_sameLocation.row sameParameters soundLeft soundRight
        retainsLast retainsLastToo
      results := sameResults }

/-- Two programs agree on the bodies of functions. -/
theorem together_body (address : UInt64)
    (ready : BothReady binary config pointerSize family left right) :
    Together binary config pointerSize family SameBody (body address left)
      (body address right) := by
  refine together_functionNear address ready fun function isFunction => ?_
  refine SameWay.get ?_
  rw [ready.1.binary_eq, ready.2.binary_eq, ready.1.config_eq, ready.2.config_eq]
  have members : ∀ instruction ∈ function.instructions,
      ∀ pointer ∈ instruction.pointerVariables, pointer.type ∈ family :=
    fun instruction isInstruction pointer member => described _ (List.mem_flatMap.mpr
      ⟨function, isFunction, BinaryFunction.pointer_mem_descriptors isInstruction member⟩)
  obtain ⟨memory, references⟩ := binary.extract function config.references
  cases config.typedRegisters with
  | true =>
    refine SameWay.bind (together_withTypes .normalize ready
      (Normalizer.together_instructionEntries orderly members ready.types)) ?_
    intro timeline otherTimeline leftLast rightLast readyLast same
    exact .ok readyLast ⟨rfl, rfl, rfl, same⟩
  | false => exact .ok ready ⟨rfl, rfl, rfl, .nil⟩

end Calls

/-! ### Histories -/

theorem Ready.afterCalls {program : Program} (orderly : binary.Orderly family)
    (described : ∀ descriptor ∈ binary.functionDescriptors, descriptor ∈ family)
    (ready : program.Ready binary config pointerSize family) {calls : List Call}
    (members : ∀ call ∈ calls, ∀ descriptor ∈ call.descriptors, descriptor ∈ family) :
    (program.afterCalls calls).Ready binary config pointerSize family := by
  obtain ⟨rfl, sameConfig, types⟩ := ready
  have holds : program.Holds program.view config
      (Normalizer.Ready program.view.binary pointerSize family) := ⟨rfl, sameConfig, types⟩
  obtain ⟨sameView, sameConfigLater, typesLater⟩ := holds.afterCalls
    (fun descriptor mentioned =>
      Normalizer.Ready.keeps_normalize orderly (described descriptor mentioned))
    (fun call isCall descriptor mentioned =>
      Normalizer.Ready.keeps_normalize orderly (members call isCall descriptor mentioned))
  exact ⟨congrArg View.binary sameView, sameConfigLater, typesLater⟩

/-- A newly loaded program is ready; the binary decides on the size of pointers. -/
theorem ready_of_load {handle : Nat} {program : Program}
    (loaded : load ⟨handle, binary⟩ config = .ok program) (family : Set Descriptor) :
    ∃ architecture, Architecture.ofEngineName binary.architecture = .ok architecture ∧
      program.Ready binary config architecture.pointerSize family := by
  obtain ⟨architecture, system, known, rfl⟩ := exists_of_load_eq_ok loaded
  exact ⟨architecture, known, rfl, rfl, .new binary _ family⟩

/-- Programs agree, whatever they were asked before. Two programs are loaded from the same binary
in the same way and then answer different calls, failing ones included. If all descriptors that
the functions and the calls lead to have consistent keys, both answer every further call with the
same error, or with facts in which everything but the ids of types is the same and corresponding
ids mean the same. Only a program that runs out of ids over the call may refuse what the other one
answers. -/
theorem sameAnswer_afterCalls {binary : Binary} {config : ProgramConfig} {handle otherHandle : Nat}
    {first second : Program} (loaded : load ⟨handle, binary⟩ config = .ok first)
    (loadedToo : load ⟨otherHandle, binary⟩ config = .ok second) (calls others : List Call)
    (consistent : binary.KeyConsistent (binary.closure
      (binary.functionDescriptors ++ (calls ++ others).flatMap Call.descriptors))) :
    (∀ address, AgreeUnlessFull SameSignature (signature address (first.afterCalls calls))
        (signature address (second.afterCalls others))) ∧
      (∀ address, AgreeUnlessFull SameBody (body address (first.afterCalls calls))
        (body address (second.afterCalls others))) ∧
      ∀ descriptor ∈ binary.closure
          (binary.functionDescriptors ++ (calls ++ others).flatMap Call.descriptors),
        AgreeUnlessFull Normalizer.SameType (typeOf descriptor (first.afterCalls calls))
          (typeOf descriptor (second.afterCalls others)) := by
  generalize isFamily : binary.closure
    (binary.functionDescriptors ++ (calls ++ others).flatMap Call.descriptors) = family
    at consistent ⊢
  have requested : ∀ descriptor ∈ binary.functionDescriptors ++
      (calls ++ others).flatMap Call.descriptors, descriptor ∈ family :=
    fun descriptor isRequest => isFamily ▸ Binary.mem_closure isRequest
  have orderly : binary.Orderly family :=
    ⟨isFamily ▸ binary.isClosed_closure _, consistent⟩
  have described : ∀ descriptor ∈ binary.functionDescriptors, descriptor ∈ family :=
    fun descriptor mentioned => requested _ (List.mem_append_left _ mentioned)
  have called : ∀ call ∈ calls ++ others, ∀ descriptor ∈ call.descriptors, descriptor ∈ family :=
    fun call isCall descriptor mentioned => requested _
      (List.mem_append_right _ (List.mem_flatMap.mpr ⟨call, isCall, mentioned⟩))
  obtain ⟨architecture, known, readyFirst⟩ := ready_of_load loaded family
  obtain ⟨_, knownToo, readySecond⟩ := ready_of_load loadedToo family
  rw [known] at knownToo
  cases knownToo
  have ready : BothReady binary config architecture.pointerSize family
      (first.afterCalls calls) (second.afterCalls others) :=
    ⟨readyFirst.afterCalls orderly described
        fun call isCall => called call (List.mem_append_left _ isCall),
      readySecond.afterCalls orderly described
        fun call isCall => called call (List.mem_append_right _ isCall)⟩
  exact ⟨fun address => (together_signature orderly described address ready).agreeUnlessFull,
    fun address => (together_body orderly described address ready).agreeUnlessFull,
    fun descriptor isMember => (together_typeOf orderly isMember ready).agreeUnlessFull⟩

open Normalizer in
/-- A function that takes a pointer to the structure that points to itself. -/
def visitor : BinaryFunction :=
  { name := "visit", start := 4096, result := .bool,
    parameters := [⟨"next", .register, 0, .pointer linkedReference 8⟩],
    type := .function .bool [.pointer linkedReference 8] false }

/-- A binary with the structure and the function. -/
def visitingBinary : Binary := Normalizer.linkedBinary.addFunction visitor

/-- A new program over this binary. -/
def visitingProgram (handle : Nat) : Program :=
  ⟨⟨handle, visitingBinary⟩, .amd64, .linux, {}, .new 8⟩

open Normalizer in
/-- What the function, a request for an unknown kind and one for an enumeration lead to. -/
def visitedFamily : Set Descriptor := insert namelessEnumeration (insert visitor.type linkedFamily)

open Normalizer in
/-- All of this has consistent keys, and there is no anonymous aggregate. -/
theorem keyConsistent_visitingBinary {requests : List Descriptor}
    (requested : ∀ request ∈ requests, request ∈ visitedFamily) :
    visitingBinary.KeyConsistent (visitingBinary.closure requests) ∧
      visitingBinary.Unnested (visitingBinary.closure requests) := by
  have closed : visitingBinary.IsClosed linkedFamily := isClosed_linkedFamily
  have consistent : visitingBinary.KeyConsistent linkedFamily := keyConsistent_linkedFamily
  have leads : ∀ next ∈ visitingBinary.successors visitor.type, next ∈ linkedFamily := by
    intro next follows
    have both : visitingBinary.successors visitor.type =
        [.bool, .pointer linkedReference 8] := rfl
    rw [both] at follows
    rcases List.mem_cons.mp follows with rfl | last
    · exact Or.inr (Or.inr (Or.inr (Or.inr rfl)))
    · rw [List.mem_singleton.mp last]
      exact Or.inr (Or.inl rfl)
  have apart : ∀ descriptor ∈ linkedFamily, descriptor.key ≠ visitor.type.key := by
    intro descriptor member
    rcases member with rfl | rfl | rfl | rfl | rfl <;> decide
  have apartToo : ∀ descriptor ∈ insert visitor.type linkedFamily,
      descriptor.key ≠ namelessEnumeration.key := by
    intro descriptor member
    rcases member with rfl | rfl | rfl | rfl | rfl | rfl <;> decide
  have within := Binary.closure_subset requested ((closed.insert leads).insert (by rintro next ⟨⟩))
  refine ⟨((consistent.insert apart).insert apartToo).mono within,
    fun aggregate member anonymous => ?_⟩
  rcases within member with rfl | rfl | rfl | rfl | rfl | rfl | rfl <;> cases anonymous

open Normalizer in
/-- A program that was asked for the signature and in vain for an unknown kind, and one that was
asked for the structure, agree on the signature. -/
theorem sameAnswer_visitor :
    let calls : List Call := [.signature 4096, .typeOf (.other "vector" 8)]
    let others : List Call := [.typeOf linkedReference]
    load ⟨0, visitingBinary⟩ {} = .ok (visitingProgram 0) ∧
      load ⟨1, visitingBinary⟩ {} = .ok (visitingProgram 1) ∧
      visitingBinary.KeyConsistent (visitingBinary.closure
        (visitingBinary.functionDescriptors ++ (calls ++ others).flatMap Call.descriptors)) ∧
      (∃ facts after, signature 4096 ((visitingProgram 0).afterCalls calls) = .ok facts after) ∧
      SameAnswer SameSignature (signature 4096 ((visitingProgram 0).afterCalls calls))
        (signature 4096 ((visitingProgram 1).afterCalls others)) := by
  intro calls others
  have requested : ∀ request ∈ visitingBinary.functionDescriptors ++
      (calls ++ others).flatMap Call.descriptors, request ∈ visitedFamily := by
    intro request isRequest
    have all : visitingBinary.functionDescriptors ++ (calls ++ others).flatMap Call.descriptors =
        [visitor.type, .bool, .pointer linkedReference 8, .other "vector" 8, linkedReference] := rfl
    rw [all] at isRequest
    simp only [List.mem_cons, List.not_mem_nil, or_false] at isRequest
    refine Or.inr ?_
    rcases isRequest with rfl | rfl | rfl | rfl | rfl
    · exact Or.inl rfl
    · exact Or.inr (Or.inr (Or.inr (Or.inr (Or.inr rfl))))
    · exact Or.inr (Or.inr (Or.inl rfl))
    · exact Or.inr (Or.inl rfl)
    · exact Or.inr (Or.inr (Or.inr (Or.inl rfl)))
  have consistent := (keyConsistent_visitingBinary requested).1
  have loaded : load ⟨0, visitingBinary⟩ {} = .ok (visitingProgram 0) := rfl
  have loadedToo : load ⟨1, visitingBinary⟩ {} = .ok (visitingProgram 1) := rfl
  have answered : ∃ facts after,
      signature 4096 ((visitingProgram 0).afterCalls calls) = .ok facts after := ⟨_, _, rfl⟩
  have answeredToo : ∃ facts after,
      signature 4096 ((visitingProgram 1).afterCalls others) = .ok facts after := ⟨_, _, rfl⟩
  refine ⟨loaded, loadedToo, consistent, answered, ?_⟩
  rcases (sameAnswer_afterCalls loaded loadedToo calls others consistent).1 4096 with
    ⟨error, after, refused, -⟩ | ⟨error, after, refused, -⟩ | same
  · obtain ⟨facts, last, done⟩ := answered
    rw [refused] at done
    cases done
  · obtain ⟨facts, last, done⟩ := answeredToo
    rw [refused] at done
    cases done
  · exact same

/-! ### Running out of ids -/

open Normalizer in
/-- Asking for the enumeration uses up the ids of a program one by one. -/
theorem enumerated_afterCalls {program : Program} {count requests : Nat}
    (enumerated : program.types.Enumerated count) (room : count + requests ≤ TypeId.count) :
    (program.afterCalls (List.replicate requests (.typeOf namelessEnumeration))).types.Enumerated
        (count + requests) ∧
      (program.afterCalls (List.replicate requests (.typeOf namelessEnumeration))).view =
        program.view := by
  induction requests generalizing program count with
  | zero => exact ⟨enumerated, rfl⟩
  | succ requests inductionHypothesis =>
    have grown : (program.afterCall (.typeOf namelessEnumeration)).types.Enumerated
        (count + 1) := by
      rw [afterCall_typeOf]
      exact enumerated.next _ (by omega)
    obtain ⟨all, sameView⟩ := inductionHypothesis grown (by omega)
    have sameViewFirst : (program.afterCall (.typeOf namelessEnumeration)).view = program.view := by
      rw [afterCall_typeOf]
    rw [show count + (requests + 1) = count + 1 + requests by omega]
    exact ⟨all, sameView.trans sameViewFirst⟩

/-- A program without an id left refuses the signature of the function. -/
theorem exists_signature_refused {program : Program}
    (full : program.types.store.size = TypeId.count) (sameView : program.view = ⟨0, visitingBinary⟩)
    (unknown : program.types.identities.find? visitor.type.key = none) :
    ∃ after, signature 4096 program = .error (.normalize .storeFull) after := by
  have near := functionNear_eq 4096 program
  have found : program.find? 4096 = some visitor := by
    rw [find?, sameView]
    rfl
  rw [found] at near
  have opens : visitingBinary.opening program.types.pointerSize visitor.type =
      .form (.function .bool [.pointer Normalizer.linkedReference 8] false) := rfl
  obtain ⟨types, refused⟩ := Normalizer.exists_refused_of_form full.ge unknown opens
  have refusedHere : withTypes ProgramError.normalize
      (Normalizer.normalize program.view.binary visitor.type) program =
        .error (.normalize .storeFull) { program with types } := by
    unfold withTypes
    rw [sameView, refused]
  have ended : signature 4096 program = .error (.normalize .storeFull) { program with types } :=
    (bind_of_ok _ near).trans ((bind_of_ok _
      (show (get : Requesting Program) program = .ok program program from rfl)).trans
        (bind_of_error _ refusedHere))
  exact ⟨_, ended⟩

open Normalizer in
/-- A program that was asked for the enumeration until all ids were in use refuses a signature that
a new program over the same binary gives. -/
theorem signature_refused :
    let calls : List Call := List.replicate (TypeId.count - 1) (.typeOf namelessEnumeration)
    load ⟨0, visitingBinary⟩ {} = .ok (visitingProgram 0) ∧
      load ⟨1, visitingBinary⟩ {} = .ok (visitingProgram 1) ∧
      visitingBinary.KeyConsistent (visitingBinary.closure
        (visitingBinary.functionDescriptors ++ (calls ++ []).flatMap Call.descriptors)) ∧
      visitingBinary.Unnested (visitingBinary.closure
        (visitingBinary.functionDescriptors ++ (calls ++ []).flatMap Call.descriptors)) ∧
      (∃ after, signature 4096 ((visitingProgram 0).afterCalls calls) =
        .error (.normalize .storeFull) after) ∧
      ∃ facts after, signature 4096 ((visitingProgram 1).afterCalls []) = .ok facts after := by
  intro calls
  have requested : ∀ request ∈ visitingBinary.functionDescriptors ++
      (calls ++ []).flatMap Call.descriptors, request ∈ visitedFamily := by
    intro request isRequest
    rcases List.mem_append.mp isRequest with ofFunction | ofCall
    · have all : visitingBinary.functionDescriptors =
          [visitor.type, .bool, .pointer linkedReference 8] := rfl
      rw [all] at ofFunction
      simp only [List.mem_cons, List.not_mem_nil, or_false] at ofFunction
      refine Or.inr ?_
      rcases ofFunction with rfl | rfl | rfl
      · exact Or.inl rfl
      · exact Or.inr (Or.inr (Or.inr (Or.inr (Or.inr rfl))))
      · exact Or.inr (Or.inr (Or.inl rfl))
    · rw [List.append_nil] at ofCall
      obtain ⟨call, isCall, mentioned⟩ := List.mem_flatMap.mp ofCall
      rw [List.eq_of_mem_replicate isCall] at mentioned
      exact Or.inl (List.mem_singleton.mp mentioned)
  obtain ⟨consistent, unnested⟩ := keyConsistent_visitingBinary requested
  refine ⟨rfl, rfl, consistent, unnested, ?_, ⟨_, _, rfl⟩⟩
  obtain ⟨requests, isCount⟩ := Nat.exists_eq_add_of_le' (show 2 ≤ TypeId.count by decide)
  have isCalls : calls = .typeOf namelessEnumeration ::
      List.replicate requests (.typeOf namelessEnumeration) := by
    rw [show calls = List.replicate (TypeId.count - 1) (.typeOf namelessEnumeration) from rfl,
      isCount]
    rfl
  have firstCall : ((visitingProgram 0).afterCall (.typeOf namelessEnumeration)).types.Enumerated
      2 := by
    rw [afterCall_typeOf]
    exact .first visitingBinary 8
  have sameViewFirst : ((visitingProgram 0).afterCall (.typeOf namelessEnumeration)).view =
      ⟨0, visitingBinary⟩ := by
    rw [afterCall_typeOf]
    rfl
  obtain ⟨used, sameView⟩ := enumerated_afterCalls firstCall
    (show 2 + requests ≤ TypeId.count by omega)
  rw [sameViewFirst] at sameView
  rw [isCalls]
  exact exists_signature_refused (used.size.trans (by omega)) sameView (used.unknown _)

end Program

end BinaryFacts
