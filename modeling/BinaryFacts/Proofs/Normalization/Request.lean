/-
This file defines the requests that a normalizer answers: to normalize a descriptor, to bind the
parameters or the result of a function, and to recover a timeline. Each request names the binary
it is about. All requests change the normalizer through normalizations only, so what every
normalization keeps, whether it succeeds or fails, every sequence of requests keeps.
-/

import BinaryFacts.Binding.Signature
import BinaryFacts.Proofs.Outcome
import BinaryFacts.Timeline

namespace BinaryFacts

/-! ### Requests and answers -/

/-- A request to a normalizer. -/
inductive Request where
  | normalize (binary : Binary) (descriptor : Descriptor)
  | bindParameters (binary : Binary) (function : BinaryFunction)
  | bindResults (binary : Binary) (function : BinaryFunction)
  | timeline (binary : Binary) (function : BinaryFunction)

/-- The answer to a request. -/
inductive Answer where
  | type (result : Except NormalizeError TypeId)
  | locations (result : Except BindError (List Location))
  | timeline (result : Except NormalizeError (List TimelineEntry))

/-- The value or the error with which a computation ends. -/
def outcome {Error State Value : Type} : EStateM.Result Error State Value → Except Error Value
  | .ok value _ => .ok value
  | .error error _ => .error error

theorem eq_ok_of_outcome {Error State Value : Type} {result : EStateM.Result Error State Value}
    {value : Value} (answered : outcome result = .ok value) :
    ∃ after, result = .ok value after := by
  cases result with
  | ok other after =>
    cases answered
    exact ⟨after, rfl⟩
  | error error after => cases answered

namespace Normalizer

/-- Answer a request. -/
def perform (normalizer : Normalizer) : Request → Answer × Normalizer
  | .normalize binary descriptor =>
    let result := normalize binary descriptor normalizer
    (.type (outcome result), finalState result)
  | .bindParameters binary function =>
    let result := bindParameters binary function normalizer
    (.locations (outcome result), finalState result)
  | .bindResults binary function =>
    let result := bindResults binary function normalizer
    (.locations (outcome result), finalState result)
  | .timeline binary function =>
    let result := timeline binary function normalizer
    (.timeline (outcome result), finalState result)

/-- Answer requests one after the other. -/
def performAll (normalizer : Normalizer) : List Request → List Answer × Normalizer
  | [] => ([], normalizer)
  | request :: rest =>
    let (answer, next) := normalizer.perform request
    let (answers, last) := next.performAll rest
    (answer :: answers, last)

/-! ### What normalizations keep -/

section Keeps

variable {property : Normalizer → Prop} {binary : Binary}

theorem keeps_parameterClass (function : BinaryFunction) (parameter : Variable) (id : TypeId) :
    Keeps property (parameterClass binary function parameter id) := by
  refine Keeps.bind Keeps.get fun normalizer => ?_
  dsimp only
  split
  · exact Keeps.pure _
  · split <;> exact Keeps.throw _

theorem keeps_bindParametersWith {parameters : List Variable}
    (keeps : ∀ parameter ∈ parameters, Keeps property (normalize binary parameter.type))
    (function : BinaryFunction) (registers : ArgumentRegisters) :
    Keeps property (bindParametersWith binary function registers parameters) := by
  induction parameters generalizing registers with
  | nil => exact Keeps.pure _
  | cons parameter rest inductionHypothesis =>
    have keepsFirst := keeps parameter List.mem_cons_self
    have keepsRest := inductionHypothesis fun other isOther =>
      keeps other (List.mem_cons_of_mem _ isOther)
    unfold bindParametersWith
    split
    · refine Keeps.bind (keepsFirst.adaptExcept _) fun id => ?_
      refine Keeps.bind (keeps_parameterClass function parameter id) fun kind => ?_
      split
      · exact Keeps.throw _
      · exact Keeps.bind (keepsRest _) fun locations => Keeps.pure _
    · refine Keeps.bind (keepsFirst.adaptExcept _) fun id => ?_
      exact Keeps.bind (keepsRest _) fun locations => Keeps.pure _
    · exact keepsRest _

theorem keeps_bindResults {function : BinaryFunction}
    (keeps : Keeps property (normalize binary function.result)) :
    Keeps property (bindResults binary function) := by
  refine Keeps.bind (keeps.adaptExcept _) fun id => ?_
  refine Keeps.bind Keeps.get fun normalizer => ?_
  split <;> exact Keeps.pure _

theorem keeps_typeEntries {pointers : List Variable}
    (keeps : ∀ pointer ∈ pointers, Keeps property (normalize binary pointer.type))
    (address : UInt64) : Keeps property (typeEntries binary address pointers) := by
  induction pointers with
  | nil => exact Keeps.pure _
  | cons pointer rest inductionHypothesis =>
    have keepsRest := inductionHypothesis fun other isOther =>
      keeps other (List.mem_cons_of_mem _ isOther)
    unfold typeEntries
    split
    · exact keepsRest
    · refine Keeps.bind (keeps pointer List.mem_cons_self) fun id => ?_
      exact Keeps.bind keepsRest fun entries => Keeps.pure _

theorem keeps_operandEntries {instruction : Instruction}
    (keeps : ∀ pointer ∈ instruction.pointerVariables,
      Keeps property (normalize binary pointer.type)) (registers : List String) :
    Keeps property (operandEntries binary instruction registers) := by
  induction registers with
  | nil => exact Keeps.pure _
  | cons register rest inductionHypothesis =>
    refine Keeps.bind (keeps_typeEntries keeps _) fun types => ?_
    exact Keeps.bind inductionHypothesis fun entries => Keeps.pure _

theorem keeps_instructionEntries {instructions : List Instruction}
    (keeps : ∀ instruction ∈ instructions, ∀ pointer ∈ instruction.pointerVariables,
      Keeps property (normalize binary pointer.type)) :
    Keeps property (instructionEntries binary instructions) := by
  induction instructions with
  | nil => exact Keeps.pure _
  | cons instruction rest inductionHypothesis =>
    refine Keeps.bind (keeps_operandEntries (keeps instruction List.mem_cons_self) _)
      fun entries => ?_
    exact Keeps.bind (inductionHypothesis fun other isOther =>
      keeps other (List.mem_cons_of_mem _ isOther)) fun others => Keeps.pure _

end Keeps

/-- What every normalization keeps, every request keeps. -/
theorem perform_keeps {property : Normalizer → Prop}
    (keeps : ∀ binary descriptor, Keeps property (normalize binary descriptor))
    {normalizer : Normalizer} (holds : property normalizer) (request : Request) :
    property (normalizer.perform request).2 := by
  cases request with
  | normalize binary descriptor => exact keeps binary descriptor normalizer holds
  | bindParameters binary function =>
    exact keeps_bindParametersWith (fun _ _ => keeps binary _) function _ normalizer holds
  | bindResults binary function =>
    exact keeps_bindResults (keeps binary _) normalizer holds
  | timeline binary function =>
    exact keeps_instructionEntries (fun _ _ _ _ => keeps binary _) normalizer holds

/-- What every normalization keeps, every sequence of requests keeps. -/
theorem performAll_keeps {property : Normalizer → Prop}
    (keeps : ∀ binary descriptor, Keeps property (normalize binary descriptor))
    {normalizer : Normalizer} (holds : property normalizer) (requests : List Request) :
    property (normalizer.performAll requests).2 := by
  induction requests generalizing normalizer with
  | nil => exact holds
  | cons request rest inductionHypothesis =>
    exact inductionHypothesis (perform_keeps keeps holds request)

end Normalizer

end BinaryFacts
