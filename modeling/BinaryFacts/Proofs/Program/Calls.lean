/-
This file follows a program through calls to it. Calls never change the view or the configuration
of a program, and they change its types through normalizations only: of the descriptors that the
functions of its binary mention, and of those that a call brings in. So what these normalizations
keep, every sequence of calls keeps, whether the calls succeed or fail.
-/

import BinaryFacts.Program.Basic
import BinaryFacts.Proofs.Normalization.Request

namespace BinaryFacts

/-! ### The descriptors of a binary -/

/-- The descriptors that the facts about a function are made from. -/
def BinaryFunction.descriptors (function : BinaryFunction) : List Descriptor :=
  function.type :: function.result :: (function.parameters.map (·.type) ++
    function.instructions.flatMap fun instruction => instruction.pointerVariables.map (·.type))

namespace BinaryFunction

variable {function : BinaryFunction}

theorem type_mem_descriptors : function.type ∈ function.descriptors := List.mem_cons_self

theorem result_mem_descriptors : function.result ∈ function.descriptors :=
  List.mem_cons_of_mem _ List.mem_cons_self

theorem parameter_mem_descriptors {parameter : Variable}
    (member : parameter ∈ function.parameters) : parameter.type ∈ function.descriptors :=
  List.mem_cons_of_mem _ (List.mem_cons_of_mem _
    (List.mem_append_left _ (List.mem_map_of_mem member)))

theorem pointer_mem_descriptors {instruction : Instruction} {pointer : Variable}
    (isInstruction : instruction ∈ function.instructions)
    (member : pointer ∈ instruction.pointerVariables) : pointer.type ∈ function.descriptors :=
  List.mem_cons_of_mem _ (List.mem_cons_of_mem _ (List.mem_append_right _
    (List.mem_flatMap.mpr ⟨instruction, isInstruction, List.mem_map_of_mem member⟩)))

end BinaryFunction

/-- The descriptors that the functions of a binary mention. -/
def Binary.functionDescriptors (binary : Binary) : List Descriptor :=
  binary.functions.values.flatMap BinaryFunction.descriptors

namespace Program

/-! ### Calls -/

/-- A call to a program. -/
inductive Call where
  | typeOf (descriptor : Descriptor)
  | signature (address : UInt64)
  | body (address : UInt64)

/-- The descriptors that a call brings in itself. -/
def Call.descriptors : Call → List Descriptor
  | .typeOf descriptor => [descriptor]
  | .signature _ | .body _ => []

/-- A program after a call, whether it succeeds or fails. -/
def afterCall (program : Program) : Call → Program
  | .typeOf descriptor => finalState (typeOf descriptor program)
  | .signature address => finalState (signature address program)
  | .body address => finalState (body address program)

/-- A program after calls one after the other. -/
def afterCalls (program : Program) (calls : List Call) : Program := calls.foldl afterCall program

/-! ### What calls keep -/

variable {view : View} {config : ProgramConfig} {property : Normalizer → Prop} {program : Program}

/-- A program of a view and a configuration whose types have a property. -/
structure Holds (view : View) (config : ProgramConfig) (property : Normalizer → Prop)
    (program : Program) : Prop where
  view_eq : program.view = view
  config_eq : program.config = config
  types : property program.types

theorem keeps_withTypes {Error Value : Type} {request : Normalizing Error Value}
    (wrap : Error → ProgramError) (keeps : Keeps property request) :
    Keeps (Holds view config property) (withTypes wrap request) := by
  intro program holds
  have kept := keeps program.types holds.types
  unfold withTypes
  split
  · rename_i value types ended
    rw [ended] at kept
    exact ⟨holds.view_eq, holds.config_eq, kept⟩
  · rename_i error types ended
    rw [ended] at kept
    exact ⟨holds.view_eq, holds.config_eq, kept⟩

theorem mem_values_of_find? {program : Program} {address : UInt64} {function : BinaryFunction}
    (found : program.find? address = some function) :
    function ∈ program.view.binary.functions.values := by
  rw [find?, Option.orElse_eq_or, Option.or_eq_some_iff] at found
  rcases found with starts | ⟨-, holds⟩
  · obtain ⟨entry, isEntry, same⟩ := Option.map_eq_some_iff.mp starts
    exact List.mem_map.mpr ⟨entry, List.mem_of_find?_eq_some isEntry, same⟩
  · exact (List.mem_filter.mp (List.mem_of_head? holds)).1

theorem functionNear_eq (address : UInt64) (program : Program) :
    functionNear address program =
      match program.find? address with
      | some function => .ok function program
      | none => .error (.functionNotFound address) program := by
  refine (bind_of_ok _ (show (get : Requesting Program) program = .ok program program from
    rfl)).trans ?_
  cases program.find? address <;> rfl

/-- What is done with the function near an address keeps what it keeps for every function of the
binary. -/
theorem keeps_functionNear {Value : Type} {next : BinaryFunction → Requesting Value}
    (address : UInt64)
    (step : ∀ function ∈ view.binary.functions.values,
      Keeps (Holds view config property) (next function)) :
    Keeps (Holds view config property) (functionNear address >>= next) := by
  intro program holds
  have near := functionNear_eq address program
  cases found : program.find? address with
  | none =>
    rw [found] at near
    rw [bind_of_error _ near]
    exact holds
  | some function =>
    rw [found] at near
    rw [bind_of_ok _ near]
    exact step function (holds.view_eq ▸ mem_values_of_find? found) program holds

theorem keeps_get {Value : Type} {next : Program → Requesting Value}
    (step : ∀ program, program.Holds view config property →
      (finalState (next program program)).Holds view config property) :
    Keeps (Holds view config property) (get >>= next) := by
  intro program holds
  rw [bind_of_ok _ (show (get : Requesting Program) program = .ok program program from rfl)]
  exact step program holds

section Calls

variable (described : ∀ descriptor ∈ view.binary.functionDescriptors,
  Keeps property (Normalizer.normalize view.binary descriptor))
include described

theorem keeps_descriptor {function : BinaryFunction} {descriptor : Descriptor}
    (isFunction : function ∈ view.binary.functions.values)
    (mentioned : descriptor ∈ function.descriptors) :
    Keeps property (Normalizer.normalize view.binary descriptor) :=
  described descriptor (List.mem_flatMap.mpr ⟨function, isFunction, mentioned⟩)

theorem keeps_signature (address : UInt64) :
    Keeps (Holds view config property) (signature address) := by
  refine keeps_functionNear address fun function isFunction => ?_
  refine keeps_get fun program holds => ?_
  rw [holds.view_eq]
  refine Keeps.bind (keeps_withTypes _
    (keeps_descriptor described isFunction BinaryFunction.type_mem_descriptors))
    (fun type => ?_) program holds
  refine Keeps.bind (keeps_withTypes _ (Normalizer.keeps_bindParametersWith
    (fun parameter isParameter => keeps_descriptor described isFunction
      (BinaryFunction.parameter_mem_descriptors isParameter)) function _)) fun parameters => ?_
  exact Keeps.bind (keeps_withTypes _ (Normalizer.keeps_bindResults
    (keeps_descriptor described isFunction BinaryFunction.result_mem_descriptors)))
    fun results => Keeps.pure _

theorem keeps_body (address : UInt64) : Keeps (Holds view config property) (body address) := by
  refine keeps_functionNear address fun function isFunction => ?_
  refine keeps_get fun program holds => ?_
  have keepsTimeline : Keeps property (Normalizer.timeline view.binary function) :=
    Normalizer.keeps_instructionEntries fun instruction isInstruction pointer isPointer =>
      keeps_descriptor described isFunction
        (BinaryFunction.pointer_mem_descriptors isInstruction isPointer)
  rw [holds.view_eq]
  dsimp only
  split
  · exact Keeps.bind (keeps_withTypes _ keepsTimeline) (fun timeline => Keeps.pure _) program holds
  · exact holds

end Calls

/-- Asking for a type is a normalization. -/
theorem afterCall_typeOf (program : Program) (descriptor : Descriptor) :
    program.afterCall (.typeOf descriptor) =
      { program with
        types := finalState
          (Normalizer.normalize program.view.binary descriptor program.types) } := by
  show finalState (withTypes ProgramError.normalize
    (Normalizer.normalize program.view.binary descriptor) program) = _
  unfold withTypes
  cases Normalizer.normalize program.view.binary descriptor program.types <;> rfl

/-- A call keeps what the normalizations of its descriptors keep. -/
theorem Holds.afterCall {call : Call} (holds : program.Holds view config property)
    (described : ∀ descriptor ∈ view.binary.functionDescriptors,
      Keeps property (Normalizer.normalize view.binary descriptor))
    (called : ∀ descriptor ∈ call.descriptors,
      Keeps property (Normalizer.normalize view.binary descriptor)) :
    (program.afterCall call).Holds view config property := by
  cases call with
  | typeOf descriptor =>
    refine keeps_get (fun current holdsCurrent => ?_) program holds
    rw [holdsCurrent.view_eq]
    exact keeps_withTypes _ (called descriptor List.mem_cons_self) current holdsCurrent
  | signature address => exact keeps_signature described address program holds
  | body address => exact keeps_body described address program holds

/-- Calls keep what the normalizations of their descriptors keep. -/
theorem Holds.afterCalls {calls : List Call} (holds : program.Holds view config property)
    (described : ∀ descriptor ∈ view.binary.functionDescriptors,
      Keeps property (Normalizer.normalize view.binary descriptor))
    (called : ∀ call ∈ calls, ∀ descriptor ∈ call.descriptors,
      Keeps property (Normalizer.normalize view.binary descriptor)) :
    (program.afterCalls calls).Holds view config property := by
  induction calls generalizing program with
  | nil => exact holds
  | cons call rest inductionHypothesis =>
    exact inductionHypothesis (holds.afterCall described (called call List.mem_cons_self))
      (fun other isOther => called other (List.mem_cons_of_mem _ isOther))

/-- A newly loaded program has the view and the configuration it was loaded with, and no types. -/
theorem exists_of_load_eq_ok (loaded : load view config = .ok program) :
    ∃ architecture system, Architecture.ofEngineName view.binary.architecture = .ok architecture ∧
      program = ⟨view, architecture, system, config, .new architecture.pointerSize⟩ := by
  unfold load at loaded
  cases known : Architecture.ofEngineName view.binary.architecture with
  | error error =>
    rw [known] at loaded
    cases loaded
  | ok architecture =>
    cases system : OperatingSystem.ofPlatform view.binary.platform with
    | error error =>
      rw [known, system] at loaded
      cases loaded
    | ok found =>
      rw [known, system] at loaded
      cases loaded
      exact ⟨architecture, found, rfl, rfl⟩

end Program

end BinaryFacts
