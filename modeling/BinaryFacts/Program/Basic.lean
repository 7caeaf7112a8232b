/-
This file defines programs. A program is loaded from a view of a binary and collects the types of
all functions that are asked for in one store. A request that fails part of the way keeps the
types that its earlier parts had finished.
-/

import BinaryFacts.Binding.Signature
import BinaryFacts.Memory.Extraction
import BinaryFacts.Program.Config
import BinaryFacts.Program.Facts
import BinaryFacts.Target

namespace BinaryFacts

/-- Why a request to a program fails. -/
inductive ProgramError where
  /-- No function starts at or holds the address. -/
  | functionNotFound (address : UInt64)
  | target (error : TargetError)
  | normalize (error : NormalizeError)
  | bind (error : BindError)
  deriving DecidableEq

/-- The text of a program error. -/
def ProgramError.message : ProgramError → String
  | .functionNotFound address =>
    "no function defined at or containing address " ++ Text.hex address.toNat
  | .target error => error.message
  | .normalize error => error.message
  | .bind error => error.message

/-- A binary opened by the engine. Two views are the same only if they have the same handle,
whatever their binaries hold. -/
structure View where
  handle : Nat
  binary : Binary

/-- A program loaded from a view. -/
structure Program where
  view : View
  architecture : Architecture
  system : OperatingSystem
  config : ProgramConfig
  types : Normalizer

/-- A request to a program. -/
abbrev Requesting := EStateM ProgramError Program

namespace Program

/-- Load a program. The architecture is looked at before the operating system. -/
def load (view : View) (config : ProgramConfig) : Except ProgramError Program := do
  let architecture ← (Architecture.ofEngineName view.binary.architecture).mapError .target
  let system ← (OperatingSystem.ofPlatform view.binary.platform).mapError .target
  return ⟨view, architecture, system, config, .new architecture.pointerSize⟩

/-- The start and the name of every function, by ascending start. -/
def functions (program : Program) : List (UInt64 × String) :=
  program.view.binary.functions.values.map fun function => (function.start, function.name)

/-- Run a request to the types of a program. -/
def withTypes {Error Value : Type} (wrap : Error → ProgramError)
    (request : Normalizing Error Value) : Requesting Value :=
  fun program =>
    match request program.types with
    | .ok value types => .ok value { program with types }
    | .error error types => .error (wrap error) { program with types }

/-- Normalize a descriptor. -/
def typeOf (descriptor : Descriptor) : Requesting TypeId := do
  let binary := (← get).view.binary
  withTypes .normalize (Normalizer.normalize binary descriptor)

/-- The function that starts at an address, else the first that holds it. -/
def find? (program : Program) (address : UInt64) : Option BinaryFunction :=
  let binary := program.view.binary
  (binary.functionAt? address).orElse fun _ => (binary.functionsContaining address).head?

/-- The function that starts at an address or holds it. -/
def functionNear (address : UInt64) : Requesting BinaryFunction := do
  match (← get).find? address with
  | some function => return function
  | none => throw (.functionNotFound address)

/-- The signature of the function that starts at an address or holds it. -/
def signature (address : UInt64) : Requesting Signature := do
  let function ← functionNear address
  let binary := (← get).view.binary
  let type ← withTypes .normalize (Normalizer.normalize binary function.type)
  let parameters ← withTypes .bind (Normalizer.bindParameters binary function)
  let results ← withTypes .bind (Normalizer.bindResults binary function)
  return ⟨function.start, function.name, type, parameters, results⟩

/-- The body of the function that starts at an address or holds it. -/
def body (address : UInt64) : Requesting FunctionBody := do
  let function ← functionNear address
  let program ← get
  let binary := program.view.binary
  let (memory, references) := binary.extract function program.config.references
  let timeline ←
    if program.config.typedRegisters then
      withTypes .normalize (Normalizer.timeline binary function)
    else pure []
  return ⟨function.start, memory, references, timeline⟩

/-- What the cross-references of a body lead to, by ascending address. -/
def referents (program : Program) (body : FunctionBody) : List Referent :=
  body.references.addresses.map fun address =>
    if (program.view.binary.functionAt? address).isSome then .function address else .data address

end Program

end BinaryFacts
