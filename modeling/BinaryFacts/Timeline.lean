/-
This file recovers a timeline of what the registers of a function hold. Every register operand of
an instruction adds the pointer it is known to hold, if any, and then the types of all pointer
variables in registers of the medium-level expression of the same instruction. An instruction
with several register operands repeats the latter; entries are not merged.
-/

import BinaryFacts.Normalization.Normalizer
import BinaryFacts.Text.Case

namespace BinaryFacts

/-- What a register is known to hold. -/
inductive RegisterContent where
  /-- A pointer with this value. -/
  | value (address : UInt64)
  /-- A pointer of this type. -/
  | type (id : TypeId)
  deriving DecidableEq

/-- One entry of a timeline. -/
structure TimelineEntry where
  address : UInt64
  /-- The upper-case name of the register. -/
  register : String
  content : RegisterContent
  deriving DecidableEq

namespace Instruction

/-- The register operands of an instruction, from left to right. -/
def registerOperands (instruction : Instruction) : List String :=
  Operand.gather (fun _ => true) instruction.expression.operands

/-- The pointer variables in registers of an instruction's medium-level expression, from left to
right. -/
def pointerVariables (instruction : Instruction) : List Variable :=
  match instruction.medium with
  | some expression => Operand.gather Variable.isRegisterPointer expression.operands
  | none => []

/-- The entry for the pointer that a register is known to hold. -/
def valueEntries (instruction : Instruction) (register : String) : List TimelineEntry :=
  match (instruction.registerValue register).pointer? with
  | some value => [⟨instruction.address, Text.upper register, .value value⟩]
  | none => []

end Instruction

namespace Normalizer

/-- The entries for the types of pointer variables at an address. A variable in a storage without
a name is passed over. -/
def typeEntries (binary : Binary) (address : UInt64) :
    List Variable → Normalizing NormalizeError (List TimelineEntry)
  | [] => return []
  | pointer :: rest =>
    match binary.registerName? pointer.storage with
    | none => typeEntries binary address rest
    | some register => do
      let id ← normalize binary pointer.type
      return ⟨address, Text.upper register, .type id⟩ :: (← typeEntries binary address rest)

/-- The entries for the register operands of an instruction. -/
def operandEntries (binary : Binary) (instruction : Instruction) :
    List String → Normalizing NormalizeError (List TimelineEntry)
  | [] => return []
  | register :: rest => do
    let types ← typeEntries binary instruction.address instruction.pointerVariables
    return instruction.valueEntries register ++ types ++
      (← operandEntries binary instruction rest)

/-- The entries for a list of instructions. -/
def instructionEntries (binary : Binary) :
    List Instruction → Normalizing NormalizeError (List TimelineEntry)
  | [] => return []
  | instruction :: rest => do
    let entries ← operandEntries binary instruction instruction.registerOperands
    return entries ++ (← instructionEntries binary rest)

/-- The timeline of a function, in the order of instructions and operands. -/
def timeline (binary : Binary) (function : BinaryFunction) :
    Normalizing NormalizeError (List TimelineEntry) :=
  instructionEntries binary function.instructions

end Normalizer

end BinaryFacts
