/-
This file defines the low-level instructions of a function: an address, the expression of the
instruction, what the engine knows about registers there, and the medium-level expression of the
instruction if there is one.
-/

import BinaryFacts.Expression.Tree
import BinaryFacts.Table

namespace BinaryFacts

/-- What the engine knows about the value of a register. -/
inductive RegisterValue where
  | undetermined
  | entry
  | constant (value : UInt64)
  | constantPointer (value : UInt64)
  | externalPointer (value : UInt64)
  | stackFrameOffset (offset : Int64)
  deriving DecidableEq

/-- The address in a register that is known to hold a pointer. -/
def RegisterValue.pointer? : RegisterValue → Option UInt64
  | .constantPointer value | .externalPointer value => some value
  | .undetermined | .entry | .constant _ | .stackFrameOffset _ => none

/-- A low-level instruction. -/
structure Instruction where
  address : UInt64
  expression : LowExpr
  /-- The known register values at the instruction, by register name. -/
  registerValues : Table String RegisterValue := .empty
  medium : Option MediumExpr := none

/-- What is known about a register at an instruction. -/
def Instruction.registerValue (instruction : Instruction) (register : String) : RegisterValue :=
  (instruction.registerValues.find? register).getD .undetermined

/-- Record what is known about a register at an instruction. -/
def Instruction.withRegisterValue (instruction : Instruction) (register : String)
    (value : RegisterValue) : Instruction :=
  { instruction with registerValues := instruction.registerValues.insert register value }

end BinaryFacts
