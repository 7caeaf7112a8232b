/-
This file defines the variables of a function as the analysis engine reports them: where a
variable lives, under which storage number, and of which type it is.
-/

import BinaryFacts.Descriptor

namespace BinaryFacts

/-- Where a variable lives. -/
inductive VariableSource where
  | register
  | stack
  | flag
  deriving DecidableEq

/-- A variable: a parameter of a function, or an operand of a medium-level expression. -/
structure Variable where
  name : String
  source : VariableSource
  /-- The number of a register, or an offset from the stack pointer. -/
  storage : Int64
  type : Descriptor

/-- Whether a variable is a pointer kept in a register. -/
def Variable.isRegisterPointer (candidate : Variable) : Bool :=
  candidate.source = .register && candidate.type.kind.isPointer

end BinaryFacts
