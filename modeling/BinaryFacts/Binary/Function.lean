/-
This file defines the functions of a binary as the analysis engine recovered them: their
signature, the blocks of their body, and their code in the intermediate languages. The type of a
function follows its result, its parameters and its variadic mark.
-/

import BinaryFacts.Binary.Region
import BinaryFacts.Expression.Instruction

namespace BinaryFacts

/-- The argument registers of a calling convention, in the order in which they are used. -/
structure CallingConvention where
  name : String
  integerRegisters : List String
  floatRegisters : List String
  deriving DecidableEq

/-- The convention of 64-bit Unix systems on the amd64 architecture. -/
def CallingConvention.sysv : CallingConvention where
  name := "sysv"
  integerRegisters := ["rdi", "rsi", "rdx", "rcx", "r8", "r9"]
  floatRegisters := ["xmm0", "xmm1", "xmm2", "xmm3", "xmm4", "xmm5", "xmm6", "xmm7"]

/-- A function of a binary. -/
structure BinaryFunction where
  name : String
  /-- The address of the first instruction. -/
  start : UInt64
  /-- The type of the function as a whole. -/
  type : Descriptor := Descriptor.function Descriptor.void [] false
  result : Descriptor := Descriptor.void
  convention : CallingConvention := .sysv
  /-- The registers that hold the result. -/
  resultRegisters : List String := ["rax"]
  /-- The parameters in the order of their declaration. -/
  parameters : List Variable := []
  variadic : Bool := false
  blocks : List AddressRange := []
  /-- The expression lifted from the machine instruction at an address. -/
  lifted : Table UInt64 LowExpr := .empty
  instructions : List Instruction := []

namespace BinaryFunction

/-- Derive the type of a function from its signature. -/
def refreshType (function : BinaryFunction) : BinaryFunction :=
  { function with
    type := Descriptor.function function.result (function.parameters.map (·.type))
      function.variadic }

/-- Add a parameter after those declared so far. -/
def withParameter (function : BinaryFunction) (parameter : Variable) : BinaryFunction :=
  { function with parameters := function.parameters ++ [parameter] }.refreshType

/-- Set the type of the result. -/
def withResult (function : BinaryFunction) (result : Descriptor) : BinaryFunction :=
  { function with result }.refreshType

/-- Mark a function as variadic. -/
def withVariadic (function : BinaryFunction) : BinaryFunction :=
  { function with variadic := true }.refreshType

/-- Set the calling convention. -/
def withConvention (function : BinaryFunction) (convention : CallingConvention) :
    BinaryFunction :=
  { function with convention }

/-- Set the registers that hold the result. -/
def withResultRegisters (function : BinaryFunction) (resultRegisters : List String) :
    BinaryFunction :=
  { function with resultRegisters }

/-- Add a block to the body. -/
def withBlock (function : BinaryFunction) (block : AddressRange) : BinaryFunction :=
  { function with blocks := function.blocks ++ [block] }

/-- Set the expression lifted at an address. -/
def withLifted (function : BinaryFunction) (address : UInt64) (expression : LowExpr) :
    BinaryFunction :=
  { function with lifted := function.lifted.insert address expression }

/-- Add an instruction; its expression becomes the one lifted at its address. -/
def withInstruction (function : BinaryFunction) (instruction : Instruction) : BinaryFunction :=
  { function.withLifted instruction.address instruction.expression with
    instructions := function.instructions ++ [instruction] }

/-- Whether some block of a function holds an address. -/
def contains (function : BinaryFunction) (address : UInt64) : Bool :=
  function.blocks.any (·.contains address)

end BinaryFunction

end BinaryFacts
