/-
This file hands out the argument registers of a calling convention. Integer and float registers
are handed out apart, each class in the order of the convention.
-/

import BinaryFacts.Binary.Function

namespace BinaryFacts

/-- The two classes of argument registers. -/
inductive RegisterClass where
  | integer
  | float
  deriving DecidableEq

/-- The name of a register class in messages. -/
def RegisterClass.name : RegisterClass → String
  | .integer => "integer"
  | .float => "float"

/-- The argument registers of a convention that are still free. -/
structure ArgumentRegisters where
  convention : String
  integers : List String
  floats : List String

namespace ArgumentRegisters

/-- The float registers of the convention `cdecl`, which passes floats on the floating-point
stack whatever the engine reports. -/
def cdeclFloats : List String := ["st0", "st1", "st2", "st3", "st4", "st5"]

/-- All argument registers of a convention. -/
def ofConvention (convention : CallingConvention) : ArgumentRegisters where
  convention := convention.name
  integers := convention.integerRegisters
  floats := if convention.name = "cdecl" then cdeclFloats else convention.floatRegisters

/-- The free registers of a class, in order. -/
def free (registers : ArgumentRegisters) : RegisterClass → List String
  | .integer => registers.integers
  | .float => registers.floats

/-- Take the next free register of a class. -/
def next? (registers : ArgumentRegisters) : RegisterClass → Option (String × ArgumentRegisters)
  | .integer =>
    match registers.integers with
    | [] => none
    | register :: integers => some (register, { registers with integers })
  | .float =>
    match registers.floats with
    | [] => none
    | register :: floats => some (register, { registers with floats })

/-- The registers that are free after one of a class is taken. -/
def without (registers : ArgumentRegisters) : RegisterClass → ArgumentRegisters
  | .integer => { registers with integers := registers.integers.tail }
  | .float => { registers with floats := registers.floats.tail }

/-- The next register of a class is the first free one, and the others stay free. -/
theorem next?_eq (registers : ArgumentRegisters) (kind : RegisterClass) :
    registers.next? kind =
      (registers.free kind).head?.map fun register => (register, registers.without kind) := by
  obtain ⟨convention, integers, floats⟩ := registers
  cases kind with
  | integer => cases integers <;> rfl
  | float => cases floats <;> rfl

end ArgumentRegisters

end BinaryFacts
