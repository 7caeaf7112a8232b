/-
This file defines where a value is passed: in a register, or in memory at an offset from a base
register. A location is a storage together with the type of the value.
-/

import BinaryFacts.Text.Hex
import BinaryFacts.TypeStore.Node

namespace BinaryFacts

/-- Where a value is passed. -/
inductive Storage where
  | register (name : String)
  /-- In memory, `offset` bytes from the register `base`. -/
  | memory (base : String) (offset : Int64)
  deriving DecidableEq

/-- A storage as text: a register by its name, memory as `[RSP + 0x8]` or `[RBP - 0x10]`. -/
def Storage.text : Storage → String
  | .register name => name
  | .memory base offset =>
    let sign := if offset < 0 then "-" else "+"
    "[" ++ base ++ " " ++ sign ++ " " ++ Text.hex offset.toInt.natAbs ++ "]"

/-- Where a value of a type is passed. -/
structure Location where
  storage : Storage
  type : TypeId
  deriving DecidableEq

/-- The name of the register in which a value is passed. -/
def Location.registerName? (location : Location) : Option String :=
  match location.storage with
  | .register name => some name
  | .memory _ _ => none

end BinaryFacts
