/-
This file defines the facts that a program gives about its functions: the signature, the body,
and what a cross-reference of a body leads to.
-/

import BinaryFacts.Binding.Location
import BinaryFacts.Memory.ByteMap
import BinaryFacts.Timeline

namespace BinaryFacts

/-- The signature of a function. -/
structure Signature where
  /-- The address of the first instruction. -/
  address : UInt64
  name : String
  /-- The type of the function as a whole. -/
  type : TypeId
  /-- The locations of the parameters, in the order of their declaration. -/
  parameters : List Location
  /-- The locations of the result, none for void. -/
  results : List Location
  deriving DecidableEq

/-- The body of a function. -/
structure FunctionBody where
  /-- The address of the first instruction. -/
  address : UInt64
  memory : ByteMap
  references : AddressSet
  timeline : List TimelineEntry

/-- What a cross-reference leads to. -/
inductive Referent where
  /-- A function starts at the address. -/
  | function (address : UInt64)
  | data (address : UInt64)
  deriving DecidableEq

/-- The address that a cross-reference leads to. -/
def Referent.address : Referent → UInt64
  | .function address | .data address => address

end BinaryFacts
