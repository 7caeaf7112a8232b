/-
This file binds the signature of a function to locations. A parameter in a register takes the
next argument register of its class: integers and pointers the integer class, floats the float
class, as seen through typedefs. A parameter on the stack lies at its offset from the stack
pointer, and a parameter in a flag has no location. A result is in every result register, and a
void result in none.
-/

import BinaryFacts.Binding.ArgumentRegisters
import BinaryFacts.Binding.Location
import BinaryFacts.Normalization.Normalizer
import BinaryFacts.Text.Case

namespace BinaryFacts

/-- Why a signature cannot be bound. -/
inductive BindError where
  /-- A parameter declared void is passed in a register. -/
  | voidParameter (function parameter : String)
  /-- The type of a parameter belongs to no register class. -/
  | noRegisterClass (function parameter : String)
  /-- No register of the class is left. -/
  | registersExhausted (convention : String) (kind : RegisterClass) (parameter : String)
  /-- The type of a parameter or result cannot be normalized. -/
  | normalize (error : NormalizeError)
  deriving DecidableEq

/-- The text of a binding error. -/
def BindError.message : BindError → String
  | .voidParameter function parameter =>
    s!"parameter '{parameter}' of '{function}' is void but passed in a register"
  | .noRegisterClass function parameter =>
    s!"no argument register class for parameter '{parameter}' of '{function}'"
  | .registersExhausted convention kind parameter =>
    s!"calling convention '{convention}' has no {kind.name} argument register left " ++
      s!"for parameter '{parameter}'"
  | .normalize error => error.message

namespace TypeStore

/-- Step over typedefs, at most `steps` of them; a typedef of itself is not stepped over. -/
def peelWithin (store : TypeStore) : Nat → TypeId → TypeId
  | 0, id => id
  | steps + 1, id =>
    match store.get? id with
    | some (.typedef underlying) =>
      if underlying = id then id else store.peelWithin steps underlying
    | _ => id

/-- The node behind all typedefs. In a cycle of typedefs it is one of them. -/
def peeled? (store : TypeStore) (id : TypeId) : Option (TypeNode TypeId) :=
  store.get? (store.peelWithin store.size id)

/-- The register class of a stored type. -/
def registerClass? (store : TypeStore) (id : TypeId) : Option RegisterClass :=
  match store.peeled? id with
  | some (.integer _ _) | some (.pointer _) => some .integer
  | some (.float _) => some .float
  | _ => none

/-- Whether a stored type is void behind all typedefs. -/
def isVoidPeeled (store : TypeStore) (id : TypeId) : Bool :=
  (store.peeled? id).any TypeNode.isVoid

end TypeStore

namespace Normalizer

/-- Normalize a descriptor as a step of binding. -/
def normalizeBound (binary : Binary) (descriptor : Descriptor) : Normalizing BindError TypeId :=
  EStateM.adaptExcept .normalize (normalize binary descriptor)

/-- The register class of a parameter whose type is normalized. -/
def parameterClass (binary : Binary) (function : BinaryFunction) (parameter : Variable)
    (id : TypeId) : Normalizing BindError RegisterClass := do
  let store := (← get).store
  match store.registerClass? id with
  | some kind => return kind
  | none =>
    if store.isVoidPeeled id && binary.isDeclaredVoid parameter.type then
      throw (.voidParameter function.name parameter.name)
    else throw (.noRegisterClass function.name parameter.name)

/-- Bind parameters in order, with the registers that are still free. -/
def bindParametersWith (binary : Binary) (function : BinaryFunction) :
    ArgumentRegisters → List Variable → Normalizing BindError (List Location)
  | _, [] => return []
  | registers, parameter :: rest =>
    match parameter.source with
    | .register => do
      let id ← normalizeBound binary parameter.type
      let kind ← parameterClass binary function parameter id
      match registers.next? kind with
      | none => throw (.registersExhausted registers.convention kind parameter.name)
      | some (register, registers) =>
        let locations ← bindParametersWith binary function registers rest
        return ⟨.register (Text.upper register), id⟩ :: locations
    | .stack => do
      let id ← normalizeBound binary parameter.type
      let locations ← bindParametersWith binary function registers rest
      return ⟨.memory (Text.upper binary.stackPointer) parameter.storage, id⟩ :: locations
    | .flag => bindParametersWith binary function registers rest

/-- Bind the parameters of a function, in the order of their declaration. -/
def bindParameters (binary : Binary) (function : BinaryFunction) :
    Normalizing BindError (List Location) :=
  bindParametersWith binary function (.ofConvention function.convention) function.parameters

/-- Bind the result of a function: one location in each result register, none for void. -/
def bindResults (binary : Binary) (function : BinaryFunction) :
    Normalizing BindError (List Location) := do
  let id ← normalizeBound binary function.result
  if ((← get).store.get? id).any TypeNode.isVoid then return []
  return function.resultRegisters.map fun register => ⟨.register (Text.upper register), id⟩

end Normalizer

end BinaryFacts
