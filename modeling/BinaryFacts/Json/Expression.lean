/-
This file gives the JSON forms of expressions and instructions. The two intermediate languages
differ in the names of their operations and in the name under which an atom is written.
-/

import BinaryFacts.Expression.Instruction
import BinaryFacts.Json.Descriptor

namespace BinaryFacts

instance : JsonForm LowOperation where
  encode operation := .text operation.name
  decode? := Json.choice? (LowOperation.all.map fun operation => (operation.name, operation))

instance : JsonForm MediumOperation where
  encode operation := .text operation.name
  decode? := Json.choice? (MediumOperation.all.map fun operation => (operation.name, operation))

/-- The name under which the atoms of a language are written. -/
class AtomName (Atom : Type) where
  atomName : String

instance : AtomName String := ⟨"Register"⟩

instance : AtomName Variable := ⟨"Variable"⟩

section Operands

variable {Operation Atom : Type} [JsonForm Operation] [JsonForm Atom] [AtomName Atom]

mutual

/-- An operand in JSON. -/
def Operand.toJson : Operand Operation Atom → Json
  | .expr operation operands =>
    .variant "Expr" (.object [("operation", encode operation),
      ("operands", .array (Operand.toJsonAll operands))])
  | .atom value => .variant (AtomName.atomName Atom) (encode value)
  | .int value => .variant "Int" (encode value)
  | .list items => .variant "List" (.array (Operand.toJsonAll items))

/-- Operands in a row in JSON. -/
def Operand.toJsonAll : List (Operand Operation Atom) → List Json
  | [] => []
  | operand :: rest => operand.toJson :: Operand.toJsonAll rest

end

/-- Read the operation and the operands of an expression, given how operands are read. -/
def Expr.ofJsonWith (operand? : Json → Option (Operand Operation Atom)) (json : Json) :
    Option (Expr Operation Atom) := do
  let [operation, operands] ← json.recordFields?
    [.required "operation", .required "operands"] | none
  return ⟨← decode? operation, ← Json.list? operand? operands⟩

/-- Read an operand nested at most `depth` levels deep. -/
def Operand.ofJsonWithin : Nat → Json → Option (Operand Operation Atom)
  | 0, _ => none
  | depth + 1, json =>
    match json.variant? with
    | some ("Expr", some data) => (Expr.ofJsonWith (ofJsonWithin depth) data).map Expr.toOperand
    | some ("Int", some data) => (decode? data).map .int
    | some ("List", some data) => (Json.list? (ofJsonWithin depth) data).map .list
    | some (name, some data) =>
      if name = AtomName.atomName Atom then (decode? data).map .atom else none
    | _ => none

instance : JsonForm (Expr Operation Atom) where
  encode expression :=
    .object [("operation", encode expression.operation),
      ("operands", .array (Operand.toJsonAll expression.operands))]
  decode? json := Expr.ofJsonWith (Operand.ofJsonWithin json.depth) json

end Operands

/-! ### Instructions -/

instance : JsonForm RegisterValue where
  encode
    | .undetermined => .text "Undetermined"
    | .entry => .text "Entry"
    | .constant value => .variant "Constant" (encode value)
    | .constantPointer value => .variant "ConstantPointer" (encode value)
    | .externalPointer value => .variant "ExternalPointer" (encode value)
    | .stackFrameOffset offset => .variant "StackFrameOffset" (encode offset)
  decode? json :=
    match json.variant? with
    | some ("Undetermined", data) => Json.unit? .undetermined data
    | some ("Entry", data) => Json.unit? .entry data
    | some ("Constant", some data) => (decode? data).map .constant
    | some ("ConstantPointer", some data) => (decode? data).map .constantPointer
    | some ("ExternalPointer", some data) => (decode? data).map .externalPointer
    | some ("StackFrameOffset", some data) => (decode? data).map .stackFrameOffset
    | _ => none

instance {Value : Type} [JsonForm Value] : JsonForm (Table String Value) where
  encode table := .object (table.entries.map fun entry => (entry.1, encode entry.2))
  decode?
    | .object entries =>
      entries.foldlM (fun table entry => return table.insert entry.1 (← decode? entry.2)) .empty
    | _ => none

instance : JsonForm Instruction where
  encode instruction :=
    .object [("address", encode instruction.address), ("expr", encode instruction.expression),
      ("register_values", encode instruction.registerValues), ("mlil", encode instruction.medium)]
  decode? json := do
    let [address, expression, registerValues, medium] ← json.recordFields?
      [.required "address", .required "expr", .required "register_values", .optional "mlil"] | none
    return ⟨← decode? address, ← decode? expression, ← decode? registerValues, ← decode? medium⟩

end BinaryFacts
