/-
This file defines the expression trees of the intermediate languages. Both languages have the
same shape: an operation over operands, and an operand is an expression, an atom, a number or a
list of operands. At the low level the atoms are register names, at the medium level they are
variables.
-/

import BinaryFacts.Expression.Operation
import BinaryFacts.Variable

namespace BinaryFacts

/-- An operand, over the operations and the atoms of a language. -/
inductive Operand (Operation Atom : Type) where
  | expr (operation : Operation) (operands : List (Operand Operation Atom))
  | atom (value : Atom)
  | int (value : UInt64)
  | list (items : List (Operand Operation Atom))

/-- An expression, over the operations and the atoms of a language. -/
structure Expr (Operation Atom : Type) where
  operation : Operation
  operands : List (Operand Operation Atom)

/-- An operand of the low-level language. -/
abbrev LowOperand := Operand LowOperation String

/-- An expression of the low-level language. -/
abbrev LowExpr := Expr LowOperation String

/-- An operand of the medium-level language. -/
abbrev MediumOperand := Operand MediumOperation Variable

/-- An expression of the medium-level language. -/
abbrev MediumExpr := Expr MediumOperation Variable

variable {Operation Atom : Type}

/-- An expression as an operand of another. -/
def Expr.toOperand (expression : Expr Operation Atom) : Operand Operation Atom :=
  .expr expression.operation expression.operands

theorem Expr.toOperand_inj {left right : Expr Operation Atom} :
    left.toOperand = right.toOperand ↔ left = right := by
  obtain ⟨operation, operands⟩ := left
  obtain ⟨otherOperation, otherOperands⟩ := right
  simp [Expr.toOperand]

/-! ### Atoms -/

mutual

/-- The atoms of an operand, from left to right. -/
def Operand.atoms : Operand Operation Atom → List Atom
  | .expr _ operands => Operand.atomsAll operands
  | .atom value => [value]
  | .int _ => []
  | .list items => Operand.atomsAll items

/-- The atoms of operands in a row, from left to right. -/
def Operand.atomsAll : List (Operand Operation Atom) → List Atom
  | [] => []
  | operand :: rest => operand.atoms ++ Operand.atomsAll rest

end

/-- The atoms of an expression, from left to right. -/
def Expr.atoms (expression : Expr Operation Atom) : List Atom :=
  Operand.atomsAll expression.operands

/-- The atoms of operands in a row are those of each operand in turn. -/
theorem Operand.atomsAll_eq_flatMap (operands : List (Operand Operation Atom)) :
    Operand.atomsAll operands = operands.flatMap Operand.atoms := by
  induction operands with
  | nil => simp [Operand.atomsAll]
  | cons operand rest inductionHypothesis => simp [Operand.atomsAll, inductionHypothesis]

/-! ### Atoms found on a stack -/

mutual

/-- The number of operands in an operand, itself included. -/
def Operand.operandCount : Operand Operation Atom → Nat
  | .expr _ operands => Operand.operandCountAll operands + 1
  | .list items => Operand.operandCountAll items + 1
  | .atom _ | .int _ => 1

/-- The number of operands in operands in a row, on all levels. -/
def Operand.operandCountAll : List (Operand Operation Atom) → Nat
  | [] => 0
  | operand :: rest => operand.operandCount + Operand.operandCountAll rest

end

theorem Operand.operandCountAll_append (left right : List (Operand Operation Atom)) :
    Operand.operandCountAll (left ++ right) =
      Operand.operandCountAll left + Operand.operandCountAll right := by
  induction left with
  | nil => simp [Operand.operandCountAll]
  | cons operand rest inductionHypothesis =>
    simp [Operand.operandCountAll, inductionHypothesis, Nat.add_assoc]

/-- Work off a stack of operands and gather the atoms that are wanted, in the order in which they
come up. What an expression or a list holds goes onto the stack with its first operand on top. -/
def Operand.gather (wanted : Atom → Bool) : List (Operand Operation Atom) → List Atom
  | [] => []
  | .atom value :: stack =>
    if wanted value then value :: Operand.gather wanted stack else Operand.gather wanted stack
  | .expr _ operands :: stack => Operand.gather wanted (operands ++ stack)
  | .list items :: stack => Operand.gather wanted (items ++ stack)
  | .int _ :: stack => Operand.gather wanted stack
termination_by stack => Operand.operandCountAll stack
decreasing_by
  all_goals
    simp only [Operand.operandCountAll, Operand.operandCount, Operand.operandCountAll_append]
    omega

/-! ### Expressions in operands -/

mutual

/-- The expressions in an operand, with lists opened, from left to right. -/
def Operand.expressions : Operand Operation Atom → List (Expr Operation Atom)
  | .expr operation operands => [⟨operation, operands⟩]
  | .list items => Operand.expressionsAll items
  | .atom _ | .int _ => []

/-- The expressions in operands in a row, with lists opened, from left to right. -/
def Operand.expressionsAll : List (Operand Operation Atom) → List (Expr Operation Atom)
  | [] => []
  | operand :: rest => operand.expressions ++ Operand.expressionsAll rest

end

mutual

/-- The number of expressions in an operand, on all levels. -/
def Operand.expressionCount : Operand Operation Atom → Nat
  | .expr _ operands => Operand.expressionCountAll operands + 1
  | .list items => Operand.expressionCountAll items
  | .atom _ | .int _ => 0

/-- The number of expressions in operands in a row, on all levels. -/
def Operand.expressionCountAll : List (Operand Operation Atom) → Nat
  | [] => 0
  | operand :: rest => operand.expressionCount + Operand.expressionCountAll rest

end

/-- The number of expressions in an expression, itself included. -/
def Expr.expressionCount (expression : Expr Operation Atom) : Nat :=
  Operand.expressionCountAll expression.operands + 1

/-! ### Low-level expressions -/

namespace LowExpr

/-- The value of a constant or pointer constant. -/
def constantValue? (expression : LowExpr) : Option UInt64 :=
  match expression.operation, expression.operands with
  | .const, .int value :: _ | .constPtr, .int value :: _ | .externalPtr, .int value :: _ =>
    some value
  | _, _ => none

/-- The expression that a memory operation addresses: its first operand. -/
def addressed? (expression : LowExpr) : Option LowExpr :=
  if expression.operation.isMemory then
    match expression.operands with
    | .expr operation operands :: _ => some ⟨operation, operands⟩
    | _ => none
  else none

/-- A memory operation addresses its first operand, if that is an expression. -/
theorem addressed?_eq_some_iff {expression addressed : LowExpr} :
    addressed? expression = some addressed ↔
      expression.operation.isMemory = true ∧
        ∃ rest, expression.operands = addressed.toOperand :: rest := by
  obtain ⟨operation, operands⟩ := expression
  obtain ⟨inner, innerOperands⟩ := addressed
  by_cases memory : operation.isMemory = true
  · rcases operands with _ | ⟨_ | _ | _ | _, rest⟩ <;>
      simp [addressed?, memory, Expr.toOperand]
  · simp [addressed?, memory]

end LowExpr

/-! ### Medium-level expressions -/

namespace MediumExpr

/-- A call of `target`: an empty list of results, the target, and the list of arguments. -/
def call (target : MediumExpr) (arguments : List MediumExpr) : MediumExpr :=
  ⟨.call, [.list [], target.toOperand, .list (arguments.map Expr.toOperand)]⟩

end MediumExpr

end BinaryFacts
