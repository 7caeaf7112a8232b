/-
This file finds the code addresses that lifted expressions refer to. Every node of an expression
has a class, handed down from the root. Calls and jumps mark their operands as control flow. An
operation on memory marks the expression it addresses as memory, or as displacement if the
address is computed, and its other operands start over. All other operations hand down their own
class. A pointer constant into code counts unless it is an address of memory; nothing below a
pointer constant or an operation without meaning is looked at.

The nodes are looked at on a stack of tasks. A task comes to an address or to the tasks below its
node, which hold fewer expressions than the node, so the tasks come to an end.
-/

import BinaryFacts.Binary.Basic

namespace BinaryFacts

/-- How an expression refers to an address. -/
inductive ReferenceUse where
  | none
  /-- A plain operand; no rule of this library gives this class. -/
  | immediate
  /-- An address computed from a base. -/
  | displacement
  /-- A constant address of memory. -/
  | memory
  | controlFlow
  deriving DecidableEq

namespace ReferenceUse

/-- Whether a class stands for an address of memory. -/
def isMemory : ReferenceUse → Bool
  | .displacement | .memory => true
  | .none | .immediate | .controlFlow => false

/-- The name of a class in listings. -/
def name : ReferenceUse → String
  | .none => "None"
  | .immediate => "Immediate"
  | .displacement => "Displacement"
  | .memory => "Memory"
  | .controlFlow => "ControlFlow"

/-- Every class. -/
def all : List ReferenceUse := [.none, .immediate, .displacement, .memory, .controlFlow]

instance : Inhabited ReferenceUse := ⟨.none⟩

end ReferenceUse

/-! ### Tasks -/

/-- An expression to look at, with its class. -/
structure ReferenceTask where
  expression : LowExpr
  use : ReferenceUse

/-- What a task comes to. -/
inductive ReferenceFinding where
  /-- A code address that the expression refers to. -/
  | address (target : UInt64)
  /-- Further tasks below the expression, from left to right. -/
  | tasks (tasks : List ReferenceTask)

namespace ReferenceTask

/-- The tasks for the expressions in operands of one class. -/
def ofOperands (use : ReferenceUse) (operands : List LowOperand) : List ReferenceTask :=
  (Operand.expressionsAll operands).map fun expression => ⟨expression, use⟩

/-- The task for the expression that a memory operation addresses. -/
def ofAddressed (addressed : LowExpr) : ReferenceTask :=
  ⟨addressed, if addressed.operation.isConstant then .memory else .displacement⟩

/-- Look at an expression. The first rule for its operation decides. -/
def finding (isCode : UInt64 → Bool) (task : ReferenceTask) : ReferenceFinding :=
  let ⟨expression, use⟩ := task
  if expression.operation.isUnknown then .tasks []
  else if expression.operation.isCall || expression.operation.isJump then
    .tasks (ofOperands .controlFlow expression.operands)
  else
    match LowExpr.addressed? expression with
    | some addressed =>
      .tasks (ofAddressed addressed :: ofOperands .none expression.operands.tail)
    | none =>
      if expression.operation = .constPtr then
        match LowExpr.constantValue? expression with
        | some target => if !use.isMemory && isCode target then .address target else .tasks []
        | none => .tasks []
      else .tasks (ofOperands use expression.operands)

/-- The number of expressions in the expressions of tasks. -/
def expressionCount (tasks : List ReferenceTask) : Nat :=
  tasks.foldr (fun task count => task.expression.expressionCount + count) 0

/-! ### The tasks come to an end -/

theorem expressionCount_append (left right : List ReferenceTask) :
    expressionCount (left ++ right) = expressionCount left + expressionCount right := by
  induction left with
  | nil => simp [expressionCount]
  | cons task rest inductionHypothesis =>
    simp only [expressionCount, List.cons_append, List.foldr_cons] at inductionHypothesis ⊢
    omega

mutual

theorem expressionCount_ofExpressions (use : ReferenceUse) : (operand : LowOperand) →
    expressionCount (operand.expressions.map fun expression => ⟨expression, use⟩) =
      operand.expressionCount
  | .expr operation operands => rfl
  | .atom _ | .int _ => rfl
  | .list items => by
    rw [Operand.expressions, Operand.expressionCount]
    exact expressionCount_ofOperands use items

/-- The tasks for operands hold as many expressions as the operands. -/
theorem expressionCount_ofOperands (use : ReferenceUse) : (operands : List LowOperand) →
    expressionCount (ofOperands use operands) = Operand.expressionCountAll operands
  | [] => rfl
  | operand :: rest => by
    have first := expressionCount_ofExpressions use operand
    have others := expressionCount_ofOperands use rest
    rw [ofOperands] at others
    rw [ofOperands, Operand.expressionsAll, List.map_append, expressionCount_append, first,
      others, Operand.expressionCountAll]

end

/-- The tasks below an expression hold fewer expressions than it. -/
theorem expressionCount_of_finding {isCode : UInt64 → Bool} {task : ReferenceTask}
    {tasks : List ReferenceTask} (found : task.finding isCode = .tasks tasks) :
    expressionCount tasks < task.expression.expressionCount := by
  obtain ⟨expression, use⟩ := task
  simp only [finding] at found
  split at found
  · cases found
    exact Nat.succ_pos _
  · split at found
    · cases found
      rw [expressionCount_ofOperands]
      exact Nat.lt_succ_self _
    · split at found
      · rename_i addressed isAddressed
        cases found
        obtain ⟨-, rest, operands⟩ := LowExpr.addressed?_eq_some_iff.mp isAddressed
        have others := expressionCount_ofOperands .none rest
        show addressed.expressionCount + expressionCount (ofOperands .none _) < _
        rw [Expr.expressionCount, Expr.expressionCount, operands, List.tail_cons, others,
          Operand.expressionCountAll, Expr.toOperand, Operand.expressionCount]
        omega
      · split at found
        · split at found
          · split at found <;> cases found
            exact Nat.succ_pos _
          · cases found
            exact Nat.succ_pos _
        · cases found
          rw [expressionCount_ofOperands]
          exact Nat.lt_succ_self _

end ReferenceTask

/-! ### Collecting -/

/-- Work off a stack of tasks and add the code addresses that they come to. -/
def collectPending (isCode : UInt64 → Bool) (references : AddressSet) :
    List ReferenceTask → AddressSet
  | [] => references
  | task :: rest =>
    match _ : task.finding isCode with
    | .address target => collectPending isCode (references.add target) rest
    | .tasks tasks => collectPending isCode references (tasks ++ rest)
termination_by pending => ReferenceTask.expressionCount pending
decreasing_by
  · exact Nat.lt_add_of_pos_left (Nat.succ_pos _)
  · rename_i found
    rw [ReferenceTask.expressionCount_append]
    exact Nat.add_lt_add_right (ReferenceTask.expressionCount_of_finding found) _

/-- Add the code addresses that an expression refers to. -/
def LowExpr.collectReferences (isCode : UInt64 → Bool) (references : AddressSet)
    (expression : LowExpr) : AddressSet :=
  collectPending isCode references [⟨expression, .none⟩]

/-- Add the code addresses of a binary that an expression refers to. -/
def Binary.collectReferences (binary : Binary) (references : AddressSet) (expression : LowExpr) :
    AddressSet :=
  LowExpr.collectReferences binary.isCode references expression

end BinaryFacts
