/-
This file says by paths which code addresses an expression refers to, and proves that collecting
them on a stack of tasks finds exactly these.

An edge of an expression tree leads from an expression to one in its operands. The edges of calls
and jumps, and those of memory operations that address an expression, set the class of what lies
below them; every other edge hands the class down. So the class of a node is set by the lowest
such edge on the path from the root. A pointer constant into code counts unless its class is set by
an edge to an addressed expression, and unless the path passes a node below which nothing is looked
at.

A task comes to an address or to the tasks at the ends of the edges of its node. What a set of
tasks still reaches is therefore the same before and after one of them is worked off, whichever it
is, and every order of the work finds the same addresses.
-/

import BinaryFacts.Memory.CrossReference

namespace BinaryFacts

/-! ### Edges and paths -/

namespace LowOperation

/-- Calls and jumps. -/
def transfers : List LowOperation := [.call, .tailCall, .callStackAdjust, .jump, .jumpTo]

/-- The operations on memory. -/
def accesses : List LowOperation := [.load, .store, .unimplMem]

/-- The operations below which nothing is looked at. -/
def barriers : List LowOperation := [.unimpl, .undef, .constPtr]

theorem mem_transfers_iff (operation : LowOperation) :
    operation ∈ transfers ↔ (operation.isCall || operation.isJump) = true := by
  cases operation <;> decide

theorem mem_accesses_iff (operation : LowOperation) :
    operation ∈ accesses ↔ operation.isMemory = true := by
  cases operation <;> decide

theorem mem_barriers_iff (operation : LowOperation) :
    operation ∈ barriers ↔ operation.isUnknown = true ∨ operation = .constPtr := by
  cases operation <;> decide

theorem notMem_transfers_of_mem_accesses {operation : LowOperation}
    (isAccess : operation ∈ accesses) : operation ∉ transfers := by
  cases operation <;> revert isAccess <;> decide

end LowOperation

/-- An expression stands in an operand: it is the operand, or it stands in an item of a list. -/
inductive Operand.Holds : LowOperand → LowExpr → Prop
  | self (expression : LowExpr) : Holds expression.toOperand expression
  | item {items : List LowOperand} {operand : LowOperand} {expression : LowExpr}
      (member : operand ∈ items) (holds : Holds operand expression) :
      Holds (.list items) expression

/-- What an edge does to the class of the nodes below it. -/
inductive EdgeClass where
  /-- The edge to an operand of a call or jump. -/
  | flow
  /-- The edge to the expression that a memory operation addresses. -/
  | addressed
  /-- The edge to another operand of such a memory operation. -/
  | beside
  /-- Any other edge, which hands the class down. -/
  | inherited
  deriving DecidableEq

/-- Whether an edge sets the class of the nodes below it. -/
def EdgeClass.sets : EdgeClass → Bool
  | .flow | .addressed | .beside => true
  | .inherited => false

/-- The edges from an expression to the expressions in its operands. -/
inductive Edge : LowExpr → EdgeClass → LowExpr → Prop
  | flow {parent child : LowExpr} {operand : LowOperand}
      (isTransfer : parent.operation ∈ LowOperation.transfers)
      (member : operand ∈ parent.operands) (holds : operand.Holds child) :
      Edge parent .flow child
  | addressed {parent child : LowExpr} {rest : List LowOperand}
      (isAccess : parent.operation ∈ LowOperation.accesses)
      (operands : parent.operands = child.toOperand :: rest) : Edge parent .addressed child
  | beside {parent first child : LowExpr} {rest : List LowOperand} {operand : LowOperand}
      (isAccess : parent.operation ∈ LowOperation.accesses)
      (operands : parent.operands = first.toOperand :: rest)
      (member : operand ∈ rest) (holds : operand.Holds child) : Edge parent .beside child
  | inherited {parent child : LowExpr} {operand : LowOperand}
      (notTransfer : parent.operation ∉ LowOperation.transfers)
      (unaddressed : parent.operation ∈ LowOperation.accesses →
        ∀ first rest, parent.operands ≠ Expr.toOperand first :: rest)
      (member : operand ∈ parent.operands) (holds : operand.Holds child) :
      Edge parent .inherited child

/-- A path down a tree, with the nodes strictly above its end and the edges that it takes from
them, the highest first. -/
inductive Path : LowExpr → List (LowExpr × EdgeClass) → LowExpr → Prop
  | here (node : LowExpr) : Path node [] node
  | down {parent child node : LowExpr} {edge : EdgeClass} {steps : List (LowExpr × EdgeClass)}
      (first : Edge parent edge child) (rest : Path child steps node) :
      Path parent ((parent, edge) :: steps) node

/-- The lowest edge of a path that sets a class. -/
def lowestSetting (steps : List (LowExpr × EdgeClass)) : Option EdgeClass :=
  ((steps.map (·.2)).filter EdgeClass.sets).getLast?

/-- The code addresses that an expression refers to. A path leads to a pointer constant into code,
past no node below which nothing is looked at, and the lowest edge that sets a class is absent or
leads to an operand of a call or jump or to an operand beside an addressed one. -/
def LowExpr.Refers (isCode : UInt64 → Bool) (root : LowExpr) (address : UInt64) : Prop :=
  ∃ steps rest, Path root steps ⟨.constPtr, .int address :: rest⟩ ∧ isCode address = true ∧
    (∀ step ∈ steps, step.1.operation ∉ LowOperation.barriers) ∧
    lowestSetting steps ∈ [none, some .flow, some .beside]

/-! ### The expressions in operands -/

mutual

theorem Operand.mem_expressions_iff (expression : LowExpr) : (operand : LowOperand) →
    (expression ∈ operand.expressions ↔ operand.Holds expression)
  | .expr operation operands => by
    constructor
    · intro member
      rw [List.mem_singleton.mp member]
      exact .self ⟨operation, operands⟩
    · rintro ⟨⟩
      exact List.mem_singleton.mpr rfl
  | .atom _ | .int _ => iff_of_false List.not_mem_nil nofun
  | .list items => by
    rw [Operand.expressions, Operand.mem_expressionsAll_iff expression items]
    constructor
    · rintro ⟨operand, member, holds⟩
      exact .item member holds
    · rintro ⟨⟩
      exact ⟨_, ‹_›, ‹_›⟩

theorem Operand.mem_expressionsAll_iff (expression : LowExpr) : (operands : List LowOperand) →
    (expression ∈ Operand.expressionsAll operands ↔
      ∃ operand ∈ operands, operand.Holds expression)
  | [] => iff_of_false List.not_mem_nil fun ⟨_, member, _⟩ => nomatch member
  | operand :: rest => by
    simp [Operand.expressionsAll, Operand.mem_expressions_iff expression operand,
      Operand.mem_expressionsAll_iff expression rest]

end

/-! ### The edges of an expression -/

namespace Edge

variable {parent child : LowExpr} {edge : EdgeClass}

/-- All edges of a call or jump are of one class. -/
theorem iff_of_transfer (isTransfer : parent.operation ∈ LowOperation.transfers) :
    Edge parent edge child ↔
      edge = .flow ∧ child ∈ Operand.expressionsAll parent.operands := by
  rw [Operand.mem_expressionsAll_iff]
  constructor
  · intro leads
    cases leads with
    | flow _ member holds => exact ⟨rfl, _, member, holds⟩
    | addressed isAccess =>
      exact absurd isTransfer (LowOperation.notMem_transfers_of_mem_accesses isAccess)
    | beside isAccess =>
      exact absurd isTransfer (LowOperation.notMem_transfers_of_mem_accesses isAccess)
    | inherited notTransfer => exact absurd isTransfer notTransfer
  · rintro ⟨rfl, operand, member, holds⟩
    exact .flow isTransfer member holds

/-- A memory operation with an addressed expression tells it from its other operands. -/
theorem iff_of_access {first : LowExpr} {rest : List LowOperand}
    (isAccess : parent.operation ∈ LowOperation.accesses)
    (operands : parent.operands = first.toOperand :: rest) :
    Edge parent edge child ↔ edge = .addressed ∧ child = first ∨
      edge = .beside ∧ child ∈ Operand.expressionsAll rest := by
  rw [Operand.mem_expressionsAll_iff]
  constructor
  · intro leads
    cases leads with
    | flow isTransfer =>
      exact absurd isTransfer (LowOperation.notMem_transfers_of_mem_accesses isAccess)
    | addressed _ own =>
      rw [operands, List.cons.injEq, Expr.toOperand_inj] at own
      exact Or.inl ⟨rfl, own.1.symm⟩
    | beside _ own member holds =>
      rw [operands, List.cons.injEq] at own
      exact Or.inr ⟨rfl, _, own.2 ▸ member, holds⟩
    | inherited _ unaddressed => exact absurd operands (unaddressed isAccess _ _)
  · rintro (⟨rfl, rfl⟩ | ⟨rfl, operand, member, holds⟩)
    · exact .addressed isAccess operands
    · exact .beside isAccess operands member holds

/-- All edges of any other expression hand the class down. -/
theorem iff_of_plain (notTransfer : parent.operation ∉ LowOperation.transfers)
    (unaddressed : parent.operation ∈ LowOperation.accesses →
      ∀ first rest, parent.operands ≠ Expr.toOperand first :: rest) :
    Edge parent edge child ↔
      edge = .inherited ∧ child ∈ Operand.expressionsAll parent.operands := by
  rw [Operand.mem_expressionsAll_iff]
  constructor
  · intro leads
    cases leads with
    | flow isTransfer => exact absurd isTransfer notTransfer
    | addressed isAccess operands => exact absurd operands (unaddressed isAccess _ _)
    | beside isAccess operands => exact absurd operands (unaddressed isAccess _ _)
    | inherited _ _ member holds => exact ⟨rfl, _, member, holds⟩
  · rintro ⟨rfl, operand, member, holds⟩
    exact .inherited notTransfer unaddressed member holds

end Edge

/-! ### What a task comes to -/

/-- The class at the end of an edge, with the class at its start. -/
def EdgeClass.use (edge : EdgeClass) (above : ReferenceUse) (child : LowExpr) : ReferenceUse :=
  match edge with
  | .flow => .controlFlow
  | .addressed => (ReferenceTask.ofAddressed child).use
  | .beside => .none
  | .inherited => above

namespace ReferenceTask

variable {isCode : UInt64 → Bool} {task next : ReferenceTask} {address : UInt64}

theorem mem_ofOperands_iff {use : ReferenceUse} {operands : List LowOperand} :
    next ∈ ofOperands use operands ↔
      next.use = use ∧ next.expression ∈ Operand.expressionsAll operands := by
  obtain ⟨expression, nextUse⟩ := next
  simp only [ofOperands, List.mem_map, mk.injEq]
  constructor
  · rintro ⟨_, member, rfl, rfl⟩
    exact ⟨rfl, member⟩
  · rintro ⟨rfl, member⟩
    exact ⟨expression, member, rfl, rfl⟩

/-- The tasks below an expression are the ends of its edges, each with the class that the edge
gives it. -/
theorem finding_of_notMem_barriers (isCode : UInt64 → Bool) (task : ReferenceTask)
    (passes : task.expression.operation ∉ LowOperation.barriers) :
    ∃ tasks, task.finding isCode = .tasks tasks ∧ ∀ next : ReferenceTask, next ∈ tasks ↔
      ∃ edge, Edge task.expression edge next.expression ∧
        next.use = edge.use task.use next.expression := by
  obtain ⟨expression, use⟩ := task
  obtain ⟨known, notConstant⟩ := not_or.mp
    (mt (LowOperation.mem_barriers_iff expression.operation).mpr passes)
  by_cases isTransfer : expression.operation ∈ LowOperation.transfers
  · refine ⟨ofOperands .controlFlow expression.operands, ?_, fun next => ?_⟩
    · simp [finding, known, (LowOperation.mem_transfers_iff _).mp isTransfer]
    · simp only [Edge.iff_of_transfer isTransfer, mem_ofOperands_iff]
      constructor
      · rintro ⟨sameUse, member⟩
        exact ⟨.flow, ⟨rfl, member⟩, sameUse⟩
      · rintro ⟨_, ⟨rfl, member⟩, sameUse⟩
        exact ⟨sameUse, member⟩
  · have noTransfer := mt (LowOperation.mem_transfers_iff _).mpr isTransfer
    cases addresses : LowExpr.addressed? expression with
    | some addressed =>
      obtain ⟨isMemory, rest, operands⟩ := LowExpr.addressed?_eq_some_iff.mp addresses
      have isAccess := (LowOperation.mem_accesses_iff _).mpr isMemory
      refine ⟨ofAddressed addressed :: ofOperands .none rest, ?_, fun next => ?_⟩
      · simp [finding, known, noTransfer, addresses, operands]
      · simp only [Edge.iff_of_access isAccess operands, List.mem_cons, mem_ofOperands_iff]
        constructor
        · rintro (rfl | ⟨sameUse, member⟩)
          · exact ⟨.addressed, Or.inl ⟨rfl, rfl⟩, rfl⟩
          · exact ⟨.beside, Or.inr ⟨rfl, member⟩, sameUse⟩
        · obtain ⟨nextExpression, nextUse⟩ := next
          rintro ⟨_, ⟨rfl, rfl⟩ | ⟨rfl, member⟩, sameUse⟩
          · exact Or.inl (congrArg (mk nextExpression) sameUse)
          · exact Or.inr ⟨sameUse, member⟩
    | none =>
      have unaddressed : expression.operation ∈ LowOperation.accesses →
          ∀ first rest, expression.operands ≠ Expr.toOperand first :: rest := by
        intro isAccess first rest operands
        have found := LowExpr.addressed?_eq_some_iff.mpr
          ⟨(LowOperation.mem_accesses_iff _).mp isAccess, rest, operands⟩
        rw [addresses] at found
        cases found
      refine ⟨ofOperands use expression.operands, ?_, fun next => ?_⟩
      · simp [finding, known, noTransfer, addresses, notConstant]
      · simp only [Edge.iff_of_plain isTransfer unaddressed, mem_ofOperands_iff]
        constructor
        · rintro ⟨sameUse, member⟩
          exact ⟨.inherited, ⟨rfl, member⟩, sameUse⟩
        · rintro ⟨_, ⟨rfl, member⟩, sameUse⟩
          exact ⟨sameUse, member⟩

theorem finding_of_isUnknown (unknown : task.expression.operation.isUnknown = true) :
    task.finding isCode = .tasks [] := by
  simp [finding, unknown]

/-- A pointer constant comes to its address if it points into code and is no address of memory. -/
theorem finding_constPtr (operands : List LowOperand) (use : ReferenceUse) :
    finding isCode ⟨⟨.constPtr, operands⟩, use⟩ =
      match operands with
      | .int target :: _ => if !use.isMemory && isCode target then .address target else .tasks []
      | _ => .tasks [] := by
  rcases operands with _ | ⟨_ | _ | _ | _, _⟩ <;> rfl

/-- An expression below which nothing is looked at comes to an address or to nothing. -/
theorem finding_of_mem_barriers (isCode : UInt64 → Bool)
    (stops : task.expression.operation ∈ LowOperation.barriers) :
    (∃ target, task.finding isCode = .address target) ∨ task.finding isCode = .tasks [] := by
  rcases (LowOperation.mem_barriers_iff _).mp stops with unknown | isConstant
  · exact Or.inr (finding_of_isUnknown unknown)
  · obtain ⟨⟨operation, operands⟩, use⟩ := task
    subst isConstant
    rw [finding_constPtr]
    split
    · split
      · exact Or.inl ⟨_, rfl⟩
      · exact Or.inr rfl
    · exact Or.inr rfl

theorem finding_eq_address_iff :
    task.finding isCode = .address address ↔
      (∃ rest, task.expression = ⟨.constPtr, .int address :: rest⟩) ∧
        task.use.isMemory = false ∧ isCode address = true := by
  obtain ⟨⟨operation, operands⟩, use⟩ := task
  by_cases isConstant : operation = .constPtr
  · subst isConstant
    rw [finding_constPtr]
    split
    · rename_i target rest
      by_cases counts : (!use.isMemory && isCode target) = true
      · simp only [counts, if_true, ReferenceFinding.address.injEq]
        simp only [Bool.and_eq_true, Bool.not_eq_true'] at counts
        constructor
        · rintro rfl
          exact ⟨⟨rest, rfl⟩, counts⟩
        · rintro ⟨⟨_, same⟩, -⟩
          cases same
          rfl
      · simp only [counts, Bool.false_eq_true, if_false, reduceCtorEq, false_iff]
        rintro ⟨⟨_, same⟩, notMemory, intoCode⟩
        cases same
        simp [notMemory, intoCode] at counts
    · rename_i notNumber
      refine iff_of_false nofun ?_
      rintro ⟨⟨rest, same⟩, -⟩
      cases same
      exact notNumber _ _ rfl
  · refine iff_of_false ?_ ?_
    · by_cases stops : operation ∈ LowOperation.barriers
      · have unknown := ((LowOperation.mem_barriers_iff _).mp stops).resolve_right isConstant
        rw [finding_of_isUnknown unknown]
        exact nofun
      · obtain ⟨tasks, found, -⟩ := finding_of_notMem_barriers isCode
          ⟨⟨operation, operands⟩, use⟩ stops
        rw [found]
        exact nofun
    · rintro ⟨⟨rest, same⟩, -⟩
      cases same
      exact isConstant rfl

/-! ### What a task reaches -/

/-- Whether the node at the end of a path is an address of memory, with the class at its start. -/
def endsInMemory (use : ReferenceUse) (steps : List (LowExpr × EdgeClass)) : Bool :=
  match lowestSetting steps with
  | none => use.isMemory
  | some edge => edge = .addressed

/-- The addresses at the ends of the paths from a task. -/
def Reaches (isCode : UInt64 → Bool) (task : ReferenceTask) (address : UInt64) : Prop :=
  ∃ steps rest, Path task.expression steps ⟨.constPtr, .int address :: rest⟩ ∧
    isCode address = true ∧ (∀ step ∈ steps, step.1.operation ∉ LowOperation.barriers) ∧
    endsInMemory task.use steps = false

theorem lowestSetting_cons (parent : LowExpr) (edge : EdgeClass)
    (steps : List (LowExpr × EdgeClass)) :
    lowestSetting ((parent, edge) :: steps) =
      (lowestSetting steps).or (if edge.sets then some edge else none) := by
  unfold lowestSetting
  cases sets : edge.sets with
  | true => simp [sets, List.getLast?_cons, Option.or_some]
  | false => simp [sets]

theorem sets_of_lowestSetting {steps : List (LowExpr × EdgeClass)} {edge : EdgeClass}
    (lowest : lowestSetting steps = some edge) : edge.sets = true :=
  (List.mem_filter.mp (List.mem_of_getLast? lowest)).2

/-- A path goes on from the end of its first edge with the class of this edge. -/
theorem endsInMemory_cons (use : ReferenceUse) (parent child : LowExpr) (edge : EdgeClass)
    (steps : List (LowExpr × EdgeClass)) :
    endsInMemory use ((parent, edge) :: steps) = endsInMemory (edge.use use child) steps := by
  have ofAddressed : (EdgeClass.addressed.use use child).isMemory = true := by
    unfold EdgeClass.use ReferenceTask.ofAddressed
    cases child.operation.isConstant <;> rfl
  unfold endsInMemory
  rw [lowestSetting_cons]
  cases lowestSetting steps with
  | some lower => rfl
  | none =>
    cases edge with
    | addressed => exact ofAddressed.symm
    | flow | beside | inherited => rfl

/-- A task reaches the address it comes to, or what the tasks below it reach. -/
theorem reaches_iff :
    task.Reaches isCode address ↔ task.finding isCode = .address address ∨
      ∃ tasks, task.finding isCode = .tasks tasks ∧
        ∃ next ∈ tasks, next.Reaches isCode address := by
  constructor
  · rintro ⟨steps, rest, path, intoCode, passes, notMemory⟩
    obtain ⟨expression, use⟩ := task
    cases path with
    | here => exact Or.inl (finding_eq_address_iff.mpr ⟨⟨rest, rfl⟩, notMemory, intoCode⟩)
    | down first path =>
      rename_i child edge steps
      obtain ⟨here, below⟩ := List.forall_mem_cons.mp passes
      obtain ⟨tasks, found, ends⟩ := finding_of_notMem_barriers isCode ⟨expression, use⟩ here
      refine Or.inr ⟨tasks, found, ⟨child, edge.use use child⟩, ?_, ?_⟩
      · exact (ends _).mpr ⟨edge, first, rfl⟩
      · exact ⟨steps, rest, path, intoCode, below,
          (endsInMemory_cons use expression child edge steps).symm.trans notMemory⟩
  · rintro (found | ⟨tasks, found, next, member, steps, rest, path, intoCode, below, notMemory⟩)
    · obtain ⟨⟨rest, isConstant⟩, notMemory, intoCode⟩ := finding_eq_address_iff.mp found
      refine ⟨[], rest, ?_, intoCode, nofun, notMemory⟩
      rw [isConstant]
      exact .here _
    · by_cases stops : task.expression.operation ∈ LowOperation.barriers
      · rcases finding_of_mem_barriers isCode stops with ⟨target, other⟩ | nothing
        · rw [found] at other
          cases other
        · rw [found] at nothing
          cases nothing
          cases member
      · obtain ⟨others, again, ends⟩ := finding_of_notMem_barriers isCode task stops
        rw [found] at again
        cases again
        obtain ⟨edge, first, sameUse⟩ := (ends next).mp member
        refine ⟨_, rest, .down first path, intoCode,
          List.forall_mem_cons.mpr ⟨stops, below⟩, ?_⟩
        rw [endsInMemory_cons _ _ next.expression, ← sameUse]
        exact notMemory

/-- The task at the root of an expression reaches what the expression refers to. -/
theorem reaches_root_iff {root : LowExpr} :
    Reaches isCode ⟨root, .none⟩ address ↔ root.Refers isCode address := by
  unfold Reaches LowExpr.Refers
  refine exists_congr fun steps => exists_congr fun rest => ?_
  refine and_congr_right fun _ => and_congr_right fun _ => and_congr_right fun _ => ?_
  unfold endsInMemory
  cases lowest : lowestSetting steps with
  | none => simp [ReferenceUse.isMemory]
  | some edge =>
    have sets := sets_of_lowestSetting lowest
    cases edge with
    | flow | addressed | beside => simp
    | inherited => cases sets

end ReferenceTask

/-! ### Working off tasks -/

/-- Working off tasks in any order, from the addresses found before to all that are found. -/
inductive Collects (isCode : UInt64 → Bool) :
    AddressSet → List ReferenceTask → AddressSet → Prop
  | done (references : AddressSet) : Collects isCode references [] references
  | address {references result : AddressSet} {pending rest : List ReferenceTask}
      {task : ReferenceTask} {target : UInt64} (chosen : pending.Perm (task :: rest))
      (found : task.finding isCode = .address target)
      (later : Collects isCode (references.add target) rest result) :
      Collects isCode references pending result
  | tasks {references result : AddressSet} {pending rest tasks : List ReferenceTask}
      {task : ReferenceTask} (chosen : pending.Perm (task :: rest))
      (found : task.finding isCode = .tasks tasks)
      (later : Collects isCode references (tasks ++ rest) result) :
      Collects isCode references pending result

/-- In every order, tasks add the addresses that they reach and no others. -/
theorem Collects.mem_iff {isCode : UInt64 → Bool} {references result : AddressSet}
    {pending : List ReferenceTask} (collects : Collects isCode references pending result)
    (address : UInt64) :
    address ∈ result ↔
      address ∈ references ∨ ∃ task ∈ pending, task.Reaches isCode address := by
  induction collects with
  | done references => simp
  | @address references result pending rest task target chosen found later inductionHypothesis =>
    have own : task.Reaches isCode address ↔ address = target := by
      rw [ReferenceTask.reaches_iff, found]
      simp [eq_comm]
    simp only [inductionHypothesis, AddressSet.mem_add, chosen.mem_iff, List.mem_cons,
      exists_eq_or_imp, own]
    exact or_assoc.trans or_left_comm
  | @tasks references result pending rest tasks task chosen found later inductionHypothesis =>
    have below : task.Reaches isCode address ↔
        ∃ next ∈ tasks, next.Reaches isCode address := by
      rw [ReferenceTask.reaches_iff, found]
      simp
    simp only [inductionHypothesis, chosen.mem_iff, List.mem_cons, List.mem_append, or_and_right,
      exists_or, exists_eq_left, below]

/-- The stack of tasks is one of the orders. -/
theorem collects_collectPending (isCode : UInt64 → Bool) (references : AddressSet)
    (pending : List ReferenceTask) :
    Collects isCode references pending (collectPending isCode references pending) := by
  fun_induction collectPending isCode references pending with
  | case1 references => exact .done references
  | case2 references task rest target found inductionHypothesis =>
    exact .address (.refl _) found inductionHypothesis
  | case3 references task rest tasks found inductionHypothesis =>
    exact .tasks (.refl _) found inductionHypothesis

/-- An expression adds the addresses that it refers to, whatever was found before. -/
theorem LowExpr.mem_collectReferences_iff (isCode : UInt64 → Bool) (references : AddressSet)
    (expression : LowExpr) (address : UInt64) :
    address ∈ collectReferences isCode references expression ↔
      address ∈ references ∨ expression.Refers isCode address := by
  rw [collectReferences, (collects_collectPending isCode references _).mem_iff]
  simp [ReferenceTask.reaches_root_iff]

/-- Collecting the code addresses that an expression refers to adds exactly the addresses at the
ends of the paths that count, whatever was found before, and every order of the work finds the
same. -/
theorem LowExpr.collectReferences_by_paths (isCode : UInt64 → Bool) (references : AddressSet)
    (expression : LowExpr) :
    (∀ address, address ∈ collectReferences isCode references expression ↔
        address ∈ references ∨ expression.Refers isCode address) ∧
      ∀ result, Collects isCode references [⟨expression, .none⟩] result ↔
        result = collectReferences isCode references expression := by
  refine ⟨mem_collectReferences_iff isCode references expression, fun result => ?_⟩
  have onStack : Collects isCode references [⟨expression, .none⟩] (collectReferences ..) :=
    collects_collectPending isCode references _
  constructor
  · intro inOrder
    refine AddressSet.eq_of_mem_iff fun address => ?_
    rw [inOrder.mem_iff, onStack.mem_iff]
  · rintro rfl
    exact onStack

end BinaryFacts
