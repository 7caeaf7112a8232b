/-
This file defines the size of a stored type in bytes. The size of a node depends on the sizes of
its parts, and types may be nested in themselves, so sizes are found by a search in depth over a
stack of tasks. A node that is visited waits for the sizes of its parts; a waiting node that is
visited again is nested in itself and has no size. What was found once is kept, so that parts
shared by many nodes are measured once.

Every step of the search takes a task off the stack, and only a node that is visited for the first
time puts new ones on it, so the search ends.
-/

import BinaryFacts.TypeStore.Basic

namespace BinaryFacts

namespace TypeNode

variable {Child : Type}

/-- The children on whose sizes the size of a node depends. -/
def sizeParts : TypeNode Child → List Child
  | .pointer _ | .function _ _ _ => []
  | node => node.children

/-- The size of a node, given the sizes of its children. Void and functions have no size, and a
sum or product past 64 bits is none either. -/
def size (pointerSize : UInt64) (sizeOf : Child → Option UInt64) :
    TypeNode Child → Option UInt64
  | .void | .function _ _ _ => none
  | .bool => some 1
  | .integer size _ | .float size => some size
  | .padding bytes => some bytes
  | .pointer _ => some pointerSize
  | .array element count => do (checkedProduct (← sizeOf element) count).toOption
  | .struct elements =>
    elements.foldlM (fun total element => do (checkedSum total (← sizeOf element)).toOption) 0
  | .union members =>
    members.foldlM (fun largest member => do return max largest (← sizeOf member)) 0
  | .enumeration underlying | .typedef underlying => sizeOf underlying

end TypeNode

/-! ### The search -/

/-- How far the search has come with a node. -/
inductive SizeMark where
  | unseen
  /-- The node waits for the sizes of its parts. -/
  | waiting
  /-- The size of the node is known, or it is known to have none. -/
  | measured (size : Option UInt64)

/-- Whether a node is still to be visited for the first time. -/
def SizeMark.isUnseen : SizeMark → Bool
  | .unseen => true
  | .waiting | .measured _ => false

/-- A task of the search. -/
inductive SizeTask where
  /-- Look at a node. -/
  | visit (id : TypeId)
  /-- Find the size of a node from the sizes of its parts. -/
  | measure (id : TypeId)

/-- The node that a task is about. -/
def SizeTask.id : SizeTask → TypeId
  | .visit id | .measure id => id

/-- A search for the size of the node `root`. -/
structure SizeSearch where
  root : TypeId
  marks : Array SizeMark
  /-- The tasks to come, the next one first. -/
  tasks : List SizeTask

/-- Where a search stands after a step. -/
inductive SizeProgress where
  | going (search : SizeSearch)
  | ended (size : Option UInt64)

namespace SizeSearch

/-- How far the search has come with a node; an id without a node counts as measured. -/
def mark (search : SizeSearch) (id : TypeId) : SizeMark :=
  search.marks[id.index]?.getD (.measured none)

/-- The size found for a node. -/
def sizeAt (search : SizeSearch) (id : TypeId) : Option UInt64 :=
  match search.mark id with
  | .measured size => size
  | .unseen | .waiting => none

/-- Mark a node and go on with other tasks. -/
def marking (search : SizeSearch) (id : TypeId) (mark : SizeMark) (tasks : List SizeTask) :
    SizeSearch :=
  { search with marks := search.marks.setIfInBounds id.index mark, tasks }

/-- The number of nodes that were not visited yet. -/
def unseenCount (search : SizeSearch) : Nat := search.marks.toList.countP SizeMark.isUnseen

end SizeSearch

namespace TypeStore

/-- The search for the size of a node, before its first step. -/
def sizeSearch (store : TypeStore) (root : TypeId) : SizeSearch where
  root
  marks := store.nodes.map fun _ => .unseen
  tasks := [.visit root]

/-- One step of a search. A task about an id without a node ends it: the root depends on this id
and has no size. -/
def sizeStep (store : TypeStore) (pointerSize : UInt64) (search : SizeSearch) : SizeProgress :=
  match search.tasks with
  | [] => .ended (search.sizeAt search.root)
  | task :: rest =>
    match store.get? task.id with
    | none => .ended none
    | some node =>
      match task with
      | .measure id =>
        .going (search.marking id (.measured (node.size pointerSize search.sizeAt)) rest)
      | .visit id =>
        match search.mark id with
        | .measured _ => .going { search with tasks := rest }
        | .waiting => .going (search.marking id (.measured none) rest)
        | .unseen =>
          let tasks := node.sizeParts.reverse.map .visit ++ .measure id :: rest
          .going (search.marking id .waiting tasks)

end TypeStore

/-! ### The search ends -/

namespace SizeSearch

/-- Marking a node leaves no more nodes unseen than before, and fewer if it was unseen. -/
theorem countP_isUnseen_set (marks : List SizeMark) (index : Nat) (mark : SizeMark)
    (seen : mark.isUnseen = false) :
    (marks.set index mark).countP SizeMark.isUnseen ≤ marks.countP SizeMark.isUnseen ∧
      (marks[index]? = some .unseen →
        (marks.set index mark).countP SizeMark.isUnseen < marks.countP SizeMark.isUnseen) := by
  by_cases inside : index < marks.length
  · have counted := List.boole_getElem_le_countP (p := SizeMark.isUnseen) inside
    rw [List.countP_set inside, seen]
    refine ⟨by simp, fun unseen => ?_⟩
    rw [List.getElem?_eq_getElem inside, Option.some.injEq] at unseen
    rw [unseen] at counted ⊢
    simp only [SizeMark.isUnseen, if_true, Bool.false_eq_true, if_false] at counted ⊢
    omega
  · rw [List.set_eq_of_length_le (Nat.le_of_not_lt inside)]
    refine ⟨Nat.le_refl _, fun unseen => ?_⟩
    rw [List.getElem?_eq_none (Nat.le_of_not_lt inside)] at unseen
    cases unseen

/-- A search has come closer to its end if it has fewer nodes to visit, or as many and fewer
tasks. -/
def Closer (next search : SizeSearch) : Prop :=
  next.unseenCount < search.unseenCount ∨
    next.unseenCount ≤ search.unseenCount ∧ next.tasks.length < search.tasks.length

/-- Every step of a search brings it closer to its end. -/
theorem closer_of_sizeStep {store : TypeStore} {pointerSize : UInt64} {search next : SizeSearch}
    (step : store.sizeStep pointerSize search = .going next) : next.Closer search := by
  unfold TypeStore.sizeStep at step
  split at step
  · cases step
  · rename_i task rest tasks
    split at step
    · cases step
    · rename_i node present
      have shorter : rest.length < search.tasks.length := by
        rw [tasks]
        exact Nat.lt_succ_self _
      have counts := fun id mark => countP_isUnseen_set search.marks.toList id mark
      split at step
      · cases step
        refine Or.inr ⟨?_, shorter⟩
        simpa [unseenCount, marking] using (counts _ _ rfl).1
      · rename_i id
        split at step
        · cases step
          exact Or.inr ⟨Nat.le_refl _, shorter⟩
        · cases step
          refine Or.inr ⟨?_, shorter⟩
          simpa [unseenCount, marking] using (counts _ _ rfl).1
        · rename_i unseen
          cases step
          refine Or.inl ?_
          have here : search.marks.toList[id.index]? = some .unseen := by
            rw [Array.getElem?_toList]
            unfold mark at unseen
            cases found : search.marks[id.index]? with
            | none =>
              rw [found] at unseen
              cases unseen
            | some mark =>
              rw [found] at unseen
              exact congrArg some unseen
          simpa [unseenCount, marking] using (counts _ _ rfl).2 here

end SizeSearch

namespace TypeStore

/-- The size that a search finds in the end. -/
def searchSize (store : TypeStore) (pointerSize : UInt64) (search : SizeSearch) :
    Option UInt64 :=
  match _ : store.sizeStep pointerSize search with
  | .ended size => size
  | .going next => store.searchSize pointerSize next
termination_by (search.unseenCount, search.tasks.length)
decreasing_by
  rename_i step
  rcases SizeSearch.closer_of_sizeStep step with fewer | ⟨noMore, shorter⟩
  · exact Prod.Lex.left _ _ fewer
  · rcases Nat.lt_or_eq_of_le noMore with fewer | same
    · exact Prod.Lex.left _ _ fewer
    · rw [same]
      exact Prod.Lex.right _ shorter

/-- The size of a type in bytes, with pointers of `pointerSize` bytes. -/
def sizeOf? (store : TypeStore) (pointerSize : UInt64) (id : TypeId) : Option UInt64 :=
  store.searchSize pointerSize (store.sizeSearch id)

end TypeStore

end BinaryFacts
