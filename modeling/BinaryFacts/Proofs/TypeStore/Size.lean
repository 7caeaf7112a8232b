/-
This file proves that the search for the size of a type finds exactly the size that the rules
give it. The rules are inductive, so they give no size to a type that depends on itself, on void,
on a function or on an id without a node, and none to a type whose size, or the size of one of
whose parts, does not fit in a word.

The search keeps marks of nodes that it has measured, also of some that are still waiting for
their parts. The invariant is that every such mark is final: it is the size that the rules give,
or none where they give none. A waiting node stands on the stack of tasks, and everything above it
there is a node on which its size depends; so a waiting node that is visited depends on itself,
and the mark that it has no size is right at once, for itself and for every node that reads it.
-/

import BinaryFacts.TypeStore.Size
import Mathlib.Data.Set.Insert
import Mathlib.Logic.Relation

namespace BinaryFacts

/-! ### Checked arithmetic on sizes -/

theorem map_toNat_checkedSum (left right : UInt64) (value : Nat) :
    (checkedSum left right).toOption.map UInt64.toNat = some value ↔
      value = left.toNat + right.toNat ∧ value < UInt64.size := by
  unfold checkedSum
  split
  · rename_i small
    have exact : (left + right).toNat = left.toNat + right.toNat :=
      (UInt64.toNat_add left right).trans (Nat.mod_eq_of_lt small)
    simp only [Except.toOption, Option.map_some, Option.some.injEq, exact]
    exact ⟨fun same => ⟨same.symm, same ▸ small⟩, fun both => both.1.symm⟩
  · rename_i large
    refine iff_of_false (fun impossible => nomatch impossible) ?_
    rintro ⟨rfl, small⟩
    exact large small

theorem map_toNat_checkedProduct (left right : UInt64) (value : Nat) :
    (checkedProduct left right).toOption.map UInt64.toNat = some value ↔
      value = left.toNat * right.toNat ∧ value < UInt64.size := by
  unfold checkedProduct
  split
  · rename_i small
    have exact : (left * right).toNat = left.toNat * right.toNat :=
      (UInt64.toNat_mul left right).trans (Nat.mod_eq_of_lt small)
    simp only [Except.toOption, Option.map_some, Option.some.injEq, exact]
    exact ⟨fun same => ⟨same.symm, same ▸ small⟩, fun both => both.1.symm⟩
  · rename_i large
    refine iff_of_false (fun impossible => nomatch impossible) ?_
    rintro ⟨rfl, small⟩
    exact large small

namespace TypeNode

/-- The sum of the sizes in a row. -/
def sumOf (sizes : List Nat) : Nat := sizes.foldr Nat.add 0

/-- The largest of the sizes in a row, zero for an empty one. -/
def largestOf (sizes : List Nat) : Nat := sizes.foldr Nat.max 0

variable {Child : Type} {sizeOf : Child → Option UInt64} {row : List Child}

/-- A fold over sizes fails if one of them is missing. -/
theorem foldlM_eq_none_of_missing {step : UInt64 → UInt64 → Option UInt64} {missing : Child}
    (member : missing ∈ row) (unsized : sizeOf missing = none) (start : UInt64) :
    row.foldlM (fun total child => do step total (← sizeOf child)) start = none := by
  induction row generalizing start with
  | nil => cases member
  | cons first rest inductionHypothesis =>
    rw [List.foldlM_cons]
    rcases List.mem_cons.mp member with rfl | later
    · rw [unsized]
      rfl
    · cases sizeOf first with
      | none => rfl
      | some size =>
        show (step start size >>= fun total => rest.foldlM _ total) = none
        cases step start size with
        | none => rfl
        | some total => exact inductionHypothesis later total

/-- The total of a row is found exactly if it fits in a word: the totals on the way are no
larger. -/
theorem map_toNat_foldlM_sum {part : Child → Nat}
    (sizes : ∀ child ∈ row, (sizeOf child).map UInt64.toNat = some (part child))
    (start : UInt64) (value : Nat) :
    (row.foldlM (fun total child => do (checkedSum total (← sizeOf child)).toOption)
        start).map UInt64.toNat = some value ↔
      value = start.toNat + sumOf (row.map part) ∧ value < UInt64.size := by
  induction row generalizing start with
  | nil =>
    show some start.toNat = some value ↔ value = start.toNat ∧ value < UInt64.size
    rw [Option.some.injEq]
    exact ⟨fun same => ⟨same.symm, same ▸ start.toNat_lt⟩, fun both => both.1.symm⟩
  | cons first rest inductionHypothesis =>
    obtain ⟨size, found, own⟩ := Option.map_eq_some_iff.mp (sizes first List.mem_cons_self)
    have sum : sumOf ((first :: rest).map part) = size.toNat + sumOf (rest.map part) := by
      rw [own]
      rfl
    have checked := map_toNat_checkedSum start size
    rw [List.foldlM_cons, found, sum]
    show ((checkedSum start size).toOption >>= fun total => rest.foldlM _ total).map _ = _ ↔ _
    cases summed : (checkedSum start size).toOption with
    | none =>
      rw [summed] at checked
      refine iff_of_false (fun impossible => nomatch impossible) fun both => ?_
      have small : start.toNat + size.toNat < UInt64.size := by omega
      exact nomatch (checked _).mpr ⟨rfl, small⟩
    | some total =>
      rw [summed] at checked
      have exact := ((checked total.toNat).mp rfl).1
      rw [← Nat.add_assoc, ← exact]
      exact inductionHypothesis (fun child member => sizes child (List.mem_cons_of_mem _ member))
        total

/-- The largest size of a row is always found. -/
theorem map_toNat_foldlM_max {part : Child → Nat}
    (sizes : ∀ child ∈ row, (sizeOf child).map UInt64.toNat = some (part child))
    (start : UInt64) :
    (row.foldlM (fun largest child => do return max largest (← sizeOf child))
        start).map UInt64.toNat = some (Nat.max start.toNat (largestOf (row.map part))) := by
  induction row generalizing start with
  | nil => exact congrArg some (Nat.max_eq_left (Nat.zero_le _)).symm
  | cons first rest inductionHypothesis =>
    obtain ⟨size, found, own⟩ := Option.map_eq_some_iff.mp (sizes first List.mem_cons_self)
    have largest : largestOf ((first :: rest).map part) =
        Nat.max size.toNat (largestOf (rest.map part)) := by
      rw [own]
      rfl
    have later := inductionHypothesis
      (fun child member => sizes child (List.mem_cons_of_mem _ member)) (max start size)
    rw [UInt64.toNat_max] at later
    rw [List.foldlM_cons, found, largest]
    exact later.trans (congrArg some (Nat.max_assoc _ _ _))

/-- What is a size of a node, given what are sizes of its children. -/
def Allows (pointerSize : UInt64) (sized : Child → Nat → Prop) : TypeNode Child → Nat → Prop
  | .void, _ | .function _ _ _, _ => False
  | .bool, value => value = 1
  | .integer size _, value | .float size, value => value = size.toNat
  | .padding bytes, value => value = bytes.toNat
  | .pointer _, value => value = pointerSize.toNat
  | .array element count, value =>
    ∃ size, sized element size ∧ value = size * count.toNat ∧ value < UInt64.size
  | .struct elements, value =>
    ∃ part : Child → Nat, (∀ element ∈ elements, sized element (part element)) ∧
      value = sumOf (elements.map part) ∧ value < UInt64.size
  | .union members, value =>
    ∃ part : Child → Nat, (∀ member ∈ members, sized member (part member)) ∧
      value = largestOf (members.map part)
  | .enumeration underlying, value | .typedef underlying, value => sized underlying value

/-- Either all sizes of a row are found, and they are the only ones, or one is missing. -/
theorem exists_sizes_or_missing {sized : Child → Nat → Prop}
    (parts : ∀ child ∈ row, ∀ value,
      (sizeOf child).map UInt64.toNat = some value ↔ sized child value) :
    (∃ part : Child → Nat,
        (∀ child ∈ row, (sizeOf child).map UInt64.toNat = some (part child)) ∧
        ∀ other : Child → Nat, (∀ child ∈ row, sized child (other child)) →
          row.map other = row.map part) ∨
      ∃ child ∈ row, sizeOf child = none ∧ ∀ value, ¬ sized child value := by
  by_cases complete : ∀ child ∈ row, sizeOf child ≠ none
  · refine Or.inl ⟨fun child => ((sizeOf child).getD 0).toNat, fun child member => ?_,
      fun other sizes => List.map_congr_left fun child member => ?_⟩
    · obtain ⟨size, found⟩ := Option.ne_none_iff_exists'.mp (complete child member)
      show _ = some ((sizeOf child).getD 0).toNat
      rw [found]
      rfl
    · obtain ⟨size, found, own⟩ := Option.map_eq_some_iff.mp
        ((parts child member _).mpr (sizes child member))
      rw [found, ← own]
      rfl
  · push Not at complete
    obtain ⟨child, member, unsized⟩ := complete
    refine Or.inr ⟨child, member, unsized, fun value isSized => ?_⟩
    have found := (parts child member value).mpr isSized
    rw [unsized] at found
    cases found

/-- What a fold finds from all sizes of a row, and not if one is missing, is what the rules allow
for some sizes of the row. -/
theorem map_toNat_fold {sized : Child → Nat → Prop} {fold : Option UInt64}
    {value : Nat} (allows : List Nat → Prop)
    (parts : ∀ child ∈ row, ∀ value,
      (sizeOf child).map UInt64.toNat = some value ↔ sized child value)
    (missing : ∀ child ∈ row, sizeOf child = none → fold = none)
    (complete : ∀ part : Child → Nat,
      (∀ child ∈ row, (sizeOf child).map UInt64.toNat = some (part child)) →
        (fold.map UInt64.toNat = some value ↔ allows (row.map part))) :
    fold.map UInt64.toNat = some value ↔
      ∃ part : Child → Nat, (∀ child ∈ row, sized child (part child)) ∧
        allows (row.map part) := by
  rcases exists_sizes_or_missing parts with ⟨part, sizes, same⟩ | ⟨child, member, unsized, none⟩
  · refine (complete part sizes).trans ?_
    constructor
    · intro allowed
      exact ⟨part, fun child member => (parts child member _).mp (sizes child member), allowed⟩
    · rintro ⟨other, isSized, allowed⟩
      exact same other isSized ▸ allowed
  · rw [missing child member unsized]
    refine iff_of_false (fun impossible => nomatch impossible) ?_
    rintro ⟨part, isSized, -⟩
    exact none _ (isSized child member)

/-- The size of a node is found from the sizes of its children exactly where the rules allow it. -/
theorem map_toNat_size {node : TypeNode Child} {pointerSize : UInt64}
    {sized : Child → Nat → Prop}
    (parts : ∀ child ∈ node.sizeParts, ∀ value,
      (sizeOf child).map UInt64.toNat = some value ↔ sized child value) {value : Nat} :
    (node.size pointerSize sizeOf).map UInt64.toNat = some value ↔
      node.Allows pointerSize sized value := by
  cases node with
  | void | function => exact iff_of_false (fun impossible => nomatch impossible) id
  | bool | integer | float | padding | pointer =>
    exact Option.some_inj.trans eq_comm
  | array element count =>
    have own := parts element List.mem_cons_self
    cases found : sizeOf element with
    | none =>
      rw [size, found]
      refine iff_of_false (fun impossible => nomatch impossible) ?_
      rintro ⟨size, isSize, -⟩
      have impossible := (own size).mpr isSize
      rw [found] at impossible
      cases impossible
    | some word =>
      rw [size, found]
      refine (map_toNat_checkedProduct word count value).trans ?_
      constructor
      · rintro ⟨same, fits⟩
        exact ⟨word.toNat, (own _).mp (by rw [found]; rfl), same, fits⟩
      · rintro ⟨size, isSize, same, fits⟩
        have exact := (own size).mpr isSize
        rw [found, Option.map_some, Option.some.injEq] at exact
        exact ⟨exact ▸ same, fits⟩
  | struct elements =>
    refine map_toNat_fold (fun sizes => value = sumOf sizes ∧ value < UInt64.size) parts
      (fun child member unsized => foldlM_eq_none_of_missing member unsized 0)
      fun part sizes => ?_
    refine (map_toNat_foldlM_sum sizes 0 value).trans ?_
    rw [UInt64.toNat_zero, Nat.zero_add]
  | union members =>
    refine map_toNat_fold (fun sizes => value = largestOf sizes) parts
      (fun child member unsized => foldlM_eq_none_of_missing member unsized 0)
      fun part sizes => ?_
    rw [size, map_toNat_foldlM_max sizes, Option.some_inj]
    have fromZero : Nat.max (0 : UInt64).toNat (largestOf (members.map part)) =
        largestOf (members.map part) := Nat.max_eq_right (Nat.zero_le _)
    rw [fromZero]
    exact eq_comm
  | enumeration underlying | typedef underlying => exact parts underlying List.mem_cons_self value

end TypeNode

/-! ### The rules -/

namespace TypeStore

variable {store : TypeStore} {pointerSize : UInt64} {id part : TypeId} {size : Nat}

/-- The size of a type by rules. Every size fits in a word. -/
inductive HasSize (store : TypeStore) (pointerSize : UInt64) : TypeId → Nat → Prop
  | bool {id : TypeId} (present : store.get? id = some .bool) : HasSize store pointerSize id 1
  | integer {id : TypeId} {size : UInt64} {signed : Bool}
      (present : store.get? id = some (.integer size signed)) :
      HasSize store pointerSize id size.toNat
  | float {id : TypeId} {size : UInt64} (present : store.get? id = some (.float size)) :
      HasSize store pointerSize id size.toNat
  | padding {id : TypeId} {bytes : UInt64} (present : store.get? id = some (.padding bytes)) :
      HasSize store pointerSize id bytes.toNat
  | pointer {id element : TypeId} (present : store.get? id = some (.pointer element)) :
      HasSize store pointerSize id pointerSize.toNat
  | array {id element : TypeId} {count : UInt64} {size : Nat}
      (present : store.get? id = some (.array element count))
      (sized : HasSize store pointerSize element size)
      (fits : size * count.toNat < UInt64.size) :
      HasSize store pointerSize id (size * count.toNat)
  | struct {id : TypeId} {elements : List TypeId} (part : TypeId → Nat)
      (present : store.get? id = some (.struct elements))
      (sized : ∀ element ∈ elements, HasSize store pointerSize element (part element))
      (fits : TypeNode.sumOf (elements.map part) < UInt64.size) :
      HasSize store pointerSize id (TypeNode.sumOf (elements.map part))
  | union {id : TypeId} {members : List TypeId} (part : TypeId → Nat)
      (present : store.get? id = some (.union members))
      (sized : ∀ member ∈ members, HasSize store pointerSize member (part member)) :
      HasSize store pointerSize id (TypeNode.largestOf (members.map part))
  | enumeration {id underlying : TypeId} {size : Nat}
      (present : store.get? id = some (.enumeration underlying))
      (sized : HasSize store pointerSize underlying size) : HasSize store pointerSize id size
  | typedef {id underlying : TypeId} {size : Nat}
      (present : store.get? id = some (.typedef underlying))
      (sized : HasSize store pointerSize underlying size) : HasSize store pointerSize id size

/-- The size of a node depends on that of another one. -/
def SizeNeeds (store : TypeStore) (id part : TypeId) : Prop :=
  ∃ node, store.get? id = some node ∧ part ∈ node.sizeParts

/-- A size given to a node is the one that the rules give it, or none where they give none. -/
def IsSize (store : TypeStore) (pointerSize : UInt64) (id : TypeId) (size : Option UInt64) :
    Prop :=
  ∀ value, size.map UInt64.toNat = some value ↔ store.HasSize pointerSize id value

/-- What a type with a size depends on has a size, and the dependence is well founded. -/
theorem HasSize.acc (sized : store.HasSize pointerSize id size) :
    Acc (fun part whole => store.SizeNeeds whole part) id := by
  induction sized with
  | bool present | integer present | float present | padding present | pointer present =>
    refine .intro _ ?_
    rintro part ⟨node, same, member⟩
    rw [present, Option.some.injEq] at same
    subst same
    cases member
  | array present sized fits inner | enumeration present sized inner
  | typedef present sized inner =>
    refine .intro _ ?_
    rintro part ⟨node, same, member⟩
    rw [present, Option.some.injEq] at same
    subst same
    rw [List.mem_singleton.mp member]
    exact inner
  | struct _ present sized fits inner | union _ present sized inner =>
    refine .intro _ ?_
    rintro part ⟨node, same, member⟩
    rw [present, Option.some.injEq] at same
    subst same
    exact inner part member

theorem HasSize.exists_node (sized : store.HasSize pointerSize id size) :
    ∃ node, store.get? id = some node := by
  cases sized with
  | bool present | integer present | float present | padding present | pointer present
  | array present | struct _ present | union _ present | enumeration present
  | typedef present => exact ⟨_, present⟩

theorem HasSize.of_needs (sized : store.HasSize pointerSize id size)
    (needs : store.SizeNeeds id part) : ∃ size, store.HasSize pointerSize part size := by
  obtain ⟨node, same, member⟩ := needs
  cases sized with
  | bool present | integer present | float present | padding present | pointer present =>
    rw [present, Option.some.injEq] at same
    subst same
    cases member
  | array present sized | enumeration present sized | typedef present sized =>
    rw [present, Option.some.injEq] at same
    subst same
    rw [List.mem_singleton.mp member]
    exact ⟨_, sized⟩
  | struct _ present sized | union _ present sized =>
    rw [present, Option.some.injEq] at same
    subst same
    exact ⟨_, sized part member⟩

theorem HasSize.of_reflTransGen (sized : store.HasSize pointerSize id size)
    (needs : Relation.ReflTransGen store.SizeNeeds id part) :
    ∃ size, store.HasSize pointerSize part size := by
  induction needs with
  | refl => exact ⟨size, sized⟩
  | tail earlier last inductionHypothesis =>
    obtain ⟨middleSize, middleSized⟩ := inductionHypothesis
    exact middleSized.of_needs last

/-- A type with a size does not depend on itself. -/
theorem HasSize.not_transGen (sized : store.HasSize pointerSize id size) :
    ¬ Relation.TransGen store.SizeNeeds id id := by
  have wellFounded := sized.acc
  clear sized
  induction wellFounded with
  | intro whole _ inductionHypothesis =>
    intro cycle
    obtain ⟨next, first, rest⟩ := Relation.TransGen.head'_iff.mp cycle
    exact inductionHypothesis next first (Relation.TransGen.tail' rest first)

theorem hasSize_iff {node : TypeNode TypeId} (present : store.get? id = some node) (value : Nat) :
    store.HasSize pointerSize id value ↔
      node.Allows pointerSize (store.HasSize pointerSize) value := by
  constructor
  · intro sized
    have only : ∀ {other : TypeNode TypeId}, store.get? id = some other → other = node :=
      fun presentToo => Option.some.inj (presentToo.symm.trans present)
    cases sized with
    | bool own | integer own | float own | padding own | pointer own => exact only own ▸ rfl
    | array own sized fits => exact only own ▸ ⟨_, sized, rfl, fits⟩
    | struct part own sized fits => exact only own ▸ ⟨part, sized, rfl, fits⟩
    | union part own sized => exact only own ▸ ⟨part, sized, rfl⟩
    | enumeration own sized | typedef own sized => exact only own ▸ sized
  · intro allowed
    cases node with
    | void | function => exact allowed.elim
    | bool => exact allowed ▸ .bool present
    | integer => exact allowed ▸ .integer present
    | float => exact allowed ▸ .float present
    | padding => exact allowed ▸ .padding present
    | pointer => exact allowed ▸ .pointer present
    | array =>
      obtain ⟨size, sized, rfl, fits⟩ := allowed
      exact .array present sized fits
    | struct =>
      obtain ⟨part, sized, rfl, fits⟩ := allowed
      exact .struct part present sized fits
    | union =>
      obtain ⟨part, sized, rfl⟩ := allowed
      exact .union part present sized
    | enumeration => exact .enumeration present allowed
    | typedef => exact .typedef present allowed

/-- The size of a node is found from the sizes of its parts as the rules say. -/
theorem isSize_of_parts {node : TypeNode TypeId} {sizeOf : TypeId → Option UInt64}
    (present : store.get? id = some node)
    (parts : ∀ part ∈ node.sizeParts, store.IsSize pointerSize part (sizeOf part)) :
    store.IsSize pointerSize id (node.size pointerSize sizeOf) := by
  intro value
  rw [hasSize_iff present]
  exact TypeNode.map_toNat_size fun part member => parts part member

end TypeStore

/-! ### The invariant of the search -/

namespace SizeSearch

variable {store : TypeStore} {pointerSize : UInt64} {search : SizeSearch} {id : TypeId}
  {task : SizeTask} {rest : List SizeTask}

/-- The nodes that are measured. -/
def measuredIds (search : SizeSearch) : Set TypeId :=
  {id | ∃ size, search.mark id = .measured size}

/-- Every node comes after its parts: if the nodes in `done` are measured and so is the node of
every task once the task is over, then the parts of a node are measured when its own turn comes. -/
def PartsFirst (store : TypeStore) : Set TypeId → List SizeTask → Prop
  | _, [] => True
  | done, .visit id :: rest => PartsFirst store (insert id done) rest
  | done, .measure id :: rest =>
    (∀ part, store.SizeNeeds id part → part ∈ done) ∧ PartsFirst store (insert id done) rest

/-- A search in order: its marks are final, and its tasks are those that the waiting nodes and the
root still ask for. -/
structure Sound (store : TypeStore) (pointerSize : UInt64) (search : SizeSearch) : Prop where
  size_marks : search.marks.size = store.size
  measured : ∀ id size, search.mark id = .measured size → store.IsSize pointerSize id size
  waiting : ∀ id, search.mark id = .waiting → .measure id ∈ search.tasks
  /-- What stands above a waiting node is a node on which it depends. -/
  above : search.tasks.Pairwise fun upper lower =>
    ∀ id, lower = .measure id → Relation.TransGen store.SizeNeeds id upper.id
  partsFirst : PartsFirst store search.measuredIds search.tasks
  needed : ∀ task ∈ search.tasks, Relation.ReflTransGen store.SizeNeeds search.root task.id
  root : search.root ∈ search.measuredIds ∨ ∃ task ∈ search.tasks, task.id = search.root

theorem mark_marking (inside : id.index < search.marks.size) (mark : SizeMark)
    (tasks : List SizeTask) (other : TypeId) :
    (search.marking id mark tasks).mark other = if other = id then mark else search.mark other := by
  simp only [SizeSearch.mark, marking, Array.getElem?_setIfInBounds]
  by_cases same : id.index = other.index
  · obtain rfl := TypeId.ext_index same
    simp [inside]
  · have different : other ≠ id := fun equal => same (by rw [equal])
    simp [same, different]

theorem PartsFirst.mono {done larger : Set TypeId} {tasks : List SizeTask}
    (first : PartsFirst store done tasks) (grown : done ⊆ larger) :
    PartsFirst store larger tasks := by
  induction tasks generalizing done larger with
  | nil => trivial
  | cons task rest inductionHypothesis =>
    cases task with
    | visit id => exact inductionHypothesis first (Set.insert_subset_insert grown)
    | measure id =>
      exact ⟨fun part needs => grown (first.1 part needs),
        inductionHypothesis first.2 (Set.insert_subset_insert grown)⟩

/-- Once its first task is over, a row of tasks goes on with the node of this task measured. -/
theorem PartsFirst.tail {done : Set TypeId} (first : PartsFirst store done (task :: rest)) :
    PartsFirst store (insert task.id done) rest := by
  cases task with
  | visit id => exact first
  | measure id => exact first.2

theorem PartsFirst.visits {done : Set TypeId} {ids : List TypeId}
    (first : PartsFirst store (done ∪ {id | id ∈ ids}) rest) :
    PartsFirst store done (ids.map .visit ++ rest) := by
  induction ids generalizing done with
  | nil => exact first.mono (by simp)
  | cons head others inductionHypothesis =>
    refine inductionHypothesis (first.mono ?_)
    rintro other (isDone | member)
    · exact Or.inl (Or.inr isDone)
    · rcases List.mem_cons.mp member with rfl | later
      · exact Or.inl (Or.inl rfl)
      · exact Or.inr later

namespace Sound

/-- The first task of a search whose node is measured is over. -/
theorem finished (sound : search.Sound store pointerSize) (tasks : search.tasks = task :: rest)
    (isMeasured : task.id ∈ search.measuredIds) :
    Sound store pointerSize { search with tasks := rest } where
  size_marks := sound.size_marks
  measured := sound.measured
  waiting id isWaiting := by
    have stands := sound.waiting id isWaiting
    rw [tasks] at stands
    rcases List.mem_cons.mp stands with rfl | later
    · obtain ⟨size, same⟩ := isMeasured
      exact nomatch isWaiting.symm.trans same
    · exact later
  above := by
    have ordered := sound.above
    rw [tasks] at ordered
    exact (List.pairwise_cons.mp ordered).2
  partsFirst := by
    have first := sound.partsFirst
    rw [tasks] at first
    refine first.tail.mono ?_
    exact Set.insert_subset isMeasured subset_rfl
  needed other member := sound.needed other (tasks ▸ List.mem_cons_of_mem _ member)
  root := by
    rcases sound.root with done | ⟨other, member, same⟩
    · exact Or.inl done
    · rw [tasks] at member
      rcases List.mem_cons.mp member with rfl | later
      · exact Or.inl (same ▸ isMeasured)
      · exact Or.inr ⟨other, later, same⟩

/-- A node may be marked as measured at any time, with the size that the rules give it. -/
theorem marking_measured (sound : search.Sound store pointerSize) (inside : id.index < store.size)
    {size : Option UInt64} (isSize : store.IsSize pointerSize id size) :
    Sound store pointerSize (search.marking id (.measured size) search.tasks) := by
  have marks := mark_marking (sound.size_marks ▸ inside) (.measured size) search.tasks
  have grown : search.measuredIds ⊆
      (search.marking id (.measured size) search.tasks).measuredIds := by
    rintro other ⟨otherSize, same⟩
    by_cases own : other = id
    · exact ⟨size, (marks other).trans (if_pos own)⟩
    · exact ⟨otherSize, (marks other).trans ((if_neg own).trans same)⟩
  refine ⟨(Array.size_setIfInBounds ..).trans sound.size_marks, ?_, ?_, sound.above,
    sound.partsFirst.mono grown, sound.needed, sound.root.imp_left (grown ·)⟩
  · intro other otherSize same
    rw [marks] at same
    split at same
    · rename_i own
      cases same
      exact own ▸ isSize
    · exact sound.measured other otherSize same
  · intro other isWaiting
    rw [marks] at isWaiting
    split at isWaiting
    · cases isWaiting
    · exact sound.waiting other isWaiting

/-- A node that is visited for the first time waits for its parts. -/
theorem marking_waiting (sound : search.Sound store pointerSize)
    (tasks : search.tasks = .visit id :: rest) {node : TypeNode TypeId}
    (present : store.get? id = some node) (unseen : search.mark id = .unseen) :
    Sound store pointerSize (search.marking id .waiting
      (node.sizeParts.reverse.map .visit ++ .measure id :: rest)) := by
  have inside := TypeStore.index_lt_of_get?_eq_some present
  have marks := mark_marking (sound.size_marks ▸ inside) .waiting
    (node.sizeParts.reverse.map .visit ++ .measure id :: rest)
  have isPart : ∀ part ∈ node.sizeParts.reverse, store.SizeNeeds id part :=
    fun part member => ⟨node, present, List.mem_reverse.mp member⟩
  have ordered := sound.above
  have first := sound.partsFirst
  rw [tasks] at ordered first
  obtain ⟨below, orderedRest⟩ := List.pairwise_cons.mp ordered
  have ownNeeded : Relation.ReflTransGen store.SizeNeeds search.root id :=
    sound.needed (.visit id) (tasks ▸ List.mem_cons_self)
  have measuredSame : search.measuredIds ⊆ (search.marking id .waiting
      (node.sizeParts.reverse.map .visit ++ .measure id :: rest)).measuredIds := by
    rintro other ⟨size, same⟩
    have apart : other ≠ id := fun own => nomatch (own ▸ same).symm.trans unseen
    exact ⟨size, (marks other).trans ((if_neg apart).trans same)⟩
  refine ⟨(Array.size_setIfInBounds ..).trans sound.size_marks, ?_, ?_, ?_, ?_, ?_, ?_⟩
  · intro other size same
    rw [marks] at same
    split at same
    · cases same
    · exact sound.measured other size same
  · intro other isWaiting
    rw [marks] at isWaiting
    refine List.mem_append_right _ ?_
    split at isWaiting
    · rename_i own
      exact own ▸ List.mem_cons_self
    · have stands := sound.waiting other isWaiting
      rw [tasks] at stands
      rcases List.mem_cons.mp stands with impossible | later
      · cases impossible
      · exact List.mem_cons_of_mem _ later
  · -- The parts stand above their node, and with it above every node that depends on it.
    refine List.pairwise_append.mpr ⟨?_, List.pairwise_cons.mpr ⟨below, orderedRest⟩, ?_⟩
    · refine List.pairwise_map.mpr (List.pairwise_of_forall fun _ _ other impossible => ?_)
      cases impossible
    · intro upper isUpper lower isLower other same
      obtain ⟨part, member, rfl⟩ := List.mem_map.mp isUpper
      rcases List.mem_cons.mp isLower with rfl | later
      · cases same
        exact .single (isPart part member)
      · exact (below lower later other same).tail (isPart part member)
  · have parts : PartsFirst store (search.measuredIds ∪ {part | part ∈ node.sizeParts.reverse})
        (.measure id :: rest) := by
      refine ⟨fun part needs => Or.inr ?_,
        first.tail.mono (Set.insert_subset_insert Set.subset_union_left)⟩
      obtain ⟨other, presentToo, member⟩ := needs
      rw [present, Option.some.injEq] at presentToo
      exact List.mem_reverse.mpr (presentToo ▸ member)
    exact parts.visits.mono measuredSame
  · intro other member
    rcases List.mem_append.mp member with isVisit | later
    · obtain ⟨part, isMember, rfl⟩ := List.mem_map.mp isVisit
      exact ownNeeded.tail (isPart part isMember)
    · rcases List.mem_cons.mp later with rfl | old
      · exact ownNeeded
      · exact sound.needed other (tasks ▸ List.mem_cons_of_mem _ old)
  · rcases sound.root with done | ⟨other, member, same⟩
    · exact Or.inl (measuredSame done)
    · rw [tasks] at member
      rcases List.mem_cons.mp member with rfl | old
      · exact Or.inr ⟨.measure id, List.mem_append_right _ List.mem_cons_self, same⟩
      · exact Or.inr ⟨other, List.mem_append_right _ (List.mem_cons_of_mem _ old), same⟩

/-- A waiting node that is visited depends on itself, so it has no size. -/
theorem isSize_none_of_waiting (sound : search.Sound store pointerSize)
    (tasks : search.tasks = .visit id :: rest) (isWaiting : search.mark id = .waiting) :
    store.IsSize pointerSize id none := by
  have stands := sound.waiting id isWaiting
  have ordered := sound.above
  rw [tasks] at stands ordered
  rcases List.mem_cons.mp stands with impossible | below
  · cases impossible
  · have cycle := (List.pairwise_cons.mp ordered).1 _ below id rfl
    exact fun value => iff_of_false (fun impossible => nomatch impossible)
      fun sized => sized.not_transGen cycle

/-- A node is measured from parts that are measured. -/
theorem isSize_of_measure (sound : search.Sound store pointerSize)
    (tasks : search.tasks = .measure id :: rest) {node : TypeNode TypeId}
    (present : store.get? id = some node) :
    store.IsSize pointerSize id (node.size pointerSize search.sizeAt) := by
  have first := sound.partsFirst
  rw [tasks] at first
  refine TypeStore.isSize_of_parts present fun part member => ?_
  obtain ⟨size, same⟩ := first.1 part ⟨node, present, member⟩
  have found : search.sizeAt part = size := by rw [sizeAt, same]
  exact found ▸ sound.measured part size same

/-- The first task of a search is over once its node is marked as measured. -/
theorem marking_finished (sound : search.Sound store pointerSize)
    (tasks : search.tasks = task :: rest) (inside : task.id.index < store.size)
    {size : Option UInt64} (isSize : store.IsSize pointerSize task.id size) :
    Sound store pointerSize (search.marking task.id (.measured size) rest) := by
  have marked := sound.marking_measured inside isSize
  have own : (search.marking task.id (.measured size) search.tasks).mark task.id =
      .measured size :=
    (mark_marking (sound.size_marks ▸ inside) _ _ _).trans (if_pos rfl)
  exact marked.finished tasks ⟨size, own⟩

/-- Every step that does not end a search keeps it in order, with the same root. -/
theorem going (sound : search.Sound store pointerSize) {next : SizeSearch}
    (step : store.sizeStep pointerSize search = .going next) :
    next.root = search.root ∧ next.Sound store pointerSize := by
  unfold TypeStore.sizeStep at step
  split at step
  · cases step
  · rename_i task rest tasks
    split at step
    · cases step
    · rename_i node present
      have inside := TypeStore.index_lt_of_get?_eq_some present
      split at step
      · cases step
        exact ⟨rfl, sound.marking_finished tasks inside (sound.isSize_of_measure tasks present)⟩
      · split at step
        · rename_i size same
          cases step
          exact ⟨rfl, sound.finished tasks ⟨size, same⟩⟩
        · rename_i isWaiting
          cases step
          have unsized := sound.isSize_none_of_waiting tasks isWaiting
          exact ⟨rfl, sound.marking_finished tasks inside unsized⟩
        · rename_i unseen
          cases step
          exact ⟨rfl, sound.marking_waiting tasks present unseen⟩

/-- A search in order ends with the size of its root. -/
theorem ended (sound : search.Sound store pointerSize) {size : Option UInt64}
    (step : store.sizeStep pointerSize search = .ended size) :
    store.IsSize pointerSize search.root size := by
  unfold TypeStore.sizeStep at step
  split at step
  · rename_i tasks
    cases step
    -- No task is left, so the root is measured.
    rcases sound.root with ⟨size, same⟩ | ⟨task, member, -⟩
    · have found : search.sizeAt search.root = size := by rw [sizeAt, same]
      exact found ▸ sound.measured _ size same
    · rw [tasks] at member
      cases member
  · rename_i task rest tasks
    split at step
    · rename_i missing
      cases step
      refine fun value => iff_of_false (fun impossible => nomatch impossible) fun sized => ?_
      obtain ⟨size, sizedTask⟩ :=
        sized.of_reflTransGen (sound.needed task (tasks ▸ List.mem_cons_self))
      obtain ⟨node, present⟩ := sizedTask.exists_node
      exact nomatch missing.symm.trans present
    · split at step
      · cases step
      · split at step <;> cases step

theorem start (store : TypeStore) (pointerSize : UInt64) (root : TypeId) :
    (store.sizeSearch root).Sound store pointerSize := by
  have marks : ∀ id, (store.sizeSearch root).mark id =
      if id.index < store.size then .unseen else .measured none := by
    intro id
    rw [mark, TypeStore.sizeSearch, Array.getElem?_map]
    by_cases inside : id.index < store.size
    · rw [if_pos inside, Array.getElem?_eq_getElem inside]
      rfl
    · rw [if_neg inside, Array.getElem?_eq_none (Nat.le_of_not_lt inside)]
      rfl
  refine ⟨Array.size_map, fun id size same => ?_, fun id isWaiting => ?_,
    List.pairwise_singleton _ _, trivial, fun task member => ?_,
    Or.inr ⟨.visit root, List.mem_cons_self, rfl⟩⟩
  · -- Only ids without a node count as measured before the first step.
    rw [marks] at same
    split at same
    · cases same
    · rename_i outside
      cases same
      refine fun value => iff_of_false (fun impossible => nomatch impossible) fun sized => ?_
      obtain ⟨node, present⟩ := sized.exists_node
      exact outside (TypeStore.index_lt_of_get?_eq_some present)
  · rw [marks] at isWaiting
    split at isWaiting <;> cases isWaiting
  · rw [List.mem_singleton.mp member]
    exact .refl

/-- A search in order finds the size of its root. -/
theorem isSize_searchSize (sound : search.Sound store pointerSize) :
    store.IsSize pointerSize search.root (store.searchSize pointerSize search) := by
  fun_induction TypeStore.searchSize store pointerSize search with
  | case1 search size ended => exact sound.ended ended
  | case2 search next going inductionHypothesis =>
    obtain ⟨sameRoot, nextSound⟩ := sound.going going
    exact sameRoot ▸ inductionHypothesis nextSound

end Sound

end SizeSearch

/-! ### The size of a type -/

namespace TypeStore

/-- Where a search stands after a number of steps; nothing happens once it has ended. -/
def afterSizeSteps (store : TypeStore) (pointerSize : UInt64) :
    Nat → SizeSearch → SizeProgress
  | 0, search => .going search
  | count + 1, search =>
    match store.sizeStep pointerSize search with
    | .ended size => .ended size
    | .going next => store.afterSizeSteps pointerSize count next

/-- A search ends after some number of steps, with what it finds in the end. -/
theorem exists_afterSizeSteps (store : TypeStore) (pointerSize : UInt64) (search : SizeSearch) :
    ∃ count, store.afterSizeSteps pointerSize count search =
      .ended (store.searchSize pointerSize search) := by
  fun_induction searchSize store pointerSize search with
  | case1 search size ended => exact ⟨1, by rw [afterSizeSteps, ended]⟩
  | case2 search next going inductionHypothesis =>
    obtain ⟨count, ends⟩ := inductionHypothesis
    exact ⟨count + 1, by rw [afterSizeSteps, going]; exact ends⟩

theorem isSize_sizeOf? (store : TypeStore) (pointerSize : UInt64) (id : TypeId) :
    store.IsSize pointerSize id (store.sizeOf? pointerSize id) :=
  (SizeSearch.Sound.start store pointerSize id).isSize_searchSize

/-- A size that is found is the one that the rules give. -/
theorem sizeOf?_eq_some_iff {store : TypeStore} {pointerSize size : UInt64} {id : TypeId} :
    store.sizeOf? pointerSize id = some size ↔ store.HasSize pointerSize id size.toNat := by
  rw [← store.isSize_sizeOf? pointerSize id size.toNat, Option.map_eq_some_iff]
  constructor
  · exact fun found => ⟨size, found, rfl⟩
  · rintro ⟨other, found, same⟩
    rw [found, UInt64.toNat_inj.mp same]

/-- A node that has no size of its own: there is none at the id, it is void or a function, or it
depends on itself. -/
def Unsized (store : TypeStore) (id : TypeId) : Prop :=
  store.get? id = none ∨ store.get? id = some .void ∨
    (∃ result parameters variadic,
      store.get? id = some (.function result parameters variadic)) ∨
    Relation.TransGen store.SizeNeeds id id

theorem Unsized.not_hasSize {store : TypeStore} {pointerSize : UInt64} {id : TypeId}
    (unsized : store.Unsized id) (size : Nat) : ¬ store.HasSize pointerSize id size := by
  intro sized
  rcases unsized with missing | isVoid | ⟨result, parameters, variadic, isFunction⟩ | cycle
  · obtain ⟨node, present⟩ := sized.exists_node
    exact nomatch missing.symm.trans present
  · exact (hasSize_iff isVoid size).mp sized
  · exact (hasSize_iff isFunction size).mp sized
  · exact sized.not_transGen cycle

/-- What depends on something without a size has none: neither its own rule nor that of anything
between the two applies. -/
theorem sizeOf?_eq_none_of_reflTransGen {store : TypeStore} {pointerSize : UInt64}
    {id part : TypeId} (needs : Relation.ReflTransGen store.SizeNeeds id part)
    (none : ∀ size, ¬ store.HasSize pointerSize part size) :
    store.sizeOf? pointerSize id = Option.none := by
  cases found : store.sizeOf? pointerSize id with
  | none => rfl
  | some word =>
    have sized := (isSize_sizeOf? store pointerSize id word.toNat).mp (by rw [found]; rfl)
    obtain ⟨size, partSized⟩ := sized.of_reflTransGen needs
    exact (none size partSized).elim

/-- The search for a size ends on every store, whatever its nodes refer to, and finds exactly the
size that the rules give. There is none for a type that depends, in any number of steps, on an id
without a node, on void, on a function, on itself, or on a type whose size is not found, as one
that is too large for a word. -/
theorem sizeOf?_eq_some_iff_hasSize (store : TypeStore) (pointerSize : UInt64) (id : TypeId) :
    (∃ count, store.afterSizeSteps pointerSize count (store.sizeSearch id) =
        .ended (store.sizeOf? pointerSize id)) ∧
      (∀ size, (store.sizeOf? pointerSize id).map UInt64.toNat = some size ↔
        store.HasSize pointerSize id size) ∧
      ∀ part, Relation.ReflTransGen store.SizeNeeds id part →
        store.Unsized part ∨ store.sizeOf? pointerSize part = none →
        store.sizeOf? pointerSize id = none := by
  refine ⟨exists_afterSizeSteps store pointerSize _, isSize_sizeOf? store pointerSize id, ?_⟩
  rintro part needs (unsized | notFound)
  · exact sizeOf?_eq_none_of_reflTransGen needs fun size => unsized.not_hasSize size
  · refine sizeOf?_eq_none_of_reflTransGen needs fun size sized => ?_
    have found := (isSize_sizeOf? store pointerSize part size).mpr sized
    rw [notFound] at found
    cases found

end TypeStore

end BinaryFacts
