/-
This file proves that what lies behind the typedefs of a stored type depends on its meaning only,
not on the ids or the size of its store.

`Peels` is the chain of typedefs from a type to the first node that is none. The ids on such a
chain have different distances to its end, so they are different, and the chain is shorter than
the store is large: stepping over as many typedefs as there are nodes comes to its end. Where
there is no such chain, stepping comes to a typedef or to no node at all. Stores in which two
types mean the same have the same chains from them.
-/

import BinaryFacts.Binding.Signature
import BinaryFacts.TypeStore.Unfolding

namespace BinaryFacts

namespace TypeStore

variable {store left right : TypeStore} {id other : TypeId} {node last : TypeNode TypeId}
  {steps more : Nat}

/-! ### Chains of typedefs -/

/-- A number of typedefs leads from a type to a node that is none. -/
inductive Peels (store : TypeStore) : Nat → TypeId → TypeNode TypeId → Prop
  | here {id : TypeId} {node : TypeNode TypeId} (present : store.get? id = some node)
      (final : ∀ underlying, node ≠ .typedef underlying) : Peels store 0 id node
  | further {steps : Nat} {id underlying : TypeId} {node : TypeNode TypeId}
      (isAlias : store.get? id = some (.typedef underlying))
      (rest : Peels store steps underlying node) : Peels store (steps + 1) id node

namespace Peels

/-- A type has one chain at most. -/
theorem unique (peels : store.Peels steps id node) (again : store.Peels more id last) :
    steps = more ∧ node = last := by
  induction peels generalizing more with
  | here present final =>
    cases again with
    | here presentAgain =>
      rw [present] at presentAgain
      exact ⟨rfl, Option.some.inj presentAgain⟩
    | further isAlias =>
      rw [present] at isAlias
      exact absurd (Option.some.inj isAlias) (final _)
  | further isAlias rest inductionHypothesis =>
    cases again with
    | here present final =>
      rw [isAlias] at present
      exact absurd (Option.some.inj present).symm (final _)
    | further isAliasAgain restAgain =>
      rw [isAlias] at isAliasAgain
      cases isAliasAgain
      obtain ⟨rfl, same⟩ := inductionHypothesis restAgain
      exact ⟨rfl, same⟩

theorem index_lt (peels : store.Peels steps id node) : id.index < store.size := by
  cases peels with
  | here present => exact index_lt_of_get?_eq_some present
  | further isAlias => exact index_lt_of_get?_eq_some isAlias

/-- The ids on a chain are different. -/
theorem exists_path (peels : store.Peels steps id node) :
    ∃ path : List TypeId, path.length = steps + 1 ∧ path.Nodup ∧
      ∀ passed ∈ path, ∃ fewer ≤ steps, store.Peels fewer passed node := by
  induction peels with
  | here present final =>
    rename_i place node
    refine ⟨[place], rfl, List.nodup_cons.mpr ⟨List.not_mem_nil, List.nodup_nil⟩,
      fun passed isPassed => ?_⟩
    rw [List.mem_singleton.mp isPassed]
    exact ⟨0, Nat.le_refl 0, .here present final⟩
  | further isAlias rest inductionHypothesis =>
    rename_i fewer place underlying final
    obtain ⟨path, long, different, passes⟩ := inductionHypothesis
    have whole : store.Peels (fewer + 1) place final := .further isAlias rest
    have fresh : place ∉ path := by
      intro again
      obtain ⟨distance, within, shorter⟩ := passes place again
      have sameDistance := (whole.unique shorter).1
      omega
    refine ⟨place :: path, by rw [List.length_cons, long],
      List.nodup_cons.mpr ⟨fresh, different⟩, ?_⟩
    intro passed isPassed
    rcases List.mem_cons.mp isPassed with rfl | later
    · exact ⟨fewer + 1, Nat.le_refl _, whole⟩
    · obtain ⟨distance, within, shorter⟩ := passes passed later
      exact ⟨distance, Nat.le_succ_of_le within, shorter⟩

/-- A chain is shorter than the store is large. -/
theorem lt_size (peels : store.Peels steps id node) : steps < store.size := by
  obtain ⟨path, long, different, passes⟩ := peels.exists_path
  have distinct : (path.map TypeId.index).Nodup :=
    List.Pairwise.map TypeId.index
      (fun first second apart same => apart (TypeId.ext_index same)) different
  have within : path.map TypeId.index ⊆ List.range store.size := by
    intro index isIndex
    obtain ⟨passed, isPassed, rfl⟩ := List.mem_map.mp isIndex
    obtain ⟨distance, -, shorter⟩ := passes passed isPassed
    exact List.mem_range.mpr shorter.index_lt
  have bound := distinct.length_le_of_subset within
  rw [List.length_map, long, List.length_range] at bound
  exact bound

/-- Stepping over typedefs goes along the chain. -/
theorem peelWithin_eq {underlying : TypeId} (peels : store.Peels steps id node)
    (isAlias : store.get? id = some (.typedef underlying)) (more : Nat) :
    store.peelWithin (more + 1) id = store.peelWithin more underlying := by
  rw [peelWithin, isAlias]
  refine if_neg fun same => ?_
  -- A typedef of itself has no chain: the chain would be one longer than itself.
  subst same
  cases peels with
  | here present final =>
    rw [isAlias] at present
    exact final _ (Option.some.inj present).symm
  | further isAliasAgain rest =>
    rw [isAlias] at isAliasAgain
    cases isAliasAgain
    have sameLength := ((Peels.further isAlias rest).unique rest).1
    omega

/-- Stepping over typedefs comes to the end of the chain. -/
theorem get?_peelWithin (peels : store.Peels steps id node) (enough : steps ≤ more) :
    store.get? (store.peelWithin more id) = some node := by
  induction peels generalizing more with
  | here present final =>
    cases more with
    | zero => exact present
    | succ more =>
      rename_i node
      rw [peelWithin, present]
      cases node with
      | typedef underlying => exact absurd rfl (final underlying)
      | void | bool | integer | float | pointer | array | struct | union | enumeration | function
      | padding => exact present
  | further isAlias rest inductionHypothesis =>
    cases more with
    | zero => cases enough
    | succ more =>
      rw [(Peels.further isAlias rest).peelWithin_eq isAlias]
      exact inductionHypothesis (Nat.le_of_succ_le_succ enough)

end Peels

/-- Where no chain ends there is a typedef or no node. -/
theorem get?_of_not_peels (endless : ∀ steps node, ¬ store.Peels steps id node) :
    store.get? id = none ∨ ∃ underlying, store.get? id = some (.typedef underlying) := by
  cases present : store.get? id with
  | none => exact Or.inl rfl
  | some node =>
    by_cases isAlias : ∃ underlying, node = .typedef underlying
    · obtain ⟨underlying, rfl⟩ := isAlias
      exact Or.inr ⟨underlying, rfl⟩
    · exact absurd (.here present fun underlying same => isAlias ⟨underlying, same⟩)
        (endless 0 node)

/-- Where no chain ends, stepping over typedefs comes to a typedef or to no node. -/
theorem get?_peelWithin_of_not_peels (endless : ∀ steps node, ¬ store.Peels steps id node)
    (more : Nat) : store.get? (store.peelWithin more id) = none ∨
      ∃ underlying, store.get? (store.peelWithin more id) = some (.typedef underlying) := by
  induction more generalizing id with
  | zero => exact get?_of_not_peels endless
  | succ more inductionHypothesis =>
    rw [peelWithin]
    split
    · rename_i underlying isAlias
      split
      · exact Or.inr ⟨underlying, isAlias⟩
      · exact inductionHypothesis
          fun steps node rest => endless (steps + 1) node (.further isAlias rest)
    · exact get?_of_not_peels endless

end TypeStore

/-! ### Types that mean the same -/

namespace SameMeaning

variable {left right : TypeStore} {id other : TypeId} {node : TypeNode TypeId}

theorem symm (same : SameMeaning left id right other) : SameMeaning right other left id :=
  fun depth => (same depth).symm

/-- The nodes of types that mean the same have children that mean the same. -/
theorem exists_node (same : SameMeaning left id right other) (present : left.get? id = some node) :
    ∃ last, right.get? other = some last ∧
      ∀ depth, node.map (left.unfold depth) = last.map (right.unfold depth) := by
  have levels : ∀ depth, Unfolding.node (node.map (left.unfold depth)) =
      right.unfold (depth + 1) other := by
    intro depth
    rw [← same (depth + 1), TypeStore.unfold, present]
  cases presentOther : right.get? other with
  | none =>
    have dangles := levels 0
    rw [TypeStore.unfold, presentOther] at dangles
    cases dangles
  | some last =>
    refine ⟨last, rfl, fun depth => ?_⟩
    have level := levels depth
    rw [TypeStore.unfold, presentOther] at level
    exact Unfolding.node.inj level

/-- Types that mean the same have the same chains of typedefs. -/
theorem exists_peels {steps : Nat} (same : SameMeaning left id right other)
    (peels : left.Peels steps id node) :
    ∃ last, right.Peels steps other last ∧
      ∀ depth, node.map (left.unfold depth) = last.map (right.unfold depth) := by
  induction peels generalizing other with
  | here present final =>
    obtain ⟨last, presentOther, alike⟩ := same.exists_node present
    refine ⟨last, .here presentOther ?_, alike⟩
    rintro underlying rfl
    rename_i node
    cases node with
    | typedef own => exact final own rfl
    | void | bool | integer | float | pointer | array | struct | union | enumeration | function
    | padding => cases alike 0
  | further isAlias rest inductionHypothesis =>
    obtain ⟨last, presentOther, alike⟩ := same.exists_node isAlias
    cases last with
    | typedef underlying =>
      have sameUnderlying : SameMeaning left _ right underlying :=
        fun depth => TypeNode.typedef.inj (alike depth)
      obtain ⟨final, peelsOther, alikeFinal⟩ := inductionHypothesis sameUnderlying
      exact ⟨final, .further presentOther peelsOther, alikeFinal⟩
    | void | bool | integer | float | pointer | array | struct | union | enumeration | function
    | padding => cases alike 0

/-- A test of nodes that looks at no children and fails for typedefs gives the same behind the
typedefs of types that mean the same. -/
theorem any_peeled?_eq (same : SameMeaning left id right other)
    (test : TypeNode TypeId → Bool) (testTree : TypeNode Unfolding → Bool)
    (shallow : ∀ (replace : TypeId → Unfolding) node, testTree (node.map replace) = test node)
    (typedefs : ∀ underlying, test (.typedef underlying) = false) :
    (left.peeled? id).any test = (right.peeled? other).any test := by
  have fails : ∀ {store : TypeStore} {place : TypeId},
      (∀ steps node, ¬ store.Peels steps place node) → (store.peeled? place).any test = false := by
    intro store place endless
    rw [TypeStore.peeled?]
    rcases TypeStore.get?_peelWithin_of_not_peels endless store.size with missing | ⟨own, isAlias⟩
    · rw [missing]
      rfl
    · rw [isAlias]
      exact typedefs own
  by_cases ends : ∃ steps node, left.Peels steps id node
  · obtain ⟨steps, node, peels⟩ := ends
    obtain ⟨last, peelsOther, alike⟩ := same.exists_peels peels
    rw [TypeStore.peeled?, TypeStore.peeled?, peels.get?_peelWithin (Nat.le_of_lt peels.lt_size),
      peelsOther.get?_peelWithin (Nat.le_of_lt peelsOther.lt_size)]
    show test node = test last
    rw [← shallow (left.unfold 0) node, alike 0, shallow]
  · have endless : ∀ steps node, ¬ left.Peels steps id node :=
      fun steps node peels => ends ⟨steps, node, peels⟩
    have endlessOther : ∀ steps node, ¬ right.Peels steps other node := by
      intro steps node peels
      obtain ⟨last, peelsLeft, -⟩ := same.symm.exists_peels peels
      exact endless steps last peelsLeft
    rw [fails endless, fails endlessOther]

end SameMeaning

/-- The register class follows two tests of the node behind the typedefs. -/
theorem TypeStore.registerClass?_eq (store : TypeStore) (id : TypeId) :
    store.registerClass? id =
      if (store.peeled? id).any (fun node => node.isInteger || node.isPointer) then some .integer
      else if (store.peeled? id).any TypeNode.isFloat then some .float
      else none := by
  unfold registerClass?
  cases store.peeled? id with
  | none => rfl
  | some node => cases node <;> rfl

namespace SameMeaning

variable {left right : TypeStore} {id other : TypeId}

/-- Types that mean the same belong to the same register class. -/
theorem registerClass?_eq (same : SameMeaning left id right other) :
    left.registerClass? id = right.registerClass? other := by
  have integers := same.any_peeled?_eq (fun node => node.isInteger || node.isPointer)
    (fun node => node.isInteger || node.isPointer) (by intro replace node; cases node <;> rfl)
    (fun _ => rfl)
  have floats := same.any_peeled?_eq TypeNode.isFloat TypeNode.isFloat
    (by intro replace node; cases node <;> rfl) (fun _ => rfl)
  rw [TypeStore.registerClass?_eq, TypeStore.registerClass?_eq, integers, floats]

/-- Types that mean the same are both void behind their typedefs, or both not. -/
theorem isVoidPeeled_eq (same : SameMeaning left id right other) :
    left.isVoidPeeled id = right.isVoidPeeled other :=
  same.any_peeled?_eq TypeNode.isVoid TypeNode.isVoid
    (by intro replace node; cases node <;> rfl) (fun _ => rfl)

/-- Types that mean the same are both void, or both not. -/
theorem isVoid_eq (same : SameMeaning left id right other) :
    (left.get? id).any TypeNode.isVoid = (right.get? other).any TypeNode.isVoid := by
  have shallow : ∀ (replace : TypeId → Unfolding) (node : TypeNode TypeId),
      (node.map replace).isVoid = node.isVoid := by
    intro replace node
    cases node <;> rfl
  cases present : left.get? id with
  | some node =>
    obtain ⟨last, presentOther, alike⟩ := same.exists_node present
    rw [presentOther]
    show node.isVoid = last.isVoid
    rw [← shallow (left.unfold 0) node, alike 0, shallow]
  | none =>
    cases presentOther : right.get? other with
    | none => rfl
    | some last =>
      obtain ⟨node, impossible, -⟩ := same.symm.exists_node presentOther
      rw [present] at impossible
      cases impossible

end SameMeaning

end BinaryFacts
