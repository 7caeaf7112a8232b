/-
This file compares two runs over drafts that know the same of some keys, with whatever ids. Which
way a run goes is decided by the known keys and by nothing else in the draft, unless its ids run
out. So the two runs go the same way, if they do so at the descriptors with other keys.
-/

import BinaryFacts.Proofs.Normalization.Meaning
import BinaryFacts.Proofs.Normalization.Recursion
import BinaryFacts.Proofs.TwoRuns

namespace BinaryFacts

/-! ### Drafts that know the same keys -/

/-- Two drafts that know the same of some keys, with whatever ids. -/
def Draft.SameKeys (keys : Set String) (left right : Draft) : Prop :=
  ∀ key ∈ keys, left.identities.find? key = none ↔ right.identities.find? key = none

namespace Draft

variable {keys : Set String} {left right draft : Draft} {keyed : Bool} {key sought : String}
  {id other : TypeId} {node otherNode : TypeNode TypeId}

theorem find?_withNode_eq_none_iff :
    (draft.withNode keyed key id node).identities.find? sought = none ↔
      draft.identities.find? sought = none ∧ ¬ (keyed = true ∧ sought = key) := by
  cases keyed with
  | false => simp [withNode]
  | true =>
    show (draft.identities.insert key _).find? sought = none ↔ _
    rw [Table.find?_insert]
    split <;> simp_all

namespace SameKeys

theorem symm (same : left.SameKeys keys right) : right.SameKeys keys left :=
  fun key isKey => (same key isKey).symm

theorem trans {last : Draft} (same : left.SameKeys keys right)
    (further : right.SameKeys keys last) : left.SameKeys keys last :=
  fun key isKey => (same key isKey).trans (further key isKey)

theorem withNode (same : left.SameKeys keys right) :
    (left.withNode keyed key id node).SameKeys keys
      (right.withNode keyed key other otherNode) := fun sought isKey => by
  rw [find?_withNode_eq_none_iff, find?_withNode_eq_none_iff, same sought isKey]

end SameKeys

end Draft

/-- The error of a request that found no id left. -/
inductive NormalizeError.IsFull : NormalizeError → Prop
  | storeFull : IsFull .storeFull

namespace Building

/-! ### Relations of drafts -/

/-- A relation of drafts that know the same of some keys. It depends on what the drafts know only,
and a node that both enter under one key does not disturb it. -/
structure Steady (keys : Set String) (related : Draft → Draft → Prop) : Prop where
  sameKeys : ∀ {left right}, related left right → left.SameKeys keys right
  of_identities : ∀ {left right leftLater rightLater : Draft}, related left right →
    leftLater.identities = left.identities → rightLater.identities = right.identities →
      related leftLater rightLater
  withNode : ∀ {left right}, related left right → ∀ keyed key id other node otherNode,
    related (left.withNode keyed key id node) (right.withNode keyed key other otherNode)

theorem steady_sameKeys (keys : Set String) : Steady keys (Draft.SameKeys keys) where
  sameKeys same := same
  of_identities same kept keptToo key isKey := by
    rw [kept, keptToo]
    exact same key isKey
  withNode same _ _ _ _ _ _ := same.withNode

/-! ### Single steps of two runs -/

variable {binary : Binary} {pointerSize : UInt64} {descriptor : Descriptor} {keys : Set String}
  {related : Draft → Draft → Prop} {left right : Draft}

/-- The same is to be done for a descriptor in two runs. -/
inductive SameTask (binary : Binary) (pointerSize : UInt64) (descriptor : Descriptor) :
    Task → Draft → Task → Draft → Prop
  | done (id other : TypeId) (left right : Draft) :
      SameTask binary pointerSize descriptor (.done id) left (.done other) right
  | instead {target : Descriptor} (left right : Draft)
      (opens : binary.opening pointerSize descriptor = .instead target) :
      SameTask binary pointerSize descriptor (.instead target) left (.instead target) right
  | parts {form : Form Descriptor} (id other : TypeId) (left right : Draft)
      (opens : binary.opening pointerSize descriptor = .form form) :
      SameTask binary pointerSize descriptor (.parts id form) left (.parts other form) right

/-- A node is closed without entering a key, unless the ids run out. -/
theorem close_cases (id : TypeId) (form : Form TypeId) (draft : Draft) :
    (∃ after, close id form draft = .ok id after ∧ after.identities = draft.identities) ∨
      ∃ after, close id form draft = .error .storeFull after := by
  cases laid : formNode form draft with
  | error error after =>
    obtain ⟨rfl, -⟩ := formNode_eq_error laid
    exact Or.inr ⟨after, bind_of_error _ laid⟩
  | ok node middle =>
    have kept := identities_of_formNode (congrArg finalState laid)
    exact Or.inl ⟨middle.filled id node, bind_of_ok _ laid, kept⟩

namespace Steady

/-- Asking for an id changes nothing that is known. -/
theorem sameWay_allocate (steady : Steady keys related) (close : related left right)
    (ask askToo : TypeStore → Option (TypeId × TypeStore)) :
    SameWay NormalizeError.IsFull related anyValues (allocate ask left)
      (allocate askToo right) := by
  cases given : ask left.store with
  | none =>
    rw [allocate_of_none given]
    exact .passedLeft .storeFull _ _
  | some entry =>
    cases givenToo : askToo right.store with
    | none =>
      rw [allocate_of_none givenToo]
      exact .passedRight .storeFull _ _
    | some otherEntry =>
      rw [allocate_of_some given, allocate_of_some givenToo]
      exact .ok (steady.of_identities close rfl rfl) trivial

/-- Both runs enter the same key. -/
theorem sameWay_enter (steady : Steady keys related) (close : related left right) (key : String)
    (id other : TypeId) :
    SameWay NormalizeError.IsFull related anyValues (enter key id left)
      (enter key other right) := by
  have entered : related (left.withNode true key id .void) (right.withNode true key other .void) :=
    steady.withNode close _ _ _ _ _ _
  exact .ok (steady.of_identities entered rfl rfl) trivial

theorem sameWay_reserveKeyed (steady : Steady keys related)
    {form : Form Descriptor} (opens : binary.opening pointerSize descriptor = .form form)
    (close : related left right) :
    SameWay NormalizeError.IsFull related (SameTask binary pointerSize descriptor)
      (reserveKeyed descriptor.key form left) (reserveKeyed descriptor.key form right) :=
  (steady.sameWay_allocate close _ _).bind fun id other _ _ closeReserved _ =>
    (steady.sameWay_enter closeReserved _ id other).bind fun _ _ _ _ closeEntered _ =>
      .ok closeEntered (.parts _ _ _ _ opens)

/-- The work on a descriptor with one of the keys begins in the same way, unless the ids run
out. -/
theorem sameWay_start (steady : Steady keys related)
    (isKey : descriptor.key ∈ keys) (close : related left right) :
    SameWay NormalizeError.IsFull related (SameTask binary pointerSize descriptor)
      (start binary pointerSize descriptor left) (start binary pointerSize descriptor right) := by
  have same := steady.sameKeys close _ isKey
  have leaf : ∀ node, SameWay NormalizeError.IsFull related (SameTask binary pointerSize descriptor)
      ((do return .done (← intern node) : Building Task) left)
      ((do return .done (← intern node) : Building Task) right) := fun node =>
    (steady.sameWay_allocate close _ _).bind fun _ _ _ _ closeInterned _ =>
      .ok closeInterned (.done _ _ _ _)
  unfold start
  refine SameWay.get ?_
  cases known : left.identities.find? descriptor.key with
  | some id =>
    cases knownToo : right.identities.find? descriptor.key with
    | some other => exact .ok close (.done _ _ _ _)
    | none =>
      rw [same.mpr knownToo] at known
      cases known
  | none =>
    rw [same.mp known]
    obtain ⟨kind, width, registeredName, key⟩ := descriptor
    cases kind with
    | void | bool | integer | float | wideChar | varArgs | value => exact leaf _
    | pointer | array | function => exact steady.sameWay_reserveKeyed rfl close
    | aggregate variant members =>
      refine (steady.sameWay_allocate close _ _).bind fun id other _ _ closeReserved _ => ?_
      cases registeredName with
      | none => exact .ok closeReserved (.parts _ _ _ _ rfl)
      | some name =>
        exact (steady.sameWay_enter closeReserved key id other).bind fun _ _ _ _ closeEntered _ =>
          .ok closeEntered (.parts _ _ _ _ rfl)
    | enumeration =>
      refine (steady.sameWay_allocate close _ _).bind fun _ _ _ _ closeInterned _ => ?_
      refine (steady.sameWay_allocate closeInterned _ _).bind
        fun id other _ _ closeAdded _ => ?_
      cases registeredName with
      | none => exact .ok closeAdded (.done _ _ _ _)
      | some name =>
        exact (steady.sameWay_enter closeAdded key id other).bind fun _ _ _ _ closeEntered _ =>
          .ok closeEntered (.done _ _ _ _)
    | reference category typeId name =>
      cases resolved : binary.resolve category typeId name with
      | void =>
        simp only [resolved]
        exact leaf _
      | type target =>
        simp only [resolved]
        exact .ok close (.instead _ _ (by simp only [Binary.opening, resolved]))
      | typedef target =>
        simp only [resolved]
        exact steady.sameWay_reserveKeyed (by simp only [Binary.opening, resolved]) close
    | other kind => exact .error _ close

/-- Closing a node enters no keys, and fails only where the ids run out. -/
theorem sameWay_close (steady : Steady keys related)
    (close : related left right) (id other : TypeId) (form otherForm : Form TypeId) :
    SameWay NormalizeError.IsFull related anyValues (Building.close id form left)
      (Building.close other otherForm right) := by
  rcases close_cases id form left with ⟨after, closes, kept⟩ | ⟨after, fails⟩
  · rcases close_cases other otherForm right with ⟨last, closesToo, keptToo⟩ | ⟨last, failsToo⟩
    · rw [closes, closesToo]
      exact .ok (steady.of_identities close kept keptToo) trivial
    · rw [failsToo]
      exact .passedRight .storeFull _ _
  · rw [fails]
    exact .passedLeft .storeFull _ _

/-- Building a form goes the same way if building its parts does. -/
theorem sameWay_buildForm (steady : Steady keys related)
    {build rebuild : Descriptor → Building TypeId} {form : Form Descriptor} (id other : TypeId)
    (close : related left right)
    (each : ∀ part ∈ form.parts, ∀ before after, related before after →
      SameWay NormalizeError.IsFull related anyValues (build part before) (rebuild part after)) :
    SameWay NormalizeError.IsFull related anyValues (buildForm build id form left)
      (buildForm rebuild other form right) :=
  (SameWay.formMapM close each).bind fun filled otherFilled _ _ closeParts _ =>
    steady.sameWay_close closeParts id other filled otherFilled

end Steady

/-! ### Two runs -/

/-- Runs with smaller allowances go the same way too. -/
theorem sameWay_of_continues {Value Other : Type}
    {alike : Value → Draft → Other → Draft → Prop}
    {first firstWhole : EStateM.Result NormalizeError Draft Value}
    {second secondWhole : EStateM.Result NormalizeError Draft Other}
    (same : SameWay NormalizeError.IsFull related alike firstWhole secondWhole)
    (goesOn : Continues first firstWhole) (goesOnToo : Continues second secondWhole) :
    SameWay NormalizeError.IsFull related alike first second := by
  rcases goesOn with rfl | ⟨after, rfl⟩
  · rcases goesOnToo with rfl | ⟨after, rfl⟩
    · exact same
    · exact .passedRight .storeFull _ _
  · exact .passedLeft .storeFull _ _

namespace Steady

/-- Runs over related drafts go the same way, if they do so at the descriptors with other keys. -/
theorem sameWay_build (steady : Steady keys related)
    {family : Set Descriptor} (closed : binary.IsClosed family)
    (others : ∀ descriptor ∈ family, descriptor.key ∉ keys → ∀ left right, related left right →
      SameWay NormalizeError.IsFull related anyValues (build binary pointerSize descriptor left)
        (build binary pointerSize descriptor right))
    (isMember : descriptor ∈ family) (close : related left right) :
    SameWay NormalizeError.IsFull related anyValues (build binary pointerSize descriptor left)
      (build binary pointerSize descriptor right) := by
  unfold build
  generalize levels = allowance
  induction allowance generalizing descriptor left right with
  | zero => exact .passedLeft .storeFull _ _
  | succ allowance inductionHypothesis =>
    by_cases isKey : descriptor.key ∈ keys
    · rw [buildWithin]
      refine (steady.sameWay_start isKey close).bind fun _ _ _ _ closeBegun same => ?_
      cases same with
      | done => exact .ok closeBegun trivial
      | instead _ _ opens =>
        exact inductionHypothesis
          (closed _ isMember _ (Binary.mem_successors_of_opening_instead opens)) closeBegun
      | parts id other _ _ opens =>
        exact steady.sameWay_buildForm id other closeBegun fun part isPart _ _ =>
          inductionHypothesis
            (closed _ isMember _ (Binary.mem_successors_of_opening_form opens isPart))
    · exact sameWay_of_continues (others _ isMember isKey _ _ close)
        (continues_build _ _ _) (continues_build _ _ _)

end Steady

end Building

end BinaryFacts
