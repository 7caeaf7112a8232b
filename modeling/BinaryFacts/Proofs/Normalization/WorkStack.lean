/-
This file proves that the work stack of a traversal is in order at every moment, and that the
traversal comes to exactly what plain recursion over the descriptors comes to.

Each frame of the stack has a fixed effect on the number of built ids: a visit leaves one id more,
and a finish takes the ids of its parts and leaves one. `supply?` adds these effects up over the
frames that are left. A step of the loop may put many frames on the stack and change the number of
ids, but never this sum, which is one at the start. So a finish always finds the ids it takes, as
many as its form has parts, and in the end there is a single id.
-/

import BinaryFacts.Proofs.Normalization.Traversal

namespace BinaryFacts

/-- A form can be refilled with as many parts as it has. -/
theorem Form.exists_refill? {Part Other : Type} (form : Form Part) {items : List Other}
    (fits : items.length = form.parts.length) : ∃ filled, form.refill? items = some filled := by
  cases form with
  | pointer target | array element count | typedef target =>
    obtain ⟨item, rfl⟩ := List.length_eq_one_iff.mp fits
    exact ⟨_, rfl⟩
  | function result parameters variadic =>
    cases items with
    | nil => cases fits
    | cons item rest => exact ⟨_, if_pos (Nat.succ.inj fits)⟩
  | struct width spans => exact ⟨_, if_pos (fits.trans (List.length_map _))⟩
  | union members => exact ⟨_, if_pos fits⟩

namespace Building

variable {binary : Binary} {pointerSize : UInt64} {descriptor : Descriptor} {draft : Draft}

/-! ### Positions of the loop -/

/-- Where the loop stands: the tasks that are left, the ids that are built, newest first, and the
draft. -/
structure Position where
  stack : List Frame
  built : List TypeId
  draft : Draft

/-- The position in which the work on a descriptor begins. -/
def Position.first (descriptor : Descriptor) (draft : Draft) : Position where
  stack := [.visit descriptor]
  built := []
  draft

/-- The loop goes from a position to the next one. -/
inductive Advances (binary : Binary) (pointerSize : UInt64) : Position → Position → Prop
  | done {descriptor : Descriptor} {stack : List Frame} {built : List TypeId}
      {before after : Draft} {id : TypeId}
      (begins : start binary pointerSize descriptor before = .ok (.done id) after) :
      Advances binary pointerSize ⟨.visit descriptor :: stack, built, before⟩
        ⟨stack, id :: built, after⟩
  | instead {descriptor target : Descriptor} {stack : List Frame} {built : List TypeId}
      {before after : Draft}
      (begins : start binary pointerSize descriptor before = .ok (.instead target) after) :
      Advances binary pointerSize ⟨.visit descriptor :: stack, built, before⟩
        ⟨.visit target :: stack, built, after⟩
  | parts {descriptor : Descriptor} {stack : List Frame} {built : List TypeId}
      {before after : Draft} {id : TypeId} {form : Form Descriptor}
      (begins : start binary pointerSize descriptor before = .ok (.parts id form) after) :
      Advances binary pointerSize ⟨.visit descriptor :: stack, built, before⟩
        ⟨form.parts.map .visit ++ .finish id form :: stack, built, after⟩
  | closed {stack : List Frame} {built : List TypeId} {before after : Draft} {id last : TypeId}
      {form : Form Descriptor} {filled : Form TypeId}
      (refilled : form.refill? (built.take form.parts.length).reverse = some filled)
      (closes : close id filled before = .ok last after) :
      Advances binary pointerSize ⟨.finish id form :: stack, built, before⟩
        ⟨stack, last :: built.drop form.parts.length, after⟩

/-- What is left of the loop is the same from a position and, with one step less, from the next. -/
theorem Advances.traverseWithin_eq {position next : Position}
    (advances : Advances binary pointerSize position next) (root : String) (steps : Nat) :
    traverseWithin binary pointerSize root (steps + 1) position.stack position.built
        position.draft =
      traverseWithin binary pointerSize root steps next.stack next.built next.draft := by
  cases advances with
  | done begins | instead begins | parts begins =>
    rw [traverseWithin]
    exact bind_of_ok _ begins
  | closed refilled closes =>
    rw [traverseWithin]
    simp only [refilled]
    exact bind_of_ok _ closes

/-! ### The ids that are left in the end -/

/-- The number of ids that are built once the frames of a stack are worked off, if there are
`count` of them now; nothing if a frame takes more ids than there are. -/
def supply? : List Frame → Nat → Option Nat
  | [], count => some count
  | .visit _ :: stack, count => supply? stack (count + 1)
  | .finish _ form :: stack, count =>
    if form.parts.length ≤ count then supply? stack (count - form.parts.length + 1) else none

/-- The frames of the stack find the ids they take, and one id is left in the end. -/
def Position.Balanced (position : Position) : Prop :=
  supply? position.stack position.built.length = some 1

/-- If the next frame closes a node, the ids of its parts are there, and they fill its form. -/
def Position.Supplied (position : Position) : Prop :=
  ∀ id form rest, position.stack = .finish id form :: rest →
    form.parts.length ≤ position.built.length ∧
      ∃ filled, form.refill? (position.built.take form.parts.length).reverse = some filled

theorem supply?_visits (row : List Descriptor) (stack : List Frame) (count : Nat) :
    supply? (row.map .visit ++ stack) count = supply? stack (count + row.length) := by
  induction row generalizing count with
  | nil => rfl
  | cons part rest inductionHypothesis =>
    rw [List.map_cons, List.cons_append, supply?, inductionHypothesis, List.length_cons,
      Nat.add_right_comm, Nat.add_assoc]

/-- A step of the loop changes nothing about the ids that are left in the end. -/
theorem Advances.supply?_eq {position next : Position}
    (advances : Advances binary pointerSize position next) :
    supply? next.stack next.built.length = supply? position.stack position.built.length := by
  cases advances with
  | done | instead => rfl
  | @parts _ _ built _ _ _ form begins =>
    have enough : form.parts.length ≤ built.length + form.parts.length := Nat.le_add_left _ _
    rw [supply?_visits]
    dsimp only [supply?]
    rw [if_pos enough, Nat.add_sub_cancel]
  | @closed _ built _ _ _ _ form _ refilled closes =>
    have taken := Form.length_of_refill? refilled
    rw [List.length_reverse, List.length_take] at taken
    have enough : form.parts.length ≤ built.length := by omega
    dsimp only [supply?]
    rw [if_pos enough, List.length_cons, List.length_drop]

/-- The loop stays balanced. -/
theorem balanced_of_reaches {position : Position}
    (reaches : Relation.ReflTransGen (Advances binary pointerSize)
      (Position.first descriptor draft) position) : position.Balanced := by
  induction reaches with
  | refl => rfl
  | tail _ advances balanced => exact advances.supply?_eq.trans balanced

theorem Position.Balanced.supplied {position : Position} (balanced : position.Balanced) :
    position.Supplied := by
  intro id form rest isNext
  rw [Balanced, isNext, supply?] at balanced
  have enough : form.parts.length ≤ position.built.length := by
    by_contra short
    rw [if_neg short] at balanced
    cases balanced
  refine ⟨enough, form.exists_refill? ?_⟩
  rw [List.length_reverse, List.length_take, Nat.min_eq_left enough]

/-! ### The end of the loop -/

/-- A loop that was not left with other than one id. -/
def Complete : EStateM.Result NormalizeError Draft (Option (List TypeId)) → Prop
  | .ok none _ => True
  | .ok (some ids) _ => ids.length = 1
  | .error (.incomplete _) _ => False
  | .error _ _ => True

theorem start_ne_incomplete (binary : Binary) (pointerSize : UInt64) (descriptor : Descriptor)
    (draft after : Draft) (key : String) :
    start binary pointerSize descriptor draft ≠ .error (.incomplete key) after := by
  rw [start_eq]
  repeat' split
  all_goals nofun

/-- From a balanced position the loop comes to a single id, or to an unknown kind, or the ids or
the steps run out. -/
theorem Position.Balanced.complete {position : Position} (balanced : position.Balanced)
    (binary : Binary) (pointerSize : UInt64) (root : String) (steps : Nat) :
    Complete (traverseWithin binary pointerSize root steps position.stack position.built
      position.draft) := by
  induction steps generalizing position with
  | zero => trivial
  | succ steps inductionHypothesis =>
    -- Where the loop goes on, what is left of it is complete by induction.
    have further : ∀ {next}, Advances binary pointerSize position next →
        Complete (traverseWithin binary pointerSize root (steps + 1) position.stack
          position.built position.draft) := by
      intro next advances
      rw [advances.traverseWithin_eq]
      exact inductionHypothesis (advances.supply?_eq.trans balanced)
    obtain ⟨stack, built, draft⟩ := position
    match stack with
    | [] => exact Option.some.inj balanced
    | .visit descriptor :: rest =>
      cases begins : start binary pointerSize descriptor draft with
      | ok task after =>
        cases task with
        | done id => exact further (.done begins)
        | instead target => exact further (.instead begins)
        | parts id form => exact further (.parts begins)
      | error error after =>
        rw [traverseWithin, bind_of_error _ begins]
        cases error with
        | unhandledKind | storeFull => trivial
        | incomplete key => exact start_ne_incomplete _ _ _ _ _ _ begins
    | .finish id form :: rest =>
      obtain ⟨-, filled, refilled⟩ := balanced.supplied id form rest rfl
      rcases close_cases id filled draft with ⟨after, closes, -⟩ | ⟨after, fails⟩
      · exact further (.closed refilled closes)
      · rw [traverseWithin]
        simp only [refilled]
        rw [bind_of_error _ fails]
        trivial

/-- The single id that the loop comes to is the answer of the traversal. -/
theorem traverse_of_traverseWithin {steps : Nat}
    {result : EStateM.Result NormalizeError Draft TypeId} :
    traverseWithin binary pointerSize descriptor.key steps [.visit descriptor] [] draft =
        (match result with
        | .ok id after => .ok (some [id]) after
        | .error error after => .error error after) →
      traverse binary pointerSize steps descriptor draft =
        match result with
        | .ok id after => .ok (some id) after
        | .error error after => .error error after := by
  intro ended
  rw [traverse]
  cases result with
  | ok id after => exact bind_of_ok _ ended
  | error error after => exact bind_of_error _ ended

theorem traverse_ne_incomplete (binary : Binary) (pointerSize : UInt64) (steps : Nat)
    (descriptor : Descriptor) (draft after : Draft) (key : String) :
    traverse binary pointerSize steps descriptor draft ≠ .error (.incomplete key) after := by
  have balanced : (Position.first descriptor draft).Balanced := rfl
  have complete := balanced.complete binary pointerSize descriptor.key steps
  change Complete (traverseWithin binary pointerSize descriptor.key steps [.visit descriptor] []
    draft) at complete
  intro incomplete
  rw [traverse] at incomplete
  cases ended : traverseWithin binary pointerSize descriptor.key steps [.visit descriptor] []
    draft with
  | ok result last =>
    rw [ended] at complete
    rw [bind_of_ok _ ended] at incomplete
    cases result with
    | none => cases incomplete
    | some ids =>
      obtain ⟨id, rfl⟩ := List.length_eq_one_iff.mp complete
      cases incomplete
  | error error last =>
    rw [ended] at complete
    rw [bind_of_error _ ended] at incomplete
    cases incomplete
    exact complete

end Building

namespace Normalizer

/-- The work stack does what plain recursion does. In every state of a normalizer and for every
descriptor the loop ends, and the loop and the recursion come to one result, with the same store,
the same identities and the same journal, and the request is answered so. They fail together as
well, at an unknown kind or where the ids run out, be it over a descriptor or over the padding of a
structure; then all ids are in use, so no allowance of levels was what ended the recursion. At
every position that the loop passes, a frame that closes a node finds the ids of its parts and can
put all of them in place, and the loop is never left with other than one id. -/
theorem traverse_exact (binary : Binary) (normalizer : Normalizer) (descriptor : Descriptor) :
    (∃ steps result,
        (∀ allowed ≥ steps, Building.traverse binary normalizer.pointerSize allowed descriptor
          normalizer.draft =
            match result with
            | .ok id after => .ok (some id) after
            | .error error after => .error error after) ∧
        (∀ allowance ≥ Building.levels, Building.buildWithin binary normalizer.pointerSize
          allowance descriptor normalizer.draft = result) ∧
        (∀ after, result = .error .storeFull after → TypeId.count ≤ after.store.size) ∧
        normalize binary descriptor normalizer =
          match result with
          | .ok id after => .ok id (normalizer.commit after)
          | .error error after => .error error (normalizer.rollback normalizer.store.size after)) ∧
      (∀ position, Relation.ReflTransGen (Building.Advances binary normalizer.pointerSize)
          (.first descriptor normalizer.draft) position → position.Supplied) ∧
      ∀ allowed key after, Building.traverse binary normalizer.pointerSize allowed descriptor
        normalizer.draft ≠ .error (.incomplete key) after := by
  refine ⟨?_, fun position reaches => (Building.balanced_of_reaches reaches).supplied,
    fun allowed key after => Building.traverse_ne_incomplete _ _ allowed _ _ after key⟩
  obtain ⟨steps, works⟩ := Building.exists_worksOff binary normalizer.pointerSize descriptor
    normalizer.draft
  refine ⟨steps + 1, Building.build binary normalizer.pointerSize descriptor normalizer.draft,
    fun allowed enough => ?_, fun allowance enough => Building.buildWithin_eq_build enough,
    fun after full => ?_, rfl⟩
  · exact Building.traverse_of_traverseWithin (works.traverseWithin_eq descriptor.key enough)
  · have follows := Building.follows_build binary normalizer.pointerSize descriptor
      normalizer.draft
    rw [full] at follows
    exact Building.Builds.count_le_size follows rfl

end Normalizer

end BinaryFacts
