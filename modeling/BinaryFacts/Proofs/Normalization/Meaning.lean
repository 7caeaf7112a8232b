/-
This file defines what a descriptor means in a binary: the tree that appears when parts and
references are replaced by what they stand for, again and again. It does not go through the type
store, so it says independently of ids, keys and earlier requests which type a request asks for.

The file also proves that what the work on a descriptor begins with (`Opening`) is the first
level of its meaning, and that the chain of references from a descriptor does not change its
meaning. So in a family of descriptors with consistent keys, a descriptor means the same as the
keyed descriptor with its key: such keys are unambiguous.
-/

import BinaryFacts.Proofs.Normalization.Integrity
import BinaryFacts.TypeStore.Unfolding
import Mathlib.Logic.Relation

namespace BinaryFacts

/-! ### The meaning of a descriptor -/

/-- A leaf as a tree, cut after some levels. -/
def Unfolding.leaf (node : TypeNode Unfolding) : Nat → Unfolding
  | 0 => .cut
  | _ + 1 => .node node

namespace Binary

/-- The descriptor that a reference to a tagged type leads to, if it leads to one. Every other
descriptor stands for itself. -/
def dereference? (binary : Binary) (descriptor : Descriptor) : Option Descriptor :=
  match descriptor.kind with
  | .reference category typeId name =>
    if category.isTag then
      (binary.lookup? typeId name).bind (binary.follow? ReferenceClass.isTag)
    else some descriptor
  | _ => some descriptor

/-- The meaning of a descriptor as a tree, cut after `depth` levels. Nothing is said about
descriptors of an unknown kind. -/
def meaning (binary : Binary) (pointerSize : UInt64) : Nat → Descriptor → Unfolding
  | 0, _ => .cut
  | depth + 1, descriptor =>
    match binary.dereference? descriptor with
    | none => .node .void
    | some ⟨kind, width, _, _⟩ =>
      match kind with
      | .void | .wideChar | .varArgs | .value => .node .void
      | .bool => .node .bool
      | .integer _ =>
        if width ∈ [1, 2, 4, 8, 16] then .node (.integer width true)
        else if width ∈ [10, 12] then .node (.float width)
        else .node (.integer pointerSize true)
      | .float => .node (.float width)
      | .pointer target => .node (.pointer (binary.meaning pointerSize depth target))
      | .array element count => .node (.array (binary.meaning pointerSize depth element) count)
      | .function result parameters variadic =>
        .node (.function (binary.meaning pointerSize depth result)
          (parameters.map (binary.meaning pointerSize depth)) variadic)
      | .aggregate .unionType members =>
        .node (.union (members.map fun member => binary.meaning pointerSize depth member.type))
      | .aggregate .structType members | .aggregate .classType members =>
        let spans := members.map fun member => ⟨member.offset, member.width, member.type⟩
        .node (.struct ((Layout.plan width spans).map fun element =>
          match element with
          | .item type => binary.meaning pointerSize depth type
          | .padding bytes => .leaf (.padding bytes) depth))
      | .enumeration => .node (.enumeration (.leaf (.integer width false) depth))
      | .reference .typedef typeId name =>
        match binary.lookup? typeId name with
        | some target => .node (.typedef (binary.meaning pointerSize depth target))
        | none => .node .void
      | .reference _ _ _ => .node .void
      | .other _ => .cut

end Binary

/-! ### Chains of references -/

namespace Binary

variable {binary : Binary} {follows : ReferenceClass → Bool}

/-- A chain that ends also ends with more steps and fewer keys to avoid. -/
theorem followWithin_mono {steps larger : Nat} {seen fewer : List String}
    {start target : Descriptor}
    (found : binary.followWithin follows steps seen start = some target)
    (enough : steps ≤ larger) (avoids : fewer ⊆ seen) :
    binary.followWithin follows larger fewer start = some target := by
  induction steps generalizing larger seen fewer start with
  | zero => cases found
  | succ steps inductionHypothesis =>
    obtain ⟨more, rfl⟩ := Nat.exists_eq_add_of_lt enough
    rw [followWithin] at found ⊢
    split
    · rename_i category typeId name kind
      rw [kind] at found
      dsimp only at found
      split
      · rename_i followed
        rw [if_pos followed] at found
        split at found
        · cases found
        · rename_i unseen
          rw [if_neg fun member => unseen (avoids member)]
          split
          · rename_i next looked
            rw [looked] at found
            exact inductionHypothesis found (Nat.le_add_right _ _) (List.cons_subset_cons _ avoids)
          · rename_i looked
            rw [looked] at found
            cases found
      · rename_i unfollowed
        rw [if_neg unfollowed] at found
        exact found
    · rename_i noReference
      split at found
      · rename_i category typeId name kind
        exact absurd kind (noReference category typeId name)
      · exact found

/-- A descriptor at the end of a chain stands for itself. -/
theorem dereference?_of_follow? {start target : Descriptor}
    (found : binary.follow? ReferenceClass.isTag start = some target) :
    binary.dereference? target = some target := by
  unfold dereference?
  split
  · rename_i category typeId name isReference
    rw [untagged_of_followWithin found isReference]
    rfl
  · rfl

/-- A descriptor stands for the descriptor that its chain of references leads to. -/
theorem dereference?_eq_follow? {start target : Descriptor}
    (found : binary.follow? ReferenceClass.isTag start = some target) :
    binary.dereference? start = some target := by
  rw [follow?, followWithin] at found
  unfold dereference?
  split
  · rename_i category typeId name isReference
    rw [isReference] at found
    dsimp only at found
    split
    · rename_i tagged
      rw [if_pos tagged, if_neg List.not_mem_nil] at found
      cases looked : binary.lookup? typeId name with
      | none =>
        rw [looked] at found
        cases found
      | some next =>
        rw [looked] at found
        exact followWithin_mono found (Nat.le_succ _) (List.nil_subset _)
    · rename_i untagged
      rw [if_neg untagged] at found
      exact found
  · rename_i noReference
    split at found
    · rename_i category typeId name isReference
      exact absurd isReference (noReference category typeId name)
    · exact found

/-- A keyed descriptor is the end of its chain. -/
theorem follow?_of_isKeyed {descriptor : Descriptor} (keyed : binary.isKeyed descriptor = true) :
    binary.follow? ReferenceClass.isTag descriptor = some descriptor := by
  rw [follow?, followWithin]
  split
  · rename_i category typeId name isReference
    rw [isKeyed, isReference] at keyed
    cases category with
    | typedef => rfl
    | structType | unionType | enumType | unknown | other => cases keyed
  · rfl

variable {pointerSize : UInt64}

/-- The meaning of a descriptor is that of the descriptor it stands for. -/
theorem meaning_congr {left right : Descriptor}
    (same : binary.dereference? left = binary.dereference? right) (depth : Nat) :
    binary.meaning pointerSize depth left = binary.meaning pointerSize depth right := by
  cases depth with
  | zero => rfl
  | succ depth => rw [meaning, meaning, same]

/-- The chain of references from a descriptor does not change its meaning. -/
theorem meaning_of_follow? {start target : Descriptor}
    (found : binary.follow? ReferenceClass.isTag start = some target) (depth : Nat) :
    binary.meaning pointerSize depth start = binary.meaning pointerSize depth target :=
  meaning_congr ((dereference?_eq_follow? found).trans (dereference?_of_follow? found).symm) depth

end Binary

/-! ### Forms over trees -/

namespace Form

variable {Part Other : Type}

/-- Replace every part of a form. -/
def map (replace : Part → Other) : Form Part → Form Other
  | .pointer target => .pointer (replace target)
  | .array element count => .array (replace element) count
  | .function result parameters variadic =>
    .function (replace result) (parameters.map replace) variadic
  | .typedef target => .typedef (replace target)
  | .struct width spans => .struct width (spans.map (Layout.Span.map replace))
  | .union members => .union (members.map replace)

/-- Replacing the children of a node is replacing the parts of its form and its padding. -/
theorem map_node (replace : Part → Other) (padding : UInt64 → Part) (form : Form Part) :
    (form.node padding).map replace =
      (form.map replace).node fun bytes => replace (padding bytes) := by
  cases form with
  | struct width spans =>
    simp only [node, map, TypeNode.map, Layout.plan_map, List.map_map]
    congr 2
    funext element
    cases element <;> rfl
  | pointer | array | function | typedef | union => rfl

/-- Only the padding that a form has counts for its node. -/
theorem node_congr {padding other : UInt64 → Part} {form : Form Part}
    (same : ∀ bytes, form.HasPadding bytes → padding bytes = other bytes) :
    form.node padding = form.node other := by
  cases form with
  | struct width spans =>
    have elementsSame : (Layout.plan width spans).map (Layout.Element.child padding) =
        (Layout.plan width spans).map (Layout.Element.child other) := by
      refine List.map_congr_left fun element planned => ?_
      cases element with
      | item part => rfl
      | padding bytes => exact same bytes ⟨width, spans, rfl, planned⟩
    rw [node, node, elementsSame]
  | pointer | array | function | typedef | union => rfl

theorem hasPadding_map (replace : Part → Other) {form : Form Part} {bytes : UInt64}
    (has : (form.map replace).HasPadding bytes) : form.HasPadding bytes := by
  obtain ⟨width, spans, same, planned⟩ := has
  cases form with
  | struct ownWidth ownSpans =>
    cases same
    rw [Layout.plan_map] at planned
    obtain ⟨element, ownPlanned, isPadding⟩ := List.mem_map.mp planned
    cases element with
    | item part => cases isPadding
    | padding ownBytes =>
      cases isPadding
      exact ⟨_, _, rfl, ownPlanned⟩
  | pointer | array | function | typedef | union => cases same

theorem zipWith_map_eq {Item : Type} {replace : Part → Item} {substitute : Other → Item}
    {spans : List (Layout.Span Part)} {items : List Other}
    (same : items.map substitute = (spans.map (·.item)).map replace) :
    (spans.zipWith (fun span item => { span with item }) items).map (Layout.Span.map substitute) =
      spans.map (Layout.Span.map replace) := by
  induction spans generalizing items with
  | nil => rfl
  | cons span rest inductionHypothesis =>
    cases items with
    | nil => cases same
    | cons item others =>
      simp only [List.map_cons, List.cons.injEq] at same
      rw [List.zipWith_cons_cons, List.map_cons, List.map_cons, inductionHypothesis same.2,
        Layout.Span.map, Layout.Span.map, same.1]

/-- A form refilled with parts that become the same as the old ones becomes the same form. -/
theorem map_eq_of_refill? {Item : Type} {replace : Part → Item} {substitute : Other → Item}
    {form : Form Part} {items : List Other} {filled : Form Other}
    (refilled : form.refill? items = some filled)
    (same : items.map substitute = form.parts.map replace) :
    filled.map substitute = form.map replace := by
  cases form with
  | pointer target | array element count | typedef target =>
    match items, refilled with
    | [item], refilled =>
      cases refilled
      rw [map, map, List.cons.inj same |>.1]
  | function result parameters variadic =>
    match items, refilled with
    | item :: rest, refilled =>
      rw [refill?] at refilled
      split at refilled <;> cases refilled
      rw [map, map, List.cons.inj same |>.1, List.cons.inj same |>.2]
  | struct width spans =>
    rw [refill?] at refilled
    split at refilled <;> cases refilled
    rw [map, map, zipWith_map_eq same]
  | union members =>
    rw [refill?] at refilled
    split at refilled <;> cases refilled
    rw [map, map]
    exact congrArg Form.union same

end Form

/-! ### Openings are first levels of meanings -/

namespace Binary

variable {binary : Binary} {pointerSize : UInt64} {descriptor : Descriptor}

/-- A leaf means itself, whatever its children are replaced by: it has none. -/
theorem meaning_of_opening_leaf {node : TypeNode TypeId}
    (opens : binary.opening pointerSize descriptor = .leaf node) (tree : TypeId → Unfolding)
    (depth : Nat) :
    binary.meaning pointerSize (depth + 1) descriptor = .node (node.map tree) := by
  obtain ⟨kind, width, registeredName, key⟩ := descriptor
  cases kind with
  | integer signed =>
    cases opens
    simp only [meaning, dereference?, Building.integerNode]
    split
    · rfl
    · split <;> rfl
  | reference category typeId name =>
    simp only [opening] at opens
    split at opens <;> cases opens
    rename_i resolved
    simp only [meaning, dereference?]
    cases tagged : category.isTag with
    | true =>
      rw [resolve_of_isTag binary tagged] at resolved
      rw [if_pos rfl]
      split at resolved
      · cases resolved
      · rename_i missing
        rw [missing]
        rfl
    | false =>
      rw [if_neg Bool.false_ne_true]
      cases category with
      | typedef =>
        rw [resolve_typedef] at resolved
        split at resolved
        · cases resolved
        · rename_i missing
          simp only [missing]
          rfl
      | structType | unionType | enumType => cases tagged
      | unknown | other => rfl
  | void | bool | float | wideChar | varArgs | value =>
    cases opens
    rfl
  | pointer | array | function | aggregate | enumeration | other => cases opens

theorem meaning_of_opening_enumeration
    (opens : binary.opening pointerSize descriptor = .enumeration) (depth : Nat) :
    binary.meaning pointerSize (depth + 1) descriptor =
      .node (.enumeration (.leaf (.integer descriptor.width false) depth)) := by
  obtain ⟨kind, width, registeredName, key⟩ := descriptor
  cases kind with
  | enumeration => rfl
  | reference category typeId name =>
    simp only [opening] at opens
    split at opens <;> cases opens
  | void | bool | integer | float | wideChar | varArgs | value | pointer | array | function
  | aggregate | other => cases opens

theorem meaning_of_opening_instead {target : Descriptor}
    (opens : binary.opening pointerSize descriptor = .instead target) (depth : Nat) :
    binary.meaning pointerSize depth descriptor = binary.meaning pointerSize depth target := by
  obtain ⟨category, typeId, name, isReference, tagged, found⟩ := eq_reference_of_opening opens
  refine meaning_congr ?_ depth
  have stands : binary.dereference? descriptor = some target := by
    rw [dereference?, isReference]
    exact (if_pos tagged).trans found
  obtain ⟨next, -, chain⟩ := Option.bind_eq_some_iff.mp found
  rw [stands, dereference?_of_follow? chain]

/-- A type with parts means the node of its form over the meanings of the parts. -/
theorem meaning_of_opening_form {form : Form Descriptor}
    (opens : binary.opening pointerSize descriptor = .form form) (depth : Nat) :
    binary.meaning pointerSize (depth + 1) descriptor =
      .node ((form.map (binary.meaning pointerSize depth)).node
        fun bytes => .leaf (.padding bytes) depth) := by
  obtain ⟨kind, width, registeredName, key⟩ := descriptor
  cases kind with
  | pointer | array | function =>
    cases opens
    rfl
  | aggregate variant members =>
    cases opens
    cases variant with
    | unionType =>
      simp only [meaning, dereference?, Building.aggregateForm, Form.map, Form.node, List.map_map]
      rfl
    | structType | classType =>
      simp only [meaning, dereference?, Building.aggregateForm, Form.map, Form.node]
      rw [Layout.plan_map, List.map_map]
      congr 3
      funext element
      cases element <;> rfl
  | reference category typeId name =>
    obtain ⟨rfl, target, found, rfl⟩ := eq_typedef_of_opening opens
    have stands :
        binary.dereference? ⟨.reference .typedef typeId name, width, registeredName, key⟩ =
          some ⟨.reference .typedef typeId name, width, registeredName, key⟩ := rfl
    rw [meaning, stands]
    simp only [found, Form.map, Form.node]
  | void | bool | integer | float | wideChar | varArgs | value | enumeration | other =>
    cases opens

/-! ### Families of descriptors -/

/-- The descriptors that one leads to directly: its parts, the type that a typedef names, the end
of a chain of references to tagged types. -/
def successors (binary : Binary) (descriptor : Descriptor) : List Descriptor :=
  match descriptor.kind with
  | .reference category typeId name =>
    if category = .typedef then (binary.lookup? typeId name).toList
    else if category.isTag then
      ((binary.lookup? typeId name).bind (binary.follow? ReferenceClass.isTag)).toList
    else []
  | kind => kind.parts

/-- A family that holds every descriptor to which its members lead. -/
def IsClosed (binary : Binary) (family : Set Descriptor) : Prop :=
  ∀ descriptor ∈ family, ∀ next ∈ binary.successors descriptor, next ∈ family

/-- The descriptors that some requests lead to, directly or through others. -/
def closure (binary : Binary) (requests : List Descriptor) : Set Descriptor :=
  {descriptor | ∃ request ∈ requests,
    Relation.ReflTransGen (fun current next => next ∈ binary.successors current)
      request descriptor}

/-- A family in which every descriptor with the key of a keyed one leads to the keyed one through
references to tagged types. -/
def KeyConsistent (binary : Binary) (family : Set Descriptor) : Prop :=
  ∀ first ∈ family, ∀ second ∈ family, first.key = second.key →
    binary.isKeyed first = true →
      binary.follow? ReferenceClass.isTag first = binary.follow? ReferenceClass.isTag second

theorem mem_closure {requests : List Descriptor} (requested : descriptor ∈ requests) :
    descriptor ∈ binary.closure requests :=
  ⟨descriptor, requested, .refl⟩

theorem isClosed_closure (binary : Binary) (requests : List Descriptor) :
    binary.IsClosed (binary.closure requests) := by
  rintro descriptor ⟨request, requested, leads⟩ next follows
  exact ⟨request, requested, leads.tail follows⟩

/-- The closure of requests is the least closed family that holds them. -/
theorem closure_subset {requests : List Descriptor} {family : Set Descriptor}
    (requested : ∀ request ∈ requests, request ∈ family) (closed : binary.IsClosed family) :
    binary.closure requests ⊆ family := by
  rintro descriptor ⟨request, isRequest, leads⟩
  induction leads with
  | refl => exact requested request isRequest
  | tail leads follows inductionHypothesis => exact closed _ inductionHypothesis _ follows

/-- A leaf leads nowhere. -/
theorem successors_of_opening_leaf {node : TypeNode TypeId}
    (opens : binary.opening pointerSize descriptor = .leaf node) :
    binary.successors descriptor = [] := by
  obtain ⟨kind, width, registeredName, key⟩ := descriptor
  cases kind with
  | reference category typeId name =>
    simp only [opening] at opens
    split at opens <;> cases opens
    rename_i resolved
    simp only [successors]
    split
    · rename_i isTypedef
      rw [isTypedef, resolve_typedef] at resolved
      split at resolved
      · cases resolved
      · rename_i missing
        rw [missing]
        rfl
    · split
      · rename_i tagged
        rw [resolve_of_isTag binary tagged] at resolved
        split at resolved
        · cases resolved
        · rename_i missing
          rw [missing]
          rfl
      · rfl
  | void | bool | integer | float | wideChar | varArgs | value => rfl
  | pointer | array | function | aggregate | enumeration | other => cases opens

theorem successors_of_opening_enumeration
    (opens : binary.opening pointerSize descriptor = .enumeration) :
    binary.successors descriptor = [] := by
  obtain ⟨kind, width, registeredName, key⟩ := descriptor
  cases kind with
  | enumeration => rfl
  | reference category typeId name =>
    simp only [opening] at opens
    split at opens <;> cases opens
  | void | bool | integer | float | wideChar | varArgs | value | pointer | array | function
  | aggregate | other => cases opens

/-- A descriptor that stands for another one leads there only. -/
theorem successors_of_opening_instead
    (opens : binary.opening pointerSize descriptor = .instead target) :
    binary.successors descriptor = [target] := by
  obtain ⟨category, typeId, name, isReference, tagged, found⟩ := eq_reference_of_opening opens
  have different : category ≠ .typedef := by
    rintro rfl
    cases tagged
  simp only [successors, isReference]
  rw [if_neg different, if_pos tagged, found]
  rfl

/-- A descriptor with parts leads to its parts. -/
theorem successors_of_opening_form {form : Form Descriptor}
    (opens : binary.opening pointerSize descriptor = .form form) :
    binary.successors descriptor = form.parts := by
  obtain ⟨kind, width, registeredName, key⟩ := descriptor
  cases kind with
  | pointer | array | function =>
    cases opens
    rfl
  | aggregate variant members =>
    cases opens
    cases variant with
    | unionType => rfl
    | structType | classType =>
      simp only [Building.aggregateForm, Form.parts, List.map_map]
      rfl
  | reference category typeId name =>
    obtain ⟨rfl, target, found, rfl⟩ := eq_typedef_of_opening opens
    simp only [successors, if_pos, found]
    rfl
  | void | bool | integer | float | wideChar | varArgs | value | enumeration | other =>
    cases opens

theorem mem_successors_of_opening_form {form : Form Descriptor}
    (opens : binary.opening pointerSize descriptor = .form form) {part : Descriptor}
    (member : part ∈ form.parts) : part ∈ binary.successors descriptor :=
  successors_of_opening_form opens ▸ member

theorem mem_successors_of_opening_instead {target : Descriptor}
    (opens : binary.opening pointerSize descriptor = .instead target) :
    target ∈ binary.successors descriptor :=
  successors_of_opening_instead opens ▸ List.mem_singleton.mpr rfl

theorem KeyConsistent.mono {family larger : Set Descriptor}
    (consistent : binary.KeyConsistent larger) (inside : family ⊆ larger) :
    binary.KeyConsistent family :=
  fun first firstIn second secondIn => consistent first (inside firstIn) second (inside secondIn)

/-- A family in which every descriptor means the same as a keyed one with its key. -/
def Unambiguous (binary : Binary) (pointerSize : UInt64) (family : Set Descriptor) : Prop :=
  ∀ keyed ∈ family, ∀ descriptor ∈ family, keyed.key = descriptor.key →
    binary.isKeyed keyed = true → ∀ depth,
      binary.meaning pointerSize depth descriptor = binary.meaning pointerSize depth keyed

/-- Consistent keys are unambiguous. -/
theorem KeyConsistent.unambiguous {family : Set Descriptor}
    (consistent : binary.KeyConsistent family) (pointerSize : UInt64) :
    binary.Unambiguous pointerSize family := by
  intro keyed keyedIn descriptor descriptorIn sameKey isKeyed depth
  have chain := consistent keyed keyedIn descriptor descriptorIn sameKey isKeyed
  rw [follow?_of_isKeyed isKeyed] at chain
  exact meaning_of_follow? chain.symm depth

end Binary

end BinaryFacts
