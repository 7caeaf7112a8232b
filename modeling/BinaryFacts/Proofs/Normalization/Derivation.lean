/-
This file gives the rules by which a normalization request changes its draft.

There are three ways to change a draft: a leaf is interned, a node is added and entered under a
key if its descriptor is keyed, and a reserved node is filled. The first two need an id, and where
none is left the request ends. `Opening` sorts descriptors by what they ask for, and `start_eq`
reads the beginning of the work on a descriptor as one of these changes. `Builds` collects the
rules for rows of descriptors, so what holds along every run is proved by one induction over its
rules.
-/

import BinaryFacts.Normalization.Build
import BinaryFacts.Proofs.Layout.Elements
import BinaryFacts.Proofs.Outcome
import BinaryFacts.Proofs.TypeStore.Integrity

namespace BinaryFacts

/-! ### What a reference stands for -/

namespace Binary

/-- A reference to a typedef stands for a typedef of the type it names. -/
theorem resolve_typedef (binary : Binary) (typeId : Option String) (name : String) :
    binary.resolve .typedef typeId name =
      match binary.lookup? typeId name with
      | some target => .typedef target
      | none => .void := by
  unfold resolve
  cases binary.lookup? typeId name <;> rfl

/-- A reference to a tagged type stands for the type that its chain of references leads to. -/
theorem resolve_of_isTag (binary : Binary) {category : ReferenceClass}
    (tagged : category.isTag = true) (typeId : Option String) (name : String) :
    binary.resolve category typeId name =
      match (binary.lookup? typeId name).bind (binary.follow? ReferenceClass.isTag) with
      | some target => .type target
      | none => .void := by
  unfold resolve
  cases binary.lookup? typeId name with
  | none => rfl
  | some found => cases category <;> first | rfl | cases tagged

/-- Any other reference stands for void. -/
theorem resolve_of_untagged (binary : Binary) {category : ReferenceClass}
    (untagged : category.isTag = false) (different : category ≠ .typedef)
    (typeId : Option String) (name : String) : binary.resolve category typeId name = .void := by
  unfold resolve
  cases binary.lookup? typeId name with
  | none => rfl
  | some found =>
    cases category with
    | typedef => exact absurd rfl different
    | structType | unionType | enumType => cases untagged
    | unknown | other => rfl

theorem eq_typedef_of_resolve {binary : Binary} {category : ReferenceClass}
    {typeId : Option String} {name : String} {target : Descriptor}
    (resolved : binary.resolve category typeId name = .typedef target) :
    category = .typedef ∧ binary.lookup? typeId name = some target := by
  by_cases same : category = .typedef
  · subst same
    rw [resolve_typedef] at resolved
    cases found : binary.lookup? typeId name with
    | none => rw [found] at resolved; cases resolved
    | some aliased => rw [found] at resolved; cases resolved; exact ⟨rfl, rfl⟩
  · cases tagged : category.isTag with
    | false => rw [resolve_of_untagged binary tagged same] at resolved; cases resolved
    | true => rw [resolve_of_isTag binary tagged] at resolved; split at resolved <;> cases resolved

/-- Where a chain ends there is no reference to follow. -/
theorem untagged_of_followWithin {binary : Binary}
    {follows : ReferenceClass → Bool} {steps : Nat} {seen : List String} {start target : Descriptor}
    (found : binary.followWithin follows steps seen start = some target)
    {category : ReferenceClass} {typeId : Option String} {name : String}
    (isReference : target.kind = .reference category typeId name) : follows category = false := by
  induction steps generalizing seen start with
  | zero => cases found
  | succ steps inductionHypothesis =>
    unfold followWithin at found
    split at found
    · split at found
      · split at found
        · cases found
        · split at found
          · exact inductionHypothesis found
          · cases found
      · rename_i kind untagged
        cases found
        rw [kind] at isReference
        cases isReference
        exact Bool.eq_false_of_not_eq_true untagged
    · rename_i noReference
      cases found
      exact absurd isReference (noReference category typeId name)

end Binary

/-! ### What a descriptor asks for -/

/-- What the work on a descriptor begins with, when its key is not known. -/
inductive Opening where
  /-- It is a leaf. -/
  | leaf (node : TypeNode TypeId)
  /-- It is an enumeration over a leaf. -/
  | enumeration
  /-- It stands for another descriptor. -/
  | instead (target : Descriptor)
  /-- It has parts. -/
  | form (form : Form Descriptor)
  /-- It is of an unknown kind. -/
  | unhandled (kind : String)

namespace Binary

/-- What the work on a descriptor begins with. -/
def opening (binary : Binary) (pointerSize : UInt64) (descriptor : Descriptor) : Opening :=
  match descriptor.kind with
  | .void | .wideChar | .varArgs | .value => .leaf .void
  | .bool => .leaf .bool
  | .integer _ => .leaf (Building.integerNode pointerSize descriptor.width)
  | .float => .leaf (.float descriptor.width)
  | .pointer target => .form (.pointer target)
  | .array element count => .form (.array element count)
  | .function result parameters variadic => .form (.function result parameters variadic)
  | .aggregate variant members =>
    .form (Building.aggregateForm variant descriptor.width members)
  | .enumeration => .enumeration
  | .reference category typeId name =>
    match binary.resolve category typeId name with
    | .void => .leaf .void
    | .type target => .instead target
    | .typedef target => .form (.typedef target)
  | .other kind => .unhandled kind

/-- Whether a descriptor is known by its key once it is built: pointers, arrays, functions,
aggregates and enumerations with a registered name, and references to typedefs that exist. -/
def isKeyed (binary : Binary) (descriptor : Descriptor) : Bool :=
  match descriptor.kind with
  | .pointer _ | .array _ _ | .function _ _ _ => true
  | .aggregate _ _ | .enumeration => descriptor.registeredName.isSome
  | .reference .typedef typeId name => (binary.lookup? typeId name).isSome
  | _ => false

/-- The only references with a form are those to typedefs that exist. -/
theorem eq_typedef_of_opening {binary : Binary} {pointerSize width : UInt64}
    {category : ReferenceClass} {typeId : Option String} {name key : String}
    {registeredName : Option String} {form : Form Descriptor}
    (opens : binary.opening pointerSize
      ⟨.reference category typeId name, width, registeredName, key⟩ = .form form) :
    category = .typedef ∧
      ∃ target, binary.lookup? typeId name = some target ∧ form = .typedef target := by
  simp only [opening] at opens
  split at opens <;> cases opens
  rename_i target resolved
  obtain ⟨isTypedef, found⟩ := eq_typedef_of_resolve resolved
  exact ⟨isTypedef, target, found, rfl⟩

/-- A descriptor that stands for another one is a reference to a tagged type. -/
theorem eq_reference_of_opening {binary : Binary} {pointerSize : UInt64}
    {descriptor target : Descriptor}
    (opens : binary.opening pointerSize descriptor = .instead target) :
    ∃ category typeId name, descriptor.kind = .reference category typeId name ∧
      category.isTag = true ∧
      (binary.lookup? typeId name).bind (binary.follow? ReferenceClass.isTag) = some target := by
  obtain ⟨kind, width, registeredName, key⟩ := descriptor
  cases kind with
  | reference category typeId name =>
    simp only [opening] at opens
    split at opens <;> cases opens
    rename_i resolved
    refine ⟨category, typeId, name, rfl, ?_⟩
    cases tagged : category.isTag with
    | true =>
      rw [resolve_of_isTag binary tagged] at resolved
      split at resolved <;> cases resolved
      rename_i found
      exact ⟨rfl, found⟩
    | false =>
      by_cases same : category = .typedef
      · rw [same, resolve_typedef] at resolved
        split at resolved <;> cases resolved
      · rw [resolve_of_untagged binary tagged same] at resolved
        cases resolved
  | void | bool | integer | float | wideChar | varArgs | value | pointer | array | function
  | aggregate | enumeration | other => cases opens

/-- What a descriptor stands for does not stand for a third one. -/
theorem opening_ne_instead {binary : Binary} {pointerSize : UInt64}
    {descriptor target : Descriptor}
    (opens : binary.opening pointerSize descriptor = .instead target) (further : Descriptor) :
    binary.opening pointerSize target ≠ .instead further := by
  intro opensFurther
  obtain ⟨_, _, _, -, -, leads⟩ := eq_reference_of_opening opens
  obtain ⟨_, _, _, isReference, tagged, -⟩ := eq_reference_of_opening opensFurther
  obtain ⟨_, -, chain⟩ := Option.bind_eq_some_iff.mp leads
  have untagged := untagged_of_followWithin chain isReference
  rw [tagged] at untagged
  cases untagged

end Binary

/-! ### Changes of a draft -/

namespace Draft

/-- The draft with another store. -/
def withStore (draft : Draft) (store : TypeStore) : Draft := { draft with store }

/-- The draft with a new node, entered under a key if it is keyed. -/
def withNode (draft : Draft) (keyed : Bool) (key : String) (id : TypeId)
    (node : TypeNode TypeId) : Draft where
  store := draft.store.push node
  identities := if keyed then draft.identities.insert key id else draft.identities
  journal := if keyed then key :: draft.journal else draft.journal

/-- The draft with a reserved node filled. -/
def filled (draft : Draft) (id : TypeId) (node : TypeNode TypeId) : Draft :=
  { draft with store := draft.store.fill id node }

end Draft

namespace Building

variable {binary : Binary} {pointerSize : UInt64} {descriptor : Descriptor}
  {ask : TypeStore → Option (TypeId × TypeStore)} {before after draft : Draft} {id : TypeId}

theorem allocate_of_some {store : TypeStore} (given : ask draft.store = some (id, store)) :
    allocate ask draft = .ok id (draft.withStore store) := by
  unfold allocate
  rw [given]
  rfl

theorem allocate_of_none (refused : ask draft.store = none) :
    allocate ask draft = .error .storeFull draft := by
  unfold allocate
  rw [refused]

theorem exists_of_allocate_eq_ok (done : allocate ask before = .ok id after) :
    ∃ store, ask before.store = some (id, store) ∧ after = before.withStore store := by
  unfold allocate at done
  split at done
  · rename_i own store given
    cases done
    exact ⟨store, given, rfl⟩
  · cases done

theorem eq_of_allocate_eq_error {error : NormalizeError}
    (failed : allocate ask before = .error error after) :
    error = .storeFull ∧ after = before ∧ ask before.store = none := by
  unfold allocate at failed
  split at failed
  · cases failed
  · rename_i refused
    cases failed
    exact ⟨rfl, rfl, refused⟩

/-- Reserving a node takes the next id. -/
theorem reserve_eq (draft : Draft) :
    reserve draft =
      match draft.store.next? with
      | some id => .ok id (draft.withStore (draft.store.push .void))
      | none => .error .storeFull draft := by
  cases next : draft.store.next? with
  | some id => exact allocate_of_some (TypeStore.add_eq_some_iff.mpr ⟨next, rfl⟩)
  | none => exact allocate_of_none (TypeStore.add_eq_none_iff.mpr next)

theorem reserveKeyed_eq (key : String) (form : Form Descriptor) (draft : Draft) :
    reserveKeyed key form draft =
      match draft.store.next? with
      | some id => .ok (.parts id form) (draft.withNode true key id .void)
      | none => .error .storeFull draft := by
  have reserves := reserve_eq draft
  unfold reserveKeyed
  cases next : draft.store.next? with
  | some id =>
    rw [next] at reserves
    rw [bind_of_ok _ reserves]
    rfl
  | none =>
    rw [next] at reserves
    rw [bind_of_error _ reserves]

/-- Interning a leaf is the whole work on it. -/
theorem doneIntern_eq (node : TypeNode TypeId) (draft : Draft) :
    (do return .done (← intern node) : Building Task) draft =
      match draft.store.intern node with
      | some (id, store) => .ok (.done id) (draft.withStore store)
      | none => .error .storeFull draft := by
  cases interned : draft.store.intern node with
  | some entry =>
    obtain ⟨id, store⟩ := entry
    exact bind_of_ok _ (allocate_of_some interned)
  | none => exact bind_of_error _ (allocate_of_none interned)

/-- The work on an enumeration interns its underlying integer and adds a node. -/
theorem startEnumeration_eq (descriptor : Descriptor) (draft : Draft) :
    (do
      let underlying ← intern (.integer descriptor.width false)
      let id ← add (.enumeration underlying)
      if descriptor.registeredName.isSome then enter descriptor.key id
      return .done id : Building Task) draft =
      match draft.store.intern (.integer descriptor.width false) with
      | some (underlying, store) =>
        match store.next? with
        | some id => .ok (.done id) ((draft.withStore store).withNode
            descriptor.registeredName.isSome descriptor.key id (.enumeration underlying))
        | none => .error .storeFull (draft.withStore store)
      | none => .error .storeFull draft := by
  cases interned : draft.store.intern (.integer descriptor.width false) with
  | none => exact bind_of_error _ (allocate_of_none interned)
  | some entry =>
    obtain ⟨underlying, store⟩ := entry
    refine (bind_of_ok _ (allocate_of_some interned)).trans ?_
    cases next : store.next? with
    | none =>
      have refused : add (.enumeration underlying) (draft.withStore store) =
          .error .storeFull (draft.withStore store) :=
        allocate_of_none (TypeStore.add_eq_none_iff.mpr next)
      simp only [next]
      exact bind_of_error _ refused
    | some id =>
      have adds : add (.enumeration underlying) (draft.withStore store) =
          .ok id ((draft.withStore store).withStore (store.push (.enumeration underlying))) :=
        allocate_of_some (TypeStore.add_eq_some_iff.mpr ⟨next, rfl⟩)
      simp only [next]
      refine (bind_of_ok _ adds).trans ?_
      cases descriptor.registeredName <;> rfl

/-- The work on an aggregate reserves its node, which is entered if it has a registered name. -/
theorem startAggregate_eq (descriptor : Descriptor) (form : Form Descriptor) (draft : Draft) :
    (do
      let id ← reserve
      if descriptor.registeredName.isSome then enter descriptor.key id
      return .parts id form : Building Task) draft =
      match draft.store.next? with
      | some id => .ok (.parts id form)
          (draft.withNode descriptor.registeredName.isSome descriptor.key id .void)
      | none => .error .storeFull draft := by
  have reserves := reserve_eq draft
  cases next : draft.store.next? with
  | some id =>
    rw [next] at reserves
    rw [bind_of_ok _ reserves]
    cases descriptor.registeredName <;> rfl
  | none =>
    rw [next] at reserves
    rw [bind_of_error _ reserves]

/-- The work on a descriptor begins with one change of the draft, or with none. It fails at a
descriptor of an unknown kind, and where an id is needed and none is left. -/
theorem start_eq (binary : Binary) (pointerSize : UInt64) (descriptor : Descriptor)
    (draft : Draft) :
    start binary pointerSize descriptor draft =
      match draft.identities.find? descriptor.key with
      | some id => .ok (.done id) draft
      | none =>
        match binary.opening pointerSize descriptor with
        | .leaf node =>
          match draft.store.intern node with
          | some (id, store) => .ok (.done id) (draft.withStore store)
          | none => .error .storeFull draft
        | .enumeration =>
          match draft.store.intern (.integer descriptor.width false) with
          | some (underlying, store) =>
            match store.next? with
            | some id => .ok (.done id) ((draft.withStore store).withNode
                (binary.isKeyed descriptor) descriptor.key id (.enumeration underlying))
            | none => .error .storeFull (draft.withStore store)
          | none => .error .storeFull draft
        | .instead target => .ok (.instead target) draft
        | .form form =>
          match draft.store.next? with
          | some id => .ok (.parts id form)
              (draft.withNode (binary.isKeyed descriptor) descriptor.key id .void)
          | none => .error .storeFull draft
        | .unhandled kind => .error (.unhandledKind kind descriptor.key) draft := by
  obtain ⟨kind, width, registeredName, key⟩ := descriptor
  unfold start
  rw [bind_of_ok _ (show (get : Building Draft) draft = .ok draft draft from rfl)]
  cases known : draft.identities.find? key with
  | some id => rfl
  | none =>
    cases kind with
    | void | bool | integer | float | wideChar | varArgs | value => exact doneIntern_eq _ draft
    | pointer | array | function => exact reserveKeyed_eq key _ draft
    | aggregate variant members => exact startAggregate_eq _ _ draft
    | enumeration => exact startEnumeration_eq _ draft
    | reference category typeId name =>
      cases resolved : binary.resolve category typeId name with
      | void =>
        simp only [Binary.opening, resolved]
        exact doneIntern_eq _ draft
      | type target =>
        simp only [Binary.opening, resolved]
        rfl
      | typedef target =>
        obtain ⟨rfl, found⟩ := Binary.eq_typedef_of_resolve resolved
        simp only [Binary.opening, Binary.isKeyed, resolved, found]
        exact reserveKeyed_eq key _ draft
    | other => rfl

/-- Where the work on a descriptor begins without an id left, at most the underlying integer of an
enumeration was interned before. -/
theorem start_eq_full
    (full : start binary pointerSize descriptor before = .error .storeFull after) :
    before.identities.find? descriptor.key = none ∧ after.store.next? = none ∧
      (after = before ∨ ∃ underlying store,
        before.store.intern (.integer descriptor.width false) = some (underlying, store) ∧
          after = before.withStore store) := by
  rw [start_eq] at full
  cases unknown : before.identities.find? descriptor.key with
  | some id =>
    rw [unknown] at full
    cases full
  | none =>
    refine ⟨rfl, ?_⟩
    cases opens : binary.opening pointerSize descriptor with
    | leaf node =>
      cases interned : before.store.intern node with
      | some entry =>
        simp only [unknown, opens, interned] at full
        cases full
      | none =>
        simp only [unknown, opens, interned] at full
        cases full
        exact ⟨TypeStore.next?_eq_none_of_intern interned, Or.inl rfl⟩
    | enumeration =>
      cases interned : before.store.intern (.integer descriptor.width false) with
      | none =>
        simp only [unknown, opens, interned] at full
        cases full
        exact ⟨TypeStore.next?_eq_none_of_intern interned, Or.inl rfl⟩
      | some entry =>
        cases next : entry.2.next? with
        | some id =>
          simp only [unknown, opens, interned, next] at full
          cases full
        | none =>
          simp only [unknown, opens, interned, next] at full
          cases full
          exact ⟨next, Or.inr ⟨entry.1, entry.2, rfl, rfl⟩⟩
    | instead | unhandled =>
      simp only [unknown, opens] at full
      cases full
    | form form =>
      cases next : before.store.next? with
      | some id =>
        simp only [unknown, opens, next] at full
        cases full
      | none =>
        simp only [unknown, opens, next] at full
        cases full
        exact ⟨next, Or.inl rfl⟩

end Building

/-! ### Laying out the elements of a structure -/

namespace Building

section Layout

variable {property : Draft → Prop} {before after : Draft}

theorem elementId_padding (bytes : UInt64) :
    elementId (.padding bytes) = allocate (·.intern (.padding bytes)) := rfl

theorem keeps_elementId {element : Layout.Element TypeId}
    (step : ∀ draft bytes id store, element = .padding bytes →
      draft.store.intern (.padding bytes) = some (id, store) → property draft →
        property (draft.withStore store)) : Keeps property (elementId element) := by
  intro draft holds
  cases element with
  | item member => exact holds
  | padding bytes =>
    rw [elementId_padding]
    cases ended : allocate (·.intern (.padding bytes)) draft with
    | ok id after =>
      obtain ⟨store, interned, rfl⟩ := exists_of_allocate_eq_ok ended
      exact step draft bytes id store rfl interned holds
    | error error after =>
      obtain ⟨-, rfl, -⟩ := eq_of_allocate_eq_error ended
      exact holds

theorem keeps_elementIds {elements : List (Layout.Element TypeId)}
    (step : ∀ draft bytes id store, .padding bytes ∈ elements →
      draft.store.intern (.padding bytes) = some (id, store) → property draft →
        property (draft.withStore store)) : Keeps property (elements.mapM elementId) :=
  Keeps.mapM fun _ member => keeps_elementId fun draft bytes id store same =>
    step draft bytes id store (same ▸ member)

/-- All that giving a form its node does to the draft is to intern padding, none of it empty. -/
theorem formNode_keeps {form : Form TypeId} (ended : finalState (formNode form before) = after)
    (step : ∀ draft bytes id store, bytes ≠ 0 →
      draft.store.intern (.padding bytes) = some (id, store) → property draft →
        property (draft.withStore store))
    (holds : property before) : property after := by
  subst ended
  cases form with
  | struct width spans =>
    refine Keeps.bind (keeps_elementIds fun draft bytes id store member => ?_)
      (fun ids => Keeps.pure _) before holds
    exact step draft bytes id store (Layout.ne_zero_of_mem_plan member)
  | pointer | array | function | typedef | union => exact holds

/-- Giving a form its node enters no keys. -/
theorem identities_of_formNode {form : Form TypeId}
    (ended : finalState (formNode form before) = after) : after.identities = before.identities :=
  formNode_keeps ended
    (fun state _ _ _ _ _ (kept : state.identities = before.identities) => kept) rfl

/-- A form is given its node unless there is no id left for padding. -/
theorem formNode_eq_error {form : Form TypeId} {error : NormalizeError}
    (failed : formNode form before = .error error after) :
    error = .storeFull ∧ after.store.next? = none := by
  cases form with
  | struct width spans =>
    rcases bind_eq_error failed with failedElements | ⟨ids, middle, -, impossible⟩
    · obtain ⟨_, element, _, _, middle, -, -, failedElement⟩ :=
        mapM_eq_error_iff.mp failedElements
      cases element with
      | item member => cases failedElement
      | padding bytes =>
        rw [elementId_padding] at failedElement
        obtain ⟨rfl, rfl, refused⟩ := eq_of_allocate_eq_error failedElement
        exact ⟨rfl, TypeStore.next?_eq_none_of_intern refused⟩
    · cases impossible
  | pointer | array | function | typedef | union => cases failed

end Layout

end Building

/-! ### Building the parts of a form -/

section Parts

variable {Error State Part Other : Type} {build : Part → EStateM Error State Other}

theorem length_of_mapM_eq_ok {row : List Part} {before after : State} {items : List Other}
    (done : row.mapM build before = .ok items after) : items.length = row.length := by
  induction row generalizing before items with
  | nil =>
    cases done
    rfl
  | cons part rest inductionHypothesis =>
    rw [List.mapM_cons] at done
    obtain ⟨item, middle, -, done⟩ := bind_eq_ok done
    obtain ⟨others, last, builtRest, done⟩ := bind_eq_ok done
    cases done
    rw [List.length_cons, List.length_cons, inductionHypothesis builtRest]

/-- Build the item of a span. -/
def buildSpan (build : Part → EStateM Error State Other) (span : Layout.Span Part) :
    EStateM Error State (Layout.Span Other) :=
  return { span with item := ← build span.item }

/-- Building the items of spans is building them as a row and putting them back. -/
theorem spans_mapM_eq_ok {spans : List (Layout.Span Part)} {before after : State}
    {results : List (Layout.Span Other)}
    (done : spans.mapM (buildSpan build) before = .ok results after) :
    ∃ items, (spans.map (·.item)).mapM build before = .ok items after ∧
      results = spans.zipWith (fun span item => { span with item }) items := by
  induction spans generalizing before results with
  | nil =>
    cases done
    exact ⟨[], rfl, rfl⟩
  | cons span rest inductionHypothesis =>
    rw [List.mapM_cons] at done
    obtain ⟨first, middle, builtFirst, done⟩ := bind_eq_ok done
    obtain ⟨others, last, builtRest, done⟩ := bind_eq_ok done
    cases done
    obtain ⟨item, state, builtItem, builtFirst⟩ := bind_eq_ok builtFirst
    cases builtFirst
    obtain ⟨items, builtItems, rfl⟩ := inductionHypothesis builtRest
    refine ⟨item :: items, ?_, rfl⟩
    rw [List.map_cons, List.mapM_cons, bind_of_ok _ builtItem, bind_of_ok _ builtItems]
    rfl

theorem spans_mapM_eq_error {spans : List (Layout.Span Part)} {before after : State}
    {error : Error}
    (failed : spans.mapM (buildSpan build) before = .error error after) :
    (spans.map (·.item)).mapM build before = .error error after := by
  induction spans generalizing before with
  | nil => cases failed
  | cons span rest inductionHypothesis =>
    rw [List.mapM_cons] at failed
    rw [List.map_cons, List.mapM_cons]
    rcases bind_eq_error failed with failedFirst | ⟨first, middle, builtFirst, failed⟩
    · rcases bind_eq_error failedFirst with failedItem | ⟨item, state, -, impossible⟩
      · exact bind_of_error _ failedItem
      · cases impossible
    · obtain ⟨item, state, builtItem, builtFirst⟩ := bind_eq_ok builtFirst
      cases builtFirst
      rw [bind_of_ok _ builtItem]
      rcases bind_eq_error failed with failedRest | ⟨others, last, -, impossible⟩
      · exact bind_of_error _ (inductionHypothesis failedRest)
      · cases impossible

namespace Form

/-- Building a form is building its parts as a row and putting them back. -/
theorem mapM_eq_ok {form : Form Part} {before after : State} {filled : Form Other}
    (done : form.mapM build before = .ok filled after) :
    ∃ items, form.parts.mapM build before = .ok items after ∧
      form.refill? items = some filled := by
  cases form with
  | pointer target | array element count | typedef target =>
    obtain ⟨item, state, built, done⟩ := bind_eq_ok done
    cases done
    refine ⟨[item], ?_, rfl⟩
    rw [parts, List.mapM_cons, bind_of_ok _ built]
    rfl
  | function result parameters variadic =>
    obtain ⟨first, middle, builtResult, done⟩ := bind_eq_ok done
    obtain ⟨others, last, builtParameters, done⟩ := bind_eq_ok done
    cases done
    refine ⟨first :: others, ?_, ?_⟩
    · rw [parts, List.mapM_cons, bind_of_ok _ builtResult, bind_of_ok _ builtParameters]
      rfl
    · rw [refill?, if_pos (length_of_mapM_eq_ok builtParameters)]
  | struct width spans =>
    obtain ⟨results, state, built, done⟩ := bind_eq_ok done
    cases done
    obtain ⟨items, builtItems, rfl⟩ := spans_mapM_eq_ok built
    refine ⟨items, builtItems, ?_⟩
    have fits := length_of_mapM_eq_ok builtItems
    rw [List.length_map] at fits
    rw [refill?, if_pos fits]
  | union members =>
    obtain ⟨items, state, built, done⟩ := bind_eq_ok done
    cases done
    exact ⟨items, built, by rw [refill?, if_pos (length_of_mapM_eq_ok built)]⟩

/-- Where a form cannot be built, neither can its parts as a row. -/
theorem mapM_eq_error {form : Form Part} {before after : State} {error : Error}
    (failed : form.mapM build before = .error error after) :
    form.parts.mapM build before = .error error after := by
  cases form with
  | pointer target | array element count | typedef target =>
    rcases bind_eq_error failed with failedPart | ⟨item, state, -, impossible⟩
    · rw [parts, List.mapM_cons]
      exact bind_of_error _ failedPart
    · cases impossible
  | function result parameters variadic =>
    rw [parts, List.mapM_cons]
    rcases bind_eq_error failed with failedResult | ⟨first, middle, builtResult, failed⟩
    · exact bind_of_error _ failedResult
    · rw [bind_of_ok _ builtResult]
      rcases bind_eq_error failed with failedParameters | ⟨others, last, -, impossible⟩
      · exact bind_of_error _ failedParameters
      · cases impossible
  | struct width spans =>
    rcases bind_eq_error failed with failedSpans | ⟨results, state, -, impossible⟩
    · exact spans_mapM_eq_error failedSpans
    · cases impossible
  | union members =>
    rcases bind_eq_error failed with failedMembers | ⟨items, state, -, impossible⟩
    · exact failedMembers
    · cases impossible

/-- Two ways to build that agree on the parts of a form as a row agree on the form. -/
theorem mapM_congr {rebuild : Part → EStateM Error State Other} {form : Form Part}
    {before : State}
    (same : form.parts.mapM rebuild before = form.parts.mapM build before) :
    form.mapM rebuild before = form.mapM build before := by
  cases ended : form.mapM build before with
  | ok filled after =>
    obtain ⟨items, built, refilled⟩ := mapM_eq_ok ended
    cases endedToo : form.mapM rebuild before with
    | ok other last =>
      obtain ⟨others, rebuilt, refilledToo⟩ := mapM_eq_ok endedToo
      rw [same, built] at rebuilt
      cases rebuilt
      rw [refilled] at refilledToo
      cases refilledToo
      rfl
    | error error last =>
      have failed := mapM_eq_error endedToo
      rw [same, built] at failed
      cases failed
  | error error after =>
    have failed := mapM_eq_error ended
    cases endedToo : form.mapM rebuild before with
    | ok other last =>
      obtain ⟨others, rebuilt, -⟩ := mapM_eq_ok endedToo
      rw [same, failed] at rebuilt
      cases rebuilt
    | error other last =>
      have failedToo := mapM_eq_error endedToo
      rw [same, failed] at failedToo
      cases failedToo
      rfl

end Form

end Parts

/-! ### The rules -/

namespace Building

/-- Building a row of descriptors, from the draft before to the draft after. The result is the
row of their ids, or the error that ended the work. -/
inductive Builds (binary : Binary) (pointerSize : UInt64) :
    Draft → List Descriptor → Except NormalizeError (List TypeId) → Draft → Prop
  | nil (draft : Draft) : Builds binary pointerSize draft [] (.ok []) draft
  | cons {first : Descriptor} {rest : List Descriptor} {id : TypeId} {ids : List TypeId}
      {before middle after : Draft}
      (head : Builds binary pointerSize before [first] (.ok [id]) middle)
      (tail : Builds binary pointerSize middle rest (.ok ids) after) :
      Builds binary pointerSize before (first :: rest) (.ok (id :: ids)) after
  | failedHead {first : Descriptor} {rest : List Descriptor} {error : NormalizeError}
      {before after : Draft}
      (head : Builds binary pointerSize before [first] (.error error) after) :
      Builds binary pointerSize before (first :: rest) (.error error) after
  | failedTail {first : Descriptor} {rest : List Descriptor} {id : TypeId}
      {error : NormalizeError} {before middle after : Draft}
      (head : Builds binary pointerSize before [first] (.ok [id]) middle)
      (tail : Builds binary pointerSize middle rest (.error error) after) :
      Builds binary pointerSize before (first :: rest) (.error error) after
  | known {descriptor : Descriptor} {id : TypeId} {draft : Draft}
      (found : draft.identities.find? descriptor.key = some id) :
      Builds binary pointerSize draft [descriptor] (.ok [id]) draft
  | leaf {descriptor : Descriptor} {node : TypeNode TypeId} {draft : Draft} {id : TypeId}
      {store : TypeStore} (unknown : draft.identities.find? descriptor.key = none)
      (opens : binary.opening pointerSize descriptor = .leaf node)
      (interned : draft.store.intern node = some (id, store)) :
      Builds binary pointerSize draft [descriptor] (.ok [id]) (draft.withStore store)
  | enumeration {descriptor : Descriptor} {draft : Draft} {underlying id : TypeId}
      {store : TypeStore} (unknown : draft.identities.find? descriptor.key = none)
      (opens : binary.opening pointerSize descriptor = .enumeration)
      (interned : draft.store.intern (.integer descriptor.width false) = some (underlying, store))
      (isNext : store.next? = some id) :
      Builds binary pointerSize draft [descriptor] (.ok [id])
        ((draft.withStore store).withNode (binary.isKeyed descriptor) descriptor.key id
          (.enumeration underlying))
  | instead {descriptor target : Descriptor} {result : Except NormalizeError (List TypeId)}
      {before after : Draft} (unknown : before.identities.find? descriptor.key = none)
      (opens : binary.opening pointerSize descriptor = .instead target)
      (same : Builds binary pointerSize before [target] result after) :
      Builds binary pointerSize before [descriptor] result after
  | form {descriptor : Descriptor} {form : Form Descriptor} {filled : Form TypeId} {id : TypeId}
      {items : List TypeId} {node : TypeNode TypeId} {before middle after : Draft}
      (unknown : before.identities.find? descriptor.key = none)
      (opens : binary.opening pointerSize descriptor = .form form)
      (isNext : before.store.next? = some id)
      (parts : Builds binary pointerSize
        (before.withNode (binary.isKeyed descriptor) descriptor.key id .void) form.parts
        (.ok items) middle)
      (refilled : form.refill? items = some filled)
      (laid : formNode filled middle = .ok node after) :
      Builds binary pointerSize before [descriptor] (.ok [id]) (after.filled id node)
  | failedPart {descriptor : Descriptor} {form : Form Descriptor} {error : NormalizeError}
      {id : TypeId} {before after : Draft}
      (unknown : before.identities.find? descriptor.key = none)
      (opens : binary.opening pointerSize descriptor = .form form)
      (isNext : before.store.next? = some id)
      (parts : Builds binary pointerSize
        (before.withNode (binary.isKeyed descriptor) descriptor.key id .void) form.parts
        (.error error) after) :
      Builds binary pointerSize before [descriptor] (.error error) after
  /-- The ids may run out over the padding of a structure whose members are built. -/
  | failedLayout {descriptor : Descriptor} {form : Form Descriptor} {filled : Form TypeId}
      {id : TypeId} {items : List TypeId} {before middle after : Draft}
      (unknown : before.identities.find? descriptor.key = none)
      (opens : binary.opening pointerSize descriptor = .form form)
      (isNext : before.store.next? = some id)
      (parts : Builds binary pointerSize
        (before.withNode (binary.isKeyed descriptor) descriptor.key id .void) form.parts
        (.ok items) middle)
      (refilled : form.refill? items = some filled)
      (failed : formNode filled middle = .error .storeFull after) :
      Builds binary pointerSize before [descriptor] (.error .storeFull) after
  | unhandled {descriptor : Descriptor} {kind : String} {draft : Draft}
      (unknown : draft.identities.find? descriptor.key = none)
      (opens : binary.opening pointerSize descriptor = .unhandled kind) :
      Builds binary pointerSize draft [descriptor]
        (.error (.unhandledKind kind descriptor.key)) draft
  /-- The ids may run out before a descriptor has a node. -/
  | full {descriptor : Descriptor} {before after : Draft}
      (fails : start binary pointerSize descriptor before = .error .storeFull after) :
      Builds binary pointerSize before [descriptor] (.error .storeFull) after

namespace Builds

variable {binary : Binary} {pointerSize : UInt64} {row : List Descriptor}
  {result : Except NormalizeError (List TypeId)} {before after : Draft}

/-- No run takes a node away. -/
theorem size_le (run : Builds binary pointerSize before row result after) :
    before.store.size ≤ after.store.size := by
  have interning : ∀ {node id larger} (store : TypeStore),
      store.intern node = some (id, larger) → store.size ≤ larger.size :=
    fun store interned => ((TypeStore.Extends.refl store).intern interned).size_le
  have laying : ∀ {form middle last}, finalState (formNode form middle) = last →
      middle.store.size ≤ last.store.size := by
    intro form middle last ended
    have grows : ∀ {draft : Draft} {node id larger}, draft.store.intern node = some (id, larger) →
        middle.store.size ≤ draft.store.size → middle.store.size ≤ larger.size :=
      fun interned grown => grown.trans (interning _ interned)
    exact formNode_keeps ended (fun _ _ _ _ _ => grows) (Nat.le_refl middle.store.size)
  induction run with
  | nil | known | unhandled => exact Nat.le_refl _
  | cons _ _ headGrows tailGrows | failedTail _ _ headGrows tailGrows =>
    exact headGrows.trans tailGrows
  | failedHead _ headGrows => exact headGrows
  | leaf unknown opens interned => exact interning _ interned
  | @enumeration _ draft _ _ store unknown opens interned isNext =>
    exact (interning draft.store interned).trans
      ((Nat.le_succ _).trans_eq (TypeStore.size_push store _).symm)
  | instead unknown opens same sameGrows => exact sameGrows
  | @form _ _ _ _ _ node before _ _ unknown opens isNext parts refilled laid partsGrow =>
    have reserved := (Nat.le_succ _).trans_eq (TypeStore.size_push before.store .void).symm
    exact (reserved.trans partsGrow).trans ((laying (congrArg finalState laid)).trans_eq
      (TypeStore.size_fill _ _ node).symm)
  | @failedPart _ _ _ _ before _ unknown opens isNext parts partsGrow =>
    exact ((Nat.le_succ _).trans_eq (TypeStore.size_push before.store .void).symm).trans partsGrow
  | @failedLayout _ _ _ _ _ before _ _ unknown opens isNext parts refilled failed partsGrow =>
    have reserved := (Nat.le_succ _).trans_eq (TypeStore.size_push before.store .void).symm
    exact (reserved.trans partsGrow).trans (laying (congrArg finalState failed))
  | @full _ before after fails =>
    obtain ⟨-, -, rfl | ⟨underlying, store, interned, rfl⟩⟩ := start_eq_full fails
    · exact Nat.le_refl _
    · exact interning before.store interned

/-- A run that ends for want of an id ends with all ids in use. -/
theorem count_le_size (run : Builds binary pointerSize before row result after) :
    result = .error .storeFull → TypeId.count ≤ after.store.size := by
  induction run with
  | nil | cons | known | leaf | enumeration | form | unhandled => rintro ⟨⟩
  | failedHead _ headFull => exact fun isFull => headFull (by cases isFull; rfl)
  | failedTail _ _ _ tailFull => exact fun isFull => tailFull (by cases isFull; rfl)
  | instead unknown opens same sameFull => exact sameFull
  | failedPart unknown opens isNext parts partsFull =>
    exact fun isFull => partsFull (by cases isFull; rfl)
  | failedLayout unknown opens isNext parts refilled failed =>
    exact fun _ => TypeStore.next?_eq_none_iff.mp (formNode_eq_error failed).2
  | full fails => exact fun _ => TypeStore.next?_eq_none_iff.mp (start_eq_full fails).2.1

end Builds

/-- The result and the final draft of a step, as one of the rules names them. -/
def Follows (binary : Binary) (pointerSize : UInt64) (draft : Draft) (descriptor : Descriptor) :
    EStateM.Result NormalizeError Draft TypeId → Prop
  | .ok id after => Builds binary pointerSize draft [descriptor] (.ok [id]) after
  | .error error after => Builds binary pointerSize draft [descriptor] (.error error) after

end Building

end BinaryFacts
