/-
This file defines the state of a normalization request in progress and the steps that change it.
A draft holds the store, the identities, that is, the ids of the types known by their keys, and a
journal of the keys that this request has added. A type that others can refer to by its key is
given an id and entered under its key before its parts are built, so that a part that comes back
to the key finds the id: types that mention themselves end, and shared types are built once.
Anonymous aggregates and enumerations are never entered, since different ones may share a key.
-/

import BinaryFacts.Binary.Reference
import BinaryFacts.Normalization.Form
import BinaryFacts.TypeStore.Basic

namespace BinaryFacts

/-- Why a descriptor cannot be normalized. -/
inductive NormalizeError where
  /-- A descriptor of an unknown kind, with the name of the kind and the key of the descriptor. -/
  | unhandledKind (kind key : String)
  /-- The work on the descriptor with this key did not come to a single node. -/
  | incomplete (key : String)
  /-- A node was to be added when all ids were in use. -/
  | storeFull
  deriving DecidableEq

/-- The text of a normalization error. -/
def NormalizeError.message : NormalizeError → String
  | .unhandledKind kind key => s!"unhandled type kind '{kind}' in type '{key}'"
  | .incomplete key => s!"type '{key}' did not produce a single node"
  | .storeFull => "type arena is full"

/-- A normalization request in progress. -/
structure Draft where
  store : TypeStore
  /-- The ids of the types known by their keys. -/
  identities : Table String TypeId
  /-- The keys that the request has entered, newest first. -/
  journal : List String := []

/-- A step of a request. After an error the draft is as far as the work had come. -/
abbrev Building := EStateM NormalizeError Draft

namespace Building

/-! ### Steps -/

/-- Ask the store for the id of a node; an error if it has none left to give. -/
def allocate (ask : TypeStore → Option (TypeId × TypeStore)) : Building TypeId :=
  fun draft =>
    match ask draft.store with
    | some (id, store) => .ok id { draft with store }
    | none => .error .storeFull draft

/-- Add a node, sharing leaves. -/
def intern (node : TypeNode TypeId) : Building TypeId := allocate (·.intern node)

/-- Add a node as new. -/
def add (node : TypeNode TypeId) : Building TypeId := allocate (·.add node)

/-- Add a node whose contents come later. -/
def reserve : Building TypeId := allocate TypeStore.reserve

/-- Give a reserved node its contents. -/
def fill (id : TypeId) (node : TypeNode TypeId) : Building Unit :=
  modify fun draft => { draft with store := draft.store.fill id node }

/-- Enter an id under a key. -/
def enter (key : String) (id : TypeId) : Building Unit :=
  modify fun draft =>
    { draft with identities := draft.identities.insert key id, journal := key :: draft.journal }

/-! ### Opening a descriptor -/

/-- What is to be done for a descriptor. -/
inductive Task where
  /-- Nothing: its node is there. -/
  | done (id : TypeId)
  /-- The same as for another descriptor. -/
  | instead (target : Descriptor)
  /-- Build its parts, then give the reserved node `id` its contents. -/
  | parts (id : TypeId) (form : Form Descriptor)

/-- The node of an integer of `width` bytes. Integers of ten and twelve bytes are floating-point
numbers of extended precision; a width that no machine has stands for a pointer's. -/
def integerNode (pointerSize width : UInt64) : TypeNode TypeId :=
  if width ∈ [1, 2, 4, 8, 16] then .integer width true
  else if width ∈ [10, 12] then .float width
  else .integer pointerSize true

/-- Reserve a node under a key for a type of the given form. -/
def reserveKeyed (key : String) (form : Form Descriptor) : Building Task := do
  let id ← reserve
  enter key id
  return .parts id form

/-- The form of an aggregate. -/
def aggregateForm (variant : AggregateVariant) (width : UInt64)
    (members : List (Member Descriptor)) : Form Descriptor :=
  match variant with
  | .unionType => .union (members.map (·.type))
  | .structType | .classType =>
    .struct width (members.map fun member => ⟨member.offset, member.width, member.type⟩)

/-- Begin the work on a descriptor. The identities are consulted before anything else. -/
def start (binary : Binary) (pointerSize : UInt64) (descriptor : Descriptor) : Building Task := do
  match (← get).identities.find? descriptor.key with
  | some id => return .done id
  | none =>
    match descriptor.kind with
    | .void | .wideChar | .varArgs | .value => return .done (← intern .void)
    | .bool => return .done (← intern .bool)
    | .integer _ => return .done (← intern (integerNode pointerSize descriptor.width))
    | .float => return .done (← intern (.float descriptor.width))
    | .pointer target => reserveKeyed descriptor.key (.pointer target)
    | .array element count => reserveKeyed descriptor.key (.array element count)
    | .function result parameters variadic =>
      reserveKeyed descriptor.key (.function result parameters variadic)
    | .aggregate variant members => do
      let id ← reserve
      if descriptor.registeredName.isSome then enter descriptor.key id
      return .parts id (aggregateForm variant descriptor.width members)
    | .enumeration => do
      let underlying ← intern (.integer descriptor.width false)
      let id ← add (.enumeration underlying)
      if descriptor.registeredName.isSome then enter descriptor.key id
      return .done id
    | .reference category typeId name =>
      match binary.resolve category typeId name with
      | .void => return .done (← intern .void)
      | .type target => return .instead target
      | .typedef target => reserveKeyed descriptor.key (.typedef target)
    | .other kind => throw (.unhandledKind kind descriptor.key)

/-! ### Closing a node -/

/-- The id of an element of a structure; padding is shared. -/
def elementId : Layout.Element TypeId → Building TypeId
  | .item id => return id
  | .padding bytes => intern (.padding bytes)

/-- The node of a form whose parts are built. -/
def formNode : Form TypeId → Building (TypeNode TypeId)
  | .pointer target => return .pointer target
  | .array element count => return .array element count
  | .function result parameters variadic => return .function result parameters variadic
  | .typedef target => return .typedef target
  | .struct width spans => return .struct (← (Layout.plan width spans).mapM elementId)
  | .union members => return .union members

/-- Give a reserved node the contents of its form. -/
def close (id : TypeId) (form : Form TypeId) : Building TypeId := do
  fill id (← formNode form)
  return id

end Building

end BinaryFacts
