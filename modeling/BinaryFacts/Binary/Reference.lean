/-
This file resolves references to the types registered in a binary. A reference is looked up by
its id first and by its name second. References to tagged types are followed until a descriptor
that is no such reference; a chain of references that breaks off or comes back to a key it has
passed leads nowhere.
-/

import BinaryFacts.Binary.Basic

namespace BinaryFacts

namespace Binary

/-- The registered type that a reference names: the one with its id, else the one with its
name. -/
def lookup? (binary : Binary) (typeId : Option String) (name : String) : Option Descriptor :=
  (typeId.bind binary.typesById.find?).orElse fun _ => binary.typesByName.find? name

/-- The number of registrations, by id or by name. -/
def registrations (binary : Binary) : Nat :=
  binary.typesById.size + binary.typesByName.size

/-- Follow references of the classes in `follows` until a descriptor that is no such reference.
The chain breaks off at a failed lookup, at a key in `seen`, and after `steps` references. -/
def followWithin (binary : Binary) (follows : ReferenceClass → Bool) :
    Nat → List String → Descriptor → Option Descriptor
  | 0, _, _ => none
  | steps + 1, seen, current =>
    match current.kind with
    | .reference category typeId name =>
      if follows category then
        if current.key ∈ seen then none
        else
          match binary.lookup? typeId name with
          | some next => binary.followWithin follows steps (current.key :: seen) next
          | none => none
      else some current
    | _ => some current

/-- Follow references of the classes in `follows` until a descriptor that is no such reference.
Apart from the first, every descriptor on the way is registered, so a chain longer than the
registrations has come back to a key. -/
def follow? (binary : Binary) (follows : ReferenceClass → Bool) (start : Descriptor) :
    Option Descriptor :=
  binary.followWithin follows (binary.registrations + 2) [] start

/-- Whether a descriptor is void, directly or through typedefs. -/
def isDeclaredVoid (binary : Binary) (descriptor : Descriptor) : Bool :=
  (binary.follow? ReferenceClass.isTypedef descriptor).any Descriptor.isVoid

/-- What a reference stands for. -/
inductive Resolution where
  /-- Nothing: the reference is taken for void. -/
  | void
  /-- The type it leads to. -/
  | type (target : Descriptor)
  /-- A typedef of the type it names. -/
  | typedef (target : Descriptor)

/-- What a reference stands for in a binary. -/
def resolve (binary : Binary) (category : ReferenceClass) (typeId : Option String)
    (name : String) : Resolution :=
  match binary.lookup? typeId name with
  | none => .void
  | some found =>
    match category with
    | .typedef => .typedef found
    | .structType | .unionType | .enumType =>
      match binary.follow? ReferenceClass.isTag found with
      | some target => .type target
      | none => .void
    | .unknown | .other _ => .void

end Binary

end BinaryFacts
