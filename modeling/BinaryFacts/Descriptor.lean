/-
This file defines type descriptors, the way an analysis engine states a type: a kind, a width in
bytes, a registered name for named aggregates and enumerations, and a key, the engine's spelling
of the type. Descriptors that mention themselves do so through references, which name a type
registered in the binary. The constructors derive the key from the parts; a width that does not
fit in 64 bits is a fault.
-/

import BinaryFacts.Fault

namespace BinaryFacts

/-! ### The parts of a descriptor -/

/-- How an aggregate was declared. -/
inductive AggregateVariant where
  | structType
  | classType
  | unionType
  deriving DecidableEq

/-- The word that opens the key of an aggregate. -/
def AggregateVariant.keyword : AggregateVariant → String
  | .structType => "struct"
  | .classType => "class"
  | .unionType => "union"

/-- What a reference claims to refer to. -/
inductive ReferenceClass where
  | structType
  | unionType
  | typedef
  | enumType
  | unknown
  | other (name : String)
  deriving DecidableEq

/-- Whether a class stands for a tagged type: a structure, union or enumeration. -/
def ReferenceClass.isTag : ReferenceClass → Bool
  | .structType | .unionType | .enumType => true
  | .typedef | .unknown | .other _ => false

/-- Whether a class stands for a typedef. -/
def ReferenceClass.isTypedef : ReferenceClass → Bool
  | .typedef => true
  | .structType | .unionType | .enumType | .unknown | .other _ => false

/-- A member of an aggregate: its name, where it starts, how many bytes it claims, its type. -/
structure Member (Part : Type) where
  name : String
  offset : UInt64
  width : UInt64
  type : Part

/-- Replace the type of a member. -/
def Member.map {Part Other : Type} (replace : Part → Other) (member : Member Part) :
    Member Other :=
  ⟨member.name, member.offset, member.width, replace member.type⟩

/-- The kind of a type, over the type of its parts. -/
inductive Kind (Part : Type) where
  | void
  | bool
  | integer (signed : Bool)
  | float
  | wideChar
  | varArgs
  | value
  | pointer (target : Part)
  | array (element : Part) (count : UInt64)
  | function (result : Part) (parameters : List Part) (variadic : Bool)
  | aggregate (variant : AggregateVariant) (members : List (Member Part))
  | enumeration
  | reference (category : ReferenceClass) (typeId : Option String) (name : String)
  | other (name : String)

namespace Kind

variable {Part Other : Type}

/-- Replace every part of a kind. -/
def map (replace : Part → Other) : Kind Part → Kind Other
  | .void => .void
  | .bool => .bool
  | .integer signed => .integer signed
  | .float => .float
  | .wideChar => .wideChar
  | .varArgs => .varArgs
  | .value => .value
  | .pointer target => .pointer (replace target)
  | .array element count => .array (replace element) count
  | .function result parameters variadic =>
    .function (replace result) (parameters.map replace) variadic
  | .aggregate variant members => .aggregate variant (members.map (Member.map replace))
  | .enumeration => .enumeration
  | .reference category typeId name => .reference category typeId name
  | .other name => .other name

/-- The name of a kind in messages. -/
def name : Kind Part → String
  | .void => "void"
  | .bool => "bool"
  | .integer _ => "integer"
  | .float => "float"
  | .wideChar => "wide-char"
  | .varArgs => "var-args"
  | .value => "value"
  | .pointer _ => "pointer"
  | .array _ _ => "array"
  | .function _ _ _ => "function"
  | .aggregate _ _ => "structure"
  | .enumeration => "enumeration"
  | .reference _ _ _ => "named-type-reference"
  | .other name => name

/-- The parts of a kind, in order; those of a function start with its result. -/
def parts : Kind Part → List Part
  | .pointer target => [target]
  | .array element _ => [element]
  | .function result parameters _ => result :: parameters
  | .aggregate _ members => members.map (·.type)
  | .void | .bool | .integer _ | .float | .wideChar | .varArgs | .value | .enumeration
  | .reference _ _ _ | .other _ => []

/-- Whether a kind is void. -/
def isVoid : Kind Part → Bool
  | .void => true
  | _ => false

/-- Whether a kind is a pointer. -/
def isPointer : Kind Part → Bool
  | .pointer _ => true
  | _ => false

end Kind

/-- A type as the analysis engine describes it. -/
structure Descriptor where
  kind : Kind Descriptor
  /-- Width in bytes. -/
  width : UInt64
  /-- The name under which the engine knows an aggregate or enumeration. -/
  registeredName : Option String := none
  /-- The engine's spelling of the type, which identifies it. -/
  key : String

namespace Descriptor

/-- Whether a descriptor is void. -/
def isVoid (descriptor : Descriptor) : Bool := descriptor.kind.isVoid

/-! ### Folds -/

section Fold

variable {Result : Type} (combine : Kind Result → UInt64 → Option String → String → Result)

mutual

/-- Combine a descriptor from the bottom up: `combine` gets the kind over the results of the
parts, the width, the registered name and the key. -/
def fold : Descriptor → Result
  | ⟨kind, width, registeredName, key⟩ => combine (foldKind kind) width registeredName key

/-- The kind over the results of its parts. -/
def foldKind : Kind Descriptor → Kind Result
  | .void => .void
  | .bool => .bool
  | .integer signed => .integer signed
  | .float => .float
  | .wideChar => .wideChar
  | .varArgs => .varArgs
  | .value => .value
  | .pointer target => .pointer (fold target)
  | .array element count => .array (fold element) count
  | .function result parameters variadic => .function (fold result) (foldAll parameters) variadic
  | .aggregate variant members => .aggregate variant (foldMembers members)
  | .enumeration => .enumeration
  | .reference category typeId name => .reference category typeId name
  | .other name => .other name

/-- The results of descriptors in a row. -/
def foldAll : List Descriptor → List Result
  | [] => []
  | descriptor :: rest => fold descriptor :: foldAll rest

/-- The members over the results of their types. -/
def foldMembers : List (Member Descriptor) → List (Member Result)
  | [] => []
  | ⟨name, offset, width, type⟩ :: rest => ⟨name, offset, width, fold type⟩ :: foldMembers rest

end

/-- Folding descriptors in a row is folding each of them. -/
theorem foldAll_eq_map (descriptors : List Descriptor) :
    foldAll combine descriptors = descriptors.map (fold combine) := by
  induction descriptors with
  | nil => simp [foldAll]
  | cons descriptor rest inductionHypothesis => simp [foldAll, inductionHypothesis]

/-- Folding members is folding the type of each of them. -/
theorem foldMembers_eq_map (members : List (Member Descriptor)) :
    foldMembers combine members = members.map (Member.map (fold combine)) := by
  induction members with
  | nil => simp [foldMembers]
  | cons member rest inductionHypothesis => simp [foldMembers, inductionHypothesis, Member.map]

/-- Folding a kind is folding each of its parts. -/
theorem foldKind_eq_map (kind : Kind Descriptor) :
    foldKind combine kind = kind.map (fold combine) := by
  cases kind <;> simp [foldKind, Kind.map, foldAll_eq_map, foldMembers_eq_map]

/-- A fold combines the folds of the parts. -/
theorem fold_eq (descriptor : Descriptor) :
    fold combine descriptor = combine (descriptor.kind.map (fold combine)) descriptor.width
      descriptor.registeredName descriptor.key := by
  obtain ⟨kind, width, registeredName, key⟩ := descriptor
  simp [fold, foldKind_eq_map]

end Fold

/-- The number of descriptors inside a descriptor, itself included. -/
def nodeCount : Descriptor → Nat := fold fun kind _ _ _ => kind.parts.foldr (· + ·) 1

/-! ### Constructors with derived keys -/

/-- The number of bits in `bytes` bytes. -/
def bits (bytes : UInt64) : Except Fault UInt64 := checkedProduct bytes 8

/-- The void type. -/
def void : Descriptor := ⟨.void, 0, none, "void"⟩

/-- The truth values, one byte wide. -/
def bool : Descriptor := ⟨.bool, 1, none, "bool"⟩

/-- The rest of a variable argument list. -/
def varArgs : Descriptor := ⟨.varArgs, 0, none, "..."⟩

/-- An integer of `width` bytes, spelled with its number of bits. -/
def int (width : UInt64) (signed : Bool) : Except Fault Descriptor := do
  let count ← bits width
  let sign := if signed then "" else "u"
  return ⟨.integer signed, width, none, s!"{sign}int{count.toNat}_t"⟩

/-- A floating-point number of `width` bytes. -/
def float (width : UInt64) : Except Fault Descriptor := do
  if width = 4 then return ⟨.float, width, none, "float"⟩
  if width = 8 then return ⟨.float, width, none, "double"⟩
  if width = 10 ∨ width = 12 ∨ width = 16 then return ⟨.float, width, none, "long double"⟩
  let count ← bits width
  return ⟨.float, width, none, s!"float{count.toNat}"⟩

/-- A wide character of `width` bytes. -/
def wideChar (width : UInt64) : Descriptor := ⟨.wideChar, width, none, "wchar_t"⟩

/-- An opaque value of `width` bytes. -/
def value (width : UInt64) : Descriptor := ⟨.value, width, none, "value"⟩

/-- A pointer of `width` bytes. -/
def pointer (target : Descriptor) (width : UInt64) : Descriptor :=
  ⟨.pointer target, width, none, target.key ++ "*"⟩

/-- `count` elements in a row. -/
def array (element : Descriptor) (count : UInt64) : Except Fault Descriptor := do
  let width ← checkedProduct element.width count
  return ⟨.array element count, width, none, element.key ++ s!"[{count.toNat}]"⟩

/-- A function type; a variadic one spells `...` after its parameters. -/
def function (result : Descriptor) (parameters : List Descriptor) (variadic : Bool) : Descriptor :=
  let rest := if variadic then ["..."] else []
  let spelled := String.intercalate ", " (parameters.map (·.key) ++ rest)
  ⟨.function result parameters variadic, 0, none, result.key ++ "(" ++ spelled ++ ")"⟩

/-- An aggregate. Without a name its key spells the keys of its members, so that two different
anonymous aggregates may share a key. -/
def aggregate (variant : AggregateVariant) (name : Option String) (width : UInt64)
    (members : List (Member Descriptor)) : Descriptor :=
  let spelled := match name with
    | some name => name
    | none => "\x7b " ++ String.intercalate "; " (members.map (·.type.key)) ++ " \x7d"
  ⟨.aggregate variant members, width, name, variant.keyword ++ " " ++ spelled⟩

/-- An enumeration of `width` bytes. -/
def enumeration (name : Option String) (width : UInt64) : Descriptor :=
  let key := match name with
    | some name => "enum " ++ name
    | none => "enum"
  ⟨.enumeration, width, name, key⟩

/-- A reference to a registered type. A reference to a tagged type has the key of the type. -/
def reference (category : ReferenceClass) (name : String) (typeId : Option String) : Descriptor :=
  let key := match category with
    | .structType => "struct " ++ name
    | .unionType => "union " ++ name
    | .enumType => "enum " ++ name
    | .typedef | .unknown | .other _ => name
  ⟨.reference category typeId name, 0, none, key⟩

/-- A type of a class outside this list. -/
def other (name : String) (width : UInt64) : Descriptor := ⟨.other name, width, none, name⟩

end Descriptor

/-- A member that claims as many bytes as its type is wide. -/
def Member.ofType (name : String) (offset : UInt64) (type : Descriptor) : Member Descriptor :=
  ⟨name, offset, type.width, type⟩

end BinaryFacts
