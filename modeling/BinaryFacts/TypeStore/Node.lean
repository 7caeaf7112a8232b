/-
This file defines the nodes of the type graph. A node is one type constructor over references to
its children; the references are a parameter, so that the same constructors serve for stored
nodes, whose children are ids, and for unfolded types, whose children are types.

An id is a number of 32 bits, so there are only so many ids.
-/

namespace BinaryFacts

/-- The number of a node in a type store. -/
structure TypeId where
  number : UInt32
  deriving DecidableEq

namespace TypeId

/-- The number of an id, as an index. -/
def index (id : TypeId) : Nat := id.number.toNat

/-- How many ids there are. -/
def count : Nat := UInt32.size

/-- The id with an index, if there are that many ids. -/
def ofIndex? (index : Nat) : Option TypeId :=
  if index < count then some ⟨UInt32.ofNat index⟩ else none

@[ext] theorem ext_index {id other : TypeId} (same : id.index = other.index) : id = other := by
  obtain ⟨number⟩ := id
  obtain ⟨otherNumber⟩ := other
  rw [TypeId.mk.injEq]
  exact UInt32.toNat_inj.mp same

theorem index_lt_count (id : TypeId) : id.index < count := id.number.toNat_lt

@[simp] theorem ofIndex?_eq_some_iff {index : Nat} {id : TypeId} :
    ofIndex? index = some id ↔ id.index = index := by
  unfold ofIndex?
  constructor
  · intro given
    split at given <;> cases given
    rename_i few
    exact UInt32.toNat_ofNat_of_lt few
  · rintro rfl
    rw [if_pos id.index_lt_count, Option.some.injEq]
    exact ext_index (UInt32.toNat_ofNat_of_lt id.index_lt_count)

@[simp] theorem ofIndex?_eq_none_iff {index : Nat} : ofIndex? index = none ↔ count ≤ index := by
  simp [ofIndex?]

@[simp] theorem ofIndex?_index (id : TypeId) : ofIndex? id.index = some id :=
  ofIndex?_eq_some_iff.mpr rfl

end TypeId

/-- One constructor of a type, over references to its children. -/
inductive TypeNode (Child : Type) where
  | void
  | bool
  /-- An integer of `size` bytes. -/
  | integer (size : UInt64) (signed : Bool)
  /-- A floating-point number of `size` bytes. -/
  | float (size : UInt64)
  | pointer (element : Child)
  | array (element : Child) (count : UInt64)
  /-- Elements by ascending offset, padding included. -/
  | struct (elements : List Child)
  | union (members : List Child)
  | enumeration (underlying : Child)
  | typedef (underlying : Child)
  | function (result : Child) (parameters : List Child) (variadic : Bool)
  /-- Filler between the members of a structure. -/
  | padding (bytes : UInt64)
  deriving DecidableEq

namespace TypeNode

variable {Child Other : Type}

/-- Replace every child. -/
def map (replace : Child → Other) : TypeNode Child → TypeNode Other
  | .void => .void
  | .bool => .bool
  | .integer size signed => .integer size signed
  | .float size => .float size
  | .pointer element => .pointer (replace element)
  | .array element count => .array (replace element) count
  | .struct elements => .struct (elements.map replace)
  | .union members => .union (members.map replace)
  | .enumeration underlying => .enumeration (replace underlying)
  | .typedef underlying => .typedef (replace underlying)
  | .function result parameters variadic =>
    .function (replace result) (parameters.map replace) variadic
  | .padding bytes => .padding bytes

/-- The children of a node, in order; those of a function start with its result. -/
def children : TypeNode Child → List Child
  | .void | .bool | .integer _ _ | .float _ | .padding _ => []
  | .pointer element | .array element _ => [element]
  | .struct elements => elements
  | .union members => members
  | .enumeration underlying | .typedef underlying => [underlying]
  | .function result parameters _ => result :: parameters

/-- A leaf has no children and is known by its value alone. -/
def isLeaf : TypeNode Child → Bool
  | .void | .bool | .integer _ _ | .float _ | .padding _ => true
  | .pointer _ | .array _ _ | .struct _ | .union _ | .enumeration _ | .typedef _
  | .function _ _ _ => false

/-- Whether a node is the void type. -/
def isVoid : TypeNode Child → Bool
  | .void => true
  | _ => false

/-- Whether a node is a pointer. -/
def isPointer : TypeNode Child → Bool
  | .pointer _ => true
  | _ => false

/-- Whether a node is an integer. -/
def isInteger : TypeNode Child → Bool
  | .integer _ _ => true
  | _ => false

/-- Whether a node is a floating-point number. -/
def isFloat : TypeNode Child → Bool
  | .float _ => true
  | _ => false

/-- Whether a node is padding. -/
def isPadding : TypeNode Child → Bool
  | .padding _ => true
  | _ => false

/-- The word for a node where its contents are not written. -/
def word : TypeNode Child → String
  | .void => "void"
  | .bool => "bool"
  | .integer _ _ => "int"
  | .float _ => "float"
  | .pointer _ => "ptr"
  | .array _ _ => "array"
  | .struct _ => "struct"
  | .union _ => "union"
  | .enumeration _ => "enum"
  | .typedef _ => "typedef"
  | .function _ _ _ => "fn"
  | .padding _ => "pad"

/-- A replaced node has the replaced children. -/
@[simp] theorem children_map (replace : Child → Other) (node : TypeNode Child) :
    (node.map replace).children = node.children.map replace := by
  cases node <;> rfl

/-- A leaf has no children. -/
theorem children_of_isLeaf {node : TypeNode Child} (leaf : node.isLeaf = true) :
    node.children = [] := by
  cases node <;> simp_all [isLeaf, children]

end TypeNode

end BinaryFacts
