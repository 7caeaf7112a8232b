/-
This file defines a binary as the analysis engine shows it: its target, the names of its
registers, its functions, its memory image with segments and sections, and the types registered
in it. Functions and bytes are ordered by address; of several segments or sections over one
address, the one added first counts.
-/

import BinaryFacts.AddressMap
import BinaryFacts.Binary.Function

namespace BinaryFacts

/-- A binary with everything the analysis engine knows about it. -/
structure Binary where
  /-- The engine's name of the architecture. -/
  architecture : String
  /-- The engine's name of the platform. -/
  platform : String
  /-- The names of registers by storage number. -/
  registers : Table Int64 String := .empty
  functions : AddressMap BinaryFunction := .empty
  bytes : AddressMap UInt8 := .empty
  /-- The segments in the order in which they were added. -/
  segments : List Segment := []
  /-- The sections in the order in which they were added. -/
  sections : List Section := []
  typesById : Table String Descriptor := .empty
  typesByName : Table String Descriptor := .empty

namespace Binary

/-- An empty binary for Linux on the amd64 architecture. -/
def linuxAmd64 : Binary where
  architecture := "x86_64"
  platform := "linux-x86_64"

/-- The name of the stack pointer, which follows the architecture. -/
def stackPointer (binary : Binary) : String :=
  if binary.architecture = "x86_64" then "rsp"
  else if binary.architecture = "x86" then "esp"
  else "sp"

/-! ### Building a binary -/

/-- Name the register with a storage number. -/
def addRegister (binary : Binary) (storage : Int64) (name : String) : Binary :=
  { binary with registers := binary.registers.insert storage name }

/-- Add a function, in the place of one with the same start. -/
def addFunction (binary : Binary) (function : BinaryFunction) : Binary :=
  { binary with functions := binary.functions.insert function.start function }

/-- Add a segment after those added so far. -/
def addSegment (binary : Binary) (segment : Segment) : Binary :=
  { binary with segments := binary.segments ++ [segment] }

/-- Add a section after those added so far. -/
def addSection (binary : Binary) (added : Section) : Binary :=
  { binary with sections := binary.sections ++ [added] }

/-- Put bytes into the memory image, the first `index` places past `address` and the others
behind it. -/
def mapBytesFrom (binary : Binary) (address : UInt64) (index : Nat) :
    List UInt8 → Except Fault Binary
  | [] => return binary
  | byte :: rest => do
    let place ← checkedSum address (UInt64.ofNat index)
    { binary with bytes := binary.bytes.insert place byte }.mapBytesFrom address (index + 1) rest

/-- Put bytes into the memory image, the first at `address`. -/
def mapBytes (binary : Binary) (address : UInt64) (bytes : List UInt8) : Except Fault Binary :=
  binary.mapBytesFrom address 0 bytes

/-- Register a type under a name, and under an id if it has one. -/
def registerType (binary : Binary) (name : String) (id : Option String) (type : Descriptor) :
    Binary :=
  { binary with
    typesById := match id with
      | some id => binary.typesById.insert id type
      | none => binary.typesById
    typesByName := binary.typesByName.insert name type }

/-! ### Reading a binary -/

/-- The name of the register with a storage number. -/
def registerName? (binary : Binary) (storage : Int64) : Option String :=
  binary.registers.find? storage

/-- The function that starts at an address. -/
def functionAt? (binary : Binary) (address : UInt64) : Option BinaryFunction :=
  binary.functions.get? address

/-- The functions whose body holds an address, by ascending start. -/
def functionsContaining (binary : Binary) (address : UInt64) : List BinaryFunction :=
  binary.functions.values.filter (·.contains address)

/-- The byte of the memory image at an address. -/
def byteAt? (binary : Binary) (address : UInt64) : Option UInt8 := binary.bytes.get? address

/-- The first segment over an address. -/
def segmentAt? (binary : Binary) (address : UInt64) : Option Segment :=
  binary.segments.find? (·.contains address)

/-- The sections over an address, in the order in which they were added. -/
def sectionsAt (binary : Binary) (address : UInt64) : List Section :=
  binary.sections.filter (·.contains address)

/-- Whether the first section over an address holds read-only code. -/
def isCode (binary : Binary) (address : UInt64) : Bool :=
  match (binary.sectionsAt address).head? with
  | some first => first.purpose = .readOnlyCode
  | none => false

end Binary

end BinaryFacts
