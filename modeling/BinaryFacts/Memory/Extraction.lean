/-
This file extracts the memory and the cross-references of a function body. Each address of each
block contributes the byte of the memory image there, with the permissions of the first segment
over it, and the references of the expression lifted there. An address outside all segments, or
without a byte, is left out of the memory.
-/

import BinaryFacts.Memory.ByteMap
import BinaryFacts.Memory.CrossReference

namespace BinaryFacts

namespace Binary

/-- The byte at an address with its permissions, if it lies in a segment. -/
def mappedByteAt? (binary : Binary) (address : UInt64) : Option MappedByte := do
  let segment ← binary.segmentAt? address
  let value ← binary.byteAt? address
  return ⟨value, segment.writable, segment.executable⟩

/-- Map the byte at an address, if there is one. -/
def mapAddress (binary : Binary) (memory : ByteMap) (address : UInt64) : ByteMap :=
  match binary.mappedByteAt? address with
  | some byte => memory.insert address byte
  | none => memory

/-- Add the references of the expression lifted at an address, if there is one. -/
def collectAddress (binary : Binary) (function : BinaryFunction) (references : AddressSet)
    (address : UInt64) : AddressSet :=
  match function.lifted.find? address with
  | some expression => binary.collectReferences references expression
  | none => references

/-- Take in an address: its byte, and its references if they are wanted. -/
def extractAddress (binary : Binary) (function : BinaryFunction) (withReferences : Bool)
    (found : ByteMap × AddressSet) (address : UInt64) : ByteMap × AddressSet :=
  (binary.mapAddress found.1 address,
    if withReferences then binary.collectAddress function found.2 address else found.2)

/-- Take in the addresses of a block, ascending. -/
def extractBlock (binary : Binary) (function : BinaryFunction) (withReferences : Bool)
    (found : ByteMap × AddressSet) (block : AddressRange) : ByteMap × AddressSet :=
  block.addresses.foldl (binary.extractAddress function withReferences) found

/-- The memory of a function body, and its cross-references if they are wanted. -/
def extract (binary : Binary) (function : BinaryFunction) (withReferences : Bool) :
    ByteMap × AddressSet :=
  function.blocks.foldl (binary.extractBlock function withReferences) (.empty, .empty)

end Binary

end BinaryFacts
