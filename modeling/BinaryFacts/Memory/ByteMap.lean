/-
This file defines the memory image of a function body: bytes by address, each with the
permissions of its segment. Adjacent bytes with the same permissions are gathered into runs.
-/

import BinaryFacts.AddressMap
import BinaryFacts.Fault

namespace BinaryFacts

/-- A byte of memory with its permissions. -/
structure MappedByte where
  value : UInt8
  writable : Bool
  executable : Bool
  deriving DecidableEq

/-- Bytes of memory by address. -/
abbrev ByteMap := AddressMap MappedByte

/-- Bytes in a row with the same permissions. -/
structure MemoryRun where
  start : UInt64
  bytes : List UInt8
  writable : Bool
  executable : Bool
  deriving DecidableEq

namespace MemoryRun

/-- The run of one byte. -/
def ofByte (address : UInt64) (byte : MappedByte) : MemoryRun :=
  ⟨address, [byte.value], byte.writable, byte.executable⟩

/-- The first address past a run. -/
def stop (run : MemoryRun) : Except Fault UInt64 :=
  checkedSum run.start (UInt64.ofNat run.bytes.length)

/-- Whether a byte continues a run: it comes right after it, with the same permissions. -/
def continuedBy (run : MemoryRun) (address : UInt64) (byte : MappedByte) : Except Fault Bool := do
  return (← run.stop) = address && run.writable = byte.writable &&
    run.executable = byte.executable

/-- A run with one more byte. -/
def push (run : MemoryRun) (byte : MappedByte) : MemoryRun :=
  { run with bytes := run.bytes ++ [byte.value] }

end MemoryRun

namespace ByteMap

/-- Gather entries into runs, behind the run gathered last. -/
def runsAfter (run : MemoryRun) : List (UInt64 × MappedByte) → Except Fault (List MemoryRun)
  | [] => return [run]
  | (address, byte) :: rest => do
    if ← run.continuedBy address byte then runsAfter (run.push byte) rest
    else return run :: (← runsAfter (.ofByte address byte) rest)

/-- The bytes of a map as runs of adjacent bytes with the same permissions. -/
def runs (map : ByteMap) : Except Fault (List MemoryRun) :=
  match map.entries with
  | [] => return []
  | (address, byte) :: rest => runsAfter (.ofByte address byte) rest

end ByteMap

end BinaryFacts
