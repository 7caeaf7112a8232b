/-
This file builds a descriptor by recursion: begin the work on it, build its parts from left to
right, and close its node. The recursion carries an allowance of levels, which no request uses up
before the ids are: of two levels one below the other, at least one reserves a node.
-/

import BinaryFacts.Normalization.Draft

namespace BinaryFacts

namespace Building

/-- Build a descriptor within an allowance of levels. -/
def buildWithin (binary : Binary) (pointerSize : UInt64) : Nat → Descriptor → Building TypeId
  | 0, _ => throw .storeFull
  | levels + 1, descriptor => do
    match ← start binary pointerSize descriptor with
    | .done id => return id
    | .instead target => buildWithin binary pointerSize levels target
    | .parts id form => close id (← form.mapM (buildWithin binary pointerSize levels))

/-- The levels allowed for a descriptor: two for every id, and two for the descriptor that finds
none left. -/
def levels : Nat := 2 * TypeId.count + 2

/-- Build a descriptor. -/
def build (binary : Binary) (pointerSize : UInt64) (descriptor : Descriptor) : Building TypeId :=
  buildWithin binary pointerSize levels descriptor

end Building

end BinaryFacts
