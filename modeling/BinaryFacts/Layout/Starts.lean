/-
This file lays out a structure with words only. The runs of equal bytes are kept at the offsets
where they start, in an ordered map; a run lasts until the next one, and the last one stands at
the width and closes the row. Painting a stretch removes the runs that start in it and lets the
run that it cuts off resume at its end. Every sum and difference is checked.
-/

import BinaryFacts.AddressMap
import BinaryFacts.Fault
import BinaryFacts.Layout

namespace BinaryFacts.Layout

variable {Item : Type}

/-- The runs of a row of bytes at the offsets where they start. -/
abbrev Starts (Item : Type) := AddressMap (Slot Item)

namespace Starts

/-- The row of a structure without members: unclaimed up to its width. -/
def unpainted (width : UInt64) : Starts Item :=
  (AddressMap.empty.insert 0 .unclaimed).insert width .claimed

/-- The state of a byte. -/
def slotAt (starts : Starts Item) (byte : UInt64) : Slot Item :=
  (starts.floor? byte).getD .unclaimed

/-- Give every byte from `first` up to `last` the state `slot`. -/
def paint (first last : UInt64) (slot : Slot Item) (starts : Starts Item) : Starts Item :=
  if first < last then
    let rest := starts.without first last
    let resumed :=
      if (rest.get? last).isSome then rest else rest.insert last (starts.slotAt last)
    resumed.insert first slot
  else starts

/-- The first byte past a span. One that leaves the words ends with the structure, as does one
that leaves the structure. -/
def stopOf (width : UInt64) (span : Span Item) : UInt64 :=
  match checkedSum span.offset span.width with
  | .ok stop => if stop ≤ width then stop else width
  | .error _ => width

/-- Paint one member: claim its span, then mark its first byte. A member that starts past the end
of the structure is left out. -/
def paintSpan (width : UInt64) (starts : Starts Item) (span : Span Item) :
    Except Fault (Starts Item) :=
  if span.offset < width then do
    let claimed := starts.paint span.offset (stopOf width span) .claimed
    let next ← checkedSum span.offset 1
    return claimed.paint span.offset next (.start span.item)
  else return starts

/-- A padding element, unless it would be empty. -/
def gap (padding : UInt64) : List (Element Item) :=
  if padding = 0 then [] else [.padding padding]

/-- Read the elements off the runs, with `padding` unclaimed bytes since the last member. -/
def elements (padding : UInt64) :
    List (UInt64 × Slot Item) → Except Fault (List (Element Item))
  | (first, slot) :: (next, later) :: rest => do
    let length ← checkedDifference next first
    match slot with
    | .unclaimed => elements (← checkedSum padding length) ((next, later) :: rest)
    | .claimed => elements padding ((next, later) :: rest)
    | .start item =>
      return gap padding ++ .item item :: (← elements 0 ((next, later) :: rest))
  | _ => return gap padding

/-- The elements of a structure of `width` bytes, padding included, by ascending offset. -/
def plan (width : UInt64) (spans : List (Span Item)) : Except Fault (List (Element Item)) := do
  let starts ← spans.foldlM (paintSpan width) (unpainted width)
  elements 0 starts.entries

end Starts

end BinaryFacts.Layout
