/-
This file recovers the padding of structures. An engine reports the members of a structure as
spans of bytes and is silent about the gaps between them. The bytes of the structure are painted
member by member: a member marks its first byte and claims the rest of its span, over whatever
stood there before. Each stretch between two marked bytes then holds one padding element for its
unclaimed bytes, if there are any.

A row of painted bytes is kept as runs of equal bytes, so the work depends on the number of
members and not on the width. `Runs.bytes` is the row that runs stand for, and `bytes_take` and
`bytes_drop` tie the cuts of runs to the cuts of rows.
-/

namespace BinaryFacts.Layout

/-! ### Rows of painted bytes -/

/-- What a byte of a structure is. -/
inductive Slot (Item : Type) where
  /-- No member holds the byte. -/
  | unclaimed
  /-- A member that starts earlier holds the byte. -/
  | claimed
  /-- A member starts at the byte. -/
  | start (item : Item)

/-- A row of bytes, each element a number of equal bytes. -/
abbrev Runs (Item : Type) := List (Nat × Slot Item)

namespace Runs

variable {Item : Type}

/-- The row of bytes that runs stand for. -/
def bytes (runs : Runs Item) : List (Slot Item) :=
  runs.flatMap fun run => List.replicate run.1 run.2

/-- The first `count` bytes. -/
def take (count : Nat) : Runs Item → Runs Item
  | [] => []
  | (length, slot) :: rest =>
    if count = 0 then []
    else if count < length then [(count, slot)]
    else (length, slot) :: take (count - length) rest

/-- All bytes but the first `count`. -/
def drop (count : Nat) : Runs Item → Runs Item
  | [] => []
  | (length, slot) :: rest =>
    if count < length then (length - count, slot) :: rest
    else drop (count - length) rest

/-- Give every byte from `first` up to `last` the state `slot`. -/
def paint (first last : Nat) (slot : Slot Item) (runs : Runs Item) : Runs Item :=
  if first < last then runs.take first ++ (last - first, slot) :: runs.drop last else runs

@[simp] theorem bytes_nil : bytes ([] : Runs Item) = [] := rfl

@[simp] theorem bytes_cons (run : Nat × Slot Item) (rest : Runs Item) :
    bytes (run :: rest) = List.replicate run.1 run.2 ++ bytes rest := by
  simp [bytes]

@[simp] theorem bytes_append (left right : Runs Item) :
    bytes (left ++ right) = bytes left ++ bytes right := by
  simp [bytes]

/-- Cutting runs is cutting the row they stand for. -/
theorem bytes_take (count : Nat) (runs : Runs Item) :
    bytes (runs.take count) = (bytes runs).take count := by
  induction runs generalizing count with
  | nil => simp [take]
  | cons run rest inductionHypothesis =>
    obtain ⟨length, slot⟩ := run
    unfold take
    split
    · simp_all
    · split
      · rename_i short
        simp [List.take_append, Nat.sub_eq_zero_of_le (Nat.le_of_lt short),
          Nat.min_eq_left (Nat.le_of_lt short)]
      · rename_i long
        simp [List.take_append, inductionHypothesis, Nat.min_eq_right (Nat.not_lt.mp long)]

/-- Dropping from runs is dropping from the row they stand for. -/
theorem bytes_drop (count : Nat) (runs : Runs Item) :
    bytes (runs.drop count) = (bytes runs).drop count := by
  induction runs generalizing count with
  | nil => simp [drop]
  | cons run rest inductionHypothesis =>
    obtain ⟨length, slot⟩ := run
    unfold drop
    split
    · rename_i short
      simp [List.drop_append, Nat.sub_eq_zero_of_le (Nat.le_of_lt short)]
    · rename_i long
      simp [List.drop_append, inductionHypothesis, Nat.sub_eq_zero_of_le (Nat.not_lt.mp long)]

/-- Painting replaces the bytes from `first` up to `last` and keeps the others. -/
theorem bytes_paint (first last : Nat) (slot : Slot Item) (runs : Runs Item)
    (ordered : first < last) :
    bytes (runs.paint first last slot) =
      (bytes runs).take first ++ List.replicate (last - first) slot ++ (bytes runs).drop last := by
  simp [paint, ordered, bytes_take, bytes_drop]

end Runs

/-! ### Plans -/

/-- A member as the engine reports it. -/
structure Span (Item : Type) where
  offset : UInt64
  width : UInt64
  item : Item

/-- One element of a laid-out structure. -/
inductive Element (Item : Type) where
  | item (item : Item)
  | padding (bytes : UInt64)

variable {Item : Type}

/-- The first byte past a span inside a structure of `width` bytes. -/
def Span.stop (span : Span Item) (width : UInt64) : Nat :=
  min (span.offset.toNat + span.width.toNat) width.toNat

/-- Paint one member: claim its span, then mark its first byte. A member that starts past the end
of the structure is left out. -/
def paintSpan (width : UInt64) (runs : Runs Item) (span : Span Item) : Runs Item :=
  if span.offset < width then
    let start := span.offset.toNat
    (runs.paint start (span.stop width) .claimed).paint start (start + 1) (.start span.item)
  else runs

/-- The row of bytes of a structure after all its members, later members over earlier ones. -/
def paintSpans (width : UInt64) (spans : List (Span Item)) : Runs Item :=
  spans.foldl (paintSpan width) [(width.toNat, .unclaimed)]

/-- A padding element, unless it would be empty. -/
def paddingOf (bytes : Nat) : List (Element Item) :=
  if bytes = 0 then [] else [.padding (UInt64.ofNat bytes)]

/-- Read the elements off a row, with `unclaimed` unclaimed bytes since the last member. -/
def elements (unclaimed : Nat) : Runs Item → List (Element Item)
  | [] => paddingOf unclaimed
  | (length, .unclaimed) :: rest => elements (unclaimed + length) rest
  | (_, .claimed) :: rest => elements unclaimed rest
  | (_, .start item) :: rest => paddingOf unclaimed ++ .item item :: elements 0 rest

/-- The elements of a structure of `width` bytes, padding included, by ascending offset. -/
def plan (width : UInt64) (spans : List (Span Item)) : List (Element Item) :=
  elements 0 (paintSpans width spans)

end BinaryFacts.Layout
