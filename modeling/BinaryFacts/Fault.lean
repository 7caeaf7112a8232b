/-
This file defines the faults of the library: a product, a sum or a difference of 64-bit words
that does not fit in 64 bits, and a position past the end of a table. Arithmetic on widths and
addresses goes through `checkedProduct`, `checkedSum` and `checkedDifference`, which never wrap:
they give the exact value or the fault.
-/

namespace BinaryFacts

/-- A computation that leaves the range of its words or of its table. -/
inductive Fault where
  /-- A product does not fit in 64 bits. -/
  | productOverflow
  /-- A sum does not fit in 64 bits. -/
  | sumOverflow
  /-- A difference is below zero. -/
  | differenceOverflow
  /-- A table of `size` entries has no entry at `index`. -/
  | indexOutOfRange (size index : Nat)
  deriving DecidableEq

/-- The text of a fault. -/
def Fault.message : Fault → String
  | .productOverflow => "attempt to multiply with overflow"
  | .sumOverflow => "attempt to add with overflow"
  | .differenceOverflow => "attempt to subtract with overflow"
  | .indexOutOfRange size index =>
    s!"index out of bounds: the len is {size} but the index is {index}"

/-- The product of two words, when it fits in a word. -/
def checkedProduct (left right : UInt64) : Except Fault UInt64 :=
  if left.toNat * right.toNat < UInt64.size then .ok (left * right) else .error .productOverflow

/-- The sum of two words, when it fits in a word. -/
def checkedSum (left right : UInt64) : Except Fault UInt64 :=
  if left.toNat + right.toNat < UInt64.size then .ok (left + right) else .error .sumOverflow

/-- The difference of two words, when it is not below zero. -/
def checkedDifference (left right : UInt64) : Except Fault UInt64 :=
  if right ≤ left then .ok (left - right) else .error .differenceOverflow

/-- A checked product is the exact product. -/
theorem toNat_of_checkedProduct {left right product : UInt64}
    (fits : checkedProduct left right = .ok product) :
    product.toNat = left.toNat * right.toNat := by
  unfold checkedProduct at fits
  split at fits
  · rename_i small
    cases fits
    rw [UInt64.toNat_mul]
    exact Nat.mod_eq_of_lt small
  · cases fits

/-- A checked sum is the exact sum. -/
theorem toNat_of_checkedSum {left right sum : UInt64} (fits : checkedSum left right = .ok sum) :
    sum.toNat = left.toNat + right.toNat := by
  unfold checkedSum at fits
  split at fits
  · rename_i small
    cases fits
    rw [UInt64.toNat_add]
    exact Nat.mod_eq_of_lt small
  · cases fits

/-- A sum that fits in a word is found. -/
theorem exists_checkedSum {left right : UInt64} (fits : left.toNat + right.toNat < UInt64.size) :
    ∃ sum, checkedSum left right = .ok sum ∧ sum.toNat = left.toNat + right.toNat := by
  have found : checkedSum left right = .ok (left + right) := if_pos fits
  exact ⟨_, found, toNat_of_checkedSum found⟩

/-- A difference that is not below zero is found. -/
theorem exists_checkedDifference {left right : UInt64} (ordered : right ≤ left) :
    ∃ difference, checkedDifference left right = .ok difference ∧
      difference.toNat = left.toNat - right.toNat :=
  ⟨_, if_pos ordered, UInt64.toNat_sub_of_le _ _ ordered⟩

end BinaryFacts
