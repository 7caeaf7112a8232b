/-
This file defines the regions of a binary's address space: blocks of code, segments with their
permissions, and sections with their purpose. A region holds the addresses from its start up to,
and without, its stop; one that stops before it starts holds none.
-/

namespace BinaryFacts

/-- The addresses from `start` up to, and without, `stop`. -/
structure AddressRange where
  start : UInt64
  stop : UInt64
  deriving DecidableEq

namespace AddressRange

/-- Whether a range holds an address. -/
def contains (range : AddressRange) (address : UInt64) : Bool :=
  range.start ≤ address && address < range.stop

/-- The addresses of a range, ascending. -/
def addresses (range : AddressRange) : List UInt64 :=
  (List.range' range.start.toNat (range.stop.toNat - range.start.toNat)).map UInt64.ofNat

/-- A range lists the addresses it holds. -/
theorem mem_addresses (range : AddressRange) (address : UInt64) :
    address ∈ range.addresses ↔ range.contains address = true := by
  simp only [addresses, contains, List.mem_map, List.mem_range'_1, Bool.and_eq_true,
    decide_eq_true_eq, UInt64.le_iff_toNat_le, UInt64.lt_iff_toNat_lt]
  constructor
  · rintro ⟨number, bounds, rfl⟩
    have stopBound := range.stop.toNat_lt
    have sizeValue : UInt64.size = 2 ^ 64 := rfl
    rw [UInt64.toNat_ofNat_of_lt' (by omega)]
    omega
  · intro bounds
    exact ⟨address.toNat, by omega, UInt64.ofNat_toNat⟩

end AddressRange

/-- A segment of memory with its permissions. -/
structure Segment extends AddressRange where
  readable : Bool
  writable : Bool
  executable : Bool
  deriving DecidableEq

/-- What a section is for. -/
inductive SectionPurpose where
  | default
  | readOnlyCode
  | readOnlyData
  | readWriteData
  | external
  deriving DecidableEq

/-- A named section. -/
structure Section extends AddressRange where
  name : String
  purpose : SectionPurpose
  deriving DecidableEq

end BinaryFacts
