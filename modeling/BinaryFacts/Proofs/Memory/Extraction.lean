/-
This file proves that what is extracted from a function body is told address by address, and
depends on its blocks through the addresses they cover alone.

The loops over the blocks and their addresses are one walk over a row of addresses. Each address
writes its own byte, which is the same whenever the address comes again, and adds the references of
its own expression, which are the same whatever was found before. So after the walk the memory and
the references can be read off the set of addresses in the row.
-/

import BinaryFacts.Memory.Extraction
import BinaryFacts.Proofs.Memory.CrossReference

namespace BinaryFacts

/-! ### What a body covers and what it maps -/

/-- A function covers the addresses of its blocks. -/
def BinaryFunction.Covers (function : BinaryFunction) (address : UInt64) : Prop :=
  ∃ block ∈ function.blocks, block.start ≤ address ∧ address < block.stop

/-- A binary shows a byte at an address: the image has its value there, and its permissions are
those of the first segment over the address. -/
def Binary.Shows (binary : Binary) (address : UInt64) (byte : MappedByte) : Prop :=
  ∃ earlier segment later, binary.segments = earlier ++ segment :: later ∧
    (segment.start ≤ address ∧ address < segment.stop) ∧
    (∀ other ∈ earlier, ¬ (other.start ≤ address ∧ address < other.stop)) ∧
    binary.bytes.get? address = some byte.value ∧
    byte.writable = segment.writable ∧ byte.executable = segment.executable

/-- The references of a function body: those of the expressions lifted where it covers an
address. -/
def Binary.BodyRefers (binary : Binary) (function : BinaryFunction) (address : UInt64) : Prop :=
  ∃ place expression, function.Covers place ∧ function.lifted.find? place = some expression ∧
    address ∈ binary.collectReferences .empty expression

namespace AddressRange

theorem contains_iff (range : AddressRange) (address : UInt64) :
    range.contains address = true ↔ range.start ≤ address ∧ address < range.stop := by
  simp [contains]

end AddressRange

namespace BinaryFunction

/-- The addresses of the blocks of a function, block by block. -/
def addresses (function : BinaryFunction) : List UInt64 :=
  function.blocks.flatMap AddressRange.addresses

theorem mem_addresses_iff (function : BinaryFunction) (address : UInt64) :
    address ∈ function.addresses ↔ function.Covers address := by
  simp only [addresses, List.mem_flatMap, AddressRange.mem_addresses, AddressRange.contains_iff,
    Covers]

end BinaryFunction

namespace Binary

variable {binary : Binary} {function : BinaryFunction} {withReferences : Bool}

theorem mappedByteAt?_eq_some_iff {address : UInt64} {byte : MappedByte} :
    binary.mappedByteAt? address = some byte ↔ binary.Shows address byte := by
  obtain ⟨value, writable, executable⟩ := byte
  simp only [mappedByteAt?, segmentAt?, byteAt?, Option.bind_eq_bind, Option.bind_eq_some_iff,
    Option.pure_def, Option.some.injEq, MappedByte.mk.injEq, List.find?_eq_some_iff_append,
    AddressRange.contains_iff, Bool.not_eq_true', Shows]
  constructor
  · rintro ⟨segment, ⟨inside, earlier, later, segments, before⟩, _, read, rfl, rfl, rfl⟩
    refine ⟨earlier, segment, later, segments, inside, fun other member => ?_, read, rfl, rfl⟩
    exact mt (AddressRange.contains_iff _ _).mpr (Bool.eq_false_iff.mp (before other member))
  · rintro ⟨earlier, segment, later, segments, inside, before, read, rfl, rfl⟩
    refine ⟨segment, ⟨inside, earlier, later, segments, fun other member => ?_⟩, _, read, rfl,
      rfl, rfl⟩
    exact Bool.eq_false_iff.mpr (mt (AddressRange.contains_iff _ _).mp (before other member))

/-! ### One address -/

/-- An address maps its own byte and changes no other. -/
theorem get?_mapAddress (memory : ByteMap) (place address : UInt64) :
    (binary.mapAddress memory place).get? address =
      if address = place then (binary.mappedByteAt? place).or (memory.get? address)
      else memory.get? address := by
  unfold mapAddress
  cases binary.mappedByteAt? place with
  | none => simp
  | some byte => rw [AddressMap.get?_insert, Option.some_or]

/-- An address adds the references of its own expression. -/
theorem mem_collectAddress_iff (references : AddressSet) (place address : UInt64) :
    address ∈ binary.collectAddress function references place ↔
      address ∈ references ∨ ∃ expression, function.lifted.find? place = some expression ∧
        address ∈ binary.collectReferences .empty expression := by
  unfold collectAddress
  cases function.lifted.find? place with
  | none => simp
  | some expression =>
    simp [collectReferences, LowExpr.mem_collectReferences_iff]

/-! ### A row of addresses -/

/-- The blocks are walked as one row of addresses. -/
theorem extract_eq_foldl (binary : Binary) (function : BinaryFunction) (withReferences : Bool) :
    binary.extract function withReferences =
      function.addresses.foldl (binary.extractAddress function withReferences)
        (.empty, .empty) := by
  rw [BinaryFunction.addresses, List.foldl_flatMap]
  rfl

/-- After a row of addresses, each of them has its byte, and all others are as before. -/
theorem get?_foldl_extractAddress (addresses : List UInt64) (found : ByteMap × AddressSet)
    (address : UInt64) :
    (addresses.foldl (binary.extractAddress function withReferences) found).1.get? address =
      if address ∈ addresses then (binary.mappedByteAt? address).or (found.1.get? address)
      else found.1.get? address := by
  induction addresses generalizing found with
  | nil => simp
  | cons place rest inductionHypothesis =>
    rw [List.foldl_cons, inductionHypothesis]
    simp only [extractAddress, get?_mapAddress, List.mem_cons]
    by_cases here : address = place
    · subst here
      by_cases again : address ∈ rest
      · simp [again, ← Option.or_assoc]
      · simp [again]
    · simp [here]

/-- After a row of addresses, the references of each of them are found, if they are wanted. -/
theorem mem_foldl_extractAddress_iff (addresses : List UInt64) (found : ByteMap × AddressSet)
    (address : UInt64) :
    address ∈ (addresses.foldl (binary.extractAddress function withReferences) found).2 ↔
      address ∈ found.2 ∨ withReferences = true ∧ ∃ place ∈ addresses,
        ∃ expression, function.lifted.find? place = some expression ∧
          address ∈ binary.collectReferences .empty expression := by
  induction addresses generalizing found with
  | nil => simp
  | cons place rest inductionHypothesis =>
    rw [List.foldl_cons, inductionHypothesis]
    cases withReferences with
    | false => simp [extractAddress]
    | true => simp [extractAddress, mem_collectAddress_iff, or_assoc]

/-! ### Whole bodies -/

theorem get?_extract_eq_some_iff (binary : Binary) (function : BinaryFunction)
    (withReferences : Bool) (address : UInt64) (byte : MappedByte) :
    (binary.extract function withReferences).1.get? address = some byte ↔
      function.Covers address ∧ binary.Shows address byte := by
  rw [extract_eq_foldl, get?_foldl_extractAddress, ← BinaryFunction.mem_addresses_iff,
    ← mappedByteAt?_eq_some_iff]
  by_cases covered : address ∈ function.addresses
  · simp [covered]
  · simp [covered]

theorem mem_extract_iff (binary : Binary) (function : BinaryFunction) (withReferences : Bool)
    (address : UInt64) :
    address ∈ (binary.extract function withReferences).2 ↔
      withReferences = true ∧ binary.BodyRefers function address := by
  rw [extract_eq_foldl, mem_foldl_extractAddress_iff]
  simp [BinaryFunction.mem_addresses_iff, BodyRefers]

/-- What is extracted from a function body is told address by address: the memory holds the bytes
that the binary shows at covered addresses, whether references are wanted or not, and the
references are those of the expressions lifted at covered addresses, if they are wanted. So two
functions with the same lifted expressions that cover the same addresses, in whatever blocks, give
the same. -/
theorem extract_by_address (binary : Binary) (function : BinaryFunction) (withReferences : Bool) :
    (∀ address byte, (binary.extract function withReferences).1.get? address = some byte ↔
        function.Covers address ∧ binary.Shows address byte) ∧
      (∀ address, address ∈ (binary.extract function withReferences).2 ↔
        withReferences = true ∧ binary.BodyRefers function address) ∧
      (∀ other : BinaryFunction,
        (∀ place, other.lifted.find? place = function.lifted.find? place) →
        (∀ address, other.Covers address ↔ function.Covers address) →
        binary.extract other withReferences = binary.extract function withReferences) ∧
      ∀ otherwise, (binary.extract function otherwise).1 =
        (binary.extract function withReferences).1 := by
  refine ⟨get?_extract_eq_some_iff binary function withReferences,
    mem_extract_iff binary function withReferences, fun other sameLifted sameCovers => ?_,
    fun otherwise => ?_⟩
  · refine Prod.ext (AddressMap.eq_of_get?_eq fun address => Option.ext fun byte => ?_)
      (AddressSet.eq_of_mem_iff fun address => ?_)
    · rw [get?_extract_eq_some_iff, get?_extract_eq_some_iff, sameCovers]
    · simp only [mem_extract_iff, BodyRefers, sameLifted, sameCovers]
  · refine AddressMap.eq_of_get?_eq fun address => Option.ext fun byte => ?_
    rw [get?_extract_eq_some_iff, get?_extract_eq_some_iff]

/-- A binary with two segments that overlap, and a byte missing under the second one. -/
def overlaidBinary : Binary :=
  let mapped := ((AddressMap.empty.insert 16 0x90).insert 17 0xE8).insert 18 0xC3
  { linuxAmd64 with
    bytes := mapped
    segments := [⟨⟨16, 18⟩, true, false, true⟩, ⟨⟨17, 20⟩, true, true, false⟩]
    sections := [⟨⟨16, 20⟩, ".text", .readOnlyCode⟩] }

/-- A function in one block that calls its own start. -/
def straightBody : BinaryFunction :=
  (({ name := "start", start := 16 } : BinaryFunction).withLifted 17
    ⟨.call, [.expr .constPtr [.int 16]]⟩).withBlock ⟨16, 20⟩

/-- The same function in blocks out of order that overlap, one of them without addresses. -/
def choppedBody : BinaryFunction :=
  { straightBody with blocks := [⟨18, 20⟩, ⟨19, 17⟩, ⟨16, 19⟩, ⟨17, 18⟩] }

theorem covers_choppedBody_iff (address : UInt64) :
    choppedBody.Covers address ↔ straightBody.Covers address := by
  simp only [BinaryFunction.Covers, choppedBody, straightBody, BinaryFunction.withLifted,
    BinaryFunction.withBlock, List.nil_append, List.mem_cons, List.not_mem_nil, or_false,
    exists_eq_or_imp, exists_eq_left, UInt64.le_iff_toNat_le, UInt64.lt_iff_toNat_lt,
    UInt64.reduceToNat]
  omega

/-- The byte under both segments has the permissions of the first one, the call refers to the
start of the function, and the order and overlap of the blocks do not matter. -/
theorem extract_by_address_choppedBody :
    (∀ place, choppedBody.lifted.find? place = straightBody.lifted.find? place) ∧
      (∀ address, choppedBody.Covers address ↔ straightBody.Covers address) ∧
      overlaidBinary.extract choppedBody true = overlaidBinary.extract straightBody true ∧
      (overlaidBinary.extract choppedBody true).1.get? 17 = some ⟨0xE8, false, true⟩ ∧
      16 ∈ (overlaidBinary.extract choppedBody true).2 := by
  have sameLifted : ∀ place, choppedBody.lifted.find? place = straightBody.lifted.find? place :=
    fun _ => rfl
  have same := (extract_by_address overlaidBinary straightBody true).2.2.1 choppedBody sameLifted
    covers_choppedBody_iff
  have covers : straightBody.Covers 17 := ⟨_, List.mem_cons_self, by decide, by decide⟩
  refine ⟨sameLifted, covers_choppedBody_iff, same, ?_, ?_⟩
  · rw [same]
    refine ((extract_by_address overlaidBinary straightBody true).1 _ _).mpr ⟨covers, ?_⟩
    exact ⟨[], _, _, rfl, by decide, nofun, rfl, rfl, rfl⟩
  · rw [same]
    refine ((extract_by_address overlaidBinary straightBody true).2.1 _).mpr ⟨rfl, 17, _, covers,
      rfl, ?_⟩
    refine (LowExpr.mem_collectReferences_iff _ _ _ _).mpr (Or.inr ?_)
    refine ⟨_, _, .down (.flow (by decide) List.mem_cons_self (.self ⟨.constPtr, [.int 16]⟩))
      (.here _), rfl, ?_, ?_⟩
    · decide
    · decide

end Binary

end BinaryFacts
