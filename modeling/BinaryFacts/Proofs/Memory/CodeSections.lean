/-
This file says how the order of the sections of a binary bears on what counts as code.

The first section over an address decides. So an address in a section of read-only code does not
count as code if a section of another purpose over it was added earlier, and whether it counts
changes when the two are added the other way round. Such an address is disputed, and disputes are
all that the order can change: where none of the sections over an address disagree, it is code
exactly if some section of read-only code holds it, in whatever order the sections were added, and
a binary without disputed addresses gives the same cross-references in every order. Conversely, a
disputed address is seen by a function that refers to it.
-/

import BinaryFacts.Proofs.Memory.Extraction

namespace BinaryFacts

namespace Binary

variable {binary : Binary} {address : UInt64} {sections : List Section}

/-! ### Sections over an address -/

/-- A binary with sections added in the order of a row, in the place of its own. -/
def withSections (binary : Binary) (sections : List Section) : Binary :=
  sections.foldl addSection { binary with sections := [] }

/-- Some section of read-only code holds an address. -/
def HoldsCode (binary : Binary) (address : UInt64) : Prop :=
  ∃ held ∈ binary.sections, (held.start ≤ address ∧ address < held.stop) ∧
    held.purpose = .readOnlyCode

/-- Of the sections over an address, one holds read-only code and one does not. -/
def Disputed (binary : Binary) (address : UInt64) : Prop :=
  binary.HoldsCode address ∧
    ∃ other ∈ binary.sections, (other.start ≤ address ∧ address < other.stop) ∧
      other.purpose ≠ .readOnlyCode

/-- The first section over an address holds read-only code. -/
def BeginsWithCode (binary : Binary) (address : UInt64) : Prop :=
  ∃ earlier first later, binary.sections = earlier ++ first :: later ∧
    (first.start ≤ address ∧ address < first.stop) ∧
    (∀ other ∈ earlier, ¬ (other.start ≤ address ∧ address < other.stop)) ∧
    first.purpose = .readOnlyCode

theorem foldl_addSection (binary : Binary) (sections : List Section) :
    sections.foldl addSection binary =
      { binary with sections := binary.sections ++ sections } := by
  induction sections generalizing binary with
  | nil => simp
  | cons added rest inductionHypothesis => simp [inductionHypothesis, addSection]

theorem withSections_eq (binary : Binary) (sections : List Section) :
    binary.withSections sections = { binary with sections } := by
  rw [withSections, foldl_addSection, List.nil_append]

/-- The sections of another order hold the same code. -/
theorem holdsCode_withSections (reordered : sections.Perm binary.sections) :
    (binary.withSections sections).HoldsCode address ↔ binary.HoldsCode address := by
  simp only [HoldsCode, withSections_eq, reordered.mem_iff]

theorem disputed_withSections (reordered : sections.Perm binary.sections) :
    (binary.withSections sections).Disputed address ↔ binary.Disputed address := by
  rw [Disputed, holdsCode_withSections reordered]
  simp only [Disputed, withSections_eq, reordered.mem_iff]

/-! ### The first section decides -/

/-- An address is code exactly if the first section over it holds read-only code. -/
theorem isCode_iff_beginsWithCode (binary : Binary) (address : UInt64) :
    binary.isCode address = true ↔ binary.BeginsWithCode address := by
  have decided : binary.isCode address = true ↔ ∃ first,
      binary.sections.find? (·.contains address) = some first ∧ first.purpose = .readOnlyCode := by
    rw [isCode, sectionsAt, List.head?_filter]
    cases binary.sections.find? (·.contains address) <;> simp
  simp only [decided, List.find?_eq_some_iff_append, AddressRange.contains_iff,
    Bool.not_eq_true', Bool.eq_false_iff, ne_eq, BeginsWithCode]
  constructor
  · rintro ⟨first, ⟨inside, earlier, later, splits, before⟩, isCode⟩
    exact ⟨earlier, first, later, splits, inside, before, isCode⟩
  · rintro ⟨earlier, first, later, splits, inside, before, isCode⟩
    exact ⟨first, ⟨inside, earlier, later, splits, before⟩, isCode⟩

theorem BeginsWithCode.holdsCode (begins : binary.BeginsWithCode address) :
    binary.HoldsCode address := by
  obtain ⟨earlier, first, later, splits, inside, -, isCode⟩ := begins
  exact ⟨first, splits ▸ List.mem_append_right _ List.mem_cons_self, inside, isCode⟩

/-- Where the sections over an address agree, the first of them is as good as any. -/
theorem isCode_iff_holdsCode (agreed : ¬ binary.Disputed address) :
    binary.isCode address = true ↔ binary.HoldsCode address := by
  rw [isCode_iff_beginsWithCode]
  refine ⟨BeginsWithCode.holdsCode, fun holds => ?_⟩
  obtain ⟨held, member, inside, isCode⟩ := holds
  have found : (binary.sections.find? (·.contains address)).isSome = true :=
    List.find?_isSome.mpr ⟨held, member, (AddressRange.contains_iff _ _).mpr inside⟩
  obtain ⟨first, isFirst⟩ := Option.isSome_iff_exists.mp found
  obtain ⟨overFirst, earlier, later, splits, before⟩ := List.find?_eq_some_iff_append.mp isFirst
  have insideFirst := (AddressRange.contains_iff _ _).mp overFirst
  have memberFirst : first ∈ binary.sections :=
    splits ▸ List.mem_append_right _ List.mem_cons_self
  refine ⟨earlier, first, later, splits, insideFirst, fun other isEarlier => ?_, ?_⟩
  · have outside := before other isEarlier
    rw [Bool.not_eq_true', Bool.eq_false_iff, ne_eq, AddressRange.contains_iff] at outside
    exact outside
  · refine Decidable.byContradiction fun otherPurpose => agreed ?_
    exact ⟨⟨held, member, inside, isCode⟩, first, memberFirst, insideFirst, otherPurpose⟩

/-- A section over an address decides once it is added before all others. -/
theorem isCode_withSections_cons {first : Section}
    (inside : first.start ≤ address ∧ address < first.stop) (rest : List Section) :
    (binary.withSections (first :: rest)).isCode address = true ↔
      first.purpose = .readOnlyCode := by
  have covered : first.contains address = true := (AddressRange.contains_iff _ _).mpr inside
  simp [isCode, sectionsAt, withSections_eq, covered]

/-- A disputed address is code in one order of the sections and not in another. -/
theorem Disputed.exists_orders (disputed : binary.Disputed address) :
    ∃ before after, before.Perm binary.sections ∧ after.Perm binary.sections ∧
      (binary.withSections before).isCode address = true ∧
      (binary.withSections after).isCode address = false := by
  obtain ⟨⟨held, isHeld, insideHeld, isCode⟩, other, isOther, insideOther, otherPurpose⟩ :=
    disputed
  refine ⟨held :: binary.sections.erase held, other :: binary.sections.erase other,
    (List.perm_cons_erase isHeld).symm, (List.perm_cons_erase isOther).symm, ?_, ?_⟩
  · exact (isCode_withSections_cons insideHeld _).mpr isCode
  · exact Bool.eq_false_iff.mpr (mt (isCode_withSections_cons insideOther _).mp otherPurpose)

/-! ### Cross-references -/

/-- The references of a body depend on the sections through what counts as code alone. -/
theorem extract_snd_congr {left right : Binary}
    (same : ∀ address, left.isCode address = right.isCode address) (function : BinaryFunction)
    (withReferences : Bool) :
    (left.extract function withReferences).2 = (right.extract function withReferences).2 := by
  refine AddressSet.eq_of_mem_iff fun address => ?_
  simp only [mem_extract_iff, BodyRefers, collectReferences, funext same]

/-- All references lead into code. -/
theorem isCode_of_mem_extract {function : BinaryFunction} {withReferences : Bool}
    (member : address ∈ (binary.extract function withReferences).2) :
    binary.isCode address = true := by
  obtain ⟨-, place, expression, -, -, refers⟩ := (mem_extract_iff _ _ _ _).mp member
  rcases (LowExpr.mem_collectReferences_iff _ _ _ _).mp refers with earlier | found
  · exact absurd earlier (AddressSet.notMem_empty _)
  · obtain ⟨steps, rest, -, isCode, -⟩ := found
    exact isCode

/-- A function of one instruction that refers to an address. -/
def referringTo (address : UInt64) : BinaryFunction :=
  (({ name := "reference", start := 0 } : BinaryFunction).withLifted 0
    ⟨.constPtr, [.int address]⟩).withBlock ⟨0, 1⟩

/-- This function has the address among its references exactly if the address is code. -/
theorem mem_extract_referringTo (binary : Binary) (address : UInt64) :
    address ∈ (binary.extract (referringTo address) true).2 ↔ binary.isCode address = true := by
  refine ⟨isCode_of_mem_extract, fun isCode => (mem_extract_iff _ _ _ _).mpr ⟨rfl, ?_⟩⟩
  have covers : (referringTo address).Covers 0 := ⟨_, List.mem_cons_self, by decide, by decide⟩
  refine ⟨0, ⟨.constPtr, [.int address]⟩, covers, rfl, ?_⟩
  refine (LowExpr.mem_collectReferences_iff _ _ _ _).mpr (Or.inr ?_)
  exact ⟨[], [], .here _, isCode, nofun, List.mem_cons_self⟩

/-! ### What the order of the sections decides -/

/-- An address is code exactly if the first section over it holds read-only code. So that some
section of read-only code holds it decides the matter in every order of the sections if and only
if the address is not disputed, and the references of all functions are the same in every order if
and only if no address is. -/
theorem isCode_by_sections (binary : Binary) :
    (∀ address, binary.isCode address = true ↔ binary.BeginsWithCode address) ∧
      (∀ address,
        (∀ sections, sections.Perm binary.sections →
          ((binary.withSections sections).isCode address = true ↔ binary.HoldsCode address)) ↔
        ¬ binary.Disputed address) ∧
      ((∀ sections, sections.Perm binary.sections → ∀ function,
          ((binary.withSections sections).extract function true).2 =
            (binary.extract function true).2) ↔
        ∀ address, ¬ binary.Disputed address) := by
  refine ⟨isCode_iff_beginsWithCode binary, fun address => ?_, ?_⟩
  · constructor
    · intro always disputed
      obtain ⟨-, after, -, reordered, -, notCode⟩ := disputed.exists_orders
      exact Bool.eq_false_iff.mp notCode ((always after reordered).mpr disputed.1)
    · intro agreed sections reordered
      rw [isCode_iff_holdsCode (mt (disputed_withSections reordered).mp agreed),
        holdsCode_withSections reordered]
  · constructor
    · intro always address disputed
      obtain ⟨before, after, reordered, reorderedAfter, isCode, notCode⟩ :=
        disputed.exists_orders
      have same := (always before reordered (referringTo address)).trans
        (always after reorderedAfter (referringTo address)).symm
      have seen := (mem_extract_referringTo _ address).mpr isCode
      rw [same, mem_extract_referringTo] at seen
      exact Bool.eq_false_iff.mp notCode seen
    · intro agreed sections reordered function
      refine extract_snd_congr (fun address => Bool.eq_iff_iff.mpr ?_) function true
      rw [isCode_iff_holdsCode (mt (disputed_withSections reordered).mp (agreed address)),
        isCode_iff_holdsCode (agreed address), holdsCode_withSections reordered]

/-- A binary with a section of data over a part of its code. -/
def coveredBinary : Binary :=
  linuxAmd64.withSections [⟨⟨16, 24⟩, ".data", .readWriteData⟩, ⟨⟨20, 32⟩, ".text", .readOnlyCode⟩]

/-- An address in both sections does not count as code, although a section of read-only code holds
it, and counts once the sections are added in the other order; so a reference to it is lost. -/
theorem coveredBinary_disputed :
    coveredBinary.HoldsCode 20 ∧ coveredBinary.isCode 20 = false ∧
      (coveredBinary.withSections coveredBinary.sections.reverse).isCode 20 = true ∧
      20 ∉ (coveredBinary.extract (referringTo 20) true).2 ∧
      20 ∈ ((coveredBinary.withSections coveredBinary.sections.reverse).extract
        (referringTo 20) true).2 := by
  refine ⟨⟨_, List.mem_cons_of_mem _ List.mem_cons_self, by decide, rfl⟩, by decide, by decide,
    ?_, ?_⟩
  · rw [mem_extract_referringTo]
    decide
  · rw [mem_extract_referringTo]
    decide

end Binary

end BinaryFacts
