/-
This file proves that members which lie side by side and their padding partition a structure. If
every member has at least one byte, ends inside the structure and shares no byte with another
one, then all members survive, so the plan holds each of them once, by ascending offset. Every
byte of the structure belongs to one member or to none, so the bytes that no member covers are as
many as the width leaves, and with them the sizes of the elements add up to the width.
-/

import BinaryFacts.Proofs.Layout.Painting
import Mathlib.Algebra.GroupWithZero.Nat

namespace BinaryFacts.Layout

variable {Item Other : Type} {width : UInt64} {spans : List (Span Item)}

/-! ### Members side by side -/

/-- The first byte past a member. -/
def Span.past (span : Span Item) : Nat := span.offset.toNat + span.width.toNat

/-- Two members without a common byte. -/
def Span.Disjoint (left right : Span Item) : Prop :=
  left.past ≤ right.offset.toNat ∨ right.past ≤ left.offset.toNat

/-- Members that lie side by side in a structure of `width` bytes, in any order. -/
structure SideBySide (width : UInt64) (spans : List (Span Item)) : Prop where
  positive : ∀ span ∈ spans, 1 ≤ span.width.toNat
  inside : ∀ span ∈ spans, span.past ≤ width.toNat
  disjoint : spans.Pairwise Span.Disjoint

instance (left right : Span Item) : Decidable (left.Disjoint right) :=
  inferInstanceAs (Decidable (_ ∨ _))

/-- Whether members lie side by side depends on their offsets and widths alone. -/
theorem sideBySide_map (replace : Item → Other) :
    SideBySide width (spans.map (Span.map replace)) ↔ SideBySide width spans := by
  constructor
  · rintro ⟨positive, inside, disjoint⟩
    rw [List.forall_mem_map] at positive inside
    rw [List.pairwise_map] at disjoint
    exact ⟨positive, inside, disjoint⟩
  · rintro ⟨positive, inside, disjoint⟩
    refine ⟨?_, ?_, List.pairwise_map.mpr disjoint⟩ <;> rw [List.forall_mem_map]
    · exact positive
    · exact inside

namespace SideBySide

variable {span : Span Item}

theorem tail (apart : SideBySide width (span :: spans)) : SideBySide width spans where
  positive other member := apart.positive other (List.mem_cons_of_mem _ member)
  inside other member := apart.inside other (List.mem_cons_of_mem _ member)
  disjoint := (List.pairwise_cons.mp apart.disjoint).2

/-- A member covers the bytes that it claims and no others. -/
theorem covers_iff (apart : SideBySide width spans) (member : span ∈ spans) (byte : Nat) :
    span.Covers width byte ↔ span.offset.toNat ≤ byte ∧ byte < span.past := by
  have positive := apart.positive span member
  have inside := apart.inside span member
  rw [Layout.covers_iff]
  unfold Span.past at inside ⊢
  omega

/-- No other member covers a byte of a member. -/
theorem uncovered_tail (apart : SideBySide width (span :: spans)) {byte : Nat}
    (low : span.offset.toNat ≤ byte) (high : byte < span.past) : Uncovered width spans byte := by
  intro other member covers
  have bounds := (apart.tail.covers_iff member byte).mp covers
  rcases (List.pairwise_cons.mp apart.disjoint).1 other member with before | behind <;> omega

/-- Members that lie side by side all survive. -/
theorem survivors_eq (apart : SideBySide width spans) : survivors width spans = spans := by
  induction spans with
  | nil => rfl
  | cons span rest inductionHypothesis =>
    have positive := apart.positive span List.mem_cons_self
    have inside := apart.inside span List.mem_cons_self
    have live : span.Live width := by
      unfold Span.past at inside
      unfold Span.Live
      omega
    have survives : Uncovered width rest span.offset.toNat :=
      apart.uncovered_tail (Nat.le_refl _) (by unfold Span.past; omega)
    rw [survivors, if_pos ⟨live, survives⟩, inductionHypothesis apart.tail]

end SideBySide

/-! ### Counting the bytes -/

section Count

variable {first middle last : Nat}

theorem uncoveredCount_add (spans : List (Span Item)) (low : first ≤ middle)
    (high : middle ≤ last) :
    uncoveredCount width spans first middle + uncoveredCount width spans middle last =
      uncoveredCount width spans first last := by
  simp only [uncoveredCount]
  rw [range'_eq_append low high, List.countP_append]

theorem uncoveredCount_congr {others : List (Span Item)}
    (same : ∀ byte, first ≤ byte → byte < last →
      (Uncovered width spans byte ↔ Uncovered width others byte)) :
    uncoveredCount width spans first last = uncoveredCount width others first last := by
  refine List.countP_congr fun byte isByte => ?_
  have bounds := List.mem_range'_1.mp isByte
  simpa using same byte bounds.1 (by omega)

theorem uncoveredCount_of_uncovered
    (uncovered : ∀ byte, first ≤ byte → byte < last → Uncovered width spans byte) :
    uncoveredCount width spans first last = last - first := by
  have all : uncoveredCount width spans first last =
      (List.range' first (last - first)).length := by
    refine List.countP_eq_length.mpr fun byte isByte => ?_
    have bounds := List.mem_range'_1.mp isByte
    exact decide_eq_true (uncovered byte bounds.1 (by omega))
  rw [all, List.length_range']

theorem uncoveredCount_of_covered
    (covered : ∀ byte, first ≤ byte → byte < last → ¬ Uncovered width spans byte) :
    uncoveredCount width spans first last = 0 := by
  refine List.countP_eq_zero.mpr fun byte isByte => ?_
  have bounds := List.mem_range'_1.mp isByte
  simpa using covered byte bounds.1 (by omega)

end Count

namespace SideBySide

/-- A member takes its width away from the bytes that the others leave uncovered. -/
theorem uncoveredCount_cons {span : Span Item} (apart : SideBySide width (span :: spans)) :
    uncoveredCount width (span :: spans) 0 width.toNat + span.width.toNat =
      uncoveredCount width spans 0 width.toNat := by
  have inside := apart.inside span List.mem_cons_self
  have low : span.offset.toNat ≤ span.past := Nat.le_add_right _ _
  have covers := apart.covers_iff List.mem_cons_self
  have outside : ∀ byte, byte < span.offset.toNat ∨ span.past ≤ byte →
      (Uncovered width (span :: spans) byte ↔ Uncovered width spans byte) := by
    intro byte beside
    have notOwn : ¬ span.Covers width byte := by
      rw [covers]
      omega
    exact List.forall_mem_cons.trans (and_iff_right notOwn)
  have before : uncoveredCount width (span :: spans) 0 span.offset.toNat =
      uncoveredCount width spans 0 span.offset.toNat :=
    uncoveredCount_congr fun byte _ high => outside byte (Or.inl high)
  have behind : uncoveredCount width (span :: spans) span.past width.toNat =
      uncoveredCount width spans span.past width.toNat :=
    uncoveredCount_congr fun byte high _ => outside byte (Or.inr high)
  have own : uncoveredCount width (span :: spans) span.offset.toNat span.past = 0 :=
    uncoveredCount_of_covered fun byte below above uncovered =>
      uncovered span List.mem_cons_self ((covers byte).mpr ⟨below, above⟩)
  have freed : uncoveredCount width spans span.offset.toNat span.past = span.width.toNat := by
    rw [uncoveredCount_of_uncovered fun byte below above => apart.uncovered_tail below above]
    exact Nat.add_sub_cancel_left _ _
  rw [← uncoveredCount_add _ (Nat.zero_le _) (low.trans inside), ← uncoveredCount_add _ low inside,
    before, own, behind, ← uncoveredCount_add spans (Nat.zero_le _) (low.trans inside),
    ← uncoveredCount_add spans low inside, freed]
  omega

/-- The members and the bytes that none of them covers make up the structure. -/
theorem uncoveredCount_add_sum (apart : SideBySide width spans) :
    uncoveredCount width spans 0 width.toNat + (spans.map fun span => span.width.toNat).sum =
      width.toNat := by
  induction spans with
  | nil => exact uncoveredCount_of_uncovered fun _ _ _ _ member => nomatch member
  | cons span rest inductionHypothesis =>
    have whole := inductionHypothesis apart.tail
    have taken := apart.uncoveredCount_cons
    rw [List.map_cons, List.sum_cons]
    omega

end SideBySide

/-! ### The elements of the plan -/

/-- The member that an element stands for. -/
def Element.item? : Element Item → Option Item
  | .item member => some member
  | .padding _ => none

/-- The bytes of an element, with members given by their sizes. -/
def Element.bytes (size : Item → Nat) : Element Item → Nat
  | .item member => size member
  | .padding bytes => bytes.toNat

namespace Fills

variable {count : Nat} {filler : List (Element Item)}

theorem filterMap_item? (fills : Fills count filler) : filler.filterMap Element.item? = [] := by
  cases fills <;> rfl

theorem sum_bytes (fills : Fills count filler) (size : Item → Nat) :
    (filler.map (Element.bytes size)).sum = count := by
  cases fills with
  | nothing => rfl
  | padding positive exact => simpa [Element.bytes] using exact

end Fills

namespace Lays

variable {first : Nat} {ordered : List (Span Item)} {elements : List (Element Item)}

/-- The members among the elements are the given ones in their order. -/
theorem filterMap_item? (laid : Lays width spans first ordered elements) :
    elements.filterMap Element.item? = ordered.map (·.item) := by
  induction laid with
  | last fills => exact fills.filterMap_item?
  | next fills laid inductionHypothesis =>
    rw [List.filterMap_append, fills.filterMap_item?, List.nil_append,
      List.filterMap_cons_some (show Element.item? (.item _) = some _ from rfl),
      inductionHypothesis, List.map_cons]

/-- The elements of a region hold its members and the bytes that no member covers. -/
theorem sum_bytes (laid : Lays width spans first ordered elements)
    (ascending : ordered.Pairwise fun earlier later => earlier.offset < later.offset)
    (within : ∀ span ∈ ordered, first ≤ span.offset.toNat ∧ span.Live width)
    (size : Item → Nat) :
    (elements.map (Element.bytes size)).sum =
      uncoveredCount width spans first width.toNat +
        (ordered.map fun span => size span.item).sum := by
  induction laid with
  | last fills => simpa using fills.sum_bytes size
  | @next first filler elements span rest fills laid inductionHypothesis =>
    obtain ⟨least, restAscending⟩ := List.pairwise_cons.mp ascending
    obtain ⟨low, live⟩ := within span List.mem_cons_self
    have restWithin : ∀ other ∈ rest, span.offset.toNat ≤ other.offset.toNat ∧
        other.Live width := by
      intro other member
      have less := UInt64.lt_iff_toNat_lt.mp (least other member)
      exact ⟨Nat.le_of_lt less, (within other (List.mem_cons_of_mem _ member)).2⟩
    have later := inductionHypothesis restAscending restWithin
    rw [List.map_append, List.sum_append, fills.sum_bytes size, List.map_cons, List.sum_cons,
      later, ← uncoveredCount_add spans low (Nat.le_of_lt live), List.map_cons, List.sum_cons,
      Element.bytes]
    omega

end Lays

/-- The plan of members that lie side by side holds each of them once, by ascending offset, and
the sizes of its elements add up to the width of the structure. -/
theorem SideBySide.exists_ascending (apart : SideBySide width spans) :
    ∃ ordered : List (Span Item), ordered.Perm spans ∧
      (ordered.Pairwise fun earlier later => earlier.offset < later.offset) ∧
      (plan width spans).filterMap Element.item? = ordered.map (·.item) ∧
      ∀ size : Item → Nat, (∀ span ∈ spans, size span.item = span.width.toNat) →
        ((plan width spans).map (Element.bytes size)).sum = width.toNat := by
  obtain ⟨ordered, permuted, ascending⟩ := exists_ascending_survivors width spans
  have laid := lays_plan permuted ascending
  have live : ∀ span ∈ ordered, 0 ≤ span.offset.toNat ∧ span.Live width := fun span member =>
    ⟨Nat.zero_le _, live_of_mem_survivors (permuted.mem_iff.mp member)⟩
  rw [apart.survivors_eq] at permuted
  refine ⟨ordered, permuted, ascending, laid.filterMap_item?, fun size own => ?_⟩
  have sizes : (ordered.map fun span => size span.item).sum =
      (spans.map fun span => span.width.toNat).sum := by
    rw [(permuted.map fun span => size span.item).sum_nat, List.map_congr_left own]
  rw [laid.sum_bytes ascending live size, sizes, apart.uncoveredCount_add_sum]

end BinaryFacts.Layout
