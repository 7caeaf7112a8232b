/-
This file says what the elements of a laid-out structure are, whatever the members are. The plan
of a structure treats its members as names only: replacing every member before planning is
replacing it in the plan. Every padding element holds at least one byte, since it counts bytes of
the structure and these are as many as its width, and no two padding elements stand side by side,
since a member starts between them.
-/

import BinaryFacts.Layout
import Mathlib.Data.List.Chain

namespace BinaryFacts.Layout

variable {Item Other : Type}

/-! ### Replacing the members -/

/-- Replace the item of a byte that starts a member. -/
def Slot.map (replace : Item → Other) : Slot Item → Slot Other
  | .unclaimed => .unclaimed
  | .claimed => .claimed
  | .start item => .start (replace item)

/-- Replace the item of a span. -/
def Span.map (replace : Item → Other) (span : Span Item) : Span Other :=
  ⟨span.offset, span.width, replace span.item⟩

/-- Replace the item of an element. -/
def Element.map (replace : Item → Other) : Element Item → Element Other
  | .item member => .item (replace member)
  | .padding bytes => .padding bytes

/-- The child of a structure that an element stands for, with padding given by its size. -/
def Element.child (padding : UInt64 → Item) : Element Item → Item
  | .item member => member
  | .padding bytes => padding bytes

/-- Replace every item of a row. -/
def Runs.map (replace : Item → Other) (runs : Runs Item) : Runs Other :=
  List.map (fun run => (run.1, run.2.map replace)) runs

theorem Runs.take_map (replace : Item → Other) (count : Nat) (runs : Runs Item) :
    (runs.map replace).take count = (runs.take count).map replace := by
  induction runs generalizing count with
  | nil => rfl
  | cons run rest inductionHypothesis =>
    obtain ⟨length, slot⟩ := run
    have tail := inductionHypothesis (count - length)
    simp only [Runs.map, List.map_cons, Runs.take] at tail ⊢
    split
    · rfl
    · split
      · rfl
      · rw [List.map_cons, tail]

theorem Runs.drop_map (replace : Item → Other) (count : Nat) (runs : Runs Item) :
    (runs.map replace).drop count = (runs.drop count).map replace := by
  induction runs generalizing count with
  | nil => rfl
  | cons run rest inductionHypothesis =>
    obtain ⟨length, slot⟩ := run
    have tail := inductionHypothesis (count - length)
    simp only [Runs.map, List.map_cons, Runs.drop] at tail ⊢
    split
    · rfl
    · exact tail

theorem Runs.paint_map (replace : Item → Other) (first last : Nat) (slot : Slot Item)
    (runs : Runs Item) :
    (runs.map replace).paint first last (slot.map replace) =
      (runs.paint first last slot).map replace := by
  unfold Runs.paint
  split
  · rw [Runs.take_map, Runs.drop_map]
    simp only [Runs.map, List.map_append, List.map_cons]
  · rfl

theorem paintSpan_map (replace : Item → Other) (width : UInt64) (runs : Runs Item)
    (span : Span Item) :
    paintSpan width (runs.map replace) (span.map replace) =
      (paintSpan width runs span).map replace := by
  unfold paintSpan
  split
  · rename_i inside
    rw [if_pos (show span.offset < width from inside), ← Runs.paint_map, ← Runs.paint_map]
    rfl
  · rename_i outside
    rw [if_neg (show ¬ span.offset < width from outside)]

theorem paintSpans_map (replace : Item → Other) (width : UInt64) (spans : List (Span Item)) :
    paintSpans width (spans.map (Span.map replace)) =
      (paintSpans width spans).map replace := by
  have general : ∀ runs : Runs Item,
      (spans.map (Span.map replace)).foldl (paintSpan width) (runs.map replace) =
        (spans.foldl (paintSpan width) runs).map replace := by
    induction spans with
    | nil => exact fun _ => rfl
    | cons span rest inductionHypothesis =>
      intro runs
      rw [List.map_cons, List.foldl_cons, List.foldl_cons, paintSpan_map, inductionHypothesis]
  exact general [(width.toNat, .unclaimed)]

theorem map_paddingOf (replace : Item → Other) (bytes : Nat) :
    (paddingOf bytes).map (Element.map replace) = paddingOf bytes := by
  unfold paddingOf
  split <;> rfl

theorem elements_map (replace : Item → Other) (unclaimed : Nat) (runs : Runs Item) :
    elements unclaimed (runs.map replace) =
      (elements unclaimed runs).map (Element.map replace) := by
  fun_induction elements unclaimed runs with
  | case1 unclaimed => exact (map_paddingOf replace unclaimed).symm
  | case2 unclaimed length rest inductionHypothesis => exact inductionHypothesis
  | case3 unclaimed length rest inductionHypothesis => exact inductionHypothesis
  | case4 unclaimed length item rest inductionHypothesis =>
    rw [List.map_append, List.map_cons, map_paddingOf, ← inductionHypothesis]
    rfl

/-- The plan of a structure does not look at its members: replacing them before planning is
replacing them in the plan. -/
theorem plan_map (replace : Item → Other) (width : UInt64) (spans : List (Span Item)) :
    plan width (spans.map (Span.map replace)) =
      (plan width spans).map (Element.map replace) := by
  rw [plan, paintSpans_map, elements_map, plan]

/-- Every item of a plan is the item of a span. The plan of the spans over the items that have a
property is the plan of the spans, so it holds no other items. -/
theorem property_of_mem_plan {property : Item → Prop} {width : UInt64} {spans : List (Span Item)}
    (holds : ∀ span ∈ spans, property span.item) {item : Item}
    (member : Element.item item ∈ plan width spans) : property item := by
  have lifted : ∃ lifts : List (Span {item // property item}),
      lifts.map (Span.map Subtype.val) = spans := by
    refine ⟨spans.pmap (fun span has => ⟨span.offset, span.width, ⟨span.item, has⟩⟩) holds, ?_⟩
    rw [List.map_pmap]
    exact (List.pmap_eq_map holds).trans (List.map_id spans)
  obtain ⟨lifts, rfl⟩ := lifted
  rw [plan_map] at member
  obtain ⟨element, -, same⟩ := List.mem_map.mp member
  cases element with
  | item lift =>
    cases same
    exact lift.2
  | padding bytes => cases same

/-! ### Padding is never empty -/

theorem length_bytes_paint (first last : Nat) (slot : Slot Item) (runs : Runs Item)
    (inside : last ≤ runs.bytes.length) :
    (runs.paint first last slot).bytes.length = runs.bytes.length := by
  by_cases ordered : first < last
  · rw [Runs.bytes_paint first last slot runs ordered]
    simp only [List.length_append, List.length_take, List.length_replicate, List.length_drop]
    omega
  · rw [Runs.paint, if_neg ordered]

/-- Painting a member keeps the number of bytes. -/
theorem length_bytes_paintSpan (width : UInt64) (runs : Runs Item) (span : Span Item)
    (full : runs.bytes.length = width.toNat) :
    (paintSpan width runs span).bytes.length = width.toNat := by
  unfold paintSpan
  split
  · rename_i inside
    have startInside : span.offset.toNat < width.toNat := UInt64.lt_iff_toNat_lt.mp inside
    have stopInside : span.stop width ≤ width.toNat := Nat.min_le_right _ _
    rw [length_bytes_paint, length_bytes_paint, full]
    · exact full ▸ stopInside
    · rw [length_bytes_paint _ _ _ _ (full ▸ stopInside), full]
      exact startInside
  · exact full

/-- A painted structure has as many bytes as its width. -/
theorem length_bytes_paintSpans (width : UInt64) (spans : List (Span Item)) :
    (paintSpans width spans).bytes.length = width.toNat := by
  have general : ∀ runs : Runs Item, runs.bytes.length = width.toNat →
      (spans.foldl (paintSpan width) runs).bytes.length = width.toNat := by
    induction spans with
    | nil => exact fun _ full => full
    | cons span rest inductionHypothesis =>
      intro runs full
      exact inductionHypothesis _ (length_bytes_paintSpan width runs span full)
  refine general _ ?_
  simp

theorem ne_zero_of_mem_paddingOf {bytes : UInt64} {count : Nat} (small : count < UInt64.size)
    (member : Element.padding bytes ∈ (paddingOf count : List (Element Item))) : bytes ≠ 0 := by
  unfold paddingOf at member
  split at member
  · cases member
  · rename_i positive
    simp only [List.mem_singleton, Element.padding.injEq] at member
    intro zero
    have value : (UInt64.ofNat count).toNat = count := UInt64.toNat_ofNat_of_lt' small
    rw [← member, zero] at value
    exact positive value.symm

/-- As long as the bytes counted so far and the bytes to come fit in a word, no padding element
is empty. -/
theorem ne_zero_of_mem_elements {bytes : UInt64} {unclaimed : Nat} {runs : Runs Item}
    (small : unclaimed + runs.bytes.length < UInt64.size)
    (member : Element.padding bytes ∈ elements unclaimed runs) : bytes ≠ 0 := by
  fun_induction elements unclaimed runs with
  | case1 unclaimed => exact ne_zero_of_mem_paddingOf (by simpa using small) member
  | case2 unclaimed length rest inductionHypothesis =>
    refine inductionHypothesis ?_ member
    simp only [Runs.bytes_cons, List.length_append, List.length_replicate] at small
    omega
  | case3 unclaimed length rest inductionHypothesis =>
    refine inductionHypothesis ?_ member
    simp only [Runs.bytes_cons, List.length_append, List.length_replicate] at small
    omega
  | case4 unclaimed length item rest inductionHypothesis =>
    simp only [Runs.bytes_cons, List.length_append, List.length_replicate] at small
    rcases List.mem_append.mp member with before | after
    · exact ne_zero_of_mem_paddingOf (by omega) before
    · rcases List.mem_cons.mp after with impossible | later
      · cases impossible
      · exact inductionHypothesis (by omega) later

/-- No padding element of a plan is empty. -/
theorem ne_zero_of_mem_plan {bytes width : UInt64} {spans : List (Span Item)}
    (member : Element.padding bytes ∈ plan width spans) : bytes ≠ 0 := by
  refine ne_zero_of_mem_elements ?_ member
  rw [length_bytes_paintSpans, Nat.zero_add]
  exact width.toNat_lt

/-! ### Padding stands alone -/

/-- Whether an element is padding. -/
def Element.isPadding : Element Item → Bool
  | .item _ => false
  | .padding _ => true

/-- Not both of two neighbours are padding. -/
def Apart (left right : Element Item) : Prop :=
  left.isPadding = true → right.isPadding = false

theorem isChain_item_cons {item : Item} {rest : List (Element Item)} (apart : rest.IsChain Apart) :
    (Element.item item :: rest).IsChain Apart := by
  cases rest with
  | nil => exact List.isChain_singleton _
  | cons first others => exact List.IsChain.cons_cons (fun padding => nomatch padding) apart

theorem isChain_elements (unclaimed : Nat) (runs : Runs Item) :
    (elements unclaimed runs).IsChain Apart := by
  fun_induction elements unclaimed runs with
  | case1 unclaimed =>
    unfold paddingOf
    split
    · exact List.isChain_nil
    · exact List.isChain_singleton _
  | case2 unclaimed length rest inductionHypothesis => exact inductionHypothesis
  | case3 unclaimed length rest inductionHypothesis => exact inductionHypothesis
  | case4 unclaimed length item rest inductionHypothesis =>
    unfold paddingOf
    split
    · exact isChain_item_cons inductionHypothesis
    · exact List.IsChain.cons_cons (fun _ => rfl) (isChain_item_cons inductionHypothesis)

/-- No two neighbours of a plan are both padding. -/
theorem isChain_plan (width : UInt64) (spans : List (Span Item)) :
    (plan width spans).IsChain Apart :=
  isChain_elements 0 _

end BinaryFacts.Layout
