/-
This file proves what the plan of a structure means byte by byte. A member that starts inside the
structure covers its bytes, at least one and none past the end. It survives if no later member
covers its first byte. The elements are the surviving members by ascending offset, and in each
region between two of them, before the first and after the last one padding element for the bytes
that no member covers.

The state of a byte is found from the members alone: it is painted by the last member that covers
it. A row of runs stands for the states of all bytes, and its elements can be read off byte by
byte, since a run that starts a member is one byte wide.
-/

import BinaryFacts.Proofs.Layout.Elements
import Mathlib.Data.List.Sort

namespace BinaryFacts.Layout

variable {Item : Type} {width : UInt64} {span : Span Item} {spans : List (Span Item)}
  {byte : Nat}

/-! ### Covered bytes and surviving members -/

/-- A member is live if it starts inside the structure. -/
def Span.Live (width : UInt64) (span : Span Item) : Prop := span.offset.toNat < width.toNat

/-- A live member covers the bytes of its span, at least one, up to the end of the structure. -/
def Span.Covers (width : UInt64) (span : Span Item) (byte : Nat) : Prop :=
  span.Live width ∧ span.offset.toNat ≤ byte ∧
    byte < Nat.min width.toNat (span.offset.toNat + Nat.max span.width.toNat 1)

/-- No member covers a byte. -/
def Uncovered (width : UInt64) (spans : List (Span Item)) (byte : Nat) : Prop :=
  ∀ span ∈ spans, ¬ span.Covers width byte

instance (width : UInt64) (span : Span Item) : Decidable (span.Live width) :=
  inferInstanceAs (Decidable (_ < _))

instance (width : UInt64) (span : Span Item) (byte : Nat) : Decidable (span.Covers width byte) :=
  inferInstanceAs (Decidable (_ ∧ _))

instance (width : UInt64) (spans : List (Span Item)) (byte : Nat) :
    Decidable (Uncovered width spans byte) :=
  inferInstanceAs (Decidable (∀ span ∈ spans, _))

/-- The members whose first byte no later member covers. -/
def survivors (width : UInt64) : List (Span Item) → List (Span Item)
  | [] => []
  | span :: later =>
    if span.Live width ∧ Uncovered width later span.offset.toNat then
      span :: survivors width later
    else survivors width later

/-- The number of bytes from `first` up to `last` that no member covers. -/
def uncoveredCount (width : UInt64) (spans : List (Span Item)) (first last : Nat) : Nat :=
  (List.range' first (last - first)).countP fun byte => decide (Uncovered width spans byte)

/-- One padding element for a positive number of bytes, and no element for zero. -/
inductive Fills : Nat → List (Element Item) → Prop
  | nothing : Fills 0 []
  | padding {count : Nat} {bytes : UInt64} (positive : count ≠ 0) (exact : bytes.toNat = count) :
      Fills count [.padding bytes]

/-- Elements lay out a region that starts at `first` and goes on to the end of the structure if
they are the members that start in it, given by ascending offset, each after the padding for the
bytes before it, and the padding for the bytes after the last one. -/
inductive Lays (width : UInt64) (spans : List (Span Item)) :
    Nat → List (Span Item) → List (Element Item) → Prop
  | last {first : Nat} {filler : List (Element Item)}
      (fills : Fills (uncoveredCount width spans first width.toNat) filler) :
      Lays width spans first [] filler
  | next {first : Nat} {filler elements : List (Element Item)} {span : Span Item}
      {rest : List (Span Item)}
      (fills : Fills (uncoveredCount width spans first span.offset.toNat) filler)
      (laid : Lays width spans span.offset.toNat rest elements) :
      Lays width spans first (span :: rest) (filler ++ .item span.item :: elements)

theorem covers_iff : span.Covers width byte ↔ span.offset.toNat < width.toNat ∧
    span.offset.toNat ≤ byte ∧ byte < width.toNat ∧
      (byte = span.offset.toNat ∨ byte < span.offset.toNat + span.width.toNat) := by
  show _ ∧ _ ∧ byte < min width.toNat (span.offset.toNat + max span.width.toNat 1) ↔ _
  unfold Span.Live
  omega

theorem covers_self (live : span.Live width) : span.Covers width span.offset.toNat :=
  covers_iff.mpr ⟨live, Nat.le_refl _, live, Or.inl rfl⟩

theorem live_of_mem_survivors (member : span ∈ survivors width spans) : span.Live width := by
  fun_induction survivors width spans with
  | case1 => cases member
  | case2 first later survives inductionHypothesis =>
    rcases List.mem_cons.mp member with rfl | there
    · exact survives.1
    · exact inductionHypothesis there
  | case3 first later _ inductionHypothesis => exact inductionHypothesis member

theorem mem_of_mem_survivors (member : span ∈ survivors width spans) : span ∈ spans := by
  fun_induction survivors width spans with
  | case1 => cases member
  | case2 first later survives inductionHypothesis =>
    rcases List.mem_cons.mp member with rfl | there
    · exact List.mem_cons_self
    · exact List.mem_cons_of_mem _ (inductionHypothesis there)
  | case3 first later _ inductionHypothesis =>
    exact List.mem_cons_of_mem _ (inductionHypothesis member)

/-- Of two members that start at the same byte, the later one covers the first byte of the
earlier one, so no two survivors start at the same byte. -/
theorem pairwise_ne_survivors (width : UInt64) (spans : List (Span Item)) :
    (survivors width spans).Pairwise fun earlier later => earlier.offset ≠ later.offset := by
  fun_induction survivors width spans with
  | case1 => exact .nil
  | case2 first later survives inductionHypothesis =>
    refine List.pairwise_cons.mpr ⟨fun other member same => ?_, inductionHypothesis⟩
    refine survives.2 other (mem_of_mem_survivors member) ?_
    rw [same]
    exact covers_self (live_of_mem_survivors member)
  | case3 first later _ inductionHypothesis => exact inductionHypothesis

/-- The survivors can be put in strictly ascending order. -/
theorem exists_ascending_survivors (width : UInt64) (spans : List (Span Item)) :
    ∃ ordered : List (Span Item), ordered.Perm (survivors width spans) ∧
      ordered.Pairwise fun earlier later => earlier.offset < later.offset := by
  let below : Span Item → Span Item → Bool := fun left right => left.offset ≤ right.offset
  have sorted : ((survivors width spans).mergeSort below).Pairwise fun left right =>
      below left right := by
    refine List.pairwise_mergeSort (fun left middle right first second => ?_)
      (fun left right => ?_) _
    · exact decide_eq_true (UInt64.le_trans (of_decide_eq_true first) (of_decide_eq_true second))
    · rcases UInt64.le_total left.offset right.offset with less | greater
      · exact Bool.or_eq_true_iff.mpr (Or.inl (decide_eq_true less))
      · exact Bool.or_eq_true_iff.mpr (Or.inr (decide_eq_true greater))
  have permuted := List.mergeSort_perm (survivors width spans) below
  have distinct := (pairwise_ne_survivors width spans).perm permuted.symm fun apart => apart.symm
  refine ⟨_, permuted, (sorted.and distinct).imp fun both => ?_⟩
  exact UInt64.lt_of_le_of_ne (of_decide_eq_true both.1) both.2

/-! ### The state of a byte -/

/-- The state of a byte after a member is painted. -/
def paintByte (width : UInt64) (byte : Nat) (slot : Slot Item) (span : Span Item) : Slot Item :=
  if span.Covers width byte then
    if byte = span.offset.toNat then .start span.item else .claimed
  else slot

/-- The state of a byte after members are painted over a byte in the state `slot`. -/
def slotFrom (width : UInt64) (slot : Slot Item) (spans : List (Span Item)) (byte : Nat) :
    Slot Item :=
  spans.foldl (paintByte width byte) slot

/-- The state of a byte after all members are painted. -/
def slotAt (width : UInt64) (spans : List (Span Item)) (byte : Nat) : Slot Item :=
  slotFrom width .unclaimed spans byte

/-- The states of the bytes of a structure. -/
def row (width : UInt64) (spans : List (Span Item)) : List (Slot Item) :=
  (List.range' 0 width.toNat).map (slotAt width spans)

/-- A live member claims its span and then marks its first byte. -/
theorem paintByte_of_live (live : span.Live width) (byte : Nat) (slot : Slot Item) :
    paintByte width byte slot span =
      if span.offset.toNat ≤ byte ∧ byte < span.offset.toNat + 1 then .start span.item
      else if span.offset.toNat ≤ byte ∧ byte < span.stop width then .claimed
      else slot := by
  have inside : span.offset.toNat < width.toNat := live
  simp only [paintByte, covers_iff, Span.stop]
  by_cases isStart : byte = span.offset.toNat
  · rw [if_pos (by omega), if_pos isStart, if_pos (by omega)]
  · simp only [if_neg isStart]
    rw [if_neg (by omega : ¬ (span.offset.toNat ≤ byte ∧ byte < span.offset.toNat + 1))]
    congr 1
    exact propext (by omega)

theorem paintByte_of_not_live (notLive : ¬ span.Live width) (byte : Nat) (slot : Slot Item) :
    paintByte width byte slot span = slot :=
  if_neg fun covers => notLive covers.1

/-- Painting a covered byte leaves no byte unclaimed. -/
theorem paintByte_ne_unclaimed (covers : span.Covers width byte) (slot : Slot Item) :
    paintByte width byte slot span ≠ .unclaimed := by
  unfold paintByte
  rw [if_pos covers]
  split <;> exact nofun

theorem slotFrom_of_uncovered (uncovered : Uncovered width spans byte) (slot : Slot Item) :
    slotFrom width slot spans byte = slot := by
  induction spans with
  | nil => rfl
  | cons span rest inductionHypothesis =>
    have here : paintByte width byte slot span = slot :=
      if_neg (uncovered span List.mem_cons_self)
    rw [slotFrom, List.foldl_cons, here]
    exact inductionHypothesis fun other member => uncovered other (List.mem_cons_of_mem _ member)

theorem slotFrom_eq_unclaimed_iff (slot : Slot Item) :
    slotFrom width slot spans byte = .unclaimed ↔
      slot = .unclaimed ∧ Uncovered width spans byte := by
  constructor
  · intro unclaimed
    induction spans generalizing slot with
    | nil => exact ⟨unclaimed, fun _ member => nomatch member⟩
    | cons span rest inductionHypothesis =>
      obtain ⟨before, uncovered⟩ := inductionHypothesis _ unclaimed
      have here : ¬ span.Covers width byte :=
        fun covers => paintByte_ne_unclaimed covers slot before
      rw [paintByte, if_neg here] at before
      exact ⟨before, List.forall_mem_cons.mpr ⟨here, uncovered⟩⟩
  · rintro ⟨rfl, uncovered⟩
    exact slotFrom_of_uncovered uncovered _

/-- A byte is unclaimed exactly if no member covers it. -/
theorem slotAt_eq_unclaimed_iff :
    slotAt width spans byte = .unclaimed ↔ Uncovered width spans byte :=
  (slotFrom_eq_unclaimed_iff _).trans (and_iff_right rfl)

/-- A surviving member starts at its first byte, whatever was painted before. -/
theorem slotFrom_of_mem_survivors (member : span ∈ survivors width spans) (slot : Slot Item) :
    slotFrom width slot spans span.offset.toNat = .start span.item := by
  fun_induction survivors width spans generalizing slot with
  | case1 => cases member
  | case2 first later survives inductionHypothesis =>
    rcases List.mem_cons.mp member with rfl | there
    · have here : paintByte width span.offset.toNat slot span = .start span.item := by
        rw [paintByte, if_pos (covers_self survives.1), if_pos rfl]
      rw [slotFrom, List.foldl_cons, here]
      exact slotFrom_of_uncovered survives.2 _
    · exact inductionHypothesis there _
  | case3 first later _ inductionHypothesis => exact inductionHypothesis member _

/-- Where a member starts, a survivor starts, unless it was there before. -/
theorem exists_survivor_of_slotFrom {item : Item} {slot : Slot Item}
    (starts : slotFrom width slot spans byte = .start item) :
    slot = .start item ∧ Uncovered width spans byte ∨
      ∃ span ∈ survivors width spans, span.offset.toNat = byte := by
  induction spans generalizing slot with
  | nil => exact Or.inl ⟨starts, fun _ member => nomatch member⟩
  | cons span rest inductionHypothesis =>
    rcases inductionHypothesis starts with ⟨before, uncovered⟩ | ⟨other, member, same⟩
    · by_cases covers : span.Covers width byte
      · rw [paintByte, if_pos covers] at before
        split at before
        · rename_i own
          subst own
          refine Or.inr ⟨span, ?_, rfl⟩
          rw [survivors, if_pos ⟨covers.1, uncovered⟩]
          exact List.mem_cons_self
        · cases before
      · rw [paintByte, if_neg covers] at before
        exact Or.inl ⟨before, List.forall_mem_cons.mpr ⟨covers, uncovered⟩⟩
    · refine Or.inr ⟨other, ?_, same⟩
      unfold survivors
      split
      · exact List.mem_cons_of_mem _ member
      · exact member

/-! ### Reading a row byte by byte -/

/-- Whether no member holds a byte. -/
def Slot.isUnclaimed : Slot Item → Bool
  | .unclaimed => true
  | .claimed | .start _ => false

/-- Read the elements off the states of bytes, with `unclaimed` unclaimed bytes since the last
member. -/
def readBytes (unclaimed : Nat) : List (Slot Item) → List (Element Item)
  | [] => paddingOf unclaimed
  | .unclaimed :: rest => readBytes (unclaimed + 1) rest
  | .claimed :: rest => readBytes unclaimed rest
  | .start item :: rest => paddingOf unclaimed ++ .item item :: readBytes 0 rest

/-- Runs that start a member are one byte wide. -/
def OneByteStarts (runs : Runs Item) : Prop :=
  ∀ run ∈ runs, ∀ item, run.2 = .start item → run.1 = 1

/-- Over bytes at which no member starts, reading counts the unclaimed ones. -/
theorem readBytes_append {slots : List (Slot Item)}
    (noStart : ∀ slot ∈ slots, ∀ item, slot ≠ .start item) (unclaimed : Nat)
    (rest : List (Slot Item)) :
    readBytes unclaimed (slots ++ rest) =
      readBytes (unclaimed + slots.countP Slot.isUnclaimed) rest := by
  induction slots generalizing unclaimed with
  | nil => rfl
  | cons slot others inductionHypothesis =>
    have later := inductionHypothesis fun other member =>
      noStart other (List.mem_cons_of_mem _ member)
    cases slot with
    | unclaimed =>
      rw [List.cons_append, readBytes, later, List.countP_cons_of_pos rfl, Nat.add_right_comm,
        Nat.add_assoc]
    | claimed => exact later unclaimed
    | start item => exact (noStart _ List.mem_cons_self item rfl).elim

/-- The elements of runs are those of the bytes that they stand for. -/
theorem elements_eq_readBytes {runs : Runs Item} (narrow : OneByteStarts runs) (unclaimed : Nat) :
    elements unclaimed runs = readBytes unclaimed runs.bytes := by
  have tail : ∀ {run : Nat × Slot Item} {rest : Runs Item}, OneByteStarts (run :: rest) →
      OneByteStarts rest := fun all other member => all other (List.mem_cons_of_mem _ member)
  fun_induction elements unclaimed runs with
  | case1 unclaimed => rfl
  | case2 unclaimed length rest inductionHypothesis =>
    rw [inductionHypothesis (tail narrow), Runs.bytes_cons, readBytes_append]
    · rw [List.countP_replicate]
      rfl
    · intro slot member item same
      rw [List.eq_of_mem_replicate member] at same
      cases same
  | case3 unclaimed length rest inductionHypothesis =>
    rw [inductionHypothesis (tail narrow), Runs.bytes_cons, readBytes_append]
    · rw [List.countP_replicate]
      rfl
    · intro slot member item same
      rw [List.eq_of_mem_replicate member] at same
      cases same
  | case4 unclaimed length item rest inductionHypothesis =>
    have single : length = 1 := narrow _ List.mem_cons_self item rfl
    rw [inductionHypothesis (tail narrow), Runs.bytes_cons, single]
    rfl

namespace OneByteStarts

theorem take {runs : Runs Item} (narrow : OneByteStarts runs) (count : Nat) :
    OneByteStarts (runs.take count) := by
  induction runs generalizing count with
  | nil => exact narrow
  | cons run rest inductionHypothesis =>
    obtain ⟨length, slot⟩ := run
    have later : OneByteStarts rest := fun other member =>
      narrow other (List.mem_cons_of_mem _ member)
    unfold Runs.take
    split
    · intro run member
      cases member
    · split
      · rename_i positive short
        intro run member item starts
        obtain rfl := List.mem_singleton.mp member
        have single : length = 1 := narrow (length, slot) List.mem_cons_self item starts
        omega
      · exact List.forall_mem_cons.mpr ⟨narrow _ List.mem_cons_self, inductionHypothesis later _⟩

theorem drop {runs : Runs Item} (narrow : OneByteStarts runs) (count : Nat) :
    OneByteStarts (runs.drop count) := by
  induction runs generalizing count with
  | nil => exact narrow
  | cons run rest inductionHypothesis =>
    obtain ⟨length, slot⟩ := run
    have later : OneByteStarts rest := fun other member =>
      narrow other (List.mem_cons_of_mem _ member)
    unfold Runs.drop
    split
    · rename_i short
      refine List.forall_mem_cons.mpr ⟨fun item starts => ?_, later⟩
      have single : length = 1 := narrow (length, slot) List.mem_cons_self item starts
      show length - count = 1
      omega
    · exact inductionHypothesis later _

theorem paint {runs : Runs Item} (narrow : OneByteStarts runs) {first last : Nat}
    {slot : Slot Item} (own : ∀ item, slot = .start item → last = first + 1) :
    OneByteStarts (runs.paint first last slot) := by
  unfold Runs.paint
  split
  · refine List.forall_mem_append.mpr ⟨narrow.take first, ?_⟩
    refine List.forall_mem_cons.mpr ⟨fun item starts => ?_, narrow.drop last⟩
    have next := own item starts
    show last - first = 1
    omega
  · exact narrow

theorem paintSpans (width : UInt64) (spans : List (Span Item)) :
    OneByteStarts (paintSpans width spans) := by
  have general : ∀ runs : Runs Item, OneByteStarts runs →
      OneByteStarts (spans.foldl (paintSpan width) runs) := by
    induction spans with
    | nil => exact fun _ narrow => narrow
    | cons span rest inductionHypothesis =>
      intro runs narrow
      refine inductionHypothesis _ ?_
      unfold paintSpan
      split
      · have claimed : OneByteStarts (runs.paint span.offset.toNat (span.stop width) .claimed) :=
          narrow.paint nofun
        exact claimed.paint fun _ _ => rfl
      · exact narrow
  refine general _ fun run member item starts => ?_
  rw [List.mem_singleton.mp member] at starts
  cases starts

end OneByteStarts

/-! ### The painted row -/

theorem getElem?_bytes_paint {first last : Nat} {runs : Runs Item}
    (inside : last ≤ runs.bytes.length) (slot : Slot Item) (byte : Nat) :
    (runs.paint first last slot).bytes[byte]? =
      if first ≤ byte ∧ byte < last then some slot else runs.bytes[byte]? := by
  by_cases ordered : first < last
  · rw [Runs.bytes_paint first last slot runs ordered]
    grind
  · rw [Runs.paint, if_neg ordered, if_neg (by omega)]

/-- Painting a member paints the bytes that it covers. -/
theorem getElem?_bytes_paintSpan {runs : Runs Item} (full : runs.bytes.length = width.toNat)
    (span : Span Item) (byte : Nat) :
    (paintSpan width runs span).bytes[byte]? =
      (runs.bytes[byte]?).map fun slot => paintByte width byte slot span := by
  unfold paintSpan
  split
  · rename_i inside
    have live : span.offset.toNat < width.toNat := UInt64.lt_iff_toNat_lt.mp inside
    have stopInside : span.stop width ≤ runs.bytes.length := full ▸ Nat.min_le_right _ _
    have nextInside : span.offset.toNat + 1 ≤
        (runs.paint span.offset.toNat (span.stop width) .claimed).bytes.length := by
      rw [length_bytes_paint _ _ _ _ stopInside, full]
      exact live
    simp only [getElem?_bytes_paint nextInside, getElem?_bytes_paint stopInside,
      paintByte_of_live live]
    by_cases present : byte < runs.bytes.length
    · rw [List.getElem?_eq_getElem present, Option.map_some]
      split
      · rfl
      · split <;> rfl
    · rw [List.getElem?_eq_none (Nat.le_of_not_lt present), if_neg (by omega), if_neg (by omega)]
      rfl
  · rename_i outside
    have notLive : ¬ span.Live width := fun live => outside (UInt64.lt_iff_toNat_lt.mpr live)
    simp only [paintByte_of_not_live notLive, Option.map_id']

/-- The runs of a painted structure stand for the states of its bytes. -/
theorem bytes_paintSpans (width : UInt64) (spans : List (Span Item)) :
    (paintSpans width spans).bytes = row width spans := by
  have general : ∀ (runs : Runs Item) (byte : Nat), runs.bytes.length = width.toNat →
      (spans.foldl (paintSpan width) runs).bytes[byte]? =
        (runs.bytes[byte]?).map fun slot => slotFrom width slot spans byte := by
    induction spans with
    | nil => exact fun runs byte _ => (Option.map_id' ..).symm
    | cons span rest inductionHypothesis =>
      intro runs byte full
      rw [List.foldl_cons, inductionHypothesis _ byte (length_bytes_paintSpan width runs span full),
        getElem?_bytes_paintSpan full, Option.map_map]
      rfl
  refine List.ext_getElem? fun byte => ?_
  rw [paintSpans, general _ byte (by simp), row, List.getElem?_map]
  by_cases inside : byte < width.toNat
  · simp [inside, slotAt]
  · simp [inside]

/-! ### The elements of the painted row -/

theorem fills_paddingOf {count : Nat} (small : count < UInt64.size) :
    Fills count (paddingOf count : List (Element Item)) := by
  unfold paddingOf
  split
  · rename_i zero
    exact zero ▸ .nothing
  · rename_i positive
    exact .padding positive (UInt64.toNat_ofNat_of_lt' small)

theorem countP_slotAt (width : UInt64) (spans : List (Span Item)) (first last : Nat) :
    ((List.range' first (last - first)).map (slotAt width spans)).countP Slot.isUnclaimed =
      uncoveredCount width spans first last := by
  rw [List.countP_map]
  refine List.countP_congr fun byte _ => ?_
  rw [decide_eq_true_iff, ← slotAt_eq_unclaimed_iff]
  show (slotAt width spans byte).isUnclaimed = true ↔ _
  cases slotAt width spans byte with
  | unclaimed => exact iff_of_true rfl rfl
  | claimed | start => exact iff_of_false nofun nofun

/-- A region may as well start at a covered byte before its first one. -/
theorem Lays.of_succ {first : Nat} {ordered : List (Span Item)} {elements : List (Element Item)}
    (covered : ¬ Uncovered width spans first)
    (above : ∀ span ∈ ordered, first < span.offset.toNat) (inside : first < width.toNat)
    (laid : Lays width spans (first + 1) ordered elements) :
    Lays width spans first ordered elements := by
  have same : ∀ last, first < last →
      uncoveredCount width spans (first + 1) last = uncoveredCount width spans first last := by
    intro last less
    have length : last - first = (last - (first + 1)) + 1 := by omega
    rw [uncoveredCount, uncoveredCount, length, List.range'_succ,
      List.countP_cons_of_neg (by simpa using covered)]
  cases laid with
  | last fills =>
    rw [same _ inside] at fills
    exact .last fills
  | next fills later =>
    rw [same _ (above _ List.mem_cons_self)] at fills
    exact .next fills later

theorem range'_eq_append {first middle last : Nat} (low : first ≤ middle) (high : middle ≤ last) :
    List.range' first (last - first) =
      List.range' first (middle - first) ++ List.range' middle (last - middle) := by
  obtain ⟨before, rfl⟩ := Nat.exists_eq_add_of_le low
  obtain ⟨behind, rfl⟩ := Nat.exists_eq_add_of_le high
  rw [Nat.add_sub_cancel_left, Nat.add_sub_cancel_left, List.range'_append_1, Nat.add_assoc,
    Nat.add_sub_cancel_left]

theorem uncoveredCount_lt_size (spans : List (Span Item)) (first : Nat) {last : Nat}
    (inside : last ≤ width.toNat) : uncoveredCount width spans first last < UInt64.size := by
  have atMost : uncoveredCount width spans first last ≤ last - first :=
    List.countP_le_length.trans_eq List.length_range'
  exact Nat.lt_of_le_of_lt (by omega : _ ≤ width.toNat) width.toNat_lt

/-- Over a region in which no survivor starts, reading counts the bytes that no member covers. -/
theorem readBytes_region {first last : Nat}
    (noSurvivor : ∀ span ∈ survivors width spans,
      first ≤ span.offset.toNat → last ≤ span.offset.toNat) (rest : List (Slot Item)) :
    readBytes 0 ((List.range' first (last - first)).map (slotAt width spans) ++ rest) =
      readBytes (uncoveredCount width spans first last) rest := by
  have noStart : ∀ slot ∈ (List.range' first (last - first)).map (slotAt width spans),
      ∀ item, slot ≠ .start item := by
    rintro slot isSlot item rfl
    obtain ⟨byte, isByte, starts⟩ := List.mem_map.mp isSlot
    have bounds := List.mem_range'_1.mp isByte
    rcases exists_survivor_of_slotFrom starts with ⟨impossible, -⟩ | ⟨span, member, same⟩
    · cases impossible
    · have past := noSurvivor span member (by omega)
      omega
  rw [readBytes_append noStart, countP_slotAt, Nat.zero_add]

/-- Reading the bytes of a region up to the end of the structure gives the elements that lay it
out, with the survivors that start in it. -/
theorem lays_readBytes {first : Nat} {ordered : List (Span Item)}
    (ascending : ordered.Pairwise fun earlier later => earlier.offset < later.offset)
    (isSurvivor : ∀ span, span ∈ ordered ↔
      span ∈ survivors width spans ∧ first ≤ span.offset.toNat) :
    Lays width spans first ordered
      (readBytes 0 ((List.range' first (width.toNat - first)).map (slotAt width spans))) := by
  induction ordered generalizing first with
  | nil =>
    have none : ∀ span ∈ survivors width spans,
        first ≤ span.offset.toNat → width.toNat ≤ span.offset.toNat :=
      fun span member low => nomatch (isSurvivor span).mpr ⟨member, low⟩
    have read := readBytes_region none []
    rw [List.append_nil] at read
    rw [read]
    exact .last (fills_paddingOf (uncoveredCount_lt_size spans first (Nat.le_refl _)))
  | cons span rest inductionHypothesis =>
    obtain ⟨least, restAscending⟩ := List.pairwise_cons.mp ascending
    obtain ⟨survives, low⟩ := (isSurvivor span).mp List.mem_cons_self
    have live : span.offset.toNat < width.toNat := live_of_mem_survivors survives
    have later : ∀ other ∈ rest, span.offset.toNat < other.offset.toNat :=
      fun other member => UInt64.lt_iff_toNat_lt.mp (least other member)
    -- The first survivor of the region comes first, the others start behind it.
    have none : ∀ other ∈ survivors width spans,
        first ≤ other.offset.toNat → span.offset.toNat ≤ other.offset.toNat := by
      intro other member otherLow
      rcases List.mem_cons.mp ((isSurvivor other).mpr ⟨member, otherLow⟩) with rfl | behind
      · exact Nat.le_refl _
      · exact Nat.le_of_lt (later other behind)
    have isLater : ∀ other, other ∈ rest ↔
        other ∈ survivors width spans ∧ span.offset.toNat + 1 ≤ other.offset.toNat := by
      intro other
      constructor
      · intro member
        exact ⟨((isSurvivor other).mp (List.mem_cons_of_mem _ member)).1, later other member⟩
      · rintro ⟨member, behind⟩
        rcases List.mem_cons.mp ((isSurvivor other).mpr ⟨member, by omega⟩) with rfl | there
        · omega
        · exact there
    have starts : slotAt width spans span.offset.toNat = .start span.item :=
      slotFrom_of_mem_survivors survives _
    have bytes : List.range' span.offset.toNat (width.toNat - span.offset.toNat) =
        span.offset.toNat ::
          List.range' (span.offset.toNat + 1) (width.toNat - (span.offset.toNat + 1)) := by
      rw [← List.range'_succ]
      congr 1
      omega
    rw [range'_eq_append low (Nat.le_of_lt live), List.map_append, readBytes_region none, bytes,
      List.map_cons, starts, readBytes]
    refine .next (fills_paddingOf (uncoveredCount_lt_size spans first (Nat.le_of_lt live))) ?_
    refine .of_succ (fun uncovered => ?_) later live (inductionHypothesis restAscending isLater)
    exact uncovered span (mem_of_mem_survivors survives) (covers_self live)

/-- The plan of a structure lays it out with its surviving members. -/
theorem lays_plan {ordered : List (Span Item)}
    (permuted : ordered.Perm (survivors width spans))
    (ascending : ordered.Pairwise fun earlier later => earlier.offset < later.offset) :
    Lays width spans 0 ordered (plan width spans) := by
  rw [plan, elements_eq_readBytes (OneByteStarts.paintSpans width spans), bytes_paintSpans, row]
  exact lays_readBytes ascending fun span =>
    permuted.mem_iff.trans (and_iff_left (Nat.zero_le _)).symm

end BinaryFacts.Layout
