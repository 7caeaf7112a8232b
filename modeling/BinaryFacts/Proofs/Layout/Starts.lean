/-
This file proves that a structure laid out with words, over runs kept in an ordered map, never
leaves the range of the words and gives the elements of its plan.

A painted map answers for every byte as a painted row does: the bytes from the first up to the
last have the new state and all others keep theirs, because the run that is cut off resumes where
the painted stretch ends. The runs between the starts of the map then stand for the same row of
bytes, and the words that count its bytes are no larger than its width.
-/

import BinaryFacts.Layout.Starts
import BinaryFacts.Proofs.Layout.Painting

namespace BinaryFacts.Layout.Starts

variable {Item : Type} {width first last : UInt64} {slot : Slot Item} {starts : Starts Item}

/-! ### Painting the map -/

theorem slotAt_eq_of_get? {byte : UInt64} (found : starts.get? byte = some slot) :
    starts.slotAt byte = slot := by
  have isFloor : starts.floor? byte = some slot := by
    refine AddressMap.floor?_eq_some_iff.mpr ⟨byte, found, UInt64.le_refl _, ?_⟩
    exact fun other behind below => (UInt64.not_lt.mpr below behind).elim
  rw [slotAt, isFloor, Option.getD_some]

/-- A painted stretch starts at its first byte, the run that it cuts off resumes at its last one,
and no run starts between the two. -/
theorem get?_paint (ordered : first < last) (slot : Slot Item) (starts : Starts Item)
    (key : UInt64) :
    (starts.paint first last slot).get? key =
      if key = first then some slot
      else if key = last then some (starts.slotAt last)
      else if first ≤ key ∧ key < last then none
      else starts.get? key := by
  have atLast : (starts.without first last).get? last = starts.get? last := by
    rw [AddressMap.get?_without, if_neg fun inside => UInt64.lt_irrefl _ inside.2]
  rw [paint, if_pos ordered, AddressMap.get?_insert]
  congr 1
  split
  · rename_i present
    obtain ⟨resumed, found⟩ := Option.isSome_iff_exists.mp present
    split
    · rename_i isLast
      rw [isLast, found, slotAt_eq_of_get? (atLast ▸ found)]
    · exact AddressMap.get?_without ..
  · rw [AddressMap.get?_insert]
    congr 1
    exact AddressMap.get?_without ..

/-- Painting loses no start, except between the ends of the painted stretch. -/
theorem get?_paint_ne_none {key : UInt64} (ordered : first < last)
    (outside : ¬ (first < key ∧ key < last)) (mapped : starts.get? key ≠ none) :
    (starts.paint first last slot).get? key ≠ none := by
  rw [get?_paint ordered]
  split
  · exact Option.some_ne_none _
  · split
    · exact Option.some_ne_none _
    · rwa [if_neg (by grind)]

/-- Where two maps agree up to a byte, they give it the same state. -/
theorem slotAt_congr {left right : Starts Item} {byte : UInt64}
    (same : ∀ key, key ≤ byte → left.get? key = right.get? key) :
    left.slotAt byte = right.slotAt byte := by
  have floors : left.floor? byte = right.floor? byte := by
    refine Option.ext fun slot => ?_
    rw [AddressMap.floor?_eq_some_iff, AddressMap.floor?_eq_some_iff]
    refine exists_congr fun key => ?_
    constructor
    · rintro ⟨found, below, none⟩
      exact ⟨same key below ▸ found, below, fun other behind otherBelow =>
        same other otherBelow ▸ none other behind otherBelow⟩
    · rintro ⟨found, below, none⟩
      exact ⟨(same key below).symm ▸ found, below, fun other behind otherBelow =>
        (same other otherBelow).symm ▸ none other behind otherBelow⟩
  rw [slotAt, slotAt, floors]

/-- A run lasts until the next one starts. -/
theorem slotAt_eq_of_none {earlier later : UInt64} (ordered : earlier ≤ later)
    (none : ∀ key, earlier < key → key ≤ later → starts.get? key = none) :
    starts.slotAt later = starts.slotAt earlier := by
  have floors : starts.floor? later = starts.floor? earlier := by
    refine Option.ext fun slot => ?_
    rw [AddressMap.floor?_eq_some_iff, AddressMap.floor?_eq_some_iff]
    refine exists_congr fun key => ?_
    constructor
    · rintro ⟨found, below, behind⟩
      have notBehind : ¬ earlier < key := fun less => nomatch (none key less below).symm.trans found
      exact ⟨found, UInt64.not_lt.mp notBehind, fun other less otherBelow =>
        behind other less (UInt64.le_trans otherBelow ordered)⟩
    · rintro ⟨found, below, behind⟩
      refine ⟨found, UInt64.le_trans below ordered, fun other less otherBelow => ?_⟩
      by_cases between : earlier < other
      · exact none other between otherBelow
      · exact behind other less (UInt64.not_lt.mp between)
  rw [slotAt, slotAt, floors]

/-- The run that holds a byte starts at some key or the byte is before all of them. -/
theorem exists_start_or_none (starts : Starts Item) (byte : UInt64) :
    (∃ key, starts.get? key = some (starts.slotAt byte) ∧ key ≤ byte ∧
        ∀ other, key < other → other ≤ byte → starts.get? other = none) ∨
      starts.slotAt byte = .unclaimed ∧ ∀ key, key ≤ byte → starts.get? key = none := by
  cases found : starts.floor? byte with
  | none =>
    refine Or.inr ⟨?_, AddressMap.floor?_eq_none_iff.mp found⟩
    rw [slotAt, found, Option.getD_none]
  | some slot =>
    have own : starts.slotAt byte = slot := by rw [slotAt, found, Option.getD_some]
    exact Or.inl (own ▸ AddressMap.floor?_eq_some_iff.mp found)

/-- Painting gives the bytes from the first up to the last the new state, and all others keep
theirs. -/
theorem slotAt_paint (ordered : first < last) (slot : Slot Item) (starts : Starts Item)
    (byte : UInt64) :
    (starts.paint first last slot).slotAt byte =
      if first ≤ byte ∧ byte < last then slot else starts.slotAt byte := by
  have painted := get?_paint ordered slot starts
  by_cases inside : first ≤ byte ∧ byte < last
  · have none : ∀ key, first < key → key ≤ byte →
        (starts.paint first last slot).get? key = none := by
      intro key behind below
      rw [painted, if_neg (by grind), if_neg (by grind), if_pos (by grind)]
    rw [if_pos inside, slotAt_eq_of_none inside.1 none]
    exact slotAt_eq_of_get? (by rw [painted, if_pos rfl])
  · rw [if_neg inside]
    by_cases before : byte < first
    · refine slotAt_congr fun key below => ?_
      rw [painted, if_neg (by grind), if_neg (by grind), if_neg (by grind)]
    · have behind : last ≤ byte := by grind
      have same : ∀ key, last < key →
          (starts.paint first last slot).get? key = starts.get? key := by
        intro key past
        rw [painted, if_neg (by grind), if_neg (by grind), if_neg (by grind)]
      by_cases nothing : ∀ key, last < key → key ≤ byte → starts.get? key = none
      · -- The run that resumes holds the byte.
        have resumed : (starts.paint first last slot).slotAt last = starts.slotAt last :=
          slotAt_eq_of_get? (by rw [painted, if_neg (by grind), if_pos rfl])
        rw [slotAt_eq_of_none behind nothing, ← resumed]
        exact slotAt_eq_of_none behind fun key past below =>
          (same key past).trans (nothing key past below)
      · -- A run that starts behind the painted stretch holds the byte, as before.
        push Not at nothing
        obtain ⟨mapped, mappedPast, mappedBelow, isMapped⟩ := nothing
        rcases exists_start_or_none starts byte with ⟨key, found, below, none⟩ | ⟨_, none⟩
        · have past : last < key := by
            by_contra notPast
            exact isMapped (none mapped (by grind) mappedBelow)
          rw [slotAt_eq_of_none below fun other less otherBelow =>
            (same other (by grind)).trans (none other less otherBelow)]
          exact slotAt_eq_of_get? ((same key past).trans found)
        · exact (isMapped (none mapped mappedBelow)).elim

/-! ### The map of a painted structure -/

/-- A map of runs in order: it gives the bytes of a structure their states, its runs go from the
first byte to the width, where nothing starts, and a run that starts a member is followed at
once by another. -/
structure Sound (width : UInt64) (starts : Starts Item) (slots : Nat → Slot Item) : Prop where
  slotAt_eq : ∀ byte, byte < width → starts.slotAt byte = slots byte.toNat
  zero : starts.get? 0 ≠ none
  sentinel : starts.get? width = some .claimed
  within : ∀ key, starts.get? key ≠ none → key ≤ width
  narrow : ∀ key item, starts.get? key = some (.start item) →
    ∃ next : UInt64, next.toNat = key.toNat + 1 ∧ starts.get? next ≠ none

theorem toNat_stopOf (width : UInt64) (span : Span Item) :
    (stopOf width span).toNat = span.stop width := by
  unfold stopOf Span.stop
  split
  · rename_i stop found
    have exact := toNat_of_checkedSum found
    split
    · rename_i below
      rw [UInt64.le_iff_toNat_le] at below
      omega
    · rename_i above
      rw [UInt64.le_iff_toNat_le] at above
      omega
  · rename_i fault overflows
    have large : ¬ span.offset.toNat + span.width.toNat < UInt64.size := by
      intro fits
      obtain ⟨sum, found, -⟩ := exists_checkedSum fits
      cases overflows.symm.trans found
    have small : width.toNat < UInt64.size := width.toNat_lt
    omega

namespace Sound

variable {slots : Nat → Slot Item}

theorem congr {other : Nat → Slot Item} (sound : Sound width starts slots)
    (same : ∀ byte, byte < width.toNat → slots byte = other byte) : Sound width starts other where
  slotAt_eq byte inside := (sound.slotAt_eq byte inside).trans
    (same _ (UInt64.lt_iff_toNat_lt.mp inside))
  zero := sound.zero
  sentinel := sound.sentinel
  within := sound.within
  narrow := sound.narrow

theorem unpainted (width : UInt64) :
    Sound width (unpainted width : Starts Item) fun _ => .unclaimed := by
  have found : ∀ key, (Starts.unpainted width : Starts Item).get? key =
      if key = width then some .claimed else if key = 0 then some .unclaimed else none := by
    intro key
    rw [Starts.unpainted, AddressMap.get?_insert, AddressMap.get?_insert, AddressMap.get?_empty]
  refine ⟨fun byte inside => ?_, ?_, ?_, fun key mapped => ?_, fun key item starts => ?_⟩
  · have lowest : (0 : UInt64) ≤ byte := UInt64.le_iff_toNat_le.mpr (Nat.zero_le _)
    have none : ∀ key, 0 < key → key ≤ byte →
        (Starts.unpainted width : Starts Item).get? key = none := by
      intro key positive below
      rw [found, if_neg (by grind), if_neg (by grind)]
    rw [slotAt_eq_of_none lowest none]
    exact slotAt_eq_of_get? (by rw [found, if_neg (by grind), if_pos rfl])
  · rw [found]
    split
    · exact nofun
    · rw [if_pos rfl]
      exact nofun
  · rw [found, if_pos rfl]
  · by_contra above
    have apart : key ≠ width ∧ key ≠ 0 := by
      constructor
      · grind
      · rintro rfl
        exact above (UInt64.le_iff_toNat_le.mpr (Nat.zero_le _))
    rw [found, if_neg apart.1, if_neg apart.2] at mapped
    exact mapped rfl
  · rw [found] at starts
    split at starts
    · cases starts
    · split at starts <;> cases starts

/-- A byte that starts a member is a start of the map: the run that holds it is one byte wide. -/
theorem get?_of_slotAt {byte : UInt64} {item : Item} (sound : Sound width starts slots)
    (starting : starts.slotAt byte = .start item) : starts.get? byte = some (.start item) := by
  rcases exists_start_or_none starts byte with ⟨start, found, below, none⟩ | ⟨unclaimed, _⟩
  · rw [starting] at found
    obtain ⟨next, follows, mapped⟩ := sound.narrow start item found
    have whole : start = byte := by
      by_contra apart
      refine mapped (none next ?_ ?_)
      · rw [UInt64.lt_iff_toNat_lt]
        omega
      · have less := UInt64.lt_iff_toNat_lt.mp (UInt64.lt_of_le_of_ne below apart)
        rw [UInt64.le_iff_toNat_le]
        omega
    exact whole ▸ found
  · cases starting.symm.trans unclaimed

/-- Painting a stretch keeps a map in order; one that starts a member is one byte wide. -/
theorem paint (sound : Sound width starts slots) (inside : last ≤ width)
    (own : ∀ item, slot = .start item → last.toNat = first.toNat + 1) :
    Sound width (starts.paint first last slot) fun byte =>
      if first.toNat ≤ byte ∧ byte < last.toNat then slot else slots byte := by
  by_cases ordered : first < last
  · have painted := get?_paint ordered slot starts
    refine ⟨fun byte below => ?_, ?_, ?_, fun key mapped => ?_, fun key item starting => ?_⟩
    · rw [slotAt_paint ordered, sound.slotAt_eq byte below]
      simp only [UInt64.le_iff_toNat_le, UInt64.lt_iff_toNat_lt]
    · have lowest : ¬ first < 0 := UInt64.not_lt.mpr (UInt64.le_iff_toNat_le.mpr (Nat.zero_le _))
      exact get?_paint_ne_none ordered (fun between => lowest between.1) sound.zero
    · rw [painted, if_neg (by grind)]
      split
      · rename_i same
        rw [← same, slotAt_eq_of_get? sound.sentinel]
      · rw [if_neg (by grind), sound.sentinel]
    · rw [painted] at mapped
      by_contra above
      rw [if_neg (by grind), if_neg (by grind), if_neg (by grind)] at mapped
      exact above (sound.within key mapped)
    · rw [painted] at starting
      split at starting
      · rename_i isFirst
        cases starting
        refine ⟨last, isFirst ▸ own item rfl, ?_⟩
        rw [painted, if_neg (by grind), if_pos rfl]
        exact nofun
      · -- Every other start of a member is one before painting, also where a run resumes.
        have before : starts.get? key = some (.start item) := by
          split at starting
          · rename_i isLast
            exact isLast ▸ sound.get?_of_slotAt (Option.some.inj starting)
          · split at starting
            · cases starting
            · exact starting
        have outside : ¬ (first ≤ key ∧ key < last) := by
          intro inside
          rw [if_neg (by grind), if_pos inside] at starting
          cases starting
        obtain ⟨next, follows, mapped⟩ := sound.narrow key item before
        refine ⟨next, follows, get?_paint_ne_none ordered ?_ mapped⟩
        simp only [UInt64.le_iff_toNat_le, UInt64.lt_iff_toNat_lt] at outside ⊢
        omega
  · have empty : ∀ byte, ¬ (first.toNat ≤ byte ∧ byte < last.toNat) := by
      rw [UInt64.lt_iff_toNat_lt] at ordered
      omega
    rw [Starts.paint, if_neg ordered]
    exact sound.congr fun byte _ => (if_neg (empty byte)).symm

/-- Painting a member never leaves the range of the words and paints the bytes it covers. -/
theorem paintSpan (sound : Sound width starts slots) (span : Span Item) :
    ∃ next, Starts.paintSpan width starts span = .ok next ∧
      Sound width next fun byte => paintByte width byte (slots byte) span := by
  unfold Starts.paintSpan
  split
  · rename_i inside
    have live : span.offset.toNat < width.toNat := UInt64.lt_iff_toNat_lt.mp inside
    have small : span.offset.toNat + (1 : UInt64).toNat < UInt64.size :=
      Nat.lt_of_le_of_lt live width.toNat_lt
    obtain ⟨next, found, follows⟩ := exists_checkedSum small
    have stopInside : stopOf width span ≤ width := by
      rw [UInt64.le_iff_toNat_le, toNat_stopOf]
      exact Nat.min_le_right _ _
    have nextInside : next ≤ width := by
      rw [UInt64.le_iff_toNat_le, follows]
      exact live
    have claimed : Sound width (starts.paint span.offset (stopOf width span) .claimed) _ :=
      sound.paint stopInside nofun
    have marked : Sound width (Starts.paint span.offset next (.start span.item) _) _ :=
      claimed.paint nextInside fun _ _ => follows
    refine ⟨_, by rw [found]; rfl, marked.congr fun byte _ => ?_⟩
    rw [paintByte_of_live live, follows, toNat_stopOf]
    rfl
  · rename_i outside
    have notLive : ¬ span.Live width := fun live => outside (UInt64.lt_iff_toNat_lt.mpr live)
    exact ⟨starts, rfl, sound.congr fun byte _ => (paintByte_of_not_live notLive byte _).symm⟩

end Sound

/-- All members are painted without leaving the range of the words. -/
theorem exists_sound (width : UInt64) (spans : List (Span Item)) :
    ∃ starts : Starts Item, spans.foldlM (paintSpan width) (unpainted width) = .ok starts ∧
      Sound width starts (Layout.slotAt width spans) := by
  have general : ∀ (starts : Starts Item) (slots : Nat → Slot Item), Sound width starts slots →
      ∃ next, spans.foldlM (paintSpan width) starts = .ok next ∧
        Sound width next fun byte => slotFrom width (slots byte) spans byte := by
    induction spans with
    | nil => exact fun starts slots sound => ⟨starts, rfl, sound⟩
    | cons span rest inductionHypothesis =>
      intro starts slots sound
      obtain ⟨next, painted, nextSound⟩ := sound.paintSpan span
      obtain ⟨final, others, finalSound⟩ := inductionHypothesis next _ nextSound
      refine ⟨final, ?_, finalSound⟩
      rw [List.foldlM_cons, painted]
      exact others
  exact general _ _ (Sound.unpainted width)

/-! ### Reading the map -/

/-- The runs between the starts of a map. -/
def runsOf : List (UInt64 × Slot Item) → Runs Item
  | (first, slot) :: (next, later) :: rest =>
    (next.toNat - first.toNat, slot) :: runsOf ((next, later) :: rest)
  | _ => []

theorem gap_eq_paddingOf (padding : UInt64) :
    (gap padding : List (Element Item)) = paddingOf padding.toNat := by
  unfold gap paddingOf
  rw [UInt64.ofNat_toNat]
  congr 1
  exact propext (UInt64.toNat_inj (b := 0)).symm

/-- The elements read off a map are those of its runs, as long as the bytes to count fit in a
word. -/
theorem elements_eq_ok {padding : UInt64} {entries : List (UInt64 × Slot Item)}
    (ascending : entries.Pairwise fun earlier later => earlier.1 < later.1)
    (fits : padding.toNat + (runsOf entries).bytes.length < UInt64.size) :
    elements padding entries = .ok (Layout.elements padding.toNat (runsOf entries)) := by
  induction entries generalizing padding with
  | nil => exact congrArg Except.ok (gap_eq_paddingOf padding)
  | cons entry others inductionHypothesis =>
    obtain ⟨first, slot⟩ := entry
    cases others with
    | nil => exact congrArg Except.ok (gap_eq_paddingOf padding)
    | cons nextEntry rest =>
      obtain ⟨next, later⟩ := nextEntry
      obtain ⟨firstLeast, othersAscending⟩ := List.pairwise_cons.mp ascending
      have below : first ≤ next := UInt64.le_of_lt (firstLeast _ List.mem_cons_self)
      obtain ⟨length, measured, exact⟩ := exists_checkedDifference below
      rw [runsOf, Runs.bytes_cons, List.length_append, List.length_replicate] at fits
      rw [elements, measured, runsOf]
      cases slot with
      | unclaimed =>
        have small : padding.toNat + length.toNat < UInt64.size := by omega
        obtain ⟨sum, found, total⟩ := exists_checkedSum small
        rw [exact] at total
        have read := inductionHypothesis othersAscending (by rw [total]; omega)
        show (checkedSum padding length >>= fun sum => elements sum ((next, later) :: rest)) = _
        rw [found, Layout.elements, ← total]
        exact read
      | claimed => exact inductionHypothesis othersAscending (by omega)
      | start item =>
        have small : (0 : UInt64).toNat + (runsOf ((next, later) :: rest)).bytes.length <
            UInt64.size := by
          rw [UInt64.toNat_zero]
          omega
        rw [inductionHypothesis othersAscending small, Layout.elements, ← gap_eq_paddingOf]
        rfl

/-- The state of a byte by ascending starts: that of the last one up to it. -/
def slotIn (entries : List (UInt64 × Slot Item)) (byte : Nat) : Slot Item :=
  ((entries.findRev? fun entry => entry.1.toNat ≤ byte).map (·.2)).getD .unclaimed

theorem slotAt_eq_slotIn (starts : Starts Item) (byte : UInt64) :
    starts.slotAt byte = slotIn starts.entries byte.toNat := by
  simp only [slotAt, AddressMap.floor?, slotIn, UInt64.le_iff_toNat_le]

/-- The first run holds a byte before all others. -/
theorem slotIn_of_before {first : UInt64 × Slot Item} {others : List (UInt64 × Slot Item)}
    {byte : Nat} (inside : first.1.toNat ≤ byte)
    (before : ∀ other ∈ others, byte < other.1.toNat) :
    slotIn (first :: others) byte = first.2 := by
  have none : others.findRev? (fun entry => entry.1.toNat ≤ byte) = none := by
    rw [List.findRev?_eq_find?_reverse, List.find?_eq_none]
    intro other member below
    have above := before other (List.mem_reverse.mp member)
    exact Nat.not_le.mpr above (of_decide_eq_true below)
  rw [slotIn, List.findRev?, none]
  simp [inside]

/-- The first run does not hold a byte that a later one has reached. -/
theorem slotIn_of_reached {first other : UInt64 × Slot Item}
    {others : List (UInt64 × Slot Item)} {byte : Nat} (member : other ∈ others)
    (reached : other.1.toNat ≤ byte) : slotIn (first :: others) byte = slotIn others byte := by
  cases found : others.findRev? fun entry => entry.1.toNat ≤ byte with
  | none =>
    rw [List.findRev?_eq_find?_reverse, List.find?_eq_none] at found
    exact (found other (List.mem_reverse.mpr member) (decide_eq_true reached)).elim
  | some entry => rw [slotIn, slotIn, List.findRev?, found]

/-- The runs of a map stand for the states of the bytes between its first start and its last. -/
theorem bytes_runsOf {first final : UInt64 × Slot Item} {others : List (UInt64 × Slot Item)}
    (ascending : (first :: others).Pairwise fun earlier later => earlier.1 < later.1)
    (isFinal : (first :: others).getLast? = some final) :
    (runsOf (first :: others)).bytes =
      (List.range' first.1.toNat (final.1.toNat - first.1.toNat)).map
        (slotIn (first :: others)) := by
  induction others generalizing first with
  | nil =>
    cases isFinal
    simp [runsOf]
  | cons next rest inductionHypothesis =>
    obtain ⟨firstLeast, othersAscending⟩ := List.pairwise_cons.mp ascending
    rw [List.getLast?_cons_cons] at isFinal
    have low : first.1.toNat < next.1.toNat :=
      UInt64.lt_iff_toNat_lt.mp (firstLeast next List.mem_cons_self)
    have high : ∀ other ∈ next :: rest, next.1.toNat ≤ other.1.toNat := by
      refine List.forall_mem_cons.mpr ⟨Nat.le_refl _, fun other member => ?_⟩
      have less := (List.pairwise_cons.mp othersAscending).1 other member
      exact Nat.le_of_lt (UInt64.lt_iff_toNat_lt.mp less)
    have finalHigh := high final (List.mem_of_getLast? isFinal)
    rw [range'_eq_append (Nat.le_of_lt low) finalHigh, List.map_append, runsOf, Runs.bytes_cons,
      inductionHypothesis othersAscending isFinal]
    congr 1
    · refine (List.eq_replicate_iff.mpr ⟨by simp, fun slot isSlot => ?_⟩).symm
      obtain ⟨byte, member, rfl⟩ := List.mem_map.mp isSlot
      have bounds := List.mem_range'_1.mp member
      refine slotIn_of_before bounds.1 fun other isOther => ?_
      have above := high other isOther
      omega
    · refine List.map_congr_left fun byte member => ?_
      have bounds := List.mem_range'_1.mp member
      exact (slotIn_of_reached List.mem_cons_self bounds.1).symm

/-- Where every start of a member is followed at once by another start, the runs that start a
member are one byte wide. -/
theorem oneByteStarts_runsOf {entries : List (UInt64 × Slot Item)}
    (ascending : entries.Pairwise fun earlier later => earlier.1 < later.1)
    (narrow : ∀ entry ∈ entries, ∀ item, entry.2 = .start item →
      ∃ next ∈ entries, next.1.toNat = entry.1.toNat + 1) :
    OneByteStarts (runsOf entries) := by
  induction entries with
  | nil => exact fun _ member => nomatch member
  | cons first others inductionHypothesis =>
    cases others with
    | nil => exact fun _ member => nomatch member
    | cons next rest =>
      obtain ⟨firstLeast, othersAscending⟩ := List.pairwise_cons.mp ascending
      have less : ∀ other ∈ next :: rest, first.1.toNat < other.1.toNat :=
        fun other member => UInt64.lt_iff_toNat_lt.mp (firstLeast other member)
      -- What follows a start stands behind it, so it is not the first of all.
      have behind : ∀ entry ∈ first :: next :: rest, ∀ follower ∈ first :: next :: rest,
          follower.1.toNat = entry.1.toNat + 1 → follower ∈ next :: rest := by
        intro entry isEntry follower isFollower follows
        rcases List.mem_cons.mp isFollower with rfl | there
        · rcases List.mem_cons.mp isEntry with rfl | later
          · omega
          · have past := less entry later
            omega
        · exact there
      refine List.forall_mem_cons.mpr ⟨fun item starting => ?_, ?_⟩
      · obtain ⟨follower, member, follows⟩ := narrow first List.mem_cons_self item starting
        have past := less next List.mem_cons_self
        show next.1.toNat - first.1.toNat = 1
        rcases List.mem_cons.mp (behind _ List.mem_cons_self _ member follows) with rfl | there
        · omega
        · have between := (List.pairwise_cons.mp othersAscending).1 follower there
          rw [UInt64.lt_iff_toNat_lt] at between
          omega
      · refine inductionHypothesis othersAscending fun entry member item starting => ?_
        have isEntry := List.mem_cons_of_mem first member
        obtain ⟨follower, isFollower, follows⟩ := narrow entry isEntry item starting
        exact ⟨follower, behind entry isEntry follower isFollower follows, follows⟩

/-- The runs of a map in order stand for the states of all bytes of the structure. -/
theorem Sound.bytes_runsOf {slots : Nat → Slot Item} (sound : Sound width starts slots) :
    (runsOf starts.entries).bytes = (List.range' 0 width.toNat).map slots := by
  obtain ⟨zeroSlot, atZero⟩ := Option.ne_none_iff_exists'.mp sound.zero
  have zeroMember := AddressMap.get?_eq_some_iff.mp atZero
  have lastMember := AddressMap.get?_eq_some_iff.mp sound.sentinel
  have ascending := starts.ascending
  have within : ∀ entry ∈ starts.entries, entry.1 ≤ width := by
    intro entry member
    have found := AddressMap.get?_eq_some_iff.mpr member
    exact sound.within entry.1 (found ▸ nofun)
  have same : ∀ byte, byte < width.toNat → slotIn starts.entries byte = slots byte := by
    intro byte inside
    have exact : (UInt64.ofNat byte).toNat = byte :=
      UInt64.toNat_ofNat_of_lt' (Nat.lt_trans inside width.toNat_lt)
    have own := sound.slotAt_eq (UInt64.ofNat byte)
      (UInt64.lt_iff_toNat_lt.mpr (exact.symm ▸ inside))
    rwa [slotAt_eq_slotIn, exact] at own
  cases shape : starts.entries with
  | nil =>
    rw [shape] at zeroMember
    cases zeroMember
  | cons first others =>
    rw [shape] at zeroMember lastMember ascending within same
    obtain ⟨final, isFinal⟩ : ∃ final, (first :: others).getLast? = some final :=
      ⟨_, List.getLast?_eq_some_getLast (List.cons_ne_nil _ _)⟩
    have firstZero : first.1.toNat = 0 := by
      rcases List.mem_cons.mp zeroMember with same | later
      · rw [← same]
        rfl
      · have less := UInt64.lt_iff_toNat_lt.mp ((List.pairwise_cons.mp ascending).1 _ later)
        exact absurd less (Nat.not_lt_zero _)
    have finalWidth : final.1.toNat = width.toNat := by
      obtain ⟨front, split⟩ := List.getLast?_eq_some_iff.mp isFinal
      rw [split] at lastMember ascending within
      have past := List.pairwise_append.mp ascending
      rcases List.mem_append.mp lastMember with earlier | isLast
      · have less := past.2.2 _ earlier final List.mem_cons_self
        have below := within final (List.mem_append_right _ List.mem_cons_self)
        exact absurd less (UInt64.not_lt.mpr below)
      · rw [← List.mem_singleton.mp isLast]
    rw [Starts.bytes_runsOf ascending isFinal, firstZero, finalWidth, Nat.sub_zero]
    refine List.map_congr_left fun byte member => same byte ?_
    have bounds := List.mem_range'_1.mp member
    omega

/-- Laying out a structure with words never leaves their range and gives its plan. -/
theorem plan_eq_ok (width : UInt64) (spans : List (Span Item)) :
    plan width spans = .ok (Layout.plan width spans) := by
  obtain ⟨starts, painted, sound⟩ := exists_sound width spans
  have narrow : OneByteStarts (runsOf starts.entries) := by
    refine oneByteStarts_runsOf starts.ascending fun entry member item starting => ?_
    obtain ⟨key, slot⟩ := entry
    obtain ⟨next, follows, mapped⟩ := sound.narrow key item
      (AddressMap.get?_eq_some_iff.mpr (starting ▸ member))
    obtain ⟨nextSlot, found⟩ := Option.ne_none_iff_exists'.mp mapped
    exact ⟨(next, nextSlot), AddressMap.get?_eq_some_iff.mp found, follows⟩
  have bytes := sound.bytes_runsOf
  have fits : (0 : UInt64).toNat + (runsOf starts.entries).bytes.length < UInt64.size := by
    rw [bytes, List.length_map, List.length_range', UInt64.toNat_zero, Nat.zero_add]
    exact width.toNat_lt
  have read := elements_eq_ok starts.ascending fits
  rw [elements_eq_readBytes narrow, bytes] at read
  rw [Layout.plan, elements_eq_readBytes (OneByteStarts.paintSpans width spans),
    bytes_paintSpans, plan, painted]
  exact read

/-- A structure is laid out without leaving the range of the words, with its surviving members by
strictly ascending offset and, in each region before, between and after them, one padding element
for the bytes that no member covers, if there are any. -/
theorem plan_lays_survivors (width : UInt64) (spans : List (Span Item)) :
    ∃ (ordered : List (Span Item)) (elements : List (Element Item)),
      plan width spans = .ok elements ∧ Layout.plan width spans = elements ∧
        ordered.Perm (survivors width spans) ∧
        (ordered.Pairwise fun earlier later => earlier.offset < later.offset) ∧
        Lays width spans 0 ordered elements := by
  obtain ⟨ordered, permuted, ascending⟩ := exists_ascending_survivors width spans
  exact ⟨ordered, _, plan_eq_ok width spans, rfl, permuted, ascending,
    lays_plan permuted ascending⟩

/- The second member starts inside the first one, and the third one is empty but keeps a byte. -/
example : plan 8 [⟨0, 4, "a"⟩, ⟨2, 2, "b"⟩, ⟨6, 0, "c"⟩] =
    .ok [.item "a", .item "b", .padding 2, .item "c", .padding 1] := by
  rfl

end BinaryFacts.Layout.Starts
