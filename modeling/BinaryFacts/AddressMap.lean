/-
This file defines maps over addresses as strictly ascending lists of entries. The order is part
of the type, so two maps with the same values are equal, whatever the order in which they were
built, and walking a map visits its addresses in ascending order.
-/

namespace BinaryFacts

/-- A finite map over addresses, with its entries in strictly ascending order. -/
structure AddressMap (Value : Type) where
  entries : List (UInt64 × Value)
  ascending : entries.Pairwise fun earlier later => earlier.1 < later.1

namespace AddressMap

variable {Value : Type}

/-- The map without entries. -/
def empty : AddressMap Value := ⟨[], .nil⟩

instance : Inhabited (AddressMap Value) := ⟨empty⟩

/-- The number of mapped addresses. -/
def size (map : AddressMap Value) : Nat := map.entries.length

/-- The value at an address. -/
def get? (map : AddressMap Value) (address : UInt64) : Option Value :=
  (map.entries.find? fun entry => entry.1 = address).map (·.2)

/-- The mapped addresses, ascending. -/
def addresses (map : AddressMap Value) : List UInt64 := map.entries.map (·.1)

/-- The values, by ascending address. -/
def values (map : AddressMap Value) : List Value := map.entries.map (·.2)

/-- Put an entry at its place in an ascending list, in the place of one with its address. -/
def insertEntry (address : UInt64) (value : Value) :
    List (UInt64 × Value) → List (UInt64 × Value)
  | [] => [(address, value)]
  | entry :: rest =>
    if address < entry.1 then (address, value) :: entry :: rest
    else if address = entry.1 then (address, value) :: rest
    else entry :: insertEntry address value rest

/-- The addresses after an insertion are the new one and the old ones. -/
theorem mem_insertEntry {address : UInt64} {value : Value} {entries : List (UInt64 × Value)}
    {entry : UInt64 × Value} (member : entry ∈ insertEntry address value entries) :
    entry = (address, value) ∨ entry ∈ entries := by
  induction entries with
  | nil => simpa [insertEntry] using member
  | cons head rest inductionHypothesis =>
    unfold insertEntry at member
    split at member
    · simpa using member
    · split at member
      · rcases List.mem_cons.mp member with new | old
        · exact Or.inl new
        · exact Or.inr (List.mem_cons_of_mem _ old)
      · rcases List.mem_cons.mp member with here | there
        · exact Or.inr (here ▸ List.mem_cons_self)
        · exact (inductionHypothesis there).imp id (List.mem_cons_of_mem _)

/-- An insertion keeps the entries ascending. -/
theorem pairwise_insertEntry (address : UInt64) (value : Value)
    {entries : List (UInt64 × Value)}
    (ascending : entries.Pairwise fun earlier later => earlier.1 < later.1) :
    (insertEntry address value entries).Pairwise fun earlier later => earlier.1 < later.1 := by
  induction entries with
  | nil => simp [insertEntry]
  | cons head rest inductionHypothesis =>
    obtain ⟨headFirst, restAscending⟩ := List.pairwise_cons.mp ascending
    unfold insertEntry
    split
    · rename_i before
      refine List.pairwise_cons.mpr ⟨fun entry member => ?_, ascending⟩
      rcases List.mem_cons.mp member with here | there
      · exact here ▸ before
      · exact UInt64.lt_trans before (headFirst entry there)
    · rename_i notBefore
      split
      · rename_i same
        refine List.pairwise_cons.mpr ⟨fun entry member => ?_, restAscending⟩
        exact same ▸ headFirst entry member
      · rename_i different
        refine List.pairwise_cons.mpr ⟨fun entry member => ?_, inductionHypothesis restAscending⟩
        rcases mem_insertEntry member with new | old
        · subst new
          exact UInt64.lt_of_le_of_ne (UInt64.not_lt.mp notBefore) (Ne.symm different)
        · exact headFirst entry old

/-- Give an address a value; an earlier value of the address is replaced. -/
def insert (map : AddressMap Value) (address : UInt64) (value : Value) : AddressMap Value :=
  ⟨insertEntry address value map.entries, pairwise_insertEntry address value map.ascending⟩

/-- The map without the addresses from `first` up to `last`. -/
def without (map : AddressMap Value) (first last : UInt64) : AddressMap Value :=
  ⟨map.entries.filter fun entry => !(first ≤ entry.1 && entry.1 < last), map.ascending.filter _⟩

/-- The value at an address, or else at the last mapped address below it. -/
def floor? (map : AddressMap Value) (address : UInt64) : Option Value :=
  (map.entries.findRev? fun entry => entry.1 ≤ address).map (·.2)

@[simp] theorem get?_empty (address : UInt64) : (empty : AddressMap Value).get? address = none :=
  rfl

/-- An insertion changes the value at its address and at no other. -/
theorem get?_insert (map : AddressMap Value) (address other : UInt64) (value : Value) :
    (map.insert address value).get? other =
      if other = address then some value else map.get? other := by
  suffices general : ∀ entries : List (UInt64 × Value),
      ((insertEntry address value entries).find? fun entry => entry.1 = other).map (·.2) =
        if other = address then some value
        else (entries.find? fun entry => entry.1 = other).map (·.2) from general map.entries
  intro entries
  induction entries with
  | nil =>
    by_cases same : address = other
    · simp [insertEntry, same]
    · simp [insertEntry, same, Ne.symm same]
  | cons head rest inductionHypothesis =>
    unfold insertEntry
    split
    · by_cases same : address = other
      · simp [same]
      · simp [same, Ne.symm same]
    · split
      · rename_i sameHead
        by_cases same : address = other
        · simp [same]
        · simp [same, Ne.symm same, ← sameHead]
      · rename_i different
        by_cases here : head.1 = other
        · have away : ¬ other = address := fun same => different (same ▸ here.symm)
          simp [here, away]
        · simp [here, inductionHypothesis]

/-- Of ascending entries, only the first has the first address. -/
theorem find?_eq_none_of_lt (address : UInt64) (entries : List (UInt64 × Value))
    (later : ∀ entry ∈ entries, address < entry.1) :
    (entries.find? fun entry => entry.1 = address) = none := by
  refine List.find?_eq_none.mpr fun entry member same => ?_
  have less := later entry member
  rw [of_decide_eq_true same] at less
  exact UInt64.lt_irrefl _ less

/-- Two maps with the same value at every address are the same. -/
theorem eq_of_get?_eq {left right : AddressMap Value}
    (same : ∀ address, left.get? address = right.get? address) : left = right := by
  obtain ⟨leftEntries, leftAscending⟩ := left
  obtain ⟨rightEntries, rightAscending⟩ := right
  suffices equal : leftEntries = rightEntries by
    subst equal
    rfl
  unfold get? at same
  dsimp only at same
  induction leftEntries generalizing rightEntries with
  | nil =>
    cases rightEntries with
    | nil => rfl
    | cons entry rest => simpa using same entry.1
  | cons first rest inductionHypothesis =>
    cases rightEntries with
    | nil => simpa using same first.1
    | cons other others =>
      obtain ⟨firstLeast, restAscending⟩ := List.pairwise_cons.mp leftAscending
      obtain ⟨otherLeast, othersAscending⟩ := List.pairwise_cons.mp rightAscending
      have notLater : ¬ first.1 < other.1 := fun less => by
        have missing := find?_eq_none_of_lt first.1 (other :: others)
          fun entry member => (List.mem_cons.mp member).elim (fun here => here ▸ less)
            fun there => UInt64.lt_trans less (otherLeast entry there)
        have found := same first.1
        rw [missing] at found
        simp at found
      have notEarlier : ¬ other.1 < first.1 := fun less => by
        have missing := find?_eq_none_of_lt other.1 (first :: rest)
          fun entry member => (List.mem_cons.mp member).elim (fun here => here ▸ less)
            fun there => UInt64.lt_trans less (firstLeast entry there)
        have found := same other.1
        rw [missing] at found
        simp at found
      have heads : first.1 = other.1 :=
        UInt64.le_antisymm (UInt64.not_lt.mp notEarlier) (UInt64.not_lt.mp notLater)
      have values : first.2 = other.2 := by simpa [heads] using same other.1
      have tails : rest = others := by
        refine inductionHypothesis restAscending others othersAscending fun address => ?_
        by_cases here : first.1 = address
        · subst here
          rw [find?_eq_none_of_lt _ _ firstLeast, heads, find?_eq_none_of_lt _ _ otherLeast]
        · have there : ¬ other.1 = address := heads ▸ here
          simpa [here, there] using same address
      rw [tails, Prod.ext heads values]

/-- The value at an address is that of its entry. -/
theorem get?_eq_some_iff {map : AddressMap Value} {address : UInt64} {value : Value} :
    map.get? address = some value ↔ (address, value) ∈ map.entries := by
  obtain ⟨entries, ascending⟩ := map
  show (entries.find? fun entry => entry.1 = address).map (·.2) = some value ↔ _
  induction entries with
  | nil => simp
  | cons head rest inductionHypothesis =>
    obtain ⟨headFirst, restAscending⟩ := List.pairwise_cons.mp ascending
    by_cases here : head.1 = address
    · subst here
      have others : (head.1, value) ∉ rest := fun member =>
        UInt64.lt_irrefl head.1 (headFirst (head.1, value) member)
      simp [others, Prod.ext_iff, eq_comm]
    · have apart : (address, value) ≠ head := fun same => here (same ▸ rfl)
      simpa [here, apart] using inductionHypothesis restAscending

/-- Taking addresses out changes nothing at the others. -/
theorem get?_without (map : AddressMap Value) (first last address : UInt64) :
    (map.without first last).get? address =
      if first ≤ address ∧ address < last then none else map.get? address := by
  refine Option.ext fun value => ?_
  rw [get?_eq_some_iff]
  simp only [without, List.mem_filter]
  split
  · rename_i inside
    simp [inside]
  · rename_i outside
    rw [get?_eq_some_iff, and_iff_left]
    simpa only [Bool.not_eq_true', Bool.and_eq_false_imp, decide_eq_true_eq,
      decide_eq_false_iff_not, not_and] using outside

/-- Of ascending entries, the last one up to an address is the greatest one. -/
theorem findRev?_eq_some_iff {entries : List (UInt64 × Value)} {address : UInt64}
    {entry : UInt64 × Value}
    (ascending : entries.Pairwise fun earlier later => earlier.1 < later.1) :
    (entries.findRev? fun entry => entry.1 ≤ address) = some entry ↔
      entry ∈ entries ∧ entry.1 ≤ address ∧
        ∀ other ∈ entries, other.1 ≤ address → other.1 ≤ entry.1 := by
  induction entries generalizing entry with
  | nil => simp [List.findRev?]
  | cons head rest inductionHypothesis =>
    obtain ⟨headFirst, restAscending⟩ := List.pairwise_cons.mp ascending
    cases found : rest.findRev? fun entry => entry.1 ≤ address with
    | some last =>
      obtain ⟨member, below, greatest⟩ := (inductionHypothesis restAscending).mp found
      rw [List.findRev?, found, Option.some.injEq]
      constructor
      · rintro rfl
        have behind := UInt64.le_of_lt (headFirst last member)
        exact ⟨List.mem_cons_of_mem _ member, below,
          List.forall_mem_cons.mpr ⟨fun _ => behind, greatest⟩⟩
      · rintro ⟨isMember, entryBelow, all⟩
        rcases List.mem_cons.mp isMember with rfl | there
        · have atMost := all last (List.mem_cons_of_mem _ member) below
          exact (UInt64.not_lt.mpr atMost (headFirst last member)).elim
        · have inRest := fun other isOther => all other (List.mem_cons_of_mem _ isOther)
          have again := (inductionHypothesis restAscending).mpr ⟨there, entryBelow, inRest⟩
          exact Option.some.inj (found.symm.trans again)
    | none =>
      have noneBelow : ∀ other ∈ rest, ¬ other.1 ≤ address := by
        rw [List.findRev?_eq_find?_reverse, List.find?_eq_none] at found
        intro other member below
        exact found other (List.mem_reverse.mpr member) (decide_eq_true below)
      rw [List.findRev?, found]
      constructor
      · intro isHead
        dsimp only at isHead
        split at isHead
        · rename_i below
          cases isHead
          refine ⟨List.mem_cons_self, of_decide_eq_true below, List.forall_mem_cons.mpr
            ⟨fun _ => UInt64.le_refl _, fun other member otherBelow => ?_⟩⟩
          exact (noneBelow other member otherBelow).elim
        · cases isHead
      · rintro ⟨isMember, entryBelow, all⟩
        rcases List.mem_cons.mp isMember with rfl | there
        · exact if_pos (decide_eq_true entryBelow)
        · exact (noneBelow entry there entryBelow).elim

/-- The value at or below an address is that of the last mapped address up to it. -/
theorem floor?_eq_some_iff {map : AddressMap Value} {address : UInt64} {value : Value} :
    map.floor? address = some value ↔
      ∃ key, map.get? key = some value ∧ key ≤ address ∧
        ∀ other, key < other → other ≤ address → map.get? other = none := by
  rw [floor?, Option.map_eq_some_iff]
  simp only [findRev?_eq_some_iff map.ascending]
  constructor
  · rintro ⟨⟨key, _⟩, ⟨member, below, greatest⟩, rfl⟩
    refine ⟨key, get?_eq_some_iff.mpr member, below, fun other behind otherBelow => ?_⟩
    refine Option.eq_none_iff_forall_ne_some.mpr fun otherValue found => ?_
    have atMost := greatest _ (get?_eq_some_iff.mp found) otherBelow
    exact UInt64.not_lt.mpr atMost behind
  · rintro ⟨key, found, below, none⟩
    have member := get?_eq_some_iff.mp found
    refine ⟨(key, value), ⟨member, below, fun other isOther otherBelow => ?_⟩, rfl⟩
    refine UInt64.not_lt.mp fun behind => ?_
    have missing := none other.1 behind otherBelow
    rw [get?_eq_some_iff.mpr isOther] at missing
    cases missing

/-- There is no value at or below an address exactly if nothing is mapped up to it. -/
theorem floor?_eq_none_iff {map : AddressMap Value} {address : UInt64} :
    map.floor? address = none ↔ ∀ key, key ≤ address → map.get? key = none := by
  rw [floor?, Option.map_eq_none_iff, List.findRev?_eq_find?_reverse, List.find?_eq_none]
  constructor
  · intro above key below
    refine Option.eq_none_iff_forall_ne_some.mpr fun value found => ?_
    exact above _ (List.mem_reverse.mpr (get?_eq_some_iff.mp found)) (decide_eq_true below)
  · intro none entry member below
    have missing := none entry.1 (of_decide_eq_true below)
    rw [get?_eq_some_iff.mpr (List.mem_reverse.mp member)] at missing
    cases missing

end AddressMap

/-- A finite set of addresses, ascending. -/
abbrev AddressSet := AddressMap Unit

namespace AddressSet

/-- Add an address to a set. -/
def add (addresses : AddressSet) (address : UInt64) : AddressSet :=
  AddressMap.insert addresses address ()

/-- The set of the addresses of a list. -/
def ofList (addresses : List UInt64) : AddressSet :=
  addresses.foldl add AddressMap.empty

instance : Membership UInt64 AddressSet where
  mem addresses address := addresses.get? address = some ()

@[simp] theorem notMem_empty (address : UInt64) : address ∉ (AddressMap.empty : AddressSet) :=
  nofun

/-- Adding an address adds no other. -/
@[simp] theorem mem_add (addresses : AddressSet) (address other : UInt64) :
    other ∈ addresses.add address ↔ other = address ∨ other ∈ addresses := by
  show (AddressMap.insert addresses address ()).get? other = some () ↔ _
  rw [AddressMap.get?_insert]
  split
  · rename_i same
    simp [same]
  · rename_i different
    exact (or_iff_right different).symm

/-- Two sets with the same addresses are the same. -/
theorem eq_of_mem_iff {left right : AddressSet}
    (same : ∀ address, address ∈ left ↔ address ∈ right) : left = right := by
  refine AddressMap.eq_of_get?_eq fun address => ?_
  exact Option.ext fun _ => same address

end AddressSet

end BinaryFacts
