/-
This file proves that requests for types without names do not confuse each other where one target
fixes what their keys leave out, and that they do confuse each other elsewhere.

Anonymous aggregates and enumerations are never entered under their keys, since different ones may
share a key. Pointers, arrays and functions over them are entered all the same, under keys that
are spelled from the shared ones, so a request can be answered with the type of an earlier one.
The widths of extended floating-point numbers and the mark of variadic functions are further
places where different types are spelled alike. If everything inside of pointers, arrays and
functions agrees with one ABI, none of this happens: keys determine meanings there, outside of
them no keys are entered, and the answer to a request is the meaning of its descriptor.
-/

import BinaryFacts.Proofs.Descriptor.Spelling
import BinaryFacts.Proofs.Normalization.Failure

namespace BinaryFacts

/-! ### What keys leave out -/

/-- What a target fixes about types although their keys do not spell it. -/
structure Abi where
  /-- The width of enumerations. -/
  enumerationWidth : UInt64
  /-- The width of floating-point numbers of extended precision. -/
  extendedWidth : UInt64
  /-- The width of an anonymous structure or class and the offset and width of each of its members,
  from the keys of the members. -/
  layout : AggregateVariant → List String → UInt64 × List (UInt64 × UInt64)

/-- Where a member lies in its aggregate. -/
def Member.place {Part : Type} (member : Member Part) : UInt64 × UInt64 :=
  (member.offset, member.width)

/-- A descriptor that agrees with an ABI, apart from its parts. A function that is not variadic
must not be spelled like one. -/
def Abi.Fits (abi : Abi) (descriptor : Descriptor) : Prop :=
  match descriptor.kind with
  | .float => descriptor.width ∈ [10, 12, 16] → descriptor.width = abi.extendedWidth
  | .enumeration => descriptor.width = abi.enumerationWidth
  | .function _ parameters variadic =>
    variadic = false → ∀ last ∈ parameters.getLast?, last.key ≠ "..."
  | .aggregate .unionType _ => True
  | .aggregate variant members =>
    (descriptor.width, members.map Member.place) =
      abi.layout variant (members.map (·.type.key))
  | _ => True

/-- A descriptor that agrees with an ABI throughout. -/
def Abi.FitsInside (abi : Abi) (descriptor : Descriptor) : Prop :=
  ∀ inner ∈ descriptor.inside, abi.Fits inner

/-- A descriptor whose pointers, arrays and functions agree with an ABI throughout. -/
def Abi.Governs (abi : Abi) (descriptor : Descriptor) : Prop :=
  ∀ outer ∈ descriptor.inside, outer.shape.isDerived = true → abi.FitsInside outer

namespace Abi

variable {abi : Abi} {descriptor : Descriptor}

theorem fitsInside_iff : abi.FitsInside descriptor ↔
    abi.Fits descriptor ∧ ∀ part ∈ descriptor.kind.parts, abi.FitsInside part := by
  rw [FitsInside, Descriptor.inside_eq, List.forall_mem_cons, List.forall_mem_flatMap]
  rfl

theorem governs_iff : abi.Governs descriptor ↔
    (descriptor.shape.isDerived = true → abi.FitsInside descriptor) ∧
      ∀ part ∈ descriptor.kind.parts, abi.Governs part := by
  rw [Governs, Descriptor.inside_eq, List.forall_mem_cons, List.forall_mem_flatMap]
  rfl

theorem FitsInside.self (fits : abi.FitsInside descriptor) : abi.Fits descriptor :=
  (fitsInside_iff.mp fits).1

theorem FitsInside.part (fits : abi.FitsInside descriptor) {part : Descriptor}
    (isPart : part ∈ descriptor.kind.parts) : abi.FitsInside part :=
  (fitsInside_iff.mp fits).2 part isPart

theorem FitsInside.governs (fits : abi.FitsInside descriptor) : abi.Governs descriptor := by
  induction descriptor using Descriptor.induction_on_parts with
  | step descriptor inductionHypothesis =>
    exact governs_iff.mpr
      ⟨fun _ => fits, fun part isPart => inductionHypothesis part isPart (fits.part isPart)⟩

end Abi

/-! ### The meaning of words -/

namespace Descriptor

variable {abi : Abi} {binary : Binary} {pointerSize : UInt64} {first second : Descriptor}

/-- The tree of a type without parts, below its root. -/
def WordSort.tree (pointerSize width : UInt64) (depth : Nat) : WordSort → Unfolding
  | .nothing => .node .void
  | .truth => .node .bool
  | .integer => .node ((Building.integerNode pointerSize width).map fun _ => .cut)
  | .float => .node (.float width)
  | .enumeration => .node (.enumeration (.leaf (.integer width false) depth))

theorem IsWord.meaning_succ {descriptor : Descriptor} (isWord : descriptor.IsWord) (depth : Nat) :
    binary.meaning pointerSize (depth + 1) descriptor =
      descriptor.wordSort.tree pointerSize descriptor.width depth := by
  cases isWord with
  | void | bool | varArgs | wideChar | value | enumeration => rfl
  | integer built =>
    obtain ⟨key, rfl, -⟩ := of_int_eq_ok built
    exact Binary.meaning_of_opening_leaf rfl _ depth
  | float built =>
    obtain ⟨key, rfl, -⟩ := of_float_eq_ok built
    rfl

theorem IsWord.wordSort_eq_of_key_eq (firstWord : first.IsWord) (secondWord : second.IsWord)
    (same : first.key = second.key) : first.wordSort = second.wordSort := by
  have initial := firstWord.wordSort_eq
  rw [same, secondWord.wordSort_eq] at initial
  exact (Option.some.inj initial).symm

theorem width_eq_of_int_eq_ok {width other : UInt64} {signed otherSigned : Bool}
    (built : int width signed = .ok first) (builtOther : int other otherSigned = .ok second)
    (same : first.key = second.key) : width = other := by
  obtain ⟨key, rfl, spelled⟩ := of_int_eq_ok built
  obtain ⟨otherKey, rfl, otherSpelled⟩ := of_int_eq_ok builtOther
  have texts : key.toList = otherKey.toList := congrArg String.toList same
  rw [spelled, otherSpelled] at texts
  have digits : Nat.toDigits 10 (width.toNat * 8) = Nat.toDigits 10 (other.toNat * 8) := by
    cases signed <;> cases otherSigned <;> simp at texts <;> exact texts
  exact UInt64.toNat_inj.mp (Nat.eq_of_mul_eq_mul_right (by decide) (toDigits_inj digits))

theorem width_eq_of_float_eq_ok {width other : UInt64} (built : float width = .ok first)
    (builtOther : float other = .ok second)
    (extended : width ∈ [10, 12, 16] → other ∈ [10, 12, 16] → width = other)
    (same : first.key = second.key) : width = other := by
  obtain ⟨key, rfl, spelled⟩ := of_float_eq_ok built
  obtain ⟨otherKey, rfl, otherSpelled⟩ := of_float_eq_ok builtOther
  have texts : key.toList = otherKey.toList := congrArg String.toList same
  rcases spelled with ⟨isWidth, spelled⟩ | ⟨isWidth, spelled⟩ | ⟨isWidth, spelled⟩ | spelled <;>
    rcases otherSpelled with ⟨isOther, otherSpelled⟩ | ⟨isOther, otherSpelled⟩ |
      ⟨isOther, otherSpelled⟩ | otherSpelled <;>
    rw [spelled, otherSpelled] at texts <;>
    simp at texts
  -- Different spellings are different texts, so both numbers are spelled in the same way.
  · rw [isWidth, isOther]
  · rw [isWidth, isOther]
  · exact extended isWidth isOther
  · exact UInt64.toNat_inj.mp (Nat.eq_of_mul_eq_mul_right (by decide) (toDigits_inj texts))

theorem IsWord.exists_int {descriptor : Descriptor} (isWord : descriptor.IsWord)
    (isInteger : descriptor.wordSort = .integer) :
    ∃ width signed, int width signed = .ok descriptor := by
  cases isWord with
  | integer built => exact ⟨_, _, built⟩
  | float built =>
    obtain ⟨key, rfl, -⟩ := of_float_eq_ok built
    cases isInteger
  | void | bool | varArgs | wideChar | value | enumeration => cases isInteger

theorem IsWord.exists_float {descriptor : Descriptor} (isWord : descriptor.IsWord)
    (isFloat : descriptor.wordSort = .float) :
    ∃ width, Descriptor.float width = .ok descriptor := by
  cases isWord with
  | float built => exact ⟨_, built⟩
  | integer built =>
    obtain ⟨key, rfl, -⟩ := of_int_eq_ok built
    cases isFloat
  | void | bool | varArgs | wideChar | value | enumeration => cases isFloat

theorem IsWord.exists_enumeration {descriptor : Descriptor} (isWord : descriptor.IsWord)
    (isEnumeration : descriptor.wordSort = .enumeration) :
    ∃ width, descriptor = .enumeration none width := by
  cases isWord with
  | enumeration width => exact ⟨width, rfl⟩
  | integer built =>
    obtain ⟨key, rfl, -⟩ := of_int_eq_ok built
    cases isEnumeration
  | float built =>
    obtain ⟨key, rfl, -⟩ := of_float_eq_ok built
    cases isEnumeration
  | void | bool | varArgs | wideChar | value => cases isEnumeration

/-- The key of a word determines its meaning. -/
theorem IsWord.meaning_eq_of_key_eq (firstWord : first.IsWord) (secondWord : second.IsWord)
    (firstFits : abi.Fits first) (secondFits : abi.Fits second) (same : first.key = second.key)
    (depth : Nat) :
    binary.meaning pointerSize depth first = binary.meaning pointerSize depth second := by
  cases depth with
  | zero => rfl
  | succ depth =>
    have sameSort := firstWord.wordSort_eq_of_key_eq secondWord same
    rw [firstWord.meaning_succ, secondWord.meaning_succ, sameSort]
    cases sort : second.wordSort with
    | nothing | truth => rfl
    | integer =>
      obtain ⟨width, signed, built⟩ := firstWord.exists_int (sameSort.trans sort)
      obtain ⟨other, otherSigned, builtOther⟩ := secondWord.exists_int sort
      obtain rfl := width_eq_of_int_eq_ok built builtOther same
      obtain ⟨key, rfl, -⟩ := of_int_eq_ok built
      obtain ⟨otherKey, rfl, -⟩ := of_int_eq_ok builtOther
      rfl
    | float =>
      obtain ⟨width, built⟩ := firstWord.exists_float (sameSort.trans sort)
      obtain ⟨other, builtOther⟩ := secondWord.exists_float sort
      obtain ⟨key, rfl, -⟩ := of_float_eq_ok built
      obtain ⟨otherKey, rfl, -⟩ := of_float_eq_ok builtOther
      have sameWidth := width_eq_of_float_eq_ok built builtOther
        (fun extended otherExtended => (firstFits extended).trans (secondFits otherExtended).symm)
        same
      rw [sameWidth]
    | enumeration =>
      obtain ⟨width, rfl⟩ := firstWord.exists_enumeration (sameSort.trans sort)
      obtain ⟨other, rfl⟩ := secondWord.exists_enumeration sort
      have sameWidth : width = other := firstFits.trans secondFits.symm
      rw [sameWidth]

/-! ### The meaning of types with parts -/

/-- Forms that become the same over the meanings of their parts mean the same. -/
theorem meaning_eq_of_forms {firstForm secondForm : Form Descriptor}
    (firstOpens : binary.opening pointerSize first = .form firstForm)
    (secondOpens : binary.opening pointerSize second = .form secondForm)
    (same : ∀ depth, firstForm.map (binary.meaning pointerSize depth) =
      secondForm.map (binary.meaning pointerSize depth)) (depth : Nat) :
    binary.meaning pointerSize depth first = binary.meaning pointerSize depth second := by
  cases depth with
  | zero => rfl
  | succ depth =>
    rw [Binary.meaning_of_opening_form firstOpens, Binary.meaning_of_opening_form secondOpens,
      same depth]

/-- What the keys of items determine is the same in rows with the same keys. -/
theorem map_eq_of_map_key_eq {Item Key Value : Type} {key : Item → Key} {value : Item → Value}
    {items others : List Item}
    (determines : ∀ item ∈ items, ∀ other ∈ others, key item = key other →
      value item = value other)
    (same : items.map key = others.map key) : items.map value = others.map value := by
  induction items generalizing others with
  | nil => rw [List.map_eq_nil_iff.mp same.symm]
  | cons item rest inductionHypothesis =>
    cases others with
    | nil => cases same
    | cons other more =>
      obtain ⟨sameKey, sameRest⟩ := List.cons.inj same
      rw [List.map_cons, List.map_cons,
        determines item List.mem_cons_self other List.mem_cons_self sameKey,
        inductionHypothesis (fun member isMember further isFurther =>
          determines member (List.mem_cons_of_mem _ isMember) further
            (List.mem_cons_of_mem _ isFurther)) sameRest]

/-- A function that is not variadic spells parameters only, so the mark of variadic functions can
be told from a parameter. -/
theorem parameterKeys_eq {parameters others : List Descriptor} {variadic otherVariadic : Bool}
    (plain : variadic = false → ∀ last ∈ parameters.getLast?, last.key ≠ "...")
    (otherPlain : otherVariadic = false → ∀ last ∈ others.getLast?, last.key ≠ "...")
    (same : spelledParameters parameters variadic = spelledParameters others otherVariadic) :
    parameters.map (·.key) = others.map (·.key) ∧ variadic = otherVariadic := by
  have marked : ∀ {row more : List Descriptor},
      (∀ last ∈ row.getLast?, last.key ≠ "...") →
        row.map (·.key) ≠ more.map (·.key) ++ ["..."] := by
    intro row more plainRow isMarked
    have last := congrArg List.getLast? isMarked
    rw [List.getLast?_map, List.getLast?_concat] at last
    obtain ⟨parameter, isLast, isMark⟩ := Option.map_eq_some_iff.mp last
    exact plainRow parameter isLast isMark
  cases variadic <;> cases otherVariadic <;>
    simp only [spelledParameters, if_true, Bool.false_eq_true, if_false, List.append_nil] at same
  · exact ⟨same, rfl⟩
  · exact absurd same (marked (plain rfl))
  · exact absurd same.symm (marked (otherPlain rfl))
  · exact ⟨List.append_cancel_right same, rfl⟩

/-- Members of the same places and keys become the same spans over the meanings of their types. -/
theorem spans_eq {members others : List (Member Descriptor)} {meaning : Descriptor → Unfolding}
    (means : ∀ member ∈ members, ∀ other ∈ others, member.type.key = other.type.key →
      meaning member.type = meaning other.type)
    (samePlaces : members.map Member.place = others.map Member.place)
    (sameKeys : members.map (·.type.key) = others.map (·.type.key)) :
    (members.map fun member =>
        (⟨member.offset, member.width, meaning member.type⟩ : Layout.Span Unfolding)) =
      others.map fun member => ⟨member.offset, member.width, meaning member.type⟩ := by
  have both := congr (congrArg List.zip samePlaces) sameKeys
  rw [List.zip_map', List.zip_map'] at both
  refine map_eq_of_map_key_eq (fun member isMember other isOther same => ?_) both
  obtain ⟨samePlace, sameKey⟩ := Prod.mk.inj same
  obtain ⟨sameOffset, sameWidth⟩ := Prod.mk.inj samePlace
  rw [sameOffset, sameWidth, means member isMember other isOther sameKey]

theorem meaning_function_eq {result otherResult : Descriptor} {parameters others : List Descriptor}
    (variadic : Bool) (results : ∀ depth, binary.meaning pointerSize depth result =
      binary.meaning pointerSize depth otherResult)
    (means : ∀ depth, ∀ parameter ∈ parameters, ∀ other ∈ others, parameter.key = other.key →
      binary.meaning pointerSize depth parameter = binary.meaning pointerSize depth other)
    (sameKeys : parameters.map (·.key) = others.map (·.key)) (depth : Nat) :
    binary.meaning pointerSize depth (.function result parameters variadic) =
      binary.meaning pointerSize depth (.function otherResult others variadic) := by
  refine meaning_eq_of_forms rfl rfl (fun depth => ?_) depth
  rw [Form.map, Form.map, results depth, map_eq_of_map_key_eq (means depth) sameKeys]

/-- A union means the row of its members; the layout counts for structures and classes only. -/
theorem meaning_aggregate_eq {variant : AggregateVariant} {width otherWidth : UInt64}
    {members others : List (Member Descriptor)}
    (fits : abi.Fits (.aggregate variant none width members))
    (otherFits : abi.Fits (.aggregate variant none otherWidth others))
    (means : ∀ depth, ∀ member ∈ members, ∀ other ∈ others, member.type.key = other.type.key →
      binary.meaning pointerSize depth member.type = binary.meaning pointerSize depth other.type)
    (sameKeys : members.map (·.type.key) = others.map (·.type.key)) (depth : Nat) :
    binary.meaning pointerSize depth (.aggregate variant none width members) =
      binary.meaning pointerSize depth (.aggregate variant none otherWidth others) := by
  refine meaning_eq_of_forms rfl rfl (fun depth => ?_) depth
  cases variant with
  | unionType =>
    have rows := map_eq_of_map_key_eq (means depth) sameKeys
    simp only [Building.aggregateForm, Form.map, List.map_map]
    exact congrArg Form.union rows
  | structType | classType =>
    simp only [Abi.Fits, Descriptor.aggregate] at fits otherFits
    rw [sameKeys, ← otherFits] at fits
    obtain ⟨rfl, samePlaces⟩ := Prod.mk.inj fits
    simp only [Building.aggregateForm, Form.map, List.map_map]
    exact congrArg (Form.struct _) (spans_eq (means depth) samePlaces sameKeys)

/-- Where an ABI fixes what keys leave out, the key of a type without names determines its
meaning. -/
theorem NameFree.meaning_eq_of_key_eq (firstFree : first.NameFree) :
    ∀ {second : Descriptor}, second.NameFree → abi.FitsInside first → abi.FitsInside second →
      first.key = second.key → ∀ depth,
        binary.meaning pointerSize depth first = binary.meaning pointerSize depth second := by
  induction firstFree with
  | word isWord =>
    intro second secondFree firstFits secondFits same
    have sameShape := (NameFree.word isWord).shape_eq_of_key_eq secondFree same
    rw [isWord.shape_eq] at sameShape
    exact isWord.meaning_eq_of_key_eq (secondFree.isWord sameShape.symm) firstFits.self
      secondFits.self same
  | pointer width targetFree targetMeans =>
    intro second secondFree firstFits secondFits same
    have sameShape := (NameFree.pointer width targetFree).shape_eq_of_key_eq secondFree same
    obtain ⟨other, otherWidth, otherFree, rfl⟩ := secondFree.exists_pointer sameShape.symm
    refine meaning_eq_of_forms rfl rfl fun depth => congrArg Form.pointer ?_
    exact targetMeans otherFree (firstFits.part (List.mem_singleton.mpr rfl))
      (secondFits.part (List.mem_singleton.mpr rfl)) (key_eq_of_key_pointer_eq same) depth
  | @array element descriptor count elementFree built elementMeans =>
    intro second secondFree firstFits secondFits same
    have sameShape := (NameFree.array elementFree built).shape_eq_of_key_eq secondFree same
    rw [shape_of_array_eq_ok built] at sameShape
    obtain ⟨other, others, otherFree, builtOther⟩ := secondFree.exists_array sameShape.symm
    obtain ⟨sameKey, rfl⟩ := key_eq_of_array_eq_ok elementFree otherFree built builtOther same
    obtain ⟨_, key, rfl, -⟩ := of_array_eq_ok built
    obtain ⟨_, otherKey, rfl, -⟩ := of_array_eq_ok builtOther
    refine meaning_eq_of_forms rfl rfl fun depth => congrArg (Form.array · count) ?_
    exact elementMeans otherFree (firstFits.part (List.mem_singleton.mpr rfl))
      (secondFits.part (List.mem_singleton.mpr rfl)) sameKey depth
  | @function result parameters variadic resultFree parametersFree resultMeans parametersMean =>
    intro second secondFree firstFits secondFits same
    have sameShape := (NameFree.function variadic resultFree parametersFree).shape_eq_of_key_eq
      secondFree same
    obtain ⟨otherResult, others, otherVariadic, otherResultFree, othersFree, rfl⟩ :=
      secondFree.exists_function sameShape.symm
    obtain ⟨sameResult, sameSpelled⟩ := key_eq_of_key_function_eq resultFree otherResultFree
      parametersFree othersFree same
    obtain ⟨sameKeys, rfl⟩ := parameterKeys_eq firstFits.self secondFits.self sameSpelled
    refine meaning_function_eq variadic (resultMeans otherResultFree
      (firstFits.part List.mem_cons_self) (secondFits.part List.mem_cons_self) sameResult) ?_
      sameKeys
    intro depth parameter isParameter other isOther sameKey
    exact parametersMean parameter isParameter (othersFree other isOther)
      (firstFits.part (List.mem_cons_of_mem _ isParameter))
      (secondFits.part (List.mem_cons_of_mem _ isOther)) sameKey depth
  | @aggregate variant width members membersFree membersMean =>
    intro second secondFree firstFits secondFits same
    have sameShape := (NameFree.aggregate variant width membersFree).shape_eq_of_key_eq
      secondFree same
    obtain ⟨other, otherWidth, others, othersFree, rfl⟩ :=
      secondFree.exists_aggregate sameShape.symm
    obtain ⟨rfl, sameKeys⟩ := key_eq_of_key_aggregate_eq membersFree othersFree same
    refine meaning_aggregate_eq firstFits.self secondFits.self ?_ sameKeys
    intro depth member isMember other isOther sameKey
    exact membersMean member isMember (othersFree other isOther)
      (firstFits.part (List.mem_map_of_mem isMember))
      (secondFits.part (List.mem_map_of_mem isOther)) sameKey depth

/-! ### Requests for types without names -/

/-- No type without names depends on the binary, and only pointers, arrays and functions are
entered under their keys. -/
theorem NameFree.settled {descriptor : Descriptor} (free : descriptor.NameFree)
    (binary : Binary) :
    binary.successors descriptor = descriptor.kind.parts ∧
      binary.isKeyed descriptor = descriptor.shape.isDerived ∧ ¬ descriptor.IsUnknown := by
  cases free with
  | word isWord =>
    cases isWord with
    | integer built =>
      obtain ⟨key, rfl, -⟩ := of_int_eq_ok built
      exact ⟨rfl, rfl, fun ⟨_, isOther⟩ => by cases isOther⟩
    | float built =>
      obtain ⟨key, rfl, -⟩ := of_float_eq_ok built
      exact ⟨rfl, rfl, fun ⟨_, isOther⟩ => by cases isOther⟩
    | void | bool | varArgs | wideChar | value | enumeration =>
      exact ⟨rfl, rfl, fun ⟨_, isOther⟩ => by cases isOther⟩
  | array elementFree built =>
    obtain ⟨_, key, rfl, -⟩ := of_array_eq_ok built
    exact ⟨rfl, rfl, fun ⟨_, isOther⟩ => by cases isOther⟩
  | pointer | function | aggregate => exact ⟨rfl, rfl, fun ⟨_, isOther⟩ => by cases isOther⟩

end Descriptor

open Descriptor (NameFree)

namespace Binary

theorem isClosed_nameFree (binary : Binary) :
    binary.IsClosed {descriptor | descriptor.NameFree} := by
  intro descriptor free next follows
  rw [(NameFree.settled free binary).1] at follows
  exact NameFree.of_mem_parts free follows

/-- The types without names whose pointers, arrays and functions agree with an ABI. -/
def governed (abi : Abi) : Set Descriptor :=
  {descriptor | descriptor.NameFree ∧ abi.Governs descriptor}

theorem isClosed_governed (binary : Binary) (abi : Abi) : binary.IsClosed (governed abi) := by
  rintro descriptor ⟨free, governs⟩ next follows
  rw [(free.settled binary).1] at follows
  exact ⟨free.of_mem_parts follows, (Abi.governs_iff.mp governs).2 next follows⟩

/-- A keyed type is a pointer, an array or a function, and a type with its key is one as well, so
both agree with the ABI throughout and mean the same. -/
theorem unambiguous_governed (binary : Binary) (pointerSize : UInt64) (abi : Abi) :
    binary.Unambiguous pointerSize (governed abi) := by
  rintro keyed ⟨keyedFree, keyedGoverns⟩ descriptor ⟨free, governs⟩ sameKey isKeyed depth
  rw [(keyedFree.settled binary).2.1] at isKeyed
  have isDerived : descriptor.shape.isDerived = true := by
    rw [← keyedFree.shape_eq_of_key_eq free sameKey]
    exact isKeyed
  exact (keyedFree.meaning_eq_of_key_eq free ((Abi.governs_iff.mp keyedGoverns).1 isKeyed)
    ((Abi.governs_iff.mp governs).1 isDerived) sameKey depth).symm

end Binary

namespace Normalizer

/-- A request for a type without names succeeds, unless the ids run out. -/
theorem normalize_nameFree {descriptor : Descriptor} (free : descriptor.NameFree)
    (binary : Binary) (normalizer : Normalizer) :
    normalizer.RunsOut binary descriptor ∨
      ∃ id after, normalize binary descriptor normalizer = .ok id after := by
  cases ended : normalize binary descriptor normalizer with
  | ok id after => exact Or.inr ⟨id, after, rfl⟩
  | error error after =>
    rcases named_or_full_of_normalize_eq_error ended with
      ⟨unknown, isReached, kind, isOther, -⟩ | ⟨-, runsOut⟩
    · have unknownFree : unknown.NameFree := Binary.closure_subset
        (fun request isRequest => List.mem_singleton.mp isRequest ▸ free)
        binary.isClosed_nameFree isReached
      exact ((unknownFree.settled binary).2.2 ⟨kind, isOther⟩).elim
    · exact Or.inl runsOut

/-- Requests for types without names do not confuse each other where one ABI fixes what their keys
leave out: after a request for the first type, the second is answered with the same type as by a
new normalizer. All that can keep these requests from an answer is that they run out of ids. -/
theorem sameMeaning_of_governs (abi : Abi) (binary : Binary) (pointerSize : UInt64)
    {first second : Descriptor} (firstFree : first.NameFree) (secondFree : second.NameFree)
    (firstGoverned : abi.Governs first) (secondGoverned : abi.Governs second) :
    (new pointerSize).RunsOut binary first ∨
      ∃ firstId afterFirst, normalize binary first (new pointerSize) = .ok firstId afterFirst ∧
        (afterFirst.RunsOut binary second ∨ (new pointerSize).RunsOut binary second ∨
          ∃ secondId afterSecond newId afterNew,
            normalize binary second afterFirst = .ok secondId afterSecond ∧
              normalize binary second (new pointerSize) = .ok newId afterNew ∧
              SameMeaning afterSecond.store secondId afterNew.store newId) := by
  rcases normalize_nameFree firstFree binary (new pointerSize) with
    runsOut | ⟨firstId, afterFirst, firstDone⟩
  · exact Or.inl runsOut
  refine Or.inr ⟨firstId, afterFirst, firstDone, ?_⟩
  rcases normalize_nameFree secondFree binary afterFirst with
    runsOut | ⟨secondId, afterSecond, secondDone⟩
  · exact Or.inl runsOut
  rcases normalize_nameFree secondFree binary (new pointerSize) with
    runsOut | ⟨newId, afterNew, newDone⟩
  · exact Or.inr (Or.inl runsOut)
  refine Or.inr (Or.inr ⟨secondId, afterSecond, newId, afterNew, secondDone, newDone,
    fun depth => ?_⟩)
  have unambiguous := binary.unambiguous_governed pointerSize abi
  have closed := binary.isClosed_governed abi
  have faithfulNew := Faithful.new binary pointerSize (Binary.governed abi)
  have faithful := (Faithful.of_unambiguous unambiguous closed faithfulNew
    ⟨firstFree, firstGoverned⟩ firstDone).1
  have means := (Faithful.of_unambiguous unambiguous closed faithful
    ⟨secondFree, secondGoverned⟩ secondDone).2 depth
  have meansNew := (Faithful.of_unambiguous unambiguous closed faithfulNew
    ⟨secondFree, secondGoverned⟩ newDone).2 depth
  rw [means, meansNew]

/-- A pointer to an anonymous structure of some width that holds a number of four bytes. -/
def numberPointer (width : UInt64) : Descriptor :=
  let number : Descriptor := ⟨.integer true, 4, none, "int32_t"⟩
  .pointer (.aggregate .structType none width [.ofType "number" 0 number]) 8

theorem nameFree_numberPointer (width : UInt64) : (numberPointer width).NameFree := by
  refine .pointer 8 (.aggregate .structType width fun member isMember => ?_)
  rw [List.mem_singleton.mp isMember]
  exact .word (.integer (rfl : Descriptor.int 4 true = .ok _))

/-- An anonymous structure that holds such a pointer and an enumeration. -/
def taggedPointer : Descriptor :=
  .aggregate .structType none 16
    [.ofType "pointer" 0 (numberPointer 4), .ofType "tag" 8 (.enumeration none 2)]

theorem nameFree_taggedPointer : taggedPointer.NameFree := by
  refine .aggregate .structType 16 fun member isMember => ?_
  rcases List.mem_cons.mp isMember with rfl | last
  · exact nameFree_numberPointer 4
  · rw [List.mem_singleton.mp last]
    exact .word (.enumeration 2)

/-- An ABI in which a structure with one member is a number of four bytes. -/
def numberAbi : Abi := ⟨4, 16, fun _ _ => (4, [(0, 4)])⟩

theorem governs_numberPointer : numberAbi.Governs (numberPointer 4) := by
  refine Abi.FitsInside.governs (Abi.fitsInside_iff.mpr ⟨trivial, fun target isTarget => ?_⟩)
  rw [List.mem_singleton.mp isTarget]
  refine Abi.fitsInside_iff.mpr ⟨rfl, fun number isNumber => ?_⟩
  rw [List.mem_singleton.mp isNumber]
  exact Abi.fitsInside_iff.mpr ⟨trivial, by rintro _ ⟨⟩⟩

/-- The enumeration stands outside of pointers, so it need not have the width that the ABI
fixes. -/
theorem governs_taggedPointer : numberAbi.Governs taggedPointer := by
  refine Abi.governs_iff.mpr ⟨(by rintro ⟨⟩), fun member isMember => ?_⟩
  rcases List.mem_cons.mp isMember with rfl | last
  · exact governs_numberPointer
  · rw [List.mem_singleton.mp last]
    exact Abi.governs_iff.mpr ⟨(by rintro ⟨⟩), (by rintro _ ⟨⟩)⟩

/-- After a request for the pointer alone, the structure that holds it is not confused. -/
theorem sameMeaning_taggedPointer :
    (numberPointer 4).NameFree ∧ taggedPointer.NameFree ∧
      numberAbi.Governs (numberPointer 4) ∧ numberAbi.Governs taggedPointer ∧
      ∃ firstId afterFirst secondId afterSecond newId afterNew,
        normalize .linuxAmd64 (numberPointer 4) (new 8) = .ok firstId afterFirst ∧
          normalize .linuxAmd64 taggedPointer afterFirst = .ok secondId afterSecond ∧
          normalize .linuxAmd64 taggedPointer (new 8) = .ok newId afterNew ∧
          SameMeaning afterSecond.store secondId afterNew.store newId := by
  refine ⟨nameFree_numberPointer 4, nameFree_taggedPointer, governs_numberPointer,
    governs_taggedPointer, _, _, _, _, _, _, rfl, rfl, rfl, ?_⟩
  have compares := sameMeaning_of_governs numberAbi .linuxAmd64 8 (nameFree_numberPointer 4)
    nameFree_taggedPointer governs_numberPointer governs_taggedPointer
  obtain ⟨_, ⟨⟩, -⟩ | ⟨_, _, ⟨⟩, ⟨_, ⟨⟩, -⟩ | ⟨_, ⟨⟩, -⟩ | ⟨_, _, _, _, ⟨⟩, ⟨⟩, same⟩⟩ := compares
  exact same

/-- Keys leave out the width of the structure, so a pointer to a wider one is confused with a
pointer to a narrower one that was normalized before. -/
theorem numberPointer_confused :
    (numberPointer 4).NameFree ∧ (numberPointer 8).NameFree ∧
      ∃ firstId afterFirst secondId afterSecond newId afterNew,
        normalize .linuxAmd64 (numberPointer 4) (new 8) = .ok firstId afterFirst ∧
          normalize .linuxAmd64 (numberPointer 8) afterFirst = .ok secondId afterSecond ∧
          normalize .linuxAmd64 (numberPointer 8) (new 8) = .ok newId afterNew ∧
          ¬ SameMeaning afterSecond.store secondId afterNew.store newId := by
  refine ⟨nameFree_numberPointer 4, nameFree_numberPointer 8, _, _, _, _, _, _, rfl, rfl, rfl, ?_⟩
  intro same
  cases same 2

end Normalizer

end BinaryFacts
