/-
This file proves what derived keys tell. The constructors spell the key of a type from the keys of
its parts. For types without names the spelling can be read back: the last character tells
pointers, arrays, functions and anonymous aggregates from words, and the brackets tell where the
keys of the parts are.

Not all of the meaning of a type is spelled. The widths of enumerations and of extended
floating-point numbers and the layout of anonymous structures are left out, and a last parameter
that is the rest of a variable argument list is spelled like the mark of a variadic function. Where
one target fixes what is left out, the key of a type determines its meaning.
-/

import BinaryFacts.Proofs.Descriptor.Parts
import BinaryFacts.Proofs.Text.Brackets

namespace BinaryFacts

namespace Descriptor

/-! ### Types without names -/

/-- The types without parts and without a name. -/
inductive IsWord : Descriptor → Prop
  | void : IsWord .void
  | bool : IsWord .bool
  | varArgs : IsWord .varArgs
  | integer {width : UInt64} {signed : Bool} {descriptor : Descriptor}
      (built : int width signed = .ok descriptor) : IsWord descriptor
  | float {width : UInt64} {descriptor : Descriptor} (built : float width = .ok descriptor) :
      IsWord descriptor
  | wideChar (width : UInt64) : IsWord (.wideChar width)
  | value (width : UInt64) : IsWord (.value width)
  | enumeration (width : UInt64) : IsWord (.enumeration none width)

/-- The types that the constructors build from pieces without names. -/
inductive NameFree : Descriptor → Prop
  | word {descriptor : Descriptor} (isWord : descriptor.IsWord) : NameFree descriptor
  | pointer {target : Descriptor} (width : UInt64) (targetFree : NameFree target) :
      NameFree (.pointer target width)
  | array {element descriptor : Descriptor} {count : UInt64} (elementFree : NameFree element)
      (built : array element count = .ok descriptor) : NameFree descriptor
  | function {result : Descriptor} {parameters : List Descriptor} (variadic : Bool)
      (resultFree : NameFree result)
      (parametersFree : ∀ parameter ∈ parameters, NameFree parameter) :
      NameFree (.function result parameters variadic)
  | aggregate (variant : AggregateVariant) (width : UInt64) {members : List (Member Descriptor)}
      (membersFree : ∀ member ∈ members, NameFree member.type) :
      NameFree (.aggregate variant none width members)

variable {descriptor first second : Descriptor} {width : UInt64}

/-! ### Keys as texts -/

theorem of_int_eq_ok {signed : Bool} (built : int width signed = .ok descriptor) :
    ∃ key, descriptor = ⟨.integer signed, width, none, key⟩ ∧
      key.toList = (if signed then "int" else "uint").toList ++
        (Nat.toDigits 10 (width.toNat * 8) ++ "_t".toList) := by
  unfold int at built
  cases counted : bits width with
  | error fault =>
    rw [counted] at built
    cases built
  | ok count =>
    rw [counted] at built
    cases built
    have exact : count.toNat = width.toNat * 8 := toNat_of_checkedProduct counted
    refine ⟨_, rfl, ?_⟩
    rw [exact]
    cases signed <;> simp [toString]

/-- The four spellings of floating-point numbers. -/
theorem of_float_eq_ok (built : float width = .ok descriptor) :
    ∃ key, descriptor = ⟨.float, width, none, key⟩ ∧
      (width = 4 ∧ key = "float" ∨ width = 8 ∧ key = "double" ∨
        width ∈ [10, 12, 16] ∧ key = "long double" ∨
        key.toList = "float".toList ++ Nat.toDigits 10 (width.toNat * 8)) := by
  unfold float at built
  split at built
  · rename_i isSingle
    cases built
    exact ⟨_, rfl, Or.inl ⟨isSingle, rfl⟩⟩
  · split at built
    · rename_i isDouble
      cases built
      exact ⟨_, rfl, Or.inr (Or.inl ⟨isDouble, rfl⟩)⟩
    · split at built
      · rename_i isExtended
        cases built
        exact ⟨_, rfl, Or.inr (Or.inr (Or.inl ⟨by simpa using isExtended, rfl⟩))⟩
      · cases counted : bits width with
        | error fault =>
          rw [counted] at built
          cases built
        | ok count =>
          rw [counted] at built
          cases built
          have exact : count.toNat = width.toNat * 8 := toNat_of_checkedProduct counted
          refine ⟨_, rfl, Or.inr (Or.inr (Or.inr ?_))⟩
          rw [exact]
          simp [toString]

theorem of_array_eq_ok {element : Descriptor} {count : UInt64}
    (built : array element count = .ok descriptor) :
    ∃ width key, descriptor = ⟨.array element count, width, none, key⟩ ∧
      key.toList = element.key.toList ++ '[' :: (Nat.toDigits 10 count.toNat ++ [']']) := by
  unfold array at built
  cases counted : checkedProduct element.width count with
  | error fault =>
    rw [counted] at built
    cases built
  | ok total =>
    rw [counted] at built
    cases built
    exact ⟨total, _, rfl, by simp [toString]⟩

/-- What a function spells between its brackets. -/
def spelledParameters (parameters : List Descriptor) (variadic : Bool) : List String :=
  parameters.map (·.key) ++ if variadic then ["..."] else []

theorem toList_key_function (result : Descriptor) (parameters : List Descriptor)
    (variadic : Bool) :
    (function result parameters variadic).key.toList = result.key.toList ++
      '(' :: ([',', ' '].intercalate
        ((spelledParameters parameters variadic).map String.toList) ++ [')']) := by
  simp [function, spelledParameters]

theorem toList_key_aggregate (variant : AggregateVariant) (width : UInt64)
    (members : List (Member Descriptor)) :
    (aggregate variant none width members).key.toList = (variant.keyword ++ " ").toList ++
      '\x7b' :: (' ' :: ([';', ' '].intercalate
        ((members.map (·.type.key)).map String.toList) ++ [' ']) ++ ['\x7d']) := by
  simp [aggregate]

/-! ### Parts -/

theorem IsWord.parts_eq_nil (isWord : descriptor.IsWord) : descriptor.kind.parts = [] := by
  cases isWord with
  | integer built =>
    obtain ⟨key, rfl, -⟩ := of_int_eq_ok built
    rfl
  | float built =>
    obtain ⟨key, rfl, -⟩ := of_float_eq_ok built
    rfl
  | void | bool | varArgs | wideChar | value | enumeration => rfl

theorem NameFree.of_mem_parts (free : descriptor.NameFree) {inner : Descriptor}
    (isPart : inner ∈ descriptor.kind.parts) : inner.NameFree := by
  cases free with
  | word isWord =>
    rw [isWord.parts_eq_nil] at isPart
    cases isPart
  | pointer width targetFree => exact List.mem_singleton.mp isPart ▸ targetFree
  | array elementFree built =>
    obtain ⟨_, key, rfl, -⟩ := of_array_eq_ok built
    exact List.mem_singleton.mp isPart ▸ elementFree
  | function variadic resultFree parametersFree =>
    rcases List.mem_cons.mp isPart with rfl | isParameter
    · exact resultFree
    · exact parametersFree inner isParameter
  | aggregate variant width membersFree =>
    obtain ⟨member, isMember, rfl⟩ := List.mem_map.mp isPart
    exact membersFree member isMember

/-! ### Words -/

/-- The characters that no word has: brackets, separators and the star. -/
def specialCharacters : List Char := ['(', '[', '\x7b', ')', ']', '\x7d', ',', ';', '*']

/-- A text without special characters. -/
def Ordinary (text : List Char) : Prop := ∀ character ∈ text, character ∉ specialCharacters

theorem ordinary_of_all {text : List Char}
    (all : text.all (!specialCharacters.contains ·) = true) : Ordinary text := by
  simpa [Ordinary] using all

theorem Ordinary.append {left right : List Char} (leftOrdinary : Ordinary left)
    (rightOrdinary : Ordinary right) : Ordinary (left ++ right) := by
  intro character isMember
  rcases List.mem_append.mp isMember with inLeft | inRight
  · exact leftOrdinary character inLeft
  · exact rightOrdinary character inRight

theorem ordinary_toDigits (number : Nat) : Ordinary (Nat.toDigits 10 number) := by
  have noDigits : specialCharacters.all (!·.isDigit) = true := rfl
  intro character isMember special
  have digit := Nat.isDigit_of_mem_toDigits (by decide) (by decide) isMember
  have noDigit := List.all_eq_true.mp noDigits character special
  rw [digit] at noDigit
  cases noDigit

theorem Ordinary.unbroken {text : List Char} (ordinary : Ordinary text) : Text.Unbroken text := by
  refine Text.unbroken_of_isPlain fun character isMember => ?_
  have notSpecial := ordinary character isMember
  simp only [specialCharacters, List.mem_cons, not_or] at notSpecial
  simp [Text.isPlain, Text.isOpening, Text.isClosing, Text.isSeparator, notSpecial]

theorem IsWord.ordinary (isWord : descriptor.IsWord) : Ordinary descriptor.key.toList := by
  cases isWord with
  | void | bool | varArgs => exact ordinary_of_all rfl
  | wideChar | value | enumeration =>
    simp only [Descriptor.wideChar, Descriptor.value, Descriptor.enumeration]
    exact ordinary_of_all rfl
  | integer built =>
    obtain ⟨key, rfl, spelled⟩ := of_int_eq_ok built
    rw [spelled]
    refine Ordinary.append ?_ ((ordinary_toDigits _).append (ordinary_of_all rfl))
    split <;> exact ordinary_of_all rfl
  | float built =>
    obtain ⟨key, rfl, ⟨-, rfl⟩ | ⟨-, rfl⟩ | ⟨-, rfl⟩ | spelled⟩ := of_float_eq_ok built
    · exact (ordinary_of_all rfl : Ordinary "float".toList)
    · exact (ordinary_of_all rfl : Ordinary "double".toList)
    · exact (ordinary_of_all rfl : Ordinary "long double".toList)
    · rw [spelled]
      exact (ordinary_of_all rfl).append (ordinary_toDigits _)

/-- What the first letter of a word tells about the type. -/
inductive WordSort where
  | nothing
  | truth
  | integer
  | float
  | enumeration

def WordSort.ofInitial (character : Char) : WordSort :=
  if character = 'b' then .truth
  else if character ∈ ['i', 'u'] then .integer
  else if character ∈ ['f', 'd', 'l'] then .float
  else if character = 'e' then .enumeration
  else .nothing

/-- The sort of a type without parts. -/
def wordSort (descriptor : Descriptor) : WordSort :=
  match descriptor.kind with
  | .bool => .truth
  | .integer _ => .integer
  | .float => .float
  | .enumeration => .enumeration
  | _ => .nothing

theorem IsWord.wordSort_eq (isWord : descriptor.IsWord) :
    descriptor.key.toList.head?.map WordSort.ofInitial = some descriptor.wordSort := by
  cases isWord with
  | void | bool | varArgs => rfl
  | wideChar | value | enumeration =>
    simp only [Descriptor.wideChar, Descriptor.value, Descriptor.enumeration]
    rfl
  | integer built =>
    obtain ⟨key, rfl, spelled⟩ := of_int_eq_ok built
    rw [spelled]
    split <;> rfl
  | float built =>
    obtain ⟨key, rfl, ⟨-, rfl⟩ | ⟨-, rfl⟩ | ⟨-, rfl⟩ | spelled⟩ := of_float_eq_ok built
    · exact (rfl : "float".toList.head?.map WordSort.ofInitial = some .float)
    · exact (rfl : "double".toList.head?.map WordSort.ofInitial = some .float)
    · exact (rfl : "long double".toList.head?.map WordSort.ofInitial = some .float)
    · rw [spelled]
      rfl

theorem IsWord.key_ne_nil (isWord : descriptor.IsWord) : descriptor.key.toList ≠ [] := by
  intro empty
  have initial := isWord.wordSort_eq
  rw [empty] at initial
  cases initial

/-! ### Readable keys -/

/-- A key that can be told from its neighbours in a row. -/
def Readable (key : String) : Prop := Text.Unbroken key.toList ∧ key.toList ≠ []

theorem paired_row {separator : Char} {keys : List String}
    (separates : Text.isSeparator separator = true) (readable : ∀ key ∈ keys, Readable key) :
    Text.Paired ([separator, ' '].intercalate (keys.map String.toList)) := by
  have separatorPaired : Text.Paired [separator, ' '] := by
    simp only [Text.isSeparator, List.mem_cons, List.not_mem_nil, or_false, decide_eq_true_eq]
      at separates
    rcases separates with rfl | rfl <;> rfl
  refine Text.paired_intercalate separatorPaired fun text isText => ?_
  obtain ⟨key, isKey, rfl⟩ := List.mem_map.mp isText
  exact (readable key isKey).1.paired

theorem row_inj {separator : Char} {keys others : List String}
    (separates : Text.isSeparator separator = true) (readable : ∀ key ∈ keys, Readable key)
    (othersReadable : ∀ key ∈ others, Readable key)
    (same : [separator, ' '].intercalate (keys.map String.toList) =
      [separator, ' '].intercalate (others.map String.toList)) : keys = others := by
  refine (List.map_inj_right fun _ _ => String.toList_inj.mp).mp
    (Text.intercalate_inj separates ?_ ?_ same)
  · intro text isText
    obtain ⟨key, isKey, rfl⟩ := List.mem_map.mp isText
    exact readable key isKey
  · intro text isText
    obtain ⟨key, isKey, rfl⟩ := List.mem_map.mp isText
    exact othersReadable key isKey

theorem readable_spelledParameters {parameters : List Descriptor}
    (readable : ∀ parameter ∈ parameters, Readable parameter.key) (variadic : Bool) :
    ∀ key ∈ spelledParameters parameters variadic, Readable key := by
  intro key isKey
  rcases List.mem_append.mp isKey with isParameter | isMark
  · obtain ⟨parameter, isMember, rfl⟩ := List.mem_map.mp isParameter
    exact readable parameter isMember
  · split at isMark
    · rw [List.mem_singleton.mp isMark]
      exact ⟨rfl, by decide⟩
    · cases isMark

theorem readable_memberKeys {members : List (Member Descriptor)}
    (readable : ∀ member ∈ members, Readable member.type.key) :
    ∀ key ∈ members.map (·.type.key), Readable key := by
  intro key isKey
  obtain ⟨member, isMember, rfl⟩ := List.mem_map.mp isKey
  exact readable member isMember

theorem unbroken_keyword (variant : AggregateVariant) :
    Text.Unbroken (variant.keyword ++ " ").toList := by
  cases variant <;> rfl

theorem paired_spaced {text : List Char} (paired : Text.Paired text) :
    Text.Paired (' ' :: (text ++ [' '])) := by
  have space : Text.Paired [' '] := rfl
  exact (space.append paired).append space

/-- The keys of types without names are readable. -/
theorem NameFree.readable (free : descriptor.NameFree) : Readable descriptor.key := by
  induction free with
  | word isWord => exact ⟨isWord.ordinary.unbroken, isWord.key_ne_nil⟩
  | pointer width targetFree targetReadable =>
    rw [Readable, Descriptor.pointer, String.toList_append]
    exact ⟨targetReadable.1.append rfl, List.append_ne_nil_of_left_ne_nil targetReadable.2 _⟩
  | array elementFree built elementReadable =>
    obtain ⟨width, key, rfl, spelled⟩ := of_array_eq_ok built
    rw [Readable, spelled]
    exact ⟨elementReadable.1.group (ordinary_toDigits _).unbroken.paired rfl rfl,
      List.append_ne_nil_of_left_ne_nil elementReadable.2 _⟩
  | function variadic resultFree parametersFree resultReadable parametersReadable =>
    rw [Readable, toList_key_function]
    have row := paired_row (rfl : Text.isSeparator ',' = true)
      (readable_spelledParameters parametersReadable variadic)
    exact ⟨resultReadable.1.group row rfl rfl,
      List.append_ne_nil_of_left_ne_nil resultReadable.2 _⟩
  | aggregate variant width membersFree membersReadable =>
    rw [Readable, toList_key_aggregate]
    have row := paired_row (rfl : Text.isSeparator ';' = true)
      (readable_memberKeys membersReadable)
    refine ⟨(unbroken_keyword variant).group (paired_spaced row) rfl rfl, ?_⟩
    cases variant <;> exact List.cons_ne_nil _ _

/-- What the last character of a key tells about the type. -/
inductive Shape where
  | word
  | pointer
  | array
  | function
  | aggregate

/-- Whether a type is a pointer, an array or a function. -/
def Shape.isDerived : Shape → Bool
  | .pointer | .array | .function => true
  | .word | .aggregate => false

def Shape.ofLast (character : Char) : Shape :=
  if character = '*' then .pointer
  else if character = ']' then .array
  else if character = ')' then .function
  else if character = '\x7d' then .aggregate
  else .word

/-- The shape of a type. -/
def shape (descriptor : Descriptor) : Shape :=
  match descriptor.kind with
  | .pointer _ => .pointer
  | .array _ _ => .array
  | .function _ _ _ => .function
  | .aggregate _ _ => .aggregate
  | _ => .word

theorem Shape.ofLast_of_notMem {character : Char} (ordinary : character ∉ specialCharacters) :
    ofLast character = .word := by
  simp only [specialCharacters, List.mem_cons, not_or] at ordinary
  simp [ofLast, ordinary]

theorem IsWord.shape_eq (isWord : descriptor.IsWord) : descriptor.shape = .word := by
  cases isWord with
  | void | bool | varArgs | wideChar | value | enumeration => rfl
  | integer built =>
    obtain ⟨key, rfl, -⟩ := of_int_eq_ok built
    rfl
  | float built =>
    obtain ⟨key, rfl, -⟩ := of_float_eq_ok built
    rfl

theorem shape_of_array_eq_ok {element : Descriptor} {count : UInt64}
    (built : array element count = .ok descriptor) : descriptor.shape = .array := by
  obtain ⟨width, key, rfl, -⟩ := of_array_eq_ok built
  rfl

theorem getLast?_group (left inner : List Char) (opening closing : Char) :
    (left ++ opening :: (inner ++ [closing])).getLast? = some closing := by
  rw [← List.cons_append, ← List.append_assoc]
  exact List.getLast?_concat

/-- The last character of a key tells the types with parts from words and from each other. -/
theorem NameFree.shape_eq (free : descriptor.NameFree) :
    descriptor.key.toList.getLast?.map Shape.ofLast = some descriptor.shape := by
  cases free with
  | word isWord =>
    rw [isWord.shape_eq, List.getLast?_eq_some_getLast isWord.key_ne_nil, Option.map_some,
      Shape.ofLast_of_notMem (isWord.ordinary _ (List.getLast_mem isWord.key_ne_nil))]
  | pointer width targetFree =>
    rw [Descriptor.pointer, String.toList_append, List.getLast?_append]
    rfl
  | array elementFree built =>
    obtain ⟨width, key, rfl, spelled⟩ := of_array_eq_ok built
    rw [spelled, getLast?_group]
    rfl
  | function variadic resultFree parametersFree =>
    rw [toList_key_function, getLast?_group]
    rfl
  | aggregate variant width membersFree =>
    rw [toList_key_aggregate, getLast?_group]
    rfl

theorem NameFree.shape_eq_of_key_eq (firstFree : first.NameFree) (secondFree : second.NameFree)
    (same : first.key = second.key) : first.shape = second.shape := by
  have last := firstFree.shape_eq
  rw [same, secondFree.shape_eq] at last
  exact (Option.some.inj last).symm

theorem NameFree.isWord (free : descriptor.NameFree) (isWord : descriptor.shape = .word) :
    descriptor.IsWord := by
  cases free with
  | word isWord => exact isWord
  | array elementFree built =>
    rw [shape_of_array_eq_ok built] at isWord
    cases isWord
  | pointer | function | aggregate => cases isWord

theorem NameFree.exists_pointer (free : descriptor.NameFree)
    (isPointer : descriptor.shape = .pointer) :
    ∃ target width, target.NameFree ∧ descriptor = .pointer target width := by
  cases free with
  | pointer width targetFree => exact ⟨_, width, targetFree, rfl⟩
  | word isWord =>
    rw [isWord.shape_eq] at isPointer
    cases isPointer
  | array elementFree built =>
    rw [shape_of_array_eq_ok built] at isPointer
    cases isPointer
  | function | aggregate => cases isPointer

theorem NameFree.exists_array (free : descriptor.NameFree)
    (isArray : descriptor.shape = .array) :
    ∃ element count, element.NameFree ∧ Descriptor.array element count = .ok descriptor := by
  cases free with
  | array elementFree built => exact ⟨_, _, elementFree, built⟩
  | word isWord =>
    rw [isWord.shape_eq] at isArray
    cases isArray
  | pointer | function | aggregate => cases isArray

theorem NameFree.exists_function (free : descriptor.NameFree)
    (isFunction : descriptor.shape = .function) :
    ∃ result parameters variadic, result.NameFree ∧
      (∀ parameter ∈ parameters, parameter.NameFree) ∧
      descriptor = .function result parameters variadic := by
  cases free with
  | function variadic resultFree parametersFree =>
    exact ⟨_, _, variadic, resultFree, parametersFree, rfl⟩
  | word isWord =>
    rw [isWord.shape_eq] at isFunction
    cases isFunction
  | array elementFree built =>
    rw [shape_of_array_eq_ok built] at isFunction
    cases isFunction
  | pointer | aggregate => cases isFunction

theorem NameFree.exists_aggregate (free : descriptor.NameFree)
    (isAggregate : descriptor.shape = .aggregate) :
    ∃ variant width members, (∀ member ∈ members, member.type.NameFree) ∧
      descriptor = .aggregate variant none width members := by
  cases free with
  | aggregate variant width membersFree => exact ⟨variant, width, _, membersFree, rfl⟩
  | word isWord =>
    rw [isWord.shape_eq] at isAggregate
    cases isAggregate
  | array elementFree built =>
    rw [shape_of_array_eq_ok built] at isAggregate
    cases isAggregate
  | pointer | function => cases isAggregate

/-! ### Keys taken apart -/

theorem key_eq_of_key_pointer_eq {target other : Descriptor} {otherWidth : UInt64}
    (same : (pointer target width).key = (pointer other otherWidth).key) :
    target.key = other.key := by
  have texts := congrArg String.toList same
  simp only [pointer, String.toList_append] at texts
  exact String.toList_inj.mp (List.append_cancel_right texts)

theorem toDigits_inj {number other : Nat} (same : Nat.toDigits 10 number = Nat.toDigits 10 other) :
    number = other := by
  rw [← Nat.ofDigitChars_toDigits (n := number) (by decide : 1 < 10) (by decide), same,
    Nat.ofDigitChars_toDigits (by decide) (by decide)]

theorem key_eq_of_array_eq_ok {element other : Descriptor} {count others : UInt64}
    (elementFree : element.NameFree) (otherFree : other.NameFree)
    (built : array element count = .ok first) (builtOther : array other others = .ok second)
    (same : first.key = second.key) : element.key = other.key ∧ count = others := by
  obtain ⟨_, key, rfl, spelled⟩ := of_array_eq_ok built
  obtain ⟨_, otherKey, rfl, otherSpelled⟩ := of_array_eq_ok builtOther
  have texts : key.toList = otherKey.toList := congrArg String.toList same
  rw [spelled, otherSpelled] at texts
  obtain ⟨sameElement, sameCount⟩ := Text.group_inj rfl rfl elementFree.readable.1.paired
    otherFree.readable.1.paired (ordinary_toDigits _).unbroken.paired
    (ordinary_toDigits _).unbroken.paired texts
  exact ⟨String.toList_inj.mp sameElement, UInt64.toNat_inj.mp (toDigits_inj sameCount)⟩

theorem key_eq_of_key_function_eq {result otherResult : Descriptor}
    {parameters others : List Descriptor} {variadic otherVariadic : Bool}
    (resultFree : result.NameFree) (otherResultFree : otherResult.NameFree)
    (parametersFree : ∀ parameter ∈ parameters, parameter.NameFree)
    (othersFree : ∀ parameter ∈ others, parameter.NameFree)
    (same : (function result parameters variadic).key =
      (function otherResult others otherVariadic).key) :
    result.key = otherResult.key ∧
      spelledParameters parameters variadic = spelledParameters others otherVariadic := by
  have texts := congrArg String.toList same
  rw [toList_key_function, toList_key_function] at texts
  have readable := readable_spelledParameters
    (fun parameter isMember => (parametersFree parameter isMember).readable) variadic
  have othersReadable := readable_spelledParameters
    (fun parameter isMember => (othersFree parameter isMember).readable) otherVariadic
  have comma : Text.isSeparator ',' = true := rfl
  obtain ⟨sameResult, sameRow⟩ := Text.group_inj rfl rfl resultFree.readable.1.paired
    otherResultFree.readable.1.paired (paired_row comma readable)
    (paired_row comma othersReadable) texts
  exact ⟨String.toList_inj.mp sameResult, row_inj comma readable othersReadable sameRow⟩

theorem keyword_inj {variant other : AggregateVariant}
    (same : (variant.keyword ++ " ").toList = (other.keyword ++ " ").toList) :
    variant = other := by
  revert same
  cases variant <;> cases other <;> decide

theorem key_eq_of_key_aggregate_eq {variant other : AggregateVariant} {otherWidth : UInt64}
    {members others : List (Member Descriptor)}
    (membersFree : ∀ member ∈ members, member.type.NameFree)
    (othersFree : ∀ member ∈ others, member.type.NameFree)
    (same : (aggregate variant none width members).key =
      (aggregate other none otherWidth others).key) :
    variant = other ∧ members.map (·.type.key) = others.map (·.type.key) := by
  have texts := congrArg String.toList same
  rw [toList_key_aggregate, toList_key_aggregate] at texts
  have readable := readable_memberKeys fun member isMember => (membersFree member isMember).readable
  have othersReadable := readable_memberKeys
    fun member isMember => (othersFree member isMember).readable
  have semicolon : Text.isSeparator ';' = true := rfl
  obtain ⟨sameKeyword, sameInner⟩ := Text.group_inj rfl rfl (unbroken_keyword variant).paired
    (unbroken_keyword other).paired (paired_spaced (paired_row semicolon readable))
    (paired_spaced (paired_row semicolon othersReadable)) texts
  have sameRow := List.append_cancel_right (List.cons.inj sameInner).2
  exact ⟨keyword_inj sameKeyword, row_inj semicolon readable othersReadable sameRow⟩

end Descriptor

end BinaryFacts
