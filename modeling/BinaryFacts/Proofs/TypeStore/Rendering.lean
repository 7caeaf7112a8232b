/-
This file proves that the text of a stored type tells what the type means, whatever the type graph
looks like: with types that mention themselves, with ids that have no node and with nesting below
the depth limit.

Where the writing stops depends on the path to a node, so the same type has many texts. `Written`
says what they have in common: an id without a node is written as a question mark and its number,
any other id as its word and its number or as its node over written children. Every such text has
a label of letters in front. Where a number mark follows, the number is the id, and the id fixes
the meaning. Elsewhere the label tells the constructor, and the brackets and separators behind it
tell where the texts of the children begin and end. So two texts that are equal are taken apart
alike, down to the number marks.
-/

import BinaryFacts.Proofs.Descriptor.Spelling
import BinaryFacts.Proofs.TypeStore.Unfolding
import BinaryFacts.TypeStore.Rendering

namespace BinaryFacts

/-! ### The leading part of a text -/

namespace Text

variable {isPart : Char → Bool} {left right before after : List Char}

/-- A text that is empty or begins with a character that is no part of what stands before it. -/
def EndsPart (isPart : Char → Bool) (text : List Char) : Prop :=
  ∀ character ∈ text.head?, isPart character = false

theorem endsPart_cons {character : Char} (ends : isPart character = false) :
    EndsPart isPart (character :: after) := by
  intro first isFirst
  cases isFirst
  exact ends

theorem takeWhile_append_of_endsPart (all : ∀ character ∈ left, isPart character = true)
    (ends : EndsPart isPart before) : (left ++ before).takeWhile isPart = left := by
  rw [List.takeWhile_append_of_pos all]
  cases before with
  | nil => rw [List.takeWhile_nil, List.append_nil]
  | cons character rest =>
    rw [List.takeWhile_cons_of_neg (by rw [ends character rfl]; exact Bool.false_ne_true),
      List.append_nil]

/-- The leading part of a text is determined by the text. -/
theorem leading_inj (leftAll : ∀ character ∈ left, isPart character = true)
    (rightAll : ∀ character ∈ right, isPart character = true)
    (beforeEnds : EndsPart isPart before) (afterEnds : EndsPart isPart after)
    (same : left ++ before = right ++ after) : left = right ∧ before = after := by
  have sameLeading : left = right := by
    rw [← takeWhile_append_of_endsPart leftAll beforeEnds, same,
      takeWhile_append_of_endsPart rightAll afterEnds]
  subst sameLeading
  exact ⟨rfl, List.append_cancel_left same⟩

end Text

/-! ### The text of a node over the texts of its children -/

namespace TypeNode

variable {Child : Type}

/-- Whether the bits of a scalar can be counted in a word. -/
def CountsBits : TypeNode Child → Prop
  | .integer size _ | .float size => size.toNat < 2 ^ 61
  | _ => True

/-- Whether a node is written with its number. -/
def isNumbered : TypeNode Child → Bool
  | .struct _ | .union _ | .typedef _ => true
  | _ => false

/-- The letters with which the text of a node begins. -/
def label : TypeNode Child → List Char
  | .void => ['v', 'o', 'i', 'd']
  | .bool => ['b', 'o', 'o', 'l']
  | .integer _ true => ['i']
  | .integer _ false => ['u']
  | .float _ => ['f']
  | .pointer _ => ['p', 't', 'r']
  | .array _ _ => []
  | .struct _ => ['s', 't', 'r', 'u', 'c', 't']
  | .union _ => ['u', 'n', 'i', 'o', 'n']
  | .enumeration _ => ['e', 'n', 'u', 'm']
  | .typedef _ => ['t', 'y', 'p', 'e', 'd', 'e', 'f']
  | .function _ _ _ => ['f', 'n']
  | .padding _ => ['p', 'a', 'd']

/-- What a function writes between its brackets. -/
def row (parameters : List (List Char)) (variadic : Bool) : List (List Char) :=
  parameters ++ if variadic then [['.', '.', '.']] else []

/-- What an aggregate writes between its braces. -/
def listed (children : List (List Char)) : List Char :=
  if children = [] then [] else ' ' :: ([',', ' '].intercalate children ++ [' '])

/-- What follows the label of a node. -/
def body (id : TypeId) : TypeNode (List Char) → List Char
  | .void | .bool => []
  | .integer size _ | .float size => Nat.toDigits 10 (size.toNat * 8)
  | .padding bytes => '[' :: (Nat.toDigits 10 bytes.toNat ++ [']'])
  | .pointer child | .enumeration child => '(' :: (child ++ [')'])
  | .array child count => '[' :: ((child ++ ';' :: ' ' :: Nat.toDigits 10 count.toNat) ++ [']'])
  | .struct children | .union children =>
    '#' :: (Nat.toDigits 10 id.index ++ ' ' :: '\x7b' :: (listed children ++ ['\x7d']))
  | .typedef child => '#' :: (Nat.toDigits 10 id.index ++ '(' :: (child ++ [')']))
  | .function result parameters variadic =>
    '(' :: ([',', ' '].intercalate (row parameters variadic) ++ ')' :: (" -> ".toList ++ result))

/-- The text of a node over the texts of its children. -/
def spelled (id : TypeId) (node : TypeNode (List Char)) : List Char := node.label ++ node.body id

end TypeNode

namespace TypeStore

open TypeNode

theorem eq_ok_ofList {text : String} {characters : List Char} (same : text.toList = characters) :
    (Except.ok text : Except Fault String) = .ok (String.ofList characters) := by
  rw [← same, String.ofList_toList]

theorem toList_numberMark (id : TypeId) :
    (numberMark id).toList = '#' :: Nat.toDigits 10 id.index := by
  simp [numberMark, toString]

theorem toList_braced (texts : List (List Char)) :
    (braced (texts.map String.ofList)).toList = '\x7b' :: (listed texts ++ ['\x7d']) := by
  cases texts with
  | nil => rfl
  | cons text rest => simp [braced, listed]

theorem mapM_eq_ok_map {child : TypeId → Except Fault String} {text : TypeId → List Char}
    {ids : List TypeId} (written : ∀ id ∈ ids, child id = .ok (String.ofList (text id))) :
    ids.mapM child = .ok ((ids.map text).map String.ofList) := by
  induction ids with
  | nil => rfl
  | cons id rest inductionHypothesis =>
    rw [List.mapM_cons, written id List.mem_cons_self,
      inductionHypothesis fun other member => written other (List.mem_cons_of_mem _ member)]
    rfl

theorem renderBits_eq_ok {size : UInt64} (small : size.toNat < 2 ^ 61) :
    renderBits size = .ok (String.ofList (Nat.toDigits 10 (size.toNat * 8))) := by
  have below : size.toNat * (8 : UInt64).toNat < UInt64.size := by
    show size.toNat * 8 < 2 ^ 64
    omega
  have fits : checkedProduct size 8 = .ok (size * 8) := if_pos below
  have exact : (size * 8).toNat = size.toNat * 8 := toNat_of_checkedProduct fits
  rw [renderBits, fits, ← exact]
  rfl

/-- A node over written children is written. -/
theorem renderNode_eq_ok {id : TypeId} {child : TypeId → Except Fault String}
    {text : TypeId → List Char} {node : TypeNode TypeId} (counts : node.CountsBits)
    (written : ∀ other ∈ node.children, child other = .ok (String.ofList (text other))) :
    renderNode id child node = .ok (String.ofList ((node.map text).spelled id)) := by
  cases node with
  | void | bool => exact eq_ok_ofList (by simp [spelled, label, body, TypeNode.map])
  | integer size signed =>
    rw [renderNode, renderBits_eq_ok counts]
    cases signed <;> exact eq_ok_ofList (by simp [spelled, label, body, TypeNode.map])
  | float size =>
    rw [renderNode, renderBits_eq_ok counts]
    exact eq_ok_ofList (by simp [spelled, label, body, TypeNode.map])
  | padding bytes =>
    exact eq_ok_ofList (by simp [spelled, label, body, TypeNode.map, toString])
  | pointer element | array element | enumeration element | typedef element =>
    rw [renderNode, written element (List.mem_singleton.mpr rfl)]
    exact eq_ok_ofList
      (by simp [spelled, label, body, TypeNode.map, toString, toList_numberMark])
  | struct elements | union elements =>
    rw [renderNode, show elements.mapM child = _ from mapM_eq_ok_map written]
    refine eq_ok_ofList ?_
    simp only [String.toList_append, toList_numberMark, toList_braced]
    simp [spelled, label, body, TypeNode.map]
  | function result parameters variadic =>
    rw [renderNode, written result List.mem_cons_self,
      mapM_eq_ok_map fun other member => written other (List.mem_cons_of_mem _ member)]
    refine eq_ok_ofList ?_
    cases variadic <;>
      simp [spelled, label, body, row, TypeNode.map, Function.comp_def]

end TypeStore

/-! ### Labels and number marks -/

namespace TypeNode

variable {Child : Type} {id other : TypeId} {node left right : TypeNode (List Char)}

/-- Whether a character can stand in a label. -/
def isLabelling (character : Char) : Bool :=
  !character.isDigit && !character ∈ ['#', '(', '[']

theorem isLabelling_of_mem_word (node : TypeNode Child) :
    ∀ character ∈ node.word.toList, isLabelling character = true := by
  refine List.all_eq_true.mp ?_
  unfold word
  split <;> rfl

theorem isLabelling_of_mem_label (node : TypeNode Child) :
    ∀ character ∈ node.label, isLabelling character = true := by
  refine List.all_eq_true.mp ?_
  unfold label
  split <;> rfl

theorem isDigit_of_mem_head?_toDigits {number : Nat} {character : Char}
    (isFirst : character ∈ (Nat.toDigits 10 number).head?) : character.isDigit = true :=
  Nat.isDigit_of_mem_toDigits (by decide) (by decide) (List.mem_of_mem_head? isFirst)

theorem endsPart_toDigits (number : Nat) :
    Text.EndsPart isLabelling (Nat.toDigits 10 number) := by
  intro character isFirst
  simp [isLabelling, isDigit_of_mem_head?_toDigits isFirst]

theorem endsPart_body (id : TypeId) (node : TypeNode (List Char)) :
    Text.EndsPart isLabelling (node.body id) := by
  cases node with
  | void | bool => nofun
  | integer | float => exact endsPart_toDigits _
  | padding | pointer | array | struct | union | enumeration | typedef | function =>
    exact Text.endsPart_cons rfl

/-- Equal texts have equal labels and equal bodies. -/
theorem label_eq_of_spelled_eq (same : left.spelled id = right.spelled other) :
    left.label = right.label ∧ left.body id = right.body other :=
  Text.leading_inj (isLabelling_of_mem_label left) (isLabelling_of_mem_label right)
    (endsPart_body id left) (endsPart_body other right) same

/-- A text with a number mark behind its label. -/
def Numbered (number : Nat) (text : List Char) : Prop :=
  ∃ letters rest, text = letters ++ '#' :: (Nat.toDigits 10 number ++ rest) ∧
    (∀ character ∈ letters, isLabelling character = true) ∧ Text.EndsPart Char.isDigit rest

theorem Numbered.number_eq {number another : Nat} {text : List Char}
    (numbered : Numbered number text) (alike : Numbered another text) : number = another := by
  obtain ⟨letters, rest, rfl, labelling, ends⟩ := numbered
  obtain ⟨others, further, same, othersLabelling, furtherEnds⟩ := alike
  have behind := (Text.leading_inj labelling othersLabelling (Text.endsPart_cons rfl)
    (Text.endsPart_cons rfl) same).2
  have digits : ∀ number : Nat, ∀ character ∈ Nat.toDigits 10 number, character.isDigit = true :=
    fun _ _ => Nat.isDigit_of_mem_toDigits (by decide) (by decide)
  exact Descriptor.toDigits_inj
    (Text.leading_inj (digits _) (digits _) ends furtherEnds (List.cons.inj behind).2).1

theorem numbered_spelled (numbered : node.isNumbered = true) :
    Numbered id.index (node.spelled id) := by
  cases node with
  | struct | union | typedef =>
    exact ⟨_, _, rfl, isLabelling_of_mem_label _, Text.endsPart_cons rfl⟩
  | void | bool | integer | float | pointer | array | enumeration | function | padding =>
    cases numbered

theorem head?_body_ne (unnumbered : node.isNumbered = false) : (node.body id).head? ≠ some '#' := by
  cases node with
  | struct | union | typedef => cases unnumbered
  | void | bool => nofun
  | integer | float =>
    intro isFirst
    exact absurd (isDigit_of_mem_head?_toDigits isFirst) (by decide)
  | padding | pointer | array | enumeration | function => nofun

theorem not_numbered_spelled {number : Nat} (unnumbered : node.isNumbered = false) :
    ¬ Numbered number (node.spelled id) := by
  rintro ⟨letters, rest, same, labelling, -⟩
  have behind := (Text.leading_inj (isLabelling_of_mem_label node) labelling
    (endsPart_body id node) (Text.endsPart_cons rfl) same).2
  exact head?_body_ne unnumbered (congrArg List.head? behind)

/-! ### Bodies taken apart -/

/-- A text that can be told from its neighbours in a row and from the mark of a variadic
function. -/
structure Readable (text : List Char) : Prop where
  unbroken : Text.Unbroken text
  begins : ∃ first ∈ text.head?, first ≠ '.'

theorem Readable.ne_nil {text : List Char} (readable : Readable text) : text ≠ [] := by
  rintro rfl
  obtain ⟨first, isFirst, -⟩ := readable.begins
  cases isFirst

theorem unbroken_toDigits (number : Nat) : Text.Unbroken (Nat.toDigits 10 number) :=
  (Descriptor.ordinary_toDigits number).unbroken

theorem unbroken_group {opening closing : Char} {inner : List Char} (paired : Text.Paired inner)
    (opens : Text.isOpening opening = true) (closes : Text.isClosing closing = true) :
    Text.Unbroken (opening :: (inner ++ [closing])) := by
  have nothing : Text.Unbroken [] := rfl
  exact nothing.group paired opens closes

theorem unbroken_mem_row {parameters : List (List Char)} {variadic : Bool}
    (readable : ∀ parameter ∈ parameters, Readable parameter) :
    ∀ part ∈ row parameters variadic, Text.Unbroken part ∧ part ≠ [] := by
  intro part isPart
  rcases List.mem_append.mp isPart with isParameter | isMark
  · exact ⟨(readable part isParameter).unbroken, (readable part isParameter).ne_nil⟩
  · split at isMark
    · rw [List.mem_singleton.mp isMark]
      exact ⟨rfl, List.cons_ne_nil _ _⟩
    · cases isMark

theorem paired_row {parameters : List (List Char)} {variadic : Bool}
    (readable : ∀ parameter ∈ parameters, Readable parameter) :
    Text.Paired ([',', ' '].intercalate (row parameters variadic)) :=
  Text.paired_intercalate rfl fun part isPart => (unbroken_mem_row readable part isPart).1.paired

theorem paired_listed {children : List (List Char)}
    (readable : ∀ child ∈ children, Readable child) :
    Text.Paired (listed children) := by
  unfold listed
  split
  · rfl
  · exact Descriptor.paired_spaced
      (Text.paired_intercalate rfl fun child isChild => (readable child isChild).unbroken.paired)

theorem paired_counted {child : List Char} (readable : Readable child) (count : Nat) :
    Text.Paired (child ++ ';' :: ' ' :: Nat.toDigits 10 count) := by
  have separator : Text.Paired [';', ' '] := rfl
  exact readable.unbroken.paired.append (separator.append (unbroken_toDigits count).paired)

/-- What stands behind a number mark is unbroken with it. -/
theorem unbroken_marked {text : List Char} (number : Nat) (unbroken : Text.Unbroken text) :
    Text.Unbroken ('#' :: (Nat.toDigits 10 number ++ text)) := by
  have mark : Text.Unbroken ['#'] := rfl
  exact mark.append ((unbroken_toDigits number).append unbroken)

theorem unbroken_label (node : TypeNode Child) : Text.Unbroken node.label := by
  unfold label
  split <;> rfl

theorem unbroken_body (readable : ∀ child ∈ node.children, Readable child) :
    Text.Unbroken (node.body id) := by
  cases node with
  | void | bool => rfl
  | integer | float => exact unbroken_toDigits _
  | padding bytes => exact unbroken_group (unbroken_toDigits _).paired rfl rfl
  | pointer child | enumeration child =>
    exact unbroken_group (readable child (List.mem_singleton.mpr rfl)).unbroken.paired rfl rfl
  | array child count =>
    exact unbroken_group (paired_counted (readable child (List.mem_singleton.mpr rfl)) _) rfl rfl
  | struct children | union children =>
    have space : Text.Unbroken [' '] := rfl
    exact unbroken_marked _ (space.append (unbroken_group (paired_listed readable) rfl rfl))
  | typedef child =>
    exact unbroken_marked _
      (unbroken_group (readable child (List.mem_singleton.mpr rfl)).unbroken.paired rfl rfl)
  | function result parameters variadic =>
    have group : Text.Unbroken
        ('(' :: ([',', ' '].intercalate (row parameters variadic) ++ [')'])) :=
      unbroken_group (paired_row fun parameter isParameter =>
        readable parameter (List.mem_cons_of_mem _ isParameter)) rfl rfl
    have arrow : Text.Unbroken " -> ".toList := rfl
    have whole := group.append (arrow.append (readable result List.mem_cons_self).unbroken)
    rwa [List.cons_append, List.append_assoc] at whole

/-- The text of a node over readable texts is readable. -/
theorem readable_spelled (readable : ∀ child ∈ node.children, Readable child) :
    Readable (node.spelled id) where
  unbroken := (unbroken_label node).append (unbroken_body readable)
  begins := by
    cases node with
    | integer size signed => cases signed <;> exact ⟨_, rfl, by decide⟩
    | void | bool | float | pointer | array | struct | union | enumeration | typedef | function
    | padding => exact ⟨_, rfl, by decide⟩

theorem toDigits_uint64_inj {number other : UInt64}
    (same : Nat.toDigits 10 number.toNat = Nat.toDigits 10 other.toNat) : number = other :=
  UInt64.toNat_inj.mp (Descriptor.toDigits_inj same)

theorem toDigits_bits_inj {size other : UInt64}
    (same : Nat.toDigits 10 (size.toNat * 8) = Nat.toDigits 10 (other.toNat * 8)) :
    size = other := by
  have bits := Descriptor.toDigits_inj same
  exact UInt64.toNat_inj.mp (by omega)

theorem group_inj {opening closing : Char} {inner others : List Char}
    (same : opening :: (inner ++ [closing]) = opening :: (others ++ [closing])) : inner = others :=
  List.append_cancel_right (List.cons.inj same).2

theorem counted_inj {child another : List Char} {count others : UInt64} (readable : Readable child)
    (anotherReadable : Readable another)
    (same : child ++ ';' :: ' ' :: Nat.toDigits 10 count.toNat =
      another ++ ';' :: ' ' :: Nat.toDigits 10 others.toNat) :
    child = another ∧ count = others := by
  have stops : ∀ tail : List Char, Text.Stops (';' :: tail) := by
    intro tail first isFirst
    cases isFirst
    rfl
  obtain ⟨sameChild, sameCount⟩ :=
    readable.unbroken.append_inj anotherReadable.unbroken (stops _) (stops _) same
  exact ⟨sameChild, toDigits_uint64_inj (List.cons.inj (List.cons.inj sameCount).2).2⟩

/-- No parameter reads as the mark of a variadic function. -/
theorem row_inj {parameters others : List (List Char)} {variadic another : Bool}
    (readable : ∀ parameter ∈ parameters, Readable parameter)
    (othersReadable : ∀ parameter ∈ others, Readable parameter)
    (same : row parameters variadic = row others another) :
    parameters = others ∧ variadic = another := by
  have noMark : ∀ {row : List (List Char)}, (∀ part ∈ row, Readable part) →
      ∀ {before}, row ≠ before ++ [['.', '.', '.']] := by
    rintro row rowReadable before rfl
    obtain ⟨first, isFirst, noDot⟩ := (rowReadable _ List.mem_concat_self).begins
    cases isFirst
    exact noDot rfl
  cases variadic <;> cases another <;> simp only [row] at same
  · exact ⟨by simpa using same, rfl⟩
  · exact absurd (by simpa using same) (noMark readable)
  · exact absurd (by simpa using same.symm) (noMark othersReadable)
  · exact ⟨by simpa using same, rfl⟩

/-- The row of a function ends where its bracket is closed. -/
theorem function_body_inj {result another : List Char} {parameters others : List (List Char)}
    {variadic alike : Bool} (readable : ∀ parameter ∈ parameters, Readable parameter)
    (othersReadable : ∀ parameter ∈ others, Readable parameter)
    (same : body id (.function result parameters variadic) =
      body other (.function another others alike)) :
    result = another ∧ parameters = others ∧ variadic = alike := by
  obtain ⟨sameRow, sameRest⟩ := Text.Paired.closing_inj rfl rfl (paired_row readable)
    (paired_row othersReadable) (List.cons.inj same).2
  have sameParts := Text.intercalate_inj rfl (unbroken_mem_row readable)
    (unbroken_mem_row othersReadable) sameRow
  exact ⟨List.append_cancel_left sameRest, row_inj readable othersReadable sameParts⟩

/-- Of a node without a number the text tells everything. -/
theorem spelled_inj (unnumbered : left.isNumbered = false)
    (readable : ∀ child ∈ left.children, Readable child)
    (othersReadable : ∀ child ∈ right.children, Readable child)
    (same : left.spelled id = right.spelled other) : left = right := by
  obtain ⟨sameLabel, sameBody⟩ := label_eq_of_spelled_eq same
  -- The labels leave one constructor for the other node; what it is applied to is in the body.
  cases left with
  | struct | union | typedef => cases unnumbered
  | void =>
    cases right with
    | void => rfl
    | integer _ signed => cases signed <;> cases sameLabel
    | _ => cases sameLabel
  | bool =>
    cases right with
    | bool => rfl
    | integer _ signed => cases signed <;> cases sameLabel
    | _ => cases sameLabel
  | integer size signed =>
    cases right with
    | integer another sign =>
      cases signed <;> cases sign <;> cases sameLabel <;> rw [toDigits_bits_inj sameBody]
    | _ => cases signed <;> cases sameLabel
  | float size =>
    cases right with
    | float another => rw [toDigits_bits_inj sameBody]
    | integer _ signed => cases signed <;> cases sameLabel
    | _ => cases sameLabel
  | padding bytes =>
    cases right with
    | padding another => rw [toDigits_uint64_inj (group_inj sameBody)]
    | integer _ signed => cases signed <;> cases sameLabel
    | _ => cases sameLabel
  | pointer child =>
    cases right with
    | pointer another => rw [group_inj sameBody]
    | integer _ signed => cases signed <;> cases sameLabel
    | _ => cases sameLabel
  | enumeration child =>
    cases right with
    | enumeration another => rw [group_inj sameBody]
    | integer _ signed => cases signed <;> cases sameLabel
    | _ => cases sameLabel
  | array child count =>
    cases right with
    | array another others =>
      obtain ⟨rfl, rfl⟩ := counted_inj (readable child (List.mem_singleton.mpr rfl))
        (othersReadable another (List.mem_singleton.mpr rfl)) (group_inj sameBody)
      rfl
    | integer _ signed => cases signed <;> cases sameLabel
    | _ => cases sameLabel
  | function result parameters variadic =>
    cases right with
    | function another others alike =>
      obtain ⟨rfl, rfl, rfl⟩ := function_body_inj
        (fun parameter isParameter => readable parameter (List.mem_cons_of_mem _ isParameter))
        (fun parameter isParameter => othersReadable parameter (List.mem_cons_of_mem _ isParameter))
        sameBody
      rfl
    | integer _ signed => cases signed <;> cases sameLabel
    | _ => cases sameLabel

/-! ### From texts to meanings -/

theorem map_map {First Second Third : Type} (replace : First → Second) (further : Second → Third)
    (node : TypeNode First) : (node.map replace).map further = node.map (further ∘ replace) := by
  cases node <;> simp [TypeNode.map]

/-- Nodes with the same texts below them have the same meanings below them, where equal texts have
equal meanings. -/
theorem map_meaning_eq {Meaning : Type} {first second : TypeNode TypeId}
    {texts others : TypeId → List Char} {meaning : TypeId → Meaning}
    (same : first.map texts = second.map others)
    (tell : ∀ child ∈ first.children, ∀ another ∈ second.children,
      texts child = others another → meaning child = meaning another) :
    first.map meaning = second.map meaning := by
  have sameRow : first.children.map texts = second.children.map others := by
    rw [← children_map, same, children_map]
  -- Each text of the row belongs to children of both nodes, which all have one meaning.
  have told : ∀ text, ∃ value, (∀ child ∈ first.children, texts child = text →
      meaning child = value) ∧ ∀ another ∈ second.children, others another = text →
      meaning another = value := by
    intro text
    by_cases shown : text ∈ first.children.map texts
    · obtain ⟨child, isChild, rfl⟩ := List.mem_map.mp shown
      obtain ⟨another, isAnother, alike⟩ := List.mem_map.mp (sameRow ▸ shown)
      refine ⟨meaning child, fun sibling isSibling equal => ?_, fun sibling isSibling equal => ?_⟩
      · rw [tell sibling isSibling another isAnother (equal.trans alike.symm),
          tell child isChild another isAnother alike.symm]
      · exact (tell child isChild sibling isSibling equal.symm).symm
    · refine ⟨meaning ⟨0⟩, fun sibling isSibling equal => ?_, fun sibling isSibling equal => ?_⟩
      · exact absurd (List.mem_map.mpr ⟨sibling, isSibling, equal⟩) shown
      · exact absurd (List.mem_map.mpr ⟨sibling, isSibling, equal⟩) (sameRow ▸ shown)
  choose decode decodes using told
  calc first.map meaning
      = (first.map texts).map decode := by
        rw [map_map]
        exact map_congr fun child isChild => (decodes _).1 child isChild rfl
    _ = (second.map others).map decode := by rw [same]
    _ = second.map meaning := by
        rw [map_map]
        exact map_congr fun child isChild => ((decodes _).2 child isChild rfl).symm

end TypeNode

namespace TypeStore

open TypeNode

variable {store : TypeStore} {id left right : TypeId} {text : List Char}

/-! ### The texts of stored types -/

/-- Letters with the number of a node. -/
def marked (letters : List Char) (id : TypeId) : List Char :=
  letters ++ '#' :: Nat.toDigits 10 id.index

/-- The ways to write a stored type. -/
inductive Written (store : TypeStore) : TypeId → List Char → Prop
  | dangling {id : TypeId} (absent : store.get? id = none) : Written store id (marked ['?'] id)
  | reference {id : TypeId} {node : TypeNode TypeId} (present : store.get? id = some node) :
      Written store id (marked node.word.toList id)
  | whole {id : TypeId} {node : TypeNode TypeId} {texts : TypeId → List Char}
      (present : store.get? id = some node)
      (written : ∀ child ∈ node.children, Written store child (texts child)) :
      Written store id ((node.map texts).spelled id)

theorem marked_eq_ok (word : String) (id : TypeId) :
    (Except.ok (word ++ numberMark id) : Except Fault String) =
      .ok (String.ofList (marked word.toList id)) :=
  eq_ok_ofList (by rw [String.toList_append, toList_numberMark, marked])

theorem renderWithin_of_absent (absent : store.get? id = none) (remaining : Nat)
    (path : List TypeId) :
    store.renderWithin remaining path id = .ok (String.ofList (marked ['?'] id)) := by
  cases remaining <;> rw [renderWithin, absent] <;> exact marked_eq_ok "?" id

theorem renderWithin_zero {node : TypeNode TypeId} (present : store.get? id = some node)
    (path : List TypeId) :
    store.renderWithin 0 path id = .ok (String.ofList (marked node.word.toList id)) := by
  rw [renderWithin, present]
  exact marked_eq_ok node.word id

theorem renderWithin_succ {node : TypeNode TypeId} (present : store.get? id = some node)
    (remaining : Nat) (path : List TypeId) :
    store.renderWithin (remaining + 1) path id =
      if id ∈ path then .ok (String.ofList (marked node.word.toList id))
      else renderNode id (store.renderWithin remaining (id :: path)) node := by
  rw [renderWithin, present, ← marked_eq_ok]
  rfl

/-- Wherever a type stands, it is written in one of these ways. -/
theorem exists_written (counts : ∀ id node, store.get? id = some node → node.CountsBits)
    (remaining : Nat) (path : List TypeId) (id : TypeId) :
    ∃ text, store.renderWithin remaining path id = .ok (String.ofList text) ∧
      store.Written id text := by
  induction remaining generalizing path id with
  | zero =>
    cases present : store.get? id with
    | none => exact ⟨_, renderWithin_of_absent present _ _, .dangling present⟩
    | some node => exact ⟨_, renderWithin_zero present _, .reference present⟩
  | succ remaining inductionHypothesis =>
    cases present : store.get? id with
    | none => exact ⟨_, renderWithin_of_absent present _ _, .dangling present⟩
    | some node =>
      rw [renderWithin_succ present]
      by_cases entered : id ∈ path
      · exact ⟨_, if_pos entered, .reference present⟩
      · choose texts rendered written using inductionHypothesis (id :: path)
        rw [if_neg entered]
        exact ⟨_, renderNode_eq_ok (counts id node present) fun child _ => rendered child,
          .whole present fun child _ => written child⟩

/-! ### Texts tell meanings -/

theorem numbered_marked {letters : List Char}
    (labelling : ∀ character ∈ letters, isLabelling character = true) :
    Numbered id.index (marked letters id) := by
  refine ⟨letters, [], ?_, labelling, nofun⟩
  rw [List.append_nil, marked]

theorem readable_marked {letters : List Char} (unbroken : Text.Unbroken letters)
    (begins : ∃ first ∈ letters.head?, first ≠ '.') : Readable (marked letters id) where
  unbroken := by
    have mark := unbroken_marked id.index (rfl : Text.Unbroken [])
    rw [List.append_nil] at mark
    exact unbroken.append mark
  begins := by
    obtain ⟨first, isFirst, noDot⟩ := begins
    refine ⟨first, ?_, noDot⟩
    rw [marked, List.head?_append, Option.mem_def.mp isFirst]
    rfl

theorem readable_children {node : TypeNode TypeId} {texts : TypeId → List Char}
    (readable : ∀ child ∈ node.children, Readable (texts child)) :
    ∀ text ∈ (node.map texts).children, Readable text := by
  intro text isText
  rw [children_map] at isText
  obtain ⟨child, isChild, rfl⟩ := List.mem_map.mp isText
  exact readable child isChild

theorem Written.readable (written : store.Written id text) : Readable text := by
  induction written with
  | dangling absent => exact readable_marked rfl ⟨'?', rfl, by decide⟩
  | reference present =>
    refine readable_marked ?_ ?_
    · unfold word
      split <;> rfl
    · unfold word
      split <;> exact ⟨_, rfl, by decide⟩
  | whole present written inductionHypothesis =>
    exact readable_spelled (readable_children inductionHypothesis)

/-- A type is written with its number, or as a node that has none. -/
theorem Written.numbered_or_spelled (written : store.Written id text) :
    Numbered id.index text ∨ ∃ node texts, store.get? id = some node ∧
      (node.map texts).isNumbered = false ∧ text = (node.map texts).spelled id ∧
      ∀ child ∈ node.children, store.Written child (texts child) := by
  cases written with
  | dangling absent => exact Or.inl (numbered_marked (List.all_eq_true.mp rfl))
  | reference present => exact Or.inl (numbered_marked (isLabelling_of_mem_word _))
  | @whole _ node texts present written =>
    cases kind : (node.map texts).isNumbered with
    | true => exact Or.inl (numbered_spelled kind)
    | false => exact Or.inr ⟨node, texts, present, kind, rfl, written⟩

theorem Written.eq_of_numbered (written : store.Written right text)
    (numbered : Numbered left.index text) : left = right := by
  rcases written.numbered_or_spelled with alike | ⟨node, texts, -, unnumbered, rfl, -⟩
  · exact TypeId.ext_index (numbered.number_eq alike)
  · exact (not_numbered_spelled unnumbered numbered).elim

/-- Types that can be written alike mean the same. -/
theorem Written.sameMeaning (leftWritten : store.Written left text)
    (rightWritten : store.Written right text) : SameMeaning store left store right := by
  -- A number mark stands for one id of the store, so only nodes without one need the induction.
  have ofNumbered : ∀ {text} {left right : TypeId}, Numbered left.index text →
      store.Written right text → SameMeaning store left store right := by
    intro text left right numbered written depth
    rw [written.eq_of_numbered numbered]
  induction leftWritten generalizing right with
  | dangling absent => exact ofNumbered (numbered_marked (List.all_eq_true.mp rfl)) rightWritten
  | reference present => exact ofNumbered (numbered_marked (isLabelling_of_mem_word _)) rightWritten
  | @whole left node texts present written inductionHypothesis =>
    cases kind : (node.map texts).isNumbered with
    | true => exact ofNumbered (numbered_spelled kind) rightWritten
    | false =>
      rcases rightWritten.numbered_or_spelled with
        numbered | ⟨another, others, anotherPresent, -, same, othersWritten⟩
      · exact (not_numbered_spelled kind numbered).elim
      · have sameTexts := spelled_inj kind
          (readable_children fun child isChild => (written child isChild).readable)
          (readable_children fun child isChild => (othersWritten child isChild).readable) same
        intro depth
        cases depth with
        | zero => rfl
        | succ depth =>
          rw [unfold, unfold, present, anotherPresent]
          refine congrArg Unfolding.node (map_meaning_eq sameTexts ?_)
          intro child isChild other isOther alike
          exact inductionHypothesis child isChild (alike ▸ othersWritten other isOther) depth

/-- Every type whose scalars can be counted in bits has a text, and types with the same text mean
the same. -/
theorem sameMeaning_of_render_eq (store : TypeStore)
    (counts : ∀ id node, store.get? id = some node → node.CountsBits) (left right : TypeId) :
    ∃ leftText rightText, store.render left = .ok leftText ∧ store.render right = .ok rightText ∧
      (leftText = rightText → SameMeaning store left store right) := by
  obtain ⟨leftText, leftRendered, leftWritten⟩ := exists_written counts renderDepth [] left
  obtain ⟨rightText, rightRendered, rightWritten⟩ := exists_written counts renderDepth [] right
  refine ⟨_, _, leftRendered, rightRendered, fun same => ?_⟩
  rw [String.ofList_injective same] at leftWritten
  exact leftWritten.sameMeaning rightWritten

/-- Two functions over a record that points to itself, with a parameter that has no node. -/
def twinFunctions : TypeStore where
  nodes := #[.struct [⟨1⟩, ⟨2⟩], .integer 4 true, .pointer ⟨0⟩, .pointer ⟨0⟩, .pointer ⟨0⟩,
    .function ⟨3⟩ [⟨4⟩, ⟨9⟩] true, .function ⟨4⟩ [⟨3⟩, ⟨9⟩] true]

theorem countsBits_twinFunctions :
    ∀ id node, twinFunctions.get? id = some node → node.CountsBits := by
  intro id node present
  have isNode := Array.mem_toList_iff.mpr (Array.mem_of_getElem? present)
  simp only [twinFunctions, List.mem_cons, List.not_mem_nil, or_false] at isNode
  rcases isNode with rfl | rfl | rfl | rfl | rfl | rfl | rfl
  · trivial
  · exact (by decide : (4 : UInt64).toNat < 2 ^ 61)
  all_goals trivial

theorem sameMeaning_twinFunctions :
    (∀ id node, twinFunctions.get? id = some node → node.CountsBits) ∧
      twinFunctions.render ⟨5⟩ = .ok ("fn(ptr(struct#0 \x7b i32, ptr(struct#0) \x7d), ?#9, ...)" ++
        " -> ptr(struct#0 \x7b i32, ptr(struct#0) \x7d)") ∧
      SameMeaning twinFunctions ⟨5⟩ twinFunctions ⟨6⟩ := by
  have alike : twinFunctions.render ⟨5⟩ = twinFunctions.render ⟨6⟩ := by cbv
  obtain ⟨leftText, rightText, leftRendered, rightRendered, tell⟩ :=
    sameMeaning_of_render_eq twinFunctions countsBits_twinFunctions ⟨5⟩ ⟨6⟩
  refine ⟨countsBits_twinFunctions, by cbv, tell ?_⟩
  rw [leftRendered, rightRendered] at alike
  exact Except.ok.inj alike

end TypeStore

end BinaryFacts
