/-
This file proves that texts with brackets can be taken apart in one way only. A text is read from
the left and the groups that are open are counted. In a paired text every closing bracket closes a
group of the text and no group is left open; an unbroken text has, besides, no separator outside
of its groups. So a last group begins where what stands before it and what stands inside it are
both paired, and in a row of unbroken parts every separator outside of groups ends a part.
-/

namespace BinaryFacts.Text

/-! ### Open groups -/

/-- Whether a character opens a group. -/
def isOpening (character : Char) : Bool := character ∈ ['(', '[', '\x7b']

/-- Whether a character closes a group. -/
def isClosing (character : Char) : Bool := character ∈ [')', ']', '\x7d']

/-- Whether a character stands between the parts of a row. -/
def isSeparator (character : Char) : Bool := character ∈ [',', ';']

/-- Whether a character is neither a bracket nor a separator. -/
def isPlain (character : Char) : Bool :=
  !isOpening character && !isClosing character && !isSeparator character

/-- The number of groups that are open after one more character. Outside of groups nothing can be
closed, and no character may be one that `stops`. -/
def step? (stops : Char → Bool) : Nat → Char → Option Nat
  | 0, character =>
    if isOpening character then some 1
    else if isClosing character || stops character then none
    else some 0
  | depth + 1, character =>
    if isOpening character then some (depth + 2)
    else if isClosing character then some depth
    else some (depth + 1)

/-- The number of groups that are open after a text. -/
def depthAfter? (stops : Char → Bool) (depth : Nat) (text : List Char) : Option Nat :=
  text.foldlM (step? stops) depth

/-- A text whose brackets belong together. -/
def Paired (text : List Char) : Prop := depthAfter? (fun _ => false) 0 text = some 0

/-- A paired text without separators outside of its groups. -/
def Unbroken (text : List Char) : Prop := depthAfter? isSeparator 0 text = some 0

variable {stops others : Char → Bool} {depth deeper : Nat} {character : Char}
  {text left right inner rest : List Char}

theorem isOpening_of_isClosing (closing : isClosing character = true) :
    isOpening character = false := by
  simp only [isClosing, List.mem_cons, List.not_mem_nil, or_false, decide_eq_true_eq] at closing
  rcases closing with rfl | rfl | rfl <;> rfl

theorem isOpening_of_isSeparator (separator : isSeparator character = true) :
    isOpening character = false := by
  simp only [isSeparator, List.mem_cons, List.not_mem_nil, or_false, decide_eq_true_eq] at separator
  rcases separator with rfl | rfl <;> rfl

theorem step?_of_isOpening (opening : isOpening character = true) :
    step? stops depth character = some (depth + 1) := by
  cases depth <;> simp [step?, opening]

theorem step?_of_isClosing (closing : isClosing character = true) :
    step? stops (depth + 1) character = some depth := by
  simp [step?, isOpening_of_isClosing closing, closing]

theorem step?_of_isPlain (plain : isPlain character = true) :
    step? isSeparator depth character = some depth := by
  simp only [isPlain, Bool.and_eq_true, Bool.not_eq_true'] at plain
  obtain ⟨⟨noOpening, noClosing⟩, noSeparator⟩ := plain
  cases depth <;> simp [step?, noOpening, noClosing, noSeparator]

theorem step?_of_isSeparator (separator : isSeparator character = true) :
    step? isSeparator 0 character = none := by
  simp [step?, isOpening_of_isSeparator separator, separator]

/-- Where separators do not stop the reading, what could be read can be read. -/
theorem step?_of_step?_isSeparator (read : step? isSeparator depth character = some deeper) :
    step? (fun _ => false) depth character = some deeper := by
  cases depth with
  | zero => grind [step?]
  | succ depth => exact read

/-- Inside one more group the same characters can be read, whatever stops outside of groups. -/
theorem step?_succ (read : step? stops depth character = some deeper) :
    step? others (depth + 1) character = some (deeper + 1) := by
  cases depth with
  | zero => grind [step?]
  | succ depth => grind [step?]

@[simp]
theorem depthAfter?_cons :
    depthAfter? stops depth (character :: text) =
      (step? stops depth character).bind (depthAfter? stops · text) := rfl

theorem depthAfter?_append :
    depthAfter? stops depth (left ++ right) =
      (depthAfter? stops depth left).bind (depthAfter? stops · right) :=
  List.foldlM_append

theorem depthAfter?_succ (read : depthAfter? stops depth text = some deeper) :
    depthAfter? others (depth + 1) text = some (deeper + 1) := by
  induction text generalizing depth with
  | nil =>
    cases read
    rfl
  | cons character rest inductionHypothesis =>
    rw [depthAfter?_cons] at read ⊢
    obtain ⟨next, first, further⟩ := Option.bind_eq_some_iff.mp read
    rw [step?_succ first]
    exact inductionHypothesis further

/-! ### Texts that are put together -/

theorem Unbroken.append (leftUnbroken : Unbroken left) (rightUnbroken : Unbroken right) :
    Unbroken (left ++ right) := by
  rw [Unbroken, depthAfter?_append, leftUnbroken]
  exact rightUnbroken

theorem Paired.append (leftPaired : Paired left) (rightPaired : Paired right) :
    Paired (left ++ right) := by
  rw [Paired, depthAfter?_append, leftPaired]
  exact rightPaired

theorem Unbroken.paired (unbroken : Unbroken text) : Paired text := by
  suffices read : ∀ {depth deeper}, depthAfter? isSeparator depth text = some deeper →
      depthAfter? (fun _ => false) depth text = some deeper from read unbroken
  clear unbroken
  induction text with
  | nil => exact id
  | cons character rest inductionHypothesis =>
    intro depth deeper read
    rw [depthAfter?_cons] at read ⊢
    obtain ⟨next, first, further⟩ := Option.bind_eq_some_iff.mp read
    rw [step?_of_step?_isSeparator first]
    exact inductionHypothesis further

/-- A text of plain characters is unbroken. -/
theorem unbroken_of_isPlain (plain : ∀ character ∈ text, isPlain character = true) :
    Unbroken text := by
  induction text with
  | nil => rfl
  | cons character rest inductionHypothesis =>
    rw [Unbroken, depthAfter?_cons, step?_of_isPlain (plain character List.mem_cons_self)]
    exact inductionHypothesis fun other member => plain other (List.mem_cons_of_mem _ member)

/-- An unbroken text goes on with a group. -/
theorem Unbroken.group {opening closing : Char} (unbroken : Unbroken left) (paired : Paired inner)
    (opens : isOpening opening = true) (closes : isClosing closing = true) :
    Unbroken (left ++ opening :: (inner ++ [closing])) := by
  rw [Unbroken, depthAfter?_append, unbroken, Option.bind_some, depthAfter?_cons,
    step?_of_isOpening opens, Option.bind_some, depthAfter?_append, depthAfter?_succ paired,
    Option.bind_some, depthAfter?_cons, step?_of_isClosing closes]
  rfl

/-- A row of paired parts is paired. -/
theorem paired_intercalate {separator : List Char} {parts : List (List Char)}
    (separatorPaired : Paired separator) (partsPaired : ∀ part ∈ parts, Paired part) :
    Paired (separator.intercalate parts) := by
  induction parts with
  | nil => rfl
  | cons part others inductionHypothesis =>
    have first := partsPaired part List.mem_cons_self
    cases others with
    | nil =>
      rw [List.intercalate_singleton]
      exact first
    | cons next further =>
      rw [List.intercalate_cons_cons]
      exact (first.append separatorPaired).append
        (inductionHypothesis fun other member => partsPaired other (List.mem_cons_of_mem _ member))

/-! ### Texts that are taken apart -/

/-- A paired text does not begin inside another one and end outside of it. -/
theorem Paired.not_straddled {opening : Char} (opens : isOpening opening = true)
    (leftPaired : Paired left) (longer : Paired (left ++ opening :: inner))
    (straddling : Paired (inner ++ rest)) : False := by
  rw [Paired, depthAfter?_append, leftPaired, Option.bind_some, depthAfter?_cons,
    step?_of_isOpening opens, Option.bind_some] at longer
  rw [Paired, depthAfter?_append] at straddling
  obtain ⟨deeper, read, -⟩ := Option.bind_eq_some_iff.mp straddling
  rw [depthAfter?_succ read] at longer
  cases longer

/-- What stands before and inside the last group of a text is determined by the text. -/
theorem group_inj {before after : List Char} {opening other closing ending : Char}
    (opens : isOpening opening = true) (otherOpens : isOpening other = true)
    (leftPaired : Paired left) (rightPaired : Paired right) (beforePaired : Paired before)
    (afterPaired : Paired after)
    (same : left ++ opening :: (before ++ [closing]) = right ++ other :: (after ++ [ending])) :
    left = right ∧ before = after := by
  rw [← List.cons_append, ← List.append_assoc, ← List.cons_append, ← List.append_assoc] at same
  replace same := List.append_inj_left' same rfl
  rcases List.append_eq_append_iff.mp same with ⟨between, isRight, isBefore⟩ |
    ⟨between, isLeft, isAfter⟩
  · cases between with
    | nil => exact ⟨by rw [isRight, List.append_nil], (List.cons.inj isBefore).2⟩
    | cons first further =>
      obtain ⟨rfl, inside⟩ := List.cons.inj isBefore
      rw [isRight] at rightPaired
      rw [inside] at beforePaired
      exact (leftPaired.not_straddled opens rightPaired beforePaired).elim
  · cases between with
    | nil => exact ⟨by rw [isLeft, List.append_nil], (List.cons.inj isAfter).2.symm⟩
    | cons first further =>
      obtain ⟨rfl, inside⟩ := List.cons.inj isAfter
      rw [isLeft] at leftPaired
      rw [inside] at afterPaired
      exact (rightPaired.not_straddled otherOpens leftPaired afterPaired).elim

/-- A paired text does not go on after a bracket that closes a group around it. -/
theorem Paired.not_closed {closing : Char} (closes : isClosing closing = true)
    (paired : Paired left) (longer : Paired (left ++ closing :: rest)) : False := by
  have stuck : step? (fun _ => false) 0 closing = none := by
    simp [step?, isOpening_of_isClosing closes, closes]
  rw [Paired, depthAfter?_append, paired, Option.bind_some, depthAfter?_cons, stuck] at longer
  cases longer

/-- A group ends at the first bracket that closes nothing inside of it. -/
theorem Paired.closing_inj {before after : List Char} {closing ending : Char}
    (closes : isClosing closing = true) (ends : isClosing ending = true)
    (leftPaired : Paired left) (rightPaired : Paired right)
    (same : left ++ closing :: before = right ++ ending :: after) :
    left = right ∧ before = after := by
  rcases List.append_eq_append_iff.mp same with ⟨between, isRight, isBefore⟩ |
    ⟨between, isLeft, isAfter⟩
  · cases between with
    | nil => exact ⟨by rw [isRight, List.append_nil], (List.cons.inj isBefore).2⟩
    | cons first further =>
      obtain ⟨rfl, -⟩ := List.cons.inj isBefore
      exact (leftPaired.not_closed closes (isRight ▸ rightPaired)).elim
  · cases between with
    | nil => exact ⟨by rw [isLeft, List.append_nil], (List.cons.inj isAfter).2.symm⟩
    | cons first further =>
      obtain ⟨rfl, -⟩ := List.cons.inj isAfter
      exact (rightPaired.not_closed ends (isLeft ▸ leftPaired)).elim

/-- A text that is empty or begins with a separator. -/
def Stops (text : List Char) : Prop := ∀ character ∈ text.head?, isSeparator character = true

/-- An unbroken text does not go on after a separator. -/
theorem Unbroken.eq_nil_of_stops (unbroken : Unbroken left) (longer : Unbroken (left ++ right))
    (stops : Stops (right ++ rest)) : right = [] := by
  cases right with
  | nil => rfl
  | cons character further =>
    rw [Unbroken, depthAfter?_append, unbroken, Option.bind_some, depthAfter?_cons,
      step?_of_isSeparator (stops character rfl)] at longer
    cases longer

/-- The first part of a row ends at the first separator outside of groups. -/
theorem Unbroken.append_inj {before after : List Char} (leftUnbroken : Unbroken left)
    (rightUnbroken : Unbroken right) (beforeStops : Stops before) (afterStops : Stops after)
    (same : left ++ before = right ++ after) : left = right ∧ before = after := by
  rcases List.append_eq_append_iff.mp same with ⟨between, isRight, isBefore⟩ |
    ⟨between, isLeft, isAfter⟩
  · have nothing := leftUnbroken.eq_nil_of_stops (isRight ▸ rightUnbroken)
      (isBefore ▸ beforeStops)
    rw [isRight, isBefore, nothing]
    exact ⟨(List.append_nil _).symm, rfl⟩
  · have nothing := rightUnbroken.eq_nil_of_stops (isLeft ▸ leftUnbroken) (isAfter ▸ afterStops)
    rw [isLeft, isAfter, nothing]
    exact ⟨List.append_nil _, rfl⟩

/-- What follows the first part of a row. -/
def remainder (separator : List Char) (parts : List (List Char)) : List Char :=
  if parts = [] then [] else separator ++ separator.intercalate parts

theorem intercalate_cons {separator part : List Char} {parts : List (List Char)} :
    separator.intercalate (part :: parts) = part ++ remainder separator parts := by
  cases parts with
  | nil => simp [remainder]
  | cons next further => simp [remainder, List.intercalate_cons_cons]

/-- The parts of a row are determined by its text. -/
theorem intercalate_inj {mark : Char} {further : List Char} {parts others : List (List Char)}
    (separates : isSeparator mark = true)
    (partsUnbroken : ∀ part ∈ parts, Unbroken part ∧ part ≠ [])
    (othersUnbroken : ∀ part ∈ others, Unbroken part ∧ part ≠ [])
    (same : (mark :: further).intercalate parts = (mark :: further).intercalate others) :
    parts = others := by
  have stops : ∀ {row : List (List Char)}, Stops (remainder (mark :: further) row) := by
    intro row character isFirst
    unfold remainder at isFirst
    split at isFirst
    · cases isFirst
    · cases isFirst
      exact separates
  induction parts generalizing others with
  | nil =>
    cases others with
    | nil => rfl
    | cons other rest =>
      rw [intercalate_cons, List.intercalate_nil] at same
      exact absurd (List.append_eq_nil_iff.mp same.symm).1
        (othersUnbroken other List.mem_cons_self).2
  | cons part rest inductionHypothesis =>
    cases others with
    | nil =>
      rw [intercalate_cons, List.intercalate_nil] at same
      exact absurd (List.append_eq_nil_iff.mp same).1 (partsUnbroken part List.mem_cons_self).2
    | cons other more =>
      rw [intercalate_cons, intercalate_cons] at same
      obtain ⟨rfl, sameRest⟩ := (partsUnbroken part List.mem_cons_self).1.append_inj
        (othersUnbroken other List.mem_cons_self).1 stops stops same
      congr 1
      unfold remainder at sameRest
      split at sameRest <;> split at sameRest
      · rename_i isEmpty othersEmpty
        rw [isEmpty, othersEmpty]
      · cases sameRest
      · cases sameRest
      · exact inductionHypothesis
          (fun member isMember => partsUnbroken member (List.mem_cons_of_mem _ isMember))
          (fun member isMember => othersUnbroken member (List.mem_cons_of_mem _ isMember))
          (List.append_cancel_left sameRest)

end BinaryFacts.Text
