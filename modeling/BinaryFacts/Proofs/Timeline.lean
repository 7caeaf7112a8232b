/-
This file proves that the timeline of a function is what a plain recursive reading of its
instructions gives.

`BinaryFunction.sketch` is that reading: for every instruction in order, and for every register in
its low-level tree from left to right, the pointer that the register holds, and then the pointer
variables of the medium-level tree from left to right, with their types not yet normalized. The
trees are read by recursion and not on a stack. A timeline is its sketch with the types normalized
one after the other, and fails where the first of them fails.

The types are those of pointers, which are known by their keys once they are normalized. So the id
of an entry depends on the key of its type alone, in the whole timeline, and only the first type
with a key adds nodes: every later scan that meets the key finds them.
-/

import BinaryFacts.Proofs.Normalization.Permanence

namespace BinaryFacts

/-! ### Atoms on a stack -/

namespace Operand

variable {Operation Atom : Type}

theorem atomsAll_append (left right : List (Operand Operation Atom)) :
    atomsAll (left ++ right) = atomsAll left ++ atomsAll right := by
  rw [atomsAll_eq_flatMap, atomsAll_eq_flatMap, atomsAll_eq_flatMap, List.flatMap_append]

/-- Working off a stack finds the atoms of its operands from left to right, on all levels. -/
theorem gather_eq_filter_atomsAll (wanted : Atom → Bool) (stack : List (Operand Operation Atom)) :
    gather wanted stack = (atomsAll stack).filter wanted := by
  fun_induction gather wanted stack with
  | case1 => rfl
  | case2 stack value isWanted found =>
    rw [found, atomsAll, atoms, List.singleton_append, List.filter_cons_of_pos isWanted]
  | case3 stack value unwanted found =>
    rw [found, atomsAll, atoms, List.singleton_append, List.filter_cons_of_neg unwanted]
  | case4 stack operation operands found =>
    rw [found, atomsAll_append, atomsAll, atoms]
  | case5 stack items found =>
    rw [found, atomsAll_append, atomsAll, atoms]
  | case6 stack value found =>
    rw [found, atomsAll, atoms, List.nil_append]

end Operand

/-! ### The recursive reading -/

/-- An entry of a timeline before types are normalized. -/
inductive Sketch where
  /-- A register holds a pointer with this value. -/
  | value (address : UInt64) (register : String) (held : UInt64)
  /-- A register holds this variable. -/
  | type (address : UInt64) (register : String) (pointer : Variable)

namespace Sketch

/-- The variable whose type is to be normalized. -/
def pointer? : Sketch → Option Variable
  | .value _ _ _ => none
  | .type _ _ pointer => some pointer

/-- The finished entry, with the ids of types given by their keys. -/
def entry (idOf : String → TypeId) : Sketch → TimelineEntry
  | .value address register held => ⟨address, Text.upper register, .value held⟩
  | .type address register pointer =>
    ⟨address, Text.upper register, .type (idOf pointer.type.key)⟩

end Sketch

namespace Instruction

/-- The pointer that a register is known to hold: a constant one or an external one. -/
def sketchValue (instruction : Instruction) (register : String) : List Sketch :=
  match instruction.registerValue register with
  | .constantPointer held | .externalPointer held => [.value instruction.address register held]
  | .undetermined | .entry | .constant _ | .stackFrameOffset _ => []

/-- The pointer variables in registers of the medium-level tree, from left to right, apart from
those in a storage without a name. -/
def sketchTypes (binary : Binary) (instruction : Instruction) : List Sketch :=
  match instruction.medium with
  | none => []
  | some expression =>
    (expression.atoms.filter Variable.isRegisterPointer).filterMap fun pointer =>
      (binary.registerName? pointer.storage).map fun register =>
        .type instruction.address register pointer

/-- The entries of an instruction: for every register of its tree the pointer it holds and the
pointer variables. -/
def sketch (binary : Binary) (instruction : Instruction) : List Sketch :=
  instruction.expression.atoms.flatMap fun register =>
    instruction.sketchValue register ++ instruction.sketchTypes binary

end Instruction

/-- The entries of a function, instruction by instruction. -/
def BinaryFunction.sketch (binary : Binary) (function : BinaryFunction) : List Sketch :=
  function.instructions.flatMap (·.sketch binary)

/-- The variables whose types are normalized, in the order in which they are reached. -/
def BinaryFunction.reached (binary : Binary) (function : BinaryFunction) : List Variable :=
  (function.sketch binary).filterMap Sketch.pointer?

namespace Normalizer

/-! ### A timeline is its sketch with the types normalized -/

/-- Normalize the types of variables one after the other. -/
def normalizeTypes (binary : Binary) (pointers : List Variable) :
    Normalizing NormalizeError (List TypeId) :=
  pointers.mapM fun pointer => normalize binary pointer.type

/-- Finish an entry. -/
def settle (binary : Binary) : Sketch → Normalizing NormalizeError TimelineEntry
  | .value address register held => return ⟨address, Text.upper register, .value held⟩
  | .type address register pointer =>
    return ⟨address, Text.upper register, .type (← normalize binary pointer.type)⟩

theorem mapM_settle_sketchValue (binary : Binary) (instruction : Instruction) (register : String) :
    (instruction.sketchValue register).mapM (settle binary) =
      pure (instruction.valueEntries register) := by
  unfold Instruction.sketchValue Instruction.valueEntries RegisterValue.pointer?
  cases instruction.registerValue register <;> rfl

theorem typeEntries_eq_mapM (binary : Binary) (address : UInt64) (pointers : List Variable) :
    typeEntries binary address pointers =
      (pointers.filterMap fun pointer => (binary.registerName? pointer.storage).map fun register =>
        Sketch.type address register pointer).mapM (settle binary) := by
  induction pointers with
  | nil => rfl
  | cons pointer rest inductionHypothesis =>
    rw [typeEntries, inductionHypothesis, List.filterMap_cons]
    cases binary.registerName? pointer.storage with
    | none => rfl
    | some register => simp [settle]

theorem typeEntries_pointerVariables (binary : Binary) (instruction : Instruction) :
    typeEntries binary instruction.address instruction.pointerVariables =
      (instruction.sketchTypes binary).mapM (settle binary) := by
  unfold Instruction.pointerVariables Instruction.sketchTypes
  cases instruction.medium with
  | none => rfl
  | some expression =>
    dsimp only
    rw [Operand.gather_eq_filter_atomsAll, typeEntries_eq_mapM]
    rfl

theorem operandEntries_eq_mapM (binary : Binary) (instruction : Instruction)
    (registers : List String) :
    operandEntries binary instruction registers =
      (registers.flatMap fun register =>
        instruction.sketchValue register ++ instruction.sketchTypes binary).mapM
          (settle binary) := by
  induction registers with
  | nil => rfl
  | cons register rest inductionHypothesis =>
    rw [operandEntries, inductionHypothesis, typeEntries_pointerVariables, List.flatMap_cons]
    simp [List.mapM_append, mapM_settle_sketchValue]

theorem instructionEntries_eq_mapM (binary : Binary) (instructions : List Instruction) :
    instructionEntries binary instructions =
      (instructions.flatMap (·.sketch binary)).mapM (settle binary) := by
  induction instructions with
  | nil => rfl
  | cons instruction rest inductionHypothesis =>
    have everyRegister : instruction.registerOperands = instruction.expression.atoms := by
      rw [Instruction.registerOperands, Operand.gather_eq_filter_atomsAll, List.filter_true]
      rfl
    rw [instructionEntries, inductionHypothesis, operandEntries_eq_mapM, everyRegister,
      List.flatMap_cons, List.mapM_append]
    rfl

/-- A timeline is its sketch with every entry finished in order. -/
theorem timeline_eq_mapM (binary : Binary) (function : BinaryFunction) :
    timeline binary function = (function.sketch binary).mapM (settle binary) :=
  instructionEntries_eq_mapM binary function.instructions

/-! ### The ids of the types -/

/-- Entries with the ids of their types put in from left to right. -/
def fill : List Sketch → List TypeId → List TimelineEntry
  | .value address register held :: rest, ids =>
    ⟨address, Text.upper register, .value held⟩ :: fill rest ids
  | .type address register _ :: rest, id :: ids =>
    ⟨address, Text.upper register, .type id⟩ :: fill rest ids
  | _, _ => []

/-- Entries are finished by normalizing the types and putting in their ids. -/
theorem mapM_settle_eq (binary : Binary) (sketches : List Sketch) :
    sketches.mapM (settle binary) =
      fill sketches <$> normalizeTypes binary (sketches.filterMap Sketch.pointer?) := by
  induction sketches with
  | nil => simp [normalizeTypes, fill]
  | cons sketch rest inductionHypothesis =>
    rw [List.mapM_cons, inductionHypothesis]
    cases sketch with
    | value address register held => simp [settle, fill, List.filterMap_cons, Sketch.pointer?]
    | type address register pointer => simp [settle, fill, Sketch.pointer?, normalizeTypes]

theorem fill_eq_map (idOf : String → TypeId) (sketches : List Sketch) :
    fill sketches ((sketches.filterMap Sketch.pointer?).map fun pointer =>
      idOf pointer.type.key) = sketches.map (Sketch.entry idOf) := by
  induction sketches with
  | nil => rfl
  | cons sketch rest inductionHypothesis =>
    cases sketch with
    | value address register held => exact congrArg _ inductionHypothesis
    | type address register pointer => exact congrArg _ inductionHypothesis

section Reached

variable {binary : Binary} {function : BinaryFunction} {normalizer after : Normalizer}
  {pointers : List Variable} {ids : List TypeId}

theorem pointer?_of_mem_sketchValue {instruction : Instruction} {register : String}
    {sketch : Sketch} (isValue : sketch ∈ instruction.sketchValue register) :
    sketch.pointer? = none := by
  unfold Instruction.sketchValue at isValue
  cases known : instruction.registerValue register with
  | constantPointer held | externalPointer held =>
    rw [known] at isValue
    cases List.mem_singleton.mp isValue
    rfl
  | undetermined | entry | constant | stackFrameOffset =>
    rw [known] at isValue
    cases isValue

theorem isRegisterPointer_of_mem_sketchTypes {instruction : Instruction} {sketch : Sketch}
    {pointer : Variable} (isType : sketch ∈ instruction.sketchTypes binary)
    (isPointer : sketch.pointer? = some pointer) : pointer.isRegisterPointer = true := by
  unfold Instruction.sketchTypes at isType
  cases present : instruction.medium with
  | none =>
    rw [present] at isType
    cases isType
  | some expression =>
    rw [present] at isType
    obtain ⟨found, isFound, named⟩ := List.mem_filterMap.mp isType
    obtain ⟨name, -, rfl⟩ := Option.map_eq_some_iff.mp named
    cases isPointer
    exact (List.mem_filter.mp isFound).2

/-- Only pointers are reached, and they are known by their keys once they are normalized. -/
theorem isKeyed_of_mem_reached {pointer : Variable}
    (isReached : pointer ∈ function.reached binary) : binary.isKeyed pointer.type = true := by
  obtain ⟨sketch, isSketch, isPointer⟩ := List.mem_filterMap.mp isReached
  obtain ⟨instruction, -, isSketch⟩ := List.mem_flatMap.mp isSketch
  obtain ⟨register, -, isSketch⟩ := List.mem_flatMap.mp isSketch
  rcases List.mem_append.mp isSketch with isValue | isType
  · rw [pointer?_of_mem_sketchValue isValue] at isPointer
    cases isPointer
  · have wanted := isRegisterPointer_of_mem_sketchTypes isType isPointer
    obtain ⟨_, _, _, kind, _, _, _⟩ := pointer
    rw [Variable.isRegisterPointer, Bool.and_eq_true] at wanted
    cases kind with
    | pointer target => rfl
    | void | bool | integer | float | wideChar | varArgs | value | array | function | aggregate
    | enumeration | reference | other => cases wanted.2

theorem retains_normalizeTypes (sound : normalizer.Sound)
    (done : normalizeTypes binary pointers normalizer = .ok ids after) :
    after.Sound ∧ normalizer.Retains after := by
  have keeps : Keeps (fun later => later.Sound ∧ normalizer.Retains later)
      (normalizeTypes binary pointers) :=
    Keeps.mapM fun pointer _ => Retains.keeps_normalize normalizer binary pointer.type
  have holds := keeps normalizer ⟨sound, .refl normalizer⟩
  rw [done] at holds
  exact holds

/-- The types of keyed variables in a row are known from then on by their keys, with the ids that
were given. -/
theorem known?_of_normalizeTypes (sound : normalizer.Sound)
    (keyed : ∀ pointer ∈ pointers, binary.isKeyed pointer.type = true)
    (done : normalizeTypes binary pointers normalizer = .ok ids after) :
    pointers.map (fun pointer => after.known? pointer.type.key) = ids.map some := by
  induction pointers generalizing normalizer ids with
  | nil =>
    cases done
    rfl
  | cons pointer rest inductionHypothesis =>
    obtain ⟨keyedPointer, keyedRest⟩ := List.forall_mem_cons.mp keyed
    rw [normalizeTypes, List.mapM_cons] at done
    obtain ⟨id, middle, doneFirst, done⟩ := bind_eq_ok done
    obtain ⟨others, last, doneRest, done⟩ := bind_eq_ok done
    cases done
    have soundMiddle := sound.of_normalize_eq_ok doneFirst
    have known := known?_of_normalize_eq_ok keyedPointer doneFirst
    rw [List.map_cons, List.map_cons, inductionHypothesis soundMiddle keyedRest doneRest,
      (retains_normalizeTypes soundMiddle doneRest).2.known _ _ known]

/-- The id of the type known by a key; any id where there is none. -/
def idOf (normalizer : Normalizer) (key : String) : TypeId :=
  (normalizer.known? key).getD ⟨0⟩

/-- The types of keyed variables in a row are given the ids that their keys have in the end. -/
theorem idOf_of_normalizeTypes (sound : normalizer.Sound)
    (keyed : ∀ pointer ∈ pointers, binary.isKeyed pointer.type = true)
    (done : normalizeTypes binary pointers normalizer = .ok ids after) :
    (∀ pointer ∈ pointers, after.known? pointer.type.key = some (after.idOf pointer.type.key)) ∧
      ids = pointers.map fun pointer => after.idOf pointer.type.key := by
  have known := known?_of_normalizeTypes sound keyed done
  constructor
  · intro pointer isPointer
    have listed : after.known? pointer.type.key ∈ ids.map some :=
      known ▸ List.mem_map_of_mem isPointer
    obtain ⟨id, -, isKnown⟩ := List.mem_map.mp listed
    rw [idOf, ← isKnown, Option.getD_some]
  · have given := congrArg (List.map fun id => id.getD (⟨0⟩ : TypeId)) known
    simpa [idOf, Function.comp_def] using given.symm

/-- A type whose key was met before is answered at once, and adds nothing. -/
theorem normalize_of_met (sound : normalizer.Sound)
    (keyed : ∀ pointer ∈ pointers, binary.isKeyed pointer.type = true)
    (done : normalizeTypes binary pointers normalizer = .ok ids after) {met again : Variable}
    (isMet : met ∈ pointers) (sameKey : met.type.key = again.type.key) :
    normalize binary again.type after = .ok (after.idOf again.type.key) after := by
  have known := (idOf_of_normalizeTypes sound keyed done).1 met isMet
  rw [sameKey] at known
  exact normalize_of_known known

end Reached

/-! ### Timelines -/

section Timeline

variable {binary : Binary} {function : BinaryFunction} {normalizer after : Normalizer}

/-- A timeline ends as normalizing the types that it reaches does. -/
theorem timeline_eq_map (binary : Binary) (function : BinaryFunction) :
    timeline binary function =
      fill (function.sketch binary) <$> normalizeTypes binary (function.reached binary) := by
  rw [timeline_eq_mapM, mapM_settle_eq]
  rfl

theorem timeline_of_normalizeTypes {ids : List TypeId}
    (done : normalizeTypes binary (function.reached binary) normalizer = .ok ids after) :
    timeline binary function normalizer = .ok (fill (function.sketch binary) ids) after := by
  rw [timeline_eq_map, map_eq_pure_bind]
  exact bind_of_ok _ done

theorem timeline_eq_error_iff {error : NormalizeError} :
    timeline binary function normalizer = .error error after ↔
      normalizeTypes binary (function.reached binary) normalizer = .error error after := by
  rw [timeline_eq_map, map_eq_pure_bind]
  constructor
  · intro failed
    rcases bind_eq_error failed with failedTypes | ⟨ids, middle, -, impossible⟩
    · exact failedTypes
    · cases impossible
  · exact bind_of_error _

/-- A timeline is its recursive reading. If the types of the variables reached are normalized one
after the other, it has the entries of the sketch, and the ids of types are told by their keys
alone. Otherwise it fails with the error of the first type that fails, and keeps what was added
before it. Nothing is added for a type whose key was met before. -/
theorem Reachable.timeline_exact (reachable : normalizer.Reachable) (binary : Binary)
    (function : BinaryFunction) :
    (∀ ids after, normalizeTypes binary (function.reached binary) normalizer = .ok ids after →
        timeline binary function normalizer =
            .ok ((function.sketch binary).map (Sketch.entry after.idOf)) after ∧
          ∀ pointer ∈ function.reached binary,
            after.known? pointer.type.key = some (after.idOf pointer.type.key)) ∧
      (∀ error after, timeline binary function normalizer = .error error after ↔
        ∃ earlier pointer later ids, function.reached binary = earlier ++ pointer :: later ∧
          normalizeTypes binary earlier normalizer = .ok ids after ∧
          normalize binary pointer.type after = .error error after) ∧
      ∀ earlier again later ids middle, function.reached binary = earlier ++ again :: later →
        normalizeTypes binary earlier normalizer = .ok ids middle →
        (∃ met ∈ earlier, met.type.key = again.type.key) →
          normalize binary again.type middle = .ok (middle.idOf again.type.key) middle := by
  have keyed : ∀ pointer ∈ function.reached binary, binary.isKeyed pointer.type = true :=
    fun _ isReached => isKeyed_of_mem_reached isReached
  refine ⟨fun ids after done => ?_, fun error after => ?_, ?_⟩
  · obtain ⟨known, given⟩ := idOf_of_normalizeTypes reachable.sound keyed done
    refine ⟨?_, known⟩
    rw [timeline_of_normalizeTypes done, given, BinaryFunction.reached, fill_eq_map]
  · rw [timeline_eq_error_iff, normalizeTypes, mapM_eq_error_iff]
    constructor
    · rintro ⟨earlier, pointer, later, ids, middle, split, done, failed⟩
      have sound := (retains_normalizeTypes reachable.sound done).1
      cases sound.eq_of_normalize_eq_error failed
      exact ⟨earlier, pointer, later, ids, split, done, failed⟩
    · rintro ⟨earlier, pointer, later, ids, split, done, failed⟩
      exact ⟨earlier, pointer, later, ids, after, split, done, failed⟩
  · rintro earlier again later ids middle split done ⟨met, isMet, sameKey⟩
    have keyedEarlier : ∀ pointer ∈ earlier, binary.isKeyed pointer.type = true :=
      fun pointer isEarlier => keyed pointer (split ▸ List.mem_append_left _ isEarlier)
    exact normalize_of_met reachable.sound keyedEarlier done isMet sameKey

/-- A binary that names one register. -/
def namingBinary : Binary := Binary.linuxAmd64.addRegister 7 "rdi"

/-- A function with two instructions, of which the second has no registers. The tree of the first
one holds two registers, one of them in a list, and its medium-level tree holds a variable in the
named register, one in a register without a name and one on the stack. -/
def tracedFunction : BinaryFunction :=
  let held : Variable := ⟨"held", .register, 7, .pointer .bool 8⟩
  let nameless : Variable := ⟨"nameless", .register, 9, .pointer .void 8⟩
  let spilled : Variable := ⟨"spilled", .stack, 8, .pointer .void 8⟩
  let scanned : MediumExpr :=
    ⟨.call, [.list [.atom nameless], .expr .var [.atom held], .atom spilled]⟩
  { name := "traced"
    start := 16
    instructions :=
      [{ address := 16
         expression := ⟨.add, [.list [.int 3, .atom "rsi"], .expr .reg [.atom "rdi"]]⟩
         registerValues := Table.empty.insert "rdi" (.externalPointer 36864)
         medium := some scanned },
       { address := 20, expression := ⟨.nop, []⟩, medium := some scanned }] }

/-- Both registers scan the variables, the second finds the id that the first one was given, and
the instruction without registers scans nothing. -/
theorem timeline_exact_tracedFunction :
    (new 8).Reachable ∧
      ∃ after, timeline namingBinary tracedFunction (new 8) =
        .ok [⟨16, "RDI", .type ⟨0⟩⟩, ⟨16, "RDI", .value 36864⟩, ⟨16, "RDI", .type ⟨0⟩⟩] after := by
  have reachable : (new 8).Reachable := .new 8
  have done : normalizeTypes namingBinary (tracedFunction.reached namingBinary) (new 8) =
      .ok [⟨0⟩, ⟨0⟩] (finalState (normalize namingBinary (.pointer .bool 8) (new 8))) := rfl
  refine ⟨reachable, finalState (normalize namingBinary (.pointer .bool 8) (new 8)), ?_⟩
  rw [((reachable.timeline_exact namingBinary tracedFunction).1 _ _ done).1]
  rfl

end Timeline

end Normalizer

end BinaryFacts
