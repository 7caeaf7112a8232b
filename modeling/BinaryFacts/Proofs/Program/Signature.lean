/-
This file proves that the signature of a function agrees with its function type, and that asking
for it again gives the same signature and changes nothing.

The type of a function is normalized as a whole first, and then its parameters and its result are
normalized one by one. Their types are parts of the function type, so by then they are settled:
each is answered with the id that stands in the function type, unless it is anonymous. Binding
therefore changes no types, and as settled descriptors stay settled, it comes to the same
locations after all further calls.
-/

import BinaryFacts.Proofs.Normalization.Settled
import BinaryFacts.Proofs.Program.Agreement

namespace BinaryFacts

/-! ### Functions with a derived type -/

/-- The functions that are made from a new one by setting or adding something at a time. -/
inductive BinaryFunction.Built : BinaryFunction → Prop
  | new (name : String) (start : UInt64) : Built { name, start }
  | withParameter {function : BinaryFunction} (built : Built function) (parameter : Variable) :
      Built (function.withParameter parameter)
  | withResult {function : BinaryFunction} (built : Built function) (result : Descriptor) :
      Built (function.withResult result)
  | withVariadic {function : BinaryFunction} (built : Built function) :
      Built function.withVariadic
  | withConvention {function : BinaryFunction} (built : Built function)
      (convention : CallingConvention) : Built (function.withConvention convention)
  | withResultRegisters {function : BinaryFunction} (built : Built function)
      (registers : List String) : Built (function.withResultRegisters registers)
  | withBlock {function : BinaryFunction} (built : Built function) (block : AddressRange) :
      Built (function.withBlock block)
  | withLifted {function : BinaryFunction} (built : Built function) (address : UInt64)
      (expression : LowExpr) : Built (function.withLifted address expression)
  | withInstruction {function : BinaryFunction} (built : Built function)
      (instruction : Instruction) : Built (function.withInstruction instruction)

/-- The type of a function follows its result, its parameters and its variadic mark. -/
theorem BinaryFunction.Built.type_eq {function : BinaryFunction} (built : function.Built) :
    function.type = .function function.result (function.parameters.map (·.type))
      function.variadic := by
  induction built with
  | new => rfl
  | withParameter | withResult | withVariadic => rfl
  | withConvention built convention derived => exact derived
  | withResultRegisters built registers derived => exact derived
  | withBlock built block derived => exact derived
  | withLifted built address expression derived => exact derived
  | withInstruction built instruction derived => exact derived

/-! ### Binding types that are there -/

namespace Normalizer

variable {binary : Binary} {function : BinaryFunction} {normalizer last : Normalizer}
  {descriptor : Descriptor} {id : TypeId}

/-- The descriptor is answered with the id, and nothing changes. -/
def Answers (binary : Binary) (normalizer : Normalizer) (descriptor : Descriptor) (id : TypeId) :
    Prop :=
  normalize binary descriptor normalizer = .ok id normalizer

theorem normalizeBound_of_answers (answers : Answers binary normalizer descriptor id) :
    normalizeBound binary descriptor normalizer = .ok id normalizer :=
  normalizeBound_of_ok answers

/-- The locations of parameters whose types have ids, where `classOf` gives the register classes
of types. -/
def locate? (binary : Binary) (classOf : TypeId → Option RegisterClass) :
    ArgumentRegisters → List (Variable × TypeId) → Option (List Location)
  | _, [] => some []
  | registers, (parameter, id) :: rest =>
    match parameter.source with
    | .register =>
      match (classOf id).bind registers.next? with
      | none => none
      | some (register, registers) =>
        (locate? binary classOf registers rest).map (⟨.register (Text.upper register), id⟩ :: ·)
    | .stack =>
      (locate? binary classOf registers rest).map
        (⟨.memory (Text.upper binary.stackPointer) parameter.storage, id⟩ :: ·)
    | .flag => locate? binary classOf registers rest

theorem cons_eq_ok_iff {run : Normalizing BindError (List Location)}
    {located : Option (List Location)} {location : Location}
    (rest : ∀ {locations}, run normalizer = .ok locations last ↔
      last = normalizer ∧ located = some locations) {locations : List Location} :
    (do return location :: (← run)) normalizer = .ok locations last ↔
      last = normalizer ∧ located.map (location :: ·) = some locations := by
  constructor
  · intro done
    obtain ⟨others, _, ended, done⟩ := bind_eq_ok done
    cases done
    obtain ⟨same, isLocated⟩ := rest.mp ended
    exact ⟨same, by rw [isLocated, Option.map_some]⟩
  · rintro ⟨same, isLocated⟩
    obtain ⟨others, isOthers, rfl⟩ := Option.map_eq_some_iff.mp isLocated
    rw [bind_of_ok _ (rest.mpr ⟨same, isOthers⟩)]
    rfl

/-- Parameters whose types are answered without a change are bound without a change, and only
the ids and the register classes of their types count. -/
theorem bindParametersWith_eq_ok_iff {registers : ArgumentRegisters} {parameters : List Variable}
    {ids : List TypeId} {locations : List Location}
    (answers : List.Forall₂ (fun parameter id => Answers binary normalizer parameter.type id)
      parameters ids) :
    bindParametersWith binary function registers parameters normalizer = .ok locations last ↔
      last = normalizer ∧
        locate? binary normalizer.store.registerClass? registers (parameters.zip ids) =
          some locations := by
  induction answers generalizing registers locations with
  | nil =>
    constructor
    · intro done
      cases done
      exact ⟨rfl, rfl⟩
    · rintro ⟨rfl, located⟩
      cases located
      rfl
  | @cons parameter id rest ids answer answersRest inductionHypothesis =>
    rw [bindParametersWith, List.zip_cons_cons, locate?]
    have bound := normalizeBound_of_answers answer
    cases parameter.source with
    | register =>
      have classified := parameterClass_eq binary function parameter id normalizer
      dsimp only
      rw [bind_of_ok _ bound]
      cases found : normalizer.store.registerClass? id with
      | none =>
        rw [found] at classified
        rw [bind_of_error _ classified]
        refine iff_of_false (fun impossible => ?_) fun impossible => ?_
        · cases impossible
        · cases impossible.2
      | some kind =>
        rw [found] at classified
        rw [bind_of_ok _ classified, Option.bind_some]
        cases registers.next? kind with
        | none =>
          refine iff_of_false (fun impossible => ?_) fun impossible => ?_
          · cases impossible
          · cases impossible.2
        | some next => exact cons_eq_ok_iff inductionHypothesis
    | stack =>
      dsimp only
      rw [bind_of_ok _ bound]
      exact cons_eq_ok_iff inductionHypothesis
    | flag => exact inductionHypothesis

/-- The locations have the ids of the parameters that are not kept in a flag. -/
theorem map_type_of_locate? {classOf : TypeId → Option RegisterClass}
    {registers : ArgumentRegisters} {row : List (Variable × TypeId)} {locations : List Location}
    (located : locate? binary classOf registers row = some locations) :
    locations.map (·.type) = (row.filter (·.1.source ≠ .flag)).map (·.2) := by
  induction row generalizing registers locations with
  | nil =>
    cases located
    rfl
  | cons entry rest inductionHypothesis =>
    obtain ⟨parameter, id⟩ := entry
    rw [locate?] at located
    cases source : parameter.source with
    | register =>
      rw [source] at located
      dsimp only at located
      split at located
      · cases located
      · obtain ⟨others, isOthers, rfl⟩ := Option.map_eq_some_iff.mp located
        simp [source, inductionHypothesis isOthers]
    | stack =>
      rw [source] at located
      obtain ⟨others, isOthers, rfl⟩ := Option.map_eq_some_iff.mp located
      simp [source, inductionHypothesis isOthers]
    | flag =>
      rw [source] at located
      simp [source, inductionHypothesis located]

theorem locate?_congr {classOf other : TypeId → Option RegisterClass}
    {row : List (Variable × TypeId)} (same : ∀ entry ∈ row, classOf entry.2 = other entry.2)
    (registers : ArgumentRegisters) :
    locate? binary classOf registers row = locate? binary other registers row := by
  induction row generalizing registers with
  | nil => rfl
  | cons entry rest inductionHypothesis =>
    obtain ⟨parameter, id⟩ := entry
    have sameRest := inductionHypothesis fun next isNext =>
      same next (List.mem_cons_of_mem _ isNext)
    have sameFirst : classOf id = other id := same _ List.mem_cons_self
    simp only [locate?, sameFirst, sameRest]

/-- A result that is answered without a change is bound without a change. -/
theorem bindResults_of_answers (answers : Answers binary normalizer function.result id) :
    bindResults binary function normalizer =
      .ok (if (normalizer.store.get? id).any TypeNode.isVoid then []
        else function.resultRegisters.map fun register => ⟨.register (Text.upper register), id⟩)
        normalizer := by
  rw [bindResults, bind_of_ok _ (normalizeBound_of_answers answers),
    bind_of_ok _ (show (get : Normalizing BindError Normalizer) normalizer =
      .ok normalizer normalizer from rfl)]
  split <;> rfl

/-! ### The steps of a signature -/

/-- The signature of a function is found by normalizing its type, binding its parameters and
binding its result, one after the other. -/
inductive Signs (binary : Binary) (function : BinaryFunction) (normalizer : Normalizer) :
    Signature → Normalizer → Prop
  | steps {type : TypeId} {parameters results : List Location} {typed bound last : Normalizer}
      (typeDone : normalize binary function.type normalizer = .ok type typed)
      (parametersDone : bindParameters binary function typed = .ok parameters bound)
      (resultsDone : bindResults binary function bound = .ok results last) :
      Signs binary function normalizer ⟨function.start, function.name, type, parameters, results⟩
        last

/-- The type, the result and the parameters of a function are answered with these ids, and
nothing changes. -/
structure Answered (binary : Binary) (function : BinaryFunction) (type result : TypeId)
    (parameters : List TypeId) (normalizer : Normalizer) : Prop where
  type : Answers binary normalizer function.type type
  result : Answers binary normalizer function.result result
  parameters : List.Forall₂ (fun parameter id => Answers binary normalizer parameter.type id)
    function.parameters parameters

/-- Where nothing has to be built, a signature is found without a change, if the parameters can be
located. -/
theorem Answered.signs_iff {type result : TypeId} {parameters : List TypeId} {facts : Signature}
    (answered : Answered binary function type result parameters normalizer) :
    Signs binary function normalizer facts last ↔
      last = normalizer ∧ ∃ locations,
        locate? binary normalizer.store.registerClass? (.ofConvention function.convention)
          (function.parameters.zip parameters) = some locations ∧
        facts = ⟨function.start, function.name, type, locations,
          if (normalizer.store.get? result).any TypeNode.isVoid then []
          else function.resultRegisters.map fun register =>
            ⟨.register (Text.upper register), result⟩⟩ := by
  constructor
  · rintro ⟨typeDone, parametersDone, resultsDone⟩
    cases Eq.trans (Eq.symm answered.type) typeDone
    obtain ⟨rfl, located⟩ := (bindParametersWith_eq_ok_iff answered.parameters).mp parametersDone
    cases (bindResults_of_answers answered.result).symm.trans resultsDone
    exact ⟨rfl, _, located, rfl⟩
  · rintro ⟨rfl, locations, located, rfl⟩
    have parametersDone : bindParameters binary function last = .ok locations last :=
      (bindParametersWith_eq_ok_iff answered.parameters).mpr ⟨rfl, located⟩
    exact .steps answered.type parametersDone (bindResults_of_answers answered.result)

/-- The facts of a signature agree with the function type that they name: it has the variadic
mark of the function, the ids of its parameters are the types of the parameters' locations, those
kept in a flag left out, and the id of its result is the type of each of the result's. -/
def Agrees (function : BinaryFunction) (facts : Signature) (store : TypeStore) : Prop :=
  ∃ result parameters,
    store.get? facts.type = some (.function result parameters function.variadic) ∧
      parameters.length = function.parameters.length ∧
      facts.parameters.map (·.type) =
        ((function.parameters.zip parameters).filter (·.1.source ≠ .flag)).map (·.2) ∧
      ∀ location ∈ facts.results, location.type = result

section Family

variable {pointerSize : UInt64} {family : Set Descriptor} {later : Normalizer}

/-- Parts that last are answered with their ids ever after, unless they are anonymous. -/
theorem Continues.answers (consistent : binary.KeyConsistent family)
    (closed : binary.IsClosed family)
    (continues : normalizer.Continues binary pointerSize family later) {row : List Descriptor}
    {ids : List TypeId}
    (lasts : List.Forall₂ (normalizer.draft.Lasts binary pointerSize family) row ids)
    (named : ∀ descriptor ∈ row, ¬ binary.Anonymous descriptor) :
    List.Forall₂ (Answers binary later) row ids := by
  have carried := Draft.forall₂_lasts_carried consistent closed lasts
    continues.linked.draft.knows continues.carries
  have both := (List.forall₂_and_left _ _).mpr ⟨named, carried⟩
  exact both.imp fun _ _ last => continues.linked.normalize_of_settles (last.2.settled last.1)

/-- The register class of a type does not change. -/
theorem Retains.registerClass?_eq (retains : normalizer.Retains later) (sound : normalizer.Sound)
    (inside : id.index < normalizer.store.size) :
    later.store.registerClass? id = normalizer.store.registerClass? id :=
  SameMeaning.registerClass?_eq fun depth => retains.unfold_eq sound depth inside

/-- Once the type of a function without anonymous parts is normalized, its result and its
parameters are answered with the ids in the function type, now and ever after. -/
theorem Linked.exists_answered {type : TypeId} {typed : Normalizer}
    (consistent : binary.KeyConsistent family) (closed : binary.IsClosed family)
    (linked : normalizer.Linked binary pointerSize family) (isMember : function.type ∈ family)
    (built : function.Built)
    (named : ∀ descriptor ∈ function.result :: function.parameters.map (·.type),
      ¬ binary.Anonymous descriptor)
    (done : normalize binary function.type normalizer = .ok type typed) :
    ∃ result parameters,
      typed.store.get? type = some (.function result parameters function.variadic) ∧
        ∀ later, typed.Continues binary pointerSize family later →
          Answered binary function type result parameters later := by
  have kind : function.type.kind = .function function.result (function.parameters.map (·.type))
      function.variadic := by rw [built.type_eq]; rfl
  have keyed : binary.isKeyed function.type = true := by rw [Binary.isKeyed, kind]
  obtain ⟨result, parameters, present, lasts⟩ :=
    linked.function_of_normalize_eq_ok consistent closed isMember kind done
  refine ⟨result, parameters, present, fun later continues => ?_⟩
  obtain ⟨answersResult, answersParameters⟩ := List.forall₂_cons.mp
    (continues.answers consistent closed lasts named)
  have known := continues.retains.known _ _ (known?_of_normalize_eq_ok keyed done)
  exact ⟨normalize_of_known known, answersResult, List.forall₂_map_left_iff.mp answersParameters⟩

/-- The signature of a function with a derived type and without anonymous parts agrees with its
function type, and it is found again in every later normalizer without a change. -/
theorem Signs.settled {facts : Signature} (consistent : binary.KeyConsistent family)
    (closed : binary.IsClosed family) (linked : normalizer.Linked binary pointerSize family)
    (isMember : function.type ∈ family) (built : function.Built)
    (named : ∀ descriptor ∈ function.result :: function.parameters.map (·.type),
      ¬ binary.Anonymous descriptor)
    (signs : Signs binary function normalizer facts last) :
    last.Linked binary pointerSize family ∧ Agrees function facts last.store ∧
      ∀ later, last.Continues binary pointerSize family later →
        Signs binary function later facts later := by
  obtain ⟨typeDone, parametersDone, resultsDone⟩ := signs
  have linkedTyped := linked.of_normalize_eq_ok consistent closed isMember typeDone
  obtain ⟨result, parameters, present, answeredIn⟩ :=
    linked.exists_answered consistent closed isMember built named typeDone
  have answered := answeredIn _ linkedTyped.continues
  -- Binding ends in the normalizer in which it starts.
  obtain ⟨rfl, locations, located, same⟩ :=
    answered.signs_iff.mp (.steps answered.type parametersDone resultsDone)
  cases same
  refine ⟨linkedTyped, ⟨result, parameters, present, answered.parameters.length_eq.symm,
    map_type_of_locate? located, fun location isLocation => ?_⟩, fun later continues => ?_⟩
  · split at isLocation
    · cases isLocation
    · obtain ⟨register, -, rfl⟩ := List.mem_map.mp isLocation
      rfl
  · have retains := continues.retains
    have sound := linkedTyped.faithful.sound
    have inside := (sound.draft.store.fits _ _ present).children
    have classes : ∀ entry ∈ function.parameters.zip parameters,
        later.store.registerClass? entry.2 = _ := fun entry isEntry =>
      retains.registerClass?_eq sound
        (inside _ (List.mem_cons_of_mem _ (List.of_mem_zip isEntry).2))
    refine (answeredIn later continues).signs_iff.mpr
      ⟨rfl, _, (locate?_congr classes _).trans located, ?_⟩
    rw [retains.get?_eq result (inside _ List.mem_cons_self)]

end Family

end Normalizer

namespace Program

/-! ### Signatures of programs -/

variable {program after : Program} {address : UInt64} {facts : Signature}

theorem withTypes_eq_ok_iff {Error Value : Type} {request : Normalizing Error Value}
    {wrap : Error → ProgramError} {value : Value} :
    withTypes wrap request program = .ok value after ↔
      ∃ types, request program.types = .ok value types ∧ after = { program with types } := by
  unfold withTypes
  constructor
  · intro done
    split at done
    · rename_i answer types ended
      cases done
      exact ⟨types, ended, rfl⟩
    · cases done
  · rintro ⟨types, ended, rfl⟩
    rw [ended]

/-- A program gives the signature of the function that it finds, and changes in its types only. -/
theorem signature_eq_ok_iff :
    signature address program = .ok facts after ↔
      ∃ function last, program.find? address = some function ∧
        Normalizer.Signs program.view.binary function program.types facts last ∧
        after = { program with types := last } := by
  have near := functionNear_eq address program
  unfold signature
  cases found : program.find? address with
  | none =>
    rw [found] at near
    rw [bind_of_error _ near]
    refine iff_of_false (fun impossible => ?_) fun impossible => ?_
    · cases impossible
    · obtain ⟨_, _, missing, -⟩ := impossible
      cases missing
  | some function =>
    rw [found] at near
    rw [bind_of_ok _ near,
      bind_of_ok _ (show (get : Requesting Program) program = .ok program program from rfl)]
    constructor
    · intro done
      obtain ⟨type, _, typeEnded, done⟩ := bind_eq_ok done
      obtain ⟨typed, typeDone, rfl⟩ := withTypes_eq_ok_iff.mp typeEnded
      obtain ⟨parameters, _, parametersEnded, done⟩ := bind_eq_ok done
      obtain ⟨bound, parametersDone, rfl⟩ := withTypes_eq_ok_iff.mp parametersEnded
      obtain ⟨results, _, resultsEnded, done⟩ := bind_eq_ok done
      obtain ⟨last, resultsDone, rfl⟩ := withTypes_eq_ok_iff.mp resultsEnded
      cases done
      exact ⟨function, last, rfl, .steps typeDone parametersDone resultsDone, rfl⟩
    · rintro ⟨_, last, ⟨⟩, ⟨typeDone, parametersDone, resultsDone⟩, rfl⟩
      rw [bind_of_ok _ (withTypes_eq_ok_iff.mpr ⟨_, typeDone, rfl⟩),
        bind_of_ok _ (withTypes_eq_ok_iff.mpr ⟨_, parametersDone, rfl⟩),
        bind_of_ok _ (withTypes_eq_ok_iff.mpr ⟨_, resultsDone, rfl⟩)]
      rfl

section Family

variable {view : View} {config : ProgramConfig} {pointerSize : UInt64} {family : Set Descriptor}
  {mark : Normalizer}

theorem exists_continues_of_load (loaded : load view config = .ok program)
    (family : Set Descriptor) :
    ∃ pointerSize, program.Holds view config
      (program.types.Continues view.binary pointerSize family) := by
  obtain ⟨architecture, system, -, rfl⟩ := exists_of_load_eq_ok loaded
  exact ⟨architecture.pointerSize, rfl, rfl, (Normalizer.Linked.new _ _ _).continues⟩

/-- Calls for descriptors of a family continue what an earlier state of the types holds. -/
theorem Holds.continues {calls : List Call}
    (holds : program.Holds view config (mark.Continues view.binary pointerSize family))
    (consistent : view.binary.KeyConsistent family) (closed : view.binary.IsClosed family)
    (described : ∀ descriptor ∈ view.binary.functionDescriptors, descriptor ∈ family)
    (called : ∀ call ∈ calls, ∀ descriptor ∈ call.descriptors, descriptor ∈ family) :
    (program.afterCalls calls).Holds view config
      (mark.Continues view.binary pointerSize family) :=
  holds.afterCalls
    (fun descriptor mentioned => Normalizer.Linked.keeps_continues consistent closed
      (described descriptor mentioned) mark)
    fun call isCall descriptor mentioned => Normalizer.Linked.keeps_continues consistent closed
      (called call isCall descriptor mentioned) mark

/-- A program that gives the signature of a function with a derived type and without anonymous
parts gives the same facts again, in every state that continues the one it is left in. -/
theorem Holds.agrees_signature {function : BinaryFunction}
    (holds : program.Holds view config (mark.Continues view.binary pointerSize family))
    (consistent : view.binary.KeyConsistent family) (closed : view.binary.IsClosed family)
    (described : ∀ descriptor ∈ view.binary.functionDescriptors, descriptor ∈ family)
    (found : program.find? address = some function) (built : function.Built)
    (named : ∀ descriptor ∈ function.result :: function.parameters.map (·.type),
      ¬ view.binary.Anonymous descriptor)
    (done : signature address program = .ok facts after) :
    Normalizer.Agrees function facts after.types.store ∧
      after.Holds view config (after.types.Continues view.binary pointerSize family) ∧
      ∀ later, later.Holds view config (after.types.Continues view.binary pointerSize family) →
        signature address later = .ok facts later := by
  obtain ⟨_, last, isFound, signs, rfl⟩ := signature_eq_ok_iff.mp done
  cases found.symm.trans isFound
  have isMember : function.type ∈ family := described _ (List.mem_flatMap.mpr
    ⟨function, holds.view_eq ▸ mem_values_of_find? found, BinaryFunction.type_mem_descriptors⟩)
  rw [holds.view_eq] at signs
  obtain ⟨linked, agrees, again⟩ :=
    signs.settled consistent closed holds.types.linked isMember built named
  refine ⟨agrees, ⟨holds.view_eq, holds.config_eq, linked.continues⟩, fun later continues => ?_⟩
  refine signature_eq_ok_iff.mpr ⟨function, later.types, ?_, ?_, rfl⟩
  · rw [← found, find?, find?, continues.view_eq, holds.view_eq]
  · rw [continues.view_eq]
    exact again later.types continues.types

end Family

/-- Signatures agree with function types, and they are found again. A program is loaded from a
binary and answers calls, failing ones included, where all descriptors that the functions and the
calls lead to have consistent keys. If it then gives the signature of a function with a derived
type, and no parameter or result of it is anonymous, the facts agree with the function type that
they name, and after any further calls the program gives the same facts again and changes
nothing. -/
theorem agrees_signature_afterCalls {binary : Binary} {config : ProgramConfig} {handle : Nat}
    {first : Program} (loaded : load ⟨handle, binary⟩ config = .ok first)
    (calls later : List Call)
    (consistent : binary.KeyConsistent (binary.closure
      (binary.functionDescriptors ++ (calls ++ later).flatMap Call.descriptors)))
    {function : BinaryFunction} (found : first.find? address = some function)
    (built : function.Built)
    (named : ∀ descriptor ∈ function.result :: function.parameters.map (·.type),
      ¬ binary.Anonymous descriptor)
    (done : signature address (first.afterCalls calls) = .ok facts after) :
    Normalizer.Agrees function facts after.types.store ∧
      signature address (after.afterCalls later) = .ok facts (after.afterCalls later) := by
  generalize isFamily : binary.closure
    (binary.functionDescriptors ++ (calls ++ later).flatMap Call.descriptors) = family
    at consistent
  have closed : binary.IsClosed family := isFamily ▸ binary.isClosed_closure _
  have described : ∀ descriptor ∈ binary.functionDescriptors, descriptor ∈ family :=
    fun descriptor mentioned => isFamily ▸ Binary.mem_closure (List.mem_append_left _ mentioned)
  have called : ∀ call ∈ calls ++ later, ∀ descriptor ∈ call.descriptors, descriptor ∈ family :=
    fun call isCall descriptor mentioned => isFamily ▸ Binary.mem_closure
      (List.mem_append_right _ (List.mem_flatMap.mpr ⟨call, isCall, mentioned⟩))
  obtain ⟨pointerSize, fresh⟩ := exists_continues_of_load loaded family
  have holds := fresh.continues consistent closed described
    fun call isCall => called call (List.mem_append_left _ isCall)
  have foundNow : (first.afterCalls calls).find? address = some function := by
    rw [← found, find?, find?, holds.view_eq, fresh.view_eq]
  obtain ⟨agrees, holdsAfter, again⟩ :=
    holds.agrees_signature consistent closed described foundNow built named done
  refine ⟨agrees, again _ ?_⟩
  exact holdsAfter.continues consistent closed described
    fun call isCall => called call (List.mem_append_right _ isCall)

open Normalizer in
/-- A program that was asked in vain for an unknown kind gives the signature of the function that
takes a pointer, and gives it again after it was asked for the structure that is pointed to. -/
theorem agrees_signature_visitor :
    let calls : List Call := [.typeOf (.other "vector" 8)]
    let later : List Call := [.typeOf linkedReference, .signature 4096]
    let facts : Signature :=
      ⟨4096, "visit", ⟨0⟩, [⟨.register "RDI", ⟨2⟩⟩], [⟨.register "RAX", ⟨1⟩⟩]⟩
    visitingBinary.KeyConsistent (visitingBinary.closure
        (visitingBinary.functionDescriptors ++ (calls ++ later).flatMap Call.descriptors)) ∧
      ∃ after, signature 4096 ((visitingProgram 0).afterCalls calls) = .ok facts after ∧
        Agrees visitor facts after.types.store ∧
        signature 4096 (after.afterCalls later) = .ok facts (after.afterCalls later) := by
  intro calls later facts
  have requested : ∀ request ∈ visitingBinary.functionDescriptors ++
      (calls ++ later).flatMap Call.descriptors, request ∈ visitedFamily := by
    intro request isRequest
    have all : visitingBinary.functionDescriptors ++ (calls ++ later).flatMap Call.descriptors =
        [visitor.type, .bool, .pointer linkedReference 8, .other "vector" 8, linkedReference] := rfl
    rw [all] at isRequest
    simp only [List.mem_cons, List.not_mem_nil, or_false] at isRequest
    simp only [visitedFamily, linkedFamily, Set.mem_insert_iff, Set.mem_singleton_iff]
    tauto
  obtain ⟨consistent, -⟩ := keyConsistent_visitingBinary requested
  have loaded : load ⟨0, visitingBinary⟩ {} = .ok (visitingProgram 0) := rfl
  have found : (visitingProgram 0).find? 4096 = some visitor := rfl
  have built : visitor.Built := .withParameter (.withResult (.new "visit" 4096) .bool)
    ⟨"next", .register, 0, .pointer linkedReference 8⟩
  have named : ∀ descriptor ∈ visitor.result :: visitor.parameters.map (·.type),
      ¬ visitingBinary.Anonymous descriptor := by
    intro descriptor mentioned
    have both : visitor.result :: visitor.parameters.map (·.type) =
        [.bool, .pointer linkedReference 8] := rfl
    rw [both] at mentioned
    simp only [List.mem_cons, List.not_mem_nil, or_false] at mentioned
    rintro ⟨target, stands, anonymous⟩
    rcases mentioned with rfl | rfl <;> cases stands <;> cases anonymous
  have answered : outcome (signature 4096 ((visitingProgram 0).afterCalls calls)) = .ok facts := by
    decide +kernel
  obtain ⟨after, done⟩ := eq_ok_of_outcome answered
  exact ⟨consistent, after, done,
    agrees_signature_afterCalls loaded calls later consistent found built named done⟩

end Program

end BinaryFacts
