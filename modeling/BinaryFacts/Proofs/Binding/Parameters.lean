/-
This file says exactly when the parameters of a function can be bound, to which locations, and
with which error they are refused.

`Passes` reads the parameters in the order of their declaration: each type is normalized in the
state that the earlier ones left, and a parameter in a register has a register class. Binding
then only counts: it succeeds if no class has more parameters than registers, and the k-th
parameter of a class is in the k-th register of the class. Otherwise there is a first parameter
that is refused, and the parameters before it pass.
-/

import BinaryFacts.Proofs.Binding.Agreement
import BinaryFacts.Proofs.Descriptor.Chains

namespace BinaryFacts

/-! ### Register classes of types -/

/-- The register class of a node. -/
def TypeNode.registerClass? {Child : Type} : TypeNode Child → Option RegisterClass
  | .integer _ _ | .pointer _ => some .integer
  | .float _ => some .float
  | .void | .bool | .array _ _ | .struct _ | .union _ | .enumeration _ | .typedef _
  | .function _ _ _ | .padding _ => none

namespace TypeStore

variable {store : TypeStore} {id : TypeId} {node : TypeNode TypeId} {kind : RegisterClass}

/-- The node behind the typedefs of a type belongs to a register class. -/
def HasClass (store : TypeStore) (id : TypeId) (kind : RegisterClass) : Prop :=
  ∃ steps node, store.Peels steps id node ∧ node.registerClass? = some kind

/-- The node behind the typedefs of a type is void. -/
def LeadsToVoid (store : TypeStore) (id : TypeId) : Prop := ∃ steps, store.Peels steps id .void

/-- Stepping over typedefs finds a node that is none exactly at the end of a chain. -/
theorem peeled?_eq_some_iff (final : ∀ underlying, node ≠ .typedef underlying) :
    store.peeled? id = some node ↔ ∃ steps, store.Peels steps id node := by
  constructor
  · intro found
    by_cases ends : ∃ steps last, store.Peels steps id last
    · obtain ⟨steps, last, peels⟩ := ends
      have same := peels.get?_peelWithin (Nat.le_of_lt peels.lt_size)
      rw [show store.get? _ = some node from found, Option.some.injEq] at same
      exact ⟨steps, same ▸ peels⟩
    · push Not at ends
      rcases get?_peelWithin_of_not_peels ends store.size with missing | ⟨underlying, isAlias⟩
      · cases missing.symm.trans found
      · exact absurd (Option.some.inj (found.symm.trans isAlias)) (final underlying)
  · rintro ⟨steps, peels⟩
    exact peels.get?_peelWithin (Nat.le_of_lt peels.lt_size)

theorem registerClass?_eq_some_iff :
    store.registerClass? id = some kind ↔ store.HasClass id kind := by
  have read : store.registerClass? id = (store.peeled? id).bind TypeNode.registerClass? := by
    unfold registerClass?
    cases store.peeled? id with
    | none => rfl
    | some node => cases node <;> rfl
  have final : ∀ {node : TypeNode TypeId}, node.registerClass? = some kind →
      ∀ underlying, node ≠ .typedef underlying := by
    rintro node classified underlying rfl
    cases classified
  rw [read, Option.bind_eq_some_iff]
  constructor
  · rintro ⟨node, found, classified⟩
    obtain ⟨steps, peels⟩ := (peeled?_eq_some_iff (final classified)).mp found
    exact ⟨steps, node, peels, classified⟩
  · rintro ⟨steps, node, peels, classified⟩
    exact ⟨node, (peeled?_eq_some_iff (final classified)).mpr ⟨steps, peels⟩, classified⟩

theorem registerClass?_eq_none_iff :
    store.registerClass? id = none ↔ ∀ kind, ¬ store.HasClass id kind := by
  simp only [Option.eq_none_iff_forall_ne_some, ne_eq, registerClass?_eq_some_iff]

/-- Void has no register class. -/
theorem LeadsToVoid.not_hasClass (leads : store.LeadsToVoid id) (kind : RegisterClass) :
    ¬ store.HasClass id kind := by
  rintro ⟨steps, node, peels, classified⟩
  obtain ⟨others, toVoid⟩ := leads
  rw [(peels.unique toVoid).2] at classified
  cases classified

theorem isVoidPeeled_iff : store.isVoidPeeled id = true ↔ store.LeadsToVoid id := by
  have isVoid_iff : ∀ node : TypeNode TypeId, node.isVoid = true ↔ node = .void := by
    intro node
    cases node <;> simp [TypeNode.isVoid]
  simp only [isVoidPeeled, Option.any_eq_true, isVoid_iff, exists_eq_right]
  exact peeled?_eq_some_iff fun _ same => nomatch same

end TypeStore

/-! ### Parameters that pass -/

/-- The argument registers of a convention, in order. The convention `cdecl`, and no other, passes
floats on the floating-point stack. -/
def CallingConvention.argumentRegisters (convention : CallingConvention) :
    RegisterClass → List String
  | .integer => convention.integerRegisters
  | .float =>
    if convention.name = "cdecl" then ["st0", "st1", "st2", "st3", "st4", "st5"]
    else convention.floatRegisters

/-- A parameter with the id of its type and with the class of its register, if it is passed in
one. -/
structure Passed where
  parameter : Variable
  type : TypeId
  kind? : Option RegisterClass

/-- The number of parameters that are passed in registers of a class. -/
def countOf (kind : RegisterClass) (row : List Passed) : Nat :=
  row.countP fun passed => passed.kind? = some kind

/-- No class has more parameters than registers. -/
def FitsIn (registers : RegisterClass → List String) (row : List Passed) : Prop :=
  ∀ kind, countOf kind row ≤ (registers kind).length

/-- The locations of parameters. The k-th parameter of a class is in the k-th register of the
class, and a parameter on the stack lies at its offset from the stack pointer. -/
structure Located (stackPointer : String) (registers : RegisterClass → List String)
    (row : List Passed) (locations : List Location) : Prop where
  length_eq : locations.length = row.length
  register : ∀ (index : Nat) (passed : Passed) (kind : RegisterClass),
    row[index]? = some passed → passed.kind? = some kind →
    ∃ register, (registers kind)[countOf kind (row.take index)]? = some register ∧
      locations[index]? = some ⟨.register (Text.upper register), passed.type⟩
  stack : ∀ (index : Nat) (passed : Passed), row[index]? = some passed → passed.kind? = none →
    locations[index]? =
      some ⟨.memory (Text.upper stackPointer) passed.parameter.storage, passed.type⟩

namespace Normalizer

variable {binary : Binary} {function : BinaryFunction} {normalizer last : Normalizer}

/-- The types of parameters are normalized one after the other, those in flags left out, and
every parameter in a register has a class. -/
inductive Passes (binary : Binary) :
    Normalizer → List Variable → List Passed → Normalizer → Prop
  | nil (normalizer : Normalizer) : Passes binary normalizer [] [] normalizer
  | flag {parameter : Variable} {rest : List Variable} {row : List Passed}
      {normalizer last : Normalizer} (source : parameter.source = .flag)
      (passes : Passes binary normalizer rest row last) :
      Passes binary normalizer (parameter :: rest) row last
  | stack {parameter : Variable} {rest : List Variable} {row : List Passed} {id : TypeId}
      {normalizer next last : Normalizer} (source : parameter.source = .stack)
      (done : normalize binary parameter.type normalizer = .ok id next)
      (passes : Passes binary next rest row last) :
      Passes binary normalizer (parameter :: rest) (⟨parameter, id, none⟩ :: row) last
  | register {parameter : Variable} {rest : List Variable} {row : List Passed} {id : TypeId}
      {kind : RegisterClass} {normalizer next last : Normalizer}
      (source : parameter.source = .register)
      (done : normalize binary parameter.type normalizer = .ok id next)
      (hasClass : next.store.HasClass id kind) (passes : Passes binary next rest row last) :
      Passes binary normalizer (parameter :: rest) (⟨parameter, id, some kind⟩ :: row) last

/-- A parameter is refused with an error after the parameters in `row` have passed. -/
inductive Refuses (binary : Binary) (function : BinaryFunction) (row : List Passed)
    (parameter : Variable) (normalizer : Normalizer) : BindError → Normalizer → Prop
  /-- Its type cannot be normalized. -/
  | unnormalized {cause : NormalizeError} {last : Normalizer} (source : parameter.source ≠ .flag)
      (failed : normalize binary parameter.type normalizer = .error cause last) :
      Refuses binary function row parameter normalizer (.normalize cause) last
  /-- It is in a register, and its type is void and declared so. -/
  | void {id : TypeId} {last : Normalizer} (source : parameter.source = .register)
      (done : normalize binary parameter.type normalizer = .ok id last)
      (leads : last.store.LeadsToVoid id) (declared : binary.DeclaresVoid parameter.type) :
      Refuses binary function row parameter normalizer
        (.voidParameter function.name parameter.name) last
  /-- It is in a register, and its type has no class for any other reason. -/
  | classless {id : TypeId} {last : Normalizer} (source : parameter.source = .register)
      (done : normalize binary parameter.type normalizer = .ok id last)
      (noClass : ∀ kind, ¬ last.store.HasClass id kind)
      (undeclared : ¬ (last.store.LeadsToVoid id ∧ binary.DeclaresVoid parameter.type)) :
      Refuses binary function row parameter normalizer
        (.noRegisterClass function.name parameter.name) last
  /-- The parameters before it have taken all registers of its class. -/
  | exhausted {id : TypeId} {kind : RegisterClass} {last : Normalizer}
      (source : parameter.source = .register)
      (done : normalize binary parameter.type normalizer = .ok id last)
      (hasClass : last.store.HasClass id kind)
      (full : countOf kind row = (function.convention.argumentRegisters kind).length) :
      Refuses binary function row parameter normalizer
        (.registersExhausted function.convention.name kind parameter.name) last

end Normalizer

/-! ### Taking registers -/

section Rows

variable {stackPointer : String} {registers : RegisterClass → List String} {row : List Passed}
  {passed : Passed} {locations : List Location} {kind : RegisterClass}

/-- The registers that are left after a parameter. -/
def registersAfter (registers : RegisterClass → List String) (passed : Passed)
    (kind : RegisterClass) : List String :=
  if passed.kind? = some kind then (registers kind).tail else registers kind

theorem countOf_cons (kind : RegisterClass) (passed : Passed) (row : List Passed) :
    countOf kind (passed :: row) =
      countOf kind row + if passed.kind? = some kind then 1 else 0 := by
  simp [countOf, List.countP_cons]

theorem countOf_append (kind : RegisterClass) (row others : List Passed) :
    countOf kind (row ++ others) = countOf kind row + countOf kind others :=
  List.countP_append

theorem getElem?_registersAfter (registers : RegisterClass → List String) (passed : Passed)
    (kind : RegisterClass) (index : Nat) :
    (registersAfter registers passed kind)[index]? =
      (registers kind)[index + if passed.kind? = some kind then 1 else 0]? := by
  unfold registersAfter
  split <;> simp

theorem FitsIn.tail (fits : FitsIn registers (passed :: row)) :
    FitsIn (registersAfter registers passed) row := by
  intro kind
  have bound := fits kind
  rw [countOf_cons] at bound
  unfold registersAfter
  by_cases own : passed.kind? = some kind
  · rw [if_pos own] at bound ⊢
    rw [List.length_tail]
    omega
  · rw [if_neg own] at bound ⊢
    exact bound

/-- A parameter behind others that fit fits too if a register of its class is free. -/
theorem FitsIn.concat (fits : FitsIn registers row)
    (free : ∀ kind, passed.kind? = some kind → countOf kind row < (registers kind).length) :
    FitsIn registers (row ++ [passed]) := by
  intro kind
  rw [countOf_append, countOf_cons]
  split
  · rename_i own
    exact free kind own
  · exact fits kind

/-- A location in front of others, with the registers that its parameter leaves to them. -/
theorem Located.cons {location : Location}
    (located : Located stackPointer (registersAfter registers passed) row locations)
    (register : ∀ kind, passed.kind? = some kind →
      ∃ register, (registers kind).head? = some register ∧
        location = ⟨.register (Text.upper register), passed.type⟩)
    (stack : passed.kind? = none →
      location = ⟨.memory (Text.upper stackPointer) passed.parameter.storage, passed.type⟩) :
    Located stackPointer registers (passed :: row) (location :: locations) := by
  refine ⟨congrArg Nat.succ located.length_eq, fun index other kind => ?_, fun index other => ?_⟩
  · cases index with
    | zero =>
      rintro ⟨⟩ isKind
      obtain ⟨name, first, rfl⟩ := register kind isKind
      rw [List.head?_eq_getElem?] at first
      exact ⟨name, first, rfl⟩
    | succ index =>
      intro isOther isKind
      obtain ⟨name, found, placed⟩ := located.register index other kind isOther isKind
      rw [getElem?_registersAfter, ← countOf_cons] at found
      exact ⟨name, found, placed⟩
  · cases index with
    | zero =>
      rintro ⟨⟩ onStack
      exact congrArg some (stack onStack)
    | succ index => exact located.stack index other

/-- Parameters have one row of locations at most. -/
theorem Located.unique {others : List Location}
    (located : Located stackPointer registers row locations)
    (again : Located stackPointer registers row others) : locations = others := by
  refine List.ext_getElem? fun index => ?_
  cases isPassed : row[index]? with
  | none =>
    have past := List.getElem?_eq_none_iff.mp isPassed
    rw [List.getElem?_eq_none (located.length_eq ▸ past),
      List.getElem?_eq_none (again.length_eq ▸ past)]
  | some passed =>
    cases isKind : passed.kind? with
    | none =>
      rw [located.stack index passed isPassed isKind, again.stack index passed isPassed isKind]
    | some kind =>
      obtain ⟨name, found, placed⟩ := located.register index passed kind isPassed isKind
      obtain ⟨other, foundToo, placedToo⟩ := again.register index passed kind isPassed isKind
      rw [found, Option.some.injEq] at foundToo
      rw [placed, placedToo, foundToo]

end Rows

namespace ArgumentRegisters

variable {registers : ArgumentRegisters} {kind : RegisterClass}

theorem free_without (parameter : Variable) (type : TypeId) :
    (registers.without kind).free = registersAfter registers.free ⟨parameter, type, some kind⟩ := by
  funext other
  cases kind <;> cases other <;> rfl

/-- The free registers after parameters. -/
def after (registers : ArgumentRegisters) (row : List Passed) : ArgumentRegisters :=
  row.foldl (fun left passed => passed.kind?.elim left left.without) registers

theorem convention_after (registers : ArgumentRegisters) (row : List Passed) :
    (registers.after row).convention = registers.convention := by
  induction row generalizing registers with
  | nil => rfl
  | cons passed rest inductionHypothesis =>
    rw [after, List.foldl_cons]
    refine (inductionHypothesis _).trans ?_
    cases passed.kind? with
    | none => rfl
    | some kind => cases kind <;> rfl

/-- Every parameter of a class takes one of its registers. -/
theorem free_after (registers : ArgumentRegisters) (row : List Passed) (kind : RegisterClass) :
    (registers.after row).free kind = (registers.free kind).drop (countOf kind row) := by
  induction row generalizing registers with
  | nil => rfl
  | cons passed rest inductionHypothesis =>
    obtain ⟨parameter, type, own⟩ := passed
    rw [after, List.foldl_cons]
    refine (inductionHypothesis _).trans ?_
    rw [countOf_cons]
    cases own with
    | none => simp
    | some own =>
      rw [Option.elim_some, free_without parameter type, registersAfter]
      split <;> simp [List.drop_tail]

theorem free_ofConvention (convention : CallingConvention) :
    (ofConvention convention).free = convention.argumentRegisters := by
  funext kind
  cases kind <;> rfl

end ArgumentRegisters

/-! ### Binding what passes -/

namespace Normalizer

variable {binary : Binary} {function : BinaryFunction} {normalizer between last : Normalizer}
  {registers : ArgumentRegisters} {parameters earlier later : List Variable}
  {row others : List Passed} {parameter : Variable} {id : TypeId}

namespace Passes

theorem append (first : Passes binary normalizer earlier row between)
    (second : Passes binary between later others last) :
    Passes binary normalizer (earlier ++ later) (row ++ others) last := by
  induction first with
  | nil => exact second
  | flag source _ inductionHypothesis => exact .flag source (inductionHypothesis second)
  | stack source done _ inductionHypothesis => exact .stack source done (inductionHypothesis second)
  | register source done hasClass _ inductionHypothesis =>
    exact .register source done hasClass (inductionHypothesis second)

/-- The parameters that pass are those that are not kept in a flag. -/
theorem map_parameter (passes : Passes binary normalizer parameters row last) :
    row.map (·.parameter) = parameters.filter (·.source ≠ .flag) := by
  induction passes with
  | nil => rfl
  | flag source _ inductionHypothesis => simpa [source] using inductionHypothesis
  | stack source _ _ inductionHypothesis => simpa [source] using inductionHypothesis
  | register source _ _ _ inductionHypothesis => simpa [source] using inductionHypothesis

end Passes

/-- Bind further parameters, behind locations that are found. -/
def bindBehind (binary : Binary) (function : BinaryFunction) (located : List Location)
    (registers : ArgumentRegisters) (parameters : List Variable) :
    Normalizing BindError (List Location) :=
  return located ++ (← bindParametersWith binary function registers parameters)

theorem bindBehind_nil (registers : ArgumentRegisters) (parameters : List Variable) :
    bindBehind binary function [] registers parameters =
      bindParametersWith binary function registers parameters := by
  simp [bindBehind]

theorem cons_bindBehind {run : Normalizing BindError (List Location)} {located : List Location}
    (location : Location)
    (same : run normalizer = bindBehind binary function located registers parameters last) :
    (do return location :: (← run)) normalizer =
      bindBehind binary function (location :: located) registers parameters last := by
  have split : bindBehind binary function (location :: located) registers parameters =
      (do return location :: (← bindBehind binary function located registers parameters)) := by
    simp [bindBehind]
  rw [split]
  show EStateM.bind _ _ _ = EStateM.bind _ _ _
  unfold EStateM.bind
  rw [same]

/-- Parameters that pass and fit are bound one after the other, and the rest is bound with the
registers that they leave. -/
theorem Passes.exists_located (passes : Passes binary normalizer parameters row last)
    (fits : FitsIn registers.free row) :
    ∃ located, Located binary.stackPointer registers.free row located ∧
      ∀ rest, bindParametersWith binary function registers (parameters ++ rest) normalizer =
        bindBehind binary function located (registers.after row) rest last := by
  induction passes generalizing registers with
  | nil normalizer =>
    refine ⟨[], ⟨rfl, by simp, by simp⟩, fun rest => ?_⟩
    rw [bindBehind_nil]
    rfl
  | flag source _ inductionHypothesis =>
    obtain ⟨located, places, bound⟩ := inductionHypothesis fits
    refine ⟨located, places, fun rest => ?_⟩
    rw [List.cons_append, bindParametersWith, source]
    exact bound rest
  | @stack parameter _ _ id _ _ _ source done _ inductionHypothesis =>
    obtain ⟨located, places, bound⟩ := inductionHypothesis fits.tail
    refine ⟨⟨.memory (Text.upper binary.stackPointer) parameter.storage, id⟩ :: located,
      .cons places (by simp) fun _ => rfl, fun rest => ?_⟩
    rw [List.cons_append, bindParametersWith, source]
    dsimp only
    rw [bind_of_ok _ (normalizeBound_of_ok done)]
    exact cons_bindBehind _ (bound rest)
  | @register parameter _ _ id kind _ next _ source done hasClass _ inductionHypothesis =>
    obtain ⟨name, left, split⟩ : ∃ name left, registers.free kind = name :: left := by
      have bound := fits kind
      rw [countOf_cons, if_pos rfl] at bound
      exact List.exists_cons_of_length_pos (by omega)
    have fitsLeft := fits.tail
    rw [← registers.free_without] at fitsLeft
    obtain ⟨located, places, bound⟩ := inductionHypothesis fitsLeft
    rw [registers.free_without parameter id] at places
    refine ⟨⟨.register (Text.upper name), id⟩ :: located, .cons places ?_ (by simp), fun rest => ?_⟩
    · rintro _ ⟨⟩
      exact ⟨name, by rw [split, List.head?_cons], rfl⟩
    · have classified := parameterClass_eq binary function parameter id next
      rw [TypeStore.registerClass?_eq_some_iff.mpr hasClass] at classified
      rw [List.cons_append, bindParametersWith, source]
      dsimp only
      rw [bind_of_ok _ (normalizeBound_of_ok done), bind_of_ok _ classified,
        registers.next?_eq, split, List.head?_cons]
      exact cons_bindBehind _ (bound rest)

/-- A parameter without a class is refused as void if its type is void and declared so. -/
theorem parameterClass_of_noClass (noClass : ∀ kind, ¬ normalizer.store.HasClass id kind) :
    (normalizer.store.LeadsToVoid id ∧ binary.DeclaresVoid parameter.type →
        parameterClass binary function parameter id normalizer =
          .error (.voidParameter function.name parameter.name) normalizer) ∧
      (¬ (normalizer.store.LeadsToVoid id ∧ binary.DeclaresVoid parameter.type) →
        parameterClass binary function parameter id normalizer =
          .error (.noRegisterClass function.name parameter.name) normalizer) := by
  have tested : (normalizer.store.isVoidPeeled id && binary.isDeclaredVoid parameter.type) = true ↔
      normalizer.store.LeadsToVoid id ∧ binary.DeclaresVoid parameter.type := by
    rw [Bool.and_eq_true, TypeStore.isVoidPeeled_iff, Binary.isDeclaredVoid_iff]
  rw [parameterClass_eq, TypeStore.registerClass?_eq_none_iff.mpr noClass]
  dsimp only
  constructor
  · intro isVoid
    rw [if_pos (tested.mpr isVoid)]
  · intro notVoid
    rw [if_neg fun isTrue => notVoid (tested.mp isTrue)]

/-- A parameter that is refused ends the binding with its error. -/
theorem Refuses.bindParametersWith_eq {error : BindError}
    (refuses : Refuses binary function row parameter normalizer error last)
    (rest : List Variable) :
    bindParametersWith binary function
      ((ArgumentRegisters.ofConvention function.convention).after row) (parameter :: rest)
      normalizer = .error error last := by
  rw [bindParametersWith]
  cases refuses with
  | unnormalized source failed =>
    have ends := normalizeBound_of_error failed
    cases own : parameter.source with
    | register | stack => exact bind_of_error _ ends
    | flag => exact absurd own source
  | @void id _ source done leads declared =>
    rw [source]
    dsimp only
    rw [bind_of_ok _ (normalizeBound_of_ok done)]
    exact bind_of_error _ ((parameterClass_of_noClass leads.not_hasClass).1 ⟨leads, declared⟩)
  | @classless id _ source done noClass undeclared =>
    rw [source]
    dsimp only
    rw [bind_of_ok _ (normalizeBound_of_ok done)]
    exact bind_of_error _ ((parameterClass_of_noClass noClass).2 undeclared)
  | @exhausted id kind _ source done hasClass full =>
    have classified := parameterClass_eq binary function parameter id last
    rw [TypeStore.registerClass?_eq_some_iff.mpr hasClass] at classified
    have taken : ((ArgumentRegisters.ofConvention function.convention).after row).free kind =
        [] := by
      rw [ArgumentRegisters.free_after, ArgumentRegisters.free_ofConvention, full, List.drop_length]
    rw [source]
    dsimp only
    rw [bind_of_ok _ (normalizeBound_of_ok done), bind_of_ok _ classified,
      ArgumentRegisters.next?_eq, taken, ArgumentRegisters.convention_after]
    rfl

/-! ### Every parameter passes or is refused -/

/-- A parameter after others that fit passes and fits, or it is refused. -/
theorem passes_or_refuses (parameter : Variable) (normalizer : Normalizer)
    (fits : FitsIn function.convention.argumentRegisters row) :
    (∃ others last, Passes binary normalizer [parameter] others last ∧
        FitsIn function.convention.argumentRegisters (row ++ others)) ∨
      ∃ error last, Refuses binary function row parameter normalizer error last := by
  cases source : parameter.source with
  | flag =>
    refine Or.inl ⟨[], normalizer, .flag source (.nil _), ?_⟩
    rwa [List.append_nil]
  | stack =>
    cases ended : normalize binary parameter.type normalizer with
    | ok id last => exact Or.inl ⟨_, last, .stack source ended (.nil _), fits.concat nofun⟩
    | error cause last =>
      exact Or.inr ⟨_, last, .unnormalized (source ▸ nofun) ended⟩
  | register =>
    cases ended : normalize binary parameter.type normalizer with
    | ok id last =>
      by_cases classified : ∃ kind, last.store.HasClass id kind
      · obtain ⟨kind, hasClass⟩ := classified
        by_cases full : countOf kind row = (function.convention.argumentRegisters kind).length
        · exact Or.inr ⟨_, last, .exhausted source ended hasClass full⟩
        · refine Or.inl ⟨_, last, .register source ended hasClass (.nil _), fits.concat ?_⟩
          rintro _ ⟨⟩
          exact Nat.lt_of_le_of_ne (fits kind) full
      · push Not at classified
        by_cases isVoid : last.store.LeadsToVoid id ∧ binary.DeclaresVoid parameter.type
        · exact Or.inr ⟨_, last, .void source ended isVoid.1 isVoid.2⟩
        · exact Or.inr ⟨_, last, .classless source ended classified isVoid⟩
    | error cause last =>
      exact Or.inr ⟨_, last, .unnormalized (source ▸ nofun) ended⟩

/-- The parameters before one of them pass and fit, and this one is refused. -/
def RefusesFirst (binary : Binary) (function : BinaryFunction) (normalizer : Normalizer)
    (parameters : List Variable) (error : BindError) (last : Normalizer) : Prop :=
  ∃ earlier parameter later row between, parameters = earlier ++ parameter :: later ∧
    Passes binary normalizer earlier row between ∧
    FitsIn function.convention.argumentRegisters row ∧
    Refuses binary function row parameter between error last

/-- All parameters pass and fit, or one of them is the first that is refused. -/
theorem passes_or_refusesFirst (parameters : List Variable) (normalizer : Normalizer) :
    (∃ row last, Passes binary normalizer parameters row last ∧
        FitsIn function.convention.argumentRegisters row) ∨
      ∃ error last, RefusesFirst binary function normalizer parameters error last := by
  -- The last parameter is reached with the registers that all others leave.
  induction parameters using List.reverseRecOn with
  | nil => exact Or.inl ⟨[], normalizer, .nil _, fun _ => Nat.zero_le _⟩
  | append_singleton earlier parameter inductionHypothesis =>
    rcases inductionHypothesis with ⟨row, between, passes, fits⟩ | ⟨error, last, refusal⟩
    · rcases passes_or_refuses parameter between fits with
        ⟨others, last, passesToo, fitsToo⟩ | ⟨error, last, refuses⟩
      · exact Or.inl ⟨_, last, passes.append passesToo, fitsToo⟩
      · exact Or.inr ⟨error, last, earlier, parameter, [], row, between, rfl, passes, fits, refuses⟩
    · obtain ⟨before, refused, later, row, between, rfl, rest⟩ := refusal
      refine Or.inr ⟨error, last, before, refused, later ++ [parameter], row, between, ?_, rest⟩
      rw [List.append_assoc, List.cons_append]

/-! ### Binding parameters -/

theorem bindParameters_of_passes
    (passes : Passes binary normalizer function.parameters row last)
    (fits : FitsIn function.convention.argumentRegisters row) :
    ∃ located, Located binary.stackPointer function.convention.argumentRegisters row located ∧
      bindParameters binary function normalizer = .ok located last := by
  rw [← ArgumentRegisters.free_ofConvention] at fits ⊢
  obtain ⟨located, places, bound⟩ := passes.exists_located fits
  refine ⟨located, places, ?_⟩
  have whole := bound []
  rw [List.append_nil] at whole
  rw [bindParameters, whole, bindBehind, bind_of_ok _ (show bindParametersWith binary function _ []
    last = .ok [] last from rfl), List.append_nil]
  rfl

theorem bindParameters_of_refusesFirst {error : BindError}
    (refusal : RefusesFirst binary function normalizer function.parameters error last) :
    bindParameters binary function normalizer = .error error last := by
  obtain ⟨earlier, parameter, later, row, between, split, passes, fits, refuses⟩ := refusal
  rw [← ArgumentRegisters.free_ofConvention] at fits
  obtain ⟨located, -, bound⟩ := passes.exists_located fits
  rw [bindParameters, split, bound, bindBehind]
  exact bind_of_error _ (refuses.bindParametersWith_eq later)

/-- Binding is exact. It succeeds if the types of all parameters outside flags are normalized in
order, those in registers have a class and no class has more parameters than registers, and then
every parameter is where its class and its place in the row put it, with the id of its type. It
fails with the error of the first parameter that is refused. -/
theorem bindParameters_exact (binary : Binary) (function : BinaryFunction)
    (normalizer : Normalizer) :
    (∀ locations last, bindParameters binary function normalizer = .ok locations last ↔
        ∃ row, Passes binary normalizer function.parameters row last ∧
          row.map (·.parameter) = function.parameters.filter (·.source ≠ .flag) ∧
          FitsIn function.convention.argumentRegisters row ∧
          Located binary.stackPointer function.convention.argumentRegisters row locations) ∧
      ∀ error last, bindParameters binary function normalizer = .error error last ↔
        RefusesFirst binary function normalizer function.parameters error last := by
  refine ⟨fun locations last => ⟨fun done => ?_, ?_⟩,
    fun error last => ⟨fun failed => ?_, bindParameters_of_refusesFirst⟩⟩
  · rcases passes_or_refusesFirst function.parameters normalizer with
      ⟨row, reached, passes, fits⟩ | ⟨error, reached, refusal⟩
    · obtain ⟨located, places, bound⟩ := bindParameters_of_passes passes fits
      rw [bound] at done
      cases done
      exact ⟨row, passes, passes.map_parameter, fits, places⟩
    · rw [bindParameters_of_refusesFirst refusal] at done
      cases done
  · rintro ⟨row, passes, -, fits, places⟩
    obtain ⟨located, placesToo, bound⟩ := bindParameters_of_passes passes fits
    rw [bound, placesToo.unique places]
  · rcases passes_or_refusesFirst function.parameters normalizer with
      ⟨row, reached, passes, fits⟩ | ⟨other, reached, refusal⟩
    · obtain ⟨located, -, bound⟩ := bindParameters_of_passes passes fits
      rw [bound] at failed
      cases failed
    · rw [bindParameters_of_refusesFirst refusal] at failed
      cases failed
      exact refusal

-- Neither the stack, the flag nor the other class between them disturbs the order of a class.
example :
    let mixed : BinaryFunction :=
      { name := "mixed"
        start := 0
        convention := { CallingConvention.sysv with name := "cdecl" }
        parameters :=
          [⟨"first", .register, 0, .pointer .void 8⟩, ⟨"spilled", .stack, 8, .bool⟩,
            ⟨"carry", .flag, 0, .bool⟩, ⟨"ratio", .register, 1, ⟨.float, 8, none, "double"⟩⟩,
            ⟨"second", .register, 2, .pointer .bool 8⟩] }
    outcome (bindParameters .linuxAmd64 mixed (new 8)) =
      .ok [⟨.register "RDI", ⟨0⟩⟩, ⟨.memory "RSP" 8, ⟨2⟩⟩, ⟨.register "ST0", ⟨3⟩⟩,
        ⟨.register "RSI", ⟨4⟩⟩] := rfl

end Normalizer

end BinaryFacts
