/-
This file proves that the program cache is a single slot in which the last writer wins. A history
of calls to a cache loads programs from views that an engine has opened, makes calls to them,
stores programs and clears the slot. After every history the slot holds the program that was
placed there last, with exactly the calls that reached it since, and a load gives out the program
of the view that it asks for, from the slot or newly loaded.

Calls never change the view or the configuration of a program, so the slot can be told by them
from the moment at which its program was placed. The history is followed call by call from its
end: each call keeps, extends or replaces what the slot carries.
-/

import BinaryFacts.Program.Cache
import BinaryFacts.Proofs.Program.Calls
import Mathlib.Data.List.Basic
import Mathlib.Data.List.Induction

namespace BinaryFacts

/-! ### Programs under calls -/

namespace Program

variable {view : View} {config : ProgramConfig} {program : Program}

/-- A program is of a view and a configuration. -/
def Of (view : View) (config : ProgramConfig) (program : Program) : Prop :=
  program.view = view ∧ program.config = config

/-- Calls keep the view and the configuration of a program. -/
theorem Of.afterCalls (isOf : program.Of view config) (calls : List Call) :
    (program.afterCalls calls).Of view config := by
  have holds : program.Holds view config fun _ => True := ⟨isOf.1, isOf.2, trivial⟩
  have kept : (program.afterCalls calls).Holds view config fun _ => True :=
    holds.afterCalls (fun _ _ _ _ => trivial) fun _ _ _ _ _ _ => trivial
  exact ⟨kept.view_eq, kept.config_eq⟩

theorem afterCalls_append (program : Program) (calls others : List Call) :
    program.afterCalls (calls ++ others) = (program.afterCalls calls).afterCalls others :=
  List.foldl_append

/-! ### Loading -/

/-- The architecture has no known name, or the platform none of the words for a system. -/
def Unsupported (binary : Binary) : Prop :=
  binary.architecture ∉ ["x86_64", "x86", "aarch64"] ∨
    ∀ word ∈ ["linux", "mac", "windows"], holdsWord binary.platform word = false

/-- A program as it is newly loaded, without types. -/
structure Fresh (view : View) (config : ProgramConfig) (program : Program) : Prop where
  loaded : load view config = .ok program
  isOf : program.Of view config
  noNodes : program.types.store.size = 0
  noKeys : ∀ key, program.types.known? key = none

theorem fresh_of_load (loaded : load view config = .ok program) : program.Fresh view config := by
  obtain ⟨architecture, system, -, rfl⟩ := exists_of_load_eq_ok loaded
  exact ⟨loaded, ⟨rfl, rfl⟩, rfl, fun _ => rfl⟩

theorem ofEngineName_eq_error_iff {name : String} :
    (∃ error, Architecture.ofEngineName name = .error error) ↔
      name ∉ ["x86_64", "x86", "aarch64"] := by
  simp only [List.mem_cons, List.not_mem_nil, or_false, not_or, Architecture.ofEngineName]
  constructor
  · rintro ⟨error, failed⟩
    split at failed
    · cases failed
    · split at failed
      · cases failed
      · split at failed
        · cases failed
        · exact ⟨‹_›, ‹_›, ‹_›⟩
  · rintro ⟨notFirst, notSecond, notThird⟩
    rw [if_neg notFirst, if_neg notSecond, if_neg notThird]
    exact ⟨_, rfl⟩

theorem ofPlatform_eq_error_iff {platform : String} :
    (∃ error, OperatingSystem.ofPlatform platform = .error error) ↔
      ∀ word ∈ ["linux", "mac", "windows"], holdsWord platform word = false := by
  have allWords : ["linux", "mac", "windows"] = OperatingSystem.words.map (·.1) := rfl
  rw [allWords, List.forall_mem_map, OperatingSystem.ofPlatform]
  constructor
  · rintro ⟨error, failed⟩ entry member
    split at failed
    · cases failed
    · rename_i notFound
      exact Bool.eq_false_iff.mpr (List.find?_eq_none.mp notFound entry member)
  · intro noWord
    have notFound : (OperatingSystem.words.find? fun entry => holdsWord platform entry.1) = none :=
      List.find?_eq_none.mpr fun entry member => Bool.eq_false_iff.mp (noWord entry member)
    rw [notFound]
    exact ⟨_, rfl⟩

/-- Loading fails exactly if the target is not supported. -/
theorem load_eq_error_iff :
    (∃ error, load view config = .error error) ↔ Unsupported view.binary := by
  rw [Unsupported, ← ofEngineName_eq_error_iff, ← ofPlatform_eq_error_iff, load]
  cases Architecture.ofEngineName view.binary.architecture with
  | error error => exact iff_of_true ⟨_, rfl⟩ (Or.inl ⟨_, rfl⟩)
  | ok architecture =>
    cases OperatingSystem.ofPlatform view.binary.platform with
    | error error => exact iff_of_true ⟨_, rfl⟩ (Or.inr ⟨_, rfl⟩)
    | ok system =>
      refine iff_of_false ?_ ?_
      · rintro ⟨error, impossible⟩
        cases impossible
      · rintro (⟨error, impossible⟩ | ⟨error, impossible⟩) <;> cases impossible

end Program

/-! ### What a load gives out -/

namespace ProgramCache

variable {view : View} {config : ProgramConfig} {cache : ProgramCache}

/-- All that a load can come to. -/
inductive Comes (view : View) (config : ProgramConfig) (cache : ProgramCache) :
    EStateM.Result ProgramError ProgramCache ProgramHandle → Prop
  | bypassed {program : Program} (policy : config.cachePolicy = .bypass)
      (fresh : program.Fresh view config) :
      Comes view config cache (.ok (.uncached program) cache)
  | reused {program : Program} (policy : config.cachePolicy = .reuse)
      (found : cache.matching? view config = some program) :
      Comes view config cache (.ok (.cached program) cache)
  | loaded {program : Program} (policy : config.cachePolicy = .reuse)
      (missing : cache.matching? view config = none) (fresh : program.Fresh view config) :
      Comes view config cache (.ok (.cached program) ⟨some program⟩)
  | failed {error : ProgramError} (unsupported : Program.Unsupported view.binary)
      (missing : config.cachePolicy = .reuse → cache.matching? view config = none) :
      Comes view config cache (.error error cache)

/-- A cache with the program asked for holds this program and nothing else. -/
theorem eq_of_matching? {program : Program} (found : cache.matching? view config = some program) :
    cache = ⟨some program⟩ := by
  obtain ⟨isSlot, -⟩ := Option.filter_eq_some_iff.mp found
  cases cache
  exact congrArg mk isSlot

/-- What a load with reuse takes out of the cache is there again if it is the program asked for,
and if the load fails. -/
theorem comes_getOrLoad (view : View) (config : ProgramConfig) (cache : ProgramCache) :
    Comes view config cache (getOrLoad view config cache) := by
  unfold getOrLoad
  cases policy : config.cachePolicy with
  | bypass =>
    cases loaded : Program.load view config with
    | ok program => exact .bypassed policy (Program.fresh_of_load loaded)
    | error error =>
      refine .failed (Program.load_eq_error_iff.mp ⟨error, loaded⟩) fun reuse => ?_
      cases policy.symm.trans reuse
  | reuse =>
    have taken : take cache = .ok cache empty := rfl
    dsimp only
    rw [bind_of_ok _ taken]
    cases found : cache.matching? view config with
    | some program =>
      have back : insert program empty = .ok (.cached program) cache := by
        rw [eq_of_matching? found]
        rfl
      show Comes view config cache (insert program empty)
      rw [back]
      exact .reused policy found
    | none =>
      cases loaded : Program.load view config with
      | ok program => exact .loaded policy found (Program.fresh_of_load loaded)
      | error error =>
        exact .failed (Program.load_eq_error_iff.mp ⟨error, loaded⟩) fun _ => found

/-! ### Histories -/

/-- The view of a binary that the engine has opened under a handle. -/
def viewOf (opened : Nat → Binary) (handle : Nat) : View := ⟨handle, opened handle⟩

/-- A call to a cache, or calls to the program that it gives out. -/
inductive CacheCall (opened : Nat → Binary) where
  /-- Load the program of a view and make calls to it. -/
  | load (handle : Nat) (config : ProgramConfig) (calls : List Program.Call)
  /-- Make calls to the program in the slot, if there is one. -/
  | get (calls : List Program.Call)
  /-- Store a program that was loaded elsewhere, whatever it was asked there. -/
  | store (program : Program) (isOpened : program.view = viewOf opened program.view.handle)
  | clear

variable {opened : Nat → Binary}

/-- A cache after a call. -/
def after (cache : ProgramCache) : CacheCall opened → ProgramCache
  | .load handle config calls =>
    match getOrLoad (viewOf opened handle) config cache with
    | .ok given next => next.update given (given.program.afterCalls calls)
    | .error _ next => next
  | .get calls => ⟨cache.slot.map fun program => program.afterCalls calls⟩
  | .store program _ => (cache.store program).2
  | .clear => cache.clear

/-- A new cache after calls one after the other. -/
def afterAll (history : List (CacheCall opened)) : ProgramCache := history.foldl after empty

theorem afterAll_concat (history : List (CacheCall opened)) (call : CacheCall opened) :
    afterAll (history ++ [call]) = (afterAll history).after call :=
  List.foldl_concat ..

/-! ### The program in the slot -/

/-- The slot holds a program of the view and the configuration. -/
def Matches (cache : ProgramCache) (view : View) (config : ProgramConfig) : Prop :=
  ∃ program, cache.slot = some program ∧ program.Of view config

/-- A call puts a program into the slot, in the place of any other. -/
inductive Places (cache : ProgramCache) : CacheCall opened → Program → Prop
  | load {handle : Nat} {config : ProgramConfig} {calls : List Program.Call} {program : Program}
      (policy : config.cachePolicy = .reuse)
      (missing : ¬ cache.Matches (viewOf opened handle) config)
      (fresh : program.Fresh (viewOf opened handle) config) :
      Places cache (.load handle config calls) program
  | store {program : Program} {isOpened : program.view = viewOf opened program.view.handle} :
      Places cache (.store program isOpened) program

/-- A call stores a program or is a load with reuse that succeeds. -/
def Writes (cache : ProgramCache) : CacheCall opened → Prop
  | .load handle config _ =>
    config.cachePolicy = .reuse ∧
      ∃ given next, getOrLoad (viewOf opened handle) config cache = .ok given next
  | .store _ _ => True
  | .get _ | .clear => False

/-- A call leaves the program `base` in the slot: a load that bypasses the cache, that fails, or
that asks for this program. -/
def Spares (base : Program) : CacheCall opened → Prop
  | .load handle config _ =>
    config.cachePolicy = .bypass ∨ Program.Unsupported (opened handle) ∨
      base.Of (viewOf opened handle) config
  | .get _ => True
  | .store _ _ | .clear => False

/-- The calls that reach the program `base` while it is in the slot. -/
def reaching (base : Program) : CacheCall opened → List Program.Call
  | .load handle config calls =>
    if config.cachePolicy = .reuse ∧ base.view.handle = handle ∧ base.config = config then calls
    else []
  | .get calls => calls
  | .store _ _ | .clear => []

/-- The calls to the program that a call places. -/
def ownCalls : CacheCall opened → List Program.Call
  | .load _ _ calls => calls
  | .get _ | .store _ _ | .clear => []

/-- What the slot holds after a history: nothing, if every store and every successful load with
reuse was cleared since; or the program placed last, with all calls that reached it since. -/
def Tells (history : List (CacheCall opened)) : Option Program → Prop
  | none => ∀ earlier call later, history = earlier ++ call :: later →
      (afterAll earlier).Writes call → .clear ∈ later
  | some program => ∃ earlier placing later base, history = earlier ++ placing :: later ∧
      (afterAll earlier).Places placing base ∧ (∀ call ∈ later, Spares base call) ∧
      program = base.afterCalls (ownCalls placing ++ later.flatMap (reaching base))

theorem matches_of_matching? {handle : Nat} {program : Program}
    (isOpened : ∀ program, cache.slot = some program →
      program.view = viewOf opened program.view.handle)
    (found : cache.matching? (viewOf opened handle) config = some program) :
    cache.slot = some program ∧ program.Of (viewOf opened handle) config := by
  obtain ⟨isSlot, same⟩ := Option.filter_eq_some_iff.mp found
  rw [Bool.and_eq_true, decide_eq_true_iff, decide_eq_true_iff] at same
  refine ⟨isSlot, ?_, same.2⟩
  rw [isOpened program isSlot, same.1]
  rfl

theorem not_matches_of_matching? (missing : cache.matching? view config = none) :
    ¬ cache.Matches view config := by
  rintro ⟨program, isSlot, isOf⟩
  have here := Option.filter_eq_none_iff.mp missing program isSlot
  rw [isOf.1, isOf.2, Bool.and_eq_true, decide_eq_true_iff, decide_eq_true_iff] at here
  exact here ⟨rfl, rfl⟩

/-- A call in a longer history is its last one or stands in the history before. -/
theorem concat_eq_append_cons {history earlier later : List (CacheCall opened)}
    {last call : CacheCall opened} (split : history ++ [last] = earlier ++ call :: later) :
    later = [] ∧ call = last ∧ earlier = history ∨
      ∃ front, later = front ++ [last] ∧ history = earlier ++ call :: front := by
  rcases List.eq_nil_or_concat later with rfl | ⟨front, final, rfl⟩
  · obtain ⟨same, sameLast⟩ := List.append_inj' split rfl
    exact Or.inl ⟨rfl, (List.cons.inj sameLast).1.symm, same.symm⟩
  · rw [List.concat_eq_append, ← List.cons_append, ← List.append_assoc] at split
    obtain ⟨same, sameLast⟩ := List.append_inj' split rfl
    rw [List.concat_eq_append, ← (List.cons.inj sameLast).1]
    exact Or.inr ⟨front, rfl, same⟩

namespace Tells

variable {history : List (CacheCall opened)} {call : CacheCall opened} {program : Program}

/-- The slot stays empty over a call that writes nothing. -/
theorem silent (tells : Tells history none) (noWrite : ¬ (afterAll history).Writes call) :
    Tells (history ++ [call]) none := by
  intro earlier other later split writes
  rcases concat_eq_append_cons split with ⟨-, rfl, rfl⟩ | ⟨front, rfl, before⟩
  · exact (noWrite writes).elim
  · exact List.mem_append_left _ (tells earlier other front before writes)

/-- The program in the slot comes from a view that the engine has opened. -/
theorem isOpened (tells : Tells history (some program)) :
    program.view = viewOf opened program.view.handle := by
  obtain ⟨earlier, placing, later, base, -, places, -, rfl⟩ := tells
  have own : base.Of base.view base.config := ⟨rfl, rfl⟩
  rw [(own.afterCalls _).1]
  cases places with
  | load policy missing fresh =>
    rw [fresh.isOf.1]
    rfl
  | store => assumption

/-- The program in the slot stays there over a call that spares it, and takes the calls that
reach it. -/
theorem spared (tells : Tells history (some program)) {calls : List Program.Call}
    (spares : ∀ base : Program, program.Of base.view base.config →
      Spares base call ∧ reaching base call = calls) :
    Tells (history ++ [call]) (some (program.afterCalls calls)) := by
  obtain ⟨earlier, placing, later, base, rfl, places, spared, rfl⟩ := tells
  obtain ⟨spares, reached⟩ := spares base (Program.Of.afterCalls ⟨rfl, rfl⟩ _)
  refine ⟨earlier, placing, later ++ [call], base, by simp, places, ?_, ?_⟩
  · exact List.forall_mem_append.mpr ⟨spared, List.forall_mem_singleton.mpr spares⟩
  · rw [List.flatMap_append, List.flatMap_singleton, reached, ← List.append_assoc]
    exact (Program.afterCalls_append _ _ _).symm

/-- The slot as it is stays over a call that writes nothing, spares every program in the slot and
does not reach it. -/
theorem unchanged {slot : Option Program} (tells : Tells history slot)
    (noWrite : slot = none → ¬ (afterAll history).Writes call)
    (spares : ∀ program base : Program, slot = some program → program.Of base.view base.config →
      Spares base call ∧ reaching base call = []) :
    Tells (history ++ [call]) slot := by
  cases slot with
  | none => exact tells.silent (noWrite rfl)
  | some program => exact tells.spared (spares program · rfl)

/-- What a history tells of the slot, it tells after a load and calls to what that gives out. -/
theorem after_load (tells : Tells history (afterAll history).slot) (handle : Nat)
    (config : ProgramConfig) (calls : List Program.Call) :
    Tells (history ++ [.load handle config calls])
      ((afterAll history).after (.load handle config calls : CacheCall opened)).slot := by
  generalize same : afterAll history = cache at tells
  have comes := comes_getOrLoad (viewOf opened handle) config cache
  have isOpened : ∀ program, cache.slot = some program →
      program.view = viewOf opened program.view.handle := by
    intro program content
    rw [content] at tells
    exact tells.isOpened
  generalize ended : getOrLoad (viewOf opened handle) config cache = result at comes
  rw [ProgramCache.after, ended]
  cases comes with
  | bypassed policy fresh =>
    have noReuse : config.cachePolicy ≠ .reuse := fun reuse => nomatch policy.symm.trans reuse
    exact tells.unchanged (fun _ writes => noReuse writes.1) fun program base _ _ =>
      ⟨Or.inl policy, if_neg fun all => noReuse all.1⟩
  | reused policy found =>
    obtain ⟨content, isOf⟩ := matches_of_matching? isOpened found
    rw [content] at tells
    refine tells.spared fun base isBase => ?_
    have baseOf : base.Of (viewOf opened handle) config :=
      ⟨isBase.1.symm.trans isOf.1, isBase.2.symm.trans isOf.2⟩
    exact ⟨Or.inr (Or.inr baseOf), if_pos ⟨policy, baseOf.1 ▸ rfl, baseOf.2⟩⟩
  | @loaded program policy missing fresh =>
    refine ⟨history, .load handle config calls, [], program, rfl, ?_, ?_, ?_⟩
    · exact .load policy (same ▸ not_matches_of_matching? missing) fresh
    · exact fun _ member => nomatch member
    · rw [List.flatMap_nil, List.append_nil]
      rfl
  | failed unsupported missing =>
    refine tells.unchanged ?_ ?_
    · rintro - ⟨-, given, next, succeeded⟩
      rw [same, ended] at succeeded
      cases succeeded
    · intro program base content isBase
      refine ⟨Or.inr (Or.inl unsupported), if_neg ?_⟩
      rintro ⟨reuse, sameHandle, sameConfig⟩
      -- A program that this load would reach is one that it would find.
      refine not_matches_of_matching? (missing reuse) ⟨program, content, ?_, ?_⟩
      · rw [isOpened program content, isBase.1, sameHandle]
      · exact isBase.2.trans sameConfig

/-- What a history tells of the slot, it tells after one more call. -/
theorem after (tells : Tells history (afterAll history).slot) (call : CacheCall opened) :
    Tells (history ++ [call]) ((afterAll history).after call).slot := by
  cases call with
  | load handle config calls => exact tells.after_load handle config calls
  | get calls =>
    rw [ProgramCache.after]
    cases content : (afterAll history).slot with
    | none =>
      rw [content] at tells
      exact tells.silent id
    | some program =>
      rw [content] at tells
      exact tells.spared fun base _ => ⟨trivial, rfl⟩
  | store program isOpened =>
    refine ⟨history, .store program isOpened, [], program, rfl, .store, ?_, rfl⟩
    exact fun _ member => nomatch member
  | clear =>
    intro earlier other later split writes
    rcases concat_eq_append_cons split with ⟨-, rfl, -⟩ | ⟨front, rfl, -⟩
    · exact writes.elim
    · exact List.mem_append_right _ List.mem_cons_self

end Tells

theorem tells_afterAll (history : List (CacheCall opened)) :
    Tells history (afterAll history).slot := by
  induction history using List.reverseRecOn with
  | nil =>
    intro earlier call later split
    cases earlier <;> cases split
  | append_singleton history call inductionHypothesis =>
    rw [afterAll_concat]
    exact inductionHypothesis.after call

/-- Every program in the slot comes from a view that the engine has opened. -/
theorem isOpened_of_slot (history : List (CacheCall opened)) (program : Program)
    (content : (afterAll history).slot = some program) :
    program.view = viewOf opened program.view.handle := by
  have tells := tells_afterAll history
  rw [content] at tells
  exact tells.isOpened

section Loads

variable {handle : Nat}
  (isOpened : ∀ program, cache.slot = some program →
    program.view = viewOf opened program.view.handle)
include isOpened

/-- A load that succeeds gives out a program of what it asks for. -/
theorem of_getOrLoad_eq_ok {given : ProgramHandle} {next : ProgramCache}
    (done : getOrLoad (viewOf opened handle) config cache = .ok given next) :
    given.program.Of (viewOf opened handle) config ∧
      (config.cachePolicy = .reuse →
        given.isCached = true ∧ next.slot = some given.program ∧
          (cache.Matches (viewOf opened handle) config → cache.slot = some given.program) ∧
          (¬ cache.Matches (viewOf opened handle) config →
            given.program.Fresh (viewOf opened handle) config)) ∧
      (config.cachePolicy = .bypass →
        given.isCached = false ∧ given.program.Fresh (viewOf opened handle) config ∧
          next = cache) := by
  have comes := comes_getOrLoad (viewOf opened handle) config cache
  rw [done] at comes
  cases comes with
  | bypassed policy fresh =>
    refine ⟨fresh.isOf, fun reuse => ?_, fun _ => ⟨rfl, fresh, rfl⟩⟩
    cases policy.symm.trans reuse
  | reused policy found =>
    obtain ⟨content, isOf⟩ := matches_of_matching? isOpened found
    refine ⟨isOf, fun _ => ⟨rfl, content, fun _ => content, fun noMatch => ?_⟩, fun bypass => ?_⟩
    · exact (noMatch ⟨_, content, isOf⟩).elim
    · cases policy.symm.trans bypass
  | loaded policy missing fresh =>
    refine ⟨fresh.isOf, fun _ => ⟨rfl, rfl, fun isMatch => ?_, fun _ => fresh⟩, fun bypass => ?_⟩
    · exact (not_matches_of_matching? missing isMatch).elim
    · cases policy.symm.trans bypass

/-- A load fails exactly if the target is not supported and no program in the slot can be reused,
and then leaves the cache as it was. -/
theorem getOrLoad_eq_error_iff :
    ((∃ error next, getOrLoad (viewOf opened handle) config cache = .error error next) ↔
        Program.Unsupported (opened handle) ∧
          ¬ (config.cachePolicy = .reuse ∧ cache.Matches (viewOf opened handle) config)) ∧
      ∀ error next,
        getOrLoad (viewOf opened handle) config cache = .error error next → next = cache := by
  have comes := comes_getOrLoad (viewOf opened handle) config cache
  generalize getOrLoad (viewOf opened handle) config cache = result at comes
  have supported : ∀ {program : Program}, program.Fresh (viewOf opened handle) config →
      ¬ Program.Unsupported (opened handle) := by
    intro program fresh unsupported
    obtain ⟨error, failed⟩ := Program.load_eq_error_iff.mpr
      (show Program.Unsupported (viewOf opened handle).binary from unsupported)
    cases fresh.loaded.symm.trans failed
  cases comes with
  | bypassed policy fresh | loaded policy missing fresh =>
    refine ⟨iff_of_false ?_ fun both => supported fresh both.1, ?_⟩
    · rintro ⟨error, next, impossible⟩
      cases impossible
    · intro error next impossible
      cases impossible
  | reused policy found =>
    obtain ⟨content, isOf⟩ := matches_of_matching? isOpened found
    refine ⟨iff_of_false ?_ fun both => both.2 ⟨policy, _, content, isOf⟩, ?_⟩
    · rintro ⟨error, next, impossible⟩
      cases impossible
    · intro error next impossible
      cases impossible
  | failed unsupported missing =>
    refine ⟨iff_of_true ⟨_, _, rfl⟩ ⟨unsupported, fun both => ?_⟩, ?_⟩
    · exact not_matches_of_matching? (missing both.1) both.2
    · rintro error next same
      cases same
      rfl

end Loads

/-- The cache is a slot in which the last writer wins. After any history of loads, calls to the
programs given out, stores and clears, a load that succeeds gives out a program of the view and
configuration it asks for. With reuse this is the program in the slot, if that one fits, and else
a new one, and the slot holds it; with a bypass it is a new one, and the cache is as it was. A load
fails exactly if the target is not supported and there is no program in the slot to reuse, and
then the cache is as it was. So the slot is empty if all that was written to it was cleared since,
and else holds the program placed last, with exactly the calls that reached it since. -/
theorem last_writer_wins (opened : Nat → Binary) (history : List (CacheCall opened))
    (handle : Nat) (config : ProgramConfig) :
    let cache := afterAll history
    let view := viewOf opened handle
    (∀ given next, getOrLoad view config cache = .ok given next →
        given.program.Of view config ∧
          (config.cachePolicy = .reuse →
            given.isCached = true ∧ next.slot = some given.program ∧
              (cache.Matches view config → cache.slot = some given.program) ∧
              (¬ cache.Matches view config → given.program.Fresh view config)) ∧
          (config.cachePolicy = .bypass →
            given.isCached = false ∧ given.program.Fresh view config ∧ next = cache)) ∧
      ((∃ error next, getOrLoad view config cache = .error error next) ↔
        Program.Unsupported view.binary ∧
          ¬ (config.cachePolicy = .reuse ∧ cache.Matches view config)) ∧
      (∀ error next, getOrLoad view config cache = .error error next → next = cache) ∧
      Tells history cache.slot := by
  have isOpened := isOpened_of_slot history
  obtain ⟨fails, untouched⟩ := getOrLoad_eq_error_iff isOpened
  exact ⟨fun given next done => of_getOrLoad_eq_ok isOpened done, fails, untouched,
    tells_afterAll history⟩

end ProgramCache

end BinaryFacts
