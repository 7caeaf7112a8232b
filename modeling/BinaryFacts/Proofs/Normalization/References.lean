/-
This file says what a request for a reference to a tagged type comes to in a new normalizer.

Following references is first read as a loop without an allowance, which stops at a descriptor
that is no reference to follow, at a failed lookup, and at a key it has seen. It always stops:
apart from the first, every descriptor it passes is registered, and each key is passed once. The
function with an allowance finds what the loop finds.

A reference is therefore followed to the end of its chain exactly if no key stands twice on the
chain behind the reference. Then a request for the reference does what a request for the end of
the chain does; in all other cases it gives void. These other cases are more than the chains that
break off or have no end. The next descriptor is decided by the id and the name of a reference and
not by its key, so a chain may repeat a key and yet come to an end. It does not if registered
references with one key are looked up alike.
-/

import BinaryFacts.Proofs.Descriptor.Chains
import BinaryFacts.Proofs.Normalization.Permanence

namespace BinaryFacts

/-! ### Chains have one end -/

namespace Binary

variable {binary : Binary} {follows : ReferenceClass → Bool} {keys seen : List String}
  {start target : Descriptor}

theorem not_followed_of_final {descriptor : Descriptor} {category : ReferenceClass}
    {typeId : Option String} {name : String}
    (final : ∀ category typeId name, descriptor.kind = .reference category typeId name →
      follows category = false)
    (isReference : descriptor.kind = .reference category typeId name) :
    ¬ follows category = true := by
  rw [final _ _ _ isReference]
  exact Bool.false_ne_true

namespace Chain

/-- The chain from a descriptor is unique. -/
theorem unique (chain : binary.Chain follows keys start target) {others : List String}
    {last : Descriptor} (other : binary.Chain follows others start last) :
    others = keys ∧ last = target := by
  induction chain generalizing others with
  | here final =>
    cases other with
    | here => exact ⟨rfl, rfl⟩
    | further isReference followed =>
      exact absurd followed (not_followed_of_final final isReference)
  | further isReference followed found rest inductionHypothesis =>
    cases other with
    | here final => exact absurd followed (not_followed_of_final final isReference)
    | further isReferenceOther followedOther foundOther restOther =>
      rw [isReference] at isReferenceOther
      cases isReferenceOther
      rw [found] at foundOther
      cases foundOther
      obtain ⟨rfl, rfl⟩ := inductionHypothesis restOther
      exact ⟨rfl, rfl⟩

/-- From a key on a chain of registered types the chain goes on, and is shorter. -/
theorem exists_of_mem (chain : binary.Chain follows keys start target)
    (isRegistered : start ∈ binary.registered) {key : String} (isKey : key ∈ keys) :
    ∃ passed ∈ binary.registered, passed.key = key ∧
      ∃ category typeId name next rest, passed.kind = .reference category typeId name ∧
        follows category = true ∧ binary.lookup? typeId name = some next ∧
        binary.Chain follows rest next target ∧ rest.length < keys.length := by
  induction chain with
  | here => cases isKey
  | further isReference followed found rest inductionHypothesis =>
    rcases List.mem_cons.mp isKey with rfl | later
    · exact ⟨_, isRegistered, rfl, _, _, _, _, _, isReference, followed, found, rest,
        Nat.lt_succ_self _⟩
    · obtain ⟨passed, isPassed, same, category, typeId, name, next, others, isReferencePassed,
        followedPassed, foundPassed, chainPassed, shorter⟩ :=
        inductionHypothesis (mem_registered_of_lookup? found) later
      exact ⟨passed, isPassed, same, category, typeId, name, next, others, isReferencePassed,
        followedPassed, foundPassed, chainPassed, Nat.lt_succ_of_lt shorter⟩

end Chain

/-- Registered references to follow that have one key are looked up alike. -/
def LookedUpAlike (binary : Binary) (follows : ReferenceClass → Bool) : Prop :=
  ∀ left ∈ binary.registered, ∀ right ∈ binary.registered, left.key = right.key →
    ∀ category typeId name otherCategory otherId otherName,
      left.kind = .reference category typeId name → follows category = true →
      right.kind = .reference otherCategory otherId otherName → follows otherCategory = true →
        binary.lookup? typeId name = binary.lookup? otherId otherName

/-- Where references with one key are looked up alike, a chain that ends repeats no key: after the
second reference with a key it would go on as it did after the first. -/
theorem Chain.nodup_of_lookedUpAlike (alike : binary.LookedUpAlike follows)
    (chain : binary.Chain follows keys start target) (isRegistered : start ∈ binary.registered) :
    keys.Nodup := by
  induction chain with
  | here => exact List.nodup_nil
  | further isReference followed found rest inductionHypothesis =>
    have nextRegistered := mem_registered_of_lookup? found
    refine List.nodup_cons.mpr ⟨fun again => ?_, inductionHypothesis nextRegistered⟩
    obtain ⟨passed, isPassed, same, category, typeId, name, next, others, isReferencePassed,
      followedPassed, foundPassed, chainPassed, shorter⟩ := rest.exists_of_mem nextRegistered again
    have sameLookup := alike _ isRegistered passed isPassed same.symm _ _ _ _ _ _ isReference
      followed isReferencePassed followedPassed
    rw [found, foundPassed] at sameLookup
    cases sameLookup
    rw [(rest.unique chainPassed).1] at shorter
    exact Nat.lt_irrefl _ shorter

/-! ### The loop without an allowance -/

/-- What following references comes to. -/
inductive Pursuit where
  /-- A descriptor that is no reference to follow. -/
  | found (target : Descriptor)
  /-- A reference that names no registered type. -/
  | unresolved
  /-- A key that was seen before. -/
  | cycle

/-- The descriptor that was found. -/
def Pursuit.target? : Pursuit → Option Descriptor
  | .found target => some target
  | .unresolved | .cycle => none

/-- Following references from a descriptor, after references with the keys in `seen`. -/
inductive Pursues (binary : Binary) (follows : ReferenceClass → Bool) :
    List String → Descriptor → Pursuit → Prop
  | found {seen : List String} {current : Descriptor}
      (final : ∀ category typeId name, current.kind = .reference category typeId name →
        follows category = false) :
      Pursues binary follows seen current (.found current)
  | cycle {seen : List String} {current : Descriptor} {category : ReferenceClass}
      {typeId : Option String} {name : String}
      (isReference : current.kind = .reference category typeId name)
      (followed : follows category = true) (again : current.key ∈ seen) :
      Pursues binary follows seen current .cycle
  | unresolved {seen : List String} {current : Descriptor} {category : ReferenceClass}
      {typeId : Option String} {name : String}
      (isReference : current.kind = .reference category typeId name)
      (followed : follows category = true) (unseen : current.key ∉ seen)
      (missing : binary.lookup? typeId name = none) :
      Pursues binary follows seen current .unresolved
  | further {seen : List String} {current next : Descriptor} {category : ReferenceClass}
      {typeId : Option String} {name : String} {pursuit : Pursuit}
      (isReference : current.kind = .reference category typeId name)
      (followed : follows category = true) (unseen : current.key ∉ seen)
      (found : binary.lookup? typeId name = some next)
      (rest : Pursues binary follows (current.key :: seen) next pursuit) :
      Pursues binary follows seen current pursuit

namespace Pursues

/-- What the loop comes to is unique. -/
theorem unique {pursuit other : Pursuit} (run : binary.Pursues follows seen start pursuit)
    (otherRun : binary.Pursues follows seen start other) : other = pursuit := by
  induction run generalizing other with
  | found final =>
    cases otherRun with
    | found => rfl
    | cycle isReference followed | unresolved isReference followed
    | further isReference followed =>
      exact absurd followed (not_followed_of_final final isReference)
  | cycle isReference followed again =>
    cases otherRun with
    | found final => exact absurd followed (not_followed_of_final final isReference)
    | cycle => rfl
    | unresolved _ _ unseen | further _ _ unseen => exact absurd again unseen
  | unresolved isReference followed unseen missing =>
    cases otherRun with
    | found final => exact absurd followed (not_followed_of_final final isReference)
    | cycle _ _ again => exact absurd again unseen
    | unresolved => rfl
    | further isReferenceOther _ _ foundOther =>
      rw [isReference] at isReferenceOther
      cases isReferenceOther
      rw [missing] at foundOther
      cases foundOther
  | further isReference followed unseen found rest inductionHypothesis =>
    cases otherRun with
    | found final => exact absurd followed (not_followed_of_final final isReference)
    | cycle _ _ again => exact absurd again unseen
    | unresolved isReferenceOther _ _ missing =>
      rw [isReference] at isReferenceOther
      cases isReferenceOther
      rw [missing] at found
      cases found
    | further isReferenceOther _ _ foundOther restOther =>
      rw [isReference] at isReferenceOther
      cases isReferenceOther
      rw [found] at foundOther
      cases foundOther
      exact inductionHypothesis restOther

/-- The loop finds the end of a chain that repeats no key and meets none seen before. -/
theorem found_iff : binary.Pursues follows seen start (.found target) ↔
    ∃ keys, binary.Chain follows keys start target ∧ keys.Nodup ∧ ∀ key ∈ keys, key ∉ seen := by
  constructor
  · intro run
    generalize same : Pursuit.found target = pursuit at run
    induction run with
    | found final =>
      cases same
      exact ⟨[], .here final, List.nodup_nil, fun _ => nofun⟩
    | cycle | unresolved => cases same
    | further isReference followed unseen found rest inductionHypothesis =>
      obtain ⟨keys, chain, distinct, avoids⟩ := inductionHypothesis same
      refine ⟨_, .further isReference followed found chain, ?_, ?_⟩
      · exact List.nodup_cons.mpr ⟨fun again => avoids _ again List.mem_cons_self, distinct⟩
      · exact List.forall_mem_cons.mpr ⟨unseen, fun key isKey earlier =>
          avoids key isKey (List.mem_cons_of_mem _ earlier)⟩
  · rintro ⟨keys, chain, distinct, avoids⟩
    induction chain generalizing seen with
    | here final => exact .found final
    | further isReference followed found rest inductionHypothesis =>
      obtain ⟨fresh, distinctRest⟩ := List.nodup_cons.mp distinct
      obtain ⟨unseen, avoidsRest⟩ := List.forall_mem_cons.mp avoids
      refine .further isReference followed unseen found (inductionHypothesis distinctRest ?_)
      intro key isKey earlier
      rcases List.mem_cons.mp earlier with rfl | before
      · exact fresh isKey
      · exact avoidsRest key isKey before

end Pursues

/-- The number of registered keys that were not seen. -/
def unseenCount (binary : Binary) (seen : List String) : Nat :=
  ((binary.registered.map (·.key)).filter (· ∉ seen)).length

theorem unseenCount_cons_lt (isRegistered : start ∈ binary.registered)
    (unseen : start.key ∉ seen) :
    binary.unseenCount (start.key :: seen) < binary.unseenCount seen := by
  have split : (binary.registered.map (·.key)).filter (· ∉ start.key :: seen) =
      ((binary.registered.map (·.key)).filter (· ∉ seen)).filter (· ≠ start.key) := by
    rw [List.filter_filter]
    refine List.filter_congr fun key _ => ?_
    simp [not_or]
  rw [unseenCount, unseenCount, split, List.length_filter_lt_length_iff_exists]
  exact ⟨start.key, List.mem_filter.mpr ⟨List.mem_map_of_mem isRegistered, by simpa using unseen⟩,
    by simp⟩

/-- The loop stops if it stops after the next lookup. -/
theorem exists_pursues_of_next
    (onward : ∀ next ∈ binary.registered, start.key ∉ seen →
      ∃ pursuit, binary.Pursues follows (start.key :: seen) next pursuit) :
    ∃ pursuit, binary.Pursues follows seen start pursuit := by
  by_cases final : ∀ category typeId name, start.kind = .reference category typeId name →
      follows category = false
  · exact ⟨_, .found final⟩
  · push Not at final
    obtain ⟨category, typeId, name, isReference, followed⟩ := final
    rw [ne_eq, Bool.not_eq_false] at followed
    by_cases again : start.key ∈ seen
    · exact ⟨_, .cycle isReference followed again⟩
    · cases looked : binary.lookup? typeId name with
      | none => exact ⟨_, .unresolved isReference followed again looked⟩
      | some next =>
        obtain ⟨pursuit, rest⟩ := onward next (mem_registered_of_lookup? looked) again
        exact ⟨pursuit, .further isReference followed again looked rest⟩

/-- From a registered type the loop stops: every step leaves one unseen key less. -/
theorem exists_pursues_of_mem_registered (isRegistered : start ∈ binary.registered) :
    ∃ pursuit, binary.Pursues follows seen start pursuit := by
  induction left : binary.unseenCount seen using Nat.strongRecOn generalizing seen start with
  | ind count inductionHypothesis =>
    subst left
    exact exists_pursues_of_next fun next nextRegistered unseen =>
      inductionHypothesis _ (unseenCount_cons_lt isRegistered unseen) nextRegistered rfl

/-- A reference to follow is followed to the end of its chain if no key stands twice on the chain
behind it. Its own key does not count. -/
theorem bind_follow?_eq_some_iff {reference : Descriptor} {category : ReferenceClass}
    {typeId : Option String} {name : String}
    (isReference : reference.kind = .reference category typeId name)
    (followed : follows category = true) :
    (binary.lookup? typeId name).bind (binary.follow? follows) = some target ↔
      ∃ keys, binary.Chain follows keys reference target ∧ keys.tail.Nodup := by
  rw [Option.bind_eq_some_iff]
  constructor
  · rintro ⟨next, looked, found⟩
    obtain ⟨keys, chain, distinct⟩ := follow?_eq_some_iff.mp found
    exact ⟨_, .further isReference followed looked chain, distinct⟩
  · rintro ⟨keys, chain, distinct⟩
    cases chain with
    | here final => exact absurd followed (not_followed_of_final final isReference)
    | further isReferenceAgain followedAgain looked rest =>
      rw [isReference] at isReferenceAgain
      cases isReferenceAgain
      exact ⟨_, looked, follow?_eq_some_iff.mpr ⟨_, rest, distinct⟩⟩

/-- The loop stops, in one way, and the function with an allowance finds what it finds. -/
theorem exists_pursuit (binary : Binary) (follows : ReferenceClass → Bool) (start : Descriptor) :
    ∃ pursuit, (∀ other, binary.Pursues follows [] start other ↔ other = pursuit) ∧
      binary.follow? follows start = pursuit.target? := by
  obtain ⟨pursuit, run⟩ : ∃ pursuit, binary.Pursues follows [] start pursuit :=
    exists_pursues_of_next fun next isRegistered _ => exists_pursues_of_mem_registered isRegistered
  have same : ∀ other, binary.Pursues follows [] start other ↔ other = pursuit :=
    fun other => ⟨run.unique, fun same => same ▸ run⟩
  refine ⟨pursuit, same, Option.ext fun target => ?_⟩
  have finds : binary.follow? follows start = some target ↔ Pursuit.found target = pursuit := by
    rw [← same, Pursues.found_iff, follow?_eq_some_iff]
    simp
  rw [finds]
  cases pursuit with
  | found own => simp [Pursuit.target?, eq_comm]
  | unresolved | cycle => simp [Pursuit.target?]

end Binary

/-! ### Requests for references -/

namespace Normalizer

variable {binary : Binary} {pointerSize : UInt64} {reference : Descriptor}
  {category : ReferenceClass} {typeId : Option String} {name : String}

/-- The normalizer that holds void only. -/
def voidOnly (pointerSize : UInt64) : Normalizer :=
  { new pointerSize with store := TypeStore.empty.pushLeaf .void ⟨0⟩ }

theorem normalize_of_opening_instead {target : Descriptor}
    (opens : binary.opening pointerSize reference = .instead target) :
    normalize binary reference (new pointerSize) = normalize binary target (new pointerSize) := by
  have same : Building.build binary (new pointerSize).pointerSize reference
      (new pointerSize).draft =
        Building.build binary (new pointerSize).pointerSize target (new pointerSize).draft :=
    Building.build_of_instead rfl opens
  rw [normalize, normalize, same]

theorem normalize_of_opening_void
    (opens : binary.opening pointerSize reference = .leaf .void) :
    normalize binary reference (new pointerSize) = .ok ⟨0⟩ (voidOnly pointerSize) := by
  have built : Building.build binary (new pointerSize).pointerSize reference
      (new pointerSize).draft = .ok ⟨0⟩ (voidOnly pointerSize).draft :=
    Building.build_of_leaf rfl opens rfl
  rw [normalize, built]
  rfl

/-- What the work on a reference to a tagged type begins with. -/
theorem opening_of_isTag (binary : Binary) (pointerSize : UInt64)
    (isReference : reference.kind = .reference category typeId name)
    (tagged : category.isTag = true) :
    binary.opening pointerSize reference =
      match (binary.lookup? typeId name).bind (binary.follow? ReferenceClass.isTag) with
      | some target => .instead target
      | none => .leaf .void := by
  simp only [Binary.opening, isReference, Binary.resolve_of_isTag binary tagged]
  cases (binary.lookup? typeId name).bind (binary.follow? ReferenceClass.isTag) <;> rfl

/-- What a new normalizer does with a reference to a tagged type. Following references stops. If a
chain without a repeated key leads from what the reference names to an end, the request does what
a request for the end of the chain does, and if not it gives void. So where registered references
with one key are looked up alike, it gives void only if the chain breaks off or has no end. -/
theorem normalize_tagReference (binary : Binary) (pointerSize : UInt64) {reference : Descriptor}
    {category : ReferenceClass} {typeId : Option String} {name : String}
    (isReference : reference.kind = .reference category typeId name)
    (tagged : category.isTag = true) :
    (∀ start, ∃ pursuit,
        (∀ other, binary.Pursues ReferenceClass.isTag [] start other ↔ other = pursuit) ∧
          binary.follow? ReferenceClass.isTag start = pursuit.target?) ∧
      (∀ keys target, binary.Chain ReferenceClass.isTag keys reference target →
        keys.tail.Nodup → normalize binary reference (new pointerSize) =
          normalize binary target (new pointerSize)) ∧
      ((∀ keys target, binary.Chain ReferenceClass.isTag keys reference target →
          ¬ keys.tail.Nodup) →
        normalize binary reference (new pointerSize) = .ok ⟨0⟩ (voidOnly pointerSize)) ∧
      (binary.LookedUpAlike ReferenceClass.isTag →
        ∀ keys target, binary.Chain ReferenceClass.isTag keys reference target →
          keys.tail.Nodup) := by
  have opens := opening_of_isTag binary pointerSize isReference tagged
  refine ⟨binary.exists_pursuit ReferenceClass.isTag, ?_, ?_, ?_⟩
  · intro keys target chain distinct
    rw [(Binary.bind_follow?_eq_some_iff isReference tagged).mpr ⟨keys, chain, distinct⟩] at opens
    exact normalize_of_opening_instead opens
  · intro repeats
    cases found : (binary.lookup? typeId name).bind (binary.follow? ReferenceClass.isTag) with
    | none =>
      rw [found] at opens
      exact normalize_of_opening_void opens
    | some target =>
      obtain ⟨keys, chain, distinct⟩ :=
        (Binary.bind_follow?_eq_some_iff isReference tagged).mp found
      exact absurd distinct (repeats keys target chain)
  · intro alike keys target chain
    cases chain with
    | here => exact List.nodup_nil
    | further _ _ looked rest =>
      exact rest.nodup_of_lookedUpAlike alike (Binary.mem_registered_of_lookup? looked)

/-- A structure that shares its name with the references that lead to it. -/
def sharedRecord : Descriptor := .aggregate .structType (some "shared") 1 [.ofType "flag" 0 .bool]

/-- A reference to the structure, told apart from the others by its id only. -/
def sharedReference (typeId : String) : Descriptor :=
  .reference .structType "shared" (some typeId)

/-- A binary in which the reference with the id `a` leads to the one with the id `b`, that one to
the one with the id `c`, and the last one to the structure. -/
def forwardingBinary : Binary :=
  ((Binary.linuxAmd64.registerType "first" (some "a") (sharedReference "b")).registerType
    "second" (some "b") (sharedReference "c")).registerType "shared" (some "c") sharedRecord

/-- The chain from the reference in the middle. -/
theorem chain_sharedReference : forwardingBinary.Chain ReferenceClass.isTag
    [(sharedReference "b").key, (sharedReference "c").key] (sharedReference "b") sharedRecord := by
  have final : ∀ category typeId name, sharedRecord.kind = .reference category typeId name →
      category.isTag = false := nofun
  have last : forwardingBinary.Chain ReferenceClass.isTag [(sharedReference "c").key]
      (sharedReference "c") sharedRecord := .further rfl rfl rfl (.here final)
  exact .further rfl rfl rfl last

/-- Behind the reference in the middle no key is repeated, and a request for it gives the
structure. -/
theorem normalize_tagReference_sharedReference :
    (sharedReference "b").kind = .reference .structType (some "b") "shared" ∧
      ReferenceClass.structType.isTag = true ∧
      normalize forwardingBinary (sharedReference "b") (new 8) =
        normalize forwardingBinary sharedRecord (new 8) :=
  ⟨rfl, rfl, (@normalize_tagReference forwardingBinary 8 (sharedReference "b") _ _ _ rfl rfl).2.1
    _ _ chain_sharedReference (by decide)⟩

/-- Behind the first reference a key is repeated, and a request for it gives void, although its
chain ends at the structure. -/
theorem sharedReference_lost :
    (∃ keys, forwardingBinary.Chain ReferenceClass.isTag keys (sharedReference "a")
        sharedRecord) ∧
      normalize forwardingBinary (sharedReference "a") (new 8) = .ok ⟨0⟩ (voidOnly 8) ∧
      normalize forwardingBinary (sharedReference "a") (new 8) ≠
        normalize forwardingBinary sharedRecord (new 8) := by
  have lost : normalize forwardingBinary (sharedReference "a") (new 8) = .ok ⟨0⟩ (voidOnly 8) := rfl
  refine ⟨⟨_, .further rfl rfl rfl chain_sharedReference⟩, lost, fun sameAnswer => ?_⟩
  rw [lost] at sameAnswer
  have sameSize := congrArg (fun result => (finalState result).store.size) sameAnswer
  exact absurd sameSize (by decide)

end Normalizer

end BinaryFacts
