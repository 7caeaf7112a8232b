/-
This file compares a request for an alias with a request for the type that the alias stands for.

A row of aliases leads from one reference to a typedef to the next, and from the last one to a
target. The run of the first alias enters the keys of the row and then builds the target, and the
run of the target builds it with none of these keys known. Apart from them both runs always know
the same keys. Where the run of the first alias meets an alias again, the key is known. Where the
run of the target meets one, it goes down the rest of the row to the target, whose own key is
known by then, and comes back: a detour that enters keys of aliases and changes nothing else. So
both runs end in the same way, unless the ids run out in one of them.

The detour needs a key at its end. An aggregate without a registered name has none, so a detour
leads through all its members once more, and meets unknown kinds in another order.
-/

import BinaryFacts.Proofs.Descriptor.Aliases

namespace BinaryFacts

/-! ### Keys of aliases -/

namespace Draft

/-- A draft that knows the keys of another one and those of a row of descriptors. -/
def Enters (row : List Descriptor) (draft entered : Draft) : Prop :=
  ∀ key, entered.identities.find? key = none ↔
    draft.identities.find? key = none ∧ key ∉ Binary.keysOf row

namespace Enters

variable {row : List Descriptor} {current : Descriptor} {id : TypeId} {key : String}
  {draft entered : Draft}

theorem nil (draft : Draft) : draft.Enters [] draft := fun key => by
  simp [Binary.keysOf]

theorem cons (enters : (draft.withNode true current.key id .void).Enters row entered) :
    draft.Enters (current :: row) entered := fun key => by
  rw [enters key, find?_withNode_eq_none_iff]
  simp [Binary.keysOf, and_assoc, not_or]

theorem sameKeys (enters : draft.Enters row entered) :
    entered.SameKeys (Binary.keysOf row)ᶜ draft := by
  intro key isOther
  rw [enters key]
  exact and_iff_left isOther

theorem ne_none (enters : draft.Enters row entered) (isKey : key ∈ Binary.keysOf row) :
    entered.identities.find? key ≠ none :=
  fun unknown => ((enters key).mp unknown).2 isKey

end Enters

/-- A draft that knows more of some keys, and of all others the same. -/
structure Detours (keys : Set String) (before after : Draft) : Prop where
  same : before.SameKeys keysᶜ after
  kept : ∀ key, after.identities.find? key = none → before.identities.find? key = none

namespace Detours

variable {keys : Set String} {before middle after : Draft}

theorem refl (keys : Set String) (draft : Draft) : draft.Detours keys draft where
  same _ _ := Iff.rfl
  kept _ unknown := unknown

theorem trans (detours : before.Detours keys middle) (further : middle.Detours keys after) :
    before.Detours keys after where
  same := detours.same.trans further.same
  kept key unknown := detours.kept key (further.kept key unknown)

theorem withNode (draft : Draft) {keyed : Bool} {key : String} (isKey : key ∈ keys) (id : TypeId)
    (node : TypeNode TypeId) : draft.Detours keys (draft.withNode keyed key id node) where
  same sought isOther := by
    rw [find?_withNode_eq_none_iff, iff_self_and]
    rintro - ⟨-, rfl⟩
    exact isOther isKey
  kept sought unknown := (find?_withNode_eq_none_iff.mp unknown).1

theorem filled (detours : before.Detours keys after) (id : TypeId) (node : TypeNode TypeId) :
    before.Detours keys (after.filled id node) where
  same := detours.same
  kept := detours.kept

end Detours

end Draft

/-! ### Down a row of aliases -/

namespace Building

variable {binary : Binary} {pointerSize : UInt64} {row : List Descriptor}
  {start target own : Descriptor} {keys : Set String} {draft : Draft}

section Typedef

variable {build : Descriptor → Building TypeId} {next : Descriptor} {middle : Draft}

/-- A typedef has no padding, so it is closed where the type that it names is built. -/
theorem buildForm_typedef_of_ok {item : TypeId} (built : build next draft = .ok item middle)
    (id : TypeId) :
    buildForm build id (.typedef next) draft = .ok id (middle.filled id (.typedef item)) := by
  have filled : (Form.typedef next).mapM build draft = .ok (.typedef item) middle :=
    bind_of_ok _ built
  exact bind_of_ok _ filled

theorem buildForm_typedef_of_error {error : NormalizeError}
    (failed : build next draft = .error error middle) (id : TypeId) :
    buildForm build id (.typedef next) draft = .error error middle :=
  bind_of_error _ (bind_of_error _ failed)

end Typedef

/-- The work on an alias whose key is not known enters the key and builds what the alias names. -/
theorem build_of_isAlias (pointerSize : UInt64) {current next : Descriptor}
    {typeId : Option String} {name : String}
    (isAlias : current.kind = .reference .typedef typeId name)
    (found : binary.lookup? typeId name = some next)
    (unknown : draft.identities.find? current.key = none) :
    build binary pointerSize current draft =
      match draft.store.next? with
      | some id => buildForm (build binary pointerSize) id (.typedef next)
          (draft.withNode true current.key id .void)
      | none => .error .storeFull draft := by
  obtain ⟨opens, keyed⟩ := Binary.opening_of_isAlias isAlias found pointerSize
  have builds := build_of_form unknown opens
  rw [keyed] at builds
  exact builds

/-- Two runs that both succeed, or fail with the same error, unless the ids run out in one of
them. -/
def SameEnd {Value Other : Type} (first : EStateM.Result NormalizeError Draft Value)
    (second : EStateM.Result NormalizeError Draft Other) : Prop :=
  SameWay NormalizeError.IsFull (fun _ _ => True) anyValues first second

/-- A request for the first alias of a row enters the keys of the row and then builds the target,
and ends as the work on the target does. -/
theorem sameEnd_of_aliases (aliases : binary.Aliases row start target)
    (distinct : (row.map (·.key)).Nodup)
    (unknown : ∀ current ∈ row, draft.identities.find? current.key = none)
    {result : EStateM.Result NormalizeError Draft TypeId}
    (ends : ∀ entered, draft.Enters row entered →
      SameEnd (build binary pointerSize target entered) result) :
    SameEnd (build binary pointerSize start draft) result := by
  induction aliases generalizing draft with
  | here target => exact ends draft (.nil draft)
  | @further current next target rest typeId name isAlias found aliases inductionHypothesis =>
    obtain ⟨fresh, distinctRest⟩ := List.nodup_cons.mp distinct
    rw [build_of_isAlias pointerSize isAlias found (unknown current List.mem_cons_self)]
    cases draft.store.next? with
    | none => exact .passedLeft .storeFull _ _
    | some id =>
      have unknownRest : ∀ other ∈ rest,
          (draft.withNode true current.key id .void).identities.find? other.key = none := by
        intro other isOther
        refine Draft.find?_withNode_eq_none_iff.mpr
          ⟨unknown other (List.mem_cons_of_mem _ isOther), ?_⟩
        rintro ⟨-, same⟩
        exact fresh (List.mem_map.mpr ⟨other, isOther, same⟩)
      have same := inductionHypothesis distinctRest unknownRest
        fun entered enters => ends entered enters.cons
      dsimp only
      generalize built : build binary pointerSize next
        (draft.withNode true current.key id .void) = inner at same
      cases inner with
      | ok item middle =>
        rw [buildForm_typedef_of_ok built]
        cases same with
        | ok => exact .ok trivial trivial
        | passedRight isPassed => exact .passedRight isPassed _ _
      | error error middle =>
        rw [buildForm_typedef_of_error built]
        exact same

/-- A descriptor that stands for one with a known key is settled. -/
theorem exists_settles_of_stands (pointerSize : UInt64)
    (stands : binary.dereference? target = some own)
    (settled : draft.identities.find? own.key ≠ none) :
    ∃ id, draft.Settles binary pointerSize target id := by
  obtain ⟨id, known⟩ := Option.ne_none_iff_exists'.mp settled
  cases here : draft.identities.find? target.key with
  | some other => exact ⟨other, .known here⟩
  | none =>
    rcases Binary.opening_of_dereference? stands pointerSize with rfl | opens
    · rw [here] at known
      cases known
    · exact ⟨id, .instead here opens (.known known)⟩

/-- A row of aliases is a detour where the descriptor that the target stands for is known by its
key, or is the first alias of the row. -/
theorem full_or_detour (pointerSize : UInt64) (aliases : binary.Aliases row start target)
    (stands : binary.dereference? target = some own) (within : Binary.keysOf row ⊆ keys)
    (settled : draft.identities.find? own.key ≠ none ∨ row.head? = some own) :
    (∃ after, build binary pointerSize start draft = .error .storeFull after) ∨
      ∃ id after, build binary pointerSize start draft = .ok id after ∧
        draft.Detours keys after := by
  induction aliases generalizing draft with
  | here target =>
    rcases settled with known | isHead
    · obtain ⟨id, isSettled⟩ := exists_settles_of_stands pointerSize stands known
      exact Or.inr ⟨id, draft, isSettled.build_eq, .refl keys draft⟩
    · cases isHead
  | @further current next target rest typeId name isAlias found aliases inductionHypothesis =>
    have isKey : current.key ∈ keys := within (Binary.key_mem_keysOf List.mem_cons_self)
    cases unknown : draft.identities.find? current.key with
    | some id => exact Or.inr ⟨id, draft, build_of_known unknown, .refl keys draft⟩
    | none =>
      rw [build_of_isAlias pointerSize isAlias found unknown]
      cases draft.store.next? with
      | none => exact Or.inl ⟨draft, rfl⟩
      | some id =>
        have settledNow :
            (draft.withNode true current.key id .void).identities.find? own.key ≠ none := by
          rw [ne_eq, Draft.find?_withNode_eq_none_iff]
          rintro ⟨stillUnknown, different⟩
          rcases settled with known | isHead
          · exact known stillUnknown
          · cases isHead
            exact different ⟨rfl, rfl⟩
        rcases inductionHypothesis stands
          (fun key isOther => within (List.mem_cons_of_mem _ isOther)) (Or.inl settledNow) with
          ⟨after, full⟩ | ⟨item, middle, built, detours⟩
        · exact Or.inl ⟨after, buildForm_typedef_of_error full id⟩
        · have whole := (Draft.Detours.withNode draft isKey id .void).trans detours
          exact Or.inr ⟨id, _, buildForm_typedef_of_ok built id, whole.filled id _⟩

end Building

/-! ### Two runs -/

/-- A draft that knows all of some keys, beside one that knows the key of `own`. Of other keys they
know the same. -/
structure Draft.Ahead (keys : Set String) (own : Descriptor) (left right : Draft) : Prop where
  same : left.SameKeys keysᶜ right
  entered : ∀ key ∈ keys, left.identities.find? key ≠ none
  settled : right.identities.find? own.key ≠ none

namespace Draft.Ahead

variable {keys : Set String} {own : Descriptor} {left right after : Draft}

theorem steady (keys : Set String) (own : Descriptor) :
    Building.Steady keysᶜ (Ahead keys own) where
  sameKeys ahead := ahead.same
  of_identities ahead kept keptToo :=
    { same := (Building.steady_sameKeys _).of_identities ahead.same kept keptToo
      entered := by
        rw [kept]
        exact ahead.entered
      settled := by
        rw [keptToo]
        exact ahead.settled }
  withNode ahead keyed key id other node otherNode :=
    { same := ahead.same.withNode
      entered := fun sought isKey unknown =>
        ahead.entered sought isKey (Draft.find?_withNode_eq_none_iff.mp unknown).1
      settled := fun unknown => ahead.settled (Draft.find?_withNode_eq_none_iff.mp unknown).1 }

/-- A detour of the second run makes no difference. -/
theorem detours (ahead : Ahead keys own left right) (detours : right.Detours keys after) :
    Ahead keys own left after where
  same := ahead.same.trans detours.same
  entered := ahead.entered
  settled unknown := ahead.settled (detours.kept _ unknown)

/-- At an alias the first run has nothing to do and the second makes a detour. -/
theorem sameWay_visit {binary : Binary} {row : List Descriptor} {start target current : Descriptor}
    (ahead : Ahead (Binary.keysOf row) own left right)
    (aliases : binary.Aliases row start target) (stands : binary.dereference? target = some own)
    (isAlias : current ∈ row) (pointerSize : UInt64) :
    SameWay NormalizeError.IsFull (Ahead (Binary.keysOf row) own) anyValues
      (Building.build binary pointerSize current left)
      (Building.build binary pointerSize current right) := by
  obtain ⟨id, known⟩ := Option.ne_none_iff_exists'.mp
    (ahead.entered _ (Binary.key_mem_keysOf isAlias))
  obtain ⟨rest, further, isSuffix⟩ := aliases.exists_suffix isAlias
  have within : Binary.keysOf (current :: rest) ⊆ Binary.keysOf row :=
    fun key isKey => (isSuffix.map _).subset isKey
  rw [Building.build_of_known known]
  rcases Building.full_or_detour pointerSize further stands within (Or.inl ahead.settled) with
    ⟨last, full⟩ | ⟨other, last, built, detours⟩
  · rw [full]
    exact .passedRight .storeFull _ _
  · rw [built]
    exact .ok (ahead.detours detours) trivial

end Draft.Ahead

/-! ### Requests for aliases -/

namespace Building

variable {binary : Binary} {pointerSize : UInt64} {row : List Descriptor}
  {start target own : Descriptor} {draft entered : Draft}

/-- Where the target leads to no alias, what is known of aliases makes no difference. -/
theorem sameEnd_of_apart (renames : binary.Renames row start target)
    (apart : ∀ current ∈ row, current ∉ binary.closure [target])
    (enters : draft.Enters row entered) :
    SameEnd (build binary pointerSize target entered) (build binary pointerSize target draft) := by
  refine ((steady_sameKeys _).sameWay_build (binary.isClosed_closure [target]) ?_
    (Binary.mem_closure List.mem_cons_self) enters.sameKeys).weaken
  intro reached isReached isKey
  have isAlias := renames.exclusive reached isReached (not_not.mp isKey)
  exact absurd isReached (apart reached isAlias)

section Fresh

variable (renames : binary.Renames row start target)
  (fresh : ∀ key, draft.identities.find? key = none) (enters : draft.Enters row entered)
  (stands : binary.dereference? target = some own)
include renames fresh enters stands

/-- If the work on the descriptor for which the target stands ends in the same way in both runs,
so does the work on the target. -/
theorem sameEnd_of_stands
    (same : SameEnd (build binary pointerSize own entered) (build binary pointerSize own draft)) :
    SameEnd (build binary pointerSize target entered) (build binary pointerSize target draft) := by
  rcases Binary.opening_of_dereference? stands pointerSize with rfl | opens
  · exact same
  · have unknown := (enters _).mpr ⟨fresh target.key, renames.target_notMem⟩
    rw [build_of_instead unknown opens, build_of_instead (fresh _) opens]
    exact same

/-- Where the target stands for a keyed descriptor that is no alias, both runs enter its key, and
the first is ahead from then on. -/
theorem sameEnd_of_keyed {form : Form Descriptor}
    (opens : binary.opening pointerSize own = .form form) (keyed : binary.isKeyed own = true)
    (outside : own.key ∉ Binary.keysOf row) :
    SameEnd (build binary pointerSize target entered) (build binary pointerSize target draft) := by
  have closed := binary.isClosed_closure [target]
  have isReached := Binary.mem_closure_of_stands stands
  have steady := Draft.Ahead.steady (Binary.keysOf row) own
  have unknown := (enters _).mpr ⟨fresh own.key, outside⟩
  refine sameEnd_of_stands renames fresh enters stands ?_
  rw [build_of_form unknown opens, build_of_form (fresh _) opens, keyed]
  cases entered.store.next? with
  | none => exact .passedLeft .storeFull _ _
  | some id =>
    cases draft.store.next? with
    | none => exact .passedRight .storeFull _ _
    | some other =>
      have ahead : Draft.Ahead (Binary.keysOf row) own (entered.withNode true own.key id .void)
          (draft.withNode true own.key other .void) :=
        { same := enters.sameKeys.withNode
          entered := fun key isKey stillUnknown =>
            enters.ne_none isKey (Draft.find?_withNode_eq_none_iff.mp stillUnknown).1
          settled := fun stillUnknown =>
            (Draft.find?_withNode_eq_none_iff.mp stillUnknown).2 ⟨rfl, rfl⟩ }
      refine (steady.sameWay_buildForm id other ahead fun part isPart _ _ aheadBefore => ?_).weaken
      refine steady.sameWay_build closed ?_
        (closed _ isReached _ (Binary.mem_successors_of_opening_form opens isPart)) aheadBefore
      intro reached isReached isKey _ _ aheadHere
      exact aheadHere.sameWay_visit renames.aliases stands
        (renames.exclusive reached isReached (not_not.mp isKey)) pointerSize

/-- Where the target stands for one of its own aliases, both runs come back to this alias. -/
theorem sameEnd_of_alias (isAlias : own ∈ row) :
    SameEnd (build binary pointerSize target entered) (build binary pointerSize target draft) := by
  refine sameEnd_of_stands renames fresh enters stands ?_
  obtain ⟨id, known⟩ := Option.ne_none_iff_exists'.mp
    (enters.ne_none (Binary.key_mem_keysOf isAlias))
  obtain ⟨rest, aliases, -⟩ := renames.aliases.exists_suffix isAlias
  rw [build_of_known known]
  rcases full_or_detour pointerSize aliases stands (Set.subset_univ _) (Or.inr rfl) with
    ⟨after, full⟩ | ⟨other, after, built, -⟩
  · rw [full]
    exact .passedRight .storeFull _ _
  · rw [built]
    exact .ok trivial trivial

end Fresh

/-- Where no kind is unknown, requests succeed unless the ids run out. -/
theorem full_or_built (pointerSize : UInt64) {family : Set Descriptor}
    (closed : binary.IsClosed family) (kinds : ∀ reached ∈ family, ¬ reached.IsUnknown)
    {descriptor : Descriptor} (isMember : descriptor ∈ family) (draft : Draft) :
    (∃ after, build binary pointerSize descriptor draft = .error .storeFull after) ∨
      ∃ id after, build binary pointerSize descriptor draft = .ok id after := by
  have run := follows_build binary pointerSize descriptor draft
  generalize build binary pointerSize descriptor draft = result at run
  cases result with
  | ok id after => exact Or.inr ⟨id, after, rfl⟩
  | error error after =>
    by_cases isFull : error = .storeFull
    · exact Or.inl ⟨after, by rw [isFull]⟩
    · obtain ⟨unknown, isReached, kind, isOther, -⟩ := Builds.exists_named closed run rfl isFull
        (fun other isOwn => List.mem_singleton.mp isOwn ▸ isMember)
      exact absurd ⟨kind, isOther⟩ (kinds unknown isReached)

/-- If the target leads to no unknown kind, neither does an alias of it, and both requests
succeed unless the ids run out. -/
theorem sameEnd_of_kinds (aliases : binary.Aliases row start target)
    (kinds : ∀ reached ∈ binary.closure [target], ¬ reached.IsUnknown) :
    SameEnd (build binary pointerSize start draft) (build binary pointerSize target draft) := by
  have allKinds : ∀ reached ∈ {current | current ∈ row} ∪ binary.closure [target],
      ¬ reached.IsUnknown := by
    rintro reached (isAlias | isReached)
    · obtain ⟨rest, further, -⟩ := aliases.exists_suffix isAlias
      cases further with
      | further isReference =>
        rintro ⟨kind, isOther⟩
        rw [isReference] at isOther
        cases isOther
    · exact kinds reached isReached
  rcases full_or_built pointerSize aliases.isClosed allKinds aliases.start_mem draft with
    ⟨after, full⟩ | ⟨id, after, built⟩
  · rw [full]
    exact .passedLeft .storeFull _ _
  rcases full_or_built pointerSize (binary.isClosed_closure _) kinds
    (Binary.mem_closure List.mem_cons_self) draft with ⟨last, full⟩ | ⟨other, last, builtToo⟩
  · rw [full]
    exact .passedRight .storeFull _ _
  · rw [built, builtToo]
    exact .ok trivial trivial

/-- A request for the first of a row of aliases ends as the request for the target does, unless
the ids run out in one of them. -/
theorem sameEnd_of_renames (pointerSize : UInt64) (renames : binary.Renames row start target)
    (tame : binary.TamelyNamed row target)
    (fresh : ∀ key, draft.identities.find? key = none) :
    SameEnd (build binary pointerSize start draft) (build binary pointerSize target draft) := by
  have unknown : ∀ current ∈ row, draft.identities.find? current.key = none :=
    fun current _ => fresh current.key
  by_cases reaches : ∃ current ∈ row, current ∈ binary.closure [target]
  · obtain ⟨current, isAlias, isReached⟩ := reaches
    obtain ⟨own, form, stands, opens⟩ := renames.exists_own isAlias isReached pointerSize
    cases anonymous : own.isAnonymousAggregate with
    | true =>
      exact sameEnd_of_kinds renames.aliases (tame current isAlias isReached own stands anonymous)
    | false =>
      have keyed : binary.isKeyed own = true := by
        by_contra unkeyed
        rw [Binary.isAnonymousAggregate_of_opening opens (Bool.eq_false_of_not_eq_true unkeyed)]
          at anonymous
        cases anonymous
      refine sameEnd_of_aliases renames.aliases renames.nodup unknown fun entered enters => ?_
      by_cases isKey : own.key ∈ Binary.keysOf row
      · exact sameEnd_of_alias renames fresh enters stands
          (renames.exclusive own (Binary.mem_closure_of_stands stands) isKey)
      · exact sameEnd_of_keyed renames fresh enters stands opens keyed isKey
  · exact sameEnd_of_aliases renames.aliases renames.nodup unknown fun entered enters =>
      sameEnd_of_apart renames
        (fun current isAlias isReached => reaches ⟨current, isAlias, isReached⟩) enters

end Building

end BinaryFacts
