/-
This file proves that a normalized structure has the size that the engine states. The node of a
structure is reserved, its members are built, and the plan of their spans becomes the elements of
the node, with padding shared in the store. Where the members lie side by side and the type of
each one has the size of its span, the sizes of the elements add up to the width of the structure,
which is a word, so no sum on the way leaves the words. The elements other than padding are the
ids of the members by ascending offset.
-/

import BinaryFacts.Proofs.Layout.Partition
import BinaryFacts.Proofs.Normalization.History
import BinaryFacts.Proofs.TypeStore.Size

namespace BinaryFacts

/-! ### The parts of a request -/

namespace Building

variable {binary : Binary} {pointerSize : UInt64} {descriptor : Descriptor}
  {before after : Draft}

/-- The work on a descriptor up to the ids of its parts: the node of the descriptor is reserved
and its parts are built one after the other. -/
def buildParts (binary : Binary) (pointerSize : UInt64) (descriptor : Descriptor) :
    Building (List TypeId) := do
  match ← start binary pointerSize descriptor with
  | .done _ | .instead _ => return []
  | .parts _ form => form.parts.mapM (build binary pointerSize)

/-- A descriptor with a form is built by building its parts, putting them into their places and
filling the node that was reserved for it. -/
theorem build_eq_ok_of_form {form : Form Descriptor} {id : TypeId}
    (unknown : before.identities.find? descriptor.key = none)
    (opens : binary.opening pointerSize descriptor = .form form)
    (done : build binary pointerSize descriptor before = .ok id after) :
    ∃ ids middle filled node last,
      buildParts binary pointerSize descriptor before = .ok ids middle ∧
      Builds binary pointerSize
        (before.withNode (binary.isKeyed descriptor) descriptor.key id .void) form.parts
        (.ok ids) middle ∧
      form.refill? ids = some filled ∧ formNode filled middle = .ok node last ∧
      before.store.next? = some id ∧ after = last.filled id node := by
  have begins := start_eq binary pointerSize descriptor before
  have builds := build_eq binary pointerSize descriptor before
  simp only [unknown, opens] at begins
  cases next : before.store.next? with
  | none =>
    simp only [next] at begins
    simp only [begins] at builds
    rw [builds] at done
    cases done
  | some place =>
    simp only [next] at begins
    simp only [begins] at builds
    rw [builds] at done
    cases built : form.parts.mapM (build binary pointerSize)
      (before.withNode (binary.isKeyed descriptor) descriptor.key place .void) with
    | error error middle =>
      rw [buildForm_of_error built] at done
      cases done
    | ok ids middle =>
      obtain ⟨filled, refilled, closing⟩ := exists_buildForm_eq built place
      rw [closing] at done
      obtain ⟨node, last, laid, done⟩ := bind_eq_ok done
      cases done
      refine ⟨ids, middle, filled, node, last, ?_, builds_of_mapM_build built, refilled, laid, rfl,
        rfl⟩
      rw [buildParts, bind_of_ok _ begins]
      exact built

end Building

/-! ### Members and their places -/

/-- The place of a member. -/
def Member.span {Part : Type} (member : Member Part) : Layout.Span Part :=
  ⟨member.offset, member.width, member.type⟩

/-- The places of members, with the ids of their types. -/
def placeMembers {Part : Type} (members : List (Member Part)) (ids : List TypeId) :
    List (Layout.Span TypeId) :=
  (members.zip ids).map fun (member, id) => ⟨member.offset, member.width, id⟩

section Places

variable {Part : Type} {members : List (Member Part)} {ids : List TypeId}

theorem map_item_placeMembers (complete : ids.length = members.length) :
    (placeMembers members ids).map (·.item) = ids := by
  rw [placeMembers, List.map_map]
  exact List.map_snd_zip (Nat.le_of_eq complete)

/-- Members keep their places with the ids of their types. -/
theorem map_placeMembers (complete : ids.length = members.length) :
    (placeMembers members ids).map (Layout.Span.map fun _ => ()) =
      (members.map Member.span).map (Layout.Span.map fun _ => ()) := by
  have whole : (members.zip ids).map Prod.fst = members :=
    List.map_fst_zip (Nat.le_of_eq complete.symm)
  nth_rewrite 2 [← whole]
  simp only [placeMembers, List.map_map]
  rfl

theorem sideBySide_placeMembers {width : UInt64} (complete : ids.length = members.length)
    (apart : Layout.SideBySide width (members.map Member.span)) :
    Layout.SideBySide width (placeMembers members ids) := by
  rw [← Layout.sideBySide_map fun _ => (), map_placeMembers complete, Layout.sideBySide_map]
  exact apart

/-- A structure whose members are built is the structure of their places. -/
theorem eq_struct_of_refill? {variant : AggregateVariant} {width : UInt64}
    {members : List (Member Descriptor)} {filled : Form TypeId}
    (plain : variant ≠ .unionType)
    (refilled : (Building.aggregateForm variant width members).refill? ids = some filled) :
    ids.length = members.length ∧ filled = .struct width (placeMembers members ids) := by
  have isStruct : Building.aggregateForm variant width members =
      .struct width (members.map Member.span) := by
    cases variant with
    | structType | classType => rfl
    | unionType => exact absurd rfl plain
  rw [isStruct, Form.refill?, List.length_map] at refilled
  split at refilled
  · rename_i complete
    cases refilled
    rw [List.zipWith_map_left, placeMembers, List.map_zip_eq_zipWith]
    exact ⟨complete, rfl⟩
  · cases refilled

end Places

/-! ### The elements of a structure in a store -/

namespace TypeStore

variable {store : TypeStore} {pointerSize : UInt64} {id : TypeId}

/-- The elements of a structure other than padding. -/
def withoutPadding (store : TypeStore) (elements : List TypeId) : List TypeId :=
  elements.filter fun element => !(store.get? element).any TypeNode.isPadding

theorem any_isPadding_iff : (store.get? id).any TypeNode.isPadding = true ↔ store.IsPadding id := by
  unfold IsPadding
  cases store.get? id with
  | none => simp
  | some node => cases node <;> simp [TypeNode.isPadding]

/-- What is left without padding are the items of the elements. -/
theorem withoutPadding_map_child {elements : List (Layout.Element TypeId)}
    {padding : UInt64 → TypeId}
    (items : ∀ item, .item item ∈ elements → ¬ store.IsPadding item)
    (paddings : ∀ bytes, .padding bytes ∈ elements → store.IsPadding (padding bytes)) :
    store.withoutPadding (elements.map (Layout.Element.child padding)) =
      elements.filterMap Layout.Element.item? := by
  induction elements with
  | nil => rfl
  | cons element rest inductionHypothesis =>
    have later := inductionHypothesis
      (fun item member => items item (List.mem_cons_of_mem _ member))
      (fun bytes member => paddings bytes (List.mem_cons_of_mem _ member))
    unfold withoutPadding at later ⊢
    cases element with
    | item item =>
      have kept := any_isPadding_iff.not.mpr (items item List.mem_cons_self)
      rw [List.map_cons, Layout.Element.child, List.filter_cons_of_pos (by simpa using kept), later]
      rfl
    | padding bytes =>
      have dropped := any_isPadding_iff.mpr (paddings bytes List.mem_cons_self)
      rw [List.map_cons, Layout.Element.child, List.filter_cons_of_neg (by simpa using dropped),
        later]
      rfl

/-- A structure that holds the plan of members side by side has the width of the plan, where the
type of each member has the size of its span. -/
theorem sizeOf?_of_plan {width : UInt64} {spans : List (Layout.Span TypeId)}
    {padding : UInt64 → TypeId} (apart : Layout.SideBySide width spans)
    (present : store.get? id =
      some (.struct ((Layout.plan width spans).map (Layout.Element.child padding))))
    (paddings : ∀ bytes, .padding bytes ∈ Layout.plan width spans →
      store.get? (padding bytes) = some (.padding bytes))
    (sizes : ∀ span ∈ spans, store.sizeOf? pointerSize span.item = some span.width) :
    store.sizeOf? pointerSize id = some width := by
  let part : TypeId → Nat := fun child => ((store.sizeOf? pointerSize child).getD 0).toNat
  have sized : ∀ {child size}, store.sizeOf? pointerSize child = some size →
      store.HasSize pointerSize child (part child) ∧ part child = size.toNat := by
    intro child size found
    have own : part child = size.toNat := by simp only [part, found, Option.getD_some]
    exact ⟨own ▸ sizeOf?_eq_some_iff.mp found, own⟩
  have padded : ∀ bytes, .padding bytes ∈ Layout.plan width spans →
      store.sizeOf? pointerSize (padding bytes) = some bytes :=
    fun bytes planned => sizeOf?_eq_some_iff.mpr (.padding (paddings bytes planned))
  have bytes : ((Layout.plan width spans).map (Layout.Element.child padding)).map part =
      (Layout.plan width spans).map (Layout.Element.bytes part) := by
    rw [List.map_map]
    refine List.map_congr_left fun element planned => ?_
    cases element with
    | item item => rfl
    | padding bytes => exact (sized (padded bytes planned)).2
  obtain ⟨-, -, -, -, adds⟩ := apart.exists_ascending
  have total : TypeNode.sumOf
      (((Layout.plan width spans).map (Layout.Element.child padding)).map part) =
        width.toNat := by
    rw [bytes]
    exact adds part fun span member => (sized (sizes span member)).2
  rw [sizeOf?_eq_some_iff, ← total]
  refine .struct part present (fun child member => ?_) (total ▸ width.toNat_lt)
  obtain ⟨element, planned, rfl⟩ := List.mem_map.mp member
  cases element with
  | item item =>
    exact @Layout.property_of_mem_plan _ (fun child => store.HasSize pointerSize child (part child))
      _ _ (fun span isSpan => (sized (sizes span isSpan)).1) _ planned
  | padding bytes => exact (sized (padded bytes planned)).1

end TypeStore

/-! ### Requests for structures -/

namespace Normalizer

variable {normalizer after : Normalizer} {binary : Binary} {descriptor : Descriptor}
  {variant : AggregateVariant} {members : List (Member Descriptor)} {id : TypeId}

/-- A request for a structure whose key is not known builds the types of its members and gives
its node the plan of their places. -/
theorem Sound.exists_plan_of_normalize_eq_ok (sound : normalizer.Sound)
    (kind : descriptor.kind = .aggregate variant members) (plain : variant ≠ .unionType)
    (unknown : normalizer.known? descriptor.key = none)
    (done : normalize binary descriptor normalizer = .ok id after) :
    ∃ ids draft padding,
      Building.buildParts binary normalizer.pointerSize descriptor normalizer.draft =
        .ok ids draft ∧
      ids.length = members.length ∧
      (∀ item ∈ ids, after.store.IsPart item) ∧
      after.store.get? id = some (.struct ((Layout.plan descriptor.width
        (placeMembers members ids)).map (Layout.Element.child padding))) ∧
      ∀ bytes, .padding bytes ∈ Layout.plan descriptor.width (placeMembers members ids) →
        after.store.get? (padding bytes) = some (.padding bytes) := by
  have opens : binary.opening normalizer.pointerSize descriptor =
      .form (Building.aggregateForm variant descriptor.width members) := by
    rw [Binary.opening, kind]
  have fresh : normalizer.draft.identities.find? descriptor.key = none := unknown
  unfold normalize at done
  split at done
  · rename_i built draft completed
    cases done
    obtain ⟨ids, middle, filled, node, last, parts, run, refilled, laid, isNext, rfl⟩ :=
      Building.build_eq_ok_of_form fresh opens completed
    obtain ⟨complete, rfl⟩ := eq_struct_of_refill? plain refilled
    obtain ⟨soundMiddle, isPart⟩ := Draft.Sound.builds run rfl
      (sound.draft.reserved _ fresh isNext)
    obtain ⟨padding, rfl, paddings⟩ := soundMiddle.formNode_eq laid
    have ended := congrArg finalState laid
    -- The node is open until it is filled, so no other node changes with it.
    have isVoid : last.store.get? id = some .void :=
      (soundMiddle.formNode ended).store.opened_void id (Set.mem_insert_iff.mpr (Or.inl rfl))
    have get?_eq := fun other => TypeStore.get?_fill last.store id other
      (Form.node padding (.struct descriptor.width (placeMembers members ids)))
      (TypeStore.index_lt_of_get?_eq_some isVoid)
    refine ⟨ids, middle, padding, parts, complete, ?_, (get?_eq _).trans (if_pos rfl), ?_⟩
    · intro item member
      have part := (isPart item member).extends ((Draft.Extends.refl middle).formNode ended).store
      refine ⟨Nat.lt_of_lt_of_eq part.index_lt (TypeStore.size_fill _ _ _).symm, ?_⟩
      rintro ⟨bytes, present⟩
      change (last.store.fill _ _).get? item = _ at present
      rw [get?_eq] at present
      split at present
      · cases present
      · exact part.not_padding ⟨bytes, present⟩
    · intro bytes planned
      have present := paddings bytes ⟨_, _, rfl, planned⟩
      change (last.store.fill _ _).get? (padding bytes) = _
      rw [get?_eq, if_neg ?_, present]
      intro same
      rw [same, isVoid] at present
      cases present
  · cases done

/-- A structure whose members lie side by side has the size that the engine states, if the type of
each member has the size of its span, and its elements other than padding are the types of its
members by ascending offset. -/
theorem Reachable.sizeOf?_of_sideBySide (reachable : normalizer.Reachable)
    (kind : descriptor.kind = .aggregate variant members) (plain : variant ≠ .unionType)
    (unknown : normalizer.known? descriptor.key = none)
    (apart : Layout.SideBySide descriptor.width (members.map Member.span))
    (done : normalize binary descriptor normalizer = .ok id after) :
    ∃ ids draft,
      Building.buildParts binary normalizer.pointerSize descriptor normalizer.draft =
        .ok ids draft ∧
      ids.length = members.length ∧
      (∀ pointerSize,
        (∀ span ∈ placeMembers members ids,
          after.store.sizeOf? pointerSize span.item = some span.width) →
        after.store.sizeOf? pointerSize id = some descriptor.width) ∧
      ∃ (elements : List TypeId) (ordered : List (Layout.Span TypeId)),
        after.store.get? id = some (.struct elements) ∧
        ordered.Perm (placeMembers members ids) ∧
        (ordered.Pairwise fun earlier later => earlier.offset < later.offset) ∧
        after.store.withoutPadding elements = ordered.map (·.item) := by
  obtain ⟨ids, draft, padding, built, complete, parts, present, paddings⟩ :=
    reachable.sound.exists_plan_of_normalize_eq_ok kind plain unknown done
  have placed := sideBySide_placeMembers complete apart
  obtain ⟨ordered, permuted, ascending, items, -⟩ := placed.exists_ascending
  refine ⟨ids, draft, built, complete,
    fun pointerSize sizes => TypeStore.sizeOf?_of_plan placed present paddings sizes,
    _, ordered, present, permuted, ascending, ?_⟩
  rw [TypeStore.withoutPadding_map_child ?_ fun bytes planned => ⟨bytes, paddings bytes planned⟩,
    items]
  have placedParts : ∀ span ∈ placeMembers members ids, after.store.IsPart span.item :=
    fun span member => parts _ (map_item_placeMembers complete ▸ List.mem_map_of_mem member)
  exact fun item planned => (Layout.property_of_mem_plan placedParts planned).not_padding

/-- Two members, the later one listed first. -/
def vastMembers : List (Member Descriptor) :=
  [.ofType "next" 18446744073709551600 (.pointer (.reference .structType "vast" none) 8),
    .ofType "flag" 3 .bool]

/-- A structure of these members, of the largest width. -/
def vastRecord : Descriptor :=
  .aggregate .structType (some "vast") 18446744073709551615 vastMembers

/-- Three stretches of padding and two members make up the largest word. -/
theorem sizeOf?_vastRecord :
    let after := finalState (normalize .linuxAmd64 vastRecord withPointer)
    withPointer.Reachable ∧ withPointer.known? vastRecord.key = none ∧
      Layout.SideBySide vastRecord.width (vastMembers.map Member.span) ∧
      normalize .linuxAmd64 vastRecord withPointer = .ok ⟨2⟩ after ∧
      after.store.sizeOf? 8 ⟨2⟩ = some 18446744073709551615 ∧
      ∃ (elements : List TypeId) (ordered : List (Layout.Span TypeId)),
        after.store.get? ⟨2⟩ = some (.struct elements) ∧
        ordered.Perm (placeMembers vastMembers [⟨3⟩, ⟨1⟩]) ∧
        (ordered.Pairwise fun earlier later => earlier.offset < later.offset) ∧
        after.store.withoutPadding elements = ordered.map (·.item) := by
  intro after
  have reachable : withPointer.Reachable := .request (.new 8) _ _
  have unknown : withPointer.known? vastRecord.key = none := rfl
  have done : normalize .linuxAmd64 vastRecord withPointer = .ok ⟨2⟩ after := rfl
  have apart : Layout.SideBySide vastRecord.width (vastMembers.map Member.span) :=
    ⟨by decide, by decide, by decide⟩
  obtain ⟨ids, draft, built, -, size, elements, ordered, laidOut⟩ :=
    reachable.sizeOf?_of_sideBySide rfl (by decide) unknown apart done
  cases built
  refine ⟨reachable, unknown, apart, done, size 8 ?_, elements, ordered, laidOut⟩
  have pointer : after.store.sizeOf? 8 ⟨3⟩ = some 8 :=
    TypeStore.sizeOf?_eq_some_iff.mpr (.pointer (rfl : after.store.get? _ = some (.pointer ⟨2⟩)))
  have truth : after.store.sizeOf? 8 ⟨1⟩ = some 1 :=
    TypeStore.sizeOf?_eq_some_iff.mpr (.bool (rfl : after.store.get? _ = some .bool))
  exact List.forall_mem_cons.mpr ⟨pointer, List.forall_mem_singleton.mpr truth⟩

end Normalizer

end BinaryFacts
