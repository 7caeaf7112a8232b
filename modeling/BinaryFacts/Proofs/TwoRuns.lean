/-
This file compares two runs of one computation that start in different but related states. The
runs go the same way if both succeed, with values that are alike, or both fail with the same
error, and end in related states. Going the same way is closed under sequencing and under building
the parts of a form, so a comparison of long runs comes down to a comparison of single steps.
-/

import BinaryFacts.Normalization.Form
import BinaryFacts.Proofs.Outcome

namespace BinaryFacts

variable {Error Failure State Value Other Next Last : Type}

/-- Two runs go the same way: both succeed, with values that are alike, or both fail with the same
error, and the states in which they end are related. Nothing is said where one of them fails with
an error that is passed over. -/
inductive SameWay (passed : Error → Prop) (related : State → State → Prop)
    (alike : Value → State → Other → State → Prop) :
    EStateM.Result Error State Value → EStateM.Result Error State Other → Prop
  | ok {value : Value} {other : Other} {left right : State} (close : related left right)
      (same : alike value left other right) :
      SameWay passed related alike (.ok value left) (.ok other right)
  | error (reason : Error) {left right : State} (close : related left right) :
      SameWay passed related alike (.error reason left) (.error reason right)
  | passedLeft {reason : Error} (isPassed : passed reason) (left : State)
      (result : EStateM.Result Error State Other) :
      SameWay passed related alike (.error reason left) result
  | passedRight {reason : Error} (isPassed : passed reason)
      (result : EStateM.Result Error State Value) (right : State) :
      SameWay passed related alike result (.error reason right)

/-- Any two values. -/
def anyValues : Value → State → Other → State → Prop := fun _ _ _ _ => True

namespace SameWay

variable {passed : Error → Prop} {related : State → State → Prop} {left right : State}
  {alike : Value → State → Other → State → Prop}

theorem bind {first : EStateM Error State Value} {second : EStateM Error State Other}
    {next : Value → EStateM Error State Next} {last : Other → EStateM Error State Last}
    {alikeNext : Next → State → Last → State → Prop}
    (same : SameWay passed related alike (first left) (second right))
    (step : ∀ value other before after, related before after → alike value before other after →
      SameWay passed related alikeNext (next value before) (last other after)) :
    SameWay passed related alikeNext ((first >>= next) left) ((second >>= last) right) := by
  generalize endedLeft : first left = leftResult at same
  generalize endedRight : second right = rightResult at same
  cases same with
  | ok close sameValue =>
    rw [bind_of_ok _ endedLeft, bind_of_ok _ endedRight]
    exact step _ _ _ _ close sameValue
  | error reason close =>
    rw [bind_of_error _ endedLeft, bind_of_error _ endedRight]
    exact .error reason close
  | passedLeft isPassed before =>
    rw [bind_of_error _ endedLeft]
    exact .passedLeft isPassed before _
  | passedRight isPassed _ after =>
    rw [bind_of_error _ endedRight]
    exact .passedRight isPassed _ after

theorem get {next : State → EStateM Error State Value} {last : State → EStateM Error State Other}
    (step : SameWay passed related alike (next left left) (last right right)) :
    SameWay passed related alike ((get >>= next) left) ((get >>= last) right) := step

theorem adaptExcept {run : EStateM Error State Value} {rerun : EStateM Error State Other}
    {passedToo : Failure → Prop} {wrap : Error → Failure}
    (wraps : ∀ reason, passed reason → passedToo (wrap reason))
    (same : SameWay passed related alike (run left) (rerun right)) :
    SameWay passedToo related alike (EStateM.adaptExcept wrap run left)
      (EStateM.adaptExcept wrap rerun right) := by
  unfold EStateM.adaptExcept
  generalize run left = leftResult at same
  generalize rerun right = rightResult at same
  cases same with
  | ok close sameValue => exact .ok close sameValue
  | error reason close => exact .error (wrap reason) close
  | passedLeft isPassed before => exact .passedLeft (wraps _ isPassed) before _
  | passedRight isPassed _ after => exact .passedRight (wraps _ isPassed) _ after

/-- Runs that go the same way do so whatever is asked of their states and values. -/
theorem weaken {first : EStateM.Result Error State Value}
    {second : EStateM.Result Error State Other}
    (same : SameWay passed related alike first second) :
    SameWay passed (fun _ _ => True) anyValues first second := by
  cases same with
  | ok => exact .ok trivial trivial
  | error reason => exact .error reason trivial
  | passedLeft isPassed left => exact .passedLeft isPassed left _
  | passedRight isPassed _ right => exact .passedRight isPassed _ right

/-- What each run keeps can be used where both succeed. -/
theorem keeping {run : EStateM Error State Value} {rerun : EStateM Error State Other}
    {holds holdsToo : State → Prop}
    (same : SameWay passed related alike (run left) (rerun right)) (keeps : Keeps holds run)
    (keepsToo : Keeps holdsToo rerun) (first : holds left) (second : holdsToo right) :
    SameWay passed related
      (fun value before other after =>
        alike value before other after ∧ holds before ∧ holdsToo after)
      (run left) (rerun right) := by
  have endsLeft := keeps left first
  have endsRight := keepsToo right second
  generalize run left = leftResult at same endsLeft
  generalize rerun right = rightResult at same endsRight
  cases same with
  | ok close sameValue => exact .ok close ⟨sameValue, endsLeft, endsRight⟩
  | error reason close => exact .error reason close
  | passedLeft isPassed before => exact .passedLeft isPassed before _
  | passedRight isPassed _ after => exact .passedRight isPassed _ after

/-! ### Rows and forms -/

section Rows

variable {Part : Type} {build : Part → EStateM Error State Value}
  {rebuild : Part → EStateM Error State Other}

theorem mapM {row : List Part} (close : related left right)
    (each : ∀ part ∈ row, ∀ before after, related before after →
      SameWay passed related anyValues (build part before) (rebuild part after)) :
    SameWay passed related anyValues (row.mapM build left) (row.mapM rebuild right) := by
  induction row generalizing left right with
  | nil => exact .ok close trivial
  | cons part rest inductionHypothesis =>
    rw [List.mapM_cons, List.mapM_cons]
    refine (each part List.mem_cons_self left right close).bind fun _ _ before after related _ => ?_
    refine SameWay.bind (inductionHypothesis related fun other member =>
      each other (List.mem_cons_of_mem _ member)) fun _ _ _ _ closeRest _ => ?_
    exact .ok closeRest trivial

/-- Building the parts of a form goes the same way if building each part does. -/
theorem formMapM {form : Form Part} (close : related left right)
    (each : ∀ part ∈ form.parts, ∀ before after, related before after →
      SameWay passed related anyValues (build part before) (rebuild part after)) :
    SameWay passed related anyValues (form.mapM build left) (form.mapM rebuild right) := by
  cases form with
  | pointer target | array target | typedef target =>
    exact (each target (List.mem_singleton.mpr rfl) left right close).bind
      fun _ _ _ _ closeTarget _ => .ok closeTarget trivial
  | function result parameters variadic =>
    refine (each result List.mem_cons_self left right close).bind fun _ _ _ _ closeResult _ => ?_
    refine SameWay.bind (SameWay.mapM closeResult fun parameter member =>
      each parameter (List.mem_cons_of_mem _ member)) fun _ _ _ _ closeParameters _ => ?_
    exact .ok closeParameters trivial
  | struct width spans =>
    refine SameWay.bind (SameWay.mapM close fun span member before after closeBefore => ?_)
      fun _ _ _ _ closeSpans _ => .ok closeSpans trivial
    exact (each span.item (List.mem_map_of_mem member) before after closeBefore).bind
      fun _ _ _ _ closeItem _ => .ok closeItem trivial
  | union members =>
    exact SameWay.bind (SameWay.mapM close each)
      fun _ _ _ _ closeMembers _ => .ok closeMembers trivial

end Rows

end SameWay

end BinaryFacts
