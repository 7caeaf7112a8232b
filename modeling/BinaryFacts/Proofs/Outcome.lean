/-
This file collects what proofs need about computations with a state and errors. A computation of
two steps that ends has an end of the first step, and of the second where the first succeeds.
`Keeps` is the notion of an invariant: it holds after a step that starts in it, whether the step
succeeds or fails.
-/

namespace BinaryFacts

variable {Error Failure State Value Other : Type}

/-! ### The ends of two steps -/

theorem bind_eq_ok {first : EStateM Error State Value} {next : Value → EStateM Error State Other}
    {before after : State} {value : Other} (done : (first >>= next) before = .ok value after) :
    ∃ middle state, first before = .ok middle state ∧ next middle state = .ok value after := by
  change EStateM.bind first next before = .ok value after at done
  unfold EStateM.bind at done
  split at done
  · rename_i middle state ended
    exact ⟨middle, state, ended, done⟩
  · cases done

theorem bind_eq_error {first : EStateM Error State Value}
    {next : Value → EStateM Error State Other} {before after : State} {error : Error}
    (failed : (first >>= next) before = .error error after) :
    first before = .error error after ∨
      ∃ middle state, first before = .ok middle state ∧ next middle state = .error error after := by
  change EStateM.bind first next before = .error error after at failed
  unfold EStateM.bind at failed
  split at failed
  · rename_i middle state ended
    exact Or.inr ⟨middle, state, ended, failed⟩
  · rename_i reason state ended
    cases failed
    exact Or.inl ended

theorem bind_of_ok {first : EStateM Error State Value} (next : Value → EStateM Error State Other)
    {before middle : State} {value : Value} (ended : first before = .ok value middle) :
    (first >>= next) before = next value middle := by
  change EStateM.bind first next before = next value middle
  unfold EStateM.bind
  rw [ended]

theorem bind_of_error {first : EStateM Error State Value}
    (next : Value → EStateM Error State Other) {before middle : State} {error : Error}
    (ended : first before = .error error middle) :
    (first >>= next) before = .error error middle := by
  change EStateM.bind first next before = .error error middle
  unfold EStateM.bind
  rw [ended]

/-- A row of steps fails with the first of them that fails. -/
theorem mapM_eq_error_iff {Part : Type} {build : Part → EStateM Error State Value}
    {row : List Part} {before after : State} {error : Error} :
    row.mapM build before = .error error after ↔
      ∃ earlier part later values middle, row = earlier ++ part :: later ∧
        earlier.mapM build before = .ok values middle ∧ build part middle = .error error after := by
  induction row generalizing before with
  | nil => exact iff_of_false nofun fun ⟨earlier, part, later, _, _, split, _⟩ => by simp at split
  | cons first rest inductionHypothesis =>
    rw [List.mapM_cons]
    constructor
    · intro failed
      rcases bind_eq_error failed with failedFirst | ⟨value, next, done, failed⟩
      · exact ⟨[], first, rest, [], before, rfl, rfl, failedFirst⟩
      · rcases bind_eq_error failed with failedRest | ⟨others, last, -, impossible⟩
        · obtain ⟨earlier, part, later, values, middle, rfl, doneEarlier, failedPart⟩ :=
            inductionHypothesis.mp failedRest
          refine ⟨first :: earlier, part, later, value :: values, middle, rfl, ?_, failedPart⟩
          rw [List.mapM_cons, bind_of_ok _ done, bind_of_ok _ doneEarlier]
          rfl
        · cases impossible
    · rintro ⟨earlier, part, later, values, middle, split, doneEarlier, failedPart⟩
      cases earlier with
      | nil =>
        cases split
        cases doneEarlier
        exact bind_of_error _ failedPart
      | cons head tail =>
        cases split
        rw [List.mapM_cons] at doneEarlier
        obtain ⟨value, next, done, doneTail⟩ := bind_eq_ok doneEarlier
        obtain ⟨others, last, doneTail, ended⟩ := bind_eq_ok doneTail
        cases ended
        rw [bind_of_ok _ done]
        exact bind_of_error _
          (inductionHypothesis.mpr ⟨tail, part, later, others, _, rfl, doneTail, failedPart⟩)

/-! ### Invariants -/

/-- The state in which a computation ends. -/
def finalState : EStateM.Result Error State Value → State
  | .ok _ state => state
  | .error _ state => state

/-- A computation that starts in a state with the property ends in one. -/
def Keeps (property : State → Prop) (run : EStateM Error State Value) : Prop :=
  ∀ state, property state → property (finalState (run state))

namespace Keeps

variable {property : State → Prop}

theorem pure (value : Value) : Keeps property (pure value : EStateM Error State Value) :=
  fun _ holds => holds

theorem throw (error : Error) : Keeps property (throw error : EStateM Error State Value) :=
  fun _ holds => holds

theorem bind {first : EStateM Error State Value} {next : Value → EStateM Error State Other}
    (keepsFirst : Keeps property first) (keepsNext : ∀ value, Keeps property (next value)) :
    Keeps property (first >>= next) := by
  intro state holds
  have afterFirst := keepsFirst state holds
  change property (finalState (EStateM.bind first next state))
  unfold EStateM.bind
  split
  · rename_i value middle ended
    rw [ended] at afterFirst
    exact keepsNext value middle afterFirst
  · rename_i error middle ended
    rw [ended] at afterFirst
    exact afterFirst

theorem get : Keeps property (get : EStateM Error State State) :=
  fun _ holds => holds

theorem adaptExcept {run : EStateM Error State Value} (wrap : Error → Failure)
    (keeps : Keeps property run) : Keeps property (EStateM.adaptExcept wrap run) := by
  intro state holds
  have ends := keeps state holds
  unfold EStateM.adaptExcept
  split
  · rename_i error after ended
    rw [ended] at ends
    exact ends
  · rename_i value after ended
    rw [ended] at ends
    exact ends

theorem mapM {Part : Type} {build : Part → EStateM Error State Value} {row : List Part}
    (keeps : ∀ part ∈ row, Keeps property (build part)) : Keeps property (row.mapM build) := by
  induction row with
  | nil => exact pure _
  | cons first rest inductionHypothesis =>
    rw [List.mapM_cons]
    refine bind (keeps first List.mem_cons_self) fun value => ?_
    exact bind (inductionHypothesis fun part isPart => keeps part (List.mem_cons_of_mem _ isPart))
      fun others => pure _

end Keeps

end BinaryFacts
