import Tonbankcard.Journal

/-! Executions of a specification that is given by what its actions may do, and machines that carry
it out: through a view of its states, everything that such a machine accepts is a few actions of the
specification one after the other. -/
namespace Simulation

variable {State Action : Type}

abbrev Spec (State Action : Type) := State → Action → State → Prop

/-- Actions one after the other, listed newest first. -/
inductive Executes (spec : Spec State Action) (start : State) : List Action → State → Prop where
  | start : Executes spec start [] start
  | act (past : Executes spec start actions s) (step : spec s action t) :
    Executes spec start (action :: actions) t

variable {spec : Spec State Action}

theorem Executes.single (step : spec s action t) : Executes spec s [action] t :=
  .act .start step

theorem Executes.trans (older : Executes spec s before t) (newer : Executes spec t after u) :
    Executes spec s (after ++ before) u := by
  induction newer with
  | start => exact older
  | act _ step ih => exact .act ih step

/-- The induction rule for executions. -/
theorem Executes.invariant (related : List Action → State → Prop) (start : related [] initial)
    (step : ∀ past s action t, related past s → spec s action t → related (action :: past) t)
    (executes : Executes spec initial actions s) : related actions s := by
  induction executes with
  | start => exact start
  | act _ taken ih => exact step _ _ _ _ ih taken

section Machines

open Journal

variable {Input Output Concrete : Type} {machine : Machine Concrete Input Output}
  {initial : Concrete}

/-- A machine whose accepted inputs are actions of a specification executes it in every run. The
view may rest on a property that the machine keeps. -/
theorem run_executes (property : Concrete → Prop) (view : Concrete → State)
    (labels : Entry Concrete Input Output → List Action) (start : property initial)
    (step : ∀ s input next output, property s → machine s input = some (next,output) →
      property next ∧ Executes spec (view s) (labels ⟨s,input,next,output⟩) (view next))
    (inputs : List Input) :
    property (run machine initial inputs) ∧
      Executes spec (view initial) ((journal machine initial inputs).flatMap labels)
        (view (run machine initial inputs)) := by
  refine invariant (fun entries s => property s ∧
    Executes spec (view initial) (entries.flatMap labels) (view s)) ⟨start,.start⟩ ?_ inputs
  rintro past s input next output ⟨held,executed⟩ accepted
  obtain ⟨kept,taken⟩ := step s input next output held accepted
  refine ⟨kept,?_⟩
  rw [List.flatMap_cons]
  exact executed.trans taken

end Machines
end Simulation
