import Mathlib.Data.List.Basic

/-! Runs of a machine that accepts or refuses each input, kept with the journal of
what was accepted. Inputs and journals are listed newest first, so the tail of a
list is the past of its head. A refused input leaves the state and the journal alone. -/
namespace Journal

variable {State Input Output : Type}

abbrev Machine (State Input Output : Type) := State → Input → Option (State × Output)

/-- One accepted input between the states around it. -/
structure Entry (State Input Output : Type) where
  before : State
  input : Input
  after : State
  output : Output

def run (machine : Machine State Input Output) (initial : State) : List Input → State
  | [] => initial
  | input :: past =>
    match machine (run machine initial past) input with
    | some (next,_) => next
    | none => run machine initial past

def journal (machine : Machine State Input Output) (initial : State) :
    List Input → List (Entry State Input Output)
  | [] => []
  | input :: past =>
    match machine (run machine initial past) input with
    | some (next,output) =>
      ⟨run machine initial past,input,next,output⟩ :: journal machine initial past
    | none => journal machine initial past

variable {machine : Machine State Input Output} {initial : State}

theorem run_accepted (accepted : machine (run machine initial past) input = some (next,output)) :
    run machine initial (input :: past) = next := by simp [run,accepted]

theorem run_refused (refused : machine (run machine initial past) input = none) :
    run machine initial (input :: past) = run machine initial past := by simp [run,refused]

theorem journal_accepted
    (accepted : machine (run machine initial past) input = some (next,output)) :
    journal machine initial (input :: past) =
      ⟨run machine initial past,input,next,output⟩ :: journal machine initial past := by
  simp [journal,accepted]

theorem journal_refused (refused : machine (run machine initial past) input = none) :
    journal machine initial (input :: past) = journal machine initial past := by
  simp [journal,refused]

/-- The induction rule for journals: a relation between what was accepted so far and
the state reached holds of every run once accepted inputs preserve it. -/
theorem invariant (related : List (Entry State Input Output) → State → Prop)
    (start : related [] initial)
    (step : ∀ past s input next output, related past s → machine s input = some (next,output) →
      related (⟨s,input,next,output⟩ :: past) next)
    (inputs : List Input) :
    related (journal machine initial inputs) (run machine initial inputs) := by
  induction inputs with
  | nil => exact start
  | cons input past ih =>
    cases outcome : machine (run machine initial past) input with
    | none => rwa [journal_refused outcome,run_refused outcome]
    | some result =>
      obtain ⟨next,output⟩ := result
      rw [journal_accepted outcome,run_accepted outcome]
      exact step _ _ _ _ _ ih outcome

/-- The same rule for a property of states alone. -/
theorem state_invariant (property : State → Prop) (start : property initial)
    (step : ∀ s input next output, property s → machine s input = some (next,output) →
      property next)
    (inputs : List Input) : property (run machine initial inputs) :=
  invariant (fun _ s => property s) start (fun _ s input next output => step s input next output)
    inputs

/-- What accepted inputs keep from some moment on is kept by every later state. -/
theorem persists (property : State → Prop) (older : List Input)
    (step : ∀ past input next output, property (run machine initial past) →
      machine (run machine initial past) input = some (next,output) → property next)
    (held : property (run machine initial older)) (newer : List Input) :
    property (run machine initial (newer ++ older)) := by
  induction newer with
  | nil => exact held
  | cons input newer ih =>
    rw [List.cons_append]
    cases outcome : machine (run machine initial (newer ++ older)) input with
    | none => rwa [run_refused outcome]
    | some result => exact run_accepted outcome ▸ step _ _ _ _ ih outcome

/-- The journal of an earlier moment is a suffix of any later one. -/
theorem journal_suffix (earlier : past <:+ inputs) :
    journal machine initial past <:+ journal machine initial inputs := by
  obtain ⟨newer,rfl⟩ := earlier
  induction newer with
  | nil => exact List.suffix_refl _
  | cons input newer ih =>
    rw [List.cons_append]
    cases outcome : machine (run machine initial (newer ++ past)) input with
    | none => rwa [journal_refused outcome]
    | some result => exact journal_accepted outcome ▸ ih.trans (List.suffix_cons _ _)

/-- What the entries of a run keep from some moment on is kept by every later state of it. -/
theorem persists_entries (property : State → Prop) (earlier : past <:+ inputs)
    (step : ∀ entry ∈ journal machine initial inputs, property entry.before →
      property entry.after)
    (held : property (run machine initial past)) : property (run machine initial inputs) := by
  obtain ⟨newer,rfl⟩ := earlier
  induction newer with
  | nil => exact held
  | cons input newer ih =>
    rw [List.cons_append] at step ⊢
    have shorter : journal machine initial (newer ++ past) <:+
        journal machine initial (input :: (newer ++ past)) :=
      journal_suffix (List.suffix_cons _ _)
    have before := ih (fun entry member => step entry (shorter.subset member))
    cases outcome : machine (run machine initial (newer ++ past)) input with
    | none => rwa [run_refused outcome]
    | some result =>
      rw [journal_accepted outcome] at step
      exact run_accepted outcome ▸ step _ List.mem_cons_self before

/-- What stands behind an entry in the journal is the journal of the inputs before it. -/
theorem suffix_origin (suffix : entry :: older <:+ journal machine initial inputs) :
    ∃ past, entry.input :: past <:+ inputs ∧ older = journal machine initial past ∧
      entry.before = run machine initial past ∧
      machine entry.before entry.input = some (entry.after,entry.output) := by
  induction inputs with
  | nil => simp [journal] at suffix
  | cons input past ih =>
    cases outcome : machine (run machine initial past) input with
    | none =>
      rw [journal_refused outcome] at suffix
      obtain ⟨earlier,within,origin⟩ := ih suffix
      exact ⟨earlier,within.trans (List.suffix_cons _ _),origin⟩
    | some result =>
      rw [journal_accepted outcome] at suffix
      rcases List.suffix_cons_iff.mp suffix with latest | suffix
      · obtain ⟨rfl,rfl⟩ := List.cons.inj latest
        exact ⟨past,List.suffix_refl _,rfl,rfl,outcome⟩
      · obtain ⟨earlier,within,origin⟩ := ih suffix
        exact ⟨earlier,within.trans (List.suffix_cons _ _),origin⟩

theorem entry_origin (member : entry ∈ journal machine initial inputs) :
    ∃ past, entry.input :: past <:+ inputs ∧ entry.before = run machine initial past ∧
      machine entry.before entry.input = some (entry.after,entry.output) := by
  obtain ⟨later,older,whole⟩ := List.append_of_mem member
  obtain ⟨past,within,-,before,accepted⟩ := suffix_origin ⟨later,whole.symm⟩
  exact ⟨past,within,before,accepted⟩

theorem entry_accepted (inputs : List Input) (entry : Entry State Input Output)
    (member : entry ∈ journal machine initial inputs) :
    machine entry.before entry.input = some (entry.after,entry.output) := by
  obtain ⟨_,_,_,accepted⟩ := entry_origin member
  exact accepted

/-- The states around an entry are reached by the run up to its input. -/
theorem entry_reached (member : entry ∈ journal machine initial inputs) :
    ∃ past, entry.input :: past <:+ inputs ∧ entry.before = run machine initial past ∧
      entry.after = run machine initial (entry.input :: past) := by
  obtain ⟨past,within,before,accepted⟩ := entry_origin member
  rw [before] at accepted
  exact ⟨past,within,before,(run_accepted accepted).symm⟩

section Replay

variable {View Event : Type}

/-- What the accepted inputs announce, oldest first. -/
def emissions (announced : Output → List Event) (entries : List (Entry State Input Output)) :
    List Event :=
  entries.reverse.flatMap (fun entry => announced entry.output)

theorem emissions_cons (announced : Output → List Event)
    (entry : Entry State Input Output) (past : List (Entry State Input Output)) :
    emissions announced (entry :: past) = emissions announced past ++ announced entry.output := by
  simp [emissions]

/-- A reader that keeps up with every accepted input keeps up with every run. -/
theorem replay_run (announced : Output → List Event) (apply : View → Event → View)
    (view : State → View)
    (step : ∀ s input next output, machine s input = some (next,output) →
      (announced output).foldl apply (view s) = view next)
    (inputs : List Input) :
    (emissions announced (journal machine initial inputs)).foldl apply (view initial) =
      view (run machine initial inputs) := by
  refine invariant (fun entries s =>
    (emissions announced entries).foldl apply (view initial) = view s) rfl ?_ inputs
  intro past s input next output followed accepted
  rw [emissions_cons,List.foldl_append,followed]
  exact step s input next output accepted

end Replay
end Journal
