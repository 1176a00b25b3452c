import Mathlib.Data.Int.Notation
import Mathlib.Data.List.Basic

/-! Changes behind a timelock. One step proposes a target, a later one carries it out once a delay
has passed, and a cancellation drops it; a slot remembers the target and the moment. What stands in
the slot is the latest step on it. Histories are listed newest first. -/
namespace Timelock

variable {Party Target : Type}

inductive Move (Target : Type) where
  | propose (target : Target)
  | execute
  | cancel
  | none

structure Step (Party Target : Type) where
  sender : Party
  now : ℤ
  move : Move Target

structure Slot (Target : Type) where
  pending : Option Target
  executableAt : ℤ

def Slot.empty : Slot Target := ⟨none,0⟩

/-- The latest step on the slot is a proposal of the target. -/
def Standing (past : List (Step Party Target)) (target : Target) (proposal : Step Party Target) :
    Prop :=
  ∃ between earlier, past = between ++ proposal :: earlier ∧ proposal.move = .propose target ∧
    ∀ step ∈ between, step.move = .none

theorem standing_proposed (sender : Party) (now : ℤ) (target : Target)
    (past : List (Step Party Target)) :
    Standing (⟨sender,now,.propose target⟩ :: past) target ⟨sender,now,.propose target⟩ :=
  ⟨[],past,rfl,rfl,by simp⟩

theorem Standing.later {proposal step : Step Party Target} (standing : Standing past target proposal)
    (quiet : step.move = .none) : Standing (step :: past) target proposal := by
  obtain ⟨between,earlier,rfl,proposes,still⟩ := standing
  refine ⟨step :: between,earlier,rfl,proposes,?_⟩
  intro other member
  rcases List.mem_cons.mp member with rfl | member
  · exact quiet
  · exact still other member

section Backing
variable {delay now : ℤ} {authority authority' : Party → Prop} {slot : Slot Target}
variable {past : List (Step Party Target)}

/-- What the slot holds was proposed last, under an authority, with the delay ahead of it. -/
def Slot.Backed (slot : Slot Target) (delay : ℤ) (authority : Party → Prop)
    (past : List (Step Party Target)) : Prop :=
  ∀ target, slot.pending = some target → ∃ proposal, Standing past target proposal ∧
    authority proposal.sender ∧ slot.executableAt = proposal.now + delay

theorem backed_empty : Slot.empty.Backed delay authority past := nofun

theorem backed_proposed (sender : Party) (target : Target) (made : authority sender) :
    Slot.Backed ⟨some target,now + delay⟩ delay authority
      (⟨sender,now,.propose target⟩ :: past) := by
  intro other pending
  obtain rfl := Option.some.inj pending
  exact ⟨_,standing_proposed sender now target past,made,rfl⟩

theorem Slot.Backed.later {step : Step Party Target} (backed : slot.Backed delay authority past)
    (quiet : step.move = .none) : slot.Backed delay authority (step :: past) := by
  intro target pending
  obtain ⟨proposal,standing,made,deadline⟩ := backed target pending
  exact ⟨proposal,standing.later quiet,made,deadline⟩

/-- What may be carried out was proposed a whole delay ago. -/
theorem Slot.Backed.ripe (backed : slot.Backed delay authority past)
    (pending : slot.pending = some target) (elapsed : slot.executableAt ≤ now) :
    ∃ proposal, Standing past target proposal ∧ authority proposal.sender ∧
      proposal.now + delay ≤ now := by
  obtain ⟨proposal,standing,made,deadline⟩ := backed target pending
  exact ⟨proposal,standing,made,deadline ▸ elapsed⟩

end Backing

/-- The successor takes over in a step of its own that carries out the latest proposal, which the
holder in force made a whole delay ago. -/
structure Succession (delay : ℤ) (past : List (Step Party Party)) (step : Step Party Party)
    (holder successor : Party) : Prop where
  executed : step.move = .execute
  sender : step.sender = successor
  proposed : ∃ proposal, Standing past successor proposal ∧ proposal.sender = holder ∧
    proposal.now + delay ≤ step.now

end Timelock
