import Tonbankcard.TransparencyRegistry

/-! The counters of the registry against its records. Counters move on every message and the
records under their ids, so the two agree over exactly the runs that record each proposal once and
settle it once. -/
namespace Tonbankcard.TransparencyRegistry

open Ton

namespace Archive
variable (a : Archive)

def ofCategory (category : Int) : Nat :=
  a.proposalSummaries.countWhere (fun summary => summary.category = category)

def withOutcome (outcome : Int) : Nat :=
  a.proposalSummaries.countWhere (fun summary => summary.outcome = outcome)

/-- Every statistic is a count of stored summaries, so none of them is negative. -/
structure Reflects : Prop where
  total : a.getGovernanceStats.totalProposals = a.proposalSummaries.keys.card
  category : ∀ category, a.getProposalsByCategory category = a.ofCategory category
  accepted : a.getGovernanceStats.proposalsAccepted = a.withOutcome outcomeAccepted
  rejected : a.getGovernanceStats.proposalsRejected = a.withOutcome outcomeRejected
  noQuorum : a.getGovernanceStats.proposalsNoQuorum = a.withOutcome outcomeNoQuorum
  pending : a.getGovernanceStats.proposalsPending = a.withOutcome outcomePending

/-- Messages that count a proposal or a result for the first time. -/
def Fresh : Message → Prop
  | .recordProposal proposalId .. => a.proposalSummaries.get proposalId = none
  | .recordVotingResult proposalId .. =>
    ∀ summary, a.proposalSummaries.get proposalId = some summary →
      summary.outcome = outcomePending
  | _ => True

/-- How far the counters have run ahead: proposals counted twice, and results counted for
summaries that no longer show them. -/
def drift : Int :=
  (a.totalProposals - a.proposalSummaries.keys.card) +
    (a.proposalsAccepted + a.proposalsRejected + a.proposalsNoQuorum -
      (a.proposalSummaries.keys.card - a.withOutcome outcomePending))

end Archive

/-- Every accepted record counts its proposal or its result for the first time. -/
def FreshRecords (entries : List Entry) : Prop :=
  ∀ entry ∈ entries, entry.before.archive.Fresh entry.input.message

section Recording
variable {a archive : Archive} {summary : ProposalSummary} {outcome : Int}

theorem recordProposal_reflects (reflects : a.Reflects)
    (fresh : a.proposalSummaries.get summary.proposalId = none)
    (pending : summary.outcome = outcomePending)
    (recorded : a.recordProposal quorumThreshold summary = .ok archive) : archive.Reflects := by
  obtain ⟨summaries,categories,total,accepted,rejected,noQuorum⟩ := recordProposal_ok recorded
  have counted (test : ProposalSummary → Bool) :
      archive.proposalSummaries.countWhere test =
        a.proposalSummaries.countWhere test + (test summary).toNat := by
    rw [summaries]
    exact FiniteMap.countWhere_set_fresh a.proposalSummaries fresh summary test
  have keeps (other : Int) (apart : outcomePending ≠ other) :
      archive.withOutcome other = a.withOutcome other := by
    rw [Archive.withOutcome,counted,pending,decide_eq_false apart]
    rfl
  constructor
  · have before := reflects.total
    have absent := (FiniteMap.get_eq_none_iff a.proposalSummaries summary.proposalId).mp fresh
    simp only [Archive.getGovernanceStats] at before ⊢
    rw [total,summaries,FiniteMap.keys_set,Finset.card_insert_of_notMem absent,before,
      Nat.cast_add,Nat.cast_one]
  · intro category
    have before := reflects.category category
    rw [Archive.ofCategory,counted,← Archive.ofCategory,Nat.cast_add,← before]
    rw [Archive.getProposalsByCategory,categories,FiniteMap.get_set]
    by_cases same : category = summary.category
    · subst same
      simp
    · simp [same,Ne.symm same,Archive.getProposalsByCategory]
  · have before := reflects.accepted
    simp only [Archive.getGovernanceStats] at before ⊢
    rw [keeps _ (by decide),accepted,before]
  · have before := reflects.rejected
    simp only [Archive.getGovernanceStats] at before ⊢
    rw [keeps _ (by decide),rejected,before]
  · have before := reflects.noQuorum
    simp only [Archive.getGovernanceStats] at before ⊢
    rw [keeps _ (by decide),noQuorum,before]
  · have before := reflects.pending
    have more := counted (fun summary => summary.outcome = outcomePending)
    rw [decide_eq_true pending,Bool.toNat_true] at more
    change archive.withOutcome outcomePending = a.withOutcome outcomePending + 1 at more
    simp only [Archive.getGovernanceStats] at before ⊢
    rw [total,accepted,rejected,noQuorum,more]
    omega

/-- A stored summary that takes another outcome moves from one count to the other. -/
theorem withOutcome_set (stored : a.proposalSummaries.get proposalId = some summary)
    (outcome other : Int) :
    (a.proposalSummaries.set proposalId {summary with outcome}).countWhere
        (fun summary => summary.outcome = other) + (decide (summary.outcome = other)).toNat =
      a.withOutcome other + (decide (outcome = other)).toNat := by
  have counted := FiniteMap.countWhere_set a.proposalSummaries proposalId {summary with outcome}
    (fun summary => summary.outcome = other)
  rwa [stored] at counted

/-- A valid outcome is one of the four. -/
theorem outcome_exact (valid : isValidOutcome outcome) :
    (decide (outcome = outcomePending)).toNat + (decide (outcome = outcomeAccepted)).toNat +
      (decide (outcome = outcomeRejected)).toNat + (decide (outcome = outcomeNoQuorum)).toNat =
        1 := by
  obtain ⟨lower,upper⟩ := valid
  simp only [outcomePending,outcomeNoQuorum] at lower upper
  have four : outcome = 0 ∨ outcome = 1 ∨ outcome = 2 ∨ outcome = 3 := by omega
  rcases four with rfl | rfl | rfl | rfl <;> rfl

theorem keys_set_stored (stored : a.proposalSummaries.get proposalId = some summary)
    (written : ProposalSummary) :
    (a.proposalSummaries.set proposalId written).keys = a.proposalSummaries.keys := by
  rw [FiniteMap.keys_set]
  exact Finset.insert_eq_of_mem (FiniteMap.mem_keys_of_get stored)

theorem recordVotingResult_reflects (reflects : a.Reflects)
    (stored : a.proposalSummaries.get proposalId = some summary)
    (pending : summary.outcome = outcomePending) (valid : isValidOutcome outcome)
    (recorded : a.recordVotingResult quorumThreshold proposalId summary outcome totalVotes =
      .ok archive) :
    archive.Reflects := by
  obtain ⟨summaries,categories,total,accepted,rejected,noQuorum⟩ := recordVotingResult_ok recorded
  have moved := withOutcome_set stored outcome
  have exact_ := outcome_exact valid
  have settles (other : Int) (apart : outcomePending ≠ other) :
      archive.withOutcome other = a.withOutcome other + (decide (outcome = other)).toNat := by
    have counted := moved other
    rwa [pending,decide_eq_false apart,← summaries] at counted
  constructor
  · have before := reflects.total
    simp only [Archive.getGovernanceStats] at before ⊢
    rw [total,summaries,keys_set_stored stored,before]
  · intro category
    have counted := FiniteMap.countWhere_set a.proposalSummaries proposalId
      {summary with outcome} (fun summary => summary.category = category)
    rw [stored] at counted
    have same := Nat.add_right_cancel counted
    have before := reflects.category category
    rw [Archive.getProposalsByCategory,Archive.ofCategory,categories,summaries,same]
    exact before
  · have before := reflects.accepted
    simp only [Archive.getGovernanceStats] at before ⊢
    rw [settles _ (by decide),accepted,before,Nat.cast_add]
  · have before := reflects.rejected
    simp only [Archive.getGovernanceStats] at before ⊢
    rw [settles _ (by decide),rejected,before,Nat.cast_add]
  · have before := reflects.noQuorum
    simp only [Archive.getGovernanceStats] at before ⊢
    rw [settles _ (by decide),noQuorum,before,Nat.cast_add]
  · have before := reflects.pending
    have counted := moved outcomePending
    rw [← summaries,pending,decide_eq_true rfl] at counted
    change archive.withOutcome outcomePending + 1 = _ at counted
    simp only [Archive.getGovernanceStats] at before ⊢
    rw [total,accepted,rejected,noQuorum]
    omega

end Recording

section Drift
variable {a archive : Archive} {summary : ProposalSummary}

theorem reflects_drift (reflects : a.Reflects) : a.drift = 0 := by
  have total := reflects.total
  have pending := reflects.pending
  simp only [Archive.getGovernanceStats] at total pending
  rw [Archive.drift]
  omega

/-- A proposal that is recorded again is counted again. -/
theorem recordProposal_drift (pending : summary.outcome = outcomePending)
    (recorded : a.recordProposal quorumThreshold summary = .ok archive) :
    a.drift + (a.proposalSummaries.get summary.proposalId).isSome.toNat ≤ archive.drift := by
  obtain ⟨summaries,-,total,accepted,rejected,noQuorum⟩ := recordProposal_ok recorded
  have counted := FiniteMap.countWhere_set a.proposalSummaries summary.proposalId summary
    (fun summary => summary.outcome = outcomePending)
  rw [decide_eq_true pending,← summaries] at counted
  change archive.withOutcome outcomePending + _ = a.withOutcome outcomePending + _ at counted
  rw [Archive.drift,Archive.drift,total,accepted,rejected,noQuorum,summaries,FiniteMap.keys_set]
  cases stored : a.proposalSummaries.get summary.proposalId with
  | none =>
    have absent := (FiniteMap.get_eq_none_iff a.proposalSummaries summary.proposalId).mp stored
    rw [stored] at counted
    change _ + 0 = _ + 1 at counted
    rw [Finset.card_insert_of_notMem absent]
    simp only [Option.isSome_none,Bool.toNat_false]
    omega
  | some held =>
    rw [stored] at counted
    change _ + (decide (held.outcome = outcomePending)).toNat = _ + 1 at counted
    have one := Bool.toNat_le (decide (held.outcome = outcomePending))
    rw [Finset.insert_eq_of_mem (FiniteMap.mem_keys_of_get stored)]
    simp only [Option.isSome_some,Bool.toNat_true]
    omega

/-- A result that is recorded for a settled proposal is one the counters keep besides the first. -/
theorem recordVotingResult_drift
    (stored : a.proposalSummaries.get proposalId = some summary) (valid : isValidOutcome outcome)
    (recorded : a.recordVotingResult quorumThreshold proposalId summary outcome totalVotes =
      .ok archive) :
    archive.drift = a.drift + (decide (summary.outcome ≠ outcomePending)).toNat := by
  obtain ⟨summaries,-,total,accepted,rejected,noQuorum⟩ := recordVotingResult_ok recorded
  have moved := withOutcome_set stored outcome outcomePending
  have exact_ := outcome_exact valid
  have keys := keys_set_stored stored {summary with outcome}
  rw [← summaries] at moved keys
  change archive.withOutcome outcomePending + _ = _ at moved
  rw [Archive.drift,Archive.drift,total,accepted,rejected,noQuorum,keys]
  by_cases pending : summary.outcome = outcomePending
  · simp only [pending,decide_true,Bool.toNat_true,ne_eq,not_true_eq_false,decide_false,
      Bool.toNat_false] at moved ⊢
    omega
  · simp only [pending,decide_false,Bool.toNat_false,ne_eq,not_false_eq_true,decide_true,
      Bool.toNat_true] at moved ⊢
    omega

end Drift

section Runs
variable {env : Context} {self next : State}

theorem effect_reflects (effect : Effect env self msg next actions)
    (fresh : self.archive.Fresh msg) (reflects : self.archive.Reflects) :
    next.archive.Reflects := by
  cases effect with
  | proposal writer valid recorded =>
    refine recordProposal_reflects reflects ?_ rfl recorded
    exact fresh
  | result writer stored valid recorded =>
    exact recordVotingResult_reflects reflects stored (fresh _ stored) valid recorded
  | elsewhere apart kept => rwa [kept]

/-- The drift never shrinks, and grows on every record that is not fresh. -/
theorem effect_drift (effect : Effect env self msg next actions) :
    self.archive.drift ≤ next.archive.drift ∧
      (next.archive.drift ≤ self.archive.drift → self.archive.Fresh msg) := by
  cases effect with
  | proposal writer valid recorded =>
    have more := recordProposal_drift rfl recorded
    dsimp only at more ⊢
    refine ⟨by omega,fun still => ?_⟩
    rw [Archive.Fresh,← Option.isSome_eq_false_iff.trans Option.isNone_iff_eq_none]
    apply Bool.eq_false_of_not_eq_true
    intro held
    rw [held,Bool.toNat_true] at more
    omega
  | result writer stored valid recorded =>
    have more := recordVotingResult_drift stored valid recorded
    refine ⟨by dsimp only; omega,fun still held here => ?_⟩
    obtain rfl := Option.some.inj (stored.symm.trans here)
    by_contra settled
    rw [decide_eq_true settled,Bool.toNat_true] at more
    dsimp only at still
    omega
  | elsewhere apart kept =>
    rw [kept]
    refine ⟨le_rfl,fun _ => ?_⟩
    cases msg <;> trivial

theorem init_reflects (deployer : Address) (quorumThreshold : Int) :
    (init deployer quorumThreshold).archive.Reflects := by
  constructor <;> intros <;> rfl

theorem run_reflects (deployer : Address) (quorumThreshold : Int)
    (deliveries : List (Delivery Message)) :
    FreshRecords (journal (init deployer quorumThreshold) deliveries) →
      (run (init deployer quorumThreshold) deliveries).archive.Reflects := by
  refine deliver_invariant (fun entries s => FreshRecords entries → s.archive.Reflects) ?_ ?_
    deliveries
  · exact fun _ => init_reflects deployer quorumThreshold
  · intro past s d next actions reflects accepted fresh
    have earlier := reflects (fun entry member => fresh entry (.tail _ member))
    exact effect_reflects (receive_effect accepted) (fresh _ List.mem_cons_self) earlier

/-- Drift starts at zero, and a run that ends without any recorded nothing twice. -/
theorem run_drift (deployer : Address) (quorumThreshold : Int)
    (deliveries : List (Delivery Message)) :
    0 ≤ (run (init deployer quorumThreshold) deliveries).archive.drift ∧
      ((run (init deployer quorumThreshold) deliveries).archive.drift ≤ 0 →
        FreshRecords (journal (init deployer quorumThreshold) deliveries)) := by
  refine deliver_invariant (fun entries s => 0 ≤ s.archive.drift ∧
    (s.archive.drift ≤ 0 → FreshRecords entries)) ?_ ?_ deliveries
  · have zero := reflects_drift (init_reflects deployer quorumThreshold)
    refine ⟨zero.ge,fun _ entry member => ?_⟩
    cases member
  · intro past s d next actions ⟨natural,held⟩ accepted
    obtain ⟨grown,fresh⟩ := effect_drift (receive_effect accepted)
    refine ⟨natural.trans grown,fun none_ => ?_⟩
    intro entry member
    rcases List.mem_cons.mp member with rfl | earlier
    · exact fresh (none_.trans natural)
    · exact held (grown.trans none_) entry earlier

/-- The statistics count the stored records after exactly the runs of fresh records. -/
theorem counters_reflect_iff (deployer : Address) (quorumThreshold : Int)
    (deliveries : List (Delivery Message)) :
    (run (init deployer quorumThreshold) deliveries).archive.Reflects ↔
      FreshRecords (journal (init deployer quorumThreshold) deliveries) := by
  constructor
  · intro reflects
    have still := reflects_drift reflects
    exact (run_drift deployer quorumThreshold deliveries).2 still.le
  · exact run_reflects deployer quorumThreshold deliveries

end Runs

section Samples

def deployer : Address := newAddress 0 1
def writer : Address := newAddress 0 2

def sentAt (now : Nat) (sender : Address) (message : Message) : Delivery Message :=
  ⟨⟨sender,1000,now⟩,message,true⟩

/-- The registry revises the outcome of a proposal from accepted to rejected. -/
def revised : List (Delivery Message) :=
  [sentAt 110 writer (.recordVotingResult 1 outcomeRejected 150),
    sentAt 100 writer (.recordVotingResult 1 outcomeAccepted 120),
    sentAt 90 writer (.recordProposal 1 77 categoryRoadmapSignal 90 95),
    sentAt 80 deployer (.setProposalRegistry writer)]

theorem revised_outcome_drifts :
    (run (init deployer 112) revised).archive.getGovernanceStats = ⟨1,1,1,0,-1⟩ ∧
      ¬(run (init deployer 112) revised).archive.Reflects := by
  have stats : (run (init deployer 112) revised).archive.getGovernanceStats = ⟨1,1,1,0,-1⟩ := by
    decide +kernel
  refine ⟨stats,fun reflects => ?_⟩
  have pending := reflects.pending
  rw [stats] at pending
  have negative : (-1 : Int) = _ := pending
  omega

end Samples
end Tonbankcard.TransparencyRegistry
