import Tonbankcard.ProposalRegistryTally

/-! The resolver's reading of a vote, in its get methods: who counts, how many votes a quorum takes
and what a tally comes to. The registry closes every proposal the way the resolver reads it. -/
namespace Tonbankcard.DiamondResolver

open Ton

section GetMethods

def totalDiamonds : Int := 222
def defaultQuorumPercentage : Int := 10
def quorumPercentDenominator : Int := 100

def defaultQuorumThreshold : Int :=
  (totalDiamonds * defaultQuorumPercentage + quorumPercentDenominator - 1) /
    quorumPercentDenominator

/-- True has every bit set. -/
def truth (holds : Bool) : Int := if holds then -1 else 0

/-- The loop over the indices from some position on, with the power counted before it. -/
def votingPowerFrom : List Int → Int → Int × Int
  | [],totalPower => (-1,totalPower)
  | idx :: rest,totalPower =>
    if idx < 0 ∨ idx ≥ totalDiamonds then (0,0) else votingPowerFrom rest (totalPower + 1)

def verifyVotingPowerRange (nftIndices : List Int) : Int × Int := votingPowerFrom nftIndices 0

def getQuorumRequirement (quorumPercentage : Int) : Result Int := do
  throwUnless 402 (quorumPercentage > 0 ∧ quorumPercentage ≤ 100)
  if quorumPercentage = defaultQuorumPercentage then pure defaultQuorumThreshold
  else
    pure ((totalDiamonds * quorumPercentage + quorumPercentDenominator - 1) /
      quorumPercentDenominator)

structure Outcome where
  quorumMet : Int
  proposalPassed : Int
  forPercentage : Int
  deriving DecidableEq, Repr

def calculateVoteOutcome (votesFor votesAgainst votesAbstain quorumPercentage : Int) :
    Result Outcome := do
  throwUnless 403 (votesFor ≥ 0)
  throwUnless 403 (votesAgainst ≥ 0)
  throwUnless 403 (votesAbstain ≥ 0)
  let decisiveVotes ← int257 (votesFor + votesAgainst)
  let totalVotesCast ← int257 (decisiveVotes + votesAbstain)
  throwUnless 404 (totalVotesCast ≤ totalDiamonds)
  let quorumRequired ← getQuorumRequirement quorumPercentage
  pure {
    quorumMet := truth (totalVotesCast ≥ quorumRequired)
    proposalPassed := if decisiveVotes > 0 then truth (votesFor > votesAgainst) else 0
    forPercentage := if decisiveVotes > 0 then votesFor * 100 / decisiveVotes else 0 }

end GetMethods

section Arithmetic

/-- The fixed requirement is the one the formula gives, so one rounding rule holds throughout: a
quorum is the fewest votes that make up the percentage. -/
theorem getQuorumRequirement_least (share : 0 < quorumPercentage ∧ quorumPercentage ≤ 100) :
    ∃ required, getQuorumRequirement quorumPercentage = .ok required ∧ required ≤ totalDiamonds ∧
      ∀ votes, required ≤ votes ↔
        totalDiamonds * quorumPercentage ≤ votes * quorumPercentDenominator := by
  refine ⟨(totalDiamonds * quorumPercentage + quorumPercentDenominator - 1) /
    quorumPercentDenominator,?_,?_,fun votes => ?_⟩
  · rw [getQuorumRequirement,throwUnless_bind_ok]
    refine ⟨share,?_⟩
    split
    next default => rw [default]; rfl
    next => rfl
  · simp only [totalDiamonds,quorumPercentDenominator]
    omega
  · simp only [totalDiamonds,quorumPercentDenominator]
    omega

/-- The registry and the resolver hold to one quorum. -/
theorem getQuorumRequirement_default :
    getQuorumRequirement defaultQuorumPercentage =
      .ok ProposalRegistry.defaultQuorumThreshold := rfl

theorem votingPowerFrom_valid (nftIndices : List Int) (totalPower : Int)
    (diamonds : ∀ idx ∈ nftIndices, 0 ≤ idx ∧ idx < totalDiamonds) :
    votingPowerFrom nftIndices totalPower = (-1,totalPower + nftIndices.length) := by
  induction nftIndices generalizing totalPower with
  | nil => simp [votingPowerFrom]
  | cons idx rest ih =>
    obtain ⟨least,most⟩ := diamonds idx List.mem_cons_self
    rw [votingPowerFrom,if_neg (by omega),ih _ fun other member =>
      diamonds other (List.mem_cons_of_mem _ member)]
    simp only [List.length_cons,Prod.mk.injEq,true_and]
    push_cast
    ring

end Arithmetic

section Registry
open ProposalRegistry

/-- Every proposal, open or waiting for its author's NFT, has the quorum of the protocol. -/
structure Quorate (s : State) : Prop where
  stored : s.proposals.get proposalId = some p →
    p.quorumThreshold = ProposalRegistry.defaultQuorumThreshold
  waiting : s.pending.Binds queryId (.proposal r) →
    r.quorumThreshold = ProposalRegistry.defaultQuorumThreshold

variable {hash : Cell → Int} {contractAddress : Cell → Cell → Address} {self next : State}

theorem record_quorum (p : Proposal) (vote : Int) :
    (p.record vote).quorumThreshold = p.quorumThreshold := by
  unfold Proposal.record
  split
  · rfl
  · split <;> rfl

theorem submitted_quorum
    (accepted : receive hash contractAddress env
      (.submitProposal metadataHash authorNftId category votingDuration quorumThreshold) self =
        .ok (next,actions)) :
    resolvedQuorum quorumThreshold = ProposalRegistry.defaultQuorumThreshold := by
  obtain ⟨result,handled,-⟩ := bind_ok.mp accepted
  obtain ⟨-,handled⟩ := require_bind_ok.mp handled
  obtain ⟨-,handled⟩ := require_bind_ok.mp handled
  exact (require_bind_ok.mp handled).1

theorem quorate_waiting (quorate : Quorate self)
    (accepted : receive hash contractAddress env msg self = .ok (next,actions))
    (bound : next.pending.Binds queryId (.proposal r)) :
    r.quorumThreshold = ProposalRegistry.defaultQuorumThreshold := by
  rcases effect_requests (receive_effect accepted) with ⟨within,-⟩ | ⟨request,issue,added⟩
  · exact quorate.waiting (within.binds bound)
  · rcases added.binds bound with before | ⟨-,rfl⟩
    · exact quorate.waiting before
    · cases issue with
      | proposal => exact submitted_quorum accepted

theorem quorate_stored (quorate : Quorate self) (effect : Effect env self msg next actions)
    (stored : next.proposals.get proposalId = some p) :
    p.quorumThreshold = ProposalRegistry.defaultQuorumThreshold := by
  cases effect with
  | opened resolver fresh held =>
    rcases FiniteMap.get_set_cases _ stored with before | ⟨-,rfl⟩
    · exact quorate.stored before
    · exact quorate.waiting held
  | counted verifier fresh held known =>
    rcases FiniteMap.get_set_cases _ stored with before | ⟨-,rfl⟩
    · exact quorate.stored before
    · exact (record_quorum _ _).trans (quorate.stored known)
  | finalized known =>
    have kept := quorate.stored known
    rcases FiniteMap.get_set_cases _ stored with before | ⟨-,rfl⟩
    · exact quorate.stored before
    · exact kept
  | _ => exact quorate.stored stored

theorem run_quorate (deployer : Address) (deliveries : List (Delivery Message)) :
    Quorate (run hash contractAddress deployer deliveries) := by
  refine Journal.state_invariant Quorate ?_ ?_ deliveries
  · constructor
    · intro proposalId p stored
      cases stored
    · intro queryId r bound
      cases bound
  · intro s d next actions quorate accepted
    have received := deliver_received accepted
    exact ⟨quorate_stored quorate (receive_effect received),quorate_waiting quorate received⟩

theorem votes_nonneg (deployer : Address) (deliveries : List (Delivery Message))
    (stored : (run hash contractAddress deployer deliveries).proposals.get proposalId = some p) :
    0 ≤ p.votesFor ∧ 0 ≤ p.votesAgainst ∧ 0 ≤ p.votesAbstain := by
  obtain ⟨infavour,against,abstained⟩ :=
    (vote_tally hash contractAddress deployer deliveries).1.events stored
  omega

theorem votes_total_le (deployer : Address) (deliveries : List (Delivery Message))
    (stored : (run hash contractAddress deployer deliveries).proposals.get proposalId = some p) :
    p.votesFor + p.votesAgainst + p.votesAbstain ≤ totalDiamonds := by
  rw [(vote_tally hash contractAddress deployer deliveries).1.total stored]
  have all : (voters (run hash contractAddress deployer deliveries).votesCast
      proposalId).card ≤ diamonds.card := Finset.card_le_card (Finset.filter_subset _ _)
  have supply : diamonds.card ≤ 222 := Finset.card_image_le.trans (Finset.card_range _).le
  simp only [totalDiamonds]
  omega

/-- What the resolver makes of a tally within the supply. -/
theorem calculateVoteOutcome_ok {votesFor votesAgainst votesAbstain : Int}
    (counted : 0 ≤ votesFor ∧ 0 ≤ votesAgainst ∧ 0 ≤ votesAbstain)
    (total : votesFor + votesAgainst + votesAbstain ≤ totalDiamonds)
    (required : getQuorumRequirement quorumPercentage = .ok quorumRequired) :
    calculateVoteOutcome votesFor votesAgainst votesAbstain quorumPercentage = .ok
      { quorumMet := truth (votesFor + votesAgainst + votesAbstain ≥ quorumRequired)
        proposalPassed :=
          if votesFor + votesAgainst > 0 then truth (votesFor > votesAgainst) else 0
        forPercentage :=
          if votesFor + votesAgainst > 0 then votesFor * 100 / (votesFor + votesAgainst)
          else 0 } := by
  have decisive : int257 (votesFor + votesAgainst) = .ok (votesFor + votesAgainst) := by
    simp only [totalDiamonds] at total
    exact int257_ok.mpr ⟨rfl,by omega,by omega⟩
  have all : int257 (votesFor + votesAgainst + votesAbstain) =
      .ok (votesFor + votesAgainst + votesAbstain) := by
    simp only [totalDiamonds] at total
    exact int257_ok.mpr ⟨rfl,by omega,by omega⟩
  obtain ⟨infavour,against,abstained⟩ := counted
  simp only [calculateVoteOutcome,throwUnless_bind_ok,infavour,against,abstained,decisive,all,
    ok_bind,total,required,true_and,ge_iff_le]
  rfl

/-- How the resolver's outcome reads as a status. -/
def Outcome.status (outcome : Outcome) : Status :=
  if outcome.quorumMet = 0 then .noQuorum
  else if outcome.proposalPassed = 0 then .rejected
  else .accepted

theorem truth_eq_zero (holds : Bool) : truth holds = 0 ↔ holds = false := by
  cases holds <;> simp [truth]

theorem forPercentage_bounds {votesFor votesAgainst : Int}
    (counted : 0 ≤ votesFor ∧ 0 ≤ votesAgainst) (decisive : 0 < votesFor + votesAgainst) :
    0 ≤ votesFor * 100 / (votesFor + votesAgainst) ∧
      votesFor * 100 / (votesFor + votesAgainst) ≤ 100 := by
  constructor
  · exact Int.ediv_nonneg (by omega) (by omega)
  · exact Int.ediv_le_of_le_mul decisive (by omega)

/-- For every proposal of a registry with any past, the resolver takes the tally, finds as much
voting power in the range as there are votes, and tells the status that the registry closed it
with. -/
theorem registry_closes_as_resolved (hash : Cell → Int) (contractAddress : Cell → Cell → Address)
    (deployer : Address) (deliveries : List (Delivery Message))
    (stored : (run hash contractAddress deployer deliveries).proposals.get proposalId = some p) :
    ∃ outcome, calculateVoteOutcome p.votesFor p.votesAgainst p.votesAbstain
        defaultQuorumPercentage = .ok outcome ∧
      (p.status ≠ .active → p.status = outcome.status) ∧
      (0 ≤ outcome.forPercentage ∧ outcome.forPercentage ≤ 100) ∧
      ∀ nftIds : List Int, nftIds.Nodup →
        (∀ nftId, nftId ∈ nftIds ↔ nftId ∈ voters
          (run hash contractAddress deployer deliveries).votesCast proposalId) →
        verifyVotingPowerRange (nftIds.map fun nftId => nftId - 1) =
          (-1,p.votesFor + p.votesAgainst + p.votesAbstain) := by
  have counted := votes_nonneg deployer deliveries stored
  have total := votes_total_le deployer deliveries stored
  have tally := (vote_tally hash contractAddress deployer deliveries).1
  refine ⟨_,calculateVoteOutcome_ok counted total getQuorumRequirement_default,?_,?_,?_⟩
  · intro closed
    rw [tally.outcome stored closed,(run_quorate deployer deliveries).stored stored]
    simp only [Outcome.status,truth_eq_zero,decide_eq_false_iff_not,ge_iff_le,not_le,gt_iff_lt]
    refine if_congr Iff.rfl rfl ?_
    by_cases decisive : 0 < p.votesFor + p.votesAgainst
    · by_cases ahead : p.votesAgainst < p.votesFor <;>
        simp [decisive,ahead,truth]
    · have behind : ¬p.votesAgainst < p.votesFor := by omega
      simp [decisive,behind]
  · by_cases decisive : 0 < p.votesFor + p.votesAgainst
    · simpa [decisive] using forPercentage_bounds ⟨counted.1,counted.2.1⟩ decisive
    · simp [decisive]
  · intro nftIds nodup listed
    have indexed : ∀ index ∈ nftIds.map (fun nftId => nftId - 1),
        0 ≤ index ∧ index < totalDiamonds := by
      intro index member
      obtain ⟨nftId,voted,rfl⟩ := List.mem_map.mp member
      obtain ⟨⟨least,most⟩,-⟩ := (mem_voters _).mp ((listed nftId).mp voted)
      simp only [totalDiamonds,diamondsTotalSupply] at *
      omega
    have counts : nftIds.length = (voters (run hash contractAddress deployer
        deliveries).votesCast proposalId).card := by
      have same : nftIds.toFinset = voters (run hash contractAddress deployer
          deliveries).votesCast proposalId := by
        ext nftId
        rw [List.mem_toFinset,listed]
      rw [← same,List.toFinset_card_of_nodup nodup]
    rw [verifyVotingPowerRange,votingPowerFrom_valid _ _ indexed,List.length_map,counts,zero_add,
      tally.total stored]

/-- A single vote makes no quorum, for the registry and for the resolver. -/
theorem registry_closes_without_quorum :
    ∃ outcome, calculateVoteOutcome 1 0 0 defaultQuorumPercentage = .ok outcome ∧
      (Status.noQuorum ≠ .active → Status.noQuorum = outcome.status) ∧
      (0 ≤ outcome.forPercentage ∧ outcome.forPercentage ≤ 100) ∧
      ∀ nftIds : List Int, nftIds.Nodup →
        (∀ nftId, nftId ∈ nftIds ↔ nftId ∈ voters
          (run packedHash peerAddress firstGovernor voting).votesCast 1) →
        verifyVotingPowerRange (nftIds.map fun nftId => nftId - 1) = (-1,1 + 0 + 0) := by
  have stored : (run packedHash peerAddress firstGovernor voting).proposals.get 1 =
      some ⟨1,99,7,0,1300002,1303602,.noQuorum,1,0,0,23⟩ := by decide +kernel
  exact registry_closes_as_resolved packedHash peerAddress firstGovernor voting stored

end Registry
end Tonbankcard.DiamondResolver
