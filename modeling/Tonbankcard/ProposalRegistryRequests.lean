import Tonbankcard.ProposalRegistry

/-! The requests in flight. A query id is issued with a fresh request and an expiry, and
from then on it can only lose them: no message rebinds an id that was issued before. -/
namespace Tonbankcard.ProposalRegistry

open Ton

abbrev Entry := Journal.Entry State (Delivery Message) (List (Action Body))

section Runs
variable (hash : Cell → Int) (contractAddress : Cell → Cell → Address) (deployer : Address)

/-- A run of deliveries, newest first, and the journal of the accepted ones. -/
def run (deliveries : List (Delivery Message)) : State :=
  Journal.run (deliver (receive hash contractAddress)) (init deployer) deliveries

def journal (deliveries : List (Delivery Message)) : List Entry :=
  Journal.journal (deliver (receive hash contractAddress)) (init deployer) deliveries

end Runs

inductive Request where
  | vote (v : PendingVote)
  | proposal (r : PendingProposal)
  | eligibility (v : PendingVote)

/-- What a query id is bound to, in any of the three maps. -/
def Pending.Binds (self : Pending) (qid : Int) : Request → Prop
  | .vote v => self.votes.get qid = some v
  | .proposal r => self.proposals.get qid = some r
  | .eligibility v => self.eligibilityVotes.get qid = some v

theorem Pending.Within.binds {later earlier : Pending} (within : later.Within earlier)
    (bound : later.Binds qid request) : earlier.Binds qid request := by
  cases request with
  | vote v => exact within.votes qid v bound
  | proposal r => exact within.proposals qid r bound
  | eligibility v => exact within.eligibilityVotes qid v bound

/-- The messages that issue a query, with the request it stands for and what they send. -/
inductive Issue (env : Context) (self : State) :
    Message → List (Action Body) → Request → Prop where
  | vote (stored : self.proposals.get proposalId = some p) (votable : p.votable env = true)
      (diamond : 1 ≤ voterNftId ∧ voterNftId ≤ diamondsTotalSupply)
      (voteType : vote = voteFor ∨ vote = voteAgainst ∨ vote = voteAbstain)
      (resolver : self.ownerResolver = some peer) :
      Issue env self (.castVote proposalId voterNftId vote)
        [resolveOwnership peer self.nextQueryId voterNftId env.sender requestKindVote]
        (.vote ⟨proposalId,voterNftId,vote,env.sender⟩)
  | proposal (resolver : self.ownerResolver = some peer) :
      Issue env self
        (.submitProposal metadataHash authorNftId category votingDuration quorumThreshold)
        [resolveOwnership peer self.nextQueryId authorNftId env.sender requestKindProposal]
        (.proposal ⟨metadataHash,authorNftId,category,resolvedVotingDuration votingDuration,
          resolvedQuorum quorumThreshold,env.sender⟩)
  | eligibility (resolver : self.ownerResolver = some env.sender)
      (fresh : self.pending.pendingIsFresh env queryId = true)
      (held : self.pending.votes.get queryId = some v)
      (verifier : self.snapshotVerifier = some peer) :
      Issue env self (.ownershipResolved queryId v.nftId v.claimant)
        [eligibilityCheckRequest peer self.nextQueryId v.proposalId v.nftId] (.eligibility v)

/-- The next query id is taken for a request that expires in an hour. -/
structure Added (env : Context) (request : Request) (s next : State) : Prop where
  nextQueryId : next.nextQueryId = s.nextQueryId + 1
  binds : next.pending.Binds qid r →
    s.pending.Binds qid r ∨ qid = s.nextQueryId ∧ r = request
  expiry : next.pending.expiry.get qid = some deadline →
    s.pending.expiry.get qid = some deadline ∨
      qid = s.nextQueryId ∧ deadline = env.now + pendingTtl
  tracked : s.pending.Tracked → next.pending.Tracked

namespace Pending
variable {env : Context} {self middle next : Pending}

theorem Reserved.expiry_bound (reserved : middle.Reserved env qid claimant next)
    (within : middle.Within self) (bound : next.expiry.get other = some deadline) :
    self.expiry.get other = some deadline ∨ other = qid ∧ deadline = env.now + pendingTtl :=
  (FiniteMap.get_set_cases _ (reserved.expiry ▸ bound)).imp_left (within.expiry other deadline)

theorem Reserved.tracked (reserved : middle.Reserved env qid claimant next)
    (tracked : middle.Tracked) : next.Tracked := by
  intro other bound
  rw [reserved.expiry,FiniteMap.get_set] at bound
  rw [reserved.claimants,FiniteMap.get_set]
  split
  · simp
  next different => exact tracked other (by simpa [different] using bound)

end Pending

section Steps
variable {env : Context} {self next : State}

/-- A message drops requests or issues the next one. -/
theorem effect_requests (effect : Effect env self msg next actions) :
    (next.pending.Within self.pending ∧ next.nextQueryId = self.nextQueryId) ∨
      ∃ request, Issue env self msg actions request ∧ Added env request self next := by
  cases effect with
  | configured | finalized => exact .inl ⟨.refl _,rfl⟩
  | dropped within => exact .inl ⟨within,rfl⟩
  | opened => exact .inl ⟨(self.pending.releasePending_within _).delProposal _,rfl⟩
  | counted => exact .inl ⟨(self.pending.releasePending_within _).delEligibilityVote _,rfl⟩
  | submitted resolver reserved =>
    refine .inr ⟨_,.proposal resolver,rfl,?_,reserved.expiry_bound (.refl _),reserved.tracked⟩
    rintro qid (v | r | v) bound
    all_goals
      simp only [Pending.Binds,reserved.votes,reserved.proposals,reserved.eligibilityVotes]
        at bound ⊢
    · exact .inl bound
    · exact (FiniteMap.get_set_cases _ bound).imp_right (And.imp_right (congrArg _))
    · exact .inl bound
  | cast stored votable diamond voteType resolver reserved =>
    refine .inr ⟨_,.vote stored votable diamond voteType resolver,rfl,?_,
      reserved.expiry_bound (.refl _),reserved.tracked⟩
    rintro qid (v | r | v) bound
    all_goals
      simp only [Pending.Binds,reserved.votes,reserved.proposals,reserved.eligibilityVotes]
        at bound ⊢
    · exact (FiniteMap.get_set_cases _ bound).imp_right (And.imp_right (congrArg _))
    · exact .inl bound
    · exact .inl bound
  | @requested queryId v _ _ resolver fresh held verifier reserved =>
    have released := (self.pending.releasePending_within queryId).delVote queryId
    refine .inr ⟨_,.eligibility resolver fresh held verifier,rfl,?_,
      reserved.expiry_bound released,fun tracked => reserved.tracked (released.tracked tracked)⟩
    rintro qid (v | r | v) bound
    all_goals
      simp only [Pending.Binds,reserved.votes,reserved.proposals,reserved.eligibilityVotes]
        at bound ⊢
    · exact .inl (released.votes qid v bound)
    · exact .inl (released.proposals qid r bound)
    · exact (FiniteMap.get_set_cases _ bound).imp (released.eligibilityVotes qid v)
        (And.imp_right (congrArg _))

/-- No query id from the counter on has an expiry or a request. -/
structure Pending.Issued (pending : Pending) (nextQueryId : Int) : Prop where
  tracked : pending.Tracked
  expiry : pending.expiry.get qid ≠ none → qid < nextQueryId
  binds : pending.Binds qid request → qid < nextQueryId

theorem effect_issued (issued : self.pending.Issued self.nextQueryId)
    (effect : Effect env self msg next actions) : next.pending.Issued next.nextQueryId := by
  obtain ⟨tracked,expiry,binds⟩ := issued
  rcases effect_requests effect with ⟨within,counter⟩ | ⟨request,-,added⟩
  · rw [counter]
    refine ⟨within.tracked tracked,?_,fun bound => binds (within.binds bound)⟩
    intro qid bound
    obtain ⟨deadline,bound⟩ := Option.ne_none_iff_exists'.mp bound
    exact expiry (by simp [within.expiry qid deadline bound])
  · rw [added.nextQueryId]
    refine ⟨added.tracked tracked,?_,?_⟩
    · intro qid bound
      obtain ⟨deadline,bound⟩ := Option.ne_none_iff_exists'.mp bound
      rcases added.expiry bound with before | ⟨rfl,-⟩
      · exact Int.lt_add_one_of_le (Int.le_of_lt (expiry (by simp [before])))
      · exact Int.lt_succ _
    · intro qid r bound
      rcases added.binds bound with before | ⟨rfl,-⟩
      · exact Int.lt_add_one_of_le (Int.le_of_lt (binds before))
      · exact Int.lt_succ _

theorem init_issued (deployer : Address) :
    (init deployer).pending.Issued (init deployer).nextQueryId := by
  refine ⟨fun _ bound => absurd rfl bound,fun bound => absurd rfl bound,?_⟩
  rintro qid (v | r | v) bound <;> cases bound

/-- A request that is bound and has not been released yet. -/
structure Pending.Live (pending : Pending) (qid : Int) (request : Request) (deadline : Int) :
    Prop where
  binds : pending.Binds qid request
  expiry : pending.expiry.get qid = some deadline

/-- A live request was live before or is the one just issued. -/
theorem effect_live (issued : self.pending.Issued self.nextQueryId)
    (effect : Effect env self msg next actions)
    (live : next.pending.Live qid request deadline) :
    self.pending.Live qid request deadline ∨
      Issue env self msg actions request ∧ qid = self.nextQueryId ∧
        deadline = env.now + pendingTtl := by
  rcases effect_requests effect with ⟨within,-⟩ | ⟨latest,issue,added⟩
  · exact .inl ⟨within.binds live.binds,within.expiry _ _ live.expiry⟩
  rcases added.binds live.binds,added.expiry live.expiry with
    ⟨bound | ⟨rfl,rfl⟩,before | ⟨same,rfl⟩⟩
  · exact .inl ⟨bound,before⟩
  · have late := issued.binds bound
    omega
  · have late : self.nextQueryId < self.nextQueryId := issued.expiry (by simp [before])
    exact absurd late (lt_irrefl _)
  · exact .inr ⟨issue,rfl,rfl⟩

end Steps

section Reached
variable {hash : Cell → Int} {contractAddress : Cell → Cell → Address}

theorem entry_effect {deliveries : List (Delivery Message)}
    (member : entry ∈ journal hash contractAddress deployer deliveries) :
    Effect entry.input.context entry.before entry.input.message entry.after entry.output :=
  receive_effect (entry_received member)

/-- The induction rule for runs of the registry: the effects of accepted messages preserve
a relation between the journal and the state. -/
theorem run_invariant (related : List Entry → State → Prop) (start : related [] (init deployer))
    (step : ∀ past s d next actions, related past s →
      Effect d.context s d.message next actions → related (⟨s,d,next,actions⟩ :: past) next)
    (deliveries : List (Delivery Message)) :
    related (journal hash contractAddress deployer deliveries)
      (run hash contractAddress deployer deliveries) :=
  deliver_invariant related start (fun past s d next actions held accepted =>
    step past s d next actions held (receive_effect accepted)) deliveries

end Reached

end Tonbankcard.ProposalRegistry
