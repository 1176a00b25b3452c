import Mathlib.Data.Finset.Image
import Tonbankcard.ProposalRegistryRequests

/-! The counters of a proposal against the NFTs on record and the events of its votes.
Only a reply of the verifier counts a vote, and it writes the key, the counter and the
event together; everything else leaves the ballots alone. -/
namespace Tonbankcard.ProposalRegistry

open Ton

def ValidVote (vote : Int) : Prop := vote = voteFor ∨ vote = voteAgainst ∨ vote = voteAbstain

def Diamond (nftId : Int) : Prop := 1 ≤ nftId ∧ nftId ≤ diamondsTotalSupply

section Counters

/-- The counter that votes of a type go to. -/
def Proposal.votes (p : Proposal) (voteType : Int) : Int :=
  if voteType = voteFor then p.votesFor
  else if voteType = voteAgainst then p.votesAgainst
  else p.votesAbstain

theorem record_votes (p : Proposal) (cast : ValidVote vote) (valid : ValidVote voteType) :
    (p.record vote).votes voteType = p.votes voteType + if voteType = vote then 1 else 0 := by
  rcases cast with rfl | rfl | rfl <;> rcases valid with rfl | rfl | rfl <;>
    simp [Proposal.record,Proposal.votes,voteFor,voteAgainst,voteAbstain]

@[simp] theorem record_status (p : Proposal) (vote : Int) : (p.record vote).status = p.status := by
  unfold Proposal.record
  split
  · rfl
  · split <;> rfl

/-- What a state counts for a proposal; an unknown one has no votes. -/
def State.votes (s : State) (proposalId voteType : Int) : Int :=
  ((s.proposals.get proposalId).map (Proposal.votes · voteType)).getD 0

theorem votes_stored {s : State} (stored : s.proposals.get proposalId = some p) :
    s.votes proposalId voteType = p.votes voteType := by simp [State.votes,stored]

theorem votes_set {s next : State} (proposals : next.proposals = s.proposals.set proposalId p) :
    next.votes other voteType =
      if other = proposalId then p.votes voteType else s.votes other voteType := by
  simp only [State.votes,proposals,FiniteMap.get_set]
  split <;> rfl

end Counters

section Voters

/-- The NFT ids from 1 to the supply. -/
def diamonds : Finset Int :=
  (Finset.range diamondsTotalSupply.toNat).image (fun index : Nat => (index : Int) + 1)

theorem mem_diamonds : nftId ∈ diamonds ↔ Diamond nftId := by
  simp only [diamonds,Diamond,Finset.mem_image,Finset.mem_range]
  constructor
  · rintro ⟨index,bound,rfl⟩
    omega
  · rintro ⟨least,most⟩
    exact ⟨(nftId - 1).toNat,by omega,by omega⟩

/-- The NFTs with a vote on a proposal in `votes_cast`. -/
def voters (votesCast : FiniteMap Int Bool) (proposalId : Int) : Finset Int :=
  diamonds.filter (fun nftId => votesCast.get (voteKey proposalId nftId) ≠ none)

theorem mem_voters (votesCast : FiniteMap Int Bool) :
    nftId ∈ voters votesCast proposalId ↔
      Diamond nftId ∧ votesCast.get (voteKey proposalId nftId) ≠ none := by
  rw [voters,Finset.mem_filter,mem_diamonds]

/-- Composite keys of supplied NFTs never meet. -/
theorem voteKey_injective (diamond : Diamond nftId) (diamond' : Diamond otherNft)
    (same : voteKey proposalId nftId = voteKey other otherNft) :
    proposalId = other ∧ nftId = otherNft := by
  simp only [voteKey,Diamond,diamondsTotalSupply] at *
  omega

theorem voters_set (votesCast : FiniteMap Int Bool) (diamond : Diamond nftId) :
    voters (votesCast.set (voteKey proposalId nftId) true) other =
      if other = proposalId then insert nftId (voters votesCast other)
      else voters votesCast other := by
  have keys (otherNft : Int) (diamond' : Diamond otherNft) :
      voteKey other otherNft = voteKey proposalId nftId ↔
        other = proposalId ∧ otherNft = nftId :=
    ⟨voteKey_injective diamond' diamond,fun ⟨sameId,sameNft⟩ => by rw [sameId,sameNft]⟩
  ext otherNft
  by_cases supplied : Diamond otherNft
  · rw [mem_voters,FiniteMap.get_set,if_congr (keys otherNft supplied) rfl rfl]
    split
    next same => simp [same.1,same.2,diamond]
    next apart =>
      split
      next same =>
        have apart : otherNft ≠ nftId := fun sameNft => apart ⟨same,sameNft⟩
        simp [mem_voters,apart]
      next => rw [mem_voters]
  · have apart : otherNft ≠ nftId := fun same => supplied (same ▸ diamond)
    split <;> simp [mem_voters,supplied,apart]

end Voters

section Events

/-- The `VoteCast` events of one type emitted for a proposal. -/
def castEvents (entries : List Entry) (proposalId voteType : Int) : Nat :=
  (entries.flatMap (fun entry => entry.output)).count (.emit (.voteCast proposalId voteType))

theorem castEvents_cons (entry : Entry) (past : List Entry) (proposalId voteType : Int) :
    castEvents (entry :: past) proposalId voteType =
      entry.output.count (.emit (.voteCast proposalId voteType)) +
        castEvents past proposalId voteType := by
  simp [castEvents]

/-- An entry that counts a vote of an NFT: the verifier's reply about it was answered by
the event. -/
def countsVote (proposalId nftId : Int) (entry : Entry) : Bool :=
  match entry.input.message with
  | .eligibilityCheckResponse _ replyProposal replyNft _ =>
    decide (replyProposal = proposalId) && decide (replyNft = nftId) &&
      entry.output.any (fun
        | .emit (.voteCast voted _) => decide (voted = proposalId)
        | _ => false)
  | _ => false

end Events

/-- What a message does to the ballots: proposals, their count and the keys on record. -/
inductive Ballot (env : Context) (self next : State) (msg : Message)
    (actions : List (Action Body)) : Prop where
  | idle (proposals : next.proposals = self.proposals) (votesCast : next.votesCast = self.votesCast)
      (count : next.proposalCount = self.proposalCount)
      (silent : ∀ proposalId voteType, .emit (.voteCast proposalId voteType) ∉ actions)
  | opened (r : PendingProposal)
      (proposals : next.proposals =
        self.proposals.set (self.proposalCount + 1) (r.opened env (self.proposalCount + 1)))
      (votesCast : next.votesCast = self.votesCast)
      (count : next.proposalCount = self.proposalCount + 1)
      (silent : ∀ proposalId voteType, .emit (.voteCast proposalId voteType) ∉ actions)
  | counted (queryId : Int) (v : PendingVote) (p : Proposal)
      (held : self.pending.Binds queryId (.eligibility v))
      (stored : self.proposals.get v.proposalId = some p) (votable : p.votable env = true)
      (uncounted : self.votesCast.get (voteKey v.proposalId v.nftId) = none)
      (proposals : next.proposals = self.proposals.set v.proposalId (p.record v.vote))
      (votesCast : next.votesCast = self.votesCast.set (voteKey v.proposalId v.nftId) true)
      (count : next.proposalCount = self.proposalCount)
      (message : msg = .eligibilityCheckResponse queryId v.proposalId v.nftId true)
      (event : actions = [.emit (.voteCast v.proposalId v.vote)])
  | finalized (proposalId : Int) (p : Proposal)
      (stored : self.proposals.get proposalId = some p) (active : p.status = .active)
      (proposals : next.proposals = self.proposals.set proposalId {p with status := p.outcome})
      (votesCast : next.votesCast = self.votesCast)
      (count : next.proposalCount = self.proposalCount)
      (silent : ∀ proposalId voteType, .emit (.voteCast proposalId voteType) ∉ actions)

section Steps
variable {env : Context} {self next : State}

theorem effect_ballot (effect : Effect env self msg next actions) :
    Ballot env self next msg actions := by
  cases effect with
  | @configured _ body _ _ _ unprompted event =>
    refine .idle rfl rfl rfl fun proposalId voteType emitted => ?_
    rw [List.mem_singleton,Action.emit.injEq] at emitted
    subst emitted
    contradiction
  | dropped => exact .idle rfl rfl rfl (by simp)
  | submitted => exact .idle rfl rfl rfl (by simp [resolveOwnership])
  | cast => exact .idle rfl rfl rfl (by simp [resolveOwnership])
  | requested => exact .idle rfl rfl rfl (by simp [eligibilityCheckRequest])
  | opened resolver fresh held => exact .opened _ rfl rfl rfl (by simp [proposalSubmitted])
  | counted verifier fresh held stored votable uncounted =>
    exact .counted _ _ _ held stored votable uncounted rfl rfl rfl rfl rfl
  | finalized stored active closed => exact .finalized _ _ stored active rfl rfl rfl (by simp)

/-- A counted vote passed every check of its proposal, whatever happened on the way. -/
theorem effect_voteCast (effect : Effect env self msg next actions)
    (emitted : .emit (.voteCast proposalId voteType) ∈ actions) :
    ∃ p, self.proposals.get proposalId = some p ∧ p.votable env = true := by
  cases effect_ballot effect with
  | counted queryId v p held stored votable uncounted proposals votesCast count message event =>
    simp only [event,List.mem_singleton,Action.emit.injEq,Body.voteCast.injEq] at emitted
    obtain ⟨rfl,rfl⟩ := emitted
    exact ⟨p,stored,votable⟩
  | idle _ _ _ silent => exact absurd emitted (silent _ _)
  | opened _ _ _ _ silent => exact absurd emitted (silent _ _)
  | finalized _ _ _ _ _ _ _ silent => exact absurd emitted (silent _ _)

theorem countsVote_event (counts : countsVote proposalId nftId entry = true) :
    ∃ voteType, .emit (.voteCast proposalId voteType) ∈ entry.output := by
  unfold countsVote at counts
  split at counts
  · simp only [Bool.and_eq_true,List.any_eq_true] at counts
    obtain ⟨-,action,member,event⟩ := counts
    split at event
    · rename_i voted voteType
      obtain rfl := of_decide_eq_true event
      exact ⟨voteType,member⟩
    · contradiction
  · contradiction

/-- The votes waiting for a reply name a supplied NFT and one of the three types. -/
def Countable (s : State) : Prop :=
  ∀ queryId v, s.pending.Binds queryId (.vote v) ∨ s.pending.Binds queryId (.eligibility v) →
    Diamond v.nftId ∧ ValidVote v.vote

theorem countable_step (countable : Countable self) (effect : Effect env self msg next actions) :
    Countable next := by
  intro queryId v bound
  rcases effect_requests effect with ⟨within,-⟩ | ⟨request,issue,added⟩
  · exact countable queryId v (bound.imp within.binds within.binds)
  rcases bound with bound | bound
  · rcases added.binds bound with before | ⟨-,rfl⟩
    · exact countable queryId v (.inl before)
    · cases issue with
      | vote stored votable diamond voteType resolver => exact ⟨diamond,voteType⟩
  · rcases added.binds bound with before | ⟨-,rfl⟩
    · exact countable queryId v (.inr before)
    · cases issue with
      | eligibility resolver fresh held verifier => exact countable _ v (.inl held)

end Steps

/-- The ballots of a state agree with the journal behind it. -/
structure Tallied (past : List Entry) (s : State) : Prop where
  countable : Countable s
  known : s.proposals.get proposalId = some p → proposalId ≤ s.proposalCount
  events : ValidVote voteType →
    s.votes proposalId voteType = castEvents past proposalId voteType
  voters : ((voters s.votesCast proposalId).card : Int) = s.votes proposalId voteFor +
    s.votes proposalId voteAgainst + s.votes proposalId voteAbstain
  recorded : past.countP (countsVote proposalId nftId) =
    if nftId ∈ ProposalRegistry.voters s.votesCast proposalId then 1 else 0
  outcome : s.proposals.get proposalId = some p → p.status = .active ∨ p.status = p.outcome

namespace Ballot
variable {env : Context} {self next : State}

theorem known (ballot : Ballot env self next msg actions)
    (known : ∀ id p, self.proposals.get id = some p → id ≤ self.proposalCount)
    (stored : next.proposals.get proposalId = some p) : proposalId ≤ next.proposalCount := by
  cases ballot with
  | idle proposals _ count => exact count ▸ known _ _ (proposals ▸ stored)
  | opened r proposals _ count =>
    rw [proposals] at stored
    rw [count]
    rcases FiniteMap.get_set_cases _ stored with before | ⟨rfl,-⟩
    · exact Int.le_add_one (known _ _ before)
    · exact le_rfl
  | counted _ v _ _ live _ _ proposals _ count
  | finalized id _ live _ proposals _ count =>
    rw [proposals] at stored
    rw [count]
    rcases FiniteMap.get_set_cases _ stored with before | ⟨rfl,-⟩
    · exact known _ _ before
    · exact known _ _ live

/-- Each counter grows by the events of its proposal and type. -/
theorem votes (ballot : Ballot env self next msg actions) (countable : Countable self)
    (known : ∀ id p, self.proposals.get id = some p → id ≤ self.proposalCount)
    (valid : ValidVote voteType) :
    next.votes proposalId voteType = self.votes proposalId voteType +
      actions.count (.emit (.voteCast proposalId voteType)) := by
  cases ballot with
  | idle proposals _ _ silent =>
    rw [List.count_eq_zero_of_not_mem (silent _ _)]
    simp [State.votes,proposals]
  | opened r proposals _ _ silent =>
    rw [List.count_eq_zero_of_not_mem (silent _ _),votes_set proposals]
    split
    next same =>
      have unknown : self.proposals.get proposalId = none := by
        by_contra bound
        obtain ⟨p,stored⟩ := Option.ne_none_iff_exists'.mp bound
        have late := known _ _ stored
        omega
      simp [State.votes,unknown,Proposal.votes,PendingProposal.opened]
    next => simp
  | counted queryId v p held stored votable uncounted proposals _ _ _ event =>
    rw [event,votes_set proposals,List.count_singleton]
    split
    next same =>
      subst same
      rw [record_votes p (countable queryId v (.inr held)).2 valid,votes_stored stored]
      by_cases cast : voteType = v.vote
      · simp [cast]
      · simp [cast,Ne.symm cast]
    next apart => simp [Ne.symm apart]
  | finalized id p stored active proposals _ _ silent =>
    rw [List.count_eq_zero_of_not_mem (silent _ _),votes_set proposals]
    split
    next same => subst same; simp [votes_stored stored,Proposal.votes]
    next => simp

/-- An NFT comes on record exactly with an event of its proposal. -/
theorem voters_card (ballot : Ballot env self next msg actions) (countable : Countable self) :
    (voters next.votesCast proposalId).card = (voters self.votesCast proposalId).card +
      (actions.count (.emit (.voteCast proposalId voteFor)) +
        actions.count (.emit (.voteCast proposalId voteAgainst)) +
        actions.count (.emit (.voteCast proposalId voteAbstain))) := by
  cases ballot with
  | idle _ votesCast _ silent | opened _ _ votesCast _ silent
  | finalized _ _ _ _ _ votesCast _ silent =>
    simp [votesCast,List.count_eq_zero_of_not_mem (silent _ _)]
  | counted queryId v p held stored votable uncounted _ votesCast _ _ event =>
    obtain ⟨diamond,cast⟩ := countable queryId v (.inr held)
    rw [votesCast,voters_set _ diamond,event]
    split
    next same =>
      subst same
      rw [Finset.card_insert_of_notMem (by simp [mem_voters,uncounted])]
      rcases cast with cast | cast | cast <;>
        simp [cast,voteFor,voteAgainst,voteAbstain]
    next apart => simp [Ne.symm apart]

/-- A vote of an NFT is counted when the NFT comes on record. -/
theorem recorded {d : Delivery Message} (ballot : Ballot env self next d.message actions)
    (countable : Countable self) :
    (if nftId ∈ voters next.votesCast proposalId then 1 else 0) =
      (if nftId ∈ voters self.votesCast proposalId then 1 else 0) +
        (countsVote proposalId nftId ⟨self,d,next,actions⟩).toNat := by
  have uncounted (silent : ∀ id voteType, .emit (.voteCast id voteType) ∉ actions) :
      countsVote proposalId nftId ⟨self,d,next,actions⟩ = false := by
    by_contra counts
    obtain ⟨voteType,emitted⟩ := countsVote_event (Bool.of_not_eq_false counts)
    exact silent _ _ emitted
  cases ballot with
  | idle _ votesCast _ silent | opened _ _ votesCast _ silent
  | finalized _ _ _ _ _ votesCast _ silent => simp [votesCast,uncounted silent]
  | counted queryId v p held stored votable fresh _ votesCast _ message event =>
    have diamond := (countable queryId v (.inr held)).1
    have absent : v.nftId ∉ voters self.votesCast v.proposalId := by simp [mem_voters,fresh]
    simp only [countsVote,message,event,votesCast,voters_set _ diamond]
    by_cases same : proposalId = v.proposalId
    · by_cases sameNft : nftId = v.nftId
      · simp [same,sameNft,absent]
      · simp [same,sameNft,Ne.symm sameNft]
    · simp [same,Ne.symm same]

theorem outcome (ballot : Ballot env self next msg actions)
    (before : ∀ id p, self.proposals.get id = some p → p.status = .active ∨ p.status = p.outcome)
    (stored : next.proposals.get proposalId = some p) :
    p.status = .active ∨ p.status = p.outcome := by
  cases ballot with
  | idle proposals => exact before _ _ (proposals ▸ stored)
  | opened r proposals =>
    rcases FiniteMap.get_set_cases _ (proposals ▸ stored) with earlier | ⟨-,rfl⟩
    · exact before _ _ earlier
    · exact .inl rfl
  | counted _ v q _ _ votable _ proposals =>
    rcases FiniteMap.get_set_cases _ (proposals ▸ stored) with earlier | ⟨-,rfl⟩
    · exact before _ _ earlier
    · exact .inl ((record_status q v.vote).trans (of_decide_eq_true votable).1)
  | finalized _ _ _ _ proposals =>
    rcases FiniteMap.get_set_cases _ (proposals ▸ stored) with earlier | ⟨-,rfl⟩
    · exact before _ _ earlier
    · exact .inr rfl

/-- A closed proposal keeps its record. -/
theorem final (ballot : Ballot env self next msg actions)
    (known : ∀ id p, self.proposals.get id = some p → id ≤ self.proposalCount)
    (stored : self.proposals.get proposalId = some p) (closed : p.status ≠ .active) :
    next.proposals.get proposalId = some p := by
  have apart {id : Int} {q : Proposal} (live : self.proposals.get id = some q)
      (active : q.status = .active) : proposalId ≠ id := by
    rintro rfl
    obtain rfl := Option.some.inj (stored.symm.trans live)
    exact closed active
  cases ballot with
  | idle proposals => exact proposals ▸ stored
  | opened r proposals =>
    have late := known _ _ stored
    rw [proposals,FiniteMap.get_set_other _ _ (by omega),stored]
  | counted _ v q _ live votable _ proposals =>
    rw [proposals,FiniteMap.get_set_other _ _ (apart live (of_decide_eq_true votable).1),stored]
  | finalized id q live active proposals =>
    rw [proposals,FiniteMap.get_set_other _ _ (apart live active),stored]

end Ballot

theorem tallied_step {d : Delivery Message} {s next : State} (tallied : Tallied past s)
    (effect : Effect d.context s d.message next actions) :
    Tallied (⟨s,d,next,actions⟩ :: past) next := by
  have ballot := effect_ballot effect
  have known (id p) (stored : s.proposals.get id = some p) := tallied.known stored
  have votes (proposalId voteType) (valid : ValidVote voteType) :
      next.votes proposalId voteType =
        castEvents (⟨s,d,next,actions⟩ :: past) proposalId voteType := by
    rw [ballot.votes tallied.countable known valid,tallied.events valid,castEvents_cons]
    push_cast
    ring
  refine ⟨countable_step tallied.countable effect,ballot.known known,votes _ _,?_,?_,
    ballot.outcome fun id p stored => tallied.outcome stored⟩
  · intro proposalId
    have before : ((voters s.votesCast proposalId).card : Int) = _ := tallied.voters
    rw [ballot.voters_card tallied.countable,
      ballot.votes tallied.countable known (.inl rfl),
      ballot.votes tallied.countable known (.inr (.inl rfl)),
      ballot.votes tallied.countable known (.inr (.inr rfl))]
    push_cast
    omega
  · intro proposalId nftId
    rw [ballot.recorded tallied.countable,← tallied.recorded,List.countP_cons]
    cases countsVote proposalId nftId ⟨s,d,next,actions⟩ <;> rfl

section Runs
variable {hash : Cell → Int} {contractAddress : Cell → Cell → Address}

theorem run_tallied (deployer : Address) (deliveries : List (Delivery Message)) :
    Tallied (journal hash contractAddress deployer deliveries)
      (run hash contractAddress deployer deliveries) := by
  refine run_invariant Tallied ?_ (fun _ _ _ _ _ => tallied_step) deliveries
  refine ⟨?_,?_,fun _ => rfl,?_,?_,?_⟩
  · rintro queryId v (bound | bound) <;> cases bound
  · intro proposalId p stored
    cases stored
  · intro proposalId
    simp [voters,State.votes,init]
  · intro proposalId nftId
    simp [mem_voters,init]
  · intro proposalId p stored
    cases stored

/-- A record that is closed at some moment is the same ever after. -/
theorem run_final (deployer : Address) (newer older : List (Delivery Message))
    (stored : (run hash contractAddress deployer older).proposals.get proposalId = some p)
    (closed : p.status ≠ .active) :
    (run hash contractAddress deployer (newer ++ older)).proposals.get proposalId = some p := by
  refine Journal.persists (fun s : State => s.proposals.get proposalId = some p) older ?_ stored newer
  intro past d next actions kept delivered
  have tallied : Tallied (journal hash contractAddress deployer past)
    (run hash contractAddress deployer past) := run_tallied deployer past
  have effect := receive_effect (deliver_received delivered)
  exact (effect_ballot effect).final (fun _ _ => tallied.known) kept closed

/-- The tally of every proposal, against the keys on record and against the history. -/
structure VoteTally (past : List Entry) (s : State) : Prop where
  total : s.proposals.get proposalId = some p →
    p.votesFor + p.votesAgainst + p.votesAbstain = (voters s.votesCast proposalId).card
  events : s.proposals.get proposalId = some p →
    p.votesFor = castEvents past proposalId voteFor ∧
      p.votesAgainst = castEvents past proposalId voteAgainst ∧
        p.votesAbstain = castEvents past proposalId voteAbstain
  once : past.countP (countsVote proposalId nftId) =
    if nftId ∈ voters s.votesCast proposalId then 1 else 0
  window : entry ∈ past → .emit (.voteCast proposalId voteType) ∈ entry.output →
    ∃ p, entry.before.proposals.get proposalId = some p ∧ p.status = .active ∧
      p.votingStart ≤ entry.input.context.now ∧ entry.input.context.now ≤ p.votingEnd
  outcome : s.proposals.get proposalId = some p → p.status ≠ .active →
    p.status =
      if p.votesFor + p.votesAgainst + p.votesAbstain < p.quorumThreshold then .noQuorum
      else if p.votesFor > p.votesAgainst then .accepted else .rejected

/-- In every run the counters of a proposal are the NFTs on record and the events of their
votes, each vote falls into its window, and a closed proposal keeps its record. -/
theorem vote_tally (hash : Cell → Int) (contractAddress : Cell → Cell → Address)
    (deployer : Address) (deliveries : List (Delivery Message)) :
    VoteTally (journal hash contractAddress deployer deliveries)
        (run hash contractAddress deployer deliveries) ∧
      ∀ earlier, earlier <:+ deliveries → ∀ proposalId p,
        (run hash contractAddress deployer earlier).proposals.get proposalId = some p →
        p.status ≠ .active →
        (run hash contractAddress deployer deliveries).proposals.get proposalId = some p := by
  have tallied : Tallied (journal hash contractAddress deployer deliveries)
    (run hash contractAddress deployer deliveries) := run_tallied deployer deliveries
  refine ⟨⟨?_,?_,tallied.recorded,?_,?_⟩,?_⟩
  · intro proposalId p stored
    have counted : ((voters _ proposalId).card : Int) = _ := tallied.voters
    rw [counted,votes_stored stored,votes_stored stored,votes_stored stored]
    rfl
  · intro proposalId p stored
    refine ⟨?_,?_,?_⟩
    · exact (votes_stored stored).symm.trans (tallied.events (.inl rfl))
    · exact (votes_stored stored).symm.trans (tallied.events (.inr (.inl rfl)))
    · exact (votes_stored stored).symm.trans (tallied.events (.inr (.inr rfl)))
  · intro entry proposalId voteType member emitted
    obtain ⟨p,stored,votable⟩ := effect_voteCast (entry_effect member) emitted
    exact ⟨p,stored,of_decide_eq_true votable⟩
  · intro proposalId p stored closed
    have outcome := (tallied.outcome stored).resolve_left closed
    rw [outcome,Proposal.outcome]
    split
    next met => rw [if_neg (not_lt.mpr met)]
    next unmet => rw [if_pos (not_le.mp unmet)]
  · rintro earlier ⟨newer,rfl⟩ proposalId p stored closed
    exact run_final deployer newer earlier stored closed

end Runs

section Participants

def firstGovernor : Address := newAddress 0 1
def secondGovernor : Address := newAddress 0 2
def resolver : Address := newAddress 0 3
def verifier : Address := newAddress 0 4
def holder : Address := newAddress 0 5

/-- The two peers share their code and differ in their initial data. -/
def peerAddress : Cell → Cell → Address
  | _,.ordinary [] _ => resolver
  | _,_ => verifier

def sentAt (now : Nat) (sender : Address) (message : Message) : Delivery Message :=
  ⟨⟨sender,100,now⟩,message,true⟩

def peerCode : Cell := .ordinary [true] []

/-- The governors install the resolver and, a week later, the verifier. -/
def installation : List (Delivery Message) :=
  [sentAt 1300000 firstGovernor
      (.executeConfigChange configKindVerifier verifier peerCode (.ordinary [true] [])),
    sentAt 650002 secondGovernor (.approveConfigChange configKindVerifier verifier),
    sentAt 650001 firstGovernor (.proposeConfigChange configKindVerifier verifier 3),
    sentAt 650000 firstGovernor
      (.executeConfigChange configKindResolver resolver peerCode (.ordinary [] [])),
    sentAt 3 secondGovernor (.approveConfigChange configKindResolver resolver),
    sentAt 2 firstGovernor (.proposeConfigChange configKindResolver resolver 3),
    sentAt 1 firstGovernor (.configureGovernance
      (((∅ : FiniteMap Int Address).set 0 firstGovernor).set 1 secondGovernor) 2 2)]

/-- One vote from submission to the verifier's reply, and the closing of the proposal. -/
def voting : List (Delivery Message) :=
  [sentAt 1310000 holder (.finalizeProposal 1),
    sentAt 1300006 verifier (.eligibilityCheckResponse 2 1 7 true),
    sentAt 1300005 verifier (.eligibilityCheckResponse 2 1 7 true),
    sentAt 1300004 resolver (.ownershipResolved 1 7 holder),
    sentAt 1300003 holder (.castVote 1 7 voteFor),
    sentAt 1300002 resolver (.ownershipResolved 0 7 holder),
    sentAt 1300001 holder (.submitProposal 99 7 0 3600 0)] ++ installation

end Participants

/-- The vote of NFT 7 is counted once, and one vote is no quorum. -/
example : ((run packedHash peerAddress firstGovernor voting).proposals.get 1).map
    (fun p => (p.votesFor,p.status)) = some (1,.noQuorum) := by decide +kernel

end Tonbankcard.ProposalRegistry
