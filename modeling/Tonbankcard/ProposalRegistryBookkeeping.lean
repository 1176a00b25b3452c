import Tonbankcard.ProposalRegistryRequests

/-! The books of the requests in flight. Each open query is held in one of the three maps
and counted against its claimant; whatever closes a query clears it from all of them. -/
namespace Tonbankcard.ProposalRegistry

open Ton

namespace Pending

/-- Binds a query to its request, in the map of its kind. -/
def bind (qid : Int) (self : Pending) : Request → Pending
  | .vote v => {self with votes := self.votes.set qid v}
  | .proposal r => {self with proposals := self.proposals.set qid r}
  | .eligibility v => {self with eligibilityVotes := self.eligibilityVotes.set qid v}

/-- Releases a query and takes it out of the map of its kind. -/
def close (qid : Int) (self : Pending) : Request → Pending
  | .vote _ => (self.releasePending qid).delVote qid
  | .proposal _ => (self.releasePending qid).delProposal qid
  | .eligibility _ => (self.releasePending qid).delEligibilityVote qid

end Pending

def Request.claimant : Request → Address
  | .vote v | .eligibility v => v.claimant
  | .proposal r => r.claimant

/-- What a delivered message does to the requests in flight and to the query counter. -/
inductive Bookkeeping (env : Context) (self next : State) : Prop where
  | kept (pending : next.pending = self.pending) (counter : next.nextQueryId = self.nextQueryId)
  | cleared (pending : next.pending = self.pending.clearPending queryId)
      (counter : next.nextQueryId = self.nextQueryId)
  | closed (held : self.pending.Binds queryId request)
      (pending : next.pending = self.pending.close queryId request)
      (counter : next.nextQueryId = self.nextQueryId)
  | reserved (request : Request)
      (reserved : self.pending.reservePending env self.nextQueryId request.claimant = .ok pending)
      (pending : next.pending = pending.bind self.nextQueryId request)
      (counter : next.nextQueryId = self.nextQueryId + 1)
  | followedUp (held : self.pending.Binds queryId (.vote v))
      (reserved : (self.pending.close queryId (.vote v)).reservePending env self.nextQueryId
        v.claimant = .ok pending)
      (pending : next.pending = pending.bind self.nextQueryId (.eligibility v))
      (counter : next.nextQueryId = self.nextQueryId + 1)

section Inversion
variable {hash : Cell → Int} {contractAddress : Cell → Cell → Address} {env : Context}
variable {self next : State}

theorem ownershipResolved_bookkeeping
    (accepted : receiveOwnershipResolved env queryId nftId owner self = .ok (next,actions)) :
    Bookkeeping env self next := by
  simp only [receiveOwnershipResolved,require_bind_ok] at accepted
  obtain ⟨-,-,accepted⟩ := accepted
  split at accepted
  · cases accepted
    exact .cleared rfl rfl
  split at accepted
  · rename_i v held
    have closed : Bookkeeping env self
        {self with pending := (self.pending.releasePending queryId).delVote queryId} :=
      .closed (show self.pending.Binds queryId (.vote v) from held) rfl rfl
    simp only [requestVoteEligibility] at accepted
    split at accepted
    · cases accepted
      exact closed
    split at accepted
    · cases accepted
      exact closed
    split at accepted
    · cases accepted
      exact closed
    split at accepted
    · cases accepted
      exact closed
    simp only [bind_ok,pure_ok,Prod.mk.injEq] at accepted
    obtain ⟨-,-,pending,reserved,-,-,rfl,rfl⟩ := accepted
    exact .followedUp held reserved rfl rfl
  split at accepted
  · rename_i r held
    simp only [finalizeProposal] at accepted
    split at accepted
    · cases accepted
      exact .closed (show self.pending.Binds queryId (.proposal r) from held) rfl rfl
    simp only [unit_bind_ok,pure_ok,Prod.mk.injEq] at accepted
    obtain ⟨-,rfl,rfl⟩ := accepted
    exact .closed (show self.pending.Binds queryId (.proposal r) from held) rfl rfl
  · cases accepted
    exact .kept rfl rfl

theorem eligibilityCheckResponse_bookkeeping
    (accepted : receiveEligibilityCheckResponse env queryId proposalId nftId eligible self =
      .ok (next,actions)) : Bookkeeping env self next := by
  simp only [receiveEligibilityCheckResponse,require_bind_ok] at accepted
  obtain ⟨-,-,accepted⟩ := accepted
  split at accepted
  · cases accepted
    exact .cleared rfl rfl
  split at accepted
  · cases accepted
    exact .kept rfl rfl
  rename_i v held
  have closed : Bookkeeping env self
      {self with pending := (self.pending.releasePending queryId).delEligibilityVote queryId} :=
    .closed (show self.pending.Binds queryId (.eligibility v) from held) rfl rfl
  split at accepted
  · cases accepted
    exact closed
  simp only [recordEligibleVote] at accepted
  split at accepted
  · cases accepted
    exact closed
  split at accepted
  · cases accepted
    exact closed
  split at accepted
  · cases accepted
    exact closed
  simp only [unit_bind_ok,pure_ok,Prod.mk.injEq] at accepted
  obtain ⟨-,rfl,rfl⟩ := accepted
  exact .closed (show self.pending.Binds queryId (.eligibility v) from held) rfl rfl

theorem castVote_bookkeeping
    (accepted : receiveCastVote env proposalId voterNftId vote self = .ok (next,actions)) :
    Bookkeeping env self next := by
  unfold receiveCastVote at accepted
  split at accepted
  · contradiction
  simp only [require_bind_ok] at accepted
  obtain ⟨-,-,-,-,-,-,accepted⟩ := accepted
  simp only [bind_ok,pure_ok,Prod.mk.injEq] at accepted
  obtain ⟨-,-,-,-,pending,reserved,-,-,rfl,rfl⟩ := accepted
  exact .reserved (.vote ⟨proposalId,voterNftId,vote,env.sender⟩) reserved rfl rfl

theorem submitProposal_bookkeeping
    (accepted : receiveSubmitProposal env metadataHash authorNftId category votingDuration
      quorumThreshold self = .ok (next,actions)) : Bookkeeping env self next := by
  simp only [receiveSubmitProposal,require_bind_ok] at accepted
  obtain ⟨-,-,-,-,-,accepted⟩ := accepted
  simp only [bind_ok,pure_ok,Prod.mk.injEq] at accepted
  obtain ⟨-,-,pending,reserved,-,-,rfl,rfl⟩ := accepted
  exact .reserved (.proposal ⟨metadataHash,authorNftId,category,
    resolvedVotingDuration votingDuration,resolvedQuorum quorumThreshold,env.sender⟩)
    reserved rfl rfl

theorem receive_bookkeeping
    (accepted : receive hash contractAddress env msg self = .ok (next,actions)) :
    Bookkeeping env self next := by
  simp only [receive,bind_ok,pure_ok] at accepted
  obtain ⟨result,accepted,-,-,rfl⟩ := accepted
  cases msg with
  | configureGovernance signers signerCount threshold =>
    simp only [handle,receiveConfigureGovernance,require_bind_ok] at accepted
    obtain ⟨-,-,-,-,-,-,installed⟩ := accepted
    simp only [bind_ok,pure_ok,Prod.mk.injEq] at installed
    obtain ⟨_,-,rfl,rfl⟩ := installed
    exact .kept rfl rfl
  | proposeConfigChange kind target codeHash =>
    simp only [handle,receiveProposeConfigChange,unit_bind_ok,pure_ok,Prod.mk.injEq] at accepted
    obtain ⟨-,-,-,-,rfl,rfl⟩ := accepted
    exact .kept rfl rfl
  | approveConfigChange kind target =>
    simp only [handle,receiveApproveConfigChange,unit_bind_ok,pure_ok,Prod.mk.injEq] at accepted
    obtain ⟨-,-,rfl,rfl⟩ := accepted
    exact .kept rfl rfl
  | executeConfigChange kind target code data =>
    simp only [handle,receiveExecuteConfigChange,unit_bind_ok] at accepted
    obtain ⟨-,-,-,-,-,applied⟩ := accepted
    split at applied
    all_goals
      simp only [pure_ok,Prod.mk.injEq] at applied
      obtain ⟨rfl,rfl⟩ := applied
      exact .kept rfl rfl
  | cancelConfigChange kind target =>
    simp only [handle,receiveCancelConfigChange,unit_bind_ok,pure_ok,Prod.mk.injEq] at accepted
    obtain ⟨-,rfl,rfl⟩ := accepted
    exact .kept rfl rfl
  | cleanupPending queryId =>
    simp only [handle,receiveCleanupPending,require_bind_ok,pure_ok,Prod.mk.injEq] at accepted
    obtain ⟨-,rfl,rfl⟩ := accepted
    exact .cleared rfl rfl
  | bouncedResolveOwnership queryId =>
    simp only [handle,pure_ok,Prod.mk.injEq] at accepted
    obtain ⟨rfl,rfl⟩ := accepted
    exact .cleared rfl rfl
  | bouncedEligibilityCheckRequest queryId proposalId nftId =>
    simp only [handle,pure_ok,Prod.mk.injEq] at accepted
    obtain ⟨rfl,rfl⟩ := accepted
    exact .cleared rfl rfl
  | submitProposal metadataHash authorNftId category votingDuration quorumThreshold =>
    exact submitProposal_bookkeeping accepted
  | castVote proposalId voterNftId vote => exact castVote_bookkeeping accepted
  | ownershipResolved queryId nftId owner => exact ownershipResolved_bookkeeping accepted
  | eligibilityCheckResponse queryId proposalId nftId eligible =>
    exact eligibilityCheckResponse_bookkeeping accepted
  | finalizeProposal proposalId =>
    simp only [handle,receiveFinalizeProposal] at accepted
    split at accepted
    · contradiction
    simp only [unit_bind_ok,pure_ok,Prod.mk.injEq] at accepted
    obtain ⟨-,-,-,rfl,rfl⟩ := accepted
    exact .kept rfl rfl

end Inversion

namespace Pending

/-- The books balance: every open query is held in exactly one map, has an expiry, and is
counted against its claimant. -/
structure Booked (pending : Pending) (nextQueryId : Int) : Prop where
  expiry : pending.expiry.keys = pending.claimants.keys
  votesProposals : Disjoint pending.votes.keys pending.proposals.keys
  votesEligibility : Disjoint pending.votes.keys pending.eligibilityVotes.keys
  proposalsEligibility : Disjoint pending.proposals.keys pending.eligibilityVotes.keys
  union : pending.votes.keys ∪ pending.proposals.keys ∪ pending.eligibilityVotes.keys =
    pending.claimants.keys
  claimant : pending.Binds qid request → pending.claimants.get qid = some request.claimant
  owed : pending.claimantPending.amount holder = (pending.claimants.holding holder).card
  limit : pending.claimantPending.get holder = some queries →
    1 ≤ queries ∧ queries ≤ maxPendingPerClaimant
  total : pending.claimantPending.total = pending.count
  count : pending.count = pending.claimants.keys.card
  capacity : pending.count ≤ maxPendingTotal
  issued : qid ∈ pending.claimants.keys → qid < nextQueryId

variable {self : Pending}

theorem Booked.unclaimed (booked : self.Booked nextQueryId) (absent : qid ∉ self.claimants.keys) :
    qid ∉ self.votes.keys ∧ qid ∉ self.proposals.keys ∧ qid ∉ self.eligibilityVotes.keys ∧
      qid ∉ self.expiry.keys := by
  rw [booked.expiry]
  rw [← booked.union] at absent ⊢
  simp only [Finset.mem_union,not_or] at absent ⊢
  exact ⟨absent.1.1,absent.1.2,absent.2,absent⟩

/-- An open query counts at least once against its claimant. -/
theorem Booked.owing (booked : self.Booked nextQueryId)
    (claimed : self.claimants.get qid = some holder) :
    ∃ queries, self.claimantPending.get holder = some queries ∧ 1 ≤ queries := by
  have member : qid ∈ self.claimants.holding holder := (FiniteMap.mem_holding _).mpr claimed
  have positive := Finset.card_pos.mpr ⟨qid,member⟩
  have owed : self.claimantPending.amount holder = (self.claimants.holding holder).card :=
    booked.owed
  cases stored : self.claimantPending.get holder with
  | none => simp only [FiniteMap.amount,stored,Option.getD_none] at owed; omega
  | some queries => exact ⟨queries,rfl,(booked.limit stored).1⟩

/-- One query less for a claimant, whose entry goes when it reaches zero. -/
def uncount (claimantPending : FiniteMap Address Int) (holder : Address) (queries : Int) :
    FiniteMap Address Int :=
  if queries ≤ 1 then claimantPending.del holder else claimantPending.set holder (queries - 1)

theorem releasePending_claimed (claimed : self.claimants.get qid = some holder)
    (stored : self.claimantPending.get holder = some queries) :
    self.releasePending qid = {self with
      claimantPending := uncount self.claimantPending holder queries
      count := self.count - 1
      claimants := self.claimants.del qid
      expiry := self.expiry.del qid} := by
  simp only [releasePending,claimed,stored,Option.getD_some,uncount]

section Uncount
variable {claimantPending : FiniteMap Address Int}

theorem uncount_amount (stored : claimantPending.get holder = some queries)
    (positive : 1 ≤ queries) (other : Address) :
    (uncount claimantPending holder queries).amount other +
      (if other = holder then 1 else 0) = claimantPending.amount other := by
  have held : claimantPending.amount holder = queries := by simp [FiniteMap.amount,stored]
  unfold uncount
  split
  next last =>
    simp only [FiniteMap.amount,FiniteMap.get_del] at held ⊢
    split
    next same => subst same; simp only [Option.getD_none]; omega
    next => simp
  next more =>
    rw [FiniteMap.amount_set]
    split
    next same => subst same; omega
    next => simp

theorem uncount_total (stored : claimantPending.get holder = some queries)
    (positive : 1 ≤ queries) :
    (uncount claimantPending holder queries).total = claimantPending.total - 1 := by
  have held : claimantPending.amount holder = queries := by simp [FiniteMap.amount,stored]
  unfold uncount
  split
  next last => rw [FiniteMap.total_del]; omega
  next more => rw [FiniteMap.total_set]; omega

theorem uncount_limit (limit : ∀ other kept, claimantPending.get other = some kept →
      1 ≤ kept ∧ kept ≤ maxPendingPerClaimant)
    (stored : claimantPending.get holder = some queries)
    (kept : (uncount claimantPending holder queries).get other = some left) :
    1 ≤ left ∧ left ≤ maxPendingPerClaimant := by
  unfold uncount at kept
  split at kept
  next last => exact limit other left (FiniteMap.del_within _ _ _ _ kept)
  next more =>
    rcases FiniteMap.get_set_cases _ kept with before | ⟨-,rfl⟩
    · exact limit other left before
    · have bounds := limit holder queries stored
      omega

end Uncount

theorem clearPending_unclaimed (booked : self.Booked nextQueryId)
    (absent : qid ∉ self.claimants.keys) : self.clearPending qid = self := by
  obtain ⟨votes,proposals,eligibilityVotes,-⟩ := booked.unclaimed absent
  have unreleased : self.releasePending qid = self := by
    simp only [releasePending,(FiniteMap.get_eq_none_iff _ _).mpr absent]
  simp only [clearPending,unreleased,delVote,delProposal,delEligibilityVote,
    FiniteMap.del_absent _ votes,FiniteMap.del_absent _ proposals,
    FiniteMap.del_absent _ eligibilityVotes]

/-- Closing a query by its kind clears it altogether: no other map holds it. -/
theorem close_eq_clear (booked : self.Booked nextQueryId) (held : self.Binds qid request) :
    self.close qid request = self.clearPending qid := by
  have released (qid : Int) : (self.releasePending qid).votes = self.votes ∧
      (self.releasePending qid).proposals = self.proposals ∧
      (self.releasePending qid).eligibilityVotes = self.eligibilityVotes := by
    unfold releasePending
    split <;> exact ⟨rfl,rfl,rfl⟩
  obtain ⟨votes,proposals,eligibilityVotes⟩ := released qid
  cases request with
  | vote v =>
    have member : qid ∈ self.votes.keys := FiniteMap.mem_keys_of_get held
    have noProposal := Finset.disjoint_left.mp booked.votesProposals member
    have noEligibility := Finset.disjoint_left.mp booked.votesEligibility member
    simp only [close,clearPending,delVote,delProposal,delEligibilityVote,proposals,
      eligibilityVotes,FiniteMap.del_absent _ noProposal,FiniteMap.del_absent _ noEligibility]
  | proposal r =>
    have member : qid ∈ self.proposals.keys := FiniteMap.mem_keys_of_get held
    have noVote := Finset.disjoint_right.mp booked.votesProposals member
    have noEligibility := Finset.disjoint_left.mp booked.proposalsEligibility member
    simp only [close,clearPending,delVote,delProposal,delEligibilityVote,votes,
      eligibilityVotes,FiniteMap.del_absent _ noVote,FiniteMap.del_absent _ noEligibility]
  | eligibility v =>
    have member : qid ∈ self.eligibilityVotes.keys := FiniteMap.mem_keys_of_get held
    have noVote := Finset.disjoint_right.mp booked.votesEligibility member
    have noProposal := Finset.disjoint_right.mp booked.proposalsEligibility member
    simp only [close,clearPending,delVote,delProposal,delEligibilityVote,votes,
      proposals,FiniteMap.del_absent _ noVote,FiniteMap.del_absent _ noProposal]

theorem clearPending_binds (bound : (self.clearPending qid).Binds other request) :
    other ≠ qid ∧ self.Binds other request := by
  refine ⟨?_,(self.clearPending_within qid).binds bound⟩
  rintro rfl
  cases request <;>
    simp [Binds,clearPending,delVote,delProposal,delEligibilityVote] at bound

/-- Clearing a query keeps the books balanced, whether it was open or not. -/
theorem clear_booked (booked : self.Booked nextQueryId) (qid : Int) :
    (self.clearPending qid).Booked nextQueryId := by
  by_cases open_ : qid ∈ self.claimants.keys
  swap
  · rwa [clearPending_unclaimed booked open_]
  obtain ⟨holder,claimed⟩ :=
    Option.ne_none_iff_exists'.mp ((FiniteMap.mem_keys_iff _ _).mp open_)
  obtain ⟨queries,stored,positive⟩ := booked.owing claimed
  have bound (other : Int) (request : Request)
      (bound : (self.clearPending qid).Binds other request) := clearPending_binds bound
  simp only [clearPending,releasePending_claimed claimed stored,delVote,delProposal,
    delEligibilityVote] at bound ⊢
  refine ⟨?_,?_,?_,?_,?_,?_,?_,uncount_limit (fun _ _ => booked.limit) stored,?_,?_,?_,?_⟩
  · simp only [FiniteMap.keys_del,booked.expiry]
  · simp only [FiniteMap.keys_del]
    exact booked.votesProposals.mono (Finset.erase_subset _ _) (Finset.erase_subset _ _)
  · simp only [FiniteMap.keys_del]
    exact booked.votesEligibility.mono (Finset.erase_subset _ _) (Finset.erase_subset _ _)
  · simp only [FiniteMap.keys_del]
    exact booked.proposalsEligibility.mono (Finset.erase_subset _ _) (Finset.erase_subset _ _)
  · simp only [FiniteMap.keys_del,← booked.union,Finset.erase_union_distrib]
  · intro other request held
    obtain ⟨different,before⟩ := bound other request held
    exact (FiniteMap.get_del_other _ different).trans (booked.claimant before)
  · intro other
    have amount := uncount_amount stored positive other
    have owed : self.claimantPending.amount other = (self.claimants.holding other).card :=
      booked.owed
    have fewer := FiniteMap.card_holding_del _ claimed other
    dsimp only
    split at amount <;> split at fewer <;> first | contradiction | omega
  · rw [uncount_total stored positive,booked.total]
  · have fewer := Finset.card_erase_add_one open_
    have count := booked.count
    dsimp only
    rw [FiniteMap.keys_del]
    omega
  · exact (Int.sub_le_self _ Int.one_nonneg).trans booked.capacity
  · intro other member
    rw [FiniteMap.keys_del] at member
    exact booked.issued (Finset.mem_of_mem_erase member)

/-- A reservation succeeds below both limits and counts the query against its claimant. -/
theorem reservePending_iff {env : Context} {next : Pending} :
    self.reservePending env qid holder = .ok next ↔
      self.count < maxPendingTotal ∧
        self.claimantPending.amount holder < maxPendingPerClaimant ∧
        next = {self with
          count := self.count + 1
          claimantPending :=
            self.claimantPending.set holder (self.claimantPending.amount holder + 1)
          expiry := self.expiry.set qid (env.now + pendingTtl)
          claimants := self.claimants.set qid holder} := by
  simp only [reservePending,require_bind_ok,pure_ok,FiniteMap.amount]
  exact and_congr_right fun _ => and_congr_right fun _ => eq_comm

theorem bind_binds (bound : (self.bind qid request).Binds other found) :
    self.Binds other found ∨ other = qid ∧ found = request := by
  cases request <;> cases found
  all_goals simp only [bind,Binds] at bound ⊢
  all_goals first
    | exact .inl bound
    | exact (FiniteMap.get_set_cases _ bound).imp_right (And.imp_right (congrArg _))

@[simp] theorem bind_expiry : (self.bind qid request).expiry = self.expiry := by
  cases request <;> rfl

@[simp] theorem bind_claimants : (self.bind qid request).claimants = self.claimants := by
  cases request <;> rfl

@[simp] theorem bind_claimantPending :
    (self.bind qid request).claimantPending = self.claimantPending := by cases request <;> rfl

@[simp] theorem bind_count : (self.bind qid request).count = self.count := by
  cases request <;> rfl

/-- A query that no map holds yet goes into exactly one of them. -/
theorem bind_keys (self : Pending) (request : Request) {keys : Finset Int}
    (votes : qid ∉ self.votes.keys)
    (proposals : qid ∉ self.proposals.keys) (eligibilityVotes : qid ∉ self.eligibilityVotes.keys)
    (votesProposals : Disjoint self.votes.keys self.proposals.keys)
    (votesEligibility : Disjoint self.votes.keys self.eligibilityVotes.keys)
    (proposalsEligibility : Disjoint self.proposals.keys self.eligibilityVotes.keys)
    (union : self.votes.keys ∪ self.proposals.keys ∪ self.eligibilityVotes.keys = keys) :
    let bound := self.bind qid request
    Disjoint bound.votes.keys bound.proposals.keys ∧
      Disjoint bound.votes.keys bound.eligibilityVotes.keys ∧
      Disjoint bound.proposals.keys bound.eligibilityVotes.keys ∧
      bound.votes.keys ∪ bound.proposals.keys ∪ bound.eligibilityVotes.keys =
        insert qid keys := by
  subst union
  cases request <;>
    simp only [bind,FiniteMap.keys_set,Finset.disjoint_insert_left,Finset.disjoint_insert_right,
      votes,proposals,eligibilityVotes,votesProposals,votesEligibility,proposalsEligibility,
      Finset.insert_union,Finset.union_insert,not_false_eq_true,true_and]

/-- Opening the next query keeps the books balanced. -/
theorem reserve_booked {env : Context} {next : Pending} {request : Request}
    (booked : self.Booked nextQueryId)
    (reserved : self.reservePending env nextQueryId request.claimant = .ok next) :
    (next.bind nextQueryId request).Booked (nextQueryId + 1) := by
  obtain ⟨room,below,rfl⟩ := reservePending_iff.mp reserved
  have fresh : nextQueryId ∉ self.claimants.keys := fun taken =>
    absurd (booked.issued taken) (lt_irrefl _)
  obtain ⟨votes,proposals,eligibilityVotes,-⟩ := booked.unclaimed fresh
  have owed : self.claimantPending.amount request.claimant =
      (self.claimants.holding request.claimant).card := booked.owed
  obtain ⟨votesProposals,votesEligibility,proposalsEligibility,union⟩ :=
    bind_keys {self with
        count := self.count + 1
        claimantPending := self.claimantPending.set request.claimant
          (self.claimantPending.amount request.claimant + 1)
        expiry := self.expiry.set nextQueryId (env.now + pendingTtl)
        claimants := self.claimants.set nextQueryId request.claimant}
      request votes proposals eligibilityVotes booked.votesProposals booked.votesEligibility
      booked.proposalsEligibility booked.union
  refine ⟨?_,votesProposals,votesEligibility,proposalsEligibility,?_,?_,?_,?_,?_,?_,?_,?_⟩
  · simp only [bind_expiry,bind_claimants,FiniteMap.keys_set,booked.expiry]
  · rw [union,bind_claimants,FiniteMap.keys_set]
  · intro other found bound
    rw [bind_claimants,FiniteMap.get_set]
    rcases bind_binds bound with before | ⟨rfl,rfl⟩
    · have claimed : self.claimants.get other = some found.claimant :=
        booked.claimant (by cases found <;> exact before)
      rw [if_neg (ne_of_mem_of_not_mem (FiniteMap.mem_keys_of_get claimed) fresh),claimed]
    · rw [if_pos rfl]
  · intro other
    rw [bind_claimantPending,bind_claimants,FiniteMap.amount_set,
      FiniteMap.card_holding_set _ fresh]
    have before : self.claimantPending.amount other = (self.claimants.holding other).card :=
      booked.owed
    split
    next same => subst same; omega
    next => omega
  · intro other queries stored
    rw [bind_claimantPending] at stored
    rcases FiniteMap.get_set_cases _ stored with before | ⟨-,rfl⟩
    · exact booked.limit before
    · omega
  · rw [bind_claimantPending,bind_count,FiniteMap.total_set]
    have total := booked.total
    dsimp only
    omega
  · rw [bind_count,bind_claimants,FiniteMap.keys_set,Finset.card_insert_of_notMem fresh]
    have count := booked.count
    dsimp only
    omega
  · rw [bind_count]
    exact room
  · intro other member
    rw [bind_claimants,FiniteMap.keys_set,Finset.mem_insert] at member
    rcases member with rfl | before
    · exact Int.lt_succ _
    · exact Int.lt_add_one_of_le (booked.issued before).le

/-- Closing a vote's query makes room for the query that follows it up. -/
theorem followUp_reserves (booked : self.Booked nextQueryId) (held : self.Binds qid (.vote v))
    (env : Context) (next : Int) : ∃ pending,
      (self.close qid (.vote v)).reservePending env next v.claimant = .ok pending := by
  rw [close_eq_clear booked held]
  have claimed : self.claimants.get qid = some v.claimant := booked.claimant held
  obtain ⟨queries,stored,positive⟩ := booked.owing claimed
  have fewer := uncount_amount stored positive v.claimant
  have held : self.claimantPending.amount v.claimant = queries := by
    simp [FiniteMap.amount,stored]
  have limit := (booked.limit stored).2
  have capacity := booked.capacity
  refine ⟨_,reservePending_iff.mpr ⟨?_,?_,rfl⟩⟩
  all_goals
    simp only [clearPending,releasePending_claimed claimed stored,delVote,delProposal,
      delEligibilityVote]
  · omega
  · rw [if_pos rfl] at fewer
    omega

end Pending

section Runs
variable {s next : State}

theorem bookkeeping_booked (booked : s.pending.Booked s.nextQueryId)
    (step : Bookkeeping env s next) : next.pending.Booked next.nextQueryId := by
  cases step with
  | kept pending counter => rwa [pending,counter]
  | cleared pending counter =>
    rw [pending,counter]
    exact Pending.clear_booked booked _
  | closed held pending counter =>
    rw [pending,counter,Pending.close_eq_clear booked held]
    exact Pending.clear_booked booked _
  | reserved request reserved pending counter =>
    rw [pending,counter]
    exact Pending.reserve_booked booked reserved
  | @followedUp queryId v bound held reserved pending counter =>
    rw [pending,counter]
    rw [Pending.close_eq_clear booked held] at reserved
    have eligible : (s.pending.clearPending queryId).reservePending env s.nextQueryId
        (Request.eligibility v).claimant = .ok bound := reserved
    exact Pending.reserve_booked (Pending.clear_booked booked queryId) eligible

theorem init_booked (deployer : Address) :
    (init deployer).pending.Booked (init deployer).nextQueryId := by
  refine ⟨rfl,?_,?_,?_,rfl,?_,?_,?_,rfl,rfl,?_,?_⟩
  · exact Finset.disjoint_empty_left _
  · exact Finset.disjoint_empty_left _
  · exact Finset.disjoint_empty_left _
  · rintro qid (v | r | v) bound <;> cases bound
  · intro holder
    rfl
  · intro holder count stored
    cases stored
  · exact Int.natCast_nonneg 64
  · intro qid member
    cases Finset.notMem_empty _ member

theorem run_booked (hash : Cell → Int) (contractAddress : Cell → Cell → Address)
    (deployer : Address) (deliveries : List (Delivery Message)) :
    (run hash contractAddress deployer deliveries).pending.Booked
      (run hash contractAddress deployer deliveries).nextQueryId :=
  Journal.state_invariant (fun s => s.pending.Booked s.nextQueryId) (init_booked deployer)
    (fun _ _ _ _ booked delivered =>
      bookkeeping_booked booked (receive_bookkeeping (deliver_received delivered))) deliveries

/-- What the books of a state promise to the claimants and to the registry. -/
structure PendingBooks (s : State) : Prop where
  count : s.pending.count = s.pending.claimants.keys.card
  expiries : s.pending.count = s.pending.expiry.keys.card
  total : s.pending.count = s.pending.claimantPending.total
  capacity : 0 ≤ s.pending.count ∧ s.pending.count ≤ maxPendingTotal
  claimants : s.pending.claimantPending.get claimant = some queries →
    1 ≤ queries ∧ queries ≤ maxPendingPerClaimant ∧
      queries = (s.pending.claimants.holding claimant).card
  open_ : s.pending.claimantPending.get claimant = none →
    s.pending.claimants.holding claimant = ∅
  requests : s.pending.Binds queryId request →
    s.pending.claimants.get queryId = some request.claimant
  votesProposals : Disjoint s.pending.votes.keys s.pending.proposals.keys
  votesEligibility : Disjoint s.pending.votes.keys s.pending.eligibilityVotes.keys
  proposalsEligibility : Disjoint s.pending.proposals.keys s.pending.eligibilityVotes.keys
  union : s.pending.votes.keys ∪ s.pending.proposals.keys ∪ s.pending.eligibilityVotes.keys =
    s.pending.claimants.keys
  issued : queryId ∈ s.pending.claimants.keys ∪ s.pending.expiry.keys →
    queryId < s.nextQueryId
  nested {env : Context} : s.pending.votes.get queryId = some v → ∃ pending,
    ((s.pending.releasePending queryId).delVote queryId).reservePending env s.nextQueryId
      v.claimant = .ok pending
  callback : receiveOwnershipResolved env queryId nftId owner s = .error (.require text) →
    text ≠ "Pending capacity reached" ∧ text ≠ "Claimant pending limit reached"

/-- An answered ownership query never runs into the limits on requests in flight. -/
theorem ownershipResolved_room (booked : s.pending.Booked s.nextQueryId)
    (failed : receiveOwnershipResolved env queryId nftId owner s = .error (.require text)) :
    text ≠ "Pending capacity reached" ∧ text ≠ "Claimant pending limit reached" := by
  simp only [receiveOwnershipResolved,require_bind_error,Abort.require.injEq] at failed
  rcases failed with ⟨-,rfl⟩ | ⟨-,⟨-,rfl⟩ | ⟨-,failed⟩⟩
  · simp
  · simp
  split at failed
  · contradiction
  split at failed
  · rename_i v held
    simp only [requestVoteEligibility] at failed
    split at failed
    · contradiction
    split at failed
    · contradiction
    split at failed
    · contradiction
    split at failed
    · contradiction
    obtain ⟨pending,reserved⟩ := Pending.followUp_reserves booked held env s.nextQueryId
    simp only [Pending.close] at reserved
    rcases bind_error.mp failed with unset | ⟨verifier,-,failed⟩
    · simp only [State.requireSnapshotVerifier] at unset
      split at unset
      · cases unset
        simp
      · contradiction
    · rw [reserved,ok_bind] at failed
      rcases bind_error.mp failed with outOfRange | ⟨-,-,failed⟩
      · exact absurd outOfRange (fitUints_ne_require _)
      · contradiction
  split at failed
  · simp only [finalizeProposal] at failed
    split at failed
    · contradiction
    rcases bind_error.mp failed with outOfRange | ⟨-,-,failed⟩
    · exact absurd outOfRange (fitUints_ne_require _)
    · contradiction
  · contradiction

/-- In every run the books balance: counts, claimants and key sets agree, stay inside the
limits, and an answered query can always be followed up. -/
theorem pending_bookkeeping (hash : Cell → Int) (contractAddress : Cell → Cell → Address)
    (deployer : Address) (deliveries : List (Delivery Message)) :
    PendingBooks (run hash contractAddress deployer deliveries) := by
  have booked := run_booked hash contractAddress deployer deliveries
  generalize run hash contractAddress deployer deliveries = s at booked
  have owed (claimant : Address) : s.pending.claimantPending.amount claimant =
    (s.pending.claimants.holding claimant).card := booked.owed
  have expiries : s.pending.count = s.pending.expiry.keys.card := by
    rw [booked.expiry,booked.count]
  refine ⟨booked.count,expiries,booked.total.symm,⟨?_,booked.capacity⟩,?_,?_,booked.claimant,
    booked.votesProposals,booked.votesEligibility,booked.proposalsEligibility,booked.union,?_,
    ?_,ownershipResolved_room booked⟩
  · rw [booked.count]
    exact Int.natCast_nonneg _
  · intro claimant queries stored
    have amount : s.pending.claimantPending.amount claimant = queries := by
      simp [FiniteMap.amount,stored]
    obtain ⟨positive,limit⟩ := booked.limit stored
    exact ⟨positive,limit,amount ▸ owed claimant⟩
  · intro claimant absent
    have none := owed claimant
    simp only [FiniteMap.amount,absent,Option.getD_none] at none
    exact Finset.card_eq_zero.mp (by omega)
  · intro queryId member
    rw [booked.expiry,Finset.union_self] at member
    exact booked.issued member
  · intro _ _ env held
    exact Pending.followUp_reserves booked held env s.nextQueryId

end Runs
end Tonbankcard.ProposalRegistry
