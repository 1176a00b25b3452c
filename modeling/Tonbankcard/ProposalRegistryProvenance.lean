import Tonbankcard.ProposalRegistryTally

/-! Where a recorded vote or proposal comes from. A live request remembers the message that
issued it and the hour it was issued in; a callback acts on a live request only, and takes
its expiry away, so no query is answered twice. -/
namespace Tonbankcard.ProposalRegistry

open Ton

/-- The owner's vote, cast inside the window; its query goes to the resolver in force. -/
structure CastBy (v : PendingVote) (queryId : Int) (cast : Entry) : Prop where
  message : cast.input.message = .castVote v.proposalId v.nftId v.vote
  sender : cast.input.context.sender = v.claimant
  window : ∃ p, cast.before.proposals.get v.proposalId = some p ∧ p.status = .active ∧
    p.votingStart ≤ cast.input.context.now ∧ cast.input.context.now ≤ p.votingEnd
  query : cast.before.nextQueryId = queryId
  asked : ∃ resolver, cast.before.ownerResolver = some resolver ∧
    cast.output = [resolveOwnership resolver queryId v.nftId v.claimant requestKindVote]

/-- A submission; duration and quorum are resolved on the spot. -/
structure SubmittedBy (r : PendingProposal) (queryId : Int) (submission : Entry) : Prop where
  message : ∃ votingDuration quorumThreshold, submission.input.message =
      .submitProposal r.metadataHash r.authorNftId r.category votingDuration quorumThreshold ∧
    r.votingDuration = resolvedVotingDuration votingDuration ∧
    r.quorumThreshold = resolvedQuorum quorumThreshold
  sender : submission.input.context.sender = r.claimant
  query : submission.before.nextQueryId = queryId
  asked : ∃ resolver, submission.before.ownerResolver = some resolver ∧ submission.output =
    [resolveOwnership resolver queryId r.authorNftId r.claimant requestKindProposal]

/-- The resolver in force names the owner of an NFT before the query expires. -/
structure ResolvedBy (nftId : Int) (owner : Address) (queryId deadline : Int) (reply : Entry) :
    Prop where
  message : reply.input.message = .ownershipResolved queryId nftId owner
  resolver : reply.before.ownerResolver = some reply.input.context.sender
  timely : reply.input.context.now < deadline

/-- The reply of the resolver is followed up by a query to the verifier in force. -/
structure FollowedUp (v : PendingVote) (queryId : Int) (reply : Entry) : Prop where
  query : reply.before.nextQueryId = queryId
  asked : ∃ verifier, reply.before.snapshotVerifier = some verifier ∧
    reply.output = [eligibilityCheckRequest verifier queryId v.proposalId v.nftId]

/-- The verifier in force finds the NFT in the snapshot before the query expires. -/
structure VerifiedBy (v : PendingVote) (queryId deadline : Int) (reply : Entry) : Prop where
  message : reply.input.message = .eligibilityCheckResponse queryId v.proposalId v.nftId true
  verifier : reply.before.snapshotVerifier = some reply.input.context.sender
  timely : reply.input.context.now < deadline

/-- When the query an entry issues expires. -/
def deadlineOf (entry : Entry) : Int := entry.input.context.now + pendingTtl

/-- The messages behind a live request, with the deadline they gave it. -/
def Origin (past : List Entry) (queryId deadline : Int) : Request → Prop
  | .vote v => ∃ cast ∈ past, CastBy v queryId cast ∧ deadline = deadlineOf cast
  | .proposal r =>
    ∃ submission ∈ past, SubmittedBy r queryId submission ∧ deadline = deadlineOf submission
  | .eligibility v => ∃ cast resolved, [resolved,cast].Sublist past ∧
    CastBy v cast.before.nextQueryId cast ∧
    ResolvedBy v.nftId v.claimant cast.before.nextQueryId (deadlineOf cast) resolved ∧
    FollowedUp v queryId resolved ∧ deadline = deadlineOf resolved

theorem origin_cons (entry : Entry) (origin : Origin past queryId deadline request) :
    Origin (entry :: past) queryId deadline request := by
  cases request with
  | vote v =>
    obtain ⟨cast,member,origin⟩ := origin
    exact ⟨cast,List.mem_cons_of_mem _ member,origin⟩
  | proposal r =>
    obtain ⟨submission,member,origin⟩ := origin
    exact ⟨submission,List.mem_cons_of_mem _ member,origin⟩
  | eligibility v =>
    obtain ⟨cast,resolved,order,origin⟩ := origin
    exact ⟨cast,resolved,order.cons _,origin⟩

/-- Every live request of a state has its origin in the journal behind it. -/
structure Traced (past : List Entry) (s : State) : Prop where
  issued : s.pending.Issued s.nextQueryId
  origin : s.pending.Live queryId request deadline → Origin past queryId deadline request

/-- A request that is answered in time is live. -/
theorem live_of_fresh {env : Context} {pending : Pending}
    (fresh : pending.pendingIsFresh env queryId = true) (held : pending.Binds queryId request) :
    ∃ deadline, pending.Live queryId request deadline ∧ env.now < deadline := by
  obtain ⟨deadline,expiry,ahead⟩ := Pending.pendingIsFresh_iff.mp fresh
  exact ⟨deadline,⟨held,expiry⟩,ahead⟩

theorem issue_origin {d : Delivery Message} {s next : State} (traced : Traced past s)
    (issue : Issue d.context s d.message actions request) :
    Origin (⟨s,d,next,actions⟩ :: past) s.nextQueryId (d.context.now + pendingTtl) request := by
  generalize message : d.message = msg at issue
  cases issue with
  | vote stored votable diamond voteType resolver =>
    refine ⟨_,List.mem_cons_self,⟨message,rfl,?_,rfl,_,resolver,rfl⟩,rfl⟩
    exact ⟨_,stored,of_decide_eq_true votable⟩
  | proposal resolver =>
    exact ⟨_,List.mem_cons_self,⟨⟨_,_,message,rfl,rfl⟩,rfl,rfl,_,resolver,rfl⟩,rfl⟩
  | @eligibility queryId v _ resolver fresh held verifier =>
    have bound : s.pending.Binds queryId (.vote v) := held
    obtain ⟨deadline,live,ahead⟩ := live_of_fresh fresh bound
    obtain ⟨cast,member,origin,rfl⟩ := traced.origin live
    have query := origin.query
    subst query
    exact ⟨cast,_,(List.singleton_sublist.mpr member).cons_cons _,origin,
      ⟨message,resolver,ahead⟩,⟨rfl,_,verifier,rfl⟩,rfl⟩

theorem traced_step {d : Delivery Message} {s next : State} (traced : Traced past s)
    (effect : Effect d.context s d.message next actions) :
    Traced (⟨s,d,next,actions⟩ :: past) next := by
  refine ⟨effect_issued traced.issued effect,?_⟩
  intro queryId request deadline live
  rcases effect_live traced.issued effect live with before | ⟨issue,rfl,rfl⟩
  · exact origin_cons _ (traced.origin before)
  · exact issue_origin traced issue

section Records

/-- The entry puts the vote of an NFT on record. -/
def RecordsVote (proposalId nftId : Int) (entry : Entry) : Prop :=
  entry.before.votesCast.get (voteKey proposalId nftId) = none ∧
    entry.after.votesCast.get (voteKey proposalId nftId) ≠ none

/-- The entry stores a proposal under an id that was free. -/
def RecordsProposal (proposalId : Int) (p : Proposal) (entry : Entry) : Prop :=
  entry.before.proposals.get proposalId = none ∧ entry.after.proposals.get proposalId = some p

variable {env : Context} {self next : State}

/-- A vote comes on record only with a timely reply to its live eligibility query. -/
theorem effect_recordsVote (countable : Countable self)
    (effect : Effect env self msg next actions) (diamond : Diamond nftId)
    (absent : self.votesCast.get (voteKey proposalId nftId) = none)
    (present : next.votesCast.get (voteKey proposalId nftId) ≠ none) :
    ∃ queryId v deadline, v.proposalId = proposalId ∧ v.nftId = nftId ∧
      msg = .eligibilityCheckResponse queryId proposalId nftId true ∧
      self.snapshotVerifier = some env.sender ∧
      self.pending.Live queryId (.eligibility v) deadline ∧ env.now < deadline := by
  cases effect with
  | @counted queryId v p verifier fresh held stored votable uncounted =>
    have bound : self.pending.Binds queryId (.eligibility v) := held
    obtain ⟨deadline,live,ahead⟩ := live_of_fresh fresh bound
    have same : voteKey proposalId nftId = voteKey v.proposalId v.nftId := by
      by_contra apart
      exact present ((FiniteMap.get_set_other _ _ apart).trans absent)
    obtain ⟨rfl,rfl⟩ := voteKey_injective diamond (countable _ _ (.inr bound)).1 same
    exact ⟨queryId,v,deadline,rfl,rfl,rfl,verifier,live,ahead⟩
  | _ => exact absurd absent present

/-- A proposal comes on record only with a timely reply to its live ownership query. -/
theorem effect_recordsProposal (effect : Effect env self msg next actions)
    (absent : self.proposals.get proposalId = none)
    (present : next.proposals.get proposalId = some p) :
    ∃ queryId r deadline, p = r.opened env proposalId ∧
      msg = .ownershipResolved queryId r.authorNftId r.claimant ∧
      self.ownerResolver = some env.sender ∧
      self.pending.Live queryId (.proposal r) deadline ∧ env.now < deadline := by
  cases effect with
  | @opened queryId r resolver fresh held =>
    have bound : self.pending.Binds queryId (.proposal r) := held
    obtain ⟨deadline,live,ahead⟩ := live_of_fresh fresh bound
    rcases FiniteMap.get_set_cases _ present with before | ⟨rfl,rfl⟩
    · simp [absent] at before
    · exact ⟨queryId,r,deadline,rfl,rfl,resolver,live,ahead⟩
  | counted _ _ _ stored | finalized stored =>
    rcases FiniteMap.get_set_cases _ present with before | ⟨rfl,-⟩
    · simp [absent] at before
    · simp [absent] at stored
  | _ => simp [absent] at present

/-- Every event of a vote puts one on record. -/
theorem effect_voteCast_records (countable : Countable self)
    (effect : Effect env self msg next actions)
    (emitted : .emit (.voteCast proposalId voteType) ∈ actions) :
    ∃ nftId, Diamond nftId ∧ self.votesCast.get (voteKey proposalId nftId) = none ∧
      next.votesCast.get (voteKey proposalId nftId) ≠ none := by
  cases effect_ballot effect with
  | counted queryId v p held stored votable uncounted proposals votesCast count message event =>
    simp only [event,List.mem_singleton,Action.emit.injEq,Body.voteCast.injEq] at emitted
    obtain ⟨rfl,rfl⟩ := emitted
    exact ⟨v.nftId,(countable queryId v (.inr held)).1,uncounted,by simp [votesCast]⟩
  | idle _ _ _ silent => exact absurd emitted (silent _ _)
  | opened _ _ _ _ silent => exact absurd emitted (silent _ _)
  | finalized _ _ _ _ _ _ _ silent => exact absurd emitted (silent _ _)

end Records

section Answers

/-- A reply to a query that had an effect: a follow-up, a vote or a proposal. -/
def answers (queryId : Int) (entry : Entry) : Bool :=
  decide (entry.input.message.repliesTo = some queryId) && !entry.output.isEmpty

/-- An answer takes the expiry of its query away. -/
theorem effect_answer {env : Context} {self next : State}
    (issued : self.pending.Issued self.nextQueryId) (effect : Effect env self msg next actions)
    (reply : msg.repliesTo = some queryId) (acted : actions ≠ []) :
    self.pending.expiry.get queryId ≠ none ∧ next.pending.expiry.get queryId = none := by
  have expires (fresh : self.pending.pendingIsFresh env queryId = true) :
      self.pending.expiry.get queryId ≠ none := by
    obtain ⟨deadline,expiry,-⟩ := Pending.pendingIsFresh_iff.mp fresh
    simp [expiry]
  have released := self.pending.releasePending_expiry queryId issued.tracked
  cases effect with
  | configured unprompted => simp [unprompted] at reply
  | dropped => exact absurd rfl acted
  | submitted | cast | finalized => simp [Message.repliesTo] at reply
  | requested resolver fresh held verifier reserved =>
    obtain rfl := Option.some.inj reply
    have bound := expires fresh
    have old := issued.expiry bound
    refine ⟨bound,?_⟩
    rw [reserved.expiry,FiniteMap.get_set_other _ _ (by omega)]
    exact released
  | opened resolver fresh held =>
    obtain rfl := Option.some.inj reply
    exact ⟨expires fresh,released⟩
  | counted verifier fresh held =>
    obtain rfl := Option.some.inj reply
    exact ⟨expires fresh,released⟩

/-- A query is answered at most once, and an answered one has no expiry. -/
def AnsweredOnce (past : List Entry) (s : State) : Prop :=
  ∀ queryId, past.countP (answers queryId) = 0 ∨
    past.countP (answers queryId) = 1 ∧ s.pending.expiry.get queryId = none ∧
      queryId < s.nextQueryId

theorem answeredOnce_step {d : Delivery Message} {s next : State}
    (issued : s.pending.Issued s.nextQueryId) (once : AnsweredOnce past s)
    (effect : Effect d.context s d.message next actions) :
    AnsweredOnce (⟨s,d,next,actions⟩ :: past) next := by
  intro queryId
  have counter : s.nextQueryId ≤ next.nextQueryId := by
    rcases effect_requests effect with ⟨-,same⟩ | ⟨request,-,added⟩
    · exact same.ge
    · exact added.nextQueryId ▸ Int.le_add_one le_rfl
  rw [List.countP_cons]
  cases answer : answers queryId ⟨s,d,next,actions⟩ with
  | true =>
    simp only [answers,Bool.and_eq_true,decide_eq_true_eq,Bool.not_eq_true',
      List.isEmpty_eq_false_iff] at answer
    obtain ⟨bound,unbound⟩ := effect_answer issued effect answer.1 answer.2
    have old := issued.expiry bound
    rcases once queryId with none | ⟨-,absent,-⟩
    · exact .inr ⟨by simp [none],unbound,by omega⟩
    · exact absurd absent bound
  | false =>
    rcases once queryId with none | ⟨one,absent,old⟩
    · exact .inl (by simp [none])
    refine .inr ⟨by simp [one],?_,by omega⟩
    by_contra bound
    obtain ⟨deadline,bound⟩ := Option.ne_none_iff_exists'.mp bound
    rcases effect_requests effect with ⟨within,-⟩ | ⟨request,-,added⟩
    · simp [within.expiry _ _ bound] at absent
    · rcases added.expiry bound with before | ⟨same,-⟩
      · simp [before] at absent
      · omega

end Answers

section Materialisation

/-- An entry with the event of a recorded vote or proposal. -/
def records (entry : Entry) : Bool :=
  entry.output.any (fun
    | .emit body => body.records
    | _ => false)

/-- The eligibility query an entry sends. -/
def followUp (entry : Entry) : Option Int :=
  entry.output.findSome? (fun
    | .send parameters =>
      match parameters.body with
      | .eligibilityCheckRequest queryId _ _ => some queryId
      | _ => none
    | .emit _ => none)

/-- The entry answers a query or the follow-up of a reply to it. -/
def descends (entries : List Entry) (queryId : Int) (entry : Entry) : Bool :=
  answers queryId entry || entries.any (fun reply =>
    answers queryId reply && (followUp reply).any (fun next => answers next entry))

/-- How many votes and proposals a query id has materialised, directly or by follow-up. -/
def materialisations (entries : List Entry) (queryId : Int) : Nat :=
  entries.countP (fun entry => records entry && descends entries queryId entry)

/-- A reply that asks the verifier records nothing itself. -/
theorem followUp_records
    (effect : Effect entry.input.context entry.before entry.input.message entry.after entry.output)
    (asked : followUp entry = some queryId) : records entry = false := by
  obtain ⟨before,d,after,actions⟩ := entry
  simp only [followUp,records] at *
  generalize d.message = msg at effect
  cases effect <;> simp_all [resolveOwnership,eligibilityCheckRequest,proposalSubmitted]

theorem eq_of_countP_le_one {test : α → Bool} {l : List α} (once : l.countP test ≤ 1)
    (member : a ∈ l) (passes : test a = true) (member' : b ∈ l) (passes' : test b = true) :
    a = b := by
  rw [List.countP_eq_length_filter] at once
  have left : a ∈ l.filter test := List.mem_filter.mpr ⟨member,passes⟩
  have right : b ∈ l.filter test := List.mem_filter.mpr ⟨member',passes'⟩
  rcases filtered : l.filter test with _ | ⟨c,_ | ⟨_,_⟩⟩
  · simp [filtered] at left
  · rw [filtered,List.mem_singleton] at left right
    exact left.trans right.symm
  · simp [filtered] at once

/-- One answer to each query leaves room for one vote or proposal behind each. -/
theorem materialisations_le_one (entries : List Entry)
    (effects : ∀ entry ∈ entries, Effect entry.input.context entry.before entry.input.message
      entry.after entry.output)
    (once : ∀ queryId, entries.countP (answers queryId) ≤ 1) (queryId : Int) :
    materialisations entries queryId ≤ 1 := by
  by_cases asks : ∃ reply ∈ entries, answers queryId reply = true ∧
      ∃ next, followUp reply = some next
  · obtain ⟨reply,member,answer,next,asked⟩ := asks
    refine le_trans (List.countP_mono_left ?_) (once next)
    intro entry within materialises
    simp only [descends,Bool.and_eq_true,Bool.or_eq_true,List.any_eq_true] at materialises
    obtain ⟨recorded,direct | ⟨other,within',answer',behind⟩⟩ := materialises
    · obtain rfl := eq_of_countP_le_one (once queryId) within direct member answer
      rw [followUp_records (effects entry member) asked] at recorded
      contradiction
    · obtain rfl := eq_of_countP_le_one (once queryId) within' answer' member answer
      simpa [asked] using behind
  · refine le_trans (List.countP_mono_left ?_) (once queryId)
    intro entry within materialises
    simp only [descends,Bool.and_eq_true,Bool.or_eq_true,List.any_eq_true] at materialises
    obtain ⟨-,direct | ⟨other,within',answer',behind⟩⟩ := materialises
    · exact direct
    · obtain ⟨next,asked,-⟩ := (Option.any_eq_true _ _).mp behind
      exact absurd ⟨other,within',answer',_,asked⟩ asks

end Materialisation

section Runs
variable {hash : Cell → Int} {contractAddress : Cell → Cell → Address}

theorem run_traced (deployer : Address) (deliveries : List (Delivery Message)) :
    Traced (journal hash contractAddress deployer deliveries)
      (run hash contractAddress deployer deliveries) := by
  refine run_invariant Traced ⟨init_issued deployer,?_⟩ (fun _ _ _ _ _ => traced_step) deliveries
  rintro queryId request deadline ⟨-,expiry⟩
  cases expiry

theorem run_answeredOnce (deployer : Address) (deliveries : List (Delivery Message)) :
    AnsweredOnce (journal hash contractAddress deployer deliveries)
      (run hash contractAddress deployer deliveries) := by
  refine (run_invariant (fun past s => s.pending.Issued s.nextQueryId ∧ AnsweredOnce past s)
    ⟨init_issued deployer,fun _ => .inl rfl⟩ ?_ deliveries).2
  rintro past s d next actions ⟨issued,once⟩ effect
  exact ⟨effect_issued issued effect,answeredOnce_step issued once effect⟩

/-- The three messages behind a recorded vote, oldest first. -/
structure VoteChain (v : PendingVote) (cast resolved verified : Entry) : Prop where
  castBy : CastBy v cast.before.nextQueryId cast
  resolvedBy : ResolvedBy v.nftId v.claimant cast.before.nextQueryId (deadlineOf cast) resolved
  followedUp : FollowedUp v resolved.before.nextQueryId resolved
  verifiedBy : VerifiedBy v resolved.before.nextQueryId (deadlineOf resolved) verified

/-- The two messages behind a recorded proposal. -/
structure ProposalChain (r : PendingProposal) (submission resolved : Entry) : Prop where
  submittedBy : SubmittedBy r submission.before.nextQueryId submission
  resolvedBy : ResolvedBy r.authorNftId r.claimant submission.before.nextQueryId
    (deadlineOf submission) resolved

/-- Where the votes and proposals of a journal come from. -/
structure Provenance (past : List Entry) : Prop where
  votes : entry :: older <:+ past → Diamond nftId → RecordsVote proposalId nftId entry →
    ∃ v cast resolved, v.proposalId = proposalId ∧ v.nftId = nftId ∧
      [resolved,cast].Sublist older ∧ VoteChain v cast resolved entry
  events : entry ∈ past → .emit (.voteCast proposalId voteType) ∈ entry.output →
    ∃ nftId, Diamond nftId ∧ RecordsVote proposalId nftId entry
  proposals : entry :: older <:+ past → RecordsProposal proposalId p entry →
    ∃ r, p = r.opened entry.input.context proposalId ∧
      ∃ submission ∈ older, ProposalChain r submission entry
  once : materialisations past queryId ≤ 1

/-- In every run each recorded vote and proposal has its messages behind it, in order, from
the right senders and in time, and no query id stands behind two of them. -/
theorem vote_provenance (hash : Cell → Int) (contractAddress : Cell → Cell → Address)
    (deployer : Address) (deliveries : List (Delivery Message)) :
    Provenance (journal hash contractAddress deployer deliveries) := by
  have behind {entry : Entry} {older : List Entry}
      (suffix : entry :: older <:+ journal hash contractAddress deployer deliveries) :
      Traced older entry.before ∧ Countable entry.before ∧ Effect entry.input.context
        entry.before entry.input.message entry.after entry.output := by
    obtain ⟨past,-,rfl,before,accepted⟩ := Journal.suffix_origin suffix
    refine ⟨?_,?_,receive_effect (deliver_received accepted)⟩
    · exact before ▸ run_traced deployer past
    · exact before ▸ (run_tallied deployer past).countable
  refine ⟨?_,?_,?_,fun {queryId} => ?_⟩
  · rintro entry older nftId proposalId suffix diamond ⟨absent,present⟩
    obtain ⟨traced,countable,effect⟩ := behind suffix
    obtain ⟨queryId,v,deadline,rfl,rfl,message,verifier,live,timely⟩ :=
      effect_recordsVote countable effect diamond absent present
    obtain ⟨cast,resolved,order,castBy,resolvedBy,followedUp,rfl⟩ := traced.origin live
    obtain rfl := followedUp.query
    exact ⟨v,cast,resolved,rfl,rfl,order,castBy,resolvedBy,followedUp,message,verifier,timely⟩
  · intro entry proposalId voteType member emitted
    obtain ⟨newer,older,whole⟩ := List.append_of_mem member
    obtain ⟨-,countable,effect⟩ := behind ⟨newer,whole.symm⟩
    exact effect_voteCast_records countable effect emitted
  · rintro entry older proposalId p suffix ⟨absent,present⟩
    obtain ⟨traced,-,effect⟩ := behind suffix
    obtain ⟨queryId,r,deadline,opened,message,resolver,live,timely⟩ :=
      effect_recordsProposal effect absent present
    obtain ⟨submission,member,submittedBy,rfl⟩ := traced.origin live
    obtain rfl := submittedBy.query
    exact ⟨r,opened,submission,member,submittedBy,message,resolver,timely⟩
  · refine materialisations_le_one _ (fun _ member => entry_effect member) ?_ queryId
    intro other
    rcases run_answeredOnce deployer deliveries other with none | ⟨one,-⟩
    · exact none.le.trans zero_le_one
    · exact one.le

end Runs

/-- The query of the cast vote and its follow-up stand behind the same vote. -/
example : materialisations (journal packedHash peerAddress firstGovernor voting) 1 = 1 ∧
    materialisations (journal packedHash peerAddress firstGovernor voting) 2 = 1 := by
  decide +kernel

end Tonbankcard.ProposalRegistry
