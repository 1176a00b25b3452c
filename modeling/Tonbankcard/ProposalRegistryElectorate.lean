import Tonbankcard.ProposalRegistryProvenance
import Tonbankcard.SnapshotVerifierEligibility

/-! The registry and the verifier that it asks, with the verifier's answers under way between them.
Whatever anyone else sends to either of them, and in whatever order the answers arrive, the votes of
a proposal are those of NFTs on its registered roll. -/
namespace Tonbankcard.Electorate

open Ton

structure Answer where
  queryId : BitVec 64
  proposalId : BitVec 64
  nftId : BitVec 64
  eligible : Bool
  deriving DecidableEq

/-- An answer as the registry reads it. -/
def Answer.message (a : Answer) : ProposalRegistry.Message :=
  .eligibilityCheckResponse a.queryId.toNat a.proposalId.toNat a.nftId.toNat a.eligible

/-- The two contracts with the answers that have not arrived. -/
structure Network where
  registry : ProposalRegistry.State
  verifier : SnapshotVerifier.State
  underway : List Answer

/-- What happens next: either contract receives a message, or one of the answers arrives. -/
inductive Event where
  | registry (d : Delivery ProposalRegistry.Message)
  | verifier (d : Delivery SnapshotVerifier.Message)
  | arrive (position value now : Nat) (commits : Bool)

/-- The addresses the two contracts are deployed at and by. -/
structure Deployment where
  registry : Address
  verifier : Address
  registryDeployer : Address
  verifierDeployer : Address

section Run
variable (deployment : Deployment)

/-- The answer that a message of the verifier carries to the registry. -/
def answerTo : Action SnapshotVerifier.Body → Option Answer
  | .emit _ => none
  | .send parameters =>
    match parameters.body with
    | .eligibilityCheckResponse queryId proposalId nftId eligible =>
      if parameters.destination = deployment.registry then
        some ⟨queryId,proposalId,nftId,eligible⟩
      else none
    | _ => none

/-- Nobody but the verifier answers from its address. Its bounces come from there too. -/
def forged (d : Delivery ProposalRegistry.Message) : Bool :=
  match d.message with
  | .eligibilityCheckResponse .. => d.context.sender == deployment.verifier
  | _ => false

/-- The message that an event brings to the registry. -/
def Network.brings (w : Network) : Event → Option (Delivery ProposalRegistry.Message)
  | .registry d => if forged deployment d then none else some d
  | .verifier _ => none
  | .arrive position value now commits =>
    w.underway[position]?.map fun a => ⟨⟨deployment.verifier,value,now⟩,a.message,commits⟩

variable (hash : Cell → Int) (contractAddress : Cell → Cell → Address)

/-- The state after an input; a refused one changes nothing. -/
def after (machine : Journal.Machine State Input Output) (s : State) (input : Input) : State :=
  ((machine s input).map Prod.fst).getD s

/-- The registry moves by what the event brings it, and the verifier's answers get under way. -/
def Network.next (w : Network) (event : Event) : Network where
  registry := (w.brings deployment event).elim w.registry
    (after (deliver (ProposalRegistry.receive hash contractAddress)) w.registry)
  verifier :=
    match event with
    | .verifier d => after (deliver SnapshotVerifier.receive) w.verifier d
    | _ => w.verifier
  underway :=
    match event with
    | .registry _ => w.underway
    | .verifier d => w.underway ++ (((deliver SnapshotVerifier.receive w.verifier d).map
        Prod.snd).getD []).filterMap (answerTo deployment)
    | .arrive position _ _ _ => w.underway.eraseIdx position

/-- The network after any events, newest first, from the two deployments on. -/
def network : List Event → Network
  | [] =>
    { registry := ProposalRegistry.init deployment.registryDeployer
      verifier := SnapshotVerifier.init deployment.verifierDeployer
      underway := [] }
  | event :: past => (network past).next deployment hash contractAddress event

/-- What the registry received, newest first. -/
def heard : List Event → List (Delivery ProposalRegistry.Message)
  | [] => []
  | event :: past =>
    ((network deployment hash contractAddress past).brings deployment event).toList ++ heard past

/-- What the verifier received, newest first. -/
def asked : List Event → List (Delivery SnapshotVerifier.Message)
  | [] => []
  | .verifier d :: past => d :: asked past
  | _ :: past => asked past

/-- What the registry accepted of it. -/
def registryJournal (events : List Event) : List ProposalRegistry.Entry :=
  ProposalRegistry.journal hash contractAddress deployment.registryDeployer
    (heard deployment hash contractAddress events)

end Run

section Projections
variable {deployment : Deployment} {hash : Cell → Int} {contractAddress : Cell → Cell → Address}

theorem run_cons (machine : Journal.Machine State Input Output) (initial : State) (input : Input)
    (past : List Input) :
    Journal.run machine initial (input :: past) =
      after machine (Journal.run machine initial past) input := by
  cases outcome : machine (Journal.run machine initial past) input with
  | none => simp [Journal.run,after,outcome]
  | some result => simp [Journal.run,after,outcome]

/-- Each side of the network is a run of its own contract. -/
theorem network_registry (events : List Event) :
    (network deployment hash contractAddress events).registry =
      ProposalRegistry.run hash contractAddress deployment.registryDeployer
        (heard deployment hash contractAddress events) := by
  induction events with
  | nil => rfl
  | cons event past ih =>
    simp only [network,Network.next,heard,ih]
    cases (network deployment hash contractAddress past).brings deployment event with
    | none => rfl
    | some d => exact (run_cons ..).symm

theorem network_verifier (events : List Event) :
    (network deployment hash contractAddress events).verifier =
      SnapshotVerifier.run (SnapshotVerifier.init deployment.verifierDeployer)
        (asked events) := by
  induction events with
  | nil => rfl
  | cons event past ih =>
    cases event with
    | verifier d => exact (congrArg (after _ · d) ih).trans (run_cons ..).symm
    | registry | arrive => exact ih

end Projections

section Answers
variable {self next : SnapshotVerifier.State}

/-- An eligible NFT stays eligible: a roll is registered once. -/
theorem eligible_later (effect : SnapshotVerifier.Effect env self msg next)
    (eligible : self.isEligible p n = true) : next.isEligible p n = true := by
  cases effect with
  | @registered proposalId timestamp eligibleNfts indexer positive fresh =>
    have apart : p ≠ (proposalId.toNat : Int) := by
      rintro rfl
      exact ((SnapshotVerifier.isEligible_iff self _ n).mp eligible).2.2.1 fresh
    exact (SnapshotVerifier.register_other apart n).trans eligible
  | indexerSet | registrySet | answered => exact eligible

/-- An answer says what the roll says. -/
theorem answerTo_eligible {deployment : Deployment}
    (accepted : deliver SnapshotVerifier.receive self d = some (next,actions))
    (sent : a ∈ actions.filterMap (answerTo deployment)) (eligible : a.eligible = true) :
    next.isEligible a.proposalId.toNat a.nftId.toNat = true := by
  have received := deliver_received accepted
  obtain ⟨action,listed,carried⟩ := List.mem_filterMap.mp sent
  cases message : d.message with
  | eligibilityCheckRequest queryId proposalId nftId =>
    rw [message] at received
    obtain ⟨rfl,rfl⟩ := Prod.mk.inj (pure_ok.mp received)
    obtain rfl := List.mem_singleton.mp listed
    simp only [answerTo] at carried
    split at carried
    · obtain rfl := Option.some.inj carried
      exact eligible
    · cases carried
  | setTrustedIndexer indexer =>
    rw [message] at received
    obtain ⟨-,received⟩ := require_bind_ok.mp received
    obtain ⟨-,rfl⟩ := Prod.mk.inj (pure_ok.mp received)
    obtain rfl := List.mem_singleton.mp listed
    cases carried
  | setProposalRegistry registry =>
    rw [message] at received
    obtain ⟨-,received⟩ := require_bind_ok.mp received
    obtain ⟨-,received⟩ := require_bind_ok.mp received
    obtain ⟨-,rfl⟩ := Prod.mk.inj (pure_ok.mp received)
    cases listed
  | registerSnapshot proposalId timestamp eligibleNfts =>
    rw [message] at received
    obtain ⟨-,received⟩ := SnapshotVerifier.requireTrustedIndexer_bind_ok.mp received
    obtain ⟨-,received⟩ := require_bind_ok.mp received
    obtain ⟨-,received⟩ := require_bind_ok.mp received
    obtain ⟨-,rfl⟩ := Prod.mk.inj (pure_ok.mp received)
    obtain rfl := List.mem_singleton.mp listed
    cases carried

end Answers

/-- What the network keeps: eligible answers, under way or accepted, agree with the rolls. -/
structure Sound (deployment : Deployment) (entries : List ProposalRegistry.Entry) (w : Network) :
    Prop where
  underway : ∀ a ∈ w.underway, a.eligible = true →
    w.verifier.isEligible a.proposalId.toNat a.nftId.toNat = true
  accepted : ∀ entry ∈ entries, entry.input.context.sender = deployment.verifier →
    ∀ queryId proposalId nftId,
      entry.input.message = .eligibilityCheckResponse queryId proposalId nftId true →
      w.verifier.isEligible proposalId nftId = true

section Steps
variable {deployment : Deployment} {hash : Cell → Int} {contractAddress : Cell → Cell → Address}
  {w : Network}

/-- The verifier keeps what was eligible, whatever happens. -/
theorem next_eligible (w : Network) (event : Event)
    (eligible : w.verifier.isEligible p n = true) :
    (w.next deployment hash contractAddress event).verifier.isEligible p n = true := by
  cases event with
  | registry | arrive => exact eligible
  | verifier d =>
    cases outcome : deliver SnapshotVerifier.receive w.verifier d with
    | none => simpa [Network.next,after,outcome] using eligible
    | some result =>
      have effect := SnapshotVerifier.receive_effect (deliver_received outcome)
      simpa [Network.next,after,outcome] using eligible_later effect eligible

theorem next_underway (sound : Sound deployment entries w) (event : Event) (a : Answer)
    (member : a ∈ (w.next deployment hash contractAddress event).underway)
    (eligible : a.eligible = true) :
    (w.next deployment hash contractAddress event).verifier.isEligible a.proposalId.toNat
      a.nftId.toNat = true := by
  cases event with
  | registry d => exact sound.underway a member eligible
  | arrive position => exact sound.underway a (List.mem_of_mem_eraseIdx member) eligible
  | verifier d =>
    rcases List.mem_append.mp member with earlier | sent
    · exact next_eligible w (.verifier d) (sound.underway a earlier eligible)
    · cases outcome : deliver SnapshotVerifier.receive w.verifier d with
      | none => simp [outcome] at sent
      | some result =>
        simp only [outcome,Option.map_some,Option.getD_some] at sent
        simpa [Network.next,after,outcome] using answerTo_eligible outcome sent eligible

/-- What the registry hears from the verifier's address, the verifier has answered. -/
theorem brings_eligible (sound : Sound deployment entries w) {event : Event}
    {d : Delivery ProposalRegistry.Message} (brought : w.brings deployment event = some d)
    (sender : d.context.sender = deployment.verifier)
    (answer : d.message = .eligibilityCheckResponse queryId proposalId nftId true) :
    w.verifier.isEligible proposalId nftId = true := by
  cases event with
  | registry given =>
    simp only [Network.brings] at brought
    split at brought
    · cases brought
    · rename_i genuine
      obtain rfl := Option.some.inj brought
      simp [forged,answer,sender] at genuine
  | verifier => cases brought
  | arrive position value now commits =>
    obtain ⟨a,found,rfl⟩ := Option.map_eq_some_iff.mp brought
    have member : a ∈ w.underway := List.mem_of_getElem? found
    simp only [Answer.message,ProposalRegistry.Message.eligibilityCheckResponse.injEq] at answer
    obtain ⟨rfl,rfl,rfl,eligible⟩ := answer
    exact sound.underway a member eligible

/-- What is new in the journal is what the event brought. -/
theorem registryJournal_cons {event : Event} {past : List Event} {entry : ProposalRegistry.Entry}
    (member : entry ∈ registryJournal deployment hash contractAddress (event :: past)) :
    entry ∈ registryJournal deployment hash contractAddress past ∨
      (network deployment hash contractAddress past).brings deployment event =
        some entry.input := by
  unfold registryJournal ProposalRegistry.journal at *
  rw [heard] at member
  cases brought : (network deployment hash contractAddress past).brings deployment event with
  | none =>
    rw [brought] at member
    exact .inl member
  | some d =>
    rw [brought,Option.toList_some,List.singleton_append] at member
    cases outcome : deliver (ProposalRegistry.receive hash contractAddress) (Journal.run
        (deliver (ProposalRegistry.receive hash contractAddress))
        (ProposalRegistry.init deployment.registryDeployer)
        (heard deployment hash contractAddress past)) d with
    | none => exact .inl (Journal.journal_refused outcome ▸ member)
    | some result =>
      obtain ⟨next,actions⟩ := result
      rw [Journal.journal_accepted outcome] at member
      rcases List.mem_cons.mp member with rfl | earlier
      · exact .inr rfl
      · exact .inl earlier

theorem network_sound (events : List Event) :
    Sound deployment (registryJournal deployment hash contractAddress events)
      (network deployment hash contractAddress events) := by
  induction events with
  | nil =>
    constructor
    · intro a member
      cases member
    · intro entry member
      cases member
  | cons event past sound =>
    refine ⟨next_underway sound event,?_⟩
    intro entry member sender queryId proposalId nftId answer
    apply next_eligible
    rcases registryJournal_cons member with earlier | brought
    · exact sound.accepted entry earlier sender _ _ _ answer
    · exact brings_eligible sound brought sender answer

end Steps

section Rolls
variable {hash : Cell → Int} {contractAddress : Cell → Cell → Address}

/-- Behind each voter there is an entry that put its vote on record. -/
theorem voter_recorded (deployer : Address)
    (deliveries : List (Delivery ProposalRegistry.Message))
    (voted : (ProposalRegistry.run hash contractAddress deployer deliveries).votesCast.get
      (ProposalRegistry.voteKey proposalId nftId) ≠ none) :
    ∃ entry ∈ ProposalRegistry.journal hash contractAddress deployer deliveries,
      ProposalRegistry.RecordsVote proposalId nftId entry := by
  refine ProposalRegistry.run_invariant (fun past s =>
    s.votesCast.get (ProposalRegistry.voteKey proposalId nftId) ≠ none →
      ∃ entry ∈ past, ProposalRegistry.RecordsVote proposalId nftId entry) ?_ ?_ deliveries voted
  · intro present
    exact absurd (FiniteMap.get_empty _) present
  · intro past s d next actions ih effect present
    by_cases absent : s.votesCast.get (ProposalRegistry.voteKey proposalId nftId) = none
    · exact ⟨_,List.mem_cons_self,absent,present⟩
    · obtain ⟨entry,member,recorded⟩ := ih absent
      exact ⟨entry,List.mem_cons_of_mem _ member,recorded⟩

/-- The NFTs that may vote on a proposal. -/
def electorate (s : SnapshotVerifier.State) (proposalId : Int) : Finset Int :=
  ProposalRegistry.diamonds.filter fun nftId => s.isEligible proposalId nftId

theorem mem_electorate (s : SnapshotVerifier.State) :
    nftId ∈ electorate s proposalId ↔
      ProposalRegistry.Diamond nftId ∧ s.isEligible proposalId nftId = true := by
  rw [electorate,Finset.mem_filter,ProposalRegistry.mem_diamonds]

/-- A roll's count is the number of NFTs on it. -/
theorem electorate_card (deployer : Address)
    (deliveries : List (Delivery SnapshotVerifier.Message)) (proposalId : Int) :
    ((electorate (SnapshotVerifier.run (SnapshotVerifier.init deployer) deliveries)
        proposalId).card : Int) =
      (SnapshotVerifier.run (SnapshotVerifier.init deployer) deliveries).getEligibleCount
        proposalId := by
  have rolls := SnapshotVerifier.run_rolls deployer deliveries
  have rolled := SnapshotVerifier.eligibility_exact deployer deliveries
  generalize reached : SnapshotVerifier.run (SnapshotVerifier.init deployer) deliveries = s at *
  by_cases unregistered : s.snapshots.get proposalId = none
  · have empty : electorate s proposalId = ∅ := by
      refine Finset.filter_eq_empty_iff.mpr fun nftId _ eligible => ?_
      exact ((SnapshotVerifier.isEligible_iff s _ _).mp eligible).2.2.1 unregistered
    simp [empty,SnapshotVerifier.State.getEligibleCount,unregistered]
  · obtain ⟨entry,member,id,timestamp,eligibleNfts,message,rfl⟩ :
        ∃ entry ∈ SnapshotVerifier.journal (SnapshotVerifier.init deployer) deliveries,
          ∃ id timestamp eligibleNfts,
            entry.input.message = .registerSnapshot id timestamp eligibleNfts ∧
              (id.toNat : Int) = proposalId := by
      by_contra absent
      refine unregistered (rolls.unlisted proposalId ?_)
      intro entry member id timestamp eligibleNfts message same
      exact absent ⟨entry,member,id,timestamp,eligibleNfts,message,same⟩
    obtain ⟨eligible,counted⟩ := rolled.registered entry member _ _ _ message
    rw [reached] at eligible counted
    have listed : electorate s id.toNat = SnapshotVerifier.eligibleIds eligibleNfts 1 := by
      ext nftId
      rw [mem_electorate,eligible,SnapshotVerifier.mem_eligibleIds]
      exact ⟨fun member => member.2,fun listed => ⟨listed.1,listed⟩⟩
    rw [counted,listed]

end Rolls

/-- In any state reached while the registry knows no other verifier, whoever voted was eligible,
and a proposal has no more votes than there are NFTs on its roll. -/
theorem votes_within_electorate (deployment : Deployment) (hash : Cell → Int)
    (contractAddress : Cell → Cell → Address) (events : List Event)
    (trusted : ∀ entry ∈ registryJournal deployment hash contractAddress events,
      ∀ verifier, entry.before.snapshotVerifier = some verifier → verifier = deployment.verifier)
    (proposalId : Int) :
    ProposalRegistry.voters (network deployment hash contractAddress events).registry.votesCast
        proposalId ⊆
      electorate (network deployment hash contractAddress events).verifier proposalId ∧
    ∀ p, (network deployment hash contractAddress events).registry.proposals.get proposalId =
        some p →
      p.votesFor + p.votesAgainst + p.votesAbstain ≤
        (network deployment hash contractAddress events).verifier.getEligibleCount
          proposalId := by
  have sound : Sound deployment (registryJournal deployment hash contractAddress events)
      (network deployment hash contractAddress events) := network_sound events
  have within : ProposalRegistry.voters
      (network deployment hash contractAddress events).registry.votesCast proposalId ⊆
      electorate (network deployment hash contractAddress events).verifier proposalId := by
    intro nftId voted
    rw [network_registry] at voted
    obtain ⟨diamond,present⟩ := (ProposalRegistry.mem_voters _).mp voted
    obtain ⟨entry,member,absent,recorded⟩ := voter_recorded _ _ present
    obtain ⟨past,-,before,-⟩ := Journal.entry_reached member
    have countable : ProposalRegistry.Countable entry.before :=
      before ▸ (ProposalRegistry.run_tallied _ past).countable
    obtain ⟨queryId,v,deadline,-,-,message,asked,-⟩ := ProposalRegistry.effect_recordsVote
      countable (ProposalRegistry.entry_effect member) diamond absent recorded
    have sender := trusted entry member _ asked
    have eligible := sound.accepted entry member sender _ _ _ message
    exact (mem_electorate _).mpr ⟨diamond,eligible⟩
  refine ⟨within,fun p stored => ?_⟩
  have reached : (network deployment hash contractAddress events).verifier = _ :=
    network_verifier events
  rw [reached,← electorate_card,← reached]
  rw [network_registry] at stored
  have tally := (ProposalRegistry.vote_tally hash contractAddress deployment.registryDeployer
    (heard deployment hash contractAddress events)).1
  rw [tally.total stored]
  exact_mod_cast Finset.card_le_card (network_registry events ▸ within)

section Sample
open ProposalRegistry (firstGovernor resolver verifier holder peerAddress sentAt installation)

def sampleDeployment : Deployment :=
  ⟨newAddress 0 9,verifier,firstGovernor,firstGovernor⟩

def indexer : Address := newAddress 0 6

/-- NFT 7 is the only one on the roll of the first proposal, and its holder votes. -/
def oneVoter : List Event :=
  [.arrive 0 100 1300006 true,
    .verifier ⟨⟨newAddress 0 9,100,1300005⟩,.eligibilityCheckRequest 2 1 7,true⟩,
    .registry (sentAt 1300004 resolver (.ownershipResolved 1 7 holder)),
    .registry (sentAt 1300003 holder (.castVote 1 7 ProposalRegistry.voteFor)),
    .verifier ⟨⟨indexer,100,1300002⟩,
      .registerSnapshot 1 5 ((∅ : FiniteMap Int Bool).set 7 true),true⟩,
    .verifier ⟨⟨firstGovernor,100,1300002⟩,.setTrustedIndexer indexer,true⟩,
    .registry (sentAt 1300002 resolver (.ownershipResolved 0 7 holder)),
    .registry (sentAt 1300001 holder (.submitProposal 99 7 0 3600 0))] ++
    installation.map .registry

theorem one_voter_within_electorate :
    ProposalRegistry.voters (network sampleDeployment packedHash peerAddress
        oneVoter).registry.votesCast 1 ⊆
      electorate (network sampleDeployment packedHash peerAddress oneVoter).verifier 1 ∧
    ∀ p, (network sampleDeployment packedHash peerAddress oneVoter).registry.proposals.get 1 =
        some p →
      p.votesFor + p.votesAgainst + p.votesAbstain ≤
        (network sampleDeployment packedHash peerAddress oneVoter).verifier.getEligibleCount 1 := by
  refine votes_within_electorate sampleDeployment packedHash peerAddress oneVoter ?_ 1
  have known : (registryJournal sampleDeployment packedHash peerAddress oneVoter).all (fun entry =>
      entry.before.snapshotVerifier.all (· == verifier)) = true := by decide +kernel
  intro entry member other asked
  have checked := List.all_eq_true.mp known entry member
  rw [asked] at checked
  exact beq_iff_eq.mp checked

example : ((network sampleDeployment packedHash peerAddress oneVoter).registry.proposals.get 1).map
    (fun p => p.votesFor) = some 1 := by decide +kernel

end Sample
end Tonbankcard.Electorate
