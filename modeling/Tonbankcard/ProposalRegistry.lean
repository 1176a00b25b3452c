import Tonbankcard.TonContract

/-! The ProposalRegistry contract: proposals, votes behind two callbacks, the in-flight
requests that wait for them, and the multi-signature configuration of the two peers that
answer. Code hashes and address derivation are parameters. -/
namespace Tonbankcard.ProposalRegistry

open Ton

def categoryRoadmapSignal : Int := 0
def categoryEcosystemGrantSignal : Int := 5

inductive Status where
  | active
  | accepted
  | rejected
  | noQuorum
  deriving DecidableEq, Repr

def voteFor : Int := 0
def voteAgainst : Int := 1
def voteAbstain : Int := 2

def requestKindVote : Int := 0
def requestKindProposal : Int := 1

def configKindResolver : Int := 0
def configKindVerifier : Int := 1

def minGovSigners : Int := 2
def maxGovSigners : Int := 7
def minGovThreshold : Int := 2
def configTimelockDelay : Int := 7 * 24 * 60 * 60

def defaultVotingDuration : Int := 604800
def minVotingDuration : Int := 3600
def maxVotingDuration : Int := 2592000
def pendingTtl : Int := 3600
def maxPendingTotal : Int := 64
def maxPendingPerClaimant : Int := 4

def diamondsTotalSupply : Int := 222
def defaultQuorumPercentage : Int := 10
def quorumPercentDenominator : Int := 100

/-- A tenth of the supply, rounded up. -/
def defaultQuorumThreshold : Int :=
  (diamondsTotalSupply * defaultQuorumPercentage + quorumPercentDenominator - 1) /
    quorumPercentDenominator

structure Proposal where
  id : Int
  metadataHash : Int
  authorNftId : Int
  category : Int
  votingStart : Int
  votingEnd : Int
  status : Status
  votesFor : Int
  votesAgainst : Int
  votesAbstain : Int
  quorumThreshold : Int
  deriving DecidableEq, Repr

/-- A vote waiting for the owner of its NFT or for the snapshot. -/
structure PendingVote where
  proposalId : Int
  nftId : Int
  vote : Int
  claimant : Address
  deriving DecidableEq, Repr

structure PendingProposal where
  metadataHash : Int
  authorNftId : Int
  category : Int
  votingDuration : Int
  quorumThreshold : Int
  claimant : Address
  deriving DecidableEq, Repr

/-- Fields are checked against their widths when a struct becomes a map value. -/
def Proposal.fields (p : Proposal) : List (Nat × Int) :=
  [(64,p.id),(256,p.metadataHash),(64,p.authorNftId),(8,p.category),(64,p.votingStart),
    (64,p.votingEnd),(64,p.votesFor),(64,p.votesAgainst),(64,p.votesAbstain),
    (64,p.quorumThreshold)]

def PendingVote.fields (v : PendingVote) : List (Nat × Int) :=
  [(64,v.proposalId),(64,v.nftId),(8,v.vote)]

def PendingProposal.fields (r : PendingProposal) : List (Nat × Int) :=
  [(256,r.metadataHash),(64,r.authorNftId),(8,r.category),(64,r.votingDuration),
    (64,r.quorumThreshold)]

/-- The messages with a receiver, and the two requests that come back when they bounce. -/
inductive Message where
  | configureGovernance (signers : FiniteMap Int Address) (signerCount threshold : Int)
  | proposeConfigChange (kind : Int) (target : Address) (codeHash : Int)
  | approveConfigChange (kind : Int) (target : Address)
  | executeConfigChange (kind : Int) (target : Address) (code data : Cell)
  | cancelConfigChange (kind : Int) (target : Address)
  | cleanupPending (queryId : Int)
  | bouncedResolveOwnership (queryId : Int)
  | bouncedEligibilityCheckRequest (queryId proposalId nftId : Int)
  | submitProposal (metadataHash authorNftId category votingDuration quorumThreshold : Int)
  | castVote (proposalId voterNftId vote : Int)
  | ownershipResolved (queryId nftId : Int) (owner : Address)
  | eligibilityCheckResponse (queryId proposalId nftId : Int) (eligible : Bool)
  | finalizeProposal (proposalId : Int)

inductive Body where
  | resolveOwnership (queryId nftId : Int) (claimant : Address) (requestKind : Int)
  | eligibilityCheckRequest (queryId proposalId nftId : Int)
  | proposalSubmitted (proposalId metadataHash authorNftId category votingStart votingEnd : Int)
  | voteCast (proposalId voteType : Int)
  | proposalFinalized (proposalId : Int) (status : Status)
      (votesFor votesAgainst votesAbstain : Int)
  | governanceConfigured (signerCount threshold : Int)
  | configChangeProposed (kind : Int) (target : Address) (codeHash : Int) (proposer : Address)
  | configChangeApproved (kind : Int) (target approver : Address) (approvals executableAt : Int)
  | configChangeExecuted (kind : Int) (target : Address)
  | configChangeCancelled (kind : Int) (target : Address)
  deriving DecidableEq, Repr

/-- The contract's `pending_*` fields and `claimant_pending`. -/
structure Pending where
  votes : FiniteMap Int PendingVote
  expiry : FiniteMap Int Int
  claimants : FiniteMap Int Address
  claimantPending : FiniteMap Address Int
  count : Int
  proposals : FiniteMap Int PendingProposal
  eligibilityVotes : FiniteMap Int PendingVote

/-- The contract's `governance_*` and `config_*` fields. -/
structure Governance where
  configured : Bool
  signers : FiniteMap Address Bool
  signerCount : Int
  threshold : Int
  configPending : Bool
  configKind : Int
  configTarget : Option Address
  configCodeHash : Int
  configApprovals : Int
  configExecutableAt : Int
  configApprovers : FiniteMap Address Bool

structure State where
  proposalCount : Int
  proposals : FiniteMap Int Proposal
  votesCast : FiniteMap Int Bool
  deployer : Address
  ownerResolver : Option Address
  snapshotVerifier : Option Address
  nextQueryId : Int
  pending : Pending
  governance : Governance

def init (deployer : Address) : State :=
  { proposalCount := 0
    proposals := ∅
    votesCast := ∅
    deployer
    ownerResolver := none
    snapshotVerifier := none
    nextQueryId := 0
    pending :=
      { votes := ∅
        expiry := ∅
        claimants := ∅
        claimantPending := ∅
        count := 0
        proposals := ∅
        eligibilityVotes := ∅ }
    governance :=
      { configured := false
        signers := ∅
        signerCount := 0
        threshold := 0
        configPending := false
        configKind := 0
        configTarget := none
        configCodeHash := 0
        configApprovals := 0
        configExecutableAt := 0
        configApprovers := ∅ } }

/-- Contract fields are checked against their widths when the receiver saves them. -/
def State.fields (self : State) : List (Nat × Int) :=
  [(64,self.proposalCount),(64,self.nextQueryId),(16,self.pending.count),
    (8,self.governance.signerCount),(8,self.governance.threshold),(8,self.governance.configKind),
    (256,self.governance.configCodeHash),(8,self.governance.configApprovals),
    (64,self.governance.configExecutableAt)]

/-- The composite key of `votes_cast`. -/
def voteKey (proposalId nftId : Int) : Int := proposalId * 1000 + nftId

namespace Pending

def reservePending (env : Context) (qid : Int) (claimant : Address) (self : Pending) :
    Result Pending := do
  let count := (self.claimantPending.get claimant).getD 0
  require (self.count < maxPendingTotal) "Pending capacity reached"
  require (count < maxPendingPerClaimant) "Claimant pending limit reached"
  pure {self with
    count := self.count + 1
    claimantPending := self.claimantPending.set claimant (count + 1)
    expiry := self.expiry.set qid (env.now + pendingTtl)
    claimants := self.claimants.set qid claimant}

def pendingIsFresh (env : Context) (qid : Int) (self : Pending) : Bool :=
  match self.expiry.get qid with
  | none => false
  | some expiry => decide (expiry > env.now)

def releasePending (qid : Int) (self : Pending) : Pending :=
  match self.claimants.get qid with
  | none => self
  | some claimant =>
    let count := (self.claimantPending.get claimant).getD 0
    {self with
      claimantPending :=
        if count ≤ 1 then self.claimantPending.del claimant
        else self.claimantPending.set claimant (count - 1)
      count := self.count - 1
      claimants := self.claimants.del qid
      expiry := self.expiry.del qid}

def delVote (qid : Int) (self : Pending) : Pending := {self with votes := self.votes.del qid}

def delProposal (qid : Int) (self : Pending) : Pending :=
  {self with proposals := self.proposals.del qid}

def delEligibilityVote (qid : Int) (self : Pending) : Pending :=
  {self with eligibilityVotes := self.eligibilityVotes.del qid}

def clearPending (qid : Int) (self : Pending) : Pending :=
  (((self.releasePending qid).delProposal qid).delVote qid).delEligibilityVote qid

end Pending

section Governance
variable (hash : Cell → Int) (contractAddress : Cell → Cell → Address) (env : Context)

def State.requireGovernanceSigner (self : State) : Result Unit := do
  require (self.governance.configured = true) "Governance not configured"
  require (self.governance.signers.get env.sender ≠ none) "Not a governance signer"

/-- What approval, execution and cancellation of a configuration change check first. -/
def State.requireConfigChange (kind : Int) (target : Address) (self : State) : Result Unit := do
  self.requireGovernanceSigner env
  require (self.governance.configPending = true) "No configuration change pending"
  require (kind = self.governance.configKind) "Configuration kind mismatch"
  require (self.governance.configTarget = some target) "Configuration target mismatch"

def Governance.clearPendingConfig (g : Governance) : Governance :=
  {g with
    configPending := false
    configKind := 0
    configTarget := none
    configCodeHash := 0
    configApprovals := 0
    configExecutableAt := 0
    configApprovers := ∅}

/-- One round of the loop over the signer entries. -/
def installSigner (entries : FiniteMap Int Address) (signers : FiniteMap Address Bool)
    (i : Nat) : Result (FiniteMap Address Bool) :=
  match entries.get i with
  | none => .error (.require "Missing signer entry")
  | some signer => do
    require (signer ≠ newAddress 0 0) "Zero signer address"
    require (signers.get signer = none) "Duplicate signer"
    pure (signers.set signer true)

def receiveConfigureGovernance (entries : FiniteMap Int Address) (signerCount threshold : Int)
    (self : State) : Result (State × List (Action Body)) := do
  require (env.sender = self.deployer) "Only deployer can configure governance"
  require (self.governance.configured = false) "Governance already configured"
  require (signerCount ≥ minGovSigners) "At least two signers required"
  require (signerCount ≤ maxGovSigners) "Too many signers"
  require (threshold ≥ minGovThreshold) "Threshold must be at least two"
  require (threshold ≤ signerCount) "Threshold exceeds signer count"
  let signers ← (List.range signerCount.toNat).foldlM (installSigner entries)
    self.governance.signers
  let governance := {self.governance with signers,signerCount,threshold,configured := true}
  pure ({self with governance},[.emit (.governanceConfigured signerCount threshold)])

def receiveProposeConfigChange (kind : Int) (target : Address) (codeHash : Int)
    (self : State) : Result (State × List (Action Body)) := do
  self.requireGovernanceSigner env
  require (self.governance.configPending = false) "A configuration change is already pending"
  require (kind = configKindResolver ∨ kind = configKindVerifier) "Invalid configuration kind"
  require (codeHash ≠ 0) "Code hash required"
  let governance := {self.governance with
    configPending := true
    configKind := kind
    configTarget := some target
    configCodeHash := codeHash
    configExecutableAt := 0
    configApprovers := (∅ : FiniteMap Address Bool).set env.sender true
    configApprovals := 1}
  pure ({self with governance},[.emit (.configChangeProposed kind target codeHash env.sender)])

def receiveApproveConfigChange (kind : Int) (target : Address) (self : State) :
    Result (State × List (Action Body)) := do
  self.requireConfigChange env kind target
  require (self.governance.configApprovers.get env.sender = none) "Signer already approved"
  let approvals := self.governance.configApprovals + 1
  let executableAt :=
    if approvals ≥ self.governance.threshold ∧ self.governance.configExecutableAt = 0 then
      env.now + configTimelockDelay
    else self.governance.configExecutableAt
  let governance := {self.governance with
    configApprovers := self.governance.configApprovers.set env.sender true
    configApprovals := approvals
    configExecutableAt := executableAt}
  pure ({self with governance},
    [.emit (.configChangeApproved self.governance.configKind target env.sender approvals
      executableAt)])

def receiveExecuteConfigChange (kind : Int) (target : Address) (code data : Cell)
    (self : State) : Result (State × List (Action Body)) := do
  self.requireConfigChange env kind target
  require (self.governance.configApprovals ≥ self.governance.threshold) "Not enough approvals"
  require (self.governance.configExecutableAt ≠ 0 ∧
    env.now ≥ self.governance.configExecutableAt) "Timelock has not elapsed"
  require (hash code = self.governance.configCodeHash) "Resolver code hash mismatch"
  require (contractAddress code data = target) "Target address does not match code"
  let appliedKind := self.governance.configKind
  let governance := self.governance.clearPendingConfig
  let events := [.emit (.configChangeExecuted appliedKind target)]
  if appliedKind = configKindResolver then
    pure ({self with ownerResolver := self.governance.configTarget,governance},events)
  else
    pure ({self with snapshotVerifier := self.governance.configTarget,governance},events)

def receiveCancelConfigChange (kind : Int) (target : Address) (self : State) :
    Result (State × List (Action Body)) := do
  self.requireConfigChange env kind target
  pure ({self with governance := self.governance.clearPendingConfig},
    [.emit (.configChangeCancelled self.governance.configKind target)])

end Governance

section Voting
variable (env : Context)

def State.requireResolver (self : State) : Result Address :=
  match self.ownerResolver with
  | none => .error (.require "Owner resolver not configured")
  | some resolver => pure resolver

def State.requireSnapshotVerifier (self : State) : Result Address :=
  match self.snapshotVerifier with
  | none => .error (.require "Snapshot verifier not configured")
  | some verifier => pure verifier

def resolveOwnership (resolver : Address) (queryId nftId : Int) (claimant : Address)
    (requestKind : Int) : Action Body :=
  .send {
    destination := resolver
    value := 0
    mode := sendRemainingValue
    body := .resolveOwnership queryId nftId claimant requestKind }

def eligibilityCheckRequest (verifier : Address) (queryId proposalId nftId : Int) :
    Action Body :=
  .send {
    destination := verifier
    value := 0
    mode := sendRemainingValue
    body := .eligibilityCheckRequest queryId proposalId nftId }

/-- A vote can still be counted: the proposal is active and inside its window. -/
def Proposal.votable (p : Proposal) : Bool :=
  decide (p.status = .active ∧ p.votingStart ≤ env.now ∧ env.now ≤ p.votingEnd)

def receiveCleanupPending (queryId : Int) (self : State) :
    Result (State × List (Action Body)) := do
  require (self.pending.pendingIsFresh env queryId = false) "Pending request has not expired"
  pure ({self with pending := self.pending.clearPending queryId},[])

def resolvedVotingDuration (votingDuration : Int) : Int :=
  if votingDuration > 0 then votingDuration else defaultVotingDuration

def resolvedQuorum (quorumThreshold : Int) : Int :=
  if quorumThreshold > 0 then quorumThreshold else defaultQuorumThreshold

def receiveSubmitProposal (metadataHash authorNftId category votingDuration
    quorumThreshold : Int) (self : State) : Result (State × List (Action Body)) := do
  require (category ≥ categoryRoadmapSignal ∧ category ≤ categoryEcosystemGrantSignal)
    "Invalid category"
  require (authorNftId ≥ 1 ∧ authorNftId ≤ diamondsTotalSupply) "Invalid Diamond NFT ID"
  let votingDuration := resolvedVotingDuration votingDuration
  let quorum := resolvedQuorum quorumThreshold
  require (quorum = defaultQuorumThreshold) "Quorum is fixed by protocol"
  require (votingDuration ≥ minVotingDuration ∧ votingDuration ≤ maxVotingDuration)
    "Invalid voting duration"
  require (quorum ≤ diamondsTotalSupply) "Quorum exceeds total supply"
  let resolver ← self.requireResolver
  let qid := self.nextQueryId
  let pending ← self.pending.reservePending env qid env.sender
  let request : PendingProposal :=
    ⟨metadataHash,authorNftId,category,votingDuration,quorum,env.sender⟩
  fitUints request.fields
  pure ({self with
      nextQueryId := qid + 1
      pending := {pending with proposals := pending.proposals.set qid request}},
    [resolveOwnership resolver qid authorNftId env.sender requestKindProposal])

def receiveCastVote (proposalId voterNftId vote : Int) (self : State) :
    Result (State × List (Action Body)) :=
  match self.proposals.get proposalId with
  | none => .error (.require "Proposal not found")
  | some p => do
    require (p.status = .active) "Proposal already finalized"
    require (env.now ≥ p.votingStart) "Voting not started"
    require (env.now ≤ p.votingEnd) "Voting ended"
    require (voterNftId ≥ 1 ∧ voterNftId ≤ diamondsTotalSupply) "Invalid Diamond NFT ID"
    require (vote = voteFor ∨ vote = voteAgainst ∨ vote = voteAbstain) "Invalid vote type"
    require (self.votesCast.get (voteKey proposalId voterNftId) = none) "Already voted"
    let _ ← self.requireSnapshotVerifier
    let resolver ← self.requireResolver
    let qid := self.nextQueryId
    let pending ← self.pending.reservePending env qid env.sender
    let request : PendingVote := ⟨proposalId,voterNftId,vote,env.sender⟩
    fitUints request.fields
    pure ({self with
        nextQueryId := qid + 1
        pending := {pending with votes := pending.votes.set qid request}},
      [resolveOwnership resolver qid voterNftId env.sender requestKindVote])

/-- A vote that can no longer be counted is dropped without a trace. -/
def requestVoteEligibility (v : PendingVote) (resolvedNftId : Int) (resolvedOwner : Address)
    (self : State) : Result (State × List (Action Body)) :=
  if resolvedNftId ≠ v.nftId ∨ resolvedOwner ≠ v.claimant then pure (self,[])
  else
    match self.proposals.get v.proposalId with
    | none => pure (self,[])
    | some p =>
      if !p.votable env then pure (self,[])
      else if self.votesCast.get (voteKey v.proposalId v.nftId) ≠ none then pure (self,[])
      else do
        let verifier ← self.requireSnapshotVerifier
        let qid := self.nextQueryId
        let pending ← self.pending.reservePending env qid v.claimant
        fitUints v.fields
        pure ({self with
            nextQueryId := qid + 1
            pending := {pending with eligibilityVotes := pending.eligibilityVotes.set qid v}},
          [eligibilityCheckRequest verifier qid v.proposalId v.nftId])

/-- One more vote; a type that is neither for nor against abstains. -/
def Proposal.record (p : Proposal) (vote : Int) : Proposal :=
  if vote = voteFor then {p with votesFor := p.votesFor + 1}
  else if vote = voteAgainst then {p with votesAgainst := p.votesAgainst + 1}
  else {p with votesAbstain := p.votesAbstain + 1}

def recordEligibleVote (v : PendingVote) (self : State) : Result (State × List (Action Body)) :=
  match self.proposals.get v.proposalId with
  | none => pure (self,[])
  | some p =>
    if !p.votable env then pure (self,[])
    else if self.votesCast.get (voteKey v.proposalId v.nftId) ≠ none then pure (self,[])
    else do
      let p := p.record v.vote
      fitUints p.fields
      pure ({self with
          votesCast := self.votesCast.set (voteKey v.proposalId v.nftId) true
          proposals := self.proposals.set v.proposalId p},
        [.emit (.voteCast v.proposalId v.vote)])

/-- The proposal a confirmed request becomes. -/
def PendingProposal.opened (r : PendingProposal) (id : Int) : Proposal :=
  { id
    metadataHash := r.metadataHash
    authorNftId := r.authorNftId
    category := r.category
    votingStart := env.now
    votingEnd := env.now + r.votingDuration
    status := .active
    votesFor := 0
    votesAgainst := 0
    votesAbstain := 0
    quorumThreshold := r.quorumThreshold }

def proposalSubmitted (p : Proposal) : Action Body :=
  .emit (.proposalSubmitted p.id p.metadataHash p.authorNftId p.category p.votingStart
    p.votingEnd)

def finalizeProposal (r : PendingProposal) (resolvedNftId : Int) (resolvedOwner : Address)
    (self : State) : Result (State × List (Action Body)) :=
  if resolvedNftId ≠ r.authorNftId ∨ resolvedOwner ≠ r.claimant then pure (self,[])
  else do
    let proposalCount := self.proposalCount + 1
    let proposal := r.opened env proposalCount
    fitUints proposal.fields
    pure ({self with
        proposalCount
        proposals := self.proposals.set proposalCount proposal},
      [proposalSubmitted proposal])

def receiveOwnershipResolved (queryId nftId : Int) (owner : Address) (self : State) :
    Result (State × List (Action Body)) := do
  require (self.ownerResolver ≠ none) "Resolver not set"
  require (self.ownerResolver = some env.sender) "Unauthorized resolver"
  if !self.pending.pendingIsFresh env queryId then
    pure ({self with pending := self.pending.clearPending queryId},[])
  else
    match self.pending.votes.get queryId with
    | some v =>
      requestVoteEligibility env v nftId owner
        {self with pending := (self.pending.releasePending queryId).delVote queryId}
    | none =>
      match self.pending.proposals.get queryId with
      | some r =>
        finalizeProposal env r nftId owner
          {self with pending := (self.pending.releasePending queryId).delProposal queryId}
      | none => pure (self,[])

def receiveEligibilityCheckResponse (queryId proposalId nftId : Int) (eligible : Bool)
    (self : State) : Result (State × List (Action Body)) := do
  require (self.snapshotVerifier ≠ none) "Snapshot verifier not set"
  require (self.snapshotVerifier = some env.sender) "Unauthorized snapshot verifier"
  if !self.pending.pendingIsFresh env queryId then
    pure ({self with pending := self.pending.clearPending queryId},[])
  else
    match self.pending.eligibilityVotes.get queryId with
    | none => pure (self,[])
    | some v =>
      let self := {self with
        pending := (self.pending.releasePending queryId).delEligibilityVote queryId}
      if proposalId ≠ v.proposalId ∨ nftId ≠ v.nftId ∨ eligible = false then pure (self,[])
      else recordEligibleVote env v self

/-- The outcome of a closed vote. -/
def Proposal.outcome (p : Proposal) : Status :=
  if p.votesFor + p.votesAgainst + p.votesAbstain ≥ p.quorumThreshold then
    if p.votesFor > p.votesAgainst then .accepted else .rejected
  else .noQuorum

def receiveFinalizeProposal (proposalId : Int) (self : State) :
    Result (State × List (Action Body)) :=
  match self.proposals.get proposalId with
  | none => .error (.require "Proposal not found")
  | some p => do
    require (p.status = .active) "Proposal already finalized"
    require (env.now > p.votingEnd) "Voting not ended"
    let finalized := {p with status := p.outcome}
    fitUints finalized.fields
    pure ({self with proposals := self.proposals.set proposalId finalized},
      [.emit (.proposalFinalized proposalId p.outcome p.votesFor p.votesAgainst
        p.votesAbstain)])

end Voting

section Receive
variable (hash : Cell → Int) (contractAddress : Cell → Cell → Address)

def handle : Receiver State Message Body := fun env msg self =>
  match msg with
  | .configureGovernance signers signerCount threshold =>
    receiveConfigureGovernance env signers signerCount threshold self
  | .proposeConfigChange kind target codeHash =>
    receiveProposeConfigChange env kind target codeHash self
  | .approveConfigChange kind target => receiveApproveConfigChange env kind target self
  | .executeConfigChange kind target code data =>
    receiveExecuteConfigChange hash contractAddress env kind target code data self
  | .cancelConfigChange kind target => receiveCancelConfigChange env kind target self
  | .cleanupPending queryId => receiveCleanupPending env queryId self
  | .bouncedResolveOwnership queryId | .bouncedEligibilityCheckRequest queryId _ _ =>
    pure ({self with pending := self.pending.clearPending queryId},[])
  | .submitProposal metadataHash authorNftId category votingDuration quorumThreshold =>
    receiveSubmitProposal env metadataHash authorNftId category votingDuration quorumThreshold
      self
  | .castVote proposalId voterNftId vote => receiveCastVote env proposalId voterNftId vote self
  | .ownershipResolved queryId nftId owner =>
    receiveOwnershipResolved env queryId nftId owner self
  | .eligibilityCheckResponse queryId proposalId nftId eligible =>
    receiveEligibilityCheckResponse env queryId proposalId nftId eligible self
  | .finalizeProposal proposalId => receiveFinalizeProposal env proposalId self

/-- A receiver that returns saves the contract's fields. -/
def receive : Receiver State Message Body := fun env msg self => do
  let result ← handle hash contractAddress env msg self
  fitUints result.1.fields
  pure result

end Receive

namespace Pending

/-- What a reservation leaves behind: the query has an expiry and a claimant. -/
structure Reserved (env : Context) (qid : Int) (claimant : Address) (before after : Pending) :
    Prop where
  votes : after.votes = before.votes
  proposals : after.proposals = before.proposals
  eligibilityVotes : after.eligibilityVotes = before.eligibilityVotes
  expiry : after.expiry = before.expiry.set qid (env.now + pendingTtl)
  claimants : after.claimants = before.claimants.set qid claimant

theorem reservePending_ok {env : Context} {self next : Pending}
    (reserved : self.reservePending env qid claimant = .ok next) :
    Reserved env qid claimant self next := by
  simp only [reservePending,require_bind_ok,pure_ok] at reserved
  obtain ⟨-,-,rfl⟩ := reserved
  exact ⟨rfl,rfl,rfl,rfl,rfl⟩

/-- Every query that has not expired yet has a claimant to be released. -/
def Tracked (self : Pending) : Prop :=
  ∀ qid, self.expiry.get qid ≠ none → self.claimants.get qid ≠ none

/-- The later requests are among the earlier ones. -/
structure Within (later earlier : Pending) : Prop where
  votes : later.votes.Within earlier.votes
  proposals : later.proposals.Within earlier.proposals
  eligibilityVotes : later.eligibilityVotes.Within earlier.eligibilityVotes
  expiry : later.expiry.Within earlier.expiry
  tracked : earlier.Tracked → later.Tracked

theorem Within.refl (self : Pending) : self.Within self :=
  ⟨.refl _,.refl _,.refl _,.refl _,id⟩

/-- A tracked query has no expiry once it is released. -/
theorem releasePending_expiry (self : Pending) (qid : Int) (tracked : self.Tracked) :
    (self.releasePending qid).expiry.get qid = none := by
  unfold releasePending
  split
  next unclaimed =>
    by_contra bound
    exact tracked qid bound unclaimed
  next claimant claimed => exact FiniteMap.get_del_same ..

theorem releasePending_within (self : Pending) (qid : Int) :
    (self.releasePending qid).Within self := by
  unfold releasePending
  split
  next unclaimed => exact .refl self
  next claimant claimed =>
    refine ⟨.refl _,.refl _,.refl _,FiniteMap.del_within _ _,?_⟩
    intro tracked other bound
    simp only [FiniteMap.get_del] at bound ⊢
    split
    next same => simp [same] at bound
    next different => simpa [different] using tracked other (by simpa [different] using bound)

variable {later earlier : Pending}

theorem Within.delVote (within : later.Within earlier) (qid : Int) :
    (later.delVote qid).Within earlier :=
  {within with votes := fun key value bound =>
    within.votes key value (FiniteMap.del_within _ qid key value bound)}

theorem Within.delProposal (within : later.Within earlier) (qid : Int) :
    (later.delProposal qid).Within earlier :=
  {within with proposals := fun key value bound =>
    within.proposals key value (FiniteMap.del_within _ qid key value bound)}

theorem Within.delEligibilityVote (within : later.Within earlier) (qid : Int) :
    (later.delEligibilityVote qid).Within earlier :=
  {within with eligibilityVotes := fun key value bound =>
    within.eligibilityVotes key value (FiniteMap.del_within _ qid key value bound)}

theorem clearPending_within (self : Pending) (qid : Int) :
    (self.clearPending qid).Within self :=
  (((releasePending_within self qid).delProposal qid).delVote qid).delEligibilityVote qid

/-- A fresh query has an expiry that lies ahead. -/
theorem pendingIsFresh_iff {env : Context} {self : Pending} :
    self.pendingIsFresh env qid = true ↔
      ∃ expiry, self.expiry.get qid = some expiry ∧ env.now < expiry := by
  unfold pendingIsFresh
  split
  next unbound => simp [unbound]
  next expiry bound => simp [bound]

end Pending

/-- The query a callback replies to. -/
def Message.repliesTo : Message → Option Int
  | .ownershipResolved queryId _ _ => some queryId
  | .eligibilityCheckResponse queryId _ _ _ => some queryId
  | _ => none

/-- The events of recorded votes and proposals. -/
def Body.records : Body → Bool
  | .voteCast _ _ => true
  | .proposalSubmitted _ _ _ _ _ _ => true
  | _ => false

/-- What a delivered message does. Configuration messages are kept together, and so is
every message that at most drops requests: clean-ups, bounces and replies without effect. -/
inductive Effect (env : Context) (self : State) :
    Message → State → List (Action Body) → Prop where
  | configured (unprompted : msg.repliesTo = none) (event : body.records = false) :
      Effect env self msg {self with ownerResolver,snapshotVerifier,governance} [.emit body]
  | dropped (within : pending.Within self.pending) : Effect env self msg {self with pending} []
  | submitted (resolver : self.ownerResolver = some peer)
      (reserved : self.pending.Reserved env self.nextQueryId env.sender pending) :
      Effect env self
        (.submitProposal metadataHash authorNftId category votingDuration quorumThreshold)
        {self with
          nextQueryId := self.nextQueryId + 1
          pending := {pending with
            proposals := pending.proposals.set self.nextQueryId
              ⟨metadataHash,authorNftId,category,resolvedVotingDuration votingDuration,
                resolvedQuorum quorumThreshold,env.sender⟩}}
        [resolveOwnership peer self.nextQueryId authorNftId env.sender requestKindProposal]
  | cast (stored : self.proposals.get proposalId = some p) (votable : p.votable env = true)
      (diamond : 1 ≤ voterNftId ∧ voterNftId ≤ diamondsTotalSupply)
      (voteType : vote = voteFor ∨ vote = voteAgainst ∨ vote = voteAbstain)
      (resolver : self.ownerResolver = some peer)
      (reserved : self.pending.Reserved env self.nextQueryId env.sender pending) :
      Effect env self (.castVote proposalId voterNftId vote)
        {self with
          nextQueryId := self.nextQueryId + 1
          pending := {pending with
            votes := pending.votes.set self.nextQueryId ⟨proposalId,voterNftId,vote,env.sender⟩}}
        [resolveOwnership peer self.nextQueryId voterNftId env.sender requestKindVote]
  | requested (resolver : self.ownerResolver = some env.sender)
      (fresh : self.pending.pendingIsFresh env queryId = true)
      (held : self.pending.votes.get queryId = some v)
      (verifier : self.snapshotVerifier = some peer)
      (reserved : ((self.pending.releasePending queryId).delVote queryId).Reserved env
        self.nextQueryId v.claimant pending) :
      Effect env self (.ownershipResolved queryId v.nftId v.claimant)
        {self with
          nextQueryId := self.nextQueryId + 1
          pending := {pending with
            eligibilityVotes := pending.eligibilityVotes.set self.nextQueryId v}}
        [eligibilityCheckRequest peer self.nextQueryId v.proposalId v.nftId]
  | opened (resolver : self.ownerResolver = some env.sender)
      (fresh : self.pending.pendingIsFresh env queryId = true)
      (held : self.pending.proposals.get queryId = some r) :
      Effect env self (.ownershipResolved queryId r.authorNftId r.claimant)
        {self with
          proposalCount := self.proposalCount + 1
          proposals := self.proposals.set (self.proposalCount + 1)
            (r.opened env (self.proposalCount + 1))
          pending := (self.pending.releasePending queryId).delProposal queryId}
        [proposalSubmitted (r.opened env (self.proposalCount + 1))]
  | counted (verifier : self.snapshotVerifier = some env.sender)
      (fresh : self.pending.pendingIsFresh env queryId = true)
      (held : self.pending.eligibilityVotes.get queryId = some v)
      (stored : self.proposals.get v.proposalId = some p) (votable : p.votable env = true)
      (uncounted : self.votesCast.get (voteKey v.proposalId v.nftId) = none) :
      Effect env self (.eligibilityCheckResponse queryId v.proposalId v.nftId true)
        {self with
          votesCast := self.votesCast.set (voteKey v.proposalId v.nftId) true
          proposals := self.proposals.set v.proposalId (p.record v.vote)
          pending := (self.pending.releasePending queryId).delEligibilityVote queryId}
        [.emit (.voteCast v.proposalId v.vote)]
  | finalized (stored : self.proposals.get proposalId = some p) (active : p.status = .active)
      (closed : p.votingEnd < env.now) :
      Effect env self (.finalizeProposal proposalId)
        {self with proposals := self.proposals.set proposalId {p with status := p.outcome}}
        [.emit (.proposalFinalized proposalId p.outcome p.votesFor p.votesAgainst
          p.votesAbstain)]

theorem requireResolver_ok {self : State} :
    self.requireResolver = .ok resolver ↔ self.ownerResolver = some resolver := by
  unfold State.requireResolver
  split
  next unset => simp [unset]
  next peer installed => simp [installed]

theorem requireSnapshotVerifier_ok {self : State} :
    self.requireSnapshotVerifier = .ok verifier ↔ self.snapshotVerifier = some verifier := by
  unfold State.requireSnapshotVerifier
  split
  next unset => simp [unset]
  next peer installed => simp [installed]

section Inversion
variable {env : Context} {self next : State}

theorem ownershipResolved_effect
    (accepted : receiveOwnershipResolved env queryId nftId owner self = .ok (next,actions)) :
    Effect env self (.ownershipResolved queryId nftId owner) next actions := by
  simp only [receiveOwnershipResolved,require_bind_ok] at accepted
  obtain ⟨-,resolver,accepted⟩ := accepted
  have released := self.pending.releasePending_within queryId
  split at accepted
  · cases accepted
    exact .dropped (self.pending.clearPending_within queryId)
  rename_i fresh
  split at accepted
  · rename_i v held
    simp only [requestVoteEligibility] at accepted
    split at accepted
    · cases accepted
      exact .dropped (released.delVote queryId)
    rename_i confirmed
    split at accepted
    · cases accepted
      exact .dropped (released.delVote queryId)
    split at accepted
    · cases accepted
      exact .dropped (released.delVote queryId)
    split at accepted
    · cases accepted
      exact .dropped (released.delVote queryId)
    simp only [bind_ok,pure_ok,Prod.mk.injEq] at accepted
    obtain ⟨peer,verifier,pending,reserved,-,-,rfl,rfl⟩ := accepted
    obtain ⟨rfl,rfl⟩ : nftId = v.nftId ∧ owner = v.claimant := by simpa using confirmed
    exact .requested resolver (by simpa using fresh) held (requireSnapshotVerifier_ok.mp verifier)
      (Pending.reservePending_ok reserved)
  split at accepted
  · rename_i r held
    simp only [finalizeProposal] at accepted
    split at accepted
    · cases accepted
      exact .dropped (released.delProposal queryId)
    rename_i confirmed
    simp only [unit_bind_ok,pure_ok,Prod.mk.injEq] at accepted
    obtain ⟨-,rfl,rfl⟩ := accepted
    obtain ⟨rfl,rfl⟩ : nftId = r.authorNftId ∧ owner = r.claimant := by simpa using confirmed
    exact .opened resolver (by simpa using fresh) held
  · cases accepted
    exact .dropped (.refl self.pending)

theorem eligibilityCheckResponse_effect
    (accepted : receiveEligibilityCheckResponse env queryId proposalId nftId eligible self =
      .ok (next,actions)) :
    Effect env self (.eligibilityCheckResponse queryId proposalId nftId eligible) next
      actions := by
  simp only [receiveEligibilityCheckResponse,require_bind_ok] at accepted
  obtain ⟨-,verifier,accepted⟩ := accepted
  have released := (self.pending.releasePending_within queryId).delEligibilityVote queryId
  split at accepted
  · cases accepted
    exact .dropped (self.pending.clearPending_within queryId)
  rename_i fresh
  split at accepted
  · cases accepted
    exact .dropped (.refl self.pending)
  rename_i v held
  split at accepted
  · cases accepted
    exact .dropped released
  rename_i confirmed
  simp only [recordEligibleVote] at accepted
  split at accepted
  · cases accepted
    exact .dropped released
  rename_i p stored
  split at accepted
  · cases accepted
    exact .dropped released
  rename_i votable
  split at accepted
  · cases accepted
    exact .dropped released
  rename_i uncounted
  simp only [unit_bind_ok,pure_ok,Prod.mk.injEq] at accepted
  obtain ⟨-,rfl,rfl⟩ := accepted
  obtain ⟨rfl,rfl,rfl⟩ : proposalId = v.proposalId ∧ nftId = v.nftId ∧ eligible = true := by
    simpa using confirmed
  exact .counted verifier (by simpa using fresh) held stored (by simpa using votable)
    (not_not.mp uncounted)

theorem castVote_effect
    (accepted : receiveCastVote env proposalId voterNftId vote self = .ok (next,actions)) :
    Effect env self (.castVote proposalId voterNftId vote) next actions := by
  unfold receiveCastVote at accepted
  split at accepted
  · contradiction
  rename_i p stored
  simp only [require_bind_ok] at accepted
  obtain ⟨active,started,unclosed,diamond,voteType,-,accepted⟩ := accepted
  simp only [bind_ok,pure_ok,Prod.mk.injEq] at accepted
  obtain ⟨-,-,peer,resolver,pending,reserved,-,-,rfl,rfl⟩ := accepted
  exact .cast stored (decide_eq_true ⟨active,started,unclosed⟩) diamond voteType
    (requireResolver_ok.mp resolver) (Pending.reservePending_ok reserved)

theorem submitProposal_effect
    (accepted : receiveSubmitProposal env metadataHash authorNftId category votingDuration
      quorumThreshold self = .ok (next,actions)) :
    Effect env self
      (.submitProposal metadataHash authorNftId category votingDuration quorumThreshold) next
      actions := by
  simp only [receiveSubmitProposal,require_bind_ok] at accepted
  obtain ⟨-,-,-,-,-,accepted⟩ := accepted
  simp only [bind_ok,pure_ok,Prod.mk.injEq] at accepted
  obtain ⟨peer,resolver,pending,reserved,-,-,rfl,rfl⟩ := accepted
  exact .submitted (requireResolver_ok.mp resolver) (Pending.reservePending_ok reserved)

/-- The one inversion of the receivers. -/
theorem receive_effect {hash : Cell → Int}
    (accepted : receive hash contractAddress env msg self = .ok (next,actions)) :
    Effect env self msg next actions := by
  simp only [receive,bind_ok,pure_ok] at accepted
  obtain ⟨result,accepted,-,-,rfl⟩ := accepted
  cases msg with
  | configureGovernance signers signerCount threshold =>
    simp only [handle,receiveConfigureGovernance,require_bind_ok] at accepted
    obtain ⟨-,-,-,-,-,-,installed⟩ := accepted
    simp only [bind_ok,pure_ok,Prod.mk.injEq] at installed
    obtain ⟨installedSigners,-,rfl,rfl⟩ := installed
    exact .configured rfl rfl
  | proposeConfigChange kind target codeHash =>
    simp only [handle,receiveProposeConfigChange,unit_bind_ok,pure_ok,Prod.mk.injEq] at accepted
    obtain ⟨-,-,-,-,rfl,rfl⟩ := accepted
    exact .configured rfl rfl
  | approveConfigChange kind target =>
    simp only [handle,receiveApproveConfigChange,unit_bind_ok,pure_ok,Prod.mk.injEq] at accepted
    obtain ⟨-,-,rfl,rfl⟩ := accepted
    exact .configured rfl rfl
  | executeConfigChange kind target code data =>
    simp only [handle,receiveExecuteConfigChange,unit_bind_ok] at accepted
    obtain ⟨-,-,-,-,-,applied⟩ := accepted
    split at applied
    all_goals
      simp only [pure_ok,Prod.mk.injEq] at applied
      obtain ⟨rfl,rfl⟩ := applied
      exact .configured rfl rfl
  | cancelConfigChange kind target =>
    simp only [handle,receiveCancelConfigChange,unit_bind_ok,pure_ok,Prod.mk.injEq] at accepted
    obtain ⟨-,rfl,rfl⟩ := accepted
    exact .configured rfl rfl
  | cleanupPending queryId =>
    simp only [handle,receiveCleanupPending,require_bind_ok,pure_ok,Prod.mk.injEq] at accepted
    obtain ⟨-,rfl,rfl⟩ := accepted
    exact .dropped (self.pending.clearPending_within queryId)
  | bouncedResolveOwnership queryId =>
    simp only [handle,pure_ok,Prod.mk.injEq] at accepted
    obtain ⟨rfl,rfl⟩ := accepted
    exact .dropped (self.pending.clearPending_within queryId)
  | bouncedEligibilityCheckRequest queryId proposalId nftId =>
    simp only [handle,pure_ok,Prod.mk.injEq] at accepted
    obtain ⟨rfl,rfl⟩ := accepted
    exact .dropped (self.pending.clearPending_within queryId)
  | submitProposal metadataHash authorNftId category votingDuration quorumThreshold =>
    exact submitProposal_effect accepted
  | castVote proposalId voterNftId vote => exact castVote_effect accepted
  | ownershipResolved queryId nftId owner => exact ownershipResolved_effect accepted
  | eligibilityCheckResponse queryId proposalId nftId eligible =>
    exact eligibilityCheckResponse_effect accepted
  | finalizeProposal proposalId =>
    simp only [handle,receiveFinalizeProposal] at accepted
    split at accepted
    · contradiction
    rename_i p stored
    simp only [require_bind_ok] at accepted
    obtain ⟨active,closed,accepted⟩ := accepted
    simp only [unit_bind_ok,pure_ok,Prod.mk.injEq] at accepted
    obtain ⟨-,rfl,rfl⟩ := accepted
    exact .finalized stored active closed

end Inversion

end Tonbankcard.ProposalRegistry
