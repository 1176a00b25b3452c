import Tonbankcard.TonContract

/-! The TransparencyRegistry contract: proposal records with their counters, snapshots and monthly
checksums, each written by the one contract the deployer has configured for it. -/
namespace Tonbankcard.TransparencyRegistry

open Ton

def outcomePending : Int := 0
def outcomeAccepted : Int := 1
def outcomeRejected : Int := 2
def outcomeNoQuorum : Int := 3

def categoryRoadmapSignal : Int := 0
def categoryEcosystemGrantSignal : Int := 5

def writerRoleProposalRegistry : Int := 0
def writerRoleSnapshotVerifier : Int := 1
def writerRoleReportWriter : Int := 2

def isValidOutcome (outcome : Int) : Prop :=
  outcomePending ≤ outcome ∧ outcome ≤ outcomeNoQuorum

def isValidCategory (category : Int) : Prop :=
  categoryRoadmapSignal ≤ category ∧ category ≤ categoryEcosystemGrantSignal

instance (outcome : Int) : Decidable (isValidOutcome outcome) := instDecidableAnd
instance (category : Int) : Decidable (isValidCategory category) := instDecidableAnd

structure ProposalSummary where
  proposalId : Int
  proposalHash : Int
  category : Int
  votingWindowStart : Int
  votingWindowEnd : Int
  outcome : Int
  deriving DecidableEq, Repr

structure VotingSummary where
  proposalId : Int
  totalVotesCast : Int
  quorumThreshold : Int
  quorumMet : Bool
  passed : Bool
  deriving DecidableEq, Repr

structure GovernanceStats where
  totalProposals : Int
  proposalsAccepted : Int
  proposalsRejected : Int
  proposalsNoQuorum : Int
  proposalsPending : Int
  deriving DecidableEq, Repr

structure ProtocolMetricsCheckpoint where
  periodStart : Int
  periodEnd : Int
  activeAccounts : Int
  tbcVolumeTransferred : Int
  transferCount : Int
  deriving DecidableEq, Repr

structure LockActivityCheckpoint where
  periodStart : Int
  periodEnd : Int
  locksSet : Int
  locksCleared : Int
  locksActive : Int
  appealsFiled : Int
  appealsOverturned : Int
  appealsUpheld : Int
  deriving DecidableEq, Repr

structure ParameterChangeSummary where
  totalParameterChanges : Int
  latestEffectiveBlock : Int
  deriving DecidableEq, Repr

inductive Message where
  | setProposalRegistry (registry : Address)
  | setSnapshotVerifier (verifier : Address)
  | setReportWriter (writer : Address)
  | recordProposal (proposalId proposalHash category votingWindowStart votingWindowEnd : Int)
  | recordVotingResult (proposalId outcome totalVotes : Int)
  | recordSnapshot (blockHeight snapshotHash : Int)
  | recordProtocolMetrics (metrics : ProtocolMetricsCheckpoint)
  | recordLockActivity (activity : LockActivityCheckpoint)
  | recordParameterChange (parameterId proposalId oldValueHash newValueHash effectiveBlock : Int)
  deriving DecidableEq, Repr

def Message.writesArchive : Message → Bool
  | .recordProposal .. | .recordVotingResult .. => true
  | _ => false

inductive Body where
  | authorizedWriterUpdated (writerRole : Int) (writer : Address) (timestamp : Nat)
  | proposalRecorded (proposalId category : Int) (timestamp : Nat)
  | votingResultRecorded (proposalId outcome totalVotes : Int) (timestamp : Nat)
  | snapshotRecorded (blockHeight snapshotHash : Int) (timestamp : Nat)
  | protocolMetricsRecorded (metrics : ProtocolMetricsCheckpoint) (timestamp : Nat)
  | lockActivityRecorded (activity : LockActivityCheckpoint) (timestamp : Nat)
  | parameterChangeRecorded (parameterId proposalId oldValueHash newValueHash effectiveBlock : Int)
      (timestamp : Nat)
  deriving DecidableEq, Repr

/-- The contract's proposal data and its governance statistics. -/
structure Archive where
  proposalSummaries : FiniteMap Int ProposalSummary
  votingSummaries : FiniteMap Int VotingSummary
  categoryCounts : FiniteMap Int Int
  totalProposals : Int
  proposalsAccepted : Int
  proposalsRejected : Int
  proposalsNoQuorum : Int

structure State where
  archive : Archive
  latestSnapshotBlock : Int
  latestSnapshotHash : Int
  quorumThreshold : Int
  deployer : Address
  proposalRegistry : Option Address
  snapshotVerifier : Option Address
  reportWriter : Option Address
  latestMetrics : ProtocolMetricsCheckpoint
  latestLock : LockActivityCheckpoint
  parameterChanges : ParameterChangeSummary
  totalMetricPeriods : Int
  totalLockPeriods : Int

def init (deployer : Address) (quorumThreshold : Int) : State where
  archive := ⟨∅,∅,∅,0,0,0,0⟩
  latestSnapshotBlock := 0
  latestSnapshotHash := 0
  quorumThreshold
  deployer
  proposalRegistry := none
  snapshotVerifier := none
  reportWriter := none
  latestMetrics := ⟨0,0,0,0,0⟩
  latestLock := ⟨0,0,0,0,0,0,0,0⟩
  parameterChanges := ⟨0,0⟩
  totalMetricPeriods := 0
  totalLockPeriods := 0

namespace Archive
variable (a : Archive)

def getProposalsByCategory (category : Int) : Int := (a.categoryCounts.get category).getD 0

def getGovernanceStats : GovernanceStats where
  totalProposals := a.totalProposals
  proposalsAccepted := a.proposalsAccepted
  proposalsRejected := a.proposalsRejected
  proposalsNoQuorum := a.proposalsNoQuorum
  proposalsPending :=
    a.totalProposals - a.proposalsAccepted - a.proposalsRejected - a.proposalsNoQuorum

/-- A new proposal is written whatever its id held before. -/
def recordProposal (quorumThreshold : Int) (summary : ProposalSummary) : Result Archive := do
  let totalProposals ← fitUint 32 (a.totalProposals + 1)
  let currentCount ← int257 (a.getProposalsByCategory summary.category + 1)
  pure {a with
    proposalSummaries := a.proposalSummaries.set summary.proposalId summary
    votingSummaries :=
      a.votingSummaries.set summary.proposalId ⟨summary.proposalId,0,quorumThreshold,false,false⟩
    categoryCounts := a.categoryCounts.set summary.category currentCount
    totalProposals }

/-- The outcome counters only count up. -/
def countOutcome (outcome : Int) : Result Archive :=
  if outcome = outcomeAccepted then do
    let proposalsAccepted ← fitUint 32 (a.proposalsAccepted + 1)
    pure {a with proposalsAccepted}
  else if outcome = outcomeRejected then do
    let proposalsRejected ← fitUint 32 (a.proposalsRejected + 1)
    pure {a with proposalsRejected}
  else if outcome = outcomeNoQuorum then do
    let proposalsNoQuorum ← fitUint 32 (a.proposalsNoQuorum + 1)
    pure {a with proposalsNoQuorum}
  else pure a

def recordVotingResult (quorumThreshold : Int) (proposalId : Int) (summary : ProposalSummary)
    (outcome totalVotes : Int) : Result Archive :=
  countOutcome {a with
    proposalSummaries := a.proposalSummaries.set proposalId {summary with outcome}
    votingSummaries := a.votingSummaries.set proposalId
      ⟨proposalId,totalVotes,quorumThreshold,quorumThreshold ≤ totalVotes,
        outcome = outcomeAccepted⟩ } outcome

end Archive

/-- A slot that is not configured refuses everyone. -/
def requireWriter (notConfigured only : String) (writer : Option Address) (sender : Address) :
    Result Unit :=
  match writer with
  | none => .error (.require notConfigured)
  | some writer => require (sender = writer) only

section Receivers
variable (env : Context)

def State.requireProposalRegistryWriter (self : State) (sender : Address) : Result Unit :=
  requireWriter "Unauthorized: ProposalRegistry writer not configured"
    "Unauthorized: only ProposalRegistry" self.proposalRegistry sender

def State.requireSnapshotVerifierWriter (self : State) (sender : Address) : Result Unit :=
  requireWriter "Unauthorized: SnapshotVerifier writer not configured"
    "Unauthorized: only SnapshotVerifier" self.snapshotVerifier sender

def State.requireReportWriter (self : State) (sender : Address) : Result Unit :=
  requireWriter "Unauthorized: report writer not configured" "Unauthorized: only report writer"
    self.reportWriter sender

/-- The configuration receivers differ in the slot they write. -/
def configureWriter (writerRole : Int) (writer : Address) (self configured : State) :
    Result (State × List (Action Body)) := do
  require (env.sender = self.deployer) "Unauthorized: only deployer can configure writers"
  pure (configured,[.emit (.authorizedWriterUpdated writerRole writer env.now)])

def receiveSetProposalRegistry (registry : Address) (self : State) :
    Result (State × List (Action Body)) :=
  configureWriter env writerRoleProposalRegistry registry self
    {self with proposalRegistry := some registry}

def receiveSetSnapshotVerifier (verifier : Address) (self : State) :
    Result (State × List (Action Body)) :=
  configureWriter env writerRoleSnapshotVerifier verifier self
    {self with snapshotVerifier := some verifier}

def receiveSetReportWriter (writer : Address) (self : State) :
    Result (State × List (Action Body)) :=
  configureWriter env writerRoleReportWriter writer self {self with reportWriter := some writer}

def receiveRecordProposal
    (proposalId proposalHash category votingWindowStart votingWindowEnd : Int) (self : State) :
    Result (State × List (Action Body)) := do
  self.requireProposalRegistryWriter env.sender
  require (isValidCategory category) "Invalid category"
  let archive ← self.archive.recordProposal self.quorumThreshold
    ⟨proposalId,proposalHash,category,votingWindowStart,votingWindowEnd,outcomePending⟩
  pure ({self with archive},[.emit (.proposalRecorded proposalId category env.now)])

def receiveRecordVotingResult (proposalId outcome totalVotes : Int) (self : State) :
    Result (State × List (Action Body)) := do
  self.requireProposalRegistryWriter env.sender
  match self.archive.proposalSummaries.get proposalId with
  | none => .error (.require "Proposal not found")
  | some summary =>
    require (isValidOutcome outcome) "Invalid outcome"
    let archive ← self.archive.recordVotingResult self.quorumThreshold proposalId summary outcome
      totalVotes
    pure ({self with archive},
      [.emit (.votingResultRecorded proposalId outcome totalVotes env.now)])

def receiveRecordSnapshot (blockHeight snapshotHash : Int) (self : State) :
    Result (State × List (Action Body)) := do
  self.requireSnapshotVerifierWriter env.sender
  pure ({self with latestSnapshotBlock := blockHeight,latestSnapshotHash := snapshotHash},
    [.emit (.snapshotRecorded blockHeight snapshotHash env.now)])

def receiveRecordProtocolMetrics (metrics : ProtocolMetricsCheckpoint) (self : State) :
    Result (State × List (Action Body)) := do
  self.requireReportWriter env.sender
  require (metrics.periodStart < metrics.periodEnd) "Invalid metrics period"
  require (self.latestMetrics.periodEnd ≤ metrics.periodEnd) "Metrics period regression"
  let totalMetricPeriods ← fitUint 32 (self.totalMetricPeriods + 1)
  pure ({self with latestMetrics := metrics,totalMetricPeriods},
    [.emit (.protocolMetricsRecorded metrics env.now)])

def receiveRecordLockActivity (activity : LockActivityCheckpoint) (self : State) :
    Result (State × List (Action Body)) := do
  self.requireReportWriter env.sender
  require (activity.periodStart < activity.periodEnd) "Invalid lock period"
  require (self.latestLock.periodEnd ≤ activity.periodEnd) "Lock period regression"
  require (activity.appealsOverturned + activity.appealsUpheld ≤ activity.appealsFiled)
    "Appeals book-keeping mismatch"
  let totalLockPeriods ← fitUint 32 (self.totalLockPeriods + 1)
  pure ({self with latestLock := activity,totalLockPeriods},
    [.emit (.lockActivityRecorded activity env.now)])

def receiveRecordParameterChange
    (parameterId proposalId oldValueHash newValueHash effectiveBlock : Int) (self : State) :
    Result (State × List (Action Body)) := do
  self.requireReportWriter env.sender
  require (self.parameterChanges.latestEffectiveBlock ≤ effectiveBlock)
    "Parameter effective block regression"
  require (oldValueHash ≠ newValueHash) "Parameter change is a no-op"
  let totalParameterChanges ← fitUint 32 (self.parameterChanges.totalParameterChanges + 1)
  pure ({self with parameterChanges := ⟨totalParameterChanges,effectiveBlock⟩},
    [.emit (.parameterChangeRecorded parameterId proposalId oldValueHash newValueHash
      effectiveBlock env.now)])

end Receivers

def receive : Receiver State Message Body := fun env msg self =>
  match msg with
  | .setProposalRegistry registry => receiveSetProposalRegistry env registry self
  | .setSnapshotVerifier verifier => receiveSetSnapshotVerifier env verifier self
  | .setReportWriter writer => receiveSetReportWriter env writer self
  | .recordProposal proposalId proposalHash category votingWindowStart votingWindowEnd =>
    receiveRecordProposal env proposalId proposalHash category votingWindowStart votingWindowEnd
      self
  | .recordVotingResult proposalId outcome totalVotes =>
    receiveRecordVotingResult env proposalId outcome totalVotes self
  | .recordSnapshot blockHeight snapshotHash =>
    receiveRecordSnapshot env blockHeight snapshotHash self
  | .recordProtocolMetrics metrics => receiveRecordProtocolMetrics env metrics self
  | .recordLockActivity activity => receiveRecordLockActivity env activity self
  | .recordParameterChange parameterId proposalId oldValueHash newValueHash effectiveBlock =>
    receiveRecordParameterChange env parameterId proposalId oldValueHash newValueHash
      effectiveBlock self

/-- What an accepted message does to the archive; the other writers and the deployer do not reach
it. -/
inductive Effect (env : Context) (self : State) :
    Message → State → List (Action Body) → Prop where
  | proposal (writer : self.proposalRegistry = some env.sender) (valid : isValidCategory category)
      (recorded : self.archive.recordProposal self.quorumThreshold
        ⟨proposalId,proposalHash,category,votingWindowStart,votingWindowEnd,outcomePending⟩ =
          .ok archive) :
      Effect env self
        (.recordProposal proposalId proposalHash category votingWindowStart votingWindowEnd)
        {self with archive} [.emit (.proposalRecorded proposalId category env.now)]
  | result (writer : self.proposalRegistry = some env.sender)
      (stored : self.archive.proposalSummaries.get proposalId = some summary)
      (valid : isValidOutcome outcome)
      (recorded : self.archive.recordVotingResult self.quorumThreshold proposalId summary outcome
        totalVotes = .ok archive) :
      Effect env self (.recordVotingResult proposalId outcome totalVotes) {self with archive}
        [.emit (.votingResultRecorded proposalId outcome totalVotes env.now)]
  | elsewhere (apart : msg.writesArchive = false) (kept : next.archive = self.archive) :
      Effect env self msg next actions

section Inversion
variable {env : Context} {self next : State}

theorem requireWriter_bind_ok {only : String} {writer : Option Address} {sender : Address}
    {rest : Unit → Result α} :
    (requireWriter notConfigured only writer sender >>= rest) = .ok value ↔
      writer = some sender ∧ rest () = .ok value := by
  cases writer with
  | none => exact ⟨nofun,nofun⟩
  | some writer =>
    rw [requireWriter,require_bind_ok,Option.some_inj]
    exact and_congr_left' eq_comm

theorem configureWriter_effect {configured : State}
    (accepted : configureWriter env role writer self configured = .ok (next,actions))
    (apart : msg.writesArchive = false) (kept : configured.archive = self.archive) :
    Effect env self msg next actions := by
  obtain ⟨-,accepted⟩ := require_bind_ok.mp accepted
  obtain ⟨rfl,rfl⟩ := Prod.mk.inj (pure_ok.mp accepted)
  exact .elsewhere apart kept

theorem recordProposal_effect
    (accepted : receiveRecordProposal env proposalId proposalHash category votingWindowStart
      votingWindowEnd self = .ok (next,actions)) :
    Effect env self
      (.recordProposal proposalId proposalHash category votingWindowStart votingWindowEnd) next
      actions := by
  obtain ⟨writer,accepted⟩ := requireWriter_bind_ok.mp accepted
  obtain ⟨valid,accepted⟩ := require_bind_ok.mp accepted
  obtain ⟨archive,recorded,accepted⟩ := bind_ok.mp accepted
  obtain ⟨rfl,rfl⟩ := Prod.mk.inj (pure_ok.mp accepted)
  exact .proposal writer valid recorded

theorem recordVotingResult_effect
    (accepted : receiveRecordVotingResult env proposalId outcome totalVotes self =
      .ok (next,actions)) :
    Effect env self (.recordVotingResult proposalId outcome totalVotes) next actions := by
  obtain ⟨writer,accepted⟩ := requireWriter_bind_ok.mp accepted
  split at accepted
  next => contradiction
  next summary stored =>
    obtain ⟨valid,accepted⟩ := require_bind_ok.mp accepted
    obtain ⟨archive,recorded,accepted⟩ := bind_ok.mp accepted
    obtain ⟨rfl,rfl⟩ := Prod.mk.inj (pure_ok.mp accepted)
    exact .result writer stored valid recorded

/-- The one inversion of the receivers. -/
theorem receive_effect (accepted : receive env msg self = .ok (next,actions)) :
    Effect env self msg next actions := by
  cases msg with
  | setProposalRegistry registry => exact configureWriter_effect accepted rfl rfl
  | setSnapshotVerifier verifier => exact configureWriter_effect accepted rfl rfl
  | setReportWriter writer => exact configureWriter_effect accepted rfl rfl
  | recordProposal => exact recordProposal_effect accepted
  | recordVotingResult => exact recordVotingResult_effect accepted
  | recordSnapshot blockHeight snapshotHash =>
    obtain ⟨-,accepted⟩ := requireWriter_bind_ok.mp accepted
    obtain ⟨rfl,rfl⟩ := Prod.mk.inj (pure_ok.mp accepted)
    exact .elsewhere rfl rfl
  | recordProtocolMetrics metrics =>
    obtain ⟨-,accepted⟩ := requireWriter_bind_ok.mp accepted
    obtain ⟨-,accepted⟩ := require_bind_ok.mp accepted
    obtain ⟨-,accepted⟩ := require_bind_ok.mp accepted
    obtain ⟨_,-,accepted⟩ := bind_ok.mp accepted
    obtain ⟨rfl,rfl⟩ := Prod.mk.inj (pure_ok.mp accepted)
    exact .elsewhere rfl rfl
  | recordLockActivity activity =>
    obtain ⟨-,accepted⟩ := requireWriter_bind_ok.mp accepted
    obtain ⟨-,accepted⟩ := require_bind_ok.mp accepted
    obtain ⟨-,accepted⟩ := require_bind_ok.mp accepted
    obtain ⟨-,accepted⟩ := require_bind_ok.mp accepted
    obtain ⟨_,-,accepted⟩ := bind_ok.mp accepted
    obtain ⟨rfl,rfl⟩ := Prod.mk.inj (pure_ok.mp accepted)
    exact .elsewhere rfl rfl
  | recordParameterChange parameterId proposalId oldValueHash newValueHash effectiveBlock =>
    obtain ⟨-,accepted⟩ := requireWriter_bind_ok.mp accepted
    obtain ⟨-,accepted⟩ := require_bind_ok.mp accepted
    obtain ⟨-,accepted⟩ := require_bind_ok.mp accepted
    obtain ⟨_,-,accepted⟩ := bind_ok.mp accepted
    obtain ⟨rfl,rfl⟩ := Prod.mk.inj (pure_ok.mp accepted)
    exact .elsewhere rfl rfl

end Inversion

section Records
variable {a archive : Archive}

theorem recordProposal_ok
    (recorded : a.recordProposal quorumThreshold summary = .ok archive) :
    archive.proposalSummaries = a.proposalSummaries.set summary.proposalId summary ∧
      archive.categoryCounts =
        a.categoryCounts.set summary.category (a.getProposalsByCategory summary.category + 1) ∧
      archive.totalProposals = a.totalProposals + 1 ∧
      archive.proposalsAccepted = a.proposalsAccepted ∧
      archive.proposalsRejected = a.proposalsRejected ∧
      archive.proposalsNoQuorum = a.proposalsNoQuorum := by
  simp only [Archive.recordProposal,bind_ok,fitUint_ok,int257_ok,pure_ok] at recorded
  obtain ⟨_,⟨rfl,-,-⟩,_,⟨rfl,-,-⟩,rfl⟩ := recorded
  exact ⟨rfl,rfl,rfl,rfl,rfl,rfl⟩

theorem countOutcome_ok (counted : a.countOutcome outcome = .ok archive) :
    archive = {a with
      proposalsAccepted := a.proposalsAccepted + (decide (outcome = outcomeAccepted)).toNat
      proposalsRejected := a.proposalsRejected + (decide (outcome = outcomeRejected)).toNat
      proposalsNoQuorum := a.proposalsNoQuorum + (decide (outcome = outcomeNoQuorum)).toNat } := by
  unfold Archive.countOutcome at counted
  split at counted
  next accepted =>
    obtain ⟨_,fits,counted⟩ := bind_ok.mp counted
    obtain ⟨rfl,-,-⟩ := fitUint_ok.mp fits
    obtain rfl := pure_ok.mp counted
    simp [accepted,outcomeAccepted,outcomeRejected,outcomeNoQuorum]
  next notAccepted =>
    split at counted
    next rejected =>
      obtain ⟨_,fits,counted⟩ := bind_ok.mp counted
      obtain ⟨rfl,-,-⟩ := fitUint_ok.mp fits
      obtain rfl := pure_ok.mp counted
      simp [rejected,outcomeAccepted,outcomeRejected,outcomeNoQuorum]
    next notRejected =>
      split at counted
      next noQuorum =>
        obtain ⟨_,fits,counted⟩ := bind_ok.mp counted
        obtain ⟨rfl,-,-⟩ := fitUint_ok.mp fits
        obtain rfl := pure_ok.mp counted
        simp [noQuorum,outcomeAccepted,outcomeRejected,outcomeNoQuorum]
      next other =>
        obtain rfl := pure_ok.mp counted
        simp [notAccepted,notRejected,other]

theorem recordVotingResult_ok
    (recorded : a.recordVotingResult quorumThreshold proposalId summary outcome totalVotes =
      .ok archive) :
    archive.proposalSummaries = a.proposalSummaries.set proposalId {summary with outcome} ∧
      archive.categoryCounts = a.categoryCounts ∧ archive.totalProposals = a.totalProposals ∧
      archive.proposalsAccepted =
        a.proposalsAccepted + (decide (outcome = outcomeAccepted)).toNat ∧
      archive.proposalsRejected =
        a.proposalsRejected + (decide (outcome = outcomeRejected)).toNat ∧
      archive.proposalsNoQuorum =
        a.proposalsNoQuorum + (decide (outcome = outcomeNoQuorum)).toNat := by
  obtain rfl := countOutcome_ok recorded
  exact ⟨rfl,rfl,rfl,rfl,rfl,rfl⟩

end Records

abbrev Entry := Journal.Entry State (Delivery Message) (List (Action Body))

/-- A run of deliveries, newest first, and the journal of the accepted ones. -/
def run (initial : State) (deliveries : List (Delivery Message)) : State :=
  Journal.run (deliver receive) initial deliveries

def journal (initial : State) (deliveries : List (Delivery Message)) : List Entry :=
  Journal.journal (deliver receive) initial deliveries

end Tonbankcard.TransparencyRegistry
