import Mathlib.Data.List.Pairwise
import Tonbankcard.TransparencyRegistry

/-! The registry as its event log tells it. Every accepted message announces one event; the log with
the senders of the messages shows who may write what at any moment, the periods and effective blocks
that it lists are in order, and the storage keeps the last reports of it. -/
namespace Tonbankcard.TransparencyRegistry

open Ton

/-- An event with the sender of the message that announced it. -/
structure Record where
  sender : Address
  body : Body

/-- The events of a journal, newest first. -/
def records (entries : List Entry) : List Record :=
  entries.flatMap fun entry => entry.output.filterMap fun
    | .emit body => some ⟨entry.input.context.sender,body⟩
    | .send _ => none

def writerUpdate (writerRole : Int) (event : Record) : Option Address :=
  match event.body with
  | .authorizedWriterUpdated role writer _ => if role = writerRole then some writer else none
  | _ => none

def metricsReport (event : Record) : Option ProtocolMetricsCheckpoint :=
  match event.body with
  | .protocolMetricsRecorded metrics _ => some metrics
  | _ => none

def lockReport (event : Record) : Option LockActivityCheckpoint :=
  match event.body with
  | .lockActivityRecorded activity _ => some activity
  | _ => none

def effectiveBlock (event : Record) : Option Int :=
  match event.body with
  | .parameterChangeRecorded _ _ _ _ effectiveBlock _ => some effectiveBlock
  | _ => none

def snapshotReport (event : Record) : Option (Int × Int) :=
  match event.body with
  | .snapshotRecorded blockHeight snapshotHash _ => some (blockHeight,snapshotHash)
  | _ => none

section Log
variable (log : List Record)

/-- The writer that was named last for a role. -/
def writerOf (writerRole : Int) : Option Address := log.findSome? (writerUpdate writerRole)

def metricsReports : List ProtocolMetricsCheckpoint := log.filterMap metricsReport
def lockReports : List LockActivityCheckpoint := log.filterMap lockReport
def effectiveBlocks : List Int := log.filterMap effectiveBlock

def latestMetrics : ProtocolMetricsCheckpoint := (metricsReports log).head?.getD ⟨0,0,0,0,0⟩
def latestLock : LockActivityCheckpoint := (lockReports log).head?.getD ⟨0,0,0,0,0,0,0,0⟩
def latestEffectiveBlock : Int := (effectiveBlocks log).head?.getD 0
def latestSnapshot : Int × Int := (log.findSome? snapshotReport).getD (0,0)

end Log

/-- What an event shows about the message behind it, after the events before it. -/
def Admitted (deployer : Address) (past : List Record) (event : Record) : Prop :=
  match event.body with
  | .authorizedWriterUpdated .. => event.sender = deployer
  | .proposalRecorded _ category _ =>
    writerOf past writerRoleProposalRegistry = some event.sender ∧ isValidCategory category
  | .votingResultRecorded _ outcome _ _ =>
    writerOf past writerRoleProposalRegistry = some event.sender ∧ isValidOutcome outcome
  | .snapshotRecorded .. => writerOf past writerRoleSnapshotVerifier = some event.sender
  | .protocolMetricsRecorded metrics _ =>
    writerOf past writerRoleReportWriter = some event.sender ∧
      metrics.periodStart < metrics.periodEnd ∧
      (latestMetrics past).periodEnd ≤ metrics.periodEnd
  | .lockActivityRecorded activity _ =>
    writerOf past writerRoleReportWriter = some event.sender ∧
      activity.periodStart < activity.periodEnd ∧
      (latestLock past).periodEnd ≤ activity.periodEnd ∧
      activity.appealsOverturned + activity.appealsUpheld ≤ activity.appealsFiled
  | .parameterChangeRecorded _ _ oldValueHash newValueHash effectiveBlock _ =>
    writerOf past writerRoleReportWriter = some event.sender ∧
      latestEffectiveBlock past ≤ effectiveBlock ∧ oldValueHash ≠ newValueHash

/-- Each event of a log, newest first, is admitted after those before it. -/
inductive Lawful (deployer : Address) : List Record → Prop where
  | start : Lawful deployer []
  | event (past : Lawful deployer log) (admitted : Admitted deployer log recorded) :
    Lawful deployer (recorded :: log)

/-- What the storage knows of a log. -/
structure Reported (deployer : Address) (log : List Record) (s : State) : Prop where
  deployer : s.deployer = deployer
  proposalRegistry : s.proposalRegistry = writerOf log writerRoleProposalRegistry
  snapshotVerifier : s.snapshotVerifier = writerOf log writerRoleSnapshotVerifier
  reportWriter : s.reportWriter = writerOf log writerRoleReportWriter
  snapshot : (s.latestSnapshotBlock,s.latestSnapshotHash) = latestSnapshot log
  metrics : s.latestMetrics = latestMetrics log
  metricPeriods : s.totalMetricPeriods = (metricsReports log).length
  lock : s.latestLock = latestLock log
  lockPeriods : s.totalLockPeriods = (lockReports log).length
  parameterChanges : s.parameterChanges =
    ⟨(effectiveBlocks log).length,latestEffectiveBlock log⟩

section Step
variable {env : Context} {self next : State} {deployer : Address} {log : List Record}

/-- An accepted message announces one event, which the log before it admits and which keeps the
storage up with the log. -/
def Announces (deployer : Address) (log : List Record) (sender : Address) (next : State)
    (actions : List (Action Body)) : Prop :=
  ∃ body, actions = [.emit body] ∧ Admitted deployer log ⟨sender,body⟩ ∧
    Reported deployer (⟨sender,body⟩ :: log) next

theorem configureWriter_announces {writer : Address} (reported : Reported deployer log self)
    (accepted : configureWriter env role writer self configured = .ok (next,actions))
    (kept : Reported deployer (⟨env.sender,.authorizedWriterUpdated role writer env.now⟩ :: log)
      configured) : Announces deployer log env.sender next actions := by
  obtain ⟨authorized,accepted⟩ := require_bind_ok.mp accepted
  obtain ⟨rfl,rfl⟩ := Prod.mk.inj (pure_ok.mp accepted)
  exact ⟨_,rfl,authorized.trans reported.deployer,kept⟩

/-- The one inversion of the receivers, in terms of the log. -/
theorem receive_announces (reported : Reported deployer log self)
    (accepted : receive env msg self = .ok (next,actions)) :
    Announces deployer log env.sender next actions := by
  cases msg with
  | setProposalRegistry registry =>
    exact configureWriter_announces reported accepted {reported with proposalRegistry := rfl}
  | setSnapshotVerifier verifier =>
    exact configureWriter_announces reported accepted {reported with snapshotVerifier := rfl}
  | setReportWriter writer =>
    exact configureWriter_announces reported accepted {reported with reportWriter := rfl}
  | recordProposal =>
    obtain ⟨writer,accepted⟩ := requireWriter_bind_ok.mp accepted
    obtain ⟨valid,accepted⟩ := require_bind_ok.mp accepted
    obtain ⟨archive,-,accepted⟩ := bind_ok.mp accepted
    obtain ⟨rfl,rfl⟩ := Prod.mk.inj (pure_ok.mp accepted)
    exact ⟨_,rfl,⟨reported.proposalRegistry.symm.trans writer,valid⟩,{reported with}⟩
  | recordVotingResult =>
    obtain ⟨writer,accepted⟩ := requireWriter_bind_ok.mp accepted
    split at accepted
    next => contradiction
    next summary stored =>
      obtain ⟨valid,accepted⟩ := require_bind_ok.mp accepted
      obtain ⟨archive,-,accepted⟩ := bind_ok.mp accepted
      obtain ⟨rfl,rfl⟩ := Prod.mk.inj (pure_ok.mp accepted)
      exact ⟨_,rfl,⟨reported.proposalRegistry.symm.trans writer,valid⟩,{reported with}⟩
  | recordSnapshot blockHeight snapshotHash =>
    obtain ⟨writer,accepted⟩ := requireWriter_bind_ok.mp accepted
    obtain ⟨rfl,rfl⟩ := Prod.mk.inj (pure_ok.mp accepted)
    exact ⟨_,rfl,reported.snapshotVerifier.symm.trans writer,{reported with snapshot := rfl}⟩
  | recordProtocolMetrics metrics =>
    obtain ⟨writer,accepted⟩ := requireWriter_bind_ok.mp accepted
    obtain ⟨period,accepted⟩ := require_bind_ok.mp accepted
    obtain ⟨later,accepted⟩ := require_bind_ok.mp accepted
    obtain ⟨_,counted,accepted⟩ := bind_ok.mp accepted
    obtain ⟨rfl,-⟩ := fitUint_ok.mp counted
    obtain ⟨rfl,rfl⟩ := Prod.mk.inj (pure_ok.mp accepted)
    refine ⟨_,rfl,⟨reported.reportWriter.symm.trans writer,period,reported.metrics ▸ later⟩,
      {reported with metrics := rfl,metricPeriods := ?_}⟩
    exact congrArg (· + 1) reported.metricPeriods
  | recordLockActivity activity =>
    obtain ⟨writer,accepted⟩ := requireWriter_bind_ok.mp accepted
    obtain ⟨period,accepted⟩ := require_bind_ok.mp accepted
    obtain ⟨later,accepted⟩ := require_bind_ok.mp accepted
    obtain ⟨appeals,accepted⟩ := require_bind_ok.mp accepted
    obtain ⟨_,counted,accepted⟩ := bind_ok.mp accepted
    obtain ⟨rfl,-⟩ := fitUint_ok.mp counted
    obtain ⟨rfl,rfl⟩ := Prod.mk.inj (pure_ok.mp accepted)
    refine ⟨_,rfl,⟨reported.reportWriter.symm.trans writer,period,reported.lock ▸ later,appeals⟩,
      {reported with lock := rfl,lockPeriods := ?_}⟩
    exact congrArg (· + 1) reported.lockPeriods
  | recordParameterChange parameterId proposalId oldValueHash newValueHash block =>
    obtain ⟨writer,accepted⟩ := requireWriter_bind_ok.mp accepted
    obtain ⟨later,accepted⟩ := require_bind_ok.mp accepted
    obtain ⟨changes,accepted⟩ := require_bind_ok.mp accepted
    obtain ⟨_,counted,accepted⟩ := bind_ok.mp accepted
    obtain ⟨rfl,-⟩ := fitUint_ok.mp counted
    obtain ⟨rfl,rfl⟩ := Prod.mk.inj (pure_ok.mp accepted)
    rw [reported.parameterChanges] at later ⊢
    exact ⟨_,rfl,⟨reported.reportWriter.symm.trans writer,later,changes⟩,
      {reported with parameterChanges := rfl}⟩

end Step

theorem init_reported (deployer : Address) (quorumThreshold : Int) :
    Reported deployer [] (init deployer quorumThreshold) := by
  constructor <;> rfl

theorem run_reported (deployer : Address) (quorumThreshold : Int)
    (deliveries : List (Delivery Message)) :
    Lawful deployer (records (journal (init deployer quorumThreshold) deliveries)) ∧
      Reported deployer (records (journal (init deployer quorumThreshold) deliveries))
        (run (init deployer quorumThreshold) deliveries) := by
  refine deliver_invariant
    (fun entries s => Lawful deployer (records entries) ∧ Reported deployer (records entries) s)
    ⟨.start,init_reported deployer quorumThreshold⟩ ?_ deliveries
  rintro past s d next actions ⟨lawful,reported⟩ accepted
  obtain ⟨body,rfl,admitted,kept⟩ := receive_announces reported accepted
  exact ⟨.event lawful admitted,kept⟩

section Order
variable {deployer : Address} {log : List Record} {T : Type}

/-- Values listed newest first are in order when each is at least the latest before it. -/
theorem pairwise_latest (value : T → Int) (default : T) (values : List T) (next : T)
    (ordered : values.Pairwise (fun newer older => value older ≤ value newer))
    (later : value (values.head?.getD default) ≤ value next) :
    (next :: values).Pairwise (fun newer older => value older ≤ value newer) := by
  refine List.pairwise_cons.mpr ⟨?_,ordered⟩
  intro older member
  cases values with
  | nil => cases member
  | cons latest rest =>
    have latestFirst : value older ≤ value latest := by
      rcases List.mem_cons.mp member with rfl | earlier
      · exact le_refl _
      · exact (List.pairwise_cons.mp ordered).1 older earlier
    exact latestFirst.trans later

/-- The reports of a log in order: periods never end before earlier ones, parameter changes never
take effect before earlier ones, and each report is well formed. -/
structure Ordered (log : List Record) : Prop where
  metrics : (metricsReports log).Pairwise
    (fun newer older => older.periodEnd ≤ newer.periodEnd)
  locks : (lockReports log).Pairwise (fun newer older => older.periodEnd ≤ newer.periodEnd)
  blocks : (effectiveBlocks log).Pairwise (fun newer older => older ≤ newer)
  metricsFormed : ∀ metrics ∈ metricsReports log, metrics.periodStart < metrics.periodEnd
  locksFormed : ∀ activity ∈ lockReports log, activity.periodStart < activity.periodEnd ∧
    activity.appealsOverturned + activity.appealsUpheld ≤ activity.appealsFiled

theorem lawful_ordered (lawful : Lawful deployer log) : Ordered log := by
  induction lawful with
  | start => constructor <;> simp [metricsReports,lockReports,effectiveBlocks]
  | @event past recorded _ admitted ih =>
    obtain ⟨sender,body⟩ := recorded
    cases body with
    | protocolMetricsRecorded metrics timestamp =>
      obtain ⟨-,period,later⟩ := admitted
      exact {ih with
        metrics := pairwise_latest (·.periodEnd) _ _ metrics ih.metrics later
        metricsFormed := List.forall_mem_cons.mpr ⟨period,ih.metricsFormed⟩}
    | lockActivityRecorded activity timestamp =>
      obtain ⟨-,period,later,appeals⟩ := admitted
      exact {ih with
        locks := pairwise_latest (·.periodEnd) _ _ activity ih.locks later
        locksFormed := List.forall_mem_cons.mpr ⟨⟨period,appeals⟩,ih.locksFormed⟩}
    | parameterChangeRecorded _ _ _ _ block timestamp =>
      obtain ⟨-,later,-⟩ := admitted
      exact {ih with blocks := pairwise_latest id _ _ block ih.blocks later}
    | _ => exact {ih with}

end Order

/-- The event log accounts for the reports: over every run each event was admitted after those before
it, the periods and the effective blocks are in order, and the storage holds the last reports that
it keeps and the numbers that it counts. -/
theorem run_audited (deployer : Address) (quorumThreshold : Int)
    (deliveries : List (Delivery Message)) :
    let log := records (journal (init deployer quorumThreshold) deliveries)
    Lawful deployer log ∧ Ordered log ∧
      Reported deployer log (run (init deployer quorumThreshold) deliveries) := by
  obtain ⟨lawful,reported⟩ := run_reported deployer quorumThreshold deliveries
  exact ⟨lawful,lawful_ordered lawful,reported⟩

end Tonbankcard.TransparencyRegistry
