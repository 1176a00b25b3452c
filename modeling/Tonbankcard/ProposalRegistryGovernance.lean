import Tonbankcard.ProposalRegistryRequests

/-! The configuration of the two peers. The pending change is the latest proposal that no
signer has cancelled or executed since, and its approvals are the signers behind it from
that proposal on. -/
namespace Tonbankcard.ProposalRegistry

open Ton

/-- Whether a message belongs to the multi-signature configuration. -/
def Message.configures : Message → Bool
  | .configureGovernance _ _ _ | .proposeConfigChange _ _ _ | .approveConfigChange _ _ => true
  | .executeConfigChange _ _ _ _ | .cancelConfigChange _ _ => true
  | _ => false

def Governance.IsSigner (g : Governance) (signer : Address) : Prop := g.signers.get signer ≠ none

/-- The change that waits for approvals or for its timelock. -/
structure Governance.Awaits (g : Governance) (kind : Int) (target : Address) : Prop where
  configured : g.configured = true
  pending : g.configPending = true
  kind : g.configKind = kind
  target : g.configTarget = some target

def Governance.propose (g : Governance) (kind : Int) (target : Address) (codeHash : Int)
    (proposer : Address) : Governance :=
  {g with
    configPending := true
    configKind := kind
    configTarget := some target
    configCodeHash := codeHash
    configExecutableAt := 0
    configApprovers := (∅ : FiniteMap Address Bool).set proposer true
    configApprovals := 1}

def Governance.approve (g : Governance) (env : Context) : Governance :=
  {g with
    configApprovers := g.configApprovers.set env.sender true
    configApprovals := g.configApprovals + 1
    configExecutableAt :=
      if g.configApprovals + 1 ≥ g.threshold ∧ g.configExecutableAt = 0 then
        env.now + configTimelockDelay
      else g.configExecutableAt}

section Steps
variable (hash : Cell → Int) (contractAddress : Cell → Cell → Address) (env : Context)

/-- What a delivered message does to the configuration. -/
inductive Reconfiguration (self : State) : Message → State → Prop where
  | kept (unrelated : msg.configures = false) (governance : next.governance = self.governance)
      (resolver : next.ownerResolver = self.ownerResolver)
      (verifier : next.snapshotVerifier = self.snapshotVerifier) :
      Reconfiguration self msg next
  | configured (unconfigured : self.governance.configured = false)
      (least : minGovThreshold ≤ threshold) :
      Reconfiguration self (.configureGovernance entries signerCount threshold)
        {self with governance :=
          {self.governance with signers,signerCount,threshold,configured := true}}
  | proposed (configured : self.governance.configured = true)
      (signer : self.governance.IsSigner env.sender)
      (idle : self.governance.configPending = false)
      (known : kind = configKindResolver ∨ kind = configKindVerifier) :
      Reconfiguration self (.proposeConfigChange kind target codeHash)
        {self with governance := self.governance.propose kind target codeHash env.sender}
  | approved (awaits : self.governance.Awaits kind target)
      (signer : self.governance.IsSigner env.sender)
      (first : self.governance.configApprovers.get env.sender = none) :
      Reconfiguration self (.approveConfigChange kind target)
        {self with governance := self.governance.approve env}
  | executed (awaits : self.governance.Awaits kind target)
      (approved : self.governance.threshold ≤ self.governance.configApprovals)
      (started : self.governance.configExecutableAt ≠ 0)
      (elapsed : self.governance.configExecutableAt ≤ env.now)
      (codeHash : hash code = self.governance.configCodeHash)
      (derived : contractAddress code data = target) :
      Reconfiguration self (.executeConfigChange kind target code data)
        {self with
          ownerResolver := if kind = configKindResolver then some target else self.ownerResolver
          snapshotVerifier :=
            if kind = configKindResolver then self.snapshotVerifier else some target
          governance := self.governance.clearPendingConfig}
  | cancelled (awaits : self.governance.Awaits kind target) :
      Reconfiguration self (.cancelConfigChange kind target)
        {self with governance := self.governance.clearPendingConfig}

end Steps

section Inversion
variable {hash : Cell → Int} {contractAddress : Cell → Cell → Address} {env : Context}
variable {self next : State}

theorem requireGovernanceSigner_ok :
    self.requireGovernanceSigner env = .ok () ↔
      self.governance.configured = true ∧ self.governance.IsSigner env.sender := by
  simp only [State.requireGovernanceSigner,require_bind_ok,require_ok,Governance.IsSigner]

theorem requireConfigChange_ok :
    self.requireConfigChange env kind target = .ok () ↔
      self.governance.Awaits kind target ∧ self.governance.IsSigner env.sender := by
  simp only [State.requireConfigChange,unit_bind_ok,require_ok,requireGovernanceSigner_ok]
  constructor
  · rintro ⟨⟨configured,signer⟩,pending,rfl,target⟩
    exact ⟨⟨configured,pending,rfl,target⟩,signer⟩
  · rintro ⟨⟨configured,pending,rfl,target⟩,signer⟩
    exact ⟨⟨configured,signer⟩,pending,rfl,target⟩

/-- Whatever answers a query leaves the configuration alone. -/
theorem reply_configuration (effect : Effect env self msg next actions)
    (reply : msg.repliesTo = some queryId) : next.governance = self.governance ∧
      next.ownerResolver = self.ownerResolver ∧ next.snapshotVerifier = self.snapshotVerifier := by
  cases effect with
  | configured unprompted => simp [unprompted] at reply
  | dropped | submitted | cast | requested | opened | counted | finalized => exact ⟨rfl,rfl,rfl⟩

/-- The one inversion of the receivers as far as the configuration goes. -/
theorem receive_reconfiguration
    (accepted : receive hash contractAddress env msg self = .ok (next,actions)) :
    Reconfiguration hash contractAddress env self msg next := by
  have effect := receive_effect accepted
  simp only [receive,bind_ok,pure_ok] at accepted
  obtain ⟨result,accepted,-,-,rfl⟩ := accepted
  cases msg with
  | configureGovernance signers signerCount threshold =>
    simp only [handle,receiveConfigureGovernance,require_bind_ok] at accepted
    obtain ⟨-,unconfigured,-,-,least,-,installed⟩ := accepted
    simp only [bind_ok,pure_ok,Prod.mk.injEq] at installed
    obtain ⟨_,-,rfl,rfl⟩ := installed
    exact .configured unconfigured least
  | proposeConfigChange kind target codeHash =>
    simp only [handle,receiveProposeConfigChange,unit_bind_ok,pure_ok,Prod.mk.injEq,
      requireGovernanceSigner_ok,require_ok] at accepted
    obtain ⟨⟨configured,signer⟩,idle,known,-,rfl,rfl⟩ := accepted
    exact .proposed configured signer idle known
  | approveConfigChange kind target =>
    simp only [handle,receiveApproveConfigChange,unit_bind_ok,pure_ok,Prod.mk.injEq,
      requireConfigChange_ok,require_ok] at accepted
    obtain ⟨⟨awaits,signer⟩,first,rfl,rfl⟩ := accepted
    exact .approved awaits signer first
  | executeConfigChange kind target code data =>
    simp only [handle,receiveExecuteConfigChange,unit_bind_ok,requireConfigChange_ok,require_ok]
      at accepted
    obtain ⟨⟨awaits,-⟩,approved,⟨started,elapsed⟩,codeHash,derived,applied⟩ := accepted
    have executed := @Reconfiguration.executed hash contractAddress env _ _ _ _ _ awaits approved
      started elapsed codeHash derived
    rw [awaits.kind,awaits.target] at applied
    split at applied
    all_goals
      rename_i kind
      simp only [pure_ok,Prod.mk.injEq] at applied
      obtain ⟨rfl,rfl⟩ := applied
      simpa only [kind,if_true,if_false] using executed
  | cancelConfigChange kind target =>
    simp only [handle,receiveCancelConfigChange,unit_bind_ok,pure_ok,Prod.mk.injEq,
      requireConfigChange_ok] at accepted
    obtain ⟨⟨awaits,-⟩,rfl,rfl⟩ := accepted
    exact .cancelled awaits
  | cleanupPending queryId =>
    simp only [handle,receiveCleanupPending,require_bind_ok,pure_ok,Prod.mk.injEq] at accepted
    obtain ⟨-,rfl,rfl⟩ := accepted
    exact .kept rfl rfl rfl rfl
  | bouncedResolveOwnership queryId | bouncedEligibilityCheckRequest queryId proposalId nftId =>
    simp only [handle,pure_ok,Prod.mk.injEq] at accepted
    obtain ⟨rfl,rfl⟩ := accepted
    exact .kept rfl rfl rfl rfl
  | submitProposal metadataHash authorNftId category votingDuration quorumThreshold =>
    simp only [handle,receiveSubmitProposal,require_bind_ok] at accepted
    obtain ⟨-,-,-,-,-,accepted⟩ := accepted
    simp only [bind_ok,pure_ok,Prod.mk.injEq] at accepted
    obtain ⟨-,-,-,-,-,-,rfl,rfl⟩ := accepted
    exact .kept rfl rfl rfl rfl
  | castVote proposalId voterNftId vote =>
    simp only [handle,receiveCastVote] at accepted
    split at accepted
    · contradiction
    simp only [require_bind_ok] at accepted
    obtain ⟨-,-,-,-,-,-,accepted⟩ := accepted
    simp only [bind_ok,pure_ok,Prod.mk.injEq] at accepted
    obtain ⟨-,-,-,-,-,-,-,-,rfl,rfl⟩ := accepted
    exact .kept rfl rfl rfl rfl
  | ownershipResolved | eligibilityCheckResponse =>
    obtain ⟨governance,resolver,verifier⟩ := reply_configuration effect rfl
    exact .kept rfl governance resolver verifier
  | finalizeProposal proposalId =>
    simp only [handle,receiveFinalizeProposal] at accepted
    split at accepted
    · contradiction
    simp only [unit_bind_ok,pure_ok,Prod.mk.injEq] at accepted
    obtain ⟨-,-,-,rfl,rfl⟩ := accepted
    exact .kept rfl rfl rfl rfl

end Inversion

section Support

/-- Whether an entry opens or ends a pending change. -/
def reopens (entry : Entry) : Bool :=
  match entry.input.message with
  | .proposeConfigChange _ _ _ | .executeConfigChange _ _ _ _ | .cancelConfigChange _ _ => true
  | _ => false

def approvalOf (kind : Int) (target : Address) (entry : Entry) : Option Address :=
  match entry.input.message with
  | .approveConfigChange approvedKind approvedTarget =>
    if approvedKind = kind ∧ approvedTarget = target then some entry.input.context.sender else none
  | _ => none

/-- Who approved a change since it was proposed and, last, who proposed it. -/
def supporters (kind : Int) (target : Address) (since : List Entry) (proposal : Entry) :
    List Address :=
  since.filterMap (approvalOf kind target) ++ [proposal.input.context.sender]

/-- The latest proposal of a journal, with what was accepted since: no other proposal, no
execution and no cancellation. -/
structure Proposed (kind : Int) (target : Address) (codeHash : Int) (past since : List Entry)
    (proposal : Entry) : Prop where
  latest : since ++ [proposal] <+: past
  message : proposal.input.message = .proposeConfigChange kind target codeHash
  standing : ∀ entry ∈ since, reopens entry = false

/-- The message that brought a change over the threshold, and the timelock it started. -/
def ReachedAt (threshold kind : Int) (target : Address) (since : List Entry) (proposal : Entry)
    (executableAt : Int) : Prop :=
  ∃ later reaching earlier, since = later ++ reaching :: earlier ∧
    (supporters kind target earlier proposal).length < threshold ∧
    threshold ≤ (supporters kind target (reaching :: earlier) proposal).length ∧
    executableAt = reaching.input.context.now + configTimelockDelay

/-- The pending change of a state, as the journal behind it tells it. -/
structure Standing (g : Governance) (kind : Int) (target : Address) (past since : List Entry)
    (proposal : Entry) : Prop where
  awaits : g.Awaits kind target
  known : kind = configKindResolver ∨ kind = configKindVerifier
  proposed : Proposed kind target g.configCodeHash past since proposal
  approvers : g.configApprovers.get signer ≠ none ↔ signer ∈ supporters kind target since proposal
  approvals : g.configApprovals = (supporters kind target since proposal).length
  distinct : (supporters kind target since proposal).Nodup
  signers : signer ∈ supporters kind target since proposal → g.IsSigner signer
  timelock : g.configExecutableAt = 0 ∧ g.configApprovals < g.threshold ∨
    ReachedAt g.threshold kind target since proposal g.configExecutableAt

/-- Every state reached: the threshold is at least two once there is one, and a pending
change stands in the journal. -/
structure Controlled (past : List Entry) (s : State) : Prop where
  least : s.governance.configured = true → minGovThreshold ≤ s.governance.threshold
  standing : s.governance.configPending = true →
    ∃ kind target since proposal, Standing s.governance kind target past since proposal

variable {g : Governance} {entry proposal : Entry}

theorem ReachedAt.later (reached : ReachedAt threshold kind target since proposal executableAt)
    (entry : Entry) : ReachedAt threshold kind target (entry :: since) proposal executableAt := by
  obtain ⟨later,reaching,earlier,rfl,rest⟩ := reached
  exact ⟨entry :: later,reaching,earlier,rfl,rest⟩

theorem Proposed.later (proposed : Proposed kind target codeHash past since proposal)
    (stands : reopens entry = false) :
    Proposed kind target codeHash (entry :: past) (entry :: since) proposal := by
  refine ⟨?_,proposed.message,?_⟩
  · rw [List.cons_append]
    exact (List.prefix_cons_inj entry).mpr proposed.latest
  · intro other member
    rcases List.mem_cons.mp member with rfl | member
    · exact stands
    · exact proposed.standing other member

/-- Messages that do not configure leave the pending change as it stands. -/
theorem Standing.later (standing : Standing g kind target past since proposal)
    (unrelated : entry.input.message.configures = false) :
    Standing g kind target (entry :: past) (entry :: since) proposal := by
  have stands : reopens entry = false := by
    unfold reopens
    split <;> simp_all [Message.configures]
  have silent : approvalOf kind target entry = none := by
    unfold approvalOf
    split <;> simp_all [Message.configures]
  have same : supporters kind target (entry :: since) proposal =
      supporters kind target since proposal := by
    simp only [supporters,List.filterMap_cons_none silent]
  obtain ⟨awaits,known,proposed,approvers,approvals,distinct,signers,timelock⟩ := standing
  refine ⟨awaits,known,proposed.later stands,?_,?_,?_,?_,timelock.imp_right (·.later entry)⟩
  all_goals rw [same]
  · exact approvers
  · exact approvals
  · exact distinct
  · exact signers

/-- A proposal stands with its proposer behind it. -/
theorem standing_proposed (past : List Entry) (entry : Entry) (configured : g.configured = true)
    (signer : g.IsSigner entry.input.context.sender) (least : minGovThreshold ≤ g.threshold)
    (known : kind = configKindResolver ∨ kind = configKindVerifier)
    (message : entry.input.message = .proposeConfigChange kind target codeHash) :
    Standing (g.propose kind target codeHash entry.input.context.sender) kind target
      (entry :: past) [] entry := by
  refine ⟨⟨configured,rfl,rfl,rfl⟩,known,⟨?_,message,by simp⟩,?_,rfl,?_,?_,.inl ⟨rfl,?_⟩⟩
  · exact ⟨past,rfl⟩
  · intro other
    simp only [Governance.propose,FiniteMap.get_set,supporters,List.filterMap_nil,List.nil_append,
      List.mem_singleton]
    split <;> simp_all
  · exact List.nodup_singleton _
  · intro other member
    obtain rfl := List.mem_singleton.mp member
    exact signer
  · exact lt_of_lt_of_le (one_lt_two) least

/-- An approval adds its signer, and may start the timelock. -/
theorem standing_approved (entry : Entry) (standing : Standing g kind target past since proposal)
    (awaits : g.Awaits approvedKind approvedTarget)
    (signer : g.IsSigner entry.input.context.sender)
    (first : g.configApprovers.get entry.input.context.sender = none)
    (message : entry.input.message = .approveConfigChange approvedKind approvedTarget) :
    Standing (g.approve entry.input.context) kind target (entry :: past) (entry :: since)
      proposal := by
  obtain rfl : approvedKind = kind := awaits.kind.symm.trans standing.awaits.kind
  obtain rfl : approvedTarget = target :=
    Option.some.inj (awaits.target.symm.trans standing.awaits.target)
  have stands : reopens entry = false := by simp [reopens,message]
  have added : supporters approvedKind approvedTarget (entry :: since) proposal =
      entry.input.context.sender :: supporters approvedKind approvedTarget since proposal := by
    simp [supporters,approvalOf,message]
  have fresh : entry.input.context.sender ∉
      supporters approvedKind approvedTarget since proposal := fun member =>
    standing.approvers.mpr member first
  have approvals := standing.approvals
  refine ⟨⟨awaits.configured,awaits.pending,awaits.kind,awaits.target⟩,standing.known,
    standing.proposed.later stands,?_,?_,?_,?_,?_⟩
  · intro other
    rw [added,List.mem_cons,← standing.approvers]
    simp only [Governance.approve,FiniteMap.get_set]
    split <;> simp_all
  · rw [added,List.length_cons]
    simp only [Governance.approve,approvals,Nat.cast_add,Nat.cast_one]
  · rw [added]
    exact List.nodup_cons.mpr ⟨fresh,standing.distinct⟩
  · intro other member
    rw [added] at member
    rcases List.mem_cons.mp member with rfl | member
    · exact signer
    · exact standing.signers member
  · rcases standing.timelock with ⟨unset,below⟩ | reached
    · by_cases enough : g.threshold ≤ g.configApprovals + 1
      · right
        refine ⟨[],entry,since,rfl,approvals ▸ below,?_,?_⟩
        · rw [added,List.length_cons]
          simp only [Governance.approve]
          omega
        · simp only [Governance.approve,ge_iff_le,enough,unset,and_self,if_true]
      · left
        simp only [Governance.approve,ge_iff_le,enough,false_and,if_false]
        exact ⟨unset,not_le.mp enough⟩
    · right
      have set_ : g.configExecutableAt ≠ 0 := by
        obtain ⟨_,reaching,_,-,-,-,start⟩ := reached
        simp only [start,configTimelockDelay]
        omega
      simp only [Governance.approve,set_,and_false,if_false]
      exact reached.later entry

end Support

section Runs
variable {hash : Cell → Int} {contractAddress : Cell → Cell → Address}

theorem reconfiguration_controlled (actions : List (Action Body)) {d : Delivery Message}
    {s next : State}
    (controlled : Controlled past s)
    (step : Reconfiguration hash contractAddress d.context s d.message next) :
    Controlled (⟨s,d,next,actions⟩ :: past) next := by
  obtain ⟨least,standing⟩ := controlled
  generalize message : d.message = msg at step
  cases step with
  | kept unrelated governance =>
    rw [← message] at unrelated
    refine ⟨governance ▸ least,fun pending => ?_⟩
    rw [governance] at pending ⊢
    obtain ⟨kind,target,since,proposal,stands⟩ := standing pending
    exact ⟨kind,target,_,proposal,stands.later unrelated⟩
  | configured unconfigured bound =>
    refine ⟨fun _ => bound,fun pending => ?_⟩
    obtain ⟨_,_,_,_,stands⟩ := standing pending
    exact absurd stands.awaits.configured (by simp [unconfigured])
  | @proposed kind target codeHash configured signer idle known =>
    have stands := standing_proposed past
      ⟨s,d,{s with governance := s.governance.propose kind target codeHash d.context.sender},
        actions⟩ configured signer (least configured) known message
    exact ⟨least,fun _ => ⟨kind,target,[],_,stands⟩⟩
  | approved awaits signer first =>
    refine ⟨least,fun pending => ?_⟩
    obtain ⟨kind,target,since,proposal,stands⟩ := standing pending
    have approved := standing_approved
      ⟨s,d,{s with governance := s.governance.approve d.context},actions⟩ stands awaits signer
      first message
    exact ⟨kind,target,_,proposal,approved⟩
  | executed | cancelled => exact ⟨least,nofun⟩

theorem run_controlled (deployer : Address) (deliveries : List (Delivery Message)) :
    Controlled (journal hash contractAddress deployer deliveries)
      (run hash contractAddress deployer deliveries) := by
  refine deliver_invariant Controlled ⟨?_,?_⟩ (fun _ _ _ _ _ controlled accepted =>
    reconfiguration_controlled _ controlled (receive_reconfiguration accepted)) deliveries
  · intro configured
    cases configured
  · intro pending
    cases pending

/-- Once configured, the signers and the threshold stay. -/
structure Governance.SameSigners (before after : Governance) : Prop where
  configured : after.configured = true
  signers : after.signers = before.signers
  signerCount : after.signerCount = before.signerCount
  threshold : after.threshold = before.threshold

theorem Governance.SameSigners.trans {first second third : Governance}
    (early : first.SameSigners second) (late : second.SameSigners third) :
    first.SameSigners third :=
  ⟨late.configured,late.signers.trans early.signers,late.signerCount.trans early.signerCount,
    late.threshold.trans early.threshold⟩

theorem reconfiguration_signers {env : Context} {s next : State}
    (configured : s.governance.configured = true)
    (step : Reconfiguration hash contractAddress env s msg next) :
    s.governance.SameSigners next.governance := by
  cases step with
  | kept unrelated governance => rw [governance]; exact ⟨configured,rfl,rfl,rfl⟩
  | configured unconfigured => simp [unconfigured] at configured
  | proposed | approved | executed | cancelled => exact ⟨configured,rfl,rfl,rfl⟩

/-- The execution puts a target in the place its kind stands for, and only there. -/
structure Installs (kind : Int) (target : Address) (entry : Entry) : Prop where
  resolver : entry.after.ownerResolver =
    if kind = configKindResolver then some target else entry.before.ownerResolver
  verifier : entry.after.snapshotVerifier =
    if kind = configKindVerifier then some target else entry.before.snapshotVerifier

/-- A change that enough signers carried long enough before it is executed. -/
structure Carried (g : Governance) (kind : Int) (target : Address) (since : List Entry)
    (proposal : Entry) (now : Int) : Prop where
  least : 2 ≤ g.threshold
  enough : g.threshold ≤ (supporters kind target since proposal).length
  distinct : (supporters kind target since proposal).Nodup
  signers : signer ∈ supporters kind target since proposal → g.IsSigner signer
  timelock : ∃ executableAt, ReachedAt g.threshold kind target since proposal executableAt ∧
    executableAt ≤ now

/-- What the journal of a registry says about its configuration. -/
structure MultiSigned (hash : Cell → Int) (contractAddress : Cell → Cell → Address)
    (past : List Entry) : Prop where
  changes : entry ∈ past →
    entry.after.ownerResolver ≠ entry.before.ownerResolver ∨
      entry.after.snapshotVerifier ≠ entry.before.snapshotVerifier →
    ∃ kind target code data,
      entry.input.message = .executeConfigChange kind target code data
  executions : entry :: older <:+ past →
    entry.input.message = .executeConfigChange kind target code data →
    (kind = configKindResolver ∨ kind = configKindVerifier) ∧ Installs kind target entry ∧
      contractAddress code data = target ∧ ∃ since proposal,
        Proposed kind target (hash code) older since proposal ∧
          Carried entry.before.governance kind target since proposal entry.input.context.now
  pending : entry :: older <:+ past → entry.after.governance.configPending = true →
    ∃ kind target since proposal, entry.after.governance.Awaits kind target ∧
      Proposed kind target entry.after.governance.configCodeHash (entry :: older) since
        proposal ∧
      entry.after.governance.configApprovals = (supporters kind target since proposal).length ∧
      ∀ signer, entry.after.governance.configApprovers.get signer ≠ none ↔
        signer ∈ supporters kind target since proposal

theorem changes_execute {env : Context} {s next : State}
    (step : Reconfiguration hash contractAddress env s msg next)
    (changed : next.ownerResolver ≠ s.ownerResolver ∨
      next.snapshotVerifier ≠ s.snapshotVerifier) :
    ∃ kind target code data, msg = .executeConfigChange kind target code data := by
  cases step with
  | kept unrelated governance resolver verifier => simp [resolver,verifier] at changed
  | configured | proposed | approved | cancelled => simp at changed
  | @executed kind target code data => exact ⟨kind,target,code,data,rfl⟩

/-- The peers change only by executing a change that a threshold of the signers carried
since its proposal and through the timelock, and the signers stay what they were. -/
theorem governance_multisig (hash : Cell → Int) (contractAddress : Cell → Cell → Address)
    (deployer : Address) (deliveries : List (Delivery Message)) :
    MultiSigned hash contractAddress (journal hash contractAddress deployer deliveries) ∧
      ∀ earlier, earlier <:+ deliveries →
        (run hash contractAddress deployer earlier).governance.configured = true →
        (run hash contractAddress deployer earlier).governance.SameSigners
          (run hash contractAddress deployer deliveries).governance := by
  have behind {entry : Entry} {older : List Entry}
      (suffix : entry :: older <:+ journal hash contractAddress deployer deliveries) :
      Controlled older entry.before ∧ Reconfiguration hash contractAddress entry.input.context
        entry.before entry.input.message entry.after := by
    obtain ⟨past,-,rfl,before,accepted⟩ := Journal.suffix_origin suffix
    exact ⟨before ▸ run_controlled deployer past,
      receive_reconfiguration (deliver_received accepted)⟩
  refine ⟨⟨?_,?_,?_⟩,?_⟩
  · intro entry member changed
    obtain ⟨newer,older,whole⟩ := List.append_of_mem member
    exact changes_execute (behind ⟨newer,whole.symm⟩).2 changed
  · intro entry older kind target code data suffix message
    obtain ⟨controlled,step⟩ := behind suffix
    rw [message] at step
    generalize after : entry.after = next at step
    cases step with
    | kept unrelated => cases unrelated
    | executed awaits approved started elapsed codeHash derived =>
      obtain ⟨pendingKind,pendingTarget,since,proposal,stands⟩ :=
        controlled.standing awaits.pending
      obtain rfl : pendingKind = kind := stands.awaits.kind.symm.trans awaits.kind
      obtain rfl : pendingTarget = target :=
        Option.some.inj (stands.awaits.target.symm.trans awaits.target)
      have reached := stands.timelock.resolve_left (fun unset => started unset.1)
      refine ⟨stands.known,⟨?_,?_⟩,derived,since,proposal,?_,?_⟩
      · rw [after]
      · rw [after]
        rcases stands.known with rfl | rfl <;> rfl
      · rw [codeHash]
        exact stands.proposed
      · exact ⟨controlled.least awaits.configured,stands.approvals ▸ approved,stands.distinct,
          stands.signers,_,reached,elapsed⟩
  · intro entry older suffix pending
    obtain ⟨controlled,step⟩ := behind suffix
    obtain ⟨kind,target,since,proposal,stands⟩ :=
      (reconfiguration_controlled entry.output controlled step).standing pending
    exact ⟨kind,target,since,proposal,stands.awaits,stands.proposed,stands.approvals,
      fun _ => stands.approvers⟩
  · rintro earlier ⟨newer,rfl⟩ configured
    refine Journal.persists
      (fun s : State => (run hash contractAddress deployer earlier).governance.SameSigners s.governance)
      earlier ?_ ⟨configured,rfl,rfl,rfl⟩ newer
    intro past d next actions same delivered
    exact same.trans (reconfiguration_signers same.configured
      (receive_reconfiguration (deliver_received delivered)))

end Runs

end Tonbankcard.ProposalRegistry
