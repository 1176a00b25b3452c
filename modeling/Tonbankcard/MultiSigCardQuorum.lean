import Tonbankcard.MultiSigCardHistory

/-! What stands behind a stored proposal. The count in the proposal, the approval records
and the configuration live in three maps; the journal since the last submission ties them
together, across reconfigurations, repeated signer slots and re-submissions. -/
namespace Tonbankcard.MultiSigCard

open Ton

variable {hash : Cell → Int} {nft : Address} {id : BitVec 64}

/-- The message that took a proposal to approved, with enough approvals for the threshold
in force at that moment. -/
def Reached (hash : Cell → Int) (nft : Address) (id : BitVec 64) (entries : List Entry) : Prop :=
  ∃ turning ∈ window nft id entries,
    turning.before.getProposalStatus hash nft id ≠ .approved ∧
    turning.after.getProposalStatus hash nft id = .approved ∧
    (turning.before.getMultiSigConfig nft).requiredSignatures ≤ (approvers nft id entries).length

/-- The recipient and the amount a proposal stores. -/
def content (hash : Cell → Int) (s : State) (nft : Address) (id : BitVec 64) :
    Option (Address × Nat) :=
  (s.getProposal hash nft id).map (fun p => (p.recipient,p.amount))

/-- A stored proposal as its journal accounts for it. -/
structure Accounted (hash : Cell → Int) (nft : Address) (id : BitVec 64) (entries : List Entry)
    (p : PaymentProposal) : Prop where
  submitted : ∃ entry ∈ entries, submits nft id entry = true
  count : p.approvalCount = (approvers nft id entries).length
  reached : p.status = .approved ∨ p.status = .executed → Reached hash nft id entries
  unrejected : p.status ≠ .rejected →
    ∀ entry ∈ window nft id entries, operation nft id entry ≠ .reject
  content : ∀ entry ∈ window nft id entries, ∀ signer, approver nft id entry = some signer →
    content hash entry.before nft id = some (p.recipient,p.amount)

/-- What every run maintains about one proposal. -/
structure Tracked (hash : Cell → Int) (nft : Address) (id : BitVec 64) (entries : List Entry)
    (s : State) : Prop where
  recorded : ∀ signer ∈ approvers nft id entries, s.hasApproved hash nft id signer = true
  distinct : (approvers nft id entries).Nodup
  signers : ∀ entry ∈ window nft id entries, ∀ signer, approver nft id entry = some signer →
    isSigner signer (entry.before.getMultiSigConfig nft) = true
  accounted : ∀ p, s.getProposal hash nft id = some p → Accounted hash nft id entries p

theorem reached_cons (reached : Reached hash nft id past)
    (other : ∀ recipient amount, operation nft id entry ≠ .submit recipient amount)
    (silent : ∀ signer, operation nft id entry ≠ .approve signer) :
    Reached hash nft id (entry :: past) := by
  obtain ⟨turning,member,before,after,enough⟩ := reached
  refine ⟨turning,?_,before,after,?_⟩
  · rw [window_other other]
    exact .tail _ member
  · rwa [approvers_other other silent]

/-- An entry that neither submits nor approves keeps the account of a proposal with the
same count and content. -/
theorem accounted_cons {p next : PaymentProposal} (accounted : Accounted hash nft id past p)
    (other : ∀ recipient amount, operation nft id entry ≠ .submit recipient amount)
    (silent : ∀ signer, operation nft id entry ≠ .approve signer)
    (count : next.approvalCount = p.approvalCount)
    (content : next.recipient = p.recipient ∧ next.amount = p.amount)
    (approval : next.status = .approved ∨ next.status = .executed →
      p.status = .approved ∨ p.status = .executed)
    (rejection : next.status ≠ .rejected →
      p.status ≠ .rejected ∧ operation nft id entry ≠ .reject) :
    Accounted hash nft id (entry :: past) next := by
  constructor
  · obtain ⟨submission,member,submitted⟩ := accounted.submitted
    exact ⟨submission,.tail _ member,submitted⟩
  · rw [approvers_other other silent,count,accounted.count]
  · exact fun approved => reached_cons (accounted.reached (approval approved)) other silent
  · intro kept counted member
    rw [window_other other] at member
    rcases List.mem_cons.mp member with rfl | member
    · exact (rejection kept).2
    · exact accounted.unrejected (rejection kept).1 counted member
  · intro counted member signer approved
    rw [window_other other] at member
    rcases List.mem_cons.mp member with rfl | member
    · unfold approver at approved
      split at approved
      · exact absurd ‹_› (silent _)
      · contradiction
    · rw [content.1,content.2]
      exact accounted.content counted member signer approved

theorem PaymentProposal.count_fields (p : PaymentProposal) (requiredSignatures : Nat) :
    (p.count requiredSignatures).approvalCount = p.approvalCount + 1 ∧
      (p.count requiredSignatures).recipient = p.recipient ∧
      (p.count requiredSignatures).amount = p.amount := by
  simp only [PaymentProposal.count]
  split <;> exact ⟨rfl,rfl,rfl⟩

/-- Counting leaves a proposal pending below the threshold and approves it from there on. -/
theorem PaymentProposal.count_status (p : PaymentProposal) (requiredSignatures : Nat) :
    ((p.count requiredSignatures).status = .approved ∧
      requiredSignatures ≤ p.approvalCount + 1) ∨
    (p.count requiredSignatures).status = .pending := by
  simp only [PaymentProposal.count]
  split
  next enough => exact .inl ⟨rfl,enough⟩
  next => exact .inr rfl

theorem tracked_submit (past : List Entry)
    (submitted : operation nft id entry = .submit recipient amount)
    (stored : next.getProposal hash nft id =
      some {status := .pending,recipient,amount,approvalCount := 0,createdAt}) :
    Tracked hash nft id (entry :: past) next := by
  constructor
  · simp [approvers_submit submitted]
  · simp [approvers_submit submitted]
  · simp [window_submit submitted]
  · intro p found
    obtain rfl := Option.some.inj (stored.symm.trans found)
    constructor
    · exact ⟨entry,.head _,by simp [submits,submitted]⟩
    · simp [approvers_submit submitted]
    · simp
    · simp [window_submit submitted]
    · simp [window_submit submitted]

/-- Entries that leave the records alone only have to account for the stored proposal. -/
theorem tracked_cons {s next : State} (tracked : Tracked hash nft id past s)
    (other : ∀ recipient amount, operation nft id entry ≠ .submit recipient amount)
    (silent : ∀ signer, operation nft id entry ≠ .approve signer)
    (records : next.hasApproved hash nft id = s.hasApproved hash nft id)
    (accounted : ∀ p, next.getProposal hash nft id = some p →
      Accounted hash nft id (entry :: past) p) :
    Tracked hash nft id (entry :: past) next := by
  constructor
  · rw [approvers_other other silent,records]
    exact tracked.recorded
  · rw [approvers_other other silent]
    exact tracked.distinct
  · intro counted member signer approved
    rw [window_other other] at member
    rcases List.mem_cons.mp member with rfl | member
    · unfold approver at approved
      split at approved
      · exact absurd ‹_› (silent _)
      · contradiction
    · exact tracked.signers counted member signer approved
  · exact accounted

/-- A counted approval keeps the account: it adds one approval, and the one that reaches
the threshold is the turning message. -/
theorem accounted_approve {d : Delivery Message} {s : State}
    (accounted : Accounted hash nft id past p)
    (stored : s.getProposal hash nft id = some p) (pending : p.status = .pending)
    (reached : next = (s.putApproval hash nft id d.context.sender).putProposal hash nft id
      (p.count (s.getMultiSigConfig nft).requiredSignatures))
    (approved : operation nft id ⟨s,d,next,actions⟩ = .approve d.context.sender) :
    Accounted hash nft id (⟨s,d,next,actions⟩ :: past)
      (p.count (s.getMultiSigConfig nft).requiredSignatures) := by
  have other : ∀ recipient amount, operation nft id ⟨s,d,next,actions⟩ ≠ .submit recipient amount :=
    by simp [approved]
  have others : approvers nft id (_ :: past) = _ := approvers_approve approved
  obtain ⟨count,recipient,amount⟩ :=
    p.count_fields (s.getMultiSigConfig nft).requiredSignatures
  constructor
  · obtain ⟨submission,member,submitted⟩ := accounted.submitted
    exact ⟨submission,.tail _ member,submitted⟩
  · rw [others,count,accounted.count,List.length_cons]
  · intro status
    rcases p.count_status (s.getMultiSigConfig nft).requiredSignatures with
      ⟨turned,enough⟩ | waiting
    · refine ⟨⟨s,d,next,actions⟩,?_,?_,?_,?_⟩
      · rw [window_other other]
        exact .head _
      · change s.getProposalStatus hash nft id ≠ _
        rw [State.getProposalStatus_stored s p stored,pending]
        decide
      · change next.getProposalStatus hash nft id = _
        rw [reached,State.getProposalStatus_putProposal,if_pos rfl]
        exact turned
      · rw [others,List.length_cons,← accounted.count]
        exact enough
    · simp [waiting] at status
  · intro _ counted member
    rw [window_other other] at member
    rcases List.mem_cons.mp member with rfl | member
    · simp [approved]
    · exact accounted.unrejected (by simp [pending]) counted member
  · intro counted member who named
    rw [window_other other] at member
    rw [recipient,amount]
    rcases List.mem_cons.mp member with rfl | member
    · simp [content,stored]
    · exact accounted.content counted member who named

/-- A counted approval comes from a signer without a record, so it adds a new address. -/
theorem tracked_approve {d : Delivery Message} {s : State} (tracked : Tracked hash nft id past s)
    (signer : isSigner d.context.sender (s.getMultiSigConfig nft) = true)
    (stored : s.getProposal hash nft id = some p) (pending : p.status = .pending)
    (fresh : s.hasApproved hash nft id d.context.sender = false)
    (reached : next = (s.putApproval hash nft id d.context.sender).putProposal hash nft id
      (p.count (s.getMultiSigConfig nft).requiredSignatures))
    (approved : operation nft id ⟨s,d,next,actions⟩ = .approve d.context.sender) :
    Tracked hash nft id (⟨s,d,next,actions⟩ :: past) next := by
  have other : ∀ recipient amount, operation nft id ⟨s,d,next,actions⟩ ≠ .submit recipient amount :=
    by simp [approved]
  have others : approvers nft id (_ :: past) = _ := approvers_approve approved
  constructor
  · intro counted member
    rw [reached,State.hasApproved_putProposal,State.hasApproved_putApproval]
    rw [others] at member
    rcases List.mem_cons.mp member with rfl | member
    · simp
    · simp [tracked.recorded counted member]
  · rw [others]
    refine List.nodup_cons.mpr ⟨?_,tracked.distinct⟩
    intro repeated
    rw [tracked.recorded _ repeated] at fresh
    contradiction
  · intro counted member who named
    rw [window_other other] at member
    rcases List.mem_cons.mp member with rfl | member
    · simp only [approver,approved,Option.some.injEq] at named
      exact named ▸ signer
    · exact tracked.signers counted member who named
  · intro stored' found
    rw [reached,State.getProposal_putProposal_same,Option.some.injEq] at found
    subst found
    exact accounted_approve (tracked.accounted p stored) stored pending reached approved

theorem tracked_step (collisionFree : CollisionFree hash) {d : Delivery Message}
    {s next : State} (tracked : Tracked hash nft id past s)
    (effect : Effect hash d.context s d.message next actions) :
    Tracked hash nft id (⟨s,d,next,actions⟩ :: past) next := by
  generalize entry_eq : (⟨s,d,next,actions⟩ : Entry) = entry
  have slot := effect_slot collisionFree effect nft id
  rw [entry_eq] at slot
  generalize performed : operation nft id entry = op at slot
  cases slot with
  | submit => exact tracked_submit past performed (State.getProposal_putProposal_same ..)
  | approve signer stored pending fresh =>
    subst entry_eq
    exact tracked_approve tracked signer stored pending fresh rfl performed
  | @reject p stored pending =>
    refine tracked_cons tracked (by simp [performed]) (by simp [performed]) rfl ?_
    intro rejected found
    rw [State.getProposal_putProposal_same,Option.some.injEq] at found
    subst found
    exact accounted_cons (tracked.accounted p stored) (by simp [performed])
      (by simp [performed]) rfl ⟨rfl,rfl⟩ (by simp) (by simp)
  | @execute p stored ready =>
    refine tracked_cons tracked (by simp [performed]) (by simp [performed]) rfl ?_
    intro executed found
    rw [State.getProposal_putProposal_same,Option.some.injEq] at found
    subst found
    exact accounted_cons (tracked.accounted p stored) (by simp [performed])
      (by simp [performed]) rfl ⟨rfl,rfl⟩ (by simp [ready]) (by simp [ready,performed])
  | other proposal approvals =>
    refine tracked_cons tracked (by simp [performed]) (by simp [performed]) approvals ?_
    intro p found
    rw [proposal] at found
    exact accounted_cons (tracked.accounted p found) (by simp [performed])
      (by simp [performed]) rfl ⟨rfl,rfl⟩ (fun status => status)
      (fun kept => ⟨kept,by simp [performed]⟩)

theorem run_tracked (collisionFree : CollisionFree hash) (deployer : Address)
    (deliveries : List (Delivery Message)) (nft : Address) (id : BitVec 64) :
    Tracked hash nft id (journal hash (init deployer) deliveries)
      (run hash (init deployer) deliveries) := by
  refine deliver_invariant (Tracked hash nft id) ?_ ?_ deliveries
  · constructor <;> simp [approvers,window,init,State.getProposal]
  · intro past s d next actions tracked accepted
    exact tracked_step collisionFree tracked (receive_effect accepted)

/-- The approvals behind an execution, all since the most recent submission. -/
structure Backed (hash : Cell → Int) (nft : Address) (id : BitVec 64) (entries : List Entry) :
    Prop where
  submitted : ∃ entry ∈ entries, submits nft id entry = true
  distinct : (approvers nft id entries).Nodup
  signers : ∀ entry ∈ window nft id entries, ∀ signer, approver nft id entry = some signer →
    isSigner signer (entry.before.getMultiSigConfig nft) = true
  reached : Reached hash nft id entries
  unrejected : ∀ entry ∈ window nft id entries, operation nft id entry ≠ .reject

theorem actionsOf_payment {d : Delivery Message} {s : State}
    (paid : payment ∈ payments (actionsOf hash s d)) :
    ∃ next actions, deliver (receive hash) s d = some (next,actions) ∧
      payment ∈ payments actions := by
  unfold actionsOf at paid
  cases outcome : deliver (receive hash) s d with
  | none => simp [outcome,payments] at paid
  | some result => exact ⟨result.1,result.2,rfl,by simpa [outcome] using paid⟩

/-- Threshold soundness: whatever was delivered before, an execution is backed by approvals
of that many distinct configured signers since the last submission, and by no rejection. -/
theorem threshold_soundness (hash : Cell → Int) (collisionFree : CollisionFree hash)
    (deployer : Address) (past : List (Delivery Message)) (d : Delivery Message) :
    ∀ payment ∈ payments (actionsOf hash (run hash (init deployer) past) d),
      Backed hash payment.nftAddress payment.proposalId (journal hash (init deployer) past) := by
  intro payment paid
  obtain ⟨next,actions,accepted,paid⟩ := actionsOf_payment paid
  have effect := receive_effect (deliver_received accepted)
  obtain ⟨p,-,stored,ready,-⟩ := effect_payment effect paid
  have tracked := run_tracked collisionFree deployer past payment.nftAddress payment.proposalId
  have accounted := tracked.accounted p stored
  exact
    { submitted := accounted.submitted
      distinct := tracked.distinct
      signers := tracked.signers
      reached := accounted.reached (.inl ready)
      unrejected := accounted.unrejected (by simp [ready]) }

def twoApprovals : List (Delivery Message) :=
  [sentBy secondSigner (.approvePaymentProposal card 1),
    sentBy firstSigner (.approvePaymentProposal card 1),
    sentBy owner (.submitPaymentProposal card 1 payee 50),
    sentBy owner (.configureMultiSig card 2 firstSigner secondSigner firstSigner),
    sentBy owner (.registerNFTOwnerMultiSig card owner)]

theorem two_approvals_back_a_payment :
    Backed packedHash card 1 (journal packedHash (init owner) twoApprovals) :=
  threshold_soundness packedHash packedHash_collisionFree owner twoApprovals
    (sentBy owner (.executePaymentProposal card 1)) ⟨card,1,payee,50⟩ (by decide +kernel)

end Tonbankcard.MultiSigCard
