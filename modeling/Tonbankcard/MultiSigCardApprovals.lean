import Mathlib.Data.Set.Card
import Tonbankcard.MultiSigCardQuorum

/-! Whether the approval records stay in step with the count of the stored proposal. Only an
approval writes a record and nothing ever clears one, while a submission resets the count. -/
namespace Tonbankcard.MultiSigCard

open Ton

variable {hash : Cell → Int} {nft : Address} {id : BitVec 64}

/-- The addresses whose approvals entry for the proposal is true. -/
def approvalRecords (hash : Cell → Int) (s : State) (nft : Address) (id : BitVec 64) :
    Set Address := {signer | s.hasApproved hash nft id signer = true}

/-- The approval records of a reached state agree with its proposals, seen from the count,
from a refused signer and from a proposal nobody has approved yet. -/
structure ApprovalsRecorded (hash : Cell → Int) (entries : List Entry) (s : State) : Prop where
  counted : ∀ nft id p, s.getProposal hash nft id = some p →
    (approvalRecords hash s nft id).encard = p.approvalCount
  refused : ∀ env nft id next actions,
    receive hash env (.approvePaymentProposal nft id) s = .ok (next,actions) →
    sendResponse env.sender false errorAlreadyApproved nft id ∈ actions →
    env.sender ∈ approvers nft id entries
  approvable : ∀ env nft id p, s.getProposal hash nft id = some p → p.status = .pending →
    p.approvalCount = 0 → (s.getMultiSigConfig nft).isActive = true →
    isSigner env.sender (s.getMultiSigConfig nft) = true →
    ∃ next actions, receive hash env (.approvePaymentProposal nft id) s = .ok (next,actions) ∧
      sendResponse env.sender true errorNone nft id ∈ actions

/-- No submission that passes its checks names a proposal with an approval on record. -/
def UnrecordedSubmissions (hash : Cell → Int) (entries : List Entry) : Prop :=
  ∀ entry ∈ entries, ∀ nft id recipient amount,
    entry.input.message = .submitPaymentProposal nft id recipient amount →
    Submittable entry.before entry.input.context nft amount →
    ∀ signer, entry.before.hasApproved hash nft id signer = false

/-- Under fresh submissions the records are exactly the approvals since the last one. -/
def Aligned (hash : Cell → Int) (entries : List Entry) (s : State) : Prop :=
  ∀ nft id signer, s.hasApproved hash nft id signer = true ↔ signer ∈ approvers nft id entries

theorem aligned_step (collisionFree : CollisionFree hash) {d : Delivery Message}
    {s next : State} (aligned : Aligned hash past s)
    (effect : Effect hash d.context s d.message next actions)
    (unrecorded : ∀ nft id recipient amount,
      d.message = .submitPaymentProposal nft id recipient amount →
      Submittable s d.context nft amount → ∀ signer, s.hasApproved hash nft id signer = false) :
    Aligned hash (⟨s,d,next,actions⟩ :: past) next := by
  intro nft id signer
  generalize entry_eq : (⟨s,d,next,actions⟩ : Entry) = entry
  have slot := effect_slot collisionFree effect nft id
  rw [entry_eq] at slot
  generalize performed : operation nft id entry = op at slot
  cases slot with
  | submit owner positive active =>
    have message := operation_submit performed
    rw [← entry_eq] at message
    have unset := unrecorded nft id _ _ message ⟨owner,positive,active⟩ signer
    simp [approvers_submit performed,unset]
  | approve =>
    rw [approvers_approve performed,State.hasApproved_putProposal,State.hasApproved_putApproval,
      List.mem_cons,← aligned nft id signer]
    simp only [Bool.or_eq_true,decide_eq_true_eq]
    refine or_congr_left ⟨fun same => (approvalKey_injective collisionFree same).2.2,?_⟩
    rintro rfl
    rfl
  | reject | execute =>
    rw [approvers_other (by simp [performed]) (by simp [performed])]
    exact aligned nft id signer
  | other proposal approvals =>
    rw [approvers_other (by simp [performed]) (by simp [performed]),approvals]
    exact aligned nft id signer

theorem run_aligned (collisionFree : CollisionFree hash) (deployer : Address)
    (deliveries : List (Delivery Message)) :
    UnrecordedSubmissions hash (journal hash (init deployer) deliveries) →
      Aligned hash (journal hash (init deployer) deliveries)
        (run hash (init deployer) deliveries) := by
  refine deliver_invariant (fun entries s => UnrecordedSubmissions hash entries →
    Aligned hash entries s) ?_ ?_ deliveries
  · intro _ nft id signer
    simp [init,State.hasApproved,approvers,window]
  · intro past s d next actions aligned accepted unrecorded
    refine aligned_step collisionFree (aligned fun entry member => unrecorded entry (.tail _ member))
      (receive_effect accepted) ?_
    exact unrecorded _ (.head _)

theorem encard_mem (signers : List Address) (distinct : signers.Nodup) :
    {signer | signer ∈ signers}.encard = signers.length := by
  rw [← List.coe_toFinset,Set.encard_coe_eq_coe_finsetCard,List.toFinset_card_of_nodup distinct]

theorem aligned_recorded {entries : List Entry} {s : State} (aligned : Aligned hash entries s)
    (tracked : ∀ nft id, Tracked hash nft id entries s) :
    ApprovalsRecorded hash entries s := by
  constructor
  · intro nft id p stored
    have records : approvalRecords hash s nft id = {signer | signer ∈ approvers nft id entries} :=
      Set.ext (aligned nft id)
    rw [records,encard_mem _ (tracked nft id).distinct,
      ((tracked nft id).accounted p stored).count]
  · intro env nft id next actions accepted refusal
    have effect := receive_effect accepted
    refine (aligned nft id env.sender).mp ?_
    cases effect with
    | alreadyApproved stored pending recorded => exact recorded
    | refused failure other =>
      simp only [List.mem_singleton,sendResponse,Action.send.injEq,SendParameters.mk.injEq,
        Body.multiSigResponse.injEq] at refusal
      exact absurd refusal.2.2.2.2.2.1.symm other
    | approved => simp [sendResponse,errorAlreadyApproved,errorNone] at refusal
  · intro env nft id p stored pending none active signer
    have nobody : approvers nft id entries = [] := by
      rw [← List.length_eq_zero_iff,← ((tracked nft id).accounted p stored).count]
      exact none
    have fresh : s.hasApproved hash nft id env.sender = false := by
      rw [Bool.eq_false_iff,ne_eq,aligned,nobody]
      exact List.not_mem_nil
    exact ⟨_,_,receive_approve active signer stored pending fresh,by simp⟩

/-- The records stay in step over exactly the runs whose submissions never name a proposal
with an approval on record. -/
theorem approvals_recorded_iff (hash : Cell → Int) (collisionFree : CollisionFree hash)
    (deployer : Address) (deliveries : List (Delivery Message)) :
    (∀ past, past <:+ deliveries → ApprovalsRecorded hash
      (journal hash (init deployer) past) (run hash (init deployer) past)) ↔
    UnrecordedSubmissions hash (journal hash (init deployer) deliveries) := by
  constructor
  · intro holds entry member nft id recipient amount submission submittable signer
    obtain ⟨past,earlier,-,after⟩ := Journal.entry_reached member
    have accepted := entry_received member
    rw [submission,receive_submit submittable,Except.ok.injEq,Prod.mk.injEq] at accepted
    have stored : (entry.before.putProposal hash nft id
        ⟨.pending,recipient,amount,0,entry.input.context.now⟩).getProposal hash nft id = some _ :=
      State.getProposal_putProposal_same ..
    rw [accepted.1,after] at stored
    have empty := (holds _ earlier).counted nft id _ stored
    rw [Nat.cast_zero,Set.encard_eq_zero] at empty
    have unset : signer ∉ approvalRecords hash entry.after nft id := by
      rw [after]
      exact empty ▸ Set.notMem_empty signer
    rw [← accepted.1] at unset
    exact Bool.eq_false_iff.mpr unset
  · intro unrecorded past earlier
    refine aligned_recorded (run_aligned collisionFree deployer past ?_)
      (run_tracked collisionFree deployer past)
    exact fun entry member => unrecorded entry ((Journal.journal_suffix earlier).subset member)

/-- The owner submits a proposal again while the first signer's approval is on record. -/
def resubmittedProposal : List (Delivery Message) :=
  [sentBy owner (.submitPaymentProposal card 1 payee 50),
    sentBy firstSigner (.approvePaymentProposal card 1),
    sentBy owner (.submitPaymentProposal card 1 payee 50),
    sentBy owner (.configureMultiSig card 2 firstSigner secondSigner (newAddress 0 0)),
    sentBy owner (.registerNFTOwnerMultiSig card owner)]

theorem resubmitted_proposal_recorded_iff :
    (∀ past, past <:+ resubmittedProposal → ApprovalsRecorded packedHash
      (journal packedHash (init owner) past) (run packedHash (init owner) past)) ↔
    UnrecordedSubmissions packedHash (journal packedHash (init owner) resubmittedProposal) :=
  approvals_recorded_iff packedHash packedHash_collisionFree owner resubmittedProposal

theorem resubmitted_proposal_keeps_record :
    ¬∀ past, past <:+ resubmittedProposal → ApprovalsRecorded packedHash
      (journal packedHash (init owner) past) (run packedHash (init owner) past) := by
  intro holds
  have stored : (run packedHash (init owner) resubmittedProposal).getProposal packedHash card 1 =
      some ⟨.pending,payee,50,0,100⟩ := by decide +kernel
  have recorded : (run packedHash (init owner) resubmittedProposal).hasApproved packedHash card 1
      firstSigner = true := by decide +kernel
  have empty := (holds _ (List.suffix_refl _)).counted card 1 _ stored
  rw [Nat.cast_zero,Set.encard_eq_zero] at empty
  have member : firstSigner ∈ approvalRecords packedHash
      (run packedHash (init owner) resubmittedProposal) card 1 := recorded
  rw [empty] at member
  exact member

end Tonbankcard.MultiSigCard
