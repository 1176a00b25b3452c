import Tonbankcard.MultiSigCardHistory

/-! Whether a proposal pays at most once. The stored status gates an execution, and a new
submission under the same id writes a fresh status over it, so everything turns on what a
submission finds stored. -/
namespace Tonbankcard.MultiSigCard

open Ton

variable {nft : Address} {id : BitVec 64}

def pays (nft : Address) (id : BitVec 64) (entry : Entry) : Bool :=
  (payments entry.output).any (fun payment => payment.nftAddress == nft && payment.proposalId == id)

/-- Every proposal is executed at most once and never leaves the executed status. -/
structure ExecutedOnce (hash : Cell → Int) (entries : List Entry) : Prop where
  once : ∀ nft id, entries.countP (pays nft id) ≤ 1
  terminal : ∀ entry ∈ entries, ∀ nft id,
    entry.before.getProposalStatus hash nft id = .executed →
      entry.after.getProposalStatus hash nft id = .executed

/-- No submission that passes its checks names an executed proposal. -/
def FreshSubmissions (hash : Cell → Int) (entries : List Entry) : Prop :=
  ∀ entry ∈ entries, ∀ nft id recipient amount,
    entry.input.message = .submitPaymentProposal nft id recipient amount →
    Submittable entry.before entry.input.context nft amount →
    entry.before.getProposalStatus hash nft id ≠ .executed

theorem effect_pays {hash : Cell → Int} {d : Delivery Message} {s next : State}
    (effect : Effect hash d.context s d.message next actions)
    (paid : pays nft id ⟨s,d,next,actions⟩ = true) :
    s.getProposalStatus hash nft id = .approved ∧
      next.getProposalStatus hash nft id = .executed := by
  obtain ⟨payment,member,named⟩ := List.any_eq_true.mp paid
  simp only [Bool.and_eq_true,beq_iff_eq] at named
  obtain ⟨rfl,rfl⟩ := named
  obtain ⟨p,-,stored,ready,-,-,-,rfl,-⟩ := effect_payment effect member
  refine ⟨by rw [State.getProposalStatus_stored s p stored,ready],?_⟩
  rw [State.getProposalStatus_putProposal,if_pos rfl]

/-- Storing over a proposal that is not executed keeps the executed ones, even those that
share its key. -/
theorem putProposal_terminal {hash : Cell → Int} {s : State}
    (written : s.getProposalStatus hash other otherId ≠ .executed)
    (executed : s.getProposalStatus hash nft id = .executed) :
    (s.putProposal hash other otherId p).getProposalStatus hash nft id = .executed := by
  rw [State.getProposalStatus_putProposal,if_neg]
  · exact executed
  · intro same
    refine written (Eq.trans ?_ executed)
    simp only [State.getProposalStatus,State.getProposal,same]

theorem effect_terminal {hash : Cell → Int} {env : Context} {s next : State}
    (effect : Effect hash env s msg next actions)
    (fresh : ∀ nft id recipient amount, msg = .submitPaymentProposal nft id recipient amount →
      Submittable s env nft amount → s.getProposalStatus hash nft id ≠ .executed)
    (executed : s.getProposalStatus hash nft id = .executed) :
    next.getProposalStatus hash nft id = .executed := by
  cases effect with
  | submitted owner positive active =>
    exact putProposal_terminal (fresh _ _ _ _ rfl ⟨owner,positive,active⟩) executed
  | approved active signer stored pending =>
    refine putProposal_terminal (s := s.putApproval ..) ?_ executed
    change s.getProposalStatus hash _ _ ≠ _
    rw [State.getProposalStatus_stored s _ stored,pending]
    decide
  | rejected authority stored pending =>
    refine putProposal_terminal ?_ executed
    rw [State.getProposalStatus_stored s _ stored,pending]
    decide
  | executed owner stored ready =>
    refine putProposal_terminal ?_ executed
    rw [State.getProposalStatus_stored s _ stored,ready]
    decide
  | _ => exact executed

/-- What a run of fresh submissions maintains: a payment made is a status executed. -/
structure Settled (hash : Cell → Int) (entries : List Entry) (s : State) : Prop where
  counted : ∀ nft id, entries.countP (pays nft id) ≤
    if s.getProposalStatus hash nft id = .executed then 1 else 0
  terminal : ∀ entry ∈ entries, ∀ nft id,
    entry.before.getProposalStatus hash nft id = .executed →
      entry.after.getProposalStatus hash nft id = .executed

theorem settled_step {hash : Cell → Int} {d : Delivery Message} {s next : State}
    (settled : Settled hash past s)
    (effect : Effect hash d.context s d.message next actions)
    (fresh : ∀ nft id recipient amount,
      d.message = .submitPaymentProposal nft id recipient amount →
      Submittable s d.context nft amount → s.getProposalStatus hash nft id ≠ .executed) :
    Settled hash (⟨s,d,next,actions⟩ :: past) next := by
  constructor
  · intro nft id
    have before := settled.counted nft id
    rw [List.countP_cons]
    by_cases paid : pays nft id ⟨s,d,next,actions⟩ = true
    · obtain ⟨ready,done⟩ := effect_pays effect paid
      rw [ready,if_neg (by decide)] at before
      rw [if_pos paid,if_pos done]
      omega
    · rw [if_neg paid]
      by_cases executed : s.getProposalStatus hash nft id = .executed
      · rw [if_pos executed] at before
        rw [if_pos (effect_terminal effect fresh executed)]
        exact before
      · rw [if_neg executed] at before
        omega
  · intro entry member
    rcases List.mem_cons.mp member with rfl | member
    · exact fun _ _ executed => effect_terminal effect fresh executed
    · exact settled.terminal entry member

theorem run_settled (hash : Cell → Int) (deployer : Address)
    (deliveries : List (Delivery Message)) :
    FreshSubmissions hash (journal hash (init deployer) deliveries) →
      Settled hash (journal hash (init deployer) deliveries)
        (run hash (init deployer) deliveries) := by
  refine deliver_invariant (fun entries s => FreshSubmissions hash entries → Settled hash entries s)
    ?_ ?_ deliveries
  · intro _
    constructor <;> simp
  · intro past s d next actions settled accepted fresh
    refine settled_step (settled fun entry member => fresh entry (.tail _ member))
      (receive_effect accepted) ?_
    exact fresh _ (.head _)

/-- A proposal pays at most once and executed is terminal over exactly the runs whose
submissions never name an executed proposal. -/
theorem executed_once_iff (hash : Cell → Int) (deployer : Address)
    (deliveries : List (Delivery Message)) :
    ExecutedOnce hash (journal hash (init deployer) deliveries) ↔
      FreshSubmissions hash (journal hash (init deployer) deliveries) := by
  constructor
  · intro holds entry member nft id recipient amount submission submittable executed
    have kept := holds.terminal entry member nft id executed
    have accepted := entry_received member
    rw [submission,receive_submit submittable,Except.ok.injEq,Prod.mk.injEq] at accepted
    rw [← accepted.1,State.getProposalStatus_putProposal,if_pos rfl] at kept
    contradiction
  · intro fresh
    have settled := run_settled hash deployer deliveries fresh
    refine ⟨fun nft id => (settled.counted nft id).trans ?_,settled.terminal⟩
    split <;> omega

section Replay

/-- The second signer's approval carries a proposal that was already paid once. -/
def replayedProposal : List (Delivery Message) :=
  [sentBy owner (.executePaymentProposal card 1),
    sentBy secondSigner (.approvePaymentProposal card 1),
    sentBy owner (.submitPaymentProposal card 1 payee 50),
    sentBy owner (.executePaymentProposal card 1),
    sentBy firstSigner (.approvePaymentProposal card 1),
    sentBy owner (.submitPaymentProposal card 1 payee 50),
    sentBy owner (.configureMultiSig card 1 firstSigner secondSigner (newAddress 0 0)),
    sentBy owner (.registerNFTOwnerMultiSig card owner)]

theorem replayed_proposal_pays_twice :
    ¬ExecutedOnce packedHash (journal packedHash (init owner) replayedProposal) := by
  intro holds
  have twice : (journal packedHash (init owner) replayedProposal).countP (pays card 1) = 2 := by
    decide +kernel
  have once := holds.once card 1
  omega

end Replay
end Tonbankcard.MultiSigCard
