import Tonbankcard.MultiSigCardHistory

/-! What an execution does to the contract's balance. The payment carries its own amount
and the acknowledgement, in mode 64, the whole inbound value besides, so the two sends
draw on more than came in unless the contract cannot cover the second. -/
namespace Tonbankcard.MultiSigCard

open Ton

variable (forwardFee : Action Body → Nat)

/-- The messages sent carry no more than the inbound value and no less than it less fees. -/
def ValueConserved (inbound : Nat) (receipt : Receipt Body) : Prop :=
  receipt.sent.sum ≤ inbound ∧ inbound ≤ receipt.sent.sum + receipt.fees

instance : Decidable (ValueConserved inbound receipt) := inferInstanceAs (Decidable (_ ∧ _))

/-- The inbound value is passed on exactly when the balance from before is kept, up to the
fees of the transaction. -/
theorem valueConserved_balance {hash : Cell → Int} {s next : State} {a : Arrival Message}
    {receipt : Receipt Body}
    (transacted : transact (receive hash) forwardFee s a = some (next,receipt)) :
    ValueConserved a.context.value receipt ↔
      receipt.balance ≤ a.balance ∧ a.balance ≤ receipt.balance + receipt.fees := by
  have total := transact_total transacted
  unfold ValueConserved
  constructor
  · rintro ⟨noMore,noLess⟩
    exact ⟨by omega,by omega⟩
  · rintro ⟨noGain,noLoss⟩
    exact ⟨by omega,by omega⟩

section Fees
variable (a : Arrival Message) (payment : Payment)

def paymentFee : Nat :=
  forwardFee (executionPayment a.context payment.nftAddress payment.proposalId payment.recipient
    payment.amount)

def eventFee : Nat :=
  forwardFee (executionEvent a.context payment.nftAddress payment.proposalId payment.recipient
    payment.amount)

def acknowledgementFee : Nat :=
  forwardFee (executionAcknowledgement a.context payment.nftAddress payment.proposalId)

/-- The balance from before covers the payment and its fees, and the inbound value the
acknowledgement's, so the acknowledgement is not skipped. -/
def AcknowledgementCovered : Prop :=
  payment.amount + paymentFee forwardFee a payment + eventFee forwardFee a payment ≤ a.balance ∧
    a.gas + acknowledgementFee forwardFee a payment ≤ a.context.value

/-- Either the acknowledgement goes out and costs at least the payment, or it is skipped
and the inbound value leaves nothing over. -/
def ExactlyFunded : Prop :=
  (AcknowledgementCovered forwardFee a payment ∧
    payment.amount ≤ a.gas + acknowledgementFee forwardFee a payment) ∨
  (¬AcknowledgementCovered forwardFee a payment ∧
    a.context.value ≤
      payment.amount + a.gas + paymentFee forwardFee a payment + eventFee forwardFee a payment)

end Fees

/-- The three messages of an execution either all go out, or the first two do and the
acknowledgement is skipped. -/
theorem performAll_execution (a : Arrival Message) (payment : Payment) (purse : Purse)
    (accepted : a.gas ≤ a.context.value)
    (performed : performAll a.context.value a.gas forwardFee
      ⟨a.balance + a.context.value - a.gas,[],a.gas⟩
      [executionPayment a.context payment.nftAddress payment.proposalId payment.recipient
          payment.amount,
        executionEvent a.context payment.nftAddress payment.proposalId payment.recipient
          payment.amount,
        executionAcknowledgement a.context payment.nftAddress payment.proposalId] = some purse) :
    (AcknowledgementCovered forwardFee a payment ∧
      purse.sent.sum + a.gas + acknowledgementFee forwardFee a payment =
        payment.amount + a.context.value ∧
      purse.fees = a.gas + paymentFee forwardFee a payment + eventFee forwardFee a payment +
        acknowledgementFee forwardFee a payment) ∨
    (¬AcknowledgementCovered forwardFee a payment ∧ purse.sent.sum = payment.amount ∧
      purse.fees = a.gas + paymentFee forwardFee a payment + eventFee forwardFee a payment) := by
  simp only [performAll,List.foldlM_cons,List.foldlM_nil,Option.bind_eq_bind,
    Option.bind_eq_some_iff,Option.pure_def,Option.some.injEq] at performed
  obtain ⟨paid,first,emitted,second,_,third,rfl⟩ := performed
  unfold executionPayment at first
  rw [perform_payGasSeparately _ _ _ _ _ rfl,Option.ite_none_right_eq_some] at first
  obtain ⟨covered,first⟩ := first
  obtain rfl := Option.some.inj first
  simp only [executionEvent,perform,Option.ite_none_right_eq_some,Option.some.injEq] at second
  obtain ⟨announced,rfl⟩ := second
  unfold executionAcknowledgement at third
  rw [perform_remainingValue _ _ _ _ _ rfl rfl] at third
  simp only [AcknowledgementCovered,paymentFee,eventFee,acknowledgementFee,executionPayment,
    executionEvent,executionAcknowledgement]
  dsimp only at covered announced third
  generalize forwardFee (.send _) = payFee at *
  generalize forwardFee (.emit _) = logFee at *
  generalize forwardFee (.send _) = ackFee at *
  split at third
  · next sent =>
    obtain rfl := Option.some.inj third
    refine .inl ⟨?_,?_,rfl⟩
    · omega
    · simp only [List.sum_cons,List.sum_nil]
      omega
  · next skipped =>
    obtain rfl := Option.some.inj third
    exact .inr ⟨by omega,by simp,rfl⟩

/-- One execution conserves value exactly when it is exactly funded, whatever the balance. -/
theorem execution_value_iff {hash : Cell → Int} {s next : State} {a : Arrival Message}
    {receipt : Receipt Body}
    (transacted : transact (receive hash) forwardFee s a = some (next,receipt))
    (paid : payment ∈ payments receipt.actions) :
    ValueConserved a.context.value receipt ↔ ExactlyFunded forwardFee a payment := by
  obtain ⟨accepted,received,performed⟩ := transact_some.mp transacted
  obtain ⟨p,-,-,-,recipient,amount,funded,-,actions⟩ :=
    effect_payment (receive_effect received) paid
  rw [actions,executionActions,recipient,amount] at performed
  have outcome := performAll_execution forwardFee a payment _ accepted performed
  rw [amount] at funded
  unfold ValueConserved ExactlyFunded
  rcases outcome with ⟨covered,sent,fees⟩ | ⟨uncovered,sent,fees⟩
  · have balanced := covered.2
    simp only [covered,not_true,false_and,or_false,true_and]
    dsimp only at sent fees
    omega
  · simp only [uncovered,not_false_eq_true,false_and,false_or,true_and]
    dsimp only at sent fees
    omega

/-- Value conservation over runs: an execution in any run, from any contract balance, sends
on what came in less fees exactly when it is exactly funded. -/
theorem run_value_iff (hash : Cell → Int) (deployer : Address) (arrivals : List (Arrival Message)) :
    ∀ entry ∈ Journal.journal (transact (receive hash) forwardFee) (init deployer) arrivals,
      ∀ payment ∈ payments entry.output.actions,
        (ValueConserved entry.input.context.value entry.output ↔
          ExactlyFunded forwardFee entry.input payment) := by
  intro entry member payment paid
  exact execution_value_iff forwardFee (Journal.entry_accepted arrivals entry member) paid

/-- The payer sends twice the amount to a card that holds funds of its own. -/
def overfundedExecution : List (Arrival Message) :=
  [.executePaymentProposal card 1,.approvePaymentProposal card 1,
    .submitPaymentProposal card 1 payee 50,
    .configureMultiSig card 1 owner firstSigner secondSigner,
    .registerNFTOwnerMultiSig card owner].map (fun message => ⟨⟨owner,100,0⟩,message,1000,10⟩)

theorem overfunded_execution_value_iff :
    ∃ entry ∈ Journal.journal (transact (receive packedHash) (fun _ => 1)) (init owner)
        overfundedExecution,
      ∃ payment ∈ payments entry.output.actions,
        (ValueConserved entry.input.context.value entry.output ↔
          ExactlyFunded (fun _ => 1) entry.input payment) := by
  obtain ⟨entry,member,paid⟩ : ∃ entry ∈ Journal.journal (transact (receive packedHash)
      (fun _ => 1)) (init owner) overfundedExecution,
      (⟨card,1,payee,50⟩ : Payment) ∈ payments entry.output.actions := by decide +kernel
  exact ⟨entry,member,_,paid,
    run_value_iff (fun _ => 1) packedHash owner overfundedExecution entry member _ paid⟩

theorem overfunded_execution_spends_balance :
    ¬∀ entry ∈ Journal.journal (transact (receive packedHash) (fun _ => 1)) (init owner)
        overfundedExecution,
      ∀ payment ∈ payments entry.output.actions,
        ValueConserved entry.input.context.value entry.output := by decide +kernel

end Tonbankcard.MultiSigCard
