import Tonbankcard.MultiSigCard

/-! The history of one proposal: which operations a journal carried out on it, and what
each of them does to the stored proposal and to the approval records. A refused message
carries out nothing. -/
namespace Tonbankcard.MultiSigCard

open Ton

abbrev Entry := Journal.Entry State (Delivery Message) (List (Action Body))

/-- A run of deliveries, newest first, and the journal of the accepted ones. -/
def run (hash : Cell → Int) (initial : State) (deliveries : List (Delivery Message)) : State :=
  Journal.run (deliver (receive hash)) initial deliveries

def journal (hash : Cell → Int) (initial : State) (deliveries : List (Delivery Message)) :
    List Entry := Journal.journal (deliver (receive hash)) initial deliveries

/-- The actions of a delivery; a refused one takes none. -/
def actionsOf (hash : Cell → Int) (s : State) (d : Delivery Message) : List (Action Body) :=
  ((deliver (receive hash) s d).map Prod.snd).getD []

section Payments

structure Payment where
  nftAddress : Address
  proposalId : BitVec 64
  recipient : Address
  amount : Nat
  deriving DecidableEq, Repr

def paymentOf : Action Body → Option Payment
  | .send parameters =>
    match parameters.body with
    | .paymentProposalExecuted nftAddress proposalId _ _ _ =>
      some ⟨nftAddress,proposalId,parameters.destination,parameters.value⟩
    | _ => none
  | .emit _ => none

/-- The proposal payments among the messages a transaction sends, with what is sent where. -/
def payments (actions : List (Action Body)) : List Payment := actions.filterMap paymentOf

@[simp] theorem payments_executionActions (env : Context) (nft : Address) (id : BitVec 64)
    (p : PaymentProposal) :
    payments (executionActions env nft id p) = [⟨nft,id,p.recipient,p.amount⟩] := rfl

/-- Only an execution pays, and it pays what its proposal stores. -/
theorem effect_payment {hash : Cell → Int} {env : Context} {self next : State}
    (effect : Effect hash env self msg next actions) (paid : payment ∈ payments actions) :
    ∃ p, msg = .executePaymentProposal payment.nftAddress payment.proposalId ∧
      self.getProposal hash payment.nftAddress payment.proposalId = some p ∧
      p.status = .approved ∧ p.recipient = payment.recipient ∧ p.amount = payment.amount ∧
      p.amount ≤ env.value ∧
      next = self.putProposal hash payment.nftAddress payment.proposalId
        {p with status := .executed} ∧
      actions = executionActions env payment.nftAddress payment.proposalId p := by
  cases effect with
  | @executed _ _ p owner stored ready funded =>
    rw [payments_executionActions,List.mem_singleton] at paid
    subst paid
    exact ⟨p,rfl,stored,ready,rfl,rfl,funded,rfl,rfl⟩
  | _ => simp [payments,paymentOf,sendResponse] at paid

end Payments

section Operations
variable {nft other : Address} {id otherId : BitVec 64}

def isAcknowledgement : Action Body → Bool
  | .send parameters =>
    match parameters.body with
    | .multiSigResponse success .. => success
    | _ => false
  | .emit _ => false

/-- The message of an entry that was answered with success. -/
def accomplished (entry : Entry) : Option Message :=
  if entry.output.any isAcknowledgement then some entry.input.message else none

inductive Operation where
  | submit (recipient : Address) (amount : Nat)
  | approve (signer : Address)
  | reject
  | execute
  | other
  deriving DecidableEq, Repr

/-- What an entry carried out on the proposal `id` of `nft`. -/
def operation (nft : Address) (id : BitVec 64) (entry : Entry) : Operation :=
  match accomplished entry with
  | some (.submitPaymentProposal nftAddress proposalId recipient amount) =>
    if nftAddress = nft ∧ proposalId = id then .submit recipient amount else .other
  | some (.approvePaymentProposal nftAddress proposalId) =>
    if nftAddress = nft ∧ proposalId = id then .approve entry.input.context.sender else .other
  | some (.rejectPaymentProposal nftAddress proposalId) =>
    if nftAddress = nft ∧ proposalId = id then .reject else .other
  | some (.executePaymentProposal nftAddress proposalId) =>
    if nftAddress = nft ∧ proposalId = id then .execute else .other
  | _ => .other

theorem operation_submit (submitted : operation nft id entry = .submit recipient amount) :
    entry.input.message = .submitPaymentProposal nft id recipient amount := by
  unfold operation at submitted
  split at submitted
  next named =>
    split at submitted
    next same =>
      obtain ⟨rfl,rfl⟩ := same
      obtain ⟨rfl,rfl⟩ := Operation.submit.inj submitted
      unfold accomplished at named
      split at named
      · exact Option.some.inj named
      · contradiction
    next => contradiction
  all_goals first | contradiction | (split at submitted <;> contradiction)

def submits (nft : Address) (id : BitVec 64) (entry : Entry) : Bool :=
  match operation nft id entry with
  | .submit .. => true
  | _ => false

def approver (nft : Address) (id : BitVec 64) (entry : Entry) : Option Address :=
  match operation nft id entry with
  | .approve signer => some signer
  | _ => none

theorem proposalKey_injective {hash : Cell → Int} (collisionFree : CollisionFree hash)
    (same : proposalKey hash nft id = proposalKey hash other otherId) :
    nft = other ∧ id = otherId := by
  obtain ⟨addresses,ids⟩ := List.append_inj (collisionFree _ _ same) (by simp)
  exact ⟨Address.bits_injective addresses,uintBits_toNat_injective (by decide) ids⟩

theorem approvalKey_injective {hash : Cell → Int} (collisionFree : CollisionFree hash)
    (same : approvalKey hash nft id signer = approvalKey hash other otherId otherSigner) :
    nft = other ∧ id = otherId ∧ signer = otherSigner := by
  obtain ⟨front,signers⟩ := List.append_inj (collisionFree _ _ same) (by simp)
  obtain ⟨addresses,ids⟩ := List.append_inj front (by simp)
  exact ⟨Address.bits_injective addresses,uintBits_toNat_injective (by decide) ids,
    Address.bits_injective signers⟩

/-- What an operation on a proposal requires of the state before it and leaves after it.
Anything else keeps the proposal and its approval records. -/
inductive Slot (hash : Cell → Int) (env : Context) (self : State) (nft : Address)
    (id : BitVec 64) : Operation → State → Prop where
  | submit (owner : self.nftOwners.get nft = some env.sender) (positive : 0 < amount)
      (active : (self.getMultiSigConfig nft).isActive = true) :
      Slot hash env self nft id (.submit recipient amount) (self.putProposal hash nft id
        {status := .pending,recipient,amount,approvalCount := 0,createdAt := env.now})
  | approve (signer : isSigner env.sender (self.getMultiSigConfig nft) = true)
      (stored : self.getProposal hash nft id = some p) (pending : p.status = .pending)
      (fresh : self.hasApproved hash nft id env.sender = false) :
      Slot hash env self nft id (.approve env.sender)
        ((self.putApproval hash nft id env.sender).putProposal hash nft id
          (p.count (self.getMultiSigConfig nft).requiredSignatures))
  | reject (stored : self.getProposal hash nft id = some p) (pending : p.status = .pending) :
      Slot hash env self nft id .reject
        (self.putProposal hash nft id {p with status := .rejected})
  | execute (stored : self.getProposal hash nft id = some p) (ready : p.status = .approved) :
      Slot hash env self nft id .execute
        (self.putProposal hash nft id {p with status := .executed})
  | other (proposal : next.getProposal hash nft id = self.getProposal hash nft id)
      (approvals : next.hasApproved hash nft id = self.hasApproved hash nft id) :
      Slot hash env self nft id .other next

theorem slot_putProposal {hash : Cell → Int} (collisionFree : CollisionFree hash)
    (apart : ¬(other = nft ∧ otherId = id)) (self : State) :
    (self.putProposal hash other otherId p).getProposal hash nft id =
      self.getProposal hash nft id := by
  rw [State.getProposal_putProposal,if_neg]
  intro same
  obtain ⟨rfl,rfl⟩ := proposalKey_injective collisionFree same
  exact apart ⟨rfl,rfl⟩

theorem slot_putApproval {hash : Cell → Int} (collisionFree : CollisionFree hash)
    (apart : ¬(other = nft ∧ otherId = id)) (self : State) :
    (self.putApproval hash other otherId signer).hasApproved hash nft id =
      self.hasApproved hash nft id := by
  funext otherSigner
  rw [State.hasApproved_putApproval,decide_eq_false,Bool.false_or]
  intro same
  obtain ⟨rfl,rfl,-⟩ := approvalKey_injective collisionFree same
  exact apart ⟨rfl,rfl⟩

/-- Each accepted message acts on a proposal through its operation alone. -/
theorem effect_slot {hash : Cell → Int} (collisionFree : CollisionFree hash)
    {d : Delivery Message} {self next : State}
    (effect : Effect hash d.context self d.message next actions) (nft : Address)
    (id : BitVec 64) :
    Slot hash d.context self nft id (operation nft id ⟨self,d,next,actions⟩) next := by
  obtain ⟨context,msg,commits⟩ := d
  cases effect with
  | submitted owner positive active =>
    change Slot hash context self nft id (if _ ∧ _ then _ else _) _
    split
    next same => obtain ⟨rfl,rfl⟩ := same; exact .submit owner positive active
    next apart => exact .other (slot_putProposal collisionFree apart self) rfl
  | approved active signer stored pending fresh =>
    change Slot hash context self nft id (if _ ∧ _ then _ else _) _
    split
    next same => obtain ⟨rfl,rfl⟩ := same; exact .approve signer stored pending fresh
    next apart =>
      exact .other (slot_putProposal collisionFree apart _)
        (slot_putApproval collisionFree apart self)
  | rejected authority stored pending =>
    change Slot hash context self nft id (if _ ∧ _ then _ else _) _
    split
    next same => obtain ⟨rfl,rfl⟩ := same; exact .reject stored pending
    next apart => exact .other (slot_putProposal collisionFree apart self) rfl
  | executed owner stored ready =>
    change Slot hash context self nft id (if _ ∧ _ then _ else _) _
    split
    next same => obtain ⟨rfl,rfl⟩ := same; exact .execute stored ready
    next apart => exact .other (slot_putProposal collisionFree apart self) rfl
  | _ => exact .other rfl rfl

/-- What was accepted since the most recent submission of the proposal. -/
def window (nft : Address) (id : BitVec 64) (entries : List Entry) : List Entry :=
  entries.takeWhile (fun entry => !submits nft id entry)

/-- Who approved since then, newest first. -/
def approvers (nft : Address) (id : BitVec 64) (entries : List Entry) : List Address :=
  (window nft id entries).filterMap (approver nft id)

theorem window_submit (submitted : operation nft id entry = .submit recipient amount) :
    window nft id (entry :: past) = [] := by simp [window,submits,submitted]

theorem window_other (other : ∀ recipient amount, operation nft id entry ≠ .submit recipient amount) :
    window nft id (entry :: past) = entry :: window nft id past := by
  have kept : submits nft id entry = false := by
    unfold submits
    split
    next submitted => exact absurd submitted (other _ _)
    next => rfl
  simp [window,kept]

theorem approvers_submit (submitted : operation nft id entry = .submit recipient amount) :
    approvers nft id (entry :: past) = [] := by simp [approvers,window_submit submitted]

theorem approvers_approve (approved : operation nft id entry = .approve signer) :
    approvers nft id (entry :: past) = signer :: approvers nft id past := by
  rw [approvers,window_other (by simp [approved]),List.filterMap_cons]
  simp [approver,approved,approvers]

theorem approvers_other (other : ∀ recipient amount, operation nft id entry ≠ .submit recipient amount)
    (silent : ∀ signer, operation nft id entry ≠ .approve signer) :
    approvers nft id (entry :: past) = approvers nft id past := by
  have none : approver nft id entry = none := by
    unfold approver
    split
    next approved => exact absurd approved (silent _)
    next => rfl
  simp [approvers,window_other other,none]

end Operations

section Participants

def card : Address := newAddress 0 7
def owner : Address := newAddress 0 1
def firstSigner : Address := newAddress 0 2
def secondSigner : Address := newAddress 0 3
def payee : Address := newAddress 0 4

def sentBy (sender : Address) (message : Message) : Delivery Message :=
  ⟨⟨sender,1000,100⟩,message,true⟩

end Participants
end Tonbankcard.MultiSigCard
