import Tonbankcard.TonContract

/-! The MultiSigCard contract: the trait's six receivers over its four maps, with the
owner registration of the test harness, which is the only writer of `nft_owners`. Composite
keys are hashes of packed cells; the hash itself is a parameter. -/
namespace Tonbankcard.MultiSigCard

open Ton

inductive ProposalStatus where
  | pending
  | approved
  | rejected
  | executed
  deriving DecidableEq, Repr

def errorNone : Int := 0
def errorNotOwner : Int := 1
def errorNotSigner : Int := 2
def errorInvalidThreshold : Int := 3
def errorProposalNotFound : Int := 4
def errorAlreadyApproved : Int := 5
def errorProposalNotPending : Int := 6
def errorNftNotRegistered : Int := 7
def errorNoConfig : Int := 8
def errorInvalidAmount : Int := 9
def errorProposalNotApproved : Int := 10
def errorInsufficientValue : Int := 11

def maxSigners : Nat := 3

inductive Message where
  | registerNFTOwnerMultiSig (nftAddress owner : Address)
  | configureMultiSig (nftAddress : Address) (requiredSignatures : Nat)
      (signer1 signer2 signer3 : Address)
  | submitPaymentProposal (nftAddress : Address) (proposalId : BitVec 64) (recipient : Address)
      (amount : Nat)
  | approvePaymentProposal (nftAddress : Address) (proposalId : BitVec 64)
  | rejectPaymentProposal (nftAddress : Address) (proposalId : BitVec 64)
  | executePaymentProposal (nftAddress : Address) (proposalId : BitVec 64)
  | removeMultiSig (nftAddress : Address)
  deriving DecidableEq, Repr

inductive Body where
  | multiSigResponse (success : Bool) (errorCode : Int) (nftAddress : Address)
      (proposalId : BitVec 64)
  | multiSigConfigured (nftAddress : Address) (requiredSignatures timestamp : Nat)
  | paymentProposalCreated (nftAddress : Address) (proposalId : BitVec 64) (recipient : Address)
      (amount timestamp : Nat)
  | paymentProposalApproved (nftAddress : Address) (proposalId : BitVec 64) (approver : Address)
      (approvalCount timestamp : Nat)
  | paymentProposalRejected (nftAddress : Address) (proposalId : BitVec 64) (timestamp : Nat)
  | paymentProposalExecuted (nftAddress : Address) (proposalId : BitVec 64) (recipient : Address)
      (amount timestamp : Nat)
  | multiSigRemoved (nftAddress : Address) (timestamp : Nat)
  deriving DecidableEq, Repr

structure MultiSigConfig where
  isActive : Bool
  requiredSignatures : Nat
  signer1 : Address
  signer2 : Address
  signer3 : Address
  createdAt : Nat
  deriving DecidableEq, Repr

structure PaymentProposal where
  status : ProposalStatus
  recipient : Address
  amount : Nat
  approvalCount : Nat
  createdAt : Nat
  deriving DecidableEq, Repr

/-- One more approval; the proposal is approved once the count reaches the threshold. -/
def PaymentProposal.count (p : PaymentProposal) (requiredSignatures : Nat) : PaymentProposal :=
  let newCount := p.approvalCount + 1
  if newCount ≥ requiredSignatures then {p with status := .approved,approvalCount := newCount}
  else {p with status := .pending,approvalCount := newCount}

def defaultMultiSigConfig : MultiSigConfig :=
  { isActive := false
    requiredSignatures := 0
    signer1 := newAddress 0 0
    signer2 := newAddress 0 0
    signer3 := newAddress 0 0
    createdAt := 0 }

structure State where
  multisigConfigs : FiniteMap Address MultiSigConfig
  proposals : FiniteMap Int PaymentProposal
  approvals : FiniteMap Int Bool
  nftOwners : FiniteMap Address Address
  deployer : Address

def init (deployer : Address) : State :=
  { multisigConfigs := ∅
    proposals := ∅
    approvals := ∅
    nftOwners := ∅
    deployer }

section Keys
variable (hash : Cell → Int)

/-- Address and id at fixed positions, 267 and 257 bits. -/
def proposalCell (nftAddress : Address) (proposalId : BitVec 64) : Cell :=
  .ordinary (nftAddress.bits ++ uintBits 257 proposalId.toNat) []

def approvalCell (nftAddress : Address) (proposalId : BitVec 64) (signer : Address) : Cell :=
  .ordinary (nftAddress.bits ++ uintBits 257 proposalId.toNat ++ signer.bits) []

def proposalKey (nftAddress : Address) (proposalId : BitVec 64) : Int :=
  hash (proposalCell nftAddress proposalId)

def approvalKey (nftAddress : Address) (proposalId : BitVec 64) (signer : Address) : Int :=
  hash (approvalCell nftAddress proposalId signer)

end Keys

namespace State
variable (hash : Cell → Int)

def getMultiSigConfig (self : State) (nftAddress : Address) : MultiSigConfig :=
  (self.multisigConfigs.get nftAddress).getD defaultMultiSigConfig

def getProposal (self : State) (nftAddress : Address) (proposalId : BitVec 64) :
    Option PaymentProposal := self.proposals.get (proposalKey hash nftAddress proposalId)

/-- A proposal that was never stored reads as pending. -/
def getProposalStatus (self : State) (nftAddress : Address) (proposalId : BitVec 64) :
    ProposalStatus :=
  match self.getProposal hash nftAddress proposalId with
  | none => .pending
  | some proposal => proposal.status

def hasApproved (self : State) (nftAddress : Address) (proposalId : BitVec 64)
    (signer : Address) : Bool :=
  (self.approvals.get (approvalKey hash nftAddress proposalId signer)).getD false

def validateOwnership (self : State) (sender nftAddress : Address) : Int :=
  match self.nftOwners.get nftAddress with
  | none => errorNftNotRegistered
  | some owner => if owner ≠ sender then errorNotOwner else errorNone

def isOwner (self : State) (sender nftAddress : Address) : Bool :=
  match self.nftOwners.get nftAddress with
  | none => false
  | some owner => owner == sender

end State

def isSigner (sender : Address) (config : MultiSigConfig) : Bool :=
  sender == config.signer1 || sender == config.signer2 || sender == config.signer3

def sendResponse (destination : Address) (success : Bool) (errorCode : Int)
    (nftAddress : Address) (proposalId : BitVec 64) : Action Body :=
  .send {
    destination
    value := 0
    mode := sendRemainingValue
    body := .multiSigResponse success errorCode nftAddress proposalId }

section Receivers
variable (hash : Cell → Int) (env : Context)

def receiveRegisterNFTOwnerMultiSig (nftAddress owner : Address) (self : State) :
    Result (State × List (Action Body)) := do
  require (env.sender = self.deployer) "Unauthorized: only deployer (test-only)"
  require (self.nftOwners.get nftAddress = none) "NFT owner already registered"
  pure ({self with nftOwners := self.nftOwners.set nftAddress owner},[])

def receiveConfigureMultiSig (nftAddress : Address) (requiredSignatures : Nat)
    (signer1 signer2 signer3 : Address) (self : State) : State × List (Action Body) :=
  let errorCode := self.validateOwnership env.sender nftAddress
  if errorCode ≠ errorNone then
    (self,[sendResponse env.sender false errorCode nftAddress 0])
  else if requiredSignatures < 1 ∨ requiredSignatures > maxSigners then
    (self,[sendResponse env.sender false errorInvalidThreshold nftAddress 0])
  else
    let config : MultiSigConfig :=
      {isActive := true,requiredSignatures,signer1,signer2,signer3,createdAt := env.now}
    ({self with multisigConfigs := self.multisigConfigs.set nftAddress config},
      [.emit (.multiSigConfigured nftAddress requiredSignatures env.now),
        sendResponse env.sender true errorNone nftAddress 0])

def receiveSubmitPaymentProposal (nftAddress : Address) (proposalId : BitVec 64)
    (recipient : Address) (amount : Nat) (self : State) : State × List (Action Body) :=
  let errorCode := self.validateOwnership env.sender nftAddress
  if errorCode ≠ errorNone then
    (self,[sendResponse env.sender false errorCode nftAddress proposalId])
  else if amount ≤ 0 then
    (self,[sendResponse env.sender false errorInvalidAmount nftAddress proposalId])
  else if !(self.getMultiSigConfig nftAddress).isActive then
    (self,[sendResponse env.sender false errorNoConfig nftAddress proposalId])
  else
    let proposal : PaymentProposal :=
      {status := .pending,recipient,amount,approvalCount := 0,createdAt := env.now}
    ({self with proposals := self.proposals.set (proposalKey hash nftAddress proposalId) proposal},
      [.emit (.paymentProposalCreated nftAddress proposalId recipient amount env.now),
        sendResponse env.sender true errorNone nftAddress proposalId])

def receiveApprovePaymentProposal (nftAddress : Address) (proposalId : BitVec 64)
    (self : State) : State × List (Action Body) :=
  let config := self.getMultiSigConfig nftAddress
  if !config.isActive then
    (self,[sendResponse env.sender false errorNoConfig nftAddress proposalId])
  else if !isSigner env.sender config then
    (self,[sendResponse env.sender false errorNotSigner nftAddress proposalId])
  else
    match self.getProposal hash nftAddress proposalId with
    | none => (self,[sendResponse env.sender false errorProposalNotFound nftAddress proposalId])
    | some p =>
      if p.status ≠ .pending then
        (self,[sendResponse env.sender false errorProposalNotPending nftAddress proposalId])
      else if self.hasApproved hash nftAddress proposalId env.sender then
        (self,[sendResponse env.sender false errorAlreadyApproved nftAddress proposalId])
      else
        ({self with
            approvals :=
              self.approvals.set (approvalKey hash nftAddress proposalId env.sender) true
            proposals := self.proposals.set (proposalKey hash nftAddress proposalId)
              (p.count config.requiredSignatures)},
          [.emit (.paymentProposalApproved nftAddress proposalId env.sender (p.approvalCount + 1)
              env.now),
            sendResponse env.sender true errorNone nftAddress proposalId])

def receiveRejectPaymentProposal (nftAddress : Address) (proposalId : BitVec 64)
    (self : State) : State × List (Action Body) :=
  let isOwner := self.isOwner env.sender nftAddress
  let config := self.getMultiSigConfig nftAddress
  let isSigner := isSigner env.sender config
  if !isOwner && !isSigner then
    (self,[sendResponse env.sender false errorNotSigner nftAddress proposalId])
  else
    match self.getProposal hash nftAddress proposalId with
    | none => (self,[sendResponse env.sender false errorProposalNotFound nftAddress proposalId])
    | some p =>
      if p.status ≠ .pending then
        (self,[sendResponse env.sender false errorProposalNotPending nftAddress proposalId])
      else
        let rejected : PaymentProposal := {p with status := .rejected}
        ({self with
            proposals := self.proposals.set (proposalKey hash nftAddress proposalId) rejected},
          [.emit (.paymentProposalRejected nftAddress proposalId env.now),
            sendResponse env.sender true errorNone nftAddress proposalId])

def executionPayment (nftAddress : Address) (proposalId : BitVec 64) (recipient : Address)
    (amount : Nat) : Action Body :=
  .send {
    destination := recipient
    value := amount
    mode := sendPayGasSeparately
    bounce := false
    body := .paymentProposalExecuted nftAddress proposalId recipient amount env.now }

def executionEvent (nftAddress : Address) (proposalId : BitVec 64) (recipient : Address)
    (amount : Nat) : Action Body :=
  .emit (.paymentProposalExecuted nftAddress proposalId recipient amount env.now)

def executionAcknowledgement (nftAddress : Address) (proposalId : BitVec 64) : Action Body :=
  .send {
    destination := env.sender
    value := 0
    mode := sendRemainingValue ||| sendIgnoreErrors
    body := .multiSigResponse true errorNone nftAddress proposalId }

/-- The messages of an execution in the order they are sent. -/
def executionActions (nftAddress : Address) (proposalId : BitVec 64) (p : PaymentProposal) :
    List (Action Body) :=
  [executionPayment env nftAddress proposalId p.recipient p.amount,
    executionEvent env nftAddress proposalId p.recipient p.amount,
    executionAcknowledgement env nftAddress proposalId]

def receiveExecutePaymentProposal (nftAddress : Address) (proposalId : BitVec 64)
    (self : State) : State × List (Action Body) :=
  let errorCode := self.validateOwnership env.sender nftAddress
  if errorCode ≠ errorNone then
    (self,[sendResponse env.sender false errorCode nftAddress proposalId])
  else
    match self.getProposal hash nftAddress proposalId with
    | none => (self,[sendResponse env.sender false errorProposalNotFound nftAddress proposalId])
    | some p =>
      if p.status ≠ .approved then
        (self,[sendResponse env.sender false errorProposalNotApproved nftAddress proposalId])
      else if env.value < p.amount then
        (self,[sendResponse env.sender false errorInsufficientValue nftAddress proposalId])
      else
        let executed : PaymentProposal := {p with status := .executed}
        ({self with
            proposals := self.proposals.set (proposalKey hash nftAddress proposalId) executed},
          executionActions env nftAddress proposalId p)

def receiveRemoveMultiSig (nftAddress : Address) (self : State) :
    State × List (Action Body) :=
  let errorCode := self.validateOwnership env.sender nftAddress
  if errorCode ≠ errorNone then
    (self,[sendResponse env.sender false errorCode nftAddress 0])
  else
    ({self with multisigConfigs := self.multisigConfigs.set nftAddress defaultMultiSigConfig},
      [.emit (.multiSigRemoved nftAddress env.now),
        sendResponse env.sender true errorNone nftAddress 0])

end Receivers

def receive (hash : Cell → Int) : Receiver State Message Body := fun env msg self =>
  match msg with
  | .registerNFTOwnerMultiSig nftAddress owner =>
    receiveRegisterNFTOwnerMultiSig env nftAddress owner self
  | .configureMultiSig nftAddress requiredSignatures signer1 signer2 signer3 =>
    pure (receiveConfigureMultiSig env nftAddress requiredSignatures signer1 signer2 signer3 self)
  | .submitPaymentProposal nftAddress proposalId recipient amount =>
    pure (receiveSubmitPaymentProposal hash env nftAddress proposalId recipient amount self)
  | .approvePaymentProposal nftAddress proposalId =>
    pure (receiveApprovePaymentProposal hash env nftAddress proposalId self)
  | .rejectPaymentProposal nftAddress proposalId =>
    pure (receiveRejectPaymentProposal hash env nftAddress proposalId self)
  | .executePaymentProposal nftAddress proposalId =>
    pure (receiveExecutePaymentProposal hash env nftAddress proposalId self)
  | .removeMultiSig nftAddress => pure (receiveRemoveMultiSig env nftAddress self)

namespace State
variable (hash : Cell → Int)

def putConfig (self : State) (nftAddress : Address) (config : MultiSigConfig) : State :=
  {self with multisigConfigs := self.multisigConfigs.set nftAddress config}

def putProposal (self : State) (nftAddress : Address) (proposalId : BitVec 64)
    (p : PaymentProposal) : State :=
  {self with proposals := self.proposals.set (proposalKey hash nftAddress proposalId) p}

def putApproval (self : State) (nftAddress : Address) (proposalId : BitVec 64)
    (signer : Address) : State :=
  {self with approvals := self.approvals.set (approvalKey hash nftAddress proposalId signer) true}

section Updates
variable {hash : Cell → Int} (self : State) (p : PaymentProposal)
variable {nft : Address} {id : BitVec 64}

theorem getProposal_putProposal (nft other : Address) (id otherId : BitVec 64) :
    (self.putProposal hash nft id p).getProposal hash other otherId =
      if proposalKey hash other otherId = proposalKey hash nft id then some p
      else self.getProposal hash other otherId := FiniteMap.get_set ..

@[simp] theorem getProposal_putProposal_same (nft : Address) (id : BitVec 64) :
    (self.putProposal hash nft id p).getProposal hash nft id = some p :=
  FiniteMap.get_set_same ..

theorem getProposalStatus_stored (stored : self.getProposal hash nft id = some p) :
    self.getProposalStatus hash nft id = p.status := by simp [getProposalStatus,stored]

/-- Proposals under one key share one status, whatever their ids. -/
theorem getProposalStatus_putProposal (nft other : Address) (id otherId : BitVec 64) :
    (self.putProposal hash nft id p).getProposalStatus hash other otherId =
      if proposalKey hash other otherId = proposalKey hash nft id then p.status
      else self.getProposalStatus hash other otherId := by
  simp only [getProposalStatus,getProposal_putProposal]
  by_cases same : proposalKey hash other otherId = proposalKey hash nft id
  · rw [if_pos same,if_pos same]
  · rw [if_neg same,if_neg same]

@[simp] theorem getProposal_putApproval :
    (self.putApproval hash nft id signer).getProposal hash = self.getProposal hash := rfl

@[simp] theorem getProposal_putConfig :
    (self.putConfig nft config).getProposal hash = self.getProposal hash := rfl

theorem hasApproved_putApproval (nft other : Address) (id otherId : BitVec 64)
    (signer otherSigner : Address) :
    (self.putApproval hash nft id signer).hasApproved hash other otherId otherSigner =
      (decide (approvalKey hash other otherId otherSigner = approvalKey hash nft id signer) ||
        self.hasApproved hash other otherId otherSigner) := by
  simp only [hasApproved,putApproval,FiniteMap.get_set]
  split
  next same => simp [same]
  next different => simp [different]

@[simp] theorem hasApproved_putProposal :
    (self.putProposal hash nft id p).hasApproved hash = self.hasApproved hash := rfl

@[simp] theorem hasApproved_putConfig :
    (self.putConfig nft config).hasApproved hash = self.hasApproved hash := rfl

@[simp] theorem getMultiSigConfig_putProposal :
    (self.putProposal hash nft id p).getMultiSigConfig = self.getMultiSigConfig := rfl

@[simp] theorem getMultiSigConfig_putApproval :
    (self.putApproval hash nft id signer).getMultiSigConfig = self.getMultiSigConfig := rfl

end Updates
end State

/-- What a delivered message does. A refused operation answers with an error code and
changes nothing; the refusal of a second approval is kept apart with its reason. -/
inductive Effect (hash : Cell → Int) (env : Context) (self : State) :
    Message → State → List (Action Body) → Prop where
  | registered (authorized : env.sender = self.deployer)
      (unregistered : self.nftOwners.get nftAddress = none) :
      Effect hash env self (.registerNFTOwnerMultiSig nftAddress owner)
        {self with nftOwners := self.nftOwners.set nftAddress owner} []
  | refused (failure : errorCode ≠ errorNone) (other : errorCode ≠ errorAlreadyApproved) :
      Effect hash env self msg self
        [sendResponse env.sender false errorCode nftAddress proposalId]
  | alreadyApproved (stored : self.getProposal hash nftAddress proposalId = some p)
      (pending : p.status = .pending)
      (recorded : self.hasApproved hash nftAddress proposalId env.sender = true) :
      Effect hash env self (.approvePaymentProposal nftAddress proposalId) self
        [sendResponse env.sender false errorAlreadyApproved nftAddress proposalId]
  | configured (owner : self.nftOwners.get nftAddress = some env.sender)
      (threshold : 1 ≤ requiredSignatures ∧ requiredSignatures ≤ maxSigners) :
      Effect hash env self
        (.configureMultiSig nftAddress requiredSignatures signer1 signer2 signer3)
        (self.putConfig nftAddress
          {isActive := true,requiredSignatures,signer1,signer2,signer3,createdAt := env.now})
        [.emit (.multiSigConfigured nftAddress requiredSignatures env.now),
          sendResponse env.sender true errorNone nftAddress 0]
  | submitted (owner : self.nftOwners.get nftAddress = some env.sender) (positive : 0 < amount)
      (active : (self.getMultiSigConfig nftAddress).isActive = true) :
      Effect hash env self (.submitPaymentProposal nftAddress proposalId recipient amount)
        (self.putProposal hash nftAddress proposalId
          {status := .pending,recipient,amount,approvalCount := 0,createdAt := env.now})
        [.emit (.paymentProposalCreated nftAddress proposalId recipient amount env.now),
          sendResponse env.sender true errorNone nftAddress proposalId]
  | approved (active : (self.getMultiSigConfig nftAddress).isActive = true)
      (signer : isSigner env.sender (self.getMultiSigConfig nftAddress) = true)
      (stored : self.getProposal hash nftAddress proposalId = some p)
      (pending : p.status = .pending)
      (fresh : self.hasApproved hash nftAddress proposalId env.sender = false) :
      Effect hash env self (.approvePaymentProposal nftAddress proposalId)
        ((self.putApproval hash nftAddress proposalId env.sender).putProposal hash nftAddress
          proposalId (p.count (self.getMultiSigConfig nftAddress).requiredSignatures))
        [.emit (.paymentProposalApproved nftAddress proposalId env.sender (p.approvalCount + 1)
            env.now),
          sendResponse env.sender true errorNone nftAddress proposalId]
  | rejected (authority : self.isOwner env.sender nftAddress = true ∨
        isSigner env.sender (self.getMultiSigConfig nftAddress) = true)
      (stored : self.getProposal hash nftAddress proposalId = some p)
      (pending : p.status = .pending) :
      Effect hash env self (.rejectPaymentProposal nftAddress proposalId)
        (self.putProposal hash nftAddress proposalId {p with status := .rejected})
        [.emit (.paymentProposalRejected nftAddress proposalId env.now),
          sendResponse env.sender true errorNone nftAddress proposalId]
  | executed (owner : self.nftOwners.get nftAddress = some env.sender)
      (stored : self.getProposal hash nftAddress proposalId = some p)
      (ready : p.status = .approved) (funded : p.amount ≤ env.value) :
      Effect hash env self (.executePaymentProposal nftAddress proposalId)
        (self.putProposal hash nftAddress proposalId {p with status := .executed})
        (executionActions env nftAddress proposalId p)
  | removed (owner : self.nftOwners.get nftAddress = some env.sender) :
      Effect hash env self (.removeMultiSig nftAddress)
        (self.putConfig nftAddress defaultMultiSigConfig)
        [.emit (.multiSigRemoved nftAddress env.now),
          sendResponse env.sender true errorNone nftAddress 0]

theorem validateOwnership_ok {self : State} {sender : Address} :
    self.validateOwnership sender nftAddress = errorNone ↔
      self.nftOwners.get nftAddress = some sender := by
  unfold State.validateOwnership
  split
  next unregistered => simp [unregistered,errorNftNotRegistered,errorNone]
  next owner registered =>
    split
    next other => simpa [registered,errorNotOwner,errorNone] using other
    next same => simpa [registered] using same

/-- A failed ownership check is never taken for a repeated approval. -/
theorem validateOwnership_other (self : State) (sender nftAddress : Address) :
    self.validateOwnership sender nftAddress ≠ errorAlreadyApproved := by
  unfold State.validateOwnership
  split
  · decide
  · split <;> decide

section Inversion
variable {hash : Cell → Int} {env : Context} {self next : State}

theorem configure_effect
    (configured : receiveConfigureMultiSig env nftAddress requiredSignatures signer1 signer2
      signer3 self = (next,actions)) :
    Effect hash env self
      (.configureMultiSig nftAddress requiredSignatures signer1 signer2 signer3) next actions := by
  simp only [receiveConfigureMultiSig] at configured
  split at configured
  · rename_i failure
    cases configured
    exact .refused failure (validateOwnership_other _ _ _)
  split at configured
  · cases configured
    exact .refused (by decide) (by decide)
  rename_i owned threshold
  cases configured
  exact .configured (validateOwnership_ok.mp (not_not.mp owned)) (by omega)

theorem submit_effect
    (submitted : receiveSubmitPaymentProposal hash env nftAddress proposalId recipient amount
      self = (next,actions)) :
    Effect hash env self (.submitPaymentProposal nftAddress proposalId recipient amount) next
      actions := by
  simp only [receiveSubmitPaymentProposal] at submitted
  split at submitted
  · rename_i failure
    cases submitted
    exact .refused failure (validateOwnership_other _ _ _)
  split at submitted
  · cases submitted
    exact .refused (by decide) (by decide)
  split at submitted
  · cases submitted
    exact .refused (by decide) (by decide)
  rename_i owned positive active
  cases submitted
  exact .submitted (validateOwnership_ok.mp (not_not.mp owned)) (by omega) (by simpa using active)

theorem approve_effect
    (approved : receiveApprovePaymentProposal hash env nftAddress proposalId self =
      (next,actions)) :
    Effect hash env self (.approvePaymentProposal nftAddress proposalId) next actions := by
  simp only [receiveApprovePaymentProposal] at approved
  split at approved
  · cases approved
    exact .refused (by decide) (by decide)
  split at approved
  · cases approved
    exact .refused (by decide) (by decide)
  rename_i active signer
  split at approved
  · cases approved
    exact .refused (by decide) (by decide)
  rename_i p stored
  split at approved
  · cases approved
    exact .refused (by decide) (by decide)
  rename_i pending
  split at approved
  · rename_i recorded
    cases approved
    exact .alreadyApproved stored (not_not.mp pending) recorded
  rename_i fresh
  cases approved
  exact .approved (by simpa using active) (by simpa using signer) stored (not_not.mp pending)
    (by simpa using fresh)

theorem reject_effect
    (rejected : receiveRejectPaymentProposal hash env nftAddress proposalId self =
      (next,actions)) :
    Effect hash env self (.rejectPaymentProposal nftAddress proposalId) next actions := by
  simp only [receiveRejectPaymentProposal] at rejected
  split at rejected
  · cases rejected
    exact .refused (by decide) (by decide)
  rename_i authority
  split at rejected
  · cases rejected
    exact .refused (by decide) (by decide)
  rename_i p stored
  split at rejected
  · cases rejected
    exact .refused (by decide) (by decide)
  rename_i pending
  cases rejected
  refine .rejected ?_ stored (not_not.mp pending)
  cases owns : self.isOwner env.sender nftAddress <;> simp_all

theorem execute_effect
    (executed : receiveExecutePaymentProposal hash env nftAddress proposalId self =
      (next,actions)) :
    Effect hash env self (.executePaymentProposal nftAddress proposalId) next actions := by
  simp only [receiveExecutePaymentProposal] at executed
  split at executed
  · rename_i failure
    cases executed
    exact .refused failure (validateOwnership_other _ _ _)
  rename_i owned
  split at executed
  · cases executed
    exact .refused (by decide) (by decide)
  rename_i p stored
  split at executed
  · cases executed
    exact .refused (by decide) (by decide)
  rename_i ready
  split at executed
  · cases executed
    exact .refused (by decide) (by decide)
  rename_i funded
  cases executed
  exact .executed (validateOwnership_ok.mp (not_not.mp owned)) stored (not_not.mp ready)
    (by omega)

theorem remove_effect
    (removed : receiveRemoveMultiSig env nftAddress self = (next,actions)) :
    Effect hash env self (.removeMultiSig nftAddress) next actions := by
  simp only [receiveRemoveMultiSig] at removed
  split at removed
  · rename_i failure
    cases removed
    exact .refused failure (validateOwnership_other _ _ _)
  rename_i owned
  cases removed
  exact .removed (validateOwnership_ok.mp (not_not.mp owned))

/-- The one inversion of the receivers. -/
theorem receive_effect (accepted : receive hash env msg self = .ok (next,actions)) :
    Effect hash env self msg next actions := by
  cases msg with
  | registerNFTOwnerMultiSig nftAddress owner =>
    simp only [receive,receiveRegisterNFTOwnerMultiSig,require_bind_ok,pure_ok,Prod.mk.injEq]
      at accepted
    obtain ⟨authorized,unregistered,rfl,rfl⟩ := accepted
    exact .registered authorized unregistered
  | configureMultiSig => exact configure_effect (pure_ok.mp accepted)
  | submitPaymentProposal => exact submit_effect (pure_ok.mp accepted)
  | approvePaymentProposal => exact approve_effect (pure_ok.mp accepted)
  | rejectPaymentProposal => exact reject_effect (pure_ok.mp accepted)
  | executePaymentProposal => exact execute_effect (pure_ok.mp accepted)
  | removeMultiSig => exact remove_effect (pure_ok.mp accepted)

end Inversion

/-- What a submission passes before it stores its proposal. -/
structure Submittable (s : State) (env : Context) (nftAddress : Address) (amount : Nat) :
    Prop where
  owner : s.nftOwners.get nftAddress = some env.sender
  positive : 0 < amount
  active : (s.getMultiSigConfig nftAddress).isActive = true

/-- A submission that passes its checks always stores a fresh pending proposal. -/
theorem receive_submit {hash : Cell → Int} {env : Context} {self : State}
    (submittable : Submittable self env nftAddress amount) :
    receive hash env (.submitPaymentProposal nftAddress proposalId recipient amount) self =
      .ok (self.putProposal hash nftAddress proposalId
          {status := .pending,recipient,amount,approvalCount := 0,createdAt := env.now},
        [.emit (.paymentProposalCreated nftAddress proposalId recipient amount env.now),
          sendResponse env.sender true errorNone nftAddress proposalId]) := by
  obtain ⟨owner,positive,active⟩ := submittable
  have owned := validateOwnership_ok.mpr owner
  simp [receive,receiveSubmitPaymentProposal,owned,active,Nat.pos_iff_ne_zero.mp positive,
    State.putProposal,pure,Except.pure]

/-- A configured signer without an approval record is never refused on a pending proposal. -/
theorem receive_approve {hash : Cell → Int} {env : Context} {self : State}
    (active : (self.getMultiSigConfig nftAddress).isActive = true)
    (signer : isSigner env.sender (self.getMultiSigConfig nftAddress) = true)
    (stored : self.getProposal hash nftAddress proposalId = some p)
    (pending : p.status = .pending)
    (fresh : self.hasApproved hash nftAddress proposalId env.sender = false) :
    receive hash env (.approvePaymentProposal nftAddress proposalId) self =
      .ok ((self.putApproval hash nftAddress proposalId env.sender).putProposal hash nftAddress
          proposalId (p.count (self.getMultiSigConfig nftAddress).requiredSignatures),
        [.emit (.paymentProposalApproved nftAddress proposalId env.sender (p.approvalCount + 1)
            env.now),
          sendResponse env.sender true errorNone nftAddress proposalId]) := by
  simp [receive,receiveApprovePaymentProposal,active,signer,stored,pending,fresh,
    State.putProposal,State.putApproval,pure,Except.pure]

end Tonbankcard.MultiSigCard
