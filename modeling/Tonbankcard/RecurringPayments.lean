import Tonbankcard.NftOwnership

/-! The RecurringPayments contract: the trait's three receivers over its mandates, with the owner
registration of the test harness. Anyone may ask for an execution; the mandate decides. -/
namespace Tonbankcard.RecurringPayments

open Ton NftOwnership

inductive MandateStatus where
  | active
  | cancelled
  | completed
  deriving DecidableEq, Repr

def errorRpNotOwner : Int := 1
def errorRpInvalidAmount : Int := 2
def errorRpInvalidPeriod : Int := 3
def errorRpMandateNotFound : Int := 4
def errorRpMandateNotActive : Int := 5
def errorRpTooEarly : Int := 6
def errorRpMaxReached : Int := 7
def errorRpNftNotRegistered : Int := 8
def errorRpNotAuthorized : Int := 9

/-- One hour. -/
def minPeriodSeconds : Nat := 3600

inductive Message where
  | registerNFTOwnerRecurring (nftAddress owner : Address)
  | createMandate (nftAddress merchantAddress : Address) (mandateId : BitVec 64)
      (amountPerPeriod periodSeconds maxExecutions : Nat)
  | cancelMandate (nftAddress : Address) (mandateId : BitVec 64)
  | executeRecurringPayment (nftAddress : Address) (mandateId : BitVec 64)
  deriving DecidableEq, Repr

inductive Body where
  | recurringPaymentResponse (success : Bool) (errorCode : Int) (nftAddress : Address)
      (mandateId : BitVec 64)
  | mandateCreated (nftAddress merchantAddress : Address) (mandateId : BitVec 64)
      (amountPerPeriod periodSeconds maxExecutions timestamp : Nat)
  | mandateCancelled (nftAddress : Address) (mandateId : BitVec 64) (timestamp : Nat)
  | recurringPaymentExecuted (nftAddress merchantAddress : Address) (mandateId : BitVec 64)
      (amount executionNumber timestamp : Nat)
  deriving DecidableEq, Repr

structure MandateInfo where
  status : MandateStatus
  merchantAddress : Address
  amountPerPeriod : Nat
  periodSeconds : Nat
  maxExecutions : Nat
  executionCount : Nat
  lastExecutedAt : Nat
  createdAt : Nat
  deriving DecidableEq, Repr

/-- The last of a limited number of executions completes the mandate. -/
def MandateInfo.executed (m : MandateInfo) (now : Nat) : MandateInfo :=
  let newCount := m.executionCount + 1
  {m with
    status := if 0 < m.maxExecutions ∧ m.maxExecutions ≤ newCount then .completed else .active
    executionCount := newCount
    lastExecutedAt := now}

structure State where
  mandates : FiniteMap Int MandateInfo
  nftOwners : FiniteMap Address Address
  deployer : Address

def init (deployer : Address) : State := ⟨∅,∅,deployer⟩

section Receivers
variable (hash : Cell → Int) (env : Context)

def mandateKey (nftAddress : Address) (mandateId : BitVec 64) : Int :=
  recordKey hash nftAddress mandateId

def State.getMandate (self : State) (nftAddress : Address) (mandateId : BitVec 64) :
    Option MandateInfo := self.mandates.get (mandateKey hash nftAddress mandateId)

def State.putMandate (self : State) (nftAddress : Address) (mandateId : BitVec 64)
    (m : MandateInfo) : State :=
  {self with mandates := self.mandates.set (mandateKey hash nftAddress mandateId) m}

def State.validateOwnership (self : State) (sender nftAddress : Address) : Int :=
  NftOwnership.validateOwnership errorRpNftNotRegistered errorRpNotOwner self.nftOwners sender
    nftAddress

def State.isOwner (self : State) (sender nftAddress : Address) : Bool :=
  NftOwnership.isOwner self.nftOwners sender nftAddress

def sendResponse (destination : Address) (success : Bool) (errorCode : Int)
    (nftAddress : Address) (mandateId : BitVec 64) : Action Body :=
  .send {
    destination
    value := 0
    mode := sendRemainingValue
    body := .recurringPaymentResponse success errorCode nftAddress mandateId }

/-- A refusal is answered and changes nothing. -/
def refuse (errorCode : Int) (nftAddress : Address) (mandateId : BitVec 64) (self : State) :
    Result (State × List (Action Body)) :=
  pure (self,[sendResponse env.sender false errorCode nftAddress mandateId])

def receiveRegisterNFTOwnerRecurring (nftAddress owner : Address) (self : State) :
    Result (State × List (Action Body)) := do
  let nftOwners ← registerNFTOwner self.deployer env.sender nftAddress owner self.nftOwners
  pure ({self with nftOwners},[])

def receiveCreateMandate (nftAddress merchantAddress : Address) (mandateId : BitVec 64)
    (amountPerPeriod periodSeconds maxExecutions : Nat) (self : State) :
    Result (State × List (Action Body)) :=
  let errorCode := self.validateOwnership env.sender nftAddress
  if errorCode ≠ errorNone then refuse env errorCode nftAddress mandateId self
  else if amountPerPeriod ≤ 0 then refuse env errorRpInvalidAmount nftAddress mandateId self
  else if periodSeconds < minPeriodSeconds then
    refuse env errorRpInvalidPeriod nftAddress mandateId self
  else
    let mandate : MandateInfo := {
      status := .active
      merchantAddress
      amountPerPeriod
      periodSeconds
      maxExecutions
      executionCount := 0
      lastExecutedAt := 0
      createdAt := env.now }
    pure (self.putMandate hash nftAddress mandateId mandate,
      [.emit (.mandateCreated nftAddress merchantAddress mandateId amountPerPeriod periodSeconds
          maxExecutions env.now),
        sendResponse env.sender true errorNone nftAddress mandateId])

/-- The owner cancels whatever the status is. -/
def receiveCancelMandate (nftAddress : Address) (mandateId : BitVec 64) (self : State) :
    Result (State × List (Action Body)) :=
  let errorCode := self.validateOwnership env.sender nftAddress
  if errorCode ≠ errorNone then refuse env errorCode nftAddress mandateId self
  else
    match self.getMandate hash nftAddress mandateId with
    | none => refuse env errorRpMandateNotFound nftAddress mandateId self
    | some m =>
      pure (self.putMandate hash nftAddress mandateId {m with status := .cancelled},
        [.emit (.mandateCancelled nftAddress mandateId env.now),
          sendResponse env.sender true errorNone nftAddress mandateId])

/-- The count is stored in 32 bits. -/
def receiveExecuteRecurringPayment (nftAddress : Address) (mandateId : BitVec 64)
    (self : State) : Result (State × List (Action Body)) :=
  match self.getMandate hash nftAddress mandateId with
  | none => refuse env errorRpMandateNotFound nftAddress mandateId self
  | some m =>
    let isOwner := self.isOwner env.sender nftAddress
    let isMerchant := env.sender == m.merchantAddress
    if m.status ≠ .active then refuse env errorRpMandateNotActive nftAddress mandateId self
    else if !isOwner && !isMerchant then
      refuse env errorRpNotAuthorized nftAddress mandateId self
    else if 0 < m.maxExecutions ∧ m.maxExecutions ≤ m.executionCount then
      refuse env errorRpMaxReached nftAddress mandateId self
    else if 0 < m.lastExecutedAt ∧ env.now < m.lastExecutedAt + m.periodSeconds then
      refuse env errorRpTooEarly nftAddress mandateId self
    else do
      let _ ← fitUint 32 (m.executionCount + 1)
      pure (self.putMandate hash nftAddress mandateId (m.executed env.now),
        [.emit (.recurringPaymentExecuted nftAddress m.merchantAddress mandateId
            m.amountPerPeriod (m.executionCount + 1) env.now),
          sendResponse env.sender true errorNone nftAddress mandateId])

end Receivers

def receive (hash : Cell → Int) : Receiver State Message Body := fun env msg self =>
  match msg with
  | .registerNFTOwnerRecurring nftAddress owner =>
    receiveRegisterNFTOwnerRecurring env nftAddress owner self
  | .createMandate nftAddress merchantAddress mandateId amountPerPeriod periodSeconds
      maxExecutions =>
    receiveCreateMandate hash env nftAddress merchantAddress mandateId amountPerPeriod
      periodSeconds maxExecutions self
  | .cancelMandate nftAddress mandateId => receiveCancelMandate hash env nftAddress mandateId self
  | .executeRecurringPayment nftAddress mandateId =>
    receiveExecuteRecurringPayment hash env nftAddress mandateId self

/-- What the owner fixes when creating a mandate. -/
structure Terms where
  merchantAddress : Address
  amountPerPeriod : Nat
  periodSeconds : Nat
  maxExecutions : Nat
  deriving DecidableEq, Repr

def Terms.mandate (terms : Terms) (now : Nat) : MandateInfo where
  status := .active
  merchantAddress := terms.merchantAddress
  amountPerPeriod := terms.amountPerPeriod
  periodSeconds := terms.periodSeconds
  maxExecutions := terms.maxExecutions
  executionCount := 0
  lastExecutedAt := 0
  createdAt := now

def MandateInfo.terms (m : MandateInfo) : Terms :=
  ⟨m.merchantAddress,m.amountPerPeriod,m.periodSeconds,m.maxExecutions⟩

/-- The sender is the owner, or the merchant of the mandate. -/
def Authorized (self : State) (env : Context) (nftAddress merchantAddress : Address) : Prop :=
  self.nftOwners.get nftAddress = some env.sender ∨ env.sender = merchantAddress

/-- What an execution requires of its mandate. -/
structure Due (s : State) (env : Context) (nftAddress : Address) (m : MandateInfo) :
    Prop where
  active : m.status = .active
  authorized : Authorized s env nftAddress m.merchantAddress
  remaining : 0 < m.maxExecutions → m.executionCount < m.maxExecutions
  elapsed : 0 < m.lastExecutedAt → m.lastExecutedAt + m.periodSeconds ≤ env.now

/-- What an accepted message does. A refused operation answers with an error code. -/
inductive Effect (hash : Cell → Int) (env : Context) (self : State) :
    Message → State → List (Action Body) → Prop where
  | registered (owners : registerNFTOwner self.deployer env.sender nftAddress owner
        self.nftOwners = .ok nftOwners) :
      Effect hash env self (.registerNFTOwnerRecurring nftAddress owner)
        {self with nftOwners} []
  | refused :
      Effect hash env self msg self [sendResponse env.sender false errorCode nftAddress mandateId]
  | created {terms : Terms} (owner : self.nftOwners.get nftAddress = some env.sender)
      (positive : 0 < terms.amountPerPeriod) (period : minPeriodSeconds ≤ terms.periodSeconds) :
      Effect hash env self
        (.createMandate nftAddress terms.merchantAddress mandateId terms.amountPerPeriod
          terms.periodSeconds terms.maxExecutions)
        (self.putMandate hash nftAddress mandateId (terms.mandate env.now))
        [.emit (.mandateCreated nftAddress terms.merchantAddress mandateId terms.amountPerPeriod
            terms.periodSeconds terms.maxExecutions env.now),
          sendResponse env.sender true errorNone nftAddress mandateId]
  | cancelled (owner : self.nftOwners.get nftAddress = some env.sender)
      (stored : self.getMandate hash nftAddress mandateId = some m) :
      Effect hash env self (.cancelMandate nftAddress mandateId)
        (self.putMandate hash nftAddress mandateId {m with status := .cancelled})
        [.emit (.mandateCancelled nftAddress mandateId env.now),
          sendResponse env.sender true errorNone nftAddress mandateId]
  | executed (stored : self.getMandate hash nftAddress mandateId = some m)
      (due : Due self env nftAddress m) :
      Effect hash env self (.executeRecurringPayment nftAddress mandateId)
        (self.putMandate hash nftAddress mandateId (m.executed env.now))
        [.emit (.recurringPaymentExecuted nftAddress m.merchantAddress mandateId
            m.amountPerPeriod (m.executionCount + 1) env.now),
          sendResponse env.sender true errorNone nftAddress mandateId]

section Inversion
variable {hash : Cell → Int} {env : Context} {self next : State}

theorem refuse_effect {errorCode : Int}
    (refused : refuse env errorCode nftAddress mandateId self = .ok (next,actions)) :
    Effect hash env self msg next actions := by
  obtain ⟨rfl,rfl⟩ := Prod.mk.inj (pure_ok.mp refused)
  exact .refused

theorem owner_of_valid {self : State} {sender : Address}
    (valid : ¬self.validateOwnership sender nftAddress ≠ errorNone) :
    self.nftOwners.get nftAddress = some sender :=
  (validateOwnership_ok (by decide) (by decide)).mp (not_not.mp valid)

theorem create_effect
    (created : receiveCreateMandate hash env nftAddress merchantAddress mandateId amountPerPeriod
      periodSeconds maxExecutions self = .ok (next,actions)) :
    Effect hash env self (.createMandate nftAddress merchantAddress mandateId amountPerPeriod
      periodSeconds maxExecutions) next actions := by
  simp only [receiveCreateMandate] at created
  split at created
  · exact refuse_effect created
  split at created
  · exact refuse_effect created
  split at created
  · exact refuse_effect created
  rename_i valid positive period
  obtain ⟨rfl,rfl⟩ := Prod.mk.inj (pure_ok.mp created)
  let terms : Terms := ⟨merchantAddress,amountPerPeriod,periodSeconds,maxExecutions⟩
  have enough : 0 < terms.amountPerPeriod := by change 0 < amountPerPeriod; omega
  have long : minPeriodSeconds ≤ terms.periodSeconds := Nat.not_lt.mp period
  exact .created (owner_of_valid valid) enough long

theorem cancel_effect
    (cancelled : receiveCancelMandate hash env nftAddress mandateId self = .ok (next,actions)) :
    Effect hash env self (.cancelMandate nftAddress mandateId) next actions := by
  simp only [receiveCancelMandate] at cancelled
  split at cancelled
  · exact refuse_effect cancelled
  rename_i valid
  split at cancelled
  · exact refuse_effect cancelled
  rename_i m stored
  obtain ⟨rfl,rfl⟩ := Prod.mk.inj (pure_ok.mp cancelled)
  exact .cancelled (owner_of_valid valid) stored

theorem execute_effect
    (executed : receiveExecuteRecurringPayment hash env nftAddress mandateId self =
      .ok (next,actions)) :
    Effect hash env self (.executeRecurringPayment nftAddress mandateId) next actions := by
  simp only [receiveExecuteRecurringPayment] at executed
  split at executed
  · exact refuse_effect executed
  rename_i m stored
  split at executed
  · exact refuse_effect executed
  split at executed
  · exact refuse_effect executed
  split at executed
  · exact refuse_effect executed
  split at executed
  · exact refuse_effect executed
  rename_i active party reached early
  obtain ⟨_,-,executed⟩ := bind_ok.mp executed
  obtain ⟨rfl,rfl⟩ := Prod.mk.inj (pure_ok.mp executed)
  have authorized : Authorized self env nftAddress m.merchantAddress := by
    simp only [Bool.and_eq_true,Bool.not_eq_true',not_and_or,Bool.not_eq_false,
      beq_iff_eq] at party
    exact party.imp isOwner_iff.mp id
  exact .executed stored
    { active := not_not.mp active
      authorized
      remaining := fun limited => by omega
      elapsed := fun before => by omega }

/-- The one inversion of the receivers. -/
theorem receive_effect (accepted : receive hash env msg self = .ok (next,actions)) :
    Effect hash env self msg next actions := by
  cases msg with
  | registerNFTOwnerRecurring nftAddress owner =>
    simp only [receive,receiveRegisterNFTOwnerRecurring] at accepted
    obtain ⟨nftOwners,owners,accepted⟩ := bind_ok.mp accepted
    obtain ⟨rfl,rfl⟩ := Prod.mk.inj (pure_ok.mp accepted)
    exact .registered owners
  | createMandate => exact create_effect accepted
  | cancelMandate => exact cancel_effect accepted
  | executeRecurringPayment => exact execute_effect accepted

end Inversion

abbrev Entry := Journal.Entry State (Delivery Message) (List (Action Body))

/-- A run of deliveries, newest first, and the journal of the accepted ones. -/
def run (hash : Cell → Int) (initial : State) (deliveries : List (Delivery Message)) : State :=
  Journal.run (deliver (receive hash)) initial deliveries

def journal (hash : Cell → Int) (initial : State) (deliveries : List (Delivery Message)) :
    List Entry := Journal.journal (deliver (receive hash)) initial deliveries

section Records
variable {hash : Cell → Int} {nft other : Address} {id otherId : BitVec 64}
variable (self : State) (m : MandateInfo)

@[simp] theorem getMandate_putMandate_same :
    (self.putMandate hash nft id m).getMandate hash nft id = some m := FiniteMap.get_set_same ..

/-- Mandates under one key are one mandate. -/
theorem getMandate_putMandate :
    (self.putMandate hash nft id m).getMandate hash other otherId =
      if mandateKey hash other otherId = mandateKey hash nft id then some m
      else self.getMandate hash other otherId := FiniteMap.get_set ..

theorem getMandate_putMandate_apart (collisionFree : CollisionFree hash)
    (apart : ¬(nft = other ∧ id = otherId)) :
    (self.putMandate hash nft id m).getMandate hash other otherId =
      self.getMandate hash other otherId := by
  rw [getMandate_putMandate,if_neg]
  intro same
  obtain ⟨rfl,rfl⟩ := recordKey_injective collisionFree same
  exact apart ⟨rfl,rfl⟩

end Records
end Tonbankcard.RecurringPayments
