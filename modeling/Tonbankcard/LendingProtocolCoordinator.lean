import Tonbankcard.NftOwnership

/-! The LendingProtocolCoordinator contract: the trait's three receivers over one intent for each
account, with the owner registration of the test harness. Some refusals are answered with an error
code, others abort. -/
namespace Tonbankcard.LendingProtocolCoordinator

open Ton NftOwnership

inductive IntentState where
  | none
  | active
  | cancelled
  deriving DecidableEq, Repr

def errorLiNotOwner : Int := 1
def errorLiInvalidAmount : Int := 2
def errorLiNftNotRegistered : Int := 5

inductive Message where
  | registerNFTOwnerLending (nftAddress owner : Address)
  | registerLendingIntent (nftAddress : Address) (collateralSignalAmount : Int)
      (targetLender : Nat)
  | cancelLendingIntent (nftAddress : Address)
  | updateLendingIntent (nftAddress : Address) (collateralSignalAmount : Int)
      (targetLender : Nat)
  deriving DecidableEq, Repr

inductive Body where
  | lendingIntentResponse (success : Bool) (errorCode : Int) (nftAddress : Address)
      (intentState : IntentState)
  | lendingIntentRegistered (nftAddress : Address) (collateralSignalAmount : Int)
      (targetLender timestamp : Nat)
  | lendingIntentCancelled (nftAddress : Address) (timestamp : Nat)
  | lendingIntentUpdated (nftAddress : Address) (collateralSignalAmount : Int)
      (targetLender timestamp : Nat)
  deriving DecidableEq, Repr

structure LendingIntentInfo where
  intentState : IntentState
  collateralSignalAmount : Int
  targetLender : Nat
  createdAt : Nat
  updatedAt : Nat
  deriving DecidableEq, Repr

structure State where
  lendingIntents : FiniteMap Address LendingIntentInfo
  nftOwners : FiniteMap Address Address
  deployer : Address

def init (deployer : Address) : State := ⟨∅,∅,deployer⟩

section Receivers
variable (env : Context)

def State.putIntent (self : State) (nftAddress : Address) (i : LendingIntentInfo) : State :=
  {self with lendingIntents := self.lendingIntents.set nftAddress i}

def State.validateOwnership (self : State) (sender nftAddress : Address) : Int :=
  NftOwnership.validateOwnership errorLiNftNotRegistered errorLiNotOwner self.nftOwners sender
    nftAddress

def sendResponse (destination : Address) (success : Bool) (errorCode : Int)
    (nftAddress : Address) (intentState : IntentState) : Action Body :=
  .send {
    destination
    value := 0
    mode := sendRemainingValue
    body := .lendingIntentResponse success errorCode nftAddress intentState }

/-- A refusal is answered and changes nothing. -/
def refuse (errorCode : Int) (nftAddress : Address) (self : State) :
    Result (State × List (Action Body)) :=
  pure (self,[sendResponse env.sender false errorCode nftAddress .none])

def receiveRegisterNFTOwnerLending (nftAddress owner : Address) (self : State) :
    Result (State × List (Action Body)) := do
  let nftOwners ← registerNFTOwner self.deployer env.sender nftAddress owner self.nftOwners
  pure ({self with nftOwners},[])

/-- The stored intent is not looked at. -/
def receiveRegisterLendingIntent (nftAddress : Address) (collateralSignalAmount : Int)
    (targetLender : Nat) (self : State) : Result (State × List (Action Body)) :=
  let errorCode := self.validateOwnership env.sender nftAddress
  if errorCode ≠ errorNone then refuse env errorCode nftAddress self
  else if collateralSignalAmount < 0 then refuse env errorLiInvalidAmount nftAddress self
  else
    let newInfo : LendingIntentInfo := {
      intentState := .active
      collateralSignalAmount
      targetLender
      createdAt := env.now
      updatedAt := env.now }
    pure (self.putIntent nftAddress newInfo,
      [.emit (.lendingIntentRegistered nftAddress collateralSignalAmount targetLender env.now),
        sendResponse env.sender true errorNone nftAddress .active])

def receiveCancelLendingIntent (nftAddress : Address) (self : State) :
    Result (State × List (Action Body)) :=
  let errorCode := self.validateOwnership env.sender nftAddress
  if errorCode ≠ errorNone then refuse env errorCode nftAddress self
  else
    match self.lendingIntents.get nftAddress with
    | none => .error (.require "No lending intent")
    | some i => do
      require (i.intentState = .active) "Lending intent is not active"
      let cancelledInfo : LendingIntentInfo :=
        {i with intentState := .cancelled,updatedAt := env.now}
      pure (self.putIntent nftAddress cancelledInfo,
        [.emit (.lendingIntentCancelled nftAddress env.now),
          sendResponse env.sender true errorNone nftAddress .cancelled])

def receiveUpdateLendingIntent (nftAddress : Address) (collateralSignalAmount : Int)
    (targetLender : Nat) (self : State) : Result (State × List (Action Body)) :=
  let errorCode := self.validateOwnership env.sender nftAddress
  if errorCode ≠ errorNone then refuse env errorCode nftAddress self
  else if collateralSignalAmount < 0 then refuse env errorLiInvalidAmount nftAddress self
  else
    match self.lendingIntents.get nftAddress with
    | none => .error (.require "No lending intent")
    | some i => do
      require (i.intentState = .active) "Lending intent is not active"
      let updatedInfo : LendingIntentInfo := {
        intentState := .active
        collateralSignalAmount
        targetLender
        createdAt := i.createdAt
        updatedAt := env.now }
      pure (self.putIntent nftAddress updatedInfo,
        [.emit (.lendingIntentUpdated nftAddress collateralSignalAmount targetLender env.now),
          sendResponse env.sender true errorNone nftAddress .active])

end Receivers

def receive : Receiver State Message Body := fun env msg self =>
  match msg with
  | .registerNFTOwnerLending nftAddress owner =>
    receiveRegisterNFTOwnerLending env nftAddress owner self
  | .registerLendingIntent nftAddress collateralSignalAmount targetLender =>
    receiveRegisterLendingIntent env nftAddress collateralSignalAmount targetLender self
  | .cancelLendingIntent nftAddress => receiveCancelLendingIntent env nftAddress self
  | .updateLendingIntent nftAddress collateralSignalAmount targetLender =>
    receiveUpdateLendingIntent env nftAddress collateralSignalAmount targetLender self

/-- What an accepted message does. A refused operation answers with an error code. -/
inductive Effect (env : Context) (self : State) : Message → State → List (Action Body) → Prop where
  | ownerRegistered (owners : registerNFTOwner self.deployer env.sender nftAddress owner
        self.nftOwners = .ok nftOwners) :
      Effect env self (.registerNFTOwnerLending nftAddress owner) {self with nftOwners} []
  | refused :
      Effect env self msg self [sendResponse env.sender false errorCode nftAddress .none]
  | registered (owner : self.nftOwners.get nftAddress = some env.sender)
      (natural : 0 ≤ collateralSignalAmount) :
      Effect env self (.registerLendingIntent nftAddress collateralSignalAmount targetLender)
        (self.putIntent nftAddress
          ⟨.active,collateralSignalAmount,targetLender,env.now,env.now⟩)
        [.emit (.lendingIntentRegistered nftAddress collateralSignalAmount targetLender env.now),
          sendResponse env.sender true errorNone nftAddress .active]
  | cancelled (owner : self.nftOwners.get nftAddress = some env.sender)
      (stored : self.lendingIntents.get nftAddress = some i) (active : i.intentState = .active) :
      Effect env self (.cancelLendingIntent nftAddress)
        (self.putIntent nftAddress {i with intentState := .cancelled,updatedAt := env.now})
        [.emit (.lendingIntentCancelled nftAddress env.now),
          sendResponse env.sender true errorNone nftAddress .cancelled]
  | updated (owner : self.nftOwners.get nftAddress = some env.sender)
      (natural : 0 ≤ collateralSignalAmount)
      (stored : self.lendingIntents.get nftAddress = some i) (active : i.intentState = .active) :
      Effect env self (.updateLendingIntent nftAddress collateralSignalAmount targetLender)
        (self.putIntent nftAddress
          ⟨.active,collateralSignalAmount,targetLender,i.createdAt,env.now⟩)
        [.emit (.lendingIntentUpdated nftAddress collateralSignalAmount targetLender env.now),
          sendResponse env.sender true errorNone nftAddress .active]

section Inversion
variable {env : Context} {self next : State}

theorem refuse_effect {errorCode : Int}
    (refused : refuse env errorCode nftAddress self = .ok (next,actions)) :
    Effect env self msg next actions := by
  obtain ⟨rfl,rfl⟩ := Prod.mk.inj (pure_ok.mp refused)
  exact .refused

theorem owner_of_valid {self : State} {sender : Address}
    (valid : ¬self.validateOwnership sender nftAddress ≠ errorNone) :
    self.nftOwners.get nftAddress = some sender :=
  (validateOwnership_ok (by decide) (by decide)).mp (not_not.mp valid)

theorem register_effect
    (registered : receiveRegisterLendingIntent env nftAddress collateralSignalAmount targetLender
      self = .ok (next,actions)) :
    Effect env self (.registerLendingIntent nftAddress collateralSignalAmount targetLender) next
      actions := by
  simp only [receiveRegisterLendingIntent] at registered
  split at registered
  · exact refuse_effect registered
  split at registered
  · exact refuse_effect registered
  rename_i valid natural
  obtain ⟨rfl,rfl⟩ := Prod.mk.inj (pure_ok.mp registered)
  exact .registered (owner_of_valid valid) (Int.not_lt.mp natural)

theorem cancel_effect
    (cancelled : receiveCancelLendingIntent env nftAddress self = .ok (next,actions)) :
    Effect env self (.cancelLendingIntent nftAddress) next actions := by
  simp only [receiveCancelLendingIntent] at cancelled
  split at cancelled
  · exact refuse_effect cancelled
  rename_i valid
  split at cancelled
  · contradiction
  rename_i i stored
  obtain ⟨active,cancelled⟩ := require_bind_ok.mp cancelled
  obtain ⟨rfl,rfl⟩ := Prod.mk.inj (pure_ok.mp cancelled)
  exact .cancelled (owner_of_valid valid) stored active

theorem update_effect
    (updated : receiveUpdateLendingIntent env nftAddress collateralSignalAmount targetLender self =
      .ok (next,actions)) :
    Effect env self (.updateLendingIntent nftAddress collateralSignalAmount targetLender) next
      actions := by
  simp only [receiveUpdateLendingIntent] at updated
  split at updated
  · exact refuse_effect updated
  split at updated
  · exact refuse_effect updated
  rename_i valid natural
  split at updated
  · contradiction
  rename_i i stored
  obtain ⟨active,updated⟩ := require_bind_ok.mp updated
  obtain ⟨rfl,rfl⟩ := Prod.mk.inj (pure_ok.mp updated)
  exact .updated (owner_of_valid valid) (Int.not_lt.mp natural) stored active

/-- The one inversion of the receivers. -/
theorem receive_effect (accepted : receive env msg self = .ok (next,actions)) :
    Effect env self msg next actions := by
  cases msg with
  | registerNFTOwnerLending nftAddress owner =>
    simp only [receive,receiveRegisterNFTOwnerLending] at accepted
    obtain ⟨nftOwners,owners,accepted⟩ := bind_ok.mp accepted
    obtain ⟨rfl,rfl⟩ := Prod.mk.inj (pure_ok.mp accepted)
    exact .ownerRegistered owners
  | registerLendingIntent => exact register_effect accepted
  | cancelLendingIntent => exact cancel_effect accepted
  | updateLendingIntent => exact update_effect accepted

theorem receive_register {collateralSignalAmount : Int}
    (owner : self.nftOwners.get nftAddress = some env.sender)
    (natural : 0 ≤ collateralSignalAmount) :
    receive env (.registerLendingIntent nftAddress collateralSignalAmount targetLender) self =
      .ok (self.putIntent nftAddress
          ⟨.active,collateralSignalAmount,targetLender,env.now,env.now⟩,
        [.emit (.lendingIntentRegistered nftAddress collateralSignalAmount targetLender env.now),
          sendResponse env.sender true errorNone nftAddress .active]) := by
  have valid : self.validateOwnership env.sender nftAddress = errorNone :=
    (validateOwnership_ok (by decide) (by decide)).mpr owner
  simp only [receive,receiveRegisterLendingIntent]
  rw [if_neg (not_not.mpr valid),if_neg (by omega)]
  rfl

end Inversion

abbrev Entry := Journal.Entry State (Delivery Message) (List (Action Body))

/-- A run of deliveries, newest first, and the journal of the accepted ones. -/
def run (initial : State) (deliveries : List (Delivery Message)) : State :=
  Journal.run (deliver receive) initial deliveries

def journal (initial : State) (deliveries : List (Delivery Message)) : List Entry :=
  Journal.journal (deliver receive) initial deliveries

theorem entry_effect {deliveries : List (Delivery Message)}
    (member : entry ∈ journal initial deliveries) :
    Effect entry.input.context entry.before entry.input.message entry.after entry.output :=
  receive_effect (entry_received member)

end Tonbankcard.LendingProtocolCoordinator
