import Tonbankcard.NftOwnership

/-! The CrossChainBridge contract: the trait's three receivers over its intents, with the owner and
relayer registrations of the test harness. The contract moves no funds; its records are what
relayers and owners report. -/
namespace Tonbankcard.CrossChainBridge

open Ton NftOwnership

inductive IntentStatus where
  | pending
  | confirmed
  | cancelled
  | failed
  deriving DecidableEq, Repr

def errorBrNotOwner : Int := 1
def errorBrInvalidAmount : Int := 2
def errorBrInvalidChain : Int := 3
def errorBrIntentNotFound : Int := 4
def errorBrIntentNotPending : Int := 5
def errorBrNftNotRegistered : Int := 6
def errorBrNotAuthorized : Int := 7

def maxSupportedChain : Nat := 5

inductive Message where
  | registerNFTOwnerBridge (nftAddress owner : Address)
  | registerRelayer (relayer : Address)
  | registerBridgeIntent (nftAddress : Address) (intentId : BitVec 64)
      (targetChain amount targetAddressHash : Nat)
  | confirmBridgeExecution (nftAddress : Address) (intentId : BitVec 64) (externalTxHash : Nat)
  | cancelBridgeIntent (nftAddress : Address) (intentId : BitVec 64)
  deriving DecidableEq, Repr

inductive Body where
  | bridgeResponse (success : Bool) (errorCode : Int) (nftAddress : Address)
      (intentId : BitVec 64)
  | bridgeIntentRegistered (nftAddress : Address) (intentId : BitVec 64)
      (targetChain amount timestamp : Nat)
  | bridgeExecutionConfirmed (nftAddress : Address) (intentId : BitVec 64)
      (externalTxHash timestamp : Nat)
  | bridgeIntentCancelled (nftAddress : Address) (intentId : BitVec 64) (timestamp : Nat)
  deriving DecidableEq, Repr

structure BridgeIntentInfo where
  status : IntentStatus
  targetChain : Nat
  amount : Nat
  targetAddressHash : Nat
  externalTxHash : Nat
  createdAt : Nat
  confirmedAt : Nat
  deriving DecidableEq, Repr

def BridgeIntentInfo.confirm (i : BridgeIntentInfo) (externalTxHash now : Nat) :
    BridgeIntentInfo := {i with status := .confirmed,externalTxHash,confirmedAt := now}

def BridgeIntentInfo.cancel (i : BridgeIntentInfo) : BridgeIntentInfo :=
  {i with status := .cancelled,externalTxHash := 0,confirmedAt := 0}

structure State where
  bridgeIntents : FiniteMap Int BridgeIntentInfo
  nftOwners : FiniteMap Address Address
  authorizedRelayers : FiniteMap Address Bool
  deployer : Address

def init (deployer : Address) : State := ⟨∅,∅,∅,deployer⟩

section Receivers
variable (hash : Cell → Int) (env : Context)

def intentKey (nftAddress : Address) (intentId : BitVec 64) : Int :=
  recordKey hash nftAddress intentId

def State.getIntent (self : State) (nftAddress : Address) (intentId : BitVec 64) :
    Option BridgeIntentInfo := self.bridgeIntents.get (intentKey hash nftAddress intentId)

def State.putIntent (self : State) (nftAddress : Address) (intentId : BitVec 64)
    (i : BridgeIntentInfo) : State :=
  {self with bridgeIntents := self.bridgeIntents.set (intentKey hash nftAddress intentId) i}

def State.validateOwnership (self : State) (sender nftAddress : Address) : Int :=
  NftOwnership.validateOwnership errorBrNftNotRegistered errorBrNotOwner self.nftOwners sender
    nftAddress

def State.isOwner (self : State) (sender nftAddress : Address) : Bool :=
  NftOwnership.isOwner self.nftOwners sender nftAddress

def State.isAuthorizedRelayer (self : State) (sender : Address) : Bool :=
  (self.authorizedRelayers.get sender).getD false

def sendResponse (destination : Address) (success : Bool) (errorCode : Int)
    (nftAddress : Address) (intentId : BitVec 64) : Action Body :=
  .send {
    destination
    value := 0
    mode := sendRemainingValue
    body := .bridgeResponse success errorCode nftAddress intentId }

/-- A refusal is answered and changes nothing. -/
def refuse (errorCode : Int) (nftAddress : Address) (intentId : BitVec 64) (self : State) :
    Result (State × List (Action Body)) :=
  pure (self,[sendResponse env.sender false errorCode nftAddress intentId])

def receiveRegisterNFTOwnerBridge (nftAddress owner : Address) (self : State) :
    Result (State × List (Action Body)) := do
  let nftOwners ← registerNFTOwner self.deployer env.sender nftAddress owner self.nftOwners
  pure ({self with nftOwners},[])

def receiveRegisterRelayer (relayer : Address) (self : State) :
    Result (State × List (Action Body)) := do
  require (env.sender = self.deployer) "Unauthorized: only deployer (test-only)"
  pure ({self with authorizedRelayers := self.authorizedRelayers.set relayer true},[])

/-- An intent that is stored under the key already is written over. -/
def receiveRegisterBridgeIntent (nftAddress : Address) (intentId : BitVec 64)
    (targetChain amount targetAddressHash : Nat) (self : State) :
    Result (State × List (Action Body)) :=
  let errorCode := self.validateOwnership env.sender nftAddress
  if errorCode ≠ errorNone then refuse env errorCode nftAddress intentId self
  else if amount ≤ 0 then refuse env errorBrInvalidAmount nftAddress intentId self
  else if targetChain < 1 ∨ targetChain > maxSupportedChain then
    refuse env errorBrInvalidChain nftAddress intentId self
  else
    let intent : BridgeIntentInfo := {
      status := .pending
      targetChain
      amount
      targetAddressHash
      externalTxHash := 0
      createdAt := env.now
      confirmedAt := 0 }
    pure (self.putIntent hash nftAddress intentId intent,
      [.emit (.bridgeIntentRegistered nftAddress intentId targetChain amount env.now),
        sendResponse env.sender true errorNone nftAddress intentId])

def receiveConfirmBridgeExecution (nftAddress : Address) (intentId : BitVec 64)
    (externalTxHash : Nat) (self : State) : Result (State × List (Action Body)) :=
  let isOwner := self.isOwner env.sender nftAddress
  let isRelayer := self.isAuthorizedRelayer env.sender
  if !isOwner && !isRelayer then refuse env errorBrNotAuthorized nftAddress intentId self
  else
    match self.getIntent hash nftAddress intentId with
    | none => refuse env errorBrIntentNotFound nftAddress intentId self
    | some i =>
      if i.status ≠ .pending then refuse env errorBrIntentNotPending nftAddress intentId self
      else
        pure (self.putIntent hash nftAddress intentId (i.confirm externalTxHash env.now),
          [.emit (.bridgeExecutionConfirmed nftAddress intentId externalTxHash env.now),
            sendResponse env.sender true errorNone nftAddress intentId])

def receiveCancelBridgeIntent (nftAddress : Address) (intentId : BitVec 64) (self : State) :
    Result (State × List (Action Body)) :=
  let errorCode := self.validateOwnership env.sender nftAddress
  if errorCode ≠ errorNone then refuse env errorCode nftAddress intentId self
  else
    match self.getIntent hash nftAddress intentId with
    | none => refuse env errorBrIntentNotFound nftAddress intentId self
    | some i =>
      if i.status ≠ .pending then refuse env errorBrIntentNotPending nftAddress intentId self
      else
        pure (self.putIntent hash nftAddress intentId i.cancel,
          [.emit (.bridgeIntentCancelled nftAddress intentId env.now),
            sendResponse env.sender true errorNone nftAddress intentId])

end Receivers

def receive (hash : Cell → Int) : Receiver State Message Body := fun env msg self =>
  match msg with
  | .registerNFTOwnerBridge nftAddress owner =>
    receiveRegisterNFTOwnerBridge env nftAddress owner self
  | .registerRelayer relayer => receiveRegisterRelayer env relayer self
  | .registerBridgeIntent nftAddress intentId targetChain amount targetAddressHash =>
    receiveRegisterBridgeIntent hash env nftAddress intentId targetChain amount targetAddressHash
      self
  | .confirmBridgeExecution nftAddress intentId externalTxHash =>
    receiveConfirmBridgeExecution hash env nftAddress intentId externalTxHash self
  | .cancelBridgeIntent nftAddress intentId =>
    receiveCancelBridgeIntent hash env nftAddress intentId self

/-- The sender is the owner of the account or a relayer. -/
def Authorized (self : State) (env : Context) (nftAddress : Address) : Prop :=
  self.nftOwners.get nftAddress = some env.sender ∨
    self.authorizedRelayers.get env.sender = some true

/-- What a registration has to meet to be carried out. -/
structure Registrable (s : State) (env : Context) (nftAddress : Address)
    (targetChain amount : Nat) : Prop where
  owner : s.nftOwners.get nftAddress = some env.sender
  positive : 0 < amount
  chain : 1 ≤ targetChain ∧ targetChain ≤ maxSupportedChain

/-- What an accepted message does. A refused operation answers with an error code. -/
inductive Effect (hash : Cell → Int) (env : Context) (self : State) :
    Message → State → List (Action Body) → Prop where
  | ownerRegistered (owners : registerNFTOwner self.deployer env.sender nftAddress owner
        self.nftOwners = .ok nftOwners) :
      Effect hash env self (.registerNFTOwnerBridge nftAddress owner) {self with nftOwners} []
  | relayerRegistered (authorized : env.sender = self.deployer) :
      Effect hash env self (.registerRelayer relayer)
        {self with authorizedRelayers := self.authorizedRelayers.set relayer true} []
  | refused :
      Effect hash env self msg self [sendResponse env.sender false errorCode nftAddress intentId]
  | registered (registrable : Registrable self env nftAddress targetChain amount) :
      Effect hash env self
        (.registerBridgeIntent nftAddress intentId targetChain amount targetAddressHash)
        (self.putIntent hash nftAddress intentId
          ⟨.pending,targetChain,amount,targetAddressHash,0,env.now,0⟩)
        [.emit (.bridgeIntentRegistered nftAddress intentId targetChain amount env.now),
          sendResponse env.sender true errorNone nftAddress intentId]
  | confirmed (authorized : Authorized self env nftAddress)
      (stored : self.getIntent hash nftAddress intentId = some i) (pending : i.status = .pending) :
      Effect hash env self (.confirmBridgeExecution nftAddress intentId externalTxHash)
        (self.putIntent hash nftAddress intentId (i.confirm externalTxHash env.now))
        [.emit (.bridgeExecutionConfirmed nftAddress intentId externalTxHash env.now),
          sendResponse env.sender true errorNone nftAddress intentId]
  | cancelled (owner : self.nftOwners.get nftAddress = some env.sender)
      (stored : self.getIntent hash nftAddress intentId = some i) (pending : i.status = .pending) :
      Effect hash env self (.cancelBridgeIntent nftAddress intentId)
        (self.putIntent hash nftAddress intentId i.cancel)
        [.emit (.bridgeIntentCancelled nftAddress intentId env.now),
          sendResponse env.sender true errorNone nftAddress intentId]

section Inversion
variable {hash : Cell → Int} {env : Context} {self next : State}

theorem refuse_effect {errorCode : Int}
    (refused : refuse env errorCode nftAddress intentId self = .ok (next,actions)) :
    Effect hash env self msg next actions := by
  obtain ⟨rfl,rfl⟩ := Prod.mk.inj (pure_ok.mp refused)
  exact .refused

theorem owner_of_valid {self : State} {sender : Address}
    (valid : ¬self.validateOwnership sender nftAddress ≠ errorNone) :
    self.nftOwners.get nftAddress = some sender :=
  (validateOwnership_ok (by decide) (by decide)).mp (not_not.mp valid)

theorem isAuthorizedRelayer_iff {self : State} {sender : Address} :
    self.isAuthorizedRelayer sender = true ↔ self.authorizedRelayers.get sender = some true := by
  unfold State.isAuthorizedRelayer
  cases self.authorizedRelayers.get sender <;> simp

theorem register_effect
    (registered : receiveRegisterBridgeIntent hash env nftAddress intentId targetChain amount
      targetAddressHash self = .ok (next,actions)) :
    Effect hash env self
      (.registerBridgeIntent nftAddress intentId targetChain amount targetAddressHash) next
      actions := by
  simp only [receiveRegisterBridgeIntent] at registered
  split at registered
  · exact refuse_effect registered
  split at registered
  · exact refuse_effect registered
  split at registered
  · exact refuse_effect registered
  rename_i valid positive chain
  obtain ⟨rfl,rfl⟩ := Prod.mk.inj (pure_ok.mp registered)
  exact .registered ⟨owner_of_valid valid,by omega,by omega⟩

theorem confirm_effect
    (confirmed : receiveConfirmBridgeExecution hash env nftAddress intentId externalTxHash self =
      .ok (next,actions)) :
    Effect hash env self (.confirmBridgeExecution nftAddress intentId externalTxHash) next
      actions := by
  simp only [receiveConfirmBridgeExecution] at confirmed
  split at confirmed
  · exact refuse_effect confirmed
  rename_i party
  split at confirmed
  · exact refuse_effect confirmed
  rename_i i stored
  split at confirmed
  · exact refuse_effect confirmed
  rename_i pending
  obtain ⟨rfl,rfl⟩ := Prod.mk.inj (pure_ok.mp confirmed)
  simp only [Bool.and_eq_true,Bool.not_eq_true',not_and_or,Bool.not_eq_false] at party
  exact .confirmed (party.imp isOwner_iff.mp isAuthorizedRelayer_iff.mp) stored (not_not.mp pending)

theorem cancel_effect
    (cancelled : receiveCancelBridgeIntent hash env nftAddress intentId self =
      .ok (next,actions)) :
    Effect hash env self (.cancelBridgeIntent nftAddress intentId) next actions := by
  simp only [receiveCancelBridgeIntent] at cancelled
  split at cancelled
  · exact refuse_effect cancelled
  rename_i valid
  split at cancelled
  · exact refuse_effect cancelled
  rename_i i stored
  split at cancelled
  · exact refuse_effect cancelled
  rename_i pending
  obtain ⟨rfl,rfl⟩ := Prod.mk.inj (pure_ok.mp cancelled)
  exact .cancelled (owner_of_valid valid) stored (not_not.mp pending)

/-- The one inversion of the receivers. -/
theorem receive_effect (accepted : receive hash env msg self = .ok (next,actions)) :
    Effect hash env self msg next actions := by
  cases msg with
  | registerNFTOwnerBridge nftAddress owner =>
    simp only [receive,receiveRegisterNFTOwnerBridge] at accepted
    obtain ⟨nftOwners,owners,accepted⟩ := bind_ok.mp accepted
    obtain ⟨rfl,rfl⟩ := Prod.mk.inj (pure_ok.mp accepted)
    exact .ownerRegistered owners
  | registerRelayer relayer =>
    simp only [receive,receiveRegisterRelayer,require_bind_ok] at accepted
    obtain ⟨rfl,rfl⟩ := Prod.mk.inj (pure_ok.mp accepted.2)
    exact .relayerRegistered accepted.1
  | registerBridgeIntent => exact register_effect accepted
  | confirmBridgeExecution => exact confirm_effect accepted
  | cancelBridgeIntent => exact cancel_effect accepted

theorem receive_register (registrable : Registrable self env nftAddress targetChain amount) :
    receive hash env
      (.registerBridgeIntent nftAddress intentId targetChain amount targetAddressHash) self =
      .ok (self.putIntent hash nftAddress intentId
          ⟨.pending,targetChain,amount,targetAddressHash,0,env.now,0⟩,
        [.emit (.bridgeIntentRegistered nftAddress intentId targetChain amount env.now),
          sendResponse env.sender true errorNone nftAddress intentId]) := by
  have valid : self.validateOwnership env.sender nftAddress = errorNone :=
    (validateOwnership_ok (by decide) (by decide)).mpr registrable.owner
  have positive := registrable.positive
  have chain := registrable.chain
  simp only [receive,receiveRegisterBridgeIntent]
  rw [if_neg (not_not.mpr valid),if_neg (by omega),if_neg (by omega)]
  rfl

end Inversion

abbrev Entry := Journal.Entry State (Delivery Message) (List (Action Body))

/-- A run of deliveries, newest first, and the journal of the accepted ones. -/
def run (hash : Cell → Int) (initial : State) (deliveries : List (Delivery Message)) : State :=
  Journal.run (deliver (receive hash)) initial deliveries

def journal (hash : Cell → Int) (initial : State) (deliveries : List (Delivery Message)) :
    List Entry := Journal.journal (deliver (receive hash)) initial deliveries

theorem entry_effect {hash : Cell → Int} {deliveries : List (Delivery Message)}
    (member : entry ∈ journal hash initial deliveries) :
    Effect hash entry.input.context entry.before entry.input.message entry.after entry.output :=
  receive_effect (entry_received member)

section Records
variable {hash : Cell → Int} {nft other : Address} {id otherId : BitVec 64}
variable (self : State) (i : BridgeIntentInfo)

@[simp] theorem getIntent_putIntent_same :
    (self.putIntent hash nft id i).getIntent hash nft id = some i := FiniteMap.get_set_same ..

/-- Intents under one key are one intent. -/
theorem getIntent_putIntent :
    (self.putIntent hash nft id i).getIntent hash other otherId =
      if intentKey hash other otherId = intentKey hash nft id then some i
      else self.getIntent hash other otherId := FiniteMap.get_set ..

end Records
end Tonbankcard.CrossChainBridge
