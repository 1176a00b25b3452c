import Tonbankcard.NftOwnership

/-! The CollateralSignal contract: one signal for each NFT account, written by its registered owner
and binding nobody. The owners are those the NFT resolver announced last. -/
namespace Tonbankcard.CollateralSignal

open Ton NftOwnership

def collateralSignalNone : Int := 0
def collateralSignalActive : Int := 1
def collateralSignalReleased : Int := 3

def errorCsNotOwner : Int := 1
def errorCsInvalidState : Int := 2
def errorCsInvalidAmount : Int := 3
def errorCsNftNotRegistered : Int := 6

inductive Message where
  | signalCollateralRequest (nftAddress : Address) (collateralAmountTon : Int)
  | updateCollateralSignalRequest (nftAddress : Address) (newState collateralAmountTon : Int)
  | releaseCollateralSignalRequest (nftAddress : Address)
  | resolveNFTOwner (nftAddress owner : Address)
  deriving DecidableEq, Repr

inductive Body where
  | collateralSignalResponse (success : Bool) (errorCode : Int) (nftAddress : Address)
      (signalState : Int)
  | collateralSignaled (nftAddress : Address) (collateralAmountTon : Int) (timestamp : Nat)
  | collateralSignalUpdated (nftAddress : Address) (previousState newState : Int)
      (collateralAmountTon : Int) (timestamp : Nat)
  | collateralSignalReleased (nftAddress : Address) (previousAmountTon : Int) (timestamp : Nat)
  | nftOwnerRegistered (nftAddress owner : Address) (timestamp : Nat)
  deriving DecidableEq, Repr

structure CollateralSignalInfo where
  signalState : Int
  collateralAmountTon : Int
  createdAt : Nat
  updatedAt : Nat
  deriving DecidableEq, Repr

def defaultCollateralSignalInfo : CollateralSignalInfo := ⟨collateralSignalNone,0,0,0⟩

structure State where
  collateralSignals : FiniteMap Address CollateralSignalInfo
  nftOwners : FiniteMap Address Address
  nftResolver : Address

def init (nftResolver : Address) : State := ⟨∅,∅,nftResolver⟩

section Receivers
variable (env : Context)

namespace State

def putSignal (self : State) (nftAddress : Address) (i : CollateralSignalInfo) : State :=
  {self with collateralSignals := self.collateralSignals.set nftAddress i}

def getCollateralSignalInfo (self : State) (nftAddress : Address) : CollateralSignalInfo :=
  (self.collateralSignals.get nftAddress).getD defaultCollateralSignalInfo

def validateOwnership (self : State) (sender nftAddress : Address) : Int :=
  NftOwnership.validateOwnership errorCsNftNotRegistered errorCsNotOwner self.nftOwners sender
    nftAddress

/-- When a signal that is written now was created; an absent one reads as created at zero. -/
def createdAt (self : State) (nftAddress : Address) : Nat :=
  let existingInfo := self.getCollateralSignalInfo nftAddress
  if existingInfo.createdAt = 0 then env.now else existingInfo.createdAt

end State

def sendResponse (destination : Address) (success : Bool) (errorCode : Int)
    (nftAddress : Address) (signalState : Int) : Action Body :=
  .send {
    destination
    value := 0
    mode := sendRemainingValue
    body := .collateralSignalResponse success errorCode nftAddress signalState }

/-- A refusal is answered and changes nothing. -/
def refuse (errorCode : Int) (nftAddress : Address) (self : State) :
    Result (State × List (Action Body)) :=
  pure (self,[sendResponse env.sender false errorCode nftAddress collateralSignalNone])

/-- The second event of a receiver, for a change of state. -/
def announceChange (nftAddress : Address) (previousState newState collateralAmountTon : Int) :
    List (Action Body) :=
  if previousState ≠ newState then
    [.emit (.collateralSignalUpdated nftAddress previousState newState collateralAmountTon env.now)]
  else []

def receiveSignalCollateralRequest (nftAddress : Address) (collateralAmountTon : Int)
    (self : State) : Result (State × List (Action Body)) :=
  let errorCode := self.validateOwnership env.sender nftAddress
  if errorCode ≠ errorNone then refuse env errorCode nftAddress self
  else if collateralAmountTon < 0 then refuse env errorCsInvalidAmount nftAddress self
  else
    let previousState := (self.getCollateralSignalInfo nftAddress).signalState
    let newInfo : CollateralSignalInfo := {
      signalState := collateralSignalActive
      collateralAmountTon
      createdAt := self.createdAt env nftAddress
      updatedAt := env.now }
    pure (self.putSignal nftAddress newInfo,
      .emit (.collateralSignaled nftAddress collateralAmountTon env.now) ::
        (announceChange env nftAddress previousState collateralSignalActive collateralAmountTon ++
          [sendResponse env.sender true errorNone nftAddress collateralSignalActive]))

/-- Neither an existing signal nor an amount that suits the state is asked for. -/
def receiveUpdateCollateralSignalRequest (nftAddress : Address)
    (newState collateralAmountTon : Int) (self : State) : Result (State × List (Action Body)) :=
  let errorCode := self.validateOwnership env.sender nftAddress
  if errorCode ≠ errorNone then refuse env errorCode nftAddress self
  else if newState < collateralSignalNone ∨ newState > collateralSignalReleased then
    refuse env errorCsInvalidState nftAddress self
  else if collateralAmountTon < 0 then refuse env errorCsInvalidAmount nftAddress self
  else
    let previousState := (self.getCollateralSignalInfo nftAddress).signalState
    let newInfo : CollateralSignalInfo := {
      signalState := newState
      collateralAmountTon
      createdAt := self.createdAt env nftAddress
      updatedAt := env.now }
    pure (self.putSignal nftAddress newInfo,
      [.emit (.collateralSignalUpdated nftAddress previousState newState collateralAmountTon
          env.now),
        sendResponse env.sender true errorNone nftAddress newState])

/-- The creation time is copied, also from an absent signal. -/
def receiveReleaseCollateralSignalRequest (nftAddress : Address) (self : State) :
    Result (State × List (Action Body)) :=
  let errorCode := self.validateOwnership env.sender nftAddress
  if errorCode ≠ errorNone then refuse env errorCode nftAddress self
  else
    let existingInfo := self.getCollateralSignalInfo nftAddress
    let newInfo : CollateralSignalInfo := {
      signalState := collateralSignalReleased
      collateralAmountTon := 0
      createdAt := existingInfo.createdAt
      updatedAt := env.now }
    pure (self.putSignal nftAddress newInfo,
      .emit (.collateralSignalReleased nftAddress existingInfo.collateralAmountTon env.now) ::
        (announceChange env nftAddress existingInfo.signalState collateralSignalReleased 0 ++
          [sendResponse env.sender true errorNone nftAddress collateralSignalReleased]))

def receiveResolveNFTOwner (nftAddress owner : Address) (self : State) :
    Result (State × List (Action Body)) := do
  require (env.sender = self.nftResolver) "Unauthorized: only NFT resolver"
  pure ({self with nftOwners := self.nftOwners.set nftAddress owner},
    [.emit (.nftOwnerRegistered nftAddress owner env.now)])

end Receivers

def receive : Receiver State Message Body := fun env msg self =>
  match msg with
  | .signalCollateralRequest nftAddress collateralAmountTon =>
    receiveSignalCollateralRequest env nftAddress collateralAmountTon self
  | .updateCollateralSignalRequest nftAddress newState collateralAmountTon =>
    receiveUpdateCollateralSignalRequest env nftAddress newState collateralAmountTon self
  | .releaseCollateralSignalRequest nftAddress =>
    receiveReleaseCollateralSignalRequest env nftAddress self
  | .resolveNFTOwner nftAddress owner => receiveResolveNFTOwner env nftAddress owner self

/-- What an accepted message does. A refused request is answered with an error code; every other
one announces itself and is answered with success. -/
inductive Effect (env : Context) (self : State) : Message → State → List (Action Body) → Prop where
  | resolved (resolver : env.sender = self.nftResolver) :
      Effect env self (.resolveNFTOwner nftAddress owner)
        {self with nftOwners := self.nftOwners.set nftAddress owner}
        [.emit (.nftOwnerRegistered nftAddress owner env.now)]
  | refused :
      Effect env self msg self
        [sendResponse env.sender false errorCode nftAddress collateralSignalNone]
  | signaled (owner : self.nftOwners.get nftAddress = some env.sender)
      (natural : 0 ≤ collateralAmountTon) :
      Effect env self (.signalCollateralRequest nftAddress collateralAmountTon)
        (self.putSignal nftAddress ⟨collateralSignalActive,collateralAmountTon,
          self.createdAt env nftAddress,env.now⟩)
        (.emit (.collateralSignaled nftAddress collateralAmountTon env.now) ::
          (announceChange env nftAddress (self.getCollateralSignalInfo nftAddress).signalState
              collateralSignalActive collateralAmountTon ++
            [sendResponse env.sender true errorNone nftAddress collateralSignalActive]))
  | updated (owner : self.nftOwners.get nftAddress = some env.sender)
      (known : collateralSignalNone ≤ newState ∧ newState ≤ collateralSignalReleased)
      (natural : 0 ≤ collateralAmountTon) :
      Effect env self (.updateCollateralSignalRequest nftAddress newState collateralAmountTon)
        (self.putSignal nftAddress ⟨newState,collateralAmountTon,self.createdAt env nftAddress,
          env.now⟩)
        [.emit (.collateralSignalUpdated nftAddress
            (self.getCollateralSignalInfo nftAddress).signalState newState collateralAmountTon
            env.now),
          sendResponse env.sender true errorNone nftAddress newState]
  | released (owner : self.nftOwners.get nftAddress = some env.sender) :
      Effect env self (.releaseCollateralSignalRequest nftAddress)
        (self.putSignal nftAddress ⟨collateralSignalReleased,0,
          (self.getCollateralSignalInfo nftAddress).createdAt,env.now⟩)
        (.emit (.collateralSignalReleased nftAddress
            (self.getCollateralSignalInfo nftAddress).collateralAmountTon env.now) ::
          (announceChange env nftAddress (self.getCollateralSignalInfo nftAddress).signalState
              collateralSignalReleased 0 ++
            [sendResponse env.sender true errorNone nftAddress collateralSignalReleased]))

section Inversion
variable {env : Context} {self next : State}

theorem validateOwnership_none_iff {sender : Address} :
    self.validateOwnership sender nftAddress = errorNone ↔
      self.nftOwners.get nftAddress = some sender :=
  validateOwnership_ok (by decide) (by decide)

theorem refuse_effect {errorCode : Int}
    (refused : refuse env errorCode nftAddress self = .ok (next,actions)) :
    Effect env self msg next actions := by
  obtain ⟨rfl,rfl⟩ := Prod.mk.inj (pure_ok.mp refused)
  exact .refused

theorem signal_effect
    (signaled : receiveSignalCollateralRequest env nftAddress collateralAmountTon self =
      .ok (next,actions)) :
    Effect env self (.signalCollateralRequest nftAddress collateralAmountTon) next actions := by
  simp only [receiveSignalCollateralRequest] at signaled
  split at signaled
  · exact refuse_effect signaled
  split at signaled
  · exact refuse_effect signaled
  rename_i valid natural
  obtain ⟨rfl,rfl⟩ := Prod.mk.inj (pure_ok.mp signaled)
  exact .signaled (validateOwnership_none_iff.mp (not_not.mp valid)) (Int.not_lt.mp natural)

theorem update_effect
    (updated : receiveUpdateCollateralSignalRequest env nftAddress newState collateralAmountTon
      self = .ok (next,actions)) :
    Effect env self (.updateCollateralSignalRequest nftAddress newState collateralAmountTon) next
      actions := by
  simp only [receiveUpdateCollateralSignalRequest] at updated
  split at updated
  · exact refuse_effect updated
  split at updated
  · exact refuse_effect updated
  split at updated
  · exact refuse_effect updated
  rename_i valid known natural
  obtain ⟨rfl,rfl⟩ := Prod.mk.inj (pure_ok.mp updated)
  exact .updated (validateOwnership_none_iff.mp (not_not.mp valid)) (by omega)
    (Int.not_lt.mp natural)

theorem release_effect
    (released : receiveReleaseCollateralSignalRequest env nftAddress self = .ok (next,actions)) :
    Effect env self (.releaseCollateralSignalRequest nftAddress) next actions := by
  simp only [receiveReleaseCollateralSignalRequest] at released
  split at released
  · exact refuse_effect released
  rename_i valid
  obtain ⟨rfl,rfl⟩ := Prod.mk.inj (pure_ok.mp released)
  exact .released (validateOwnership_none_iff.mp (not_not.mp valid))

/-- The one inversion of the receivers. -/
theorem receive_effect (accepted : receive env msg self = .ok (next,actions)) :
    Effect env self msg next actions := by
  cases msg with
  | signalCollateralRequest => exact signal_effect accepted
  | updateCollateralSignalRequest => exact update_effect accepted
  | releaseCollateralSignalRequest => exact release_effect accepted
  | resolveNFTOwner nftAddress owner =>
    obtain ⟨resolver,accepted⟩ := require_bind_ok.mp accepted
    obtain ⟨rfl,rfl⟩ := Prod.mk.inj (pure_ok.mp accepted)
    exact .resolved resolver

/-- An owner's update is carried out, whatever is stored. -/
theorem receive_update (owner : self.nftOwners.get nftAddress = some env.sender)
    (known : collateralSignalNone ≤ newState ∧ newState ≤ collateralSignalReleased)
    (natural : 0 ≤ collateralAmountTon) :
    receive env (.updateCollateralSignalRequest nftAddress newState collateralAmountTon) self =
      .ok (self.putSignal nftAddress
          ⟨newState,collateralAmountTon,self.createdAt env nftAddress,env.now⟩,
        [.emit (.collateralSignalUpdated nftAddress
            (self.getCollateralSignalInfo nftAddress).signalState newState collateralAmountTon
            env.now),
          sendResponse env.sender true errorNone nftAddress newState]) := by
  have valid := validateOwnership_none_iff.mpr owner
  simp only [receive,receiveUpdateCollateralSignalRequest]
  rw [if_neg (not_not.mpr valid),if_neg (by omega),if_neg (by omega)]
  rfl

/-- So is an owner's release. -/
theorem receive_release (owner : self.nftOwners.get nftAddress = some env.sender) :
    receive env (.releaseCollateralSignalRequest nftAddress) self =
      .ok (self.putSignal nftAddress ⟨collateralSignalReleased,0,
          (self.getCollateralSignalInfo nftAddress).createdAt,env.now⟩,
        .emit (.collateralSignalReleased nftAddress
            (self.getCollateralSignalInfo nftAddress).collateralAmountTon env.now) ::
          (announceChange env nftAddress (self.getCollateralSignalInfo nftAddress).signalState
              collateralSignalReleased 0 ++
            [sendResponse env.sender true errorNone nftAddress collateralSignalReleased])) := by
  have valid := validateOwnership_none_iff.mpr owner
  simp only [receive,receiveReleaseCollateralSignalRequest]
  rw [if_neg (not_not.mpr valid)]
  rfl

end Inversion

abbrev Entry := Journal.Entry State (Delivery Message) (List (Action Body))

/-- A run of deliveries, newest first, and the journal of the accepted ones. -/
def run (initial : State) (deliveries : List (Delivery Message)) : State :=
  Journal.run (deliver receive) initial deliveries

def journal (initial : State) (deliveries : List (Delivery Message)) : List Entry :=
  Journal.journal (deliver receive) initial deliveries

end Tonbankcard.CollateralSignal
