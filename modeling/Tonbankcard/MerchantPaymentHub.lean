import Tonbankcard.AccountTypes
import Tonbankcard.TonContract

/-! The MerchantPaymentHub contract: storage, the ten receivers of its base trait, and
what an accepted message of each kind does. Getters read the stored maps with the
contract's defaults; the payload of a payment enters only through its cell hash. -/
namespace Tonbankcard.MerchantPaymentHub

open Ton

def errorNone : Int := 0
def errorNotOwner : Int := 1
def errorPayerNotActive : Int := 2
def errorPayerLocked : Int := 3
def errorMerchantClosed : Int := 4
def errorInvalidAmount : Int := 5
def errorInsufficientBalance : Int := 6
def errorPayerNotExists : Int := 7
def errorMerchantNotExists : Int := 8

def merchantAdminTransferDelay : Int := 7 * 24 * 60 * 60
def merchantWhitelistTimelockDelay : Int := 7 * 24 * 60 * 60

inductive Message where
  | merchantPaymentRequest (payerNft merchantNft : Address) (amountTbc : Int)
      (payload : Option Cell)
  | resolveNFTOwner (nftAddress owner : Address)
  | tbcDeposit (depositId : Int) (nftAddress : Address) (amountTbc : Int)
  | applyAccountLock (nftAddress : Address) (lockState : LockState)
  | proposeWhitelistCollection (collectionAddress : Address)
  | executeWhitelistCollection
  | cancelWhitelistCollection
  | merchantProposeAdminTransfer (newAdmin : Address)
  | merchantExecuteAdminTransfer
  | merchantCancelAdminTransfer

inductive Body where
  | merchantPaymentResponse (success : Bool) (errorCode : Int)
  | merchantPayment (payerNft merchantNft : Address) (amountTbc payloadHash : Int)
      (timestamp : Nat)
  | merchantNFTOwnerRegistered (nftAddress owner : Address) (state : Int) (timestamp : Nat)
  | merchantTBCDeposited (depositId : Int) (nftAddress : Address) (amountTbc : Int)
      (timestamp : Nat)
  | merchantAccountLockApplied (nftAddress : Address) (fraudLocked collateralLocked : Bool)
      (timestamp : Nat)
  | merchantCollectionWhitelistProposed (collectionAddress : Address) (executableAt : Int)
      (timestamp : Nat)
  | merchantCollectionWhitelistExecuted (collectionAddress : Address) (timestamp : Nat)
  | merchantCollectionWhitelistCancelled (collectionAddress : Address) (timestamp : Nat)
  | merchantAdminTransferProposed (currentAdmin proposedAdmin : Address) (executableAt : Int)
      (timestamp : Nat)
  | merchantAdminTransferExecuted (oldAdmin newAdmin : Address) (timestamp : Nat)
  | merchantAdminTransferCancelled (admin cancelledProposed : Address) (timestamp : Nat)
  deriving DecidableEq, Repr

structure State where
  admin : Address
  pendingAdmin : Option Address
  pendingAdminExecutableAt : Int
  accountLocksContract : Address
  nftResolver : Address
  tbcSettlement : Address
  accountStates : FiniteMap Address Int
  accountBalances : FiniteMap Address Int
  accountLocks : FiniteMap Address LockState
  nftOwners : FiniteMap Address Address
  processedDeposits : FiniteMap Int Bool
  whitelistedCollections : FiniteMap Address Bool
  pendingWhitelistCollection : Option Address
  pendingWhitelistExecutableAt : Int

def init (deployerAddress accountLocksContract nftResolver tbcSettlement : Address) : State :=
  { admin := deployerAddress
    pendingAdmin := none
    pendingAdminExecutableAt := 0
    accountLocksContract
    nftResolver
    tbcSettlement
    accountStates := ∅
    accountBalances := ∅
    accountLocks := ∅
    nftOwners := ∅
    processedDeposits := ∅
    whitelistedCollections := ∅
    pendingWhitelistCollection := none
    pendingWhitelistExecutableAt := 0 }

namespace State

/-- An account without a stored state counts as active. -/
def getAccountState (self : State) (nftAddress : Address) : Int :=
  (self.accountStates.get nftAddress).getD accountStateActive

def getBalance (self : State) (nftAddress : Address) : Int :=
  (self.accountBalances.get nftAddress).getD 0

def getLockState (self : State) (nftAddress : Address) : LockState :=
  (self.accountLocks.get nftAddress).getD defaultLockState

def debitBalance (self : State) (nftAddress : Address) (amount : Int) : Result State := do
  require (self.getBalance nftAddress ≥ amount) "Insufficient balance"
  let balance ← int257 (self.getBalance nftAddress - amount)
  pure {self with accountBalances := self.accountBalances.set nftAddress balance}

def creditBalance (self : State) (nftAddress : Address) (amount : Int) : Result State := do
  let balance ← int257 (self.getBalance nftAddress + amount)
  pure {self with accountBalances := self.accountBalances.set nftAddress balance}

end State

variable (hash : Cell → Int)

def payloadHash : Option Cell → Int
  | none => 0
  | some payload => hash payload

/-- Returns the error code with the new storage and the payment event. -/
def validateAndExecutePayment (env : Context) (payerNft merchantNft : Address)
    (amountTbc : Int) (payload : Option Cell) (self : State) :
    Result (Int × State × List (Action Body)) :=
  match self.nftOwners.get payerNft with
  | none => pure (errorPayerNotExists,self,[])
  | some payerOwner =>
    if payerOwner ≠ env.sender then pure (errorNotOwner,self,[]) else
    match self.accountStates.get merchantNft with
    | none => pure (errorMerchantNotExists,self,[])
    | some merchantState =>
      if amountTbc ≤ 0 then pure (errorInvalidAmount,self,[])
      else if !canSend (self.getAccountState payerNft) then pure (errorPayerNotActive,self,[])
      else if !canSendWithLocks (self.getLockState payerNft) then pure (errorPayerLocked,self,[])
      else if !canReceive merchantState then pure (errorMerchantClosed,self,[])
      else if self.getBalance payerNft < amountTbc then pure (errorInsufficientBalance,self,[])
      else do
        let self ← self.debitBalance payerNft amountTbc
        let self ← self.creditBalance merchantNft amountTbc
        pure (errorNone,self,
          [.emit (.merchantPayment payerNft merchantNft amountTbc (payloadHash hash payload)
            env.now)])

def response (env : Context) (errorCode : Int) : Action Body :=
  .send {
    destination := env.sender
    value := 0
    mode := sendRemainingValue
    body := .merchantPaymentResponse (errorCode == errorNone) errorCode }

def receiveResolveNFTOwner (env : Context) (nftAddress owner : Address) (self : State) :
    Result (State × List (Action Body)) := do
  require (env.sender = self.nftResolver) "Unauthorized: only NFT resolver"
  let self := {self with nftOwners := self.nftOwners.set nftAddress owner}
  let self := if self.accountStates.get nftAddress = none then
    {self with accountStates := self.accountStates.set nftAddress accountStateActive} else self
  pure (self,[.emit (.merchantNFTOwnerRegistered nftAddress owner
    (self.getAccountState nftAddress) env.now)])

def receiveTBCDeposit (env : Context) (depositId : Int) (nftAddress : Address)
    (amountTbc : Int) (self : State) : Result (State × List (Action Body)) := do
  require (env.sender = self.tbcSettlement) "Unauthorized: only TBC settlement"
  require (amountTbc > 0) "Deposit amount must be positive"
  require (self.accountStates.get nftAddress ≠ none) "NFT account not registered"
  require (self.processedDeposits.get depositId = none) "Deposit already processed"
  let self := {self with processedDeposits := self.processedDeposits.set depositId true}
  let self ← self.creditBalance nftAddress amountTbc
  pure (self,[.emit (.merchantTBCDeposited depositId nftAddress amountTbc env.now)])

def receiveApplyAccountLock (env : Context) (nftAddress : Address) (lockState : LockState)
    (self : State) : Result (State × List (Action Body)) := do
  require (env.sender = self.accountLocksContract) "Unauthorized: only Account Locks contract"
  pure ({self with accountLocks := self.accountLocks.set nftAddress lockState},
    [.emit (.merchantAccountLockApplied nftAddress lockState.fraudLocked
      lockState.collateralLocked env.now)])

def receiveProposeWhitelistCollection (env : Context) (collectionAddress : Address)
    (self : State) : Result (State × List (Action Body)) := do
  require (env.sender = self.admin) "Unauthorized: only admin"
  let executableAt ← fitUint 32 (env.now + merchantWhitelistTimelockDelay)
  pure ({self with
      pendingWhitelistCollection := some collectionAddress
      pendingWhitelistExecutableAt := executableAt},
    [.emit (.merchantCollectionWhitelistProposed collectionAddress executableAt env.now)])

def receiveExecuteWhitelistCollection (env : Context) (self : State) :
    Result (State × List (Action Body)) := do
  require (env.sender = self.admin) "Unauthorized: only admin"
  match self.pendingWhitelistCollection with
  | none => .error (.require "No pending collection whitelist")
  | some collection =>
    require (env.now ≥ self.pendingWhitelistExecutableAt) "Timelock not expired: wait 7 days"
    pure ({self with
        whitelistedCollections := self.whitelistedCollections.set collection true
        pendingWhitelistCollection := none
        pendingWhitelistExecutableAt := 0},
      [.emit (.merchantCollectionWhitelistExecuted collection env.now)])

def receiveCancelWhitelistCollection (env : Context) (self : State) :
    Result (State × List (Action Body)) := do
  require (env.sender = self.admin) "Unauthorized: only admin"
  match self.pendingWhitelistCollection with
  | none => .error (.require "No pending collection whitelist")
  | some cancelled =>
    pure ({self with
        pendingWhitelistCollection := none
        pendingWhitelistExecutableAt := 0},
      [.emit (.merchantCollectionWhitelistCancelled cancelled env.now)])

def receiveMerchantProposeAdminTransfer (env : Context) (newAdmin : Address) (self : State) :
    Result (State × List (Action Body)) := do
  require (env.sender = self.admin) "Unauthorized: only admin"
  let executableAt ← fitUint 32 (env.now + merchantAdminTransferDelay)
  pure ({self with
      pendingAdmin := some newAdmin
      pendingAdminExecutableAt := executableAt},
    [.emit (.merchantAdminTransferProposed self.admin newAdmin executableAt env.now)])

def receiveMerchantExecuteAdminTransfer (env : Context) (self : State) :
    Result (State × List (Action Body)) :=
  match self.pendingAdmin with
  | none => .error (.require "No pending admin transfer")
  | some newAdmin => do
    require (env.sender = newAdmin) "Unauthorized: only proposed admin"
    require (env.now ≥ self.pendingAdminExecutableAt) "Timelock not expired: wait 7 days"
    pure ({self with
        admin := newAdmin
        pendingAdmin := none
        pendingAdminExecutableAt := 0},
      [.emit (.merchantAdminTransferExecuted self.admin newAdmin env.now)])

def receiveMerchantCancelAdminTransfer (env : Context) (self : State) :
    Result (State × List (Action Body)) := do
  require (env.sender = self.admin) "Unauthorized: only admin"
  match self.pendingAdmin with
  | none => .error (.require "No pending admin transfer")
  | some cancelled =>
    pure ({self with
        pendingAdmin := none
        pendingAdminExecutableAt := 0},
      [.emit (.merchantAdminTransferCancelled self.admin cancelled env.now)])

def receive : Receiver State Message Body := fun env msg self =>
  match msg with
  | .merchantPaymentRequest payerNft merchantNft amountTbc payload => do
    let (errorCode,self,events) ←
      validateAndExecutePayment hash env payerNft merchantNft amountTbc payload self
    pure (self,events ++ [response env errorCode])
  | .resolveNFTOwner nftAddress owner => receiveResolveNFTOwner env nftAddress owner self
  | .tbcDeposit depositId nftAddress amountTbc =>
    receiveTBCDeposit env depositId nftAddress amountTbc self
  | .applyAccountLock nftAddress lockState =>
    receiveApplyAccountLock env nftAddress lockState self
  | .proposeWhitelistCollection collectionAddress =>
    receiveProposeWhitelistCollection env collectionAddress self
  | .executeWhitelistCollection => receiveExecuteWhitelistCollection env self
  | .cancelWhitelistCollection => receiveCancelWhitelistCollection env self
  | .merchantProposeAdminTransfer newAdmin =>
    receiveMerchantProposeAdminTransfer env newAdmin self
  | .merchantExecuteAdminTransfer => receiveMerchantExecuteAdminTransfer env self
  | .merchantCancelAdminTransfer => receiveMerchantCancelAdminTransfer env self

/-- Everything a payment checks before it moves the amount. -/
structure Payable (s : State) (sender payerNft merchantNft : Address) (amountTbc : Int) :
    Prop where
  owner : s.nftOwners.get payerNft = some sender
  registered : ∃ merchantState,
    s.accountStates.get merchantNft = some merchantState ∧ canReceive merchantState = true
  positive : 0 < amountTbc
  active : canSend (s.getAccountState payerNft) = true
  unlocked : canSendWithLocks (s.getLockState payerNft) = true
  funded : amountTbc ≤ s.getBalance payerNft

namespace State

/-- The credit reads the debited map, so a payer who is the merchant gets the amount back. -/
def pay (self : State) (payerNft merchantNft : Address) (amountTbc : Int) : State :=
  let debited := self.accountBalances.set payerNft (self.getBalance payerNft - amountTbc)
  {self with
    accountBalances := debited.set merchantNft (debited.amount merchantNft + amountTbc)}

def register (self : State) (nftAddress owner : Address) : State :=
  {self with
    nftOwners := self.nftOwners.set nftAddress owner
    accountStates := if self.accountStates.get nftAddress = none then
      self.accountStates.set nftAddress accountStateActive else self.accountStates}

def deposit (self : State) (depositId : Int) (nftAddress : Address) (amountTbc : Int) : State :=
  {self with
    processedDeposits := self.processedDeposits.set depositId true
    accountBalances :=
      self.accountBalances.set nftAddress (self.getBalance nftAddress + amountTbc)}

end State

theorem debitBalance_ok {self next : State} (debited : self.debitBalance nftAddress amount = .ok next) :
    next = {self with accountBalances :=
      self.accountBalances.set nftAddress (self.getBalance nftAddress - amount)} := by
  simp only [State.debitBalance,require_bind_ok] at debited
  obtain ⟨_,⟨rfl,-⟩,stored⟩ := (bind_ok.mp debited.2).imp (fun _ => And.imp_left int257_ok.mp)
  exact (pure_ok.mp stored).symm

theorem creditBalance_ok {self next : State}
    (credited : self.creditBalance nftAddress amount = .ok next) :
    next = {self with accountBalances :=
      self.accountBalances.set nftAddress (self.getBalance nftAddress + amount)} := by
  obtain ⟨_,⟨rfl,-⟩,stored⟩ := (bind_ok.mp credited).imp (fun _ => And.imp_left int257_ok.mp)
  exact (pure_ok.mp stored).symm

private theorem rejected_of_ok {self next : State} {code errorCode : Int}
    {events : List (Action Body)} (failure : code ≠ errorNone)
    (returned : (pure (code,self,[]) : Result (Int × State × List (Action Body))) =
      .ok (errorCode,next,events)) :
    errorCode ≠ errorNone ∧ next = self ∧ events = [] := by
  simp only [pure_ok,Prod.mk.injEq] at returned
  obtain ⟨rfl,rfl,rfl⟩ := returned
  exact ⟨failure,rfl,rfl⟩

/-- A payment that returns an error changes nothing and emits nothing. -/
theorem validateAndExecutePayment_ok {hash : Cell → Int} {env : Context} {self next : State}
    (returned : validateAndExecutePayment hash env payerNft merchantNft amountTbc payload self =
      .ok (errorCode,next,events)) :
    (errorCode ≠ errorNone ∧ next = self ∧ events = []) ∨
    (errorCode = errorNone ∧ Payable self env.sender payerNft merchantNft amountTbc ∧
      next = self.pay payerNft merchantNft amountTbc ∧
      events = [.emit (.merchantPayment payerNft merchantNft amountTbc
        (payloadHash hash payload) env.now)]) := by
  unfold validateAndExecutePayment at returned
  split at returned
  · exact .inl (rejected_of_ok (by decide) returned)
  rename_i payerOwner owned
  split at returned
  · exact .inl (rejected_of_ok (by decide) returned)
  rename_i sends
  split at returned
  · exact .inl (rejected_of_ok (by decide) returned)
  rename_i merchantState registered
  repeat' split at returned
  all_goals try exact .inl (rejected_of_ok (by decide) returned)
  rename_i positive active unlocked open_ funded
  have payable : Payable self env.sender payerNft merchantNft amountTbc :=
    { owner := by simpa [Decidable.not_not.mp sends] using owned
      registered := ⟨merchantState,registered,by simpa using open_⟩
      positive := by omega
      active := by simpa using active
      unlocked := by simpa using unlocked
      funded := by omega }
  simp only [bind_ok,pure_ok,Prod.mk.injEq] at returned
  obtain ⟨_,debited,_,credited,rfl,rfl,rfl⟩ := returned
  obtain rfl := debitBalance_ok debited
  obtain rfl := creditBalance_ok credited
  exact .inr ⟨rfl,payable,rfl,rfl⟩

/-- What an accepted message does, by kind; administrative messages never touch a map of
accounts. -/
inductive Effect (hash : Cell → Int) (env : Context) (self : State) :
    Message → State → List (Action Body) → Prop where
  | rejected (failure : errorCode ≠ errorNone) :
      Effect hash env self (.merchantPaymentRequest payerNft merchantNft amountTbc payload) self
        [response env errorCode]
  | paid (payable : Payable self env.sender payerNft merchantNft amountTbc) :
      Effect hash env self (.merchantPaymentRequest payerNft merchantNft amountTbc payload)
        (self.pay payerNft merchantNft amountTbc)
        [.emit (.merchantPayment payerNft merchantNft amountTbc (payloadHash hash payload)
          env.now),response env errorNone]
  | resolved (authorized : env.sender = self.nftResolver) :
      Effect hash env self (.resolveNFTOwner nftAddress owner) (self.register nftAddress owner)
        [.emit (.merchantNFTOwnerRegistered nftAddress owner
          ((self.register nftAddress owner).getAccountState nftAddress) env.now)]
  | deposited (authorized : env.sender = self.tbcSettlement) (positive : 0 < amountTbc)
      (registered : self.accountStates.get nftAddress ≠ none)
      (fresh : self.processedDeposits.get depositId = none) :
      Effect hash env self (.tbcDeposit depositId nftAddress amountTbc)
        (self.deposit depositId nftAddress amountTbc)
        [.emit (.merchantTBCDeposited depositId nftAddress amountTbc env.now)]
  | locked (authorized : env.sender = self.accountLocksContract) :
      Effect hash env self (.applyAccountLock nftAddress lockState)
        {self with accountLocks := self.accountLocks.set nftAddress lockState}
        [.emit (.merchantAccountLockApplied nftAddress lockState.fraudLocked
          lockState.collateralLocked env.now)]
  | whitelistProposed (authorized : env.sender = self.admin)
      (fits : 0 ≤ env.now + merchantWhitelistTimelockDelay ∧
        env.now + merchantWhitelistTimelockDelay < 2^32) :
      Effect hash env self (.proposeWhitelistCollection collectionAddress)
        {self with
          pendingWhitelistCollection := some collectionAddress
          pendingWhitelistExecutableAt := env.now + merchantWhitelistTimelockDelay}
        [.emit (.merchantCollectionWhitelistProposed collectionAddress
          (env.now + merchantWhitelistTimelockDelay) env.now)]
  | whitelistExecuted (authorized : env.sender = self.admin)
      (pending : self.pendingWhitelistCollection = some collection)
      (elapsed : env.now ≥ self.pendingWhitelistExecutableAt) :
      Effect hash env self .executeWhitelistCollection
        {self with
          whitelistedCollections := self.whitelistedCollections.set collection true
          pendingWhitelistCollection := none
          pendingWhitelistExecutableAt := 0}
        [.emit (.merchantCollectionWhitelistExecuted collection env.now)]
  | whitelistCancelled (authorized : env.sender = self.admin)
      (pending : self.pendingWhitelistCollection = some cancelled) :
      Effect hash env self .cancelWhitelistCollection
        {self with
          pendingWhitelistCollection := none
          pendingWhitelistExecutableAt := 0}
        [.emit (.merchantCollectionWhitelistCancelled cancelled env.now)]
  | adminProposed (authorized : env.sender = self.admin)
      (fits : 0 ≤ env.now + merchantAdminTransferDelay ∧
        env.now + merchantAdminTransferDelay < 2^32) :
      Effect hash env self (.merchantProposeAdminTransfer newAdmin)
        {self with
          pendingAdmin := some newAdmin
          pendingAdminExecutableAt := env.now + merchantAdminTransferDelay}
        [.emit (.merchantAdminTransferProposed self.admin newAdmin
          (env.now + merchantAdminTransferDelay) env.now)]
  | adminExecuted (pending : self.pendingAdmin = some env.sender)
      (elapsed : env.now ≥ self.pendingAdminExecutableAt) :
      Effect hash env self .merchantExecuteAdminTransfer
        {self with
          admin := env.sender
          pendingAdmin := none
          pendingAdminExecutableAt := 0}
        [.emit (.merchantAdminTransferExecuted self.admin env.sender env.now)]
  | adminCancelled (authorized : env.sender = self.admin)
      (pending : self.pendingAdmin = some cancelled) :
      Effect hash env self .merchantCancelAdminTransfer
        {self with
          pendingAdmin := none
          pendingAdminExecutableAt := 0}
        [.emit (.merchantAdminTransferCancelled self.admin cancelled env.now)]

/-- The one inversion of the receivers: later results split on the effect alone. -/
theorem receive_effect {hash : Cell → Int} {env : Context} {self next : State}
    (accepted : receive hash env msg self = .ok (next,actions)) :
    Effect hash env self msg next actions := by
  cases msg with
  | merchantPaymentRequest payerNft merchantNft amountTbc payload =>
    simp only [receive,bind_ok,pure_ok,Prod.mk.injEq,Prod.exists] at accepted
    obtain ⟨errorCode,_,events,returned,rfl,rfl⟩ := accepted
    rcases validateAndExecutePayment_ok returned with ⟨failure,rfl,rfl⟩ | ⟨rfl,payable,rfl,rfl⟩
    · exact .rejected failure
    · exact .paid payable
  | resolveNFTOwner nftAddress owner =>
    simp only [receive,receiveResolveNFTOwner,require_bind_ok,pure_ok,Prod.mk.injEq] at accepted
    obtain ⟨authorized,rfl,rfl⟩ := accepted
    have same : (if self.accountStates.get nftAddress = none then
        {self with
          nftOwners := self.nftOwners.set nftAddress owner
          accountStates := self.accountStates.set nftAddress accountStateActive}
        else {self with nftOwners := self.nftOwners.set nftAddress owner}) =
        self.register nftAddress owner := by
      unfold State.register
      split <;> rfl
    rw [same]
    exact .resolved authorized
  | tbcDeposit depositId nftAddress amountTbc =>
    simp only [receive,receiveTBCDeposit,require_bind_ok] at accepted
    obtain ⟨authorized,positive,registered,fresh,accepted⟩ := accepted
    simp only [bind_ok,pure_ok,Prod.mk.injEq] at accepted
    obtain ⟨_,credited,rfl,rfl⟩ := accepted
    obtain rfl := creditBalance_ok credited
    exact .deposited authorized positive registered fresh
  | applyAccountLock nftAddress lockState =>
    simp only [receive,receiveApplyAccountLock,require_bind_ok,pure_ok,Prod.mk.injEq] at accepted
    obtain ⟨authorized,rfl,rfl⟩ := accepted
    exact .locked authorized
  | proposeWhitelistCollection collectionAddress =>
    simp only [receive,receiveProposeWhitelistCollection,require_bind_ok] at accepted
    obtain ⟨authorized,accepted⟩ := accepted
    simp only [bind_ok,fitUint_ok,pure_ok,Prod.mk.injEq] at accepted
    obtain ⟨_,⟨rfl,fits⟩,rfl,rfl⟩ := accepted
    exact .whitelistProposed authorized fits
  | executeWhitelistCollection =>
    simp only [receive,receiveExecuteWhitelistCollection,require_bind_ok] at accepted
    obtain ⟨authorized,accepted⟩ := accepted
    split at accepted
    · contradiction
    · rename_i collection pending
      simp only [require_bind_ok,pure_ok,Prod.mk.injEq] at accepted
      obtain ⟨elapsed,rfl,rfl⟩ := accepted
      exact .whitelistExecuted authorized pending elapsed
  | cancelWhitelistCollection =>
    simp only [receive,receiveCancelWhitelistCollection,require_bind_ok] at accepted
    obtain ⟨authorized,accepted⟩ := accepted
    split at accepted
    · contradiction
    · rename_i cancelled pending
      simp only [pure_ok,Prod.mk.injEq] at accepted
      obtain ⟨rfl,rfl⟩ := accepted
      exact .whitelistCancelled authorized pending
  | merchantProposeAdminTransfer newAdmin =>
    simp only [receive,receiveMerchantProposeAdminTransfer,require_bind_ok] at accepted
    obtain ⟨authorized,accepted⟩ := accepted
    simp only [bind_ok,fitUint_ok,pure_ok,Prod.mk.injEq] at accepted
    obtain ⟨_,⟨rfl,fits⟩,rfl,rfl⟩ := accepted
    exact .adminProposed authorized fits
  | merchantExecuteAdminTransfer =>
    simp only [receive,receiveMerchantExecuteAdminTransfer] at accepted
    split at accepted
    · contradiction
    · rename_i newAdmin pending
      simp only [require_bind_ok,pure_ok,Prod.mk.injEq] at accepted
      obtain ⟨rfl,elapsed,rfl,rfl⟩ := accepted
      exact .adminExecuted pending elapsed
  | merchantCancelAdminTransfer =>
    simp only [receive,receiveMerchantCancelAdminTransfer,require_bind_ok] at accepted
    obtain ⟨authorized,accepted⟩ := accepted
    split at accepted
    · contradiction
    · rename_i cancelled pending
      simp only [pure_ok,Prod.mk.injEq] at accepted
      obtain ⟨rfl,rfl⟩ := accepted
      exact .adminCancelled authorized pending

abbrev Entry := Journal.Entry State (Delivery Message) (List (Action Body))

/-- A run of deliveries, newest first, and the journal of the accepted ones. -/
def run (hash : Cell → Int) (initial : State) (deliveries : List (Delivery Message)) : State :=
  Journal.run (deliver (receive hash)) initial deliveries

def journal (hash : Cell → Int) (initial : State) (deliveries : List (Delivery Message)) :
    List Entry := Journal.journal (deliver (receive hash)) initial deliveries

theorem entry_effect {hash : Cell → Int} {deliveries : List (Delivery Message)}
    (member : entry ∈ journal hash initial deliveries) :
    Effect hash entry.input.context entry.before entry.input.message entry.after entry.output :=
  receive_effect (entry_received member)

end Tonbankcard.MerchantPaymentHub
