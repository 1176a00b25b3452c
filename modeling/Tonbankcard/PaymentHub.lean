import Tonbankcard.AccountTypes
import Tonbankcard.TonContract

/-! The PaymentHub contract: internal transfers between NFT accounts behind a hand-managed guard,
the registration of account NFTs and the transfer of its administration. The memo of a payload
enters only through its hash. -/
namespace Tonbankcard.PaymentHub

open Ton

def adminTransferDelay : Int := 7 * 24 * 60 * 60

structure AccountState where
  balance : Int
  state : Int
  owner : Address
  deriving DecidableEq, Repr

structure TransferPayload where
  memo : String
  orderId : String
  deriving DecidableEq, Repr

inductive Message where
  | transferInternalRequest (fromNft toNft : Address) (amountTbc : Int)
      (payload : Option TransferPayload)
  | whitelistCollection (collectionAddress : Address)
  | registerAccountNFT (nftAddress collectionAddress : Address)
  | proposeAdminTransfer (newAdmin : Address)
  | executeAdminTransfer
  | cancelAdminTransfer
  | getAccountStateRequest (nftAddress : Address)
  deriving DecidableEq, Repr

inductive Body where
  | transferInternalResponse (success : Bool) (fromNft toNft : Address) (amountTbc : Int)
  | getAccountStateResponse (nftAddress : Address) (balance state : Int) (owner : Address)
  | internalTransferEvent (fromNft toNft : Address) (amountTbc payloadHash : Int)
      (timestamp : Nat)
  | adminTransferProposed (currentAdmin proposedAdmin : Address) (executableAt : Int)
      (timestamp : Nat)
  | adminTransferExecuted (oldAdmin newAdmin : Address) (timestamp : Nat)
  | adminTransferCancelled (admin cancelledProposed : Address) (timestamp : Nat)
  deriving DecidableEq, Repr

structure State where
  admin : Address
  pendingAdmin : Option Address
  pendingAdminExecutableAt : Int
  locked : Bool
  accounts : FiniteMap Address AccountState
  whitelistedCollections : FiniteMap Address Bool
  nftCollections : FiniteMap Address Address

def init (deployerAddress : Address) : State where
  admin := deployerAddress
  pendingAdmin := none
  pendingAdminExecutableAt := 0
  locked := false
  accounts := ∅
  whitelistedCollections := ∅
  nftCollections := ∅

namespace State
variable (self : State)

def isCollectionWhitelisted (collectionAddress : Address) : Bool :=
  (self.whitelistedCollections.get collectionAddress).isSome

def isValidAccountNFT (nftAddress : Address) : Bool :=
  if (self.accounts.get nftAddress).isSome then true
  else
    match self.nftCollections.get nftAddress with
    | none => false
    | some collection => self.isCollectionWhitelisted collection

/-- An account that is not stored is empty, active and owned by its own NFT. -/
def getAccountOrDefault (nftAddress : Address) : AccountState :=
  (self.accounts.get nftAddress).getD ⟨0,accountStateActive,nftAddress⟩

def getBalance (nftAddress : Address) : Int := (self.getAccountOrDefault nftAddress).balance

end State

section Receivers
variable (hash : String → Int) (env : Context)

def payloadHash : Option TransferPayload → Int
  | none => 0
  | some payload => hash payload.memo

def transferActions (fromNft toNft : Address) (amountTbc : Int)
    (payload : Option TransferPayload) : List (Action Body) :=
  [.emit (.internalTransferEvent fromNft toNft amountTbc (payloadHash hash payload) env.now),
    .send {
      destination := env.sender
      value := 0
      mode := sendRemainingValue
      body := .transferInternalResponse true fromNft toNft amountTbc }]

/-- The check of the guard, which is then set by hand. -/
def State.enter (self : State) : Result State := do
  require (self.locked = false) "Reentrancy detected"
  pure {self with locked := true}

/-- Both accounts are read before either is written, so a transfer to oneself has a branch of its
own. Each exit releases the guard by hand. -/
def receiveTransferInternalRequest (fromNft toNft : Address) (amountTbc : Int)
    (payload : Option TransferPayload) (self : State) : Result (State × List (Action Body)) := do
  let self ← self.enter
  require (0 < amountTbc) "Transfer amount must be positive"
  require (self.isValidAccountNFT fromNft = true) "Invalid from_nft address"
  require (self.isValidAccountNFT toNft = true) "Invalid to_nft address"
  let fromAccount := self.getAccountOrDefault fromNft
  let toAccount := self.getAccountOrDefault toNft
  require (env.sender = fromAccount.owner) "Unauthorized: sender is not NFT owner"
  require (fromAccount.state = accountStateActive) "From account is not ACTIVE"
  require (toAccount.state ≠ accountStateClosed) "Cannot send to CLOSED account"
  require (amountTbc ≤ fromAccount.balance) "Insufficient balance"
  if fromNft = toNft then
    pure ({self with locked := false},transferActions hash env fromNft toNft amountTbc payload)
  else do
    let debited ← fitUint 120 (fromAccount.balance - amountTbc)
    let credited ← fitUint 120 (toAccount.balance + amountTbc)
    let accounts := self.accounts.set fromNft {fromAccount with balance := debited}
    let accounts := accounts.set toNft {toAccount with balance := credited}
    pure ({self with accounts,locked := false},
      transferActions hash env fromNft toNft amountTbc payload)

def receiveWhitelistCollection (collectionAddress : Address) (self : State) :
    Result (State × List (Action Body)) := do
  require (env.sender = self.admin) "Unauthorized: only admin"
  pure ({self with
    whitelistedCollections := self.whitelistedCollections.set collectionAddress true},[])

def receiveRegisterAccountNFT (nftAddress collectionAddress : Address) (self : State) :
    Result (State × List (Action Body)) := do
  require (env.sender = self.admin) "Unauthorized: only admin"
  require (self.isCollectionWhitelisted collectionAddress = true) "Collection not whitelisted"
  pure ({self with nftCollections := self.nftCollections.set nftAddress collectionAddress},[])

def receiveProposeAdminTransfer (newAdmin : Address) (self : State) :
    Result (State × List (Action Body)) := do
  require (env.sender = self.admin) "Unauthorized: only admin"
  let executableAt ← fitUint 32 (env.now + adminTransferDelay)
  pure ({self with pendingAdmin := some newAdmin,pendingAdminExecutableAt := executableAt},
    [.emit (.adminTransferProposed self.admin newAdmin executableAt env.now)])

def receiveExecuteAdminTransfer (self : State) : Result (State × List (Action Body)) :=
  match self.pendingAdmin with
  | none => .error (.require "No pending admin transfer")
  | some newAdmin => do
    require (env.sender = newAdmin) "Unauthorized: only proposed admin"
    require (env.now ≥ self.pendingAdminExecutableAt) "Timelock not expired: wait 7 days"
    pure ({self with admin := newAdmin,pendingAdmin := none,pendingAdminExecutableAt := 0},
      [.emit (.adminTransferExecuted self.admin newAdmin env.now)])

def receiveCancelAdminTransfer (self : State) : Result (State × List (Action Body)) := do
  require (env.sender = self.admin) "Unauthorized: only admin"
  match self.pendingAdmin with
  | none => .error (.require "No pending admin transfer")
  | some cancelled =>
    pure ({self with pendingAdmin := none,pendingAdminExecutableAt := 0},
      [.emit (.adminTransferCancelled self.admin cancelled env.now)])

def receiveGetAccountStateRequest (nftAddress : Address) (self : State) :
    Result (State × List (Action Body)) :=
  let account := self.getAccountOrDefault nftAddress
  pure (self,
    [.send {
      destination := env.sender
      value := 0
      mode := sendRemainingValue
      body := .getAccountStateResponse nftAddress account.balance account.state account.owner }])

end Receivers

def receive (hash : String → Int) : Receiver State Message Body := fun env msg self =>
  match msg with
  | .transferInternalRequest fromNft toNft amountTbc payload =>
    receiveTransferInternalRequest hash env fromNft toNft amountTbc payload self
  | .whitelistCollection collectionAddress =>
    receiveWhitelistCollection env collectionAddress self
  | .registerAccountNFT nftAddress collectionAddress =>
    receiveRegisterAccountNFT env nftAddress collectionAddress self
  | .proposeAdminTransfer newAdmin => receiveProposeAdminTransfer env newAdmin self
  | .executeAdminTransfer => receiveExecuteAdminTransfer env self
  | .cancelAdminTransfer => receiveCancelAdminTransfer env self
  | .getAccountStateRequest nftAddress => receiveGetAccountStateRequest env nftAddress self

/-- Everything a transfer checks. -/
structure Payable (s : State) (sender fromNft toNft : Address) (amountTbc : Int) : Prop where
  unlocked : s.locked = false
  positive : 0 < amountTbc
  validFrom : s.isValidAccountNFT fromNft = true
  validTo : s.isValidAccountNFT toNft = true
  owner : sender = (s.getAccountOrDefault fromNft).owner
  active : (s.getAccountOrDefault fromNft).state = accountStateActive
  open_ : (s.getAccountOrDefault toNft).state ≠ accountStateClosed
  funded : amountTbc ≤ s.getBalance fromNft

def State.transfer (self : State) (fromNft toNft : Address) (amountTbc : Int) : State :=
  {self with
    accounts :=
      (self.accounts.set fromNft {self.getAccountOrDefault fromNft with
        balance := self.getBalance fromNft - amountTbc}).set toNft
          {self.getAccountOrDefault toNft with balance := self.getBalance toNft + amountTbc} }

/-- What an accepted message does. -/
inductive Effect (env : Context) (self : State) : Message → State → Prop where
  | toItself (payable : Payable self env.sender nft nft amountTbc) :
      Effect env self (.transferInternalRequest nft nft amountTbc payload) self
  | transferred (payable : Payable self env.sender fromNft toNft amountTbc)
      (apart : fromNft ≠ toNft) :
      Effect env self (.transferInternalRequest fromNft toNft amountTbc payload)
        (self.transfer fromNft toNft amountTbc)
  | whitelisted (authorized : env.sender = self.admin) :
      Effect env self (.whitelistCollection collectionAddress)
        {self with
          whitelistedCollections := self.whitelistedCollections.set collectionAddress true}
  | registered (authorized : env.sender = self.admin)
      (whitelisted : self.isCollectionWhitelisted collectionAddress = true) :
      Effect env self (.registerAccountNFT nftAddress collectionAddress)
        {self with nftCollections := self.nftCollections.set nftAddress collectionAddress}
  | adminProposed (authorized : env.sender = self.admin)
      (fits : 0 ≤ env.now + adminTransferDelay ∧ env.now + adminTransferDelay < 2^32) :
      Effect env self (.proposeAdminTransfer newAdmin)
        {self with
          pendingAdmin := some newAdmin
          pendingAdminExecutableAt := env.now + adminTransferDelay}
  | adminExecuted (pending : self.pendingAdmin = some env.sender)
      (elapsed : env.now ≥ self.pendingAdminExecutableAt) :
      Effect env self .executeAdminTransfer
        {self with admin := env.sender,pendingAdmin := none,pendingAdminExecutableAt := 0}
  | adminCancelled (authorized : env.sender = self.admin)
      (pending : self.pendingAdmin = some cancelled) :
      Effect env self .cancelAdminTransfer
        {self with pendingAdmin := none,pendingAdminExecutableAt := 0}
  | queried : Effect env self (.getAccountStateRequest nftAddress) self

section Inversion
variable {hash : String → Int} {env : Context} {self next : State}

theorem transfer_effect
    (accepted : receiveTransferInternalRequest hash env fromNft toNft amountTbc payload self =
      .ok (next,actions)) :
    Effect env self (.transferInternalRequest fromNft toNft amountTbc payload) next := by
  obtain ⟨_,entered,accepted⟩ := bind_ok.mp accepted
  obtain ⟨unlocked,entered⟩ := require_bind_ok.mp entered
  obtain rfl := pure_ok.mp entered
  obtain ⟨positive,accepted⟩ := require_bind_ok.mp accepted
  obtain ⟨validFrom,accepted⟩ := require_bind_ok.mp accepted
  obtain ⟨validTo,accepted⟩ := require_bind_ok.mp accepted
  obtain ⟨owner,accepted⟩ := require_bind_ok.mp accepted
  obtain ⟨active,accepted⟩ := require_bind_ok.mp accepted
  obtain ⟨open_,accepted⟩ := require_bind_ok.mp accepted
  obtain ⟨funded,accepted⟩ := require_bind_ok.mp accepted
  have payable : Payable self env.sender fromNft toNft amountTbc :=
    ⟨unlocked,positive,validFrom,validTo,owner,active,open_,funded⟩
  have released (accounts : FiniteMap Address AccountState) :
      {self with accounts,locked := false} = {self with accounts} := by rw [← unlocked]
  split at accepted
  next same =>
    subst same
    obtain ⟨rfl,-⟩ := Prod.mk.inj (pure_ok.mp accepted)
    change Effect env self _ {self with accounts := self.accounts,locked := false}
    rw [released]
    exact .toItself payable
  next apart =>
    obtain ⟨_,debited,accepted⟩ := bind_ok.mp accepted
    obtain ⟨_,credited,accepted⟩ := bind_ok.mp accepted
    obtain ⟨rfl,-,-⟩ := fitUint_ok.mp debited
    obtain ⟨rfl,-,-⟩ := fitUint_ok.mp credited
    obtain ⟨rfl,-⟩ := Prod.mk.inj (pure_ok.mp accepted)
    rw [released]
    exact .transferred payable apart

/-- The one inversion of the receivers. -/
theorem receive_effect (accepted : receive hash env msg self = .ok (next,actions)) :
    Effect env self msg next := by
  cases msg with
  | transferInternalRequest => exact transfer_effect accepted
  | whitelistCollection collectionAddress =>
    obtain ⟨authorized,accepted⟩ := require_bind_ok.mp accepted
    obtain ⟨rfl,-⟩ := Prod.mk.inj (pure_ok.mp accepted)
    exact .whitelisted authorized
  | registerAccountNFT nftAddress collectionAddress =>
    obtain ⟨authorized,accepted⟩ := require_bind_ok.mp accepted
    obtain ⟨whitelisted,accepted⟩ := require_bind_ok.mp accepted
    obtain ⟨rfl,-⟩ := Prod.mk.inj (pure_ok.mp accepted)
    exact .registered authorized whitelisted
  | proposeAdminTransfer newAdmin =>
    obtain ⟨authorized,accepted⟩ := require_bind_ok.mp accepted
    obtain ⟨_,stored,accepted⟩ := bind_ok.mp accepted
    obtain ⟨rfl,fits⟩ := fitUint_ok.mp stored
    obtain ⟨rfl,-⟩ := Prod.mk.inj (pure_ok.mp accepted)
    exact .adminProposed authorized fits
  | executeAdminTransfer =>
    simp only [receive,receiveExecuteAdminTransfer] at accepted
    split at accepted
    · contradiction
    next newAdmin pending =>
      obtain ⟨rfl,accepted⟩ := require_bind_ok.mp accepted
      obtain ⟨elapsed,accepted⟩ := require_bind_ok.mp accepted
      obtain ⟨rfl,-⟩ := Prod.mk.inj (pure_ok.mp accepted)
      exact .adminExecuted pending elapsed
  | cancelAdminTransfer =>
    obtain ⟨authorized,accepted⟩ := require_bind_ok.mp accepted
    split at accepted
    · contradiction
    next cancelled pending =>
      obtain ⟨rfl,-⟩ := Prod.mk.inj (pure_ok.mp accepted)
      exact .adminCancelled authorized pending
  | getAccountStateRequest nftAddress =>
    obtain ⟨rfl,-⟩ := Prod.mk.inj (pure_ok.mp accepted)
    exact .queried

end Inversion

abbrev Entry := Journal.Entry State (Delivery Message) (List (Action Body))

/-- A run of deliveries, newest first, and the journal of the accepted ones. -/
def run (hash : String → Int) (initial : State) (deliveries : List (Delivery Message)) : State :=
  Journal.run (deliver (receive hash)) initial deliveries

def journal (hash : String → Int) (initial : State) (deliveries : List (Delivery Message)) :
    List Entry := Journal.journal (deliver (receive hash)) initial deliveries

theorem entry_effect {hash : String → Int} {deliveries : List (Delivery Message)}
    (member : entry ∈ journal hash initial deliveries) :
    Effect entry.input.context entry.before entry.input.message entry.after :=
  receive_effect (entry_received member)

end Tonbankcard.PaymentHub
