import Tonbankcard.TonContract

/-! The VerifiedNFTAccountResolver contract: items registered by their collections, one owner
query at a time for each of them, and what an accepted message of each kind does. -/
namespace Tonbankcard.VerifiedNFTAccountResolver

open Ton

/-- The five receivers; a bounced query reaches the contract with the item as its sender. -/
inductive Message where
  | registerAccountItem (nftAddress : Address)
  | refreshAccountOwner (nftAddress target : Address)
  | accountNFTData (queryId : Int) (collection owner : Address)
  | bouncedQueryAccountNFTData (queryId : Int)
  | cleanupOwnerQuery (nftAddress : Address)

inductive Body where
  | queryAccountNFTData (queryId : Int)
  | resolveNFTOwner (nftAddress owner : Address)
  deriving DecidableEq, Repr

structure PendingOwnerQuery where
  queryId : Int
  target : Address
  expiresAt : Int
  deriving DecidableEq, Repr

def PendingOwnerQuery.fields (request : PendingOwnerQuery) : List (Nat × Int) :=
  [(64,request.queryId),(32,request.expiresAt)]

structure State where
  collection7777 : Address
  collection8888 : Address
  items : FiniteMap Address Address
  pending : FiniteMap Address PendingOwnerQuery
  nextQuery : Int
  pendingCount : Int

def init (collection7777 collection8888 : Address) : State :=
  { collection7777
    collection8888
    items := ∅
    pending := ∅
    nextQuery := 0
    pendingCount := 0 }

/-- The integer fields, written back in their widths at the end of a receiver. -/
def State.fields (self : State) : List (Nat × Int) := [(64,self.nextQuery),(16,self.pendingCount)]

def save (self : State) (actions : List (Action Body)) : Result (State × List (Action Body)) := do
  fitUints self.fields
  pure (self,actions)

def ownerQuery (nftAddress : Address) (query : Int) : Action Body :=
  .send {
    destination := nftAddress
    value := 0
    mode := sendRemainingValue
    bounce := true
    body := .queryAccountNFTData query }

def ownerResolution (target nftAddress owner : Address) : Action Body :=
  .send {
    destination := target
    value := 0
    mode := sendRemainingValue
    bounce := true
    body := .resolveNFTOwner nftAddress owner }

def State.close (self : State) (nftAddress : Address) : State :=
  {self with
    pending := self.pending.del nftAddress
    pendingCount := self.pendingCount - 1}

def receiveRegisterAccountItem (env : Context) (nftAddress : Address) (self : State) :
    Result (State × List (Action Body)) := do
  require (env.sender = self.collection7777 ∨ env.sender = self.collection8888)
    "Only whitelisted collection"
  require (self.items.get nftAddress = none) "Item already registered"
  save {self with items := self.items.set nftAddress env.sender} []

/-- A query that has expired is replaced in its place, which the count already includes. -/
def receiveRefreshAccountOwner (env : Context) (nftAddress target : Address) (self : State) :
    Result (State × List (Action Body)) := do
  require (self.items.get nftAddress ≠ none) "Unknown account NFT"
  let pendingCount ← match self.pending.get nftAddress with
    | some previous => do
      require (previous.expiresAt ≤ env.now) "Owner query already pending"
      pure self.pendingCount
    | none => do
      require (self.pendingCount < 64) "Owner query capacity reached"
      pure (self.pendingCount + 1)
  let query := self.nextQuery
  let request : PendingOwnerQuery := ⟨query,target,env.now + 300⟩
  fitUints request.fields
  save {self with
      pendingCount
      nextQuery := query + 1
      pending := self.pending.set nftAddress request}
    [ownerQuery nftAddress query]

def receiveAccountNFTData (env : Context) (queryId : Int) (collection owner : Address)
    (self : State) : Result (State × List (Action Body)) :=
  match self.pending.get env.sender with
  | none => .error (.require "Unsolicited owner callback")
  | some request => do
    require (queryId = request.queryId) "Stale owner callback"
    require (env.now < request.expiresAt) "Owner callback expired"
    require (self.items.get env.sender = some collection) "Collection mismatch"
    save (self.close env.sender) [ownerResolution request.target env.sender owner]

def bouncedQueryAccountNFTData (env : Context) (queryId : Int) (self : State) :
    Result (State × List (Action Body)) :=
  match self.pending.get env.sender with
  | some request =>
    if request.queryId = queryId then save (self.close env.sender) [] else save self []
  | none => save self []

def receiveCleanupOwnerQuery (env : Context) (nftAddress : Address) (self : State) :
    Result (State × List (Action Body)) :=
  match self.pending.get nftAddress with
  | some request => do
    require (request.expiresAt ≤ env.now) "Query not expired"
    save (self.close nftAddress) []
  | none => save self []

def receive : Receiver State Message Body := fun env msg self =>
  match msg with
  | .registerAccountItem nftAddress => receiveRegisterAccountItem env nftAddress self
  | .refreshAccountOwner nftAddress target =>
    receiveRefreshAccountOwner env nftAddress target self
  | .accountNFTData queryId collection owner =>
    receiveAccountNFTData env queryId collection owner self
  | .bouncedQueryAccountNFTData queryId => bouncedQueryAccountNFTData env queryId self
  | .cleanupOwnerQuery nftAddress => receiveCleanupOwnerQuery env nftAddress self

def State.refresh (self : State) (nftAddress target : Address) (now : Nat) : State :=
  {self with
    pendingCount := self.pendingCount + if self.pending.get nftAddress = none then 1 else 0
    nextQuery := self.nextQuery + 1
    pending := self.pending.set nftAddress ⟨self.nextQuery,target,now + 300⟩}

/-- What an accepted message finds, leaves and sends. -/
inductive Effect (env : Context) (self : State) :
    Message → State → List (Action Body) → Prop where
  | registered (collection : env.sender = self.collection7777 ∨ env.sender = self.collection8888)
      (fresh : self.items.get nftAddress = none) :
      Effect env self (.registerAccountItem nftAddress)
        {self with items := self.items.set nftAddress env.sender} []
  | refreshed (known : self.items.get nftAddress ≠ none)
      (elapsed : ∀ previous, self.pending.get nftAddress = some previous →
        previous.expiresAt ≤ env.now)
      (room : self.pending.get nftAddress = none → self.pendingCount < 64) :
      Effect env self (.refreshAccountOwner nftAddress target)
        (self.refresh nftAddress target env.now) [ownerQuery nftAddress self.nextQuery]
  | answered (waiting : self.pending.get env.sender = some request)
      (unexpired : env.now < request.expiresAt)
      (registrar : self.items.get env.sender = some collection) :
      Effect env self (.accountNFTData request.queryId collection owner)
        (self.close env.sender) [ownerResolution request.target env.sender owner]
  | bounced (waiting : self.pending.get env.sender = some request) :
      Effect env self (.bouncedQueryAccountNFTData request.queryId) (self.close env.sender) []
  | cleaned (waiting : self.pending.get nftAddress = some request)
      (elapsed : request.expiresAt ≤ env.now) :
      Effect env self (.cleanupOwnerQuery nftAddress) (self.close nftAddress) []
  | unmatched (other : ∀ request, self.pending.get env.sender = some request →
        request.queryId ≠ queryId) :
      Effect env self (.bouncedQueryAccountNFTData queryId) self []
  | nothingPending (none : self.pending.get nftAddress = none) :
      Effect env self (.cleanupOwnerQuery nftAddress) self []

theorem save_ok {self next : State} : save self actions = .ok (next,sent) →
    next = self ∧ sent = actions := by
  intro saved
  simp only [save,bind_ok,pure_ok,Prod.mk.injEq] at saved
  obtain ⟨-,-,rfl,rfl⟩ := saved
  exact ⟨rfl,rfl⟩

theorem receiveRefreshAccountOwner_effect {self next : State}
    (received : receiveRefreshAccountOwner env nftAddress target self = .ok (next,actions)) :
    Effect env self (.refreshAccountOwner nftAddress target) next actions := by
  simp only [receiveRefreshAccountOwner,require_bind_ok] at received
  obtain ⟨known,received⟩ := received
  cases found : self.pending.get nftAddress with
  | some previous =>
    simp only [found,require_bind_ok] at received
    obtain ⟨elapsed,received⟩ := received
    simp only [bind_ok,pure_ok] at received
    obtain ⟨_,rfl,-,-,saved⟩ := received
    obtain ⟨rfl,rfl⟩ := save_ok saved
    have refreshed : Effect env self (.refreshAccountOwner nftAddress target) _ _ :=
      .refreshed known (fun other same => Option.some.inj (found.symm.trans same) ▸ elapsed)
        (fun absent => by simp [absent] at found)
    simpa [State.refresh,found] using refreshed
  | none =>
    simp only [found,require_bind_ok] at received
    obtain ⟨room,received⟩ := received
    simp only [bind_ok,pure_ok] at received
    obtain ⟨_,rfl,-,-,saved⟩ := received
    obtain ⟨rfl,rfl⟩ := save_ok saved
    have refreshed : Effect env self (.refreshAccountOwner nftAddress target) _ _ :=
      .refreshed known (fun other same => by simp [found] at same) (fun _ => room)
    simpa [State.refresh,found] using refreshed

/-- The spec of the dispatcher: an accepted message has the effect of its kind. -/
theorem receive_effect {self next : State}
    (received : receive env msg self = .ok (next,actions)) :
    Effect env self msg next actions := by
  cases msg with
  | registerAccountItem nftAddress =>
    simp only [receive,receiveRegisterAccountItem,require_bind_ok] at received
    obtain ⟨collection,fresh,saved⟩ := received
    obtain ⟨rfl,rfl⟩ := save_ok saved
    exact .registered collection fresh
  | refreshAccountOwner nftAddress target => exact receiveRefreshAccountOwner_effect received
  | accountNFTData queryId collection owner =>
    simp only [receive,receiveAccountNFTData] at received
    cases waiting : self.pending.get env.sender with
    | none => simp [waiting] at received
    | some request =>
      simp only [waiting,require_bind_ok] at received
      obtain ⟨rfl,unexpired,registrar,saved⟩ := received
      obtain ⟨rfl,rfl⟩ := save_ok saved
      exact .answered waiting unexpired registrar
  | bouncedQueryAccountNFTData queryId =>
    simp only [receive,bouncedQueryAccountNFTData] at received
    cases waiting : self.pending.get env.sender with
    | none =>
      simp only [waiting] at received
      obtain ⟨rfl,rfl⟩ := save_ok received
      exact .unmatched (fun request same => by simp [waiting] at same)
    | some request =>
      simp only [waiting] at received
      rcases ite_eq_iff.mp received with ⟨rfl,saved⟩ | ⟨other,saved⟩
      · obtain ⟨rfl,rfl⟩ := save_ok saved
        exact .bounced waiting
      · obtain ⟨rfl,rfl⟩ := save_ok saved
        exact .unmatched (fun found same => Option.some.inj (waiting.symm.trans same) ▸ other)
  | cleanupOwnerQuery nftAddress =>
    simp only [receive,receiveCleanupOwnerQuery] at received
    cases waiting : self.pending.get nftAddress with
    | none =>
      simp only [waiting] at received
      obtain ⟨rfl,rfl⟩ := save_ok received
      exact .nothingPending waiting
    | some request =>
      simp only [waiting,require_bind_ok] at received
      obtain ⟨elapsed,saved⟩ := received
      obtain ⟨rfl,rfl⟩ := save_ok saved
      exact .cleaned waiting elapsed

end Tonbankcard.VerifiedNFTAccountResolver
