import Tonbankcard.TonContract

/-! The SnapshotVerifier contract: eligibility rolls that the trusted indexer registers once for
each proposal, kept in one map under a key made of the proposal and the NFT id. -/
namespace Tonbankcard.SnapshotVerifier

open Ton

def diamondsTotalSupply : Int := 222

structure Snapshot where
  proposalId : BitVec 64
  timestamp : BitVec 64
  eligibleCount : Int
  deriving DecidableEq, Repr

inductive Message where
  | setTrustedIndexer (indexer : Address)
  | setProposalRegistry (registry : Address)
  | registerSnapshot (proposalId timestamp : BitVec 64) (eligibleNfts : FiniteMap Int Bool)
  | eligibilityCheckRequest (queryId proposalId nftId : BitVec 64)

inductive Body where
  | eligibilityCheckResponse (queryId proposalId nftId : BitVec 64) (eligible : Bool)
  | snapshotRegistered (proposalId timestamp : BitVec 64) (eligibleCount : Int)
  | trustedIndexerUpdated (indexer : Address) (timestamp : Nat)
  deriving DecidableEq, Repr

structure State where
  deployer : Address
  trustedIndexer : Option Address
  proposalRegistry : Option Address
  snapshots : FiniteMap Int Snapshot
  eligibility : FiniteMap Int Bool

def init (deployer : Address) : State := ⟨deployer,none,none,∅,∅⟩

def eligibilityKey (proposalId nftId : Int) : Int := proposalId * 1000 + nftId

/-- The loop over the ids from `nftId` on. Keys and counts stay far below 257 bits. -/
def storeEligible (proposalId : Int) (eligibleNfts : FiniteMap Int Bool) (nftId : Int)
    (eligibility : FiniteMap Int Bool) (count : Int) : FiniteMap Int Bool × Int :=
  if nftId ≤ diamondsTotalSupply then
    if eligibleNfts.get nftId = some true then
      storeEligible proposalId eligibleNfts (nftId + 1)
        (eligibility.set (eligibilityKey proposalId nftId) true) (count + 1)
    else storeEligible proposalId eligibleNfts (nftId + 1) eligibility count
  else (eligibility,count)
termination_by (diamondsTotalSupply + 1 - nftId).toNat

namespace State
variable (self : State)

def isEligible (proposalId nftId : Int) : Bool :=
  if proposalId ≤ 0 ∨ nftId ≤ 0 ∨ diamondsTotalSupply < nftId then false
  else
    match self.snapshots.get proposalId with
    | none => false
    | some _ => (self.eligibility.get (eligibilityKey proposalId nftId)).getD false

def getEligibleCount (proposalId : Int) : Int :=
  ((self.snapshots.get proposalId).map Snapshot.eligibleCount).getD 0

def register (proposalId timestamp : BitVec 64) (eligibleNfts : FiniteMap Int Bool) : State :=
  let (eligibility,count) := storeEligible proposalId.toNat eligibleNfts 1 self.eligibility 0
  {self with
    eligibility
    snapshots := self.snapshots.set proposalId.toNat ⟨proposalId,timestamp,count⟩ }

def requireTrustedIndexer (sender : Address) : Result Unit :=
  match self.trustedIndexer with
  | none => .error (.require "Unauthorized: trusted indexer not configured")
  | some indexer => require (sender = indexer) "Unauthorized: only trusted indexer"

end State

section Receivers
variable (env : Context)

def receiveSetTrustedIndexer (indexer : Address) (self : State) :
    Result (State × List (Action Body)) := do
  require (env.sender = self.deployer) "Only deployer can set trusted indexer"
  pure ({self with trustedIndexer := some indexer},
    [.emit (.trustedIndexerUpdated indexer env.now)])

def receiveSetProposalRegistry (registry : Address) (self : State) :
    Result (State × List (Action Body)) := do
  require (env.sender = self.deployer) "Only deployer can set registry"
  require (self.proposalRegistry = none) "Registry already set"
  pure ({self with proposalRegistry := some registry},[])

def receiveRegisterSnapshot (proposalId timestamp : BitVec 64)
    (eligibleNfts : FiniteMap Int Bool) (self : State) :
    Result (State × List (Action Body)) := do
  self.requireTrustedIndexer env.sender
  require (0 < proposalId.toNat) "Invalid proposal ID"
  require (self.snapshots.get proposalId.toNat = none) "Snapshot already exists"
  let next := self.register proposalId timestamp eligibleNfts
  pure (next,
    [.emit (.snapshotRegistered proposalId timestamp (next.getEligibleCount proposalId.toNat))])

def receiveEligibilityCheckRequest (queryId proposalId nftId : BitVec 64) (self : State) :
    Result (State × List (Action Body)) :=
  pure (self,
    [.send {
      destination := env.sender
      value := 0
      mode := sendRemainingValue
      bounce := false
      body := .eligibilityCheckResponse queryId proposalId nftId
        (self.isEligible proposalId.toNat nftId.toNat) }])

end Receivers

def receive : Receiver State Message Body := fun env msg self =>
  match msg with
  | .setTrustedIndexer indexer => receiveSetTrustedIndexer env indexer self
  | .setProposalRegistry registry => receiveSetProposalRegistry env registry self
  | .registerSnapshot proposalId timestamp eligibleNfts =>
    receiveRegisterSnapshot env proposalId timestamp eligibleNfts self
  | .eligibilityCheckRequest queryId proposalId nftId =>
    receiveEligibilityCheckRequest env queryId proposalId nftId self

/-- What an accepted message does to the storage. -/
inductive Effect (env : Context) (self : State) : Message → State → Prop where
  | indexerSet (deployer : env.sender = self.deployer) :
      Effect env self (.setTrustedIndexer indexer) {self with trustedIndexer := some indexer}
  | registrySet (deployer : env.sender = self.deployer) (unset : self.proposalRegistry = none) :
      Effect env self (.setProposalRegistry registry) {self with proposalRegistry := some registry}
  | registered (indexer : self.trustedIndexer = some env.sender) (positive : 0 < proposalId.toNat)
      (fresh : self.snapshots.get proposalId.toNat = none) :
      Effect env self (.registerSnapshot proposalId timestamp eligibleNfts)
        (self.register proposalId timestamp eligibleNfts)
  | answered : Effect env self (.eligibilityCheckRequest queryId proposalId nftId) self

theorem requireTrustedIndexer_bind_ok {self : State} {sender : Address}
    {rest : Unit → Result α} :
    (self.requireTrustedIndexer sender >>= rest) = .ok value ↔
      self.trustedIndexer = some sender ∧ rest () = .ok value := by
  unfold State.requireTrustedIndexer
  cases self.trustedIndexer with
  | none => exact ⟨nofun,nofun⟩
  | some indexer =>
    rw [require_bind_ok,Option.some_inj]
    exact and_congr_left' eq_comm

/-- The one inversion of the receivers. -/
theorem receive_effect {self next : State}
    (accepted : receive env msg self = .ok (next,actions)) : Effect env self msg next := by
  cases msg with
  | setTrustedIndexer indexer =>
    obtain ⟨deployer,accepted⟩ := require_bind_ok.mp accepted
    obtain ⟨rfl,-⟩ := Prod.mk.inj (pure_ok.mp accepted)
    exact .indexerSet deployer
  | setProposalRegistry registry =>
    obtain ⟨deployer,accepted⟩ := require_bind_ok.mp accepted
    obtain ⟨unset,accepted⟩ := require_bind_ok.mp accepted
    obtain ⟨rfl,-⟩ := Prod.mk.inj (pure_ok.mp accepted)
    exact .registrySet deployer unset
  | registerSnapshot proposalId timestamp eligibleNfts =>
    obtain ⟨indexer,accepted⟩ := requireTrustedIndexer_bind_ok.mp accepted
    obtain ⟨positive,accepted⟩ := require_bind_ok.mp accepted
    obtain ⟨fresh,accepted⟩ := require_bind_ok.mp accepted
    obtain ⟨rfl,-⟩ := Prod.mk.inj (pure_ok.mp accepted)
    exact .registered indexer positive fresh
  | eligibilityCheckRequest queryId proposalId nftId =>
    obtain ⟨rfl,-⟩ := Prod.mk.inj (pure_ok.mp accepted)
    exact .answered

section Keys

def IsDiamond (nftId : Int) : Prop := 1 ≤ nftId ∧ nftId ≤ diamondsTotalSupply

/-- Ids of three digits at most keep the keys of different proposals apart. -/
theorem eligibilityKey_injective (first : IsDiamond nftId) (second : IsDiamond nftId')
    (same : eligibilityKey proposalId nftId = eligibilityKey proposalId' nftId') :
    proposalId = proposalId' ∧ nftId = nftId' := by
  obtain ⟨low,high⟩ := first
  obtain ⟨low',high'⟩ := second
  simp only [eligibilityKey,diamondsTotalSupply] at *
  omega

end Keys

section Loop

def eligibleIds (eligibleNfts : FiniteMap Int Bool) (nftId : Int) : Finset Int :=
  ((Finset.range (diamondsTotalSupply + 1 - nftId).toNat).image (fun k : Nat => nftId + k)).filter
    (fun n => eligibleNfts.get n = some true)

theorem mem_eligibleIds (eligibleNfts : FiniteMap Int Bool) (nftId n : Int) :
    n ∈ eligibleIds eligibleNfts nftId ↔
      (nftId ≤ n ∧ n ≤ diamondsTotalSupply) ∧ eligibleNfts.get n = some true := by
  rw [eligibleIds,Finset.mem_filter,Finset.mem_image]
  refine and_congr_left' ⟨?_,?_⟩
  · rintro ⟨k,listed,rfl⟩
    rw [Finset.mem_range] at listed
    omega
  · intro range
    refine ⟨(n - nftId).toNat,Finset.mem_range.mpr ?_,?_⟩ <;> omega

theorem eligibleIds_stored (eligibleNfts : FiniteMap Int Bool) (low : nftId ≤ diamondsTotalSupply)
    (stored : eligibleNfts.get nftId = some true) :
    eligibleIds eligibleNfts nftId = insert nftId (eligibleIds eligibleNfts (nftId + 1)) := by
  ext n
  simp only [Finset.mem_insert,mem_eligibleIds]
  by_cases same : n = nftId
  · subst same
    simp [low,stored]
  · have later : nftId ≤ n ↔ nftId + 1 ≤ n := by omega
    simp [same,later]

theorem eligibleIds_skipped (eligibleNfts : FiniteMap Int Bool)
    (skipped : eligibleNfts.get nftId ≠ some true) :
    eligibleIds eligibleNfts nftId = eligibleIds eligibleNfts (nftId + 1) := by
  ext n
  simp only [mem_eligibleIds]
  by_cases same : n = nftId
  · subst same
    simp [skipped]
  · have later : nftId ≤ n ↔ nftId + 1 ≤ n := by omega
    rw [later]

/-- The loop marks the keys of the eligible ids and no others, and counts those ids. -/
theorem storeEligible_spec (proposalId : Int) (eligibleNfts : FiniteMap Int Bool) (nftId : Int)
    (eligibility : FiniteMap Int Bool) (count : Int) :
    (∀ key, (storeEligible proposalId eligibleNfts nftId eligibility count).1.get key = some true ↔
      (∃ n ∈ eligibleIds eligibleNfts nftId, key = eligibilityKey proposalId n) ∨
        eligibility.get key = some true) ∧
    (storeEligible proposalId eligibleNfts nftId eligibility count).2 =
      count + (eligibleIds eligibleNfts nftId).card := by
  induction nftId, eligibility, count using
    storeEligible.induct proposalId eligibleNfts with
  | case1 nftId eligibility count low stored ih =>
    obtain ⟨keys,counted⟩ := ih
    have fresh : nftId ∉ eligibleIds eligibleNfts (nftId + 1) := by
      rw [mem_eligibleIds]
      omega
    rw [storeEligible,if_pos low,if_pos stored,eligibleIds_stored eligibleNfts low stored]
    constructor
    · intro key
      rw [keys,FiniteMap.get_set,Finset.exists_mem_insert]
      split
      next same => simp [same]
      next apart => simp [apart]
    · rw [counted,Finset.card_insert_of_notMem fresh,Nat.cast_add,Nat.cast_one]
      omega
  | case2 nftId eligibility count low skipped ih =>
    rw [storeEligible,if_pos low,if_neg skipped,eligibleIds_skipped eligibleNfts skipped]
    exact ih
  | case3 nftId eligibility count high =>
    have empty : eligibleIds eligibleNfts nftId = ∅ := by
      refine Finset.eq_empty_of_forall_notMem fun n listed => ?_
      obtain ⟨range,-⟩ := (mem_eligibleIds eligibleNfts nftId n).mp listed
      omega
    rw [storeEligible,if_neg high,empty]
    simp

end Loop

abbrev Entry := Journal.Entry State (Delivery Message) (List (Action Body))

/-- A run of deliveries, newest first, and the journal of the accepted ones. -/
def run (initial : State) (deliveries : List (Delivery Message)) : State :=
  Journal.run (deliver receive) initial deliveries

def journal (initial : State) (deliveries : List (Delivery Message)) : List Entry :=
  Journal.journal (deliver receive) initial deliveries

end Tonbankcard.SnapshotVerifier
