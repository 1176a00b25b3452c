import Mathlib.Data.List.Dedup
import Mathlib.Data.List.MinMax
import Tonbankcard.TonAddress

/-! The indexer's database: block rows, the event tables that hang on them, the account
snapshots beside them and the sync cursor. Each operation is one SQLite transaction, which is
refused as a whole where a statement in it violates a constraint. -/
namespace Tonbankcard.Indexer

open Ton EcmaScript

/-- What the indexer takes from the address library. -/
structure AddressCodec where
  parse : JsString → Option Address
  text : Address → JsString
  raw : Address → JsString
  parse_empty : parse [] = none
  parse_text : ∀ address, parse (text address) = some address
  raw_injective : Function.Injective raw

/-- Addresses in user-friendly form. -/
def AddressCodec.friendly : AddressCodec where
  parse := Ton.Address.parseFriendly
  text := Ton.Address.friendly
  raw := Ton.Address.rawText
  parse_empty := rfl
  parse_text := Ton.Address.parseFriendly_friendly
  raw_injective := Ton.Address.rawText_injective

def normalizeTonAddress (codec : AddressCodec) (address : JsString) : JsString :=
  if address.isEmpty then address else ((codec.parse address).map codec.text).getD address

@[simp] theorem normalizeTonAddress_again (codec : AddressCodec) (address : JsString) :
    normalizeTonAddress codec (normalizeTonAddress codec address) =
      normalizeTonAddress codec address := by
  unfold normalizeTonAddress
  split
  · rfl
  · cases parsed : codec.parse address with
    | none => simp [parsed]
    | some parsed => simp [codec.parse_text]

section Events

inductive IndexedEvent where
  | internalTransfer (fromNft toNft : JsString) (amountTbc : Nat) (payloadHash : JsString)
  | accountStateChanged (nftAddress : JsString) (oldState newState : Nat)
  | merchantPayment (payerNft merchantNft : JsString) (amountTbc : Nat) (payloadHash : JsString)
  | nftOwnershipChange (nftAddress collectionAddress : JsString) (oldOwner : Option JsString)
      (newOwner : JsString)
  | transparencyProtocolMetrics (periodStart periodEnd activeAccounts tbcVolumeTransferred
      transferCount : Nat)
  | transparencyLockActivity (periodStart periodEnd locksSet locksCleared locksActive appealsFiled
      appealsOverturned appealsUpheld : Nat)
  | transparencyParameterChange (parameterId oldValueHash newValueHash : JsString)
      (effectiveBlock : Nat) (governanceProposalId : Option Nat)
  deriving DecidableEq

/-- An event with the transaction it comes from and its place in that transaction. -/
structure PendingEvent where
  event : IndexedEvent
  txHash : JsString
  logIndex : Nat
  deriving DecidableEq

/-- What a block's transaction writes. -/
structure IndexedBlock where
  blockNumber : Nat
  blockHash : JsString
  parentHash : JsString
  timestamp : Nat
  transactionCount : Nat
  events : List PendingEvent

end Events

section Tables

/-- A row of an event table. -/
structure Row (Content : Type) where
  blockNumber : Nat
  transactionHash : JsString
  logIndex : Nat
  timestamp : Nat
  content : Content
  deriving DecidableEq

/-- Rows in the order of their insertion. -/
abbrev Table (Content : Type) := List (Row Content)

variable {Content : Type}

/-- What `UNIQUE(transaction_hash, log_index)` compares. -/
def Row.sameKey (row other : Row Content) : Bool :=
  row.transactionHash = other.transactionHash && row.logIndex = other.logIndex

def insertOrIgnore (row : Row Content) (table : Table Content) : Table Content :=
  if table.any row.sameKey then table else table ++ [row]

/-- Whether an upsert of `excluded` may overwrite a row. -/
def Row.replaces (excluded stored : Row Content) : Bool :=
  stored.blockNumber < excluded.blockNumber ||
    (excluded.blockNumber = stored.blockNumber && stored.logIndex ≤ excluded.logIndex)

/-- The UPSERT on a period. A row that it would give the key of another row is refused. -/
def upsert (period : Content → Nat × Nat) (row : Row Content) (table : Table Content) :
    Option (Table Content) :=
  match table.find? (fun stored => period stored.content = period row.content) with
  | none => if table.any row.sameKey then none else some (table ++ [row])
  | some stored =>
    if !row.replaces stored then some table
    else if table.any (fun other =>
        period other.content ≠ period row.content && row.sameKey other) then none
    else some (table.map fun other =>
      if period other.content = period row.content then row else other)

/-- The order that the rebuild sorts by. -/
def Row.AtMost (row other : Row Content) : Prop :=
  row.blockNumber < other.blockNumber ∨
    row.blockNumber = other.blockNumber ∧ row.logIndex ≤ other.logIndex

instance (row other : Row Content) : Decidable (row.AtMost other) :=
  inferInstanceAs (Decidable (_ ∨ _))

/-- The greatest rows of a table in that order. -/
def Latest (table : Table Content) (row : Row Content) : Prop :=
  row ∈ table ∧ ∀ other ∈ table, other.AtMost row

/-- `ORDER BY block_number DESC, log_index DESC LIMIT 1`, which may return any row that is
greatest. -/
structure LatestQuery (Content : Type) where
  pick : Table Content → Option (Row Content)
  latest : ∀ table row, pick table = some row → Latest table row
  found : ∀ table, pick table = none → table = []

theorem Row.AtMost.refl (row : Row Content) : row.AtMost row := .inr ⟨rfl,le_rfl⟩

theorem Row.AtMost.trans {row middle other : Row Content} (first : row.AtMost middle)
    (second : middle.AtMost other) : row.AtMost other := by
  unfold Row.AtMost at *
  omega

theorem Row.AtMost.total (row other : Row Content) : row.AtMost other ∨ other.AtMost row := by
  unfold Row.AtMost
  omega

/-- The greatest row that was inserted last. -/
def newest : Table Content → Option (Row Content)
  | [] => none
  | row :: rest =>
    match newest rest with
    | none => some row
    | some best => if row.AtMost best then some best else some row

theorem newest_none (table : Table Content) (none : newest table = none) : table = [] := by
  cases table with
  | nil => rfl
  | cons row rest =>
    unfold newest at none
    split at none
    · contradiction
    · split at none <;> contradiction

theorem newest_latest (table : Table Content) (row : Row Content)
    (found : newest table = some row) : Latest table row := by
  induction table generalizing row with
  | nil => contradiction
  | cons first rest ih =>
    unfold newest at found
    split at found
    · rename_i none
      obtain rfl := newest_none rest none
      obtain rfl := Option.some.inj found
      exact ⟨List.mem_singleton_self _,by simp [Row.AtMost.refl]⟩
    · rename_i best found'
      obtain ⟨member,most⟩ := ih best found'
      split at found
      · rename_i below
        obtain rfl := Option.some.inj found
        exact ⟨List.mem_cons_of_mem _ member,List.forall_mem_cons.mpr ⟨below,most⟩⟩
      · rename_i above
        obtain rfl := Option.some.inj found
        refine ⟨List.mem_cons_self,List.forall_mem_cons.mpr ⟨.refl _,fun other inside => ?_⟩⟩
        exact (most other inside).trans ((Row.AtMost.total _ _).resolve_left above)

def LatestQuery.newest : LatestQuery Content where
  pick := Indexer.newest
  latest := newest_latest
  found := newest_none

end Tables

section Rows

structure InternalTransfer where
  fromNft : JsString
  toNft : JsString
  amountTbc : JsString
  payloadHash : JsString
  deriving DecidableEq

structure MerchantPayment where
  payerNft : JsString
  merchantNft : JsString
  amountTbc : JsString
  payloadHash : JsString
  deriving DecidableEq

structure AccountStateChange where
  nftAddress : JsString
  oldState : Nat
  newState : Nat
  deriving DecidableEq

structure NftOwnershipChange where
  nftAddress : JsString
  collectionAddress : JsString
  oldOwner : Option JsString
  newOwner : JsString
  deriving DecidableEq

structure ProtocolMetrics where
  periodStart : Nat
  periodEnd : Nat
  activeAccounts : Nat
  tbcVolumeTransferred : JsString
  transferCount : Nat
  deriving DecidableEq

structure LockActivity where
  periodStart : Nat
  periodEnd : Nat
  locksSet : Nat
  locksCleared : Nat
  locksActive : Nat
  appealsFiled : Nat
  appealsOverturned : Nat
  appealsUpheld : Nat
  deriving DecidableEq

structure ParameterChange where
  parameterId : JsString
  oldValueHash : JsString
  newValueHash : JsString
  effectiveBlock : Nat
  governanceProposalId : Option Nat
  deriving DecidableEq

def ProtocolMetrics.period (metrics : ProtocolMetrics) : Nat × Nat :=
  (metrics.periodStart,metrics.periodEnd)

def LockActivity.period (activity : LockActivity) : Nat × Nat :=
  (activity.periodStart,activity.periodEnd)

structure AccountSnapshot where
  currentOwner : Option JsString
  currentState : Nat
  lastTransferBlock : Option Nat
  lastStateChangeBlock : Option Nat
  deriving DecidableEq

structure BlockRow where
  blockNumber : Nat
  blockHash : JsString
  parentHash : JsString
  timestamp : Nat
  transactionCount : Nat
  confirmed : Bool
  deriving DecidableEq

end Rows

structure Database where
  latestBlockIndexed : Nat
  latestBlockTimestamp : Nat
  latestChainSeqno : Nat
  blocks : List BlockRow
  internalTransfers : Table InternalTransfer
  merchantPayments : Table MerchantPayment
  accountStateChanges : Table AccountStateChange
  nftOwnershipChanges : Table NftOwnershipChange
  protocolMetrics : Table ProtocolMetrics
  lockActivity : Table LockActivity
  parameterChanges : Table ParameterChange
  accountSnapshots : FiniteMap JsString AccountSnapshot

/-- The database right after its migrations. -/
def Database.empty : Database :=
  { latestBlockIndexed := 0
    latestBlockTimestamp := 0
    latestChainSeqno := 0
    blocks := []
    internalTransfers := []
    merchantPayments := []
    accountStateChanges := []
    nftOwnershipChanges := []
    protocolMetrics := []
    lockActivity := []
    parameterChanges := []
    accountSnapshots := ∅ }

namespace Database

def getBlock (db : Database) (blockNumber : Nat) : Option BlockRow :=
  db.blocks.find? (·.blockNumber = blockNumber)

/-- A stale head never moves the stored one back. -/
def setLatestChainSeqno (db : Database) (seqno : Nat) : Database :=
  if db.latestChainSeqno < seqno then {db with latestChainSeqno := seqno} else db

def updateLatestBlock (db : Database) (blockNumber timestamp : Nat) : Database :=
  {db with latestBlockIndexed := blockNumber,latestBlockTimestamp := timestamp}

def markBlocksConfirmed (db : Database) (upToBlock : Nat) : Database :=
  {db with blocks := db.blocks.map fun block =>
    if block.blockNumber ≤ upToBlock then {block with confirmed := true} else block}

/-- The event rows that are left of a table when some block rows go (`ON DELETE CASCADE`). -/
def cascade (db : Database) (gone : BlockRow → Bool) (table : Table Content) : Table Content :=
  table.filter fun row =>
    !db.blocks.any fun block => block.blockNumber = row.blockNumber && gone block

def deleteBlocks (db : Database) (gone : BlockRow → Bool) : Database :=
  {db with
    blocks := db.blocks.filter fun block => !gone block
    internalTransfers := db.cascade gone db.internalTransfers
    merchantPayments := db.cascade gone db.merchantPayments
    accountStateChanges := db.cascade gone db.accountStateChanges
    nftOwnershipChanges := db.cascade gone db.nftOwnershipChanges
    protocolMetrics := db.cascade gone db.protocolMetrics
    lockActivity := db.cascade gone db.lockActivity
    parameterChanges := db.cascade gone db.parameterChanges }

/-- `INSERT OR REPLACE`: a row of the same number or the same hash makes way. -/
def insertBlock (db : Database) (blockNumber : Nat) (blockHash parentHash : JsString)
    (timestamp transactionCount : Nat) : Database :=
  let db := db.deleteBlocks fun block =>
    block.blockNumber = blockNumber || block.blockHash = blockHash
  {db with blocks := db.blocks ++
    [⟨blockNumber,blockHash,parentHash,timestamp,transactionCount,false⟩]}

def setSnapshot (db : Database) (nftAddress : JsString) (snapshot : AccountSnapshot) : Database :=
  {db with accountSnapshots := db.accountSnapshots.set nftAddress snapshot}

/-- A row that an insert of some columns makes, before it sets them. -/
def snapshotOrNew (db : Database) (nftAddress : JsString) : AccountSnapshot :=
  (db.accountSnapshots.get nftAddress).getD ⟨none,0,none,none⟩

def updateAccountSnapshot (codec : AddressCodec) (db : Database) (nftAddress : JsString)
    (blockNumber : Nat) : Database :=
  let nftAddress := normalizeTonAddress codec nftAddress
  db.setSnapshot nftAddress
    {db.snapshotOrNew nftAddress with lastTransferBlock := some blockNumber}

section Inserts

/-- An event as the insert methods take it. -/
structure Place where
  blockNumber : Nat
  transactionHash : JsString
  logIndex : Nat
  timestamp : Nat

def Place.row (place : Place) (content : Content) : Row Content :=
  ⟨place.blockNumber,place.transactionHash,place.logIndex,place.timestamp,content⟩

variable (codec : AddressCodec) (db : Database) (place : Place)

def insertInternalTransfer (fromNft toNft amountTbc payloadHash : JsString) : Database :=
  let fromNft := normalizeTonAddress codec fromNft
  let toNft := normalizeTonAddress codec toNft
  let row := place.row ⟨fromNft,toNft,amountTbc,payloadHash⟩
  let db := {db with internalTransfers := insertOrIgnore row db.internalTransfers}
  (db.updateAccountSnapshot codec fromNft place.blockNumber).updateAccountSnapshot codec toNft
    place.blockNumber

def insertMerchantPayment (payerNft merchantNft amountTbc payloadHash : JsString) : Database :=
  let payerNft := normalizeTonAddress codec payerNft
  let merchantNft := normalizeTonAddress codec merchantNft
  let row := place.row ⟨payerNft,merchantNft,amountTbc,payloadHash⟩
  let db := {db with merchantPayments := insertOrIgnore row db.merchantPayments}
  (db.updateAccountSnapshot codec payerNft place.blockNumber).updateAccountSnapshot codec
    merchantNft place.blockNumber

/-- The UPSERT of the snapshot keeps its owner and its last transfer. -/
def insertAccountStateChange (nftAddress : JsString) (oldState newState : Nat) : Database :=
  let nftAddress := normalizeTonAddress codec nftAddress
  let row := place.row ⟨nftAddress,oldState,newState⟩
  let db := {db with accountStateChanges := insertOrIgnore row db.accountStateChanges}
  db.setSnapshot nftAddress {db.snapshotOrNew nftAddress with
    currentState := newState,lastStateChangeBlock := some place.blockNumber}

def insertNFTOwnershipChange (nftAddress collectionAddress : JsString)
    (oldOwner : Option JsString) (newOwner : JsString) : Database :=
  let nftAddress := normalizeTonAddress codec nftAddress
  let collectionAddress := normalizeTonAddress codec collectionAddress
  let oldOwner := oldOwner.map (normalizeTonAddress codec)
  let newOwner := normalizeTonAddress codec newOwner
  let row := place.row ⟨nftAddress,collectionAddress,oldOwner,newOwner⟩
  let db := {db with nftOwnershipChanges := insertOrIgnore row db.nftOwnershipChanges}
  db.setSnapshot nftAddress {db.snapshotOrNew nftAddress with currentOwner := some newOwner}

def insertTransparencyProtocolMetrics (metrics : ProtocolMetrics) : Option Database :=
  (upsert ProtocolMetrics.period (place.row metrics) db.protocolMetrics).map fun table =>
    {db with protocolMetrics := table}

def insertTransparencyLockActivity (activity : LockActivity) : Option Database :=
  (upsert LockActivity.period (place.row activity) db.lockActivity).map fun table =>
    {db with lockActivity := table}

def insertTransparencyParameterChange (change : ParameterChange) : Database :=
  let row := place.row change
  {db with parameterChanges := insertOrIgnore row db.parameterChanges}

/-- What an insert refuses rolls the block's transaction back. -/
def storeEvent : IndexedEvent → Option Database
  | .internalTransfer fromNft toNft amountTbc payloadHash =>
    some (db.insertInternalTransfer codec place fromNft toNft (natDigits amountTbc) payloadHash)
  | .accountStateChanged nftAddress oldState newState =>
    some (db.insertAccountStateChange codec place nftAddress oldState newState)
  | .merchantPayment payerNft merchantNft amountTbc payloadHash =>
    some (db.insertMerchantPayment codec place payerNft merchantNft (natDigits amountTbc)
      payloadHash)
  | .nftOwnershipChange nftAddress collectionAddress oldOwner newOwner =>
    some (db.insertNFTOwnershipChange codec place nftAddress collectionAddress oldOwner newOwner)
  | .transparencyProtocolMetrics periodStart periodEnd activeAccounts tbcVolumeTransferred
      transferCount =>
    db.insertTransparencyProtocolMetrics place
      ⟨periodStart,periodEnd,activeAccounts,natDigits tbcVolumeTransferred,transferCount⟩
  | .transparencyLockActivity periodStart periodEnd locksSet locksCleared locksActive appealsFiled
      appealsOverturned appealsUpheld =>
    db.insertTransparencyLockActivity place ⟨periodStart,periodEnd,locksSet,locksCleared,
      locksActive,appealsFiled,appealsOverturned,appealsUpheld⟩
  | .transparencyParameterChange parameterId oldValueHash newValueHash effectiveBlock
      governanceProposalId =>
    some (db.insertTransparencyParameterChange place
      ⟨parameterId,oldValueHash,newValueHash,effectiveBlock,governanceProposalId⟩)

/-- The events of a block, one insert after the other. -/
def storeEvents (blockNumber timestamp : Nat) : List PendingEvent → Database → Option Database
  | [], db => some db
  | pending :: rest, db =>
    (db.storeEvent codec ⟨blockNumber,pending.txHash,pending.logIndex,timestamp⟩
      pending.event).bind (storeEvents blockNumber timestamp rest)

/-- The transaction of `processBlock`: the block row, its events and the cursor. -/
def commitBlock (block : IndexedBlock) : Option Database :=
  (storeEvents codec block.blockNumber block.timestamp block.events
    (db.insertBlock block.blockNumber block.blockHash block.parentHash block.timestamp
      block.transactionCount)).map fun db => db.updateLatestBlock block.blockNumber block.timestamp

end Inserts

section Reorgs

/-- How the database engine answers the sorted queries of a rebuild. -/
structure Engine where
  owner : LatestQuery NftOwnershipChange
  state : LatestQuery AccountStateChange

/-- The accounts that rows from a block on refer to. -/
def affected (db : Database) (fromBlock : Nat) : List JsString :=
  let reverted {Content : Type} (table : Table Content) : Table Content :=
    table.filter fun row => fromBlock ≤ row.blockNumber
  ((reverted db.internalTransfers).flatMap (fun row => [row.content.fromNft,row.content.toNft]) ++
    (reverted db.merchantPayments).flatMap (fun row =>
      [row.content.payerNft,row.content.merchantNft]) ++
    (reverted db.accountStateChanges).map (·.content.nftAddress) ++
    (reverted db.nftOwnershipChanges).map (·.content.nftAddress)).dedup

def ownershipChangesOf (db : Database) (nftAddress : JsString) : Table NftOwnershipChange :=
  db.nftOwnershipChanges.filter fun row => row.content.nftAddress = nftAddress

def stateChangesOf (db : Database) (nftAddress : JsString) : Table AccountStateChange :=
  db.accountStateChanges.filter fun row => row.content.nftAddress = nftAddress

/-- The blocks in which an account was party to a transfer or a payment. -/
def transferBlocksOf (db : Database) (nftAddress : JsString) : List Nat :=
  (db.internalTransfers.filter fun row =>
    row.content.fromNft = nftAddress || row.content.toNft = nftAddress).map (·.blockNumber) ++
  (db.merchantPayments.filter fun row =>
    row.content.payerNft = nftAddress || row.content.merchantNft = nftAddress).map (·.blockNumber)

def rebuildAccountSnapshot (engine : Engine) (db : Database) (nftAddress : JsString) : Database :=
  let owner := engine.owner.pick (db.ownershipChangesOf nftAddress)
  let state := engine.state.pick (db.stateChangesOf nftAddress)
  let lastBlock := (db.transferBlocksOf nftAddress).max?
  if owner.isNone && state.isNone && lastBlock.isNone then
    {db with accountSnapshots := db.accountSnapshots.del nftAddress}
  else db.setSnapshot nftAddress
    { currentOwner := owner.map (·.content.newOwner)
      currentState := (state.map (·.content.newState)).getD 0
      lastTransferBlock := lastBlock
      lastStateChangeBlock := state.map (·.blockNumber) }

def handleReorg (engine : Engine) (db : Database) (fromBlock : Nat) : Database :=
  let affected := db.affected fromBlock
  let db := db.deleteBlocks fun block => fromBlock ≤ block.blockNumber
  let db := affected.foldl (rebuildAccountSnapshot engine) db
  match db.getBlock (fromBlock - 1) with
  | some block => db.updateLatestBlock (fromBlock - 1) block.timestamp
  | none => db.updateLatestBlock 0 0

end Reorgs

end Database

/-- The writes of the service, each in one transaction. -/
inductive Operation where
  | setLatestChainSeqno (seqno : Nat)
  | handleReorg (fromBlock : Nat)
  | commitBlock (block : IndexedBlock)
  | markBlocksConfirmed (upToBlock : Nat)

def apply (codec : AddressCodec) (engine : Database.Engine) :
    Operation → Database → Option Database
  | .setLatestChainSeqno seqno, db => some (db.setLatestChainSeqno seqno)
  | .handleReorg fromBlock, db => some (db.handleReorg engine fromBlock)
  | .commitBlock block, db => db.commitBlock codec block
  | .markBlocksConfirmed upToBlock, db => some (db.markBlocksConfirmed upToBlock)

end Tonbankcard.Indexer
