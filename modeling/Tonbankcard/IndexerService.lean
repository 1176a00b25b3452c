import Tonbankcard.Await
import Tonbankcard.IndexerEventParser

/-! The sync loop of the indexer as a task: what it asks the TON API between two answers and what
it reads and writes of the database at once. An exception of a poll ends its task. -/
namespace Tonbankcard.Indexer

open EcmaScript Await

section Api

/-- A call throws, or its body is `ok: false` or has no result, or it has one. -/
inductive Response (Result : Type) where
  | failed
  | refused
  | ok (result : Result)
  deriving DecidableEq

def Response.result : Response Result → Option Result
  | .ok result => some result
  | _ => none

/-- Hashes that a body leaves out are empty. -/
structure BlockId where
  workchain : Int
  shard : JsString
  seqno : Nat
  rootHash : JsString

structure BlockHeader where
  rootHash : JsString
  prevRootHash : JsString
  genUtime : Nat

structure ShardBlock where
  workchain : Int
  shard : JsString
  seqno : Nat
  deriving DecidableEq

structure Descriptor where
  account : JsString
  lt : JsString
  hash : JsString
  deriving DecidableEq

structure Page where
  incomplete : Bool
  transactions : List Descriptor

structure Cursor where
  afterLt : JsString
  afterHash : JsString
  deriving DecidableEq

/-- The calls with what they vary; the others of their parameters are fixed. -/
inductive Request where
  | getMasterchainInfo
  | lookupBlock (seqno : Nat)
  | getBlockHeader (workchain : Int) (shard : JsString) (seqno : Nat)
  | shards (seqno : Nat)
  | getBlockTransactions (shard : ShardBlock) (after : Option Cursor)
  | getTransactions (address lt hash : JsString)

/-- The calls for the contents of a block. -/
def Request.fetches : Request → Bool
  | .getMasterchainInfo | .lookupBlock _ | .getBlockHeader _ _ _ => false
  | .shards _ | .getBlockTransactions _ _ | .getTransactions _ _ _ => true

/-- A head that is no finite number counts as a refused call. -/
abbrev Answer : Request → Type
  | .getMasterchainInfo => Response Nat
  | .lookupBlock _ => Response BlockId
  | .getBlockHeader _ _ _ => Response BlockHeader
  | .shards _ => Response (List ShardBlock)
  | .getBlockTransactions _ _ => Response Page
  | .getTransactions _ _ _ => Response (List Transaction)

end Api

/-- The configuration, whose batch size is checked when it is loaded, and the libraries. -/
structure Service where
  codec : AddressCodec
  cells : CellReader
  engine : Database.Engine
  paymentHub : JsString
  merchantPaymentHub : JsString
  transparencyRegistry : JsString
  nftCollections : List JsString
  startBlock : Nat
  batchSize : Nat
  batchSize_positive : 0 < batchSize
  confirmationBlocks : Nat

abbrev Sync := Task Request Answer Database Operation

/-- What a masterchain block is stored with. -/
structure MasterchainBlock where
  rootHash : JsString
  prevRootHash : JsString
  now : Nat

/-- A transaction under the hash that its events are stored with. -/
structure FetchedTransaction where
  transaction : Transaction
  hash : JsString

namespace Service

def BLOCK_TX_PAGE_SIZE : Nat := 256
def MAX_BLOCK_TX_PAGES : Nat := 1000

variable (service : Service)

def trackedAddresses : List JsString :=
  (service.paymentHub :: service.merchantPaymentHub :: service.transparencyRegistry ::
    service.nftCollections).filter fun address => !address.isEmpty

def toRawAddress (address : JsString) : Option JsString :=
  (service.codec.parse address).map service.codec.raw

/-- `trackedByRaw.get`, where the last address of a raw form has set it. -/
def configAddress (account : JsString) : Option JsString :=
  (service.toRawAddress account).bind fun raw =>
    service.trackedAddresses.reverse.find? fun address => service.toRawAddress address = some raw

section Fetching

def fetchTonApi (request : Request) : Sync (Answer request) := Task.request request

def getLatestBlock : Sync (Option Nat) := do
  let info ← fetchTonApi .getMasterchainInfo
  pure (Response.result info)

def getBlockByNumber (blockNumber : Nat) : Sync MasterchainBlock := do
  match ← fetchTonApi (.lookupBlock blockNumber) with
  | .ok blockId =>
    match ← fetchTonApi (.getBlockHeader blockId.workchain blockId.shard blockId.seqno) with
    | .ok header =>
      let rootHash := if header.rootHash.isEmpty then blockId.rootHash else header.rootHash
      pure ⟨rootHash,header.prevRootHash,header.genUtime⟩
    | _ => .fail
  | _ => .fail

/-- A failed call counts as a block without shards. -/
def getBlockShards (blockNumber : Nat) : Sync (List ShardBlock) := do
  match ← fetchTonApi (.shards blockNumber) with
  | .ok shards => pure shards
  | _ => pure []

/-- The cursor of a page, sent only where both of its parts are filled. -/
def nextCursor (transactions : List Descriptor) : Option Cursor :=
  transactions.getLast?.bind fun last =>
    if last.lt.isEmpty || last.hash.isEmpty then none else some ⟨last.lt,last.hash⟩

/-- A failed page ends the enumeration with what came before it. -/
def descriptorPages (shard : ShardBlock) : Nat → Option Cursor → Sync (List Descriptor)
  | 0, _ => pure []
  | pages+1, after => do
    match ← fetchTonApi (.getBlockTransactions shard after) with
    | .ok page =>
      if !page.incomplete || page.transactions.isEmpty then pure page.transactions else
        let more ← descriptorPages shard pages (nextCursor page.transactions)
        pure (page.transactions ++ more)
    | _ => pure []

def fetchBlockTransactionDescriptors (shard : ShardBlock) : Sync (List Descriptor) :=
  descriptorPages shard MAX_BLOCK_TX_PAGES none

/-- A failed lookup counts as no transaction. -/
def fetchTransactionByCursor (address lt hash : JsString) : Sync (Option Transaction) := do
  match ← fetchTonApi (.getTransactions address lt hash) with
  | .ok transactions => pure transactions.head?
  | _ => pure none

def fetched (descriptor : Descriptor) (transaction : Transaction) : FetchedTransaction :=
  { transaction
    hash := if transaction.transactionIdHash.isEmpty then descriptor.hash
      else transaction.transactionIdHash }

def fetchTracked : List Descriptor → Sync (List FetchedTransaction)
  | [] => pure []
  | descriptor :: rest =>
    match service.configAddress descriptor.account with
    | none => fetchTracked rest
    | some address => do
      let transaction ← fetchTransactionByCursor address descriptor.lt descriptor.hash
      let more ← fetchTracked rest
      pure ((transaction.map (fetched descriptor)).toList ++ more)

def fetchShards : List ShardBlock → Sync (List FetchedTransaction)
  | [] => pure []
  | shard :: rest => do
    let descriptors ← fetchBlockTransactionDescriptors shard
    let transactions ← service.fetchTracked descriptors
    let more ← fetchShards rest
    pure (transactions ++ more)

def fetchBlockTransactions (blockNumber : Nat) : Sync (List FetchedTransaction) :=
  if service.trackedAddresses.isEmpty then pure [] else do
    let shards ← getBlockShards blockNumber
    service.fetchShards shards

end Fetching

section Processing

def normalizeAddress (address : JsString) : JsString :=
  normalizeTonAddress service.codec address

def getTransactionDestination (transaction : Transaction) : JsString :=
  (transaction.inMsg.bind (·.destination)).getD []

/-- The events of one transaction, none where its destination is not a tracked contract. -/
def transactionEvents (fetched : FetchedTransaction) : List PendingEvent :=
  let destination := getTransactionDestination fetched.transaction
  let relevantContracts := service.trackedAddresses.map service.normalizeAddress
  if service.normalizeAddress destination ∉ relevantContracts then [] else
    (parseTransaction service.codec service.cells fetched.transaction destination).mapIdx
      fun logIndex event => ⟨event,fetched.hash,logIndex⟩

def collectBlockEvents (transactions : List FetchedTransaction) : List PendingEvent :=
  transactions.flatMap service.transactionEvents

def indexedBlock (blockNumber : Nat) (block : MasterchainBlock)
    (transactions : List FetchedTransaction) : IndexedBlock :=
  { blockNumber
    blockHash := block.rootHash
    parentHash := block.prevRootHash
    timestamp := block.now
    transactionCount := transactions.length
    events := service.collectBlockEvents transactions }

def processBlock (blockNumber : Nat) : Sync Unit := do
  let block ← getBlockByNumber blockNumber
  let transactions ← service.fetchBlockTransactions blockNumber
  Task.perform (.commitBlock (service.indexedBlock blockNumber block transactions))

end Processing

section Syncing

def detectAndHandleReorg (blockNumber : Nat) : Sync Bool := do
  match ← Task.select (·.getBlock blockNumber) with
  | none => pure false
  | some storedBlock =>
    let chainBlock ← getBlockByNumber blockNumber
    if storedBlock.blockHash ≠ chainBlock.rootHash then
      Task.perform (.handleReorg blockNumber)
      pure true
    else pure false

/-- The first divergent height among some, after its rollback. -/
def revalidate : List Nat → Sync (Option Nat)
  | [] => pure none
  | blockNumber :: rest => do
    if ← detectAndHandleReorg blockNumber then pure (some blockNumber) else revalidate rest

/-- The heights from one to another, both included. -/
def heights (first last : Nat) : List Nat := List.range' first (last + 1 - first)

def windowStart (latestIndexed : Nat) : Nat :=
  max 1 (latestIndexed + 1 - max 1 service.confirmationBlocks)

def revalidateIndexedRange (latestIndexed : Nat) : Sync (Option Nat) :=
  revalidate (heights (service.windowStart latestIndexed) latestIndexed)

/-- A reorg ends the range but not the batches after it. -/
def syncRange : List Nat → Sync Unit
  | [] => pure ()
  | blockNum :: rest => do
    if ← detectAndHandleReorg blockNum then pure () else
      service.processBlock blockNum
      syncRange rest

def syncBlockRange (startBlock endBlock : Nat) : Sync Unit :=
  service.syncRange (heights startBlock endBlock)

def syncBatches (endBlock : Nat) : List Nat → Sync Unit
  | [] => pure ()
  | currentBlock :: rest => do
    service.syncBlockRange currentBlock (min (currentBlock + service.batchSize - 1) endBlock)
    syncBatches endBlock rest

/-- Where the batches of a range start. -/
def batchStarts (startBlock endBlock : Nat) : List Nat :=
  List.range' startBlock ((endBlock - startBlock) / service.batchSize + 1) service.batchSize

/-- The next block to index from a cursor. -/
def nextBlock (cursor : Nat) : Nat := max (cursor + 1) service.startBlock

/-- Block 0 is never indexed, so an end below it stops a poll as zero does, and the cutoff for the
confirmed flag is positive. -/
def syncBlocks : Sync Unit := do
  let latestIndexed ← Task.select (·.latestBlockIndexed)
  match ← getLatestBlock with
  | none => pure ()
  | some latestBlock =>
    Task.perform (.setLatestChainSeqno latestBlock)
    let _ ← service.revalidateIndexedRange latestIndexed
    let cursor ← Task.select (·.latestBlockIndexed)
    let startBlock := service.nextBlock cursor
    let endBlock := latestBlock - service.confirmationBlocks
    if endBlock < startBlock then pure () else
      service.syncBatches endBlock (service.batchStarts startBlock endBlock)
      Task.perform (.markBlocksConfirmed endBlock)

end Syncing
end Service
end Tonbankcard.Indexer
