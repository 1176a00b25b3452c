import Tonbankcard.IndexerService

/-! What the operations do to the block rows and the cursor, and which writes leave the rows
contiguous: a commit of the next block or of the last one again, and a rollback behind the cursor.
Polls that overlap may write something else. -/
namespace Tonbankcard.Indexer

open EcmaScript Await

namespace Database

section Rows

/-- Two databases with the same block rows, cursor and chain head. -/
structure SameChain (db other : Database) : Prop where
  blocks : db.blocks = other.blocks
  cursor : db.latestBlockIndexed = other.latestBlockIndexed
  head : db.latestChainSeqno = other.latestChainSeqno

theorem SameChain.refl (db : Database) : db.SameChain db := ⟨rfl,rfl,rfl⟩

theorem SameChain.trans {db middle other : Database} (first : db.SameChain middle)
    (second : middle.SameChain other) : db.SameChain other :=
  ⟨first.1.trans second.1,first.2.trans second.2,first.3.trans second.3⟩

theorem setLatestChainSeqno_blocks (db : Database) (seqno : Nat) :
    (db.setLatestChainSeqno seqno).blocks = db.blocks := by
  unfold setLatestChainSeqno
  split <;> rfl

theorem setLatestChainSeqno_cursor (db : Database) (seqno : Nat) :
    (db.setLatestChainSeqno seqno).latestBlockIndexed = db.latestBlockIndexed := by
  unfold setLatestChainSeqno
  split <;> rfl

variable {codec : AddressCodec} {engine : Engine}

theorem storeEvent_chain {db after : Database} {place : Place} {event : IndexedEvent}
    (stored : db.storeEvent codec place event = some after) : after.SameChain db := by
  cases event with
  | transparencyProtocolMetrics =>
    obtain ⟨table,-,rfl⟩ := Option.map_eq_some_iff.mp stored
    exact ⟨rfl,rfl,rfl⟩
  | transparencyLockActivity =>
    obtain ⟨table,-,rfl⟩ := Option.map_eq_some_iff.mp stored
    exact ⟨rfl,rfl,rfl⟩
  | _ =>
    obtain rfl := Option.some.inj stored
    exact ⟨rfl,rfl,rfl⟩

theorem storeEvents_chain {events : List PendingEvent} {db after : Database}
    (stored : storeEvents codec blockNumber timestamp events db = some after) :
    after.SameChain db := by
  induction events generalizing db with
  | nil =>
    obtain rfl := Option.some.inj stored
    exact .refl _
  | cons pending rest ih =>
    obtain ⟨middle,first,later⟩ := Option.bind_eq_some_iff.mp stored
    exact (ih later).trans (storeEvent_chain first)

theorem rebuildAccountSnapshot_chain (db : Database) (nftAddress : JsString) :
    (db.rebuildAccountSnapshot engine nftAddress).SameChain db := by
  unfold rebuildAccountSnapshot
  simp only
  split <;> exact ⟨rfl,rfl,rfl⟩

theorem rebuilt_chain (accounts : List JsString) (db : Database) :
    (accounts.foldl (rebuildAccountSnapshot engine) db).SameChain db := by
  induction accounts generalizing db with
  | nil => exact .refl _
  | cons account rest ih => exact (ih _).trans (rebuildAccountSnapshot_chain db account)

/-- A row of some height is stored. -/
def Stores (db : Database) (blockNumber : Nat) : Prop :=
  ∃ block ∈ db.blocks, block.blockNumber = blockNumber

theorem blocks_nil {db : Database} : db.blocks = [] ↔ ∀ blockNumber, ¬db.Stores blockNumber := by
  unfold Stores
  constructor
  · intro empty
    simp [empty]
  · intro none
    exact List.eq_nil_iff_forall_not_mem.mpr fun block member =>
      none block.blockNumber ⟨block,member,rfl⟩

theorem getBlock_none {db : Database} : db.getBlock blockNumber = none ↔
    ¬db.Stores blockNumber := by
  simp [getBlock,Stores]

theorem getBlock_some {db : Database} (found : db.getBlock blockNumber = some block) :
    block ∈ db.blocks ∧ block.blockNumber = blockNumber :=
  ⟨List.mem_of_find?_eq_some found,by simpa using List.find?_some found⟩

/-- What a commit leaves: the rows of other heights and other hashes, and its own. -/
theorem commitBlock_chain {db after : Database} {block : IndexedBlock}
    (committed : db.commitBlock codec block = some after) :
    after.blocks = db.blocks.filter (fun other => !(other.blockNumber = block.blockNumber ||
        other.blockHash = block.blockHash)) ++
      [⟨block.blockNumber,block.blockHash,block.parentHash,block.timestamp,
        block.transactionCount,false⟩] ∧
    after.latestBlockIndexed = block.blockNumber ∧
    after.latestChainSeqno = db.latestChainSeqno := by
  obtain ⟨stored,events,rfl⟩ := Option.map_eq_some_iff.mp committed
  have same := storeEvents_chain events
  exact ⟨same.blocks,rfl,same.head⟩

theorem handleReorg_blocks (db : Database) (fromBlock : Nat) :
    (db.handleReorg engine fromBlock).blocks =
      db.blocks.filter fun block => !decide (fromBlock ≤ block.blockNumber) := by
  unfold handleReorg
  simp only
  split <;> exact (rebuilt_chain _ _).blocks

theorem handleReorg_head (db : Database) (fromBlock : Nat) :
    (db.handleReorg engine fromBlock).latestChainSeqno = db.latestChainSeqno := by
  unfold handleReorg
  simp only
  split <;> exact (rebuilt_chain _ _).head

theorem handleReorg_stores (db : Database) :
    (db.handleReorg engine fromBlock).Stores blockNumber ↔
      db.Stores blockNumber ∧ blockNumber < fromBlock := by
  unfold Stores
  rw [handleReorg_blocks]
  simp only [List.mem_filter,Bool.not_eq_true',decide_eq_false_iff_not,not_le]
  constructor
  · rintro ⟨block,⟨member,below⟩,rfl⟩
    exact ⟨⟨block,member,rfl⟩,below⟩
  · rintro ⟨⟨block,member,rfl⟩,below⟩
    exact ⟨block,⟨member,below⟩,rfl⟩

/-- The cursor after a rollback is the height below it where that is stored, else 0. -/
theorem handleReorg_cursor (db : Database) (fromBlock : Nat) :
    (db.handleReorg engine fromBlock).latestBlockIndexed = fromBlock - 1 ∧
        (db.handleReorg engine fromBlock).Stores (fromBlock - 1) ∨
      (db.handleReorg engine fromBlock).latestBlockIndexed = 0 ∧
        ¬(db.handleReorg engine fromBlock).Stores (fromBlock - 1) := by
  unfold handleReorg
  simp only
  split
  · rename_i block found
    obtain ⟨member,number⟩ := getBlock_some found
    exact .inl ⟨rfl,block,member,number⟩
  · rename_i none
    exact .inr ⟨rfl,getBlock_none.mp none⟩

end Rows

section Contiguity

/-- The block rows are one range that ends at the cursor, or there are none and it is 0. -/
def Contiguous (db : Database) : Prop :=
  db.blocks = [] ∧ db.latestBlockIndexed = 0 ∨
  ∃ first, first ≤ db.latestBlockIndexed ∧
    ∀ blockNumber, db.Stores blockNumber ↔ first ≤ blockNumber ∧ blockNumber ≤ db.latestBlockIndexed

/-- A commit of the block after the cursor or of the cursor's own, under a hash that no other
height has, and a rollback that starts no higher than behind the cursor. -/
def InOrder (db : Database) : Operation → Prop
  | .commitBlock block => db.blocks = [] ∨
      (block.blockNumber = db.latestBlockIndexed ∨
        block.blockNumber = db.latestBlockIndexed + 1) ∧
      ∀ other ∈ db.blocks, other.blockHash = block.blockHash →
        other.blockNumber = block.blockNumber
  | .handleReorg fromBlock => db.blocks = [] ∨ fromBlock ≤ db.latestBlockIndexed + 1
  | _ => True

variable {codec : AddressCodec} {engine : Engine}

theorem commitBlock_stores {db after : Database} {block : IndexedBlock}
    (committed : db.commitBlock codec block = some after)
    (unique : ∀ other ∈ db.blocks, other.blockHash = block.blockHash →
      other.blockNumber = block.blockNumber) :
    after.Stores blockNumber ↔ db.Stores blockNumber ∨ blockNumber = block.blockNumber := by
  unfold Stores
  rw [(commitBlock_chain committed).1]
  simp only [List.mem_append,List.mem_filter,List.mem_singleton,Bool.not_eq_true',
    Bool.or_eq_false_iff,decide_eq_false_iff_not]
  constructor
  · rintro ⟨row,⟨member,-⟩ | rfl,rfl⟩
    · exact .inl ⟨row,member,rfl⟩
    · exact .inr rfl
  · rintro (⟨row,member,rfl⟩ | rfl)
    · by_cases same : row.blockNumber = block.blockNumber
      · exact ⟨_,.inr rfl,same.symm⟩
      · exact ⟨row,.inl ⟨member,same,mt (unique row member) same⟩,rfl⟩
    · exact ⟨_,.inr rfl,rfl⟩

theorem commitBlock_contiguous {db after : Database} {block : IndexedBlock}
    (contiguous : db.Contiguous) (ordered : db.InOrder (.commitBlock block))
    (committed : db.commitBlock codec block = some after) : after.Contiguous := by
  obtain ⟨-,cursor,-⟩ := commitBlock_chain committed
  have alone (empty : db.blocks = []) : after.Contiguous := by
    have unique : ∀ other ∈ db.blocks, other.blockHash = block.blockHash →
        other.blockNumber = block.blockNumber := by simp [empty]
    refine .inr ⟨block.blockNumber,cursor.ge,fun blockNumber => ?_⟩
    rw [commitBlock_stores committed unique,cursor]
    simp only [blocks_nil.mp empty,false_or]
    omega
  rcases ordered with empty | ⟨next,unique⟩
  · exact alone empty
  · rcases contiguous with ⟨empty,-⟩ | ⟨first,low,range⟩
    · exact alone empty
    · refine .inr ⟨first,by omega,fun blockNumber => ?_⟩
      rw [commitBlock_stores committed unique,cursor,range]
      omega

theorem handleReorg_contiguous {db : Database} (contiguous : db.Contiguous)
    (ordered : db.InOrder (.handleReorg fromBlock)) :
    (db.handleReorg engine fromBlock).Contiguous := by
  have left (blockNumber : Nat) := @handleReorg_stores engine fromBlock blockNumber db
  have cursor := @handleReorg_cursor engine db fromBlock
  have empties (empty : db.blocks = []) : (db.handleReorg engine fromBlock).Contiguous := by
    have none : (db.handleReorg engine fromBlock).blocks = [] := by
      rw [handleReorg_blocks,empty,List.filter_nil]
    exact .inl ⟨none,cursor.elim (fun kept => absurd kept.2 (blocks_nil.mp none _)) (·.1)⟩
  rcases contiguous with ⟨empty,-⟩ | ⟨first,low,range⟩
  · exact empties empty
  · rcases ordered with empty | bounded
    · exact empties empty
    · simp only [left,range] at cursor
      rcases cursor with ⟨moved,stored⟩ | ⟨reset,missing⟩
      · refine .inr ⟨first,by omega,fun blockNumber => ?_⟩
        rw [left,range,moved]
        omega
      · refine .inl ⟨blocks_nil.mpr fun blockNumber stored => ?_,reset⟩
        rw [left,range] at stored
        omega

/-- The step lemma: an operation in order keeps the rows contiguous. -/
theorem Contiguous.apply {db after : Database} (contiguous : db.Contiguous)
    {operation : Operation} (ordered : db.InOrder operation)
    (applied : Indexer.apply codec engine operation db = some after) : after.Contiguous := by
  cases operation with
  | setLatestChainSeqno seqno =>
    obtain rfl := Option.some.inj applied
    unfold setLatestChainSeqno
    split <;> exact contiguous
  | handleReorg fromBlock =>
    obtain rfl := Option.some.inj applied
    exact handleReorg_contiguous contiguous ordered
  | commitBlock block => exact commitBlock_contiguous contiguous ordered applied
  | markBlocksConfirmed upToBlock =>
    obtain rfl := Option.some.inj applied
    have kept (blockNumber : Nat) :
        (db.markBlocksConfirmed upToBlock).Stores blockNumber ↔ db.Stores blockNumber := by
      unfold markBlocksConfirmed Stores
      simp only [List.mem_map]
      constructor
      · rintro ⟨-,⟨block,member,rfl⟩,rfl⟩
        exact ⟨block,member,by split <;> rfl⟩
      · rintro ⟨block,member,rfl⟩
        exact ⟨_,⟨block,member,rfl⟩,by split <;> rfl⟩
    simp only [Contiguous,blocks_nil,kept] at contiguous ⊢
    exact contiguous

end Contiguity
end Database

section Overlap

/-- A service without contracts, one block behind the head. -/
def reorgOnly : Service where
  codec := .friendly
  cells := ⟨fun _ => none,fun _ => none⟩
  engine := ⟨.newest,.newest⟩
  paymentHub := []
  merchantPaymentHub := []
  transparencyRegistry := []
  nftCollections := []
  startBlock := 0
  batchSize := 10
  batchSize_positive := by decide
  confirmationBlocks := 1

/-- One chain as the API reports it, without transactions. -/
def chainAnswer (head : Nat) (hash : Nat → JsString) : (request : Request) → Answer request
  | .getMasterchainInfo => .ok head
  | .lookupBlock seqno => .ok ⟨-1,js "-9223372036854775808",seqno,hash seqno⟩
  | .getBlockHeader _ _ seqno => .ok ⟨hash seqno,hash (seqno - 1),0⟩
  | .shards _ => .ok []
  | .getBlockTransactions _ _ => .ok ⟨false,[]⟩
  | .getTransactions _ _ _ => .ok []

/-- The hashes of a chain that forks at a height. -/
def forkHash (fork : Nat) (seqno : Nat) : JsString :=
  natDigits seqno ++ [if seqno < fork then 97 else 98]

/-- What a poll is told of one chain by some answers in a row. -/
def answered (place count head : Nat) (hash : Nat → JsString) : List (Event Request Answer) :=
  List.replicate count (.resume place (chainAnswer head hash))

/-- The first poll indexes the blocks 1 to 3 of a chain of 4. -/
def firstPoll : List (Event Request Answer) := answered 0 7 4 (forkHash 9) ++ [.start]

/-- A second poll waits for block 4 while a third one rolls block 3 back; the second then commits
block 4, and the third one fails. -/
def overlappingPolls : List (Event Request Answer) :=
  [.resume 2 fun request => match request with
    | .lookupBlock _ => .failed
    | request => chainAnswer 5 (forkHash 3) request] ++
  answered 1 2 5 (forkHash 3) ++ (answered 2 3 5 (forkHash 3) ++ [.start]) ++
  (answered 1 3 5 (forkHash 9) ++ [.start]) ++ firstPoll

theorem overlapping_skip : ¬(world (apply reorgOnly.codec reorgOnly.engine)
    reorgOnly.syncBlocks Database.empty overlappingPolls).store.Contiguous := by
  have rows : (world (apply reorgOnly.codec reorgOnly.engine) reorgOnly.syncBlocks
      Database.empty overlappingPolls).store.blocks.map (·.blockNumber) = [1,2,4] := by
    decide +kernel
  have cursor : (world (apply reorgOnly.codec reorgOnly.engine) reorgOnly.syncBlocks
      Database.empty overlappingPolls).store.latestBlockIndexed = 4 := by
    decide +kernel
  generalize (world (apply reorgOnly.codec reorgOnly.engine) reorgOnly.syncBlocks
    Database.empty overlappingPolls).store = db at rows cursor
  have stores (blockNumber : Nat) : db.Stores blockNumber ↔ blockNumber ∈ [1,2,4] := by
    rw [← rows,List.mem_map]
    rfl
  rintro (⟨empty,-⟩ | ⟨first,-,range⟩)
  · simp [empty] at rows
  · have low := (range 2).mp ((stores 2).mpr (by decide))
    have gap := (stores 3).mp ((range 3).mpr (by omega))
    simp at gap

end Overlap
end Tonbankcard.Indexer
