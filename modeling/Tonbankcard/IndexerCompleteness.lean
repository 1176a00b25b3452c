import Tonbankcard.IndexerPolls
import Tonbankcard.IndexerTables

/-! Whether a committed block has all its events. The shard blocks, pages and transactions that a
block needs are fetched by calls whose failures the service turns into empty answers, so the
events are complete as long as none of these calls fails and no tracked transaction lies beyond the
last page that is asked for. -/
namespace Tonbankcard.Indexer

open EcmaScript Await

section Storing
variable {codec : AddressCodec} (expected : Nat → List PendingEvent)

/-- A table that has every event of every stored block, and no others. -/
structure EventTable.Kept (t : EventTable Content) (codec : AddressCodec) (db : Database) :
    Prop where
  unique : t.conflict.Unique (t.table db)
  sourced : ∀ row ∈ t.table db, ∃ pending ∈ expected row.blockNumber,
    t.row codec row.blockNumber row.timestamp pending = some row
  complete : ∀ blockNumber, db.Stores blockNumber → ∀ pending ∈ expected blockNumber,
    ∀ timestamp row, t.row codec blockNumber timestamp pending = some row →
      t.conflict.Covers row (t.table db)

/-- A key stands for one event. -/
def Consistent : Prop :=
  ∀ blockNumber other, ∀ pending ∈ expected blockNumber, ∀ pending' ∈ expected other,
    pending.txHash = pending'.txHash → pending.logIndex = pending'.logIndex →
      pending.event = pending'.event

variable {expected} {t : EventTable Content}

/-- Rows from events that a key stands for have the content of their key. -/
theorem Consistent.agree (consistent : Consistent expected) {stored row : Row Content}
    (source : ∃ pending ∈ expected stored.blockNumber,
      t.row codec stored.blockNumber stored.timestamp pending = some stored)
    (source' : ∃ pending ∈ expected row.blockNumber,
      t.row codec row.blockNumber row.timestamp pending = some row)
    (same : row.sameKey stored = true) : stored.content = row.content := by
  obtain ⟨pending,member,found⟩ := source
  obtain ⟨pending',member',found'⟩ := source'
  obtain ⟨content,-,key,index,-⟩ := t.row_eq found
  obtain ⟨content',-,key',index',-⟩ := t.row_eq found'
  obtain ⟨keys,indices⟩ := Row.sameKey_iff.mp same
  have events := consistent _ _ pending member pending' member'
    (key.symm.trans (keys.symm.trans key')) (index.symm.trans (indices.symm.trans index'))
  rw [events,content'] at content
  exact (Option.some.inj content).symm

/-- Inserts of sourced rows keep what a table covers and add theirs. -/
theorem insertAll_kept (consistent : Consistent expected) {rows table after : Table Content}
    (unique : t.conflict.Unique table)
    (sourced : ∀ row ∈ table, ∃ pending ∈ expected row.blockNumber,
      t.row codec row.blockNumber row.timestamp pending = some row)
    (new : ∀ row ∈ rows, ∃ pending ∈ expected row.blockNumber,
      t.row codec row.blockNumber row.timestamp pending = some row)
    (inserted : t.insertAll rows table = some after) :
    t.conflict.Unique after ∧
    (∀ row ∈ after, ∃ pending ∈ expected row.blockNumber,
      t.row codec row.blockNumber row.timestamp pending = some row) ∧
    (∀ row, t.conflict.Covers row table ∨ row ∈ rows → t.conflict.Covers row after) := by
  induction rows generalizing table with
  | nil =>
    obtain rfl := Option.some.inj inserted
    exact ⟨unique,sourced,fun row held => held.resolve_right (List.not_mem_nil)⟩
  | cons row rest ih =>
    obtain ⟨middle,first,later⟩ := Option.bind_eq_some_iff.mp inserted
    obtain ⟨rowSource,newer⟩ := List.forall_mem_cons.mp new
    have took := t.conflict.insert_took unique
      (fun stored member same => consistent.agree (sourced stored member) rowSource same) first
    have source : ∀ stored ∈ middle, ∃ pending ∈ expected stored.blockNumber,
        t.row codec stored.blockNumber stored.timestamp pending = some stored := by
      intro stored member
      rcases took.source stored member with old | rfl
      · exact sourced stored old
      · exact rowSource
    obtain ⟨unique',sourced',covers⟩ := ih took.unique source newer later
    refine ⟨unique',sourced',fun other held => covers other ?_⟩
    rcases held with before | inside
    · exact .inl (took.keeps other before)
    · rcases List.mem_cons.mp inside with rfl | inside
      · exact .inl took.covers
      · exact .inr inside

/-- The commit of a block with its events, where no other height has its hash. -/
theorem EventTable.Kept.commit {db after : Database} {block : IndexedBlock}
    (kept : t.Kept expected codec db) (consistent : Consistent expected)
    (unique : ∀ other ∈ db.blocks, other.blockHash = block.blockHash →
      other.blockNumber = block.blockNumber)
    (events : block.events = expected block.blockNumber)
    (committed : db.commitBlock codec block = some after) : t.Kept expected codec after := by
  have filled := commitBlock_table t committed
  have left (row : Row Content) (member : row ∈ t.table db)
      (apart : row.blockNumber ≠ block.blockNumber) : row ∈ db.cascade (fun other =>
        other.blockNumber = block.blockNumber || other.blockHash = block.blockHash)
          (t.table db) := by
    refine List.mem_filter.mpr ⟨member,?_⟩
    simp only [Bool.not_eq_true',List.any_eq_false,Bool.and_eq_true,decide_eq_true_eq,
      Bool.or_eq_true,not_and,not_or]
    intro other inside number
    exact ⟨fun same => apart (number.symm.trans same),
      fun same => apart (number.symm.trans (unique other inside same))⟩
  have fewer : (db.cascade (fun other => other.blockNumber = block.blockNumber ||
      other.blockHash = block.blockHash) (t.table db)).Sublist (t.table db) :=
    List.filter_sublist
  have new : ∀ row ∈ t.rows codec block, ∃ pending ∈ expected row.blockNumber,
      t.row codec row.blockNumber row.timestamp pending = some row := by
    intro row member
    obtain ⟨pending,inside,found⟩ := List.mem_filterMap.mp member
    obtain ⟨-,number,-,-,time⟩ := t.row_eq found
    rw [number,time]
    exact ⟨pending,events ▸ inside,found⟩
  obtain ⟨unique',sourced,covers⟩ := insertAll_kept consistent (kept.unique.sublist fewer)
    (fun row member => kept.sourced row (fewer.subset member)) new filled
  refine ⟨unique',sourced,fun blockNumber stored pending member timestamp row found => ?_⟩
  -- the block's own events are inserted, up to the time they are asked for
  have own (pending : PendingEvent) (member : pending ∈ expected block.blockNumber)
      (timestamp : Nat) (row : Row Content)
      (found : t.row codec block.blockNumber timestamp pending = some row) :
      t.conflict.Covers row (t.table after) := by
    obtain ⟨content,taken,rfl⟩ := Option.map_eq_some_iff.mp found
    have inside : Database.Place.row ⟨block.blockNumber,pending.txHash,pending.logIndex,
        block.timestamp⟩ content ∈ t.rows codec block :=
      List.mem_filterMap.mpr ⟨pending,events ▸ member,Option.map_eq_some_iff.mpr ⟨_,taken,rfl⟩⟩
    obtain ⟨stored,there,by_⟩ := covers _ (.inr inside)
    exact ⟨stored,there,by_.trans (Conflict.By.timeless
      (Database.Place.row ⟨block.blockNumber,pending.txHash,pending.logIndex,timestamp⟩ content)
      block.timestamp).1⟩
  by_cases same : blockNumber = block.blockNumber
  · subst same
    exact own pending member timestamp row found
  · have before := ((Database.commitBlock_stores committed unique).mp stored).resolve_right same
    obtain ⟨standIn,there,by_⟩ := kept.complete blockNumber before pending member timestamp row found
    by_cases reverted : standIn.blockNumber = block.blockNumber
    · -- a stand-in from an earlier commit of this block is inserted again
      obtain ⟨source,listed,sourceRow⟩ := kept.sourced standIn there
      rw [reverted] at listed sourceRow
      obtain ⟨stored,inside,again⟩ := own source listed standIn.timestamp standIn sourceRow
      exact ⟨stored,inside,again.trans by_⟩
    · exact covers row (.inl ⟨standIn,left standIn there reverted,by_⟩)

theorem EventTable.Kept.empty : t.Kept expected codec .empty := by
  refine ⟨?_,?_,?_⟩
  · rw [t.empty]
    cases t.conflict with
    | ignore => trivial
    | update period => exact List.nodup_nil
  · rw [t.empty]
    nofun
  · rintro blockNumber ⟨block,member,-⟩
    contradiction

/-- What leaves the tables alone and stores no new height. -/
theorem EventTable.Kept.frame {db after : Database} (kept : t.Kept expected codec db)
    (table : t.table after = t.table db)
    (stores : ∀ blockNumber, after.Stores blockNumber → db.Stores blockNumber) :
    t.Kept expected codec after := by
  refine ⟨?_,?_,?_⟩
  · rw [table]
    exact kept.unique
  · rw [table]
    exact kept.sourced
  · intro blockNumber stored
    rw [table]
    exact kept.complete blockNumber (stores blockNumber stored)

end Storing

/-- A chain of masterchain blocks as the API can tell it: the shard blocks that are listed for each,
their transactions in order with a cursor each, and the bodies of these by their hashes, which a
body may leave out. A transaction runs on the account that its inbound message is for. -/
structure Ledger (codec : AddressCodec) where
  hash : Nat → JsString
  shards : Nat → List ShardBlock
  transactions : ShardBlock → List Descriptor
  body : JsString → Transaction
  hash_injective : Function.Injective hash
  cursors : ∀ shard, ((transactions shard).map fun descriptor =>
    (descriptor.lt,descriptor.hash)).Nodup
  filled : ∀ shard, ∀ descriptor ∈ transactions shard, descriptor.lt ≠ [] ∧ descriptor.hash ≠ []
  hashes : ∀ shard, ∀ descriptor ∈ transactions shard,
    (body descriptor.hash).transactionIdHash = descriptor.hash ∨
      (body descriptor.hash).transactionIdHash = []
  destinations : ∀ shard, ∀ descriptor ∈ transactions shard,
    codec.parse (Service.getTransactionDestination (body descriptor.hash)) =
      codec.parse descriptor.account

namespace Ledger
variable {codec : AddressCodec} (ledger : Ledger codec)

/-- The transactions behind a cursor. -/
def behind (shard : ShardBlock) : Option Cursor → List Descriptor
  | none => ledger.transactions shard
  | some cursor => ((ledger.transactions shard).dropWhile fun descriptor =>
      !(descriptor.lt = cursor.afterLt && descriptor.hash = cursor.afterHash)).tail

def page (shard : ShardBlock) (after : Option Cursor) : Page :=
  { incomplete := Service.BLOCK_TX_PAGE_SIZE < (ledger.behind shard after).length
    transactions := (ledger.behind shard after).take Service.BLOCK_TX_PAGE_SIZE }

/-- A call may fail; what it returns is of the ledger. -/
def Truthful : (request : Request) → Answer request → Prop
  | .getMasterchainInfo, _ => True
  | .lookupBlock seqno, answer => ∀ blockId : BlockId, answer = .ok blockId →
      blockId.seqno = seqno ∧ blockId.rootHash = ledger.hash seqno
  | .getBlockHeader _ _ seqno, answer => ∀ header : BlockHeader, answer = .ok header →
      header.rootHash = ledger.hash seqno ∨ header.rootHash = []
  | .shards seqno, answer => ∀ shards, answer = .ok shards → shards = ledger.shards seqno
  | .getBlockTransactions shard after, answer => ∀ page, answer = .ok page →
      page = ledger.page shard after
  | .getTransactions _ _ hash, answer => ∀ transactions, answer = .ok transactions →
      transactions = [ledger.body hash]

end Ledger

/-- A call that threw or came back without a result. -/
def Failed : (request : Request) → Answer request → Prop
  | .getMasterchainInfo, answer => answer.result = none
  | .lookupBlock _, answer => answer.result = none
  | .getBlockHeader _ _ _, answer => answer.result = none
  | .shards _, answer => answer.result = none
  | .getBlockTransactions _ _, answer => answer.result = none
  | .getTransactions _ _ _, answer => answer.result = none

/-- No call for the contents of a block fails. -/
def Reliable (request : Request) (answer : Answer request) : Prop :=
  request.fetches = true → ¬Failed request answer

section Events
variable (service : Service) (ledger : Ledger service.codec)

def Ledger.tracked (shard : ShardBlock) : List Descriptor :=
  (ledger.transactions shard).filter fun descriptor =>
    (service.configAddress descriptor.account).isSome

/-- The events of a transaction, numbered from zero. -/
def Ledger.transactionEvents (descriptor : Descriptor) : List PendingEvent :=
  let body := ledger.body descriptor.hash
  (parseTransaction service.codec service.cells body
    (Service.getTransactionDestination body)).mapIdx
      fun logIndex event => ⟨event,descriptor.hash,logIndex⟩

/-- The events of every tracked transaction in the shard blocks of a masterchain block. -/
def Ledger.events (blockNumber : Nat) : List PendingEvent :=
  (ledger.shards blockNumber).flatMap fun shard =>
    (ledger.tracked service shard).flatMap (ledger.transactionEvents service)

/-- No tracked transaction is behind the last page that is asked for. -/
def Ledger.Paged : Prop :=
  ∀ blockNumber, ∀ shard ∈ ledger.shards blockNumber,
    ∀ descriptor ∈ (ledger.transactions shard).drop
      (Service.BLOCK_TX_PAGE_SIZE * Service.MAX_BLOCK_TX_PAGES),
    service.configAddress descriptor.account = none

theorem Ledger.events_consistent : Consistent (ledger.events service) := by
  have source {blockNumber : Nat} {pending : PendingEvent}
      (member : pending ∈ ledger.events service blockNumber) :
      (parseTransaction service.codec service.cells (ledger.body pending.txHash)
        (Service.getTransactionDestination (ledger.body pending.txHash)))[pending.logIndex]? =
          some pending.event := by
    obtain ⟨shard,-,inside⟩ := List.mem_flatMap.mp member
    obtain ⟨descriptor,-,inside⟩ := List.mem_flatMap.mp inside
    obtain ⟨index,bound,rfl⟩ := List.mem_mapIdx.mp inside
    exact List.getElem?_eq_getElem bound
  intro blockNumber other pending member pending' member' key index
  have first := source member
  rw [key,index,source member'] at first
  exact (Option.some.inj first).symm

end Events

section Fetching
variable {service : Service} {ledger : Ledger service.codec} {inv : Database → Prop}
  {good : Operation → Prop}

/-- The answers under which nothing is dropped. -/
def Ledger.Tells {codec : AddressCodec} (ledger : Ledger codec) (request : Request)
    (answer : Answer request) : Prop :=
  ledger.Truthful request answer ∧ Reliable request answer

theorem getBlockByNumber_careful (blockNumber : Nat) :
    Careful ledger.Tells inv good (fun block => block.rootHash = ledger.hash blockNumber)
      (Service.getBlockByNumber blockNumber) := by
  refine Careful.bind (P := fun answer => ledger.Truthful (.lookupBlock blockNumber) answer)
    (fun answer given => given.1) fun answer looked => ?_
  cases answer with
  | ok blockId =>
    obtain ⟨rfl,root⟩ := looked blockId rfl
    refine Careful.bind (P := fun answer => ledger.Truthful
      (.getBlockHeader blockId.workchain blockId.shard blockId.seqno) answer)
      (fun answer given => given.1) fun answer headed => ?_
    cases answer with
    | ok header =>
      change (if header.rootHash.isEmpty then blockId.rootHash else header.rootHash) = _
      rcases headed header rfl with same | missing
      · split <;> assumption
      · simp [missing,root]
    | _ => trivial
  | _ => trivial

theorem getBlockShards_careful (blockNumber : Nat) :
    Careful ledger.Tells inv good (fun shards => shards = ledger.shards blockNumber)
      (Service.getBlockShards blockNumber) := by
  refine Careful.bind (P := fun answer => ledger.Tells (.shards blockNumber) answer)
    (fun answer given => given) fun answer given => ?_
  cases answer with
  | ok shards => exact given.1 shards rfl
  | _ => exact absurd rfl (given.2 rfl)

theorem dropWhile_key {α β : Type} [DecidableEq β] {key : α → β} {l : List α}
    (nodup : (l.map key).Nodup) (index : Nat) (bound : index < l.length) :
    (l.dropWhile fun other => !decide (key other = key l[index])).tail = l.drop (index + 1) := by
  induction l generalizing index with
  | nil => contradiction
  | cons first rest ih =>
    obtain ⟨fresh,nodup⟩ := List.nodup_cons.mp nodup
    cases index with
    | zero => simp
    | succ index =>
      have bound : index < rest.length := by simpa using bound
      have apart : key first ≠ key rest[index] := fun same =>
        fresh (same ▸ List.mem_map_of_mem (List.getElem_mem bound))
      simp only [List.getElem_cons_succ,List.drop_succ_cons]
      rw [List.dropWhile_cons_of_pos (by simp [apart])]
      exact ih nodup index bound

/-- The cursor of a full page leads to what is behind the page. -/
theorem Ledger.behind_next (shard : ShardBlock) (position : Nat)
    (more : Service.BLOCK_TX_PAGE_SIZE < ((ledger.transactions shard).drop position).length) :
    ledger.behind shard (Service.nextCursor
      (((ledger.transactions shard).drop position).take Service.BLOCK_TX_PAGE_SIZE)) =
        (ledger.transactions shard).drop (position + Service.BLOCK_TX_PAGE_SIZE) := by
  have size : Service.BLOCK_TX_PAGE_SIZE = 255 + 1 := rfl
  rw [List.length_drop,size] at more
  have bound : position + 255 < (ledger.transactions shard).length := by omega
  have last : (((ledger.transactions shard).drop position).take
      Service.BLOCK_TX_PAGE_SIZE).getLast? = some (ledger.transactions shard)[position + 255] := by
    rw [size,List.getLast?_take,if_neg (by omega),List.getElem?_drop]
    simp [bound]
  obtain ⟨lt,hash⟩ := ledger.filled shard _ (List.getElem_mem bound)
  have nodup := ledger.cursors shard
  have found := dropWhile_key nodup (position + 255) bound
  unfold Service.nextCursor
  rw [last,Option.bind_some,if_neg (by simp [lt,hash]),size]
  unfold Ledger.behind
  simp only [Prod.mk.injEq,Bool.decide_and] at found
  exact found

theorem descriptorPages_careful (shard : ShardBlock) (pages position : Nat)
    (after : Option Cursor)
    (behind : ledger.behind shard after = (ledger.transactions shard).drop position) :
    Careful ledger.Tells inv good (fun descriptors => descriptors =
        ((ledger.transactions shard).drop position).take (Service.BLOCK_TX_PAGE_SIZE * pages))
      (Service.descriptorPages shard pages after) := by
  induction pages generalizing position after with
  | zero => exact (List.take_zero ..).symm
  | succ pages ih =>
    refine Careful.bind (P := fun answer => ledger.Tells (.getBlockTransactions shard after)
      answer) (fun answer given => given) fun answer given => ?_
    cases answer with
    | ok page =>
      obtain rfl := given.1 page rfl
      simp only [Ledger.page,behind]
      rw [Nat.mul_succ]
      split
      · rename_i stop
        simp only [Bool.or_eq_true,Bool.not_eq_true',decide_eq_false_iff_not,
          List.isEmpty_iff,List.take_eq_nil_iff] at stop
        have short : ((ledger.transactions shard).drop position).length ≤
            Service.BLOCK_TX_PAGE_SIZE := by
          rcases stop with small | none | empty
          · exact Nat.le_of_not_lt small
          · contradiction
          · simp [empty]
        change List.take _ _ = _
        rw [List.take_of_length_le short,List.take_of_length_le (by omega)]
      · rename_i full
        simp only [Bool.or_eq_true,Bool.not_eq_true',decide_eq_false_iff_not,not_or,
          Decidable.not_not] at full
        refine (ih (position + Service.BLOCK_TX_PAGE_SIZE) _
          (Ledger.behind_next shard position full.1)).bind ?_
        rintro more rfl
        change List.take _ _ ++ _ = _
        rw [Nat.add_comm (_ * pages),List.take_add,List.drop_drop]
    | _ => exact absurd rfl (given.2 rfl)

/-- The body of a descriptor under its hash. -/
def Ledger.fetched {codec : AddressCodec} (ledger : Ledger codec) (descriptor : Descriptor) :
    FetchedTransaction :=
  ⟨ledger.body descriptor.hash,descriptor.hash⟩

theorem fetchTracked_careful (shard : ShardBlock) (descriptors : List Descriptor)
    (listed : ∀ descriptor ∈ descriptors, descriptor ∈ ledger.transactions shard) :
    Careful ledger.Tells inv good (fun transactions => transactions =
        (descriptors.filter fun descriptor =>
          (service.configAddress descriptor.account).isSome).map ledger.fetched)
      (service.fetchTracked descriptors) := by
  induction descriptors with
  | nil => exact rfl
  | cons descriptor rest ih =>
    obtain ⟨first,others⟩ := List.forall_mem_cons.mp listed
    unfold Service.fetchTracked
    split
    · rename_i untracked
      rw [List.filter_cons_of_neg (by simp [untracked])]
      exact ih others
    · rename_i address tracked
      rw [List.filter_cons_of_pos (by simp [tracked])]
      refine Careful.bind (P := fun transaction =>
        transaction = some (ledger.body descriptor.hash)) ?_ ?_
      · refine Careful.bind (P := fun answer => ledger.Tells
          (.getTransactions address descriptor.lt descriptor.hash) answer)
          (fun answer given => given) fun answer given => ?_
        cases answer with
        | ok transactions =>
          obtain rfl := given.1 transactions rfl
          exact rfl
        | _ => exact absurd rfl (given.2 rfl)
      · rintro - rfl
        refine (ih others).bind ?_
        rintro - rfl
        change Service.fetched descriptor (ledger.body descriptor.hash) :: _ = _
        have hash : Service.fetched descriptor (ledger.body descriptor.hash) =
            ledger.fetched descriptor := by
          unfold Service.fetched Ledger.fetched
          rcases ledger.hashes shard descriptor first with same | missing
          · split <;> simp_all
          · simp [missing]
        rw [hash,List.map_cons]
        rfl

/-- A tracked account is relevant under the address its messages have. -/
theorem relevant {descriptor : Descriptor}
    (tracked : (service.configAddress descriptor.account).isSome)
    (destination : service.codec.parse (Service.getTransactionDestination transaction) =
      service.codec.parse descriptor.account) :
    service.normalizeAddress (Service.getTransactionDestination transaction) ∈
      service.trackedAddresses.map service.normalizeAddress := by
  obtain ⟨address,found⟩ := Option.isSome_iff_exists.mp tracked
  obtain ⟨raw,account,found⟩ := Option.bind_eq_some_iff.mp found
  have member := List.mem_reverse.mp (List.mem_of_find?_eq_some found)
  have same := List.find?_some found
  simp only [decide_eq_true_eq] at same
  obtain ⟨parsed,parses,rfl⟩ := Option.map_eq_some_iff.mp account
  obtain ⟨parsed',parses',raws⟩ := Option.map_eq_some_iff.mp same
  obtain rfl := service.codec.raw_injective raws
  have filled (text : JsString) (parses : service.codec.parse text = some parsed') :
      normalizeTonAddress service.codec text = service.codec.text parsed' := by
    have filled : text.isEmpty = false := by
      cases text with
      | nil => simp [service.codec.parse_empty] at parses
      | cons => rfl
    rw [normalizeTonAddress,filled,parses]
    rfl
  refine List.mem_map.mpr ⟨address,member,?_⟩
  exact (filled _ parses').trans (filled _ (destination.trans parses)).symm

theorem collected (shard : ShardBlock) {descriptors : List Descriptor}
    (tracked : ∀ descriptor ∈ descriptors, descriptor ∈ ledger.tracked service shard) :
    service.collectBlockEvents (descriptors.map ledger.fetched) =
      descriptors.flatMap (ledger.transactionEvents service) := by
  unfold Service.collectBlockEvents
  rw [List.flatMap_map]
  refine List.flatMap_congr fun descriptor member => ?_
  obtain ⟨listed,isTracked⟩ := List.mem_filter.mp (tracked descriptor member)
  exact if_neg (not_not.mpr (relevant isTracked (ledger.destinations shard descriptor listed)))

variable (paged : ledger.Paged service)

include paged

theorem fetchShards_careful {shards : List ShardBlock}
    (listed : ∀ shard ∈ shards, shard ∈ ledger.shards blockNumber) :
    Careful ledger.Tells inv good (fun transactions =>
        service.collectBlockEvents transactions = shards.flatMap fun shard =>
          (ledger.tracked service shard).flatMap (ledger.transactionEvents service))
      (service.fetchShards shards) := by
  induction shards with
  | nil => exact rfl
  | cons shard rest ih =>
    obtain ⟨first,others⟩ := List.forall_mem_cons.mp listed
    refine (descriptorPages_careful shard _ 0 none rfl).bind ?_
    rintro - rfl
    refine (fetchTracked_careful shard _ fun descriptor member =>
      List.mem_of_mem_drop (List.mem_of_mem_take member)).bind ?_
    rintro - rfl
    refine (ih others).bind fun more collectedMore => ?_
    change service.collectBlockEvents _ = _
    have all : (((ledger.transactions shard).drop 0).take
        (Service.BLOCK_TX_PAGE_SIZE * Service.MAX_BLOCK_TX_PAGES)).filter (fun descriptor =>
          (service.configAddress descriptor.account).isSome) = ledger.tracked service shard := by
      have rest : ((ledger.transactions shard).drop
          (Service.BLOCK_TX_PAGE_SIZE * Service.MAX_BLOCK_TX_PAGES)).filter (fun descriptor =>
            (service.configAddress descriptor.account).isSome) = [] :=
        List.filter_eq_nil_iff.mpr fun descriptor member => by
          simp [paged blockNumber shard first descriptor member]
      rw [List.drop_zero,Ledger.tracked]
      conv_rhs => rw [← List.take_append_drop
        (Service.BLOCK_TX_PAGE_SIZE * Service.MAX_BLOCK_TX_PAGES) (ledger.transactions shard)]
      rw [List.filter_append,rest,List.append_nil]
    rw [all]
    unfold Service.collectBlockEvents at collectedMore ⊢
    rw [List.flatMap_append,collectedMore,List.flatMap_cons]
    exact congrArg (· ++ _) (collected shard fun _ => id)

theorem fetchBlockTransactions_careful (blockNumber : Nat) :
    Careful ledger.Tells inv good (fun transactions =>
        service.collectBlockEvents transactions = ledger.events service blockNumber)
      (service.fetchBlockTransactions blockNumber) := by
  unfold Service.fetchBlockTransactions
  split
  · rename_i untracked
    have none (account : JsString) : service.configAddress account = none := by
      unfold Service.configAddress
      rw [List.isEmpty_iff.mp untracked]
      cases service.toRawAddress account <;> rfl
    refine Eq.symm (List.flatMap_eq_nil_iff.mpr fun shard _ => ?_)
    refine List.flatMap_eq_nil_iff.mpr fun descriptor member => ?_
    simp [Ledger.tracked,none] at member
  · refine (getBlockShards_careful blockNumber).bind ?_
    rintro - rfl
    exact fetchShards_careful paged fun _ => id

end Fetching

section Indexing
variable (service : Service) (ledger : Ledger service.codec)

/-- Every event of the tracked transactions of a stored block is in its table, or has made way for
a newer one of its period. -/
def Ledger.Complete (db : Database) : Prop :=
  ∀ blockNumber, db.Stores blockNumber → ∀ pending ∈ ledger.events service blockNumber,
    ∀ {Content : Type} (t : EventTable Content) timestamp row,
      t.row service.codec blockNumber timestamp pending = some row →
        t.conflict.Covers row (t.table db)

/-- Rows with the hashes of a ledger and the events of its blocks. -/
structure Ledger.Indexed (db : Database) : Prop where
  hashes : ∀ block ∈ db.blocks, block.blockHash = ledger.hash block.blockNumber
  kept : ∀ {Content : Type} (t : EventTable Content),
    t.Kept (ledger.events service) service.codec db

/-- The writes of polls on a chain without reorgs. -/
def Ledger.Writes : Operation → Prop
  | .commitBlock block => block.blockHash = ledger.hash block.blockNumber ∧
      block.events = ledger.events service block.blockNumber
  | .handleReorg _ => False
  | _ => True

variable {service} {ledger}

theorem Ledger.Indexed.empty : ledger.Indexed service .empty := ⟨nofun,fun _ => .empty⟩

theorem Ledger.Indexed.unique {db : Database} (indexed : ledger.Indexed service db)
    {block : IndexedBlock} (hash : block.blockHash = ledger.hash block.blockNumber) :
    ∀ other ∈ db.blocks, other.blockHash = block.blockHash →
      other.blockNumber = block.blockNumber :=
  fun other member same =>
    ledger.hash_injective ((indexed.hashes other member).symm.trans (same.trans hash))

/-- The step lemma: such a write keeps the database indexed. -/
theorem Ledger.Indexed.apply {db after : Database} {operation : Operation}
    (writes : ledger.Writes service operation) (indexed : ledger.Indexed service db)
    (applied : Indexer.apply service.codec service.engine operation db = some after) :
    ledger.Indexed service after := by
  cases operation with
  | setLatestChainSeqno seqno =>
    obtain rfl := Option.some.inj applied
    have rows := db.setLatestChainSeqno_blocks seqno
    refine ⟨?_,fun t => (indexed.kept t).frame (setLatestChainSeqno_table t db seqno) ?_⟩
    · rw [rows]
      exact indexed.hashes
    · unfold Database.Stores
      rw [rows]
      exact fun _ => id
  | handleReorg fromBlock => exact writes.elim
  | commitBlock block =>
    obtain ⟨hash,events⟩ := writes
    have unique := indexed.unique hash
    refine ⟨?_,fun t => (indexed.kept t).commit (ledger.events_consistent service) unique events
      applied⟩
    rw [(Database.commitBlock_chain applied).1]
    intro row member
    rcases List.mem_append.mp member with old | new
    · exact indexed.hashes row (List.mem_filter.mp old).1
    · exact List.mem_singleton.mp new ▸ hash
  | markBlocksConfirmed upToBlock =>
    obtain rfl := Option.some.inj applied
    have source : ∀ block ∈ (db.markBlocksConfirmed upToBlock).blocks, ∃ old ∈ db.blocks,
        block.blockNumber = old.blockNumber ∧ block.blockHash = old.blockHash := by
      intro block member
      obtain ⟨old,stored,rfl⟩ := List.mem_map.mp member
      exact ⟨old,stored,by split <;> exact ⟨rfl,rfl⟩⟩
    refine ⟨fun block member => ?_,fun t => (indexed.kept t).frame (t.blocks db _) ?_⟩
    · obtain ⟨old,stored,number,hash⟩ := source block member
      rw [number,hash]
      exact indexed.hashes old stored
    · rintro blockNumber ⟨block,member,rfl⟩
      obtain ⟨old,stored,number,-⟩ := source block member
      exact ⟨old,stored,number.symm⟩

theorem detect_careful (blockNumber : Nat) :
    Careful ledger.Tells (ledger.Indexed service) (ledger.Writes service)
      (fun reorg => reorg = false) (Service.detectAndHandleReorg blockNumber) := by
  refine Careful.bind (P := fun stored : Option BlockRow => ∀ block, stored = some block →
    block.blockHash = ledger.hash blockNumber) ?_ ?_
  · intro s indexed block found
    obtain ⟨member,rfl⟩ := Database.getBlock_some found
    exact indexed.hashes block member
  · intro stored known
    cases stored with
    | none => exact rfl
    | some block =>
      refine (getBlockByNumber_careful blockNumber).bind fun chainBlock root => ?_
      rw [if_neg (not_not.mpr ((known block rfl).trans root.symm))]
      exact rfl

theorem revalidate_careful (heights : List Nat) :
    Careful ledger.Tells (ledger.Indexed service) (ledger.Writes service) (fun _ => True)
      (Service.revalidate heights) := by
  induction heights with
  | nil => trivial
  | cons height rest ih =>
    refine (detect_careful height).bind ?_
    rintro - rfl
    exact ih

section Paged
variable (paged : ledger.Paged service)

include paged

theorem processBlock_careful (blockNumber : Nat) :
    Careful ledger.Tells (ledger.Indexed service) (ledger.Writes service) (fun _ => True)
      (service.processBlock blockNumber) := by
  refine (getBlockByNumber_careful blockNumber).bind fun block root => ?_
  refine (fetchBlockTransactions_careful paged blockNumber).bind fun transactions events => ?_
  exact ⟨⟨root,events⟩,trivial⟩

theorem syncRange_careful (heights : List Nat) :
    Careful ledger.Tells (ledger.Indexed service) (ledger.Writes service) (fun _ => True)
      (service.syncRange heights) := by
  induction heights with
  | nil => trivial
  | cons height rest ih =>
    refine (detect_careful height).bind ?_
    rintro - rfl
    exact (processBlock_careful paged height).bind fun _ _ => ih

theorem syncBatches_careful (endBlock : Nat) (starts : List Nat) :
    Careful ledger.Tells (ledger.Indexed service) (ledger.Writes service) (fun _ => True)
      (service.syncBatches endBlock starts) := by
  induction starts with
  | nil => trivial
  | cons start rest ih => exact (syncRange_careful paged _).bind fun _ _ => ih

theorem syncBlocks_careful :
    Careful ledger.Tells (ledger.Indexed service) (ledger.Writes service) (fun _ => True)
      service.syncBlocks := by
  refine Careful.bind (P := fun _ => True) (fun _ _ => trivial) fun latestIndexed _ => ?_
  refine Careful.bind (P := fun _ => True) (fun _ _ => trivial) fun latestBlock _ => ?_
  cases latestBlock with
  | none => trivial
  | some head =>
    refine Careful.bind (P := fun _ => True) ⟨trivial,trivial⟩ fun _ _ => ?_
    refine (revalidate_careful _).bind fun _ _ => ?_
    refine Careful.bind (P := fun _ => True) (fun _ _ => trivial) fun cursor _ => ?_
    simp only
    split
    · trivial
    · exact (syncBatches_careful paged _ _).bind fun _ _ => ⟨trivial,trivial⟩

end Paged

/-- A block that was found took two calls that did not fail. -/
theorem getBlockByNumber_calls {answers : Nat → (request : Request) → Answer request}
    (blockNumber : Nat) (db : Database) :
    let ran := run (Indexer.apply service.codec service.engine) answers
      (Service.getBlockByNumber blockNumber) 0 db
    ran.value ≠ none → ∀ call ∈ ran.calls, ¬Failed call.1 call.2 := by
  simp only [Service.getBlockByNumber,run_bind,Service.fetchTonApi,Task.request,run,
    List.length_singleton]
  cases looked : answers 0 (.lookupBlock blockNumber) with
  | ok blockId =>
    simp only [run_bind,run,List.length_singleton]
    cases headed : answers (0 + 1)
        (.getBlockHeader blockId.workchain blockId.shard blockId.seqno) with
    | ok header =>
      rintro - call member
      simp only [pure,run,List.append_nil,List.cons_append,List.nil_append,List.mem_cons,
        List.not_mem_nil,or_false] at member
      rcases member with rfl | rfl <;> simp [Failed,Response.result]
    | _ => exact fun filled => absurd rfl filled
  | _ => exact fun filled => absurd rfl filled

/-- A failed call of an attempt is one for the block itself, and ends it before its commit. -/
theorem attempt_refused {answers : Nat → (request : Request) → Answer request}
    (reliable : ∀ made request, Reliable request (answers made request)) (db : Database)
    (failed : ∃ call ∈ (run (Indexer.apply service.codec service.engine) answers
      (service.processBlock blockNumber) 0 db).calls, Failed call.1 call.2) :
    (run (Indexer.apply service.codec service.engine) answers
        (service.processBlock blockNumber) 0 db).value = none ∧
      (run (Indexer.apply service.codec service.engine) answers
        (service.processBlock blockNumber) 0 db).store = db := by
  have store : (run (Indexer.apply service.codec service.engine) answers
      (Service.getBlockByNumber blockNumber) 0 db).store = db :=
    (getBlockByNumber_silent blockNumber).run_store 0 db
  have found := @getBlockByNumber_calls service answers blockNumber db
  unfold Service.processBlock at failed ⊢
  rw [run_bind] at failed ⊢
  revert store found failed
  rcases run (Indexer.apply service.codec service.engine) answers
    (Service.getBlockByNumber blockNumber) 0 db with ⟨_ | block,after,calls⟩
  · exact fun _ store _ => ⟨rfl,store⟩
  · rintro ⟨call,member,failed⟩ - found
    rcases List.mem_append.mp member with first | later
    · exact absurd failed (found (Option.some_ne_none block) call first)
    · rw [run_bind] at later
      have fetches : ∀ call ∈ (run (Indexer.apply service.codec service.engine) answers
          (service.fetchBlockTransactions blockNumber) (0 + calls.length) after).calls, _ :=
        (fetchBlockTransactions_silent blockNumber).run_asked (0 + calls.length) after
      have answered : ∀ call ∈ (run (Indexer.apply service.codec service.engine) answers
          (service.fetchBlockTransactions blockNumber) (0 + calls.length) after).calls,
            ∃ asked, answers asked call.1 = call.2 := run_calls
      revert later fetches answered
      rcases run (Indexer.apply service.codec service.engine) answers
        (service.fetchBlockTransactions blockNumber) (0 + calls.length) after with
          ⟨_ | transactions,last,fetched⟩
      · intro later fetches answered
        obtain ⟨made,same⟩ := answered call later
        exact absurd failed (same ▸ reliable made call.1 (fetches call later))
      · intro later fetches answered
        rcases List.mem_append.mp later with later | none
        · obtain ⟨made,same⟩ := answered call later
          exact absurd failed (same ▸ reliable made call.1 (fetches call later))
        · simp only [Task.perform,run] at none
          split at none <;> contradiction

end Indexing

/-- Overlapping polls on a chain without reorgs, under answers of which none for the contents of a
block fails: every stored block has its events, and an attempt with a failed call leaves the
database as it is. -/
theorem events_complete (service : Service) (ledger : Ledger service.codec)
    (paged : ledger.Paged service) :
    (∀ events : List (Event Request Answer), (∀ event ∈ events, event.Allowed ledger.Tells) →
      ledger.Complete service (world (apply service.codec service.engine) service.syncBlocks
        Database.empty events).store) ∧
    ∀ (answers : Nat → (request : Request) → Answer request),
      (∀ made request, Reliable request (answers made request)) →
      ∀ (blockNumber : Nat) (db : Database),
        let ran := run (apply service.codec service.engine) answers
          (service.processBlock blockNumber) 0 db
        (∃ call ∈ ran.calls, Failed call.1 call.2) → ran.value = none ∧ ran.store = db := by
  refine ⟨fun events allowed => ?_,fun answers reliable blockNumber db =>
    attempt_refused reliable db⟩
  have indexed := (world_careful (syncBlocks_careful paged) Ledger.Indexed.empty
    (fun _ _ _ writes indexed applied => indexed.apply writes applied) allowed).1
  intro blockNumber stored pending member Content t timestamp row found
  exact (indexed.kept t).complete blockNumber stored pending member timestamp row found

section Records

/-- What a ledger answers when nothing fails. -/
def Ledger.answer {codec : AddressCodec} (ledger : Ledger codec) (head : Nat) :
    (request : Request) → Answer request
  | .getMasterchainInfo => .ok head
  | .lookupBlock seqno => .ok ⟨-1,js "-9223372036854775808",seqno,ledger.hash seqno⟩
  | .getBlockHeader _ _ seqno => .ok ⟨ledger.hash seqno,ledger.hash (seqno - 1),0⟩
  | .shards seqno => .ok (ledger.shards seqno)
  | .getBlockTransactions shard after => .ok (ledger.page shard after)
  | .getTransactions _ _ hash => .ok [ledger.body hash]

theorem Ledger.answer_tells {codec : AddressCodec} (ledger : Ledger codec) (head : Nat)
    (request : Request) : ledger.Tells request (ledger.answer head request) := by
  cases request with
  | getMasterchainInfo => exact ⟨trivial,nofun⟩
  | lookupBlock seqno => exact ⟨by rintro blockId ⟨⟩; exact ⟨rfl,rfl⟩,nofun⟩
  | getBlockHeader workchain shard seqno => exact ⟨by rintro header ⟨⟩; exact .inl rfl,nofun⟩
  | shards seqno => exact ⟨by rintro shards ⟨⟩; rfl,fun _ => nofun⟩
  | getBlockTransactions shard after => exact ⟨by rintro page ⟨⟩; rfl,fun _ => nofun⟩
  | getTransactions address lt hash => exact ⟨by rintro transactions ⟨⟩; rfl,fun _ => nofun⟩

def registry : JsString := Ton.Address.friendly ⟨0,1⟩

/-- `ProtocolMetricsRecorded` of a month, as a bag of cells. -/
def metricsBody : JsString := js "te6ccgEBAQEAGwAAMeQBEAFpVbkAaX6XgAAAAAdDuaygAAAAADg="

def metricsCell : Ton.Cell :=
  .ordinary (Ton.uintBits 32 0xe4011001 ++ Ton.uintBits 32 1767225600 ++
    Ton.uintBits 32 1769904000 ++ Ton.uintBits 32 7 ++ Ton.uintBits 4 4 ++
    Ton.uintBits 32 1000000000 ++ Ton.uintBits 32 3) []

/-- A service that follows the transparency registry, one block behind the head. -/
def metricsService : Service :=
  {reorgOnly with
    cells := ⟨fun body => if body = metricsBody then some metricsCell else none,fun _ => none⟩
    transparencyRegistry := registry}

def metricsDescriptor : Descriptor := ⟨registry,js "41000001",js "b8f1"⟩

/-- One transaction of the registry, in the shard block that is listed for block 1. -/
def metricsLedger : Ledger metricsService.codec where
  hash := forkHash 9
  shards seqno := [⟨0,js "-9223372036854775808",seqno⟩]
  transactions shard := if shard.seqno = 1 then [metricsDescriptor] else []
  body hash := ⟨hash,some ⟨none,some registry,none⟩,[⟨some registry,none,some metricsBody⟩]⟩
  hash_injective _ _ same := natDigits_injective (List.append_inj' same rfl).1
  cursors shard := by split <;> simp
  filled shard := by split <;> decide
  hashes _ _ _ := .inl rfl
  destinations shard := by
    split
    · intro descriptor member
      rw [List.mem_singleton.mp member]
      rfl
    · nofun

theorem metricsLedger_paged : metricsLedger.Paged metricsService := by
  intro blockNumber shard _ descriptor member
  have short : (metricsLedger.transactions shard).length ≤ 1 := by
    change (if shard.seqno = 1 then [metricsDescriptor] else []).length ≤ 1
    split <;> simp
  have behind : 1 ≤ Service.BLOCK_TX_PAGE_SIZE * Service.MAX_BLOCK_TX_PAGES := by decide
  rw [List.drop_eq_nil_of_le (short.trans behind)] at member
  contradiction

def metricsPoll (answers : (request : Request) → Answer request) :
    List (Event Request Answer) := List.replicate 6 (.resume 0 answers) ++ [.start]

theorem events_complete_metrics : metricsLedger.Complete metricsService
    (world (apply metricsService.codec metricsService.engine) metricsService.syncBlocks
      Database.empty (metricsPoll (metricsLedger.answer 2))).store := by
  refine (events_complete metricsService metricsLedger metricsLedger_paged).1 _ ?_
  intro event member
  rcases List.mem_append.mp member with answered | started
  · rw [List.eq_of_mem_replicate answered]
    exact metricsLedger.answer_tells 2
  · rw [List.mem_singleton.mp started]
    trivial

/-- The same poll, with its call for the shards failing. -/
def shardsFail : (request : Request) → Answer request
  | .shards _ => .failed
  | request => metricsLedger.answer 2 request

theorem shardsFail_skips :
    (∀ request, metricsLedger.Truthful request (shardsFail request)) ∧
    ¬metricsLedger.Complete metricsService
      (world (apply metricsService.codec metricsService.engine) metricsService.syncBlocks
        Database.empty (metricsPoll shardsFail)).store := by
  refine ⟨fun request => ?_,fun complete => ?_⟩
  · cases request with
    | shards seqno => nofun
    | _ => exact (metricsLedger.answer_tells 2 _).1
  · have stored : (world (apply metricsService.codec metricsService.engine)
        metricsService.syncBlocks Database.empty (metricsPoll shardsFail)).store.blocks.map
          (·.blockNumber) = [1] := by decide +kernel
    have missing : (world (apply metricsService.codec metricsService.engine)
        metricsService.syncBlocks Database.empty (metricsPoll shardsFail)).store.protocolMetrics =
          [] := by decide +kernel
    have listed : ⟨.transparencyProtocolMetrics 1767225600 1769904000 7 1000000000 3,js "b8f1",0⟩ ∈
        metricsLedger.events metricsService 1 := by
      decide +kernel
    generalize (world (apply metricsService.codec metricsService.engine)
      metricsService.syncBlocks Database.empty (metricsPoll shardsFail)).store = db at *
    have stores : db.Stores 1 := List.mem_map.mp (stored ▸ List.mem_singleton_self 1)
    obtain ⟨row,member,-⟩ := complete 1 stores _ listed protocolMetrics 0 _ rfl
    change row ∈ db.protocolMetrics at member
    rw [missing] at member
    exact List.not_mem_nil member

end Records
end Tonbankcard.Indexer
