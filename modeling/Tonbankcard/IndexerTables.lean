import Tonbankcard.IndexerContiguity

/-! The seven event tables of the indexer under one interface: which events a table takes, what
its insert does where it meets a unique key, and that it follows the block rows. -/
namespace Tonbankcard.Indexer

open EcmaScript

section Contents
variable (codec : AddressCodec)

def IndexedEvent.toInternalTransfer : IndexedEvent → Option InternalTransfer
  | .internalTransfer fromNft toNft amountTbc payloadHash =>
    some ⟨normalizeTonAddress codec fromNft,normalizeTonAddress codec toNft,natDigits amountTbc,
      payloadHash⟩
  | _ => none

def IndexedEvent.toMerchantPayment : IndexedEvent → Option MerchantPayment
  | .merchantPayment payerNft merchantNft amountTbc payloadHash =>
    some ⟨normalizeTonAddress codec payerNft,normalizeTonAddress codec merchantNft,
      natDigits amountTbc,payloadHash⟩
  | _ => none

def IndexedEvent.toAccountStateChange : IndexedEvent → Option AccountStateChange
  | .accountStateChanged nftAddress oldState newState =>
    some ⟨normalizeTonAddress codec nftAddress,oldState,newState⟩
  | _ => none

def IndexedEvent.toNftOwnershipChange : IndexedEvent → Option NftOwnershipChange
  | .nftOwnershipChange nftAddress collectionAddress oldOwner newOwner =>
    some ⟨normalizeTonAddress codec nftAddress,normalizeTonAddress codec collectionAddress,
      oldOwner.map (normalizeTonAddress codec),normalizeTonAddress codec newOwner⟩
  | _ => none

def IndexedEvent.toProtocolMetrics : IndexedEvent → Option ProtocolMetrics
  | .transparencyProtocolMetrics periodStart periodEnd activeAccounts tbcVolumeTransferred
      transferCount =>
    some ⟨periodStart,periodEnd,activeAccounts,natDigits tbcVolumeTransferred,transferCount⟩
  | _ => none

def IndexedEvent.toLockActivity : IndexedEvent → Option LockActivity
  | .transparencyLockActivity periodStart periodEnd locksSet locksCleared locksActive appealsFiled
      appealsOverturned appealsUpheld =>
    some ⟨periodStart,periodEnd,locksSet,locksCleared,locksActive,appealsFiled,appealsOverturned,
      appealsUpheld⟩
  | _ => none

def IndexedEvent.toParameterChange : IndexedEvent → Option ParameterChange
  | .transparencyParameterChange parameterId oldValueHash newValueHash effectiveBlock
      governanceProposalId =>
    some ⟨parameterId,oldValueHash,newValueHash,effectiveBlock,governanceProposalId⟩
  | _ => none

end Contents

/-- What an insert does where it meets a unique key. -/
inductive Conflict (Content : Type) where
  | ignore
  | update (period : Content → Nat × Nat)

def Conflict.insert : Conflict Content → Row Content → Table Content → Option (Table Content)
  | .ignore, row, table => some (insertOrIgnore row table)
  | .update period, row, table => upsert period row table

/-- The insert of an event that a table may take. -/
def Conflict.store (conflict : Conflict Content) (place : Database.Place)
    (content : Option Content) (table : Table Content) : Option (Table Content) :=
  match content with
  | none => some table
  | some content => conflict.insert (place.row content) table

theorem storeEvent_tables {codec : AddressCodec} {db after : Database} {place : Database.Place}
    {event : IndexedEvent} (stored : db.storeEvent codec place event = some after) :
    Conflict.ignore.store place (event.toInternalTransfer codec) db.internalTransfers =
        some after.internalTransfers ∧
      Conflict.ignore.store place (event.toMerchantPayment codec) db.merchantPayments =
        some after.merchantPayments ∧
      Conflict.ignore.store place (event.toAccountStateChange codec) db.accountStateChanges =
        some after.accountStateChanges ∧
      Conflict.ignore.store place (event.toNftOwnershipChange codec) db.nftOwnershipChanges =
        some after.nftOwnershipChanges ∧
      (Conflict.update ProtocolMetrics.period).store place event.toProtocolMetrics
        db.protocolMetrics = some after.protocolMetrics ∧
      (Conflict.update LockActivity.period).store place event.toLockActivity db.lockActivity =
        some after.lockActivity ∧
      Conflict.ignore.store place event.toParameterChange db.parameterChanges =
        some after.parameterChanges := by
  cases event with
  | transparencyProtocolMetrics =>
    obtain ⟨table,upserted,rfl⟩ := Option.map_eq_some_iff.mp stored
    exact ⟨rfl,rfl,rfl,rfl,upserted,rfl,rfl⟩
  | transparencyLockActivity =>
    obtain ⟨table,upserted,rfl⟩ := Option.map_eq_some_iff.mp stored
    exact ⟨rfl,rfl,rfl,rfl,rfl,upserted,rfl⟩
  | _ =>
    obtain rfl := Option.some.inj stored
    exact ⟨rfl,rfl,rfl,rfl,rfl,rfl,rfl⟩

/-- A table of events, with how it follows the operations of its database. -/
structure EventTable (Content : Type) where
  table : Database → Table Content
  content : AddressCodec → IndexedEvent → Option Content
  conflict : Conflict Content
  empty : table .empty = [] := by rfl
  cascaded : ∀ (db : Database) gone, table (db.deleteBlocks gone) = db.cascade gone (table db) := by
    intros; rfl
  blocks : ∀ (db : Database) blocks, table {db with blocks := blocks} = table db := by
    intros; rfl
  head : ∀ (db : Database) seqno, table {db with latestChainSeqno := seqno} = table db := by
    intros; rfl
  cursor : ∀ (db : Database) blockNumber timestamp,
    table (db.updateLatestBlock blockNumber timestamp) = table db := by intros; rfl
  snapshots : ∀ (db : Database) snapshots,
    table {db with accountSnapshots := snapshots} = table db := by intros; rfl
  stored : ∀ {codec} {db : Database} {place event after},
    db.storeEvent codec place event = some after →
    conflict.store place (content codec event) (table db) = some (table after)

section Instances

def internalTransfers : EventTable InternalTransfer where
  table := Database.internalTransfers
  content := IndexedEvent.toInternalTransfer
  conflict := .ignore
  stored taken := (storeEvent_tables taken).1

def merchantPayments : EventTable MerchantPayment where
  table := Database.merchantPayments
  content := IndexedEvent.toMerchantPayment
  conflict := .ignore
  stored taken := (storeEvent_tables taken).2.1

def accountStateChanges : EventTable AccountStateChange where
  table := Database.accountStateChanges
  content := IndexedEvent.toAccountStateChange
  conflict := .ignore
  stored taken := (storeEvent_tables taken).2.2.1

def nftOwnershipChanges : EventTable NftOwnershipChange where
  table := Database.nftOwnershipChanges
  content := IndexedEvent.toNftOwnershipChange
  conflict := .ignore
  stored taken := (storeEvent_tables taken).2.2.2.1

def protocolMetrics : EventTable ProtocolMetrics where
  table := Database.protocolMetrics
  content _ := IndexedEvent.toProtocolMetrics
  conflict := .update ProtocolMetrics.period
  stored taken := (storeEvent_tables taken).2.2.2.2.1

def lockActivity : EventTable LockActivity where
  table := Database.lockActivity
  content _ := IndexedEvent.toLockActivity
  conflict := .update LockActivity.period
  stored taken := (storeEvent_tables taken).2.2.2.2.2.1

def parameterChanges : EventTable ParameterChange where
  table := Database.parameterChanges
  content _ := IndexedEvent.toParameterChange
  conflict := .ignore
  stored taken := (storeEvent_tables taken).2.2.2.2.2.2

end Instances

section Following
variable {codec : AddressCodec} {engine : Database.Engine} (t : EventTable Content)

/-- The row of an event that the table takes. -/
def EventTable.row (codec : AddressCodec) (blockNumber timestamp : Nat)
    (pending : PendingEvent) : Option (Row Content) :=
  (t.content codec pending.event).map
    (Database.Place.row ⟨blockNumber,pending.txHash,pending.logIndex,timestamp⟩)

theorem EventTable.row_eq {pending : PendingEvent} {row : Row Content}
    (found : t.row codec blockNumber timestamp pending = some row) :
    t.content codec pending.event = some row.content ∧ row.blockNumber = blockNumber ∧
      row.transactionHash = pending.txHash ∧ row.logIndex = pending.logIndex ∧
      row.timestamp = timestamp := by
  obtain ⟨content,taken,rfl⟩ := Option.map_eq_some_iff.mp found
  exact ⟨taken,rfl,rfl,rfl,rfl⟩

/-- The rows that a block adds, in the order of its events. -/
def EventTable.rows (codec : AddressCodec) (block : IndexedBlock) : Table Content :=
  block.events.filterMap (t.row codec block.blockNumber block.timestamp)

def EventTable.insertAll (rows table : Table Content) : Option (Table Content) :=
  rows.foldlM (fun table row => t.conflict.insert row table) table

theorem storeEvents_table {events : List PendingEvent} {db after : Database}
    (stored : Database.storeEvents codec blockNumber timestamp events db = some after) :
    t.insertAll (events.filterMap (t.row codec blockNumber timestamp)) (t.table db) =
      some (t.table after) := by
  induction events generalizing db with
  | nil =>
    obtain rfl := Option.some.inj stored
    rfl
  | cons pending rest ih =>
    obtain ⟨middle,first,later⟩ := Option.bind_eq_some_iff.mp stored
    have taken := t.stored first
    have more := ih later
    unfold EventTable.insertAll at more ⊢
    unfold Conflict.store at taken
    rw [List.filterMap_cons]
    unfold EventTable.row at more ⊢
    cases found : t.content codec pending.event with
    | none =>
      rw [found] at taken
      rw [Option.some.inj taken]
      exact more
    | some content =>
      simp only [found] at taken
      simp only [Option.map_some,List.foldlM_cons,Option.bind_eq_bind]
      rw [taken,Option.bind_some]
      exact more

theorem commitBlock_table {db after : Database} {block : IndexedBlock}
    (committed : db.commitBlock codec block = some after) :
    t.insertAll (t.rows codec block) (db.cascade (fun other =>
      other.blockNumber = block.blockNumber || other.blockHash = block.blockHash) (t.table db)) =
        some (t.table after) := by
  obtain ⟨stored,events,rfl⟩ := Option.map_eq_some_iff.mp committed
  have filled := storeEvents_table t events
  rw [Database.insertBlock,t.blocks,t.cascaded] at filled
  rw [t.cursor]
  exact filled

theorem rebuilt_table (accounts : List JsString) (db : Database) :
    t.table (accounts.foldl (Database.rebuildAccountSnapshot engine) db) = t.table db := by
  induction accounts generalizing db with
  | nil => rfl
  | cons account rest ih =>
    rw [List.foldl_cons,ih]
    unfold Database.rebuildAccountSnapshot
    simp only
    split
    · exact t.snapshots db _
    · exact t.snapshots db _

theorem handleReorg_table (db : Database) (fromBlock : Nat) :
    t.table (db.handleReorg engine fromBlock) =
      db.cascade (fun block => fromBlock ≤ block.blockNumber) (t.table db) := by
  unfold Database.handleReorg
  simp only
  split
  · rw [t.cursor,rebuilt_table,t.cascaded]
  · rw [t.cursor,rebuilt_table,t.cascaded]

theorem setLatestChainSeqno_table (db : Database) (seqno : Nat) :
    t.table (db.setLatestChainSeqno seqno) = t.table db := by
  unfold Database.setLatestChainSeqno
  split
  · exact t.head db seqno
  · rfl

end Following

section Coverage

/-- Where an upsert updates, a table has one row for a period. -/
def Conflict.Unique : Conflict Content → Table Content → Prop
  | .ignore, _ => True
  | .update period, table => (table.map fun row => period row.content).Nodup

/-- A row that stands for another: with its key and content, or of its period and at least as
new. -/
def Conflict.By : Conflict Content → Row Content → Row Content → Prop
  | .ignore, stored, row => stored.transactionHash = row.transactionHash ∧
      stored.logIndex = row.logIndex ∧ stored.content = row.content
  | .update period, stored, row => period stored.content = period row.content ∧ row.AtMost stored

def Conflict.Covers (conflict : Conflict Content) (row : Row Content) (table : Table Content) :
    Prop := ∃ stored ∈ table, conflict.By stored row

variable {conflict : Conflict Content}

theorem Conflict.By.refl (row : Row Content) : conflict.By row row := by
  cases conflict with
  | ignore => exact ⟨rfl,rfl,rfl⟩
  | update period => exact ⟨rfl,.refl row⟩

theorem Conflict.By.trans {stored middle row : Row Content} (first : conflict.By stored middle)
    (second : conflict.By middle row) : conflict.By stored row := by
  cases conflict with
  | ignore => exact ⟨first.1.trans second.1,first.2.1.trans second.2.1,first.2.2.trans second.2.2⟩
  | update period => exact ⟨first.1.trans second.1,second.2.trans first.2⟩

/-- The time of a row does not matter. -/
theorem Conflict.By.timeless (row : Row Content) (timestamp : Nat) :
    conflict.By {row with timestamp} row ∧ conflict.By row {row with timestamp} := by
  cases conflict with
  | ignore => exact ⟨⟨rfl,rfl,rfl⟩,⟨rfl,rfl,rfl⟩⟩
  | update period => exact ⟨⟨rfl,.refl row⟩,⟨rfl,.refl row⟩⟩

/-- What an insert did: the table took it, and nothing else, and no row lost its stand-in. -/
structure Conflict.Took (conflict : Conflict Content) (row : Row Content)
    (table after : Table Content) : Prop where
  unique : conflict.Unique after
  covers : conflict.Covers row after
  keeps : ∀ other, conflict.Covers other table → conflict.Covers other after
  source : ∀ stored ∈ after, stored ∈ table ∨ stored = row

theorem Row.sameKey_iff {row other : Row Content} : row.sameKey other = true ↔
    row.transactionHash = other.transactionHash ∧ row.logIndex = other.logIndex := by
  simp [Row.sameKey]

theorem insertOrIgnore_took {row : Row Content} {table : Table Content}
    (agree : ∀ stored ∈ table, row.sameKey stored = true → stored.content = row.content) :
    Conflict.ignore.Took row table (insertOrIgnore row table) := by
  unfold insertOrIgnore
  split
  · rename_i taken
    obtain ⟨stored,member,same⟩ := List.any_eq_true.mp taken
    obtain ⟨key,index⟩ := Row.sameKey_iff.mp same
    exact ⟨trivial,⟨stored,member,key.symm,index.symm,agree stored member same⟩,fun _ => id,
      fun _ => .inl⟩
  · refine ⟨trivial,⟨row,by simp,Conflict.By.refl row⟩,?_,by simp⟩
    rintro other ⟨stored,member,by_⟩
    exact ⟨stored,List.mem_append_left _ member,by_⟩

theorem upsert_took {period : Content → Nat × Nat} {row : Row Content}
    {table after : Table Content} (unique : (Conflict.update period).Unique table)
    (inserted : upsert period row table = some after) :
    (Conflict.update period).Took row table after := by
  unfold upsert at inserted
  split at inserted
  · rename_i none
    split at inserted
    · contradiction
    obtain rfl := Option.some.inj inserted
    refine ⟨?_,⟨row,by simp,Conflict.By.refl row⟩,?_,by simp⟩
    · change (List.map _ _).Nodup
      rw [List.map_append]
      refine List.Nodup.append unique (List.nodup_singleton _) ?_
      intro value member same
      obtain ⟨stored,inside,rfl⟩ := List.mem_map.mp member
      have apart := List.find?_eq_none.mp none stored inside
      simp [List.mem_singleton.mp same] at apart
    · rintro other ⟨stored,member,by_⟩
      exact ⟨stored,List.mem_append_left _ member,by_⟩
  · rename_i stored found
    have member := List.mem_of_find?_eq_some found
    have same : period stored.content = period row.content := by
      simpa using List.find?_some found
    split at inserted
    · rename_i older
      obtain rfl := Option.some.inj inserted
      refine ⟨unique,⟨stored,member,same,?_⟩,fun _ => id,fun _ => .inl⟩
      simp only [Row.replaces,Bool.not_or,Bool.and_eq_true,Bool.not_eq_true',
        decide_eq_false_iff_not,Bool.and_eq_false_imp,decide_eq_true_eq] at older
      unfold Row.AtMost
      omega
    · rename_i newer
      split at inserted
      · contradiction
      obtain rfl := Option.some.inj inserted
      have ahead : stored.AtMost row := by
        simp only [Row.replaces,Bool.not_or,Bool.and_eq_true,Bool.not_eq_true',
          decide_eq_false_iff_not,Bool.and_eq_false_imp,decide_eq_true_eq] at newer
        unfold Row.AtMost
        omega
      have alone (other : Row Content) (inside : other ∈ table)
          (period' : period other.content = period row.content) : other = stored :=
        List.inj_on_of_nodup_map unique inside member (period'.trans same.symm)
      have present : row ∈ table.map fun other =>
          if period other.content = period row.content then row else other :=
        List.mem_map.mpr ⟨stored,member,if_pos same⟩
      refine ⟨?_,⟨row,present,Conflict.By.refl row⟩,?_,?_⟩
      · change (List.map _ _).Nodup
        rw [List.map_map]
        have periods : (table.map ((fun other : Row Content => period other.content) ∘ fun other =>
            if period other.content = period row.content then row else other)) =
            table.map fun other => period other.content := by
          refine List.map_congr_left fun other _ => ?_
          simp only [Function.comp_apply]
          split
          · rename_i equal
            exact equal.symm
          · rfl
        rw [periods]
        exact unique
      · rintro other ⟨kept,inside,by_⟩
        by_cases period' : period kept.content = period row.content
        · obtain rfl := alone kept inside period'
          exact ⟨row,present,same.symm.trans by_.1,by_.2.trans ahead⟩
        · exact ⟨kept,List.mem_map.mpr ⟨kept,inside,if_neg period'⟩,by_⟩
      · intro kept inside
        obtain ⟨other,old,rfl⟩ := List.mem_map.mp inside
        split
        · exact .inr rfl
        · exact .inl old

theorem Conflict.insert_took {row : Row Content} {table after : Table Content}
    (unique : conflict.Unique table)
    (agree : ∀ stored ∈ table, row.sameKey stored = true → stored.content = row.content)
    (inserted : conflict.insert row table = some after) : conflict.Took row table after := by
  cases conflict with
  | ignore =>
    obtain rfl := Option.some.inj inserted
    exact insertOrIgnore_took agree
  | update period => exact upsert_took unique inserted

theorem Conflict.Unique.sublist {table fewer : Table Content} (unique : conflict.Unique table)
    (sublist : fewer.Sublist table) : conflict.Unique fewer := by
  cases conflict with
  | ignore => trivial
  | update period => exact List.Nodup.sublist (sublist.map _) unique

end Coverage
end Tonbankcard.Indexer
