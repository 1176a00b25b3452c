import Tonbankcard.IndexerHistory
import Tonbankcard.IndexerTables
import Tonbankcard.Journal

/-! The history cache over runs of database calls. Writers delete the entries of the accounts they
touch, save one: a block row that makes way for another takes its events with it, and the entries
of their accounts stay behind as orphans. -/
namespace Tonbankcard.Indexer

open EcmaScript

section Calls

structure IndexerDatabase where
  db : Database
  historyCache : HistoryCache

inductive HistoryCall where
  | insertBlock (blockNumber : Nat) (blockHash parentHash : JsString)
      (timestamp transactionCount : Nat)
  | updateLatestBlock (blockNumber timestamp : Nat)
  | setLatestChainSeqno (seqno : Nat)
  | markBlocksConfirmed (upToBlock : Nat)
  | insertInternalTransfer (place : Database.Place)
      (fromNft toNft amountTbc payloadHash : JsString)
  | insertMerchantPayment (place : Database.Place)
      (payerNft merchantNft amountTbc payloadHash : JsString)
  | insertAccountStateChange (place : Database.Place) (nftAddress : JsString)
      (oldState newState : Nat)
  | insertNFTOwnershipChange (place : Database.Place) (nftAddress collectionAddress : JsString)
      (oldOwner : Option JsString) (newOwner : JsString)
  | insertTransparencyProtocolMetrics (place : Database.Place) (metrics : ProtocolMetrics)
  | insertTransparencyLockActivity (place : Database.Place) (activity : LockActivity)
  | insertTransparencyParameterChange (place : Database.Place) (change : ParameterChange)
  | handleReorg (fromBlock : Nat)
  | getAccountHistory (now : ℤ) (nftAddress : JsString) (limit offset : Number)
      (before : Option AccountHistoryCursorInput)

/-- A row that is not ignored needs the row of its block (`FOREIGN KEY`). -/
def Database.refuses {Content : Type} (db : Database) (row : Row Content)
    (table : Table Content) : Bool :=
  !table.any row.sameKey && !db.blocks.any (·.blockNumber = row.blockNumber)

/-- The same of an upsert, which may leave the table as it is. -/
def Database.checked {Content : Type} [DecidableEq Content] (db : Database)
    (table : Database → Table Content) (blockNumber : Nat) (stored : Option Database) : Database :=
  match stored with
  | none => db
  | some stored =>
    if table stored ≠ table db && !db.blocks.any (·.blockNumber = blockNumber) then db else stored

namespace IndexerDatabase
variable (codec : AddressCodec) (s : IndexerDatabase)

/-- Deletes the entries of some accounts, one account after the other. -/
def invalidated (accounts : List JsString) : HistoryCache :=
  accounts.foldl (fun cache account => invalidateHistoryCache codec account cache) s.historyCache

def insertInternalTransfer (place : Database.Place)
    (fromNft toNft amountTbc payloadHash : JsString) : IndexerDatabase :=
  let fromNft := normalizeTonAddress codec fromNft
  let toNft := normalizeTonAddress codec toNft
  if s.db.refuses (place.row (⟨fromNft,toNft,amountTbc,payloadHash⟩ : InternalTransfer))
    s.db.internalTransfers then s
  else ⟨s.db.insertInternalTransfer codec place fromNft toNft amountTbc payloadHash,
    s.invalidated codec [fromNft,toNft]⟩

def insertMerchantPayment (place : Database.Place)
    (payerNft merchantNft amountTbc payloadHash : JsString) : IndexerDatabase :=
  let payerNft := normalizeTonAddress codec payerNft
  let merchantNft := normalizeTonAddress codec merchantNft
  if s.db.refuses (place.row (⟨payerNft,merchantNft,amountTbc,payloadHash⟩ : MerchantPayment))
    s.db.merchantPayments then s
  else ⟨s.db.insertMerchantPayment codec place payerNft merchantNft amountTbc payloadHash,
    s.invalidated codec [payerNft,merchantNft]⟩

def insertAccountStateChange (place : Database.Place) (nftAddress : JsString)
    (oldState newState : Nat) : IndexerDatabase :=
  let nftAddress := normalizeTonAddress codec nftAddress
  if s.db.refuses (place.row (⟨nftAddress,oldState,newState⟩ : AccountStateChange))
    s.db.accountStateChanges then s
  else ⟨s.db.insertAccountStateChange codec place nftAddress oldState newState,
    s.invalidated codec [nftAddress]⟩

def insertNFTOwnershipChange (place : Database.Place) (nftAddress collectionAddress : JsString)
    (oldOwner : Option JsString) (newOwner : JsString) : IndexerDatabase :=
  let nftAddress := normalizeTonAddress codec nftAddress
  let row : NftOwnershipChange := ⟨nftAddress,normalizeTonAddress codec collectionAddress,
    oldOwner.map (normalizeTonAddress codec),normalizeTonAddress codec newOwner⟩
  if s.db.refuses (place.row row) s.db.nftOwnershipChanges then s
  else ⟨s.db.insertNFTOwnershipChange codec place nftAddress collectionAddress oldOwner newOwner,
    s.invalidated codec [nftAddress]⟩

def insertTransparencyParameterChange (place : Database.Place) (change : ParameterChange) :
    IndexerDatabase :=
  if s.db.refuses (place.row change) s.db.parameterChanges then s
  else {s with db := s.db.insertTransparencyParameterChange place change}

/-- The accounts of the events that go are read before they go. -/
def handleReorg (engine : Database.Engine) (fromBlock : Nat) : IndexerDatabase :=
  ⟨s.db.handleReorg engine fromBlock,s.invalidated codec (s.db.affected fromBlock)⟩

/-- What a call leaves behind. A write that a constraint refuses throws and leaves everything. -/
def after (engine : Database.Engine) : HistoryCall → IndexerDatabase
  | .insertBlock blockNumber blockHash parentHash timestamp transactionCount =>
    {s with db := s.db.insertBlock blockNumber blockHash parentHash timestamp transactionCount}
  | .updateLatestBlock blockNumber timestamp =>
    {s with db := s.db.updateLatestBlock blockNumber timestamp}
  | .setLatestChainSeqno seqno => {s with db := s.db.setLatestChainSeqno seqno}
  | .markBlocksConfirmed upToBlock => {s with db := s.db.markBlocksConfirmed upToBlock}
  | .insertInternalTransfer place fromNft toNft amountTbc payloadHash =>
    s.insertInternalTransfer codec place fromNft toNft amountTbc payloadHash
  | .insertMerchantPayment place payerNft merchantNft amountTbc payloadHash =>
    s.insertMerchantPayment codec place payerNft merchantNft amountTbc payloadHash
  | .insertAccountStateChange place nftAddress oldState newState =>
    s.insertAccountStateChange codec place nftAddress oldState newState
  | .insertNFTOwnershipChange place nftAddress collectionAddress oldOwner newOwner =>
    s.insertNFTOwnershipChange codec place nftAddress collectionAddress oldOwner newOwner
  | .insertTransparencyProtocolMetrics place metrics =>
    ⟨s.db.checked (·.protocolMetrics) place.blockNumber
      (s.db.insertTransparencyProtocolMetrics place metrics),s.historyCache⟩
  | .insertTransparencyLockActivity place activity =>
    ⟨s.db.checked (·.lockActivity) place.blockNumber
      (s.db.insertTransparencyLockActivity place activity),s.historyCache⟩
  | .insertTransparencyParameterChange place change =>
    s.insertTransparencyParameterChange place change
  | .handleReorg fromBlock => s.handleReorg codec engine fromBlock
  | .getAccountHistory now nftAddress limit offset before =>
    ⟨s.db,(getAccountHistory codec s.db now nftAddress limit offset before s.historyCache).2⟩

end IndexerDatabase

end Calls

section Runs
variable (codec : AddressCodec) (engine : Database.Engine)

/-- An indexer with a record of the keys whose entries are orphans. -/
structure Watched where
  indexer : IndexerDatabase
  orphans : List HistoryKey

/-- Whether an account has an event in the block of a row that goes. -/
def Database.losesEvent (db : Database) (gone : BlockRow → Bool) (nftAddress : JsString) : Bool :=
  (db.historyOf nftAddress).any fun event =>
    db.blocks.any fun block => block.blockNumber = event.blockNumber && gone block

/-- The block rows that an inserted one takes the place of. -/
def makesWay (blockNumber : Nat) (blockHash : JsString) (block : BlockRow) : Bool :=
  block.blockNumber = blockNumber || block.blockHash = blockHash

/-- The entry that would answer a query. -/
def youngEntry (cache : HistoryCache) (now : ℤ) (key : HistoryKey) : Option AccountHistoryCache :=
  (cache.get key).filter fun entry => now - entry.cachedAt < cacheTtlMs

/-- Entries become orphans when an inserted block row takes events of their account away, and a
page that is read anew is none. -/
def orphansAfter (s : IndexerDatabase) (orphans : List HistoryKey) : HistoryCall → List HistoryKey
  | .insertBlock blockNumber blockHash _ _ _ =>
    orphans ++ (s.historyCache.entries.filter fun entry =>
      s.db.losesEvent (makesWay blockNumber blockHash) entry.2.nftAddress).map (·.1)
  | .getAccountHistory now nftAddress limit offset before =>
    let key := accountHistoryCacheKey (normalizeTonAddress codec nftAddress) limit offset before
    if (youngEntry s.historyCache now key).isSome then orphans else orphans.filter (· ≠ key)
  | _ => orphans

def Watched.after (w : Watched) (call : HistoryCall) : Watched :=
  ⟨w.indexer.after codec engine call,orphansAfter codec w.indexer w.orphans call⟩

/-- An indexer that is opened on some content and called; calls are listed newest first. -/
def watch (db : Database) : List HistoryCall → Watched
  | [] => ⟨⟨db,JsMap.empty⟩,[]⟩
  | call :: past => (watch db past).after codec engine call

/-- A query returns what it would return with an empty cache. -/
def Fresh (s : IndexerDatabase) : HistoryCall → Prop
  | .getAccountHistory now nftAddress limit offset before =>
    (getAccountHistory codec s.db now nftAddress limit offset before s.historyCache).1 =
      (getAccountHistory codec s.db now nftAddress limit offset before JsMap.empty).1
  | _ => True

/-- A query is answered by an orphan. -/
def FromOrphan (w : Watched) : HistoryCall → Prop
  | .getAccountHistory now nftAddress limit offset before =>
    let key := accountHistoryCacheKey (normalizeTonAddress codec nftAddress) limit offset before
    (youngEntry w.indexer.historyCache now key).isSome ∧ key ∈ w.orphans
  | _ => False

/-- The numbers of a query's cursor are finite. -/
def FiniteCursor : HistoryCall → Prop
  | .getAccountHistory _ _ _ _ before => Exact before
  | _ => True

end Runs

section Histories

theorem queryAccountHistory_congr {db other : Database} {nftAddress : JsString}
    (same : db.historyOf nftAddress = other.historyOf nftAddress) (limit offset : Number)
    (before : Option AccountHistoryCursorInput) :
    db.queryAccountHistory nftAddress limit offset before =
      other.queryAccountHistory nftAddress limit offset before := by
  unfold Database.queryAccountHistory
  rw [buildUnionSql_eq,buildUnionSql_eq,same]

theorem historyOf_congr {db other : Database} (nftAddress : JsString)
    (transfers : db.internalTransfers = other.internalTransfers)
    (payments : db.merchantPayments = other.merchantPayments)
    (states : db.accountStateChanges = other.accountStateChanges) :
    db.historyOf nftAddress = other.historyOf nftAddress := by
  unfold Database.historyOf Database.buildUnionSql
  rw [transfers,payments,states]

/-- The rows of the deleted blocks go from a history. -/
theorem historyOf_cascade {db after : Database} {gone : BlockRow → Bool}
    (transfers : after.internalTransfers = db.cascade gone db.internalTransfers)
    (payments : after.merchantPayments = db.cascade gone db.merchantPayments)
    (states : after.accountStateChanges = db.cascade gone db.accountStateChanges)
    (nftAddress : JsString) :
    after.historyOf nftAddress = (db.historyOf nftAddress).filter fun event =>
      !db.blocks.any fun block => block.blockNumber = event.blockNumber && gone block := by
  have table {Content : Type} (rows : Table Content) (party : Row Content → Bool)
      (details : Row Content → HistoryDetails) :
      ((db.cascade gone rows).filter party).map (fun row => row.historyEvent (details row)) =
        ((rows.filter party).map fun row => row.historyEvent (details row)).filter fun event =>
          !db.blocks.any fun block => block.blockNumber = event.blockNumber && gone block := by
    rw [Database.cascade,List.filter_comm,List.filter_map]
    rfl
  unfold Database.historyOf Database.buildUnionSql
  simp only [transfers,payments,states,List.filter_true,List.filter_append]
  exact congr (congrArg _ (congr (congrArg _ (table ..)) (table ..))) (table ..)

/-- An account that loses no event keeps its history; one that does has fewer events. -/
theorem historyOf_cascade_kept {db after : Database} {gone : BlockRow → Bool}
    {nftAddress : JsString}
    (cascaded : after.historyOf nftAddress = (db.historyOf nftAddress).filter fun event =>
      !db.blocks.any fun block => block.blockNumber = event.blockNumber && gone block) :
    (db.losesEvent gone nftAddress = false → after.historyOf nftAddress = db.historyOf nftAddress) ∧
    (db.losesEvent gone nftAddress = true →
      (after.historyOf nftAddress).length < (db.historyOf nftAddress).length) := by
  rw [cascaded]
  refine ⟨fun kept => List.filter_eq_self.mpr fun event member => ?_,fun loses => ?_⟩
  · rw [Bool.not_eq_true']
    exact Bool.eq_false_iff.mpr (List.any_eq_false.mp kept event member)
  · obtain ⟨event,member,lost⟩ := List.any_eq_true.mp loses
    refine List.length_filter_lt_length_iff_exists.mpr ⟨event,member,?_⟩
    simpa using lost

section Writes
variable (codec : AddressCodec) (db : Database) (place : Database.Place) (nftAddress : JsString)

/-- A row that passes no filter does not show. -/
theorem filter_insertOrIgnore {Content : Type} (row : Row Content) (table : Table Content)
    {party : Row Content → Bool} (other : party row = false) :
    (insertOrIgnore row table).filter party = table.filter party := by
  unfold insertOrIgnore
  split
  · rfl
  · rw [List.filter_append,List.filter_singleton,other]
    exact List.append_nil _

theorem historyOf_insertInternalTransfer (fromNft toNft amountTbc payloadHash : JsString)
    (payer : normalizeTonAddress codec fromNft ≠ nftAddress)
    (payee : normalizeTonAddress codec toNft ≠ nftAddress) :
    (db.insertInternalTransfer codec place fromNft toNft amountTbc payloadHash).historyOf
      nftAddress = db.historyOf nftAddress := by
  unfold Database.historyOf Database.buildUnionSql
  rw [show (db.insertInternalTransfer codec place fromNft toNft amountTbc
      payloadHash).internalTransfers = insertOrIgnore _ db.internalTransfers from rfl,
    filter_insertOrIgnore _ _ (by simp [Database.Place.row,payer,payee])]
  rfl

theorem historyOf_insertMerchantPayment (payerNft merchantNft amountTbc payloadHash : JsString)
    (payer : normalizeTonAddress codec payerNft ≠ nftAddress)
    (payee : normalizeTonAddress codec merchantNft ≠ nftAddress) :
    (db.insertMerchantPayment codec place payerNft merchantNft amountTbc payloadHash).historyOf
      nftAddress = db.historyOf nftAddress := by
  unfold Database.historyOf Database.buildUnionSql
  rw [show (db.insertMerchantPayment codec place payerNft merchantNft amountTbc
      payloadHash).merchantPayments = insertOrIgnore _ db.merchantPayments from rfl,
    filter_insertOrIgnore _ _ (by simp [Database.Place.row,payer,payee])]
  rfl

theorem historyOf_insertAccountStateChange (account : JsString) (oldState newState : Nat)
    (other : normalizeTonAddress codec account ≠ nftAddress) :
    (db.insertAccountStateChange codec place account oldState newState).historyOf nftAddress =
      db.historyOf nftAddress := by
  unfold Database.historyOf Database.buildUnionSql
  rw [show (db.insertAccountStateChange codec place account oldState
      newState).accountStateChanges = insertOrIgnore _ db.accountStateChanges from rfl,
    filter_insertOrIgnore _ _ (by simp [Database.Place.row,other])]
  rfl

/-- The accounts that a rollback reads before it deletes are those that lose events. -/
theorem losesEvent_affected {fromBlock : Nat}
    (loses : db.losesEvent (fun block => fromBlock ≤ block.blockNumber) nftAddress = true) :
    nftAddress ∈ db.affected fromBlock := by
  obtain ⟨event,member,lost⟩ := List.any_eq_true.mp loses
  obtain ⟨block,-,lost⟩ := List.any_eq_true.mp lost
  simp only [Bool.and_eq_true,decide_eq_true_eq] at lost
  have since : fromBlock ≤ event.blockNumber := lost.1 ▸ lost.2
  unfold Database.historyOf Database.buildUnionSql at member
  simp only [List.filter_true,List.mem_append,List.mem_map,List.mem_filter,Bool.or_eq_true,
    decide_eq_true_eq] at member
  simp only [Database.affected,List.mem_dedup,List.mem_append,List.mem_flatMap,List.mem_map,
    List.mem_filter,decide_eq_true_eq]
  rcases member with (⟨row,⟨held,party⟩,rfl⟩ | ⟨row,⟨held,party⟩,rfl⟩) | ⟨row,⟨held,party⟩,rfl⟩
  · exact .inl (.inl (.inl ⟨row,⟨held,since⟩,by simpa [eq_comm] using party⟩))
  · exact .inl (.inl (.inr ⟨row,⟨held,since⟩,by simpa [eq_comm] using party⟩))
  · exact .inl (.inr ⟨row,⟨held,since⟩,party⟩)

end Writes

end Histories

section Accounting
variable {codec : AddressCodec} {db changed : Database} {orphans : List HistoryKey}
  {key : HistoryKey} {entry : AccountHistoryCache}

theorem queryAccountHistory_totalCount {nftAddress : JsString} {limit offset : Number}
    {before : Option AccountHistoryCursorInput} {result : AccountHistoryResult}
    (answered : db.queryAccountHistory nftAddress limit offset before = some result) :
    result.totalCount = (db.historyOf nftAddress).length := by
  unfold Database.queryAccountHistory at answered
  obtain ⟨limit',-,answered⟩ := Option.bind_eq_some_iff.mp answered
  obtain ⟨offset',-,answered⟩ := Option.bind_eq_some_iff.mp answered
  rw [← Option.some.inj answered]

/-- What is known of an entry: an orphan counts events that its account no longer has, and any
other holds what the database answers to the query it was stored for. -/
structure Accounted (codec : AddressCodec) (db : Database) (orphans : List HistoryKey)
    (key : HistoryKey) (entry : AccountHistoryCache) : Prop where
  account : key.nftAddress = entry.nftAddress
  normal : normalizeTonAddress codec entry.nftAddress = entry.nftAddress
  orphan : key ∈ orphans → (db.historyOf entry.nftAddress).length < entry.result.totalCount
  current : key ∉ orphans → ∃ limit offset before, Exact before ∧
    key = accountHistoryCacheKey entry.nftAddress limit offset before ∧
    db.queryAccountHistory entry.nftAddress limit offset before = some entry.result

/-- An entry stays accounted for while its account keeps its history. -/
theorem Accounted.same (accounted : Accounted codec db orphans key entry)
    (same : changed.historyOf entry.nftAddress = db.historyOf entry.nftAddress) :
    Accounted codec changed orphans key entry where
  account := accounted.account
  normal := accounted.normal
  orphan := fun member => by rw [same]; exact accounted.orphan member
  current := fun fresh => by
    obtain ⟨limit,offset,before,exact,keyed,answered⟩ := accounted.current fresh
    exact ⟨limit,offset,before,exact,keyed,by rw [queryAccountHistory_congr same]; exact answered⟩

/-- An entry whose account loses events is an orphan from then on. -/
theorem Accounted.lose (accounted : Accounted codec db orphans key entry)
    {others : List HistoryKey} (orphaned : key ∈ others)
    (fewer : (changed.historyOf entry.nftAddress).length < (db.historyOf entry.nftAddress).length) :
    Accounted codec changed others key entry where
  account := accounted.account
  normal := accounted.normal
  orphan := fun _ => by
    by_cases before : key ∈ orphans
    · exact fewer.trans (accounted.orphan before)
    · obtain ⟨limit,offset,cursor,-,-,answered⟩ := accounted.current before
      rw [queryAccountHistory_totalCount answered]
      exact fewer
  current := fun fresh => absurd orphaned fresh

/-- All entries of an indexer are accounted for. -/
def Watched.Accounted (codec : AddressCodec) (w : Watched) : Prop :=
  ∀ key entry, w.indexer.historyCache.get key = some entry →
    Indexer.Accounted codec w.indexer.db w.orphans key entry

theorem get_invalidateHistoryCache {cache : HistoryCache} {account : JsString} :
    (invalidateHistoryCache codec account cache).get key = some entry ↔
      cache.get key = some entry ∧ entry.nftAddress ≠ normalizeTonAddress codec account := by
  unfold invalidateHistoryCache
  rw [JsMap.get_keep,decide_eq_true_eq]

theorem get_invalidated {s : IndexerDatabase} {accounts : List JsString}
    (found : (s.invalidated codec accounts).get key = some entry) :
    s.historyCache.get key = some entry ∧
      ∀ account ∈ accounts, entry.nftAddress ≠ normalizeTonAddress codec account := by
  unfold IndexerDatabase.invalidated at found
  generalize s.historyCache = cache at found ⊢
  induction accounts generalizing cache with
  | nil => exact ⟨found,fun _ member => absurd member List.not_mem_nil⟩
  | cons account rest ih =>
    obtain ⟨held,others⟩ := ih _ found
    obtain ⟨held,other⟩ := get_invalidateHistoryCache.mp held
    exact ⟨held,List.forall_mem_cons.mpr ⟨other,others⟩⟩

/-- The entries that an invalidation leaves stay accounted for, where the accounts that it does
not name keep their history. -/
theorem Watched.Accounted.invalidated {w : Watched} (accounted : w.Accounted codec)
    (accounts : List JsString)
    (same : ∀ nftAddress, normalizeTonAddress codec nftAddress = nftAddress →
      (∀ account ∈ accounts, nftAddress ≠ normalizeTonAddress codec account) →
      changed.historyOf nftAddress = w.indexer.db.historyOf nftAddress) :
    Watched.Accounted codec ⟨⟨changed,w.indexer.invalidated codec accounts⟩,w.orphans⟩ := by
  intro key entry found
  obtain ⟨held,others⟩ := get_invalidated found
  have known := accounted key entry held
  exact known.same (same _ known.normal others)

/-- A call that leaves the tables of the history alone. -/
theorem Watched.Accounted.unchanged {w : Watched} (accounted : w.Accounted codec)
    (transfers : changed.internalTransfers = w.indexer.db.internalTransfers)
    (payments : changed.merchantPayments = w.indexer.db.merchantPayments)
    (states : changed.accountStateChanges = w.indexer.db.accountStateChanges) :
    Watched.Accounted codec ⟨⟨changed,w.indexer.historyCache⟩,w.orphans⟩ :=
  fun key entry found =>
    (accounted key entry found).same (historyOf_congr _ transfers payments states)

theorem Accounted.reorphan {others : List HistoryKey}
    (accounted : Accounted codec db orphans key entry) (same : key ∈ others ↔ key ∈ orphans) :
    Accounted codec db others key entry where
  account := accounted.account
  normal := accounted.normal
  orphan := fun member => accounted.orphan (same.mp member)
  current := fun fresh => accounted.current (mt same.mpr fresh)

/-- An inserted block row makes orphans of the entries whose accounts lose events by it. -/
theorem Watched.Accounted.insertBlock {w : Watched} (accounted : w.Accounted codec)
    (engine : Database.Engine) (blockNumber : Nat) (blockHash parentHash : JsString)
    (timestamp transactionCount : Nat) :
    (w.after codec engine (.insertBlock blockNumber blockHash parentHash timestamp
      transactionCount)).Accounted codec := by
  intro key entry found
  have known := accounted key entry found
  have transfers : (w.indexer.db.insertBlock blockNumber blockHash parentHash timestamp
      transactionCount).internalTransfers =
    w.indexer.db.cascade (makesWay blockNumber blockHash) w.indexer.db.internalTransfers := rfl
  obtain ⟨kept,fewer⟩ := historyOf_cascade_kept
    (historyOf_cascade transfers rfl rfl entry.nftAddress)
  cases loses : w.indexer.db.losesEvent (makesWay blockNumber blockHash) entry.nftAddress with
  | true =>
    refine known.lose (List.mem_append_right _ (List.mem_map.mpr ⟨(key,entry),?_,rfl⟩)) (fewer loses)
    exact List.mem_filter.mpr ⟨(JsMap.mem_entries_iff _ _ _).mpr found,loses⟩
  | false =>
    refine (known.same (kept loses)).reorphan ⟨fun member => ?_,List.mem_append_left _⟩
    rcases List.mem_append.mp member with before | orphaned
    · exact before
    · obtain ⟨⟨_,other⟩,listed,rfl⟩ := List.mem_map.mp orphaned
      obtain ⟨held,lost⟩ := List.mem_filter.mp listed
      have same := ((JsMap.mem_entries_iff _ _ _).mp held).symm.trans found
      rw [Option.some.inj same] at lost
      exact absurd (lost.symm.trans loses) (by decide)

theorem Watched.Accounted.insertInternalTransfer {w : Watched} (accounted : w.Accounted codec)
    (engine : Database.Engine) (place : Database.Place)
    (fromNft toNft amountTbc payloadHash : JsString) :
    (w.after codec engine (.insertInternalTransfer place fromNft toNft amountTbc
      payloadHash)).Accounted codec := by
  simp only [Watched.after,IndexerDatabase.after,IndexerDatabase.insertInternalTransfer,orphansAfter]
  split
  · exact accounted
  · refine accounted.invalidated _ fun nftAddress _ others => ?_
    obtain ⟨payer,payee⟩ := List.forall_mem_cons.mp others
    exact historyOf_insertInternalTransfer codec _ place nftAddress _ _ _ _ payer.symm
      (payee _ List.mem_cons_self).symm

theorem Watched.Accounted.insertMerchantPayment {w : Watched} (accounted : w.Accounted codec)
    (engine : Database.Engine) (place : Database.Place)
    (payerNft merchantNft amountTbc payloadHash : JsString) :
    (w.after codec engine (.insertMerchantPayment place payerNft merchantNft amountTbc
      payloadHash)).Accounted codec := by
  simp only [Watched.after,IndexerDatabase.after,IndexerDatabase.insertMerchantPayment,orphansAfter]
  split
  · exact accounted
  · refine accounted.invalidated _ fun nftAddress _ others => ?_
    obtain ⟨payer,payee⟩ := List.forall_mem_cons.mp others
    exact historyOf_insertMerchantPayment codec _ place nftAddress _ _ _ _ payer.symm
      (payee _ List.mem_cons_self).symm

theorem Watched.Accounted.insertAccountStateChange {w : Watched} (accounted : w.Accounted codec)
    (engine : Database.Engine) (place : Database.Place) (account : JsString)
    (oldState newState : Nat) :
    (w.after codec engine (.insertAccountStateChange place account oldState
      newState)).Accounted codec := by
  simp only [Watched.after,IndexerDatabase.after,IndexerDatabase.insertAccountStateChange,
    orphansAfter]
  split
  · exact accounted
  · refine accounted.invalidated _ fun nftAddress _ others => ?_
    exact historyOf_insertAccountStateChange codec _ place nftAddress _ _ _
      (others _ List.mem_cons_self).symm

theorem Watched.Accounted.insertNFTOwnershipChange {w : Watched} (accounted : w.Accounted codec)
    (engine : Database.Engine) (place : Database.Place) (nftAddress collectionAddress : JsString)
    (oldOwner : Option JsString) (newOwner : JsString) :
    (w.after codec engine (.insertNFTOwnershipChange place nftAddress collectionAddress oldOwner
      newOwner)).Accounted codec := by
  simp only [Watched.after,IndexerDatabase.after,IndexerDatabase.insertNFTOwnershipChange,
    orphansAfter]
  split
  · exact accounted
  · exact accounted.invalidated _ fun _ _ _ => historyOf_congr _ rfl rfl rfl

/-- A checked upsert of another table leaves the tables of the history alone. -/
theorem checked_history {Content : Type} [DecidableEq Content] (table : Database → Table Content)
    (blockNumber : Nat) (stored : Option Database)
    (apart : ∀ after ∈ stored, after.internalTransfers = db.internalTransfers ∧
      after.merchantPayments = db.merchantPayments ∧
      after.accountStateChanges = db.accountStateChanges) :
    (db.checked table blockNumber stored).internalTransfers = db.internalTransfers ∧
      (db.checked table blockNumber stored).merchantPayments = db.merchantPayments ∧
      (db.checked table blockNumber stored).accountStateChanges = db.accountStateChanges := by
  unfold Database.checked
  split
  · exact ⟨rfl,rfl,rfl⟩
  · split
    · exact ⟨rfl,rfl,rfl⟩
    · exact apart _ rfl

theorem Watched.Accounted.handleReorg {w : Watched} (accounted : w.Accounted codec)
    (engine : Database.Engine) (fromBlock : Nat) :
    (w.after codec engine (.handleReorg fromBlock)).Accounted codec := by
  refine accounted.invalidated _ fun nftAddress normal others => ?_
  obtain ⟨kept,-⟩ := historyOf_cascade_kept (historyOf_cascade
    (handleReorg_table internalTransfers w.indexer.db fromBlock)
    (handleReorg_table merchantPayments w.indexer.db fromBlock)
    (handleReorg_table accountStateChanges w.indexer.db fromBlock) nftAddress)
  refine kept (Bool.eq_false_iff.mpr fun loses => ?_)
  exact others nftAddress (losesEvent_affected _ _ loses) normal.symm

section Queries
variable {cache : HistoryCache} {now : ℤ} {nftAddress : JsString} {limit offset : Number}
  {before : Option AccountHistoryCursorInput}

/-- An entry that answers stays in the cache, as do all others. -/
theorem getAccountHistory_hit
    (young : youngEntry cache now (accountHistoryCacheKey (normalizeTonAddress codec nftAddress)
      limit offset before) = some entry) :
    (getAccountHistory codec db now nftAddress limit offset before cache).1 = some entry.result ∧
      ∀ key, (getAccountHistory codec db now nftAddress limit offset before cache).2.get key =
        cache.get key := by
  obtain ⟨held,young⟩ := Option.filter_eq_some_iff.mp young
  unfold getAccountHistory
  simp only [held]
  rw [if_pos (of_decide_eq_true young)]
  refine ⟨rfl,fun key => ?_⟩
  rw [JsMap.get_set]
  split
  · rename_i own
    rw [own,held]
  · rename_i other
    rw [JsMap.get_delete,if_neg other]

/-- A query that no entry answers reads the database and keeps what it reads. -/
theorem getAccountHistory_miss (db : Database)
    (old : youngEntry cache now (accountHistoryCacheKey (normalizeTonAddress codec nftAddress)
      limit offset before) = none) :
    ∃ left, (getAccountHistory codec db now nftAddress limit offset before cache) =
        missAccountHistory db now (normalizeTonAddress codec nftAddress) limit offset before left ∧
      left.get (accountHistoryCacheKey (normalizeTonAddress codec nftAddress) limit offset
        before) = none ∧
      ∀ key entry, left.get key = some entry → cache.get key = some entry := by
  unfold getAccountHistory
  simp only
  split
  · rename_i entry held
    rw [if_neg (by simpa [youngEntry,held] using old)]
    refine ⟨_,rfl,by rw [JsMap.get_delete,if_pos rfl],fun key entry found => ?_⟩
    rw [JsMap.get_delete] at found
    split at found
    · contradiction
    · exact found
  · rename_i absent
    exact ⟨cache,rfl,absent,fun _ _ => id⟩

theorem Watched.Accounted.getAccountHistory {w : Watched} (accounted : w.Accounted codec)
    (engine : Database.Engine) (exact : Exact before) :
    (w.after codec engine (.getAccountHistory now nftAddress limit offset before)).Accounted
      codec := by
  intro key entry found
  simp only [Watched.after,IndexerDatabase.after,orphansAfter] at found ⊢
  cases young : youngEntry w.indexer.historyCache now (accountHistoryCacheKey
      (normalizeTonAddress codec nftAddress) limit offset before) with
  | some answer =>
    rw [(getAccountHistory_hit young).2] at found
    exact accounted key entry found
  | none =>
    obtain ⟨left,missed,absent,kept⟩ := getAccountHistory_miss w.indexer.db young
    rw [missed] at found
    simp only [Option.isSome_none,Bool.false_eq_true,if_false]
    have earlier (held : left.get key = some entry) :
        Indexer.Accounted codec w.indexer.db (w.orphans.filter (· ≠ accountHistoryCacheKey
          (normalizeTonAddress codec nftAddress) limit offset before)) key entry := by
      refine (accounted key entry (kept key entry held)).reorphan ?_
      rw [List.mem_filter,decide_eq_true_eq,and_iff_left]
      rintro rfl
      exact absurd held (by simp [absent])
    unfold missAccountHistory at found
    split at found
    · exact earlier found
    · rename_i result answered
      rcases get_setHistoryCacheEntry _ found with held | ⟨rfl,rfl⟩
      · exact earlier held
      · exact {
          account := rfl
          normal := normalizeTonAddress_again codec nftAddress
          orphan := fun member => absurd rfl (of_decide_eq_true (List.mem_filter.mp member).2)
          current := fun _ => ⟨limit,offset,before,exact,rfl,answered⟩ }

end Queries

/-- Every call keeps all entries accounted for. -/
theorem Watched.Accounted.after {w : Watched} (accounted : w.Accounted codec)
    (engine : Database.Engine) (call : HistoryCall) (finite : FiniteCursor call) :
    (w.after codec engine call).Accounted codec := by
  cases call with
  | insertBlock => exact accounted.insertBlock engine _ _ _ _ _
  | updateLatestBlock => exact accounted.unchanged rfl rfl rfl
  | setLatestChainSeqno seqno =>
    exact accounted.unchanged (setLatestChainSeqno_table internalTransfers _ seqno)
      (setLatestChainSeqno_table merchantPayments _ seqno)
      (setLatestChainSeqno_table accountStateChanges _ seqno)
  | markBlocksConfirmed => exact accounted.unchanged rfl rfl rfl
  | insertInternalTransfer => exact accounted.insertInternalTransfer engine _ _ _ _ _
  | insertMerchantPayment => exact accounted.insertMerchantPayment engine _ _ _ _ _
  | insertAccountStateChange => exact accounted.insertAccountStateChange engine _ _ _ _
  | insertNFTOwnershipChange => exact accounted.insertNFTOwnershipChange engine _ _ _ _ _
  | insertTransparencyProtocolMetrics place metrics =>
    obtain ⟨transfers,payments,states⟩ := checked_history (·.protocolMetrics) place.blockNumber
      (w.indexer.db.insertTransparencyProtocolMetrics place metrics) fun after stored => by
        obtain ⟨table,-,rfl⟩ := Option.map_eq_some_iff.mp stored
        exact ⟨rfl,rfl,rfl⟩
    exact accounted.unchanged transfers payments states
  | insertTransparencyLockActivity place activity =>
    obtain ⟨transfers,payments,states⟩ := checked_history (·.lockActivity) place.blockNumber
      (w.indexer.db.insertTransparencyLockActivity place activity) fun after stored => by
        obtain ⟨table,-,rfl⟩ := Option.map_eq_some_iff.mp stored
        exact ⟨rfl,rfl,rfl⟩
    exact accounted.unchanged transfers payments states
  | insertTransparencyParameterChange place change =>
    simp only [Watched.after,IndexerDatabase.after,
      IndexerDatabase.insertTransparencyParameterChange,orphansAfter]
    split
    · exact accounted
    · exact accounted.unchanged rfl rfl rfl
  | handleReorg fromBlock => exact accounted.handleReorg engine fromBlock
  | getAccountHistory => exact accounted.getAccountHistory engine finite

theorem watch_accounted (engine : Database.Engine) (db : Database) (calls : List HistoryCall)
    (finite : ∀ call ∈ calls, FiniteCursor call) :
    (watch codec engine db calls).Accounted codec := by
  induction calls with
  | nil => exact fun key entry found => absurd found (by simp [watch])
  | cons call past ih =>
    obtain ⟨here,earlier⟩ := List.forall_mem_cons.mp finite
    exact (ih earlier).after engine call here

/-- In a state whose entries are accounted for, a query is answered wrongly exactly by an
orphan, which counts more events than there are. -/
theorem Watched.Accounted.fresh_iff {w : Watched} (accounted : w.Accounted codec)
    (call : HistoryCall) (finite : FiniteCursor call) :
    Fresh codec w.indexer call ↔ ¬FromOrphan codec w call := by
  cases call with
  | getAccountHistory now nftAddress limit offset before =>
    have empty : (Indexer.getAccountHistory codec w.indexer.db now nftAddress limit offset before
        JsMap.empty).1 = w.indexer.db.queryAccountHistory (normalizeTonAddress codec nftAddress)
          limit offset before :=
      getAccountHistory_result codec w.indexer.db now nftAddress limit offset before JsMap.empty
        fun _ found => by contradiction
    simp only [Fresh,FromOrphan,empty]
    cases young : youngEntry w.indexer.historyCache now (accountHistoryCacheKey
        (normalizeTonAddress codec nftAddress) limit offset before) with
    | none =>
      obtain ⟨left,missed,-,-⟩ := getAccountHistory_miss w.indexer.db young
      rw [missed,missAccountHistory_result]
      simp
    | some entry =>
      obtain ⟨held,-⟩ := Option.filter_eq_some_iff.mp young
      have known := accounted _ entry held
      have account : normalizeTonAddress codec nftAddress = entry.nftAddress := known.account
      rw [(getAccountHistory_hit young).1]
      simp only [Option.isSome_some,true_and]
      by_cases orphaned : accountHistoryCacheKey (normalizeTonAddress codec nftAddress) limit
          offset before ∈ w.orphans
      · refine iff_of_false (fun same => ?_) (not_not_intro orphaned)
        have count := queryAccountHistory_totalCount same.symm
        have fewer := known.orphan orphaned
        rw [account] at count
        omega
      · refine iff_of_true ?_ orphaned
        obtain ⟨limit',offset',before',exact',keyed,answered⟩ := known.current orphaned
        exact (queryAccountHistory_key exact' finite keyed.symm answered).symm
  | _ => simp [Fresh,FromOrphan]

/-- In a run every query returns what it would with an empty cache, exactly if none is answered
from an entry that an inserted block row has made an orphan. -/
theorem coherent_iff (codec : AddressCodec) (engine : Database.Engine) (db : Database)
    (calls : List HistoryCall) (finite : ∀ call ∈ calls, FiniteCursor call) :
    (∀ call past, call :: past <:+ calls →
        Fresh codec (watch codec engine db past).indexer call) ↔
      ∀ call past, call :: past <:+ calls → ¬FromOrphan codec (watch codec engine db past) call := by
  have each (call : HistoryCall) (past : List HistoryCall) (part : call :: past <:+ calls) :
      Fresh codec (watch codec engine db past).indexer call ↔
        ¬FromOrphan codec (watch codec engine db past) call := by
    refine (watch_accounted engine db past fun earlier member => finite earlier ?_).fresh_iff call
      (finite call (part.subset List.mem_cons_self))
    exact part.subset (List.mem_cons_of_mem _ member)
  exact ⟨fun fresh call past part => (each call past part).mp (fresh call past part),
    fun sound call past part => (each call past part).mpr (sound call past part)⟩

end Accounting

section Samples

def newestRows : Database.Engine := ⟨.newest,.newest⟩

def firstPage (now : ℤ) (before : Option AccountHistoryCursorInput) : HistoryCall :=
  .getAccountHistory now (js "a") (.finite 100) (.finite 0) before

/-- A block with a transfer. -/
def paidBlock : List HistoryCall :=
  [.insertInternalTransfer ⟨1,js "t",0,7⟩ (js "a") (js "b") (js "5") (js "p"),
    .insertBlock 1 (js "h") (js "g") 7 1]

/-- A second block row of the number takes the transfer with it while the page is cached. -/
def replacedBlock : List HistoryCall :=
  .insertBlock 1 (js "i") (js "g") 8 0 :: firstPage 0 none :: paidBlock

theorem replacedBlock_stale :
    (∀ call ∈ firstPage 1 none :: replacedBlock, FiniteCursor call) ∧
      ¬Fresh .friendly (watch .friendly newestRows .empty replacedBlock).indexer
        (firstPage 1 none) := by
  refine ⟨by simp [replacedBlock,paidBlock,firstPage,FiniteCursor,Exact],?_⟩
  show ¬_ = _
  decide +kernel

theorem replacedBlock_coherent_iff :
    (∀ call ∈ firstPage 1 none :: replacedBlock, FiniteCursor call) ∧
      ((∀ call past, call :: past <:+ firstPage 1 none :: replacedBlock →
          Fresh .friendly (watch .friendly newestRows .empty past).indexer call) ↔
        ∀ call past, call :: past <:+ firstPage 1 none :: replacedBlock →
          ¬FromOrphan .friendly (watch .friendly newestRows .empty past) call) :=
  have finite : ∀ call ∈ firstPage 1 none :: replacedBlock, FiniteCursor call := by
    simp [replacedBlock,paidBlock,firstPage,FiniteCursor,Exact]
  ⟨finite,coherent_iff .friendly newestRows .empty _ finite⟩

-- a cursor that is no number has the key of the first page and finds nothing behind it
example : ¬Fresh .friendly
    (watch .friendly newestRows .empty (firstPage 0 (some (.number .nan)) :: paidBlock)).indexer
    (firstPage 1 none) := by
  show ¬_ = _
  decide +kernel

end Samples

end Tonbankcard.Indexer
