import Tonbankcard.IndexerReplay

/-! The account snapshots are kept event by event and rebuilt by sorted queries. Where the blocks
form a chain, the one shows the rows that were stored last, and the other the greatest rows by
block and log index, of which a block with several transactions may have others. -/
namespace Tonbankcard.Indexer

open EcmaScript

section Forward

/-- A snapshot from the last changes of owner and state and the last block with a transfer. -/
def snapshotRow (owner : Option (Row NftOwnershipChange)) (state : Option (Row AccountStateChange))
    (lastBlock : Option Nat) : AccountSnapshot :=
  { currentOwner := owner.map (·.content.newOwner)
    currentState := (state.map (·.content.newState)).getD 0
    lastTransferBlock := lastBlock
    lastStateChangeBlock := state.map (·.blockNumber) }

def snapshotOf (owner : Option (Row NftOwnershipChange)) (state : Option (Row AccountStateChange))
    (lastBlock : Option Nat) : Option AccountSnapshot :=
  if owner.isNone && state.isNone && lastBlock.isNone then none
  else some (snapshotRow owner state lastBlock)

theorem snapshotOf_getD (owner : Option (Row NftOwnershipChange))
    (state : Option (Row AccountStateChange)) (lastBlock : Option Nat) :
    (snapshotOf owner state lastBlock).getD ⟨none,0,none,none⟩ =
      snapshotRow owner state lastBlock := by
  unfold snapshotOf
  split
  · rename_i none
    simp only [Bool.and_eq_true,Option.isNone_iff_eq_none] at none
    rw [none.1.1,none.1.2,none.2]
    rfl
  · rfl

/-- What the snapshot of an account is by the rows that were stored last. -/
def Database.lastSnapshot (db : Database) (nftAddress : JsString) : Option AccountSnapshot :=
  snapshotOf (db.ownershipChangesOf nftAddress).getLast? (db.stateChangesOf nftAddress).getLast?
    (db.transferBlocksOf nftAddress).max?

def Database.ShowsLast (db : Database) : Prop :=
  ∀ nftAddress, db.accountSnapshots.get nftAddress = db.lastSnapshot nftAddress

variable {codec : AddressCodec}

theorem Database.ShowsLast.orNew {db : Database} (shows : db.ShowsLast) (nftAddress : JsString) :
    db.snapshotOrNew nftAddress = snapshotRow (db.ownershipChangesOf nftAddress).getLast?
      (db.stateChangesOf nftAddress).getLast? (db.transferBlocksOf nftAddress).max? := by
  unfold Database.snapshotOrNew
  rw [shows nftAddress]
  exact snapshotOf_getD _ _ _

/-- Both accounts of a transfer have the block as their last, and nothing else is new. -/
theorem updateAccountSnapshot_twice (db : Database) (payer payee : JsString) (blockNumber : Nat)
    (nftAddress : JsString) :
    ((db.updateAccountSnapshot codec (normalizeTonAddress codec payer)
      blockNumber).updateAccountSnapshot codec (normalizeTonAddress codec payee)
        blockNumber).accountSnapshots.get nftAddress =
      if normalizeTonAddress codec payer = nftAddress ∨ normalizeTonAddress codec payee = nftAddress
      then some {db.snapshotOrNew nftAddress with lastTransferBlock := some blockNumber}
      else db.accountSnapshots.get nftAddress := by
  unfold Database.updateAccountSnapshot Database.setSnapshot Database.snapshotOrNew
  simp only [normalizeTonAddress_again,FiniteMap.get_set]
  by_cases second : normalizeTonAddress codec payee = nftAddress
  · subst second
    by_cases same : normalizeTonAddress codec payee = normalizeTonAddress codec payer
    · simp only [same,if_true,or_true,Option.getD_some]
    · simp only [same,if_true,if_false,or_true]
  · by_cases first : normalizeTonAddress codec payer = nftAddress
    · simp only [first,Ne.symm second,if_true,if_false,true_or]
    · simp only [first,second,Ne.symm first,Ne.symm second,if_false,or_self]

/-- The rows of transfers and payments grew by one, of two accounts. -/
theorem showsLast_transfer {db stored : Database} (shows : db.ShowsLast)
    (snapshots : stored.accountSnapshots = db.accountSnapshots)
    (owners : stored.nftOwnershipChanges = db.nftOwnershipChanges)
    (states : stored.accountStateChanges = db.accountStateChanges)
    (low : ∀ nftAddress, ∀ other ∈ stored.transferBlocksOf nftAddress, other ≤ blockNumber)
    (party : ∀ nftAddress, normalizeTonAddress codec payer = nftAddress ∨
      normalizeTonAddress codec payee = nftAddress →
        blockNumber ∈ stored.transferBlocksOf nftAddress)
    (apart : ∀ nftAddress, ¬(normalizeTonAddress codec payer = nftAddress ∨
      normalizeTonAddress codec payee = nftAddress) →
        stored.transferBlocksOf nftAddress = db.transferBlocksOf nftAddress) :
    ((stored.updateAccountSnapshot codec (normalizeTonAddress codec payer)
      blockNumber).updateAccountSnapshot codec (normalizeTonAddress codec payee)
        blockNumber).ShowsLast := by
  intro nftAddress
  rw [updateAccountSnapshot_twice]
  change _ = snapshotOf (stored.ownershipChangesOf nftAddress).getLast?
    (stored.stateChangesOf nftAddress).getLast? (stored.transferBlocksOf nftAddress).max?
  have owner : stored.ownershipChangesOf nftAddress = db.ownershipChangesOf nftAddress := by
    unfold Database.ownershipChangesOf
    rw [owners]
  have state : stored.stateChangesOf nftAddress = db.stateChangesOf nftAddress := by
    unfold Database.stateChangesOf
    rw [states]
  have orNew : stored.snapshotOrNew nftAddress = db.snapshotOrNew nftAddress := by
    unfold Database.snapshotOrNew
    rw [snapshots]
  rw [owner,state,orNew]
  split
  · rename_i one
    have last : (stored.transferBlocksOf nftAddress).max? = some blockNumber :=
      List.max?_eq_some_iff.mpr ⟨party nftAddress one,low nftAddress⟩
    rw [last,shows.orNew]
    simp [snapshotOf,snapshotRow]
  · rename_i none
    rw [apart nftAddress none,snapshots]
    exact shows nftAddress

/-- Rows of earlier blocks or this one, with other keys than some events. -/
def Room (db : Database) (blockNumber : Nat) (events : List PendingEvent) : Prop :=
  ∀ {Content : Type} (t : EventTable Content), t.conflict = .ignore → ∀ row ∈ t.table db,
    row.blockNumber ≤ blockNumber ∧
    ∀ pending ∈ events, row.key ≠ (pending.txHash,pending.logIndex)

theorem insertOrIgnore_fresh {row : Row Content} {table : Table Content}
    (fresh : ∀ other ∈ table, other.key ≠ row.key) :
    insertOrIgnore row table = table ++ [row] := by
  have none : table.any row.sameKey = false := by
    rw [List.any_eq_false]
    exact fun other member same => fresh other member (Row.sameKey_key.mp same).symm
  simp only [insertOrIgnore,none,Bool.false_eq_true,if_false]

variable {db after : Database} {pending : PendingEvent} {rest : List PendingEvent}

theorem Room.insert (room : Room db blockNumber (pending :: rest)) (t : EventTable Content)
    (ignore : t.conflict = .ignore) (timestamp : Nat) (content : Content) :
    insertOrIgnore (Database.Place.row ⟨blockNumber,pending.txHash,pending.logIndex,timestamp⟩
      content) (t.table db) = t.table db ++
        [Database.Place.row ⟨blockNumber,pending.txHash,pending.logIndex,timestamp⟩ content] :=
  insertOrIgnore_fresh fun row member => (room t ignore row member).2 pending List.mem_cons_self

theorem Room.store (room : Room db blockNumber (pending :: rest))
    (apart : ∀ other ∈ rest,
      (pending.txHash,pending.logIndex) ≠ (other.txHash,other.logIndex))
    (stored : db.storeEvent codec ⟨blockNumber,pending.txHash,pending.logIndex,timestamp⟩
      pending.event = some after) : Room after blockNumber rest := by
  intro Content t ignore row member
  have taken := t.stored stored
  rw [ignore] at taken
  unfold Conflict.store at taken
  have old (row : Row Content) (member : row ∈ t.table db) : row.blockNumber ≤ blockNumber ∧
      ∀ pending ∈ rest, row.key ≠ (pending.txHash,pending.logIndex) :=
    ⟨(room t ignore row member).1,
      fun other inside => (room t ignore row member).2 other (List.mem_cons_of_mem _ inside)⟩
  split at taken
  · exact old row (Option.some.inj taken ▸ member)
  · rename_i content _
    change some (insertOrIgnore _ _) = _ at taken
    rw [room.insert t ignore] at taken
    rw [← Option.some.inj taken] at member
    rcases List.mem_append.mp member with before | new
    · exact old row before
    · rw [List.mem_singleton.mp new]
      exact ⟨le_rfl,apart⟩

theorem Room.transferBlocks (room : Room db blockNumber events) (nftAddress : JsString) :
    ∀ other ∈ db.transferBlocksOf nftAddress, other ≤ blockNumber := by
  intro other member
  rcases List.mem_append.mp member with inside | inside
  · obtain ⟨row,kept,rfl⟩ := List.mem_map.mp inside
    exact (room internalTransfers rfl row (List.mem_of_mem_filter kept)).1
  · obtain ⟨row,kept,rfl⟩ := List.mem_map.mp inside
    exact (room merchantPayments rfl row (List.mem_of_mem_filter kept)).1

/-- The step lemma: an event that is stored last is shown. -/
theorem storeEvent_showsLast (shows : db.ShowsLast)
    (room : Room db blockNumber (pending :: rest)) (later : Room after blockNumber rest)
    (stored : db.storeEvent codec ⟨blockNumber,pending.txHash,pending.logIndex,timestamp⟩
      pending.event = some after) : after.ShowsLast := by
  cases event : pending.event with
  | internalTransfer fromNft toNft amountTbc payloadHash =>
    rw [event] at stored
    obtain rfl := Option.some.inj stored
    have inserted := room.insert internalTransfers rfl timestamp
      ⟨normalizeTonAddress codec fromNft,normalizeTonAddress codec toNft,natDigits amountTbc,
        payloadHash⟩
    change insertOrIgnore _ db.internalTransfers = _ at inserted
    refine showsLast_transfer shows rfl rfl rfl later.transferBlocks (fun nftAddress party => ?_)
      fun nftAddress apart => ?_
    · unfold Database.transferBlocksOf
      simp only [inserted]
      rw [filter_kept (by simp only [Bool.or_eq_true,decide_eq_true_eq]; exact party)]
      simp [Database.Place.row]
    · unfold Database.transferBlocksOf
      simp only [inserted]
      rw [filter_other (by simp only [Bool.or_eq_true,decide_eq_true_eq]; exact apart)]
      rfl
  | merchantPayment payerNft merchantNft amountTbc payloadHash =>
    rw [event] at stored
    obtain rfl := Option.some.inj stored
    have inserted := room.insert merchantPayments rfl timestamp
      ⟨normalizeTonAddress codec payerNft,normalizeTonAddress codec merchantNft,
        natDigits amountTbc,payloadHash⟩
    change insertOrIgnore _ db.merchantPayments = _ at inserted
    refine showsLast_transfer shows rfl rfl rfl later.transferBlocks (fun nftAddress party => ?_)
      fun nftAddress apart => ?_
    · unfold Database.transferBlocksOf
      simp only [inserted]
      rw [filter_kept (by simp only [Bool.or_eq_true,decide_eq_true_eq]; exact party)]
      simp [Database.Place.row]
    · unfold Database.transferBlocksOf
      simp only [inserted]
      rw [filter_other (by simp only [Bool.or_eq_true,decide_eq_true_eq]; exact apart)]
      rfl
  | accountStateChanged account oldState newState =>
    rw [event] at stored
    obtain rfl := Option.some.inj stored
    have inserted := room.insert accountStateChanges rfl timestamp
      ⟨normalizeTonAddress codec account,oldState,newState⟩
    change insertOrIgnore _ db.accountStateChanges = _ at inserted
    unfold Database.insertAccountStateChange
    simp only [inserted]
    intro nftAddress
    unfold Database.setSnapshot
    simp only [FiniteMap.get_set]
    by_cases same : normalizeTonAddress codec account = nftAddress
    · rw [if_pos same.symm,same]
      unfold Database.lastSnapshot Database.stateChangesOf
      rw [filter_kept (decide_eq_true rfl),List.getLast?_concat]
      change some {db.snapshotOrNew nftAddress with
        currentState := newState,lastStateChangeBlock := some blockNumber} = _
      rw [shows.orNew nftAddress]
      simp only [snapshotOf,Option.isNone_some,Bool.and_false,Bool.false_and,Bool.false_eq_true,
        if_false]
      rfl
    · rw [if_neg (Ne.symm same)]
      unfold Database.lastSnapshot Database.stateChangesOf
      rw [filter_other fun held => same (of_decide_eq_true held)]
      exact shows nftAddress
  | nftOwnershipChange account collectionAddress oldOwner newOwner =>
    rw [event] at stored
    obtain rfl := Option.some.inj stored
    have inserted := room.insert nftOwnershipChanges rfl timestamp
      ⟨normalizeTonAddress codec account,normalizeTonAddress codec collectionAddress,
        oldOwner.map (normalizeTonAddress codec),normalizeTonAddress codec newOwner⟩
    change insertOrIgnore _ db.nftOwnershipChanges = _ at inserted
    unfold Database.insertNFTOwnershipChange
    simp only [inserted]
    intro nftAddress
    unfold Database.setSnapshot
    simp only [FiniteMap.get_set]
    by_cases same : normalizeTonAddress codec account = nftAddress
    · rw [if_pos same.symm,same]
      unfold Database.lastSnapshot Database.ownershipChangesOf
      rw [filter_kept (decide_eq_true rfl),List.getLast?_concat]
      change some {db.snapshotOrNew nftAddress with
        currentOwner := some (normalizeTonAddress codec newOwner)} = _
      rw [shows.orNew nftAddress]
      simp only [snapshotOf,Option.isNone_some,Bool.false_and,Bool.false_eq_true,if_false]
      rfl
    · rw [if_neg (Ne.symm same)]
      unfold Database.lastSnapshot Database.ownershipChangesOf
      rw [filter_other fun held => same (of_decide_eq_true held)]
      exact shows nftAddress
  | transparencyProtocolMetrics =>
    rw [event] at stored
    obtain ⟨table,-,rfl⟩ := Option.map_eq_some_iff.mp stored
    exact shows
  | transparencyLockActivity =>
    rw [event] at stored
    obtain ⟨table,-,rfl⟩ := Option.map_eq_some_iff.mp stored
    exact shows
  | transparencyParameterChange =>
    rw [event] at stored
    obtain rfl := Option.some.inj stored
    exact shows

/-- The run lemma: the events of a block, one insert after the other. -/
theorem storeEvents_showsLast {events : List PendingEvent} (shows : db.ShowsLast)
    (room : Room db blockNumber events)
    (keys : (events.map fun pending => (pending.txHash,pending.logIndex)).Nodup)
    (stored : Database.storeEvents codec blockNumber timestamp events db = some after) :
    after.ShowsLast := by
  induction events generalizing db with
  | nil =>
    obtain rfl := Option.some.inj stored
    exact shows
  | cons pending rest ih =>
    obtain ⟨middle,first,later⟩ := Option.bind_eq_some_iff.mp stored
    obtain ⟨apart,more⟩ := List.nodup_cons.mp keys
    have left : Room middle blockNumber rest := room.store (fun other member same => apart
      (List.mem_map.mpr ⟨other,member,same.symm⟩)) first
    exact ih (storeEvent_showsLast shows room left first) left more later

/-- The events of a chain's next block have keys of their own. -/
theorem Mirrors.room (mirrors : Mirrors codec blocks db) (chain : Chain (blocks ++ [block])) :
    Room db block.blockNumber block.events := by
  intro Content t ignore row member
  rw [mirrors.tables t ignore] at member
  obtain ⟨earlier,inside,found⟩ := List.mem_flatMap.mp member
  have low := (List.pairwise_append.mp chain.ascending).2.2 earlier inside block
    List.mem_cons_self
  refine ⟨rows_blockNumber found ▸ low.le,fun pending there same => ?_⟩
  obtain ⟨source,listed,made⟩ := List.mem_filterMap.mp found
  obtain ⟨-,-,key,index,-⟩ := t.row_eq made
  obtain ⟨hash,place⟩ := Prod.mk_inj.mp same
  have logged := chain.logged
  rw [List.flatMap_append] at logged
  have order := (List.pairwise_append.mp logged).2.2 source
    (List.mem_flatMap.mpr ⟨earlier,inside,listed⟩) pending
    (List.mem_flatMap.mpr ⟨block,List.mem_cons_self,there⟩) (key.symm.trans hash)
  rw [← index,place] at order
  exact Nat.lt_irrefl _ order

theorem Chain.keys (chain : Chain (blocks ++ [block])) :
    (block.events.map fun pending => (pending.txHash,pending.logIndex)).Nodup := by
  have logged := chain.logged
  rw [List.flatMap_append] at logged
  refine List.pairwise_map.mpr ((List.pairwise_append.mp logged).2.1.sublist
    (by simp) |>.imp fun order same => ?_)
  obtain ⟨hash,place⟩ := Prod.mk_inj.mp same
  exact Nat.lt_irrefl _ (place ▸ order hash)

/-- The step lemma: the next block of a chain. -/
theorem commitBlock_showsLast (mirrors : Mirrors codec blocks db) (shows : db.ShowsLast)
    (chain : Chain (blocks ++ [block])) (committed : db.commitBlock codec block = some after) :
    after.ShowsLast := by
  obtain ⟨stored,events,rfl⟩ := Option.map_eq_some_iff.mp committed
  unfold Database.insertBlock at events
  rw [deleteBlocks_none (mirrors.apart chain)] at events
  have room : Room db block.blockNumber block.events := mirrors.room chain
  have shown : stored.ShowsLast := by
    refine storeEvents_showsLast ?_ ?_ chain.keys events
    · exact shows
    · intro Content t ignore row member
      rw [t.blocks] at member
      exact room t ignore row member
  exact shown

theorem index_showsLast (chain : Chain blocks)
    (indexed : Database.index codec blocks .empty = some db) : db.ShowsLast := by
  refine (index_induction (P := fun blocks db => Mirrors codec blocks db ∧ db.ShowsLast)
    ⟨.empty,fun _ => rfl⟩ ?_ chain indexed).2
  rintro blocks block db after chain ⟨mirrors,shows⟩ committed
  exact ⟨mirrors.commit chain committed,commitBlock_showsLast mirrors shows chain committed⟩

end Forward

section Rollback
variable {codec : AddressCodec} {engine : Database.Engine}

theorem rebuildAccountSnapshot_get (db : Database) (account nftAddress : JsString) :
    (db.rebuildAccountSnapshot engine account).accountSnapshots.get nftAddress =
      if nftAddress = account then snapshotOf (engine.owner.pick (db.ownershipChangesOf nftAddress))
        (engine.state.pick (db.stateChangesOf nftAddress)) (db.transferBlocksOf nftAddress).max?
      else db.accountSnapshots.get nftAddress := by
  unfold Database.rebuildAccountSnapshot snapshotOf
  simp only
  split
  · rename_i none
    rw [FiniteMap.get_del]
    split
    · rename_i same
      rw [same,if_pos none]
    · rfl
  · rename_i some
    unfold Database.setSnapshot
    rw [FiniteMap.get_set]
    split
    · rename_i same
      rw [same,if_neg some]
      rfl
    · rfl

theorem rebuilt_get (accounts : List JsString) (db : Database) (nftAddress : JsString) :
    (accounts.foldl (Database.rebuildAccountSnapshot engine) db).accountSnapshots.get nftAddress =
      if nftAddress ∈ accounts then
        snapshotOf (engine.owner.pick (db.ownershipChangesOf nftAddress))
          (engine.state.pick (db.stateChangesOf nftAddress)) (db.transferBlocksOf nftAddress).max?
      else db.accountSnapshots.get nftAddress := by
  induction accounts generalizing db with
  | nil => rfl
  | cons account rest ih =>
    have owners : (db.rebuildAccountSnapshot engine account).nftOwnershipChanges =
        db.nftOwnershipChanges := rebuilt_table nftOwnershipChanges [account] db
    have states : (db.rebuildAccountSnapshot engine account).accountStateChanges =
        db.accountStateChanges := rebuilt_table accountStateChanges [account] db
    have transfers : (db.rebuildAccountSnapshot engine account).internalTransfers =
        db.internalTransfers := rebuilt_table internalTransfers [account] db
    have payments : (db.rebuildAccountSnapshot engine account).merchantPayments =
        db.merchantPayments := rebuilt_table merchantPayments [account] db
    rw [List.foldl_cons,ih,rebuildAccountSnapshot_get]
    unfold Database.ownershipChangesOf Database.stateChangesOf Database.transferBlocksOf
    rw [owners,states,transfers,payments]
    simp only [List.mem_cons]
    split_ifs <;> simp_all

/-- The accounts that the row of an event refers to. -/
def IndexedEvent.accounts (codec : AddressCodec) (event : IndexedEvent) : List JsString :=
  (event.toInternalTransfer codec).toList.flatMap (fun row => [row.fromNft,row.toNft]) ++
  (event.toMerchantPayment codec).toList.flatMap (fun row => [row.payerNft,row.merchantNft]) ++
  (event.toAccountStateChange codec).toList.map (·.nftAddress) ++
  (event.toNftOwnershipChange codec).toList.map (·.nftAddress)

/-- An event of a block that is rolled back refers to an account. -/
def Touched (codec : AddressCodec) (blocks : List IndexedBlock) (fromBlock : Nat)
    (nftAddress : JsString) : Prop :=
  ∃ block ∈ since fromBlock blocks, ∃ pending ∈ block.events,
    nftAddress ∈ pending.event.accounts codec

variable {db replayed : Database}

theorem Mirrors.reverted (mirrors : Mirrors codec blocks db) (fromBlock : Nat)
    (t : EventTable Content) (ignore : t.conflict = .ignore) (refers : Content → Prop) :
    (∃ row ∈ (t.table db).filter (fromBlock ≤ ·.blockNumber), refers row.content) ↔
      ∃ block ∈ since fromBlock blocks, ∃ pending ∈ block.events,
        ∃ content, t.content codec pending.event = some content ∧ refers content := by
  rw [mirrors.tables t ignore]
  constructor
  · rintro ⟨row,member,held⟩
    obtain ⟨inside,high⟩ := List.mem_filter.mp member
    obtain ⟨block,listed,found⟩ := List.mem_flatMap.mp inside
    obtain ⟨pending,there,made⟩ := List.mem_filterMap.mp found
    refine ⟨block,List.mem_filter.mpr ⟨listed,?_⟩,pending,there,_,(t.row_eq made).1,held⟩
    rw [← rows_blockNumber found]
    exact high
  · rintro ⟨block,member,pending,there,content,found,held⟩
    obtain ⟨listed,high⟩ := List.mem_filter.mp member
    exact ⟨_,List.mem_filter.mpr ⟨List.mem_flatMap.mpr ⟨block,listed,List.mem_filterMap.mpr
      ⟨pending,there,Option.map_eq_some_iff.mpr ⟨content,found,rfl⟩⟩⟩,high⟩,held⟩

theorem Mirrors.mem_affected (mirrors : Mirrors codec blocks db) :
    nftAddress ∈ db.affected fromBlock ↔ Touched codec blocks fromBlock nftAddress := by
  have transfers := mirrors.reverted fromBlock internalTransfers rfl
    fun row => nftAddress ∈ [row.fromNft,row.toNft]
  have payments := mirrors.reverted fromBlock merchantPayments rfl
    fun row => nftAddress ∈ [row.payerNft,row.merchantNft]
  have states := mirrors.reverted fromBlock accountStateChanges rfl
    fun row => row.nftAddress = nftAddress
  have owners := mirrors.reverted fromBlock nftOwnershipChanges rfl
    fun row => row.nftAddress = nftAddress
  unfold Database.affected Touched IndexedEvent.accounts
  simp only [List.mem_dedup,List.mem_append,List.mem_flatMap,List.mem_map,Option.mem_toList]
  simp only [and_or_left,exists_or]
  exact or_congr (or_congr (or_congr transfers payments) states) owners

/-- Rows that do not refer to a touched account are all of blocks that stay. -/
theorem filter_untouched (chain : Chain blocks) (mirrors : Mirrors codec blocks db)
    (earlier : Mirrors codec (before fromBlock blocks) replayed) (t : EventTable Content)
    (ignore : t.conflict = .ignore) (keep : Row Content → Bool)
    (none : ∀ block ∈ since fromBlock blocks, ∀ pending ∈ block.events, ∀ content,
      t.content codec pending.event = some content → ∀ place, keep (Database.Place.row place
        content) = false) :
    (t.table db).filter keep = (t.table replayed).filter keep := by
  rw [mirrors.tables t ignore,earlier.tables t ignore]
  conv_lhs => rw [← chain.split fromBlock]
  rw [List.flatMap_append,List.filter_append]
  have gone : ((since fromBlock blocks).flatMap (t.rows codec)).filter keep = [] := by
    refine List.filter_eq_nil_iff.mpr fun row member => ?_
    obtain ⟨block,listed,found⟩ := List.mem_flatMap.mp member
    obtain ⟨pending,there,made⟩ := List.mem_filterMap.mp found
    obtain ⟨content,taken,rfl⟩ := Option.map_eq_some_iff.mp made
    exact Bool.eq_false_iff.mp (none block listed pending there content taken _)
  rw [gone,List.append_nil]

/-- The snapshot of an account that is not touched is the one before the blocks that go. -/
theorem untouched_lastSnapshot (chain : Chain blocks) (mirrors : Mirrors codec blocks db)
    (earlier : Mirrors codec (before fromBlock blocks) replayed)
    (untouched : ¬Touched codec blocks fromBlock nftAddress) :
    db.lastSnapshot nftAddress = replayed.lastSnapshot nftAddress := by
  have apart (block) (listed : block ∈ since fromBlock blocks) (pending)
      (there : pending ∈ block.events) : nftAddress ∉ pending.event.accounts codec :=
    fun refers => untouched ⟨block,listed,pending,there,refers⟩
  unfold IndexedEvent.accounts at apart
  simp only [List.mem_append,List.mem_flatMap,List.mem_map,Option.mem_toList,not_or,not_exists,
    not_and,List.mem_cons,List.not_mem_nil,or_false] at apart
  have owners : db.ownershipChangesOf nftAddress = replayed.ownershipChangesOf nftAddress :=
    filter_untouched chain mirrors earlier nftOwnershipChanges rfl _
      fun block listed pending there content taken place =>
        decide_eq_false ((apart block listed pending there).2 content taken)
  have states : db.stateChangesOf nftAddress = replayed.stateChangesOf nftAddress :=
    filter_untouched chain mirrors earlier accountStateChanges rfl _
      fun block listed pending there content taken place =>
        decide_eq_false ((apart block listed pending there).1.2 content taken)
  have transfers := filter_untouched chain mirrors earlier internalTransfers rfl
    (fun row => row.content.fromNft = nftAddress || row.content.toNft = nftAddress)
    fun block listed pending there content taken place => by
      have other := (apart block listed pending there).1.1.1 content taken
      exact Bool.or_eq_false_iff.mpr ⟨decide_eq_false (Ne.symm other.1),
        decide_eq_false (Ne.symm other.2)⟩
  have payments := filter_untouched chain mirrors earlier merchantPayments rfl
    (fun row => row.content.payerNft = nftAddress || row.content.merchantNft = nftAddress)
    fun block listed pending there content taken place => by
      have other := (apart block listed pending there).1.1.2 content taken
      exact Bool.or_eq_false_iff.mpr ⟨decide_eq_false (Ne.symm other.1),
        decide_eq_false (Ne.symm other.2)⟩
  have blocks : db.transferBlocksOf nftAddress = replayed.transferBlocksOf nftAddress :=
    congrArg₂ (fun (internal : Table InternalTransfer) (merchant : Table MerchantPayment) =>
      internal.map (·.blockNumber) ++ merchant.map (·.blockNumber)) transfers payments
  unfold Database.lastSnapshot
  rw [owners,states,blocks]

/-- What a rollback leaves of the snapshots: those of touched accounts by the sorted queries, the
others as they were before the blocks that go. -/
theorem handleReorg_get (chain : Chain blocks) (mirrors : Mirrors codec blocks db)
    (shows : db.ShowsLast) (earlier : Mirrors codec (before fromBlock blocks) replayed)
    (engine : Database.Engine) (nftAddress : JsString)
    [Decidable (Touched codec blocks fromBlock nftAddress)] :
    (db.handleReorg engine fromBlock).accountSnapshots.get nftAddress =
      if Touched codec blocks fromBlock nftAddress then
        snapshotOf (engine.owner.pick (replayed.ownershipChangesOf nftAddress))
          (engine.state.pick (replayed.stateChangesOf nftAddress))
          (replayed.transferBlocksOf nftAddress).max?
      else replayed.lastSnapshot nftAddress := by
  have left {Content : Type} (t : EventTable Content) (ignore : t.conflict = .ignore) :
      t.table (db.deleteBlocks fun block => fromBlock ≤ block.blockNumber) = t.table replayed := by
    have rolled : t.table (db.handleReorg engine fromBlock) =
        db.cascade (fun block => fromBlock ≤ block.blockNumber) (t.table db) :=
      handleReorg_table t db fromBlock
    rw [t.cascaded,← rolled,(mirrors.reorg fromBlock).tables t ignore,earlier.tables t ignore]
  have rebuilt : (db.handleReorg engine fromBlock).accountSnapshots.get nftAddress =
      ((db.affected fromBlock).foldl (Database.rebuildAccountSnapshot engine)
        (db.deleteBlocks fun block => fromBlock ≤ block.blockNumber)).accountSnapshots.get
          nftAddress := by
    unfold Database.handleReorg
    simp only
    split <;> rfl
  rw [rebuilt,rebuilt_get]
  simp only [mirrors.mem_affected]
  have owners : (db.deleteBlocks fun block => fromBlock ≤ block.blockNumber).nftOwnershipChanges =
      replayed.nftOwnershipChanges := left nftOwnershipChanges rfl
  have states : (db.deleteBlocks fun block => fromBlock ≤ block.blockNumber).accountStateChanges =
      replayed.accountStateChanges := left accountStateChanges rfl
  have transfers : (db.deleteBlocks fun block => fromBlock ≤ block.blockNumber).internalTransfers =
      replayed.internalTransfers := left internalTransfers rfl
  have payments : (db.deleteBlocks fun block => fromBlock ≤ block.blockNumber).merchantPayments =
      replayed.merchantPayments := left merchantPayments rfl
  split
  · unfold Database.ownershipChangesOf Database.stateChangesOf Database.transferBlocksOf
    rw [owners,states,transfers,payments]
  · rename_i untouched
    exact (shows nftAddress).trans (untouched_lastSnapshot chain mirrors earlier untouched)

end Rollback

section LastRows
variable {codec : AddressCodec} {Value : Type}

/-- Each greatest row has the value of the row that is stored last. -/
def LastAgrees (value : Content → Value) (rows : Table Content) : Prop :=
  ∀ row, Latest rows row → ∀ last ∈ rows.getLast?, value row.content = value last.content

theorem lastAgrees_single {value : Content → Value} {rows : Table Content}
    (short : rows.length ≤ 1) : LastAgrees value rows := by
  intro row latest last member
  match rows, short with
  | [only], _ =>
    rw [List.mem_singleton.mp latest.1]
    exact congrArg (fun row : Row Content => value row.content) (Option.some.inj member)

theorem LatestQuery.pick_agrees {value : Content → Value} {rows : Table Content}
    (query : LatestQuery Content) (agrees : LastAgrees value rows) :
    (query.pick rows).map (fun row => value row.content) =
      rows.getLast?.map fun row => value row.content := by
  cases picked : query.pick rows with
  | none =>
    rw [query.found rows picked]
    rfl
  | some row =>
    have latest := query.latest rows row picked
    have filled := List.getLast?_eq_some_getLast (List.ne_nil_of_mem latest.1)
    rw [filled]
    exact congrArg some (agrees row latest _ filled)

/-- Rows of ascending blocks end with one of the last block. -/
theorem lastAgrees_blockNumber {rows : Table Content}
    (ascending : rows.Pairwise fun earlier later => earlier.blockNumber ≤ later.blockNumber) :
    ∀ row, Latest rows row → ∀ last ∈ rows.getLast?, row.blockNumber = last.blockNumber := by
  intro row latest last member
  obtain ⟨front,rfl⟩ := List.getLast?_eq_some_iff.mp member
  have low : row.blockNumber ≤ last.blockNumber := by
    rcases List.mem_append.mp latest.1 with early | same
    · exact (List.pairwise_append.mp ascending).2.2 row early last List.mem_cons_self
    · rw [List.mem_singleton.mp same]
  have high := latest.2 last (List.mem_append_right _ List.mem_cons_self)
  unfold Row.AtMost at high
  omega

theorem LatestQuery.pick_blockNumber {rows : Table Content} (query : LatestQuery Content)
    (ascending : rows.Pairwise fun earlier later => earlier.blockNumber ≤ later.blockNumber) :
    (query.pick rows).map (·.blockNumber) = rows.getLast?.map (·.blockNumber) := by
  cases picked : query.pick rows with
  | none =>
    rw [query.found rows picked]
    rfl
  | some row =>
    have latest := query.latest rows row picked
    have filled := List.getLast?_eq_some_getLast (List.ne_nil_of_mem latest.1)
    rw [filled]
    exact congrArg some (lastAgrees_blockNumber ascending row latest _ filled)

/-- A query that answers with one of the greatest rows of a table. -/
def LatestQuery.picking [DecidableEq Content] (table : Table Content) (row : Row Content)
    (latest : Latest table row) : LatestQuery Content where
  pick other := if other = table then some row else Indexer.newest other
  latest other found picked := by
    split at picked
    · rename_i same
      rw [same,← Option.some.inj picked]
      exact latest
    · exact newest_latest other found picked
  found other none := by
    split at none
    · contradiction
    · exact newest_none other none

theorem LatestQuery.picking_pick [DecidableEq Content] {table : Table Content}
    {row : Row Content} (latest : Latest table row) :
    (LatestQuery.picking table row latest).pick table = some row := if_pos rfl

theorem snapshotOf_congr {owner owner' : Option (Row NftOwnershipChange)}
    {state state' : Option (Row AccountStateChange)} {lastBlock : Option Nat}
    (owners : owner.map (·.content.newOwner) = owner'.map (·.content.newOwner))
    (states : state.map (·.content.newState) = state'.map (·.content.newState))
    (blocks : state.map (·.blockNumber) = state'.map (·.blockNumber)) :
    snapshotOf owner state lastBlock = snapshotOf owner' state' lastBlock := by
  have ownerless : owner.isNone = owner'.isNone := by
    simpa only [Option.isNone_map] using congrArg Option.isNone owners
  have stateless : state.isNone = state'.isNone := by
    simpa only [Option.isNone_map] using congrArg Option.isNone states
  unfold snapshotOf snapshotRow
  rw [owners,states,blocks,ownerless,stateless]

end LastRows

section Settled
variable (codec : AddressCodec) (blocks : List IndexedBlock) (nftAddress : JsString)

def ownershipRows : Table NftOwnershipChange :=
  (blocks.flatMap (nftOwnershipChanges.rows codec)).filter fun row =>
    row.content.nftAddress = nftAddress

def stateRows : Table AccountStateChange :=
  (blocks.flatMap (accountStateChanges.rows codec)).filter fun row =>
    row.content.nftAddress = nftAddress

/-- For each account that a rollback touches, the greatest rows of the earlier blocks by block and
log index have the owner and the state of the last ones in the order of the chain. -/
def LastByLogIndex (fromBlock : Nat) : Prop :=
  ∀ nftAddress, Touched codec blocks fromBlock nftAddress →
    LastAgrees NftOwnershipChange.newOwner
      (ownershipRows codec (before fromBlock blocks) nftAddress) ∧
    LastAgrees AccountStateChange.newState (stateRows codec (before fromBlock blocks) nftAddress)

end Settled

/-- Whatever greatest rows the sorted queries answer with, the snapshots after a rollback are those
of a replay of the blocks before, if and only if the last rows are the greatest by log index. -/
theorem rollback_replays_iff (codec : AddressCodec) (blocks : List IndexedBlock)
    (chain : Chain blocks) (db : Database)
    (indexed : Database.index codec blocks .empty = some db) (fromBlock : Nat) :
    ∃ replayed, Database.index codec (before fromBlock blocks) .empty = some replayed ∧
      ((∀ engine, (db.handleReorg engine fromBlock).accountSnapshots =
          replayed.accountSnapshots) ↔ LastByLogIndex codec blocks fromBlock) := by
  classical
  obtain ⟨replayed,first,-⟩ := index_before chain indexed fromBlock
  have mirrors := index_mirrors chain indexed
  have earlier := chain.sublist (List.filter_sublist (p := fun block : IndexedBlock =>
    decide (block.blockNumber < fromBlock)))
  have mirrors' := index_mirrors earlier first
  have shows' := index_showsLast earlier first
  have owners (nftAddress : JsString) : replayed.ownershipChangesOf nftAddress =
      ownershipRows codec (before fromBlock blocks) nftAddress :=
    congrArg (List.filter _) (mirrors'.tables nftOwnershipChanges rfl)
  have states (nftAddress : JsString) : replayed.stateChangesOf nftAddress =
      stateRows codec (before fromBlock blocks) nftAddress :=
    congrArg (List.filter _) (mirrors'.tables accountStateChanges rfl)
  have rolled := handleReorg_get chain mirrors (index_showsLast chain indexed) mirrors'
  refine ⟨replayed,first,fun same nftAddress touched => ?_,fun agrees engine => ?_⟩
  · have equal (engine : Database.Engine) := (rolled engine nftAddress).symm.trans
      ((congrArg (FiniteMap.get · nftAddress) (same engine)).trans (shows' nftAddress))
    simp only [if_pos touched] at equal
    unfold Database.lastSnapshot at equal
    rw [owners,states] at equal
    constructor
    · intro row latest last member
      have shown := equal ⟨.picking _ row latest,.newest⟩
      simp only [LatestQuery.picking_pick] at shown
      rw [member] at shown
      simp only [snapshotOf,Option.isNone_some,Bool.false_and,Bool.false_eq_true,if_false] at shown
      exact Option.some.inj (congrArg AccountSnapshot.currentOwner (Option.some.inj shown))
    · intro row latest last member
      have shown := equal ⟨.newest,.picking _ row latest⟩
      simp only [LatestQuery.picking_pick] at shown
      rw [member] at shown
      simp only [snapshotOf,Option.isNone_some,Bool.and_false,Bool.false_and,Bool.false_eq_true,
        if_false] at shown
      exact congrArg AccountSnapshot.currentState (Option.some.inj shown)
  · refine Finmap.ext_lookup fun nftAddress => ?_
    change FiniteMap.get _ nftAddress = FiniteMap.get _ nftAddress
    rw [rolled,shows' nftAddress]
    split
    · rename_i touched
      obtain ⟨owner,state⟩ := agrees nftAddress touched
      unfold Database.lastSnapshot
      rw [owners,states]
      exact snapshotOf_congr (engine.owner.pick_agrees owner) (engine.state.pick_agrees state)
        (engine.state.pick_blockNumber ((earlier.rows_ascending accountStateChanges).filter _))
    · rfl

section Records

def item : JsString := Ton.Address.friendly ⟨0,2⟩

/-- `ownership_assigned` without an owner before, as a bag of cells. -/
def assignedBody : JsString := js "te6ccgEBAQEADwAAGQUTjZEAAAAAAAAAByA="

def assignedCell : Ton.Cell :=
  .ordinary (Ton.uintBits 32 ownershipAssigned ++ Ton.uintBits 64 7 ++ [false,false]) []

/-- A service that follows one item. -/
def itemService : Service :=
  {reorgOnly with
    cells := ⟨fun body => if body = assignedBody then some assignedCell else none,fun _ => none⟩
    nftCollections := [item]}

/-- A transaction in which the item is assigned to some owners, one after the other. -/
def assigns (hash : JsString) (owners : List Nat) : FetchedTransaction :=
  { transaction := ⟨hash,some ⟨none,some item,none⟩,owners.map fun owner =>
      ⟨some item,some (Ton.Address.friendly ⟨0,owner⟩),some assignedBody⟩⟩
    hash }

def itemBlocks (transactions : List (List FetchedTransaction)) : List IndexedBlock :=
  (transactions.mapIdx fun index fetched =>
    (index + 1,(⟨forkHash 9 (index + 1),forkHash 9 index,0⟩ : MasterchainBlock),fetched)).map
      fun block => itemService.indexedBlock block.1 block.2.1 block.2.2

/-- One assignment in each of two blocks. -/
def assignedOnce : List IndexedBlock :=
  itemBlocks [[assigns (js "a1") [3]],[assigns (js "a2") [4]]]

/-- A transaction with two assignments, one with a third, and then the next block. -/
def assignedTwice : List IndexedBlock :=
  itemBlocks [[assigns (js "a1") [3,4],assigns (js "a2") [5]],[assigns (js "a3") [6]]]

theorem assignedOnce_chain : Chain assignedOnce :=
  collected_chain itemService _ (by decide) (by decide) (by decide)

theorem assignedTwice_chain : Chain assignedTwice :=
  collected_chain itemService _ (by decide) (by decide) (by decide)

theorem rollback_replays_once : ∃ db replayed,
    Database.index itemService.codec assignedOnce .empty = some db ∧
    Database.index itemService.codec (before 2 assignedOnce) .empty = some replayed ∧
    ∀ engine, (db.handleReorg engine 2).accountSnapshots = replayed.accountSnapshots := by
  have indexes : (Database.index itemService.codec assignedOnce .empty).isSome = true := by
    decide +kernel
  obtain ⟨db,indexed⟩ := Option.isSome_iff_exists.mp indexes
  obtain ⟨replayed,first,agree⟩ :=
    rollback_replays_iff itemService.codec assignedOnce assignedOnce_chain db indexed 2
  refine ⟨db,replayed,indexed,first,agree.mpr fun nftAddress _ => ?_⟩
  have owners : ((before 2 assignedOnce).flatMap (nftOwnershipChanges.rows
      itemService.codec)).length ≤ 1 := by decide +kernel
  have states : ((before 2 assignedOnce).flatMap (accountStateChanges.rows
      itemService.codec)).length ≤ 1 := by decide +kernel
  exact ⟨lastAgrees_single ((List.length_filter_le _ _).trans owners),
    lastAgrees_single ((List.length_filter_le _ _).trans states)⟩

/-- The last owner has log index 0 in its transaction, and the rebuild takes the owner before. -/
theorem rollback_takes_earlier :
    Chain assignedTwice ∧
    ((Database.index itemService.codec assignedTwice .empty).map fun db =>
      ((db.handleReorg itemService.engine 2).accountSnapshots.get item).map (·.currentOwner)) =
        some (some (some (Ton.Address.friendly ⟨0,4⟩))) ∧
    ((Database.index itemService.codec (before 2 assignedTwice) .empty).map fun db =>
      (db.accountSnapshots.get item).map (·.currentOwner)) =
        some (some (some (Ton.Address.friendly ⟨0,5⟩))) ∧
    Ton.Address.friendly ⟨0,4⟩ ≠ Ton.Address.friendly ⟨0,5⟩ := by
  refine ⟨assignedTwice_chain,?_⟩
  decide +kernel

end Records
end Tonbankcard.Indexer
