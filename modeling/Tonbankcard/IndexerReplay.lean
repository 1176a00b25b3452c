import Tonbankcard.IndexerTables

/-! The blocks of a chain indexed one after the other. The block rows and the rows of the tables
that ignore conflicts are those of the blocks, and a rollback leaves those of the blocks before. -/
namespace Tonbankcard.Indexer

open EcmaScript

section Chains

/-- Blocks in ascending order with hashes of their own, where log indices count the events of a
transaction. -/
structure Chain (blocks : List IndexedBlock) : Prop where
  ascending : blocks.Pairwise fun earlier later => earlier.blockNumber < later.blockNumber
  hashes : (blocks.map (·.blockHash)).Nodup
  logged : (blocks.flatMap (·.events)).Pairwise fun earlier later =>
    earlier.txHash = later.txHash → earlier.logIndex < later.logIndex

theorem Chain.empty : Chain [] := ⟨.nil,.nil,.nil⟩

theorem Chain.sublist (chain : Chain blocks) (kept : List.Sublist fewer blocks) : Chain fewer :=
  ⟨chain.ascending.sublist kept,chain.hashes.sublist (kept.map _),
    chain.logged.sublist (kept.flatMap _)⟩

theorem Chain.front (chain : Chain (blocks ++ more)) : Chain blocks :=
  chain.sublist (List.sublist_append_left _ _)

/-- What the service collects of transactions with hashes of their own. -/
theorem collected_chain (service : Service)
    (blocks : List (Nat × MasterchainBlock × List FetchedTransaction))
    (ascending : blocks.Pairwise fun earlier later => earlier.1 < later.1)
    (hashes : (blocks.map (·.2.1.rootHash)).Nodup)
    (transactions : ((blocks.flatMap (·.2.2)).map (·.hash)).Nodup) :
    Chain (blocks.map fun block => service.indexedBlock block.1 block.2.1 block.2.2) := by
  refine ⟨List.pairwise_map.mpr ascending,?_,?_⟩
  · rw [List.map_map]
    exact hashes
  · have events : (blocks.map fun block => service.indexedBlock block.1 block.2.1 block.2.2).flatMap
        (·.events) = (blocks.flatMap (·.2.2)).flatMap service.transactionEvents := by
      rw [List.flatMap_map,List.flatMap_assoc]
      rfl
    have own (fetched : FetchedTransaction) :
        ∀ pending ∈ service.transactionEvents fetched, pending.txHash = fetched.hash := by
      intro pending member
      unfold Service.transactionEvents at member
      simp only at member
      split at member
      · contradiction
      · obtain ⟨index,short,rfl⟩ := List.mem_mapIdx.mp member
        rfl
    rw [events,List.pairwise_flatMap]
    refine ⟨fun fetched _ => ?_,(List.pairwise_map.mp transactions).imp fun apart => ?_⟩
    · unfold Service.transactionEvents
      simp only
      split
      · exact .nil
      · rw [List.pairwise_iff_getElem]
        intro first second _ _ order _
        simpa using order
    · exact fun pending member other inside same => absurd
        ((own _ pending member).symm.trans (same.trans (own _ other inside))) apart

def before (fromBlock : Nat) (blocks : List IndexedBlock) : List IndexedBlock :=
  blocks.filter (·.blockNumber < fromBlock)

def since (fromBlock : Nat) (blocks : List IndexedBlock) : List IndexedBlock :=
  blocks.filter (fromBlock ≤ ·.blockNumber)

theorem Chain.split (chain : Chain blocks) (fromBlock : Nat) :
    before fromBlock blocks ++ since fromBlock blocks = blocks := by
  have ascending := chain.ascending
  clear chain
  unfold before since
  induction blocks with
  | nil => rfl
  | cons block rest ih =>
    obtain ⟨first,later⟩ := List.pairwise_cons.mp ascending
    by_cases low : block.blockNumber < fromBlock
    · rw [List.filter_cons_of_pos (by simpa using low),
        List.filter_cons_of_neg (by simpa using low),List.cons_append,ih later]
    · have high : ∀ other ∈ block :: rest, fromBlock ≤ other.blockNumber := by
        intro other member
        rcases List.mem_cons.mp member with rfl | inside
        · omega
        · have above := first other inside
          omega
      rw [List.filter_eq_nil_iff.mpr (by simpa using high),
        List.filter_eq_self.mpr (by simpa using high),List.nil_append]

end Chains

section Mirroring
variable {codec : AddressCodec} {engine : Database.Engine}

def Row.key (row : Row Content) : JsString × Nat := (row.transactionHash,row.logIndex)

theorem Row.sameKey_key {row other : Row Content} :
    row.sameKey other = true ↔ row.key = other.key :=
  Row.sameKey_iff.trans Prod.mk_inj.symm

/-- The rows of a chain have keys of their own. -/
theorem Chain.rows_logged (chain : Chain blocks) (t : EventTable Content) :
    (blocks.flatMap (t.rows codec)).Pairwise fun earlier later =>
      earlier.transactionHash = later.transactionHash → earlier.logIndex < later.logIndex := by
  obtain ⟨within,across⟩ := List.pairwise_flatMap.mp chain.logged
  refine List.pairwise_flatMap.mpr ⟨fun block member => ?_,across.imp fun apart row member => ?_⟩
  · refine List.pairwise_filterMap.mpr ((within block member).imp fun order row found other => ?_)
    obtain ⟨-,-,key,index,-⟩ := t.row_eq found
    intro found'
    obtain ⟨-,-,key',index',-⟩ := t.row_eq found'
    rw [key,index,key',index']
    exact order
  · obtain ⟨pending,inside,found⟩ := List.mem_filterMap.mp member
    obtain ⟨-,-,key,index,-⟩ := t.row_eq found
    intro other member'
    obtain ⟨pending',inside',found'⟩ := List.mem_filterMap.mp member'
    obtain ⟨-,-,key',index',-⟩ := t.row_eq found'
    rw [key,index,key',index']
    exact apart pending inside pending' inside'

theorem Chain.rows_keys (chain : Chain blocks) (t : EventTable Content) :
    ((blocks.flatMap (t.rows codec)).map Row.key).Nodup := by
  refine List.pairwise_map.mpr ((chain.rows_logged t).imp fun order same => ?_)
  obtain ⟨hash,index⟩ := Prod.mk_inj.mp same
  exact Nat.lt_irrefl _ (index ▸ order hash)

theorem rows_blockNumber {t : EventTable Content} {row : Row Content}
    (member : row ∈ t.rows codec block) : row.blockNumber = block.blockNumber := by
  obtain ⟨pending,-,found⟩ := List.mem_filterMap.mp member
  exact (t.row_eq found).2.1

theorem Chain.rows_ascending (chain : Chain blocks) (t : EventTable Content) :
    (blocks.flatMap (t.rows codec)).Pairwise fun earlier later =>
      earlier.blockNumber ≤ later.blockNumber := by
  refine List.pairwise_flatMap.mpr ⟨fun block _ => ?_,chain.ascending.imp fun low => ?_⟩
  · exact List.pairwise_of_forall_mem_list fun row member other inside =>
      ((rows_blockNumber member).trans (rows_blockNumber inside).symm).le
  · intro row member other inside
    rw [rows_blockNumber member,rows_blockNumber inside]
    exact low.le

/-- Inserts of rows with new keys append them. -/
theorem insertAll_fresh {t : EventTable Content} (ignore : t.conflict = .ignore)
    {rows table : Table Content} (fresh : ((table ++ rows).map Row.key).Nodup) :
    t.insertAll rows table = some (table ++ rows) := by
  induction rows generalizing table with
  | nil =>
    rw [List.append_nil]
    rfl
  | cons row rest ih =>
    have none : table.any row.sameKey = false := by
      rw [List.any_eq_false]
      intro other member same
      rw [List.map_append] at fresh
      exact (List.disjoint_of_nodup_append fresh) (List.mem_map_of_mem member)
        (List.mem_map.mpr ⟨row,List.mem_cons_self,Row.sameKey_key.mp same⟩)
    have appended : t.conflict.insert row table = some (table ++ [row]) := by
      rw [ignore]
      simp only [Conflict.insert,insertOrIgnore,none,Bool.false_eq_true,if_false]
    rw [List.append_cons] at fresh ⊢
    unfold EventTable.insertAll at ih ⊢
    rw [List.foldlM_cons,appended]
    exact ih fresh

theorem cascade_none {db : Database} {gone : BlockRow → Bool}
    (none : ∀ block ∈ db.blocks, gone block = false) (table : Table Content) :
    db.cascade gone table = table := by
  refine List.filter_eq_self.mpr fun row _ => ?_
  simp only [Bool.not_eq_true',List.any_eq_false,Bool.and_eq_true,not_and]
  exact fun block member _ => by rw [none block member]; exact Bool.false_ne_true

theorem deleteBlocks_none {db : Database} {gone : BlockRow → Bool}
    (none : ∀ block ∈ db.blocks, gone block = false) : db.deleteBlocks gone = db := by
  have kept : db.blocks.filter (fun block => !gone block) = db.blocks :=
    List.filter_eq_self.mpr fun block member => by rw [none block member]; rfl
  unfold Database.deleteBlocks
  simp only [cascade_none none,kept]

/-- A database with the rows of some blocks, in their order. -/
structure Mirrors (codec : AddressCodec) (blocks : List IndexedBlock) (db : Database) : Prop where
  rows : db.blocks.map (fun row => (row.blockNumber,row.blockHash)) =
    blocks.map fun block => (block.blockNumber,block.blockHash)
  tables : ∀ {Content : Type} (t : EventTable Content), t.conflict = .ignore →
    t.table db = blocks.flatMap (t.rows codec)

theorem Mirrors.empty : Mirrors codec [] .empty := ⟨rfl,fun t _ => t.empty⟩

/-- A new block of a chain deletes no row. -/
theorem Mirrors.apart {db : Database} (mirrors : Mirrors codec blocks db)
    (chain : Chain (blocks ++ [block])) : ∀ row ∈ db.blocks,
      (row.blockNumber = block.blockNumber || row.blockHash = block.blockHash) = false := by
  intro row member
  obtain ⟨earlier,inside,same⟩ := List.mem_map.mp (mirrors.rows ▸ List.mem_map_of_mem member)
  obtain ⟨number,hash⟩ := Prod.mk_inj.mp same
  have low := (List.pairwise_append.mp chain.ascending).2.2 earlier inside block
    List.mem_cons_self
  have hashes := chain.hashes
  rw [List.map_append] at hashes
  have other : earlier.blockHash ≠ block.blockHash := fun equal =>
    List.disjoint_of_nodup_append hashes (List.mem_map_of_mem inside)
      (equal ▸ List.mem_cons_self)
  simp only [← number,← hash,Bool.or_eq_false_iff,decide_eq_false_iff_not]
  exact ⟨Nat.ne_of_lt low,other⟩

/-- The step lemma: a commit of the next block of a chain adds its rows. -/
theorem Mirrors.commit {db after : Database} (mirrors : Mirrors codec blocks db)
    (chain : Chain (blocks ++ [block])) (committed : db.commitBlock codec block = some after) :
    Mirrors codec (blocks ++ [block]) after := by
  have apart := mirrors.apart chain
  refine ⟨?_,fun t ignore => ?_⟩
  · have kept : db.blocks.filter (fun other => !(other.blockNumber = block.blockNumber ||
        other.blockHash = block.blockHash)) = db.blocks :=
      List.filter_eq_self.mpr fun row member => by rw [apart row member]; rfl
    rw [(Database.commitBlock_chain committed).1,kept,List.map_append,List.map_append,mirrors.rows]
    rfl
  · have filled := commitBlock_table t committed
    have keys := @Chain.rows_keys codec _ _ chain t
    rw [List.flatMap_append,List.flatMap_singleton] at keys ⊢
    rw [cascade_none apart,mirrors.tables t ignore,insertAll_fresh ignore keys] at filled
    exact (Option.some.inj filled).symm

theorem filter_kept {row : Row Content} {keep : Row Content → Bool} (kept : keep row = true)
    (table : Table Content) : (table ++ [row]).filter keep = table.filter keep ++ [row] := by
  rw [List.filter_append,List.filter_cons_of_pos kept,List.filter_nil]

theorem filter_other {row : Row Content} {keep : Row Content → Bool} (other : ¬keep row = true)
    (table : Table Content) : (table ++ [row]).filter keep = table.filter keep := by
  rw [List.filter_append,List.filter_cons_of_neg other,List.filter_nil,List.append_nil]

theorem filter_flatMap {f : α → List β} {keep : β → Bool} {keeps : α → Bool} {items : List α}
    (same : ∀ item ∈ items, ∀ value ∈ f item, keep value = keeps item) :
    (items.flatMap f).filter keep = (items.filter keeps).flatMap f := by
  induction items with
  | nil => rfl
  | cons item rest ih =>
    obtain ⟨first,later⟩ := List.forall_mem_cons.mp same
    rw [List.flatMap_cons,List.filter_append,ih later]
    cases kept : keeps item with
    | true =>
      rw [List.filter_cons_of_pos kept,List.flatMap_cons,
        List.filter_eq_self.mpr fun value member => (first value member).trans kept]
    | false =>
      rw [List.filter_cons_of_neg (by simp [kept]),
        List.filter_eq_nil_iff.mpr fun value member => by simp [first value member,kept],
        List.nil_append]

/-- What a rollback leaves of rows that come from the blocks. -/
theorem Mirrors.cascade {db : Database} (mirrors : Mirrors codec blocks db)
    {table : Table Content} (sourced : ∀ row ∈ table, ∃ block ∈ blocks,
      block.blockNumber = row.blockNumber) (fromBlock : Nat) :
    db.cascade (fun block => fromBlock ≤ block.blockNumber) table =
      table.filter (·.blockNumber < fromBlock) := by
  refine List.filter_congr fun row member => ?_
  obtain ⟨block,inside,number⟩ := sourced row member
  obtain ⟨stored,there,same⟩ := List.mem_map.mp
    (mirrors.rows.symm ▸ List.mem_map_of_mem (f := fun block : IndexedBlock =>
      (block.blockNumber,block.blockHash)) inside)
  have height : stored.blockNumber = row.blockNumber := (Prod.mk_inj.mp same).1.trans number
  rw [Bool.eq_iff_iff]
  simp only [Bool.not_eq_true',List.any_eq_false,Bool.and_eq_true,decide_eq_true_eq,not_and]
  constructor
  · intro none
    have high := none stored there height
    omega
  · intro low other _ number
    omega

/-- The step lemma: a rollback leaves the rows of the blocks before. -/
theorem Mirrors.reorg {db : Database} (mirrors : Mirrors codec blocks db) (fromBlock : Nat) :
    Mirrors codec (before fromBlock blocks) (db.handleReorg engine fromBlock) := by
  refine ⟨?_,fun t ignore => ?_⟩
  · rw [Database.handleReorg_blocks]
    have rows := congrArg (List.filter fun pair => decide (pair.1 < fromBlock)) mirrors.rows
    rw [List.filter_map,List.filter_map] at rows
    have same : (fun block : BlockRow => !decide (fromBlock ≤ block.blockNumber)) =
        (fun pair : Nat × JsString => decide (pair.1 < fromBlock)) ∘ fun row : BlockRow =>
          (row.blockNumber,row.blockHash) := by
      funext row
      simp only [Function.comp_apply]
      rw [Bool.eq_iff_iff]
      simp
    rw [same]
    exact rows
  · rw [handleReorg_table,mirrors.cascade,mirrors.tables t ignore]
    · exact filter_flatMap fun block _ row member => by rw [rows_blockNumber member]
    · intro row member
      rw [mirrors.tables t ignore] at member
      obtain ⟨block,inside,found⟩ := List.mem_flatMap.mp member
      exact ⟨block,inside,(rows_blockNumber found).symm⟩

end Mirroring

section Replay
variable (codec : AddressCodec)

/-- Commits of some blocks in a row. -/
def Database.index (blocks : List IndexedBlock) (db : Database) : Option Database :=
  blocks.foldlM (fun db block => db.commitBlock codec block) db

variable {codec}

/-- A property of a chain that each commit keeps holds where the chain is indexed. -/
theorem index_induction {P : List IndexedBlock → Database → Prop} (start : P [] .empty)
    (step : ∀ blocks block db after, Chain (blocks ++ [block]) → P blocks db →
      db.commitBlock codec block = some after → P (blocks ++ [block]) after)
    {db : Database} (chain : Chain blocks)
    (indexed : Database.index codec blocks .empty = some db) : P blocks db := by
  induction blocks using List.reverseRecOn generalizing db with
  | nil =>
    obtain rfl := Option.some.inj indexed
    exact start
  | append_singleton blocks block ih =>
    unfold Database.index at indexed ih
    rw [List.foldlM_append] at indexed
    obtain ⟨middle,first,last⟩ := Option.bind_eq_some_iff.mp indexed
    obtain ⟨stored,committed,same⟩ := Option.bind_eq_some_iff.mp last
    obtain rfl := Option.some.inj same
    exact step blocks block middle stored chain (ih chain.front first) committed

theorem index_mirrors {db : Database} (chain : Chain blocks)
    (indexed : Database.index codec blocks .empty = some db) : Mirrors codec blocks db :=
  index_induction .empty (fun _ _ _ _ chain mirrors committed => mirrors.commit chain committed)
    chain indexed

/-- The blocks before a rollback were indexed first. -/
theorem index_before {db : Database} (chain : Chain blocks)
    (indexed : Database.index codec blocks .empty = some db) (fromBlock : Nat) :
    ∃ replayed, Database.index codec (before fromBlock blocks) .empty = some replayed ∧
      Database.index codec (since fromBlock blocks) replayed = some db := by
  rw [← chain.split fromBlock] at indexed
  unfold Database.index at indexed ⊢
  rw [List.foldlM_append] at indexed
  exact Option.bind_eq_some_iff.mp indexed

end Replay
end Tonbankcard.Indexer
