import Tonbankcard.IndexerContiguity

/-! Polls that do not overlap: the rows stay contiguous from the start block on, and a poll that
returns has indexed every block up to its confirmation depth or had none to index. -/
namespace Tonbankcard.Indexer

open EcmaScript Await

section Quiet
variable {service : Service}

theorem getBlockByNumber_silent (blockNumber : Nat) :
    Silent (·.fetches = false) (Service.getBlockByNumber blockNumber) := by
  refine .bind ⟨rfl,fun answer => trivial⟩ fun answer => ?_
  cases answer with
  | ok blockId =>
    refine .bind ⟨rfl,fun answer => trivial⟩ fun answer => ?_
    cases answer <;> trivial
  | _ => trivial

theorem descriptorPages_silent (shard : ShardBlock) (pages : Nat) (after : Option Cursor) :
    Silent (·.fetches = true) (Service.descriptorPages shard pages after) := by
  induction pages generalizing after with
  | zero => trivial
  | succ pages ih =>
    refine .bind ⟨rfl,fun answer => trivial⟩ fun answer => ?_
    cases answer with
    | ok page =>
      simp only
      split
      · trivial
      · exact .bind (ih _) fun more => trivial
    | _ => trivial

theorem fetchTracked_silent (descriptors : List Descriptor) :
    Silent (·.fetches = true) (service.fetchTracked descriptors) := by
  induction descriptors with
  | nil => trivial
  | cons descriptor rest ih =>
    unfold Service.fetchTracked
    split
    · exact ih
    · refine .bind (.bind ⟨rfl,fun answer => trivial⟩ fun answer => ?_) fun transaction =>
        .bind ih fun more => trivial
      cases answer <;> trivial

theorem fetchShards_silent (shards : List ShardBlock) :
    Silent (·.fetches = true) (service.fetchShards shards) := by
  induction shards with
  | nil => trivial
  | cons shard rest ih =>
    exact .bind (descriptorPages_silent _ _ _) fun descriptors =>
      .bind (fetchTracked_silent descriptors) fun transactions => .bind ih fun more => trivial

theorem fetchBlockTransactions_silent (blockNumber : Nat) :
    Silent (·.fetches = true) (service.fetchBlockTransactions blockNumber) := by
  unfold Service.fetchBlockTransactions
  split
  · trivial
  · refine .bind (.bind ⟨rfl,fun answer => trivial⟩ fun answer => ?_) fetchShards_silent
    cases answer <;> trivial

end Quiet

section Polls
variable (service : Service)

/-- A poll on a database, with the answers to its calls in their order. -/
def Service.poll (db : Database) (answers : Nat → (request : Request) → Answer request) :
    Ran Request Answer Database Unit :=
  run (apply service.codec service.engine) answers service.syncBlocks 0 db

/-- The database after some polls, newest first, whether they returned or threw. -/
def Service.polled : List (Nat → (request : Request) → Answer request) → Database
  | [] => .empty
  | answers :: past => (service.poll (polled past) answers).store

/-- What the API may answer for the hash of a height is one of those named. -/
def Names (may : (request : Request) → Answer request → Prop) (named : Nat → JsString → Prop) :
    Prop :=
  ∀ blockNumber blockId header, may (.lookupBlock blockNumber) (.ok blockId) →
    may (.getBlockHeader blockId.workchain blockId.shard blockId.seqno) (.ok header) →
    named blockNumber (if header.rootHash.isEmpty then blockId.rootHash else header.rootHash)

/-- The rows are contiguous, none is below the start block, each has a hash that is named for its
height, and each is as deep below the chain head as a confirmation takes. -/
structure Tracked (named : Nat → JsString → Prop) (db : Database) : Prop where
  keys : (db.blocks.map (·.blockNumber)).Nodup
  contiguous : db.Contiguous
  started : ∀ block ∈ db.blocks, service.nextBlock 0 ≤ block.blockNumber
  hashes : ∀ block ∈ db.blocks, named block.blockNumber block.blockHash
  deep : ∀ block ∈ db.blocks,
    block.blockNumber + service.confirmationBlocks ≤ db.latestChainSeqno

/-- Every block up to before a height is indexed, or none is. -/
def Ready (named : Nat → JsString → Prop) (db : Database) (height : Nat) : Prop :=
  Tracked service named db ∧ (db.blocks = [] ∨ db.latestBlockIndexed + 1 = height)

/-- What a poll relies on while it waits: the chain head does not fall, and the cursor stays. -/
def Unmoved (db after : Database) : Prop :=
  db.latestChainSeqno ≤ after.latestChainSeqno ∧ after.latestBlockIndexed = db.latestBlockIndexed

theorem Unmoved.refl (db : Database) : Unmoved db db := ⟨le_rfl,rfl⟩

theorem Unmoved.trans {db middle after : Database} (first : Unmoved db middle)
    (second : Unmoved middle after) : Unmoved db after :=
  ⟨first.1.trans second.1,second.2.trans first.2⟩

end Polls

section Syncing
variable {service : Service} {may : (request : Request) → Answer request → Prop}
  {named : Nat → JsString → Prop}

/-- Block 0 is never indexed, so the cursor tells whether there are rows. -/
theorem Tracked.empty_iff {db : Database} (tracked : Tracked service named db) :
    db.blocks = [] ↔ db.latestBlockIndexed = 0 := by
  rcases tracked.contiguous with ⟨empty,reset⟩ | ⟨first,low,range⟩
  · exact iff_of_true empty reset
  · obtain ⟨block,member,number⟩ := (range db.latestBlockIndexed).mpr ⟨low,le_rfl⟩
    have started := tracked.started block member
    unfold Service.nextBlock at started
    exact iff_of_false (List.ne_nil_of_mem member) (by omega)

theorem Ready.unmoved {db after : Database} (ready : Ready service named db height)
    (tracked : Tracked service named after) (unmoved : Unmoved db after) :
    Ready service named after height := by
  refine ⟨tracked,?_⟩
  rw [tracked.empty_iff,unmoved.2,← ready.1.empty_iff]
  exact ready.2

theorem getBlockByNumber_ensures (names : Names may named) (blockNumber : Nat) {s : Database}
    (tracked : Tracked service named s) :
    Ensures (apply service.codec service.engine) may Unmoved (Tracked service named)
      (fun block after => (Tracked service named after ∧ Unmoved s after) ∧
        named blockNumber block.rootHash) (Service.getBlockByNumber blockNumber) s := by
  refine (ensures_bind _ _ _).mpr ⟨tracked,fun middle tracked unmoved answer looked => ?_⟩
  cases answer with
  | ok blockId =>
    refine (ensures_bind _ _ _).mpr ⟨tracked,fun after tracked later answer headed => ?_⟩
    cases answer with
    | ok header =>
      exact ⟨⟨tracked,unmoved.trans later⟩,names blockNumber blockId header looked headed⟩
    | _ => exact tracked
  | _ => exact tracked

/-- Rows and a head that may have moved on stay tracked. -/
theorem Tracked.setHead {db : Database} (tracked : Tracked service named db) (seqno : Nat) :
    Tracked service named (db.setLatestChainSeqno seqno) := by
  unfold Database.setLatestChainSeqno
  split
  · rename_i newer
    exact { tracked with deep := fun block member => (tracked.deep block member).trans newer.le }
  · exact tracked

/-- The next block of a chain may be committed on tracked rows. -/
theorem Tracked.commit {db after : Database} {block : IndexedBlock}
    (tracked : Tracked service named db)
    (unique : ∀ height other h, named height h → named other h → height = other)
    (next : db.blocks = [] ∨ db.latestBlockIndexed + 1 = block.blockNumber)
    (started : service.nextBlock 0 ≤ block.blockNumber)
    (hash : named block.blockNumber block.blockHash)
    (deep : block.blockNumber + service.confirmationBlocks ≤ db.latestChainSeqno)
    (committed : db.commitBlock service.codec block = some after) :
    Tracked service named after ∧ after.latestBlockIndexed = block.blockNumber ∧
      after.latestChainSeqno = db.latestChainSeqno := by
  obtain ⟨rows,cursor,head⟩ := Database.commitBlock_chain committed
  have ordered : db.InOrder (.commitBlock block) := by
    refine next.imp_right fun next => ⟨.inr next.symm,fun other member same => ?_⟩
    exact unique _ _ _ (tracked.hashes other member) (same ▸ hash)
  have each (property : BlockRow → Prop) (old : ∀ row ∈ db.blocks, property row)
      (new : property ⟨block.blockNumber,block.blockHash,block.parentHash,block.timestamp,
        block.transactionCount,false⟩) : ∀ row ∈ after.blocks, property row := by
    rw [rows]
    intro row member
    rcases List.mem_append.mp member with kept | added
    · exact old row (List.mem_filter.mp kept).1
    · exact List.mem_singleton.mp added ▸ new
  have keys : (after.blocks.map (·.blockNumber)).Nodup := by
    rw [rows,List.map_append]
    refine (tracked.keys.sublist (List.filter_sublist.map _)).append (List.nodup_singleton _) ?_
    intro number member same
    obtain ⟨other,kept,rfl⟩ := List.mem_map.mp member
    have apart := (List.mem_filter.mp kept).2
    simp [List.mem_singleton.mp same] at apart
  exact ⟨⟨keys,Database.commitBlock_contiguous tracked.contiguous ordered committed,
    each _ tracked.started started,each _ tracked.hashes hash,
    head ▸ each _ tracked.deep deep⟩,cursor,head⟩

/-- A block that is not stored is no reorg. -/
theorem detect_absent {s : Database} {post : Bool → Database → Prop}
    (absent : ¬s.Stores blockNumber) (settled : post false s) :
    Ensures (apply service.codec service.engine) may Unmoved (Tracked service named) post
      (Service.detectAndHandleReorg blockNumber) s := by
  refine (ensures_bind _ _ _).mpr ?_
  simp only [Task.select,Ensures,Database.getBlock_none.mpr absent]
  exact settled

theorem Ready.absent {s : Database} (ready : Ready service named s height) :
    ¬s.Stores height := by
  obtain ⟨tracked,empty | next⟩ := ready
  · exact Database.blocks_nil.mp empty height
  · rcases tracked.contiguous with ⟨empty,-⟩ | ⟨first,-,range⟩
    · exact Database.blocks_nil.mp empty height
    · rw [range]
      omega

section Forward
variable (names : Names may named)
  (unique : ∀ height other h, named height h → named other h → height = other)

include names unique

theorem processBlock_ensures {s : Database} (ready : Ready service named s height)
    (started : service.nextBlock 0 ≤ height)
    (deep : height + service.confirmationBlocks ≤ s.latestChainSeqno) :
    Ensures (apply service.codec service.engine) may Unmoved (Tracked service named)
      (fun _ after => Tracked service named after ∧ after.latestBlockIndexed = height ∧
        s.latestChainSeqno ≤ after.latestChainSeqno) (service.processBlock height) s := by
  refine (ensures_bind _ _ _).mpr ((getBlockByNumber_ensures names height ready.1).mono ?_)
  rintro block middle ⟨⟨tracked,unmoved⟩,hash⟩
  refine (ensures_bind _ _ _).mpr (((fetchBlockTransactions_silent height).ensures Unmoved.refl
    Unmoved.trans tracked).mono ?_)
  rintro transactions last ⟨tracked,later⟩
  have moved := unmoved.trans later
  have next := (ready.unmoved tracked moved).2
  refine ensures_perform (fun after committed => ?_) fun _ => tracked
  obtain ⟨tracked,cursor,head⟩ :=
    tracked.commit unique next started hash (deep.trans moved.1) committed
  exact ⟨tracked,cursor,head ▸ moved.1⟩

/-- The loop of a range, on one more block than `count`. -/
theorem syncRange_ensures {s : Database} (ready : Ready service named s height)
    (started : service.nextBlock 0 ≤ height)
    (deep : height + count + service.confirmationBlocks ≤ s.latestChainSeqno) :
    Ensures (apply service.codec service.engine) may Unmoved (Tracked service named)
      (fun _ after => Tracked service named after ∧
        after.latestBlockIndexed = height + count ∧
        s.latestChainSeqno ≤ after.latestChainSeqno)
      (service.syncRange (List.range' height (count + 1))) s := by
  induction count generalizing height s with
  | zero =>
    refine (ensures_bind _ _ _).mpr (detect_absent ready.absent ?_)
    refine (ensures_bind _ _ _).mpr
      ((processBlock_ensures names unique ready started deep).mono ?_)
    exact fun _ after reached => reached
  | succ count ih =>
    refine (ensures_bind _ _ _).mpr (detect_absent ready.absent ?_)
    refine (ensures_bind _ _ _).mpr
      ((processBlock_ensures names unique ready started (by omega)).mono ?_)
    rintro - after ⟨tracked,cursor,head⟩
    refine (ih ⟨tracked,.inr (by omega)⟩ (by omega) (by omega)).mono ?_
    rintro - last ⟨tracked,cursor,head'⟩
    exact ⟨tracked,by omega,by omega⟩

/-- The loop of the batches, of which one more than `more` is left. -/
theorem syncBatches_ensures {s : Database} (ready : Ready service named s height)
    (started : service.nextBlock 0 ≤ height) (upTo : height ≤ endBlock)
    (deep : endBlock + service.confirmationBlocks ≤ s.latestChainSeqno)
    (left : (endBlock - height) / service.batchSize = more) :
    Ensures (apply service.codec service.engine) may Unmoved (Tracked service named)
      (fun _ after => Tracked service named after ∧ after.latestBlockIndexed = endBlock)
      (service.syncBatches endBlock (List.range' height (more + 1) service.batchSize)) s := by
  have positive := service.batchSize_positive
  induction more generalizing height s with
  | zero =>
    have last : endBlock - height < service.batchSize := (Nat.div_eq_zero_iff_lt positive).mp left
    have width : min (height + service.batchSize - 1) endBlock + 1 - height =
        endBlock - height + 1 := by omega
    refine (ensures_bind _ _ _).mpr ?_
    rw [Service.syncBlockRange,Service.heights,width]
    refine (syncRange_ensures names unique ready started (by omega)).mono ?_
    rintro - after ⟨tracked,cursor,-⟩
    exact ⟨tracked,by omega⟩
  | succ more ih =>
    have room : service.batchSize ≤ endBlock - height := by
      by_contra short
      rw [Nat.div_eq_of_lt (Nat.lt_of_not_le short)] at left
      contradiction
    have width : min (height + service.batchSize - 1) endBlock + 1 - height =
        service.batchSize - 1 + 1 := by omega
    have fewer : (endBlock - (height + service.batchSize)) / service.batchSize = more := by
      rw [Nat.sub_add_eq,Nat.div_eq_sub_div positive room] at *
      omega
    refine (ensures_bind _ _ _).mpr ?_
    rw [Service.syncBlockRange,Service.heights,width]
    refine (syncRange_ensures names unique ready started (by omega)).mono ?_
    rintro - after ⟨tracked,cursor,head⟩
    refine ih ⟨tracked,.inr ?_⟩ ?_ ?_ ?_ fewer <;> omega

end Forward
end Syncing

section Runs
variable (service : Service) (answers : Nat → (request : Request) → Answer request)

/-- The hash of a height in two answers. -/
def answeredHash (made blockNumber : Nat) : Option JsString := do
  let blockId ← (answers made (.lookupBlock blockNumber)).result
  let header ← (answers (made + 1)
    (.getBlockHeader blockId.workchain blockId.shard blockId.seqno)).result
  pure (if header.rootHash.isEmpty then blockId.rootHash else header.rootHash)

/-- The first height among some whose stored hash is not the answered one. -/
def divergence (db : Database) : Nat → List Nat → Option Nat
  | _, [] => none
  | made, blockNumber :: rest =>
    match db.getBlock blockNumber with
    | none => divergence db made rest
    | some stored =>
      match answeredHash answers made blockNumber with
      | none => none
      | some hash => if stored.blockHash ≠ hash then some blockNumber
        else divergence db (made + 2) rest

/-- The trailing window of stored heights that a poll checks. -/
def Service.window (db : Database) : List Nat :=
  Service.heights (service.windowStart db.latestBlockIndexed) db.latestBlockIndexed

def Service.rollback (db : Database) : Option Nat → Database
  | none => db
  | some fromBlock => db.handleReorg service.engine fromBlock

/-- Where a poll goes on from: its head is recorded and a divergence is rolled back. -/
def Service.revalidated (db : Database) : Database :=
  match (answers 0 .getMasterchainInfo).result with
  | none => db
  | some head =>
    let db := db.setLatestChainSeqno head
    service.rollback db (divergence answers db 1 (service.window db))

/-- How a poll ends. -/
inductive Service.Ends (db : Database) : Option Unit → Database → Prop where
  | headless (unknown : (answers 0 .getMasterchainInfo).result = none) :
      Ends db (some ()) db
  | unchecked (head : Nat) : Ends db none (db.setLatestChainSeqno head)
  | rested (head : Nat) (known : (answers 0 .getMasterchainInfo).result = some head)
      (reached : head - service.confirmationBlocks <
        service.nextBlock (service.revalidated answers db).latestBlockIndexed) :
      Ends db (some ()) (service.revalidated answers db)
  | synced (head made : Nat) (known : (answers 0 .getMasterchainInfo).result = some head)
      (behind : service.nextBlock (service.revalidated answers db).latestBlockIndexed ≤
        head - service.confirmationBlocks)
      (last : Ran Request Answer Database Unit)
      (forward : last = run (apply service.codec service.engine) answers
        (service.syncBatches (head - service.confirmationBlocks)
          (service.batchStarts
            (service.nextBlock (service.revalidated answers db).latestBlockIndexed)
            (head - service.confirmationBlocks))) made (service.revalidated answers db))
      (returned : last.value = some ()) :
      Ends db (some ()) (last.store.markBlocksConfirmed (head - service.confirmationBlocks))
  | broken (head made : Nat) (known : (answers 0 .getMasterchainInfo).result = some head)
      (behind : service.nextBlock (service.revalidated answers db).latestBlockIndexed ≤
        head - service.confirmationBlocks)
      (last : Ran Request Answer Database Unit)
      (forward : last = run (apply service.codec service.engine) answers
        (service.syncBatches (head - service.confirmationBlocks)
          (service.batchStarts
            (service.nextBlock (service.revalidated answers db).latestBlockIndexed)
            (head - service.confirmationBlocks))) made (service.revalidated answers db))
      (threw : last.value = none) :
      Ends db none last.store

variable {service : Service} {answers : Nat → (request : Request) → Answer request}

theorem run_getBlockByNumber (made blockNumber : Nat) (s : Database) :
    let ran := run (apply service.codec service.engine) answers
      (Service.getBlockByNumber blockNumber) made s
    ran.store = s ∧ ran.value.map (·.rootHash) = answeredHash answers made blockNumber ∧
      (ran.value ≠ none → ran.calls.length = 2) := by
  refine ⟨(getBlockByNumber_silent blockNumber).run_store made s,?_⟩
  unfold Service.getBlockByNumber answeredHash
  rw [run_bind]
  simp only [Service.fetchTonApi,Task.request,run]
  cases answers made (.lookupBlock blockNumber) with
  | ok blockId =>
    simp only [run_bind,run,List.length_singleton,Response.result,Option.bind_eq_bind,
      Option.bind_some]
    cases answers (made + 1) (.getBlockHeader blockId.workchain blockId.shard blockId.seqno) with
    | ok header => exact ⟨rfl,fun _ => rfl⟩
    | _ => exact ⟨rfl,fun filled => absurd rfl filled⟩
  | _ => exact ⟨rfl,fun filled => absurd rfl filled⟩

theorem run_detect (made blockNumber : Nat) (s : Database) :
    let ran := run (apply service.codec service.engine) answers
      (Service.detectAndHandleReorg blockNumber) made s
    match s.getBlock blockNumber with
    | none => ran.value = some false ∧ ran.store = s ∧ ran.calls.length = 0
    | some stored =>
      match answeredHash answers made blockNumber with
      | none => ran.value = none ∧ ran.store = s
      | some hash =>
        if stored.blockHash ≠ hash then
          ran.value = some true ∧ ran.store = s.handleReorg service.engine blockNumber
        else ran.value = some false ∧ ran.store = s ∧ ran.calls.length = 2 := by
  unfold Service.detectAndHandleReorg
  simp only [run_bind,Task.select,run]
  cases s.getBlock blockNumber with
  | none => exact ⟨rfl,rfl,rfl⟩
  | some stored =>
    obtain ⟨store,hash,calls⟩ := @run_getBlockByNumber service answers made
      blockNumber s
    simp only [List.length_nil,Nat.add_zero,run_bind]
    revert store hash calls
    rcases run (apply service.codec service.engine) answers
      (Service.getBlockByNumber blockNumber) made s with ⟨_ | block,after,calls⟩
    · rintro rfl hash -
      rw [← hash]
      exact ⟨rfl,rfl⟩
    · rintro rfl hash calls
      rw [← hash]
      simp only [Option.map_some]
      split
      · exact ⟨rfl,rfl⟩
      · exact ⟨rfl,rfl,by simpa [run,pure] using calls⟩

/-- A window that is checked to its end or up to its first divergence. -/
theorem run_revalidate (heights : List Nat) (made : Nat) (s : Database) :
    let ran := run (apply service.codec service.engine) answers
      (Service.revalidate heights) made s
    ran.value = none ∧ ran.store = s ∨
      ran.value = some (divergence answers s made heights) ∧
        ran.store = service.rollback s (divergence answers s made heights) := by
  induction heights generalizing made with
  | nil => exact .inr ⟨rfl,rfl⟩
  | cons blockNumber rest ih =>
    have first := @run_detect service answers made blockNumber s
    simp only at first ih ⊢
    unfold Service.revalidate divergence
    rw [run_bind]
    revert first
    rcases run (apply service.codec service.engine) answers
      (Service.detectAndHandleReorg blockNumber) made s with ⟨value,after,calls⟩
    cases s.getBlock blockNumber with
    | none =>
      rintro ⟨rfl,rfl,length⟩
      simp only at length
      simp only [length,Nat.add_zero]
      exact ih made
    | some stored =>
      cases answeredHash answers made blockNumber with
      | none =>
        rintro ⟨rfl,rfl⟩
        exact .inl ⟨rfl,rfl⟩
      | some hash =>
        simp only
        split
        · rintro ⟨rfl,rfl⟩
          exact .inr ⟨rfl,rfl⟩
        · rintro ⟨rfl,rfl,length⟩
          simp only [length]
          exact ih (made + 2)

theorem poll_ends (db : Database) :
    service.Ends answers db (service.poll db answers).value (service.poll db answers).store := by
  unfold Service.poll Service.syncBlocks Service.getLatestBlock Service.fetchTonApi
  simp only [run_bind,Task.select,Task.request,Task.perform,run,List.length_nil,Nat.add_zero,
    List.length_singleton,Nat.zero_add]
  cases told : (answers 0 .getMasterchainInfo).result with
  | none => exact .headless told
  | some head =>
    have checked := @run_revalidate service answers
      (service.window (db.setLatestChainSeqno head)) 1 (db.setLatestChainSeqno head)
    have mid : service.revalidated answers db = service.rollback (db.setLatestChainSeqno head)
        (divergence answers (db.setLatestChainSeqno head) 1
          (service.window (db.setLatestChainSeqno head))) := by
      unfold Service.revalidated
      rw [told]
    rw [← mid] at checked
    rw [Service.window,db.setLatestChainSeqno_cursor] at checked
    simp only [run_bind,run,apply,pure,Service.revalidateIndexedRange,List.append_nil,
      List.length_singleton,List.length_nil,Nat.add_zero] at checked ⊢
    revert checked
    rcases run (apply service.codec service.engine) answers (Service.revalidate _) 1
      (db.setLatestChainSeqno head) with ⟨value,after,calls⟩
    rintro (⟨rfl,rfl⟩ | ⟨rfl,rfl⟩)
    · exact .unchecked head
    · simp only
      split
      · rename_i reached
        exact .rested head told reached
      · rename_i behind
        have behind := Nat.le_of_not_lt behind
        rw [run_bind]
        generalize forward : run (apply service.codec service.engine) answers
          (service.syncBatches _ _) _ _ = last
        rcases last with ⟨_ | value,last,made⟩
        · exact .broken head _ told behind _ forward.symm rfl
        · exact .synced head _ told behind _ forward.symm rfl

end Runs

section Invariant
variable {service : Service} {named : Nat → JsString → Prop}

theorem nextBlock_mono (service : Service) (cursor : Nat) :
    service.nextBlock 0 ≤ service.nextBlock cursor := by
  unfold Service.nextBlock
  omega

/-- Weaker names. -/
theorem Tracked.mono {db : Database} {weaker : Nat → JsString → Prop}
    (tracked : Tracked service named db) (more : ∀ height h, named height h → weaker height h) :
    Tracked service weaker db :=
  { tracked with hashes := fun block member => more _ _ (tracked.hashes block member) }

theorem Tracked.empty : Tracked service named .empty :=
  ⟨List.nodup_nil,.inl ⟨rfl,rfl⟩,nofun,nofun,nofun⟩

theorem Tracked.handleReorg {db : Database} (tracked : Tracked service named db)
    (bounded : fromBlock ≤ db.latestBlockIndexed + 1) :
    Tracked service named (db.handleReorg service.engine fromBlock) := by
  have rows := @Database.handleReorg_blocks service.engine db fromBlock
  have kept : ∀ block ∈ (db.handleReorg service.engine fromBlock).blocks, block ∈ db.blocks := by
    rw [rows]
    exact fun block member => (List.mem_filter.mp member).1
  refine ⟨?_,Database.handleReorg_contiguous tracked.contiguous (.inr bounded),
    fun block member => tracked.started block (kept block member),
    fun block member => tracked.hashes block (kept block member),fun block member => ?_⟩
  · rw [rows]
    exact tracked.keys.sublist (List.filter_sublist.map _)
  · rw [Database.handleReorg_head]
    exact tracked.deep block (kept block member)

theorem Tracked.markBlocksConfirmed {db : Database} (tracked : Tracked service named db)
    (upToBlock : Nat) : Tracked service named (db.markBlocksConfirmed upToBlock) := by
  have each (property : BlockRow → Prop)
      (blind : ∀ block, property block → property {block with confirmed := true})
      (old : ∀ block ∈ db.blocks, property block) :
      ∀ block ∈ (db.markBlocksConfirmed upToBlock).blocks, property block := by
    intro block member
    obtain ⟨before,stored,rfl⟩ := List.mem_map.mp member
    split
    · exact blind before (old before stored)
    · exact old before stored
  have keys : (db.markBlocksConfirmed upToBlock).blocks.map (·.blockNumber) =
      db.blocks.map (·.blockNumber) := by
    unfold Database.markBlocksConfirmed
    rw [List.map_map]
    refine List.map_congr_left fun block _ => ?_
    simp only [Function.comp_apply]
    split <;> rfl
  have ordered : db.InOrder (.markBlocksConfirmed upToBlock) := trivial
  have applied : apply service.codec service.engine (.markBlocksConfirmed upToBlock) db =
      some (db.markBlocksConfirmed upToBlock) := rfl
  have contiguous := tracked.contiguous.apply ordered applied
  exact ⟨keys ▸ tracked.keys,contiguous,each _ (fun _ => id) tracked.started,
    each _ (fun _ => id) tracked.hashes,each _ (fun _ => id) tracked.deep⟩

theorem mem_heights {first last height : Nat} :
    height ∈ Service.heights first last ↔ first ≤ height ∧ height ≤ last := by
  unfold Service.heights
  rw [List.mem_range'_1]
  omega

variable {answers : Nat → (request : Request) → Answer request}

theorem divergence_mem {heights : List Nat} {db : Database}
    (diverged : divergence answers db made heights = some height) : height ∈ heights := by
  induction heights generalizing made with
  | nil => contradiction
  | cons blockNumber rest ih =>
    unfold divergence at diverged
    split at diverged
    · exact List.mem_cons_of_mem _ (ih diverged)
    · split at diverged
      · contradiction
      · split at diverged
        · obtain rfl := Option.some.inj diverged
          exact List.mem_cons_self
        · exact List.mem_cons_of_mem _ (ih diverged)

theorem Tracked.revalidated {db : Database} (tracked : Tracked service named db) :
    Tracked service named (service.revalidated answers db) := by
  unfold Service.revalidated
  split
  · exact tracked
  · rename_i head known
    have headed := tracked.setHead head
    simp only
    generalize diverged : divergence _ _ _ _ = found
    cases found with
    | none => exact headed
    | some height =>
      refine headed.handleReorg ?_
      have inside := mem_heights.mp (divergence_mem diverged)
      exact Nat.le_succ_of_le inside.2

/-- The head of a poll is recorded unless a later one was. -/
theorem revalidated_head {db : Database} (known : (answers 0 .getMasterchainInfo).result = some head) :
    head ≤ (service.revalidated answers db).latestChainSeqno := by
  have recorded : head ≤ (db.setLatestChainSeqno head).latestChainSeqno := by
    unfold Database.setLatestChainSeqno
    split
    · exact le_rfl
    · rename_i newer
      exact Nat.le_of_not_lt newer
  unfold Service.revalidated
  rw [known]
  simp only
  generalize divergence _ _ _ _ = found
  cases found with
  | none => exact recorded
  | some height =>
    change head ≤ (Database.handleReorg _ _ _).latestChainSeqno
    rw [Database.handleReorg_head]
    exact recorded

theorem Tracked.ready {db : Database} (tracked : Tracked service named db) :
    Ready service named db (service.nextBlock db.latestBlockIndexed) := by
  refine ⟨tracked,?_⟩
  rcases tracked.contiguous with ⟨empty,-⟩ | ⟨first,low,range⟩
  · exact .inl empty
  · obtain ⟨block,member,number⟩ := (range db.latestBlockIndexed).mpr ⟨low,le_rfl⟩
    have started := tracked.started block member
    unfold Service.nextBlock at started ⊢
    omega

/-- The answers of a poll to one request. -/
def Answering (answers : Nat → (request : Request) → Answer request) (request : Request)
    (answer : Answer request) : Prop := ∃ made, answers made request = answer

/-- The batches of a poll, whether they reach the end or stop short of it. -/
theorem forward_tracked {db : Database} (made : Nat)
    (names : Names (Answering answers) named)
    (unique : ∀ height other h, named height h → named other h → height = other)
    (tracked : Tracked service named db)
    (behind : service.nextBlock db.latestBlockIndexed ≤ head - service.confirmationBlocks)
    (recorded : head ≤ db.latestChainSeqno) :
    let last := run (apply service.codec service.engine) answers
      (service.syncBatches (head - service.confirmationBlocks)
        (service.batchStarts (service.nextBlock db.latestBlockIndexed)
          (head - service.confirmationBlocks))) made db
    Tracked service named last.store ∧
      (last.value = some () →
        last.store.latestBlockIndexed = head - service.confirmationBlocks) := by
  have positive : 0 < service.nextBlock db.latestBlockIndexed := by
    unfold Service.nextBlock
    omega
  have ended := (syncBatches_ensures names unique tracked.ready (nextBlock_mono service _) behind
    (by omega) rfl).run Unmoved.refl (@run_calls _ _ _ _ _ answers _ made db _)
  simp only
  rw [Service.batchStarts]
  revert ended
  split
  · rename_i value returned
    exact fun ended => ⟨ended.1,fun _ => ended.2⟩
  · rename_i threw
    exact fun ended => ⟨ended,by rw [threw]; nofun⟩

/-- The step lemma: what a poll leaves is tracked, under the names that its own answers narrow. -/
theorem Tracked.poll {db : Database} {narrower : Nat → JsString → Prop}
    (tracked : Tracked service named db)
    (mid : Tracked service narrower (service.revalidated answers db))
    (more : ∀ height h, narrower height h → named height h)
    (names : Names (Answering answers) narrower)
    (unique : ∀ height other h, narrower height h → narrower other h → height = other) :
    Tracked service named (service.poll db answers).store := by
  have ends := @poll_ends service answers db
  generalize (service.poll db answers).value = value at ends
  generalize (service.poll db answers).store = after at ends
  cases ends with
  | headless unknown => exact tracked
  | unchecked head => exact tracked.setHead head
  | rested head known reached => exact mid.mono more
  | synced head made known behind last forward returned =>
    have ahead := forward_tracked made names unique mid behind (revalidated_head known)
    exact ((forward ▸ ahead.1).mono more).markBlocksConfirmed _
  | broken head made known behind last forward threw =>
    have ahead := forward_tracked made names unique mid behind (revalidated_head known)
    exact (forward ▸ ahead.1).mono more

end Invariant
end Tonbankcard.Indexer
