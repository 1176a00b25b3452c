import Tonbankcard.IndexerPolls

/-! What a poll leaves when every call of it is answered from one view of the chain: as long as
views differ from the rows only within the trailing window, each row agrees with the view of the
last poll that returned. -/
namespace Tonbankcard.Indexer

open EcmaScript Await

/-- The chain as it is answered from during a poll. -/
structure View where
  head : Nat
  hash : Nat → JsString
  hash_injective : Function.Injective hash

/-- A poll with its view and its answers. -/
structure Poll where
  view : View
  answers : Nat → (request : Request) → Answer request

namespace View

/-- What a view answers. The header may leave its hash to the lookup before it, and what the
transactions are does not matter. -/
def Gives (view : View) : (request : Request) → Answer request → Prop
  | .getMasterchainInfo, answer => answer = .ok view.head
  | .lookupBlock seqno, answer =>
    ∃ blockId : BlockId, answer = .ok blockId ∧ blockId.seqno = seqno ∧
      blockId.rootHash = view.hash seqno
  | .getBlockHeader _ _ seqno, answer =>
    ∃ header : BlockHeader, answer = .ok header ∧
      (header.rootHash = view.hash seqno ∨ header.rootHash = [])
  | .shards _, answer => ∃ shards, answer = .ok shards
  | .getBlockTransactions _ _, answer => ∃ page, answer = .ok page
  | .getTransactions _ _ _, answer => ∃ transactions, answer = .ok transactions

def Answers (view : View) (answers : Nat → (request : Request) → Answer request) : Prop :=
  ∀ made request, view.Gives request (answers made request)

/-- The view agrees with the rows that are some blocks below the cursor. -/
def Agrees (view : View) (db : Database) (depth : Nat) : Prop :=
  ∀ block ∈ db.blocks, block.blockNumber + depth ≤ db.latestBlockIndexed →
    block.blockHash = view.hash block.blockNumber

instance (view : View) (db : Database) (depth : Nat) : Decidable (view.Agrees db depth) :=
  inferInstanceAs (Decidable (∀ block ∈ db.blocks, _ → _))

/-- The hash of a height is that of the view. -/
def Named (view : View) (height : Nat) (h : JsString) : Prop := h = view.hash height

theorem Named.unique {view : View} : ∀ height other h, view.Named height h →
    view.Named other h → height = other :=
  fun _ _ _ first second => view.hash_injective (first.symm.trans second)

end View

/-- Polls, newest first, whose views agree with the rows below the trailing window. -/
def Evolution (service : Service) : List Poll → Prop
  | [] => True
  | poll :: past => Evolution service past ∧ poll.view.Answers poll.answers ∧
    poll.view.Agrees (service.polled (past.map (·.answers))) service.confirmationBlocks

section Detection
variable {service : Service} {view : View}
  {answers : Nat → (request : Request) → Answer request}

theorem View.Answers.hash (given : view.Answers answers) (made blockNumber : Nat) :
    answeredHash answers made blockNumber = some (view.hash blockNumber) := by
  obtain ⟨blockId,looked,rfl,root⟩ := given made (.lookupBlock blockNumber)
  obtain ⟨header,headed,choice⟩ := given (made + 1)
    (.getBlockHeader blockId.workchain blockId.shard blockId.seqno)
  unfold answeredHash
  rw [looked]
  simp only [Response.result,Option.bind_eq_bind,Option.bind_some]
  rw [headed]
  rcases choice with same | missing
  · simp only [Option.bind_some,Option.pure_def,Option.some.injEq]
    split <;> assumption
  · simp [missing,root]

theorem View.Answers.names (given : view.Answers answers) :
    Names (Answering answers) view.Named := by
  rintro blockNumber blockId header ⟨made,looked⟩ ⟨made',headed⟩
  have first := given made (.lookupBlock blockNumber)
  rw [looked] at first
  obtain ⟨blockId',same,rfl,root⟩ := first
  obtain rfl := Response.ok.inj same
  have second := given made'
    (.getBlockHeader blockId.workchain blockId.shard blockId.seqno)
  rw [headed] at second
  obtain ⟨header',same,choice⟩ := second
  obtain rfl := Response.ok.inj same
  unfold View.Named
  rcases choice with same | missing
  · split <;> assumption
  · simp [missing,root]

/-- Every stored height of a window that is below its first divergence has the hash of the
view. -/
theorem divergence_agrees (given : view.Answers answers) {heights : List Nat}
    (ascending : heights.Pairwise (· < ·)) {db : Database}
    (below : ∀ fork, divergence answers db made heights = some fork → height < fork)
    (inside : height ∈ heights) (stored : db.getBlock height = some block) :
    block.blockHash = view.hash height := by
  induction heights generalizing made with
  | nil => contradiction
  | cons first rest ih =>
    obtain ⟨before,ascending⟩ := List.pairwise_cons.mp ascending
    unfold divergence at below
    rcases List.mem_cons.mp inside with rfl | later
    · rw [stored] at below
      simp only [given.hash] at below
      by_contra differs
      rw [if_pos differs] at below
      exact absurd (below _ rfl) (Nat.lt_irrefl _)
    · cases first' : db.getBlock first with
      | none =>
        simp only [first'] at below
        exact ih ascending below later
      | some other =>
        simp only [first',given.hash] at below
        split at below
        · exact absurd (below _ rfl) (Nat.lt_asymm (before _ later))
        · exact ih ascending below later

theorem getBlock_of_mem {db : Database} (keys : (db.blocks.map (·.blockNumber)).Nodup)
    (member : block ∈ db.blocks) : db.getBlock block.blockNumber = some block := by
  cases found : db.getBlock block.blockNumber with
  | none => exact absurd ⟨block,member,rfl⟩ (Database.getBlock_none.mp found)
  | some other =>
    obtain ⟨member',number⟩ := Database.getBlock_some found
    rw [List.inj_on_of_nodup_map keys member' member number]

/-- After the rollback of a poll every row has the hash of its view. -/
theorem revalidated_agrees {db : Database} (tracked : Tracked service (fun _ _ => True) db)
    (given : view.Answers answers) (agrees : view.Agrees db service.confirmationBlocks) :
    ∀ block ∈ (service.revalidated answers db).blocks,
      block.blockHash = view.hash block.blockNumber := by
  have known : (answers 0 .getMasterchainInfo).result = some view.head := by
    rw [given 0 .getMasterchainInfo]
    rfl
  have headed := tracked.setHead view.head
  have rows := db.setLatestChainSeqno_blocks view.head
  have cursor := db.setLatestChainSeqno_cursor view.head
  -- a row below the first divergence is checked, or is below the window
  have checked (block : BlockRow) (member : block ∈ db.blocks)
      (below : ∀ fork, divergence answers (db.setLatestChainSeqno view.head) 1
        (service.window (db.setLatestChainSeqno view.head)) = some fork →
        block.blockNumber < fork) : block.blockHash = view.hash block.blockNumber := by
    by_cases deep : block.blockNumber + service.confirmationBlocks ≤ db.latestBlockIndexed
    · exact agrees block member deep
    · refine divergence_agrees given (List.pairwise_lt_range' _) below (mem_heights.mpr ?_)
        (getBlock_of_mem headed.keys (rows ▸ member))
      have started := tracked.started block member
      have upTo : block.blockNumber ≤ db.latestBlockIndexed := by
        rcases tracked.contiguous with ⟨empty,-⟩ | ⟨first,-,range⟩
        · simp [empty] at member
        · exact ((range block.blockNumber).mp ⟨block,member,rfl⟩).2
      rw [cursor]
      unfold Service.windowStart
      unfold Service.nextBlock at started
      omega
  unfold Service.revalidated
  rw [known]
  simp only
  generalize divergence _ _ _ _ = found at checked ⊢
  cases found with
  | none =>
    intro block member
    exact checked block (rows ▸ member) nofun
  | some fork =>
    intro block member
    change block ∈ (Database.handleReorg _ _ _).blocks at member
    rw [Database.handleReorg_blocks,rows] at member
    obtain ⟨stored,low⟩ := List.mem_filter.mp member
    refine checked block stored fun _ same => ?_
    obtain rfl := Option.some.inj same
    simpa using low

theorem Tracked.viewed {db : Database} (tracked : Tracked service (fun _ _ => True) db)
    (given : view.Answers answers) (agrees : view.Agrees db service.confirmationBlocks) :
    Tracked service view.Named (service.revalidated answers db) :=
  { tracked.revalidated with
    hashes := revalidated_agrees tracked given agrees }

/-- Whether or not its polls returned, an evolution leaves tracked rows. -/
theorem Evolution.tracked {polls : List Poll} (evolution : Evolution service polls) :
    Tracked service (fun _ _ => True) (service.polled (polls.map (·.answers))) := by
  induction polls with
  | nil => exact .empty
  | cons poll past ih =>
    obtain ⟨earlier,given,agrees⟩ := evolution
    have before := ih earlier
    exact before.poll (before.viewed given agrees) (fun _ _ _ => trivial) given.names
      View.Named.unique

end Detection

/-- A poll that returns leaves the rows of its view, contiguous, and up to its confirmation depth
where that is reached. -/
theorem reorgs_detected (service : Service) (poll : Poll) (past : List Poll)
    (evolution : Evolution service (poll :: past))
    (returned : (service.poll (service.polled (past.map (·.answers))) poll.answers).value =
      some ()) :
    let before := service.polled (past.map (·.answers))
    let after := service.polled ((poll :: past).map (·.answers))
    let endBlock := poll.view.head - service.confirmationBlocks
    (∀ block ∈ after.blocks, block.blockHash = poll.view.hash block.blockNumber) ∧
      after.Contiguous ∧
      (service.nextBlock (service.revalidated poll.answers before).latestBlockIndexed ≤ endBlock →
        after.latestBlockIndexed = endBlock) := by
  obtain ⟨earlier,given,agrees⟩ := evolution
  have mid := earlier.tracked.viewed given agrees
  intro before after endBlock
  have ends := @poll_ends service poll.answers before
  change service.Ends poll.answers before _ after at ends
  rw [returned] at ends
  have known : (poll.answers 0 .getMasterchainInfo).result = some poll.view.head := by
    rw [given 0 .getMasterchainInfo]
    rfl
  clear_value after
  cases ends with
  | headless unknown =>
    rw [known] at unknown
    contradiction
  | rested head told reached =>
    obtain rfl := Option.some.inj (known.symm.trans told)
    exact ⟨mid.hashes,mid.contiguous,fun behind => absurd reached (Nat.not_lt_of_le behind)⟩
  | synced head made told behind last forward ended =>
    obtain rfl := Option.some.inj (known.symm.trans told)
    obtain ⟨tracked,reached⟩ := forward_tracked made given.names View.Named.unique mid behind
      (revalidated_head told)
    rw [← forward] at tracked reached
    have marked := tracked.markBlocksConfirmed endBlock
    exact ⟨marked.hashes,marked.contiguous,fun _ => reached ended⟩

theorem forkHash_injective (fork : Nat) : Function.Injective (forkHash fork) :=
  fun _ _ same => natDigits_injective (List.append_inj' same rfl).1

/-- A poll that is answered from a chain with a fork. -/
def forkPoll (head fork : Nat) : Poll :=
  ⟨⟨head,forkHash fork,forkHash_injective fork⟩,fun _ => chainAnswer head (forkHash fork)⟩

theorem forkPoll_answers (head fork : Nat) :
    (forkPoll head fork).view.Answers (forkPoll head fork).answers := by
  intro made request
  cases request with
  | getMasterchainInfo => rfl
  | lookupBlock seqno => exact ⟨_,rfl,rfl,rfl⟩
  | getBlockHeader workchain shard seqno => exact ⟨_,rfl,.inl rfl⟩
  | _ => exact ⟨_,rfl⟩

/-- A fork at the last indexed block, with two more blocks behind it. -/
theorem reorgs_detected_fork :
    (∀ block ∈ (reorgOnly.polled ([forkPoll 6 3,forkPoll 4 9].map (·.answers))).blocks,
      block.blockHash = forkHash 3 block.blockNumber) ∧
      (reorgOnly.polled ([forkPoll 6 3,forkPoll 4 9].map (·.answers))).Contiguous := by
  have detected := reorgs_detected reorgOnly (forkPoll 6 3) [forkPoll 4 9]
    ⟨⟨trivial,forkPoll_answers 4 9,by decide⟩,forkPoll_answers 6 3,by decide +kernel⟩
    (by decide +kernel)
  exact ⟨detected.1,detected.2.1⟩

end Tonbankcard.Indexer
