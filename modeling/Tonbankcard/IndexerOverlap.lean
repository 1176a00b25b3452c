import Tonbankcard.IndexerConfirmations

/-! Polls that overlap. A poll counts on from the cursor that it has read, so the rows stay
contiguous as long as no other poll moves the cursor while it waits, and always where polls do not
overlap. -/
namespace Tonbankcard.Indexer

open EcmaScript Await

section Overlap
variable {service : Service} {may : (request : Request) → Answer request → Prop}
  {named : Nat → JsString → Prop}

theorem setLatestChainSeqno_recorded (db : Database) (seqno : Nat) :
    db.latestChainSeqno ≤ (db.setLatestChainSeqno seqno).latestChainSeqno ∧
      seqno ≤ (db.setLatestChainSeqno seqno).latestChainSeqno := by
  unfold Database.setLatestChainSeqno
  split
  · rename_i newer
    exact ⟨newer.le,le_rfl⟩
  · rename_i newer
    exact ⟨le_rfl,Nat.le_of_not_lt newer⟩

/-- No write lowers the chain head. -/
theorem apply_head {db after : Database} {operation : Operation}
    (applied : apply service.codec service.engine operation db = some after) :
    db.latestChainSeqno ≤ after.latestChainSeqno := by
  cases operation with
  | setLatestChainSeqno seqno =>
    obtain rfl := Option.some.inj applied
    exact (setLatestChainSeqno_recorded db seqno).1
  | handleReorg fromBlock =>
    obtain rfl := Option.some.inj applied
    exact (Database.handleReorg_head db fromBlock).ge
  | commitBlock block => exact (Database.commitBlock_chain applied).2.2.ge
  | markBlocksConfirmed upToBlock =>
    obtain rfl := Option.some.inj applied
    exact le_rfl

theorem getLatestBlock_ensures {s : Database} (tracked : Tracked service named s) :
    Ensures (apply service.codec service.engine) may Unmoved (Tracked service named)
      (fun _ after => Tracked service named after ∧ Unmoved s after) Service.getLatestBlock s :=
  ⟨tracked,fun _ tracked unmoved _ _ => ⟨tracked,unmoved⟩⟩

section Syncing
variable (names : Names may named)
include names

/-- The check of a height up to the cursor, which moves only where it finds a reorg. -/
theorem detectAndHandleReorg_ensures {s : Database} (tracked : Tracked service named s)
    (stored : blockNumber ≤ s.latestBlockIndexed) :
    Ensures (apply service.codec service.engine) may Unmoved (Tracked service named)
      (fun reorged after => (Tracked service named after ∧
          s.latestChainSeqno ≤ after.latestChainSeqno) ∧
        (reorged = false → after.latestBlockIndexed = s.latestBlockIndexed))
      (Service.detectAndHandleReorg blockNumber) s := by
  refine (ensures_bind _ _ _).mpr ?_
  simp only [Task.select,Ensures]
  cases s.getBlock blockNumber with
  | none => exact ⟨⟨tracked,le_rfl⟩,fun _ => rfl⟩
  | some block =>
    refine (ensures_bind _ _ _).mpr ((getBlockByNumber_ensures names blockNumber tracked).mono ?_)
    rintro chainBlock after ⟨⟨tracked,head,cursor⟩,-⟩
    by_cases diverged : block.blockHash ≠ chainBlock.rootHash
    · rw [if_pos diverged]
      refine (ensures_bind _ _ _).mpr (ensures_performed rfl ?_)
      refine ⟨⟨tracked.handleReorg ?_,?_⟩,fun same => Bool.noConfusion same⟩
      · exact Nat.le_succ_of_le (cursor ▸ stored)
      · rw [Database.handleReorg_head]
        exact head
    · rw [if_neg diverged]
      exact ⟨⟨tracked,head⟩,fun _ => cursor⟩

theorem revalidate_ensures {heights : List Nat} {s : Database} (tracked : Tracked service named s)
    (stored : ∀ height ∈ heights, height ≤ s.latestBlockIndexed) :
    Ensures (apply service.codec service.engine) may Unmoved (Tracked service named)
      (fun _ after => Tracked service named after ∧ s.latestChainSeqno ≤ after.latestChainSeqno)
      (Service.revalidate heights) s := by
  induction heights generalizing s with
  | nil => exact ⟨tracked,le_rfl⟩
  | cons height rest ih =>
    refine (ensures_bind _ _ _).mpr ((detectAndHandleReorg_ensures names tracked
      (stored height List.mem_cons_self)).mono ?_)
    rintro reorged after ⟨⟨tracked,head⟩,cursor⟩
    cases reorged with
    | true => exact ⟨tracked,head⟩
    | false =>
      have left : ∀ height ∈ rest, height ≤ after.latestBlockIndexed := by
        rw [cursor rfl]
        exact fun height member => stored height (List.mem_cons_of_mem _ member)
      exact (ih tracked left).mono fun _ last ended => ⟨ended.1,head.trans ended.2⟩

/-- A whole poll. -/
theorem syncBlocks_ensures
    (unique : ∀ height other h, named height h → named other h → height = other) {s : Database}
    (tracked : Tracked service named s) :
    Ensures (apply service.codec service.engine) may Unmoved (Tracked service named)
      (fun _ => Tracked service named) service.syncBlocks s := by
  refine (ensures_bind _ _ _).mpr ?_
  simp only [Task.select,Ensures]
  refine (ensures_bind _ _ _).mpr ((getLatestBlock_ensures tracked).mono ?_)
  rintro answer told ⟨tracked,unmoved⟩
  cases answer with
  | none => exact tracked
  | some head =>
    refine (ensures_bind _ _ _).mpr (ensures_performed rfl ?_)
    have recorded := (setLatestChainSeqno_recorded told head).2
    have window : ∀ height ∈ Service.heights (service.windowStart s.latestBlockIndexed)
        s.latestBlockIndexed, height ≤ (told.setLatestChainSeqno head).latestBlockIndexed := by
      rw [told.setLatestChainSeqno_cursor head,unmoved.2]
      exact fun height member => (mem_heights.mp member).2
    refine (ensures_bind _ _ _).mpr
      ((revalidate_ensures names (tracked.setHead head) window).mono ?_)
    rintro _ checked ⟨tracked,kept⟩
    refine (ensures_bind _ _ _).mpr ?_
    simp only [Ensures]
    by_cases reached : head - service.confirmationBlocks <
        service.nextBlock checked.latestBlockIndexed
    · rw [if_pos reached]
      exact tracked
    · rw [if_neg reached]
      have behind := Nat.le_of_not_lt reached
      have positive : 0 < service.nextBlock checked.latestBlockIndexed :=
        Nat.lt_of_lt_of_le (Nat.succ_pos _) (Nat.le_max_left _ _)
      refine (ensures_bind _ _ _).mpr ((syncBatches_ensures names unique tracked.ready
        (nextBlock_mono service _) behind (by omega) rfl).mono ?_)
      rintro _ synced ⟨tracked,-⟩
      exact ensures_performed rfl (tracked.markBlocksConfirmed _)

end Syncing

/-- The answers that some events give. -/
def Given (events : List (Event Request Answer)) (request : Request) (answer : Answer request) :
    Prop :=
  ∃ place answers, .resume place answers ∈ events ∧ answers request = answer

/-- The database after some events of polls that were started on an empty one. -/
def Service.overlapped (service : Service) (events : List (Event Request Answer)) : Database :=
  (world (apply service.codec service.engine) service.syncBlocks .empty events).store

/-- A poll that waits finds the cursor where it was when it began to. -/
def Service.CursorKept (service : Service) (events : List (Event Request Answer)) : Prop :=
  Undisturbed (apply service.codec service.engine)
    (fun db after => after.latestBlockIndexed = db.latestBlockIndexed) service.syncBlocks .empty
    events

instance (events : List (Event Request Answer)) : Decidable (service.CursorKept events) :=
  inferInstanceAs (Decidable (Undisturbed _ _ _ _ _))

theorem Service.overlapped_tracked {heightOf : JsString → Nat}
    {events : List (Event Request Answer)}
    (hashed : Names (Given events) fun height h => heightOf h = height)
    (kept : service.CursorKept events) :
    Tracked service (fun height h => heightOf h = height) (service.overlapped events) := by
  have unique : ∀ height other h, heightOf h = height → heightOf h = other → height = other :=
    fun _ _ _ first second => first.symm.trans second
  have writes : ∀ operation met after,
      apply service.codec service.engine operation met = some after →
        met.latestChainSeqno ≤ after.latestChainSeqno := fun _ _ _ => apply_head
  have allowed : ∀ event ∈ events, event.Allowed (Given events) := by
    intro event member
    cases event with
    | start => trivial
    | resume place answers => exact fun request => ⟨place,answers,member,rfl⟩
  exact (world_ensures (Tracked service fun height h => heightOf h = height)
    (fun db after => db.latestChainSeqno ≤ after.latestChainSeqno)
    (fun db after => after.latestBlockIndexed = db.latestBlockIndexed) (fun _ => le_rfl) le_trans
    writes (fun _ tracked => syncBlocks_ensures hashed unique tracked) .empty allowed kept).1

end Overlap

/-- Any number of polls that overlap in any order: no block between two stored ones is missing as
long as the cursor keeps while a poll waits. -/
theorem contiguous_undisturbed (service : Service) (heightOf : JsString → Nat)
    (events : List (Event Request Answer))
    (hashed : Names (Given events) fun height h => heightOf h = height)
    (kept : service.CursorKept events) : (service.overlapped events).Contiguous :=
  (Service.overlapped_tracked hashed kept).contiguous

/-- What an event tells of blocks is what one chain holds. -/
def TellsChain (head : Nat) (hash : Nat → JsString) : Event Request Answer → Prop
  | .start => True
  | .resume _ answers => ∀ request, request ≠ .getMasterchainInfo →
      answers request = chainAnswer head hash request

theorem given_hashed {head : Nat} {hash : Nat → JsString} (injective : Function.Injective hash)
    {events : List (Event Request Answer)} (tells : ∀ event ∈ events, TellsChain head hash event) :
    Names (Given events) fun height h => Function.invFun hash h = height := by
  rintro blockNumber blockId header ⟨place,answers,member,looked⟩ ⟨later,others,member',headed⟩
  have looked := (tells _ member (.lookupBlock blockNumber) nofun).symm.trans looked
  have headed := (tells _ member' (.getBlockHeader _ _ _) nofun).symm.trans headed
  obtain rfl := Response.ok.inj looked
  obtain rfl := Response.ok.inj headed
  simp only [ite_self]
  exact Function.leftInverse_invFun injective blockNumber

/-- A second poll starts while the first one waits for block 1, and is not told the head. -/
def headlessOverlap : List (Event Request Answer) :=
  answered 0 5 4 (forkHash 9) ++
  [.resume 1 fun request => match request with
    | .getMasterchainInfo => .failed
    | request => chainAnswer 4 (forkHash 9) request,
  .start] ++
  answered 0 2 4 (forkHash 9) ++ [.start]

theorem headlessOverlap_tells : ∀ event ∈ headlessOverlap, TellsChain 4 (forkHash 9) event := by
  intro event member
  simp only [headlessOverlap,answered,List.mem_append,List.mem_replicate,List.mem_cons,
    List.not_mem_nil,or_false] at member
  rcases member with ((⟨-,rfl⟩ | rfl | rfl) | ⟨-,rfl⟩) | rfl
  · exact fun _ _ => rfl
  · intro request asked
    cases request with
    | getMasterchainInfo => contradiction
    | _ => rfl
  · trivial
  · exact fun _ _ => rfl
  · trivial

theorem contiguous_headlessOverlap : (reorgOnly.overlapped headlessOverlap).Contiguous :=
  contiguous_undisturbed reorgOnly (Function.invFun (forkHash 9)) headlessOverlap
    (given_hashed (forkHash_injective 9) headlessOverlap_tells) (by decide +kernel)

/-- Polls of which none starts before the last one has ended leave no gap. -/
theorem contiguous_serial (service : Service) (heightOf : JsString → Nat)
    (events : List (Event Request Answer))
    (hashed : Names (Given events) fun height h => heightOf h = height)
    (serial : Serial (apply service.codec service.engine) service.syncBlocks .empty events) :
    (service.overlapped events).Contiguous := by
  have kept : service.CursorKept events := by
    apply serial.undisturbed
    exact fun _ => rfl
  exact (Service.overlapped_tracked hashed kept).contiguous

/-- A second poll that starts when the first one has ended. -/
def laterPoll : List (Event Request Answer) := answered 1 3 4 (forkHash 9) ++ [.start] ++ firstPoll

theorem contiguous_laterPoll : (reorgOnly.overlapped laterPoll).Contiguous := by
  have tells : ∀ event ∈ laterPoll, TellsChain 4 (forkHash 9) event := by
    intro event member
    simp only [laterPoll,firstPoll,answered,List.mem_append,List.mem_replicate,List.mem_singleton]
      at member
    rcases member with (⟨-,rfl⟩ | rfl) | ⟨-,rfl⟩ | rfl
    · exact fun _ _ => rfl
    · trivial
    · exact fun _ _ => rfl
    · trivial
  exact contiguous_serial reorgOnly (Function.invFun (forkHash 9)) laterPoll
    (given_hashed (forkHash_injective 9) tells) (by decide +kernel)

end Tonbankcard.Indexer
