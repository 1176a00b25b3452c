import Tonbankcard.IndexerReorg

/-! The confirmed flag of a block row and the status that the payments API derives from the stored
chain head. Every row is deep enough to be reported as confirmed, so the two agree after a poll
exactly where the flags are all set: a poll that indexes sets them, one that does not leaves the
rows of an earlier poll that failed as they are. -/
namespace Tonbankcard.Indexer

open EcmaScript Await

def confirmationDepth (chainHeadSeqno blockNumber : Nat) : Nat := chainHeadSeqno - blockNumber

def isBlockConfirmed (chainHeadSeqno blockNumber confirmationBlocks : Nat) : Bool :=
  confirmationBlocks ≤ confirmationDepth chainHeadSeqno blockNumber

namespace Service
variable (service : Service)

/-- The flag of every row is what the payments API reports. -/
def FlagsAgree (db : Database) : Prop :=
  ∀ block ∈ db.blocks, block.confirmed =
    isBlockConfirmed db.latestChainSeqno block.blockNumber service.confirmationBlocks

instance (db : Database) : Decidable (service.FlagsAgree db) :=
  inferInstanceAs (Decidable (∀ block ∈ db.blocks, _))

/-- A poll has a block to index once it has rolled back, or finds every row flagged that it
keeps. -/
def Settles (answers : Nat → (request : Request) → Answer request) (db : Database) : Prop :=
  (∃ head, (answers 0 .getMasterchainInfo).result = some head ∧
    service.nextBlock (service.revalidated answers db).latestBlockIndexed ≤
      head - service.confirmationBlocks) ∨
  ∀ block ∈ (service.revalidated answers db).blocks, block.confirmed = true

end Service

section Flags
variable {service : Service} {named : Nat → JsString → Prop}

theorem Tracked.flagsAgree_iff {db : Database} (tracked : Tracked service named db) :
    service.FlagsAgree db ↔ ∀ block ∈ db.blocks, block.confirmed = true := by
  refine forall₂_congr fun block member => ?_
  have deep := tracked.deep block member
  have reported : isBlockConfirmed db.latestChainSeqno block.blockNumber
      service.confirmationBlocks = true := by
    unfold isBlockConfirmed confirmationDepth
    simp only [decide_eq_true_eq]
    omega
  rw [reported]

theorem Database.Contiguous.upTo {db : Database} (contiguous : db.Contiguous)
    (member : block ∈ db.blocks) : block.blockNumber ≤ db.latestBlockIndexed := by
  rcases contiguous with ⟨empty,-⟩ | ⟨first,-,range⟩
  · simp [empty] at member
  · exact ((range block.blockNumber).mp ⟨block,member,rfl⟩).2

/-- The flags that a poll sets where it has indexed up to its end. -/
theorem markBlocksConfirmed_all {db : Database} (contiguous : db.Contiguous) :
    ∀ block ∈ (db.markBlocksConfirmed db.latestBlockIndexed).blocks, block.confirmed = true := by
  intro block member
  obtain ⟨before,stored,rfl⟩ := List.mem_map.mp member
  rw [if_pos (contiguous.upTo stored)]

/-- The hash of a block determines its height. -/
def HashedBy (heightOf : JsString → Nat)
    (answers : Nat → (request : Request) → Answer request) : Prop :=
  Names (Answering answers) fun height h => heightOf h = height

theorem Service.polled_tracked {heightOf : JsString → Nat}
    {polls : List (Nat → (request : Request) → Answer request)}
    (hashed : ∀ answers ∈ polls, HashedBy heightOf answers) :
    Tracked service (fun height h => heightOf h = height) (service.polled polls) := by
  induction polls with
  | nil => exact .empty
  | cons answers past ih =>
    have before := ih fun other member => hashed other (List.mem_cons_of_mem _ member)
    exact before.poll before.revalidated (fun _ _ => id) (hashed answers List.mem_cons_self)
      fun _ _ _ first second => first.symm.trans second

end Flags

/-- After any polls, some of which may have failed at any of their calls, a poll that returns
leaves flags that agree exactly where it settles. -/
theorem flags_agree_iff (service : Service) (heightOf : JsString → Nat)
    (answers : Nat → (request : Request) → Answer request)
    (past : List (Nat → (request : Request) → Answer request))
    (hashed : ∀ poll ∈ answers :: past, HashedBy heightOf poll)
    (returned : (service.poll (service.polled past) answers).value = some ()) :
    service.FlagsAgree (service.polled (answers :: past)) ↔
      service.Settles answers (service.polled past) := by
  have before : Tracked service _ (service.polled past) :=
    Service.polled_tracked fun other member => hashed other (List.mem_cons_of_mem _ member)
  have after : Tracked service _ (service.polled (answers :: past)) :=
    Service.polled_tracked hashed
  have mid := @Tracked.revalidated _ _ answers _ before
  rw [after.flagsAgree_iff]
  have ends := @poll_ends service answers (service.polled past)
  change service.Ends answers (service.polled past) _ (service.polled (answers :: past)) at ends
  rw [returned] at ends
  clear after returned
  generalize service.polled (answers :: past) = store at ends ⊢
  unfold Service.Settles
  cases ends with
  | headless unknown =>
    have kept : service.revalidated answers (service.polled past) = service.polled past := by
      unfold Service.revalidated
      rw [unknown]
    simp [unknown,kept]
  | rested head known reached =>
    refine (or_iff_right ?_).symm
    rintro ⟨head',known',behind⟩
    obtain rfl := Option.some.inj (known.symm.trans known')
    exact absurd reached (Nat.not_lt_of_le behind)
  | synced head made known behind last forward ended =>
    obtain ⟨tracked,reached⟩ := forward_tracked made (hashed answers List.mem_cons_self)
      (fun _ _ _ first second => first.symm.trans second) mid behind (revalidated_head known)
    rw [← forward] at tracked reached
    have all := markBlocksConfirmed_all tracked.contiguous
    rw [reached ended] at all
    exact iff_of_true all (.inl ⟨head,known,behind⟩)

theorem chainAnswer_hashed (head fork : Nat) :
    HashedBy (Function.invFun (forkHash fork)) fun _ => chainAnswer head (forkHash fork) := by
  rintro blockNumber blockId header ⟨_,looked⟩ ⟨_,headed⟩
  obtain rfl := Response.ok.inj looked
  obtain rfl := Response.ok.inj headed
  simp only [ite_self]
  exact Function.leftInverse_invFun (forkHash_injective fork) blockNumber

/-- A first poll that indexes three blocks flags them. -/
theorem flags_agree_first :
    reorgOnly.FlagsAgree (reorgOnly.polled [fun _ => chainAnswer 4 (forkHash 9)]) :=
  (flags_agree_iff reorgOnly (Function.invFun (forkHash 9)) (fun _ => chainAnswer 4 (forkHash 9))
    [] (by simp [chainAnswer_hashed]) (by decide +kernel)).mpr (.inl ⟨4,rfl,by decide +kernel⟩)

/-- One poll fails at block 3, the next one is not told the head. -/
def interruptedPolls : List (Nat → (request : Request) → Answer request) :=
  [fun _ request => match request with
    | .getMasterchainInfo => .failed
    | request => chainAnswer 5 (forkHash 9) request,
  fun _ request => match request with
    | .lookupBlock 3 => .failed
    | request => chainAnswer 5 (forkHash 9) request]

theorem interrupted_disagree :
    (reorgOnly.poll (reorgOnly.polled interruptedPolls.tail)
      (interruptedPolls.head (by decide))).value = some () ∧
    ¬reorgOnly.FlagsAgree (reorgOnly.polled interruptedPolls) := by
  decide +kernel

end Tonbankcard.Indexer
