import Tonbankcard.IndexerCompleteness
import Tonbankcard.TipHistory

/-! Which shard blocks the service enumerates. It asks for the transactions of the shard blocks that
a masterchain block lists, which are the tips of the shards, and never for those between the tips
of one masterchain block and the next. -/
namespace Tonbankcard.Indexer

open EcmaScript Await

section Enumeration

/-- The shard block that a call starts to enumerate. -/
def Request.enumerates : Request → Option ShardBlock
  | .getBlockTransactions shard none => some shard
  | _ => none

def enumerated (calls : List ((request : Request) × Answer request)) : List ShardBlock :=
  calls.filterMap fun call => call.1.enumerates

/-- The shard blocks that an attempt at a block enumerates. -/
def Service.enumerates (service : Service)
    (answers : Nat → (request : Request) → Answer request) (db : Database) (blockNumber : Nat) :
    List ShardBlock :=
  enumerated (run (apply service.codec service.engine) answers (service.processBlock blockNumber)
    0 db).calls

/-- Every call succeeds with what the ledger has. -/
def Ledger.Succeeds {codec : AddressCodec} (ledger : Ledger codec)
    (answers : Nat → (request : Request) → Answer request) : Prop :=
  ∀ made request, ledger.Truthful request (answers made request) ∧
    ¬Failed request (answers made request)

/-- A task that returns with a value as promised and enumerates some shard blocks. -/
def Fetches (service : Service) (answers : Nat → (request : Request) → Answer request)
    (t : Sync α) (post : α → Prop) (shards : List ShardBlock) : Prop :=
  ∀ made s, let ran := run (apply service.codec service.engine) answers t made s
    (∃ value, ran.value = some value ∧ post value) ∧ enumerated ran.calls = shards

variable {service : Service} {ledger : Ledger service.codec}
  {answers : Nat → (request : Request) → Answer request}

theorem Fetches.pure {P : α → Prop} (held : P value) :
    Fetches service answers (pure value) P [] := fun _ _ => ⟨⟨value,rfl,held⟩,rfl⟩

theorem Fetches.bind {t : Sync α} {next : α → Sync β} {P : α → Prop} {Q : β → Prop}
    (first : Fetches service answers t P S)
    (later : ∀ value, P value → Fetches service answers (next value) Q T) :
    Fetches service answers (t >>= next) Q (S ++ T) := by
  intro made s
  have returned := first made s
  rw [run_bind]
  revert returned
  rcases run (apply service.codec service.engine) answers t made s with ⟨value,store,calls⟩
  rintro ⟨⟨value,rfl,held⟩,rfl⟩
  obtain ⟨result,rest⟩ := later value held (made + calls.length) store
  exact ⟨result,by rw [← rest]; exact List.filterMap_append⟩

theorem Fetches.map {t : Sync α} {post : α → Prop} (f : α → β)
    (first : Fetches service answers t post shards) :
    Fetches service answers (t >>= fun value => Pure.pure (f value)) (fun _ => True) shards := by
  rw [← List.append_nil shards]
  exact first.bind fun _ _ => Fetches.pure (P := fun _ => True) trivial

theorem Ledger.behind_subset {codec : AddressCodec} (ledger : Ledger codec) (shard : ShardBlock)
    (after : Option Cursor) : ledger.behind shard after ⊆ ledger.transactions shard := by
  cases after with
  | none => exact fun _ => id
  | some cursor =>
    exact fun _ member => (List.dropWhile_sublist _).subset (List.mem_of_mem_tail member)

variable (succeeds : ledger.Succeeds answers)

include succeeds

theorem fetchTonApi_fetches (request : Request) :
    Fetches service answers (Service.fetchTonApi request)
      (fun answer => ledger.Truthful request answer ∧ ¬Failed request answer)
      request.enumerates.toList := by
  refine fun made s => ⟨⟨_,rfl,succeeds made request⟩,?_⟩
  change List.filterMap (fun call : (request : Request) × Answer request => call.1.enumerates)
    [⟨request,answers made request⟩] = _
  rw [List.filterMap_cons]
  cases request.enumerates <;> rfl

theorem getBlockByNumber_fetches (blockNumber : Nat) :
    Fetches service answers (Service.getBlockByNumber blockNumber) (fun _ => True) [] := by
  refine (fetchTonApi_fetches succeeds (.lookupBlock blockNumber)).bind fun answer given => ?_
  cases answer with
  | ok blockId =>
    refine (fetchTonApi_fetches succeeds (.getBlockHeader _ _ _)).bind fun answer given => ?_
    cases answer with
    | ok header => exact .pure trivial
    | _ => exact absurd rfl given.2
  | _ => exact absurd rfl given.2

/-- Only the first page of a shard block is without a cursor. -/
theorem descriptorPages_fetches (shard : ShardBlock) (pages : Nat) (after : Option Cursor) :
    Fetches service answers (Service.descriptorPages shard pages after) (fun _ => True)
      (if pages = 0 then [] else (Request.getBlockTransactions shard after).enumerates.toList) := by
  induction pages generalizing after with
  | zero => exact .pure trivial
  | succ pages ih =>
    rw [if_neg (Nat.succ_ne_zero pages),← List.append_nil (Option.toList _)]
    refine (fetchTonApi_fetches succeeds (.getBlockTransactions shard after)).bind
      fun answer given => ?_
    cases answer with
    | ok page =>
      simp only
      split
      · exact .pure trivial
      · rename_i full
        have more := ih (Service.nextCursor page.transactions)
        obtain rfl := given.1 page rfl
        simp only [Bool.or_eq_true,not_or] at full
        have filled : (ledger.page shard after).transactions ≠ [] := by simpa using full.2
        obtain ⟨lt,hash⟩ := ledger.filled shard _ (ledger.behind_subset shard after
          (List.mem_of_mem_take (List.getLast_mem filled)))
        have cursor : ∃ cursor, Service.nextCursor (ledger.page shard after).transactions =
            some cursor := by
          unfold Service.nextCursor
          rw [List.getLast?_eq_some_getLast filled]
          simp only [Option.bind_some]
          rw [if_neg (by simp only [Bool.or_eq_true,List.isEmpty_iff,not_or]; exact ⟨lt,hash⟩)]
          exact ⟨_,rfl⟩
        obtain ⟨cursor,next⟩ := cursor
        have none : (if pages = 0 then [] else (Request.getBlockTransactions shard
            (Service.nextCursor (ledger.page shard after).transactions)).enumerates.toList) = [] := by
          rw [next]
          split <;> rfl
        rw [none] at more
        exact more.map _
    | _ => exact absurd rfl given.2

theorem fetchTracked_fetches (descriptors : List Descriptor) :
    Fetches service answers (service.fetchTracked descriptors) (fun _ => True) [] := by
  induction descriptors with
  | nil => exact .pure trivial
  | cons descriptor rest ih =>
    unfold Service.fetchTracked
    split
    · exact ih
    · refine Fetches.bind (S := []) (P := fun _ => True) ?_ fun transaction _ => ih.map _
      refine (fetchTonApi_fetches succeeds (.getTransactions _ _ _)).bind fun answer given => ?_
      cases answer <;> exact .pure trivial

theorem fetchShards_fetches (shards : List ShardBlock) :
    Fetches service answers (service.fetchShards shards) (fun _ => True) shards := by
  induction shards with
  | nil => exact .pure trivial
  | cons shard rest ih =>
    have pages := descriptorPages_fetches succeeds shard Service.MAX_BLOCK_TX_PAGES none
    refine pages.bind (T := rest) fun descriptors _ => ?_
    exact (fetchTracked_fetches succeeds descriptors).bind (T := rest) fun _ _ => ih.map _

theorem fetchBlockTransactions_fetches (blockNumber : Nat) :
    Fetches service answers (service.fetchBlockTransactions blockNumber) (fun _ => True)
      (if service.trackedAddresses = [] then [] else ledger.shards blockNumber) := by
  unfold Service.fetchBlockTransactions
  simp only [List.isEmpty_iff]
  split
  · exact .pure trivial
  · refine Fetches.bind (S := []) (P := fun shards => shards = ledger.shards blockNumber)
      ?_ ?_
    · refine (fetchTonApi_fetches succeeds (.shards blockNumber)).bind fun answer given => ?_
      cases answer with
      | ok shards => exact .pure (given.1 shards rfl)
      | _ => exact absurd rfl given.2
    · rintro - rfl
      exact fetchShards_fetches succeeds _

/-- An attempt enumerates what its masterchain block lists. -/
theorem enumerates_shards (db : Database) (blockNumber : Nat) :
    service.enumerates answers db blockNumber =
      if service.trackedAddresses = [] then [] else ledger.shards blockNumber := by
  obtain ⟨⟨block,found,-⟩,none⟩ := getBlockByNumber_fetches succeeds blockNumber 0 db
  unfold Service.enumerates Service.processBlock
  rw [run_bind]
  revert found none
  rcases run (apply service.codec service.engine) answers
    (Service.getBlockByNumber blockNumber) 0 db with ⟨value,store,calls⟩
  rintro none rfl
  obtain ⟨⟨transactions,fetched,-⟩,shards⟩ :=
    fetchBlockTransactions_fetches succeeds blockNumber (0 + calls.length) store
  simp only
  rw [run_bind]
  revert fetched shards
  rcases run (apply service.codec service.engine) answers
    (service.fetchBlockTransactions blockNumber) (0 + calls.length) store with ⟨value,store,more⟩
  rintro shards rfl
  have last (made : Nat) (operation : Operation) : enumerated (run
      (apply service.codec service.engine) answers (Task.perform operation) made store).calls =
        [] := by
    simp only [Task.perform,run]
    split <;> rfl
  unfold enumerated at *
  rw [List.filterMap_append,List.filterMap_append,none,shards,last,List.append_nil,
    List.nil_append]

end Enumeration

section Once

/-- The attempts at some masterchain blocks in a row enumerate each shard block that is new among
them once, at the first masterchain block that confirms it. -/
def EnumeratedOnce (service : Service) (history : TipHistory ShardBlock)
    (answers : Nat → Nat → (request : Request) → Answer request) (dbs : Nat → Database)
    (first count : Nat) : Prop :=
  ∀ blockNumber ∈ List.range' first count, ∀ shard, history.New blockNumber shard →
    ((List.range' first count).flatMap fun seqno =>
      service.enumerates (answers seqno) (dbs seqno) seqno).count shard = 1 ∧
    shard ∈ service.enumerates (answers blockNumber) (dbs blockNumber) blockNumber

/-- Where each masterchain block lists the tips of its shards and every call succeeds, each shard
block is enumerated once if and only if no tip is more than one block ahead of the tips before and
no new tip is listed again, or there is nothing new. -/
theorem enumerated_once_iff (service : Service) (ledger : Ledger service.codec)
    (history : TipHistory ShardBlock) (tops : ledger.shards = history.tips)
    (answers : Nat → Nat → (request : Request) → Answer request)
    (succeeds : ∀ seqno, ledger.Succeeds (answers seqno)) (dbs : Nat → Database)
    (first count : Nat) :
    EnumeratedOnce service history answers dbs first count ↔
      (service.trackedAddresses ≠ [] ∧
        (∀ seqno ∈ List.range' first count, history.Single seqno) ∧
        ∀ seqno ∈ List.range' first count, seqno + 1 ∈ List.range' first count →
          history.Moves seqno) ∨
      ∀ seqno ∈ List.range' first count, ∀ shard, ¬history.New seqno shard := by
  have enumerates (seqno : Nat) : service.enumerates (answers seqno) (dbs seqno) seqno =
      if service.trackedAddresses = [] then [] else history.tips seqno := by
    rw [enumerates_shards (succeeds seqno),tops]
  unfold EnumeratedOnce
  simp only [enumerates]
  by_cases untracked : service.trackedAddresses = []
  · simp only [untracked,if_true,ne_eq,not_true_eq_false,false_and,false_or,List.not_mem_nil,
      and_false,imp_false]
  · simp only [untracked,if_false,ne_eq,not_false_eq_true,true_and]
    rw [← history.metOnce_iff first count]
    refine ⟨.inl,?_⟩
    rintro (met | nothing)
    · exact met
    · exact fun seqno inside shard new => absurd new (nothing seqno inside shard)

/-- The block that a shard block grew from where the shard neither splits nor merges. -/
def ShardBlock.parents : ShardBlock → List ShardBlock
  | ⟨workchain,shard,seqno + 1⟩ => [⟨workchain,shard,seqno⟩]
  | ⟨_,_,0⟩ => []

theorem ShardBlock.grows (workchain : Int) (shard : JsString) (seqno more : Nat) :
    Relation.ReflTransGen (fun parent block => parent ∈ ShardBlock.parents block)
      ⟨workchain,shard,seqno⟩ ⟨workchain,shard,seqno + more⟩ := by
  induction more with
  | zero => exact .refl
  | succ more ih => exact ih.tail (List.mem_singleton_self _)

/-- One shard of which every masterchain block confirms as many blocks. -/
def stride (step : Nat) : TipHistory ShardBlock where
  parents := ShardBlock.parents
  tips seqno := [⟨0,js "-9223372036854775808",step * seqno⟩]
  height block := block.seqno
  height_lt
    | ⟨_,_,seqno + 1⟩, parent, member => by
      rw [List.mem_singleton.mp member]
      exact Nat.lt_succ_self seqno
    | ⟨_,_,0⟩, parent, member => nomatch member
  tips_nodup _ := List.nodup_singleton _
  tips_apart seqno tip member other inside _ :=
    (List.mem_singleton.mp member).trans (List.mem_singleton.mp inside).symm
  tips_kept seqno tip member := by
    refine ⟨_,List.mem_singleton_self _,?_⟩
    rw [List.mem_singleton.mp member,Nat.mul_succ]
    exact ShardBlock.grows _ _ _ _

/-- A tip is new in front of lower ones. -/
theorem stride_single : (stride 1).Single seqno := by
  intro tip member parent inside
  rw [List.mem_singleton.mp member,Nat.one_mul] at inside
  cases seqno with
  | zero => exact nomatch inside
  | succ seqno =>
    rw [List.mem_singleton.mp inside]
    refine ⟨seqno,Nat.lt_succ_self seqno,_,List.mem_singleton_self _,?_⟩
    rw [Nat.one_mul]
    exact .refl

theorem stride_moves : (stride 1).Moves seqno := by
  intro tip member _ again
  rw [List.mem_singleton.mp member] at again
  have same := congrArg ShardBlock.seqno (List.mem_singleton.mp again)
  simp only at same
  omega

def strideLedger (step : Nat) : Ledger metricsService.codec :=
  {metricsLedger with shards := (stride step).tips}

theorem strideLedger_succeeds (step : Nat) :
    (strideLedger step).Succeeds fun _ => (strideLedger step).answer 2 := by
  refine fun _ request => ⟨((strideLedger step).answer_tells 2 request).1,?_⟩
  cases request <;> exact nofun

theorem enumerated_once_single : EnumeratedOnce metricsService (stride 1)
    (fun _ _ => (strideLedger 1).answer 2) (fun _ => Database.empty) 1 5 :=
  (enumerated_once_iff metricsService (strideLedger 1) (stride 1) rfl _
    (fun _ => strideLedger_succeeds 1) _ 1 5).mpr
      (.inl ⟨by decide,fun _ _ => stride_single,fun _ _ _ => stride_moves⟩)

/-- Masterchain block 1 confirms the blocks 1 and 2 of its shard, and block 1, which holds a
transaction of the registry, is never enumerated. -/
theorem enumerated_once_skips :
    (strideLedger 2).shards = (stride 2).tips ∧
    (strideLedger 2).Succeeds (fun _ => (strideLedger 2).answer 2) ∧
    (strideLedger 2).transactions ⟨0,js "-9223372036854775808",1⟩ = [metricsDescriptor] ∧
    ¬EnumeratedOnce metricsService (stride 2) (fun _ _ => (strideLedger 2).answer 2)
      (fun _ => Database.empty) 1 1 := by
  refine ⟨rfl,strideLedger_succeeds 2,rfl,fun once => ?_⟩
  have new : (stride 2).New 1 ⟨0,js "-9223372036854775808",1⟩ := by
    refine ⟨⟨_,List.mem_singleton_self _,ShardBlock.grows _ _ 1 1⟩,?_⟩
    rintro earlier low ⟨tip,member,ancestor⟩
    have height := TipHistory.height_le ancestor
    rw [List.mem_singleton.mp member,Nat.lt_one_iff.mp low] at height
    exact absurd height (by decide)
  have met := (once 1 (by decide) _ new).2
  rw [enumerates_shards (strideLedger_succeeds 2),if_neg (by decide)] at met
  have same := congrArg ShardBlock.seqno (List.mem_singleton.mp met)
  contradiction

end Once
end Tonbankcard.Indexer
