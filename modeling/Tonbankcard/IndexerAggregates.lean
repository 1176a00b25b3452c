import Tonbankcard.IndexerCompleteness
import Tonbankcard.IndexerReplay

/-! The transparency aggregates have one row for a period, which the newest block that records the
period has written. A rollback takes the row of a period with the block that wrote it, and what
earlier blocks recorded of the period is not brought back. -/
namespace Tonbankcard.Indexer

open EcmaScript

section Upserts
variable {period : Content → Nat × Nat}

theorem Row.replaces_iff {excluded stored : Row Content} :
    excluded.replaces stored = true ↔ stored.AtMost excluded := by
  unfold Row.replaces Row.AtMost
  simp only [Bool.or_eq_true,Bool.and_eq_true,decide_eq_true_eq]
  exact or_congr_right (and_congr_left fun _ => eq_comm)

theorem find_replaced {row : Row Content} {table : Table Content}
    (found : (table.find? fun other => period other.content = period row.content).isSome = true)
    (at_ : Nat × Nat) :
    (table.map fun other => if period other.content = period row.content then row else other).find?
        (fun other => period other.content = at_) =
      if period row.content = at_ then some row
      else table.find? fun other => period other.content = at_ := by
  induction table with
  | nil => contradiction
  | cons other rest ih =>
    rw [List.map_cons,List.find?_cons,List.find?_cons]
    rw [List.find?_cons] at found
    by_cases same : period other.content = period row.content
    · rw [if_pos same]
      by_cases here : period row.content = at_
      · simp only [here,decide_true,if_true]
      · simp only [same,here,decide_false,if_false]
        by_cases more : (rest.find? fun other =>
            period other.content = period row.content).isSome = true
        · rw [ih more,if_neg here]
        · have none : ∀ other ∈ rest, ¬period other.content = period row.content := by
            simpa only [List.find?_isSome,not_exists,not_and,decide_eq_true_eq] using more
          have kept : (rest.map fun other =>
              if period other.content = period row.content then row else other) = rest := by
            conv_rhs => rw [← List.map_id rest]
            exact List.map_congr_left fun other member => if_neg (none other member)
          rw [kept]
    · simp only [same,decide_false] at found
      rw [if_neg same,ih found]
      by_cases here : period other.content = at_
      · have apart : ¬period row.content = at_ := fun equal => same (here.trans equal.symm)
        simp only [here,apart,decide_true,if_false]
      · simp only [here,decide_false]

/-- What an upsert leaves of a period: the greater of its row and the new one. -/
theorem upsert_find {row : Row Content} {table after : Table Content}
    (inserted : upsert period row table = some after) (at_ : Nat × Nat) :
    after.find? (fun other => period other.content = at_) =
      if period row.content = at_ then
        match table.find? fun other => period other.content = at_ with
        | none => some row
        | some stored => if stored.AtMost row then some row else some stored
      else table.find? fun other => period other.content = at_ := by
  unfold upsert at inserted
  split at inserted
  · rename_i none
    split at inserted
    · contradiction
    obtain rfl := Option.some.inj inserted
    rw [List.find?_append]
    split
    · rename_i same
      rw [← same,none]
      simp
    · rename_i apart
      simp [apart]
  · rename_i stored found
    split at inserted
    · rename_i older
      obtain rfl := Option.some.inj inserted
      split
      · rename_i same
        rw [← same,found]
        have above : ¬stored.AtMost row := fun below => by simp [Row.replaces_iff.mpr below] at older
        simp only [if_neg above]
      · rfl
    · rename_i newer
      split at inserted
      · contradiction
      obtain rfl := Option.some.inj inserted
      rw [find_replaced (by rw [found]; rfl)]
      split
      · rename_i same
        have below : stored.AtMost row := Row.replaces_iff.mp (by simpa using newer)
        rw [← same,found]
        simp only [if_pos below]
      · rfl

theorem newest_concat (rows : Table Content) (row : Row Content) :
    newest (rows ++ [row]) = match newest rows with
      | none => some row
      | some best => if best.AtMost row then some row else some best := by
  induction rows with
  | nil => rfl
  | cons first rest ih =>
    rw [List.cons_append]
    unfold newest
    rw [ih]
    cases found : newest rest with
    | none => rfl
    | some best =>
      simp only
      by_cases below : best.AtMost row
      · by_cases under : first.AtMost best
        · simp only [if_pos below,if_pos under,if_pos (under.trans below)]
        · simp only [if_pos below,if_neg under]
      · by_cases under : first.AtMost best
        · simp only [if_neg below,if_pos under]
        · have low : best.AtMost first := (Row.AtMost.total _ _).resolve_left under
          have above : ¬first.AtMost row := fun held => below (low.trans held)
          simp only [if_neg below,if_neg under,if_neg above]

/-- A row of a later block than some others is the newest. -/
theorem newest_later {rows : Table Content} {row : Row Content}
    (low : ∀ other ∈ rows, other.blockNumber < row.blockNumber) :
    newest (rows ++ [row]) = some row := by
  rw [newest_concat]
  split
  · rfl
  · rename_i best found
    exact if_pos (.inl (low best (newest_latest rows best found).1))

end Upserts
section Aggregating

/-- A table that has the newest row of each period that some rows record, but for the periods that
are gone. -/
structure Aggregated (period : Content → Nat × Nat) (rows : Table Content)
    (gone : Set (Nat × Nat)) (table : Table Content) : Prop where
  unique : (table.map fun row => period row.content).Nodup
  lost : ∀ at_ ∈ gone, table.find? (fun row => period row.content = at_) = none
  kept : ∀ at_ ∉ gone, table.find? (fun row => period row.content = at_) =
    newest (rows.filter fun row => period row.content = at_)

/-- The periods that are still gone when some rows record theirs. -/
def Unrecorded (period : Content → Nat × Nat) (rows : Table Content) (gone : Set (Nat × Nat)) :
    Set (Nat × Nat) := {at_ | at_ ∈ gone ∧ ∀ row ∈ rows, period row.content ≠ at_}

variable {period : Content → Nat × Nat} {gone : Set (Nat × Nat)} {rows table after : Table Content}

/-- The step lemma: an upsert of a row that is newer than those of a period that is gone. -/
theorem Aggregated.upsert {row : Row Content} (aggregated : Aggregated period rows gone table)
    (low : ∀ other ∈ rows, period other.content ∈ gone → other.blockNumber < row.blockNumber)
    (inserted : Indexer.upsert period row table = some after) :
    Aggregated period (rows ++ [row]) (Unrecorded period [row] gone) after := by
  have found := upsert_find inserted
  refine ⟨(upsert_took aggregated.unique inserted).unique,fun at_ member => ?_,fun at_ apart => ?_⟩
  · rw [found,if_neg (member.2 row List.mem_cons_self)]
    exact aggregated.lost at_ member.1
  · rw [found]
    split
    · rename_i same
      rw [filter_kept (decide_eq_true same)]
      by_cases missing : at_ ∈ gone
      · rw [aggregated.lost at_ missing]
        refine (newest_later fun other member => ?_).symm
        obtain ⟨inside,here⟩ := List.mem_filter.mp member
        exact low other inside (of_decide_eq_true here ▸ missing)
      · rw [newest_concat,aggregated.kept at_ missing]
    · rename_i other
      rw [filter_other fun held => other (of_decide_eq_true held)]
      refine aggregated.kept at_ fun missing => apart ⟨missing,?_⟩
      simpa using other

/-- The run lemma: the rows of a block that comes after those of the others. -/
theorem Aggregated.insertAll {t : EventTable Content} (update : t.conflict = .update period)
    {more : Table Content} (aggregated : Aggregated period rows gone table)
    (low : ∀ other ∈ rows, period other.content ∈ gone → ∀ row ∈ more,
      other.blockNumber < row.blockNumber)
    (inserted : t.insertAll more table = some after) :
    Aggregated period (rows ++ more) (Unrecorded period more gone) after := by
  induction more generalizing rows gone table with
  | nil =>
    obtain rfl := Option.some.inj inserted
    rw [List.append_nil]
    have same : Unrecorded period [] gone = gone := by simp [Unrecorded]
    rw [same]
    exact aggregated
  | cons row rest ih =>
    obtain ⟨middle,first,later⟩ := Option.bind_eq_some_iff.mp inserted
    rw [update] at first
    have step := aggregated.upsert
      (fun other member missing => low other member missing row List.mem_cons_self) first
    have same : Unrecorded period rest (Unrecorded period [row] gone) =
        Unrecorded period (row :: rest) gone := by
      ext at_
      simp [Unrecorded,and_assoc]
    rw [List.append_cons,← same]
    refine ih step (fun other member missing other' inside => ?_) later
    rcases List.mem_append.mp member with before | new
    · exact low other before missing.1 other' (List.mem_cons_of_mem _ inside)
    · rw [List.mem_singleton.mp new] at missing
      exact absurd rfl (missing.2 row List.mem_cons_self)

/-- What is left of a period where the table has one row for it. -/
theorem find_filter {keep : Row Content → Bool}
    (unique : (table.map fun row => period row.content).Nodup) (at_ : Nat × Nat) :
    (table.filter keep).find? (fun row => period row.content = at_) =
      (table.find? fun row => period row.content = at_).filter keep := by
  induction table with
  | nil => rfl
  | cons row rest ih =>
    obtain ⟨apart,later⟩ := List.nodup_cons.mp unique
    rw [List.filter_cons]
    by_cases here : period row.content = at_
    · have absent : (rest.filter keep).find? (fun row => period row.content = at_) = none := by
        refine List.find?_eq_none.mpr fun other member same => apart (List.mem_map.mpr
          ⟨other,List.mem_of_mem_filter member,?_⟩)
        exact (of_decide_eq_true same).trans here.symm
      cases kept : keep row with
      | true => simp [here,Option.filter_some,kept]
      | false =>
        rw [if_neg Bool.false_ne_true,absent]
        simp [here,Option.filter_some,kept]
    · cases kept : keep row with
      | true => simpa [here] using ih later
      | false => simpa [here] using ih later

/-- The step lemma: a rollback to a block takes the periods that later rows record. -/
theorem Aggregated.rollback (aggregated : Aggregated period rows gone table) (fromBlock : Nat) :
    Aggregated period (rows.filter (·.blockNumber < fromBlock))
      (gone ∪ {at_ | ∃ row ∈ rows, fromBlock ≤ row.blockNumber ∧ period row.content = at_})
      (table.filter (·.blockNumber < fromBlock)) := by
  refine ⟨aggregated.unique.sublist (List.filter_sublist.map _),fun at_ member => ?_,
    fun at_ apart => ?_⟩
  · rw [find_filter aggregated.unique]
    by_cases missing : at_ ∈ gone
    · rw [aggregated.lost at_ missing]
      rfl
    · obtain ⟨row,inside,high,here⟩ := member.resolve_left missing
      rw [aggregated.kept at_ missing]
      cases found : newest (rows.filter fun row => period row.content = at_) with
      | none => rfl
      | some best =>
        -- the newest row is of the block that goes or of a later one
        have most := (newest_latest _ best found).2 row
          (List.mem_filter.mpr ⟨inside,decide_eq_true here⟩)
        unfold Row.AtMost at most
        exact if_neg (by simp only [decide_eq_true_eq]; omega)
  · have left : at_ ∉ gone := fun missing => apart (.inl missing)
    have low : ∀ row ∈ rows, period row.content = at_ → row.blockNumber < fromBlock := by
      intro row inside here
      by_contra high
      exact apart (.inr ⟨row,inside,by omega,here⟩)
    have same : (rows.filter (·.blockNumber < fromBlock)).filter (fun row =>
        period row.content = at_) = rows.filter fun row => period row.content = at_ := by
      rw [List.filter_filter]
      refine List.filter_congr fun row inside => ?_
      by_cases here : period row.content = at_
      · simp [here,low row inside here]
      · simp [here]
    rw [find_filter aggregated.unique,aggregated.kept at_ left,same]
    cases found : newest (rows.filter fun row => period row.content = at_) with
    | none => rfl
    | some best =>
      obtain ⟨inside,here⟩ := List.mem_filter.mp (newest_latest _ best found).1
      exact if_pos (decide_eq_true (low best inside (of_decide_eq_true here)))

/-- A row of the table is the newest of its period. -/
theorem Aggregated.newest {row : Row Content} (aggregated : Aggregated period rows gone table)
    (member : row ∈ table) :
    Indexer.newest (rows.filter fun other => period other.content = period row.content) =
      some row := by
  have found : table.find? (fun other => period other.content = period row.content) =
      some row := by
    cases first : table.find? (fun other => period other.content = period row.content) with
    | none =>
      have apart := List.find?_eq_none.mp first row member
      simp at apart
    | some other =>
      have same := List.find?_some first
      rw [List.inj_on_of_nodup_map aggregated.unique (List.mem_of_find?_eq_some first) member
        (of_decide_eq_true same)]
  by_cases missing : period row.content ∈ gone
  · rw [aggregated.lost _ missing] at found
    contradiction
  · exact (aggregated.kept _ missing).symm.trans found

theorem Aggregated.recorded (aggregated : Aggregated period rows gone table) (at_ : Nat × Nat) :
    (∃ row ∈ table, period row.content = at_) ↔
      (∃ row ∈ rows, period row.content = at_) ∧ at_ ∉ gone := by
  constructor
  · rintro ⟨row,member,rfl⟩
    have inside := (newest_latest _ row (aggregated.newest member)).1
    refine ⟨⟨row,List.mem_of_mem_filter inside,rfl⟩,fun missing => ?_⟩
    have apart := List.find?_eq_none.mp (aggregated.lost _ missing) row member
    simp at apart
  · rintro ⟨⟨row,inside,here⟩,left⟩
    cases found : table.find? fun row => period row.content = at_ with
    | none =>
      rw [aggregated.kept at_ left] at found
      exact absurd (newest_none _ found) (List.ne_nil_of_mem
        (List.mem_filter.mpr ⟨inside,decide_eq_true here⟩))
    | some stored =>
      have here := List.find?_some found
      exact ⟨stored,List.mem_of_find?_eq_some found,of_decide_eq_true here⟩

end Aggregating
section Runs

/-- The blocks that are indexed after a write. -/
def Operation.canonical : Operation → List IndexedBlock → List IndexedBlock
  | .commitBlock block, blocks => blocks ++ [block]
  | .handleReorg fromBlock, blocks => before fromBlock blocks
  | _, blocks => blocks

/-- The blocks that are indexed after some writes, of which the first in the list is the last. -/
def canonical : List Operation → List IndexedBlock
  | [] => []
  | operation :: earlier => operation.canonical (canonical earlier)

def performed (codec : AddressCodec) (engine : Database.Engine) :
    List Operation → Option Database
  | [] => some .empty
  | operation :: earlier => (performed codec engine earlier).bind (apply codec engine operation)

/-- Every commit is of the next block of a chain. -/
def Extends : List Operation → Prop
  | [] => True
  | operation :: earlier => Extends earlier ∧ Chain (operation.canonical (canonical earlier))

variable (codec : AddressCodec) (t : EventTable Content) (period : Content → Nat × Nat)

/-- The rows that some blocks record for a period, in the order of the chain. -/
def recordings (blocks : List IndexedBlock) (at_ : Nat × Nat) : Table Content :=
  (blocks.flatMap (t.rows codec)).filter fun row => period row.content = at_

def Recorded (blocks : List IndexedBlock) (at_ : Nat × Nat) : Prop :=
  ∃ row ∈ blocks.flatMap (t.rows codec), period row.content = at_

/-- The periods of which a rollback took a block that recorded them and which no block has recorded
since. -/
def lost : List Operation → Set (Nat × Nat)
  | [] => ∅
  | .commitBlock block :: earlier =>
    {at_ | at_ ∈ lost earlier ∧ ¬Recorded codec t period [block] at_}
  | .handleReorg fromBlock :: earlier =>
    lost earlier ∪ {at_ | Recorded codec t period (since fromBlock (canonical earlier)) at_}
  | _ :: earlier => lost earlier

/-- Each period that is recorded and not lost has one row, from the newest block that records it,
which is the last one in the order of the chain where that block records the period in one
transaction. -/
structure ShowsNewest (blocks : List IndexedBlock) (gone : Set (Nat × Nat)) (db : Database) :
    Prop where
  unique : ((t.table db).map fun row => period row.content).Nodup
  periods : ∀ at_, (∃ row ∈ t.table db, period row.content = at_) ↔
    Recorded codec t period blocks at_ ∧ at_ ∉ gone
  newest : ∀ row ∈ t.table db, row ∈ recordings codec t period blocks (period row.content) ∧
    ∀ other ∈ recordings codec t period blocks (period row.content),
      other.blockNumber ≤ row.blockNumber
  last : ∀ row ∈ t.table db,
    (∀ other ∈ recordings codec t period blocks (period row.content),
      other.blockNumber = row.blockNumber → other.transactionHash = row.transactionHash) →
    (recordings codec t period blocks (period row.content)).getLast? = some row

variable {codec} {t} {period} {engine : Database.Engine} {db after : Database}

theorem Aggregated.showsNewest (chain : Chain blocks)
    (aggregated : Aggregated period (blocks.flatMap (t.rows codec)) gone (t.table db)) :
    ShowsNewest codec t period blocks gone db := by
  have latest (row : Row Content) (member : row ∈ t.table db) :
      Latest (recordings codec t period blocks (period row.content)) row :=
    newest_latest _ row (aggregated.newest member)
  refine ⟨aggregated.unique,aggregated.recorded,fun row member => ?_,fun row member single => ?_⟩
  · obtain ⟨inside,most⟩ := latest row member
    refine ⟨inside,fun other there => ?_⟩
    have low := most other there
    unfold Row.AtMost at low
    omega
  · obtain ⟨inside,most⟩ := latest row member
    have filled := List.getLast?_eq_some_getLast (List.ne_nil_of_mem inside)
    obtain ⟨front,split⟩ := List.getLast?_eq_some_iff.mp filled
    rw [filled]
    generalize List.getLast _ (List.ne_nil_of_mem inside) = last at split
    have there : last ∈ recordings codec t period blocks (period row.content) := by
      rw [split]
      exact List.mem_append_right _ List.mem_cons_self
    have low := most last there
    have ascending : (recordings codec t period blocks (period row.content)).Pairwise
        fun earlier later => earlier.blockNumber ≤ later.blockNumber :=
      (chain.rows_ascending t).filter _
    have logged : (recordings codec t period blocks (period row.content)).Pairwise
        fun earlier later => earlier.transactionHash = later.transactionHash →
          earlier.logIndex < later.logIndex := (chain.rows_logged t).filter _
    have where_ := inside
    rw [split] at ascending logged where_
    rcases List.mem_append.mp where_ with early | same
    · -- a row before the last one would be of its block and its transaction
      have below := (List.pairwise_append.mp ascending).2.2 row early last List.mem_cons_self
      unfold Row.AtMost at low
      have block : last.blockNumber = row.blockNumber := by omega
      have order := (List.pairwise_append.mp logged).2.2 row early last List.mem_cons_self
        (single last there block).symm
      omega
    · rw [List.mem_singleton.mp same]

theorem Aggregated.commit (update : t.conflict = .update period) (mirrors : Mirrors codec blocks db)
    (aggregated : Aggregated period (blocks.flatMap (t.rows codec)) gone (t.table db))
    (chain : Chain (blocks ++ [block])) (committed : db.commitBlock codec block = some after) :
    Aggregated period ((blocks ++ [block]).flatMap (t.rows codec))
      {at_ | at_ ∈ gone ∧ ¬Recorded codec t period [block] at_} (t.table after) := by
  have filled := commitBlock_table t committed
  rw [cascade_none (mirrors.apart chain)] at filled
  have stepped := aggregated.insertAll update (fun other member _ row inside => ?_) filled
  · rw [List.flatMap_append,List.flatMap_singleton]
    have same : {at_ | at_ ∈ gone ∧ ¬Recorded codec t period [block] at_} =
        Unrecorded period (t.rows codec block) gone := by
      ext at_
      simp [Recorded,Unrecorded]
    rw [same]
    exact stepped
  · obtain ⟨earlier,listed,found⟩ := List.mem_flatMap.mp member
    rw [rows_blockNumber found,rows_blockNumber inside]
    exact (List.pairwise_append.mp chain.ascending).2.2 earlier listed block List.mem_cons_self

theorem Aggregated.reorg (mirrors : Mirrors codec blocks db)
    (aggregated : Aggregated period (blocks.flatMap (t.rows codec)) gone (t.table db))
    (engine : Database.Engine) (fromBlock : Nat) :
    Aggregated period ((before fromBlock blocks).flatMap (t.rows codec))
      (gone ∪ {at_ | Recorded codec t period (since fromBlock blocks) at_})
      (t.table (db.handleReorg engine fromBlock)) := by
  have rows : (blocks.flatMap (t.rows codec)).filter (·.blockNumber < fromBlock) =
      (before fromBlock blocks).flatMap (t.rows codec) :=
    filter_flatMap fun block _ row member => by rw [rows_blockNumber member]
  have reverted : {at_ | Recorded codec t period (since fromBlock blocks) at_} =
      {at_ | ∃ row ∈ blocks.flatMap (t.rows codec), fromBlock ≤ row.blockNumber ∧
        period row.content = at_} := by
    have same : (blocks.flatMap (t.rows codec)).filter (fromBlock ≤ ·.blockNumber) =
        (since fromBlock blocks).flatMap (t.rows codec) :=
      filter_flatMap fun block _ row member => by rw [rows_blockNumber member]
    ext at_
    simp only [Recorded,← same,Set.mem_ofPred_eq,List.mem_filter,decide_eq_true_eq,and_assoc]
  rw [handleReorg_table,mirrors.cascade,← rows,reverted]
  · exact aggregated.rollback fromBlock
  · intro row member
    have inside := List.mem_of_mem_filter (newest_latest _ row (aggregated.newest member)).1
    obtain ⟨block,listed,found⟩ := List.mem_flatMap.mp inside
    exact ⟨block,listed,(rows_blockNumber found).symm⟩

theorem Aggregated.empty (t : EventTable Content) : Aggregated period [] ∅ (t.table .empty) := by
  rw [t.empty]
  exact ⟨.nil,nofun,fun _ _ => rfl⟩

/-- The invariant of a run of writes. -/
theorem performed_aggregated (update : t.conflict = .update period) (history : List Operation)
    (extends_ : Extends history) (done : performed codec engine history = some db) :
    Mirrors codec (canonical history) db ∧
      Aggregated period ((canonical history).flatMap (t.rows codec))
        (lost codec t period history) (t.table db) := by
  induction history generalizing db with
  | nil =>
    obtain rfl := Option.some.inj done
    exact ⟨.empty,.empty t⟩
  | cons operation earlier ih =>
    obtain ⟨middle,first,applied⟩ := Option.bind_eq_some_iff.mp done
    obtain ⟨mirrors,aggregated⟩ := ih extends_.1 first
    cases operation with
    | commitBlock block =>
      exact ⟨mirrors.commit extends_.2 applied,
        aggregated.commit update mirrors extends_.2 applied⟩
    | handleReorg fromBlock =>
      obtain rfl := Option.some.inj applied
      exact ⟨mirrors.reorg fromBlock,aggregated.reorg mirrors engine fromBlock⟩
    | setLatestChainSeqno seqno =>
      obtain rfl := Option.some.inj applied
      refine ⟨⟨?_,fun t ignore => ?_⟩,?_⟩
      · rw [Database.setLatestChainSeqno_blocks]
        exact mirrors.rows
      · rw [setLatestChainSeqno_table]
        exact mirrors.tables t ignore
      · rw [setLatestChainSeqno_table]
        exact aggregated
    | markBlocksConfirmed upToBlock =>
      obtain rfl := Option.some.inj applied
      refine ⟨⟨?_,fun t ignore => ?_⟩,?_⟩
      · refine Eq.trans ?_ mirrors.rows
        unfold Database.markBlocksConfirmed
        simp only [List.map_map]
        refine List.map_congr_left fun row _ => ?_
        simp only [Function.comp_apply]
        split <;> rfl
      · unfold Database.markBlocksConfirmed
        rw [t.blocks]
        exact mirrors.tables t ignore
      · unfold Database.markBlocksConfirmed
        rw [t.blocks]
        exact aggregated

theorem index_aggregated (update : t.conflict = .update period) (chain : Chain blocks)
    (indexed : Database.index codec blocks .empty = some db) :
    Aggregated period (blocks.flatMap (t.rows codec)) ∅ (t.table db) := by
  refine (index_induction (P := fun blocks db => Mirrors codec blocks db ∧
    Aggregated period (blocks.flatMap (t.rows codec)) ∅ (t.table db))
    ⟨.empty,.empty t⟩ ?_ chain indexed).2
  rintro blocks block db after chain ⟨mirrors,aggregated⟩ committed
  refine ⟨mirrors.commit chain committed,?_⟩
  have stepped := aggregated.commit update mirrors chain committed
  have same : {at_ | at_ ∈ (∅ : Set (Nat × Nat)) ∧ ¬Recorded codec t period [block] at_} = ∅ := by
    ext at_
    simp
  rw [same] at stepped
  exact stepped

/-- A rollback leaves the rows of a replay, but for the periods that the blocks that go record. -/
theorem rollback_rows (update : t.conflict = .update period) (chain : Chain blocks)
    (indexed : Database.index codec blocks .empty = some db) (fromBlock : Nat)
    (replay : Database.index codec (before fromBlock blocks) .empty = some after)
    (row : Row Content) :
    row ∈ t.table (db.handleReorg engine fromBlock) ↔
      row ∈ t.table after ∧
        ¬Recorded codec t period (since fromBlock blocks) (period row.content) := by
  have rolled := (index_aggregated update chain indexed).reorg (index_mirrors chain indexed)
    engine fromBlock
  have replayed := index_aggregated update (chain.sublist List.filter_sublist) replay
  rw [Set.empty_union] at rolled
  constructor
  · intro member
    have left := ((rolled.recorded _).mp ⟨row,member,rfl⟩).2
    have same := (replayed.kept _ (Set.notMem_empty _)).trans (rolled.newest member)
    exact ⟨List.mem_of_find?_eq_some same,left⟩
  · rintro ⟨member,left⟩
    have same := (rolled.kept _ left).trans (replayed.newest member)
    exact List.mem_of_find?_eq_some same

end Runs
theorem Extends.chain (extends_ : Extends history) : Chain (canonical history) := by
  cases history with
  | nil => exact .empty
  | cons operation earlier => exact extends_.2

/-- In every run of commits and rollbacks a period that is recorded and not lost has a row from the
newest block that records it. A rollback leaves the rows of a replay of the blocks before, but for
the periods that the blocks that go record. -/
theorem aggregates_newest (codec : AddressCodec) (engine : Database.Engine) :
    (∀ history db, Extends history → performed codec engine history = some db →
      ShowsNewest codec protocolMetrics ProtocolMetrics.period (canonical history)
        (lost codec protocolMetrics ProtocolMetrics.period history) db ∧
      ShowsNewest codec lockActivity LockActivity.period (canonical history)
        (lost codec lockActivity LockActivity.period history) db) ∧
    ∀ blocks db, Chain blocks → Database.index codec blocks .empty = some db → ∀ fromBlock,
      ∃ replayed, Database.index codec (before fromBlock blocks) .empty = some replayed ∧
        (∀ row, row ∈ (db.handleReorg engine fromBlock).protocolMetrics ↔
          row ∈ replayed.protocolMetrics ∧
            ¬Recorded codec protocolMetrics ProtocolMetrics.period (since fromBlock blocks)
              row.content.period) ∧
        ∀ row, row ∈ (db.handleReorg engine fromBlock).lockActivity ↔
          row ∈ replayed.lockActivity ∧
            ¬Recorded codec lockActivity LockActivity.period (since fromBlock blocks)
              row.content.period := by
  refine ⟨fun history db extends_ done => ?_,fun blocks db chain indexed fromBlock => ?_⟩
  · have chain := extends_.chain
    exact ⟨(performed_aggregated rfl history extends_ done).2.showsNewest chain,
      (performed_aggregated rfl history extends_ done).2.showsNewest chain⟩
  · obtain ⟨replayed,replay,-⟩ := index_before chain indexed fromBlock
    exact ⟨replayed,replay,
      fun row => rollback_rows (t := protocolMetrics) rfl chain indexed fromBlock replay row,
      fun row => rollback_rows (t := lockActivity) rfl chain indexed fromBlock replay row⟩

section Records

/-- A transaction of the registry that records the metrics of a month. -/
def records (hash : JsString) : FetchedTransaction :=
  { transaction := metricsLedger.body hash
    hash }

def metricsBlock (blockNumber fork : Nat) (hashes : List JsString) : IndexedBlock :=
  metricsService.indexedBlock blockNumber
    ⟨forkHash fork blockNumber,forkHash fork (blockNumber - 1),0⟩ (hashes.map records)

/-- Block 2 records the month of block 1 again. -/
def recordedAgain : List IndexedBlock :=
  [metricsBlock 1 9 [js "b8f1"],metricsBlock 2 9 [js "b8f2"]]

theorem recordedAgain_chain : Chain recordedAgain :=
  collected_chain metricsService
    [(1,⟨forkHash 9 1,forkHash 9 0,0⟩,[records (js "b8f1")]),
      (2,⟨forkHash 9 2,forkHash 9 1,0⟩,[records (js "b8f2")])]
    (by decide) (by decide) (by decide)

/-- Block 2 of a fork takes the place of block 2, and records the month once more. -/
def forkedHistory : List Operation :=
  [.commitBlock (metricsBlock 2 2 [js "b8f2"]),.handleReorg 2,
    .commitBlock (metricsBlock 2 9 [js "b8f2"]),.commitBlock (metricsBlock 1 9 [js "b8f1"])]

theorem forkedHistory_extends : Extends forkedHistory := by
  have forked : Chain [metricsBlock 1 9 [js "b8f1"],metricsBlock 2 2 [js "b8f2"]] :=
    collected_chain metricsService
      [(1,⟨forkHash 9 1,forkHash 9 0,0⟩,[records (js "b8f1")]),
        (2,⟨forkHash 2 2,forkHash 2 1,0⟩,[records (js "b8f2")])]
      (by decide) (by decide) (by decide)
  exact ⟨⟨⟨⟨trivial,@Chain.front _ [_] recordedAgain_chain⟩,recordedAgain_chain⟩,
    recordedAgain_chain.sublist List.filter_sublist⟩,forked⟩

theorem aggregates_newest_forked :
    (∃ db, performed metricsService.codec metricsService.engine forkedHistory = some db ∧
      ShowsNewest metricsService.codec protocolMetrics ProtocolMetrics.period
        (canonical forkedHistory) (lost metricsService.codec protocolMetrics ProtocolMetrics.period
          forkedHistory) db) ∧
    ∃ db replayed, Database.index metricsService.codec recordedAgain .empty = some db ∧
      Database.index metricsService.codec (before 2 recordedAgain) .empty = some replayed ∧
      ∀ row, row ∈ (db.handleReorg metricsService.engine 2).protocolMetrics ↔
        row ∈ replayed.protocolMetrics ∧
          ¬Recorded metricsService.codec protocolMetrics ProtocolMetrics.period
            (since 2 recordedAgain) row.content.period := by
  have runs : (performed metricsService.codec metricsService.engine forkedHistory).isSome = true :=
    by decide +kernel
  have indexes : (Database.index metricsService.codec recordedAgain .empty).isSome = true := by
    decide +kernel
  obtain ⟨forked,done⟩ := Option.isSome_iff_exists.mp runs
  obtain ⟨db,indexed⟩ := Option.isSome_iff_exists.mp indexes
  obtain ⟨newest,rows⟩ := aggregates_newest metricsService.codec metricsService.engine
  obtain ⟨replayed,replay,metrics,-⟩ := rows recordedAgain db recordedAgain_chain indexed 2
  exact ⟨⟨forked,done,(newest forkedHistory forked forkedHistory_extends done).1⟩,
    db,replayed,indexed,replay,metrics⟩

/-- The row of block 1 was overwritten by block 2, and the rollback of block 2 takes it. -/
theorem rollback_loses_period :
    Chain recordedAgain ∧
    (Database.index metricsService.codec recordedAgain .empty).map (fun db =>
      (db.handleReorg metricsService.engine 2).protocolMetrics.length) = some 0 ∧
    (Database.index metricsService.codec (before 2 recordedAgain) .empty).map (fun db =>
      db.protocolMetrics.length) = some 1 := by
  refine ⟨recordedAgain_chain,?_⟩
  decide +kernel

end Records
end Tonbankcard.Indexer
