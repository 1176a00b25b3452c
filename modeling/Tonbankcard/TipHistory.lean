import Mathlib.Data.List.Nodup
import Mathlib.Data.List.Range
import Mathlib.Logic.Relation

/-! Blocks that grow from parents, and checkpoints that each name the tips of what has grown so
far. A checkpoint confirms the ancestors of its tips. Reading only the tips of each checkpoint
meets every newly confirmed block once exactly where no tip has moved by more than one block and
no new tip stays one. -/

/-- The tips of a checkpoint are apart, and each descends to a tip of the next checkpoint. -/
structure TipHistory (Block : Type) where
  parents : Block → List Block
  tips : Nat → List Block
  height : Block → Nat
  height_lt : ∀ block, ∀ parent ∈ parents block, height parent < height block
  tips_nodup : ∀ checkpoint, (tips checkpoint).Nodup
  tips_apart : ∀ checkpoint, ∀ tip ∈ tips checkpoint, ∀ other ∈ tips checkpoint,
    Relation.ReflTransGen (fun parent block => parent ∈ parents block) tip other → tip = other
  tips_kept : ∀ checkpoint, ∀ tip ∈ tips checkpoint, ∃ later ∈ tips (checkpoint + 1),
    Relation.ReflTransGen (fun parent block => parent ∈ parents block) tip later

namespace TipHistory
variable {Block : Type} (history : TipHistory Block)

/-- A block or one that it grew from, at any distance. -/
def Ancestor : Block → Block → Prop :=
  Relation.ReflTransGen fun parent block => parent ∈ history.parents block

def Confirms (checkpoint : Nat) (block : Block) : Prop :=
  ∃ tip ∈ history.tips checkpoint, history.Ancestor block tip

/-- The first checkpoint that confirms a block. -/
def New (checkpoint : Nat) (block : Block) : Prop :=
  history.Confirms checkpoint block ∧ ∀ earlier < checkpoint, ¬history.Confirms earlier block

/-- Every parent of a tip was confirmed before. -/
def Single (checkpoint : Nat) : Prop :=
  ∀ tip ∈ history.tips checkpoint, ∀ parent ∈ history.parents tip,
    ∃ earlier < checkpoint, history.Confirms earlier parent

/-- No tip that is new is a tip of the next checkpoint too. -/
def Moves (checkpoint : Nat) : Prop :=
  ∀ tip ∈ history.tips checkpoint, history.New checkpoint tip →
    tip ∉ history.tips (checkpoint + 1)

variable {history}

theorem height_le (ancestor : history.Ancestor block later) :
    history.height block ≤ history.height later := by
  induction ancestor with
  | refl => exact le_rfl
  | tail earlier parent ih => exact ih.trans (history.height_lt _ _ parent).le

theorem ancestor_antisymm (ancestor : history.Ancestor block later)
    (back : history.Ancestor later block) : block = later := by
  rcases Relation.ReflTransGen.cases_tail ancestor with same | ⟨parent,earlier,inside⟩
  · exact same.symm
  · have strict := history.height_lt later parent inside
    have low := height_le earlier
    have high := height_le back
    omega

theorem Confirms.mono (confirmed : history.Confirms checkpoint block)
    (after : checkpoint ≤ later) : history.Confirms later block := by
  induction later, after using Nat.le_induction with
  | base => exact confirmed
  | succ later after ih =>
    obtain ⟨tip,member,ancestor⟩ := ih
    obtain ⟨next,inside,grown⟩ := history.tips_kept later tip member
    exact ⟨next,inside,ancestor.trans grown⟩

/-- A tip of two checkpoints is one of those between them. -/
theorem tip_between (first : block ∈ history.tips checkpoint)
    (last : block ∈ history.tips later) (after : checkpoint ≤ middle) (before : middle ≤ later) :
    block ∈ history.tips middle := by
  obtain ⟨tip,member,ancestor⟩ := Confirms.mono ⟨block,first,.refl⟩ after
  obtain ⟨other,inside,grown⟩ := Confirms.mono ⟨tip,member,.refl⟩ before
  obtain rfl := history.tips_apart later block last other inside (ancestor.trans grown)
  rw [ancestor_antisymm ancestor grown]
  exact member

/-- Under single moves what is new is a tip. -/
theorem New.tip (new : history.New checkpoint block) (single : history.Single checkpoint) :
    block ∈ history.tips checkpoint := by
  obtain ⟨⟨tip,member,ancestor⟩,first⟩ := new
  rcases Relation.ReflTransGen.cases_tail ancestor with rfl | ⟨parent,earlier,inside⟩
  · exact member
  · obtain ⟨before,low,confirmed⟩ := single tip member parent inside
    obtain ⟨other,there,grown⟩ := confirmed
    exact absurd ⟨other,there,Relation.ReflTransGen.trans earlier grown⟩ (first before low)

/-- Where what is new is a tip, tips move by single blocks. -/
theorem single_of_new_tip
    (tips : ∀ block, history.New checkpoint block → block ∈ history.tips checkpoint) :
    history.Single checkpoint := by
  intro tip member parent inside
  by_contra none
  have new : history.New checkpoint parent :=
    ⟨⟨tip,member,.single inside⟩,fun earlier low confirmed => none ⟨earlier,low,confirmed⟩⟩
  have same := history.tips_apart checkpoint parent (tips parent new) tip member (.single inside)
  have strict := history.height_lt tip parent inside
  rw [same] at strict
  exact Nat.lt_irrefl _ strict

variable [DecidableEq Block]

/-- Reading the tips of some checkpoints in a row meets each block that is new among them once, at
the checkpoint that is the first to confirm it. -/
def MetOnce (history : TipHistory Block) (first count : Nat) : Prop :=
  ∀ checkpoint ∈ List.range' first count, ∀ block, history.New checkpoint block →
    ((List.range' first count).flatMap history.tips).count block = 1 ∧
      block ∈ history.tips checkpoint

theorem count_tips {checkpoints : List Nat}
    (absent : ∀ checkpoint ∈ checkpoints, block ∉ history.tips checkpoint) :
    (checkpoints.flatMap history.tips).count block = 0 := by
  refine List.count_eq_zero.mpr fun member => ?_
  obtain ⟨checkpoint,inside,tip⟩ := List.mem_flatMap.mp member
  exact absent checkpoint inside tip

theorem metOnce_iff (history : TipHistory Block) (first count : Nat) :
    history.MetOnce first count ↔
      (∀ checkpoint ∈ List.range' first count, history.Single checkpoint) ∧
      ∀ checkpoint ∈ List.range' first count, checkpoint + 1 ∈ List.range' first count →
        history.Moves checkpoint := by
  have nodup : (List.range' first count).Nodup := List.nodup_range'
  constructor
  · intro met
    refine ⟨fun checkpoint inside => single_of_new_tip fun block new =>
      (met checkpoint inside block new).2,fun checkpoint inside next tip member new again => ?_⟩
    -- a new tip that stays is met at both checkpoints
    have once := (met checkpoint inside tip new).1
    obtain ⟨front,back,split⟩ := List.append_of_mem inside
    have later : checkpoint + 1 ∈ back := by
      have ascending : (List.range' first count).Pairwise (· < ·) := List.pairwise_lt_range' _
      rw [split] at next ascending
      rcases List.mem_append.mp next with early | late
      · have order := (List.pairwise_append.mp ascending).2.2 _ early _ List.mem_cons_self
        omega
      · exact (List.mem_cons.mp late).resolve_left (by omega)
    have here : 0 < (history.tips checkpoint).count tip := List.count_pos_iff.mpr member
    have there : 0 < (back.flatMap history.tips).count tip :=
      List.count_pos_iff.mpr (List.mem_flatMap.mpr ⟨_,later,again⟩)
    rw [split,List.flatMap_append,List.flatMap_cons,List.count_append,List.count_append] at once
    omega
  · rintro ⟨single,moves⟩ checkpoint inside block new
    have tip := new.tip (single checkpoint inside)
    refine ⟨?_,tip⟩
    have elsewhere (other : Nat) (there : other ∈ List.range' first count)
        (apart : other ≠ checkpoint) : block ∉ history.tips other := by
      intro again
      rcases Nat.lt_or_gt_of_ne apart with before | after
      · exact new.2 other before ⟨block,again,.refl⟩
      · have next := tip_between tip again (Nat.le_succ checkpoint) after
        refine moves checkpoint inside ?_ block tip new next
        rw [List.mem_range'_1] at inside there ⊢
        omega
    obtain ⟨front,back,split⟩ := List.append_of_mem inside
    rw [split] at nodup
    obtain ⟨-,tail,disjoint⟩ := List.nodup_append.mp nodup
    have front0 := count_tips
      fun other member => elsewhere other (split ▸ List.mem_append_left _ member) fun same =>
        disjoint other member checkpoint List.mem_cons_self same
    have back0 := count_tips
      fun other member => elsewhere other
        (split ▸ List.mem_append_right _ (List.mem_cons_of_mem _ member)) fun same =>
          (List.nodup_cons.mp tail).1 (same ▸ member)
    have one := List.count_eq_one_of_mem (history.tips_nodup checkpoint) tip
    rw [split,List.flatMap_append,List.flatMap_cons,List.count_append,List.count_append,front0,
      back0,one]

end TipHistory
