import Mathlib.Data.List.Sort

/-! Pagination of a listing that is sorted by a key: every page begins behind the key of the last
row before it. Where keys are distinct the pages make up the listing. -/
namespace Keyset

variable {Item Key : Type} [LinearOrder Key] (rank : Item → Key)

/-- `ORDER BY` a key. -/
def orderBy (items : List Item) : List Item := items.insertionSort fun a b => rank a ≤ rank b

/-- Whether a row lies behind a position; none is before all rows. -/
def isBehind (position : Option Key) (item : Item) : Bool :=
  position.all fun key => key < rank item

theorem orderBy_perm (items : List Item) : (orderBy rank items).Perm items :=
  List.perm_insertionSort _ items

theorem orderBy_sorted (items : List Item) :
    (orderBy rank items).Pairwise fun a b => rank a ≤ rank b := by
  have total : Std.Total fun a b : Item => rank a ≤ rank b := ⟨fun a b => le_total _ _⟩
  have trans : IsTrans Item fun a b => rank a ≤ rank b := ⟨fun _ _ _ => le_trans⟩
  exact List.pairwise_insertionSort _ items

variable {rank} {items : List Item} (distinct : (items.map rank).Nodup)
include distinct

theorem orderBy_strict : (orderBy rank items).Pairwise fun a b => rank a < rank b := by
  have apart : ((orderBy rank items).map rank).Nodup :=
    ((orderBy_perm rank items).map rank).nodup_iff.mpr distinct
  exact (orderBy_sorted rank items).imp₂ (fun _ _ le ne => lt_of_le_of_ne le ne)
    (List.pairwise_map.mp apart)

/-- No sorted arrangement of the rows differs from this one. -/
theorem orderBy_unique {listing : List Item} (same : listing.Perm items)
    (sorted : listing.Pairwise fun a b => rank a ≤ rank b) : listing = orderBy rank items := by
  have apart : ∀ a ∈ items, ∀ b ∈ items, rank a = rank b → a = b :=
    fun a ha b hb => List.inj_on_of_nodup_map distinct ha hb
  refine (same.trans (orderBy_perm rank items).symm).eq_of_pairwise
    (fun a b ha hb below above => ?_) sorted (orderBy_sorted rank items)
  exact apart a (same.subset ha) b ((orderBy_perm rank items).subset hb) (le_antisymm below above)

theorem orderBy_filter (p : Item → Bool) :
    orderBy rank (items.filter p) = (orderBy rank items).filter p := by
  have fewer : ((items.filter p).map rank).Nodup :=
    distinct.sublist (List.filter_sublist.map rank)
  exact (orderBy_unique fewer ((orderBy_perm rank items).filter p)
    ((orderBy_sorted rank items).filter p)).symm

omit distinct in
/-- The rows behind the last row of a page are those that the page left. -/
theorem filter_isBehind_last {page rest : List Item} {last : Item}
    (sorted : (page ++ rest).Pairwise fun a b => rank a < rank b)
    (ends : page.getLast? = some last) :
    (page ++ rest).filter (isBehind rank (some (rank last))) = rest := by
  obtain ⟨front,rfl⟩ := List.getLast?_eq_some_iff.mp ends
  obtain ⟨inside,-,across⟩ := List.pairwise_append.mp sorted
  have before : ∀ item ∈ front ++ [last], isBehind rank (some (rank last)) item = false := by
    intro item member
    rcases List.mem_append.mp member with early | here
    · have below := (List.pairwise_append.mp inside).2.2 item early last (by simp)
      simpa [isBehind] using below.le
    · simp [isBehind,List.mem_singleton.mp here]
  have after : ∀ item ∈ rest, isBehind rank (some (rank last)) item = true := by
    intro item member
    simpa [isBehind] using across last (by simp) item member
  rw [List.filter_append,List.filter_eq_nil_iff.mpr (by simpa using before),
    List.filter_eq_self.mpr after,List.nil_append]

/-- Behind the last row of a page that begins behind a position stand the rows that the page
left of those behind the position. -/
theorem behind_page {position : Option Key} {limit : Nat} {last : Item}
    (ends : ((orderBy rank (items.filter (isBehind rank position))).take limit).getLast? =
      some last) :
    orderBy rank (items.filter (isBehind rank (some (rank last)))) =
      (orderBy rank (items.filter (isBehind rank position))).drop limit := by
  rw [orderBy_filter distinct,orderBy_filter distinct] at *
  have sorted := (orderBy_strict distinct).filter (isBehind rank position)
  have member := List.mem_of_mem_take (List.mem_of_getLast? ends)
  have here : isBehind rank position last = true := (List.mem_filter.mp member).2
  -- what lies behind the last row lies behind the position
  have narrower : ∀ item, isBehind rank (some (rank last)) item = true →
      isBehind rank position item = true := by
    intro item after
    cases position with
    | none => rfl
    | some key =>
      simp only [isBehind,Option.all_some,decide_eq_true_eq] at here after ⊢
      exact here.trans after
  have split := List.take_append_drop limit
    ((orderBy rank items).filter (isBehind rank position))
  have rest := filter_isBehind_last (by rw [split]; exact sorted) ends
  rw [split,List.filter_filter] at rest
  rw [← rest]
  refine List.filter_congr fun item _ => ?_
  cases after : isBehind rank (some (rank last)) item with
  | false => simp
  | true => simp [narrower item after]

end Keyset
