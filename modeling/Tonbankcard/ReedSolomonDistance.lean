import Mathlib.InformationTheory.Hamming
import Mathlib.LinearAlgebra.Vandermonde
import Tonbankcard.ReedSolomon

/-! The distance of Reed-Solomon codes: two words of a code differ in more places than the generator
has roots, so a word that was changed in at most half as many places comes from one of them alone. -/
namespace ReedSolomon

open Polynomial

section Places
variable {A B : Type*} [DecidableEq A] [DecidableEq B]

/-- In how many of the first `n` places two words differ. -/
def distance (n : Nat) (left right : List A) : Nat :=
  hammingDist (fun i : Fin n => left[(i : Nat)]?) fun i => right[(i : Nat)]?

theorem distance_triangle (n : Nat) (left middle right : List A) :
    distance n left right ≤ distance n left middle + distance n middle right :=
  hammingDist_triangle _ _ _

theorem distance_comm (n : Nat) (left right : List A) :
    distance n left right = distance n right left := hammingDist_comm _ _

theorem distance_map_le (n : Nat) (f : A → B) (left right : List A) :
    distance n (left.map f) (right.map f) ≤ distance n left right := by
  simp only [distance,List.getElem?_map]
  exact hammingDist_comp_le_hammingDist fun _ => Option.map f

end Places

variable {K : Type*} [CommRing K]

theorem eval_poly (word : List K) (x : K) :
    (poly word).eval x = ∑ j : Fin word.length, word[j] * x ^ (word.length - 1 - j) := by
  induction word with
  | nil => simp
  | cons c back ih =>
    rw [poly_cons,eval_add,ih]
    simp only [eval_mul,eval_C,eval_pow,eval_X,List.length_cons]
    rw [Fin.sum_univ_succ]
    congr 1
    refine Finset.sum_congr rfl fun j _ => ?_
    have shifted : back.length + 1 - 1 - (j.succ : Nat) = back.length - 1 - j := by
      rw [Fin.val_succ]
      omega
    rw [shifted]
    rfl

variable [IsDomain K]

/-- Some values at distinct points whose first power sums vanish are many, or they are all zero. -/
theorem vanishing_few [DecidableEq K] {n e : Nat} {points values : Fin n → K}
    (apart : Function.Injective points) (vanish : ∀ i < e, ∑ j, values j * points j ^ i = 0)
    (few : (Finset.univ.filter fun j => values j ≠ 0).card ≤ e) : values = 0 := by
  set support := Finset.univ.filter fun j => values j ≠ 0 with defined
  let places := support.equivFin.symm
  have zero := Matrix.eq_zero_of_forall_pow_sum_mul_pow_eq_zero
    (f := fun k => points (places k)) (v := fun k => values (places k))
    (fun k l same => places.injective (Subtype.ext (apart same))) fun i => by
      rw [places.sum_comp (fun place : support => values place * points place ^ (i : Nat)),
        Finset.sum_coe_sort support fun j => values j * points j ^ (i : Nat),
        ← vanish i (i.isLt.trans_le few)]
      refine Finset.sum_subset (Finset.subset_univ _) fun j _ outside => ?_
      have unfilled : values j = 0 := by simpa [defined] using outside
      rw [unfilled,zero_mul]
  funext j
  by_contra filled
  have member : j ∈ support := by simpa [defined] using filled
  have found := congrFun zero (places.symm ⟨j,member⟩)
  rw [Equiv.apply_symm_apply] at found
  exact filled found

variable [DecidableEq K] {α : K} {n e : Nat} {left right received : List K}

/-- Two words of the code differ in more places than the generator has roots. -/
theorem lt_distance (orders : ∀ i < n, ∀ j < n, α ^ i = α ^ j → i = j) (leftLength : left.length = n)
    (rightLength : right.length = n) (leftCode : (∏ i ∈ Finset.range e, (X - C (α ^ i))) ∣ poly left)
    (rightCode : (∏ i ∈ Finset.range e, (X - C (α ^ i))) ∣ poly right) (apart : left ≠ right) :
    e < distance n left right := by
  by_contra close
  subst leftLength
  have root {word : List K} (code : (∏ i ∈ Finset.range e, (X - C (α ^ i))) ∣ poly word) {i : Nat}
      (inside : i < e) : (poly word).eval (α ^ i) = 0 :=
    eval_eq_zero_of_dvd_of_eval_eq_zero
      ((Finset.dvd_prod_of_mem _ (Finset.mem_range.mpr inside)).trans code) (by simp)
  let values (j : Fin left.length) : K := left[j] - right[(j : Nat)]
  have vanish (i : Nat) (inside : i < e) :
      ∑ j, values j * (α ^ (left.length - 1 - j)) ^ i = 0 := by
    have difference := congrArg₂ (· - ·) (root leftCode inside) (root rightCode inside)
    rw [eval_poly,eval_poly,sub_self] at difference
    rw [← Fintype.sum_equiv (finCongr rightLength.symm)
      (fun j : Fin left.length => right[(j : Nat)] * (α ^ i) ^ (left.length - 1 - j)) _
      (fun j => by simp [rightLength]),← Finset.sum_sub_distrib] at difference
    rw [← difference]
    refine Finset.sum_congr rfl fun j _ => ?_
    rw [pow_right_comm,← sub_mul]
  have few : (Finset.univ.filter fun j => values j ≠ 0).card ≤ e := by
    have close : distance left.length left right ≤ e := not_lt.mp close
    rw [distance,hammingDist] at close
    refine (Finset.card_le_card ?_).trans close
    intro j member
    simp only [Finset.mem_filter,Finset.mem_univ,true_and] at member ⊢
    intro same
    rw [List.getElem?_eq_getElem j.isLt,
      List.getElem?_eq_getElem (by rw [rightLength]; exact j.isLt)] at same
    exact member (sub_eq_zero.mpr (Option.some.inj same))
  have zero := vanishing_few (fun j k same => by
    have powers := orders _ (by omega) _ (by omega) same
    omega) vanish few
  refine apart (List.ext_getElem rightLength.symm fun j inside _ => ?_)
  exact sub_eq_zero.mp (congrFun zero ⟨j,inside⟩)

/-- At most half as many changes as roots lead back to one word. -/
theorem word_unique (orders : ∀ i < n, ∀ j < n, α ^ i = α ^ j → i = j) (leftLength : left.length = n)
    (rightLength : right.length = n) (leftCode : (∏ i ∈ Finset.range e, (X - C (α ^ i))) ∣ poly left)
    (rightCode : (∏ i ∈ Finset.range e, (X - C (α ^ i))) ∣ poly right)
    (close : 2 * distance n left received ≤ e) (near : 2 * distance n received right ≤ e) :
    left = right := by
  by_contra apart
  have far := lt_distance orders leftLength rightLength leftCode rightCode apart
  have triangle := distance_triangle n left received right
  omega

end ReedSolomon
