import Mathlib.Algebra.CharP.Two
import Mathlib.Algebra.Polynomial.BigOperators
import Mathlib.Tactic.LinearCombination

/-! Reed-Solomon codes over rings of characteristic two: polynomials as lists of coefficients, the
highest first, the generator with consecutive powers for roots, and the long division that leaves
the check symbols. -/
namespace ReedSolomon

open Polynomial

variable {K : Type*} [CommRing K]

section Coefficients

noncomputable def poly (coefficients : List K) : K[X] :=
  coefficients.foldl (fun p c => p * X + C c) 0

@[simp] theorem poly_nil : poly ([] : List K) = 0 := rfl

theorem poly_concat (coefficients : List K) (c : K) :
    poly (coefficients ++ [c]) = poly coefficients * X + C c := by
  rw [poly,List.foldl_append,List.foldl_cons,List.foldl_nil,poly]

theorem poly_append (front back : List K) :
    poly (front ++ back) = poly front * X ^ back.length + poly back := by
  induction back using List.reverseRecOn with
  | nil => simp
  | append_singleton back c ih =>
    rw [← List.append_assoc,poly_concat,ih,poly_concat,List.length_append,List.length_singleton]
    ring

theorem poly_cons (c : K) (back : List K) :
    poly (c :: back) = C c * X ^ back.length + poly back := by
  rw [← List.singleton_append,poly_append,← List.nil_append [c],poly_concat,poly_nil,zero_mul,
    zero_add]

theorem poly_add {left right : List K} (same : left.length = right.length) :
    poly (List.zipWith (· + ·) left right) = poly left + poly right := by
  induction left generalizing right with
  | nil => rw [List.eq_nil_of_length_eq_zero same.symm]; simp
  | cons c left ih =>
    cases right with
    | nil => cases same
    | cons d right =>
      have same : left.length = right.length := Nat.succ_inj.mp same
      rw [List.zipWith_cons_cons,poly_cons,poly_cons,poly_cons,ih same,List.length_zipWith,same,
        Nat.min_self,C_add]
      ring

theorem poly_scale (coefficients : List K) (factor : K) :
    poly (coefficients.map (· * factor)) = poly coefficients * C factor := by
  induction coefficients with
  | nil => simp
  | cons c back ih =>
    rw [List.map_cons,poly_cons,poly_cons,ih,List.length_map,C_mul]
    ring

theorem poly_zeros (n : Nat) : poly (List.replicate n (0 : K)) = 0 := by
  induction n with
  | zero => rfl
  | succ n ih => rw [List.replicate_succ,poly_cons,ih,C_0,zero_mul,add_zero]

end Coefficients

section Generator
variable (α : K)

/-- One more factor of the generator. -/
def times (g : List K) (root : K) : List K :=
  List.zipWith (· + ·) (g ++ [0]) (0 :: g.map (· * root))

def generator (n : Nat) : List K := (List.range n).foldl (fun g i => times g (α ^ i)) [1]

theorem generator_succ (n : Nat) : generator α (n + 1) = times (generator α n) (α ^ n) := by
  rw [generator,List.range_succ,List.foldl_append,List.foldl_cons,List.foldl_nil,generator]

/-- The generator is monic of its degree. -/
theorem generator_monic (n : Nat) : ∃ lower, generator α n = 1 :: lower ∧ lower.length = n := by
  induction n with
  | zero => exact ⟨[],rfl,rfl⟩
  | succ n ih =>
    obtain ⟨lower,same,degree⟩ := ih
    rw [generator_succ,same,times,List.cons_append,List.zipWith_cons_cons,add_zero]
    refine ⟨_,rfl,?_⟩
    simp [degree]

theorem poly_times [CharP K 2] (g : List K) (root : K) :
    poly (times g root) = poly g * (X - C root) := by
  have same : (g ++ [0]).length = ((0 : K) :: g.map (· * root)).length := by simp
  rw [times,poly_add same,poly_concat,poly_cons,poly_scale,CharTwo.sub_eq_add,C_0]
  ring

theorem poly_generator [CharP K 2] (n : Nat) :
    poly (generator α n) = ∏ i ∈ Finset.range n, (X - C (α ^ i)) := by
  induction n with
  | zero => simp [generator,poly]
  | succ n ih => rw [generator_succ,poly_times,ih,Finset.prod_range_succ]

end Generator

section Division

/-- One step of the division by a monic polynomial of the given lower coefficients. -/
def divideStep (lower out : List K) (symbol : K) : List K :=
  List.zipWith (fun value c => value + c * (symbol + out.headD 0)) (out.tail ++ [0]) lower

/-- The check symbols of some data. -/
def remainder (lower data : List K) : List K :=
  data.foldl (divideStep lower) (List.replicate lower.length 0)

theorem divideStep_length {lower out : List K} (positive : lower ≠ [])
    (same : out.length = lower.length) (symbol : K) :
    (divideStep lower out symbol).length = lower.length := by
  have filled : 0 < lower.length := List.length_pos_iff.mpr positive
  simp only [divideStep,List.length_zipWith,List.length_append,List.length_tail,
    List.length_singleton]
  omega

theorem remainder_concat (lower data : List K) (symbol : K) :
    remainder lower (data ++ [symbol]) = divideStep lower (remainder lower data) symbol := by
  rw [remainder,List.foldl_append,List.foldl_cons,List.foldl_nil,remainder]

theorem remainder_length {lower : List K} (positive : lower ≠ []) (data : List K) :
    (remainder lower data).length = lower.length := by
  induction data using List.reverseRecOn with
  | nil => exact List.length_replicate
  | append_singleton data symbol ih =>
    rw [remainder_concat,divideStep_length positive ih]

/-- A step multiplies by the variable, takes in a symbol and subtracts a multiple of the divisor. -/
theorem poly_divideStep [CharP K 2] {lower out : List K} (positive : lower ≠ [])
    (same : out.length = lower.length) (symbol : K) :
    poly (divideStep lower out symbol) =
      poly out * X + C symbol * X ^ lower.length +
        poly (1 :: lower) * C (symbol + out.headD 0) := by
  cases out with
  | nil => exact absurd (List.eq_nil_of_length_eq_zero same.symm) positive
  | cons top out =>
    have degree : (out ++ [0]).length = lower.length := by simpa using same
    have scaled : divideStep lower (top :: out) symbol =
        List.zipWith (· + ·) (out ++ [0]) (lower.map (· * (symbol + top))) := by
      rw [divideStep,List.zipWith_map_right]
      rfl
    have doubled (p : K[X]) : p + p = 0 := CharTwo.add_self_eq_zero p
    have shifted : out.length + 1 = lower.length := by simpa using degree
    rw [scaled,poly_add (by simpa using degree),poly_scale,poly_concat,C_0,poly_cons,poly_cons,
      ← shifted,List.headD_cons,C_1,C_add]
    linear_combination -(doubled (C symbol * X ^ (out.length + 1))) -
      doubled (C top * X ^ (out.length + 1))

/-- Data followed by its check symbols is a multiple of the divisor. -/
theorem dvd_codeword [CharP K 2] {lower : List K} (positive : lower ≠ []) (data : List K) :
    poly (1 :: lower) ∣ poly (data ++ remainder lower data) := by
  rw [poly_append,remainder_length positive]
  induction data using List.reverseRecOn with
  | nil => simp [remainder,poly_zeros]
  | append_singleton data symbol ih =>
    obtain ⟨quotient,whole⟩ := ih
    rw [remainder_concat,poly_divideStep positive (remainder_length positive data),poly_concat]
    refine ⟨quotient * X + C (symbol + (remainder lower data).headD 0),?_⟩
    have doubled : C symbol * X ^ lower.length + C symbol * X ^ lower.length = (0 : K[X]) :=
      CharTwo.add_self_eq_zero _
    linear_combination whole * X + doubled

end Division

end ReedSolomon
