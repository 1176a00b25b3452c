import Mathlib.Algebra.CharP.Algebra
import Mathlib.Algebra.Field.ZMod
import Mathlib.RingTheory.AdjoinRoot
import Mathlib.Tactic.ComputeDegree
import Tonbankcard.QrCode
import Tonbankcard.ReedSolomon

/-! The field of 256 elements behind the error correction of the QR code: a byte stands for the
polynomial of its bits modulo 0x11d, and the tables of powers and logarithms multiply in it. -/
namespace Tonbankcard.QrCode

open Polynomial ReedSolomon

section Field

/-- The polynomial whose coefficients are the bits of 0x11d. -/
noncomputable def modulus : (ZMod 2)[X] := X ^ 8 + X ^ 4 + X ^ 3 + X ^ 2 + 1

abbrev GF256 : Type := AdjoinRoot modulus

noncomputable def alpha : GF256 := AdjoinRoot.root modulus

theorem modulus_natDegree : modulus.natDegree = 8 := by
  unfold modulus
  compute_degree!

instance : Nontrivial GF256 :=
  AdjoinRoot.nontrivial modulus (degree_ne_of_natDegree_ne (by rw [modulus_natDegree]; decide))

instance : CharP GF256 2 :=
  charP_of_injective_algebraMap (algebraMap (ZMod 2) GF256).injective 2

theorem alpha_root : alpha ^ 8 + alpha ^ 4 + alpha ^ 3 + alpha ^ 2 + 1 = 0 := by
  calc alpha ^ 8 + alpha ^ 4 + alpha ^ 3 + alpha ^ 2 + 1
      = AdjoinRoot.mk modulus (X ^ 8 + X ^ 4 + X ^ 3 + X ^ 2 + 1) := by simp [alpha]
    _ = 0 := AdjoinRoot.mk_self

/-- The element that the bits of a byte stand for. -/
noncomputable def element (x : Nat) : GF256 :=
  ∑ i ∈ Finset.range 8, if x.testBit i then alpha ^ i else 0

@[simp] theorem element_zero : element 0 = 0 := by simp [element]

@[simp] theorem element_one : element 1 = 1 := by
  simp [element,Nat.testBit_one_eq_true_iff_self_eq_zero]

theorem element_xor (a b : Nat) : element (a ^^^ b) = element a + element b := by
  rw [element,element,element,← Finset.sum_add_distrib]
  refine Finset.sum_congr rfl fun i _ => ?_
  rw [Nat.testBit_xor]
  cases a.testBit i <;> cases b.testBit i <;> simp [CharTwo.add_self_eq_zero]

set_option maxRecDepth 4000 in
theorem gfDouble_lt : ∀ x < 256, gfDouble x < 256 := by decide

/-- The digit that a doubling shifts out stands for the eighth power. -/
theorem element_shift (x : Nat) :
    element x * alpha = element (2 * x) + if x.testBit 7 then alpha ^ 8 else 0 := by
  have bit (i : Nat) : (2 * x).testBit (i + 1) = x.testBit i := by
    rw [Nat.testBit_add_one]
    congr 1
    omega
  have low : (2 * x).testBit 0 = false := by simp
  have shifted : element (2 * x) =
      ∑ i ∈ Finset.range 7, if x.testBit i then alpha ^ (i + 1) else 0 := by
    rw [element,Finset.sum_range_succ',low]
    simp [bit]
  rw [shifted,element,Finset.sum_mul,Finset.sum_range_succ]
  simp only [ite_mul,zero_mul,pow_succ]

theorem element_modulus : element 0x11d = alpha ^ 8 := by
  have low : element 0x11d = 1 + alpha ^ 2 + alpha ^ 3 + alpha ^ 4 := by
    simp +decide [element,Finset.sum_range_succ]
  have doubled : alpha ^ 8 + alpha ^ 8 = 0 := CharTwo.add_self_eq_zero _
  linear_combination low + alpha_root - doubled

/-- Doubling multiplies by the root. -/
theorem element_gfDouble {x : Nat} (byte : x < 256) : element (gfDouble x) = element x * alpha := by
  rw [element_shift,gfDouble,Nat.testBit_eq_decide_div_mod_eq]
  by_cases large : 256 ≤ 2 * x
  · have top : x / 2 ^ 7 % 2 = 1 := by omega
    rw [if_pos large,element_xor,element_modulus,top]
    simp
  · have top : x / 2 ^ 7 % 2 = 0 := by omega
    rw [if_neg large,top]
    simp

theorem iterate_gfDouble (n : Nat) :
    gfDouble^[n] 1 < 256 ∧ element (gfDouble^[n] 1) = alpha ^ n := by
  induction n with
  | zero => exact ⟨by decide,by simp⟩
  | succ n ih =>
    obtain ⟨byte,power⟩ := ih
    rw [Function.iterate_succ_apply']
    exact ⟨gfDouble_lt _ byte,by rw [element_gfDouble byte,power,pow_succ]⟩

set_option maxRecDepth 8000 in
/-- The powers repeat after 255. -/
theorem alpha_order : alpha ^ 255 = 1 := by
  have around : gfDouble^[255] 1 = 1 := by decide
  rw [← (iterate_gfDouble 255).2,around,element_one]

theorem gfExp_iterate (i : Nat) : gfExp i = gfDouble^[i % 255] 1 := by
  have small : i % 255 < (List.iterate gfDouble 1 255).length := by
    rw [List.length_iterate]
    exact Nat.mod_lt _ (by decide)
  rw [gfExp,gfPowers,List.getD_eq_getElem?_getD,List.getElem?_eq_getElem small,Option.getD_some,
    List.getElem_iterate]

theorem gfExp_lt (i : Nat) : gfExp i < 256 := by
  rw [gfExp_iterate]
  exact (iterate_gfDouble _).1

theorem element_gfExp (i : Nat) : element (gfExp i) = alpha ^ i := by
  rw [gfExp_iterate,(iterate_gfDouble _).2]
  conv_rhs => rw [← Nat.div_add_mod i 255,pow_add,pow_mul,alpha_order,one_pow,one_mul]

/-- Some numbers as the set bits of one. -/
def bitmap (numbers : List Nat) : Nat := numbers.foldr (fun x rest => 2 ^ x ||| rest) 0

theorem testBit_bitmap (numbers : List Nat) (x : Nat) : (bitmap numbers).testBit x = true ↔ x ∈ numbers := by
  induction numbers with
  | nil => simp [bitmap]
  | cons first rest ih =>
    rw [bitmap,List.foldr_cons,Nat.testBit_or,Bool.or_eq_true,Nat.testBit_two_pow,decide_eq_true_eq,
      List.mem_cons,eq_comm,← ih,bitmap]

set_option maxRecDepth 8000 in
/-- The table of powers holds every byte but zero. -/
theorem gfPowers_complete : bitmap gfPowers = 2 ^ 256 - 2 := by decide

set_option maxRecDepth 4000 in
theorem gfExp_gfLog {x : Nat} (byte : x < 256) (filled : x ≠ 0) : gfExp (gfLog x) = x := by
  have member : x ∈ gfPowers := by
    rw [← testBit_bitmap,gfPowers_complete]
    revert x
    decide
  have found := List.idxOf_lt_length_iff.mpr member
  have length : gfPowers.length = 255 := List.length_iterate _ _ _
  rw [gfExp,gfLog,Nat.mod_eq_of_lt (by omega),List.getD_eq_getElem?_getD,
    List.getElem?_eq_getElem found,Option.getD_some,List.getElem_idxOf]

theorem element_gfMul {a b : Nat} (byteA : a < 256) (byteB : b < 256) :
    element (gfMul a b) = element a * element b := by
  by_cases zeroA : a = 0
  · simp [gfMul,zeroA]
  by_cases zeroB : b = 0
  · simp [gfMul,zeroB]
  have logA := element_gfExp (gfLog a)
  have logB := element_gfExp (gfLog b)
  rw [gfExp_gfLog byteA zeroA] at logA
  rw [gfExp_gfLog byteB zeroB] at logB
  rw [gfMul,if_neg (not_or.mpr ⟨zeroA,zeroB⟩),element_gfExp,pow_add,logA,logB]

theorem gfMul_lt (a b : Nat) : gfMul a b < 256 := by
  rw [gfMul]
  split
  · decide
  · exact gfExp_lt _

/-- Every element stands for a byte. -/
theorem element_surjective (y : GF256) : ∃ x < 256, element x = y := by
  have scaled (a : ZMod 2) (n : Nat) :
      ∃ x < 256, element x = AdjoinRoot.mk modulus (monomial n a) := by
    have cases_ : a = 0 ∨ a = 1 := by revert a; decide
    rcases cases_ with rfl | rfl
    · exact ⟨0,by decide,by simp⟩
    · refine ⟨gfExp n,gfExp_lt n,?_⟩
      rw [element_gfExp,monomial_one_right_eq_X_pow,map_pow,AdjoinRoot.mk_X,alpha]
  induction y using AdjoinRoot.induction_on with
  | ih p =>
    induction p using Polynomial.induction_on' with
    | monomial n a => exact scaled a n
    | add p q first second =>
      obtain ⟨a,byteA,same⟩ := first
      obtain ⟨b,byteB,other⟩ := second
      exact ⟨a ^^^ b,Nat.xor_lt_two_pow (n := 8) byteA byteB,
        by rw [element_xor,same,other,map_add]⟩

/-- The residues modulo 0x11d are a field. -/
theorem gf256_isField : IsField GF256 where
  exists_pair_ne := exists_pair_ne GF256
  mul_comm := mul_comm
  mul_inv_cancel := by
    intro y nonzero
    obtain ⟨x,byte,rfl⟩ := element_surjective y
    have filled : x ≠ 0 := by
      rintro rfl
      exact nonzero element_zero
    have power := element_gfExp (gfLog x)
    rw [gfExp_gfLog byte filled] at power
    refine ⟨alpha ^ (254 * gfLog x),?_⟩
    have whole : gfLog x + 254 * gfLog x = 255 * gfLog x := by omega
    rw [power,← pow_add,whole,pow_mul,alpha_order,one_pow]

end Field

section Encoding

/-- Codewords are bytes. -/
def Bytes (codewords : List Nat) : Prop := ∀ codeword ∈ codewords, codeword < 256

theorem bytes_zipWith {f : Nat → Nat → Nat} {left right : List Nat}
    (kept : ∀ a ∈ left, ∀ b ∈ right, f a b < 256) : Bytes (List.zipWith f left right) := by
  intro codeword member
  obtain ⟨pair,inside,rfl⟩ : ∃ pair ∈ left.zip right, f pair.1 pair.2 = codeword := by
    rw [← List.map_uncurry_zip_eq_zipWith] at member
    obtain ⟨pair,inside,same⟩ := List.mem_map.mp member
    exact ⟨pair,inside,same⟩
  obtain ⟨first,second⟩ := List.of_mem_zip inside
  exact kept _ first _ second

theorem map_element_xor (left right : List Nat) :
    (List.zipWith (· ^^^ ·) left right).map element =
      List.zipWith (· + ·) (left.map element) (right.map element) := by
  rw [List.map_zipWith,List.zipWith_map]
  simp only [element_xor]

theorem rsGenerator_succ (degree : Nat) :
    rsGenerator (degree + 1) = List.zipWith (· ^^^ ·) (rsGenerator degree ++ [0])
      (0 :: (rsGenerator degree).map fun coefficient => gfMul coefficient (gfExp degree)) := by
  rw [rsGenerator,List.range_succ,List.foldl_append,List.foldl_cons,List.foldl_nil,rsGenerator]

theorem bytes_rsGenerator (degree : Nat) : Bytes (rsGenerator degree) := by
  induction degree with
  | zero => simp [rsGenerator,Bytes]
  | succ degree ih =>
    rw [rsGenerator_succ]
    refine bytes_zipWith fun a left b right => Nat.xor_lt_two_pow (n := 8) ?_ ?_
    · rcases List.mem_append.mp left with inside | last
      · exact ih a inside
      · rw [List.mem_singleton.mp last]
        decide
    · rcases List.mem_cons.mp right with rfl | inside
      · decide
      · obtain ⟨coefficient,-,rfl⟩ := List.mem_map.mp inside
        exact gfMul_lt _ _

/-- The generator of the encoder is that of the code. -/
theorem map_element_rsGenerator (degree : Nat) :
    (rsGenerator degree).map element = generator alpha degree := by
  induction degree with
  | zero => simp [rsGenerator,generator]
  | succ degree ih =>
    have scaled : ((rsGenerator degree).map fun coefficient => gfMul coefficient (gfExp degree)).map
        element = (generator alpha degree).map (· * alpha ^ degree) := by
      rw [← ih,List.map_map,List.map_map]
      refine List.map_congr_left fun coefficient member => ?_
      rw [Function.comp_apply,Function.comp_apply,
        element_gfMul (bytes_rsGenerator degree _ member) (gfExp_lt _),element_gfExp]
    rw [rsGenerator_succ,map_element_xor,generator_succ,times,List.map_append,ih,List.map_singleton,
      List.map_cons,scaled,element_zero]

/-- The lower coefficients of the generator. -/
theorem generator_lower (degree : Nat) :
    generator alpha degree = 1 :: (rsGenerator degree).tail.map element ∧
      (rsGenerator degree).tail.length = degree := by
  obtain ⟨lower,monic,length⟩ := generator_monic alpha degree
  have same := map_element_rsGenerator degree
  rw [monic] at same ⊢
  cases generator : rsGenerator degree with
  | nil =>
    rw [generator] at same
    cases same
  | cons top rest =>
    rw [generator,List.map_cons] at same
    obtain ⟨-,rfl⟩ := List.cons.inj same
    exact ⟨rfl,by rw [← length,List.length_map]; rfl⟩

/-- One turn of the division loop. -/
def encodeStep (ecLen : Nat) (out : List Nat) (byte : Nat) : List Nat :=
  let factor := byte ^^^ out.headD 0
  let shifted := out.tail ++ [0]
  if factor = 0 then shifted
  else List.zipWith (fun value coefficient => value ^^^ gfMul coefficient factor) shifted
    (rsGenerator ecLen).tail

theorem rsEncode_concat (data : List Nat) (byte ecLen : Nat) :
    rsEncode (data ++ [byte]) ecLen = encodeStep ecLen (rsEncode data ecLen) byte := by
  rw [rsEncode,List.foldl_append,List.foldl_cons,List.foldl_nil,rsEncode]
  rfl

theorem bytes_encodeStep {out : List Nat} (bytes : Bytes out) (ecLen byte : Nat) :
    Bytes (encodeStep ecLen out byte) := by
  have shifted : Bytes (out.tail ++ [0]) := by
    intro codeword member
    rcases List.mem_append.mp member with inside | last
    · exact bytes codeword (List.mem_of_mem_tail inside)
    · rw [List.mem_singleton.mp last]
      decide
  simp only [encodeStep]
  split
  · exact shifted
  · exact bytes_zipWith fun value inside _ _ =>
      Nat.xor_lt_two_pow (n := 8) (shifted value inside) (gfMul_lt _ _)

/-- A turn of the loop is a step of the division; the test for zero only saves work. -/
theorem map_element_encodeStep {ecLen byte : Nat} {out : List Nat} (positive : 0 < ecLen)
    (small : byte < 256) (bytes : Bytes out) (length : out.length = ecLen) :
    (encodeStep ecLen out byte).map element =
      divideStep ((rsGenerator ecLen).tail.map element) (out.map element) (element byte) := by
  have head : element (out.headD 0) = (out.map element).headD 0 := by cases out <;> simp
  have top : out.headD 0 < 256 := by
    cases out with
    | nil => decide
    | cons first rest => exact bytes first List.mem_cons_self
  have tail : (out.map element).tail ++ [0] = (out.tail ++ [0]).map element := by
    rw [List.map_append,List.map_tail,List.map_singleton,element_zero]
  have factor : byte ^^^ out.headD 0 < 256 := Nat.xor_lt_two_pow (n := 8) small top
  have degree := (generator_lower ecLen).2
  have width : (out.tail ++ [0]).length = (rsGenerator ecLen).tail.length := by
    simp only [List.length_append,List.length_tail,List.length_singleton] at degree ⊢
    omega
  rw [divideStep,← head,← element_xor,tail,List.zipWith_map]
  simp only [encodeStep]
  split
  · rename_i zero
    rw [zero,element_zero]
    refine List.ext_getElem (by simp only [List.length_map,List.length_zipWith,width,Nat.min_self])
      fun i _ _ => ?_
    rw [List.getElem_map,List.getElem_zipWith,mul_zero,add_zero]
  · refine List.ext_getElem (by simp only [List.length_map,List.length_zipWith]) fun i _ inside => ?_
    have within : i < (rsGenerator ecLen).tail.length := by
      simp only [List.length_zipWith] at inside
      omega
    have coefficient : (rsGenerator ecLen).tail[i] < 256 :=
      bytes_rsGenerator ecLen _ (List.mem_of_mem_tail (List.getElem_mem within))
    rw [List.getElem_map,List.getElem_zipWith,List.getElem_zipWith,element_xor,
      element_gfMul coefficient factor]

/-- What the encoder keeps while it divides. -/
theorem rsEncode_division {data : List Nat} {ecLen : Nat} (positive : 0 < ecLen)
    (bytes : Bytes data) :
    Bytes (rsEncode data ecLen) ∧ (rsEncode data ecLen).length = ecLen ∧
      (rsEncode data ecLen).map element =
        remainder ((rsGenerator ecLen).tail.map element) (data.map element) := by
  have degree := (generator_lower ecLen).2
  induction data using List.reverseRecOn with
  | nil =>
    refine ⟨fun codeword member => ?_,List.length_replicate,?_⟩
    · rw [List.eq_of_mem_replicate member]
      decide
    · rw [remainder,List.length_map,degree,List.map_nil,List.foldl_nil,rsEncode,List.foldl_nil,
        List.map_replicate,element_zero]
  | append_singleton data byte ih =>
    obtain ⟨kept,length,division⟩ := ih fun codeword member =>
      bytes codeword (List.mem_append_left _ member)
    have small : byte < 256 := bytes byte (List.mem_append_right _ List.mem_cons_self)
    have step := map_element_encodeStep positive small kept length
    rw [rsEncode_concat]
    refine ⟨bytes_encodeStep kept ecLen byte,?_,?_⟩
    · have filled : (rsGenerator ecLen).tail.map element ≠ [] := by
        rw [← List.length_pos_iff,List.length_map,degree]
        exact positive
      rw [← List.length_map (f := element),step,divideStep_length filled,List.length_map,degree]
      rw [List.length_map,List.length_map,length,degree]
    · rw [step,division,List.map_append,List.map_singleton,remainder_concat]

/-- The data of a block followed by its error correction codewords is a multiple of the generator
with the first powers of the root for its roots. -/
theorem generator_dvd_block {data : List Nat} {ecLen : Nat} (positive : 0 < ecLen)
    (bytes : Bytes data) :
    (∏ i ∈ Finset.range ecLen, (X - C (alpha ^ i))) ∣
      poly ((data ++ rsEncode data ecLen).map element) := by
  obtain ⟨monic,degree⟩ := generator_lower ecLen
  have filled : (rsGenerator ecLen).tail.map element ≠ [] := by
    rw [← List.length_pos_iff,List.length_map,degree]
    exact positive
  rw [← poly_generator,monic,List.map_append,(rsEncode_division positive bytes).2.2]
  exact dvd_codeword filled (data.map element)

end Encoding
end Tonbankcard.QrCode
