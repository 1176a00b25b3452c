import Tonbankcard.SsrfGuard

/-! The blocked ranges as sets of addresses: those that share the leading bits of a base. The
parsed masks and bases test for just that. -/
namespace Tonbankcard.SsrfGuard

open EcmaScript IpText

section Masks

/-- The addresses whose first `length` bits are those of the base. -/
structure Range where
  base : Nat
  length : Nat

def Range.Contains (bits : Nat) (range : Range) (value : Nat) : Prop :=
  value / 2^(bits - range.length) = range.base / 2^(bits - range.length)

instance (bits : Nat) (range : Range) (value : Nat) : Decidable (range.Contains bits value) :=
  inferInstanceAs (Decidable (_ = _))

def mask (bits host : Nat) : Nat :=
  if host = 0 then 1 <<< bits - 1 else andNot (1 <<< host - 1) (1 <<< bits - 1)

def Range.parsed (bits : Nat) (range : Range) : ParsedCidr :=
  ⟨range.base &&& mask bits (bits - range.length),mask bits (bits - range.length)⟩

theorem testBit_andNot (x y i : Nat) : (andNot x y).testBit i = (y.testBit i && !x.testBit i) := by
  simp only [andNot,Nat.testBit_xor,Nat.testBit_and]
  cases y.testBit i <;> cases x.testBit i <;> rfl

theorem and_mask {value bits : Nat} (small : value < 2^bits) (host : Nat) :
    value &&& mask bits host = value / 2^host * 2^host := by
  apply Nat.eq_of_testBit_eq
  intro i
  have shape : (mask bits host).testBit i = (decide (i < bits) && decide (host ≤ i)) := by
    unfold mask
    split
    · rename_i zero
      simp [zero,Nat.one_shiftLeft]
    · simp only [testBit_andNot,Nat.one_shiftLeft,Nat.testBit_two_pow_sub_one,← decide_not,
        Nat.not_lt]
  rw [Nat.testBit_and,shape,← Nat.shiftLeft_eq,← Nat.shiftRight_eq_div_pow,Nat.testBit_shiftLeft,
    Nat.testBit_shiftRight]
  by_cases inside : host ≤ i
  · rw [Nat.add_sub_cancel' inside]
    by_cases low : i < bits
    · simp [inside,low]
    · have high : value < 2^i := small.trans_le (Nat.pow_le_pow_right (by decide) (by omega))
      simp [low,Nat.testBit_lt_two_pow high]
  · simp [inside]

theorem Range.parsed_iff {bits value : Nat} {range : Range} (small : value < 2^bits)
    (base : range.base < 2^bits) :
    value &&& (range.parsed bits).mask = (range.parsed bits).base ↔ range.Contains bits value := by
  simp only [Range.parsed,Range.Contains,and_mask small,and_mask base]
  exact Nat.mul_left_inj (by positivity)

end Masks

section Tables

def quadRange (a b c d : Fin 256) (length : Nat) : Range := ⟨(IPv4.mk a b c d).value,length⟩

/-- A range with its base as groups. -/
def groupRange (groups : List Nat) (length : Nat) : Range :=
  ⟨groups.foldl (fun value group => value * 2^16 + group) 0,length⟩

def blockedIPv4 : List Range := [
  quadRange 0 0 0 0 8,
  quadRange 10 0 0 0 8,
  quadRange 100 64 0 0 10,
  quadRange 127 0 0 0 8,
  quadRange 169 254 0 0 16,
  quadRange 172 16 0 0 12,
  quadRange 192 0 0 0 24,
  quadRange 192 0 2 0 24,
  quadRange 192 168 0 0 16,
  quadRange 198 18 0 0 15,
  quadRange 198 51 100 0 24,
  quadRange 203 0 113 0 24,
  quadRange 224 0 0 0 4,
  quadRange 240 0 0 0 4]

def blockedIPv6 : List Range := [
  groupRange [0,0,0,0,0,0,0,0] 128,
  groupRange [0,0,0,0,0,0,0,1] 128,
  groupRange [0,0,0,0,0,0,0,0] 96,
  groupRange [0x64,0xff9b,0,0,0,0,0,0] 96,
  groupRange [0x100,0,0,0,0,0,0,0] 64,
  groupRange [0x2001,0xdb8,0,0,0,0,0,0] 32,
  groupRange [0xfc00,0,0,0,0,0,0,0] 7,
  groupRange [0xfe80,0,0,0,0,0,0,0] 10,
  groupRange [0xff00,0,0,0,0,0,0,0] 8]

theorem parsedIPv4_ranges : parsedIPv4 = some (blockedIPv4.map (·.parsed 32)) := by
  decide +kernel

theorem parsedIPv6_ranges : parsedIPv6 = some (blockedIPv6.map (·.parsed 128)) := by
  decide +kernel

/-- An address lies in one of the listed ranges. -/
def InRanges (bits : Nat) (ranges : List Range) (value : Nat) : Prop :=
  ∃ range ∈ ranges, range.Contains bits value

instance (bits : Nat) (ranges : List Range) (value : Nat) :
    Decidable (InRanges bits ranges value) :=
  inferInstanceAs (Decidable (∃ range ∈ ranges, range.Contains bits value))

theorem matchesAny_iff {bits value : Nat} {ranges : List Range} (small : value < 2^bits)
    (bases : ∀ range ∈ ranges, range.base < 2^bits) :
    matchesAny (some (ranges.map (·.parsed bits))) value = true ↔ InRanges bits ranges value := by
  simp only [matchesAny,Option.getD_some,List.any_map,List.any_eq_true,Function.comp_apply,
    decide_eq_true_eq,InRanges]
  exact exists_congr fun range => and_congr_right fun member =>
    Range.parsed_iff small (bases range member)

theorem matchesAny_parsedIPv4 {value : Nat} (small : value < 2^32) :
    matchesAny parsedIPv4 value = true ↔ InRanges 32 blockedIPv4 value := by
  rw [parsedIPv4_ranges]
  exact matchesAny_iff small (by decide)

theorem matchesAny_parsedIPv6 {value : Nat} (small : value < 2^128) :
    matchesAny parsedIPv6 value = true ↔ InRanges 128 blockedIPv6 value := by
  rw [parsedIPv6_ranges]
  exact matchesAny_iff small (by decide)

/-- The mapped addresses lie in none of the ranges of the longer addresses. -/
theorem mapped_outside {value : Nat} (mapped : value / 2^32 = 0xffff) :
    ¬InRanges 128 blockedIPv6 value := by
  have low : 0xffff * 2^32 ≤ value := by omega
  have high : value < 0x10000 * 2^32 := by omega
  rintro ⟨range,member,inside⟩
  simp only [blockedIPv6,groupRange,List.mem_cons,List.not_mem_nil,or_false] at member
  rcases member with rfl | rfl | rfl | rfl | rfl | rfl | rfl | rfl | rfl <;>
    simp [Range.Contains] at inside <;> omega

end Tables

end Tonbankcard.SsrfGuard
