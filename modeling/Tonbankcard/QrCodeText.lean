import Tonbankcard.QrCode

/-! The bytes of a symbol's text where the host has no `TextEncoder`, against those that it makes.
They are the same as long as the text has no surrogates. -/
namespace Tonbankcard.QrCode

open EcmaScript Unicode

/-- What the loop makes of a code unit. -/
def codeUnitBytes (unit : UInt16) : List Nat :=
  let c := unit.toNat
  if c < 0x80 then [c]
  else if c < 0x800 then [0xc0 ||| c >>> 6,0x80 ||| c &&& 0x3f]
  else [0xe0 ||| c >>> 12,0x80 ||| (c >>> 6) &&& 0x3f,0x80 ||| c &&& 0x3f]

def isSurrogate (unit : UInt16) : Bool := isLeading unit || isTrailing unit

theorem utf8Bytes_loop (input : JsString) : utf8Bytes false input = input.flatMap codeUnitBytes :=
  rfl

theorem utf8Bytes_encoder (input : JsString) : utf8Bytes true input =
    (codePoints input).flatMap fun point =>
      (String.utf8EncodeChar (scalar point)).map UInt8.toNat := by
  rw [utf8Bytes,if_pos rfl,encodeUtf8,utf8,List.map_flatMap,List.flatMap_map]

/-- The bits of a code unit as digits to the base 64. -/
theorem codeUnitBytes_digits (unit : UInt16) : codeUnitBytes unit =
    if unit.toNat < 128 then [unit.toNat]
    else if unit.toNat < 2048 then [192 + unit.toNat / 64,128 + unit.toNat % 64]
    else [224 + unit.toNat / 4096,128 + unit.toNat / 64 % 64,128 + unit.toNat % 64] := by
  have small := unit.toNat_lt
  have low (n : Nat) : 0x80 ||| n &&& 0x3f = 128 + n % 64 := by
    rw [show 0x3f = 2^6 - 1 from rfl,Nat.and_two_pow_sub_one_eq_mod]
    have digit : n % 2^6 < 2^6 := Nat.mod_lt n (by decide)
    exact (Nat.two_pow_add_eq_or_of_lt digit 2).symm
  rw [codeUnitBytes]
  simp only [low,Nat.shiftRight_eq_div_pow]
  split
  · rfl
  split
  · rename_i two
    have high : 0xc0 ||| unit.toNat / 2^6 = 192 + unit.toNat / 64 :=
      (Nat.two_pow_add_eq_or_of_lt (show unit.toNat / 64 < 2^6 by omega) 3).symm
    rw [high]
  · have high : 0xe0 ||| unit.toNat / 2^12 = 224 + unit.toNat / 4096 :=
      (Nat.two_pow_add_eq_or_of_lt (show unit.toNat / 4096 < 2^5 by omega) 7).symm
    rw [high]

theorem isSurrogate_iff (unit : UInt16) :
    isSurrogate unit = true ↔ 55296 ≤ unit.toNat ∧ unit.toNat < 57344 := by
  rw [isSurrogate,isLeading,isTrailing]
  simp only [Bool.or_eq_true,Bool.and_eq_true,decide_eq_true_eq,UInt16.le_iff_toNat_le,
    UInt16.lt_iff_toNat_lt,UInt16.reduceToNat]
  omega

/-- A code unit that stands for itself has the bytes of its character. -/
theorem codeUnitBytes_character {unit : UInt16} (single : isSurrogate unit = false) :
    codeUnitBytes unit = (String.utf8EncodeChar (scalar unit.toNat)).map UInt8.toNat := by
  have small := unit.toNat_lt
  have apart : ¬ (55296 ≤ unit.toNat ∧ unit.toNat < 57344) := fun range => by
    rw [(isSurrogate_iff unit).mpr range] at single
    cases single
  have value : (scalar unit.toNat).toNat = unit.toNat := by
    rw [scalar,if_neg (by simpa using apart),toNat_ofNat (by omega)]
  rw [codeUnitBytes_digits,String.utf8EncodeChar]
  simp only [Char.toNat_val,value]
  by_cases one : unit.toNat < 128
  · rw [if_pos one,if_pos (show unit.toNat ≤ 127 by omega)]
    exact congrArg (· :: []) (toNat_byte (by omega)).symm
  rw [if_neg one,if_neg (show ¬unit.toNat ≤ 127 by omega)]
  by_cases two : unit.toNat < 2048
  · rw [if_pos two,if_pos (show unit.toNat ≤ 2047 by omega)]
    simp (disch := omega) only [List.map_cons,List.map_nil,toNat_byte,List.cons.injEq,and_true]
    omega
  rw [if_neg two,if_neg (show ¬unit.toNat ≤ 2047 by omega),
    if_pos (show unit.toNat ≤ 65535 by omega)]
  simp (disch := omega) only [List.map_cons,List.map_nil,toNat_byte,List.cons.injEq,and_true]
  omega

/-- Beyond the surrogates the first byte of a character is beyond theirs. -/
theorem character_head {c : Char} (beyond : 57344 ≤ c.toNat) (more : List Nat) :
    ∃ byte rest, (String.utf8EncodeChar c).map UInt8.toNat ++ more = byte :: rest ∧ 238 ≤ byte := by
  have range := char_range c
  rw [String.utf8EncodeChar]
  simp only [Char.toNat_val]
  rw [if_neg (by omega),if_neg (by omega)]
  split
  · refine ⟨_,_,rfl,?_⟩
    rw [toNat_byte (by omega)]
    omega
  · refine ⟨_,_,rfl,?_⟩
    rw [toNat_byte (by omega)]
    omega

/-- A text that begins with a surrogate: the point is that of a pair, or the surrogate itself. -/
theorem codePoints_surrogate {unit : UInt16} (surrogate : isSurrogate unit = true)
    (rest : JsString) : ∃ point points, codePoints (unit :: rest) = point :: points ∧
      57344 ≤ (scalar point).toNat := by
  have own : 57344 ≤ (scalar unit.toNat).toNat := by
    have range := (isSurrogate_iff unit).mp surrogate
    rw [scalar,if_pos (by simpa using range),toNat_ofNat (by omega)]
    decide
  cases rest with
  | nil => exact ⟨_,_,rfl,own⟩
  | cons next rest =>
    rw [codePoints]
    split
    · rename_i pair
      refine ⟨_,_,rfl,?_⟩
      simp only [isLeading,isTrailing,Bool.and_eq_true,decide_eq_true_eq,UInt16.le_iff_toNat_le,
        UInt16.lt_iff_toNat_lt,UInt16.reduceToNat] at pair
      rw [scalar,if_neg (by simp only [Bool.and_eq_true,decide_eq_true_eq]; omega),
        toNat_ofNat (by omega)]
      omega
    · exact ⟨_,_,rfl,own⟩

theorem surrogate_head {unit : UInt16} (surrogate : isSurrogate unit = true) :
    ∃ rest, codeUnitBytes unit = 237 :: rest := by
  have range := (isSurrogate_iff unit).mp surrogate
  rw [codeUnitBytes_digits,if_neg (by omega),if_neg (by omega)]
  exact ⟨_,congrArg (· :: _) (by omega)⟩

/-- The loop makes the bytes of the `TextEncoder`, and with them the same symbols, for the texts
without surrogates. -/
theorem utf8Bytes_agree_iff (input : JsString) :
    (utf8Bytes false input = utf8Bytes true input ∧
      ∀ options, generateQRMatrix false input options = generateQRMatrix true input options) ↔
    ∀ unit ∈ input, isSurrogate unit = false := by
  have bytes : utf8Bytes false input = utf8Bytes true input ↔
      ∀ unit ∈ input, isSurrogate unit = false := by
    rw [utf8Bytes_loop,utf8Bytes_encoder]
    induction input with
    | nil => exact iff_of_true rfl (List.forall_mem_nil _)
    | cons unit rest ih =>
      rw [List.forall_mem_cons,List.flatMap_cons]
      cases kind : isSurrogate unit with
      | false =>
        have leading : isLeading unit = false := (Bool.or_eq_false_iff.mp kind).1
        rw [codePoints_single rest leading,List.flatMap_cons,codeUnitBytes_character kind,
          List.append_right_inj,ih]
        exact (and_iff_right rfl).symm
      | true =>
        refine iff_of_false (fun same => ?_) (fun all => Bool.noConfusion all.1)
        obtain ⟨point,points,first,beyond⟩ := codePoints_surrogate kind rest
        obtain ⟨byte,more,head,high⟩ := character_head beyond
          (points.flatMap fun point => (String.utf8EncodeChar (scalar point)).map UInt8.toNat)
        obtain ⟨others,loop⟩ := surrogate_head kind
        rw [first,List.flatMap_cons,head,loop,List.cons_append,List.cons.injEq] at same
        omega
  refine ⟨fun both => bytes.mp both.1,fun free => ?_⟩
  have same := bytes.mpr free
  exact ⟨same,fun options => by rw [generateQRMatrix,generateQRMatrix,same]⟩

/-- An emoji: six bytes without a `TextEncoder`, and four with one. -/
theorem utf8Bytes_emoji : utf8Bytes false (js "😀") ≠ utf8Bytes true (js "😀") := by
  decide +kernel

end Tonbankcard.QrCode
