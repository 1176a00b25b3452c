import Mathlib.Data.List.Lex
import Mathlib.Data.Char
import Mathlib.Order.Monotone.Basic
import Tonbankcard.EcmaScript

/-! The encodings of Unicode text. UTF-8 keeps the order of code points, and UTF-16 is read back
by code points. -/
namespace Unicode

open EcmaScript

section Utf8

def utf8 (s : List Char) : List UInt8 := s.flatMap String.utf8EncodeChar

theorem utf8EncodeChar_filled (c : Char) : String.utf8EncodeChar c ≠ [] := by
  unfold String.utf8EncodeChar
  simp only
  split_ifs <;> exact List.cons_ne_nil _ _

section Digits
variable {n m : Nat}

theorem digits_lt (less : n < m) : n / 64 < m / 64 ∨ n / 64 = m / 64 ∧ n % 64 < m % 64 := by
  omega

/-- A smaller number is smaller by its digits, from the highest on. -/
theorem two_digits_lt (less : n < m) (behind : Prop) :
    n / 64 < m / 64 ∨ n / 64 = m / 64 ∧ (n % 64 < m % 64 ∨ n % 64 = m % 64 ∧ behind) :=
  (digits_lt less).imp_right (And.imp_right Or.inl)

theorem three_digits_lt (less : n < m) (behind : Prop) :
    n / 4096 < m / 4096 ∨ n / 4096 = m / 4096 ∧ (n / 64 % 64 < m / 64 % 64 ∨
      n / 64 % 64 = m / 64 % 64 ∧ (n % 64 < m % 64 ∨ n % 64 = m % 64 ∧ behind)) := by
  rw [← Nat.div_div_eq_div_mul n 64 64,← Nat.div_div_eq_div_mul m 64 64]
  rcases digits_lt less with high | ⟨same,low⟩
  · exact two_digits_lt high _
  · exact .inr ⟨by rw [same],.inr ⟨by rw [same],.inl low⟩⟩

theorem four_digits_lt (less : n < m) (behind : Prop) :
    n / 262144 < m / 262144 ∨ n / 262144 = m / 262144 ∧ (n / 4096 % 64 < m / 4096 % 64 ∨
      n / 4096 % 64 = m / 4096 % 64 ∧ (n / 64 % 64 < m / 64 % 64 ∨
        n / 64 % 64 = m / 64 % 64 ∧ (n % 64 < m % 64 ∨ n % 64 = m % 64 ∧ behind))) := by
  rw [← Nat.div_div_eq_div_mul n 64 4096,← Nat.div_div_eq_div_mul m 64 4096,
    ← Nat.div_div_eq_div_mul n 64 64,← Nat.div_div_eq_div_mul m 64 64]
  rcases digits_lt less with high | ⟨same,low⟩
  · exact three_digits_lt high _
  · exact .inr ⟨by rw [same],.inr ⟨by rw [same],.inr ⟨by rw [same],.inl low⟩⟩⟩

end Digits

/-- The bytes of a smaller code point come first, whatever stands behind them. -/
theorem utf8EncodeChar_lt {c d : Char} (less : c.toNat < d.toNat) (s t : List UInt8) :
    String.utf8EncodeChar c ++ s < String.utf8EncodeChar d ++ t := by
  have top : d.toNat < 0x110000 := by
    have valid := d.valid
    have same : d.toNat = d.val.toNat := rfl
    unfold UInt32.isValidChar Nat.isValidChar at valid
    omega
  unfold String.utf8EncodeChar
  simp only [Char.toNat_val]
  split_ifs
  all_goals
    simp only [List.cons_append,List.nil_append,List.cons_lt_cons_iff,UInt8.lt_iff_toNat_lt,
      ← UInt8.toNat_inj,UInt8.toNat_ofNat']
    simp (disch := omega) only [Nat.mod_eq_of_lt,Nat.add_lt_add_iff_right,
      Nat.add_right_cancel_iff]
  -- a shorter encoding has a smaller first byte, and digits decide among those of one length
  all_goals first
    | exact two_digits_lt less _
    | exact three_digits_lt less _
    | exact four_digits_lt less _
    | exact .inl (by omega)

theorem Char.toNat_lt_toNat {c d : Char} : c.toNat < d.toNat ↔ c < d := by
  rw [Char.lt_def,UInt32.lt_iff_toNat_lt]
  rfl

theorem utf8_lt {s t : List Char} (less : s < t) : utf8 s < utf8 t := by
  induction less with
  | @nil c t =>
    obtain ⟨byte,rest,bytes⟩ := List.exists_cons_of_ne_nil (utf8EncodeChar_filled c)
    unfold utf8
    rw [List.flatMap_nil,List.flatMap_cons,bytes]
    exact List.nil_lt_cons _ _
  | cons _ ih =>
    unfold utf8 at ih ⊢
    rw [List.flatMap_cons,List.flatMap_cons]
    exact List.append_left_lt ih
  | rel first =>
    unfold utf8
    rw [List.flatMap_cons,List.flatMap_cons]
    exact utf8EncodeChar_lt (Char.toNat_lt_toNat.mpr first) _ _

/-- UTF-8 keeps the order of code points. -/
theorem utf8_lt_iff {s t : List Char} : utf8 s < utf8 t ↔ s < t := by
  refine ⟨fun less => ?_,utf8_lt⟩
  rcases lt_trichotomy s t with before | rfl | after
  · exact before
  · exact absurd less (List.lt_irrefl _)
  · exact absurd less (List.lt_asymm (utf8_lt after))

theorem utf8_injective : Function.Injective utf8 := by
  intro s t same
  rcases lt_trichotomy s t with before | equal | after
  · exact absurd (utf8_lt before) (same ▸ List.lt_irrefl _)
  · exact equal
  · exact absurd (utf8_lt after) (same ▸ List.lt_irrefl _)

end Utf8

section Utf16

def utf16Char (c : Char) : JsString :=
  if c.toNat < 65536 then [UInt16.ofNat c.toNat]
  else [UInt16.ofNat (55296 + (c.toNat - 65536) / 1024),
    UInt16.ofNat (56320 + (c.toNat - 65536) % 1024)]

def utf16 (s : List Char) : JsString := s.flatMap utf16Char

theorem utf16_append (s t : List Char) : utf16 (s ++ t) = utf16 s ++ utf16 t :=
  List.flatMap_append

/-- The code points that a string iterates through, where a lone surrogate is one of its own. -/
def codePoints : JsString → List Nat
  | [] => []
  | [unit] => [unit.toNat]
  | unit :: next :: rest =>
    if isLeading unit && isTrailing next then
      (65536 + (unit.toNat - 55296) * 1024 + (next.toNat - 56320)) :: codePoints rest
    else unit.toNat :: codePoints (next :: rest)

/-- `TextEncoder` takes a lone surrogate for U+FFFD. -/
def scalar (point : Nat) : Char :=
  if 55296 ≤ point && point < 57344 then Char.ofNat 65533 else Char.ofNat point

/-- The bytes that `TextEncoder` makes of a string. -/
def encodeUtf8 (s : JsString) : List UInt8 := utf8 ((codePoints s).map scalar)

theorem codePoints_single (rest : JsString) (apart : isLeading unit = false) :
    codePoints (unit :: rest) = unit.toNat :: codePoints rest := by
  cases rest with
  | nil => rfl
  | cons next rest => rw [codePoints,apart,Bool.false_and,if_neg Bool.false_ne_true]

theorem char_range (c : Char) :
    c.toNat < 55296 ∨ 57344 ≤ c.toNat ∧ c.toNat < 1114112 := by
  have valid := c.valid
  have same : c.toNat = c.val.toNat := rfl
  unfold UInt32.isValidChar Nat.isValidChar at valid
  omega

/-- A character beyond the first plane is a pair of surrogates. -/
theorem utf16Char_pair (astral : ¬c.toNat < 65536) :
    ∃ high low, utf16Char c = [high,low] ∧ (isLeading high && isTrailing low) = true ∧
      high.toNat = 55296 + (c.toNat - 65536) / 1024 ∧
      low.toNat = 56320 + (c.toNat - 65536) % 1024 := by
  have range := char_range c
  have high : (UInt16.ofNat (55296 + (c.toNat - 65536) / 1024)).toNat =
      55296 + (c.toNat - 65536) / 1024 := by
    rw [UInt16.toNat_ofNat']
    omega
  have low : (UInt16.ofNat (56320 + (c.toNat - 65536) % 1024)).toNat =
      56320 + (c.toNat - 65536) % 1024 := by
    rw [UInt16.toNat_ofNat']
    omega
  refine ⟨_,_,if_neg astral,?_,high,low⟩
  unfold isLeading isTrailing
  simp only [Bool.and_eq_true,decide_eq_true_eq,UInt16.le_iff_toNat_le,
    UInt16.lt_iff_toNat_lt,high,low,UInt16.reduceToNat]
  omega

theorem codePoints_utf16Char (c : Char) (rest : JsString) :
    codePoints (utf16Char c ++ rest) = c.toNat :: codePoints rest := by
  have range := char_range c
  by_cases small : c.toNat < 65536
  · have value : (UInt16.ofNat c.toNat).toNat = c.toNat := by
      rw [UInt16.toNat_ofNat']
      omega
    have single : utf16Char c = [UInt16.ofNat c.toNat] := if_pos small
    rw [single,List.singleton_append,codePoints_single,value]
    unfold isLeading
    simp only [Bool.and_eq_false_iff,decide_eq_false_iff_not,UInt16.le_iff_toNat_le,
      UInt16.lt_iff_toNat_lt,value,UInt16.reduceToNat]
    omega
  · obtain ⟨high,low,units,pair,highValue,lowValue⟩ := utf16Char_pair small
    have point : 65536 + (55296 + (c.toNat - 65536) / 1024 - 55296) * 1024 +
        (56320 + (c.toNat - 65536) % 1024 - 56320) = c.toNat := by omega
    rw [units,List.cons_append,List.singleton_append,codePoints,if_pos pair,highValue,lowValue,
      point]

theorem codePoints_utf16 (s : List Char) : codePoints (utf16 s) = s.map Char.toNat := by
  induction s with
  | nil => rfl
  | cons c rest ih =>
    unfold utf16 at ih ⊢
    rw [List.flatMap_cons,codePoints_utf16Char,ih,List.map_cons]

theorem scalar_toNat (c : Char) : scalar c.toNat = c := by
  have range := char_range c
  unfold scalar
  rw [if_neg (by simp only [Bool.and_eq_true,decide_eq_true_eq]; omega)]
  exact Char.ofNat_toNat c

/-- Well-formed text has one UTF-8 encoding, whether it is encoded itself or from UTF-16. -/
theorem encodeUtf8_utf16 (s : List Char) : encodeUtf8 (utf16 s) = utf8 s := by
  unfold encodeUtf8
  rw [codePoints_utf16,List.map_map]
  have same : scalar ∘ Char.toNat = id := funext scalar_toNat
  rw [same,List.map_id]

end Utf16

section Decoding

/-- A character that is being read: how many bytes it lacks, between which bounds the next of them
lies, and its bits so far. -/
structure Unfinished where
  lacking : Nat
  lowest : Nat
  highest : Nat
  bits : Nat

/-- What a first byte stands for or begins; one that begins nothing is replaced. -/
def lead (byte : UInt8) : List Nat × Option Unfinished :=
  let code := byte.toNat
  if code ≤ 0x7F then ([code],none)
  else if 0xC2 ≤ code ∧ code ≤ 0xDF then ([],some ⟨1,0x80,0xBF,code - 0xC0⟩)
  else if code = 0xE0 then ([],some ⟨2,0xA0,0xBF,0⟩)
  else if code = 0xED then ([],some ⟨2,0x80,0x9F,0xD⟩)
  else if 0xE1 ≤ code ∧ code ≤ 0xEF then ([],some ⟨2,0x80,0xBF,code - 0xE0⟩)
  else if code = 0xF0 then ([],some ⟨3,0x90,0xBF,0⟩)
  else if code = 0xF4 then ([],some ⟨3,0x80,0x8F,4⟩)
  else if 0xF1 ≤ code ∧ code ≤ 0xF3 then ([],some ⟨3,0x80,0xBF,code - 0xF0⟩)
  else ([0xFFFD],none)

/-- Reads code points. A byte that does not go on with a character replaces it and begins anew. -/
def decodePoints : Option Unfinished → List UInt8 → List Nat
  | none, [] => []
  | some _, [] => [0xFFFD]
  | none, byte :: rest => (lead byte).1 ++ decodePoints (lead byte).2 rest
  | some char, byte :: rest =>
    if char.lowest ≤ byte.toNat ∧ byte.toNat ≤ char.highest then
      let bits := char.bits * 64 + byte.toNat % 64
      if char.lacking = 1 then bits :: decodePoints none rest
      else decodePoints (some ⟨char.lacking - 1,0x80,0xBF,bits⟩) rest
    else 0xFFFD :: ((lead byte).1 ++ decodePoints (lead byte).2 rest)

/-- The string that `TextDecoder` makes of bytes. -/
def decodeUtf8 (bytes : List UInt8) : JsString := utf16 ((decodePoints none bytes).map Char.ofNat)

theorem toNat_byte {n : Nat} (small : n < 256) : (UInt8.ofNat n).toNat = n := by
  rw [UInt8.toNat_ofNat']
  omega

section Continuations
variable {lowest highest : Nat} (code : Nat) (above : lowest ≤ code % 64 + 128)
  (below : code % 64 + 128 ≤ highest) (rest : List UInt8)
include above below

/-- The last byte of a character. -/
theorem decodePoints_last :
    decodePoints (some ⟨1,lowest,highest,code / 64⟩) (UInt8.ofNat (code % 64 + 128) :: rest) =
      code :: decodePoints none rest := by
  have byte := toNat_byte (show code % 64 + 128 < 256 by omega)
  have bits : code / 64 * 64 + (code % 64 + 128) % 64 = code := by omega
  rw [decodePoints,byte,if_pos ⟨above,below⟩,if_pos rfl,bits]

/-- A byte between the first and the last. -/
theorem decodePoints_inner (lacking : Nat) :
    decodePoints (some ⟨lacking + 2,lowest,highest,code / 64⟩)
        (UInt8.ofNat (code % 64 + 128) :: rest) =
      decodePoints (some ⟨lacking + 1,0x80,0xBF,code⟩) rest := by
  have byte := toNat_byte (show code % 64 + 128 < 256 by omega)
  have bits : code / 64 * 64 + (code % 64 + 128) % 64 = code := by omega
  rw [decodePoints,byte,if_pos ⟨above,below⟩,if_neg (by simp),bits]
  rfl

end Continuations

theorem lead_one {code : Nat} (small : code ≤ 127) : lead (UInt8.ofNat code) = ([code],none) := by
  unfold lead
  simp only [toNat_byte (show code < 256 by omega)]
  rw [if_pos small]

theorem lead_two {code : Nat} (above : 127 < code) (below : code ≤ 2047) :
    lead (UInt8.ofNat (code / 64 % 32 + 192)) = ([],some ⟨1,0x80,0xBF,code / 64⟩) := by
  have value : (UInt8.ofNat (code / 64 % 32 + 192)).toNat = code / 64 + 192 := by
    rw [toNat_byte (by omega)]
    omega
  unfold lead
  simp only [value]
  rw [if_neg (by omega),if_pos (by omega),Nat.add_sub_cancel]

/-- The bounds on the second byte keep out what has a shorter encoding, and the surrogates. -/
theorem lead_three {code : Nat} (above : 2047 < code) (below : code ≤ 65535)
    (apart : code < 55296 ∨ 57344 ≤ code) :
    ∃ lowest highest, lead (UInt8.ofNat (code / 4096 % 16 + 224)) =
        ([],some ⟨2,lowest,highest,code / 4096⟩) ∧
      lowest ≤ code / 64 % 64 + 128 ∧ code / 64 % 64 + 128 ≤ highest := by
  have value : (UInt8.ofNat (code / 4096 % 16 + 224)).toNat = code / 4096 + 224 := by
    rw [toNat_byte (by omega)]
    omega
  unfold lead
  simp only [value]
  rw [if_neg (by omega),if_neg (by omega)]
  by_cases least : code / 4096 = 0
  · exact ⟨_,_,by rw [if_pos (by omega),least],by omega,by omega⟩
  rw [if_neg (by omega)]
  by_cases surrogates : code / 4096 = 13
  · exact ⟨_,_,by rw [if_pos (by omega),surrogates],by omega,by omega⟩
  rw [if_neg (by omega)]
  exact ⟨_,_,by rw [if_pos (by omega),Nat.add_sub_cancel],by omega,by omega⟩

/-- They keep out what is beyond the last character, too. -/
theorem lead_four {code : Nat} (above : 65535 < code) (below : code < 1114112) :
    ∃ lowest highest, lead (UInt8.ofNat (code / 262144 % 8 + 240)) =
        ([],some ⟨3,lowest,highest,code / 262144⟩) ∧
      lowest ≤ code / 4096 % 64 + 128 ∧ code / 4096 % 64 + 128 ≤ highest := by
  have value : (UInt8.ofNat (code / 262144 % 8 + 240)).toNat = code / 262144 + 240 := by
    rw [toNat_byte (by omega)]
    omega
  unfold lead
  simp only [value]
  rw [if_neg (by omega),if_neg (by omega),if_neg (by omega),if_neg (by omega),if_neg (by omega)]
  by_cases least : code / 262144 = 0
  · exact ⟨_,_,by rw [if_pos (by omega),least],by omega,by omega⟩
  rw [if_neg (by omega)]
  by_cases greatest : code / 262144 = 4
  · exact ⟨_,_,by rw [if_pos (by omega),greatest],by omega,by omega⟩
  rw [if_neg (by omega)]
  exact ⟨_,_,by rw [if_pos (by omega),Nat.add_sub_cancel],by omega,by omega⟩

theorem decodePoints_encoded (c : Char) (rest : List UInt8) :
    decodePoints none (String.utf8EncodeChar c ++ rest) = c.toNat :: decodePoints none rest := by
  have range := char_range c
  have once (code : Nat) : code / 4096 = code / 64 / 64 := by omega
  have twice (code : Nat) : code / 262144 = code / 4096 / 64 := by omega
  unfold String.utf8EncodeChar
  simp only [Char.toNat_val]
  generalize c.toNat = code at range ⊢
  split_ifs with one two three
  · rw [List.singleton_append,decodePoints,lead_one one,List.singleton_append]
  · rw [List.cons_append,decodePoints,lead_two (by omega) two,List.nil_append,
      List.singleton_append,decodePoints_last code (by omega) (by omega)]
  · obtain ⟨lowest,highest,first,above,below⟩ := lead_three (by omega) three (by omega)
    rw [List.cons_append,decodePoints,first,List.nil_append,once,List.cons_append,
      decodePoints_inner _ above below,List.singleton_append,
      decodePoints_last code (by omega) (by omega)]
  · obtain ⟨lowest,highest,first,above,below⟩ := lead_four (Nat.lt_of_not_le three) (by omega)
    rw [List.cons_append,decodePoints,first,List.nil_append,twice,List.cons_append,
      decodePoints_inner _ above below,once,List.cons_append,
      decodePoints_inner (code / 64) (by omega) (by omega),List.singleton_append,
      decodePoints_last code (by omega) (by omega)]

theorem decodePoints_utf8 (s : List Char) : decodePoints none (utf8 s) = s.map Char.toNat := by
  induction s with
  | nil => rfl
  | cons c rest ih =>
    unfold utf8 at ih ⊢
    rw [List.flatMap_cons,decodePoints_encoded,ih,List.map_cons]

theorem decodeUtf8_utf8 (s : List Char) : decodeUtf8 (utf8 s) = utf16 s := by
  rw [decodeUtf8,decodePoints_utf8,List.map_map]
  congr 1
  exact (List.map_congr_left fun c _ => Char.ofNat_toNat c).trans (List.map_id s)

theorem toNat_ofNat {code : Nat} (valid : code < 55296 ∨ 57343 < code ∧ code < 1114112) :
    (Char.ofNat code).toNat = code := by
  unfold Char.ofNat
  rw [dif_pos valid]
  rfl

/-- A surrogate pair is the encoding of the character that it stands for. -/
theorem utf16Char_scalar (unit next : UInt16) (pair : (isLeading unit && isTrailing next) = true) :
    utf16Char (scalar (65536 + (unit.toNat - 55296) * 1024 + (next.toNat - 56320))) =
      [unit,next] := by
  unfold isLeading isTrailing at pair
  simp only [Bool.and_eq_true,decide_eq_true_eq,UInt16.le_iff_toNat_le,
    UInt16.lt_iff_toNat_lt,UInt16.reduceToNat] at pair
  have value : (scalar (65536 + (unit.toNat - 55296) * 1024 + (next.toNat - 56320))).toNat =
      65536 + (unit.toNat - 55296) * 1024 + (next.toNat - 56320) := by
    unfold scalar
    rw [if_neg (by simp only [Bool.and_eq_true,decide_eq_true_eq]; omega)]
    exact toNat_ofNat (by omega)
  unfold utf16Char
  rw [if_neg (by rw [value]; omega),value]
  have high : 55296 + (65536 + (unit.toNat - 55296) * 1024 + (next.toNat - 56320) - 65536) / 1024 =
      unit.toNat := by omega
  have low : 56320 + (65536 + (unit.toNat - 55296) * 1024 + (next.toNat - 56320) - 65536) % 1024 =
      next.toNat := by omega
  rw [high,low,UInt16.ofNat_toNat,UInt16.ofNat_toNat]

theorem utf16Char_single {unit : UInt16} (leading : isLeading unit = false)
    (trailing : isTrailing unit = false) : utf16Char (scalar unit.toNat) = [unit] := by
  have small : unit.toNat < 65536 := unit.toNat_lt
  unfold isLeading at leading
  unfold isTrailing at trailing
  simp only [Bool.and_eq_false_iff,decide_eq_false_iff_not,UInt16.le_iff_toNat_le,
    UInt16.lt_iff_toNat_lt,UInt16.reduceToNat] at leading trailing
  have value : (scalar unit.toNat).toNat = unit.toNat := by
    unfold scalar
    rw [if_neg (by simp only [Bool.and_eq_true,decide_eq_true_eq]; omega)]
    exact toNat_ofNat (by omega)
  unfold utf16Char
  rw [value,if_pos small,UInt16.ofNat_toNat]

theorem utf16_codePoints {s : JsString} (wellFormed : isWellFormed s = true) :
    utf16 ((codePoints s).map scalar) = s := by
  induction s using isWellFormed.induct with
  | case1 => rfl
  | case2 unit =>
    simp only [isWellFormed,Bool.and_eq_true,Bool.not_eq_true'] at wellFormed
    simp [codePoints,utf16,utf16Char_single wellFormed.1 wellFormed.2]
  | case3 unit next rest pair ih =>
    rw [isWellFormed,if_pos pair] at wellFormed
    have ih := ih wellFormed
    unfold utf16 at ih ⊢
    rw [codePoints,if_pos pair,List.map_cons,List.flatMap_cons,utf16Char_scalar unit next pair,ih]
    rfl
  | case4 unit next rest apart ih =>
    rw [isWellFormed,if_neg apart] at wellFormed
    simp only [Bool.and_eq_true,Bool.not_eq_true'] at wellFormed
    have ih := ih wellFormed.2
    unfold utf16 at ih ⊢
    rw [codePoints,if_neg apart,List.map_cons,List.flatMap_cons,
      utf16Char_single wellFormed.1.1 wellFormed.1.2,ih]
    rfl

/-- A string with a UTF-8 encoding is read back from it. -/
theorem decodeUtf8_encodeUtf8 {s : JsString} (wellFormed : isWellFormed s = true) :
    decodeUtf8 (encodeUtf8 s) = s := by
  rw [encodeUtf8,decodeUtf8_utf8,utf16_codePoints wellFormed]

end Decoding
end Unicode
