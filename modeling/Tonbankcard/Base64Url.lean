import Tonbankcard.TonAddress
import Tonbankcard.Unicode

/-! Text in URL-safe base 64 as `Buffer` writes and reads it: the UTF-8 bytes, three of them in
four digits, and no padding. -/
namespace Base64Url

open EcmaScript

/-- The digits of bytes. -/
def sextets : List UInt8 → List Nat
  | [] => []
  | [a] => [a.toNat / 4,a.toNat % 4 * 16]
  | [a,b] => [a.toNat / 4,a.toNat % 4 * 16 + b.toNat / 16,b.toNat % 16 * 4]
  | a :: b :: c :: rest => a.toNat / 4 :: (a.toNat % 4 * 16 + b.toNat / 16) ::
      (b.toNat % 16 * 4 + c.toNat / 64) :: c.toNat % 64 :: sextets rest

/-- The bytes that digits make up; bits that are left over are dropped. -/
def bytes : List Nat → List UInt8
  | a :: b :: c :: d :: rest => UInt8.ofNat (a * 4 + b / 16) ::
      UInt8.ofNat (b % 16 * 16 + c / 4) :: UInt8.ofNat (c % 4 * 64 + d) :: bytes rest
  | [a,b,c] => [UInt8.ofNat (a * 4 + b / 16),UInt8.ofNat (b % 16 * 16 + c / 4)]
  | [a,b] => [UInt8.ofNat (a * 4 + b / 16)]
  | _ => []

/-- `Buffer.from(text).toString('base64url')` -/
def encode (text : JsString) : JsString :=
  (sextets (Unicode.encodeUtf8 text)).map Ton.char64

/-- `Buffer.from(encoded, 'base64url').toString('utf8')`, which stops at padding and passes over
what is no digit. -/
def decode (encoded : JsString) : JsString :=
  Unicode.decodeUtf8 (bytes ((encoded.takeWhile (· ≠ 61)).filterMap Ton.value64))

theorem sextets_lt {data : List UInt8} : ∀ digit ∈ sextets data, digit < 64 := by
  induction data using sextets.induct with
  | case1 => simp [sextets]
  | case2 a =>
    have := a.toNat_lt
    simp only [sextets,List.forall_mem_cons,List.not_mem_nil,false_implies,implies_true,and_true]
    omega
  | case3 a b =>
    have := a.toNat_lt
    have := b.toNat_lt
    simp only [sextets,List.forall_mem_cons,List.not_mem_nil,false_implies,implies_true,and_true]
    omega
  | case4 a b c rest ih =>
    have := a.toNat_lt
    have := b.toNat_lt
    have := c.toNat_lt
    simp only [sextets,List.forall_mem_cons]
    exact ⟨by omega,by omega,by omega,by omega,ih⟩

theorem ofNat_eq (byte : UInt8) {n : Nat} (same : n = byte.toNat) : UInt8.ofNat n = byte := by
  rw [same,UInt8.ofNat_toNat]

theorem bytes_sextets (data : List UInt8) : bytes (sextets data) = data := by
  induction data using sextets.induct with
  | case1 => rfl
  | case2 a => rw [sextets,bytes,ofNat_eq a (by omega)]
  | case3 a b =>
    have := b.toNat_lt
    rw [sextets,bytes,ofNat_eq a (by omega),ofNat_eq b (by omega)]
  | case4 a b c rest ih =>
    have := b.toNat_lt
    have := c.toNat_lt
    rw [sextets,bytes,ofNat_eq a (by omega),ofNat_eq b (by omega),
      ofNat_eq c (by omega),ih]

theorem char64_digit {value : Nat} (small : value < 64) : Ton.char64 value ≠ 61 := by
  revert value
  decide

/-- The text of a string with a UTF-8 encoding reads back. -/
theorem decode_encode {text : JsString} (wellFormed : isWellFormed text = true) :
    decode (encode text) = text := by
  have digits {data : List Nat} (small : ∀ digit ∈ data, digit < 64) :
      ((data.map Ton.char64).takeWhile (· ≠ 61)).filterMap Ton.value64 = data := by
    induction data with
    | nil => rfl
    | cons digit rest ih =>
      obtain ⟨first,rest⟩ := List.forall_mem_cons.mp small
      simp [char64_digit first,Ton.value64_char64 first]
      simpa using ih rest
  rw [decode,encode,digits sextets_lt,bytes_sextets,Unicode.decodeUtf8_encodeUtf8 wellFormed]

theorem encode_unit {text : JsString} (member : unit ∈ encode text) :
    ∃ value < 64, unit = Ton.char64 value := by
  obtain ⟨value,digit,rfl⟩ := List.mem_map.mp member
  exact ⟨value,sextets_lt value digit,rfl⟩

end Base64Url
