import Tonbankcard.EcmaScript
import Tonbankcard.TonCell

/-! The texts of an address: the user-friendly form, which is 36 bytes in URL-safe base 64 with a
tag in front and a checksum behind, and the raw form. -/
namespace Ton

open EcmaScript

section Base64

def char64 (value : Nat) : UInt16 :=
  if value < 26 then UInt16.ofNat (65 + value)
  else if value < 52 then UInt16.ofNat (71 + value)
  else if value < 62 then UInt16.ofNat (value - 4)
  else if value = 62 then 45 else 95

/-- Both alphabets are read. -/
def value64 (unit : UInt16) : Option Nat :=
  let code := unit.toNat
  if 65 ≤ code ∧ code ≤ 90 then some (code - 65)
  else if 97 ≤ code ∧ code ≤ 122 then some (code - 71)
  else if 48 ≤ code ∧ code ≤ 57 then some (code + 4)
  else if code = 45 ∨ code = 43 then some 62
  else if code = 95 ∨ code = 47 then some 63
  else none

theorem value64_char64 (small : value < 64) : value64 (char64 value) = some value := by
  revert value
  decide

def encode64 : Nat → Nat → JsString
  | 0, _ => []
  | width+1, value => encode64 width (value / 64) ++ [char64 (value % 64)]

def decode64 (text : JsString) : Option Nat :=
  text.foldlM (fun value unit => (value64 unit).map (value * 64 + ·)) 0

theorem encode64_length (width value : Nat) : (encode64 width value).length = width := by
  induction width generalizing value with
  | zero => rfl
  | succ width ih => rw [encode64,List.length_append,ih,List.length_singleton]

theorem decode64_encode64 (width value : Nat) (small : value < 64^width) :
    decode64 (encode64 width value) = some value := by
  induction width generalizing value with
  | zero =>
    have zero : value = 0 := by omega
    subst zero
    rfl
  | succ width ih =>
    have front : value / 64 < 64^width := by
      rw [Nat.pow_succ] at small
      omega
    have earlier := ih _ front
    unfold decode64 at earlier ⊢
    rw [encode64,List.foldlM_append,earlier,Option.bind_eq_bind,Option.bind_some,List.foldlM_cons,
      value64_char64 (Nat.mod_lt _ (by decide))]
    simp only [Option.map_some,Option.bind_eq_bind,Option.bind_some,List.foldlM_nil,
      Option.pure_def,Option.some.injEq]
    omega

end Base64

section Checksum

def crc16Step (reg : Nat) (bit : Bool) : Nat :=
  let shifted := 2 * reg + bit.toNat
  if 0xffff < shifted then (shifted % 0x10000) ^^^ 0x1021 else shifted

/-- The checksum of a number of bytes, with two bytes of zeros behind them. -/
def crc16 (bytes value : Nat) : Nat :=
  (uintBits (8 * bytes + 16) (value * 2^16)).foldl crc16Step 0

theorem crc16_lt (bytes value : Nat) : crc16 bytes value < 2^16 := by
  unfold crc16
  have kept (bits : List Bool) : ∀ reg, reg < 2^16 → bits.foldl crc16Step reg < 2^16 := by
    induction bits with
    | nil => exact fun _ small => small
    | cons bit rest ih =>
      intro reg small
      refine ih _ ?_
      unfold crc16Step
      simp only
      split
      · exact Nat.xor_lt_two_pow (Nat.mod_lt _ (by decide)) (by decide)
      · omega
  exact kept _ 0 (by decide)

end Checksum

section Addresses

def bounceableTag : Nat := 0x11
def nonBounceableTag : Nat := 0x51

namespace Address

def payload (a : Address) : Nat :=
  (bounceableTag * 2^8 + a.workchain.toNat) * 2^256 + a.account.toNat

/-- `toString` with its defaults: bounceable, not for tests only, URL-safe. -/
def friendly (a : Address) : JsString :=
  encode64 48 (a.payload * 2^16 + crc16 34 a.payload)

def ofPayload (payload : Nat) : Option Address :=
  if payload / 2^264 % 2^7 = bounceableTag ∨ payload / 2^264 % 2^7 = nonBounceableTag then
    some (newAddress (payload / 2^256 % 2^8) (payload % 2^256))
  else none

/-- `parseFriendly`, which ignores the flag of a test-only address. -/
def parseFriendly (text : JsString) : Option Address :=
  if text.length = 48 then
    (decode64 text).bind fun value =>
      if value % 2^16 = crc16 34 (value / 2^16) then ofPayload (value / 2^16) else none
  else none

def rawText (a : Address) : JsString :=
  decimal a.workchain.toInt ++ 58 :: fixedDigits 16 64 a.account.toNat

theorem payload_lt (a : Address) : a.payload < 2^272 := by
  have workchain : a.workchain.toNat < 2^8 := a.workchain.isLt
  have account : a.account.toNat < 2^256 := a.account.isLt
  unfold payload bounceableTag
  omega

theorem ofPayload_payload (a : Address) : ofPayload a.payload = some a := by
  have workchain : a.workchain.toNat < 2^8 := a.workchain.isLt
  have account : a.account.toNat < 2^256 := a.account.isLt
  have tag : a.payload / 2^264 % 2^7 = bounceableTag := by
    unfold payload bounceableTag
    omega
  have middle : a.payload / 2^256 % 2^8 = a.workchain.toNat := by
    unfold payload bounceableTag
    omega
  have back : a.payload % 2^256 = a.account.toNat := by
    unfold payload
    omega
  rw [ofPayload,if_pos (.inl tag),middle,back,newAddress,BitVec.ofNat_toNat,BitVec.ofNat_toNat,
    BitVec.setWidth_eq,BitVec.setWidth_eq]

theorem parseFriendly_friendly (a : Address) : parseFriendly a.friendly = some a := by
  have small := payload_lt a
  have checksum := crc16_lt 34 a.payload
  have written := ofPayload_payload a
  unfold friendly
  generalize a.payload = payload at *
  generalize crc : crc16 34 payload = sum at checksum
  have front : (payload * 2^16 + sum) / 2^16 = payload := by omega
  have back : (payload * 2^16 + sum) % 2^16 = sum := by omega
  rw [parseFriendly,if_pos (encode64_length _ _),decode64_encode64 48 _ (by omega),
    Option.bind_some,front,back,if_pos crc.symm,written]

example : friendly ⟨0,0⟩ = js "EQAAAAAAAAAAAAAAAAAAAAAAAAAAAAAAAAAAAAAAAAAAAM9c" := by
  decide +kernel

theorem rawText_injective : Function.Injective rawText := by
  intro a b same
  have lengths : (58 :: fixedDigits 16 64 a.account.toNat).length =
      (58 :: fixedDigits 16 64 b.account.toNat).length := by simp [fixedDigits_length]
  obtain ⟨workchains,accounts⟩ := List.append_inj' same lengths
  have workchain := BitVec.eq_of_toInt_eq (decimal_injective workchains)
  have values := congrArg (fixedValue 16) (List.cons.inj accounts).2
  rw [fixedValue_fixedDigits (by decide) (by decide),
    fixedValue_fixedDigits (by decide) (by decide)] at values
  have bound (c : Address) : c.account.toNat % 16^64 = c.account.toNat :=
    Nat.mod_eq_of_lt (lt_of_lt_of_eq c.account.isLt (by decide))
  rw [bound,bound] at values
  have account := BitVec.eq_of_toNat_eq values
  cases a; cases b
  simp_all

end Address
end Addresses
end Ton
