import Tonbankcard.Base64Url

/-! Secrets encrypted at rest: AES-256-GCM under a derived key, kept as a text of four parts. -/
namespace Tonbankcard.SecretCipher

open EcmaScript Unicode

/-- The cipher, with the derivation of its key from a text. What was enciphered under a nonce
of twelve bytes is deciphered again; a failure has a message. -/
structure Aead where
  deriveKey : List UInt8 → List UInt8
  encipher : (key iv plaintext : List UInt8) → List UInt8 × List UInt8
  decipher : (key iv authTag ciphertext : List UInt8) → Except JsString (List UInt8)
  decipher_encipher : ∀ keyMaterial iv plaintext, iv.length = 12 →
    decipher (deriveKey keyMaterial) iv (encipher (deriveKey keyMaterial) iv plaintext).2
      (encipher (deriveKey keyMaterial) iv plaintext).1 = .ok plaintext

section Base64

def standard64 (value : Nat) : UInt16 :=
  if value = 62 then 43 else if value = 63 then 47 else Ton.char64 value

/-- `Buffer.prototype.toString('base64')` -/
def toBase64 (data : List UInt8) : JsString :=
  (Base64Url.sextets data).map standard64 ++ List.replicate ((3 - data.length % 3) % 3) 61

/-- `Buffer.from(text, 'base64')` -/
def fromBase64 (text : JsString) : List UInt8 :=
  Base64Url.bytes ((text.takeWhile (· ≠ 61)).filterMap Ton.value64)

theorem standard64_read {value : Nat} (small : value < 64) :
    Ton.value64 (standard64 value) = some value ∧ standard64 value ≠ 61 ∧
      standard64 value ≠ 58 := by
  revert value
  decide

theorem fromBase64_toBase64 (data : List UInt8) : fromBase64 (toBase64 data) = data := by
  have digits {values : List Nat} (small : ∀ digit ∈ values, digit < 64) (count : Nat) :
      ((values.map standard64 ++ List.replicate count 61).takeWhile (· ≠ 61)).filterMap
        Ton.value64 = values := by
    induction values with
    | nil => cases count <;> simp [List.replicate_succ]
    | cons digit rest ih =>
      obtain ⟨first,rest⟩ := List.forall_mem_cons.mp small
      obtain ⟨value,apart,-⟩ := standard64_read first
      rw [List.map_cons,List.cons_append,List.takeWhile_cons,if_pos (decide_eq_true apart),
        List.filterMap_cons_some value,ih rest]
  rw [fromBase64,toBase64,digits Base64Url.sextets_lt,Base64Url.bytes_sextets]

/-- No colon is a digit. -/
theorem toBase64_colon (data : List UInt8) : 58 ∉ toBase64 data := by
  intro member
  rcases List.mem_append.mp member with digit | padding
  · obtain ⟨value,sextet,same⟩ := List.mem_map.mp digit
    exact (standard64_read (Base64Url.sextets_lt value sextet)).2.2 same
  · exact absurd (List.eq_of_mem_replicate padding) (by decide)

end Base64

section Cipher

variable (aead : Aead) (keyMaterial : List Char)

def schemeVersion : JsString := js "v1"

def key : List UInt8 := aead.deriveKey (utf8 keyMaterial)

/-- The nonce comes from a generator. -/
def encrypt (iv : List UInt8) (plaintext : List Char) : JsString :=
  let (ciphertext,authTag) := aead.encipher (key aead keyMaterial) iv (utf8 plaintext)
  [58].intercalate [schemeVersion,toBase64 iv,toBase64 authTag,toBase64 ciphertext]

/-- The characters that bytes stand for. -/
def text (bytes : List UInt8) : List Char := (decodePoints none bytes).map Char.ofNat

/-- The messages of `SecretDecryptionError`. -/
def decrypt (value : JsString) : Except JsString (List Char) :=
  match value.splitOn 58 with
  | [version,ivB64,tagB64,dataB64] =>
    if version ≠ schemeVersion then
      .error (js "Unsupported ciphertext scheme: " ++ version)
    else
      match aead.decipher (key aead keyMaterial) (fromBase64 ivB64) (fromBase64 tagB64)
        (fromBase64 dataB64) with
      | .error message => .error (js "Failed to decrypt secret: " ++ message)
      | .ok plaintext => .ok (text plaintext)
  | _ => .error (js "Malformed ciphertext: expected 4 segments")

variable {aead keyMaterial}

theorem text_utf8 (plaintext : List Char) : text (utf8 plaintext) = plaintext := by
  rw [text,decodePoints_utf8,List.map_map]
  exact (List.map_congr_left fun c _ => Char.ofNat_toNat c).trans (List.map_id plaintext)

theorem encrypt_parts (iv : List UInt8) (plaintext : List Char) :
    (encrypt aead keyMaterial iv plaintext).splitOn 58 =
      [schemeVersion,toBase64 iv,
        toBase64 (aead.encipher (key aead keyMaterial) iv (utf8 plaintext)).2,
        toBase64 (aead.encipher (key aead keyMaterial) iv (utf8 plaintext)).1] := by
  refine List.splitOn_intercalate 58 ?_ (List.cons_ne_nil _ _)
  simp only [List.forall_mem_cons]
  exact ⟨by decide,toBase64_colon _,toBase64_colon _,toBase64_colon _,nofun⟩

/-- A secret is recovered from what is kept of it. -/
theorem decrypt_encrypt {iv : List UInt8} (nonce : iv.length = 12) (plaintext : List Char) :
    decrypt aead keyMaterial (encrypt aead keyMaterial iv plaintext) = .ok plaintext := by
  have opened := aead.decipher_encipher (utf8 keyMaterial) iv (utf8 plaintext) nonce
  rw [decrypt,encrypt_parts]
  simp only [fromBase64_toBase64]
  rw [if_neg (not_not_intro rfl),key,opened]
  simp only [text_utf8]

end Cipher
end Tonbankcard.SecretCipher
