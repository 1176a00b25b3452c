import Tonbankcard.JsObject
import Tonbankcard.JsonText
import Tonbankcard.Unicode

/-! The signature of payment notifications: the payload is parsed, its keys are sorted at every
level, and the text that is printed of it is signed. Two payloads have one canonical text exactly if
they agree without what an assignment and a printed number lose. -/
namespace Tonbankcard.NowPayments

open EcmaScript Unicode

section Source

mutual

def sortObjectKeys : Json → Json
  | .array items => .array (sortItems items)
  | .object members => .object (assigned (parsed (sortMembers members)).entries)
  | value => value

def sortItems : List Json → List Json
  | [] => []
  | item :: rest => sortObjectKeys item :: sortItems rest

/-- Of repeated members all are sorted here and the last is read. -/
def sortMembers : List (JsString × Json) → List (JsString × Json)
  | [] => []
  | (name,value) :: rest => (name,sortObjectKeys value) :: sortMembers rest

end

/-- None is the error that `JSON.parse` throws. -/
def canonicalizePayload (payload : JsString) : Option JsString :=
  (Json.parse payload).map fun parsed => Json.stringify (sortObjectKeys parsed)

/-- HMAC-SHA512 with a key of a message. -/
structure Host where
  hmacSha512 : List UInt8 → List UInt8 → BitVec 512

def calculateHMAC (host : Host) (data secret : JsString) : JsString :=
  fixedDigits 16 128 (host.hmacSha512 (encodeUtf8 secret) (encodeUtf8 data)).toNat

def constantTimeCompare (a b : JsString) : Bool :=
  let bufferA := encodeUtf8 a
  let bufferB := encodeUtf8 b
  bufferA.length = bufferB.length && bufferA = bufferB

def verifyCallback (host : Host) (ipnSecretKey : Option JsString) (payload signature : JsString) :
    Except String Bool :=
  match ipnSecretKey.filter (!·.isEmpty) with
  | none => .error "IPN Secret Key is required for webhook verification"
  | some secret =>
    if signature.isEmpty then .ok false
    else match canonicalizePayload payload with
      | none => .ok false
      | some canonicalPayload =>
        .ok (constantTimeCompare signature (calculateHMAC host canonicalPayload secret))

end Source

section Values

/-- Equality of parsed values: items in their order, and objects by what their names stand for. -/
inductive Same : Json → Json → Prop
  | null : Same .null .null
  | boolean (value : Bool) : Same (.boolean value) (.boolean value)
  | number (value : Number) : Same (.number value) (.number value)
  | string (text : JsString) : Same (.string text) (.string text)
  | array {items others : List Json} (length : items.length = others.length)
      (each : ∀ (i : Nat) item other, items[i]? = some item → others[i]? = some other →
        Same item other) : Same (.array items) (.array others)
  | object {members others : List (JsString × Json)}
      (names : ∀ name, ((parsed members).get name).isSome = ((parsed others).get name).isSome)
      (each : ∀ name value other, (parsed members).get name = some value →
        (parsed others).get name = some other → Same value other) :
      Same (.object members) (.object others)

mutual

/-- What is left of a value in its canonical text: no member `__proto__`, and null for a number
that is not finite. -/
def kept : Json → Json
  | .number (.finite q) => .number (.finite q)
  | .number _ => .null
  | .array items => .array (keptItems items)
  | .object members => .object (keptMembers members)
  | value => value

def keptItems : List Json → List Json
  | [] => []
  | item :: rest => kept item :: keptItems rest

def keptMembers : List (JsString × Json) → List (JsString × Json)
  | [] => []
  | (name,value) :: rest =>
    if name = js "__proto__" then keptMembers rest else (name,kept value) :: keptMembers rest

end

end Values

section Canonical

end Canonical

section Signatures
variable (host : Host) (ipnSecretKey : Option JsString) (payload other : JsString)

/-- Two payloads have one canonical text exactly if their values are equal, and no signature is
accepted for two that are not. -/
structure Faithful (value value' : Json) : Prop where
  canonical : canonicalizePayload payload = canonicalizePayload other ↔ Same value value'
  signatures : ∀ signature, verifyCallback host ipnSecretKey payload signature = .ok true →
    verifyCallback host ipnSecretKey other signature = .ok true → Same value value'

/-- No two of the texts have one digest. -/
def CollisionFree (digest : List UInt8 → BitVec 512) (texts : Set (List UInt8)) : Prop :=
  ∀ a ∈ texts, ∀ b ∈ texts, digest a = digest b → a = b

theorem fixedValue_digest {n : Nat} (digest : BitVec (4 * n)) :
    fixedValue 16 (fixedDigits 16 n digest.toNat) = digest.toNat := by
  rw [fixedValue_fixedDigits (by decide) (by decide)]
  apply Nat.mod_eq_of_lt
  exact digest.isLt.trans_eq (Nat.pow_mul 2 4 n)

theorem hexDigest_injective {digest digest' : BitVec 512}
    (same : fixedDigits 16 128 digest.toNat = fixedDigits 16 128 digest'.toNat) :
    digest = digest' := by
  have value (digest : BitVec 512) : fixedValue 16 (fixedDigits 16 128 digest.toNat) =
      digest.toNat := fixedValue_digest (n := 128) digest
  rw [← BitVec.toNat_inj,← value digest,same,value]

end Signatures

section Notifications

/-- The digest of the sorted sample under the sample secret. -/
def sampleHost : Host where
  hmacSha512 _ _ := 0xffd340ee9156f3cd3770f47bc8510f5eae8e2733dfce3641b5881bcd9621da08b6bf2506ec3e2dc8a4c344e9d393a283ce5b4c1ae2b936011cefd4567bc5385b#512

end Notifications

end Tonbankcard.NowPayments
