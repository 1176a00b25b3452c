import Mathlib.Data.List.Sort
import Mathlib.Data.Set.Defs
import Tonbankcard.MerchantApi

/-! Canonical JSON, the idempotency key and the payload hash over it, and the attestation of
settlement events. A payload hash pins the invoice id and the metadata it was made from, and
an attestation pins the event. -/
namespace Tonbankcard.MerchantApi

open EcmaScript

/-- What the service takes from its host: SHA-256 and HMAC-SHA256 of the UTF-8 encoding of a
string, and the text of a date. -/
structure Host where
  sha256 : JsString → BitVec 256
  hmacSha256 : JsString → JsString → BitVec 256
  isoText : Int → JsString

def hexDigest (digest : BitVec 256) : JsString := fixedDigits 16 64 digest.toNat

inductive JsValue where
  | undefined
  | null
  | boolean (b : Bool)
  | number (n : JsNumber)
  | string (s : JsString)
  | array (items : List JsValue)
  | object (fields : List (JsString × JsValue))

def MetadataValue.value : MetadataValue → JsValue
  | .string s => .string s
  | .number n => .number n
  | .boolean b => .boolean b

/-- The order of `Array.prototype.sort`, by code units. -/
abbrev KeyLe (a b : JsString × JsString) : Prop := a.1 ≤ b.1

mutual

/-- `none` where a value has no JSON representation. -/
def canonicalize : JsValue → Option JsString
  | .undefined => none
  | .null => some (js "null")
  | .boolean b => some (if b then js "true" else js "false")
  | .number n => some n.text
  | .string s => some (quote s)
  | .array items => some (91 :: ([44].intercalate (canonicalizeItems items) ++ [93]))
  | .object fields => some (objectText ((canonicalizeFields fields).insertionSort KeyLe))

def canonicalizeItems : List JsValue → List JsString
  | [] => []
  | item :: rest => (canonicalize item).getD (js "null") :: canonicalizeItems rest

def canonicalizeFields : List (JsString × JsValue) → List (JsString × JsString)
  | [] => []
  | (key,value) :: rest =>
    match canonicalize value with
    | none => canonicalizeFields rest
    | some serialized => (key,serialized) :: canonicalizeFields rest

end

def optionalValue : Option MetadataValue → JsValue
  | none => .undefined
  | some value => value.value

section Hashes
variable (host : Host)

def generateIdempotencyKey (request : CreateInvoiceRequest) (keyId : Option JsString) : JsString :=
  let metadata := match request.metadata with
    | none => []
    | some metadata => metadata.entries.map fun field => (field.1,optionalValue field.2)
  let data : JsValue := .object
    [(js "key_id",(keyId.map JsValue.string).getD .null),
      (js "merchant_nft",.string request.merchantNft),
      (js "amount_tbc",.string request.amountTbc),
      (js "currency",.string request.currency),
      (js "metadata",.object metadata),
      (js "expires_at",(request.expiresAt.map fun date => JsValue.string date.text).getD .null)]
  hexDigest (host.sha256 ((canonicalize data).getD []))

/-- The metadata with the invoice id in the place of any field of that name. -/
def payloadFields (metadata : Option InvoiceMetadata) (invoiceId : JsString) : InvoiceMetadata :=
  (metadata.getD JsMap.empty).set (js "invoice_id") (.string invoiceId)

def payloadText (metadata : Option InvoiceMetadata) (invoiceId : JsString) : JsString :=
  (canonicalize (.object ((payloadFields metadata invoiceId).entries.map
    fun field => (field.1,field.2.value)))).getD []

def hashMetadata (metadata : Option InvoiceMetadata) (invoiceId : JsString) : JsString :=
  hexDigest (host.sha256 (payloadText metadata invoiceId))

def generateDefaultExpiry (now : Int) : DateString :=
  ⟨host.isoText (now + defaultExpiryMs),now + defaultExpiryMs⟩

def getCurrentTimestamp (now : Int) : DateString := ⟨host.isoText now,now⟩

def generatePaymentUrl (invoiceId : JsString) : JsString :=
  js "https://wallet.tonbankcard.io/pay/" ++ invoiceId

def generateExplorerUrl (txHash : JsString) : JsString := js "https://tonscan.org/tx/" ++ txHash

def isExpired (expiresAt : DateString) (now : Int) : Bool := decide (expiresAt.time ≤ now)

/-- The largest distance of a date from the epoch. -/
def maxTime : Int := 8640000000000000

/-- `toISOString`, which throws a `RangeError` for an invalid date. -/
def toISOString (time : Int) : Option DateString :=
  if time.natAbs ≤ maxTime.natAbs then some ⟨host.isoText time,time⟩ else none

end Hashes

structure SettlementEvent where
  payerNft : JsString
  merchantNft : JsString
  amountTbc : JsString
  payloadHash : JsString
  blockNumber : Int
  txHash : JsString
  timestamp : Int
  deriving DecidableEq

section Attestation
variable (host : Host)

def settlementFields (event : SettlementEvent) : List (JsString × JsString) :=
  [(js "amount_tbc",quote event.amountTbc),
    (js "block_number",decimal event.blockNumber),
    (js "merchant_nft",quote event.merchantNft),
    (js "payer_nft",quote event.payerNft),
    (js "payload_hash",quote event.payloadHash),
    (js "timestamp",decimal event.timestamp),
    (js "tx_hash",quote event.txHash)]

def canonicalizeSettlementEvent (event : SettlementEvent) : JsString :=
  objectText (settlementFields event)

def signSettlementEvent (secret : JsString) (event : SettlementEvent) : JsString :=
  hexDigest (host.hmacSha256 secret (canonicalizeSettlementEvent event))

/-- `timingSafeEqual` throws, here `none`, for buffers of different lengths. -/
def constantTimeEqual (a b : JsString) : Option Bool :=
  if a.length ≠ b.length then some false
  else if utf8Length a ≠ utf8Length b then none
  else some (a = b)

def verifySettlementAttestation (secret : JsString) (event : SettlementEvent)
    (attestation : Option JsString) : Option Bool :=
  match attestation with
  | none => some false
  | some attestation =>
    if attestation.isEmpty then some false
    else constantTimeEqual attestation (signSettlementEvent host secret event)

end Attestation

section Pinning
variable {host : Host}

/-- What a digest is trusted with: of the texts given, no two that UTF-8 can tell apart have
the same one. -/
def CollisionFree (digest : JsString → BitVec 256) (texts : Set JsString) : Prop :=
  ∀ text ∈ texts, ∀ other ∈ texts, isWellFormed text = true → isWellFormed other = true →
    digest text = digest other → text = other

theorem hexDigest_injective : Function.Injective hexDigest := by
  intro digest other same
  have value (digest : BitVec 256) : fixedValue 16 (hexDigest digest) = digest.toNat := by
    rw [hexDigest,fixedValue_fixedDigits (by decide) (by decide)]
    exact Nat.mod_eq_of_lt digest.isLt
  exact BitVec.eq_of_toNat_eq (by rw [← value,same,value])

theorem decimal_scalar (n : Int) : Scalar (decimal n) :=
  .inr ⟨(JsNumber.ofInt n).filled,fun _ member => (decimal_plain member).1⟩

theorem decimal_wellFormed (n : Int) : isWellFormed (decimal n) = true :=
  isWellFormed_ascii fun _ member => (decimal_plain member).2

theorem MetadataValue.text_scalar (value : MetadataValue) : Scalar value.text := by
  cases value with
  | string s => exact .inl ⟨s,rfl⟩
  | number n => exact .inr ⟨n.filled,fun unit member => (n.plain unit member).1⟩
  | boolean b => cases b <;> exact .inr (by simp [text,js,isPlain])

theorem MetadataValue.text_wellFormed (value : MetadataValue) :
    isWellFormed value.text = true := by
  cases value with
  | string s => exact quote_wellFormed s
  | number n => exact isWellFormed_ascii fun unit member => (n.plain unit member).2
  | boolean b => cases b <;> decide

theorem canonicalizeFields_values (fields : List (JsString × MetadataValue)) :
    canonicalizeFields (fields.map fun field => (field.1,field.2.value)) =
      fields.map fun field => (field.1,field.2.text) := by
  induction fields with
  | nil => simp [canonicalizeFields]
  | cons field rest ih =>
    obtain ⟨key,value⟩ := field
    have serialized : canonicalize value.value = some value.text := by
      cases value with
      | string s => simp [MetadataValue.value,MetadataValue.text,canonicalize]
      | number n => simp [MetadataValue.value,MetadataValue.text,canonicalize]
      | boolean b => cases b <;> simp [MetadataValue.value,MetadataValue.text,canonicalize]
    simp only [List.map_cons,canonicalizeFields,serialized,ih]

theorem payloadText_eq (metadata : Option InvoiceMetadata) (invoiceId : JsString) :
    payloadText metadata invoiceId = objectText (((payloadFields metadata invoiceId).entries.map
      fun field => (field.1,field.2.text)).insertionSort KeyLe) := by
  simp only [payloadText,canonicalize,canonicalizeFields_values,Option.getD_some]

theorem member_texts {fields : List (JsString × MetadataValue)}
    (member : field ∈ (fields.map fun field => (field.1,field.2.text)).insertionSort KeyLe) :
    ∃ value : MetadataValue, (field.1,value) ∈ fields ∧ field.2 = value.text := by
  obtain ⟨⟨key,value⟩,held,rfl⟩ := List.mem_map.mp ((List.mem_insertionSort KeyLe).mp member)
  exact ⟨value,held,rfl⟩

theorem payloadText_wellFormed (metadata : Option InvoiceMetadata) (invoiceId : JsString) :
    isWellFormed (payloadText metadata invoiceId) = true := by
  rw [payloadText_eq]
  refine objectText_wellFormed fun field member => ?_
  obtain ⟨value,-,text⟩ := member_texts member
  rw [text]
  exact value.text_wellFormed

/-- Equal payload texts hold the same members. -/
theorem payloadText_members (same : payloadText metadata invoiceId = payloadText metadata' other)
    (found : (payloadFields metadata invoiceId).get key = some value) :
    ∃ value' : MetadataValue, (payloadFields metadata' other).get key = some value' ∧
      value.text = value'.text := by
  rw [payloadText_eq,payloadText_eq] at same
  have scalars (fields : List (JsString × MetadataValue)) :
      ∀ field ∈ (fields.map fun field => (field.1,field.2.text)).insertionSort KeyLe,
        Scalar field.2 := by
    intro field member
    obtain ⟨value,-,text⟩ := member_texts member
    rw [text]
    exact value.text_scalar
  have lists := objectText_injective (scalars _) (scalars _) same
  have member : (key,value.text) ∈ ((payloadFields metadata invoiceId).entries.map
      fun field => (field.1,field.2.text)).insertionSort KeyLe :=
    (List.mem_insertionSort KeyLe).mpr (List.mem_map.mpr
      ⟨(key,value),(JsMap.mem_entries_iff _ _ _).mpr found,rfl⟩)
  obtain ⟨value',member,text⟩ := member_texts (lists ▸ member)
  exact ⟨value',(JsMap.mem_entries_iff _ _ _).mp member,text⟩

/-- A payload hash pins the invoice id and the text of every other field. -/
theorem hashMetadata_pins (free : CollisionFree host.sha256 texts)
    (known : payloadText metadata invoiceId ∈ texts) (known' : payloadText metadata' other ∈ texts)
    (same : hashMetadata host metadata invoiceId = hashMetadata host metadata' other) :
    invoiceId = other ∧ ∀ key, key ≠ js "invoice_id" →
      ((metadata.getD JsMap.empty).get key).map MetadataValue.text =
        ((metadata'.getD JsMap.empty).get key).map MetadataValue.text := by
  have texts := free _ known _ known' (payloadText_wellFormed _ _) (payloadText_wellFormed _ _)
    (hexDigest_injective same)
  constructor
  · have named : (payloadFields metadata invoiceId).get (js "invoice_id") =
        some (.string invoiceId) := by rw [payloadFields,JsMap.get_set,if_pos rfl]
    obtain ⟨value,found,text⟩ := payloadText_members texts named
    rw [payloadFields,JsMap.get_set,if_pos rfl,Option.some.injEq] at found
    subst found
    exact quote_injective text
  · intro key apart
    have get (metadata : Option InvoiceMetadata) (invoiceId : JsString) :
        (payloadFields metadata invoiceId).get key = (metadata.getD JsMap.empty).get key := by
      rw [payloadFields,JsMap.get_set,if_neg apart]
    rw [← get metadata invoiceId,← get metadata' other]
    cases found : (payloadFields metadata invoiceId).get key with
    | some value =>
      obtain ⟨value',found',text⟩ := payloadText_members texts found
      rw [found',Option.map_some,Option.map_some,text]
    | none =>
      cases found' : (payloadFields metadata' other).get key with
      | none => rfl
      | some value' =>
        obtain ⟨value,contrary,-⟩ := payloadText_members texts.symm found'
        simp [found] at contrary

theorem settlementFields_scalar (event : SettlementEvent) :
    ∀ field ∈ settlementFields event, Scalar field.2 := by
  simp only [settlementFields,List.forall_mem_cons,List.not_mem_nil,false_implies,implies_true,
    and_true]
  exact ⟨.inl ⟨_,rfl⟩,decimal_scalar _,.inl ⟨_,rfl⟩,.inl ⟨_,rfl⟩,.inl ⟨_,rfl⟩,
    decimal_scalar _,.inl ⟨_,rfl⟩⟩

theorem canonicalizeSettlementEvent_injective :
    Function.Injective canonicalizeSettlementEvent := by
  intro event other same
  have fields := objectText_injective (settlementFields_scalar event)
    (settlementFields_scalar other) same
  simp only [settlementFields,List.cons.injEq,Prod.mk.injEq,true_and,and_true] at fields
  obtain ⟨amountTbc,blockNumber,merchantNft,payerNft,payloadHash,timestamp,txHash⟩ := fields
  cases event
  cases other
  simp only [SettlementEvent.mk.injEq]
  exact ⟨quote_injective payerNft,quote_injective merchantNft,quote_injective amountTbc,
    quote_injective payloadHash,decimal_injective blockNumber,quote_injective txHash,
    decimal_injective timestamp⟩

theorem canonicalizeSettlementEvent_wellFormed (event : SettlementEvent) :
    isWellFormed (canonicalizeSettlementEvent event) = true := by
  refine objectText_wellFormed ?_
  simp only [settlementFields,List.forall_mem_cons,List.not_mem_nil,false_implies,implies_true,
    and_true]
  exact ⟨quote_wellFormed _,decimal_wellFormed _,quote_wellFormed _,quote_wellFormed _,
    quote_wellFormed _,decimal_wellFormed _,quote_wellFormed _⟩

/-- A verified attestation is the one of the event. -/
theorem verified_signed
    (verified : verifySettlementAttestation host secret event attestation = some true) :
    attestation = some (signSettlementEvent host secret event) := by
  unfold verifySettlementAttestation at verified
  split at verified
  · simp at verified
  · rename_i attestation
    rcases ite_eq_iff.mp verified with ⟨-,refused⟩ | ⟨-,verified⟩
    · simp at refused
    unfold constantTimeEqual at verified
    split at verified
    · simp at verified
    · split at verified
      · simp at verified
      · simpa using verified

/-- Two events verified with one attestation are the same event. -/
theorem verified_event (free : CollisionFree (host.hmacSha256 secret) texts)
    (known : canonicalizeSettlementEvent event ∈ texts)
    (known' : canonicalizeSettlementEvent other ∈ texts)
    (verified : verifySettlementAttestation host secret event attestation = some true)
    (verified' : verifySettlementAttestation host secret other attestation = some true) :
    event = other := by
  have same := (verified_signed verified).symm.trans (verified_signed verified')
  have texts := free _ known _ known' (canonicalizeSettlementEvent_wellFormed _)
    (canonicalizeSettlementEvent_wellFormed _) (hexDigest_injective (Option.some.inj same))
  exact canonicalizeSettlementEvent_injective texts

end Pinning
end Tonbankcard.MerchantApi
