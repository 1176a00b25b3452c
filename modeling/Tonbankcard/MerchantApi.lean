import Mathlib.Algebra.Group.Int.Defs
import Tonbankcard.EcmaScript
import Tonbankcard.JsMap

/-! The invoices of the merchant API, the requests that create them and how these are
validated, with the API's error codes and texts. -/
namespace Tonbankcard.MerchantApi

open EcmaScript

inductive MetadataValue where
  | string (s : JsString)
  | number (n : JsNumber)
  | boolean (b : Bool)
  deriving DecidableEq

/-- Stored metadata, its fields in insertion order. -/
abbrev InvoiceMetadata := JsMap JsString MetadataValue

/-- A date string with the time it parses to, in milliseconds of the epoch. -/
structure DateString where
  text : JsString
  time : Int
  deriving DecidableEq

inductive InvoiceStatus where
  | pending
  | settled
  | expired
  deriving DecidableEq, Repr

structure Settlement where
  payerNft : JsString
  merchantNft : JsString
  amountTbc : JsString
  blockNumber : Int
  txHash : JsString
  timestamp : DateString
  payloadHash : JsString
  onChainVerified : Bool
  verificationUrl : JsString
  confirmations : Int
  isFinal : Bool
  deriving DecidableEq

structure Invoice where
  invoiceId : JsString
  merchantNft : JsString
  amountTbc : JsString
  currency : JsString
  metadata : Option InvoiceMetadata
  status : InvoiceStatus
  createdAt : DateString
  expiresAt : DateString
  paymentUrl : JsString
  settlement : Option Settlement
  deriving DecidableEq

/-- A request for an invoice; a metadata field may be there without a value. -/
structure CreateInvoiceRequest where
  merchantNft : JsString
  amountTbc : JsString
  currency : JsString
  metadata : Option (JsMap JsString (Option MetadataValue))
  expiresAt : Option DateString
  deriving DecidableEq

inductive ErrorCode where
  | unauthorizedMerchant
  | invalidNftAddress
  | nftNotWhitelisted
  | invalidAmount
  | invalidMetadata
  | invoiceNotFound
  | untrustedSettlementSource
  deriving DecidableEq, Repr

structure ValidationError where
  code : ErrorCode
  message : String
  deriving DecidableEq, Repr

def whitelistedNftCollections : List JsString :=
  [js "EQAjHkHtt1MIoU5c7dks73Rz8NMxAA3oStSrcQ_qgn3il-Le",
    js "EQBedyJo8oEKJEmGUaxPELXM8dQUzXN3QYx7e8WBsfu9aVQ7"]

def maxTbcAmount : Int := 2^120 - 1
def maxMetadataFields : Nat := 10
def maxMetadataSize : Nat := 1024
def defaultExpiryMs : Int := 24 * 60 * 60 * 1000
def minConfirmations : Int := 6
def idempotencyTtlMs : Int := 24 * 60 * 60 * 1000

section Validation

def check (condition : Bool) (code : ErrorCode) (message : String) : Except ValidationError Unit :=
  if condition then .ok () else .error ⟨code,message⟩

def isDigitUnit (unit : UInt16) : Bool := 48 ≤ unit && unit ≤ 57
def isUpperUnit (unit : UInt16) : Bool := 65 ≤ unit && unit ≤ 90
def isLowerUnit (unit : UInt16) : Bool := 97 ≤ unit && unit ≤ 122
def isWordUnit (unit : UInt16) : Bool :=
  isDigitUnit unit || isUpperUnit unit || isLowerUnit unit || unit == 95

/-- `/^[Ek][Qq][A-Za-z0-9_-]{46}$/` -/
def isTonAddress : JsString → Bool
  | first :: second :: rest => (first == 69 || first == 107) && (second == 81 || second == 113) &&
      rest.length == 46 && rest.all (fun unit => isWordUnit unit || unit == 45)
  | _ => false

def validateTonAddress (address : JsString) : Except ValidationError Unit := do
  check (!address.isEmpty) .invalidNftAddress "Address must be a non-empty string"
  check (isTonAddress address) .invalidNftAddress "Invalid TON address format"

def validateWhitelistedNFT (nftAddress : JsString) : Except ValidationError Unit := do
  validateTonAddress nftAddress
  check (nftAddress ∈ whitelistedNftCollections) .nftNotWhitelisted
    "NFT address is not from a whitelisted collection"

def isWhiteSpace (unit : UInt16) : Bool :=
  unit ∈ [9,10,11,12,13,32,0xA0,0x1680,0x2028,0x2029,0x202F,0x205F,0x3000,0xFEFF] ||
    (0x2000 ≤ unit && unit ≤ 0x200A)

def trim (s : JsString) : JsString :=
  ((s.dropWhile isWhiteSpace).reverse.dropWhile isWhiteSpace).reverse

def digitOf (base : Nat) (unit : UInt16) : Option Nat :=
  let value := if isDigitUnit unit then unit.toNat - 48
    else if isUpperUnit unit then unit.toNat - 55
    else if isLowerUnit unit then unit.toNat - 87
    else base
  if value < base then some value else none

def digitsValue (base : Nat) (s : JsString) : Option Nat :=
  if s.isEmpty then none
  else s.foldlM (fun value unit => (digitOf base unit).map (value * base + ·)) 0

/-- `BigInt` of a string, `none` where it throws. -/
def bigInt (s : JsString) : Option Int :=
  match trim s with
  | [] => some 0
  | 48 :: 120 :: rest | 48 :: 88 :: rest => (digitsValue 16 rest).map Int.ofNat
  | 48 :: 111 :: rest | 48 :: 79 :: rest => (digitsValue 8 rest).map Int.ofNat
  | 48 :: 98 :: rest | 48 :: 66 :: rest => (digitsValue 2 rest).map Int.ofNat
  | 45 :: rest => (digitsValue 10 rest).map (fun value => -Int.ofNat value)
  | 43 :: rest => (digitsValue 10 rest).map Int.ofNat
  | whole => (digitsValue 10 whole).map Int.ofNat

/-- `/^[1-9][0-9]*$/` -/
def isCanonicalDecimal : JsString → Bool
  | first :: rest => 49 ≤ first && first ≤ 57 && rest.all isDigitUnit
  | [] => false

def validateAmount (amountTbc : JsString) : Except ValidationError Unit := do
  check (!amountTbc.isEmpty) .invalidAmount "Amount must be a non-empty string"
  match bigInt amountTbc with
  | none => .error ⟨.invalidAmount,"Amount must be a valid integer"⟩
  | some amount => do
    check (0 < amount) .invalidAmount "Amount must be greater than zero"
    check (amount ≤ maxTbcAmount) .invalidAmount "Amount exceeds maximum allowed value"
    check (isCanonicalDecimal amountTbc) .invalidAmount
      "Amount must be a canonical positive decimal integer (no signs, whitespace, leading zeros, or 0x/0o/0b prefixes)"

def MetadataValue.text : MetadataValue → JsString
  | .string s => quote s
  | .number n => n.text
  | .boolean true => js "true"
  | .boolean false => js "false"

/-- The bytes that `TextEncoder` makes of a string. -/
def utf8Length : JsString → Nat
  | [] => 0
  | [unit] => if unit < 0x80 then 1 else if unit < 0x800 then 2 else 3
  | unit :: next :: rest =>
    if isLeading unit && isTrailing next then 4 + utf8Length rest
    else (if unit < 0x80 then 1 else if unit < 0x800 then 2 else 3) + utf8Length (next :: rest)

/-- The members of an object that have a value. -/
def definedFields (fields : List (JsString × Option MetadataValue)) :
    List (JsString × MetadataValue) :=
  fields.filterMap (fun field => field.2.map (fun value => (field.1,value)))

def metadataJson (fields : List (JsString × MetadataValue)) : JsString :=
  objectText (fields.map fun field => (field.1,field.2.text))

def validateMetadataKeys : List JsString → Except ValidationError Unit
  | [] => .ok ()
  | key :: rest => do
    check (!key.isEmpty && key.all isWordUnit) .invalidMetadata
      "Metadata keys must be alphanumeric with underscores"
    check (key ≠ js "invoice_id") .invalidMetadata
      "Metadata key 'invoice_id' is reserved and cannot be used"
    validateMetadataKeys rest

def validateMetadata : Option (JsMap JsString (Option MetadataValue)) →
    Except ValidationError Unit
  | none => .ok ()
  | some metadata => do
    let fields := metadata.entries
    check (fields.length ≤ maxMetadataFields) .invalidMetadata
      "Metadata cannot have more than 10 fields"
    validateMetadataKeys (fields.map Prod.fst)
    check (utf8Length (metadataJson (definedFields fields)) ≤ maxMetadataSize) .invalidMetadata
      "Metadata size exceeds 1024 bytes"

def validateExpirationTime (expiresAt : DateString) (now : Int) : Except ValidationError Unit :=
  check (now < expiresAt.time) .invalidMetadata "Expiration time must be in the future"

/-- The five checks of `createInvoice`, in their order. -/
def validateCreateInvoiceRequest (request : CreateInvoiceRequest) (now : Int) :
    Except ValidationError Unit := do
  validateWhitelistedNFT request.merchantNft
  validateAmount request.amountTbc
  check (request.currency = js "TBC") .invalidMetadata "Currency must be \"TBC\""
  validateMetadata request.metadata
  match request.expiresAt with
  | some expiresAt => validateExpirationTime expiresAt now
  | none => .ok ()

/-- `/^inv_[a-f0-9]{16}$/` -/
def isInvoiceId (invoiceId : JsString) : Bool :=
  invoiceId.take 4 == js "inv_" && (invoiceId.drop 4).length == 16 &&
    (invoiceId.drop 4).all (fun unit => isDigitUnit unit || (97 ≤ unit && unit ≤ 102))

def validateInvoiceId (invoiceId : JsString) : Except ValidationError Unit := do
  check (!invoiceId.isEmpty) .invoiceNotFound "Invoice ID must be a non-empty string"
  check (isInvoiceId invoiceId) .invoiceNotFound "Invalid invoice ID format"

/-- What is stored by `sanitizeMetadata`; assigning a primitive to `__proto__` stores nothing. -/
def sanitizedFields : Nat → List (JsString × MetadataValue) → List (JsString × MetadataValue)
  | _, [] => []
  | 0, _ => []
  | room+1, field :: rest =>
    if field.1 = js "__proto__" then sanitizedFields room rest
    else field :: sanitizedFields room rest

theorem sanitizedFields_sublist (room : Nat) (fields : List (JsString × MetadataValue)) :
    (sanitizedFields room fields).Sublist fields := by
  induction fields generalizing room with
  | nil => cases room <;> exact List.Sublist.refl _
  | cons field rest ih =>
    cases room with
    | zero => exact List.nil_sublist _
    | succ room =>
      rw [sanitizedFields]
      split
      · exact (ih room).cons _
      · exact (ih room).cons_cons _

theorem definedFields_keys (fields : List (JsString × Option MetadataValue)) :
    ((definedFields fields).map Prod.fst).Sublist (fields.map Prod.fst) := by
  induction fields with
  | nil => exact List.Sublist.refl _
  | cons field rest ih =>
    obtain ⟨key,value⟩ := field
    cases value with
    | none => exact ih.cons _
    | some value => exact ih.cons_cons _

def sanitizeMetadata : Option (JsMap JsString (Option MetadataValue)) → Option InvoiceMetadata
  | none => none
  | some metadata =>
    let fields := sanitizedFields maxMetadataFields (definedFields metadata.entries)
    if fields.isEmpty then none
    else some ⟨fields,metadata.distinct.sublist
      (((sanitizedFields_sublist _ _).map Prod.fst).trans (definedFields_keys _))⟩

end Validation
end Tonbankcard.MerchantApi
