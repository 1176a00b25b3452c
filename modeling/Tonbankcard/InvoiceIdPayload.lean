import Tonbankcard.SdkCanonicalJson
import Tonbankcard.SdkText

/-! The payload under an invoice id in the Go, the Python and the TypeScript SDK, with the
addresses and amounts that they take. -/
namespace Tonbankcard.Sdk

open EcmaScript Unicode CanonicalJson

/-- A workchain and an account of 32 bytes. -/
structure RawAddress where
  workchain : ℤ
  account : List UInt8
  deriving DecidableEq

def RawAddress.toRawString (a : RawAddress) : List Char :=
  integerText a.workchain ++ ':' :: encodeHex a.account

section RawForm

def workchainText (s : List Char) : List Char := s.takeWhile (· ≠ ':')

def accountText (s : List Char) : List Char := (s.dropWhile (· ≠ ':')).drop 1

/-- `-?[0-9]+`. -/
def isWorkchain : List Char → Bool
  | '-' :: digits => isDecimal digits
  | s => isDecimal s

/-- `-?[0-9]+:[0-9a-fA-F]{64}`. -/
def isRawForm (s : List Char) : Bool :=
  s.contains ':' && isWorkchain (workchainText s) && (accountText s).length = 64 &&
    (accountText s).all fun c => (hexDigitValue c).isSome

end RawForm

section FriendlyForm

def crc16Shift (crc : UInt16) : UInt16 :=
  if crc &&& 0x8000 ≠ 0 then (crc <<< 1) ^^^ 0x1021 else crc <<< 1

def crc16Byte (crc : UInt16) (byte : UInt8) : UInt16 :=
  let high : UInt16 := byte.toUInt16 <<< 8
  Nat.repeat crc16Shift 8 (crc ^^^ high)

def crc16Ton (data : List UInt8) : UInt16 := data.foldl crc16Byte 0

/-- `[A-Za-z0-9+/_-]`. -/
def isFriendlyChar (c : Char) : Bool :=
  c.isAlphanum || c = '+' || c = '/' || c = '_' || c = '-'

/-- The standard alphabet. -/
def base64Value (c : Char) : Option Nat :=
  if c.isUpper then some (c.toNat - 65)
  else if c.isLower then some (c.toNat - 71)
  else if c.isDigit then some (c.toNat + 4)
  else if c = '+' then some 62
  else if c = '/' then some 63
  else none

/-- Groups of four characters without padding. -/
def base64Decode : List Char → Option (List UInt8)
  | [] => some []
  | a :: b :: c :: d :: rest => do
    let x ← base64Value a
    let y ← base64Value b
    let z ← base64Value c
    let w ← base64Value d
    let bytes ← base64Decode rest
    pure (UInt8.ofNat (4 * x + y / 16) :: UInt8.ofNat (16 * (y % 16) + z / 4) ::
      UInt8.ofNat (64 * (z % 4) + w) :: bytes)
  | _ => none

def plusAndSlash (c : Char) : Char := if c = '-' then '+' else if c = '_' then '/' else c

/-- Go and Python decode the friendly form by the same steps. -/
def decodeFriendlyTonAddress (addr : List Char) : Option (List UInt8) :=
  if addr.length = 48 && addr.all isFriendlyChar then
    (base64Decode (addr.map plusAndSlash)).bind fun decoded =>
      if decoded.length ≠ 36 then none
      else
        let tag := decoded[0]! &&& 0x7f
        if tag ≠ 0x11 && tag ≠ 0x51 then none
        else
          let expected := decoded[34]!.toUInt16 <<< 8 ||| decoded[35]!.toUInt16
          if crc16Ton (decoded.take 34) ≠ expected then none else some decoded
  else none

end FriendlyForm

/-- A language's white space, its reader of whole numbers and its signed bytes. -/
structure AddressReader where
  space : Char → Bool
  int : List Char → Option ℤ
  signed : UInt8 → ℤ

namespace AddressReader

def isValidRaw (reader : AddressReader) (addr : List Char) : Bool :=
  isRawForm addr && (reader.int (workchainText addr)).isSome &&
    (decodeHex (accountText addr)).isSome

def canonicalize (reader : AddressReader) (addr : List Char) : Option (List Char) :=
  let addr := trim reader.space addr
  if reader.isValidRaw addr then
    (reader.int (workchainText addr)).map fun workchain =>
      integerText workchain ++ ':' :: (accountText addr).map Char.toLower
  else
    (decodeFriendlyTonAddress addr).map fun decoded =>
      integerText (reader.signed decoded[1]!) ++ ':' :: encodeHex ((decoded.drop 2).take 32)

end AddressReader

/-- `[1-9][0-9]*`. -/
def isAmount : List Char → Bool
  | [] => false
  | c :: rest => c.isDigit && c ≠ '0' && rest.all Char.isDigit

def maxAmount : Nat := 2^120 - 1

/-- The members of the payload, as the object literal of each SDK has them. -/
def payloadFields (amount merchantNft orderId timestamp : List Char) :
    List (List Char × List Char) :=
  [("amount_tbc".toList,amount),("merchant_nft".toList,merchantNft),("order_id".toList,orderId),
    ("timestamp".toList,timestamp)]

section Go

def goReader : AddressReader := ⟨goSpace,parseInt,fun byte => byte.toInt8.toInt⟩

def goCanonicalizeTonAddress : List Char → Option (List Char) := goReader.canonicalize

def goValidateAmount (amount : List Char) : Bool :=
  let normalized := trim goSpace amount
  isAmount normalized && decide (decimalValue normalized ≤ maxAmount)

structure GoInvoiceIDParams where
  merchantNFT : List Char
  amountTBC : List Char
  orderID : List Char
  timestamp : Int64

def goCanonicalInvoiceIDPayload (params : GoInvoiceIDParams) : Option (List UInt8) := do
  let merchantNFT ← goCanonicalizeTonAddress params.merchantNFT
  if goValidateAmount params.amountTBC then
    goCanonicalJSON (.object ((payloadFields params.amountTBC merchantNFT params.orderID
      (integerText params.timestamp.toInt)).map fun (key,text) => (key,.string text)))
  else none

end Go

section Python

variable (intMaxStrDigits : Nat)

/-- `int` of a text of digits with or without a minus sign, which raises beyond the bound on
digits. -/
def pyInt (s : List Char) : Option ℤ :=
  let (sign,digits) := splitSign s
  if isDecimal digits && decide (withinDigits intMaxStrDigits digits) then
    some (sign * decimalValue digits)
  else none

def pyReader : AddressReader :=
  ⟨pySpace,pyInt intMaxStrDigits,fun byte => if 128 ≤ byte.toNat then byte.toNat - 256 else byte.toNat⟩

def pyCanonicalizeTonAddress : List Char → Option (List Char) :=
  (pyReader intMaxStrDigits).canonicalize

def pyValidateAmount (amount : List Char) : Bool :=
  let normalized := trim pySpace amount
  isAmount normalized && (pyInt intMaxStrDigits normalized).any fun value : ℤ => value ≤ (maxAmount : ℤ)

def pyCanonicalInvoiceIdPayload (merchantNft amountTbc : List Char) (orderId : Option (List Char))
    (timestamp : ℤ) : Option (List Char) :=
  if pyValidateAmount intMaxStrDigits amountTbc then do
    let merchantNft ← pyCanonicalizeTonAddress intMaxStrDigits merchantNft
    pyCanonicalJson (.object ((payloadFields amountTbc merchantNft (orderId.getD [])
      (integerText timestamp)).map fun (key,text) => (key,.string text)))
  else none

end Python

section TypeScript

inductive TsAddress where
  | address (a : RawAddress)
  | text (s : List Char)

inductive TsTimestamp where
  | number (n : JsNumber)
  | bigint (n : ℤ)

/-- `Address.parse` is a parameter, as the SDK does not define it. -/
def canonicalizeTonAddress (parse : List Char → Option RawAddress) : TsAddress → Option (List Char)
  | .address a => some a.toRawString
  | .text s => (parse (trim jsSpace s)).map RawAddress.toRawString

def canonicalTimestamp : TsTimestamp → Option JsString
  | .bigint n => some (decimal n)
  | .number n => if isSafeInteger n then some n.text else none

def canonicalInvoiceIdPayload (parse : List Char → Option RawAddress) (merchantNft : TsAddress)
    (amountTbc : ℤ) (orderId : Option JsString) (timestamp : TsTimestamp) : Option JsString :=
  if amountTbc ≤ 0 || (maxAmount : ℤ) < amountTbc then none
  else do
    let merchantNft ← canonicalizeTonAddress parse merchantNft
    let timestamp ← canonicalTimestamp timestamp
    canonicalJson (.object [(js "amount_tbc",.string (decimal amountTbc)),
      (js "merchant_nft",.string (utf16 merchantNft)),(js "order_id",.string (orderId.getD [])),
      (js "timestamp",.string timestamp)])

end TypeScript

end Tonbankcard.Sdk
