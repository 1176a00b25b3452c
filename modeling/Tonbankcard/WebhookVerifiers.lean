import Tonbankcard.Doubles
import Tonbankcard.JsMap
import Tonbankcard.SdkCanonicalJson
import Tonbankcard.SdkText

/-! The verifiers of webhook deliveries in the TypeScript, the Go and the Python SDK, and the
header that the server signs. Headers are ASCII texts; an absent one is empty. -/
namespace Tonbankcard.Sdk

open Unicode Doubles CanonicalJson

/-- What the verifiers take from elsewhere: the digest, the webhook payloads that Go's
`encoding/json` and Python's `WebhookPayload.from_dict` read, and the bound on digits in Python's
`int`, at least 640 where it is not off. -/
structure WebhookHost (Payload : Type) where
  hmacSha256 : List UInt8 → List UInt8 → Vector UInt8 32
  goPayload : List UInt8 → Option Payload
  pyPayload : List UInt8 → Option Payload
  intMaxStrDigits : Nat
  intMaxStrDigits_range : intMaxStrDigits = 0 ∨ 640 ≤ intMaxStrDigits

/-- Why a delivery is rejected, `notHex` and `invalidPayload` only by Go and Python, `valueError`
where Python's `int` raises. -/
inductive Rejection where
  | invalidSecret
  | missingSignature
  | malformedSignature
  | unsupportedVersion
  | timestampOutOfTolerance
  | notHex
  | signatureMismatch
  | invalidPayload
  | valueError
  deriving DecidableEq

structure ParsedSignature where
  timestamp : Nat
  timestampText : List Char
  versionedSignatures : JsMap (List Char) (List Char)

def timeKey : List Char := ['t']

def signatureVersion : List Char := ['v','1']

/-- `v` and digits. -/
def isVersionKey : List Char → Bool
  | 'v' :: digits => isDecimal digits
  | _ => false

/-- What `parseSignatureHeader` keeps between the parts of a header. -/
structure Reading where
  timestamp : Option Nat
  timestampText : List Char
  versionedSignatures : JsMap (List Char) (List Char)

def Reading.start : Reading := ⟨none,[],.empty⟩

/-- A language's way with the parts of a header: key and value of a part, both trimmed, or `none`
where the part is malformed, and the time of a value. -/
structure HeaderReader where
  field : List Char → Option (List Char × List Char)
  time : List Char → Except Rejection Nat

namespace HeaderReader

def readPart (reader : HeaderReader) (reading : Reading) (part : List Char) :
    Except Rejection Reading :=
  match reader.field part with
  | none => .error .malformedSignature
  | some (key,val) =>
    if key = timeKey then
      (reader.time val).map fun parsed =>
        { reading with timestamp := some parsed, timestampText := val }
    else if isVersionKey key then
      .ok { reading with versionedSignatures := reading.versionedSignatures.set key val }
    else .ok reading

def parse (reader : HeaderReader) (value : List Char) : Except Rejection ParsedSignature := do
  let reading ← (value.splitOn ',').foldlM reader.readPart .start
  match reading.timestamp with
  | none => .error .malformedSignature
  | some timestamp =>
    if reading.versionedSignatures.entries.isEmpty then .error .malformedSignature
    else .ok ⟨timestamp,reading.timestampText,reading.versionedSignatures⟩

end HeaderReader

/-- Before and behind the first equals sign. -/
def cut : List Char → Option (List Char × List Char)
  | [] => none
  | c :: rest => if c = '=' then some ([],rest) else (cut rest).map fun (key,val) => (c :: key,val)

def reject (bad : Bool) (reason : Rejection) : Except Rejection Unit :=
  if bad then .error reason else .ok ()

def found (reason : Rejection) (value : Option α) : Except Rejection α :=
  match value with
  | none => .error reason
  | some a => .ok a

variable {Payload : Type} (host : WebhookHost Payload)

def digestOf (secret body : List UInt8) (timestamp : List Char) : List UInt8 :=
  (host.hmacSha256 secret (utf8 (timestamp ++ ['.']) ++ body)).toList

section TypeScript

/-- `Number.isSafeInteger`. -/
def isSafe (parsed : ℚ) : Bool := parsed.den = 1 && decide (|parsed| ≤ maxSafeInteger)

/-- A value has only its first two pieces. -/
def tsField (part : List Char) : Option (List Char × List Char) :=
  match part.splitOn '=' with
  | rawKey :: rawVal :: _ =>
    if rawKey.isEmpty then none else some (trim jsSpace rawKey,trim jsSpace rawVal)
  | _ => none

def tsTime (val : List Char) : Except Rejection Nat :=
  if !isDecimal val then .error .malformedSignature
  else
    let parsed := nearest (decimalValue val)
    if !isSafe parsed || decide (parsed ≤ 0) then .error .malformedSignature
    else .ok parsed.num.toNat

def parseSignatureHeader (value : List Char) : Except Rejection ParsedSignature :=
  if value.isEmpty then .error .malformedSignature
  else HeaderReader.parse ⟨tsField,tsTime⟩ value

def constantTimeEqual (a b : List Char) : Bool :=
  if a.length ≠ b.length then false else utf8 a = utf8 b

def computeWebhookSignature (secret timestamp : List Char) (rawBody : List UInt8) : List Char :=
  encodeHex (digestOf host (utf8 secret) rawBody timestamp)

/-- Times and tolerances in seconds. -/
structure VerifyWebhookOptions where
  tolerance : ℚ := 300
  now : ℚ

def verifyWebhook (secret : List Char) (rawBody : List UInt8) (signature : List Char)
    (options : VerifyWebhookOptions) : Except Rejection Unit := do
  reject (trim jsSpace secret).isEmpty .invalidSecret
  reject signature.isEmpty .missingSignature
  let parsed ← parseSignatureHeader signature
  reject (options.tolerance < |nearest (options.now - parsed.timestamp)|) .timestampOutOfTolerance
  let provided ← found .unsupportedVersion (parsed.versionedSignatures.get signatureVersion)
  reject provided.isEmpty .unsupportedVersion
  let expected := computeWebhookSignature host secret parsed.timestampText rawBody
  reject (!constantTimeEqual (provided.map Char.toLower) expected) .signatureMismatch

end TypeScript

section Go

def goField (part : List Char) : Option (List Char × List Char) :=
  (cut part).map fun (key,val) => (trim goSpace key,trim goSpace val)

def goTime (val : List Char) : Except Rejection Nat :=
  match parseInt val with
  | none => .error .malformedSignature
  | some parsed =>
    if parsed ≤ 0 || (maxSafeInteger : ℤ) < parsed || !isDecimal val then .error .malformedSignature
    else .ok parsed.toNat

def goParseSignatureHeader (value : List Char) : Except Rejection ParsedSignature :=
  HeaderReader.parse ⟨goField,goTime⟩ value

/-- The text of the last timestamp, read in a loop of its own. -/
def goTimestampText (signature : List Char) : List Char :=
  (signature.splitOn ',').foldl (fun text part =>
    let (key,val) := (cut part).getD (part,[])
    if trim goSpace key = timeKey then trim goSpace val else text) []

/-- `Time.Sub` of nanoseconds saturates. -/
def timeSub (t u : ℤ) : Int64 :=
  if t - u < Int64.minValue.toInt then Int64.minValue
  else if Int64.maxValue.toInt < t - u then Int64.maxValue
  else Int64.ofInt (t - u)

def second : ℤ := 10^9

/-- The clock in nanoseconds since the epoch, the tolerance a `time.Duration`. -/
structure GoVerifyOptions where
  tolerance : Int64 := Int64.ofInt (300 * second)
  now : ℤ

def goComputeSignature (secret : List UInt8) (timestamp : List Char) (payload : List UInt8) :
    List Char :=
  encodeHex (digestOf host secret payload timestamp)

/-- The distance of the clock from a timestamp. -/
def goDelta (now : ℤ) (timestamp : Nat) : Int64 :=
  let delta := timeSub now (timestamp * second)
  if delta < 0 then -delta else delta

def goVerifyWebhook (secret : List Char) (payload : List UInt8) (signature : List Char)
    (options : GoVerifyOptions) : Except Rejection Payload := do
  reject (trim goSpace secret).isEmpty .invalidSecret
  reject signature.isEmpty .missingSignature
  let parsed ← goParseSignatureHeader signature
  reject (options.tolerance < goDelta options.now parsed.timestamp) .timestampOutOfTolerance
  let provided ← found .unsupportedVersion (parsed.versionedSignatures.get signatureVersion)
  let providedBytes ← found .notHex (decodeHex provided)
  let expected ← found .notHex
    (decodeHex (goComputeSignature host (utf8 secret) (goTimestampText signature) payload))
  reject (providedBytes ≠ expected) .signatureMismatch
  found .invalidPayload (host.goPayload payload)

end Go

section Python

def pyField (part : List Char) : Option (List Char × List Char) :=
  (cut part).map fun (key,val) => (trim pySpace key,trim pySpace val)

/-- `int` raises beyond the bound on digits, leading zeros among them. -/
def pyTime (val : List Char) : Except Rejection Nat :=
  if !isDecimal val then .error .malformedSignature
  else if host.intMaxStrDigits ≠ 0 ∧ host.intMaxStrDigits < val.length then .error .valueError
  else
    let parsed := decimalValue val
    if parsed = 0 ∨ maxSafeInteger < parsed then .error .malformedSignature else .ok parsed

def pyParseSignatureHeader (value : List Char) : Except Rejection ParsedSignature :=
  HeaderReader.parse ⟨pyField,pyTime host⟩ value

/-- A whole number is exact, a `float` is a double. -/
inductive PyNumber where
  | int (n : ℤ)
  | float (q : ℚ)

/-- `current - timestamp`. -/
def pyDifference : PyNumber → Nat → ℚ
  | .int n,timestamp => (n - timestamp : ℤ)
  | .float q,timestamp => nearest (q - nearest timestamp)

structure PyVerifyOptions where
  tolerance : ℚ := 300
  now : PyNumber

def pyComputeSignature (secret : List Char) (timestamp : List Char) (payload : List UInt8) :
    List Char :=
  encodeHex (digestOf host (utf8 secret) payload timestamp)

def pyVerifyWebhook (secret : List Char) (payload : List UInt8) (signature : List Char)
    (options : PyVerifyOptions) : Except Rejection Payload := do
  reject (trim pySpace secret).isEmpty .invalidSecret
  reject signature.isEmpty .missingSignature
  let parsed ← pyParseSignatureHeader host (trim pySpace signature)
  reject (options.tolerance < |pyDifference options.now parsed.timestamp|) .timestampOutOfTolerance
  let provided ← found .unsupportedVersion (parsed.versionedSignatures.get signatureVersion)
  reject (provided.isEmpty || !provided.all fun c => (hexDigitValue c).isSome) .notHex
  let expected := pyComputeSignature host secret parsed.timestampText payload
  reject (expected.map Char.toLower ≠ provided.map Char.toLower) .signatureMismatch
  found .invalidPayload (host.pyPayload payload)

end Python

/-- The server's header for a whole number of seconds, printed without an exponent. -/
def signWebhook (secret : List Char) (rawBody : List UInt8) (timestamp : ℤ) : List Char :=
  let ts := integerText timestamp
  't' :: '=' :: (ts ++ ',' :: (signatureVersion ++ '=' ::
    computeWebhookSignature host secret ts rawBody))

end Tonbankcard.Sdk
