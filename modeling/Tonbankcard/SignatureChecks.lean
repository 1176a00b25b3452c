import Tonbankcard.JsNumbers
import Tonbankcard.MerchantApiHashes
import Tonbankcard.Unicode

/-! The signature checks of the server and of its TypeScript SDK over strings of any code units.
They compare buffers of equal length only, and guard that by the length of the strings. -/
namespace Tonbankcard.SignatureChecks

open EcmaScript Unicode

/-- What the checks take from their host: HMAC-SHA256, the text of a number, and the lower case of
a string by the tables of Unicode. -/
structure SignatureHost where
  hmacSha256 : List UInt8 → List UInt8 → BitVec 256
  numberText : Number → JsString
  toLowerCase : JsString → JsString

inductive Reason where
  | invalidSecret
  | missingSignature
  | malformedSignature
  | unsupportedVersion
  | timestampOutOfTolerance
  | signatureMismatch
  deriving DecidableEq

section Parsing

/-- The server keeps no text of the timestamp. -/
structure ParsedSignature where
  timestamp : Number
  timestampText : JsString
  versionedSignatures : JsMap JsString JsString

/-- What is kept between the parts of a header. -/
structure Reading where
  timestamp : Option (Number × JsString)
  versionedSignatures : JsMap JsString JsString

/-- `/^v\d+$/`. -/
def isVersionKey : JsString → Bool
  | 118 :: digits => !digits.isEmpty && digits.all isDigit
  | _ => false

def readPart (time : JsString → Option Number) (reading : Reading) (part : JsString) :
    Option Reading :=
  match part.splitOn 61 with
  | rawKey :: rawVal :: _ =>
    if rawKey.isEmpty then none
    else
      let key := trim rawKey
      let val := trim rawVal
      if key = js "t" then
        (time val).map fun parsed => {reading with timestamp := some (parsed,val)}
      else if isVersionKey key then
        some {reading with versionedSignatures := reading.versionedSignatures.set key val}
      else some reading
  | _ => none

def parseHeader (time : JsString → Option Number) (value : JsString) : Option ParsedSignature :=
  if value.isEmpty then none
  else
    ((value.splitOn 44).foldlM (readPart time) ⟨none,.empty⟩).bind fun reading =>
      match reading.timestamp with
      | none => none
      | some (timestamp,text) =>
        if reading.versionedSignatures.entries.isEmpty then none
        else some ⟨timestamp,text,reading.versionedSignatures⟩

/-- A positive integer as `Number` reads it. -/
def readTime (val : JsString) : Option Number :=
  let parsed := stringToNumber val
  if !parsed.isInteger || !Number.lt (.finite 0) parsed then none else some parsed

/-- Digits only, of a safe integer. -/
def sdkReadTime (val : JsString) : Option Number :=
  if val.isEmpty || !val.all isDigit then none
  else
    let parsed := stringToNumber val
    if !parsed.isSafeInteger || !Number.lt (.finite 0) parsed then none else some parsed

def parseSignatureHeader : JsString → Option ParsedSignature := parseHeader readTime

def sdkParseSignatureHeader : JsString → Option ParsedSignature := parseHeader sdkReadTime

end Parsing

section Verification

structure VerifyOptions where
  tolerance : Option Number
  now : Option Number

/-- `Math.abs(now - timestamp) > tolerance`, with the defaults of the options. -/
def outOfTolerance (clock : Number) (options : VerifyOptions) (timestamp : Number) : Bool :=
  (options.tolerance.getD (.finite 300)).lt (((options.now.getD clock).sub timestamp).abs)

def digestText (host : SignatureHost) (secret timestamp : JsString) (rawBody : List UInt8) :
    JsString :=
  MerchantApi.hexDigest
    (host.hmacSha256 (encodeUtf8 secret) (encodeUtf8 (timestamp ++ js ".") ++ rawBody))

/-- A comparison of buffers of different lengths throws, here `none`; the other results are
verdicts, with the reason of a negative one. -/
def verifyHeader (parse : JsString → Option ParsedSignature) (normalize : JsString → JsString)
    (expected : ParsedSignature → JsString) (clock : Number) (options : VerifyOptions)
    (header : Option JsString) : Option (Except Reason Unit) :=
  match header.filter (!·.isEmpty) with
  | none => some (.error .missingSignature)
  | some header =>
    match parse header with
    | none => some (.error .malformedSignature)
    | some parsed =>
      if outOfTolerance clock options parsed.timestamp then
        some (.error .timestampOutOfTolerance)
      else
        match (parsed.versionedSignatures.get (js "v1")).filter (!·.isEmpty) with
        | none => some (.error .unsupportedVersion)
        | some provided =>
          (MerchantApi.constantTimeEqual (normalize provided) (expected parsed)).map fun equal =>
            if equal then .ok () else .error .signatureMismatch

def computeSignature (host : SignatureHost) (secret : JsString) (rawBody : List UInt8)
    (parsed : ParsedSignature) : JsString :=
  digestText host secret (host.numberText parsed.timestamp) rawBody

/-- The check of the server. -/
def verifyWebhookSignature (host : SignatureHost) (secret : JsString) (rawBody : List UInt8)
    (header : Option JsString) (clock : Number) (options : VerifyOptions) :
    Option (Except Reason Unit) :=
  verifyHeader parseSignatureHeader id (computeSignature host secret rawBody) clock options header

def computeWebhookSignature (host : SignatureHost) (secret : JsString) (rawBody : List UInt8)
    (parsed : ParsedSignature) : JsString :=
  digestText host secret parsed.timestampText rawBody

/-- The check of the SDK, which takes a digest in upper case, too. -/
def verifyWebhook (host : SignatureHost) (secret : JsString) (rawBody : List UInt8)
    (signature : Option JsString) (clock : Number) (options : VerifyOptions) :
    Option (Except Reason Unit) :=
  if (trim secret).isEmpty then some (.error .invalidSecret)
  else
    verifyHeader sdkParseSignatureHeader host.toLowerCase
      (computeWebhookSignature host secret rawBody) clock options signature

end Verification

section Comparison

theorem unit_width (unit : UInt16) (width : Nat)
    (shown : width = if unit < 0x80 then 1 else if unit < 0x800 then 2 else 3) :
    1 ≤ width ∧ (width = 1 ↔ unit < 128) := by
  subst shown
  split
  · simp_all
  · rename_i wide
    split <;> simp [wide]

/-- UTF-8 is longer than UTF-16 for every text that is not ASCII. -/
theorem utf8Length_iff : ∀ s : JsString, s.length ≤ MerchantApi.utf8Length s ∧
    (MerchantApi.utf8Length s = s.length ↔ ∀ unit ∈ s, unit < 128)
  | [] => by simp [MerchantApi.utf8Length]
  | [unit] => by
    obtain ⟨least,one⟩ := unit_width unit _ rfl
    rw [MerchantApi.utf8Length,List.forall_mem_singleton]
    exact ⟨least,one⟩
  | unit :: next :: rest => by
    rw [MerchantApi.utf8Length]
    split
    · rename_i pair
      obtain ⟨least,-⟩ := utf8Length_iff rest
      have leading : ¬unit < 128 := by
        simp only [Bool.and_eq_true,isLeading,decide_eq_true_eq,UInt16.le_iff_toNat_le,
          UInt16.lt_iff_toNat_lt,UInt16.reduceToNat] at pair ⊢
        omega
      refine ⟨by simp only [List.length_cons]; omega,?_⟩
      simp only [List.length_cons,List.forall_mem_cons,leading,false_and,iff_false]
      omega
    · generalize shown : (if unit < 0x80 then 1 else if unit < 0x800 then 2 else 3) = width
      obtain ⟨least,one⟩ := unit_width unit width shown.symm
      obtain ⟨restLeast,same⟩ := utf8Length_iff (next :: rest)
      rw [List.length_cons (a := unit),List.forall_mem_cons,← same,← one]
      omega

theorem hexDigest_length (digest : BitVec 256) : (MerchantApi.hexDigest digest).length = 64 :=
  fixedDigits_length _ _ _

theorem hexDigest_ascii (digest : BitVec 256) : ∀ unit ∈ MerchantApi.hexDigest digest, unit < 128 :=
  fixedDigits_ascii (by decide) (by decide) _ _

/-- A text that is as long as a digest is ASCII. -/
def Comparable (compared : JsString) : Prop :=
  compared.length = 64 → ∀ unit ∈ compared, unit < 128

/-- A comparison with a digest throws exactly for a text of its length that is not ASCII. -/
theorem constantTimeEqual_digest (compared : JsString) (digest : BitVec 256) :
    (Comparable compared → MerchantApi.constantTimeEqual compared (MerchantApi.hexDigest digest) =
      some (decide (compared = MerchantApi.hexDigest digest))) ∧
    (¬Comparable compared →
      MerchantApi.constantTimeEqual compared (MerchantApi.hexDigest digest) = none) := by
  have digits := hexDigest_length digest
  have bytes := (utf8Length_iff (MerchantApi.hexDigest digest)).2.mpr (hexDigest_ascii digest)
  have width := (utf8Length_iff compared).2
  unfold MerchantApi.constantTimeEqual Comparable
  rw [bytes,digits]
  by_cases long : compared.length = 64
  · rw [long] at width
    simp only [long,ne_eq,not_true_eq_false,if_false,true_imp_iff,← width]
    exact ⟨fun same => if_neg (not_not_intro same),fun differ => if_pos differ⟩
  · have apart : compared ≠ MerchantApi.hexDigest digest := fun same => long (same ▸ digits)
    simp [long,apart]

end Comparison

section Totality

/-- The signature that a header is checked by. -/
def providedSignature (parse : JsString → Option ParsedSignature) (header : Option JsString) :
    Option (ParsedSignature × JsString) := do
  let parsed ← parse (← header)
  let provided ← parsed.versionedSignatures.get (js "v1")
  return (parsed,provided)

variable {host : SignatureHost} {secret : JsString} {rawBody : List UInt8}

theorem verifyHeader_total {parse : JsString → Option ParsedSignature}
    {normalize : JsString → JsString} {digest : ParsedSignature → BitVec 256}
    (clock : Number) (options : VerifyOptions) {header : Option JsString}
    (plain : ∀ found ∈ providedSignature parse header, Comparable (normalize found.2)) :
    ∃ verdict, verifyHeader parse normalize (fun parsed => MerchantApi.hexDigest (digest parsed))
        clock options header = some verdict ∧
      ∀ found ∈ providedSignature parse header,
        normalize found.2 ≠ MerchantApi.hexDigest (digest found.1) → verdict.isOk = false := by
  unfold verifyHeader
  cases given : header.filter (!·.isEmpty) with
  | none => exact ⟨.error .missingSignature,rfl,fun _ _ _ => rfl⟩
  | some header =>
    obtain ⟨rfl,-⟩ := Option.filter_eq_some_iff.mp given
    cases read : parse header with
    | none => exact ⟨.error .malformedSignature,by simp only [read],fun _ _ _ => rfl⟩
    | some parsed =>
      simp only [read]
      by_cases late : outOfTolerance clock options parsed.timestamp = true
      · exact ⟨.error .timestampOutOfTolerance,by rw [if_pos late],fun _ _ _ => rfl⟩
      · rw [if_neg late]
        cases versioned : (parsed.versionedSignatures.get (js "v1")).filter (!·.isEmpty) with
        | none => exact ⟨.error .unsupportedVersion,rfl,fun _ _ _ => rfl⟩
        | some provided =>
          obtain ⟨stored,-⟩ := Option.filter_eq_some_iff.mp versioned
          have found : providedSignature parse (some header) = some (parsed,provided) := by
            simp [providedSignature,read,stored]
          simp only [(constantTimeEqual_digest _ _).1 (plain _ found),Option.map_some]
          refine ⟨_,rfl,?_⟩
          intro other member different
          obtain rfl := Option.some.inj (found.symm.trans member)
          simp [different,Except.isOk,Except.toBool]

/-- What is left out below: the error of the comparison. -/
theorem verifySettlementAttestation_throws_iff (api : MerchantApi.Host) (secret : JsString)
    (event : MerchantApi.SettlementEvent) (attestation : Option JsString) :
    MerchantApi.verifySettlementAttestation api secret event attestation = none ↔
      ∃ text ∈ attestation, ¬Comparable text := by
  unfold MerchantApi.verifySettlementAttestation
  cases attestation with
  | none => simp
  | some text =>
    simp only [Option.mem_def,Option.some.injEq,exists_eq_left']
    rw [MerchantApi.signSettlementEvent]
    by_cases empty : text.isEmpty
    · simp_all [Comparable]
    · rw [if_neg empty]
      rcases Classical.em (Comparable text) with plain | strange
      · simp [(constantTimeEqual_digest text _).1 plain,plain]
      · simp [(constantTimeEqual_digest text _).2 strange,strange]

/-- The checks give a verdict, which is negative for a signature other than the digest; the SDK
compares the signature in lower case. -/
theorem signature_checks_total (host : SignatureHost) (secret : JsString) (rawBody : List UInt8)
    (header : Option JsString) (clock : Number) (options : VerifyOptions) (api : MerchantApi.Host)
    (event : MerchantApi.SettlementEvent) (attestation : Option JsString) :
    ((∀ found ∈ providedSignature parseSignatureHeader header, Comparable found.2) →
      ∃ verdict, verifyWebhookSignature host secret rawBody header clock options = some verdict ∧
        ∀ found ∈ providedSignature parseSignatureHeader header,
          found.2 ≠ computeSignature host secret rawBody found.1 → verdict.isOk = false) ∧
    ((∀ found ∈ providedSignature sdkParseSignatureHeader header,
        Comparable (host.toLowerCase found.2)) →
      ∃ verdict, verifyWebhook host secret rawBody header clock options = some verdict ∧
        ∀ found ∈ providedSignature sdkParseSignatureHeader header,
          host.toLowerCase found.2 ≠ computeWebhookSignature host secret rawBody found.1 →
          verdict.isOk = false) ∧
    ((∀ text ∈ attestation, Comparable text) →
      ∃ verdict, MerchantApi.verifySettlementAttestation api secret event attestation =
          some verdict ∧
        ∀ text ∈ attestation, text ≠ MerchantApi.signSettlementEvent api secret event →
          verdict = false) := by
  refine ⟨fun plain => ?_,fun plain => ?_,fun plain => ?_⟩
  · exact verifyHeader_total clock options plain
  · unfold verifyWebhook
    split
    · exact ⟨.error .invalidSecret,rfl,fun _ _ _ => rfl⟩
    · exact verifyHeader_total clock options plain
  · unfold MerchantApi.verifySettlementAttestation
    cases attestation with
    | none => exact ⟨false,rfl,fun _ _ _ => rfl⟩
    | some text =>
      simp only
      split
      · exact ⟨false,rfl,fun _ _ _ => rfl⟩
      · rw [MerchantApi.signSettlementEvent,(constantTimeEqual_digest text _).1 (plain text rfl)]
        refine ⟨_,rfl,?_⟩
        intro other member different
        obtain rfl := Option.some.inj member
        exact decide_eq_false different

/-- The digests of the sample body and event under the sample secret, and the lower case of ASCII
letters. -/
def sampleHost : SignatureHost where
  hmacSha256 _ _ := 0x50b29d57d512520cbe111333f2847db62844346f1bfaaeaf2861880ead045d85#256
  numberText _ := js "1700000000"
  toLowerCase s := s.map fun unit => if 65 ≤ unit && unit ≤ 90 then unit + 32 else unit

def sampleApi : MerchantApi.Host where
  sha256 _ := 0
  hmacSha256 _ _ := 0x00e7318ff6ba9d8f2c905f9a09c9ab70790e619f9742771e906b6a493e0e3033#256
  isoText _ := js "2023-11-14T22:13:20.000Z"

def sampleEvent : MerchantApi.SettlementEvent where
  payerNft := js "p"
  merchantNft := js "m"
  amountTbc := js "1000000000"
  payloadHash := js "h"
  blockNumber := 42
  txHash := js "x"
  timestamp := 1700000000

def sampleBody : List UInt8 := encodeUtf8 (js "\x7b\"event\":\"invoice.settled\"\x7d")

/-- The header of the sample body with its digest in upper case. -/
def upperHeader : JsString :=
  js "t=1700000000,v1=50B29D57D512520CBE111333F2847DB62844346F1BFAAEAF2861880EAD045D85"

theorem signature_checks_total_sample :
    (∃ verdict, verifyWebhookSignature sampleHost (js "whsec") sampleBody (some upperHeader)
      (.finite 1700000010) ⟨none,none⟩ = some verdict) ∧
    ∃ verdict, MerchantApi.verifySettlementAttestation sampleApi (js "whsec") sampleEvent
      (some (js "forged")) = some verdict ∧ verdict = false := by
  obtain ⟨server,-,attested⟩ := signature_checks_total sampleHost (js "whsec") sampleBody
    (some upperHeader) (.finite 1700000010) ⟨none,none⟩ sampleApi sampleEvent
    (some (js "forged"))
  have plain : (providedSignature parseSignatureHeader (some upperHeader)).all
      (fun found => found.2.all (· < 128)) = true := by decide +kernel
  obtain ⟨verdict,given,-⟩ := server fun found member _ => by
    rw [member] at plain
    simpa using plain
  obtain ⟨refused,known,negative⟩ := attested fun text member => by
    obtain rfl := Option.some.inj member
    exact fun long => absurd long (by decide)
  exact ⟨⟨verdict,given⟩,refused,known,negative _ rfl (by decide +kernel)⟩

/-- The SDK takes the digest in upper case, which is another string. -/
theorem upper_case_accepted :
    ¬∀ (host : SignatureHost) (secret : JsString) (rawBody : List UInt8) (header : Option JsString)
      (clock : Number) (options : VerifyOptions),
      ∃ verdict, verifyWebhook host secret rawBody header clock options = some verdict ∧
        ∀ found ∈ providedSignature sdkParseSignatureHeader header,
          found.2 ≠ computeWebhookSignature host secret rawBody found.1 →
          verdict.isOk = false := by
  intro total
  obtain ⟨verdict,given,negative⟩ := total sampleHost (js "whsec") sampleBody (some upperHeader)
    (.finite 1700000010) ⟨none,none⟩
  have accepted : (verifyWebhook sampleHost (js "whsec") sampleBody (some upperHeader)
      (.finite 1700000010) ⟨none,none⟩).all (·.isOk) = true := by decide +kernel
  have different : (providedSignature sdkParseSignatureHeader (some upperHeader)).any (fun found =>
      found.2 ≠ computeWebhookSignature sampleHost (js "whsec") sampleBody found.1) = true := by
    decide +kernel
  obtain ⟨found,member,apart⟩ := (Option.any_eq_true _ _).mp different
  have refused := negative found member (of_decide_eq_true apart)
  rw [given,Option.all_some,refused] at accepted
  simp at accepted

end Totality

end Tonbankcard.SignatureChecks
