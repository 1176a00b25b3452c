import Tonbankcard.WebhookAgreement

/-! How far from the clock the timestamp of an accepted delivery can be. -/
namespace Tonbankcard.Sdk

open Doubles

variable {Payload : Type} {host : WebhookHost Payload} {secret header : List Char}
  {body : List UInt8}

/-- What TypeScript asks of a parsed header besides its age. -/
def tsAuthentic (host : WebhookHost Payload) (secret : List Char) (body : List UInt8)
    (parsed : ParsedSignature) : Prop :=
  trim jsSpace secret ≠ [] ∧
    ∃ provided, parsed.versionedSignatures.get signatureVersion = some provided ∧
      Proves host secret body parsed.timestampText provided

def goAuthentic (host : WebhookHost Payload) (secret : List Char) (body : List UInt8)
    (header : List Char) (parsed : ParsedSignature) : Prop :=
  trim goSpace secret ≠ [] ∧
    (∃ provided, parsed.versionedSignatures.get signatureVersion = some provided ∧
      Proves host secret body (goTimestampText header) provided) ∧
    (host.goPayload body).isSome = true

def pyAuthentic (host : WebhookHost Payload) (secret : List Char) (body : List UInt8)
    (parsed : ParsedSignature) : Prop :=
  trim pySpace secret ≠ [] ∧
    (∃ provided, parsed.versionedSignatures.get signatureVersion = some provided ∧
      Proves host secret body parsed.timestampText provided) ∧
    (host.pyPayload body).isSome = true

def PyNumber.value : PyNumber → ℚ
  | .int n => n
  | .float q => q

/-- The difference of doubles is rounded down across the tolerance. -/
def RoundsWithin (difference tolerance : ℚ) : Prop :=
  tolerance < |difference| ∧ |nearest difference| ≤ tolerance

/-- The duration is within 64 bits, or at least short of the longest tolerance. -/
def WithinDuration (distance tolerance : ℤ) : Prop :=
  -2^63 < distance ∧ (distance < 2^63 ∨ tolerance < 2^63 - 1)

theorem goDelta_le_iff {now : ℤ} {timestamp : Nat} {tolerance : Int64} (nonneg : 0 ≤ tolerance.toInt) :
    (goDelta now timestamp ≤ tolerance → |now - timestamp * second| ≤ tolerance.toInt) ↔
      WithinDuration (now - timestamp * second) tolerance.toInt := by
  have bound := tolerance.toInt_lt
  rw [Int64.le_iff_toInt_le,toInt_goDelta,WithinDuration]
  generalize now - timestamp * second = distance
  rcases abs_cases distance with ⟨same,sign⟩ | ⟨same,sign⟩
  · rw [same]
    split <;> omega
  · rw [same]
    split <;> omega

theorem pyFresh_float_iff {now : ℚ} {timestamp : Nat} (small : timestamp ≤ maxSafeInteger) :
    pyDifference (.float now) timestamp = nearest (now - timestamp) := by
  have size : |(timestamp : ℤ)| < 2^53 := by
    have bound : maxSafeInteger < 2^53 := by decide
    rw [abs_of_nonneg (Int.natCast_nonneg _)]
    omega
  have exact_ := nearest_int size
  rw [Int.cast_natCast] at exact_
  rw [pyDifference,exact_]

theorem pyParse_range (accepted : pyParseSignatureHeader host header = .ok parsed) :
    parsed.timestamp ≤ maxSafeInteger := by
  obtain ⟨val,read⟩ := HeaderReader.parse_time accepted
  obtain ⟨⟨time,-⟩,same⟩ := pyTime_eq_ok_iff.mp read
  exact same ▸ time.2.2

theorem goParse_headerTime (ascii : ∀ c ∈ header, printable c = true)
    (signed : Signed host secret body header) (single : Single header) :
    ∃ parsed, goParseSignatureHeader header = .ok parsed ∧ parsed.timestamp = headerTime header := by
  have run := wholeParse_iff host secret body ⟨goField,goTime⟩ (fun _ => True)
    (fun timestamp => timestamp = headerTime header)
    (fun _ => goField_none) (fun part member => goField_some (parts_printable ascii part member))
    fun val n => by rw [and_true]; exact goTime_eq_ok_iff
  obtain ⟨parsed,accepted,_,_,same,-⟩ := run.mpr ⟨signed,single,fun _ _ => trivial,rfl⟩
  exact ⟨parsed,accepted,same⟩

/-- An accepted delivery is within the tolerance exactly where Go's durations do not saturate and
the differences of doubles are not rounded across the tolerance. -/
theorem accepted_fresh_iff (host : WebhookHost Payload) (secret : List Char) (body : List UInt8)
    (header : List Char) (ts : VerifyWebhookOptions) (go : GoVerifyOptions) (py : PyVerifyOptions)
    (nonneg : 0 ≤ go.tolerance.toInt) :
    ((∀ parsed, parseSignatureHeader header = .ok parsed →
        (verifyWebhook host secret body header ts).isOk = true →
        |ts.now - parsed.timestamp| ≤ ts.tolerance) ↔
      ∀ parsed, parseSignatureHeader header = .ok parsed → tsAuthentic host secret body parsed →
        ¬ RoundsWithin (ts.now - parsed.timestamp) ts.tolerance) ∧
    ((∀ parsed, goParseSignatureHeader header = .ok parsed →
        (goVerifyWebhook host secret body header go).isOk = true →
        |go.now - parsed.timestamp * second| ≤ go.tolerance.toInt) ↔
      ∀ parsed, goParseSignatureHeader header = .ok parsed →
        goAuthentic host secret body header parsed →
        WithinDuration (go.now - parsed.timestamp * second) go.tolerance.toInt) ∧
    ((∀ parsed, pyParseSignatureHeader host header = .ok parsed →
        (pyVerifyWebhook host secret body header py).isOk = true →
        |py.now.value - parsed.timestamp| ≤ py.tolerance) ↔
      ∀ parsed, pyParseSignatureHeader host header = .ok parsed →
        pyAuthentic host secret body parsed →
        ∀ now, py.now = .float now → ¬ RoundsWithin (now - parsed.timestamp) py.tolerance) := by
  refine ⟨?_,?_,?_⟩
  · refine forall_congr' fun parsed => imp_congr_right fun accepted => ?_
    have only : (verifyWebhook host secret body header ts).isOk = true ↔
        |nearest (ts.now - parsed.timestamp)| ≤ ts.tolerance ∧ tsAuthentic host secret body parsed := by
      rw [verifyWebhook_isOk_iff,tsAuthentic,accepted]
      constructor
      · rintro ⟨nonblank,_,same,fresh,proved⟩
        cases Except.ok.inj same
        exact ⟨fresh,nonblank,proved⟩
      · rintro ⟨fresh,nonblank,proved⟩
        exact ⟨nonblank,parsed,rfl,fresh,proved⟩
    rw [only,RoundsWithin,← not_le (a := |ts.now - (parsed.timestamp : ℚ)|)]
    tauto
  · refine forall_congr' fun parsed => imp_congr_right fun accepted => ?_
    have only : (goVerifyWebhook host secret body header go).isOk = true ↔
        goDelta go.now parsed.timestamp ≤ go.tolerance ∧
          goAuthentic host secret body header parsed := by
      rw [goVerifyWebhook_isOk_iff,goAuthentic,accepted]
      constructor
      · rintro ⟨nonblank,_,same,fresh,proved⟩
        cases Except.ok.inj same
        exact ⟨fresh,nonblank,proved⟩
      · rintro ⟨fresh,nonblank,proved⟩
        exact ⟨nonblank,parsed,rfl,fresh,proved⟩
    rw [only,← goDelta_le_iff nonneg]
    tauto
  · refine forall_congr' fun parsed => imp_congr_right fun accepted => ?_
    have only : (pyVerifyWebhook host secret body header py).isOk = true ↔
        |pyDifference py.now parsed.timestamp| ≤ py.tolerance ∧
          pyAuthentic host secret body parsed := by
      rw [pyVerifyWebhook_isOk_iff,pyAuthentic,accepted]
      constructor
      · rintro ⟨nonblank,_,same,fresh,proved⟩
        cases Except.ok.inj same
        exact ⟨fresh,nonblank,proved⟩
      · rintro ⟨fresh,nonblank,proved⟩
        exact ⟨nonblank,parsed,rfl,fresh,proved⟩
    rw [only]
    cases py.now with
    | int n =>
      have exact_ : pyDifference (.int n) parsed.timestamp = PyNumber.value (.int n) - parsed.timestamp := by
        simp [pyDifference,PyNumber.value]
      rw [exact_]
      exact iff_of_true (fun fresh => fresh.1) fun _ now other => by cases other
    | float q =>
      rw [pyFresh_float_iff (pyParse_range accepted)]
      simp only [PyNumber.value,PyNumber.float.injEq,forall_eq',RoundsWithin,
        ← not_le (a := |q - (parsed.timestamp : ℚ)|)]
      tauto

/-- The sample header is accepted at its own time. -/
theorem accepted_fresh_iff_sample :
    ∃ parsed, goParseSignatureHeader sampleHeader = .ok parsed ∧
      (goVerifyWebhook sampleHost sampleSecret sampleBody sampleHeader
        ⟨Int64.ofInt (300 * second),1700000000 * second⟩).isOk = true ∧
      |1700000000 * second - parsed.timestamp * second| ≤ (Int64.ofInt (300 * second)).toInt := by
  obtain ⟨ascii,signed,-,single⟩ := signWebhook_read sampleHost sampleSecret sampleBody 1700000000
  have whole : (1 : ℤ) ≤ 1700000000 ∧ (1700000000 : ℤ) ≤ maxSafeInteger := by decide
  obtain ⟨time,-⟩ := signWebhook_time sampleHost sampleSecret sampleBody whole
  obtain ⟨parsed,accepted,same⟩ := goParse_headerTime ascii (signed.mpr (by decide)) single
  have shown : (parsed.timestamp : ℤ) = 1700000000 := by rw [same,time]
  have passes : (goVerifyWebhook sampleHost sampleSecret sampleBody sampleHeader
      ⟨Int64.ofInt (300 * second),1700000000 * second⟩).isOk = true := by
    refine (goAccepts_iff sampleSecret_nonblank.2.1 rfl ascii).mpr ⟨signed.mpr (by decide),single,?_⟩
    have small : 300 < 2^31 := by decide
    refine (goFresh_iff 1700000000 _ small).mpr (.inl ?_)
    rw [time]
    decide
  refine ⟨parsed,accepted,passes,(accepted_fresh_iff sampleHost sampleSecret sampleBody sampleHeader
    ⟨300,1700000000⟩ ⟨Int64.ofInt (300 * second),1700000000 * second⟩ ⟨300,.int 1700000000⟩
    (by decide)).2.1.mpr (fun other again _ => ?_) parsed accepted passes⟩
  cases Except.ok.inj (again.symm.trans accepted)
  rw [shown]
  exact ⟨by decide,.inl (by decide)⟩

/-- Whole seconds are not rounded across a tolerance below 2^53. -/
theorem whole_not_roundsWithin {difference : ℤ} {tolerance : ℚ} (small : tolerance < 2^53) :
    ¬ RoundsWithin difference tolerance :=
  fun rounds => absurd ((lt_nearest_iff small).mpr rounds.1) (not_lt.mpr rounds.2)

/-- The digest of the sample body under the sample secret at 10923372037. -/
def farHost : WebhookHost Unit :=
  { sampleHost with
    hmacSha256 := fun _ _ => #v[141,247,176,171,156,234,144,118,124,102,29,72,5,197,201,217,172,64,
      92,199,44,103,118,174,96,72,222,241,124,75,68,54] }

def farHeader : List Char := signWebhook farHost sampleSecret sampleBody 10923372037

/-- Signed for some 292 years ahead, the header is accepted by Go. -/
theorem far_header_accepted :
    ∃ parsed, goParseSignatureHeader farHeader = .ok parsed ∧ parsed.timestamp = 10923372037 ∧
      (goVerifyWebhook farHost sampleSecret sampleBody farHeader
        ⟨Int64.ofInt (300 * second),1700000000 * second⟩).isOk = true ∧
      300 * second < |1700000000 * second - parsed.timestamp * second| := by
  obtain ⟨ascii,signed,-,single⟩ := signWebhook_read farHost sampleSecret sampleBody 10923372037
  have whole : (1 : ℤ) ≤ 10923372037 ∧ (10923372037 : ℤ) ≤ maxSafeInteger := by decide
  obtain ⟨time,-⟩ := signWebhook_time farHost sampleSecret sampleBody whole
  obtain ⟨parsed,accepted,same⟩ := goParse_headerTime ascii (signed.mpr (by decide)) single
  have shown : parsed.timestamp = 10923372037 := by
    rw [same]
    exact_mod_cast time
  refine ⟨parsed,accepted,shown,?_,?_⟩
  · refine (goAccepts_iff sampleSecret_nonblank.2.1 rfl ascii).mpr ⟨signed.mpr (by decide),single,?_⟩
    have small : 300 < 2^31 := by decide
    refine (goFresh_iff 1700000000 _ small).mpr (.inr ?_)
    rw [time]
    decide
  · rw [shown]
    decide

end Tonbankcard.Sdk
