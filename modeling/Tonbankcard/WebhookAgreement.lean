import Tonbankcard.WebhookHeaders

/-! Which deliveries the verifiers of the three SDKs accept, and where they accept the same ones. -/
namespace Tonbankcard.Sdk

open Unicode Doubles CanonicalJson

variable {Payload : Type} {host : WebhookHost Payload} {secret header : List Char}
  {body : List UInt8}

section Verifiers

/-- The digest in hexadecimal digits of either case. -/
def Proves (host : WebhookHost Payload) (secret : List Char) (body : List UInt8)
    (text provided : List Char) : Prop :=
  provided.map Char.toLower = encodeHex (digestOf host (utf8 secret) body text)

theorem isOk_bind {result : Except ε α} {next : α → Except ε β} :
    (result >>= next).isOk = true ↔ ∃ a, result = .ok a ∧ (next a).isOk = true := by
  cases result with
  | error reason => simp [bind,Except.bind,Except.isOk,Except.toBool]
  | ok a => simp [bind,Except.bind]

theorem reject_eq_ok_iff {bad : Bool} {reason : Rejection} {a : Unit} :
    reject bad reason = .ok a ↔ bad = false := by
  unfold reject
  cases bad <;> simp

theorem isOk_reject {bad : Bool} {reason : Rejection} :
    (reject bad reason).isOk = true ↔ bad = false := by
  unfold reject
  cases bad <;> simp [Except.isOk,Except.toBool]

theorem found_eq_ok_iff {reason : Rejection} {value : Option α} {a : α} :
    found reason value = .ok a ↔ value = some a := by
  unfold found
  cases value <;> simp

theorem isOk_found {reason : Rejection} {value : Option α} :
    (found reason value).isOk = true ↔ ∃ a, value = some a := by
  unfold found
  cases value <;> simp [Except.isOk,Except.toBool]

theorem encodeHex_filled (v : Vector UInt8 32) : encodeHex v.toList ≠ [] := by
  intro none
  have length := v.length_toList
  cases bytes : v.toList with
  | nil => rw [bytes] at length; exact absurd length (by decide)
  | cons byte rest => rw [bytes] at none; exact absurd none (by simp [encodeHex])

theorem constantTimeEqual_iff {a b : List Char} : constantTimeEqual a b = true ↔ a = b := by
  unfold constantTimeEqual
  constructor
  · intro same
    split at same
    · exact absurd same (by decide)
    · exact utf8_injective (of_decide_eq_true same)
  · rintro rfl
    simp

theorem proves_filled {text provided : List Char} (proves : Proves host secret body text provided) :
    provided ≠ [] := by
  rintro rfl
  exact encodeHex_filled _ proves.symm

theorem parser_missing (reader : HeaderReader) (part : reader.field [] = none) :
    ∀ parsed, reader.parse [] ≠ .ok parsed := by
  intro parsed accepted
  obtain ⟨reading,run,-⟩ := HeaderReader.parse_eq_ok_iff.mp accepted
  exact HeaderReader.readParts_malformed (List.mem_singleton.mpr rfl) part .start reading run

theorem verifyWebhook_isOk_iff {options : VerifyWebhookOptions} :
    (verifyWebhook host secret body header options).isOk = true ↔
      trim jsSpace secret ≠ [] ∧
      ∃ parsed, parseSignatureHeader header = .ok parsed ∧
      |nearest (options.now - parsed.timestamp)| ≤ options.tolerance ∧
      ∃ provided, parsed.versionedSignatures.get signatureVersion = some provided ∧
        Proves host secret body parsed.timestampText provided := by
  simp only [verifyWebhook,isOk_bind,reject_eq_ok_iff,found_eq_ok_iff,isOk_reject,
    exists_const,Bool.not_eq_false',constantTimeEqual_iff,decide_eq_false_iff_not,not_lt,
    List.isEmpty_eq_false_iff]
  refine and_congr_right fun _ => ?_
  constructor
  · rintro ⟨-,parsed,accepted,fresh,provided,signed,-,proves⟩
    exact ⟨parsed,accepted,fresh,provided,signed,proves⟩
  · rintro ⟨parsed,accepted,fresh,provided,signed,proves⟩
    refine ⟨?_,parsed,accepted,fresh,provided,signed,proves_filled proves,proves⟩
    rintro rfl
    exact absurd accepted (by simp [parseSignatureHeader])

theorem goVerifyWebhook_isOk_iff {options : GoVerifyOptions} :
    (goVerifyWebhook host secret body header options).isOk = true ↔
      trim goSpace secret ≠ [] ∧
      ∃ parsed, goParseSignatureHeader header = .ok parsed ∧
      goDelta options.now parsed.timestamp ≤ options.tolerance ∧
      (∃ provided, parsed.versionedSignatures.get signatureVersion = some provided ∧
        Proves host secret body (goTimestampText header) provided) ∧
      (host.goPayload body).isSome = true := by
  simp only [goVerifyWebhook,isOk_bind,reject_eq_ok_iff,found_eq_ok_iff,isOk_found,
    exists_const,decide_eq_false_iff_not,List.isEmpty_eq_false_iff]
  refine and_congr_right fun _ => ?_
  constructor
  · rintro ⟨-,parsed,accepted,fresh,provided,signed,bytes,decoded,expected,own,same,valid⟩
    rw [goComputeSignature,decodeHex_encodeHex] at own
    cases Option.some.inj own
    refine ⟨parsed,accepted,Int64.not_lt.mp fresh,⟨provided,signed,?_⟩,Option.isSome_iff_exists.mpr valid⟩
    rw [not_not.mp same] at decoded
    exact decodeHex_eq_some_iff.mp decoded
  · rintro ⟨parsed,accepted,fresh,⟨provided,signed,proves⟩,valid⟩
    refine ⟨?_,parsed,accepted,Int64.not_lt.mpr fresh,provided,signed,_,
      decodeHex_eq_some_iff.mpr proves,_,decodeHex_encodeHex _,not_not.mpr rfl,
      Option.isSome_iff_exists.mp valid⟩
    rintro rfl
    exact parser_missing _ rfl parsed accepted

theorem hexDigits_of_proves {text provided : List Char}
    (proves : Proves host secret body text provided) :
    provided.all (fun c => (hexDigitValue c).isSome) = true := by
  have digits {s : List Char} {bytes : List UInt8} (decoded : decodeHex s = some bytes) :
      s.all (fun c => (hexDigitValue c).isSome) = true := by
    induction s using decodeHex.induct generalizing bytes with
    | case1 => rfl
    | case2 c => exact absurd decoded (by simp [decodeHex])
    | case3 high low rest ih =>
      obtain ⟨h,first,decoded⟩ := Option.bind_eq_some_iff.mp decoded
      obtain ⟨l,second,decoded⟩ := Option.bind_eq_some_iff.mp decoded
      obtain ⟨tail,later,-⟩ := Option.bind_eq_some_iff.mp decoded
      simp [first,second,ih later]
  exact digits (decodeHex_eq_some_iff.mpr proves)

theorem pyVerifyWebhook_isOk_iff {options : PyVerifyOptions} :
    (pyVerifyWebhook host secret body header options).isOk = true ↔
      trim pySpace secret ≠ [] ∧
      ∃ parsed, pyParseSignatureHeader host header = .ok parsed ∧
      |pyDifference options.now parsed.timestamp| ≤ options.tolerance ∧
      (∃ provided, parsed.versionedSignatures.get signatureVersion = some provided ∧
        Proves host secret body parsed.timestampText provided) ∧
      (host.pyPayload body).isSome = true := by
  have lower (bytes : List UInt8) : (encodeHex bytes).map Char.toLower = encodeHex bytes :=
    decodeHex_eq_some_iff.mp (decodeHex_encodeHex bytes)
  simp only [pyVerifyWebhook,pyParse_trim,isOk_bind,reject_eq_ok_iff,found_eq_ok_iff,isOk_found,
    exists_const,decide_eq_false_iff_not,not_lt,List.isEmpty_eq_false_iff,pyComputeSignature,lower,
    Bool.or_eq_false_iff,Bool.not_eq_false',not_not]
  refine and_congr_right fun _ => ?_
  constructor
  · rintro ⟨-,parsed,accepted,fresh,provided,signed,-,proves,valid⟩
    exact ⟨parsed,accepted,fresh,⟨provided,signed,proves.symm⟩,Option.isSome_iff_exists.mpr valid⟩
  · rintro ⟨parsed,accepted,fresh,⟨provided,signed,proves⟩,valid⟩
    refine ⟨?_,parsed,accepted,fresh,provided,signed,
      ⟨proves_filled proves,hexDigits_of_proves proves⟩,proves.symm,
      Option.isSome_iff_exists.mp valid⟩
    rintro rfl
    exact parser_missing _ rfl parsed accepted

end Verifiers

section Texts

/-- Read with values up to a second equals sign, the header is signed: each part has an equals
sign, each time is one, and the last signature is that of the last time. -/
structure Signed (host : WebhookHost Payload) (secret : List Char) (body : List UInt8)
    (header : List Char) : Prop where
  parted : ∀ part ∈ header.splitOn ',', '=' ∈ part
  times : ∀ part ∈ keyedParts timeKey (header.splitOn ','), isTime (partValue part)
  proof : ∃ time ∈ (keyedParts timeKey (header.splitOn ',')).getLast?,
    ∃ proof ∈ (keyedParts signatureVersion (header.splitOn ',')).getLast?,
      Proves host secret body (partValue time) (partValue proof)

/-- The last time of a header. -/
def headerTime (header : List Char) : Nat :=
  decimalValue (((keyedParts timeKey (header.splitOn ',')).getLast?.map partValue).getD [])

/-- No part starts with its equals sign. -/
def Keyed (header : List Char) : Prop := ∀ part ∈ header.splitOn ',', front part ≠ []

/-- Neither a time nor the last signature is followed by a second equals sign. -/
def Single (header : List Char) : Prop :=
  (∀ part ∈ keyedParts timeKey (header.splitOn ','), '=' ∉ behind part) ∧
    ∀ part ∈ (keyedParts signatureVersion (header.splitOn ',')).getLast?, '=' ∉ behind part

def Short (limit : Nat) (header : List Char) : Prop :=
  ∀ part ∈ keyedParts timeKey (header.splitOn ','), withinDigits limit (partValue part)

theorem splitOn_subset {s : List Char} : ∀ part ∈ s.splitOn ',', part ⊆ s := by
  induction s with
  | nil =>
    intro part member
    rw [List.splitOn_nil] at member
    rw [List.mem_singleton.mp member]
    exact List.nil_subset _
  | cons c rest ih =>
    intro part member
    rw [List.splitOn_cons_eq_if_modifyHead] at member
    split at member
    · rcases List.mem_cons.mp member with rfl | member
      · exact List.nil_subset _
      · exact List.Subset.trans (ih part member) (List.subset_cons_self c rest)
    · obtain ⟨first,parts,pieces⟩ := List.exists_cons_of_ne_nil (List.splitOn_ne_nil ',' rest)
      rw [pieces,List.modifyHead_cons] at member
      rcases List.mem_cons.mp member with rfl | member
      · exact List.cons_subset_cons c (ih first (by rw [pieces]; exact List.mem_cons_self))
      · exact List.Subset.trans (ih part (by rw [pieces]; exact List.mem_cons_of_mem _ member))
          (List.subset_cons_self c rest)

theorem parts_printable (ascii : ∀ c ∈ header, printable c = true) :
    ∀ part ∈ header.splitOn ',', ∀ c ∈ part, printable c = true :=
  fun part member c inside => ascii c (splitOn_subset part member inside)

theorem headerTime_eq {time : List Char}
    (last : time ∈ (keyedParts timeKey (header.splitOn ',')).getLast?) :
    headerTime header = decimalValue (partValue time) := by
  rw [headerTime,Option.mem_def.mp last]
  rfl

theorem last_mem {key part : List Char} (last : part ∈ (keyedParts key parts).getLast?) :
    part ∈ keyedParts key parts := List.mem_of_getLast? (Option.mem_def.mp last)

/-- Without a second equals sign both readings give one value. -/
theorem wholeValue_eq {part : List Char} (single : '=' ∉ behind part) :
    wholeValue part = partValue part := by
  rw [wholeValue,partValue,front_of_notMem single]

theorem single_of_wholeValue {part : List Char} (absent : '=' ∉ wholeValue part) :
    '=' ∉ behind part := fun member => absent (mem_trim (by decide) member)

theorem proves_notMem {text provided : List Char} (proves : Proves host secret body text provided) :
    '=' ∉ provided := by
  intro member
  have digit := List.all_eq_true.mp (hexDigits_of_proves proves) _ member
  exact absurd digit (by decide)

theorem tsAccepts_iff {options : VerifyWebhookOptions} (nonblank : trim jsSpace secret ≠ [])
    (ascii : ∀ c ∈ header, printable c = true) :
    (verifyWebhook host secret body header options).isOk = true ↔
      Signed host secret body header ∧ Keyed header ∧
        |nearest (options.now - headerTime header)| ≤ options.tolerance := by
  rw [verifyWebhook_isOk_iff,and_iff_right nonblank]
  by_cases parted : ∀ part ∈ header.splitOn ',', '=' ∈ part ∧ front part ≠ []
  · have reads : HeaderReader.Reads ⟨tsField,tsTime⟩ partValue (header.splitOn ',') :=
      fun part member => tsField_some (parts_printable ascii part member) (parted part member).1
        (parted part member).2
    have filled : header.isEmpty = false := by
      cases header with
      | nil => exact absurd (parted [] (List.mem_singleton.mpr rfl)).1 List.not_mem_nil
      | cons c rest => rfl
    have run := HeaderReader.parse_signed reads fun timestamp text provided =>
      |nearest (options.now - timestamp)| ≤ options.tolerance ∧
        Proves host secret body text provided
    have accepts : (∃ parsed, parseSignatureHeader header = .ok parsed ∧
        |nearest (options.now - parsed.timestamp)| ≤ options.tolerance ∧
        ∃ provided, parsed.versionedSignatures.get signatureVersion = some provided ∧
          Proves host secret body parsed.timestampText provided) ↔ _ :=
      Iff.trans ⟨fun ⟨parsed,accepted,fresh,provided,signed,proves⟩ =>
        ⟨parsed,by rwa [parseSignatureHeader,filled] at accepted,provided,signed,fresh,proves⟩,
        fun ⟨parsed,accepted,provided,signed,fresh,proves⟩ =>
        ⟨parsed,by rwa [parseSignatureHeader,filled],fresh,provided,signed,proves⟩⟩ run
    rw [accepts]
    constructor
    · rintro ⟨timed,time,last,proof,signed,n,read,fresh,proves⟩
      obtain ⟨-,rfl⟩ := tsTime_eq_ok_iff.mp read
      refine ⟨⟨fun part member => (parted part member).1,fun part member => ?_,time,last,proof,
        signed,proves⟩,fun part member => (parted part member).2,headerTime_eq last ▸ fresh⟩
      obtain ⟨n,read⟩ := timed part member
      exact (tsTime_eq_ok_iff.mp read).1
    · rintro ⟨⟨-,times,time,last,proof,signed,proves⟩,-,fresh⟩
      exact ⟨fun part member => ⟨_,tsTime_eq_ok_iff.mpr ⟨times part member,rfl⟩⟩,time,last,proof,
        signed,_,tsTime_eq_ok_iff.mpr ⟨times time (last_mem last),rfl⟩,
        headerTime_eq last ▸ fresh,proves⟩
  · refine iff_of_false ?_ fun accepted => parted fun part member =>
      ⟨accepted.1.parted part member,accepted.2.1 part member⟩
    rintro ⟨parsed,accepted,-⟩
    simp only [not_forall] at parted
    obtain ⟨part,member,malformed⟩ := parted
    have refused : tsField part = none :=
      tsField_none ((Decidable.not_and_iff_or_not.mp malformed).imp_right not_not.mp)
    unfold parseSignatureHeader at accepted
    split at accepted
    · cases accepted
    · obtain ⟨reading,run,-⟩ := HeaderReader.parse_eq_ok_iff.mp accepted
      exact HeaderReader.readParts_malformed member refused .start reading run

theorem parted_of_parse {reader : HeaderReader}
    (malformed : ∀ part, '=' ∉ part → reader.field part = none)
    (accepted : reader.parse header = .ok parsed) : ∀ part ∈ header.splitOn ',', '=' ∈ part := by
  intro part member
  by_contra absent
  obtain ⟨reading,run,-⟩ := HeaderReader.parse_eq_ok_iff.mp accepted
  exact HeaderReader.readParts_malformed member (malformed part absent) .start reading run

/-- What the parsers with whole values accept, with some demand on the times. -/
theorem wholeParse_iff (host : WebhookHost Payload) (secret : List Char) (body : List UInt8)
    (reader : HeaderReader) (demand : List Char → Prop) (fresh : Nat → Prop)
    (malformed : ∀ part, '=' ∉ part → reader.field part = none)
    (field : ∀ part ∈ header.splitOn ',', '=' ∈ part →
      reader.field part = some (partKey part,wholeValue part))
    (time : ∀ val n, reader.time val = .ok n ↔ (isTime val ∧ demand val) ∧ n = decimalValue val) :
    (∃ parsed, reader.parse header = .ok parsed ∧
      ∃ provided, parsed.versionedSignatures.get signatureVersion = some provided ∧
        fresh parsed.timestamp ∧ Proves host secret body parsed.timestampText provided) ↔
      Signed host secret body header ∧ Single header ∧
        (∀ part ∈ keyedParts timeKey (header.splitOn ','), demand (partValue part)) ∧
        fresh (headerTime header) := by
  by_cases parted : ∀ part ∈ header.splitOn ',', '=' ∈ part
  · have reads : reader.Reads wholeValue (header.splitOn ',') :=
      fun part member => field part member (parted part member)
    rw [HeaderReader.parse_signed reads fun timestamp text provided =>
      fresh timestamp ∧ Proves host secret body text provided]
    constructor
    · rintro ⟨timed,last,final,proof,signed,n,read,near,proves⟩
      have times (part) (member : part ∈ keyedParts timeKey (header.splitOn ',')) :
          (isTime (wholeValue part) ∧ demand (wholeValue part)) ∧ '=' ∉ behind part := by
        obtain ⟨n,read⟩ := timed part member
        have valid := ((time _ _).mp read).1
        exact ⟨valid,single_of_wholeValue (isTime_notMem valid.1)⟩
      have one : '=' ∉ behind proof := single_of_wholeValue (proves_notMem proves)
      obtain ⟨-,rfl⟩ := (time _ _).mp read
      rw [wholeValue_eq (times last (last_mem final)).2] at near proves
      rw [wholeValue_eq one] at proves
      refine ⟨⟨parted,fun part member => ?_,last,final,proof,signed,proves⟩,
        ⟨fun part member => (times part member).2,fun part final => ?_⟩,fun part member => ?_,
        headerTime_eq final ▸ near⟩
      · exact wholeValue_eq (times part member).2 ▸ (times part member).1.1
      · exact Option.mem_unique final signed ▸ one
      · exact wholeValue_eq (times part member).2 ▸ (times part member).1.2
    · rintro ⟨⟨-,times,last,final,proof,signed,proves⟩,⟨singleTimes,singleProof⟩,demanded,near⟩
      have valid (part) (member : part ∈ keyedParts timeKey (header.splitOn ',')) :
          isTime (wholeValue part) ∧ demand (wholeValue part) := by
        rw [wholeValue_eq (singleTimes part member)]
        exact ⟨times part member,demanded part member⟩
      refine ⟨fun part member => ⟨_,(time _ _).mpr ⟨valid part member,rfl⟩⟩,last,final,proof,signed,
        _,(time _ _).mpr ⟨valid last (last_mem final),rfl⟩,?_⟩
      rw [wholeValue_eq (singleTimes last (last_mem final)),wholeValue_eq (singleProof proof signed)]
      exact ⟨headerTime_eq final ▸ near,proves⟩
  · refine iff_of_false ?_ fun accepted => parted accepted.1.parted
    rintro ⟨parsed,accepted,-⟩
    exact parted (parted_of_parse malformed accepted)

theorem goTimestampText_parsed (ascii : ∀ c ∈ header, printable c = true)
    (accepted : goParseSignatureHeader header = .ok parsed) :
    goTimestampText header = parsed.timestampText := by
  have parted := parted_of_parse (fun _ => goField_none) accepted
  have reads : HeaderReader.Reads ⟨goField,goTime⟩ wholeValue (header.splitOn ',') :=
    fun part member => goField_some (parts_printable ascii part member) (parted part member)
  obtain ⟨reading,run,-,text,-⟩ := HeaderReader.parse_eq_ok_iff.mp accepted
  rw [← text,(HeaderReader.kept_of_readParts reads run).text]
  refine goTimestampText_eq fun part member => ?_
  have shown := parts_printable ascii part member
  rw [cut_of_mem (parted part member),Option.getD_some]
  exact ⟨(trim_printable (printable_front shown)).2.1,(trim_printable (printable_behind shown)).2.1⟩

theorem goAccepts_iff {options : GoVerifyOptions} (nonblank : trim goSpace secret ≠ [])
    (valid : (host.goPayload body).isSome = true) (ascii : ∀ c ∈ header, printable c = true) :
    (goVerifyWebhook host secret body header options).isOk = true ↔
      Signed host secret body header ∧ Single header ∧
        goDelta options.now (headerTime header) ≤ options.tolerance := by
  have run := wholeParse_iff host secret body ⟨goField,goTime⟩ (fun _ => True)
    (fun timestamp => goDelta options.now timestamp ≤ options.tolerance)
    (fun _ => goField_none) (fun part member => goField_some (parts_printable ascii part member))
    fun val n => by rw [and_true]; exact goTime_eq_ok_iff
  simp only [implies_true,true_and] at run
  rw [goVerifyWebhook_isOk_iff,and_iff_right nonblank,← run]
  constructor
  · rintro ⟨parsed,accepted,fresh,⟨provided,signed,proves⟩,-⟩
    exact ⟨parsed,accepted,provided,signed,fresh,goTimestampText_parsed ascii accepted ▸ proves⟩
  · rintro ⟨parsed,accepted,provided,signed,fresh,proves⟩
    rw [← goTimestampText_parsed ascii accepted] at proves
    exact ⟨parsed,accepted,fresh,⟨provided,signed,proves⟩,valid⟩

theorem pyAccepts_iff {options : PyVerifyOptions} (nonblank : trim pySpace secret ≠ [])
    (valid : (host.pyPayload body).isSome = true) (ascii : ∀ c ∈ header, printable c = true) :
    (pyVerifyWebhook host secret body header options).isOk = true ↔
      Signed host secret body header ∧ Single header ∧ Short host.intMaxStrDigits header ∧
        |pyDifference options.now (headerTime header)| ≤ options.tolerance := by
  have run := wholeParse_iff host secret body ⟨pyField,pyTime host⟩ _
    (fun timestamp => |pyDifference options.now timestamp| ≤ options.tolerance)
    (fun _ => pyField_none) (fun part member => pyField_some (parts_printable ascii part member))
    fun val n => pyTime_eq_ok_iff
  rw [pyVerifyWebhook_isOk_iff,and_iff_right nonblank,Short,← run]
  constructor
  · rintro ⟨parsed,accepted,fresh,⟨provided,signed,proves⟩,-⟩
    exact ⟨parsed,accepted,provided,signed,fresh,proves⟩
  · rintro ⟨parsed,accepted,provided,signed,fresh,proves⟩
    exact ⟨parsed,accepted,fresh,⟨provided,signed,proves⟩,valid⟩

end Texts

section Clocks

theorem toInt_timeSub (t u : ℤ) :
    (timeSub t u).toInt = max (-2^63) (min (t - u) (2^63 - 1)) := by
  unfold timeSub
  rw [Int64.toInt_minValue,Int64.toInt_maxValue]
  split
  · rw [Int64.toInt_minValue]
    omega
  · split
    · rw [Int64.toInt_maxValue]
      omega
    · rw [Int64.toInt_ofInt_of_le (by omega) (by omega)]
      omega

/-- The distance is exact within 64 bits, the largest integer for a clock far ahead, and negative
for a clock far behind. -/
theorem toInt_goDelta (now : ℤ) (timestamp : Nat) :
    (goDelta now timestamp).toInt =
      if now - timestamp * second ≤ -2^63 then -2^63
      else min |now - timestamp * second| (2^63 - 1) := by
  have sub := toInt_timeSub now (timestamp * second)
  have negative : timeSub now (timestamp * second) < 0 ↔ now - timestamp * second < 0 := by
    rw [Int64.lt_iff_toInt_lt,sub,Int64.toInt_zero]
    omega
  unfold goDelta
  simp only [negative]
  generalize now - timestamp * second = distance at sub ⊢
  split
  · rename_i behind
    rw [Int64.toInt_neg,sub,abs_of_neg behind]
    split
    · rename_i far
      have least : max (-2^63) (min distance (2^63 - 1)) = -2^63 := by omega
      rw [least]
      decide
    · have exact_ : -max (-2^63) (min distance (2^63 - 1)) = -distance := by omega
      rw [exact_,Int.bmod_eq_of_le (by omega) (by omega)]
      omega
  · rename_i ahead
    rw [sub,abs_of_nonneg (not_lt.mp ahead)]
    split <;> omega

/-- Whole seconds are fresh for Go where they are near, and where the clock is far behind. -/
theorem goFresh_iff (now : ℤ) (timestamp : Nat) {tolerance : Nat} (small : tolerance < 2^31) :
    goDelta (now * second) timestamp ≤ Int64.ofInt (tolerance * second) ↔
      |now - timestamp| ≤ tolerance ∨ 2^63 ≤ (timestamp - now) * second := by
  have bound : (tolerance : ℤ) * second < 2^62 := by unfold second; omega
  have nonneg : (0 : ℤ) ≤ tolerance * second := by unfold second; omega
  have distance : now * second - timestamp * second = (now - timestamp) * second := by ring
  rw [Int64.le_iff_toInt_le,toInt_goDelta,Int64.toInt_ofInt_of_le (by omega) (by omega),distance]
  rcases abs_cases (now - timestamp) with ⟨same,sign⟩ | ⟨same,sign⟩
  · have magnitude : |(now - timestamp) * second| = (now - timestamp) * second :=
      abs_of_nonneg (by unfold second; omega)
    rw [same,magnitude]
    unfold second at *
    split <;> omega
  · have magnitude : |(now - timestamp) * second| = -((now - timestamp) * second) :=
      abs_of_neg (by unfold second; omega)
    rw [same,magnitude]
    unfold second at *
    split <;> omega

theorem tsFresh_iff {now : ℤ} {timestamp tolerance : Nat} (small : tolerance < 2^31) :
    |nearest ((now : ℚ) - timestamp)| ≤ (tolerance : ℚ) ↔ |now - timestamp| ≤ tolerance := by
  have bound : (tolerance : ℚ) < 2^53 := by
    have weak : tolerance < 2^53 := by omega
    exact_mod_cast weak
  have crossing := lt_nearest_iff (n := now - timestamp) bound
  rw [← not_lt,← not_lt,not_iff_not]
  push_cast at crossing
  rw [crossing]
  have cast : ((|now - timestamp| : ℤ) : ℚ) = |(now : ℚ) - timestamp| := by push_cast; rfl
  rw [← cast]
  exact_mod_cast Iff.rfl

theorem pyFresh_iff {now : ℤ} {timestamp tolerance : Nat} :
    |pyDifference (.int now) timestamp| ≤ (tolerance : ℚ) ↔ |now - timestamp| ≤ tolerance := by
  rw [pyDifference]
  exact_mod_cast Iff.rfl

end Clocks

section TwoParts

variable {ts proof : List Char}

/-- A header of one time and one signature. -/
def twoParts (ts proof : List Char) : List Char :=
  't' :: '=' :: (ts ++ ',' :: (signatureVersion ++ '=' :: proof))

theorem twoParts_split (time : ',' ∉ ts) (signature : ',' ∉ proof) :
    (twoParts ts proof).splitOn ',' = ['t' :: '=' :: ts,signatureVersion ++ '=' :: proof] := by
  have first : ',' ∉ 't' :: '=' :: ts := by simp [time]
  have second : ',' ∉ signatureVersion ++ '=' :: proof := by simp [signatureVersion,signature]
  change ('t' :: '=' :: ts ++ ',' :: (signatureVersion ++ '=' :: proof)).splitOn ',' = _
  rw [List.splitOn_append_cons_self_of_not_mem first,List.splitOn_eq_singleton second]

theorem twoParts_time (ts proof : List Char) :
    keyedParts timeKey ['t' :: '=' :: ts,signatureVersion ++ '=' :: proof] = ['t' :: '=' :: ts] := rfl

theorem twoParts_signature (ts proof : List Char) :
    keyedParts signatureVersion ['t' :: '=' :: ts,signatureVersion ++ '=' :: proof] =
      [signatureVersion ++ '=' :: proof] := rfl

theorem signed_twoParts (time : ',' ∉ ts) (signature : ',' ∉ proof) :
    Signed host secret body (twoParts ts proof) ↔ isTime (trim commonSpace (front ts)) ∧
      Proves host secret body (trim commonSpace (front ts)) (trim commonSpace (front proof)) := by
  have split := twoParts_split time signature
  constructor
  · rintro ⟨-,times,proved⟩
    rw [split,twoParts_time] at times proved
    rw [twoParts_signature] at proved
    obtain ⟨_,last,_,final,proves⟩ := proved
    cases Option.some.inj last
    cases Option.some.inj final
    exact ⟨times _ List.mem_cons_self,proves⟩
  · rintro ⟨valid,proves⟩
    refine ⟨?_,?_,?_⟩
    · rw [split]
      intro part member
      rcases List.mem_pair.mp member with rfl | rfl <;> simp [signatureVersion]
    · rw [split,twoParts_time]
      exact fun part member => List.mem_singleton.mp member ▸ valid
    · rw [split,twoParts_time,twoParts_signature]
      exact ⟨_,rfl,_,rfl,proves⟩

theorem single_twoParts (time : ',' ∉ ts) (signature : ',' ∉ proof) :
    Single (twoParts ts proof) ↔ '=' ∉ ts ∧ '=' ∉ proof := by
  rw [Single,twoParts_split time signature,twoParts_time,twoParts_signature]
  constructor
  · rintro ⟨times,signatures⟩
    exact ⟨times _ List.mem_cons_self,signatures _ rfl⟩
  · rintro ⟨times,signatures⟩
    exact ⟨fun part member => List.mem_singleton.mp member ▸ times,
      fun part final => Option.some.inj final ▸ signatures⟩

theorem keyed_twoParts (time : ',' ∉ ts) (signature : ',' ∉ proof) : Keyed (twoParts ts proof) := by
  rw [Keyed,twoParts_split time signature]
  intro part member
  rcases List.mem_pair.mp member with rfl | rfl <;> simp [front,signatureVersion]

theorem headerTime_twoParts (time : ',' ∉ ts) (signature : ',' ∉ proof) :
    headerTime (twoParts ts proof) = decimalValue (trim commonSpace (front ts)) := by
  rw [headerTime,twoParts_split time signature,twoParts_time]
  rfl

theorem short_twoParts (time : ',' ∉ ts) (signature : ',' ∉ proof) (limit : Nat) :
    Short limit (twoParts ts proof) ↔ withinDigits limit (trim commonSpace (front ts)) := by
  rw [Short,twoParts_split time signature,twoParts_time]
  exact ⟨fun all => all _ List.mem_cons_self,
    fun short part member => List.mem_singleton.mp member ▸ short⟩

theorem printable_twoParts (time : ∀ c ∈ ts, printable c = true)
    (signature : ∀ c ∈ proof, printable c = true) : ∀ c ∈ twoParts ts proof, printable c = true := by
  intro c member
  simp only [twoParts,signatureVersion,List.mem_cons,List.mem_append,List.not_mem_nil,or_false] at member
  rcases member with rfl | rfl | inside | rfl | (rfl | rfl) | rfl | inside
  · rfl
  · rfl
  · exact time c inside
  · rfl
  · rfl
  · rfl
  · rfl
  · exact signature c inside

end TwoParts

section Server

/-- A minus sign, a decimal digit or one of the letters of hexadecimal digits. -/
def plainChar (c : Char) : Bool :=
  c.toNat = 45 || (48 ≤ c.toNat && c.toNat ≤ 57) || (97 ≤ c.toNat && c.toNat ≤ 102)

theorem plainChar_facts {c : Char} (plain : plainChar c = true) :
    c ≠ ',' ∧ c ≠ '=' ∧ commonSpace c = false ∧ printable c = true := by
  simp only [plainChar,Bool.or_eq_true,Bool.and_eq_true,decide_eq_true_eq] at plain
  refine ⟨?_,?_,?_,?_⟩
  · rintro rfl
    simp at plain
  · rintro rfl
    simp at plain
  · simp only [commonSpace,Bool.or_eq_false_iff,Bool.and_eq_false_iff,decide_eq_false_iff_not]
    omega
  · simp only [printable,Bool.and_eq_true,decide_eq_true_eq]
    omega

theorem encodeHex_plain (bytes : List UInt8) : ∀ c ∈ encodeHex bytes, plainChar c = true := by
  have digit : ∀ n < 16, plainChar (Nat.digitChar n) = true := by decide
  intro c member
  obtain ⟨byte,-,shown⟩ := List.mem_flatMap.mp member
  have range := byte.toNat_lt
  rcases List.mem_pair.mp shown with rfl | rfl
  · exact digit _ (by omega)
  · exact digit _ (by omega)

theorem digit_plain {c : Char} (digit : c.isDigit = true) : plainChar c = true := by
  obtain ⟨-,low,high⟩ := EcmaScript.digitUnit_range digit
  simp [plainChar,low,high]

theorem integerText_plain (timestamp : ℤ) :
    ∀ c ∈ integerText timestamp, plainChar c = true := by
  have digits (n : Nat) : ∀ c ∈ Nat.toDigits 10 n, plainChar c = true := fun c member =>
    digit_plain (Nat.isDigit_of_mem_toDigits (by decide) (by decide) member)
  intro c member
  unfold integerText at member
  split at member
  · rcases List.mem_cons.mp member with rfl | member
    · rfl
    · exact digits _ c member
  · exact digits _ c member

theorem isTime_integerText {timestamp : ℤ} : isTime (integerText timestamp) ↔
    1 ≤ timestamp ∧ timestamp ≤ maxSafeInteger := by
  unfold isTime integerText
  split
  · rename_i negative
    have refused : isDecimal ('-' :: Nat.toDigits 10 timestamp.natAbs) = false := rfl
    rw [refused]
    simp only [Bool.false_eq_true,false_and,false_iff]
    omega
  · rw [isDecimal_toDigits,decimalValue_toDigits,eq_self,true_and]
    omega

theorem signWebhook_eq (timestamp : ℤ) : signWebhook host secret body timestamp =
    twoParts (integerText timestamp)
      (computeWebhookSignature host secret (integerText timestamp) body) := rfl

/-- Plain texts are read as they are. -/
theorem plain_read {s : List Char} (plain : ∀ c ∈ s, plainChar c = true) :
    ',' ∉ s ∧ '=' ∉ s ∧ trim commonSpace (front s) = s ∧ ∀ c ∈ s, printable c = true := by
  have equals : '=' ∉ s := fun member => (plainChar_facts (plain _ member)).2.1 rfl
  refine ⟨fun member => (plainChar_facts (plain _ member)).1 rfl,equals,?_,fun c member =>
    (plainChar_facts (plain c member)).2.2.2⟩
  rw [front_of_notMem equals]
  exact trim_solid fun c member => (plainChar_facts (plain c member)).2.2.1

theorem integerText_short {timestamp : ℤ} (whole : 1 ≤ timestamp ∧ timestamp ≤ maxSafeInteger) :
    withinDigits host.intMaxStrDigits (integerText timestamp) := by
  have length : (integerText timestamp).length ≤ 16 := by
    have size : maxSafeInteger < 10^16 := by decide
    rw [integerText,if_neg (by omega)]
    exact (Nat.length_toDigits_le_iff (by decide) (by decide)).mpr (by omega)
  have range := host.intMaxStrDigits_range
  unfold withinDigits
  omega

/-- How the verifiers read a header that the server signed. -/
theorem signWebhook_read (host : WebhookHost Payload) (secret : List Char) (body : List UInt8)
    (timestamp : ℤ) :
    (∀ c ∈ signWebhook host secret body timestamp, printable c = true) ∧
    (Signed host secret body (signWebhook host secret body timestamp) ↔
      1 ≤ timestamp ∧ timestamp ≤ maxSafeInteger) ∧
    Keyed (signWebhook host secret body timestamp) ∧
    Single (signWebhook host secret body timestamp) := by
  obtain ⟨time,timeEquals,timeRead,timeAscii⟩ := plain_read (integerText_plain timestamp)
  obtain ⟨proof,proofEquals,proofRead,proofAscii⟩ := plain_read (s := computeWebhookSignature host
    secret (integerText timestamp) body) (encodeHex_plain _)
  have lower : Proves host secret body (integerText timestamp)
      (computeWebhookSignature host secret (integerText timestamp) body) :=
    decodeHex_eq_some_iff.mp (decodeHex_encodeHex _)
  rw [signWebhook_eq]
  refine ⟨printable_twoParts timeAscii proofAscii,?_,keyed_twoParts time proof,
    (single_twoParts time proof).mpr ⟨timeEquals,proofEquals⟩⟩
  rw [signed_twoParts time proof,timeRead,proofRead,isTime_integerText]
  exact and_iff_left lower

/-- A second equals sign behind the server's signature. -/
theorem secondEquals_read (host : WebhookHost Payload) (secret : List Char) (body : List UInt8)
    {timestamp : ℤ} (whole : 1 ≤ timestamp ∧ timestamp ≤ maxSafeInteger) :
    Signed host secret body (signWebhook host secret body timestamp ++ ['=']) ∧
    ¬ Single (signWebhook host secret body timestamp ++ ['=']) ∧
    Keyed (signWebhook host secret body timestamp ++ ['=']) ∧
    (headerTime (signWebhook host secret body timestamp ++ ['=']) : ℤ) = timestamp := by
  obtain ⟨time,-,timeRead,-⟩ := plain_read (integerText_plain timestamp)
  obtain ⟨proof,proofEquals,proofRead,-⟩ := plain_read (s := computeWebhookSignature host
    secret (integerText timestamp) body) (encodeHex_plain _)
  have lower : Proves host secret body (integerText timestamp)
      (computeWebhookSignature host secret (integerText timestamp) body) :=
    decodeHex_eq_some_iff.mp (decodeHex_encodeHex _)
  have longer : ',' ∉ computeWebhookSignature host secret (integerText timestamp) body ++ ['='] := by
    simp [proof]
  have same : signWebhook host secret body timestamp ++ ['='] = twoParts (integerText timestamp)
      (computeWebhookSignature host secret (integerText timestamp) body ++ ['=']) := by
    simp [signWebhook_eq,twoParts]
  rw [front_of_notMem proofEquals] at proofRead
  have value : (decimalValue (integerText timestamp) : ℤ) = timestamp := by
    rw [integerText,if_neg (by omega),decimalValue_toDigits]
    omega
  rw [same,signed_twoParts time longer,single_twoParts time longer,headerTime_twoParts time longer,
    timeRead,front_equals proofEquals,proofRead,isTime_integerText]
  exact ⟨⟨whole,lower⟩,by simp,keyed_twoParts time longer,value⟩

theorem signWebhook_time (host : WebhookHost Payload) (secret : List Char) (body : List UInt8)
    {timestamp : ℤ} (whole : 1 ≤ timestamp ∧ timestamp ≤ maxSafeInteger) :
    (headerTime (signWebhook host secret body timestamp) : ℤ) = timestamp ∧
    Short host.intMaxStrDigits (signWebhook host secret body timestamp) := by
  obtain ⟨time,-,timeRead,-⟩ := plain_read (integerText_plain timestamp)
  obtain ⟨proof,-⟩ := plain_read (s := computeWebhookSignature host
    secret (integerText timestamp) body) (encodeHex_plain _)
  rw [signWebhook_eq,headerTime_twoParts time proof,short_twoParts time proof,timeRead]
  refine ⟨?_,integerText_short whole⟩
  rw [integerText,if_neg (by omega),decimalValue_toDigits]
  omega

end Server

section Agreement

/-- One delivery at one time, in whole seconds, to the three SDKs. -/
def tsVerdict (host : WebhookHost Payload) (secret : List Char) (body : List UInt8)
    (header : List Char) (now : ℤ) (tolerance : Nat) : Bool :=
  (verifyWebhook host secret body header ⟨tolerance,now⟩).isOk

def goVerdict (host : WebhookHost Payload) (secret : List Char) (body : List UInt8)
    (header : List Char) (now : ℤ) (tolerance : Nat) : Bool :=
  (goVerifyWebhook host secret body header
    ⟨Int64.ofInt (tolerance * second),now * second⟩).isOk

def pyVerdict (host : WebhookHost Payload) (secret : List Char) (body : List UInt8)
    (header : List Char) (now : ℤ) (tolerance : Nat) : Bool :=
  (pyVerifyWebhook host secret body header ⟨tolerance,.int now⟩).isOk

/-- On a signed header near its time the separators and the digits decide alike; away from it Go
does not take the header for a fresh one. -/
def OneVerdict (limit : Nat) (header : List Char) (now : ℤ) (tolerance : Nat) : Prop :=
  if |now - headerTime header| ≤ tolerance then
    Keyed header ∧ Single header ∧ Short limit header ∨ ¬ Keyed header ∧ ¬ Single header
  else Single header → (headerTime header - now) * second < 2^63

/-- The verifiers agree on a delivery exactly where its header is not signed or passes for one
verdict, and on the server's headers where the timestamp is from 1 to 2^53 - 1. -/
theorem verifiers_agree_iff (host : WebhookHost Payload) (secret : List Char) (body : List UInt8)
    (header : List Char) (now : ℤ) (tolerance : Nat)
    (nonblank : trim jsSpace secret ≠ [] ∧ trim goSpace secret ≠ [] ∧ trim pySpace secret ≠ [])
    (valid : (host.goPayload body).isSome = true ∧ (host.pyPayload body).isSome = true)
    (ascii : ∀ c ∈ header, printable c = true) (small : tolerance < 2^31) :
    (tsVerdict host secret body header now tolerance =
          goVerdict host secret body header now tolerance ∧
        goVerdict host secret body header now tolerance =
          pyVerdict host secret body header now tolerance ↔
      (Signed host secret body header → OneVerdict host.intMaxStrDigits header now tolerance)) ∧
    ∀ timestamp : ℤ, |now - timestamp| ≤ tolerance →
      (tsVerdict host secret body (signWebhook host secret body timestamp) now tolerance = true ∧
        goVerdict host secret body (signWebhook host secret body timestamp) now tolerance = true ∧
        pyVerdict host secret body (signWebhook host secret body timestamp) now tolerance = true ↔
      1 ≤ timestamp ∧ timestamp ≤ maxSafeInteger) := by
  obtain ⟨tsSecret,goSecret,pySecret⟩ := nonblank
  have ts {header : List Char} (ascii : ∀ c ∈ header, printable c = true) :
      tsVerdict host secret body header now tolerance = true ↔ Signed host secret body header ∧
        Keyed header ∧ |now - headerTime header| ≤ tolerance := by
    rw [tsVerdict,tsAccepts_iff tsSecret ascii,tsFresh_iff small]
  have go {header : List Char} (ascii : ∀ c ∈ header, printable c = true) :
      goVerdict host secret body header now tolerance = true ↔ Signed host secret body header ∧
        Single header ∧ (|now - headerTime header| ≤ tolerance ∨
          2^63 ≤ (headerTime header - now) * second) := by
    rw [goVerdict,goAccepts_iff goSecret valid.1 ascii,goFresh_iff _ _ small]
  have py {header : List Char} (ascii : ∀ c ∈ header, printable c = true) :
      pyVerdict host secret body header now tolerance = true ↔ Signed host secret body header ∧
        Single header ∧ Short host.intMaxStrDigits header ∧
        |now - headerTime header| ≤ tolerance := by
    rw [pyVerdict,pyAccepts_iff pySecret valid.2 ascii,pyFresh_iff]
  constructor
  · refine (and_congr Bool.eq_iff_iff Bool.eq_iff_iff).trans ?_
    rw [ts ascii,go ascii,py ascii,OneVerdict]
    by_cases signed : Signed host secret body header
    · by_cases near : |now - headerTime header| ≤ tolerance
      · simp only [signed,near,true_or,and_true,true_and,if_true,forall_const]
        tauto
      · simp only [signed,near,false_or,and_false,true_and,if_false,forall_const,← not_le]
        tauto
    · simp [signed]
  · intro timestamp near
    obtain ⟨shown,signed,keyed,single⟩ :=
      signWebhook_read host secret body timestamp
    rw [ts shown,go shown,py shown,signed]
    constructor
    · exact fun all => all.1.1
    · intro whole
      obtain ⟨time,short⟩ := signWebhook_time host secret body whole
      rw [time]
      exact ⟨⟨whole,keyed,near⟩,⟨whole,single,.inl near⟩,whole,single,short,near⟩

/-- The digest of the sample body under the sample secret at 1700000000. -/
def sampleHost : WebhookHost Unit where
  hmacSha256 _ _ := #v[59,131,240,198,52,54,85,98,21,243,224,237,138,204,102,6,108,230,122,
    208,165,24,200,59,185,146,225,77,240,113,171,137]
  goPayload _ := some ()
  pyPayload _ := some ()
  intMaxStrDigits := 4300
  intMaxStrDigits_range := .inr (by decide)

def sampleSecret : List Char := ['w','h','s','e','c']

def sampleBody : List UInt8 := utf8 ("\x7b\"event\":\"invoice.settled\",\"invoice_id\":\"inv_1\"," ++
  "\"status\":\"settled\",\"timestamp\":\"2026-01-01T00:00:00Z\"\x7d").toList

def sampleHeader : List Char := signWebhook sampleHost sampleSecret sampleBody 1700000000

theorem sampleSecret_nonblank : trim jsSpace sampleSecret ≠ [] ∧ trim goSpace sampleSecret ≠ [] ∧
    trim pySpace sampleSecret ≠ [] := by decide

/-- The three accept the server's header. -/
theorem verifiers_agree_iff_sample :
    tsVerdict sampleHost sampleSecret sampleBody sampleHeader 1700000000 300 = true ∧
      goVerdict sampleHost sampleSecret sampleBody sampleHeader 1700000000 300 = true ∧
      pyVerdict sampleHost sampleSecret sampleBody sampleHeader 1700000000 300 = true :=
  ((verifiers_agree_iff sampleHost sampleSecret sampleBody sampleHeader 1700000000 300
    sampleSecret_nonblank ⟨rfl,rfl⟩ (signWebhook_read _ _ _ 1700000000).1 (by decide)).2 1700000000
    (by decide)).mpr (by decide)

/-- A second equals sign behind the signature: TypeScript drops it and accepts, Go and Python
reject. -/
theorem second_equals_splits :
    (∀ c ∈ sampleHeader ++ ['='], printable c = true) ∧
      tsVerdict sampleHost sampleSecret sampleBody (sampleHeader ++ ['=']) 1700000000 300 = true ∧
      goVerdict sampleHost sampleSecret sampleBody (sampleHeader ++ ['=']) 1700000000 300 = false ∧
      pyVerdict sampleHost sampleSecret sampleBody (sampleHeader ++ ['=']) 1700000000 300 = false := by
  have whole : (1 : ℤ) ≤ 1700000000 ∧ (1700000000 : ℤ) ≤ maxSafeInteger := by decide
  obtain ⟨signed,single,shown⟩ := secondEquals_read sampleHost sampleSecret sampleBody whole
  have ascii : ∀ c ∈ sampleHeader ++ ['='], printable c = true := by
    intro c member
    rcases List.mem_append.mp member with inside | last
    · exact (signWebhook_read _ _ _ 1700000000).1 c inside
    · rw [List.mem_singleton.mp last]
      decide
  refine ⟨ascii,?_,?_,?_⟩
  · rw [tsVerdict,tsAccepts_iff sampleSecret_nonblank.1 ascii]
    refine ⟨signed,?_,?_⟩
    · exact shown.1
    · change |nearest (((1700000000 : ℤ) : ℚ) - headerTime _)| ≤ ((300 : ℕ) : ℚ)
      rw [tsFresh_iff (by decide)]
      change |(1700000000 : ℤ) - headerTime (signWebhook _ _ _ _ ++ ['='])| ≤ _
      rw [shown.2]
      decide
  · rw [goVerdict,Bool.eq_false_iff,ne_eq,goAccepts_iff sampleSecret_nonblank.2.1 rfl ascii]
    exact fun accepted => single accepted.2.1
  · rw [pyVerdict,Bool.eq_false_iff,ne_eq,pyAccepts_iff sampleSecret_nonblank.2.2 rfl ascii]
    exact fun accepted => single accepted.2.1

end Agreement

end Tonbankcard.Sdk
