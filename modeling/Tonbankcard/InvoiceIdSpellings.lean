import Tonbankcard.InvoiceIdPayload
import Tonbankcard.SdkCanonicalBytes

/-! What the texts of an address and of an amount denote, which texts each SDK takes, and the
bytes of the payload. -/
namespace Tonbankcard.Sdk

open EcmaScript Unicode CanonicalJson

section Texts

/-- The white space of some language. -/
def anySpace (c : Char) : Bool := jsSpace c || goSpace c || pySpace c

/-- A character of an address or an amount. -/
def solidChar (c : Char) : Bool := isFriendlyChar c || c = ':'

theorem alphanum_range {c : Char} (alphanum : c.isAlphanum = true) :
    48 ≤ c.toNat ∧ c.toNat ≤ 122 := by
  delta Char.isAlphanum Char.isAlpha Char.isUpper Char.isLower Char.isDigit at alphanum
  simp only [Bool.or_eq_true,Bool.and_eq_true,decide_eq_true_eq,ge_iff_le,
    UInt32.le_iff_toNat_le] at alphanum
  have same : c.val.toNat = c.toNat := rfl
  rw [same] at alphanum
  simp at alphanum
  omega

theorem solidChar_solid {c : Char} (solid : solidChar c = true) : anySpace c = false := by
  have range : 43 ≤ c.toNat ∧ c.toNat ≤ 122 := by
    simp only [solidChar,isFriendlyChar,Bool.or_eq_true,decide_eq_true_eq] at solid
    rcases solid with ((((alphanum | rfl) | rfl) | rfl) | rfl) | rfl
    · have letters := alphanum_range alphanum
      omega
    all_goals decide
  simp only [anySpace,jsSpace,goSpace,pySpace,commonSpace,Bool.or_eq_false_iff,
    Bool.and_eq_false_iff,decide_eq_false_iff_not]
  omega

theorem hexDigit_solid {c : Char} (digit : (hexDigitValue c).isSome = true) : solidChar c = true := by
  obtain ⟨n,value⟩ := Option.isSome_iff_exists.mp digit
  obtain ⟨small,lower⟩ := hexDigitValue_eq_some_iff.mp value
  have alphanum : c.isAlphanum = true := by
    by_cases upper : c.isUpper = true
    · delta Char.isAlphanum Char.isAlpha
      rw [upper,Bool.true_or,Bool.true_or]
    · have same : c.toLower = c := by
        unfold Char.toLower
        refine dif_neg fun range => upper ?_
        exact decide_eq_true range
      have digits : ∀ n < 16, (Nat.digitChar n).isAlphanum = true := by decide
      rw [← same,← lower]
      exact digits n small
  simp [solidChar,isFriendlyChar,alphanum]

theorem isDecimal_solid {s : List Char} (decimal : isDecimal s = true) :
    ∀ c ∈ s, solidChar c = true := by
  intro c member
  have digit := isDecimal_digit decimal member
  simp [solidChar,isFriendlyChar,Char.isAlphanum,digit]

theorem isWorkchain_solid {s : List Char} (workchain : isWorkchain s = true) :
    ∀ c ∈ s, solidChar c = true := by
  unfold isWorkchain at workchain
  split at workchain
  · intro c member
    rcases List.mem_cons.mp member with rfl | member
    · rfl
    · exact isDecimal_solid workchain c member
  · exact isDecimal_solid workchain

theorem isRawForm_solid {s : List Char} (raw : isRawForm s = true) :
    ∀ c ∈ s, solidChar c = true := by
  simp only [isRawForm,Bool.and_eq_true] at raw
  obtain ⟨⟨⟨-,workchain⟩,-⟩,digits⟩ := raw
  intro c member
  rw [← List.takeWhile_append_dropWhile (p := (· ≠ ':')) (l := s)] at member
  rcases List.mem_append.mp member with front | back
  · exact isWorkchain_solid workchain c front
  · cases rest : s.dropWhile (· ≠ ':') with
    | nil => rw [rest] at back; exact absurd back List.not_mem_nil
    | cons d account =>
      have colon : d = ':' := by
        have head := List.head_dropWhile_not (· ≠ ':') (l := s) (by rw [rest]; exact List.cons_ne_nil _ _)
        simp only [rest,List.head_cons] at head
        simpa using head
      rw [rest] at back
      rcases List.mem_cons.mp back with rfl | inside
      · rw [colon]
        rfl
      · refine hexDigit_solid (List.all_eq_true.mp digits c ?_)
        rw [accountText,rest]
        exact inside

theorem friendly_solid {s : List Char} (friendly : decodeFriendlyTonAddress s ≠ none) :
    ∀ c ∈ s, solidChar c = true := by
  unfold decodeFriendlyTonAddress at friendly
  split at friendly
  · rename_i form
    intro c member
    have inside := List.all_eq_true.mp (Bool.and_eq_true_iff.mp form).2 c member
    simp [solidChar,inside]
  · exact absurd rfl friendly

theorem isAmount_solid {s : List Char} (amount : isAmount s = true) :
    ∀ c ∈ s, solidChar c = true := by
  cases s with
  | nil => cases amount
  | cons c rest =>
    simp only [isAmount,Bool.and_eq_true] at amount
    exact isDecimal_solid (by simp [isDecimal,amount.1.1,amount.2])

theorem raw_not_friendly {s : List Char} (raw : isRawForm s = true) :
    decodeFriendlyTonAddress s = none := by
  simp only [isRawForm,Bool.and_eq_true] at raw
  have colon : ':' ∈ s := List.contains_iff_mem.mp raw.1.1.1
  unfold decodeFriendlyTonAddress
  refine if_neg fun form => ?_
  have friendly := List.all_eq_true.mp (Bool.and_eq_true_iff.mp form).2 ':' colon
  exact absurd friendly (by decide)

end Texts

section Addresses

def signedByte (byte : UInt8) : ℤ :=
  if 128 ≤ byte.toNat then byte.toNat - 256 else byte.toNat

def workchainValue (s : List Char) : ℤ := (splitSign s).1 * decimalValue (splitSign s).2

/-- The address that a text without white space around it denotes. -/
def denoted (s : List Char) : Option RawAddress :=
  if isRawForm s then
    (decodeHex (accountText s)).map fun account => ⟨workchainValue (workchainText s),account⟩
  else
    (decodeFriendlyTonAddress s).map fun decoded =>
      ⟨signedByte decoded[1]!,(decoded.drop 2).take 32⟩

def spelledAddress (s : List Char) : Option RawAddress := denoted (trim anySpace s)

/-- The reader trims white space, reads the workchains that fit and takes bytes for signed. -/
structure AddressReader.Sound (reader : AddressReader) (fits : List Char → Prop) : Prop where
  space : ∀ c, reader.space c = true → anySpace c = true
  int : ∀ s, isWorkchain s = true → ∀ n, reader.int s = some n ↔ fits s ∧ n = workchainValue s
  signed : ∀ byte, reader.signed byte = signedByte byte

/-- The white space around the text is the language's own, and a workchain fits. -/
def AddressReader.Takes (reader : AddressReader) (fits : List Char → Prop) (s : List Char) : Prop :=
  trim reader.space s = trim anySpace s ∧
    (isRawForm (trim anySpace s) = true → fits (workchainText (trim anySpace s)))

theorem trim_solid_text {space : Char → Bool} (sub : ∀ c, space c = true → anySpace c = true)
    {s : List Char} (solid : ∀ c ∈ trim space s, solidChar c = true) :
    trim anySpace s = trim space s :=
  trim_wider sub fun c member => solidChar_solid (solid c member)

variable {reader : AddressReader} {fits : List Char → Prop}

theorem canonicalize_eq_some_iff (sound : reader.Sound fits) {s text : List Char} :
    reader.canonicalize s = some text ↔
      reader.Takes fits s ∧ ∃ a, spelledAddress s = some a ∧ text = a.toRawString := by
  have workchain {t : List Char} (raw : isRawForm t = true) :
      isWorkchain (workchainText t) = true := by
    simp only [isRawForm,Bool.and_eq_true] at raw
    exact raw.1.1.2
  unfold AddressReader.canonicalize AddressReader.Takes spelledAddress denoted
  constructor
  · intro accepted
    simp only at accepted
    split at accepted
    · rename_i valid
      simp only [AddressReader.isValidRaw,Bool.and_eq_true] at valid
      obtain ⟨⟨raw,-⟩,hex⟩ := valid
      obtain ⟨n,read,rfl⟩ := Option.map_eq_some_iff.mp accepted
      obtain ⟨account,decoded⟩ := Option.isSome_iff_exists.mp hex
      obtain ⟨fit,rfl⟩ := (sound.int _ (workchain raw) n).mp read
      rw [trim_solid_text sound.space (isRawForm_solid raw),if_pos raw,decoded]
      refine ⟨⟨rfl,fun _ => fit⟩,_,rfl,?_⟩
      rw [decodeHex_eq_some_iff.mp decoded]
      rfl
    · obtain ⟨decoded,friendly,rfl⟩ := Option.map_eq_some_iff.mp accepted
      have form : decodeFriendlyTonAddress (trim reader.space s) ≠ none := by
        rw [friendly]
        exact Option.some_ne_none decoded
      have other : ¬ isRawForm (trim reader.space s) = true := fun raw => form (raw_not_friendly raw)
      rw [trim_solid_text sound.space (friendly_solid form),if_neg other,friendly]
      exact ⟨⟨rfl,fun raw => absurd raw other⟩,_,rfl,by rw [sound.signed]; rfl⟩
  · rintro ⟨⟨trims,fit⟩,a,spelled,rfl⟩
    simp only [trims]
    generalize trim anySpace s = core at fit spelled
    split at spelled
    · rename_i raw
      obtain ⟨account,decoded,rfl⟩ := Option.map_eq_some_iff.mp spelled
      have read := (sound.int _ (workchain raw) _).mpr ⟨fit raw,rfl⟩
      rw [if_pos (by simp [AddressReader.isValidRaw,raw,read,decoded]),read,Option.map_some,
        decodeHex_eq_some_iff.mp decoded]
      rfl
    · rename_i other
      obtain ⟨decoded,friendly,rfl⟩ := Option.map_eq_some_iff.mp spelled
      rw [if_neg (by simp [AddressReader.isValidRaw,other]),friendly,Option.map_some,sound.signed]
      rfl

/-- The workchain is within 64 bits. -/
def fits64 (s : List Char) : Prop := -2^63 ≤ workchainValue s ∧ workchainValue s < 2^63

/-- Python's `int` takes all digits of the workchain. -/
def fitsDigits (limit : Nat) (s : List Char) : Prop := withinDigits limit (splitSign s).2

theorem workchain_digits {s : List Char} (workchain : isWorkchain s = true) :
    isDecimal (splitSign s).2 = true := by
  unfold isWorkchain at workchain
  split at workchain
  · exact workchain
  · rw [splitSign_decimal workchain]
    exact workchain

theorem goReader_sound : goReader.Sound fits64 where
  space c space := by
    have go : goSpace c = true := space
    simp [anySpace,go]
  int s workchain n := by
    have decimal := workchain_digits workchain
    change parseInt s = some n ↔ _
    rw [parseInt,fits64,workchainValue]
    simp only [decimal,Bool.true_and,Bool.and_eq_true,decide_eq_true_eq,
      Option.ite_none_right_eq_some,Option.some.injEq]
    exact and_congr_right fun _ => eq_comm
  signed byte := by
    have toNat : byte.toBitVec.toNat = byte.toNat := rfl
    change byte.toBitVec.toInt = _
    rw [BitVec.toInt_eq_toNat_cond,signedByte,toNat]
    split <;> split <;> omega

theorem pyReader_sound (limit : Nat) : (pyReader limit).Sound (fitsDigits limit) where
  space c space := by
    have py : pySpace c = true := space
    simp [anySpace,py]
  int s workchain n := by
    have decimal := workchain_digits workchain
    change pyInt limit s = some n ↔ _
    rw [pyInt,fitsDigits,workchainValue]
    simp only [decimal,Bool.true_and,decide_eq_true_eq,Option.ite_none_right_eq_some,
      Option.some.injEq]
    exact and_congr_right fun _ => eq_comm
  signed byte := rfl

end Addresses

section Amounts

def spelledAmount (s : List Char) : Option Nat :=
  if isAmount (trim anySpace s) && decide (decimalValue (trim anySpace s) ≤ maxAmount) then
    some (decimalValue (trim anySpace s))
  else none

theorem goValidateAmount_iff {s : List Char} : goValidateAmount s = true ↔
    trim goSpace s = trim anySpace s ∧ (spelledAmount s).isSome = true := by
  unfold goValidateAmount spelledAmount
  constructor
  · intro valid
    have form := (Bool.and_eq_true_iff.mp valid).1
    have same := trim_solid_text goReader_sound.space (isAmount_solid form)
    change trim anySpace s = trim goSpace s at same
    rw [same]
    exact ⟨rfl,by rw [if_pos valid]; rfl⟩
  · rintro ⟨same,valid⟩
    rw [same]
    by_contra refused
    rw [if_neg refused] at valid
    cases valid

theorem isAmount_decimal {s : List Char} (amount : isAmount s = true) : isDecimal s = true := by
  cases s with
  | nil => cases amount
  | cons c rest =>
    simp only [isAmount,Bool.and_eq_true] at amount
    simp [isDecimal,amount.1.1,amount.2]

/-- An amount has no leading zero, and so no more digits than its bound. -/
theorem isAmount_short {s : List Char} (amount : isAmount s = true)
    (small : decimalValue s ≤ maxAmount) : s.length ≤ 37 := by
  cases s with
  | nil => cases amount
  | cons c rest =>
    simp only [isAmount,Bool.and_eq_true,decide_eq_true_eq,ne_eq] at amount
    obtain ⟨-,low,-⟩ := digitUnit_range amount.1.1
    have first : c.toNat ≠ 48 := fun zero => amount.1.2 (char_eq zero)
    rw [decimalValue,Nat.ofDigitChars_cons,Nat.ofDigitChars_eq_ofDigitChars_zero] at small
    have positive : 1 ≤ 10 * 0 + (c.toNat - '0'.toNat) := by
      change 1 ≤ 10 * 0 + (c.toNat - 48)
      omega
    have power : 10 ^ rest.length ≤ maxAmount :=
      le_trans (Nat.le_mul_of_pos_right _ positive) (le_trans (Nat.le_add_right _ _) small)
    have bound : maxAmount < 10 ^ 37 := by decide
    have length := (Nat.pow_lt_pow_iff_right (by decide)).mp (power.trans_lt bound)
    rw [List.length_cons]
    omega

theorem pyValidateAmount_iff {limit : Nat} (range : limit = 0 ∨ 640 ≤ limit) {s : List Char} :
    pyValidateAmount limit s = true ↔
      trim pySpace s = trim anySpace s ∧ (spelledAmount s).isSome = true := by
  have read {t : List Char} (amount : isAmount t = true) : pyInt limit t =
      if withinDigits limit t then some (decimalValue t : ℤ) else none := by
    have decimal := isAmount_decimal amount
    rw [pyInt,splitSign_decimal decimal]
    simp [decimal]
  unfold pyValidateAmount spelledAmount
  constructor
  · intro valid
    obtain ⟨form,value⟩ := Bool.and_eq_true_iff.mp valid
    have same := trim_solid_text (pyReader_sound limit).space (isAmount_solid form)
    change trim anySpace s = trim pySpace s at same
    rw [read form] at value
    have small : decimalValue (trim pySpace s) ≤ maxAmount := by
      split at value
      · simpa using value
      · cases value
    rw [same,form]
    simp [small]
  · rintro ⟨same,valid⟩
    rw [same]
    have both : isAmount (trim anySpace s) = true ∧ decimalValue (trim anySpace s) ≤ maxAmount := by
      by_contra refused
      rw [if_neg (by simpa using refused)] at valid
      cases valid
    have within : withinDigits limit (trim anySpace s) := by
      have short := isAmount_short both.1 both.2
      unfold withinDigits
      omega
    simp only
    rw [read both.1,if_pos within,both.1]
    simp [both.2]

end Amounts

section Payloads

def payloadJson (amount merchantNft orderId timestamp : List Char) : JsonValue :=
  .object ((payloadFields amount merchantNft orderId timestamp).map fun (key,text) =>
    (key,.string text))

theorem payloadFields_distinct (amount merchantNft orderId timestamp : List Char) :
    (((payloadFields amount merchantNft orderId timestamp).map fun (key,text) =>
      (key,JsonValue.string text)).map Prod.fst).Nodup := by
  change ["amount_tbc".toList,"merchant_nft".toList,"order_id".toList,"timestamp".toList].Nodup
  decide

theorem payloadJson_wellFormed (amount merchantNft orderId timestamp : List Char) :
    (payloadJson amount merchantNft orderId timestamp).WellFormed maxSafeInteger := by
  refine .object (payloadFields_distinct _ _ _ _) fun field member => ?_
  · obtain ⟨pair,-,rfl⟩ := List.mem_map.mp member
    exact .string _

/-- The bytes of the payload. -/
def payloadBytes (amount merchantNft orderId timestamp : List Char) : List UInt8 :=
  utf8 (canonical.encode (payloadJson amount merchantNft orderId timestamp))

theorem payloadBytes_inj {amount amount' merchantNft merchantNft' orderId orderId' timestamp
      timestamp' : List Char}
    (same : payloadBytes amount merchantNft orderId timestamp =
      payloadBytes amount' merchantNft' orderId' timestamp') :
    amount = amount' ∧ merchantNft = merchantNft' ∧ orderId = orderId' ∧ timestamp = timestamp' := by
  have equal := canonical_reads.same_of_encode (utf8_injective same)
  have field (key : List Char) {text text' : List Char}
      (left : (key,text) ∈ payloadFields amount merchantNft orderId timestamp)
      (right : (key,text') ∈ payloadFields amount' merchantNft' orderId' timestamp') :
      text = text' := by
    have strings := equal.member (payloadFields_distinct _ _ _ _)
      (List.mem_map.mpr ⟨_,left,rfl⟩) (List.mem_map.mpr ⟨_,right,rfl⟩)
    cases strings with
    | string s => rfl
  refine ⟨field "amount_tbc".toList ?_ ?_,field "merchant_nft".toList ?_ ?_,
    field "order_id".toList ?_ ?_,field "timestamp".toList ?_ ?_⟩ <;>
    simp [payloadFields]

theorem toRawString_injective : Function.Injective RawAddress.toRawString := by
  intro a b same
  unfold RawAddress.toRawString at same
  have apart (n : ℤ) : ':' ∉ integerText n := by
    intro member
    have numeral := integerText_numeral member
    exact absurd numeral (by decide)
  have pieces (n : ℤ) (account : List UInt8) :
      (integerText n ++ ':' :: encodeHex account).splitOn ':' =
        integerText n :: (encodeHex account).splitOn ':' :=
    List.splitOn_append_cons_self_of_not_mem (apart n) _
  have parts := congrArg (List.splitOn ':') same
  rw [pieces,pieces] at parts
  have workchain := integerText_injective (List.cons.inj parts).1
  rw [workchain] at same
  have account := List.cons.inj (List.append_cancel_left same)
  have bytes := (decodeHex_encodeHex a.account).symm.trans
    ((congrArg decodeHex account.2).trans (decodeHex_encodeHex b.account))
  cases a
  cases b
  simp_all

/-- What Go asks of the address and the amount besides what they denote. -/
def GoTakes (params : GoInvoiceIDParams) : Prop :=
  goReader.Takes fits64 params.merchantNFT ∧
    trim goSpace params.amountTBC = trim anySpace params.amountTBC

def PyTakes (limit : Nat) (params : GoInvoiceIDParams) : Prop :=
  (pyReader limit).Takes (fitsDigits limit) params.merchantNFT ∧
    trim pySpace params.amountTBC = trim anySpace params.amountTBC

/-- The address and the amount denote something. -/
def Spelled (params : GoInvoiceIDParams) : Prop :=
  (spelledAddress params.merchantNFT).isSome = true ∧ (spelledAmount params.amountTBC).isSome = true

/-- Python's bytes for the parameters that Go takes. -/
def pyBytes (limit : Nat) (params : GoInvoiceIDParams) : Option (List UInt8) :=
  (pyCanonicalInvoiceIdPayload limit params.merchantNFT params.amountTBC (some params.orderID)
    params.timestamp.toInt).map utf8

theorem goPayload_eq_some_iff {params : GoInvoiceIDParams} {bytes : List UInt8} :
    goCanonicalInvoiceIDPayload params = some bytes ↔
      GoTakes params ∧ (spelledAmount params.amountTBC).isSome = true ∧
      ∃ a, spelledAddress params.merchantNFT = some a ∧ bytes = payloadBytes params.amountTBC
        a.toRawString params.orderID (integerText params.timestamp.toInt) := by
  have encoded (nft : List Char) : goCanonicalJSON (.object ((payloadFields params.amountTBC nft
      params.orderID (integerText params.timestamp.toInt)).map fun (key,text) => (key,.string text))) =
      some (payloadBytes params.amountTBC nft params.orderID (integerText params.timestamp.toInt)) :=
    goCanonicalJSON_ofJson (payloadJson_wellFormed _ _ _ _)
  unfold goCanonicalInvoiceIDPayload GoTakes
  rw [Option.bind_eq_bind,Option.bind_eq_some_iff]
  constructor
  · rintro ⟨nft,address,rest⟩
    split at rest
    · rename_i valid
      obtain ⟨takes,a,spelled,rfl⟩ := (canonicalize_eq_some_iff goReader_sound).mp address
      obtain ⟨trims,amount⟩ := goValidateAmount_iff.mp valid
      rw [encoded] at rest
      exact ⟨⟨takes,trims⟩,amount,a,spelled,(Option.some.inj rest).symm⟩
    · cases rest
  · rintro ⟨⟨takes,trims⟩,amount,a,spelled,rfl⟩
    refine ⟨a.toRawString,(canonicalize_eq_some_iff goReader_sound).mpr ⟨takes,a,spelled,rfl⟩,?_⟩
    rw [if_pos (goValidateAmount_iff.mpr ⟨trims,amount⟩),encoded]

theorem pyBytes_eq_some_iff {limit : Nat} (range : limit = 0 ∨ 640 ≤ limit)
    {params : GoInvoiceIDParams} {bytes : List UInt8} :
    pyBytes limit params = some bytes ↔
      PyTakes limit params ∧ (spelledAmount params.amountTBC).isSome = true ∧
      ∃ a, spelledAddress params.merchantNFT = some a ∧ bytes = payloadBytes params.amountTBC
        a.toRawString params.orderID (integerText params.timestamp.toInt) := by
  have encoded (nft : List Char) : pyCanonicalJson (.object ((payloadFields params.amountTBC nft
      params.orderID (integerText params.timestamp.toInt)).map fun (key,text) => (key,.string text))) =
      some (canonical.encode (payloadJson params.amountTBC nft params.orderID
        (integerText params.timestamp.toInt))) :=
    pyCanonicalJson_ofJson (payloadJson_wellFormed _ _ _ _)
  unfold pyBytes pyCanonicalInvoiceIdPayload PyTakes
  rw [Option.getD_some,Option.map_eq_some_iff]
  constructor
  · rintro ⟨text,built,rfl⟩
    split at built
    · rename_i valid
      obtain ⟨nft,address,rest⟩ := Option.bind_eq_some_iff.mp built
      obtain ⟨takes,a,spelled,rfl⟩ := (canonicalize_eq_some_iff (pyReader_sound limit)).mp address
      obtain ⟨trims,amount⟩ := (pyValidateAmount_iff range).mp valid
      rw [encoded] at rest
      exact ⟨⟨takes,trims⟩,amount,a,spelled,by rw [← Option.some.inj rest]; rfl⟩
    · cases built
  · rintro ⟨⟨takes,trims⟩,amount,a,spelled,rfl⟩
    refine ⟨_,?_,rfl⟩
    rw [if_pos ((pyValidateAmount_iff range).mpr ⟨trims,amount⟩)]
    refine Option.bind_eq_some_iff.mpr ⟨a.toRawString,
      (canonicalize_eq_some_iff (pyReader_sound limit)).mpr ⟨takes,a,spelled,rfl⟩,?_⟩
    rw [encoded]

end Payloads

section TypeScript

def tsAddress (parse : List Char → Option RawAddress) : TsAddress → Option RawAddress
  | .address a => some a
  | .text s => parse (trim jsSpace s)

def tsBytes (parse : List Char → Option RawAddress) (merchantNft : TsAddress) (amountTbc : ℤ)
    (orderId : List Char) (timestamp : TsTimestamp) : Option (List UInt8) :=
  (canonicalInvoiceIdPayload parse merchantNft amountTbc (some (utf16 orderId)) timestamp).map
    encodeUtf8

theorem decimal_utf16 (n : ℤ) : decimal n = utf16 (integerText n) := by
  have single {c : Char} (member : c ∈ integerText n) : utf16Char c = [UInt16.ofNat c.toNat] := by
    have numeral := integerText_numeral member
    simp only [isNumeral,Bool.or_eq_true,beq_iff_eq] at numeral
    rcases numeral with digit | rfl
    · obtain ⟨-,-,high⟩ := digitUnit_range digit
      exact utf16Char_single (by omega)
    · rfl
  rw [decimal_integerText,utf16,List.flatMap_congr fun c member => single member,
    ← List.map_eq_flatMap]

theorem tsBytes_eq_some_iff {parse : List Char → Option RawAddress} {merchantNft : TsAddress}
    {amountTbc t : ℤ} {orderId : List Char} {timestamp : TsTimestamp} {bytes : List UInt8}
    (time : canonicalTimestamp timestamp = some (decimal t)) :
    tsBytes parse merchantNft amountTbc orderId timestamp = some bytes ↔
      (0 < amountTbc ∧ amountTbc ≤ maxAmount) ∧ ∃ a, tsAddress parse merchantNft = some a ∧
        bytes = payloadBytes (integerText amountTbc) a.toRawString orderId (integerText t) := by
  have address : canonicalizeTonAddress parse merchantNft =
      (tsAddress parse merchantNft).map RawAddress.toRawString := by
    cases merchantNft <;> rfl
  have encoded (nft : List Char) : canonicalJson (.object [(js "amount_tbc",.string (decimal amountTbc)),
      (js "merchant_nft",.string (utf16 nft)),(js "order_id",.string ((some (utf16 orderId)).getD [])),
      (js "timestamp",.string (decimal t))]) = some (utf16 (canonical.encode
        (payloadJson (integerText amountTbc) nft orderId (integerText t)))) := by
    rw [← canonicalJson_ofJson (payloadJson_wellFormed _ _ _ _),decimal_utf16,decimal_utf16]
    rfl
  unfold tsBytes canonicalInvoiceIdPayload
  by_cases outside : amountTbc ≤ 0 ∨ (maxAmount : ℤ) < amountTbc
  · rw [if_pos (by simpa using outside)]
    refine iff_of_false (by simp) ?_
    rintro ⟨range,-⟩
    omega
  · have range : 0 < amountTbc ∧ amountTbc ≤ maxAmount := by omega
    rw [if_neg (by simpa using outside),address,time,and_iff_right range]
    cases tsAddress parse merchantNft with
    | none => simp
    | some a =>
      simp only [Option.map_some,Option.bind_eq_bind,Option.bind_some]
      rw [encoded,Option.map_some,encodeUtf8_utf16]
      constructor
      · intro same
        exact ⟨a,rfl,(Option.some.inj same).symm⟩
      · rintro ⟨b,same,rfl⟩
        rw [Option.some.inj same]
        rfl

theorem isAmount_toDigits {n : Nat} (positive : 0 < n) : isAmount (Nat.toDigits 10 n) = true := by
  have digits : (Nat.toDigits 10 n).all Char.isDigit = true :=
    List.all_eq_true.mpr fun c member => toDigits_digit member
  have head : (Nat.toDigits 10 n).head? ≠ some '0' := by
    clear digits
    induction n using Nat.strong_induction_on with
    | _ n ih =>
      by_cases small : n < 10
      · have single : ∀ n < 10, 0 < n → [Nat.digitChar n].head? ≠ some '0' := by decide
        rw [Nat.toDigits_of_lt_base small]
        exact single n small positive
      · rw [Nat.toDigits_of_base_le (by decide) (by omega)]
        have earlier := ih (n / 10) (by omega) (by omega)
        obtain ⟨c,rest,shown⟩ := List.exists_cons_of_ne_nil (Nat.toDigits_ne_nil (b := 10) (n := n / 10))
        rw [shown] at earlier ⊢
        exact earlier
  cases shown : Nat.toDigits 10 n with
  | nil => exact absurd shown Nat.toDigits_ne_nil
  | cons c rest =>
    rw [shown] at digits head
    have first : c ≠ '0' := fun zero => head (by rw [zero]; rfl)
    obtain ⟨digit,others⟩ := List.all_cons.symm.trans digits |> Bool.and_eq_true_iff.mp
    simp [isAmount,digit,others,first]

theorem spelledAmount_integerText {n : ℤ} (range : 0 < n ∧ n ≤ maxAmount) :
    (spelledAmount (integerText n)).isSome = true ∧
      ∀ space : Char → Bool, (∀ c, space c = true → anySpace c = true) →
        trim space (integerText n) = integerText n := by
  have shown : integerText n = Nat.toDigits 10 n.toNat := by rw [integerText,if_neg (by omega)]
  have amount : isAmount (integerText n) = true := by
    rw [shown]
    exact isAmount_toDigits (by omega)
  have trims (space : Char → Bool) (sub : ∀ c, space c = true → anySpace c = true) :
      trim space (integerText n) = integerText n := by
    refine trim_solid fun c member => ?_
    have solid := solidChar_solid (isAmount_solid amount c member)
    cases blank : space c with
    | false => rfl
    | true => rw [sub c blank] at solid; cases solid
  have value : decimalValue (integerText n) ≤ maxAmount := by
    rw [shown,decimalValue_toDigits]
    omega
  refine ⟨?_,trims⟩
  rw [spelledAmount,trims anySpace fun _ => id,amount]
  simp [value]

end TypeScript

section Agreement

/-- The parameters mean the same: one address, one amount, one order and one time. -/
structure SameMeaning (params other : GoInvoiceIDParams) : Prop where
  address : spelledAddress params.merchantNFT = spelledAddress other.merchantNFT
  amount : spelledAmount params.amountTBC = spelledAmount other.amountTBC
  order : params.orderID = other.orderID
  time : params.timestamp = other.timestamp

/-- TypeScript's amount and timestamp are those of the parameters. -/
structure Represents (params : GoInvoiceIDParams) (amountTbc : ℤ) (timestamp : TsTimestamp) :
    Prop where
  amount : params.amountTBC = integerText amountTbc
  time : canonicalTimestamp timestamp = some (decimal params.timestamp.toInt)

/-- The bytes of two spellings, where the parameters are taken. -/
theorem spellings_iff {build : GoInvoiceIDParams → Option (List UInt8)}
    {Takes : GoInvoiceIDParams → Prop} (built : ∀ params bytes, build params = some bytes ↔
      Takes params ∧ (spelledAmount params.amountTBC).isSome = true ∧
      ∃ a, spelledAddress params.merchantNFT = some a ∧ bytes = payloadBytes params.amountTBC
        a.toRawString params.orderID (integerText params.timestamp.toInt))
    {params other : GoInvoiceIDParams} (meaning : SameMeaning params other) :
    (∀ bytes bytes', build params = some bytes → build other = some bytes' → bytes = bytes') ↔
      (Spelled params → Takes params → Takes other → params.amountTBC = other.amountTBC) := by
  constructor
  · rintro same ⟨address,amount⟩ takes takes'
    obtain ⟨a,spelled⟩ := Option.isSome_iff_exists.mp address
    have first := (built params _).mpr ⟨takes,amount,a,spelled,rfl⟩
    have second := (built other _).mpr ⟨takes',meaning.amount ▸ amount,a,
      meaning.address.symm.trans spelled,rfl⟩
    exact (payloadBytes_inj (same _ _ first second)).1
  · intro same bytes bytes' first second
    obtain ⟨takes,amount,a,spelled,rfl⟩ := (built params bytes).mp first
    obtain ⟨takes',-,b,spelled',rfl⟩ := (built other bytes').mp second
    have address : a = b :=
      Option.some.inj (spelled.symm.trans (meaning.address.trans spelled'))
    have text := same ⟨Option.isSome_iff_exists.mpr ⟨a,spelled⟩,amount⟩ takes takes'
    rw [text,address,meaning.order,meaning.time]

/-- Two spellings give the same bytes exactly where the amounts are one text. Go and Python take
the same parameters exactly where both or neither take the white space and the workchain.
TypeScript's bytes are theirs exactly where they take the address that it parses. -/
theorem invoice_payload_iff (limit : Nat) (range : limit = 0 ∨ 640 ≤ limit)
    (parse : List Char → Option RawAddress) (params : GoInvoiceIDParams) :
    (∀ other, SameMeaning params other →
      ((∀ bytes bytes', goCanonicalInvoiceIDPayload params = some bytes →
          goCanonicalInvoiceIDPayload other = some bytes' → bytes = bytes') ↔
        (Spelled params → GoTakes params → GoTakes other → params.amountTBC = other.amountTBC)) ∧
      ((∀ bytes bytes', pyBytes limit params = some bytes →
          pyBytes limit other = some bytes' → bytes = bytes') ↔
        (Spelled params → PyTakes limit params → PyTakes limit other →
          params.amountTBC = other.amountTBC))) ∧
    (((goCanonicalInvoiceIDPayload params).isSome = true ↔ (pyBytes limit params).isSome = true) ↔
      (Spelled params → (GoTakes params ↔ PyTakes limit params))) ∧
    ∀ merchantNft amountTbc timestamp, Represents params amountTbc timestamp →
      ((∀ bytes, tsBytes parse merchantNft amountTbc params.orderID timestamp = some bytes →
          goCanonicalInvoiceIDPayload params = some bytes ∧ pyBytes limit params = some bytes) ↔
        (0 < amountTbc ∧ amountTbc ≤ maxAmount → ∀ a, tsAddress parse merchantNft = some a →
          spelledAddress params.merchantNFT = some a ∧ GoTakes params ∧ PyTakes limit params)) := by
  have go {params bytes} := @goPayload_eq_some_iff params bytes
  have py {params bytes} := @pyBytes_eq_some_iff _ range params bytes
  refine ⟨fun other meaning => ⟨spellings_iff (fun _ _ => go) meaning,
    spellings_iff (fun _ _ => py) meaning⟩,?_,?_⟩
  · have accepts {build : Option (List UInt8)} {Takes : Prop} (built : ∀ bytes, build = some bytes ↔
        Takes ∧ (spelledAmount params.amountTBC).isSome = true ∧
        ∃ a, spelledAddress params.merchantNFT = some a ∧ bytes = payloadBytes params.amountTBC
          a.toRawString params.orderID (integerText params.timestamp.toInt)) :
        build.isSome = true ↔ Takes ∧ Spelled params := by
      rw [Option.isSome_iff_exists,Spelled]
      constructor
      · rintro ⟨bytes,result⟩
        obtain ⟨takes,amount,a,spelled,-⟩ := (built bytes).mp result
        exact ⟨takes,Option.isSome_iff_exists.mpr ⟨a,spelled⟩,amount⟩
      · rintro ⟨takes,address,amount⟩
        obtain ⟨a,spelled⟩ := Option.isSome_iff_exists.mp address
        exact ⟨_,(built _).mpr ⟨takes,amount,a,spelled,rfl⟩⟩
    rw [accepts fun _ => go,accepts fun _ => py]
    tauto
  · intro merchantNft amountTbc timestamp represents
    have ts {bytes} := @tsBytes_eq_some_iff parse merchantNft amountTbc _ params.orderID _ bytes
      represents.time
    constructor
    · intro same inside a parsed
      obtain ⟨first,second⟩ := same _ (ts.mpr ⟨inside,a,parsed,rfl⟩)
      obtain ⟨takes,-,b,spelled,bytes⟩ := go.mp first
      have address := toRawString_injective (payloadBytes_inj bytes).2.1
      exact ⟨address ▸ spelled,takes,(py.mp second).1⟩
    · intro same bytes result
      obtain ⟨inside,a,parsed,rfl⟩ := ts.mp result
      obtain ⟨spelled,goTakes,pyTakes⟩ := same inside a parsed
      have amount := (spelledAmount_integerText inside).1
      rw [← represents.amount] at amount ⊢
      exact ⟨go.mpr ⟨goTakes,amount,a,spelled,rfl⟩,py.mpr ⟨pyTakes,amount,a,spelled,rfl⟩⟩

/-- An order for five nanocoins to the zero address in its raw form. -/
def rawParams : GoInvoiceIDParams where
  merchantNFT := '0' :: ':' :: List.replicate 64 '0'
  amountTBC := ['5']
  orderID := []
  timestamp := 0

def blankParams : GoInvoiceIDParams := { rawParams with amountTBC := [' ','5'] }

def friendlyParams : GoInvoiceIDParams :=
  { rawParams with merchantNFT := "EQAAAAAAAAAAAAAAAAAAAAAAAAAAAAAAAAAAAAAAAAAAAM9c".toList }

theorem rawParams_address :
    spelledAddress rawParams.merchantNFT = some ⟨0,List.replicate 32 0⟩ := by
  decide +kernel

theorem friendlyParams_address :
    spelledAddress friendlyParams.merchantNFT = some ⟨0,List.replicate 32 0⟩ := by
  decide +kernel

theorem rawParams_taken : GoTakes rawParams ∧ PyTakes 4300 rawParams := by
  refine ⟨⟨⟨by decide +kernel,fun _ => ?_⟩,by decide⟩,⟨by decide +kernel,fun _ => ?_⟩,by decide⟩
  · have value : workchainValue (workchainText (trim anySpace rawParams.merchantNFT)) = 0 := by
      decide +kernel
    unfold fits64
    omega
  · refine .inr ?_
    decide +kernel

/-- The raw and the friendly form give one payload in all three. -/
theorem invoice_payload_iff_forms :
    (∃ bytes, goCanonicalInvoiceIDPayload rawParams = some bytes ∧
      goCanonicalInvoiceIDPayload friendlyParams = some bytes) ∧
    ((goCanonicalInvoiceIDPayload rawParams).isSome = true ↔ (pyBytes 4300 rawParams).isSome = true) ∧
    ∃ bytes, tsBytes (fun _ => none) (.address ⟨0,List.replicate 32 0⟩) 5 [] (.bigint 0) = some bytes ∧
      goCanonicalInvoiceIDPayload rawParams = some bytes ∧ pyBytes 4300 rawParams = some bytes := by
  obtain ⟨goTakes,pyTakes⟩ := rawParams_taken
  have amount : (spelledAmount rawParams.amountTBC).isSome = true := by decide
  obtain ⟨meaning,agree,typeScript⟩ :=
    invoice_payload_iff 4300 (.inr (by decide)) (fun _ => none) rawParams
  refine ⟨?_,agree.mpr fun _ => iff_of_true goTakes pyTakes,?_⟩
  · have takes : GoTakes friendlyParams :=
      ⟨⟨by decide +kernel,fun raw => absurd raw (by decide +kernel)⟩,by decide⟩
    have first := goPayload_eq_some_iff.mpr ⟨goTakes,amount,_,rawParams_address,rfl⟩
    have second := goPayload_eq_some_iff.mpr ⟨takes,by decide,_,friendlyParams_address,rfl⟩
    have same := (meaning friendlyParams ⟨rawParams_address.trans friendlyParams_address.symm,rfl,rfl,
      rfl⟩).1.mpr (fun _ _ _ => rfl) _ _ first second
    exact ⟨_,first,same ▸ second⟩
  · have result := (@tsBytes_eq_some_iff (fun _ => none) (.address ⟨0,List.replicate 32 0⟩) 5 _ []
      (.bigint 0) _ rfl).mpr
      ⟨by decide,_,rfl,rfl⟩
    exact ⟨_,result,(typeScript (.address ⟨0,List.replicate 32 0⟩) 5 (.bigint 0) ⟨by decide,rfl⟩).mpr
      (fun _ a shown => Option.some.inj shown ▸ ⟨rawParams_address,goTakes,pyTakes⟩) _ result⟩

/-- A blank before the amount is accepted and gets into the bytes. -/
theorem blank_amount_differs :
    SameMeaning rawParams blankParams ∧
    (∃ bytes bytes', goCanonicalInvoiceIDPayload rawParams = some bytes ∧
      goCanonicalInvoiceIDPayload blankParams = some bytes' ∧ bytes ≠ bytes') ∧
    ∃ bytes bytes', pyBytes 4300 rawParams = some bytes ∧ pyBytes 4300 blankParams = some bytes' ∧
      bytes ≠ bytes' := by
  obtain ⟨goTakes,pyTakes⟩ := rawParams_taken
  have amount : (spelledAmount rawParams.amountTBC).isSome = true := by decide
  have blank : (spelledAmount blankParams.amountTBC).isSome = true := by decide
  refine ⟨⟨rfl,by decide,rfl,rfl⟩,⟨_,_,goPayload_eq_some_iff.mpr ⟨goTakes,amount,_,
    rawParams_address,rfl⟩,goPayload_eq_some_iff.mpr ⟨⟨goTakes.1,by decide⟩,blank,_,
    rawParams_address,rfl⟩,fun same => ?_⟩,_,_,(pyBytes_eq_some_iff (.inr (by decide))).mpr ⟨pyTakes,
    amount,_,rawParams_address,rfl⟩,(pyBytes_eq_some_iff (.inr (by decide))).mpr
    ⟨⟨pyTakes.1,by decide⟩,blank,_,rawParams_address,rfl⟩,fun same => ?_⟩
  · exact absurd (payloadBytes_inj same).1 (by decide)
  · exact absurd (payloadBytes_inj same).1 (by decide)

end Agreement

end Tonbankcard.Sdk
