import Tonbankcard.MerchantApiHashes
import Tonbankcard.SdkCanonicalBytes

/-! The payload of an invoice in the canonical text of the API and in that of the TypeScript SDK.
They agree on whole numbers and on strings without line and paragraph separators. -/
namespace Tonbankcard.MerchantApi

open EcmaScript Unicode

/-- The metadata of a request with the invoice id in the place of any field of that name. -/
def requestPayload (metadata : Option (JsMap JsString (Option MetadataValue)))
    (invoiceId : JsString) : JsMap JsString (Option MetadataValue) :=
  (metadata.getD JsMap.empty).set (js "invoice_id") (some (.string invoiceId))

def sdkValue : Option MetadataValue → Sdk.TsValue
  | none => .undefined
  | some (.string s) => .string s
  | some (.number n) => .number n
  | some (.boolean b) => .boolean b

/-- The text that `hashMetadata` hashes. -/
def apiText (payload : JsMap JsString (Option MetadataValue)) : Option JsString :=
  canonicalize (.object (payload.entries.map fun field => (field.1,optionalValue field.2)))

/-- The text that `createPayloadHash` hashes, `none` where it throws. -/
def sdkText (payload : JsMap JsString (Option MetadataValue)) : Option JsString :=
  Sdk.canonicalJson (.object (payload.entries.map fun field => (field.1,sdkValue field.2)))

def isSeparator (unit : UInt16) : Bool := unit = 0x2028 || unit = 0x2029

/-- What both encoders write alike. -/
def MetadataValue.Portable : MetadataValue → Prop
  | .string s => s.any isSeparator = false
  | .number n => Sdk.isSafeInteger n = true
  | .boolean _ => True

section Separators

theorem separatorsReplaced_free {s : JsString} (free : s.any isSeparator = false) :
    Sdk.separatorsReplaced s = s := by
  induction s with
  | nil => rfl
  | cons unit rest ih =>
    rw [List.any_cons,Bool.or_eq_false_iff] at free
    obtain ⟨line,paragraph⟩ := Bool.or_eq_false_iff.mp free.1
    rw [Sdk.separatorsReplaced_cons (of_decide_eq_false line) (of_decide_eq_false paragraph),
      ih free.2]

/-- No separator is left. -/
theorem separatorsReplaced_any (s : JsString) :
    (Sdk.separatorsReplaced s).any isSeparator = false := by
  induction s with
  | nil => rfl
  | cons unit rest ih =>
    have parts := Sdk.separatorsReplaced_append [unit] rest
    rw [List.singleton_append] at parts
    rw [parts,List.any_append,ih,Bool.or_false]
    by_cases line : unit = 0x2028
    · rw [line]
      decide
    by_cases paragraph : unit = 0x2029
    · rw [paragraph]
      decide
    rw [Sdk.separatorsReplaced_cons line paragraph]
    simp [Sdk.separatorsReplaced,Sdk.replaceUnit,isSeparator,line,paragraph]

theorem separatorsReplaced_iff (s : JsString) :
    Sdk.separatorsReplaced s = s ↔ s.any isSeparator = false := by
  constructor
  · intro same
    rw [← same]
    exact separatorsReplaced_any s
  · exact separatorsReplaced_free

theorem any_ascii {s : JsString} (ascii : ∀ unit ∈ s, unit < 128) :
    s.any isSeparator = false := by
  rw [List.any_eq_false]
  intro unit member separator
  have small := ascii unit member
  rcases Bool.or_eq_true_iff.mp separator with line | paragraph
  · rw [of_decide_eq_true line] at small
    exact absurd small (by decide)
  · rw [of_decide_eq_true paragraph] at small
    exact absurd small (by decide)

theorem any_quoteUnit (unit : UInt16) : (quoteUnit unit).any isSeparator = isSeparator unit := by
  by_cases line : unit = 0x2028
  · rw [line]
    decide
  by_cases paragraph : unit = 0x2029
  · rw [paragraph]
    decide
  have plain : isSeparator unit = false := by simp [isSeparator,line,paragraph]
  rcases quoteUnit_units unit with ascii | ⟨same,-⟩
  · rw [plain,any_ascii ascii]
  · rw [same,List.any_cons,List.any_nil,Bool.or_false]

/-- Quoting keeps the separators of a string. -/
theorem any_quote (s : JsString) : (quote s).any isSeparator = s.any isSeparator := by
  have units : (quoteUnits s).any isSeparator = s.any isSeparator := by
    induction s using quoteUnits.induct with
    | case1 => rfl
    | case2 unit => rw [quoteUnits,any_quoteUnit,List.any_cons,List.any_nil,Bool.or_false]
    | case3 unit next rest pair ih =>
      rw [quoteUnits,if_pos pair,List.any_cons,List.any_cons,ih,List.any_cons,List.any_cons]
    | case4 unit next rest apart ih =>
      rw [quoteUnits,if_neg apart,List.any_append,any_quoteUnit,ih,List.any_cons (l := next :: rest)]
  have closed : isSeparator 34 = false := by decide
  rw [quote,List.any_cons,List.any_append,units,closed]
  simp [closed]

end Separators

section Texts

def MetadataValue.isWhole : MetadataValue → Bool
  | .number n => Sdk.isSafeInteger n
  | _ => true

theorem MetadataValue.portable_iff (value : MetadataValue) :
    value.Portable ↔ value.isWhole = true ∧ value.text.any isSeparator = false := by
  cases value with
  | string s =>
    rw [MetadataValue.text,any_quote]
    exact ⟨fun free => ⟨rfl,free⟩,fun both => both.2⟩
  | number n =>
    have ascii := any_ascii fun unit member => (n.plain unit member).2
    exact ⟨fun whole => ⟨whole,ascii⟩,fun both => both.1⟩
  | boolean b => cases b <;> exact iff_of_true trivial (by decide)

/-- The SDK writes a value as the API does, apart from separators, or not at all. -/
theorem canonicalJson_value (value : MetadataValue) :
    Sdk.canonicalJson (sdkValue (some value)) =
      if value.isWhole then some (Sdk.separatorsReplaced value.text) else none := by
  cases value with
  | string s => rfl
  | number n =>
    have same := separatorsReplaced_free (any_ascii fun unit member => (n.plain unit member).2)
    rw [MetadataValue.text,same]
    rfl
  | boolean b => cases b <;> decide

/-- The fields that have a value. -/
def filled (values : List (JsString × MetadataValue)) : List (JsString × Option MetadataValue) :=
  values.map fun field => (field.1,some field.2)

theorem canonicalFields_filled {values : List (JsString × MetadataValue)}
    (whole : ∀ field ∈ values, field.2.isWhole = true) :
    Sdk.canonicalFields ((filled values).map fun field => (field.1,sdkValue field.2)) =
      some (values.map fun field => (field.1,Sdk.separatorsReplaced field.2.text)) := by
  induction values with
  | nil => rfl
  | cons field rest ih =>
    obtain ⟨first,others⟩ := List.forall_mem_cons.mp whole
    have text := canonicalJson_value field.2
    rw [if_pos first] at text
    have ih := ih others
    unfold filled at ih ⊢
    rw [List.map_cons,List.map_cons,Sdk.canonicalFields,text,ih]
    rfl

theorem canonicalFields_defined {fields : List (JsString × Option MetadataValue)}
    (encoded : Sdk.canonicalFields (fields.map fun field => (field.1,sdkValue field.2)) =
      some members) :
    ∃ values, fields = filled values ∧ ∀ field ∈ values, field.2.isWhole = true := by
  induction fields generalizing members with
  | nil => exact ⟨[],rfl,List.forall_mem_nil _⟩
  | cons field rest ih =>
    obtain ⟨key,value⟩ := field
    rw [List.map_cons,Sdk.canonicalFields] at encoded
    obtain ⟨text,first,encoded⟩ := Option.bind_eq_some_iff.mp encoded
    obtain ⟨texts,others,-⟩ := Option.bind_eq_some_iff.mp encoded
    obtain ⟨values,rfl,whole⟩ := ih others
    cases value with
    | none => cases first
    | some value =>
      rw [canonicalJson_value] at first
      split at first
      · rename_i isWhole
        exact ⟨(key,value) :: values,rfl,List.forall_mem_cons.mpr ⟨isWhole,whole⟩⟩
      · cases first

theorem canonicalizeFields_filled (values : List (JsString × MetadataValue)) :
    canonicalizeFields ((filled values).map fun field => (field.1,optionalValue field.2)) =
      values.map fun field => (field.1,field.2.text) := by
  rw [filled,List.map_map]
  exact canonicalizeFields_values values

end Texts

section Objects

theorem separatorsReplaced_intercalate (parts : List JsString) :
    Sdk.separatorsReplaced ([44].intercalate parts) =
      [44].intercalate (parts.map Sdk.separatorsReplaced) := by
  induction parts with
  | nil => rfl
  | cons part rest ih =>
    cases rest with
    | nil => simp [List.intercalate_singleton]
    | cons next rest =>
      simp only [List.map_cons] at ih ⊢
      rw [List.intercalate_cons_cons,List.intercalate_cons_cons,Sdk.separatorsReplaced_append,
        Sdk.separatorsReplaced_append,ih]
      rfl

theorem separatorsReplaced_objectText (fields : List (JsString × JsString)) :
    Sdk.separatorsReplaced (objectText fields) =
      123 :: ([44].intercalate (fields.map fun field =>
        Sdk.encodeCanonicalString field.1 ++ 58 :: Sdk.separatorsReplaced field.2) ++ [125]) := by
  have closing : Sdk.separatorsReplaced [125] = [125] := by decide
  have each : Sdk.separatorsReplaced ∘ member = fun field =>
      Sdk.encodeCanonicalString field.1 ++ 58 :: Sdk.separatorsReplaced field.2 := by
    funext field
    rw [Function.comp_apply,member,Sdk.separatorsReplaced_append,
      Sdk.separatorsReplaced_cons (by decide) (by decide)]
    rfl
  rw [objectText,Sdk.separatorsReplaced_cons (by decide) (by decide),
    Sdk.separatorsReplaced_append,closing,separatorsReplaced_intercalate,List.map_map,each]

theorem any_intercalate (parts : List JsString) :
    ([44].intercalate parts).any isSeparator = parts.any (·.any isSeparator) := by
  have comma : isSeparator 44 = false := by decide
  induction parts with
  | nil => rfl
  | cons part rest ih =>
    cases rest with
    | nil => simp [List.intercalate_singleton]
    | cons next rest =>
      rw [List.intercalate_cons_cons,List.any_append,List.any_append,ih,List.any_cons (a := part)]
      simp [comma]

theorem any_objectText (fields : List (JsString × JsString)) :
    (objectText fields).any isSeparator = false ↔
      ∀ field ∈ fields, field.1.any isSeparator = false ∧ field.2.any isSeparator = false := by
  have opening : isSeparator 123 = false := by decide
  have closing : isSeparator 125 = false := by decide
  have colon : isSeparator 58 = false := by decide
  rw [objectText,List.any_cons,List.any_append,any_intercalate,opening,Bool.false_or,
    Bool.or_eq_false_iff,List.any_map,List.any_eq_false]
  simp only [member,Function.comp_apply,List.any_append,any_quote,List.any_cons,colon,
    Bool.false_or,closing,List.any_nil,Bool.or_eq_true,not_or,Bool.not_eq_true,and_true]

theorem codePoints_ascii {s : JsString} (ascii : ∀ unit ∈ s, unit < 128) :
    codePoints s = s.map UInt16.toNat := by
  induction s with
  | nil => rfl
  | cons unit rest ih =>
    obtain ⟨first,others⟩ := List.forall_mem_cons.mp ascii
    rw [codePoints_single rest (isLeading_ascii first).1,ih others,List.map_cons]

/-- In ASCII the order of code points is that of code units. -/
theorem keyLe_iff {a b : JsString × JsString} (ascii : ∀ unit ∈ a.1, unit < 128)
    (ascii' : ∀ unit ∈ b.1, unit < 128) : Sdk.KeyLe a b ↔ KeyLe a b := by
  unfold Sdk.KeyLe Sdk.compareByCodePoint KeyLe
  rw [codePoints_ascii ascii,codePoints_ascii ascii',
    Sdk.compareCodePoints_le (fun _ _ => UInt16.lt_iff_toNat_lt.symm)
      (fun _ _ => UInt16.toNat_inj.mp)]
  exact Iff.rfl

end Objects

section Payload
variable {metadata : Option (JsMap JsString (Option MetadataValue))}

theorem check_passed (passed : check condition code message = .ok ()) : condition = true := by
  unfold check at passed
  split at passed
  · assumption
  · cases passed

theorem isWordUnit_ascii (word : isWordUnit unit = true) : unit < 128 := by
  unfold isWordUnit isDigitUnit isUpperUnit isLowerUnit at word
  simp only [Bool.or_eq_true,Bool.and_eq_true,decide_eq_true_eq,beq_iff_eq,
    UInt16.le_iff_toNat_le,UInt16.reduceToNat] at word
  rw [UInt16.lt_iff_toNat_lt]
  rcases word with ((digit | upper) | lower) | rfl
  · exact Nat.lt_of_le_of_lt digit.2 (by decide)
  · exact Nat.lt_of_le_of_lt upper.2 (by decide)
  · exact Nat.lt_of_le_of_lt lower.2 (by decide)
  · decide

/-- Checks in a row pass one by one. -/
theorem bind_passed {checked : Except ε α} {next : α → Except ε β}
    (passed : (checked >>= next) = .ok result) :
    ∃ value, checked = .ok value ∧ next value = .ok result := by
  cases checked with
  | error problem => cases passed
  | ok value => exact ⟨value,rfl,passed⟩

theorem validateMetadataKeys_ascii {keys : List JsString}
    (valid : validateMetadataKeys keys = .ok ()) : ∀ key ∈ keys, ∀ unit ∈ key, unit < 128 := by
  induction keys with
  | nil => exact List.forall_mem_nil _
  | cons key rest ih =>
    unfold validateMetadataKeys at valid
    obtain ⟨_,named,valid⟩ := bind_passed valid
    obtain ⟨_,-,valid⟩ := bind_passed valid
    have words := (Bool.and_eq_true_iff.mp (check_passed named)).2
    exact List.forall_mem_cons.mpr ⟨fun unit member =>
      isWordUnit_ascii (List.all_eq_true.mp words unit member),ih valid⟩

theorem requestPayload_keys (valid : validateMetadata metadata = .ok ()) (invoiceId : JsString) :
    ∀ field ∈ (requestPayload metadata invoiceId).entries, ∀ unit ∈ field.1, unit < 128 := by
  have keys : ∀ key ∈ (metadata.getD JsMap.empty).entries.map Prod.fst,
      ∀ unit ∈ key, unit < 128 := by
    cases metadata with
    | none => exact List.forall_mem_nil _
    | some metadata =>
      obtain ⟨_,-,valid⟩ := bind_passed valid
      obtain ⟨_,named,-⟩ := bind_passed valid
      exact validateMetadataKeys_ascii named
  intro field member
  have named : field.1 ∈ (requestPayload metadata invoiceId).entries.map Prod.fst :=
    List.mem_map_of_mem member
  unfold requestPayload JsMap.set at named
  dsimp only at named
  rw [JsMap.setEntry_keys] at named
  split at named
  · exact keys field.1 named
  · rcases List.mem_append.mp named with old | new
    · exact keys field.1 old
    · rw [List.mem_singleton.mp new]
      exact ascii_of_units (by decide)

/-- Where the SDK makes a text it is that of the API, apart from separators. -/
theorem sdkText_filled {payload : JsMap JsString (Option MetadataValue)}
    {values : List (JsString × MetadataValue)} (entries : payload.entries = filled values)
    (ascii : ∀ field ∈ payload.entries, ∀ unit ∈ field.1, unit < 128)
    (whole : ∀ field ∈ values, field.2.isWhole = true) :
    ∃ text, apiText payload = some text ∧ sdkText payload = some (Sdk.separatorsReplaced text) ∧
      (text.any isSeparator = false ↔
        ∀ field ∈ values, field.2.text.any isSeparator = false) := by
  have keys : ∀ field ∈ values, ∀ unit ∈ field.1, unit < 128 := by
    intro field member
    exact ascii (field.1,some field.2) (entries ▸ List.mem_map_of_mem member)
  refine ⟨objectText ((values.map fun field => (field.1,field.2.text)).insertionSort KeyLe),
    ?_,?_,?_⟩
  · rw [apiText,entries,canonicalize,canonicalizeFields_filled]
  · have sorted := List.map_insertionSort KeyLe Sdk.KeyLe
      (fun field : JsString × JsString => (field.1,Sdk.separatorsReplaced field.2))
      (values.map fun field => (field.1,field.2.text)) (by
        intro a inA b inB
        obtain ⟨field,member,rfl⟩ := List.mem_map.mp inA
        obtain ⟨other,member',rfl⟩ := List.mem_map.mp inB
        exact (keyLe_iff (a := (field.1,Sdk.separatorsReplaced field.2.text))
          (b := (other.1,Sdk.separatorsReplaced other.2.text)) (keys field member)
          (keys other member')).symm)
    rw [List.map_map] at sorted
    have unsorted : values.map ((fun field : JsString × JsString =>
          (field.1,Sdk.separatorsReplaced field.2)) ∘ fun field => (field.1,field.2.text)) =
        values.map fun field => (field.1,Sdk.separatorsReplaced field.2.text) := rfl
    rw [sdkText,entries,Sdk.canonicalJson,canonicalFields_filled whole,Option.map_some,
      separatorsReplaced_objectText,← unsorted,← sorted,List.map_map]
    rfl
  · rw [any_objectText]
    constructor
    · intro free field member
      exact (free (field.1,field.2.text) ((List.mem_insertionSort KeyLe).mpr
        (List.mem_map.mpr ⟨field,member,rfl⟩))).2
    · intro free field member
      obtain ⟨source,held,rfl⟩ := List.mem_map.mp ((List.mem_insertionSort KeyLe).mp member)
      exact ⟨any_ascii (keys source held),free source held⟩

/-- The texts of an accepted payload agree exactly where every field has a value that both write
alike. -/
theorem payload_texts_agree_iff (metadata : Option (JsMap JsString (Option MetadataValue)))
    (invoiceId : JsString) (valid : validateMetadata metadata = .ok ()) :
    sdkText (requestPayload metadata invoiceId) = apiText (requestPayload metadata invoiceId) ↔
      ∀ field ∈ (requestPayload metadata invoiceId).entries,
        ∃ value, field.2 = some value ∧ value.Portable := by
  have ascii := requestPayload_keys valid invoiceId
  generalize requestPayload metadata invoiceId = payload at ascii ⊢
  constructor
  · intro agree
    have encoded : ∃ members, Sdk.canonicalFields (payload.entries.map fun field =>
        (field.1,sdkValue field.2)) = some members := by
      cases fields : Sdk.canonicalFields (payload.entries.map fun field =>
          (field.1,sdkValue field.2)) with
      | some members => exact ⟨members,rfl⟩
      | none =>
        rw [sdkText,Sdk.canonicalJson,fields] at agree
        rw [apiText,canonicalize] at agree
        cases agree
    obtain ⟨members,encoded⟩ := encoded
    obtain ⟨values,entries,whole⟩ := canonicalFields_defined encoded
    obtain ⟨text,api,sdk,free⟩ := sdkText_filled entries ascii whole
    rw [api,sdk,Option.some.injEq,separatorsReplaced_iff,free] at agree
    rw [entries]
    intro field member
    obtain ⟨source,held,rfl⟩ := List.mem_map.mp member
    exact ⟨source.2,rfl,source.2.portable_iff.mpr ⟨whole source held,agree source held⟩⟩
  · intro portable
    have entries : ∃ values, payload.entries = filled values ∧
        ∀ field ∈ values, field.2.Portable := by
      generalize payload.entries = fields at portable
      induction fields with
      | nil => exact ⟨[],rfl,List.forall_mem_nil _⟩
      | cons field rest ih =>
        obtain ⟨first,others⟩ := List.forall_mem_cons.mp portable
        obtain ⟨value,held,isPortable⟩ := first
        obtain ⟨values,rfl,each⟩ := ih others
        refine ⟨(field.1,value) :: values,?_,List.forall_mem_cons.mpr ⟨isPortable,each⟩⟩
        rw [filled,filled,List.map_cons,← held]
    obtain ⟨values,entries,portable⟩ := entries
    obtain ⟨text,api,sdk,free⟩ := sdkText_filled entries ascii fun field member =>
      (field.2.portable_iff.mp (portable field member)).1
    rw [api,sdk,Option.some.injEq,separatorsReplaced_iff,free]
    exact fun field member => (field.2.portable_iff.mp (portable field member)).2

def priced (price : JsNumber) : Option (JsMap JsString (Option MetadataValue)) :=
  some ⟨[(js "price",some (.number price))],List.nodup_singleton _⟩

def half : JsNumber := ⟨js "1.5",by decide,by simp [js,isPlain]⟩

theorem payload_texts_agree_whole :
    sdkText (requestPayload (priced (.ofInt 2)) (js "inv_0123456789abcdef")) =
      apiText (requestPayload (priced (.ofInt 2)) (js "inv_0123456789abcdef")) := by
  refine (payload_texts_agree_iff (priced (.ofInt 2)) (js "inv_0123456789abcdef") (by rfl)).mpr ?_
  have fields : (requestPayload (priced (.ofInt 2)) (js "inv_0123456789abcdef")).entries =
      [(js "price",some (.number (.ofInt 2))),
        (js "invoice_id",some (.string (js "inv_0123456789abcdef")))] := by rfl
  rw [fields]
  refine List.forall_mem_cons.mpr ⟨⟨_,rfl,?_⟩,List.forall_mem_singleton.mpr ⟨_,rfl,?_⟩⟩
  · exact Sdk.isSafeInteger_ofInt (by decide)
  · change (js "inv_0123456789abcdef").any isSeparator = false
    decide

/-- The SDK refuses a fraction that the API accepts and hashes. -/
theorem half_price_differs :
    validateMetadata (priced half) = .ok () ∧
      sdkText (requestPayload (priced half) (js "inv_0123456789abcdef")) ≠
        apiText (requestPayload (priced half) (js "inv_0123456789abcdef")) := by
  have refused : sdkText (requestPayload (priced half) (js "inv_0123456789abcdef")) = none := by
    decide +kernel
  have hashed : (apiText (requestPayload (priced half) (js "inv_0123456789abcdef"))).isSome =
      true := by
    decide +kernel
  refine ⟨by rfl,fun same => ?_⟩
  rw [← same,refused] at hashed
  cases hashed

end Payload
end Tonbankcard.MerchantApi
