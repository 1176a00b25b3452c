import Tonbankcard.InvoiceServicePermanence
import Tonbankcard.MetadataValidators

/-! The metadata of a request, an object that a parser made, from its check to the copy that an
invoice is stored with and to the payload that is hashed when it is settled. -/
namespace Tonbankcard.MerchantApi

open EcmaScript

section Objects

/-- The values that the check of metadata lets through. -/
def scalar : JsValue → Option (Option MetadataValue)
  | .undefined => some none
  | .string s => some (some (.string s))
  | .number n => some (some (.number n))
  | .boolean b => some (some (.boolean b))
  | .null | .array _ | .object _ => none

/-- `validateMetadata` of any object. Where its size is reached every value is a scalar, and the
text has no order to keep. -/
def validateMetadataObject (metadata : JsMap JsString JsValue) : Except ValidationError Unit := do
  let fields := metadata.entries
  check (fields.length ≤ maxMetadataFields) .invalidMetadata
    "Metadata cannot have more than 10 fields"
  validateMetadataKeys (fields.map Prod.fst)
  check (fields.all fun field => (scalar field.2).isSome) .invalidMetadata
    "Metadata values must be string, number, boolean, or undefined"
  check (utf8Length (objectText (canonicalizeFields fields)) ≤ maxMetadataSize) .invalidMetadata
    "Metadata size exceeds 1024 bytes"

def scalarFields (fields : List (JsString × JsValue)) : List (JsString × Option MetadataValue) :=
  fields.map fun field => (field.1,(scalar field.2).join)

/-- The metadata of a request whose object was accepted. -/
def requestMetadata (metadata : JsMap JsString JsValue) :
    JsMap JsString (Option MetadataValue) where
  entries := scalarFields metadata.entries
  distinct := by
    rw [scalarFields,List.map_map]
    exact metadata.distinct

def JsValue.defined : JsValue → Option JsValue
  | .undefined => none
  | value => some value

theorem scalar_value {value : JsValue} {read : Option MetadataValue}
    (scalars : scalar value = some read) : value = optionalValue read := by
  cases value <;> cases scalars <;> rfl

theorem scalar_defined {value : JsValue} (scalars : (scalar value).isSome = true) :
    (scalar value).join.map MetadataValue.value = value.defined := by
  cases value <;> first | rfl | cases scalars

/-- An accepted object is what a request's metadata says of it. -/
theorem scalarFields_values {fields : List (JsString × JsValue)}
    (scalars : ∀ field ∈ fields, (scalar field.2).isSome = true) :
    (scalarFields fields).map (fun field => (field.1,optionalValue field.2)) = fields := by
  rw [scalarFields,List.map_map]
  refine (List.map_congr_left fun field member => ?_).trans (List.map_id fields)
  obtain ⟨read,same⟩ := Option.isSome_iff_exists.mp (scalars field member)
  exact Prod.ext rfl (by simp only [Function.comp_apply,same]; exact (scalar_value same).symm)

theorem canonicalize_value (value : MetadataValue) :
    canonicalize value.value = some value.text := by
  cases value with
  | string s => simp [MetadataValue.value,MetadataValue.text,canonicalize]
  | number n => simp [MetadataValue.value,MetadataValue.text,canonicalize]
  | boolean b => cases b <;> simp [MetadataValue.value,MetadataValue.text,canonicalize]

theorem canonicalizeFields_defined (fields : List (JsString × Option MetadataValue)) :
    canonicalizeFields (fields.map fun field => (field.1,optionalValue field.2)) =
      (definedFields fields).map fun field => (field.1,field.2.text) := by
  induction fields with
  | nil => simp [canonicalizeFields,definedFields]
  | cons field rest ih =>
    obtain ⟨key,value⟩ := field
    cases value with
    | none =>
      rw [List.map_cons,canonicalizeFields,optionalValue,canonicalize,ih]
      rfl
    | some value =>
      rw [List.map_cons,canonicalizeFields,optionalValue,canonicalize_value,ih]
      rfl

theorem validateMetadataObject_ok (metadata : JsMap JsString JsValue) :
    validateMetadataObject metadata = .ok () ↔
      (∀ field ∈ metadata.entries, (scalar field.2).isSome = true) ∧
      validateMetadata (some (requestMetadata metadata)) = .ok () := by
  have keys {next : Unit → Except ValidationError Unit} (keys : List JsString) :
      (validateMetadataKeys keys >>= next) = .ok () ↔
        validateMetadataKeys keys = .ok () ∧ next () = .ok () := by
    cases validateMetadataKeys keys <;> simp [bind,Except.bind]
  have sameKeys : (requestMetadata metadata).entries.map Prod.fst =
      metadata.entries.map Prod.fst := by
    simp [requestMetadata,scalarFields,List.map_map,Function.comp_def]
  have sameLength : (requestMetadata metadata).entries.length = metadata.entries.length :=
    List.length_map _
  simp only [validateMetadataObject,validateMetadata,MetadataValidators.check_bind_ok,
    MetadataValidators.check_ok,keys,sameKeys,sameLength,List.all_eq_true]
  by_cases scalars : ∀ field ∈ metadata.entries, (scalar field.2).isSome = true
  · have sameText : metadataJson (definedFields (requestMetadata metadata).entries) =
        objectText (canonicalizeFields metadata.entries) := by
      rw [metadataJson,← canonicalizeFields_defined,requestMetadata]
      exact congrArg (objectText ∘ canonicalizeFields) (scalarFields_values scalars)
    rw [sameText]
    simp only [eq_true scalars,true_and]
  · simp only [eq_false scalars,false_and,and_false]

end Objects

section Copy

theorem validateMetadata_fields {metadata : JsMap JsString (Option MetadataValue)}
    (valid : validateMetadata (some metadata) = .ok ()) :
    metadata.entries.length ≤ maxMetadataFields ∧ ∀ key ∈ metadata.entries.map Prod.fst,
      MetadataValidators.isName key = true ∧ key ≠ js "invoice_id" := by
  rw [validateMetadata,MetadataValidators.check_bind_ok,decide_eq_true_iff] at valid
  obtain ⟨_,keys,-⟩ := bind_passed valid.2
  exact ⟨valid.1,(MetadataValidators.validateMetadataKeys_ok _).mp keys⟩

/-- With room for all fields only `__proto__` is left out. -/
theorem sanitizedFields_filter {room : Nat} {fields : List (JsString × MetadataValue)}
    (fits : fields.length ≤ room) :
    sanitizedFields room fields = fields.filter fun field => field.1 ≠ js "__proto__" := by
  induction fields generalizing room with
  | nil => cases room <;> rfl
  | cons field rest ih =>
    cases room with
    | zero => cases fits
    | succ room =>
      rw [sanitizedFields,ih (Nat.le_of_succ_le_succ fits)]
      split
      · rename_i hidden
        rw [List.filter_cons_of_neg (by simpa using hidden)]
      · rename_i shown
        rw [List.filter_cons_of_pos (by simpa using shown)]

theorem mem_definedFields {fields : List (JsString × Option MetadataValue)} {key : JsString}
    {value : MetadataValue} : (key,value) ∈ definedFields fields ↔ (key,some value) ∈ fields := by
  simp only [definedFields,List.mem_filterMap,Option.map_eq_some_iff,Prod.mk.injEq]
  constructor
  · rintro ⟨⟨name,held⟩,member,read,rfl,rfl,rfl⟩
    exact member
  · exact fun member => ⟨(key,some value),member,value,rfl,rfl,rfl⟩

theorem sanitizeMetadata_entries {metadata : JsMap JsString (Option MetadataValue)}
    (fits : metadata.entries.length ≤ maxMetadataFields) :
    ((sanitizeMetadata (some metadata)).getD JsMap.empty).entries =
      (definedFields metadata.entries).filter fun field => field.1 ≠ js "__proto__" := by
  have short : (definedFields metadata.entries).length ≤ maxMetadataFields :=
    (List.length_filterMap_le _ _).trans fits
  rw [← sanitizedFields_filter short,sanitizeMetadata]
  split
  · rename_i none
    exact (List.isEmpty_iff.mp none).symm
  · rfl

theorem sanitizeMetadata_get {metadata : JsMap JsString (Option MetadataValue)}
    (fits : metadata.entries.length ≤ maxMetadataFields) (key : JsString) :
    ((sanitizeMetadata (some metadata)).getD JsMap.empty).get key =
      if key = js "__proto__" then none else (metadata.get key).join := by
  refine Option.ext fun value => ?_
  rw [← JsMap.mem_entries_iff,sanitizeMetadata_entries fits,List.mem_filter,mem_definedFields,
    JsMap.mem_entries_iff,decide_eq_true_iff]
  split
  · rename_i hidden
    simp [hidden]
  · rename_i shown
    simp [shown,Option.join_eq_some_iff]

end Copy

section Stored
variable (host : Host) (metadata : JsMap JsString JsValue)

/-- The hash of submitted metadata with the invoice id in the place of any field of that name. -/
def submittedHash (invoiceId : JsString) : JsString :=
  hexDigest (host.sha256 ((canonicalize
    (.object (metadata.set (js "invoice_id") (.string invoiceId)).entries)).getD []))

/-- An invoice has the fields of an object that have a value, and its payload is the object's. -/
def StoredAsValidated (invoice : Invoice) : Prop :=
  (∀ key, ((invoice.metadata.getD JsMap.empty).get key).map MetadataValue.value =
    (metadata.get key).bind JsValue.defined) ∧
  hashMetadata host invoice.metadata invoice.invoiceId = submittedHash host metadata invoice.invoiceId

variable {host} {metadata}

theorem requestMetadata_get (scalars : ∀ field ∈ metadata.entries, (scalar field.2).isSome = true)
    (key : JsString) : ((requestMetadata metadata).get key).join.map MetadataValue.value =
      (metadata.get key).bind JsValue.defined := by
  have read : (requestMetadata metadata).get key =
      (metadata.get key).map fun value => (scalar value).join := by
    refine Option.ext fun value => ?_
    have entries : (requestMetadata metadata).entries =
      metadata.entries.map fun field => (field.1,(scalar field.2).join) := rfl
    rw [← JsMap.mem_entries_iff,entries,List.mem_map,Option.map_eq_some_iff]
    simp only [Prod.mk.injEq,Prod.exists,JsMap.mem_entries_iff]
    constructor
    · rintro ⟨name,held,found,rfl,value⟩
      exact ⟨held,found,value⟩
    · rintro ⟨held,found,value⟩
      exact ⟨key,held,found,rfl,value⟩
  cases held : metadata.get key with
  | none => rw [read,held]; rfl
  | some value =>
    rw [read,held]
    exact scalar_defined (scalars _ ((metadata.mem_entries_iff key value).mpr held))

/-- Without a value for `__proto__` the payload of the stored metadata is the submitted one. -/
theorem payloadText_stored {metadata : JsMap JsString JsValue}
    (accepted : validateMetadataObject metadata = .ok ())
    (unset : (metadata.get (js "__proto__")).bind JsValue.defined = none) (invoiceId : JsString) :
    payloadText (sanitizeMetadata (some (requestMetadata metadata))) invoiceId =
      (canonicalize (.object (metadata.set (js "invoice_id") (.string invoiceId)).entries)).getD [] := by
  obtain ⟨scalars,valid⟩ := (validateMetadataObject_ok metadata).mp accepted
  obtain ⟨fits,keys⟩ := validateMetadata_fields valid
  have names : (scalarFields metadata.entries).map Prod.fst = metadata.entries.map Prod.fst := by
    rw [scalarFields,List.map_map]
    rfl
  have absent : js "invoice_id" ∉ metadata.entries.map Prod.fst := fun member =>
    (keys _ (names ▸ member)).2 rfl
  have stored : ((sanitizeMetadata (some (requestMetadata metadata))).getD JsMap.empty).entries =
      definedFields (scalarFields metadata.entries) := by
    rw [sanitizeMetadata_entries fits]
    refine List.filter_eq_self.mpr fun ⟨key,value⟩ member => decide_eq_true ?_
    rintro rfl
    have held := (JsMap.mem_entries_iff _ _ _).mp (mem_definedFields.mp member)
    have value := requestMetadata_get scalars (js "__proto__")
    rw [held,unset] at value
    cases value
  have fresh : js "invoice_id" ∉ (definedFields (scalarFields metadata.entries)).map Prod.fst :=
    fun member => absent (names ▸ (definedFields_keys _).mem member)
  have left : (payloadFields (sanitizeMetadata (some (requestMetadata metadata))) invoiceId).entries =
      definedFields (scalarFields metadata.entries ++
        [(js "invoice_id",some (.string invoiceId))]) := by
    refine (setEntry_fresh (stored ▸ fresh) _).trans ?_
    rw [stored,definedFields,definedFields,List.filterMap_append]
    rfl
  have right : (metadata.set (js "invoice_id") (.string invoiceId)).entries =
      (scalarFields metadata.entries ++ [(js "invoice_id",some (MetadataValue.string invoiceId))]).map
        (fun field => (field.1,optionalValue field.2)) := by
    refine (setEntry_fresh absent _).trans ?_
    rw [List.map_append,scalarFields_values scalars]
    rfl
  rw [payloadText_eq,left,right,canonicalize,canonicalizeFields_defined,Option.getD_some]

/-- An accepted object is stored, and its payload hashed, as it was submitted, unless `__proto__`
has a value. -/
theorem stored_as_validated_iff (host : Host) {metadata : JsMap JsString JsValue}
    (accepted : validateMetadataObject metadata = .ok ()) (request : CreateInvoiceRequest)
    (inputs : Inputs) : StoredAsValidated host metadata
      (candidate host {request with metadata := some (requestMetadata metadata)} inputs) ↔
        (metadata.get (js "__proto__")).bind JsValue.defined = none := by
  obtain ⟨scalars,valid⟩ := (validateMetadataObject_ok metadata).mp accepted
  have fits := (validateMetadata_fields valid).1
  constructor
  · intro stored
    have field := stored.1 (js "__proto__")
    rw [candidate,sanitizeMetadata_get fits,if_pos rfl] at field
    exact field.symm
  · intro unset
    refine ⟨fun key => ?_,?_⟩
    · rw [candidate,sanitizeMetadata_get fits,← requestMetadata_get scalars]
      split
      · rename_i hidden
        rw [hidden,requestMetadata_get scalars,unset]
        rfl
      · rfl
    · rw [hashMetadata,submittedHash]
      exact congrArg (hexDigest ∘ host.sha256) (payloadText_stored accepted unset _)

def orderMetadata : JsMap JsString JsValue :=
  parsed [(js "order",.string (js "7")),(js "gift",.boolean true),(js "note",.undefined)]

theorem stored_as_validated_order : StoredAsValidated shopHost orderMetadata
    (candidate shopHost {shopRequest with metadata := some (requestMetadata orderMetadata)}
      (shopInputs 0 1)) :=
  (stored_as_validated_iff shopHost (by rfl) shopRequest (shopInputs 0 1)).mpr rfl

/-- What `{"__proto__": "7"}` is parsed to. -/
def protoMetadata : JsMap JsString JsValue := parsed [(js "__proto__",.string (js "7"))]

/-- The field is dropped by the copy, and the text that is hashed lacks it. -/
theorem proto_not_stored : validateMetadataObject protoMetadata = .ok () ∧
    ¬ StoredAsValidated shopHost protoMetadata
      (candidate shopHost {shopRequest with metadata := some (requestMetadata protoMetadata)}
        (shopInputs 0 1)) ∧
    payloadText (sanitizeMetadata (some (requestMetadata protoMetadata))) shopInvoiceId ≠
      (canonicalize (.object
        (protoMetadata.set (js "invoice_id") (.string shopInvoiceId)).entries)).getD [] := by
  refine ⟨by rfl,fun stored => ?_,by decide +kernel⟩
  have field := stored.1 (js "__proto__")
  cases field

end Stored

end Tonbankcard.MerchantApi
