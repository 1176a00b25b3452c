import Tonbankcard.JsObject
import Tonbankcard.MerchantApiPayload
import Tonbankcard.Unicode

/-! Invoice metadata as the Go and the Python client check it before they send it, against what
the server says of the object that it then reads. -/
namespace Tonbankcard.MetadataValidators

open EcmaScript MerchantApi Unicode

section Server

/-- `validateMetadata` of a parsed object, where null, a list and an object are none. -/
def validateParsed (metadata : JsMap JsString (Option MetadataValue)) :
    Except ValidationError Unit := do
  let fields := metadata.entries
  check (fields.length ≤ maxMetadataFields) .invalidMetadata
    "Metadata cannot have more than 10 fields"
  validateMetadataKeys (fields.map Prod.fst)
  check (fields.all fun field => field.2.isSome) .invalidMetadata
    "Metadata values must be string, number, boolean, or undefined"
  check (utf8Length (metadataJson (definedFields fields)) ≤ maxMetadataSize) .invalidMetadata
    "Metadata size exceeds 1024 bytes"

def isName (key : JsString) : Bool := !key.isEmpty && key.all isWordUnit

theorem check_bind_ok {condition : Bool} {code : ErrorCode} {message : String}
    {next : Unit → Except ValidationError Unit} :
    (check condition code message >>= next) = .ok () ↔ condition = true ∧ next () = .ok () := by
  cases condition <;> simp [check,bind,Except.bind]

theorem check_ok {condition : Bool} {code : ErrorCode} {message : String} :
    check condition code message = .ok () ↔ condition = true := by
  cases condition <;> simp [check]

theorem validateMetadataKeys_ok (keys : List JsString) :
    validateMetadataKeys keys = .ok () ↔
      ∀ key ∈ keys, isName key = true ∧ key ≠ js "invoice_id" := by
  induction keys with
  | nil => simp [validateMetadataKeys]
  | cons key rest ih =>
    rw [validateMetadataKeys,check_bind_ok,check_bind_ok,ih,List.forall_mem_cons,and_assoc,
      decide_eq_true_iff]
    rfl

theorem validateParsed_ok (metadata : JsMap JsString (Option MetadataValue)) :
    validateParsed metadata = .ok () ↔ metadata.entries.length ≤ maxMetadataFields ∧
      (∀ key ∈ metadata.entries.map Prod.fst, isName key = true ∧ key ≠ js "invoice_id") ∧
      (∀ field ∈ metadata.entries, field.2.isSome = true) ∧
      utf8Length (metadataJson (definedFields metadata.entries)) ≤ maxMetadataSize := by
  have keys {next : Unit → Except ValidationError Unit} (keys : List JsString) :
      (validateMetadataKeys keys >>= next) = .ok () ↔
        validateMetadataKeys keys = .ok () ∧ next () = .ok () := by
    cases validateMetadataKeys keys <;> simp [bind,Except.bind]
  simp only [validateParsed,check_bind_ok,check_ok,keys,validateMetadataKeys_ok,
    decide_eq_true_eq,List.all_eq_true]

/-- Where every value is a scalar this is the check of a request's metadata. -/
theorem validateParsed_scalars {metadata : JsMap JsString (Option MetadataValue)}
    (scalars : ∀ field ∈ metadata.entries, field.2.isSome = true) :
    validateParsed metadata = validateMetadata (some metadata) := by
  simp only [validateParsed,validateMetadata,List.all_eq_true.mpr scalars,check,if_true]
  rfl

end Server

section Clients

/-- A value of a client's map. A number is given by what the server reads of it, and none where
JSON has no text for it; the types that a validator does not list are `Other`. -/
inductive ClientValue (Text Other : Type) where
  | string (s : Text)
  | number (sent : Option JsNumber)
  | boolean (b : Bool)
  | unlisted (other : Other)
  deriving DecidableEq

inductive MetadataError (Text : Type) where
  | fields (count : Nat)
  | key (key : Text)
  | valueType (key : Text)
  | valueLength (key : Text)
  deriving DecidableEq

/-- What the two clients do differently: the pattern of a key, the length and the characters of a
string, and what the server reads of a string and of a value of another type. -/
structure Client (Text Other : Type) where
  isKey : Text → Bool
  length : Text → Nat
  characters : Text → Nat
  units : Text → JsString
  unlisted : Other → Option MetadataValue

def maxMetadataValueLength : Nat := 256

variable {Text Other : Type}

namespace Client

def validateField (c : Client Text Other) (field : Text × ClientValue Text Other) :
    Except (MetadataError Text) Unit :=
  if !c.isKey field.1 then .error (.key field.1)
  else match field.2 with
    | .string s => if maxMetadataValueLength < c.length s then .error (.valueLength field.1) else .ok ()
    | .number _ | .boolean _ => .ok ()
    | .unlisted _ => .error (.valueType field.1)

def validateFields (c : Client Text Other) :
    List (Text × ClientValue Text Other) → Except (MetadataError Text) Unit
  | [] => .ok ()
  | field :: rest => do
    c.validateField field
    c.validateFields rest

def validate (c : Client Text Other) (metadata : JsMap Text (ClientValue Text Other)) :
    Except (MetadataError Text) Unit :=
  if maxMetadataFields < metadata.entries.length then .error (.fields metadata.entries.length)
  else c.validateFields metadata.entries

def value (c : Client Text Other) : ClientValue Text Other → Option (Option MetadataValue)
  | .string s => some (some (.string (c.units s)))
  | .number sent => sent.map fun n => some (.number n)
  | .boolean b => some (some (.boolean b))
  | .unlisted other => some (c.unlisted other)

def members (c : Client Text Other) :
    List (Text × ClientValue Text Other) → Option (List (JsString × Option MetadataValue))
  | [] => some []
  | field :: rest => do
    let value ← c.value field.2
    let behind ← c.members rest
    return (c.units field.1,value) :: behind

/-- The object that the server reads of the JSON that a map is sent as. -/
def sent (c : Client Text Other) (metadata : JsMap Text (ClientValue Text Other)) :
    Option (JsMap JsString (Option MetadataValue)) :=
  (c.members metadata.entries).map parsed

end Client

namespace ClientValue

def isListed : ClientValue Text Other → Bool
  | .unlisted _ => false
  | _ => true

/-- Strings are within the documented length, in some measure. -/
def isBrief (measure : Text → Nat) : ClientValue Text Other → Bool
  | .string s => measure s ≤ maxMetadataValueLength
  | _ => true

end ClientValue

namespace Client

variable (c : Client Text Other) (metadata : JsMap Text (ClientValue Text Other))

def isScalar : ClientValue Text Other → Bool
  | .unlisted other => (c.unlisted other).isSome
  | _ => true

theorem validateField_ok (field : Text × ClientValue Text Other) :
    c.validateField field = .ok () ↔ c.isKey field.1 = true ∧ field.2.isListed = true ∧
      field.2.isBrief c.length = true := by
  obtain ⟨key,value⟩ := field
  unfold validateField
  cases c.isKey key with
  | false => simp
  | true =>
    cases value with
    | string s =>
      by_cases long : maxMetadataValueLength < c.length s
      · simp [long,ClientValue.isBrief,Nat.not_le.mpr long]
      · simp [long,ClientValue.isBrief,ClientValue.isListed,Nat.not_lt.mp long]
    | number sent => simp [ClientValue.isBrief,ClientValue.isListed]
    | boolean b => simp [ClientValue.isBrief,ClientValue.isListed]
    | unlisted other => simp [ClientValue.isListed]

theorem validateFields_ok (fields : List (Text × ClientValue Text Other)) :
    c.validateFields fields = .ok () ↔ ∀ field ∈ fields, c.isKey field.1 = true ∧
      field.2.isListed = true ∧ field.2.isBrief c.length = true := by
  induction fields with
  | nil => simp [validateFields]
  | cons field rest ih =>
    rw [List.forall_mem_cons,← validateField_ok,← ih,validateFields]
    cases c.validateField field <;> simp [bind,Except.bind]

theorem validate_ok : c.validate metadata = .ok () ↔
    metadata.entries.length ≤ maxMetadataFields ∧ ∀ field ∈ metadata.entries,
      c.isKey field.1 = true ∧ field.2.isListed = true ∧ field.2.isBrief c.length = true := by
  unfold validate
  split
  · rename_i many
    simp [Nat.not_le.mpr many]
  · rename_i few
    rw [validateFields_ok]
    exact (and_iff_right (Nat.not_lt.mp few)).symm

theorem value_scalar {value : ClientValue Text Other} {sent : Option MetadataValue}
    (reads : c.value value = some sent) : sent.isSome = c.isScalar value := by
  cases value with
  | string s => cases reads; rfl
  | number number =>
    obtain ⟨n,-,rfl⟩ := Option.map_eq_some_iff.mp reads
    rfl
  | boolean b => cases reads; rfl
  | unlisted other => cases reads; rfl

/-- The members have the names of the fields, and are scalars where those are. -/
theorem members_fields {fields : List (Text × ClientValue Text Other)}
    {members : List (JsString × Option MetadataValue)} (sends : c.members fields = some members) :
    members.map Prod.fst = fields.map (fun field => c.units field.1) ∧
      ((∀ member ∈ members, member.2.isSome = true) ↔
        ∀ field ∈ fields, c.isScalar field.2 = true) := by
  induction fields generalizing members with
  | nil =>
    cases sends
    exact ⟨rfl,by simp⟩
  | cons field rest ih =>
    rw [Client.members] at sends
    obtain ⟨value,reads,sends⟩ := Option.bind_eq_some_iff.mp sends
    obtain ⟨behind,others,sends⟩ := Option.bind_eq_some_iff.mp sends
    cases sends
    obtain ⟨names,scalars⟩ := ih others
    rw [List.map_cons,List.map_cons,names,List.forall_mem_cons,List.forall_mem_cons,scalars,
      c.value_scalar reads]
    exact ⟨rfl,Iff.rfl⟩

/-- The client and the server agree on a map: what the client accepts the server accepts, and the
client accepts what the server does if no string has too many characters. -/
def Agrees : Prop :=
  ∀ json, c.sent metadata = some json →
    (c.validate metadata = .ok () → validateParsed json = .ok ()) ∧
    (validateParsed json = .ok () →
      (∀ field ∈ metadata.entries, field.2.isBrief c.characters = true) →
        c.validate metadata = .ok ())

/-- The name of a field as the server reads it is a word and not reserved. -/
def Free : Prop :=
  ∀ field ∈ metadata.entries, isName (c.units field.1) = true ∧ c.units field.1 ≠ js "invoice_id"

def jsonSize (json : JsMap JsString (Option MetadataValue)) : Nat :=
  utf8Length (metadataJson (definedFields json.entries))

section Agreement
variable (words : ∀ key, isName (c.units key) = true → c.isKey key = true)
  (apart : ∀ key other, isName (c.units key) = true → c.units key = c.units other → key = other)
include apart

/-- What the server says of a map that it is sent. -/
theorem validateParsed_sent {json : JsMap JsString (Option MetadataValue)}
    (sends : c.sent metadata = some json) :
    validateParsed json = .ok () ↔ metadata.entries.length ≤ maxMetadataFields ∧
      c.Free metadata ∧ (∀ field ∈ metadata.entries, c.isScalar field.2 = true) ∧
      jsonSize json ≤ maxMetadataSize := by
  obtain ⟨members,written,rfl⟩ := Option.map_eq_some_iff.mp sends
  obtain ⟨names,scalars⟩ := c.members_fields written
  have free : (∀ key ∈ (parsed members).entries.map Prod.fst,
      isName key = true ∧ key ≠ js "invoice_id") ↔ c.Free metadata := by
    simp only [parsed_keys]
    rw [names,List.forall_mem_map]
    rfl
  have length : members.length = metadata.entries.length := by
    rw [← List.length_map Prod.fst,names,List.length_map]
  have distinct (named : c.Free metadata) : (members.map Prod.fst).Nodup := by
    have keys : metadata.entries.map (fun field => c.units field.1) =
        (metadata.entries.map Prod.fst).map c.units := (List.map_map ..).symm
    rw [names,keys]
    refine List.Nodup.map_on ?_ metadata.distinct
    intro key held other _ same
    obtain ⟨field,member,rfl⟩ := List.mem_map.mp held
    exact apart _ _ (named field member).1 same
  rw [validateParsed_ok,free]
  constructor
  · rintro ⟨few,named,all,small⟩
    rw [parsed_distinct (distinct named)] at few all
    exact ⟨length ▸ few,named,scalars.mp all,small⟩
  · rintro ⟨few,named,all,small⟩
    refine ⟨?_,named,?_,small⟩ <;> rw [parsed_distinct (distinct named)]
    · exact length ▸ few
    · exact scalars.mpr all

include words

theorem agrees_iff : c.Agrees metadata ↔ ∀ json, c.sent metadata = some json →
    metadata.entries.length ≤ maxMetadataFields →
    ((∀ field ∈ metadata.entries, c.isKey field.1 = true ∧ field.2.isListed = true ∧
        field.2.isBrief c.length = true) →
      c.Free metadata ∧ jsonSize json ≤ maxMetadataSize) ∧
    (c.Free metadata → jsonSize json ≤ maxMetadataSize →
      (∀ field ∈ metadata.entries, c.isScalar field.2 = true ∧
        field.2.isBrief c.characters = true) →
      ∀ field ∈ metadata.entries, field.2.isListed = true ∧ field.2.isBrief c.length = true) := by
  refine forall_congr' fun json => forall_congr' fun sends => ?_
  rw [c.validateParsed_sent metadata apart sends,c.validate_ok]
  have listed {field : Text × ClientValue Text Other} (is : field.2.isListed = true) :
      c.isScalar field.2 = true := by
    cases value : field.2 <;> simp_all [ClientValue.isListed,isScalar]
  constructor
  · rintro ⟨accepted,admitted⟩ few
    refine ⟨fun passes => ?_,fun free small brief field member => ?_⟩
    · obtain ⟨-,free,-,small⟩ := accepted ⟨few,passes⟩
      exact ⟨free,small⟩
    · have scalars := fun field member => (brief field member).1
      exact ((admitted ⟨few,free,scalars,small⟩ fun field member =>
        (brief field member).2).2 field member).2
  · intro agree
    constructor
    · rintro ⟨few,passes⟩
      obtain ⟨free,small⟩ := (agree few).1 passes
      exact ⟨few,free,fun field member => listed (passes field member).2.1,small⟩
    · rintro ⟨few,free,scalars,small⟩ brief
      refine ⟨few,fun field member => ⟨words _ (free field member).1,?_⟩⟩
      exact (agree few).2 free small
        (fun field member => ⟨scalars field member,brief field member⟩) field member

end Agreement

end Client

end Clients

section Go

/-- Goes on with the character that a first byte begins. -/
def goesOn (char : Unfinished) : List UInt8 → Option Nat
  | [] => none
  | byte :: rest =>
    if char.lowest ≤ byte.toNat ∧ byte.toNat ≤ char.highest then
      let bits := char.bits * 64 + byte.toNat % 64
      if char.lacking = 1 then some bits else goesOn ⟨char.lacking - 1,0x80,0xBF,bits⟩ rest
    else none

/-- The runes of a string behind bytes that are read already; every byte that begins no character
is a rune of its own. -/
def runes : Nat → List UInt8 → List Nat
  | _, [] => []
  | skip+1, _ :: rest => runes skip rest
  | 0, byte :: rest =>
    match lead byte with
    | (points,none) => points ++ runes 0 rest
    | (_,some char) =>
      match goesOn char rest with
      | some point => point :: runes char.lacking rest
      | none => 0xFFFD :: runes 0 rest

/-- The text of a string in the JSON that Go writes. -/
def goUnits (s : List UInt8) : JsString := utf16 ((runes 0 s).map Char.ofNat)

/-- `^[a-zA-Z0-9_]+$` -/
def isGoKey (key : List UInt8) : Bool :=
  !key.isEmpty && key.all fun byte => isWordUnit byte.toUInt16

/-- Values of other Go types, such as unsigned integers, are what the server reads of them. -/
abbrev GoMetadata := JsMap (List UInt8) (ClientValue (List UInt8) (Option MetadataValue))

def goClient : Client (List UInt8) (Option MetadataValue) where
  isKey := isGoKey
  length := List.length
  characters s := (runes 0 s).length
  units := goUnits
  unlisted := id

/-- `ValidateMetadata` of the Go client; its lengths are in bytes. -/
def goValidateMetadata (metadata : GoMetadata) : Except (MetadataError (List UInt8)) Unit :=
  goClient.validate metadata

/-- A character that is begun by a byte beyond ASCII is beyond it. -/
def Unfinished.IsWide (char : Unfinished) : Prop :=
  2 ≤ char.bits ∨
    2 ≤ char.lacking ∧ (1 ≤ char.bits ∨ 0x82 ≤ char.lowest ∧ char.highest ≤ 0xBF)

theorem goesOn_wide {char : Unfinished} (wide : Unfinished.IsWide char) {rest : List UInt8}
    {point : Nat} (goes : goesOn char rest = some point) : 128 ≤ point := by
  induction rest generalizing char with
  | nil => cases goes
  | cons byte rest ih =>
    unfold goesOn at goes
    split at goes
    · rename_i within
      split at goes
      · rename_i last
        cases goes
        rcases wide with bits | ⟨lacking,-⟩ <;> omega
      · refine ih (.inl ?_) goes
        change 2 ≤ char.bits * 64 + byte.toNat % 64
        rcases wide with bits | ⟨-,bits | ⟨low,high⟩⟩ <;> omega
    · cases goes

theorem lead_wide {byte : UInt8} (far : 128 ≤ byte.toNat) : lead byte = ([0xFFFD],none) ∨
    ∃ char, lead byte = ([],some char) ∧ Unfinished.IsWide char := by
  simp only [lead]
  rw [if_neg (show ¬byte.toNat ≤ 127 by omega)]
  repeat' split
  all_goals first
    | exact .inl rfl
    | refine .inr ⟨_,rfl,?_⟩
      simp only [Unfinished.IsWide]
      omega

theorem runes_ascii {byte : UInt8} (ascii : byte.toNat < 128) (rest : List UInt8) :
    runes 0 (byte :: rest) = byte.toNat :: runes 0 rest := by
  have first : lead byte = ([byte.toNat],none) := by
    unfold lead
    rw [if_pos (by omega)]
  rw [runes,first]
  rfl

/-- The first rune of a string that begins beyond ASCII. -/
theorem runes_wide {byte : UInt8} (far : 128 ≤ byte.toNat) (rest : List UInt8) :
    ∃ point behind, runes 0 (byte :: rest) = point :: behind ∧ 128 ≤ point := by
  rw [runes]
  rcases lead_wide far with replaced | ⟨char,begun,wide⟩
  · rw [replaced]
    exact ⟨0xFFFD,_,rfl,by decide⟩
  · rw [begun]
    cases goes : goesOn char rest with
    | none => exact ⟨0xFFFD,runes 0 rest,by simp only [goes],by decide⟩
    | some point => exact ⟨point,runes char.lacking rest,by simp only [goes],goesOn_wide wide goes⟩

theorem utf16Char_ascii {point : Nat} (ascii : point < 128) :
    utf16Char (Char.ofNat point) = [UInt16.ofNat point] := by
  have valid : (Char.ofNat point).toNat = point := toNat_ofNat (.inl (by omega))
  rw [utf16Char,valid,if_pos (by omega)]

/-- Beyond ASCII no text is a word. -/
theorem utf16Char_wide {point : Nat} (far : 128 ≤ point) :
    (utf16Char (Char.ofNat point)).all isWordUnit = false := by
  have first (unit : UInt16) (rest : JsString) (apart : unit.toNat = 0 ∨ 128 ≤ unit.toNat) :
      (unit :: rest).all isWordUnit = false := by
    rw [List.all_cons,Bool.and_eq_false_iff]
    refine .inl (Bool.eq_false_iff.mpr fun word => ?_)
    rcases apart with zero | far
    · rw [UInt16.toNat_inj.mp (show unit.toNat = (0 : UInt16).toNat from zero)] at word
      cases word
    · have ascii := UInt16.lt_iff_toNat_lt.mp (isWordUnit_ascii word)
      exact absurd ascii (Nat.not_lt.mpr far)
  by_cases valid : point < 55296 ∨ 57343 < point ∧ point < 1114112
  · rw [utf16Char,toNat_ofNat valid]
    split
    · refine first _ _ (.inr ?_)
      rw [UInt16.toNat_ofNat']
      omega
    · refine first _ _ (.inr ?_)
      rw [UInt16.toNat_ofNat']
      omega
  · have null : Char.ofNat point = Char.ofNat 0 := by
      unfold Char.ofNat
      rw [dif_neg (by unfold Nat.isValidChar; omega)]
      rfl
    rw [null]
    decide

/-- A text that is read as a word is one of bytes, unit by unit. -/
theorem goUnits_word (key : List UInt8) :
    (goUnits key).all isWordUnit = key.all (fun byte => isWordUnit byte.toUInt16) ∧
      ((goUnits key).all isWordUnit = true → goUnits key = key.map UInt8.toUInt16) := by
  induction key with
  | nil => exact ⟨rfl,fun _ => rfl⟩
  | cons byte rest ih =>
    by_cases ascii : byte.toNat < 128
    · have unit : UInt16.ofNat byte.toNat = byte.toUInt16 := by
        rw [← UInt16.toNat_inj,UInt16.toNat_ofNat',UInt8.toNat_toUInt16]
        omega
      have whole : goUnits (byte :: rest) = byte.toUInt16 :: goUnits rest := by
        rw [goUnits,runes_ascii ascii,List.map_cons,utf16,List.flatMap_cons,utf16Char_ascii ascii,
          unit]
        rfl
      rw [whole,List.all_cons,List.all_cons,ih.1,List.map_cons]
      refine ⟨rfl,fun words => ?_⟩
      rw [ih.2 (ih.1.trans (Bool.and_eq_true_iff.mp words).2)]
    · have far := Nat.not_lt.mp ascii
      obtain ⟨point,behind,read,wide⟩ := runes_wide far rest
      have odd : (goUnits (byte :: rest)).all isWordUnit = false := by
        rw [goUnits,read,List.map_cons,utf16,List.flatMap_cons,List.all_append,
          utf16Char_wide wide,Bool.false_and]
      have odd' : isWordUnit byte.toUInt16 = false := by
        refine Bool.eq_false_iff.mpr fun word => ascii ?_
        have ascii := UInt16.lt_iff_toNat_lt.mp (isWordUnit_ascii word)
        rwa [UInt8.toNat_toUInt16] at ascii
      rw [odd,List.all_cons,odd',Bool.false_and]
      exact ⟨rfl,fun word => by cases word⟩

theorem goUnits_name (key : List UInt8) : isName (goUnits key) = isGoKey key := by
  rw [isName,isGoKey,(goUnits_word key).1]
  cases words : key.all fun byte => isWordUnit byte.toUInt16 with
  | false => rw [Bool.and_false,Bool.and_false]
  | true =>
    rw [(goUnits_word key).2 ((goUnits_word key).1.trans words),List.isEmpty_map]

theorem goUnits_apart {key other : List UInt8} (named : isName (goUnits key) = true)
    (same : goUnits key = goUnits other) : key = other := by
  have words := (Bool.and_eq_true_iff.mp named).2
  have here := (goUnits_word key).2 words
  have there := (goUnits_word other).2 (same ▸ words)
  rw [here,there] at same
  refine List.map_injective_iff.mpr (fun a b equal => ?_) same
  rw [← UInt8.toNat_inj,← UInt8.toNat_toUInt16 a,equal,UInt8.toNat_toUInt16]

/-- The name that the server reserves, in bytes. -/
def invoiceIdBytes : List UInt8 := utf8 "invoice_id".toList

theorem goUnits_reserved (key : List UInt8) :
    goUnits key = js "invoice_id" ↔ key = invoiceIdBytes := by
  have reserved : goUnits invoiceIdBytes = js "invoice_id" := by decide +kernel
  refine ⟨fun same => ?_,fun same => same ▸ reserved⟩
  refine goUnits_apart ?_ (same.trans reserved.symm)
  rw [same]
  decide

/-- What the Go client takes where the keys match the pattern. -/
def GoTakes (metadata : GoMetadata) : Prop :=
  ∀ field ∈ metadata.entries, field.2.isListed = true ∧ field.2.isBrief List.length = true

/-- What the server takes of such a map with strings of the documented length. -/
def ServerTakes (metadata : GoMetadata) (json : JsMap JsString (Option MetadataValue)) : Prop :=
  (∀ field ∈ metadata.entries, field.1 ≠ invoiceIdBytes) ∧
    Client.jsonSize json ≤ maxMetadataSize ∧
    ∀ field ∈ metadata.entries, goClient.isScalar field.2 = true ∧
      field.2.isBrief goClient.characters = true

/-- The maps on which they differ: the client looks neither at the reserved name nor at the size of
the JSON, and it refuses scalars of other types and strings with too many bytes. -/
inductive GoDiffers (metadata : GoMetadata) (json : JsMap JsString (Option MetadataValue)) :
    Prop where
  | reserved (takes : GoTakes metadata) (member : field ∈ metadata.entries)
      (named : field.1 = invoiceIdBytes)
  | large (takes : GoTakes metadata) (size : maxMetadataSize < Client.jsonSize json)
  | unlisted (takes : ServerTakes metadata json) (member : field ∈ metadata.entries)
      (other : field.2.isListed = false)
  | bytes (takes : ServerTakes metadata json) (member : field ∈ metadata.entries)
      (long : field.2.isBrief List.length = false)

/-- The maps on which the Go client and the server agree. -/
def GoAligned (metadata : GoMetadata) : Prop :=
  ∀ json, goClient.sent metadata = some json → metadata.entries.length ≤ maxMetadataFields →
    (∀ field ∈ metadata.entries, isGoKey field.1 = true) → ¬GoDiffers metadata json

theorem not_goDiffers_iff {metadata : GoMetadata} {json : JsMap JsString (Option MetadataValue)} :
    ¬GoDiffers metadata json ↔
      (GoTakes metadata → (∀ field ∈ metadata.entries, field.1 ≠ invoiceIdBytes) ∧
        Client.jsonSize json ≤ maxMetadataSize) ∧
      (ServerTakes metadata json → GoTakes metadata) := by
  constructor
  · intro same
    refine ⟨fun takes => ⟨fun field member named => same (.reserved takes member named),?_⟩,
      fun takes field member => ⟨?_,?_⟩⟩
    · exact Nat.le_of_not_lt fun size => same (.large takes size)
    · exact Bool.of_not_eq_false fun other => same (.unlisted takes member other)
    · exact Bool.of_not_eq_false fun long => same (.bytes takes member long)
  · rintro ⟨accepted,admitted⟩ differs
    cases differs with
    | reserved takes member named => exact (accepted takes).1 _ member named
    | large takes size => exact Nat.not_le_of_lt size (accepted takes).2
    | unlisted takes member other =>
      exact Bool.false_ne_true (other.symm.trans (admitted takes _ member).1)
    | bytes takes member long =>
      exact Bool.false_ne_true (long.symm.trans (admitted takes _ member).2)

theorem goClient_free (metadata : GoMetadata) : goClient.Free metadata ↔
    (∀ field ∈ metadata.entries, isGoKey field.1 = true) ∧
      ∀ field ∈ metadata.entries, field.1 ≠ invoiceIdBytes := by
  rw [← forall₂_and]
  refine forall₂_congr fun field _ => ?_
  rw [← goUnits_name,Ne,Ne,← goUnits_reserved]
  rfl

theorem goClient_agrees_iff (metadata : GoMetadata) :
    goClient.Agrees metadata ↔ GoAligned metadata := by
  rw [goClient.agrees_iff metadata (fun key named => (goUnits_name key).symm.trans named)
    fun key other => goUnits_apart]
  refine forall_congr' fun json => forall_congr' fun _ => forall_congr' fun _ => ?_
  rw [goClient_free,forall₂_and]
  change ((∀ field ∈ metadata.entries, isGoKey field.1 = true) ∧ (∀ field ∈ metadata.entries,
    field.2.isListed = true ∧ field.2.isBrief List.length = true) → _) ∧ _ ↔ _
  rw [not_goDiffers_iff]
  constructor
  · rintro ⟨accepted,admitted⟩ keys
    refine ⟨fun within => ?_,fun ⟨free,small,brief⟩ => admitted ⟨keys,free⟩ small brief⟩
    obtain ⟨⟨-,free⟩,small⟩ := accepted ⟨keys,within⟩
    exact ⟨free,small⟩
  · intro aligned
    constructor
    · rintro ⟨keys,within⟩
      obtain ⟨free,small⟩ := (aligned keys).1 within
      exact ⟨⟨keys,free⟩,small⟩
    · rintro ⟨keys,free⟩ small brief
      exact (aligned keys).2 ⟨free,small,brief⟩

end Go

section Python

abbrev CodePoint := Fin 0x110000

def isWordPoint (point : CodePoint) : Bool := point.val < 128 && isWordUnit (UInt16.ofNat point.val)

/-- `^[a-zA-Z0-9_]+$` in Python, where the end may also be in front of a last newline. -/
def isPythonKey (key : List CodePoint) : Bool :=
  let word := if key.getLast? = some 10 then key.dropLast else key
  !word.isEmpty && word.all isWordPoint

def pointUnits (point : CodePoint) : JsString :=
  if point.val < 65536 then [UInt16.ofNat point.val]
  else [UInt16.ofNat (55296 + (point.val - 65536) / 1024),
    UInt16.ofNat (56320 + (point.val - 65536) % 1024)]

/-- The text of a string in the JSON that Python writes. -/
def pythonUnits (s : List CodePoint) : JsString := s.flatMap pointUnits

/-- Values of other Python types that have a JSON are null, lists and objects. -/
abbrev PythonMetadata := JsMap (List CodePoint) (ClientValue (List CodePoint) Unit)

def pythonClient : Client (List CodePoint) Unit where
  isKey := isPythonKey
  length := List.length
  characters := List.length
  units := pythonUnits
  unlisted _ := none

/-- `validate_metadata` of the Python client; its lengths are in code points. -/
def pythonValidateMetadata (metadata : PythonMetadata) :
    Except (MetadataError (List CodePoint)) Unit :=
  pythonClient.validate metadata

theorem pointUnits_word (point : CodePoint) :
    (pointUnits point).all isWordUnit = isWordPoint point ∧
      (isWordPoint point = true → pointUnits point = [UInt16.ofNat point.val]) := by
  unfold pointUnits isWordPoint
  split
  · rename_i basic
    refine ⟨?_,fun _ => rfl⟩
    rw [List.all_cons,List.all_nil,Bool.and_true]
    cases word : isWordUnit (UInt16.ofNat point.val) with
    | false => rw [Bool.and_false]
    | true =>
      have ascii := UInt16.lt_iff_toNat_lt.mp (isWordUnit_ascii word)
      rw [UInt16.toNat_ofNat',Nat.mod_eq_of_lt basic] at ascii
      rw [Bool.and_true]
      exact (decide_eq_true ascii).symm
  · rename_i astral
    have far : decide (point.val < 128) = false := decide_eq_false (by omega)
    rw [far,Bool.false_and]
    refine ⟨?_,fun word => by cases word⟩
    rw [List.all_cons,Bool.and_eq_false_iff]
    refine .inl (Bool.eq_false_iff.mpr fun word => ?_)
    have ascii := UInt16.lt_iff_toNat_lt.mp (isWordUnit_ascii word)
    rw [UInt16.toNat_ofNat'] at ascii
    have := point.isLt
    have : (128 : UInt16).toNat = 128 := rfl
    omega

theorem pythonUnits_word (key : List CodePoint) :
    (pythonUnits key).all isWordUnit = key.all isWordPoint ∧ (key.all isWordPoint = true →
      pythonUnits key = key.map fun point => UInt16.ofNat point.val) := by
  induction key with
  | nil => exact ⟨rfl,fun _ => rfl⟩
  | cons point rest ih =>
    rw [pythonUnits,List.flatMap_cons,List.all_append,(pointUnits_word point).1,List.all_cons]
    refine ⟨congrArg _ ih.1,fun words => ?_⟩
    obtain ⟨here,there⟩ := Bool.and_eq_true_iff.mp words
    rw [(pointUnits_word point).2 here,List.map_cons,List.singleton_append]
    exact congrArg _ (ih.2 there)

theorem pythonUnits_name (key : List CodePoint) :
    isName (pythonUnits key) = (!key.isEmpty && key.all isWordPoint) := by
  rw [isName,(pythonUnits_word key).1]
  cases words : key.all isWordPoint with
  | false => rw [Bool.and_false,Bool.and_false]
  | true => rw [(pythonUnits_word key).2 words,List.isEmpty_map]

theorem pythonUnits_apart {key other : List CodePoint} (named : isName (pythonUnits key) = true)
    (same : pythonUnits key = pythonUnits other) : key = other := by
  have words {key : List CodePoint} (named : isName (pythonUnits key) = true) :
      key.all isWordPoint = true := by
    rw [pythonUnits_name] at named
    exact (Bool.and_eq_true_iff.mp named).2
  have here := words named
  have there := words (same ▸ named)
  rw [(pythonUnits_word key).2 here,(pythonUnits_word other).2 there] at same
  have small {key : List CodePoint} (words : key.all isWordPoint = true) {point : CodePoint}
      (member : point ∈ key) : (UInt16.ofNat point.val).toNat = point.val := by
    have ascii := (Bool.and_eq_true_iff.mp (List.all_eq_true.mp words point member)).1
    have ascii := of_decide_eq_true ascii
    rw [UInt16.toNat_ofNat']
    omega
  refine List.map_injective_iff.mpr Fin.val_injective ?_
  have values := congrArg (List.map UInt16.toNat) same
  rw [List.map_map,List.map_map] at values
  rw [List.map_congr_left fun point member => (small here member).symm,
    List.map_congr_left (l := other) fun point member => (small there member).symm]
  exact values

def points (text : String) : List CodePoint := text.toList.map fun c => Fin.ofNat _ c.toNat

def invoiceIdPoints : List CodePoint := points "invoice_id"

theorem pythonUnits_reserved (key : List CodePoint) :
    pythonUnits key = js "invoice_id" ↔ key = invoiceIdPoints := by
  have reserved : pythonUnits invoiceIdPoints = js "invoice_id" := by decide +kernel
  refine ⟨fun same => ?_,fun same => same ▸ reserved⟩
  refine pythonUnits_apart ?_ (same.trans reserved.symm)
  rw [same]
  decide

/-- A word has no newline at its end. -/
theorem last_word {key : List CodePoint} (words : key.all isWordPoint = true) :
    key.getLast? ≠ some 10 := by
  intro last
  have word := List.all_eq_true.mp words _ (List.mem_of_getLast? last)
  revert word
  decide

theorem isPythonKey_name {key : List CodePoint} (named : isName (pythonUnits key) = true) :
    isPythonKey key = true := by
  rw [pythonUnits_name] at named
  rw [isPythonKey,if_neg (last_word (Bool.and_eq_true_iff.mp named).2)]
  exact named

/-- A key that matches is a name unless a newline stands at its end. -/
theorem isPythonKey_lined {key : List CodePoint} (passes : isPythonKey key = true) :
    isName (pythonUnits key) = true ↔ key.getLast? ≠ some 10 := by
  rw [pythonUnits_name]
  refine ⟨fun named => last_word (Bool.and_eq_true_iff.mp named).2,fun last => ?_⟩
  rw [isPythonKey,if_neg last] at passes
  exact passes

/-- The maps on which they differ: the client looks neither at the reserved name nor at the size of
the JSON, and its pattern lets a newline end a key. -/
inductive PythonDiffers (metadata : PythonMetadata)
    (json : JsMap JsString (Option MetadataValue)) : Prop where
  | newline (member : field ∈ metadata.entries) (ends : field.1.getLast? = some 10)
  | reserved (member : field ∈ metadata.entries) (named : field.1 = invoiceIdPoints)
  | large (size : maxMetadataSize < Client.jsonSize json)

/-- The maps on which the Python client and the server agree. -/
def PythonAligned (metadata : PythonMetadata) : Prop :=
  ∀ json, pythonClient.sent metadata = some json → metadata.entries.length ≤ maxMetadataFields →
    (∀ field ∈ metadata.entries, isPythonKey field.1 = true ∧
      field.2.isListed = true ∧ field.2.isBrief List.length = true) →
    ¬PythonDiffers metadata json

theorem not_pythonDiffers_iff {metadata : PythonMetadata}
    {json : JsMap JsString (Option MetadataValue)} : ¬PythonDiffers metadata json ↔
      (∀ field ∈ metadata.entries, field.1.getLast? ≠ some 10 ∧ field.1 ≠ invoiceIdPoints) ∧
        Client.jsonSize json ≤ maxMetadataSize := by
  constructor
  · intro same
    exact ⟨fun field member => ⟨fun ends => same (.newline member ends),
      fun named => same (.reserved member named)⟩,Nat.le_of_not_lt fun size => same (.large size)⟩
  · rintro ⟨free,small⟩ differs
    cases differs with
    | newline member ends => exact (free _ member).1 ends
    | reserved member named => exact (free _ member).2 named
    | large size => exact Nat.not_le_of_lt size small

theorem pythonClient_free {metadata : PythonMetadata}
    (keys : ∀ field ∈ metadata.entries, isPythonKey field.1 = true) :
    pythonClient.Free metadata ↔
      ∀ field ∈ metadata.entries, field.1.getLast? ≠ some 10 ∧ field.1 ≠ invoiceIdPoints := by
  refine forall₂_congr fun field member => ?_
  rw [← isPythonKey_lined (keys field member)]
  exact Iff.rfl.and (not_congr (pythonUnits_reserved field.1))

theorem pythonClient_agrees_iff (metadata : PythonMetadata) :
    pythonClient.Agrees metadata ↔ PythonAligned metadata := by
  rw [pythonClient.agrees_iff metadata (fun key => isPythonKey_name)
    fun key other => pythonUnits_apart]
  refine forall_congr' fun json => forall_congr' fun _ => forall_congr' fun _ => ?_
  constructor
  · rintro ⟨accepted,-⟩ within
    obtain ⟨free,small⟩ := accepted within
    exact not_pythonDiffers_iff.mpr
      ⟨(pythonClient_free fun field member => (within field member).1).mp free,small⟩
  · intro aligned
    refine ⟨fun within => ?_,fun _ _ brief field member => ?_⟩
    · obtain ⟨free,small⟩ := not_pythonDiffers_iff.mp (aligned within)
      exact ⟨(pythonClient_free fun field member => (within field member).1).mpr free,small⟩
    · obtain ⟨scalar,short⟩ := brief field member
      refine ⟨?_,short⟩
      cases value : field.2 <;> rw [value] at scalar
      case unlisted => cases scalar
      all_goals rfl

end Python

/-- On exactly these maps each client and the server agree. -/
theorem metadata_validators_agree_iff (go : GoMetadata) (python : PythonMetadata) :
    (goClient.Agrees go ↔ GoAligned go) ∧ (pythonClient.Agrees python ↔ PythonAligned python) :=
  ⟨goClient_agrees_iff go,pythonClient_agrees_iff python⟩

/-- Both clients let the reserved name pass, which the server refuses. -/
theorem invoice_id_disagrees :
    ¬goClient.Agrees ⟨[(invoiceIdBytes,.string (utf8 "INV-1".toList))],List.nodup_singleton _⟩ ∧
      ¬pythonClient.Agrees ⟨[(invoiceIdPoints,.string (points "INV-1"))],
        List.nodup_singleton _⟩ := by
  constructor
  · intro agree
    have refused := (agree _ rfl).1 (by decide +kernel)
    revert refused
    decide +kernel
  · intro agree
    have refused := (agree _ rfl).1 (by decide +kernel)
    revert refused
    decide +kernel

end Tonbankcard.MetadataValidators
