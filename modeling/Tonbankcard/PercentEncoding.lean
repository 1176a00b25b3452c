import Tonbankcard.JsNumbers
import Tonbankcard.Unicode

/-! Percent-encoded text: `encodeURIComponent` with its inverse, and query strings as
`URLSearchParams` writes and reads them. Components written byte by byte, plain or escaped, read
back to their bytes, and a query joined from them to its pairs. -/
namespace PercentEncoding

open EcmaScript Unicode

section Bytes

def hexDigit (value : Nat) : UInt16 :=
  if value < 10 then UInt16.ofNat (48 + value) else UInt16.ofNat (55 + value)

def escape (byte : UInt8) : JsString :=
  [37,hexDigit (byte.toNat / 16),hexDigit (byte.toNat % 16)]

def asciiByte (unit : UInt16) : UInt8 := UInt8.ofNat unit.toNat

/-- An escape that is not two digits stays as it is. -/
def percentDecode : List UInt8 → List UInt8
  | [] => []
  | [a] => [a]
  | [a,b] => [a,b]
  | a :: b :: c :: rest =>
    if a = 37 then
      match hexValue b.toUInt16,hexValue c.toUInt16 with
      | some high,some low => UInt8.ofNat (high * 16 + low) :: percentDecode rest
      | _,_ => a :: percentDecode (b :: c :: rest)
    else a :: percentDecode (b :: c :: rest)

theorem hexValue_hexDigit {value : Nat} (small : value < 16) :
    hexValue (hexDigit value) = some value ∧
      hexValue (asciiByte (hexDigit value)).toUInt16 = some value := by
  revert value
  decide

theorem percentDecode_plain {byte : UInt8} (apart : byte ≠ 37) (rest : List UInt8) :
    percentDecode (byte :: rest) = byte :: percentDecode rest := by
  cases rest with
  | nil => rfl
  | cons b rest =>
    cases rest with
    | nil => rfl
    | cons c rest => rw [percentDecode,if_neg apart]

theorem percentDecode_escape (byte : UInt8) (rest : List UInt8) :
    percentDecode ((escape byte).map asciiByte ++ rest) = byte :: percentDecode rest := by
  have small := byte.toNat_lt
  have high := (hexValue_hexDigit (show byte.toNat / 16 < 16 by omega)).2
  have low := (hexValue_hexDigit (show byte.toNat % 16 < 16 by omega)).2
  have whole : byte.toNat / 16 * 16 + byte.toNat % 16 = byte.toNat := by omega
  simp only [escape,List.map_cons,List.map_nil,List.cons_append,List.nil_append]
  rw [percentDecode,if_pos (by decide),high,low]
  simp only [whole,UInt8.ofNat_toNat]

end Bytes

section Components

def plusToSpace (byte : UInt8) : UInt8 := if byte = 43 then 32 else byte

/-- Visible characters apart from what joins a query and what begins one. -/
def solid (unit : UInt16) : Bool :=
  33 ≤ unit && unit ≤ 126 && unit != 38 && unit != 61 && unit != 63

theorem hexDigit_solid {value : Nat} (small : value < 16) :
    solid (hexDigit value) = true ∧
      plusToSpace (asciiByte (hexDigit value)) = asciiByte (hexDigit value) := by
  revert value
  decide

/-- Text that a query can hold between its separators, and the bytes that are read from it. -/
structure Component (units : JsString) (bytes : List UInt8) : Prop where
  solid : ∀ unit ∈ units, solid unit = true
  reads : ∀ rest, percentDecode ((units.map asciiByte).map plusToSpace ++ rest) =
    bytes ++ percentDecode rest

theorem Component.nil : Component [] [] := ⟨nofun,fun _ => rfl⟩

theorem Component.append (front : Component units bytes) (back : Component more others) :
    Component (units ++ more) (bytes ++ others) where
  solid unit member := (List.mem_append.mp member).elim (front.solid unit) (back.solid unit)
  reads rest := by
    rw [List.map_append,List.map_append,List.append_assoc,front.reads,back.reads,
      List.append_assoc]

theorem Component.escape (byte : UInt8) : Component (escape byte) [byte] := by
  have small := byte.toNat_lt
  have high := hexDigit_solid (show byte.toNat / 16 < 16 by omega)
  have low := hexDigit_solid (show byte.toNat % 16 < 16 by omega)
  constructor
  · refine List.forall_mem_cons.mpr ⟨by decide,List.forall_mem_cons.mpr ⟨high.1,?_⟩⟩
    exact List.forall_mem_singleton.mpr low.1
  · intro rest
    have kept : ((PercentEncoding.escape byte).map asciiByte).map plusToSpace =
        (PercentEncoding.escape byte).map asciiByte := by
      simp only [PercentEncoding.escape,List.map_cons,List.map_nil,high.2,low.2]
      rfl
    rw [kept]
    exact percentDecode_escape byte rest

/-- A space is written as a plus sign. -/
theorem Component.plus : Component [43] [32] :=
  ⟨List.forall_mem_singleton.mpr rfl,fun rest => percentDecode_plain (by decide) rest⟩

/-- Bytes that stand for themselves. -/
def standsPlain (byte : UInt8) : Bool := solid byte.toUInt16 && byte != 37 && byte != 43

theorem Component.plain {byte : UInt8} (plain : standsPlain byte = true) :
    Component [byte.toUInt16] [byte] := by
  simp only [standsPlain,Bool.and_eq_true,bne_iff_ne] at plain
  obtain ⟨⟨solid,notEscape⟩,notPlus⟩ := plain
  refine ⟨List.forall_mem_singleton.mpr solid,fun rest => ?_⟩
  have same : asciiByte byte.toUInt16 = byte := by
    rw [asciiByte,UInt8.toNat_toUInt16,UInt8.ofNat_toNat]
  rw [List.map_singleton,List.map_singleton,same,plusToSpace,if_neg notPlus]
  exact percentDecode_plain notEscape rest

/-- Bytes written one by one. -/
theorem Component.flatMap {write : UInt8 → JsString} (each : ∀ byte, Component (write byte) [byte])
    (bytes : List UInt8) : Component (bytes.flatMap write) bytes := by
  induction bytes with
  | nil => exact .nil
  | cons byte rest ih =>
    rw [List.flatMap_cons]
    exact (each byte).append ih

end Components

section Writers

def isAlphanumeric (byte : UInt8) : Bool :=
  (48 ≤ byte && byte ≤ 57) || (65 ≤ byte && byte ≤ 90) || (97 ≤ byte && byte ≤ 122)

/-- The bytes that `encodeURIComponent` leaves: letters, digits and `-_.!~*'()`. -/
def isUnreserved (byte : UInt8) : Bool :=
  isAlphanumeric byte || [45,95,46,33,126,42,39,40,41].contains byte

/-- The bytes that a query string leaves: letters, digits and `*-._`. -/
def isFormPlain (byte : UInt8) : Bool := isAlphanumeric byte || [42,45,46,95].contains byte

def uriByte (byte : UInt8) : JsString := if isUnreserved byte then [byte.toUInt16] else escape byte

def formByte (byte : UInt8) : JsString :=
  if byte = 32 then [43] else if isFormPlain byte then [byte.toUInt16] else escape byte

/-- A lone surrogate has no encoding. -/
def encodeURIComponent (s : JsString) : Option JsString :=
  if isWellFormed s then some ((encodeUtf8 s).flatMap uriByte) else none

def formComponent (s : JsString) : JsString := (encodeUtf8 s).flatMap formByte

theorem standsPlain_of (byte : UInt8) (plain : isUnreserved byte = true ∨ isFormPlain byte = true) :
    standsPlain byte = true := by
  simp only [isUnreserved,isFormPlain,isAlphanumeric,List.contains_cons,List.contains_nil,
    Bool.or_eq_true,Bool.and_eq_true,decide_eq_true_eq,beq_iff_eq,Bool.or_false,
    UInt8.le_iff_toNat_le,← UInt8.toNat_inj,UInt8.reduceToNat] at plain
  simp only [standsPlain,solid,Bool.and_eq_true,decide_eq_true_eq,bne_iff_ne,ne_eq,
    UInt16.le_iff_toNat_le,← UInt16.toNat_inj,← UInt8.toNat_inj,UInt8.toNat_toUInt16,
    UInt16.reduceToNat,UInt8.reduceToNat]
  omega

theorem uriByte_component (byte : UInt8) : Component (uriByte byte) [byte] := by
  rw [uriByte]
  split
  next plain => exact .plain (standsPlain_of byte (.inl plain))
  next => exact .escape byte

theorem formByte_component (byte : UInt8) : Component (formByte byte) [byte] := by
  rw [formByte]
  split
  next space => exact space ▸ .plus
  split
  next plain => exact .plain (standsPlain_of byte (.inr plain))
  next => exact .escape byte

theorem encodeURIComponent_component (encoded : encodeURIComponent s = some units) :
    Component units (encodeUtf8 s) := by
  obtain ⟨-,same⟩ := Option.ite_none_right_eq_some.mp encoded
  exact Option.some.inj same ▸ .flatMap uriByte_component _

theorem formComponent_component (s : JsString) : Component (formComponent s) (encodeUtf8 s) :=
  .flatMap formByte_component _

end Writers

section Queries

/-- Pairs of a name and a value, as they are written. -/
def query (pairs : List (JsString × JsString)) : JsString :=
  [38].intercalate (pairs.map fun pair => pair.1 ++ 61 :: pair.2)

/-- `URLSearchParams.prototype.toString` -/
def serialize (pairs : List (JsString × JsString)) : JsString :=
  query (pairs.map fun pair => (formComponent pair.1,formComponent pair.2))

def decodePart (part : List UInt8) : JsString := decodeUtf8 (percentDecode (part.map plusToSpace))

/-- A name ends at the first equals sign. -/
def decodePair (sequence : List UInt8) : JsString × JsString :=
  (decodePart (sequence.takeWhile (· ≠ 61)),decodePart ((sequence.dropWhile (· ≠ 61)).drop 1))

def parseQuery (text : JsString) : List (JsString × JsString) :=
  (((encodeUtf8 text).splitOn 38).filter fun sequence => !sequence.isEmpty).map decodePair

/-- `new URLSearchParams(text)` -/
def searchParams : JsString → List (JsString × JsString)
  | [] => parseQuery []
  | unit :: rest => parseQuery (if unit = 63 then rest else unit :: rest)

/-- `URLSearchParams.prototype.get` -/
def getParam (params : List (JsString × JsString)) (name : JsString) : Option JsString :=
  (params.find? fun pair => pair.1 = name).map Prod.snd

theorem solid_range {unit : UInt16} (member : solid unit = true) :
    33 ≤ unit.toNat ∧ unit.toNat ≤ 126 ∧ unit.toNat ≠ 38 ∧ unit.toNat ≠ 61 ∧
      unit.toNat ≠ 63 := by
  simpa [solid,UInt16.le_iff_toNat_le,← UInt16.toNat_inj,and_assoc] using member

theorem encodeUtf8_ascii {text : JsString} (ascii : ∀ unit ∈ text, unit.toNat < 128) :
    encodeUtf8 text = text.map asciiByte := by
  induction text with
  | nil => rfl
  | cons unit rest ih =>
    obtain ⟨small,others⟩ := List.forall_mem_cons.mp ascii
    have apart : isLeading unit = false :=
      (isLeading_ascii (UInt16.lt_iff_toNat_lt.mpr small)).1
    have value : (scalar unit.toNat).toNat = unit.toNat := by
      unfold scalar
      rw [if_neg (by simp only [Bool.and_eq_true,decide_eq_true_eq]; omega)]
      exact toNat_ofNat (by omega)
    have byte : String.utf8EncodeChar (scalar unit.toNat) = [asciiByte unit] := by
      unfold String.utf8EncodeChar
      simp only [Char.toNat_val,value]
      rw [if_pos (by omega)]
      rfl
    have ih := ih others
    unfold encodeUtf8 utf8 at ih ⊢
    rw [codePoints_single rest apart,List.map_cons,List.flatMap_cons,byte,ih,List.map_cons,
      List.singleton_append]

theorem decodePart_component (component : Component units bytes) :
    decodePart (units.map asciiByte) = decodeUtf8 bytes := by
  have reads := component.reads []
  rw [List.append_nil,show percentDecode [] = [] from rfl,List.append_nil] at reads
  rw [decodePart,reads]

theorem component_apart (component : Component units bytes) :
    ∀ byte ∈ units.map asciiByte, byte ≠ 38 ∧ byte ≠ 61 := by
  intro byte member
  obtain ⟨unit,written,rfl⟩ := List.mem_map.mp member
  have range := solid_range (component.solid unit written)
  simp only [ne_eq,← UInt8.toNat_inj,asciiByte,UInt8.toNat_ofNat',UInt8.reduceToNat]
  omega

theorem decodePair_components (name : Component nameUnits nameBytes)
    (value : Component valueUnits valueBytes) :
    decodePair ((nameUnits ++ 61 :: valueUnits).map asciiByte) =
      (decodeUtf8 nameBytes,decodeUtf8 valueBytes) := by
  have passes : ∀ byte ∈ nameUnits.map asciiByte, decide (byte ≠ 61) = true := fun byte member =>
    decide_eq_true (component_apart name byte member).2
  have parts : (nameUnits ++ 61 :: valueUnits).map asciiByte =
      nameUnits.map asciiByte ++ 61 :: valueUnits.map asciiByte := by
    rw [List.map_append,List.map_cons]
    rfl
  rw [decodePair,parts,List.takeWhile_append_of_pos passes,List.dropWhile_append_of_pos passes]
  simp [decodePart_component name,decodePart_component value]

/-- A pair of components between separators and the bytes that are read from it. -/
def Written (units : JsString × JsString) (bytes : List UInt8 × List UInt8) : Prop :=
  Component units.1 bytes.1 ∧ Component units.2 bytes.2

theorem map_intercalate {α β : Type} (f : α → β) (separator : α) (parts : List (List α)) :
    ([separator].intercalate parts).map f = [f separator].intercalate (parts.map (List.map f)) := by
  induction parts with
  | nil => rfl
  | cons part parts ih =>
    cases parts with
    | nil => simp
    | cons next parts =>
      rw [List.map_cons] at ih
      simp only [List.intercalate_cons_cons,List.map_cons,List.map_append,ih,List.map_nil]

theorem mem_intercalate {α : Type} {item separator : α} {parts : List (List α)}
    (member : item ∈ [separator].intercalate parts) :
    item = separator ∨ ∃ part ∈ parts, item ∈ part := by
  induction parts with
  | nil => cases member
  | cons part parts ih =>
    cases parts with
    | nil => exact .inr ⟨part,List.mem_cons_self,by simpa using member⟩
    | cons next parts =>
      rw [List.intercalate_cons_cons,List.mem_append,List.mem_append,List.mem_singleton] at member
      rcases member with (first | same) | later
      · exact .inr ⟨part,List.mem_cons_self,first⟩
      · exact .inl same
      · rcases ih later with same | ⟨other,among,inside⟩
        · exact .inl same
        · exact .inr ⟨other,List.mem_cons_of_mem part among,inside⟩

variable {pairs : List (JsString × JsString)} {contents : List (List UInt8 × List UInt8)}

theorem written_mem (written : List.Forall₂ Written pairs contents) :
    ∀ pair ∈ pairs, ∃ bytes, Written pair bytes := by
  induction written with
  | nil => nofun
  | cons first _ ih => exact List.forall_mem_cons.mpr ⟨⟨_,first⟩,ih⟩

theorem query_units (written : List.Forall₂ Written pairs contents) :
    ∀ unit ∈ query pairs, unit = 38 ∨ unit = 61 ∨ solid unit = true := by
  intro unit member
  rcases mem_intercalate member with rfl | ⟨part,among,inside⟩
  · exact .inl rfl
  · obtain ⟨pair,paired,rfl⟩ := List.mem_map.mp among
    obtain ⟨bytes,name,value⟩ := written_mem written pair paired
    rcases List.mem_append.mp inside with inside | inside
    · exact .inr (.inr (name.solid unit inside))
    · rcases List.mem_cons.mp inside with rfl | inside
      · exact .inr (.inl rfl)
      · exact .inr (.inr (value.solid unit inside))

theorem parseQuery_query (written : List.Forall₂ Written pairs contents) :
    parseQuery (query pairs) =
      contents.map fun bytes => (decodeUtf8 bytes.1,decodeUtf8 bytes.2) := by
  have ascii : ∀ unit ∈ query pairs, unit.toNat < 128 := by
    intro unit member
    rcases query_units written unit member with rfl | rfl | solid
    · decide
    · decide
    · have range := solid_range solid
      omega
  have units : (encodeUtf8 (query pairs)).splitOn 38 =
      if pairs = [] then [[]] else
        pairs.map fun pair => (pair.1 ++ 61 :: pair.2).map asciiByte := by
    rw [encodeUtf8_ascii ascii,query,map_intercalate,List.map_map]
    split
    next empty =>
      rw [empty]
      rfl
    next filled =>
      refine List.splitOn_intercalate 38 ?_ (by simpa using filled)
      intro sequence among separator
      obtain ⟨pair,paired,rfl⟩ := List.mem_map.mp among
      obtain ⟨bytes,name,value⟩ := written_mem written pair paired
      simp only [Function.comp_apply,List.map_append,List.map_cons,List.mem_append,
        List.mem_cons] at separator
      rcases separator with inside | same | inside
      · exact (component_apart name _ inside).1 rfl
      · exact absurd same (by decide)
      · exact (component_apart value _ inside).1 rfl
  rw [parseQuery,units]
  clear units ascii
  induction written with
  | nil => rfl
  | @cons pair bytes pairs contents first _ ih =>
    rw [if_neg (List.cons_ne_nil _ _),List.map_cons,List.filter_cons_of_pos (by simp),List.map_cons,
      decodePair_components first.1 first.2,List.map_cons,← ih]
    split
    next empty => rw [empty]; rfl
    next => rfl

end Queries

section Uris

/-- The code units of a text with its escapes told apart as bytes; an escape has two digits. -/
def octets : JsString → Option (List (UInt16 ⊕ UInt8))
  | [] => some []
  | [a] => if a = 37 then none else some [.inl a]
  | [a,b] => if a = 37 ∨ b = 37 then none else some [.inl a,.inl b]
  | a :: b :: c :: rest =>
    if a = 37 then
      match hexValue b,hexValue c with
      | some high,some low => (octets rest).map (.inr (UInt8.ofNat (high * 16 + low)) :: ·)
      | _,_ => none
    else (octets (b :: c :: rest)).map (.inl a :: ·)

/-- Bytes that are the encoding of a text. -/
def decodeRun (run : List UInt8) : Option JsString :=
  let characters := (decodePoints none run).map Char.ofNat
  if utf8 characters = run then some (utf16 characters) else none

/-- Each run of escapes has to be the encoding of a text. -/
def decodeOctets (run : List UInt8) : List (UInt16 ⊕ UInt8) → Option JsString
  | [] => decodeRun run
  | .inr byte :: rest => decodeOctets (run ++ [byte]) rest
  | .inl unit :: rest => do
    let front ← decodeRun run
    let back ← decodeOctets [] rest
    pure (front ++ unit :: back)

/-- A malformed escape is refused. -/
def decodeURIComponent (text : JsString) : Option JsString := do
  let read ← octets text
  decodeOctets [] read

/-- What `octets` makes of a byte as it is written. -/
def uriOctet (byte : UInt8) : UInt16 ⊕ UInt8 :=
  if isUnreserved byte then .inl byte.toUInt16 else .inr byte

theorem octets_plain {unit : UInt16} (apart : unit ≠ 37) (rest : JsString) :
    octets (unit :: rest) = (octets rest).map (.inl unit :: ·) := by
  cases rest with
  | nil => simp [octets,apart]
  | cons b rest =>
    cases rest with
    | nil => by_cases second : b = 37 <;> simp [octets,apart,second]
    | cons c rest => rw [octets,if_neg apart]

theorem octets_written (byte : UInt8) (rest : JsString) :
    octets (uriByte byte ++ rest) = (octets rest).map (uriOctet byte :: ·) := by
  rw [uriByte,uriOctet]
  split
  next plain =>
    have apart : byte.toUInt16 ≠ 37 := by
      have stands := standsPlain_of byte (.inl plain)
      simp only [standsPlain,Bool.and_eq_true,bne_iff_ne] at stands
      intro same
      refine stands.1.2 (UInt8.toNat_inj.mp ?_)
      rw [← UInt8.toNat_toUInt16,same]
      rfl
    exact octets_plain apart rest
  next =>
    have small := byte.toNat_lt
    have high := (hexValue_hexDigit (show byte.toNat / 16 < 16 by omega)).1
    have low := (hexValue_hexDigit (show byte.toNat % 16 < 16 by omega)).1
    have whole : byte.toNat / 16 * 16 + byte.toNat % 16 = byte.toNat := by omega
    rw [escape,List.cons_append,List.cons_append,List.singleton_append,octets,if_pos rfl,high,low]
    simp only [whole,UInt8.ofNat_toNat]

theorem octets_flatMap (bytes : List UInt8) :
    octets (bytes.flatMap uriByte) = some (bytes.map uriOctet) := by
  induction bytes with
  | nil => rfl
  | cons byte rest ih =>
    rw [List.flatMap_cons,octets_written,ih]
    rfl

theorem decodeRun_utf8 (characters : List Char) :
    decodeRun (utf8 characters) = some (utf16 characters) := by
  have points : (decodePoints none (utf8 characters)).map Char.ofNat = characters := by
    rw [decodePoints_utf8,List.map_map]
    exact (List.map_congr_left fun c _ => Char.ofNat_toNat c).trans (List.map_id characters)
  rw [decodeRun,points,if_pos rfl]

theorem unreserved_ascii {byte : UInt8} (plain : isUnreserved byte = true) :
    byte.toNat < 128 := by
  have stands := standsPlain_of byte (.inl plain)
  simp only [standsPlain,Bool.and_eq_true] at stands
  have range := solid_range stands.1.1
  rw [UInt8.toNat_toUInt16] at range
  omega

/-- An unreserved byte is a character of its own. -/
theorem utf8EncodeChar_unreserved (c : Char) :
    (∃ byte, String.utf8EncodeChar c = [byte] ∧ isUnreserved byte = true ∧
      utf16Char c = [byte.toUInt16]) ∨
    ∀ byte ∈ String.utf8EncodeChar c, isUnreserved byte = false := by
  by_cases ascii : c.toNat ≤ 127
  · have bytes : String.utf8EncodeChar c = [UInt8.ofNat c.toNat] := by
      unfold String.utf8EncodeChar
      simp only [Char.toNat_val]
      rw [if_pos ascii]
    have units : utf16Char c = [(UInt8.ofNat c.toNat).toUInt16] := by
      rw [utf16Char,if_pos (by omega)]
      congr 1
      apply UInt16.toNat_inj.mp
      rw [UInt8.toNat_toUInt16,UInt8.toNat_ofNat',UInt16.toNat_ofNat']
      omega
    cases plain : isUnreserved (UInt8.ofNat c.toNat) with
    | true => exact .inl ⟨_,bytes,plain,units⟩
    | false => exact .inr (bytes ▸ List.forall_mem_singleton.mpr plain)
  · -- all bytes of a longer encoding are beyond ASCII
    refine .inr fun byte member => Bool.eq_false_iff.mpr fun plain => ?_
    have small := unreserved_ascii plain
    have range := char_range c
    unfold String.utf8EncodeChar at member
    simp only [Char.toNat_val] at member
    split_ifs at member
    all_goals
      simp only [List.mem_cons,List.not_mem_nil,or_false,← UInt8.toNat_inj,
        UInt8.toNat_ofNat'] at member
      omega

theorem decodeOctets_escaped (run bytes : List UInt8) (rest : List (UInt16 ⊕ UInt8))
    (escaped : ∀ byte ∈ bytes, isUnreserved byte = false) :
    decodeOctets run (bytes.map uriOctet ++ rest) = decodeOctets (run ++ bytes) rest := by
  induction bytes generalizing run with
  | nil => rw [List.append_nil,List.map_nil,List.nil_append]
  | cons byte bytes ih =>
    obtain ⟨first,others⟩ := List.forall_mem_cons.mp escaped
    have octet : uriOctet byte = .inr byte := by simp [uriOctet,first]
    rw [List.map_cons,List.cons_append,octet,decodeOctets,ih (run ++ [byte]) others,
      List.append_assoc,List.singleton_append]

theorem decodeOctets_utf8 (done characters : List Char) :
    decodeOctets (utf8 done) ((utf8 characters).map uriOctet) =
      some (utf16 (done ++ characters)) := by
  induction characters generalizing done with
  | nil =>
    rw [List.append_nil]
    exact decodeRun_utf8 done
  | cons c rest ih =>
    have bytes : utf8 (c :: rest) = String.utf8EncodeChar c ++ utf8 rest := List.flatMap_cons ..
    rw [bytes,List.map_append]
    rcases utf8EncodeChar_unreserved c with ⟨byte,single,plain,unit⟩ | escaped
    · have octet : uriOctet byte = .inl byte.toUInt16 := by simp [uriOctet,plain]
      have later := ih []
      rw [List.nil_append] at later
      rw [single,List.map_singleton,List.singleton_append,octet,decodeOctets,decodeRun_utf8]
      change (decodeOctets (utf8 []) _ >>= _) = _
      rw [later]
      simp [utf16,unit]
    · have longer : utf8 (done ++ [c]) = utf8 done ++ String.utf8EncodeChar c := by
        simp [utf8]
      rw [decodeOctets_escaped _ _ _ escaped,← longer,ih,List.append_assoc,
        List.singleton_append]

/-- A text that has an encoding is read back from it. -/
theorem decodeURIComponent_encode (encoded : encodeURIComponent s = some units) :
    decodeURIComponent units = some s := by
  obtain ⟨wellFormed,same⟩ := Option.ite_none_right_eq_some.mp encoded
  have read := decodeOctets_utf8 [] ((codePoints s).map scalar)
  rw [List.nil_append,utf16_codePoints wellFormed] at read
  rw [← Option.some.inj same,decodeURIComponent,octets_flatMap]
  exact read

end Uris
end PercentEncoding
