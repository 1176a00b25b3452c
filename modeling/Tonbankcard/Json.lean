import Tonbankcard.JsNumbers

/-! `JSON.parse`, and that it reads back the text of a flat object. -/
namespace EcmaScript

/-- What `JSON.parse` returns; an object keeps its members as they stand in the text. -/
inductive Json where
  | null
  | boolean (value : Bool)
  | number (value : Number)
  | string (text : JsString)
  | array (items : List Json)
  | object (members : List (JsString × Json))

namespace Json

section Reading

/-- The white space between tokens. -/
def isSpace (unit : UInt16) : Bool := unit = 32 || unit = 9 || unit = 10 || unit = 13

def skipSpace (s : JsString) : JsString := s.dropWhile isSpace

/-- The unit that a two-character escape stands for. -/
def escaped (unit : UInt16) : Option UInt16 :=
  if unit = 34 || unit = 92 || unit = 47 then some unit
  else if unit = 98 then some 8
  else if unit = 102 then some 12
  else if unit = 110 then some 10
  else if unit = 114 then some 13
  else if unit = 116 then some 9
  else none

/-- The unit of four hexadecimal digits. -/
def readHex (a b c d : UInt16) : Option UInt16 := do
  let a ← hexValue a
  let b ← hexValue b
  let c ← hexValue c
  let d ← hexValue d
  return UInt16.ofNat (a * 4096 + b * 256 + c * 16 + d)

/-- Puts a unit in front of what is read behind it. -/
def followed (unit : UInt16) (read : Option (JsString × JsString)) :
    Option (JsString × JsString) :=
  read.map fun (s,rest) => (unit :: s,rest)

/-- A string up to its closing quote, and what is left. -/
def readUnits : JsString → Option (JsString × JsString)
  | [] => none
  | 34 :: rest => some ([],rest)
  | 92 :: 117 :: a :: b :: c :: d :: rest =>
    (readHex a b c d).bind fun unit => followed unit (readUnits rest)
  | 92 :: mark :: rest => (escaped mark).bind fun unit => followed unit (readUnits rest)
  | unit :: rest => if unit = 92 || unit < 32 then none else followed unit (readUnits rest)

/-- A word or a number. -/
def readScalar (s : JsString) : Option (Json × JsString) :=
  if (js "null").isPrefixOf s then some (.null,s.drop 4)
  else if (js "true").isPrefixOf s then some (.boolean true,s.drop 4)
  else if (js "false").isPrefixOf s then some (.boolean false,s.drop 5)
  else (readJsonNumber s).map fun (value,rest) => (.number value,rest)

mutual

/-- A value and what is left behind it; a value of any depth is read with twice as much fuel as
its text has units. -/
def readValue : Nat → JsString → Option (Json × JsString)
  | 0, _ => none
  | fuel+1, s =>
    match skipSpace s with
    | 34 :: rest => (readUnits rest).map fun (text,rest) => (.string text,rest)
    | 91 :: rest =>
      match skipSpace rest with
      | 93 :: rest => some (.array [],rest)
      | rest => (readItems fuel rest).map fun (items,rest) => (.array items,rest)
    | 123 :: rest =>
      match skipSpace rest with
      | 125 :: rest => some (.object [],rest)
      | rest => (readMembers fuel rest).map fun (members,rest) => (.object members,rest)
    | s => readScalar s

def readItems : Nat → JsString → Option (List Json × JsString)
  | 0, _ => none
  | fuel+1, s =>
    (readValue fuel s).bind fun (item,rest) =>
      match skipSpace rest with
      | 44 :: rest => (readItems fuel rest).map fun (items,rest) => (item :: items,rest)
      | 93 :: rest => some ([item],rest)
      | _ => none

def readMembers : Nat → JsString → Option (List (JsString × Json) × JsString)
  | 0, _ => none
  | fuel+1, s =>
    match skipSpace s with
    | 34 :: rest =>
      (readUnits rest).bind fun (name,rest) =>
        match skipSpace rest with
        | 58 :: rest =>
          (readValue fuel rest).bind fun (value,rest) =>
            match skipSpace rest with
            | 44 :: rest =>
              (readMembers fuel rest).map fun (members,rest) => ((name,value) :: members,rest)
            | 125 :: rest => some ([(name,value)],rest)
            | _ => none
        | _ => none
    | _ => none

end

/-- `JSON.parse`; none is the error it throws. -/
def parse (s : JsString) : Option Json :=
  (readValue (2 * s.length + 1) s).bind fun (value,rest) =>
    if (skipSpace rest).isEmpty then some value else none

/-- A property of a value that is an object: of members of one name the last counts. -/
def property (value : Json) (name : JsString) : Option Json :=
  match value with
  | .object members => (members.reverse.find? (·.1 = name)).map (·.2)
  | _ => none

end Reading

section Texts

theorem hexValue_digit {value : Nat} (small : value < 16) : hexValue (digit value) = some value := by
  revert value
  decide

theorem readHex_fixedDigits (unit : UInt16) :
    ∃ a b c d, fixedDigits 16 4 unit.toNat = [a,b,c,d] ∧ readHex a b c d = some unit := by
  have small : unit.toNat < 65536 := unit.toNat_lt
  refine ⟨_,_,_,_,by simp only [fixedDigits,List.nil_append,List.cons_append]; rfl,?_⟩
  unfold readHex
  rw [hexValue_digit (Nat.mod_lt _ (by decide)),hexValue_digit (Nat.mod_lt _ (by decide)),
    hexValue_digit (Nat.mod_lt _ (by decide)),hexValue_digit (Nat.mod_lt _ (by decide))]
  have value : unit.toNat / 16 / 16 / 16 % 16 * 4096 + unit.toNat / 16 / 16 % 16 * 256 +
      unit.toNat / 16 % 16 * 16 + unit.toNat % 16 = unit.toNat := by omega
  simp only [Option.bind_eq_bind,Option.bind_some,value,UInt16.ofNat_toNat]
  rfl

theorem readUnits_plain (notQuote : unit ≠ 34) (notEscape : unit ≠ 92) (printable : ¬unit < 32)
    (rest : JsString) : readUnits (unit :: rest) = followed unit (readUnits rest) := by
  rw [readUnits]
  · rw [if_neg (by simp [notEscape,printable])]
  · exact fun same => notQuote same
  · exact fun _ _ _ _ _ same => absurd same notEscape
  · exact fun _ _ same => absurd same notEscape

theorem readUnits_short (short : mark ≠ 117) (stands : escaped mark = some unit)
    (rest : JsString) : readUnits (92 :: mark :: rest) = followed unit (readUnits rest) := by
  rw [readUnits]
  · rw [stands,Option.bind_some]
  · exact fun _ _ _ _ _ same => absurd same short

theorem readUnits_unicode (unit : UInt16) (rest : JsString) :
    readUnits (unicodeEscape unit ++ rest) = followed unit (readUnits rest) := by
  obtain ⟨a,b,c,d,digits,read⟩ := readHex_fixedDigits unit
  rw [unicodeEscape,digits,List.cons_append,List.cons_append,List.cons_append,List.cons_append,
    List.cons_append,List.cons_append,List.nil_append,readUnits,read,Option.bind_some]

theorem escaped_pair {unit short : UInt16} (pair : (unit,short) ∈ escapePairs) :
    escaped short = some unit := by
  simp only [escapePairs,List.mem_cons,Prod.mk.injEq,List.not_mem_nil,or_false] at pair
  rcases pair with h | h | h | h | h | h | h <;> (obtain ⟨rfl,rfl⟩ := h; decide)

theorem readUnits_quoteUnit (unit : UInt16) (rest : JsString) :
    readUnits (quoteUnit unit ++ rest) = followed unit (readUnits rest) := by
  rcases quoteUnit_cases unit with ⟨short,pair,quoted⟩ | quoted | ⟨quoted,mark,slash,printable,-⟩ <;>
    rw [quoted]
  · exact readUnits_short (unescape_pair pair).1 (escaped_pair pair) rest
  · exact readUnits_unicode unit rest
  · exact readUnits_plain mark slash printable rest

/-- A quoted string reads back, whatever stands behind it. -/
theorem readUnits_quoteUnits (s rest : JsString) :
    readUnits (quoteUnits s ++ 34 :: rest) = some (s,rest) := by
  induction s using quoteUnits.induct with
  | case1 => simp [quoteUnits,readUnits]
  | case2 unit => simp [quoteUnits,readUnits_quoteUnit,readUnits,followed]
  | case3 unit next tail pair ih =>
    have units := pair
    rw [Bool.and_eq_true] at units
    have leading : unit ≠ 34 ∧ unit ≠ 92 ∧ ¬unit < 32 := by
      refine ⟨?_,?_,fun control => ?_⟩
      · rintro rfl
        exact absurd units.1 (by decide)
      · rintro rfl
        exact absurd units.1 (by decide)
      · have ascii : unit < 128 := UInt16.lt_trans control (by decide)
        exact absurd units.1 (by simp [isLeading_ascii ascii])
    have trailing : next ≠ 34 ∧ next ≠ 92 ∧ ¬next < 32 := by
      refine ⟨?_,?_,fun control => ?_⟩
      · rintro rfl
        exact absurd units.2 (by decide)
      · rintro rfl
        exact absurd units.2 (by decide)
      · have ascii : next < 128 := UInt16.lt_trans control (by decide)
        exact absurd units.2 (by simp [isLeading_ascii ascii])
    rw [quoteUnits,if_pos pair,List.cons_append,List.cons_append,
      readUnits_plain leading.1 leading.2.1 leading.2.2,
      readUnits_plain trailing.1 trailing.2.1 trailing.2.2,ih]
    rfl
  | case4 unit next tail apart ih =>
    rw [quoteUnits,if_neg apart,List.append_assoc,readUnits_quoteUnit,ih]
    rfl

end Texts

section Objects

/-- What may stand behind a member of an object. -/
def EndsMember : JsString → Prop
  | [] => False
  | unit :: _ => unit = 44 ∨ unit = 125

/-- A text that is read as a value wherever it stands in an object. -/
def Reads (text : JsString) (value : Json) : Prop :=
  ∀ fuel rest, EndsMember rest → readValue (fuel + 1) (text ++ rest) = some (value,rest)

theorem skipSpace_solid (solid : isSpace unit = false) (rest : JsString) :
    skipSpace (unit :: rest) = unit :: rest := by
  simp [skipSpace,solid]

theorem reads_quote (s : JsString) : Reads (quote s) (.string s) := by
  intro fuel rest _
  rw [quote,List.cons_append,List.append_assoc,List.singleton_append,readValue,
    skipSpace_solid (by decide)]
  simp only [readUnits_quoteUnits,Option.map_some]

theorem readValue_scalar (solid : isSpace unit = false) (notString : unit ≠ 34)
    (notArray : unit ≠ 91) (notObject : unit ≠ 123) (fuel : Nat) (rest : JsString) :
    readValue (fuel + 1) (unit :: rest) = readScalar (unit :: rest) := by
  rw [readValue,skipSpace_solid solid]
  split
  · exact absurd (List.cons.inj ‹_›).1 notString
  · exact absurd (List.cons.inj ‹_›).1 notArray
  · exact absurd (List.cons.inj ‹_›).1 notObject
  · rfl

theorem EndsMember.number {rest : JsString} (ends : EndsMember rest) : EndsNumber rest := by
  cases rest with
  | nil => trivial
  | cons unit rest =>
    rcases ends with rfl | rfl <;> exact ⟨by decide,by decide,by decide,by decide⟩

theorem reads_natDigits (n : Nat) : Reads (natDigits n) (.number (.ofRational n)) := by
  intro fuel rest ends
  have read := readJsonNumber_natDigits n ends.number
  obtain ⟨unit,digits,shown⟩ := List.exists_cons_of_ne_nil (natDigits_filled n)
  have range : 48 ≤ unit.toNat ∧ unit.toNat ≤ 57 := natDigits_digit (n := n) (by simp [shown])
  have differs (other : UInt16) (apart : ¬(48 ≤ other.toNat ∧ other.toNat ≤ 57)) :
      unit ≠ other := by
    rintro rfl
    exact apart range
  rw [shown,List.cons_append] at read ⊢
  rw [readValue_scalar (by
      simp [isSpace,differs 32 (by decide),differs 9 (by decide),differs 10 (by decide),
        differs 13 (by decide)])
    (differs 34 (by decide)) (differs 91 (by decide)) (differs 123 (by decide)),readScalar,
    if_neg (by simp [js,(differs 110 (by decide)).symm]),
    if_neg (by simp [js,(differs 116 (by decide)).symm]),
    if_neg (by simp [js,(differs 102 (by decide)).symm]),read,Option.map_some]

section Members
variable {field : JsString × JsString} {value : Json} (reads : Reads field.2 value)
  (fuel : Nat) (rest : JsString)
include reads

/-- One member is read up to what stands behind it. -/
theorem readMembers_member (ends : EndsMember rest) :
    readMembers (fuel + 2) (member field ++ rest) =
      match skipSpace rest with
      | 44 :: rest => (readMembers (fuel + 1) rest).map fun (members,rest) =>
          ((field.1,value) :: members,rest)
      | 125 :: rest => some ([(field.1,value)],rest)
      | _ => none := by
  have tokens : member field ++ rest = 34 :: (quoteUnits field.1 ++ 34 :: 58 :: (field.2 ++ rest)) := by
    simp [member,quote]
  rw [tokens,readMembers,skipSpace_solid (by decide)]
  simp only [readUnits_quoteUnits,Option.bind_some,skipSpace_solid (show isSpace 58 = false by decide),
    reads fuel rest ends]

theorem readMembers_next : readMembers (fuel + 2) (member field ++ 44 :: rest) =
    (readMembers (fuel + 1) rest).map fun (members,rest) => ((field.1,value) :: members,rest) := by
  rw [readMembers_member reads fuel (44 :: rest) (.inl rfl),skipSpace_solid (by decide)]
  rfl

theorem readMembers_last :
    readMembers (fuel + 2) (member field ++ 125 :: rest) = some ([(field.1,value)],rest) := by
  rw [readMembers_member reads fuel (125 :: rest) (.inr rfl),skipSpace_solid (by decide)]
  rfl

end Members

/-- The members of an object are read one after the other. -/
theorem readMembers_behind {fields : List (JsString × JsString)} {members : List (JsString × Json)}
    (reads : List.Forall₂ (fun field read => field.1 = read.1 ∧ Reads field.2 read.2) fields members)
    (field : JsString × JsString) (value : Json) (first : Reads field.2 value) (fuel : Nat)
    (enough : fields.length ≤ fuel) :
    readMembers (fuel + 2) (member field ++ behind fields) =
      some ((field.1,value) :: members,[]) := by
  induction reads generalizing field value fuel with
  | nil => exact readMembers_last first fuel []
  | @cons next read fields members head _ ih =>
    rw [List.length_cons] at enough
    obtain ⟨less,rfl⟩ : ∃ less, fuel = less + 1 := ⟨fuel - 1,by omega⟩
    have rest := ih next read.2 head.2 less (by omega)
    rw [behind,readMembers_next first,rest,Option.map_some,head.1]

theorem behind_length (fields : List (JsString × JsString)) :
    fields.length < (behind fields).length := by
  induction fields with
  | nil => exact Nat.zero_lt_one
  | cons field fields ih =>
    simp only [behind,List.length_cons,List.length_append]
    omega

/-- An object whose first member begins behind the brace. -/
theorem readValue_object (fuel : Nat) (text : JsString) :
    readValue (fuel + 1) (123 :: 34 :: text) =
      (readMembers fuel (34 :: text)).map fun (members,rest) => (.object members,rest) := by
  rw [readValue,skipSpace_solid (by decide)]
  simp only [skipSpace_solid (show isSpace 34 = false by decide)]
  split
  · exact absurd (List.cons.inj ‹_›).1 (by decide)
  · rfl

/-- `JSON.parse` reads the members of a flat object back. -/
theorem parse_objectText {fields : List (JsString × JsString)} {members : List (JsString × Json)}
    (reads : List.Forall₂ (fun field read => field.1 = read.1 ∧ Reads field.2 read.2) fields members)
    (filled : fields ≠ []) : parse (objectText fields) = some (.object members) := by
  cases reads with
  | nil => exact absurd rfl filled
  | @cons field read fields members head rest =>
    have longer := behind_length fields
    have quoted : member field ++ behind fields =
        34 :: (quoteUnits field.1 ++ 34 :: 58 :: (field.2 ++ behind fields)) := by
      simp [member,quote]
    obtain ⟨fuel,enough,units⟩ : ∃ fuel, fields.length ≤ fuel ∧
        2 * (objectText (field :: fields)).length + 1 = fuel + 3 := by
      refine ⟨2 * (member field ++ behind fields).length,?_,by
        rw [objectText_cons,List.length_cons]; omega⟩
      rw [List.length_append]
      omega
    have body := readMembers_behind rest field read.2 head.2 fuel enough
    rw [quoted] at body
    rw [parse,units,objectText_cons,quoted,readValue_object,body,head.1]
    rfl

end Objects

end Json
end EcmaScript
