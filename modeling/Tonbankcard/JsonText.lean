import Tonbankcard.Json
import Tonbankcard.NumberText

/-! `JSON.stringify` of the values that `JSON.parse` returns, which reads their texts back. -/
namespace EcmaScript

namespace Json

section Printing

/-- Infinite numbers are printed as null. -/
def numberText (value : Number) : JsString :=
  match value with
  | .finite _ => value.text
  | _ => js "null"

mutual

/-- `JSON.stringify`. -/
def stringify : Json → JsString
  | .null => js "null"
  | .boolean value => if value then js "true" else js "false"
  | .number value => numberText value
  | .string text => quote text
  | .array items => 91 :: ([44].intercalate (stringifyItems items) ++ [93])
  | .object members => objectText (stringifyMembers members)

def stringifyItems : List Json → List JsString
  | [] => []
  | item :: rest => stringify item :: stringifyItems rest

def stringifyMembers : List (JsString × Json) → List (JsString × JsString)
  | [] => []
  | (name,value) :: rest => (name,stringify value) :: stringifyMembers rest

end

theorem stringifyItems_map (items : List Json) : stringifyItems items = items.map stringify := by
  induction items with
  | nil => rfl
  | cons item rest ih => rw [stringifyItems,ih,List.map_cons]

theorem stringifyMembers_map (members : List (JsString × Json)) :
    stringifyMembers members = members.map fun member => (member.1,stringify member.2) := by
  induction members with
  | nil => rfl
  | cons member rest ih => rw [stringifyMembers,ih,List.map_cons]

theorem stringify_array (items : List Json) : stringify (.array items) =
    91 :: ([44].intercalate (items.map stringify) ++ [93]) := by
  rw [stringify,stringifyItems_map]

theorem stringify_object (members : List (JsString × Json)) : stringify (.object members) =
    123 :: ([44].intercalate
      (members.map fun other => member (other.1,stringify other.2)) ++ [125]) := by
  rw [stringify,stringifyMembers_map,objectText,List.map_map]
  rfl

@[elab_as_elim]
theorem tree {motive : Json → Prop} (null : motive .null)
    (boolean : ∀ value, motive (.boolean value)) (number : ∀ value, motive (.number value))
    (string : ∀ text, motive (.string text))
    (array : ∀ items, (∀ item ∈ items, motive item) → motive (.array items))
    (object : ∀ members, (∀ member ∈ members, motive member.2) → motive (.object members))
    (value : Json) : motive value := by
  refine @Json.rec motive (fun items => ∀ item ∈ items, motive item)
    (fun members => ∀ member ∈ members, motive member.2) (fun member => motive member.2) null
    boolean number string array object ?_ ?_ ?_ ?_ ?_ value
  · exact List.forall_mem_nil _
  · exact fun item items first rest => List.forall_mem_cons.mpr ⟨first,rest⟩
  · exact List.forall_mem_nil _
  · exact fun member members first rest => List.forall_mem_cons.mpr ⟨first,rest⟩
  · exact fun _ value holds => holds

/-- Every number in the value satisfies a property. -/
inductive Numbers (holds : Number → Prop) : Json → Prop
  | null : Numbers holds .null
  | boolean (value : Bool) : Numbers holds (.boolean value)
  | number {value : Number} (held : holds value) : Numbers holds (.number value)
  | string (text : JsString) : Numbers holds (.string text)
  | array {items : List Json} (each : ∀ item ∈ items, Numbers holds item) :
      Numbers holds (.array items)
  | object {members : List (JsString × Json)} (each : ∀ member ∈ members, Numbers holds member.2) :
      Numbers holds (.object members)

/-- A finite number that a double can be. -/
def IsFinite : Number → Prop
  | .finite q => Number.IsDouble q
  | _ => False

end Printing

section Reading

/-- With the fuel that its text asks for, a value is read up to what stands behind it. -/
def ReadsBack (text : JsString) (value : Json) : Prop :=
  ∀ fuel rest, 2 * text.length ≤ fuel → EndsNumber rest →
    readValue fuel (text ++ rest) = some (value,rest)

/-- The first unit of a text of a value. -/
def Opens (text : JsString) : Prop :=
  ∃ unit more, text = unit :: more ∧ isSpace unit = false ∧ unit ≠ 93

/-- What stands behind the first of several parts. -/
def following (closing : UInt16) : List JsString → JsString
  | [] => [closing]
  | part :: rest => 44 :: (part ++ following closing rest)

theorem intercalate_following (closing : UInt16) (part : JsString) (rest : List JsString) :
    [44].intercalate (part :: rest) ++ [closing] = part ++ following closing rest := by
  induction rest generalizing part with
  | nil => simp [List.intercalate,following]
  | cons next rest ih =>
    rw [List.intercalate_cons_cons,List.append_assoc,ih,following]
    simp

theorem following_ends {closing : UInt16} (closes : closing = 93 ∨ closing = 125)
    (parts : List JsString) (rest : JsString) : EndsNumber (following closing parts ++ rest) := by
  cases parts with
  | nil => rcases closes with rfl | rfl <;> exact ⟨by decide,by decide,by decide,by decide⟩
  | cons part parts => exact ⟨by decide,by decide,by decide,by decide⟩

/-- A word is read where its first letter is not one of another word. -/
theorem readsBack_scalar {unit : UInt16} {more : JsString} {value : Json}
    (solid : isSpace unit = false) (notString : unit ≠ 34) (notArray : unit ≠ 91)
    (notObject : unit ≠ 123) (reads : ∀ rest, EndsNumber rest →
      readScalar (unit :: more ++ rest) = some (value,rest)) : ReadsBack (unit :: more) value := by
  intro fuel rest enough ends
  obtain ⟨less,rfl⟩ : ∃ less, fuel = less + 1 := ⟨fuel - 1,by rw [List.length_cons] at enough; omega⟩
  rw [List.cons_append,readValue_scalar solid notString notArray notObject]
  exact reads rest ends

theorem readsBack_quote (s : JsString) : ReadsBack (quote s) (.string s) := by
  intro fuel rest enough _
  obtain ⟨less,rfl⟩ : ∃ less, fuel = less + 1 := by
    rw [quote,List.length_cons] at enough
    exact ⟨fuel - 1,by omega⟩
  rw [quote,List.cons_append,List.append_assoc,List.singleton_append,readValue,
    skipSpace_solid (by decide)]
  simp only [readUnits_quoteUnits,Option.map_some]

/-- A text that is read as a number begins with a sign or a digit. -/
theorem readJsonNumber_head {s : JsString} {read : Number × JsString}
    (reads : readJsonNumber s = some read) :
    ∃ unit more, s = unit :: more ∧ (unit = 45 ∨ isDigit unit = true) := by
  cases s with
  | nil => cases reads
  | cons unit more =>
    refine ⟨unit,more,rfl,?_⟩
    by_contra neither
    rw [not_or,Bool.not_eq_true] at neither
    have sign : splitSign false (unit :: more) = (false,unit :: more) := by
      simp [splitSign,neither.1]
    simp [readJsonNumber,sign,neither.2] at reads

theorem readsBack_number {q : ℚ} (double : Number.IsDouble q) :
    ReadsBack (Number.text (.finite q)) (.number (.finite q)) ∧ Opens (Number.text (.finite q)) := by
  have whole := Number.readJsonNumber_text double (show EndsNumber [] from trivial)
  obtain ⟨unit,more,shown,first⟩ := readJsonNumber_head whole
  rw [List.append_nil] at shown
  have differs (other : UInt16) (minus : other ≠ 45) (digit : isDigit other = false) :
      unit ≠ other := by
    rintro rfl
    rcases first with rfl | isDigit
    · exact minus rfl
    · rw [digit] at isDigit
      cases isDigit
  have solid : isSpace unit = false := by
    simp [isSpace,differs 32 (by decide) (by decide),differs 9 (by decide) (by decide),
      differs 10 (by decide) (by decide),differs 13 (by decide) (by decide)]
  refine ⟨?_,unit,more,shown,solid,differs 93 (by decide) (by decide)⟩
  rw [shown]
  refine readsBack_scalar solid (differs 34 (by decide) (by decide))
    (differs 91 (by decide) (by decide)) (differs 123 (by decide) (by decide)) fun rest ends => ?_
  have read := Number.readJsonNumber_text double ends
  rw [shown,List.cons_append] at read
  rw [List.cons_append,readScalar,
    if_neg (by simp [js,(differs 110 (by decide) (by decide)).symm]),
    if_neg (by simp [js,(differs 116 (by decide) (by decide)).symm]),
    if_neg (by simp [js,(differs 102 (by decide) (by decide)).symm]),read,Option.map_some]

section Lists
variable (left : JsString)

/-- The items of a list are read one after the other. -/
theorem readItems_following {item : Json} {items : List Json}
    (each : ∀ other ∈ item :: items, ReadsBack (stringify other) other) (fuel : Nat)
    (enough : 2 * (stringify item ++ following 93 (items.map stringify)).length ≤ fuel) :
    readItems fuel (stringify item ++ following 93 (items.map stringify) ++ left) =
      some (item :: items,left) := by
  induction items generalizing item fuel with
  | nil =>
    rw [List.map_nil,following,List.length_append,List.length_singleton] at enough
    obtain ⟨less,rfl⟩ : ∃ less, fuel = less + 1 := ⟨fuel - 1,by omega⟩
    have read := each item List.mem_cons_self less (93 :: left) (by omega)
      (following_ends (.inl rfl) [] left)
    rw [List.map_nil,following,List.append_assoc,List.singleton_append,readItems,read,
      Option.bind_some]
    simp only [skipSpace_solid (show isSpace 93 = false by decide)]
  | cons next items ih =>
    rw [List.map_cons,following,List.length_append,List.length_cons] at enough
    obtain ⟨less,rfl⟩ : ∃ less, fuel = less + 1 := ⟨fuel - 1,by omega⟩
    have read := each item List.mem_cons_self less
      (44 :: (stringify next ++ following 93 (items.map stringify) ++ left)) (by omega)
      (following_ends (.inl rfl) (stringify next :: items.map stringify) left)
    have others := ih (fun other member => each other (List.mem_cons_of_mem _ member)) less
      (by omega)
    rw [List.map_cons,following,List.append_assoc,List.cons_append,readItems,read,
      Option.bind_some]
    simp only [skipSpace_solid (show isSpace 44 = false by decide),others,Option.map_some]

variable {left}

theorem member_append (name text left : JsString) :
    member (name,text) ++ left = 34 :: (quoteUnits name ++ 34 :: 58 :: (text ++ left)) := by
  simp [member,quote]

section Member
variable {name text : JsString} {value : Json} {fuel : Nat}

theorem readMembers_closed (read : readValue fuel (text ++ 125 :: left) = some (value,125 :: left)) :
    readMembers (fuel + 1) (member (name,text) ++ 125 :: left) = some ([(name,value)],left) := by
  rw [member_append,readMembers,skipSpace_solid (by decide)]
  simp only [readUnits_quoteUnits,Option.bind_some,read,
    skipSpace_solid (show isSpace 58 = false by decide),
    skipSpace_solid (show isSpace 125 = false by decide)]

/-- Behind a comma the other members are read. -/
theorem readMembers_more (read : readValue fuel (text ++ 44 :: left) = some (value,44 :: left))
    (others : readMembers fuel left = some (members,rest)) :
    readMembers (fuel + 1) (member (name,text) ++ 44 :: left) =
      some ((name,value) :: members,rest) := by
  rw [member_append,readMembers,skipSpace_solid (by decide)]
  simp only [readUnits_quoteUnits,Option.bind_some,read,
    skipSpace_solid (show isSpace 58 = false by decide),
    skipSpace_solid (show isSpace 44 = false by decide),others,Option.map_some]

end Member

theorem member_length (name text : JsString) : text.length + 3 ≤ (member (name,text)).length := by
  simp only [member,quote,List.length_append,List.length_cons]
  omega

variable (left)

/-- So are the members of an object. -/
theorem readMembers_following {first : JsString × Json} {members : List (JsString × Json)}
    (each : ∀ other ∈ first :: members, ReadsBack (stringify other.2) other.2) (fuel : Nat)
    (enough : 2 * (member (first.1,stringify first.2) ++ following 125
      (members.map fun other => member (other.1,stringify other.2))).length ≤ fuel) :
    readMembers fuel (member (first.1,stringify first.2) ++ following 125
      (members.map fun other => member (other.1,stringify other.2)) ++ left) =
        some (first :: members,left) := by
  have long := member_length first.1 (stringify first.2)
  induction members generalizing first fuel with
  | nil =>
    rw [List.map_nil,following,List.length_append,List.length_singleton] at enough
    obtain ⟨less,rfl⟩ : ∃ less, fuel = less + 1 := ⟨fuel - 1,by omega⟩
    have read := each first List.mem_cons_self less (125 :: left) (by omega)
      (following_ends (.inr rfl) [] left)
    rw [List.map_nil,following,List.append_assoc,List.singleton_append]
    exact readMembers_closed read
  | cons next members ih =>
    rw [List.map_cons,following,List.length_append,List.length_cons] at enough
    obtain ⟨less,rfl⟩ : ∃ less, fuel = less + 1 := ⟨fuel - 1,by omega⟩
    rw [List.map_cons,following,List.append_assoc,List.cons_append]
    have read := each first List.mem_cons_self less _ (by omega) (following_ends (.inr rfl)
      (member (next.1,stringify next.2) ::
        members.map fun other => member (other.1,stringify other.2)) left)
    have others := ih (fun other member => each other (List.mem_cons_of_mem _ member)) less
      (by omega) (member_length next.1 (stringify next.2))
    rw [following,List.cons_append] at read
    exact readMembers_more read others

end Lists

theorem opens_quote (s : JsString) : Opens (quote s) := ⟨34,_,rfl,by decide,by decide⟩

theorem Opens.append {text : JsString} (opens : Opens text) (rest : JsString) :
    Opens (text ++ rest) := by
  obtain ⟨unit,more,rfl,solid,apart⟩ := opens
  exact ⟨unit,more ++ rest,rfl,solid,apart⟩

theorem readValue_array {text : JsString} (opens : Opens text) (fuel : Nat) :
    readValue (fuel + 1) (91 :: text) =
      (readItems fuel text).map fun (items,rest) => (.array items,rest) := by
  obtain ⟨unit,more,rfl,solid,apart⟩ := opens
  rw [readValue,skipSpace_solid (by decide)]
  simp only [skipSpace_solid solid]
  split
  · exact absurd (List.cons.inj ‹_›).1 apart
  · rfl

/-- Every text begins a value and is read back as one whose numbers are doubles. -/
theorem readsBack_stringify {value : Json} (finite : Numbers IsFinite value) :
    Opens (stringify value) ∧ ReadsBack (stringify value) value := by
  induction value using tree with
  | null =>
    refine ⟨⟨110,_,rfl,by decide,by decide⟩,?_⟩
    change ReadsBack (110 :: js "ull") .null
    exact readsBack_scalar (by decide) (by decide) (by decide) (by decide) fun rest _ => rfl
  | boolean value =>
    cases value with
    | false =>
      refine ⟨⟨102,_,rfl,by decide,by decide⟩,?_⟩
      change ReadsBack (102 :: js "alse") (.boolean false)
      exact readsBack_scalar (by decide) (by decide) (by decide) (by decide) fun rest _ => rfl
    | true =>
      refine ⟨⟨116,_,rfl,by decide,by decide⟩,?_⟩
      change ReadsBack (116 :: js "rue") (.boolean true)
      exact readsBack_scalar (by decide) (by decide) (by decide) (by decide) fun rest _ => rfl
  | number value =>
    cases finite with
    | number held =>
      cases value with
      | finite q => exact (readsBack_number held).symm
      | nan => exact held.elim
      | infinite negative => exact held.elim
  | string text => exact ⟨opens_quote text,readsBack_quote text⟩
  | array items ih =>
    cases finite with
    | array each =>
      refine ⟨⟨91,_,rfl,by decide,by decide⟩,fun fuel rest enough _ => ?_⟩
      rw [stringify_array] at enough ⊢
      rw [List.length_cons] at enough
      obtain ⟨less,rfl⟩ : ∃ less, fuel = less + 1 := ⟨fuel - 1,by omega⟩
      cases items with
      | nil =>
        rw [List.map_nil,List.intercalate_nil,List.nil_append,List.cons_append,List.singleton_append,
          readValue,skipSpace_solid (by decide)]
        simp only [skipSpace_solid (show isSpace 93 = false by decide)]
      | cons item items =>
        rw [List.map_cons,intercalate_following] at enough ⊢
        have backs := fun other member => (ih other member (each other member)).2
        have opens := ((ih item List.mem_cons_self (each item List.mem_cons_self)).1.append
          (following 93 (items.map stringify))).append rest
        have read := readItems_following rest backs less (by omega)
        rw [List.cons_append,readValue_array opens,read,Option.map_some]
  | object members ih =>
    cases finite with
    | object each =>
      refine ⟨⟨123,_,rfl,by decide,by decide⟩,fun fuel rest enough _ => ?_⟩
      rw [stringify_object] at enough ⊢
      rw [List.length_cons] at enough
      obtain ⟨less,rfl⟩ : ∃ less, fuel = less + 1 := ⟨fuel - 1,by omega⟩
      cases members with
      | nil =>
        rw [List.map_nil,List.intercalate_nil,List.nil_append,List.cons_append,List.singleton_append,
          readValue,skipSpace_solid (by decide)]
        simp only [skipSpace_solid (show isSpace 125 = false by decide)]
      | cons first members =>
        rw [List.map_cons,intercalate_following] at enough ⊢
        have backs := fun other member => (ih other member (each other member)).2
        have read := readMembers_following rest backs less (by omega)
        obtain ⟨text,quoted⟩ : ∃ text, member (first.1,stringify first.2) ++ following 125
            (members.map fun other => member (other.1,stringify other.2)) ++ rest = 34 :: text :=
          ⟨_,rfl⟩
        rw [List.cons_append,quoted,readValue_object,← quoted,read,Option.map_some]

/-- `JSON.parse` undoes `JSON.stringify` on finite numbers. -/
theorem parse_stringify {value : Json} (finite : Numbers IsFinite value) :
    parse (stringify value) = some value := by
  have read := (readsBack_stringify finite).2 (2 * (stringify value).length + 1) [] (by omega) trivial
  rw [List.append_nil] at read
  rw [parse,read]
  rfl

end Reading

end Json

end EcmaScript
