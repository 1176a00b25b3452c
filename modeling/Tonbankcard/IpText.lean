import Mathlib.Data.List.SplitBy
import Tonbankcard.JsNumbers

/-! Texts of IP addresses: dotted quads, and groups of hexadecimal digits with a compression, an
embedded quad and a zone. A text is read in one way at most, and a reader finds that way. -/
namespace IpText

open EcmaScript

section Syntax

/-- A dotted quad; its numbers are written without leading zeros. -/
structure IPv4 where
  a : Fin 256
  b : Fin 256
  c : Fin 256
  d : Fin 256
  deriving DecidableEq

namespace IPv4

def octets (quad : IPv4) : List JsString :=
  [natDigits quad.a,natDigits quad.b,natDigits quad.c,natDigits quad.d]

def text (quad : IPv4) : JsString := [46].intercalate quad.octets

def value (quad : IPv4) : Nat := ((quad.a * 256 + quad.b) * 256 + quad.c) * 256 + quad.d

end IPv4

/-- One to four hexadecimal digits, in either case. -/
structure Group where
  text : JsString
  digits : ∀ unit ∈ text, (hexValue unit).isSome = true
  filled : text ≠ []
  short : text.length ≤ 4

instance : DecidableEq Group := fun group other =>
  decidable_of_iff (group.text = other.text)
    ⟨fun same => by cases group; cases other; cases same; rfl,congrArg Group.text⟩

/-- The value of hexadecimal digits. -/
def hexNumber (units : JsString) : Nat :=
  units.foldl (fun value unit => value * 16 + (hexValue unit).getD 0) 0

def Group.value (group : Group) : Nat := hexNumber group.text

def isZoneUnit (unit : UInt16) : Bool :=
  (48 ≤ unit && unit ≤ 57) || (97 ≤ unit && unit ≤ 122) || (65 ≤ unit && unit ≤ 90) ||
    unit = 45 || unit = 46 || unit = 58

structure Zone where
  text : JsString
  filled : text ≠ []
  plain : ∀ unit ∈ text, isZoneUnit unit = true

instance : DecidableEq Zone := fun zone other =>
  decidable_of_iff (zone.text = other.text)
    ⟨fun same => by cases zone; cases other; cases same; rfl,congrArg Zone.text⟩

/-- How many groups an embedded quad stands for. -/
def width (quad : Option IPv4) : Nat := if quad.isSome then 2 else 0

/-- The groups before and behind a compression, if there is one, with a quad as the last two. -/
structure IPv6 where
  left : List Group
  right : Option (List Group)
  quad : Option IPv4
  zone : Option Zone
  fits : match right with
    | none => left.length + width quad = 8
    | some right => left.length + right.length + width quad ≤ 7
  deriving DecidableEq

/-- The fields between colons of groups with a quad behind them. -/
def fields (groups : List Group) (quad : Option IPv4) : List JsString :=
  groups.map (·.text) ++ (quad.map (·.text)).toList

namespace IPv6

/-- The text before the zone. -/
def head (address : IPv6) : JsString :=
  match address.right with
  | none => [58].intercalate (fields address.left address.quad)
  | some right => [58].intercalate (fields address.left none) ++
      58 :: 58 :: [58].intercalate (fields right address.quad)

def text (address : IPv6) : JsString :=
  address.head ++ (address.zone.map (37 :: ·.text)).getD []

/-- The eight groups that are denoted, as numbers. -/
def groups (address : IPv6) : List Nat :=
  let quad := match address.quad with
    | none => []
    | some quad => [quad.value / 2^16,quad.value % 2^16]
  let behind := (address.right.getD []).map (·.value) ++ quad
  address.left.map (·.value) ++
    List.replicate (8 - (address.left.length + behind.length)) 0 ++ behind

def value (address : IPv6) : Nat :=
  address.groups.foldl (fun value group => value * 2^16 + group) 0

end IPv6

end Syntax

section Splitting

/-- Splits at `::`, from the left. -/
def splitDoubleColon : JsString → List JsString
  | [] => [[]]
  | [unit] => [[unit]]
  | unit :: next :: rest =>
    if unit = 58 ∧ next = 58 then [] :: splitDoubleColon rest
    else (splitDoubleColon (next :: rest)).modifyHead (unit :: ·)

/-- No two colons side by side. -/
def Apart (units : JsString) : Prop := units.IsChain fun unit next => ¬(unit = 58 ∧ next = 58)

theorem splitDoubleColon_apart {units : JsString} (apart : Apart units) :
    splitDoubleColon units = [units] := by
  induction units using splitDoubleColon.induct with
  | case1 => rfl
  | case2 unit => rfl
  | case3 unit next rest pair ih => exact absurd pair (List.isChain_cons_cons.mp apart).1
  | case4 unit next rest pair ih =>
    rw [splitDoubleColon,if_neg pair,ih (List.isChain_cons_cons.mp apart).2,List.modifyHead_cons]

theorem splitDoubleColon_append {units : JsString} (apart : Apart (units ++ [58]))
    (rest : JsString) :
    splitDoubleColon (units ++ 58 :: 58 :: rest) = units :: splitDoubleColon rest := by
  induction units with
  | nil => rw [List.nil_append,splitDoubleColon,if_pos ⟨rfl,rfl⟩]
  | cons unit units ih =>
    cases units with
    | nil =>
      have first : unit ≠ 58 := fun same => (List.isChain_cons_cons.mp apart).1 ⟨same,rfl⟩
      rw [List.cons_append,List.nil_append,splitDoubleColon,if_neg (fun pair => first pair.1)]
      rw [show (58 :: 58 :: rest : JsString) = [] ++ 58 :: 58 :: rest from rfl,ih (by simp [Apart])]
      rfl
    | cons next units =>
      obtain ⟨pair,later⟩ := List.isChain_cons_cons.mp apart
      rw [List.cons_append,List.cons_append,splitDoubleColon,if_neg pair,
        ← List.cons_append,ih later]
      rfl

/-- Fields that may stand between colons. -/
def Fields (texts : List JsString) : Prop := ∀ text ∈ texts, text ≠ [] ∧ 58 ∉ text

theorem apart_field {field : JsString} (plain : 58 ∉ field) : Apart field := by
  induction field with
  | nil => exact .nil
  | cons unit rest ih =>
    simp only [List.mem_cons,not_or] at plain
    refine List.isChain_cons.mpr ⟨fun next _ pair => plain.1 pair.1.symm,ih plain.2⟩

theorem Fields.tail {text : JsString} {texts : List JsString} (sound : Fields (text :: texts)) :
    Fields texts := fun other member => sound other (List.mem_cons_of_mem _ member)

theorem apart_join {texts : List JsString} (sound : Fields texts) :
    Apart ([58].intercalate texts ++ [58]) := by
  induction texts with
  | nil => simp [Apart]
  | cons text texts ih =>
    obtain ⟨filled,plain⟩ := sound text List.mem_cons_self
    have last : ∀ unit ∈ text.getLast?, unit ≠ 58 := fun unit member same =>
      plain (same ▸ List.mem_of_getLast? member)
    have ended : Apart (text ++ [58]) := by
      refine List.isChain_append.mpr ⟨apart_field plain,List.isChain_singleton _,?_⟩
      exact fun unit member next _ pair => last unit member pair.1
    cases texts with
    | nil => simpa using ended
    | cons next texts =>
      rw [List.intercalate_cons_cons,List.append_assoc]
      refine List.isChain_append.mpr ⟨ended,ih sound.tail,?_⟩
      have first := sound next (by simp)
      intro unit _ other member pair
      obtain ⟨unit,rest,rfl⟩ := List.exists_cons_of_ne_nil first.1
      cases texts <;> simp_all

theorem splitDoubleColon_filled (units : JsString) : splitDoubleColon units ≠ [] := by
  induction units using splitDoubleColon.induct with
  | case1 => simp [splitDoubleColon]
  | case2 unit => simp [splitDoubleColon]
  | case3 unit next rest pair ih => simp [splitDoubleColon,pair]
  | case4 unit next rest pair ih => simpa [splitDoubleColon,pair] using ih

theorem join_splitDoubleColon (units : JsString) :
    [58,58].intercalate (splitDoubleColon units) = units := by
  induction units using splitDoubleColon.induct with
  | case1 => rfl
  | case2 unit => rfl
  | case3 unit next rest pair ih =>
    obtain ⟨rfl,rfl⟩ := pair
    rw [splitDoubleColon,if_pos ⟨rfl,rfl⟩,
      List.intercalate_cons_of_ne_nil (splitDoubleColon_filled rest),ih]
    rfl
  | case4 unit next rest pair ih =>
    rw [splitDoubleColon,if_neg pair]
    obtain ⟨first,others,split⟩ :=
      List.exists_cons_of_ne_nil (splitDoubleColon_filled (next :: rest))
    rw [split,List.modifyHead_cons,List.intercalate_cons_cons_left,← split,ih]

/-- The fields between colons; no fields for the empty text. -/
def splitGroups (units : JsString) : List JsString :=
  if units.isEmpty then [] else units.splitOn 58

theorem join_splitGroups (units : JsString) : [58].intercalate (splitGroups units) = units := by
  unfold splitGroups
  split
  · simp_all
  · exact List.intercalate_splitOn 58

theorem splitGroups_join {texts : List JsString} (sound : Fields texts) :
    splitGroups ([58].intercalate texts) = texts := by
  cases texts with
  | nil => rfl
  | cons text texts =>
    obtain ⟨unit,rest,rfl⟩ := List.exists_cons_of_ne_nil (sound text List.mem_cons_self).1
    rw [splitGroups,List.intercalate_cons_cons_left,if_neg (by simp),
      ← List.intercalate_cons_cons_left]
    exact List.splitOn_intercalate 58 (fun field member => (sound field member).2) (by simp)

end Splitting

section Reading

def readOctet (text : JsString) : Option (Fin 256) :=
  let value := fixedValue 10 text
  if small : value < 256 then if natDigits value = text then some ⟨value,small⟩ else none else none

def readIPv4 (text : JsString) : Option IPv4 :=
  match text.splitOn 46 with
  | [a,b,c,d] => do return ⟨← readOctet a,← readOctet b,← readOctet c,← readOctet d⟩
  | _ => none

def readGroup (text : JsString) : Option Group :=
  if digits : text.all fun unit => (hexValue unit).isSome then
    if size : text ≠ [] ∧ text.length ≤ 4 then
      some ⟨text,List.all_eq_true.mp digits,size.1,size.2⟩ else none
  else none

/-- Groups, where the last field may be a quad. -/
def readFields : List JsString → Option (List Group × Option IPv4)
  | [] => some ([],none)
  | [last] => match readIPv4 last with
    | some quad => some ([],some quad)
    | none => (readGroup last).map fun group => ([group],none)
  | field :: rest => do
    let group ← readGroup field
    let (groups,quad) ← readFields rest
    return (group :: groups,quad)

/-- What stands behind the groups: nothing or a zone. -/
def readZone : JsString → Option (Option Zone)
  | [] => some none
  | unit :: text =>
    if plain : text.all isZoneUnit then
      if filled : unit = 37 ∧ text ≠ [] then
        some (some ⟨text,filled.2,List.all_eq_true.mp plain⟩) else none
    else none

def readIPv6 (text : JsString) : Option IPv6 := do
  let zone ← readZone (text.dropWhile (· ≠ 37))
  match splitDoubleColon (text.takeWhile (· ≠ 37)) with
  | [whole] =>
    let (groups,quad) ← readFields (splitGroups whole)
    if fits : groups.length + width quad = 8 then some ⟨groups,none,quad,zone,fits⟩ else none
  | [before,behind] =>
    let (left,none) ← readFields (splitGroups before) | none
    let (right,quad) ← readFields (splitGroups behind)
    if fits : left.length + right.length + width quad ≤ 7 then
      some ⟨left,some right,quad,zone,fits⟩ else none
  | _ => none

/-- The family of an address text, or 0. -/
def isIP (text : JsString) : Nat :=
  if (readIPv4 text).isSome then 4 else if (readIPv6 text).isSome then 6 else 0

end Reading

section RoundTrips

theorem readOctet_iff {text : JsString} {octet : Fin 256} :
    readOctet text = some octet ↔ natDigits octet = text := by
  unfold readOctet
  constructor
  · intro read
    simp only [Option.dite_none_right_eq_some,Option.ite_none_right_eq_some,Option.some.injEq]
      at read
    obtain ⟨small,same,rfl⟩ := read
    exact same
  · rintro rfl
    simp [fixedValue_natDigits]

theorem octet_plain (octet : Fin 256) {unit : UInt16} (other : isDigit unit = false) :
    unit ∉ natDigits octet := fun member => by simp [isDigit_natDigits member] at other

theorem IPv4.splitOn_text (quad : IPv4) : quad.text.splitOn 46 = quad.octets := by
  refine List.splitOn_intercalate 46 (fun octet member => ?_) (by simp [IPv4.octets])
  simp only [IPv4.octets,List.mem_cons,List.not_mem_nil,or_false] at member
  rcases member with rfl | rfl | rfl | rfl <;> exact octet_plain _ (by decide)

theorem readIPv4_text (quad : IPv4) : readIPv4 quad.text = some quad := by
  have octet (o : Fin 256) : readOctet (natDigits o) = some o := readOctet_iff.mpr rfl
  simp [readIPv4,quad.splitOn_text,IPv4.octets,octet]

theorem readIPv4_iff {text : JsString} {quad : IPv4} :
    readIPv4 text = some quad ↔ quad.text = text := by
  refine ⟨fun read => ?_,fun same => same ▸ readIPv4_text quad⟩
  unfold readIPv4 at read
  split at read
  · rename_i a b c d split
    simp only [Option.bind_eq_bind,Option.bind_eq_some_iff,Option.pure_def,Option.some.injEq] at read
    obtain ⟨p,first,q,second,r,third,s,fourth,rfl⟩ := read
    rw [readOctet_iff] at first second third fourth
    rw [IPv4.text,IPv4.octets,first,second,third,fourth,← split]
    exact List.intercalate_splitOn 46
  · simp at read

theorem readGroup_iff {text : JsString} {group : Group} :
    readGroup text = some group ↔ group.text = text := by
  unfold readGroup
  constructor
  · intro read
    simp only [Option.dite_none_right_eq_some,Option.some.injEq] at read
    obtain ⟨digits,size,rfl⟩ := read
    rfl
  · rintro rfl
    rw [dif_pos (List.all_eq_true.mpr group.digits),dif_pos ⟨group.filled,group.short⟩]

/-- A group has no point, so it is no quad. -/
theorem Group.plain (group : Group) {unit : UInt16} (other : (hexValue unit).isSome = false) :
    unit ∉ group.text := fun member => by simp [group.digits unit member] at other

theorem IPv4.text_point (quad : IPv4) : 46 ∈ quad.text := by
  simp [text,octets]

theorem readIPv4_group (group : Group) : readIPv4 group.text = none := by
  rw [Option.eq_none_iff_forall_ne_some]
  intro quad read
  have same := readIPv4_iff.mp read
  exact group.plain (by decide) (same ▸ quad.text_point)

theorem readFields_fields (groups : List Group) (quad : Option IPv4) :
    readFields (fields groups quad) = some (groups,quad) := by
  have group (g : Group) : readGroup g.text = some g := readGroup_iff.mpr rfl
  induction groups with
  | nil =>
    cases quad with
    | none => rfl
    | some quad => simp [fields,readFields,readIPv4_text]
  | cons first groups ih =>
    cases more : fields groups quad with
    | nil =>
      simp only [more,readFields,Option.some.injEq,Prod.mk.injEq] at ih
      obtain ⟨rfl,rfl⟩ := ih
      simp [fields,readFields,readIPv4_group,group]
    | cons next others =>
      have shape : fields (first :: groups) quad = first.text :: next :: others := by
        rw [← more]
        rfl
      rw [shape,readFields,group,← more,ih]
      · rfl
      · simp

theorem readFields_sound {texts : List JsString} {groups : List Group} {quad : Option IPv4}
    (read : readFields texts = some (groups,quad)) : texts = fields groups quad := by
  induction texts using readFields.induct generalizing groups with
  | case1 =>
    simp only [readFields,Option.some.injEq,Prod.mk.injEq] at read
    obtain ⟨rfl,rfl⟩ := read
    rfl
  | case2 last found quoted =>
    simp only [readFields,quoted,Option.some.injEq,Prod.mk.injEq] at read
    obtain ⟨rfl,rfl⟩ := read
    simp [fields,readIPv4_iff.mp quoted]
  | case3 last absent =>
    simp only [readFields,absent,Option.map_eq_some_iff,Prod.mk.injEq] at read
    obtain ⟨group,found,rfl,rfl⟩ := read
    simp [fields,readGroup_iff.mp found]
  | case4 field rest more ih =>
    simp only [readFields,Option.bind_eq_bind,Option.bind_eq_some_iff,Option.pure_def,
      Option.some.injEq,Prod.mk.injEq] at read
    obtain ⟨group,found,⟨others,quad⟩,later,rfl,rfl⟩ := read
    rw [ih later,← readGroup_iff.mp found]
    rfl

theorem readZone_text (zone : Option Zone) :
    readZone ((zone.map (37 :: ·.text)).getD []) = some zone := by
  cases zone with
  | none => rfl
  | some zone =>
    change readZone (37 :: zone.text) = some (some zone)
    rw [readZone,dif_pos (List.all_eq_true.mpr zone.plain),dif_pos ⟨rfl,zone.filled⟩]

theorem readZone_sound {text : JsString} {zone : Option Zone} (read : readZone text = some zone) :
    text = (zone.map (37 :: ·.text)).getD [] := by
  cases text with
  | nil =>
    obtain rfl := Option.some.inj read
    rfl
  | cons unit text =>
    simp only [readZone,Option.dite_none_right_eq_some,Option.some.injEq] at read
    obtain ⟨plain,filled,rfl⟩ := read
    simp [filled.1]

/-- A field is a group or a quad. -/
theorem mem_fields {groups : List Group} {quad : Option IPv4} {text : JsString}
    (member : text ∈ fields groups quad) :
    (∃ group ∈ groups, text = group.text) ∨ ∃ quoted ∈ quad, text = quoted.text := by
  rcases List.mem_append.mp member with front | back
  · obtain ⟨group,found,rfl⟩ := List.mem_map.mp front
    exact .inl ⟨group,found,rfl⟩
  · obtain ⟨quoted,found,rfl⟩ := Option.map_eq_some_iff.mp (Option.mem_toList.mp back)
    exact .inr ⟨quoted,found,rfl⟩

theorem IPv4.text_plain (quad : IPv4) {unit : UInt16} (other : isDigit unit = false)
    (point : unit ≠ 46) : unit ∉ quad.text := by
  simp [text,octets,octet_plain _ other,point]

theorem fields_sound (groups : List Group) (quad : Option IPv4) : Fields (fields groups quad) := by
  intro text member
  rcases mem_fields member with ⟨group,_,rfl⟩ | ⟨quoted,_,rfl⟩
  · exact ⟨group.filled,group.plain (by decide)⟩
  · exact ⟨List.ne_nil_of_mem quoted.text_point,quoted.text_plain (by decide) (by decide)⟩

theorem mem_join {separator unit : UInt16} {texts : List JsString}
    (member : unit ∈ [separator].intercalate texts) :
    unit = separator ∨ ∃ text ∈ texts, unit ∈ text := by
  induction texts with
  | nil => simp at member
  | cons text texts ih =>
    cases texts with
    | nil => exact .inr ⟨text,by simp,by simpa using member⟩
    | cons next texts =>
      rw [List.intercalate_cons_cons] at member
      simp only [List.mem_append,List.mem_singleton] at member
      rcases member with (front | same) | back
      · exact .inr ⟨text,by simp,front⟩
      · exact .inl same
      · rcases ih back with same | ⟨field,found,here⟩
        · exact .inl same
        · exact .inr ⟨field,List.mem_cons_of_mem _ found,here⟩

theorem join_fields_zone (groups : List Group) (quad : Option IPv4) :
    37 ∉ [58].intercalate (fields groups quad) := by
  intro member
  obtain same | ⟨text,found,here⟩ := mem_join member
  · simp at same
  · rcases mem_fields found with ⟨group,_,rfl⟩ | ⟨quoted,_,rfl⟩
    · exact group.plain (by decide) here
    · exact quoted.text_plain (by decide) (by decide) here

namespace IPv6

theorem head_zone (address : IPv6) : 37 ∉ address.head := by
  unfold head
  split <;> simp [join_fields_zone]

theorem splitDoubleColon_head (address : IPv6) : splitDoubleColon address.head =
    match address.right with
    | none => [[58].intercalate (fields address.left address.quad)]
    | some right => [[58].intercalate (fields address.left none),
        [58].intercalate (fields right address.quad)] := by
  have whole (groups : List Group) (quad : Option IPv4) :
      splitDoubleColon ([58].intercalate (fields groups quad)) =
        [[58].intercalate (fields groups quad)] :=
    splitDoubleColon_apart (apart_join (fields_sound groups quad)).left_of_append
  unfold head
  split
  · exact whole _ _
  · rw [splitDoubleColon_append (apart_join (fields_sound _ _)),whole]

end IPv6

theorem span_zone {head : JsString} (plain : 37 ∉ head) (zone : Option Zone) :
    (head ++ (zone.map (37 :: ·.text)).getD []).takeWhile (· ≠ 37) = head ∧
      (head ++ (zone.map (37 :: ·.text)).getD []).dropWhile (· ≠ 37) =
        (zone.map (37 :: ·.text)).getD [] := by
  have front : ∀ unit ∈ head, decide (unit ≠ 37) = true := fun unit member =>
    decide_eq_true fun same => plain (same ▸ member)
  rw [List.takeWhile_append_of_pos front,List.dropWhile_append_of_pos front]
  cases zone <;> simp

theorem readIPv6_text (address : IPv6) : readIPv6 address.text = some address := by
  obtain ⟨before,behind⟩ := span_zone address.head_zone address.zone
  have split := address.splitDoubleColon_head
  obtain ⟨left,right,quad,zone,fits⟩ := address
  unfold readIPv6 IPv6.text
  rw [before,behind,readZone_text,split]
  cases right with
  | none => simp [splitGroups_join (fields_sound _ _),readFields_fields,fits]
  | some right => simp [splitGroups_join (fields_sound _ _),readFields_fields,fits]

theorem readIPv6_iff {text : JsString} {address : IPv6} :
    readIPv6 text = some address ↔ address.text = text := by
  refine ⟨fun read => ?_,fun same => same ▸ readIPv6_text address⟩
  simp only [readIPv6,Option.bind_eq_bind,Option.bind_eq_some_iff] at read
  obtain ⟨zone,zoned,read⟩ := read
  have joined := join_splitDoubleColon (text.takeWhile (· ≠ 37))
  have whole : text = text.takeWhile (· ≠ 37) ++ text.dropWhile (· ≠ 37) :=
    List.takeWhile_append_dropWhile.symm
  rw [readZone_sound zoned,← joined] at whole
  split at read
  · rename_i front split
    obtain ⟨⟨groups,quad⟩,found,read⟩ := Option.bind_eq_some_iff.mp read
    simp only [Option.dite_none_right_eq_some,Option.some.injEq] at read
    obtain ⟨fits,rfl⟩ := read
    rw [whole,split,List.intercalate_singleton,← join_splitGroups front,readFields_sound found]
    rfl
  · rename_i before behind split
    obtain ⟨⟨left,none_⟩,front,read⟩ := Option.bind_eq_some_iff.mp read
    cases none_ with
    | some quad => simp at read
    | none =>
      obtain ⟨⟨right,quad⟩,back,read⟩ := Option.bind_eq_some_iff.mp read
      simp only [Option.dite_none_right_eq_some,Option.some.injEq] at read
      obtain ⟨fits,rfl⟩ := read
      rw [whole,split,List.intercalate_cons_cons,List.intercalate_singleton,
        ← join_splitGroups before,← join_splitGroups behind,readFields_sound front,
        readFields_sound back]
      simp [IPv6.text,IPv6.head]
  · simp at read

theorem isIP_quad (quad : IPv4) : isIP quad.text = 4 := by simp [isIP,readIPv4_text]

/-- A text of an address with groups has a colon. -/
theorem IPv6.text_colon (address : IPv6) : 58 ∈ address.text := by
  refine List.mem_append_left _ ?_
  obtain ⟨left,right,quad,zone,fits⟩ := address
  cases right with
  | some right => simp [head]
  | none =>
    have many : 2 ≤ (fields left quad).length := by
      cases quad <;> simp [fields,width] at fits ⊢ <;> omega
    match shape : fields left quad with
    | [] => simp [shape] at many
    | [_] => simp [shape] at many
    | _ :: _ :: _ => simp [head,shape]

theorem readIPv4_groups (address : IPv6) : readIPv4 address.text = none := by
  rw [Option.eq_none_iff_forall_ne_some]
  intro quad read
  have same := readIPv4_iff.mp read
  exact quad.text_plain (by decide) (by decide) (same ▸ address.text_colon)

theorem isIP_groups (address : IPv6) : isIP address.text = 6 := by
  simp [isIP,readIPv4_groups,readIPv6_text]

theorem isIP_other {text : JsString} : isIP text = 0 ↔
    (∀ quad : IPv4, quad.text ≠ text) ∧ ∀ address : IPv6, address.text ≠ text := by
  unfold isIP
  simp only [← readIPv4_iff,← readIPv6_iff,ne_eq]
  cases readIPv4 text <;> cases readIPv6 text <;> simp

end RoundTrips

end IpText
