import Mathlib.Tactic.Ring
import Tonbankcard.SsrfGuardRanges

/-! The check of an address over all of its spellings. The conversion reads every spelling but
those with a quad right behind the compression, which it takes for malformed, and a mapped address
is recognised in two of its spellings only. -/
namespace Tonbankcard.SsrfGuard

open EcmaScript IpText

section Quads

theorem IPv4_value_lt (quad : IPv4) : quad.value < 2^32 := by
  obtain ⟨a,b,c,d⟩ := quad
  simp only [IPv4.value]
  omega

theorem readOctetNumber_natDigits (octet : Fin 256) :
    readOctetNumber (natDigits octet) = some octet.val := by
  have small : octet.val < 2^53 := by omega
  have inside : octet.val ≤ 255 := by omega
  simp [readOctetNumber,stringToNumber_natDigits,Number.ofRational_nat small,wholeNumber,inside]

theorem ipv4ToBigInt_text (quad : IPv4) : ipv4ToBigInt quad.text = some quad.value := by
  have append (value : Nat) (octet : Fin 256) : value <<< 8 ||| octet.val = value * 256 + octet := by
    rw [← Nat.shiftLeft_add_eq_or_of_lt octet.isLt,Nat.shiftLeft_eq]
  simp [ipv4ToBigInt,quad.splitOn_text,IPv4.octets,readOctetNumber_natDigits,append,IPv4.value]

end Quads

section Groups

theorem hexValue_lt (unit : UInt16) : (hexValue unit).getD 0 < 16 := by
  unfold hexValue
  simp only
  split_ifs <;> simp <;> omega

theorem hexNumber_append (units : JsString) (unit : UInt16) :
    hexNumber (units ++ [unit]) = hexNumber units * 16 + (hexValue unit).getD 0 := by
  simp [hexNumber]

theorem hexNumber_lt (units : JsString) : hexNumber units < 16^units.length := by
  induction units using List.reverseRecOn with
  | nil => decide
  | append_singleton units unit ih =>
    have digit := hexValue_lt unit
    rw [hexNumber_append,List.length_append,List.length_singleton,Nat.pow_succ]
    omega

theorem Group_value_lt (group : Group) : group.value < 2^16 :=
  (hexNumber_lt group.text).trans_le
    (Nat.pow_le_pow_right (n := 16) (by decide) group.short)

theorem hexValue_digitChar {n : Nat} (small : n < 16) :
    hexValue (digitUnit (Nat.digitChar n)) = some n := by
  decide +revert

theorem hexDigits_small {n : Nat} (small : n < 16) :
    hexDigits n = [digitUnit (Nat.digitChar n)] := by
  rw [hexDigits,Nat.toDigits_of_lt_base small]
  rfl

theorem hexDigits_step {n : Nat} (large : 16 ≤ n) :
    hexDigits n = hexDigits (n / 16) ++ [digitUnit (Nat.digitChar (n % 16))] := by
  rw [hexDigits,Nat.toDigits_of_base_le (by decide) large,List.map_append]
  rfl

theorem hexNumber_hexDigits (n : Nat) : hexNumber (hexDigits n) = n := by
  induction n using Nat.strong_induction_on with
  | _ n ih =>
    by_cases small : n < 16
    · simp [hexDigits_small small,hexNumber,hexValue_digitChar small]
    · have digit := hexValue_digitChar (Nat.mod_lt n (by decide : 0 < 16))
      rw [hexDigits_step (by omega),hexNumber_append,ih (n / 16) (by omega),digit,Option.getD_some]
      omega

theorem hexDigits_digits (n : Nat) : ∀ unit ∈ hexDigits n, (hexValue unit).isSome = true := by
  induction n using Nat.strong_induction_on with
  | _ n ih =>
    intro unit member
    by_cases small : n < 16
    · rw [hexDigits_small small,List.mem_singleton] at member
      rw [member,hexValue_digitChar small,Option.isSome_some]
    · rw [hexDigits_step (by omega)] at member
      rcases List.mem_append.mp member with front | last
      · exact ih (n / 16) (by omega) unit front
      · rw [List.mem_singleton.mp last,hexValue_digitChar (Nat.mod_lt n (by decide)),
          Option.isSome_some]

theorem hexDigits_filled (n : Nat) : hexDigits n ≠ [] := by
  simp [hexDigits,Nat.toDigits_ne_nil]

theorem hexDigits_length {n width : Nat} (positive : 0 < width) (small : n < 16^width) :
    (hexDigits n).length ≤ width := by
  induction width generalizing n with
  | zero => simp at positive
  | succ width ih =>
    by_cases digit : n < 16
    · rw [hexDigits_small digit,List.length_singleton]
      omega
    · have front : n / 16 < 16^width := by
        rw [Nat.pow_succ] at small
        omega
      have filled : 0 < width := by
        rcases Nat.eq_zero_or_pos width with rfl | filled
        · simp at small
          omega
        · exact filled
      have shorter := ih filled front
      rw [hexDigits_step (by omega),List.length_append,List.length_singleton]
      omega

/-- A printed group. -/
def hextetGroup (n : Nat) (small : n < 2^16) : Group :=
  ⟨hexDigits n,hexDigits_digits n,hexDigits_filled n,hexDigits_length (by decide) small⟩

def zeroGroup : Group := hextetGroup 0 (by decide)

theorem hextetGroup_value (n : Nat) (small : n < 2^16) : (hextetGroup n small).value = n :=
  hexNumber_hexDigits n

theorem appendHextet_group (value : Nat) (group : Group) :
    appendHextet value group.text = some (value * 2^16 + group.value) := by
  have hextet : isHextet group.text = true := by
    simp only [isHextet,Bool.and_eq_true,decide_eq_true_eq,List.all_eq_true]
    exact ⟨⟨List.length_pos_iff.mpr group.filled,group.short⟩,group.digits⟩
  rw [appendHextet,if_pos hextet,← Group.value,
    ← Nat.shiftLeft_add_eq_or_of_lt (Group_value_lt group),Nat.shiftLeft_eq]

theorem foldlM_appendHextet (groups : List Group) (value : Nat) :
    (groups.map (·.text)).foldlM appendHextet value =
      some ((groups.map (·.value)).foldl (fun value group => value * 2^16 + group) value) := by
  induction groups generalizing value with
  | nil => rfl
  | cons group groups ih =>
    rw [List.map_cons,List.foldlM_cons,appendHextet_group,Option.bind_eq_bind,Option.bind_some,ih]
    rfl

/-- An empty field is no group. -/
theorem foldlM_empty {texts : List JsString} (member : [] ∈ texts) (value : Nat) :
    texts.foldlM appendHextet value = none := by
  induction texts generalizing value with
  | nil => simp at member
  | cons text texts ih =>
    rw [List.foldlM_cons]
    rcases List.mem_cons.mp member with rfl | later
    · rfl
    · cases appendHextet value text with
      | none => rfl
      | some value => exact ih later value

end Groups

section Conversion

theorem idxOf?_append_cons {unit : UInt16} (front : JsString) (absent : unit ∉ front)
    (back : JsString) : (front ++ unit :: back).idxOf? unit = some front.length := by
  induction front with
  | nil => simp [List.idxOf?_cons]
  | cons first front ih =>
    simp only [List.mem_cons,not_or] at absent
    simp [List.idxOf?_cons,Ne.symm absent.1,ih absent.2]

theorem lastIndexOf_append {unit : UInt16} (front : JsString) {back : JsString}
    (absent : unit ∉ back) : lastIndexOf unit (front ++ unit :: back) = some front.length := by
  have found : (front ++ unit :: back).reverse.idxOf? unit = some back.length := by
    have counted := idxOf?_append_cons back.reverse (by simpa using absent) front.reverse
    simpa using counted
  rw [lastIndexOf,found]
  simp

/-- The text before an embedded quad and its separator; the whole head without a quad. -/
def front (address : IPv6) : JsString :=
  match address.right with
  | none => [58].intercalate (fields address.left none)
  | some [] => [58].intercalate (fields address.left none) ++
      (if address.quad.isSome then [58] else [58,58])
  | some right => [58].intercalate (fields address.left none) ++
      58 :: 58 :: [58].intercalate (fields right none)

def quadGroups (quad : IPv4) : List Group :=
  [hextetGroup (quad.value / 2^16) (by have := IPv4_value_lt quad; omega),
    hextetGroup (quad.value % 2^16) (by omega)]

theorem join_snoc {texts : List JsString} (filled : texts ≠ []) (text : JsString) :
    [58].intercalate (texts ++ [text]) = [58].intercalate texts ++ 58 :: text := by
  induction texts with
  | nil => exact absurd rfl filled
  | cons first texts ih =>
    cases texts with
    | nil => simp
    | cons next texts =>
      rw [List.cons_append,List.intercalate_cons_cons,List.intercalate_cons_of_ne_nil (by simp),
        ih (by simp)]
      simp

theorem head_front {address : IPv6} {quad : IPv4} (ends : address.quad = some quad) :
    address.head = front address ++ 58 :: quad.text := by
  obtain ⟨left,right,_,zone,fits⟩ := address
  subst ends
  have snoc {groups : List Group} (filled : groups ≠ []) :
      [58].intercalate (fields groups (some quad)) =
        [58].intercalate (fields groups none) ++ 58 :: quad.text := by
    have texts : fields groups none ≠ [] := by simpa [fields] using filled
    rw [← join_snoc texts]
    simp [fields]
  rcases right with _ | _ | ⟨group,right⟩
  · have filled : left ≠ [] := by
      rintro rfl
      simp [width] at fits
    exact snoc filled
  · simp [front,IPv6.head,fields]
  · simp [front,IPv6.head,snoc]

theorem splitQuad_head (address : IPv6) : splitQuad address.head =
    some (front address,(address.quad.map fun quad => (quadGroups quad).map (·.text)).getD []) := by
  cases ends : address.quad with
  | none =>
    have plain (groups : List Group) : 46 ∉ [58].intercalate (fields groups none) := by
      intro member
      obtain same | ⟨text,found,here⟩ := mem_join member
      · simp at same
      · rcases mem_fields found with ⟨group,_,rfl⟩ | ⟨quoted,none_,_⟩
        · exact group.plain (by decide) here
        · simp at none_
    obtain ⟨left,right,_,zone,fits⟩ := address
    subst ends
    match right with
    | none => simp [splitQuad,IPv6.head,front,plain]
    | some [] =>
      have empty : [58].intercalate (fields [] none) = [] := rfl
      simp [splitQuad,IPv6.head,front,plain,empty]
    | some (group :: right) => simp [splitQuad,IPv6.head,front,plain]
  | some quad =>
    have point : address.head.contains 46 = true := by
      simp [head_front ends,quad.text_point]
    have colon : 58 ∉ quad.text := quad.text_plain (by decide) (by decide)
    have small := IPv4_value_lt quad
    have low : quad.value &&& 0xffff = quad.value % 2^16 :=
      Nat.and_two_pow_sub_one_eq_mod quad.value 16
    have high : quad.value >>> 16 &&& 0xffff = quad.value / 2^16 := by
      rw [Nat.shiftRight_eq_div_pow]
      exact Nat.and_two_pow_sub_one_of_lt_two_pow (n := 16) (by omega)
    rw [splitQuad,if_pos point,head_front ends,lastIndexOf_append _ colon]
    simp only [Option.bind_eq_bind,Option.bind_some,List.drop_length_add_append,List.drop_succ_cons,
      List.drop_zero,ipv4ToBigInt_text,high,low,List.take_left,Option.pure_def]
    rfl

/-- A quad right behind the compression. -/
def QuadBehindCompression (address : IPv6) : Prop :=
  address.right = some [] ∧ address.quad.isSome = true

instance (address : IPv6) : Decidable (QuadBehindCompression address) :=
  inferInstanceAs (Decidable (_ ∧ _))

/-- The groups of an embedded quad. -/
def tailGroups (address : IPv6) : List Group := (address.quad.map quadGroups).getD []

/-- The groups that a text is expanded to. -/
def expandedGroups (address : IPv6) : List Group :=
  let behind := address.right.getD [] ++ tailGroups address
  address.left ++ List.replicate (8 - (address.left.length + behind.length)) zeroGroup ++ behind

theorem tailGroups_length (address : IPv6) :
    (tailGroups address).length = width address.quad := by
  unfold tailGroups
  cases address.quad <;> rfl

theorem expandedGroups_length (address : IPv6) : (expandedGroups address).length = 8 := by
  have tail := tailGroups_length address
  obtain ⟨left,right,quad,zone,fits⟩ := address
  cases right <;> simp [expandedGroups] at fits tail ⊢ <;> omega

theorem expandedGroups_value (address : IPv6) :
    (expandedGroups address).map (·.value) = address.groups := by
  have zero : zeroGroup.value = 0 := rfl
  unfold expandedGroups tailGroups IPv6.groups
  cases address.quad <;> simp [quadGroups,hextetGroup_value,zero]

theorem splitGroups_fields (groups : List Group) :
    splitGroups ([58].intercalate (fields groups none)) = groups.map (·.text) := by
  rw [splitGroups_join (fields_sound groups none)]
  simp [fields]

theorem splitDoubleColon_fields (groups : List Group) :
    splitDoubleColon ([58].intercalate (fields groups none)) =
      [[58].intercalate (fields groups none)] :=
  splitDoubleColon_apart (apart_join (fields_sound groups none)).left_of_append

theorem splitDoubleColon_between (left right : List Group) :
    splitDoubleColon ([58].intercalate (fields left none) ++
      58 :: 58 :: [58].intercalate (fields right none)) =
      [[58].intercalate (fields left none),[58].intercalate (fields right none)] := by
  rw [splitDoubleColon_append (apart_join (fields_sound left none)),splitDoubleColon_fields]

theorem expandGroups_front {address : IPv6} (apart : ¬QuadBehindCompression address) :
    expandGroups (front address) ((tailGroups address).map (·.text)) =
      some ((expandedGroups address).map (·.text)) := by
  have tail := tailGroups_length address
  have zero : zeroGroup.text = js "0" := by decide
  obtain ⟨left,right,quad,zone,fits⟩ := address
  have between (behind : List Group) (fits : left.length + behind.length + width quad ≤ 7)
      (tail : List Group) (long : tail.length = width quad) :
      expandGroups ([58].intercalate (fields left none) ++
        58 :: 58 :: [58].intercalate (fields behind none)) (tail.map (·.text)) =
      some ((left ++ List.replicate (8 - (left.length + (behind ++ tail).length)) zeroGroup ++
        (behind ++ tail)).map (·.text)) := by
    have room : ¬8 < left.length + behind.length + tail.length := by omega
    unfold expandGroups
    rw [splitDoubleColon_between]
    simp only [splitGroups_fields,List.length_map,if_neg room]
    simp [zero,Nat.add_assoc]
  match right with
  | none =>
    have full : 8 - (left.length + (tailGroups ⟨left,none,quad,zone,fits⟩).length) = 0 := by
      simp only [tail] at fits ⊢
      omega
    unfold expandGroups
    rw [front,splitDoubleColon_fields]
    simp [splitGroups_fields,expandedGroups,full]
  | some [] =>
    cases quad with
    | none => exact between [] fits _ tail
    | some quad => exact absurd ⟨rfl,rfl⟩ apart
  | some (group :: right) => exact between (group :: right) fits _ tail

/-- The front of such a text ends in a colon, which leaves an empty field. -/
theorem expandGroups_behind {address : IPv6} (behind : QuadBehindCompression address)
    (tail : List JsString) :
    ∃ texts, expandGroups (front address) tail = some texts ∧ [] ∈ texts := by
  obtain ⟨left,right,quad,zone,fits⟩ := address
  obtain ⟨compressed,quoted⟩ := behind
  obtain rfl : right = some [] := compressed
  have single : splitDoubleColon ([58].intercalate (fields left none) ++ [58]) =
      [[58].intercalate (fields left none) ++ [58]] :=
    splitDoubleColon_apart (apart_join (fields_sound left none))
  have empty : [] ∈ splitGroups ([58].intercalate (fields left none) ++ [58]) := by
    rw [splitGroups,if_neg (by simp),List.splitOn_append_cons_self]
    simp
  refine ⟨splitGroups ([58].intercalate (fields left none) ++ [58]) ++ tail,?_,
    List.mem_append_left _ empty⟩
  unfold expandGroups front
  simp only [quoted,if_true,single]

theorem ipv6ToBigInt_text (address : IPv6) : ipv6ToBigInt address.text =
    if QuadBehindCompression address then none else some address.value := by
  obtain ⟨before,-⟩ := span_zone address.head_zone address.zone
  have tail : (address.quad.map fun quad => (quadGroups quad).map (·.text)).getD [] =
      (tailGroups address).map (·.text) := by
    unfold tailGroups
    cases address.quad <;> rfl
  unfold ipv6ToBigInt IPv6.text
  rw [before,splitQuad_head,Option.bind_eq_bind,Option.bind_some,tail]
  simp only
  by_cases behind : QuadBehindCompression address
  · obtain ⟨texts,expanded,empty⟩ := expandGroups_behind behind
      ((tailGroups address).map (·.text))
    simp only [expanded,Option.bind_eq_bind,Option.bind_some,foldlM_empty empty,ite_self,
      if_pos behind]
  · simp only [expandGroups_front behind,Option.bind_eq_bind,Option.bind_some,List.length_map,expandedGroups_length,
      foldlM_appendHextet,expandedGroups_value,if_neg behind]
    rfl

end Conversion

section Mapped

theorem toNat_lowerUnit (unit : UInt16) : (lowerUnit unit).toNat =
    if 65 ≤ unit.toNat ∧ unit.toNat ≤ 90 then unit.toNat + 32 else unit.toNat := by
  simp only [lowerUnit,Bool.and_eq_true,decide_eq_true_eq,UInt16.le_iff_toNat_le,
    UInt16.reduceToNat]
  split
  · simp only [UInt16.toNat_add,UInt16.reduceToNat]
    omega
  · rfl

/-- Only letters are changed, and only to letters. -/
theorem lowerUnit_eq_iff {unit target : UInt16} (low : target < 65) :
    lowerUnit unit = target ↔ unit = target := by
  simp only [← UInt16.toNat_inj,toNat_lowerUnit,UInt16.lt_iff_toNat_lt,UInt16.reduceToNat] at low ⊢
  split <;> omega

theorem mem_toLowerCase {unit : UInt16} (low : unit < 65) {units : JsString} :
    unit ∈ toLowerCase units ↔ unit ∈ units := by
  simp [toLowerCase,lowerUnit_eq_iff low]

theorem splitOn_toLowerCase (units : JsString) :
    (toLowerCase units).splitOn 58 = (units.splitOn 58).map toLowerCase := by
  induction units with
  | nil => rfl
  | cons unit units ih =>
    unfold toLowerCase at ih ⊢
    rw [List.map_cons,List.splitOn_cons_eq_if_modifyHead,List.splitOn_cons_eq_if_modifyHead,ih]
    by_cases colon : unit = 58
    · subst colon
      rfl
    · have kept : ¬lowerUnit unit = 58 := mt (lowerUnit_eq_iff (by decide)).mp colon
      obtain ⟨first,rest,split⟩ := List.exists_cons_of_ne_nil (List.splitOn_ne_nil 58 units)
      simp [colon,kept,split]

theorem hexValue_lowerUnit (unit : UInt16) : hexValue (lowerUnit unit) = hexValue unit := by
  unfold hexValue
  simp only [toNat_lowerUnit]
  split_ifs <;> first | omega | rfl

theorem hexNumber_toLowerCase (units : JsString) : hexNumber (toLowerCase units) = hexNumber units := by
  simp [hexNumber,toLowerCase,List.foldl_map,hexValue_lowerUnit]

theorem natDigits_length (octet : Fin 256) :
    1 ≤ (natDigits octet).length ∧ (natDigits octet).length ≤ 3 := by
  revert octet
  decide +kernel

theorem isQuadLike_text (quad : IPv4) : isQuadLike quad.text = true := by
  have digits (octet : Fin 256) : (natDigits octet).all isDigit = true :=
    List.all_eq_true.mpr fun _ => isDigit_natDigits
  simp only [isQuadLike,quad.splitOn_text,IPv4.octets,List.all_cons,List.all_nil,natDigits_length,
    digits,decide_true,Bool.and_self,List.length_cons,List.length_nil]

theorem isQuadLike_units {text : JsString} (quad : isQuadLike text = true) :
    46 ∈ text ∧ ∀ unit ∈ text, unit = 46 ∨ isDigit unit = true := by
  simp only [isQuadLike,Bool.and_eq_true,decide_eq_true_eq,List.all_eq_true] at quad
  have joined : [46].intercalate (text.splitOn 46) = text := List.intercalate_splitOn 46
  constructor
  · by_contra absent
    rw [List.splitOn_eq_singleton absent] at quad
    simp at quad
  · intro unit member
    rw [← joined] at member
    rcases mem_join member with same | ⟨part,found,here⟩
    · exact .inl same
    · exact .inr ((quad.2 part found).2 unit here)

theorem splitOn_fields (groups : List Group) (quad : Option IPv4) :
    ([58].intercalate (fields groups quad)).splitOn 58 =
      if fields groups quad = [] then [[]] else fields groups quad := by
  split
  · rename_i empty
    rw [empty]
    rfl
  · rename_i filled
    exact List.splitOn_intercalate 58 (fun text member => (fields_sound groups quad text member).2)
      filled

/-- The fields of a text that starts with the compression. -/
theorem splitOn_compressed (right : List Group) (quad : Option IPv4) :
    (toLowerCase (58 :: 58 :: [58].intercalate (fields right quad))).splitOn 58 =
      [] :: [] :: (if fields right quad = [] then [[]] else fields right quad).map toLowerCase := by
  rw [splitOn_toLowerCase]
  have first := List.splitOn_append_cons_self (a := 58) [] (58 :: [58].intercalate (fields right quad))
  have second := List.splitOn_append_cons_self (a := 58) [] ([58].intercalate (fields right quad))
  simp only [List.nil_append,List.splitOn_nil] at first second
  rw [first,second,splitOn_fields]
  rfl

/-- Where the fields start with two empty ones and a percent sign is nowhere, the text starts with
the compression, and has no zone. -/
theorem compressed_first {address : IPv6} {rest : List JsString}
    (split : (toLowerCase address.text).splitOn 58 = [] :: [] :: rest)
    (plain : ∀ text ∈ rest, 37 ∉ text) :
    address.zone = none ∧ address.left = [] ∧ ∃ right, address.right = some right ∧
      rest = (if fields right address.quad = [] then [[]] else fields right address.quad).map
        toLowerCase := by
  have units (member : 37 ∈ toLowerCase address.text) :
      (37 : UInt16) = 58 ∨ ∃ text ∈ [] :: [] :: rest, 37 ∈ text := by
    have joined : [58].intercalate ((toLowerCase address.text).splitOn 58) =
        toLowerCase address.text := List.intercalate_splitOn 58
    rw [← split]
    rw [← joined] at member
    exact mem_join member
  have unzoned : 37 ∉ address.text := by
    intro member
    obtain same | ⟨text,found,here⟩ := units ((mem_toLowerCase (by decide)).mpr member)
    · simp at same
    · simp only [List.mem_cons] at found
      rcases found with rfl | rfl | found
      · simp at here
      · simp at here
      · exact plain text found here
  obtain ⟨left,right,quad,zone,fits⟩ := address
  obtain rfl : zone = none := by
    cases zone with
    | none => rfl
    | some zone => simp [IPv6.text] at unzoned
  refine ⟨rfl,?_⟩
  have first (groups : List Group) (quad : Option IPv4) (filled : groups ≠ [] ) (more : List JsString) :
      (fields groups quad ++ more).map toLowerCase ≠ [] :: [] :: rest := by
    obtain ⟨group,groups,rfl⟩ := List.exists_cons_of_ne_nil filled
    have filled := group.filled
    simp [fields,toLowerCase,filled]
  cases right with
  | none =>
    have filled : left ≠ [] := by
      rintro rfl
      cases quad <;> simp [width] at fits
    have same := splitOn_fields left quad
    rw [if_neg (by simp [fields,filled])] at same
    simp only [IPv6.text,IPv6.head,Option.map_none,Option.getD_none,List.append_nil,
      splitOn_toLowerCase,same] at split
    exact absurd (by simpa using split) (first left quad filled [])
  | some right =>
    simp only [IPv6.text,IPv6.head,Option.map_none,Option.getD_none,List.append_nil] at split
    by_cases empty : left = []
    · subst empty
      have compressed := split.symm.trans (splitOn_compressed right quad)
      exact ⟨rfl,right,rfl,(List.cons.inj (List.cons.inj compressed).2).2⟩
    · rw [splitOn_toLowerCase,List.splitOn_append_cons_self,splitOn_fields,
        if_neg (by simp [fields,empty])] at split
      exact absurd split (first left none empty _)

/-- The first of the spellings that are recognised as mapped: `::ffff:` and a quad. -/
def MappedQuad (address : IPv6) (quad : IPv4) : Prop :=
  address.zone = none ∧ address.left = [] ∧ address.quad = some quad ∧
    ∃ mark, address.right = some [mark] ∧ toLowerCase mark.text = js "ffff"

/-- The second: `::ffff:` and two groups. -/
def MappedGroups (address : IPv6) (hi lo : Group) : Prop :=
  address.zone = none ∧ address.left = [] ∧ address.quad = none ∧
    ∃ mark, address.right = some [mark,hi,lo] ∧ toLowerCase mark.text = js "ffff"

theorem toLowerCase_quad (quad : IPv4) : toLowerCase quad.text = quad.text := by
  refine (List.map_congr_left fun unit member => ?_).trans (List.map_id _)
  have low : unit < 65 := by
    rcases (isQuadLike_units (isQuadLike_text quad)).2 unit member with rfl | digit
    · decide
    · simp only [isDigit,Bool.and_eq_true,decide_eq_true_eq] at digit
      simp only [UInt16.le_iff_toNat_le,UInt16.lt_iff_toNat_lt,UInt16.reduceToNat] at digit ⊢
      omega
  exact (lowerUnit_eq_iff low).mpr rfl

theorem mappedMatch_quad {address : IPv6} {quad : IPv4} (mapped : MappedQuad address quad) :
    mappedMatch (toLowerCase address.text) = some quad.text := by
  obtain ⟨left,right,quoted,zone,fits⟩ := address
  obtain ⟨rfl,rfl,rfl,mark,rfl,marked⟩ := mapped
  have split : (toLowerCase (IPv6.text ⟨[],some [mark],some quad,none,fits⟩)).splitOn 58 =
      [[],[],toLowerCase mark.text,toLowerCase quad.text] :=
    (congrArg (fun text => (toLowerCase text).splitOn 58) (List.append_nil _)).trans
      (splitOn_compressed [mark] (some quad))
  rw [mappedMatch,split]
  simp [marked,toLowerCase_quad,isQuadLike_text]

theorem mappedMatch_only {address : IPv6} {text : JsString}
    (found : mappedMatch (toLowerCase address.text) = some text) :
    ∃ quad, MappedQuad address quad := by
  unfold mappedMatch at found
  split at found
  · rename_i first second third last split
    simp only [Option.ite_none_right_eq_some,Option.some.injEq] at found
    obtain ⟨⟨rfl,rfl,rfl,quoted⟩,rfl⟩ := found
    obtain ⟨point,units⟩ := isQuadLike_units quoted
    have plain : ∀ text ∈ [js "ffff",last], 37 ∉ text := by
      have percent : 37 ∉ last := fun member => absurd (units 37 member) (by decide)
      simp only [List.forall_mem_cons,percent]
      exact ⟨by decide,by simp⟩
    obtain ⟨unzoned,bare,right,compressed,rest⟩ := compressed_first split plain
    obtain ⟨left,_,quad,zone,fits⟩ := address
    obtain ⟨rfl,rfl,rfl⟩ : zone = none ∧ left = [] ∧ _ = some right := ⟨unzoned,bare,compressed⟩
    match right, quad with
    | [], none => simp [fields] at rest
    | [], some quad => simp [fields] at rest
    | [_], none => simp [fields] at rest
    | [mark], some quad =>
      simp only [fields,List.map_cons,List.map_nil,Option.map_some,Option.toList_some,
        List.cons_append,List.nil_append,reduceCtorEq,if_false,List.cons.injEq] at rest
      exact ⟨quad,rfl,rfl,rfl,mark,rfl,rest.1.symm⟩
    | [mark,group], none =>
      simp only [fields,List.map_cons,List.map_nil,Option.map_none,Option.toList_none,
        List.append_nil,reduceCtorEq,if_false,List.cons.injEq] at rest
      rw [rest.2.1,mem_toLowerCase (by decide)] at point
      exact absurd point (group.plain (by decide))
    | [_,_], some _ => simp [fields] at rest
    | _ :: _ :: _ :: _, _ => simp [fields] at rest
  · simp at found

theorem isLowerHextet_group (group : Group) : isLowerHextet (toLowerCase group.text) = true := by
  have digit (unit : UInt16) (hex : (hexValue unit).isSome = true) :
      (isDigit (lowerUnit unit) || (97 ≤ lowerUnit unit && lowerUnit unit ≤ 102)) = true := by
    rw [← hexValue_lowerUnit] at hex
    have case_ := toNat_lowerUnit unit
    simp only [hexValue] at hex
    simp only [isDigit,Bool.or_eq_true,Bool.and_eq_true,decide_eq_true_eq,UInt16.le_iff_toNat_le,
      UInt16.reduceToNat]
    split_ifs at hex case_ <;> simp at hex <;> omega
  have filled := List.length_pos_iff.mpr group.filled
  simp only [isLowerHextet,toLowerCase,List.length_map,Bool.and_eq_true,decide_eq_true_eq,
    List.all_map,List.all_eq_true,Function.comp_apply]
  exact ⟨⟨filled,group.short⟩,fun unit member => digit unit (group.digits unit member)⟩

theorem hexMappedMatch_groups {address : IPv6} {hi lo : Group}
    (mapped : MappedGroups address hi lo) :
    hexMappedMatch (toLowerCase address.text) = some (toLowerCase hi.text,toLowerCase lo.text) := by
  obtain ⟨left,right,quoted,zone,fits⟩ := address
  obtain ⟨rfl,rfl,rfl,mark,rfl,marked⟩ := mapped
  have split : (toLowerCase (IPv6.text ⟨[],some [mark,hi,lo],none,none,fits⟩)).splitOn 58 =
      [[],[],toLowerCase mark.text,toLowerCase hi.text,toLowerCase lo.text] :=
    (congrArg (fun text => (toLowerCase text).splitOn 58) (List.append_nil _)).trans
      (splitOn_compressed [mark,hi,lo] none)
  rw [hexMappedMatch,split]
  simp [marked,isLowerHextet_group]

theorem isLowerHextet_units {group : JsString} (hextet : isLowerHextet group = true)
    (unit : UInt16) (low : unit < 48) : unit ∉ group := by
  intro member
  simp only [isLowerHextet,Bool.and_eq_true,List.all_eq_true] at hextet
  have shape := hextet.2 unit member
  simp only [isDigit,Bool.or_eq_true,Bool.and_eq_true,decide_eq_true_eq,UInt16.le_iff_toNat_le,
    UInt16.lt_iff_toNat_lt,UInt16.reduceToNat] at shape low
  omega

theorem hexMappedMatch_only {address : IPv6} {found : JsString × JsString}
    (read : hexMappedMatch (toLowerCase address.text) = some found) :
    ∃ hi lo, MappedGroups address hi lo := by
  unfold hexMappedMatch at read
  split at read
  · rename_i first second third hi lo split
    simp only [Option.ite_none_right_eq_some,Option.some.injEq] at read
    obtain ⟨⟨rfl,rfl,rfl,high,low⟩,rfl⟩ := read
    have plain : ∀ text ∈ [js "ffff",hi,lo], 37 ∉ text := by
      simp only [List.forall_mem_cons,isLowerHextet_units high 37 (by decide),
        isLowerHextet_units low 37 (by decide)]
      exact ⟨by decide,by simp⟩
    obtain ⟨unzoned,bare,right,compressed,rest⟩ := compressed_first split plain
    obtain ⟨left,_,quad,zone,fits⟩ := address
    obtain ⟨rfl,rfl,rfl⟩ : zone = none ∧ left = [] ∧ _ = some right := ⟨unzoned,bare,compressed⟩
    match right, quad with
    | [], none => simp [fields] at rest
    | [], some quad => simp [fields] at rest
    | [_], none => simp [fields] at rest
    | [_], some _ => simp [fields] at rest
    | [_,_], none => simp [fields] at rest
    | [mark,group], some quad =>
      simp only [fields,List.map_cons,List.map_nil,Option.map_some,Option.toList_some,
        List.cons_append,List.nil_append,reduceCtorEq,if_false,List.cons.injEq] at rest
      have point := (mem_toLowerCase (by decide)).mpr quad.text_point
      rw [← rest.2.2.1] at point
      exact absurd point (isLowerHextet_units low 46 (by decide))
    | [mark,hi,lo], none =>
      simp only [fields,List.map_cons,List.map_nil,Option.map_none,Option.toList_none,
        List.append_nil,reduceCtorEq,if_false,List.cons.injEq] at rest
      exact ⟨hi,lo,rfl,rfl,rfl,mark,rfl,rest.1.symm⟩
    | [_,_,_], some _ => simp [fields] at rest
    | _ :: _ :: _ :: _ :: _, _ => simp [fields] at rest
  · simp at read

end Mapped

section Verdicts

theorem foldl_groups_lt {base : Nat} {groups : List Nat} (small : ∀ group ∈ groups, group < base)
    (value : Nat) : groups.foldl (fun value group => value * base + group) value <
      (value + 1) * base^groups.length := by
  induction groups generalizing value with
  | nil => simp
  | cons group groups ih =>
    have first := small group List.mem_cons_self
    refine (ih (fun other member => small other (List.mem_cons_of_mem _ member)) _).trans_le ?_
    rw [List.length_cons,Nat.pow_succ',← Nat.mul_assoc]
    have step : value * base + group + 1 ≤ (value + 1) * base := by
      rw [Nat.add_mul,Nat.one_mul]
      omega
    exact Nat.mul_le_mul_right _ step

theorem IPv6_value_lt (address : IPv6) : address.value < 2^128 := by
  have length : address.groups.length = 8 := by
    rw [← expandedGroups_value,List.length_map,expandedGroups_length]
  have small : ∀ group ∈ address.groups, group < 2^16 := by
    rw [← expandedGroups_value]
    intro value member
    obtain ⟨group,_,rfl⟩ := List.mem_map.mp member
    exact Group_value_lt group
  have bound := foldl_groups_lt small 0
  rw [length] at bound
  exact bound.trans_le (by decide)

/-- The spellings that are recognised as mapped. -/
def RecognisedMapped (address : IPv6) : Prop :=
  (∃ quad, MappedQuad address quad) ∨ ∃ hi lo, MappedGroups address hi lo

theorem mark_value {mark : Group} (marked : toLowerCase mark.text = js "ffff") :
    mark.value = 0xffff := by
  rw [Group.value,← hexNumber_toLowerCase,marked]
  decide

theorem mappedQuad_value {address : IPv6} {quad : IPv4} (mapped : MappedQuad address quad) :
    address.value = 0xffff * 2^32 + quad.value := by
  obtain ⟨left,right,quoted,zone,fits⟩ := address
  obtain ⟨rfl,rfl,rfl,mark,rfl,marked⟩ := mapped
  simp [IPv6.value,IPv6.groups,mark_value marked]
  omega

theorem mappedGroups_value {address : IPv6} {hi lo : Group}
    (mapped : MappedGroups address hi lo) :
    address.value = 0xffff * 2^32 + (hi.value * 2^16 + lo.value) := by
  obtain ⟨left,right,quoted,zone,fits⟩ := address
  obtain ⟨rfl,rfl,rfl,mark,rfl,marked⟩ := mapped
  simp [IPv6.value,IPv6.groups,mark_value marked]
  omega

theorem quadText_text (hi lo : Group) : ∃ quad : IPv4,
    quadText hi.value lo.value = quad.text ∧ quad.value = hi.value * 2^16 + lo.value := by
  have high := Group_value_lt hi
  have low := Group_value_lt lo
  have byte (value : Nat) : value &&& 0xff = value % 256 := Nat.and_two_pow_sub_one_eq_mod value 8
  refine ⟨⟨⟨hi.value / 256,by omega⟩,⟨hi.value % 256,by omega⟩,⟨lo.value / 256,by omega⟩,
    ⟨lo.value % 256,by omega⟩⟩,?_,?_⟩
  · simp only [quadText,IPv4.text,IPv4.octets,List.intercalate_cons_cons,List.intercalate_singleton,
      byte,Nat.shiftRight_eq_div_pow]
    have top (value : Nat) (small : value < 2^16) : value / 2^8 % 256 = value / 256 := by omega
    rw [top hi.value high,top lo.value low]
    simp
  · simp only [IPv4.value]
    omega

theorem isBlockedWithin_quad (calls : Nat) (quad : IPv4) :
    isBlockedWithin (calls+1) quad.text = true ↔ InRanges 32 blockedIPv4 quad.value := by
  rw [isBlockedWithin]
  simp [isIP_quad,ipv4ToBigInt_text,matchesAny_parsedIPv4 (IPv4_value_lt quad)]

theorem isBlockedAddress_quad (quad : IPv4) :
    isBlockedAddress quad.text = true ↔ InRanges 32 blockedIPv4 quad.value :=
  isBlockedWithin_quad 1 quad

theorem isBlockedAddress_other {text : JsString} (other : isIP text = 0) :
    isBlockedAddress text = true := by
  rw [isBlockedAddress,isBlockedWithin]
  simp [other]

theorem isBlockedAddress_recognised {address : IPv6} (recognised : RecognisedMapped address) :
    isBlockedAddress address.text = true ↔ InRanges 32 blockedIPv4 (address.value % 2^32) := by
  rw [isBlockedAddress,isBlockedWithin]
  rcases recognised with ⟨quad,mapped⟩ | ⟨hi,lo,mapped⟩
  · have small := IPv4_value_lt quad
    have value : address.value % 2^32 = quad.value := by
      rw [mappedQuad_value mapped]
      omega
    rw [value]
    simp [isIP_groups,mappedMatch_quad mapped,isBlockedWithin_quad]
  · obtain ⟨quad,text,denoted⟩ := quadText_text hi lo
    have small := IPv4_value_lt quad
    have value : address.value % 2^32 = quad.value := by
      rw [mappedGroups_value mapped,← denoted]
      omega
    have apart : mappedMatch (toLowerCase address.text) = none := by
      rw [Option.eq_none_iff_forall_ne_some]
      intro text found
      obtain ⟨other,_,_,quoted,_⟩ := mappedMatch_only found
      simp [mapped.2.2.1] at quoted
    have printed : quadText (hexNumber hi.text) (hexNumber lo.text) = quad.text := text
    rw [value]
    simp [isIP_groups,apart,hexMappedMatch_groups mapped,hexNumber_toLowerCase,printed,
      isBlockedWithin_quad]

theorem isBlockedAddress_converted {address : IPv6} (plain : ¬RecognisedMapped address) :
    isBlockedAddress address.text = true ↔
      QuadBehindCompression address ∨ InRanges 128 blockedIPv6 address.value := by
  have noQuad : mappedMatch (toLowerCase address.text) = none := by
    rw [Option.eq_none_iff_forall_ne_some]
    exact fun text found => plain (.inl (mappedMatch_only found))
  have noGroups : hexMappedMatch (toLowerCase address.text) = none := by
    rw [Option.eq_none_iff_forall_ne_some]
    exact fun pair found => plain (.inr (hexMappedMatch_only found))
  rw [isBlockedAddress,isBlockedWithin]
  simp only [isIP_groups,noQuad,noGroups,ipv6ToBigInt_text]
  by_cases behind : QuadBehindCompression address
  · simp [behind]
  · simp [behind,matchesAny_parsedIPv6 (IPv6_value_lt address)]

/-- Two calls are enough: the text of a mapped address is a quad. -/
theorem isBlockedWithin_enough (calls : Nat) (text : JsString) :
    isBlockedWithin (calls+2) text = isBlockedAddress text := by
  have quads (quad : IPv4) : isBlockedWithin (calls+1) quad.text = isBlockedWithin 1 quad.text := by
    rw [Bool.eq_iff_iff,isBlockedWithin_quad,isBlockedWithin_quad]
  unfold isBlockedAddress
  rw [isBlockedWithin,isBlockedWithin]
  simp only
  split
  · rfl
  split
  · rfl
  rename_i known long
  obtain ⟨address,rfl⟩ : ∃ address : IPv6, address.text = text := by
    by_contra none_
    push Not at none_
    have short : ∀ quad : IPv4, quad.text ≠ text := fun quad same => long (same ▸ isIP_quad quad)
    exact known (isIP_other.mpr ⟨short,none_⟩)
  cases mapped : mappedMatch (toLowerCase address.text) with
  | some inner =>
    obtain ⟨quad,form⟩ := mappedMatch_only mapped
    obtain rfl := Option.some.inj (mapped.symm.trans (mappedMatch_quad form))
    exact quads quad
  | none =>
    cases grouped : hexMappedMatch (toLowerCase address.text) with
    | none => rfl
    | some pair =>
      obtain ⟨hi,lo,form⟩ := hexMappedMatch_only grouped
      obtain rfl := Option.some.inj (grouped.symm.trans (hexMappedMatch_groups form))
      obtain ⟨quad,printed,-⟩ := quadText_text hi lo
      have inner : quadText (hexNumber (toLowerCase hi.text)) (hexNumber (toLowerCase lo.text)) =
          quad.text := by
        rw [hexNumber_toLowerCase,hexNumber_toLowerCase]
        exact printed
      simp only [inner,quads]

/-- What the listed ranges say of an address: of the mapped one, if it maps one. -/
def BlockedDenotation (value : Nat) : Prop :=
  if value / 2^32 = 0xffff then InRanges 32 blockedIPv4 (value % 2^32)
  else InRanges 128 blockedIPv6 value

/-- The check is about the address that is denoted. -/
structure Semantic (text : JsString) : Prop where
  quad : ∀ quad : IPv4, quad.text = text →
    (isBlockedAddress text = true ↔ InRanges 32 blockedIPv4 quad.value)
  groups : ∀ address : IPv6, address.text = text →
    (isBlockedAddress text = true ↔ BlockedDenotation address.value)
  other : (∀ quad : IPv4, quad.text ≠ text) → (∀ address : IPv6, address.text ≠ text) →
    isBlockedAddress text = true

/-- A blocked address is mapped in another spelling than the two. -/
def Unrecognised (text : JsString) : Prop :=
  ∃ address : IPv6, address.text = text ∧ ¬RecognisedMapped address ∧
    address.value / 2^32 = 0xffff ∧ InRanges 32 blockedIPv4 (address.value % 2^32)

/-- An address that is in no range has its quad right behind the compression. -/
def Misread (text : JsString) : Prop :=
  ∃ address : IPv6, address.text = text ∧ QuadBehindCompression address ∧
    ¬InRanges 128 blockedIPv6 address.value

theorem recognised_mapped {address : IPv6} (recognised : RecognisedMapped address) :
    address.value / 2^32 = 0xffff := by
  rcases recognised with ⟨quad,mapped⟩ | ⟨hi,lo,mapped⟩
  · have small := IPv4_value_lt quad
    rw [mappedQuad_value mapped]
    omega
  · have high := Group_value_lt hi
    have low := Group_value_lt lo
    rw [mappedGroups_value mapped]
    omega

theorem recognised_apart {address : IPv6} (recognised : RecognisedMapped address) :
    ¬QuadBehindCompression address := by
  rintro ⟨compressed,-⟩
  rcases recognised with ⟨_,_,_,_,_,right,_⟩ | ⟨_,_,_,_,_,_,right,_⟩ <;>
    simp [right] at compressed

/-- The group before a quad that stands right behind the compression is zero. -/
theorem behind_unmapped {address : IPv6} (behind : QuadBehindCompression address) :
    address.value / 2^32 ≠ 0xffff := by
  obtain ⟨left,right,quad,zone,fits⟩ := address
  obtain ⟨compressed,quoted⟩ := behind
  obtain rfl : right = some [] := compressed
  obtain ⟨quad,rfl⟩ := Option.isSome_iff_exists.mp quoted
  have small := IPv4_value_lt quad
  obtain ⟨zeros,filled⟩ : ∃ zeros, 8 - (left.length + 2) = zeros + 1 := by
    simp only [width,Option.isSome_some,if_true,List.length_nil] at fits
    exact ⟨5 - left.length,by omega⟩
  simp [IPv6.value,IPv6.groups,filled,List.replicate_succ']
  omega

/-- The check of every text is about the address that it denotes, exactly where it is neither a
blocked mapped address in an unrecognised spelling nor an address that is misread. -/
theorem isBlockedAddress_semantic_iff (text : JsString) :
    Semantic text ↔ ¬Unrecognised text ∧ ¬Misread text := by
  constructor
  · intro semantic
    constructor
    · rintro ⟨address,rfl,plain,mapped,blocked⟩
      have denoted := semantic.groups address rfl
      rw [isBlockedAddress_converted plain, BlockedDenotation,if_pos mapped] at denoted
      rcases denoted.mpr blocked with behind | inside
      · exact behind_unmapped behind mapped
      · exact mapped_outside mapped inside
    · rintro ⟨address,rfl,behind,outside⟩
      have denoted := semantic.groups address rfl
      have plain : ¬RecognisedMapped address := fun recognised =>
        recognised_apart recognised behind
      rw [isBlockedAddress_converted plain, BlockedDenotation,
        if_neg (behind_unmapped behind)] at denoted
      exact outside (denoted.mp (.inl behind))
  · rintro ⟨recognised,read⟩
    refine ⟨?_,?_,fun noQuad noGroups => isBlockedAddress_other (isIP_other.mpr ⟨noQuad,noGroups⟩)⟩
    · rintro quad rfl
      exact isBlockedAddress_quad quad
    · rintro address rfl
      unfold BlockedDenotation
      by_cases here : RecognisedMapped address
      · rw [if_pos (recognised_mapped here)]
        exact isBlockedAddress_recognised here
      · rw [isBlockedAddress_converted here]
        split
        · rename_i mapped
          have unblocked : ¬InRanges 32 blockedIPv4 (address.value % 2^32) := fun blocked =>
            recognised ⟨address,rfl,here,mapped,blocked⟩
          have apart : ¬QuadBehindCompression address := fun behind =>
            behind_unmapped behind mapped
          simp only [unblocked,apart,mapped_outside mapped,or_self]
        · refine ⟨?_,.inr⟩
          rintro (behind | inside)
          · by_contra outside
            exact read ⟨address,rfl,behind,outside⟩
          · exact inside

/-- The loopback address, mapped and written out. -/
theorem mappedLoopback_open : ¬Semantic (js "0:0:0:0:0:ffff:127.0.0.1") := by
  intro semantic
  obtain ⟨address,read⟩ : ∃ address, readIPv6 (js "0:0:0:0:0:ffff:127.0.0.1") = some address :=
    Option.isSome_iff_exists.mp (by decide +kernel)
  have denoted := semantic.groups address (readIPv6_iff.mp read)
  have value : (readIPv6 (js "0:0:0:0:0:ffff:127.0.0.1")).all fun address =>
      address.value = 0xffff7f000001 := by decide +kernel
  rw [read,Option.all_some,decide_eq_true_eq] at value
  rw [value] at denoted
  have unblocked : isBlockedAddress (js "0:0:0:0:0:ffff:127.0.0.1") = false := by decide +kernel
  have loopback : BlockedDenotation 0xffff7f000001 := by
    unfold BlockedDenotation
    decide +kernel
  rw [denoted.mpr loopback] at unblocked
  simp at unblocked

end Verdicts

end Tonbankcard.SsrfGuard
