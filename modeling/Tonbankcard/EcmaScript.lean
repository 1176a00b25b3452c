import Mathlib.Algebra.Group.Nat.Defs
import Mathlib.Data.List.Basic

/-! Strings as ECMAScript has them, lists of UTF-16 code units, and the JSON text of strings
and flat objects. The text of an object determines its members, so a collision-free digest
of the text pins them. -/
namespace EcmaScript

abbrev JsString := List UInt16

instance : LawfulBEq JsString := inferInstance

/-- The code units of a string literal. -/
def js (text : String) : JsString :=
  text.toList.flatMap fun c =>
    if c.toNat < 65536 then [UInt16.ofNat c.toNat]
    else [UInt16.ofNat (55296 + (c.toNat - 65536) / 1024),
      UInt16.ofNat (56320 + (c.toNat - 65536) % 1024)]

/-- A digit of `Number.prototype.toString` in a base up to 16, which is in lower case. -/
def digit (value : Nat) : UInt16 :=
  if value < 10 then UInt16.ofNat (48 + value) else UInt16.ofNat (87 + value)

def digitValue (unit : UInt16) : Nat :=
  if unit < 58 then unit.toNat - 48 else unit.toNat - 87

theorem digitValue_digit {value : Nat} (small : value < 16) : digitValue (digit value) = value := by
  unfold digit digitValue
  split
  · rw [if_pos (UInt16.lt_iff_toNat_lt.mpr (by simp; omega)),UInt16.toNat_ofNat']
    omega
  · rw [if_neg (mt UInt16.lt_iff_toNat_lt.mp (by simp; omega)),UInt16.toNat_ofNat']
    omega

/-- The digits of a value in a fixed width, the highest first. -/
def fixedDigits (base : Nat) : Nat → Nat → JsString
  | 0, _ => []
  | width+1, value => fixedDigits base width (value / base) ++ [digit (value % base)]

def fixedValue (base : Nat) (units : JsString) : Nat :=
  units.foldl (fun value unit => value * base + digitValue unit) 0

theorem fixedDigits_length (base width value : Nat) :
    (fixedDigits base width value).length = width := by
  induction width generalizing value with
  | zero => rfl
  | succ width ih => rw [fixedDigits,List.length_append,ih,List.length_singleton]

theorem fixedValue_fixedDigits (positive : 0 < base) (upTo : base ≤ 16) (width value : Nat) :
    fixedValue base (fixedDigits base width value) = value % base^width := by
  induction width generalizing value with
  | zero => rw [Nat.pow_zero,Nat.mod_one]; rfl
  | succ width ih =>
    have small : value % base < 16 := Nat.lt_of_lt_of_le (Nat.mod_lt _ positive) upTo
    have front := ih (value / base)
    unfold fixedValue at front ⊢
    rw [fixedDigits,List.foldl_append,front,List.foldl_cons,List.foldl_nil,
      digitValue_digit small,Nat.pow_succ,Nat.mul_comm (base^width),Nat.mod_mul,Nat.mul_comm,
      Nat.add_comm]

section Quoting

def isLeading (unit : UInt16) : Bool := 0xD800 ≤ unit && unit < 0xDC00
def isTrailing (unit : UInt16) : Bool := 0xDC00 ≤ unit && unit < 0xE000

/-- The escape `\uXXXX` of a code unit. -/
def unicodeEscape (unit : UInt16) : JsString := 92 :: 117 :: fixedDigits 16 4 unit.toNat

/-- How a code unit stands in a quoted string; a surrogate here is a lone one. -/
def quoteUnit (unit : UInt16) : JsString :=
  if unit = 8 then [92,98]
  else if unit = 9 then [92,116]
  else if unit = 10 then [92,110]
  else if unit = 12 then [92,102]
  else if unit = 13 then [92,114]
  else if unit = 34 then [92,34]
  else if unit = 92 then [92,92]
  else if unit < 32 || isLeading unit || isTrailing unit then unicodeEscape unit
  else [unit]

def quoteUnits : JsString → JsString
  | [] => []
  | [unit] => quoteUnit unit
  | unit :: next :: rest =>
    if isLeading unit && isTrailing next then unit :: next :: quoteUnits rest
    else quoteUnit unit ++ quoteUnits (next :: rest)

/-- `JSON.stringify` of a string. -/
def quote (s : JsString) : JsString := 34 :: (quoteUnits s ++ [34])

/-- The unit behind the second character of a two-character escape. -/
def unescape (unit : UInt16) : UInt16 :=
  if unit = 98 then 8
  else if unit = 116 then 9
  else if unit = 110 then 10
  else if unit = 102 then 12
  else if unit = 114 then 13
  else unit

/-- Reads a quoted string up to its closing quote. -/
def unquoteUnits : JsString → Option (JsString × JsString)
  | [] => none
  | 34 :: rest => some ([],rest)
  | 92 :: 117 :: a :: b :: c :: d :: rest =>
    (unquoteUnits rest).map fun (s,left) => (UInt16.ofNat (fixedValue 16 [a,b,c,d]) :: s,left)
  | 92 :: unit :: rest => (unquoteUnits rest).map fun (s,left) => (unescape unit :: s,left)
  | unit :: rest => (unquoteUnits rest).map fun (s,left) => (unit :: s,left)

theorem unquoteUnits_plain (notQuote : unit ≠ 34) (notEscape : unit ≠ 92) (rest : JsString) :
    unquoteUnits (unit :: rest) =
      (unquoteUnits rest).map fun (s,left) => (unit :: s,left) := by
  rw [unquoteUnits]
  · exact fun same => notQuote same
  · exact fun _ _ _ _ _ same => absurd same notEscape
  · exact fun _ _ same => absurd same notEscape

theorem unquoteUnits_short (short : unit ≠ 117) (rest : JsString) :
    unquoteUnits (92 :: unit :: rest) =
      (unquoteUnits rest).map fun (s,left) => (unescape unit :: s,left) := by
  rw [unquoteUnits]
  exact fun _ _ _ _ _ same => absurd same short

theorem unquoteUnits_unicode (unit : UInt16) (rest : JsString) :
    unquoteUnits (unicodeEscape unit ++ rest) =
      (unquoteUnits rest).map fun (s,left) => (unit :: s,left) := by
  have value : fixedValue 16 (fixedDigits 16 4 unit.toNat) = unit.toNat % 16^4 :=
    fixedValue_fixedDigits (by decide) (by decide) 4 unit.toNat
  rw [Nat.mod_eq_of_lt (show unit.toNat < 16^4 from unit.toNat_lt)] at value
  simp only [fixedDigits,List.nil_append,List.cons_append] at value
  simp only [unicodeEscape,fixedDigits,List.nil_append,List.cons_append,unquoteUnits,value,
    UInt16.ofNat_toNat]

/-- The units with a two-character escape, each with its second character. -/
def escapePairs : List (UInt16 × UInt16) :=
  [(8,98),(9,116),(10,110),(12,102),(13,114),(34,34),(92,92)]

/-- The three forms in which a unit is quoted. -/
theorem quoteUnit_cases (unit : UInt16) :
    (∃ short, (unit,short) ∈ escapePairs ∧ quoteUnit unit = [92,short]) ∨
      quoteUnit unit = unicodeEscape unit ∨
      quoteUnit unit = [unit] ∧ unit ≠ 34 ∧ unit ≠ 92 ∧ ¬unit < 32 ∧ isLeading unit = false ∧
        isTrailing unit = false := by
  unfold quoteUnit
  iterate 7
    split
    · next same =>
      subst same
      exact .inl ⟨_,by decide,rfl⟩
  split
  · exact .inr (.inl rfl)
  · next mark slash whole =>
    simp only [Bool.or_eq_true,decide_eq_true_eq,not_or,Bool.not_eq_true] at whole
    exact .inr (.inr ⟨rfl,mark,slash,whole.1.1,whole.1.2,whole.2⟩)

theorem unescape_pair {unit short : UInt16} (pair : (unit,short) ∈ escapePairs) :
    short ≠ 117 ∧ unescape short = unit := by
  simp only [escapePairs,List.mem_cons,Prod.mk.injEq,List.not_mem_nil,or_false] at pair
  rcases pair with h | h | h | h | h | h | h <;> (obtain ⟨rfl,rfl⟩ := h; decide)

theorem unquoteUnits_quoteUnit (unit : UInt16) (rest : JsString) :
    unquoteUnits (quoteUnit unit ++ rest) =
      (unquoteUnits rest).map fun (s,left) => (unit :: s,left) := by
  rcases quoteUnit_cases unit with ⟨short,pair,quoted⟩ | quoted | ⟨quoted,mark,slash,-⟩ <;>
    rw [quoted]
  · obtain ⟨apart,back⟩ := unescape_pair pair
    exact (unquoteUnits_short apart rest).trans (by rw [back])
  · exact unquoteUnits_unicode unit rest
  · exact unquoteUnits_plain mark slash rest

/-- A quoted string reads back, whatever stands behind it. -/
theorem unquoteUnits_quoteUnits (s rest : JsString) :
    unquoteUnits (quoteUnits s ++ 34 :: rest) = some (s,rest) := by
  induction s using quoteUnits.induct with
  | case1 => simp [quoteUnits,unquoteUnits]
  | case2 unit => simp [quoteUnits,unquoteUnits_quoteUnit,unquoteUnits]
  | case3 unit next tail pair ih =>
    rw [Bool.and_eq_true] at pair
    have leading : unit ≠ 34 ∧ unit ≠ 92 := by
      constructor <;> (rintro rfl; exact absurd pair.1 (by decide))
    have trailing : next ≠ 34 ∧ next ≠ 92 := by
      constructor <;> (rintro rfl; exact absurd pair.2 (by decide))
    rw [quoteUnits,if_pos (by simp [pair]),List.cons_append,List.cons_append,
      unquoteUnits_plain leading.1 leading.2,unquoteUnits_plain trailing.1 trailing.2,ih]
    rfl
  | case4 unit next tail apart ih =>
    rw [quoteUnits,if_neg apart,List.append_assoc,unquoteUnits_quoteUnit,ih]
    rfl

/-- Quoted strings are a prefix code. -/
theorem quote_append_inj (same : quote s ++ rest = quote other ++ left) :
    s = other ∧ rest = left := by
  simp only [quote,List.cons_append,List.append_assoc,List.cons.injEq,true_and,
    List.nil_append] at same
  have read := unquoteUnits_quoteUnits s rest
  rw [same,unquoteUnits_quoteUnits,Option.some.injEq,Prod.mk.injEq] at read
  exact ⟨read.1.symm,read.2.symm⟩

theorem quote_injective : Function.Injective quote := by
  intro s other same
  exact (quote_append_inj (congrArg (· ++ []) same)).1

end Quoting
section WellFormed

/-- Whether every surrogate stands in a pair, so that the string has a UTF-8 encoding. -/
def isWellFormed : JsString → Bool
  | [] => true
  | [unit] => !isLeading unit && !isTrailing unit
  | unit :: next :: rest =>
    if isLeading unit && isTrailing next then isWellFormed rest
    else !isLeading unit && !isTrailing unit && isWellFormed (next :: rest)

theorem isWellFormed_cons (leading : isLeading unit = false) (trailing : isTrailing unit = false)
    (s : JsString) : isWellFormed (unit :: s) = isWellFormed s := by
  cases s with
  | nil => simp [isWellFormed,leading,trailing]
  | cons next rest => simp [isWellFormed,leading,trailing]

theorem isWellFormed_append (front : isWellFormed s = true) (back : isWellFormed rest = true) :
    isWellFormed (s ++ rest) = true := by
  induction s using isWellFormed.induct with
  | case1 => exact back
  | case2 unit =>
    simp only [isWellFormed,Bool.and_eq_true,Bool.not_eq_true'] at front
    rw [List.singleton_append,isWellFormed_cons front.1 front.2]
    exact back
  | case3 unit next tail pair ih =>
    rw [isWellFormed,if_pos pair] at front
    rw [List.cons_append,List.cons_append,isWellFormed,if_pos pair]
    exact ih front
  | case4 unit next tail apart ih =>
    rw [isWellFormed,if_neg apart] at front
    simp only [Bool.and_eq_true,Bool.not_eq_true'] at front
    rw [List.cons_append,isWellFormed_cons front.1.1 front.1.2]
    exact ih front.2

theorem isLeading_ascii (ascii : unit < 128) : isLeading unit = false ∧ isTrailing unit = false := by
  have small := UInt16.lt_iff_toNat_lt.mp ascii
  have high : ¬(0xD800 : UInt16) ≤ unit := mt UInt16.le_iff_toNat_le.mp (by
    simp at small ⊢; omega)
  have higher : ¬(0xDC00 : UInt16) ≤ unit := mt UInt16.le_iff_toNat_le.mp (by
    simp at small ⊢; omega)
  simp [isLeading,isTrailing,high,higher]

theorem isWellFormed_ascii {s : JsString} (ascii : ∀ unit ∈ s, unit < 128) :
    isWellFormed s = true := by
  induction s with
  | nil => rfl
  | cons unit s ih =>
    obtain ⟨leading,trailing⟩ := isLeading_ascii (ascii unit List.mem_cons_self)
    rw [isWellFormed_cons leading trailing]
    exact ih (fun unit member => ascii unit (List.mem_cons_of_mem _ member))

theorem digit_ascii {value : Nat} (small : value < 16) : digit value < 128 := by
  apply UInt16.lt_iff_toNat_lt.mpr
  unfold digit
  split <;> (rw [UInt16.toNat_ofNat']; simp; omega)

theorem fixedDigits_ascii (positive : 0 < base) (upTo : base ≤ 16) (width value : Nat) :
    ∀ unit ∈ fixedDigits base width value, unit < 128 := by
  induction width generalizing value with
  | zero => simp [fixedDigits]
  | succ width ih =>
    intro unit member
    rcases List.mem_append.mp member with front | last
    · exact ih _ unit front
    · rw [List.mem_singleton.mp last]
      exact digit_ascii (Nat.lt_of_lt_of_le (Nat.mod_lt _ positive) upTo)

theorem ascii_of_units {s : JsString} (all : s.all (· < 128) = true) : ∀ unit ∈ s, unit < 128 :=
  fun unit member => of_decide_eq_true (List.all_eq_true.mp all unit member)

theorem unicodeEscape_ascii (unit : UInt16) : ∀ other ∈ unicodeEscape unit, other < 128 := by
  intro other member
  rcases List.mem_cons.mp member with rfl | member
  · decide
  rcases List.mem_cons.mp member with rfl | member
  · decide
  exact fixedDigits_ascii (by decide) (by decide) _ _ other member

/-- A unit is quoted in ASCII, or by itself if it is no surrogate. -/
theorem quoteUnit_units (unit : UInt16) : (∀ other ∈ quoteUnit unit, other < 128) ∨
    quoteUnit unit = [unit] ∧ isLeading unit = false ∧ isTrailing unit = false := by
  rcases quoteUnit_cases unit with ⟨short,pair,quoted⟩ | quoted | ⟨quoted,-,-,-,apart⟩ <;>
    rw [quoted]
  · simp only [escapePairs,List.mem_cons,Prod.mk.injEq,List.not_mem_nil,or_false] at pair
    rcases pair with h | h | h | h | h | h | h <;>
      exact .inl (ascii_of_units (by rw [h.2]; decide))
  · exact .inl (unicodeEscape_ascii unit)
  · exact .inr ⟨rfl,apart⟩

theorem quoteUnit_wellFormed (unit : UInt16) : isWellFormed (quoteUnit unit) = true := by
  rcases quoteUnit_units unit with ascii | ⟨quoted,leading,trailing⟩
  · exact isWellFormed_ascii ascii
  · rw [quoted,isWellFormed_cons leading trailing]
    rfl

/-- Quoting escapes what has no UTF-8 encoding of its own. -/
theorem quote_wellFormed (s : JsString) : isWellFormed (quote s) = true := by
  have units : isWellFormed (quoteUnits s) = true := by
    induction s using quoteUnits.induct with
    | case1 => rfl
    | case2 unit => exact quoteUnit_wellFormed unit
    | case3 unit next rest pair ih => rw [quoteUnits,if_pos pair,isWellFormed,if_pos pair,ih]
    | case4 unit next rest apart ih =>
      rw [quoteUnits,if_neg apart]
      exact isWellFormed_append (quoteUnit_wellFormed unit) ih
  have closed : isWellFormed [34] = true := by decide
  rw [quote,isWellFormed_cons (by decide) (by decide)]
  exact isWellFormed_append units closed

end WellFormed

section Objects

/-- A unit that neither closes a member nor opens a string. -/
def isPlain (unit : UInt16) : Prop := unit ≠ 34 ∧ unit ≠ 44 ∧ unit ≠ 125

/-- A number as `JSON.stringify` prints it: digits, signs, a point, an exponent, or null. -/
structure JsNumber where
  text : JsString
  filled : text ≠ []
  plain : ∀ unit ∈ text, isPlain unit ∧ unit < 128
  deriving DecidableEq

def digitUnit (c : Char) : UInt16 := UInt16.ofNat c.toNat

def natDigits (n : Nat) : JsString := (Nat.toDigits 10 n).map digitUnit

/-- The text of a whole number in the range where no exponent is printed. -/
def decimal (n : Int) : JsString :=
  if n < 0 then 45 :: natDigits n.natAbs else natDigits n.toNat

theorem digitUnit_range (isDigit : c.isDigit = true) :
    (digitUnit c).toNat = c.toNat ∧ 48 ≤ c.toNat ∧ c.toNat ≤ 57 := by
  simp only [Char.isDigit,Bool.and_eq_true,decide_eq_true_eq,ge_iff_le,UInt32.le_iff_toNat_le] at isDigit
  have low : 48 ≤ c.toNat := isDigit.1
  have high : c.toNat ≤ 57 := isDigit.2
  refine ⟨?_,low,high⟩
  rw [digitUnit,UInt16.toNat_ofNat']
  omega

theorem natDigits_digit (member : unit ∈ natDigits n) : 48 ≤ unit.toNat ∧ unit.toNat ≤ 57 := by
  obtain ⟨c,shown,rfl⟩ := List.mem_map.mp member
  obtain ⟨same,low,high⟩ := digitUnit_range
    (Nat.isDigit_of_mem_toDigits (b := 10) (by decide) (by decide) shown)
  omega

theorem natDigits_injective : Function.Injective natDigits := by
  have back (n : Nat) : (natDigits n).map (fun unit => Char.ofNat unit.toNat) = Nat.toDigits 10 n := by
    rw [natDigits,List.map_map]
    refine (List.map_congr_left fun c member => ?_).trans (List.map_id _)
    obtain ⟨same,-⟩ := digitUnit_range
      (Nat.isDigit_of_mem_toDigits (b := 10) (by decide) (by decide) member)
    rw [Function.comp_apply,same]
    exact Char.ofNat_toNat c
  intro n other same
  have digits := congrArg (List.map fun unit : UInt16 => Char.ofNat unit.toNat) same
  rw [back,back] at digits
  rw [← Nat.ofDigitChars_ten_toDigits (n := n),digits,Nat.ofDigitChars_ten_toDigits]

theorem natDigits_filled (n : Nat) : natDigits n ≠ [] := by
  simp [natDigits,Nat.toDigits_ne_nil]

theorem decimal_unit (member : unit ∈ decimal n) : unit.toNat = 45 ∨
    48 ≤ unit.toNat ∧ unit.toNat ≤ 57 := by
  unfold decimal at member
  split at member
  · rcases List.mem_cons.mp member with rfl | member
    · exact .inl rfl
    · exact .inr (natDigits_digit member)
  · exact .inr (natDigits_digit member)

theorem decimal_injective : Function.Injective decimal := by
  have signed (n m : Nat) : 45 :: natDigits n ≠ natDigits m := by
    intro same
    have first : (45 : UInt16) ∈ natDigits m := same ▸ List.mem_cons_self
    exact absurd (natDigits_digit first).1 (by decide)
  intro n other same
  unfold decimal at same
  split at same <;> split at same
  · have magnitude := natDigits_injective (List.cons.inj same).2
    omega
  · exact absurd same (signed _ _)
  · exact absurd same.symm (signed _ _)
  · have magnitude := natDigits_injective same
    omega

theorem decimal_plain (member : unit ∈ decimal n) : isPlain unit ∧ unit < 128 := by
  have range := decimal_unit member
  refine ⟨⟨?_,?_,?_⟩,UInt16.lt_iff_toNat_lt.mpr ?_⟩
  · rintro rfl
    simp at range
  · rintro rfl
    simp at range
  · rintro rfl
    simp at range
  · simp only [UInt16.reduceToNat]
    omega

def JsNumber.ofInt (n : Int) : JsNumber where
  text := decimal n
  filled := by
    unfold decimal
    split
    · exact List.cons_ne_nil _ _
    · exact natDigits_filled _
  plain _ := decimal_plain

/-- The text of a string, or of a number, a boolean or null. -/
def Scalar (text : JsString) : Prop :=
  (∃ s, text = quote s) ∨ text ≠ [] ∧ ∀ unit ∈ text, isPlain unit

def member (field : JsString × JsString) : JsString := quote field.1 ++ 58 :: field.2

/-- An object from the names and the texts of its members. -/
def objectText (fields : List (JsString × JsString)) : JsString :=
  123 :: ([44].intercalate (fields.map member) ++ [125])

/-- What stands behind a member. -/
def behind : List (JsString × JsString) → JsString
  | [] => [125]
  | field :: rest => 44 :: (member field ++ behind rest)

theorem objectText_cons (field : JsString × JsString) (rest : List (JsString × JsString)) :
    objectText (field :: rest) = 123 :: (member field ++ behind rest) := by
  suffices joined : [44].intercalate ((field :: rest).map member) ++ [125] =
      member field ++ behind rest by rw [objectText,joined]
  induction rest generalizing field with
  | nil => simp [List.intercalate,behind]
  | cons next rest ih =>
    have ih := ih next
    simp only [List.map_cons,List.intercalate_cons_cons,List.append_assoc] at ih ⊢
    rw [ih]
    rfl

theorem plain_append_inj {text other : JsString} (plain : ∀ unit ∈ text, isPlain unit)
    (plain' : ∀ unit ∈ other, isPlain unit) (ends : mark = 44 ∨ mark = 125)
    (ends' : mark' = 44 ∨ mark' = 125) (same : text ++ mark :: rest = other ++ mark' :: left) :
    text = other ∧ mark :: rest = mark' :: left := by
  have apart (unit mark : UInt16) (plain : isPlain unit) (ends : mark = 44 ∨ mark = 125) :
      unit ≠ mark := by
    rintro rfl
    rcases ends with rfl | rfl
    · exact plain.2.1 rfl
    · exact plain.2.2 rfl
  induction text generalizing other with
  | nil =>
    cases other with
    | nil => exact ⟨rfl,same⟩
    | cons unit other =>
      have first := (List.cons.inj same).1
      exact absurd first.symm (apart unit mark (plain' unit List.mem_cons_self) ends)
  | cons unit text ih =>
    cases other with
    | nil =>
      have first := (List.cons.inj same).1
      exact absurd first (apart unit mark' (plain unit List.mem_cons_self) ends')
    | cons unit' other =>
      obtain ⟨rfl,tails⟩ := List.cons.inj same
      obtain ⟨rfl,marks⟩ := ih (fun unit member => plain unit (List.mem_cons_of_mem _ member))
        (fun unit member => plain' unit (List.mem_cons_of_mem _ member)) tails
      exact ⟨rfl,marks⟩

theorem quote_append_plain {text : JsString} (filled : text ≠ [])
    (plain : ∀ unit ∈ text, isPlain unit) : quote s ++ rest ≠ text ++ left := by
  cases text with
  | nil => contradiction
  | cons unit text =>
    intro same
    have first : (34 : UInt16) = unit := (List.cons.inj same).1
    exact (plain unit List.mem_cons_self).1 first.symm

theorem scalar_append_inj (scalar : Scalar text) (scalar' : Scalar other)
    (ends : mark = 44 ∨ mark = 125) (ends' : mark' = 44 ∨ mark' = 125)
    (same : text ++ mark :: rest = other ++ mark' :: left) :
    text = other ∧ mark :: rest = mark' :: left := by
  rcases scalar with ⟨s,rfl⟩ | ⟨filled,plain⟩ <;> rcases scalar' with ⟨s',rfl⟩ | ⟨filled',plain'⟩
  · obtain ⟨rfl,marks⟩ := quote_append_inj same
    exact ⟨rfl,marks⟩
  · exact absurd same (quote_append_plain filled' plain')
  · exact absurd same.symm (quote_append_plain filled plain)
  · exact plain_append_inj plain plain' ends ends' same

theorem behind_head (fields : List (JsString × JsString)) :
    ∃ mark rest, behind fields = mark :: rest ∧ (mark = 44 ∨ mark = 125) := by
  cases fields with
  | nil => exact ⟨125,[],rfl,.inr rfl⟩
  | cons => exact ⟨44,_,rfl,.inl rfl⟩

variable {fields others : List (JsString × JsString)}

theorem member_behind_inj {field other : JsString × JsString} (scalar : Scalar field.2)
    (scalar' : Scalar other.2)
    (same : member field ++ behind fields = member other ++ behind others) :
    field = other ∧ behind fields = behind others := by
  obtain ⟨mark,rest,front,ends⟩ := behind_head fields
  obtain ⟨mark',left,front',ends'⟩ := behind_head others
  simp only [member,List.append_assoc] at same
  obtain ⟨name,same⟩ := quote_append_inj same
  have same := (List.cons.inj same).2
  rw [front,front'] at same ⊢
  obtain ⟨value,same⟩ := scalar_append_inj scalar scalar' ends ends' same
  exact ⟨Prod.ext name value,same⟩

theorem behind_injective (scalars : ∀ field ∈ fields, Scalar field.2)
    (scalars' : ∀ field ∈ others, Scalar field.2) (same : behind fields = behind others) :
    fields = others := by
  induction fields generalizing others with
  | nil =>
    cases others with
    | nil => rfl
    | cons other others => exact absurd (List.cons.inj same).1 (by decide)
  | cons field fields ih =>
    cases others with
    | nil => exact absurd (List.cons.inj same).1 (by decide)
    | cons other others =>
      obtain ⟨rfl,tails⟩ := member_behind_inj (scalars field List.mem_cons_self)
        (scalars' other List.mem_cons_self) (List.cons.inj same).2
      rw [ih (fun field member => scalars field (List.mem_cons_of_mem _ member))
        (fun field member => scalars' field (List.mem_cons_of_mem _ member)) tails]

/-- The text of a flat object determines its members. -/
theorem objectText_injective (scalars : ∀ field ∈ fields, Scalar field.2)
    (scalars' : ∀ field ∈ others, Scalar field.2)
    (same : objectText fields = objectText others) : fields = others := by
  cases fields with
  | nil =>
    cases others with
    | nil => rfl
    | cons other others =>
      rw [objectText_cons] at same
      exact absurd (List.cons.inj (List.cons.inj same).2).1 (by decide)
  | cons field fields =>
    rw [objectText_cons] at same
    cases others with
    | nil => exact absurd (List.cons.inj (List.cons.inj same).2).1 (by decide)
    | cons other others =>
      rw [objectText_cons] at same
      obtain ⟨rfl,tails⟩ := member_behind_inj (scalars field List.mem_cons_self)
        (scalars' other List.mem_cons_self) (List.cons.inj same).2
      rw [behind_injective (fun field member => scalars field (List.mem_cons_of_mem _ member))
        (fun field member => scalars' field (List.mem_cons_of_mem _ member)) tails]

theorem objectText_wellFormed (values : ∀ field ∈ fields, isWellFormed field.2 = true) :
    isWellFormed (objectText fields) = true := by
  have members : isWellFormed (behind fields) = true := by
    induction fields with
    | nil => decide
    | cons field fields ih =>
      rw [behind,isWellFormed_cons (by decide) (by decide)]
      refine isWellFormed_append (isWellFormed_append (quote_wellFormed _) ?_)
        (ih (fun field member => values field (List.mem_cons_of_mem _ member)))
      rw [isWellFormed_cons (by decide) (by decide)]
      exact values field List.mem_cons_self
  cases fields with
  | nil => decide
  | cons field fields =>
    rw [objectText_cons,isWellFormed_cons (by decide) (by decide)]
    rw [behind,isWellFormed_cons (by decide) (by decide)] at members
    exact members

end Objects
end EcmaScript
