import Mathlib.Data.List.DropRight
import Tonbankcard.Doubles
import Tonbankcard.EcmaScript

/-! The numbers of ECMAScript and the texts that are read as numbers: the numeric literals that
`Number` takes once they are trimmed, and those of JSON. A whole number below 2^53 is read back from its digits. -/
namespace EcmaScript

/-- The two zeros are one value here: nothing in the modelled code tells them apart. -/
inductive Number where
  | nan
  | infinite (negative : Bool)
  | finite (value : ℚ)
  deriving DecidableEq

namespace Number

/-- The double that a value is rounded to. What is not below 2^1024 - 2^970 is infinite, and below
2^(-1022) the last digit keeps its weight. -/
def ofRational (q : ℚ) : Number :=
  if (2^54 - 1) * 2^970 ≤ |q| then .infinite (q < 0)
  else if |q| < 2^(-1022 : ℤ) then
    .finite (Doubles.roundHalfEven (q / 2^(-1074 : ℤ)) * 2^(-1074 : ℤ))
  else .finite (Doubles.nearest q)

def isInteger : Number → Bool
  | .finite value => value.den = 1
  | _ => false

def isSafeInteger : Number → Bool
  | .finite value => value.den = 1 && |value.num| < 2^53
  | _ => false

/-- The comparison `<` of numbers. -/
def lt : Number → Number → Bool
  | .nan, _ => false
  | _, .nan => false
  | .infinite negative, .infinite other => negative && !other
  | .infinite negative, .finite _ => negative
  | .finite _, .infinite negative => !negative
  | .finite value, .finite other => value < other

def sub : Number → Number → Number
  | .nan, _ => .nan
  | _, .nan => .nan
  | .infinite negative, .infinite other => if negative = other then .nan else .infinite negative
  | .infinite negative, .finite _ => .infinite negative
  | .finite _, .infinite negative => .infinite !negative
  | .finite value, .finite other => .ofRational (value - other)

/-- `Math.abs`. -/
def abs : Number → Number
  | .nan => .nan
  | .infinite _ => .infinite false
  | .finite value => .finite |value|

theorem ofRational_int {n : ℤ} (small : |n| < 2^53) : ofRational n = .finite n := by
  have cast : |(n : ℚ)| < 2^53 := by exact_mod_cast small
  have weight : (1 : ℚ) ≤ 2^970 := one_le_pow₀ (by norm_num)
  have bound : (2 : ℚ)^53 < (2^54 - 1) * 2^970 :=
    (show (2 : ℚ)^53 < (2^54 - 1) * 1 by norm_num).trans_le
      (mul_le_mul_of_nonneg_left weight (by norm_num))
  unfold ofRational
  rw [if_neg (not_le.mpr (cast.trans bound))]
  by_cases zero : n = 0
  · subst zero
    rw [Int.cast_zero,abs_zero,if_pos (zpow_pos (by norm_num) _),zero_div]
    simp [Doubles.roundHalfEven]
  · have one : (1 : ℚ) ≤ |(n : ℚ)| := by exact_mod_cast Int.one_le_abs zero
    have least : (2 : ℚ)^(-1022 : ℤ) ≤ 1 := zpow_le_one_of_nonpos₀ (by norm_num) (by norm_num)
    rw [if_neg (not_lt.mpr (least.trans one)),Doubles.nearest_int small]

theorem ofRational_nat {n : Nat} (small : n < 2^53) : ofRational n = .finite n := by
  have rounded := ofRational_int (n := n) (by rw [Nat.abs_cast]; exact_mod_cast small)
  simpa using rounded

theorem isSafeInteger_nat (n : Nat) : (finite n).isSafeInteger = decide (n < 2^53) := by
  simp only [isSafeInteger,Rat.den_natCast,Rat.num_natCast,Nat.abs_cast,decide_true,Bool.true_and,
    decide_eq_decide]
  exact_mod_cast Iff.rfl

/-- No number from 2^53 on is rounded into the exact range. -/
theorem isSafeInteger_far {n : Nat} (far : 2^53 ≤ n) : (ofRational n).isSafeInteger = false := by
  have cast : (2 : ℚ)^53 ≤ |(n : ℚ)| := by
    rw [Nat.abs_cast]
    exact_mod_cast far
  have least : (2 : ℚ)^(-1022 : ℤ) ≤ 2^53 :=
    (zpow_le_one_of_nonpos₀ (by norm_num) (by norm_num)).trans (by norm_num)
  unfold ofRational
  split_ifs with infinite
  · rfl
  · exact absurd (least.trans cast) (not_le.mpr ‹_›)
  · have rounded := Doubles.nearest_far cast
    have integer (value : ℚ) (whole : value.den = 1) (beyond : 2^53 ≤ |value|) :
        2^53 ≤ |value.num| := by
      rw [← Rat.coe_int_num_of_den_eq_one whole] at beyond
      exact_mod_cast beyond
    cases safe : (finite (Doubles.nearest n)).isSafeInteger with
    | false => rfl
    | true =>
      simp only [isSafeInteger,Bool.and_eq_true,decide_eq_true_eq] at safe
      exact absurd (integer _ safe.1 rounded) (not_le.mpr safe.2)

end Number

section Trim

/-- What `trim` takes off: white space and line terminators. -/
def isBlank (unit : UInt16) : Bool :=
  let code := unit.toNat
  (9 ≤ code && code ≤ 13) || code = 32 || code = 0xA0 || code = 0x1680 ||
    (0x2000 ≤ code && code ≤ 0x200A) || code = 0x2028 || code = 0x2029 || code = 0x202F ||
    code = 0x205F || code = 0x3000 || code = 0xFEFF

def trim (s : JsString) : JsString := (s.dropWhile isBlank).rdropWhile isBlank

theorem trim_solid {s : JsString} (solid : ∀ unit ∈ s, isBlank unit = false) : trim s = s := by
  have front : s.dropWhile isBlank = s := by
    cases s with
    | nil => rfl
    | cons unit rest => simp [solid unit List.mem_cons_self]
  rw [trim,front,List.rdropWhile_eq_self_iff]
  intro filled blank
  exact absurd blank (by simp [solid _ (List.getLast_mem filled)])

end Trim

section Literals

def isDigit (unit : UInt16) : Bool := 48 ≤ unit && unit ≤ 57

/-- The sign in front of a text, where a plus may be given only if `signed` says so. -/
def splitSign (signed : Bool) : JsString → Bool × JsString
  | [] => (false,[])
  | unit :: rest =>
    if unit = 45 then (true,rest)
    else if signed && unit = 43 then (false,rest)
    else (false,unit :: rest)

/-- The digits behind a decimal point, and what is left. -/
def splitFraction : JsString → Option JsString × JsString
  | [] => (none,[])
  | unit :: rest => if unit = 46 then (some (rest.takeWhile isDigit),rest.dropWhile isDigit)
    else (none,unit :: rest)

/-- The exponent of a literal, and what is left; none where an `e` has no digits. -/
def splitExponent : JsString → Option (ℤ × JsString)
  | [] => some (0,[])
  | unit :: rest =>
    if unit = 101 || unit = 69 then
      let (negative,rest) := splitSign true rest
      let digits := rest.takeWhile isDigit
      if digits.isEmpty then none
      else some (if negative then -fixedValue 10 digits else fixedValue 10 digits,
        rest.dropWhile isDigit)
    else some (0,unit :: rest)

/-- The value of the digits before and behind the point with an exponent. -/
def literalValue (negative : Bool) (whole fraction : JsString) (exponent : ℤ) : Number :=
  let value : ℚ := fixedValue 10 (whole ++ fraction) * 10^(exponent - fraction.length)
  .ofRational (if negative then -value else value)

/-- A number in front of a JSON text. -/
def readJsonNumber (s : JsString) : Option (Number × JsString) :=
  let (negative,s) := splitSign false s
  let whole := s.takeWhile isDigit
  if whole.isEmpty || (whole.head? = some 48 && whole.length ≠ 1) then none
  else
    let (fraction,s) := splitFraction (s.dropWhile isDigit)
    if fraction = some [] then none
    else (splitExponent s).map fun (exponent,s) =>
      (literalValue negative whole (fraction.getD []) exponent,s)

/-- The value of a digit in either case. -/
def hexValue (unit : UInt16) : Option Nat :=
  let code := unit.toNat
  if 48 ≤ code ∧ code ≤ 57 then some (code - 48)
  else if 97 ≤ code ∧ code ≤ 102 then some (code - 87)
  else if 65 ≤ code ∧ code ≤ 70 then some (code - 55)
  else none

/-- The digits behind `0x`, `0o` or `0b`. -/
def radixValue (radix : Nat) (digits : JsString) : Number :=
  let value := digits.foldlM (fun (value : Nat) unit =>
    (hexValue unit).bind fun digit => if digit < radix then some (value * radix + digit) else none) 0
  match digits, value with
  | [], _ => .nan
  | _, none => .nan
  | _, some value => .ofRational value

/-- A decimal literal that makes up the whole text. -/
def readDecimal (s : JsString) : Number :=
  let (negative,s) := splitSign true s
  if s = js "Infinity" then .infinite negative
  else
    let whole := s.takeWhile isDigit
    let (fraction,s) := splitFraction (s.dropWhile isDigit)
    if (whole ++ fraction.getD []).isEmpty then .nan
    else match splitExponent s with
      | some (exponent,[]) => literalValue negative whole (fraction.getD []) exponent
      | _ => .nan

/-- `Number(text)` of a text without space around it. -/
def stringToNumber : JsString → Number
  | [] => .finite 0
  | 48 :: mark :: digits =>
    if mark = 120 || mark = 88 then radixValue 16 digits
    else if mark = 111 || mark = 79 then radixValue 8 digits
    else if mark = 98 || mark = 66 then radixValue 2 digits
    else readDecimal (48 :: mark :: digits)
  | s => readDecimal s

theorem isDigit_natDigits {n : Nat} (member : unit ∈ natDigits n) : isDigit unit = true := by
  have range := natDigits_digit member
  unfold isDigit
  simp only [Bool.and_eq_true,decide_eq_true_eq,UInt16.le_iff_toNat_le,UInt16.reduceToNat]
  exact range

theorem fixedValue_digitUnits {digits : List Char} (decimal : ∀ c ∈ digits, c.isDigit = true)
    (value : Nat) :
    (digits.map digitUnit).foldl (fun value unit => value * 10 + digitValue unit) value =
      Nat.ofDigitChars 10 digits value := by
  induction digits generalizing value with
  | nil => rfl
  | cons c rest ih =>
    obtain ⟨same,low,high⟩ := digitUnit_range (decimal c List.mem_cons_self)
    have digit : digitValue (digitUnit c) = c.toNat - 48 := by
      unfold digitValue
      rw [if_pos (UInt16.lt_iff_toNat_lt.mpr (by simp only [same,UInt16.reduceToNat]; omega)),same]
    rw [List.map_cons,List.foldl_cons,digit,
      ih (fun c member => decimal c (List.mem_cons_of_mem _ member)),Nat.ofDigitChars_cons]
    congr 1
    rw [Nat.mul_comm]
    rfl

theorem fixedValue_natDigits (n : Nat) : fixedValue 10 (natDigits n) = n := by
  unfold fixedValue natDigits
  rw [fixedValue_digitUnits fun c member =>
      Nat.isDigit_of_mem_toDigits (by decide) (by decide) member]
  exact Nat.ofDigitChars_ten_toDigits

theorem fixedValue_append (front back : JsString) : fixedValue 10 (front ++ back) =
    fixedValue 10 front * 10^back.length + fixedValue 10 back := by
  induction back using List.reverseRecOn with
  | nil => simp [fixedValue]
  | append_singleton back unit ih =>
    unfold fixedValue at ih ⊢
    rw [← List.append_assoc,List.foldl_append,ih,List.foldl_append,List.length_append,
      List.length_singleton,pow_succ]
    simp only [List.foldl_cons,List.foldl_nil]
    ring

theorem fixedValue_zeros (count : Nat) : fixedValue 10 (List.replicate count 48) = 0 := by
  induction count with
  | zero => rfl
  | succ count ih =>
    rw [List.replicate_succ',fixedValue_append,ih]
    rfl

/-- A printed number has no leading zero. -/
theorem toDigits_head {n : Nat} (positive : 0 < n) : (Nat.toDigits 10 n).head? ≠ some '0' := by
  induction n using Nat.strong_induction_on with
  | _ n ih =>
    by_cases small : n < 10
    · rw [Nat.toDigits_of_lt_base small]
      have digits : ∀ digit < 10, 0 < digit → Nat.digitChar digit ≠ '0' := by decide
      exact fun zero => digits n small positive (Option.some.inj zero)
    · rw [Nat.toDigits_of_base_le (by decide) (by omega),List.head?_append]
      have front := ih (n / 10) (by omega) (by omega)
      obtain ⟨digit,rest,digits⟩ := List.exists_cons_of_ne_nil (Nat.toDigits_ne_nil (b := 10) (n := n / 10))
      rw [digits] at front ⊢
      exact front

theorem natDigits_head (n : Nat) :
    ¬((natDigits n).head? = some 48 ∧ (natDigits n).length ≠ 1) := by
  rintro ⟨zero,long⟩
  rcases Nat.eq_zero_or_pos n with rfl | positive
  · exact long rfl
  · obtain ⟨digit,rest,digits⟩ := List.exists_cons_of_ne_nil (Nat.toDigits_ne_nil (b := 10) (n := n))
    have front := toDigits_head positive
    obtain ⟨same,-⟩ := digitUnit_range
      (Nat.isDigit_of_mem_toDigits (b := 10) (n := n) (c := digit) (by decide) (by decide)
        (by simp [digits]))
    rw [natDigits,digits,List.map_cons,List.head?_cons,Option.some.injEq] at zero
    rw [zero] at same
    rw [digits,List.head?_cons,ne_eq,Option.some.injEq] at front
    exact front (Char.ext (UInt32.toNat_inj.mp same.symm))

/-- A unit that may not go on with a whole number. -/
def EndsNumber : JsString → Prop
  | [] => True
  | unit :: _ => isDigit unit = false ∧ unit ≠ 46 ∧ unit ≠ 101 ∧ unit ≠ 69

theorem natDigits_span (n : Nat) {rest : JsString} (ends : EndsNumber rest) :
    (natDigits n ++ rest).takeWhile isDigit = natDigits n ∧
      (natDigits n ++ rest).dropWhile isDigit = rest := by
  have digits : ∀ unit ∈ natDigits n, isDigit unit = true := fun _ => isDigit_natDigits
  have left : rest.takeWhile isDigit = [] ∧ rest.dropWhile isDigit = rest := by
    cases rest with
    | nil => exact ⟨rfl,rfl⟩
    | cons unit rest => simp [ends.1]
  rw [List.takeWhile_append_of_pos digits,List.dropWhile_append_of_pos digits,left.1,left.2,
    List.append_nil]
  exact ⟨rfl,rfl⟩

theorem splitFraction_ends {rest : JsString} (ends : EndsNumber rest) :
    splitFraction rest = (none,rest) := by
  cases rest with
  | nil => rfl
  | cons unit rest => rw [splitFraction,if_neg ends.2.1]

theorem splitExponent_ends {rest : JsString} (ends : EndsNumber rest) :
    splitExponent rest = some (0,rest) := by
  cases rest with
  | nil => rfl
  | cons unit rest => rw [splitExponent,if_neg (by simp [ends.2.2.1,ends.2.2.2])]

/-- The digits of a number have no sign in front. -/
theorem splitSign_natDigits (signed : Bool) (n : Nat) (rest : JsString) :
    splitSign signed (natDigits n ++ rest) = (false,natDigits n ++ rest) := by
  obtain ⟨unit,digits,shown⟩ := List.exists_cons_of_ne_nil (natDigits_filled n)
  have range : 48 ≤ unit.toNat ∧ unit.toNat ≤ 57 := natDigits_digit (n := n) (by simp [shown])
  have minus : unit ≠ 45 := by rintro rfl; simp at range
  have plus : unit ≠ 43 := by rintro rfl; simp at range
  simp [shown,splitSign,minus,plus]

/-- A whole number reads back as the double it is rounded to. -/
theorem readJsonNumber_natDigits (n : Nat) {rest : JsString} (ends : EndsNumber rest) :
    readJsonNumber (natDigits n ++ rest) = some (.ofRational n,rest) := by
  obtain ⟨taken,dropped⟩ := natDigits_span n ends
  have plain : ((natDigits n).isEmpty ||
      ((natDigits n).head? = some 48 && (natDigits n).length ≠ 1)) = false := by
    have filled := natDigits_filled n
    have head := natDigits_head n
    simp_all
  have value : literalValue false (natDigits n) [] 0 = .ofRational n := by
    simp [literalValue,fixedValue_natDigits]
  unfold readJsonNumber
  simp only [splitSign_natDigits,taken,dropped,plain,splitFraction_ends ends,
    splitExponent_ends ends,Option.map_some,Option.getD_none,value]
  rfl

/-- `Number` reads a printed number back as the double it is rounded to. -/
theorem stringToNumber_natDigits (n : Nat) : stringToNumber (natDigits n) = .ofRational n := by
  have decimal : readDecimal (natDigits n) = .ofRational n := by
    have ends : EndsNumber [] := trivial
    obtain ⟨taken,dropped⟩ := natDigits_span n ends
    have sign := splitSign_natDigits true n []
    rw [List.append_nil] at taken dropped sign
    have infinity : natDigits n ≠ js "Infinity" := by
      intro same
      have first : (73 : UInt16) ∈ natDigits n := by rw [same]; decide
      exact absurd (isDigit_natDigits first) (by decide)
    have value : literalValue false (natDigits n) [] 0 = .ofRational n := by
      simp [literalValue,fixedValue_natDigits]
    simp [readDecimal,sign,infinity,taken,dropped,splitFraction,splitExponent,natDigits_filled,value]
  have head := natDigits_head n
  unfold stringToNumber
  split
  · exact absurd ‹_› (natDigits_filled n)
  · rename_i mark digits shown
    exact absurd (by simp [shown]) head
  · exact decimal

end Literals
end EcmaScript
