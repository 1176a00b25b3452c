import Mathlib.Data.Nat.Cast.Field
import Mathlib.Tactic.FieldSimp
import Mathlib.Tactic.Linarith
import Tonbankcard.JsNumbers

/-! Amounts of TBC as the SDK prints and reads them, and as the mobile app reads them. A printed
amount is rounded to its digits, half away from zero, and both readers agree where they accept. -/
namespace Tonbankcard.SdkAmount

open EcmaScript

section Source

def nanocoinsPerTbc : Nat := 10^9

def maxFixedDecimals : Nat := 100

/-- A `RangeError` is none. -/
def normalizeFixedDecimals : Number → Option Nat
  | .nan => some 0
  | .infinite _ => none
  | .finite decimals =>
    let digits := decimals.num.tdiv decimals.den
    if digits < 0 ∨ maxFixedDecimals < digits then none else some digits.toNat

/-- `padStart(digits, '0')`. -/
def padStart (digits : Nat) (text : JsString) : JsString :=
  List.replicate (digits - text.length) 48 ++ text

def formatTBC (nanocoins : ℤ) (decimals : Number) : Option JsString :=
  (normalizeFixedDecimals decimals).map fun digits =>
    let sign := if nanocoins < 0 then js "-" else []
    let absoluteNanocoins := nanocoins.natAbs
    if digits ≤ 9 then
      let roundingDivisor := 10^(9 - digits)
      let roundedUnits := (absoluteNanocoins + roundingDivisor / 2) / roundingDivisor
      if digits = 0 then sign ++ natDigits roundedUnits
      else
        let fractionalScale := 10^digits
        let whole := roundedUnits / fractionalScale
        let fraction := padStart digits (natDigits (roundedUnits % fractionalScale))
        sign ++ natDigits whole ++ 46 :: fraction
    else
      let whole := absoluteNanocoins / nanocoinsPerTbc
      let fraction := padStart 9 (natDigits (absoluteNanocoins % nanocoinsPerTbc)) ++
        List.replicate (digits - 9) 48
      sign ++ natDigits whole ++ 46 :: fraction

/-- `/^\+?(?:(\d+)(?:\.(\d*))?|\.(\d+))$/`: the whole part and the fractional part, with their
defaults. -/
def matchDecimalAmount (text : JsString) : Option (JsString × JsString) :=
  let unsigned := if text.head? = some 43 then text.tail else text
  let whole := unsigned.takeWhile isDigit
  match unsigned.dropWhile isDigit with
  | [] => if whole.isEmpty then none else some (whole,[])
  | point :: fraction =>
    if point = 46 ∧ fraction.all isDigit then
      if whole.isEmpty then if fraction.isEmpty then none else some (js "0",fraction)
      else some (whole,fraction)
    else none

/-- Whole coins and nine digits behind the point. -/
def nanocoinsOf (wholePart fractionalPart : JsString) : Nat :=
  fixedValue 10 wholePart * nanocoinsPerTbc +
    fixedValue 10 ((fractionalPart ++ List.replicate 9 48).take 9)

/-- An error is none. -/
def parseTBC (tbc : JsString) : Option Nat :=
  (matchDecimalAmount (trim tbc)).map fun (wholePart,fractionalPart) =>
    nanocoinsOf wholePart fractionalPart

/-- `/^\d+(\.\d{1,9})?$/`. -/
def isMobileAmount (trimmed : JsString) : Bool :=
  !(trimmed.takeWhile isDigit).isEmpty &&
    match trimmed.dropWhile isDigit with
    | [] => true
    | point :: fraction =>
      point = 46 && fraction.all isDigit && 1 ≤ fraction.length && fraction.length ≤ 9

/-- The parts of a split without a point are one, and the fraction has its default. -/
def parseDecimalToNanocoins (text : JsString) : Except JsString JsString :=
  let trimmed := trim text
  if trimmed = [] then .error (js "Empty amount")
  else if !isMobileAmount trimmed then .error (js "Invalid TBC amount: " ++ text)
  else
    let parts := trimmed.splitOn 46
    .ok (natDigits (nanocoinsOf (parts.getD 0 []) (parts.getD 1 [])))

end Source

section Decimals

/-- A decimal text; a fraction without digits has no point. -/
structure DecimalText where
  negative : Bool
  whole : JsString
  fraction : JsString
  filled : whole ≠ []
  wholeDigits : ∀ unit ∈ whole, isDigit unit = true
  fractionDigits : ∀ unit ∈ fraction, isDigit unit = true

namespace DecimalText

def text (t : DecimalText) : JsString :=
  (if t.negative then js "-" else []) ++ t.whole ++
    if t.fraction = [] then [] else 46 :: t.fraction

/-- The number of units of the last digit. -/
def units (t : DecimalText) : Nat := fixedValue 10 (t.whole ++ t.fraction)

def value (t : DecimalText) : ℚ :=
  (if t.negative then -1 else 1) * t.units / 10^t.fraction.length

end DecimalText

/-- A number with that many fractional digits nearest to another, half away from zero. -/
structure Rounded (q : ℚ) (digits : Nat) (value : ℚ) : Prop where
  whole : ∃ units : ℤ, value = units / 10^digits
  near : |q - value| ≤ 1 / 10^digits / 2
  away : |q - value| = 1 / 10^digits / 2 → |q| < |value|

theorem natDigits_length_le {value width : Nat} (positive : 0 < width) (small : value < 10^width) :
    (natDigits value).length ≤ width := by
  rw [natDigits,List.length_map]
  exact (Nat.length_toDigits_le_iff (by decide) positive).mpr small

theorem padStart_natDigits {value width : Nat} (positive : 0 < width) (small : value < 10^width) :
    (padStart width (natDigits value)).length = width ∧
      fixedValue 10 (padStart width (natDigits value)) = value ∧
      ∀ unit ∈ padStart width (natDigits value), isDigit unit = true := by
  have short := natDigits_length_le positive small
  refine ⟨?_,?_,?_⟩
  · simp only [padStart,List.length_append,List.length_replicate]
    omega
  · rw [padStart,fixedValue_append,fixedValue_zeros,fixedValue_natDigits,zero_mul,zero_add]
  · intro unit member
    rcases List.mem_append.mp member with zero | digit
    · rw [(List.mem_replicate.mp zero).2]
      decide
    · exact isDigit_natDigits digit

end Decimals

section Formatting

/-- The number of units of the last digit that an amount is rounded to. -/
def roundedUnits (digits amount : Nat) : Nat :=
  if digits ≤ 9 then (amount + 10^(9 - digits) / 2) / 10^(9 - digits)
  else amount * 10^(digits - 9)

theorem normalizeFixedDecimals_nat {digits : Nat} (small : digits ≤ 100) :
    normalizeFixedDecimals (.finite digits) = some digits := by
  have inside : digits ≤ maxFixedDecimals := small
  simp [normalizeFixedDecimals,inside]

/-- A printed whole part with digits behind the point. -/
def printed (negative : Bool) (whole : Nat) (fraction : JsString)
    (digits : ∀ unit ∈ fraction, isDigit unit = true) : DecimalText :=
  ⟨negative,natDigits whole,fraction,natDigits_filled whole,fun _ => isDigit_natDigits,digits⟩

theorem printed_units (negative : Bool) (whole : Nat) (fraction : JsString)
    (digits : ∀ unit ∈ fraction, isDigit unit = true) :
    (printed negative whole fraction digits).units =
      whole * 10^fraction.length + fixedValue 10 fraction := by
  rw [DecimalText.units,printed,fixedValue_append,fixedValue_natDigits]

theorem printed_text {nanocoins : ℤ} (whole : Nat) {fraction : JsString} (filled : fraction ≠ [])
    (digits : ∀ unit ∈ fraction, isDigit unit = true) :
    (if nanocoins < 0 then js "-" else []) ++ natDigits whole ++ 46 :: fraction =
      (printed (decide (nanocoins < 0)) whole fraction digits).text := by
  simp [DecimalText.text,printed,filled]

/-- The printed text. -/
theorem formatTBC_text (nanocoins : ℤ) {digits : Nat} (small : digits ≤ 100) :
    ∃ t : DecimalText, formatTBC nanocoins (.finite digits) = some t.text ∧
      t.negative = decide (nanocoins < 0) ∧ t.fraction.length = digits ∧
      t.units = roundedUnits digits nanocoins.natAbs := by
  rw [formatTBC,normalizeFixedDecimals_nat small,Option.map_some]
  simp only
  by_cases short : digits ≤ 9
  · rw [if_pos short]
    generalize rounding :
      (nanocoins.natAbs + 10^(9 - digits) / 2) / 10^(9 - digits) = rounded
    have target : roundedUnits digits nanocoins.natAbs = rounded := by
      rw [roundedUnits,if_pos short,rounding]
    by_cases none_ : digits = 0
    · subst none_
      refine ⟨printed (decide (nanocoins < 0)) rounded [] (by simp),?_,rfl,rfl,?_⟩
      · simp [DecimalText.text,printed]
      · rw [printed_units,target]
        simp [fixedValue]
    · rw [if_neg none_]
      obtain ⟨length,value,all⟩ := padStart_natDigits (Nat.pos_of_ne_zero none_)
        (Nat.mod_lt rounded (by positivity : 0 < 10^digits))
      have filled : padStart digits (natDigits (rounded % 10^digits)) ≠ [] := by
        intro empty
        rw [empty] at length
        exact none_ length.symm
      refine ⟨printed (decide (nanocoins < 0)) (rounded / 10^digits) _ all,?_,rfl,length,?_⟩
      · rw [← printed_text _ filled]
      · rw [printed_units,length,value,target,Nat.mul_comm]
        exact Nat.div_add_mod rounded (10^digits)
  · rw [if_neg short]
    obtain ⟨length,value,all⟩ := padStart_natDigits (by decide : 0 < 9)
      (Nat.mod_lt nanocoins.natAbs (by decide : 0 < 10^9))
    have all : ∀ unit ∈ padStart 9 (natDigits (nanocoins.natAbs % nanocoinsPerTbc)) ++
        List.replicate (digits - 9) 48, isDigit unit = true := by
      intro unit member
      rcases List.mem_append.mp member with front | zero
      · exact all unit front
      · rw [(List.mem_replicate.mp zero).2]
        decide
    refine ⟨printed (decide (nanocoins < 0)) (nanocoins.natAbs / nanocoinsPerTbc) _ all,?_,rfl,?_,?_⟩
    · rw [← printed_text _ (by simp; omega)]
    · change (_ ++ _ : JsString).length = digits
      rw [List.length_append,List.length_replicate,nanocoinsPerTbc,length]
      omega
    · have scale : 10^digits = 10^9 * 10^(digits - 9) := by
        rw [← pow_add]
        congr 1
        omega
      have parts := Nat.div_add_mod nanocoins.natAbs (10^9)
      have width : 9 + (digits - 9) = digits := by omega
      rw [printed_units,fixedValue_append,fixedValue_zeros,List.length_append,List.length_replicate,
        nanocoinsPerTbc,length,value,width,scale,roundedUnits,if_neg short]
      calc
        _ = (10^9 * (nanocoins.natAbs / 10^9) + nanocoins.natAbs % 10^9) * 10^(digits - 9) := by
          ring
        _ = nanocoins.natAbs * 10^(digits - 9) := by rw [parts]

/-- The units leave less than half a unit, or are half a unit too many at most. -/
theorem roundedUnits_near {digits : Nat} (short : digits ≤ 9) (amount : Nat) :
    2 * amount < (2 * roundedUnits digits amount + 1) * 10^(9 - digits) ∧
      2 * roundedUnits digits amount * 10^(9 - digits) ≤ 2 * amount + 10^(9 - digits) := by
  rw [roundedUnits,if_pos short]
  have positive : 0 < 10^(9 - digits) := by positivity
  have even : 10^(9 - digits) = 1 ∨ 2 ∣ 10^(9 - digits) := by
    cases 9 - digits with
    | zero => exact .inl rfl
    | succ exponent => exact .inr (Dvd.dvd.mul_left (show 2 ∣ 10 by decide) _)
  generalize 10^(9 - digits) = divisor at positive even
  have below := Nat.div_mul_le_self (amount + divisor / 2) divisor
  have above := Nat.lt_div_mul_add positive (a := amount + divisor / 2)
  generalize (amount + divisor / 2) / divisor = units at below above
  rw [Nat.add_mul,Nat.mul_assoc,Nat.one_mul]
  rcases even with rfl | even <;> omega

/-- The same of the values, and what is exact from nine digits on. -/
theorem roundedUnits_value (digits amount : Nat) :
    |(amount : ℚ) / 10^9 - roundedUnits digits amount / 10^digits| ≤ 1 / 10^digits / 2 ∧
      (|(amount : ℚ) / 10^9 - roundedUnits digits amount / 10^digits| = 1 / 10^digits / 2 →
        (amount : ℚ) / 10^9 < roundedUnits digits amount / 10^digits) := by
  have unit : (0 : ℚ) < 1 / 10^digits := by positivity
  by_cases short : digits ≤ 9
  · obtain ⟨below,above⟩ := roundedUnits_near short amount
    have scale : (10 : ℚ)^9 = 10^(9 - digits) * 10^digits := by
      rw [← pow_add]
      congr 1
      omega
    have small : (2 * amount : ℚ) < (2 * roundedUnits digits amount + 1) * 10^(9 - digits) := by
      exact_mod_cast below
    have large : (2 * roundedUnits digits amount * 10^(9 - digits) : ℚ) ≤
        2 * amount + 10^(9 - digits) := by exact_mod_cast above
    generalize roundedUnits digits amount = units at small large
    have part : (0 : ℚ) < 10^(9 - digits) := by positivity
    have whole : (0 : ℚ) < 10^digits := by positivity
    have less : (amount : ℚ) / 10^(9 - digits) < units + 1 / 2 := by
      rw [div_lt_iff₀ part]
      linarith
    have most : (units : ℚ) ≤ amount / 10^(9 - digits) + 1 / 2 := by
      have divided : (units : ℚ) - 1 / 2 ≤ amount / 10^(9 - digits) := by
        rw [le_div_iff₀ part]
        linarith
      linarith
    rw [scale,← div_div,← sub_div,abs_div,abs_of_pos whole,div_right_comm 1]
    generalize (amount : ℚ) / 10^(9 - digits) = exact_ at less most
    constructor
    · rw [div_le_div_iff_of_pos_right whole,abs_le]
      constructor <;> linarith
    · intro tie
      rcases (abs_eq (by norm_num)).mp ((div_left_inj' whole.ne').mp tie) with up | down
      · linarith
      · exact div_lt_div_of_pos_right (by linarith) whole
  · have exact_ : (amount : ℚ) / 10^9 = roundedUnits digits amount / 10^digits := by
      have scale : (10 : ℚ)^digits = 10^9 * 10^(digits - 9) := by
        rw [← pow_add]
        congr 1
        omega
      rw [roundedUnits,if_neg short,Nat.cast_mul,Nat.cast_pow,scale]
      push_cast
      rw [mul_div_mul_right _ _ (by positivity)]
    rw [exact_,sub_self,abs_zero]
    refine ⟨by positivity,fun tie => ?_⟩
    linarith

theorem rounded_text {nanocoins : ℤ} {digits : Nat} {t : DecimalText}
    (negative : t.negative = decide (nanocoins < 0)) (length : t.fraction.length = digits)
    (units : t.units = roundedUnits digits nanocoins.natAbs) :
    Rounded (nanocoins / 10^9) digits t.value := by
  obtain ⟨near,away⟩ := roundedUnits_value digits nanocoins.natAbs
  have value : t.value = (if nanocoins < 0 then -1 else 1) *
      (roundedUnits digits nanocoins.natAbs / 10^digits) := by
    rw [DecimalText.value,negative,length,units,mul_div_assoc]
    simp
  have amount : (nanocoins : ℚ) / 10^9 = (if nanocoins < 0 then -1 else 1) *
      ((nanocoins.natAbs : ℚ) / 10^9) := by
    have magnitude : (nanocoins.natAbs : ℚ) = |(nanocoins : ℚ)| := by
      rw [Nat.cast_natAbs,Int.cast_abs]
    rw [magnitude]
    split
    · rename_i below
      rw [abs_of_neg (by exact_mod_cast below)]
      ring
    · rename_i above
      rw [abs_of_nonneg (by exact_mod_cast not_lt.mp above)]
      ring
  have side : |if nanocoins < 0 then (-1 : ℚ) else 1| = 1 := by split <;> simp
  refine ⟨⟨(if nanocoins < 0 then -1 else 1) * roundedUnits digits nanocoins.natAbs,?_⟩,?_,?_⟩
  · rw [value]
    push_cast
    ring
  · rw [value,amount,← mul_sub,abs_mul,side,one_mul]
    exact near
  · rw [value,amount,← mul_sub,abs_mul,abs_mul,abs_mul,side,one_mul,one_mul,one_mul,
      abs_of_nonneg (show (0 : ℚ) ≤ nanocoins.natAbs / 10^9 by positivity),
      abs_of_nonneg (show (0 : ℚ) ≤ roundedUnits digits nanocoins.natAbs / 10^digits by positivity)]
    exact away

end Formatting

section Parsing

theorem isBlank_visible {unit : UInt16} (low : 33 ≤ unit.toNat) (high : unit.toNat ≤ 126) :
    isBlank unit = false := by
  simp only [isBlank,Bool.or_eq_false_iff,Bool.and_eq_false_iff,decide_eq_false_iff_not]
  omega

theorem isDigit_range {unit : UInt16} (digit : isDigit unit = true) :
    48 ≤ unit.toNat ∧ unit.toNat ≤ 57 := by
  simpa [isDigit,UInt16.le_iff_toNat_le] using digit

theorem trim_text (t : DecimalText) : trim t.text = t.text := by
  refine trim_solid fun unit member => ?_
  have visible : unit = 45 ∨ unit = 46 ∨ isDigit unit = true := by
    simp only [DecimalText.text,List.mem_append] at member
    rcases member with (sign | whole) | fraction
    · split at sign
      · exact .inl (List.mem_singleton.mp sign)
      · simp at sign
    · exact .inr (.inr (t.wholeDigits unit whole))
    · split at fraction
      · simp at fraction
      · rcases List.mem_cons.mp fraction with point | digit
        · exact .inr (.inl point)
        · exact .inr (.inr (t.fractionDigits unit digit))
  rcases visible with rfl | rfl | digit
  · decide
  · decide
  · have range := isDigit_range digit
    exact isBlank_visible (by omega) (by omega)

theorem isDigit_span {digits : JsString} (rest : JsString)
    (all : ∀ unit ∈ digits, isDigit unit = true) (ends : ∀ unit ∈ rest.head?, isDigit unit = false) :
    (digits ++ rest).takeWhile isDigit = digits ∧ (digits ++ rest).dropWhile isDigit = rest := by
  rw [List.takeWhile_append_of_pos all,List.dropWhile_append_of_pos all]
  cases rest with
  | nil => simp
  | cons unit rest => simp [ends unit rfl]

theorem matchDecimalAmount_text {t : DecimalText} (positive : t.negative = false) :
    matchDecimalAmount t.text = some (t.whole,t.fraction) := by
  have shape : t.text = t.whole ++ if t.fraction = [] then [] else 46 :: t.fraction := by
    simp [DecimalText.text,positive]
  obtain ⟨taken,dropped⟩ := isDigit_span (if t.fraction = [] then [] else 46 :: t.fraction)
    t.wholeDigits (by split <;> simp [isDigit])
  have unsigned : ¬t.text.head? = some 43 := by
    obtain ⟨first,rest,whole⟩ := List.exists_cons_of_ne_nil t.filled
    have digit := t.wholeDigits first (by simp [whole])
    rw [shape,whole,List.cons_append,List.head?_cons,Option.some.injEq]
    rintro rfl
    simp [isDigit] at digit
  rw [matchDecimalAmount,if_neg unsigned,shape]
  simp only [taken,dropped]
  have filled := t.filled
  have all := t.fractionDigits
  by_cases bare : t.fraction = []
  · simp [bare,filled]
  · simp only [if_neg bare,true_and,List.all_eq_true]
    rw [if_pos all,if_neg (by simpa using filled)]

/-- A text denotes one decimal. -/
theorem DecimalText.text_injective : Function.Injective DecimalText.text := by
  have unsigned (t : DecimalText) : t.text =
      (if t.negative then js "-" else []) ++ DecimalText.text {t with negative := false} := by
    simp [text]
  have first (t : DecimalText) : (DecimalText.text {t with negative := false}).head? ≠ some 45 := by
    obtain ⟨unit,rest,whole⟩ := List.exists_cons_of_ne_nil t.filled
    have digit := t.wholeDigits unit (by simp [whole])
    simp only [text,whole,Bool.false_eq_true,if_false,List.nil_append,List.cons_append,
      List.head?_cons,ne_eq,Option.some.injEq]
    rintro rfl
    simp [isDigit] at digit
  intro t other same
  have sign : t.negative = other.negative := by
    rw [unsigned,unsigned other] at same
    have front := congrArg List.head? same
    cases left : t.negative <;> cases right : other.negative
    · rfl
    · rw [left,right] at front
      exact absurd front (first t)
    · rw [left,right] at front
      exact absurd front.symm (first other)
    · rfl
  rw [unsigned,unsigned other,sign] at same
  have read := congrArg matchDecimalAmount (List.append_cancel_left same)
  rw [matchDecimalAmount_text rfl,matchDecimalAmount_text rfl] at read
  obtain ⟨negative,whole,fraction,_,_,_⟩ := t
  obtain ⟨otherNegative,otherWhole,otherFraction,_,_,_⟩ := other
  simp only [Option.some.injEq,Prod.mk.injEq] at read sign
  obtain ⟨rfl,rfl⟩ := read
  subst sign
  rfl

theorem parseTBC_text {t : DecimalText} (positive : t.negative = false) :
    parseTBC t.text = some (nanocoinsOf t.whole t.fraction) := by
  rw [parseTBC,trim_text,matchDecimalAmount_text positive]
  rfl

theorem fixedValue_lt {digits : JsString} (all : ∀ unit ∈ digits, isDigit unit = true) :
    fixedValue 10 digits < 10^digits.length := by
  induction digits using List.reverseRecOn with
  | nil => decide
  | append_singleton digits unit ih =>
    have range := isDigit_range (all unit (by simp))
    have front := ih fun other member => all other (List.mem_append_left _ member)
    have last : fixedValue 10 [unit] ≤ 9 := by
      have value : fixedValue 10 [unit] = digitValue unit := by simp [fixedValue]
      rw [value,digitValue]
      split
      · omega
      · rename_i letter
        exact absurd (UInt16.lt_iff_toNat_lt.mpr (by simp only [UInt16.reduceToNat]; omega)) letter
    rw [fixedValue_append,List.length_append,List.length_singleton,pow_succ]
    omega

/-- The nanocoins of a decimal, whose digits behind the ninth are dropped. -/
theorem nanocoinsOf_units {whole fraction : JsString}
    (digits : ∀ unit ∈ fraction, isDigit unit = true) :
    nanocoinsOf whole fraction =
      fixedValue 10 (whole ++ fraction) * 10^9 / 10^fraction.length := by
  rw [nanocoinsOf,nanocoinsPerTbc,fixedValue_append]
  by_cases short : fraction.length ≤ 9
  · have padded : (fraction ++ List.replicate 9 48).take 9 =
        fraction ++ List.replicate (9 - fraction.length) 48 := by
      rw [List.take_append,List.take_of_length_le short,List.take_replicate]
      congr 2
      omega
    have scale : 10^9 = 10^(9 - fraction.length) * 10^fraction.length := by
      rw [← pow_add]
      congr 1
      omega
    rw [padded,fixedValue_append,fixedValue_zeros,List.length_replicate]
    symm
    apply Nat.div_eq_of_eq_mul_left (by positivity)
    calc
      _ = (fixedValue 10 whole * 10^fraction.length + fixedValue 10 fraction) *
          (10^(9 - fraction.length) * 10^fraction.length) := by rw [← scale]
      _ = (fixedValue 10 whole * (10^(9 - fraction.length) * 10^fraction.length) +
          (fixedValue 10 fraction * 10^(9 - fraction.length) + 0)) * 10^fraction.length := by ring
      _ = _ := by rw [← scale]
  · have cut : (fraction ++ List.replicate 9 48).take 9 = fraction.take 9 := by
      rw [List.take_append_of_le_length (by omega)]
    have parts : fixedValue 10 fraction = fixedValue 10 (fraction.take 9) *
        10^(fraction.length - 9) + fixedValue 10 (fraction.drop 9) := by
      rw [← List.length_drop,← fixedValue_append,List.take_append_drop]
    have dropped : ∀ unit ∈ fraction.drop 9, isDigit unit = true := fun unit member =>
      digits unit (List.mem_of_mem_drop member)
    have rest := fixedValue_lt dropped
    rw [List.length_drop] at rest
    have scale : 10^fraction.length = 10^(fraction.length - 9) * 10^9 := by
      rw [← pow_add]
      congr 1
      omega
    rw [cut,parts,scale,Nat.mul_div_mul_right _ _ (by positivity)]
    generalize 10^(fraction.length - 9) = weight at rest
    symm
    calc
      _ = (fixedValue 10 (fraction.drop 9) +
          (fixedValue 10 whole * 10^9 + fixedValue 10 (fraction.take 9)) * weight) / weight := by
        congr 1
        ring
      _ = _ := by
        rw [Nat.add_mul_div_right _ _ (by omega),Nat.div_eq_of_lt rest,Nat.zero_add]

theorem mobile_parts {trimmed : JsString} (accepted : isMobileAmount trimmed = true) :
    matchDecimalAmount trimmed =
      some ((trimmed.splitOn 46).getD 0 [],(trimmed.splitOn 46).getD 1 []) := by
  have parts : trimmed = trimmed.takeWhile isDigit ++ trimmed.dropWhile isDigit :=
    List.takeWhile_append_dropWhile.symm
  have whole : ∀ unit ∈ trimmed.takeWhile isDigit, isDigit unit = true :=
    fun unit => List.mem_takeWhile_imp
  have point : ∀ {digits : JsString}, (∀ unit ∈ digits, isDigit unit = true) → 46 ∉ digits :=
    fun all member => absurd (all 46 member) (by decide)
  have unsigned : ¬trimmed.head? = some 43 := by
    intro sign
    cases trimmed with
    | nil => simp at sign
    | cons unit rest =>
      obtain rfl := Option.some.inj sign
      simp [isMobileAmount,isDigit] at accepted
  simp only [isMobileAmount,Bool.and_eq_true,Bool.not_eq_true'] at accepted
  rw [matchDecimalAmount,if_neg unsigned]
  cases rest : trimmed.dropWhile isDigit with
  | nil =>
    rw [rest,List.append_nil] at parts
    have split : trimmed.splitOn 46 = [trimmed] :=
      List.splitOn_eq_singleton (parts ▸ point whole)
    rw [split,← parts]
    rw [← parts] at accepted
    simp [accepted.1]
  | cons unit fraction =>
    rw [rest] at accepted parts
    simp only [Bool.and_eq_true,decide_eq_true_eq,List.all_eq_true] at accepted
    obtain ⟨filled,⟨⟨rfl,all⟩,_⟩,_⟩ := accepted
    have split : trimmed.splitOn 46 = [trimmed.takeWhile isDigit,fraction] := by
      conv_lhs => rw [parts]
      rw [List.splitOn_append_cons_self_of_not_mem (point whole),
        List.splitOn_eq_singleton (point all)]
    rw [split]
    simp only [true_and,List.all_eq_true]
    rw [if_pos all,if_neg (by simp [filled])]
    rfl

/-- What the units of an amount are read back to. -/
theorem roundedUnits_read (digits amount : Nat) :
    (9 ≤ digits → roundedUnits digits amount * 10^9 / 10^digits = amount) ∧
      |((roundedUnits digits amount * 10^9 / 10^digits : Nat) : ℚ) - amount| ≤
        10^9 / 10^digits / 2 := by
  have whole : 9 ≤ digits → roundedUnits digits amount * 10^9 / 10^digits = amount := by
    intro long
    have units : roundedUnits digits amount = amount * 10^(digits - 9) := by
      unfold roundedUnits
      split
      · obtain rfl : digits = 9 := by omega
        simp
      · rfl
    have scale : 10^digits = 10^(digits - 9) * 10^9 := by
      rw [← pow_add]
      congr 1
      omega
    rw [units,scale,Nat.mul_assoc]
    exact Nat.mul_div_cancel _ (by positivity)
  refine ⟨whole,?_⟩
  by_cases long : 9 ≤ digits
  · rw [whole long,sub_self,abs_zero]
    positivity
  · obtain ⟨near,-⟩ := roundedUnits_value digits amount
    have divides : 10^digits ∣ roundedUnits digits amount * 10^9 :=
      Dvd.dvd.mul_left (pow_dvd_pow 10 (by omega)) _
    have apart : ((roundedUnits digits amount * 10^9 / 10^digits : Nat) : ℚ) - amount =
        -(amount / 10^9 - roundedUnits digits amount / 10^digits) * 10^9 := by
      rw [Nat.cast_div divides (by positivity)]
      push_cast
      field_simp
      ring
    rw [apart,abs_mul,abs_neg,abs_of_pos (show (0 : ℚ) < 10^9 by positivity)]
    calc
      _ ≤ 1 / 10^digits / 2 * 10^9 := mul_le_mul_of_nonneg_right near (by positivity)
      _ = _ := by ring

/-- Printed amounts are rounded, and read back up to half a unit of the last digit; what the mobile
app accepts is read alike. -/
theorem amounts_roundtrip :
    (∀ (nanocoins : ℤ) (digits : Nat), digits ≤ 100 →
      ∃ t : DecimalText, formatTBC nanocoins (.finite digits) = some t.text ∧
        t.fraction.length = digits ∧ Rounded (nanocoins / 10^9) digits t.value ∧
        (0 ≤ nanocoins → ∃ parsed, parseTBC t.text = some parsed ∧
          (9 ≤ digits → (parsed : ℤ) = nanocoins) ∧
          |(parsed : ℚ) - nanocoins| ≤ 10^9 / 10^digits / 2)) ∧
    ∀ (text value : JsString), parseDecimalToNanocoins text = .ok value →
      ∃ parsed, parseTBC text = some parsed ∧ value = natDigits parsed := by
  constructor
  · intro nanocoins digits small
    obtain ⟨t,text,negative,length,units⟩ := formatTBC_text nanocoins small
    refine ⟨t,text,length,rounded_text negative length units,fun positive => ?_⟩
    have unsigned : t.negative = false := by rw [negative,decide_eq_false (not_lt.mpr positive)]
    have amount : (nanocoins.natAbs : ℤ) = nanocoins := Int.natAbs_of_nonneg positive
    refine ⟨_,parseTBC_text unsigned,?_⟩
    rw [nanocoinsOf_units t.fractionDigits,← DecimalText.units,units,length]
    obtain ⟨exact_,near⟩ := roundedUnits_read digits nanocoins.natAbs
    refine ⟨fun long => by rw [exact_ long,amount],?_⟩
    have cast : (nanocoins : ℚ) = nanocoins.natAbs := by rw [← Int.cast_natCast,amount]
    rw [cast]
    exact near
  · intro text value accepted
    unfold parseDecimalToNanocoins at accepted
    simp only at accepted
    split at accepted
    · simp at accepted
    split at accepted
    · simp at accepted
    rename_i filled form
    have read := mobile_parts (by simpa using form)
    refine ⟨_,by rw [parseTBC,read]; rfl,?_⟩
    exact (Except.ok.inj accepted).symm

theorem amounts_roundtrip_sample :
    (∃ t : DecimalText, formatTBC 12345678905 (.finite (2 : Nat)) = some t.text ∧
      t.fraction.length = 2 ∧ Rounded ((12345678905 : ℤ) / 10^9) 2 t.value) ∧
    ∃ parsed, parseTBC (js " 1.5") = some parsed ∧ js "1500000000" = natDigits parsed := by
  obtain ⟨t,text,length,rounded,_⟩ := amounts_roundtrip.1 12345678905 2 (by decide)
  exact ⟨⟨t,text,length,rounded⟩,amounts_roundtrip.2 (js " 1.5") _ (by decide +kernel)⟩

end Parsing

end Tonbankcard.SdkAmount
