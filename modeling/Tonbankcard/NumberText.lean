import Tonbankcard.JsNumbers

/-! The shortest decimal text of a double, as `String` and `JSON.stringify` print numbers. The text
of a double is read back as that double. -/
namespace EcmaScript

namespace Number

section Doubles

/-- The weight of the last digit of a double next to a value. -/
def lastExponent (q : ℚ) : ℤ := max (Int.log 2 |q| - 52) (-1074)

def IsDouble (q : ℚ) : Prop :=
  ∃ significand exponent : ℤ, |significand| < 2^53 ∧ -1074 ≤ exponent ∧ exponent ≤ 971 ∧
    q = significand * 2^exponent

def overflow : ℚ := (2^54 - 1) * 2^970

/-- Both kinds of doubles are rounded the same way, with the weight of their last digit. -/
theorem ofRational_eq {q : ℚ} (small : |q| < overflow) : ofRational q =
    .finite (Doubles.roundHalfEven (q / 2^lastExponent q) * 2^lastExponent q) := by
  have finite : ¬(2^54 - 1) * 2^970 ≤ |q| := not_le.mpr small
  unfold ofRational
  rw [if_neg finite]
  by_cases zero : q = 0
  · subst zero
    rw [if_pos (by rw [abs_zero]; exact zpow_pos (by norm_num) _),zero_div,zero_div]
    simp [Doubles.roundHalfEven]
  have positive : 0 < |q| := abs_pos.mpr zero
  split
  · rename_i tiny
    have log := (Int.lt_zpow_iff_log_lt (b := 2) (by norm_num) positive).mp tiny
    have last : lastExponent q = -1074 := by
      unfold lastExponent
      omega
    rw [last]
  · rename_i normal
    have log := (Int.zpow_le_iff_le_log (b := 2) (by norm_num) positive).mp (not_lt.mp normal)
    have last : lastExponent q = Int.log 2 |q| - 52 := by
      unfold lastExponent
      omega
    rw [Doubles.nearest,if_neg zero,last,Doubles.unit]

theorem lastExponent_le {q : ℚ} (small : |q| < overflow) : lastExponent q ≤ 971 := by
  have bound : overflow < 2^(1024 : ℤ) := by
    have weight : (0 : ℚ) < 2^970 := pow_pos (by norm_num) _
    calc overflow < 2^54 * 2^970 := mul_lt_mul_of_pos_right (by norm_num) weight
      _ = 2^1024 := (pow_add (2 : ℚ) 54 970).symm
      _ = 2^(1024 : ℤ) := (zpow_natCast (2 : ℚ) 1024).symm
  rcases eq_or_ne q 0 with rfl | nonzero
  · simp [lastExponent]
  have log := (Int.lt_zpow_iff_log_lt (b := 2) (by norm_num) (abs_pos.mpr nonzero)).mp
    (small.trans bound)
  unfold lastExponent
  omega

theorem roundHalfEven_lt {q : ℚ} {n : ℤ} (below : q < n + 1 / 2) : Doubles.roundHalfEven q ≤ n := by
  have floor := Int.lt_floor_add_one q
  have under := Int.floor_le q
  rcases lt_trichotomy ⌊q⌋ n with less | same | more
  · unfold Doubles.roundHalfEven
    split_ifs <;> omega
  · unfold Doubles.roundHalfEven
    rw [same,if_pos (by linarith)]
  · have cast : (n : ℚ) + 1 ≤ ⌊q⌋ := by exact_mod_cast more
    linarith

theorem roundHalfEven_gt {q : ℚ} {n : ℤ} (above : (n : ℚ) - 1 / 2 < q) :
    n ≤ Doubles.roundHalfEven q := by
  have floor := Int.lt_floor_add_one q
  rcases lt_trichotomy ⌊q⌋ (n - 1) with less | same | more
  · have cast : (⌊q⌋ : ℚ) + 1 ≤ n - 1 := by exact_mod_cast less
    linarith
  · have cast : (⌊q⌋ : ℚ) = n - 1 := by rw [same]; push_cast; ring
    unfold Doubles.roundHalfEven
    rw [if_neg (by rw [cast]; linarith),if_pos (by rw [cast]; linarith)]
    omega
  · unfold Doubles.roundHalfEven
    split_ifs <;> omega

/-- What a value is rounded to is a double. -/
theorem isDouble_ofRational {q r : ℚ} (rounds : ofRational q = .finite r) : IsDouble r := by
  by_cases small : |q| < overflow
  swap
  · have large : (2^54 - 1) * 2^970 ≤ |q| := not_lt.mp small
    unfold ofRational at rounds
    rw [if_pos large] at rounds
    cases rounds
  rw [ofRational_eq small,finite.injEq] at rounds
  have high := lastExponent_le small
  have low : -1074 ≤ lastExponent q := le_max_right _ _
  set exponent := lastExponent q with lastOf
  have weight : (0 : ℚ) < 2^exponent := zpow_pos (by norm_num) _
  have digits : |q / 2^exponent| ≤ 2^53 := by
    rw [abs_div,abs_of_pos weight,div_le_iff₀ weight]
    rcases eq_or_ne q 0 with rfl | nonzero
    · rw [abs_zero]
      positivity
    have power := (Int.lt_zpow_succ_log_self (b := 2) (by norm_num) |q|).le
    refine power.trans ?_
    rw [← zpow_natCast,← zpow_add₀ (by norm_num)]
    refine zpow_le_zpow_right₀ (by norm_num) ?_
    have : Int.log 2 |q| - 52 ≤ exponent := le_max_left _ _
    push_cast
    omega
  have range : |Doubles.roundHalfEven (q / 2^exponent)| ≤ 2^53 := by
    rw [abs_le] at digits ⊢
    constructor
    · refine Doubles.le_roundHalfEven ?_
      push_cast
      exact digits.1
    · refine Doubles.roundHalfEven_le ?_
      push_cast
      exact digits.2
  rcases range.lt_or_eq with less | full
  · exact ⟨_,exponent,less,low,high,rounds.symm⟩
  -- the digits were rounded up to the next power of two
  have room : exponent ≠ 971 := by
    intro last
    have bound : |q / 2^exponent| < 2^53 - 1 / 2 := by
      rw [abs_div,abs_of_pos weight,div_lt_iff₀ weight]
      have split : (2^53 - 1 / 2) * (2 : ℚ)^exponent = overflow := by
        have top : (2 : ℚ)^(971 : ℤ) = 2^970 * 2 := (zpow_natCast 2 971).trans (pow_succ 2 970)
        rw [last,overflow,top]
        generalize (2 : ℚ)^970 = unit
        ring
      rw [split]
      exact small
    rw [abs_lt] at bound
    have above : Doubles.roundHalfEven (q / 2^exponent) ≤ 2^53 - 1 :=
      roundHalfEven_lt (by push_cast; linarith [bound.2])
    have below : -(2^53 - 1) ≤ Doubles.roundHalfEven (q / 2^exponent) :=
      roundHalfEven_gt (by push_cast; linarith [bound.1])
    have := abs_le.mpr ⟨below,above⟩
    omega
  have next : (2 : ℚ)^(exponent + 1) = 2^exponent * 2 := zpow_add_one₀ (by norm_num) exponent
  rcases abs_eq (by norm_num) |>.mp full with up | down
  · refine ⟨2^52,exponent + 1,by norm_num,by omega,by omega,?_⟩
    rw [← rounds,up,next]
    push_cast
    ring
  · refine ⟨-2^52,exponent + 1,by norm_num,by omega,by omega,?_⟩
    rw [← rounds,down,next]
    push_cast
    ring

theorem roundHalfEven_neg (q : ℚ) : Doubles.roundHalfEven (-q) = -Doubles.roundHalfEven q := by
  by_cases whole : q = ⌊q⌋
  · rw [whole,Doubles.roundHalfEven_int,← Int.cast_neg,Doubles.roundHalfEven_int]
  have under : (⌊q⌋ : ℚ) < q := (Int.floor_le q).lt_of_ne fun same => whole same.symm
  have above := Int.lt_floor_add_one q
  have floor : ⌊-q⌋ = -⌊q⌋ - 1 := by
    rw [Int.floor_eq_iff]
    push_cast
    constructor <;> linarith
  have rest : -q - ⌊-q⌋ = 1 - (q - ⌊q⌋) := by
    rw [floor]
    push_cast
    ring
  unfold Doubles.roundHalfEven
  rw [rest,floor]
  generalize q - ⌊q⌋ = part
  rcases lt_trichotomy part (1 / 2) with less | rfl | more
  · rw [if_pos less,if_neg (show ¬1 - part < 1 / 2 by linarith),
      if_pos (show 1 / 2 < 1 - part by linarith)]
    omega
  · have half : ¬(1 : ℚ) / 2 < 1 / 2 := lt_irrefl _
    rw [show (1 : ℚ) - 1 / 2 = 1 / 2 by norm_num,if_neg half,if_neg half,if_neg half,if_neg half]
    split_ifs <;> omega
  · rw [if_neg (show ¬part < 1 / 2 by linarith),if_pos more,if_pos (show 1 - part < 1 / 2 by linarith)]
    omega

/-- Rounding does not depend on the sign. -/
theorem ofRational_neg {q r : ℚ} (rounds : ofRational q = .finite r) :
    ofRational (-q) = .finite (-r) := by
  have small : |q| < overflow := by
    by_contra large
    have large : (2^54 - 1) * 2^970 ≤ |q| := not_lt.mp large
    unfold ofRational at rounds
    rw [if_pos large] at rounds
    cases rounds
  have last : lastExponent (-q) = lastExponent q := by rw [lastExponent,lastExponent,abs_neg]
  rw [ofRational_eq small,finite.injEq] at rounds
  rw [ofRational_eq (by rwa [abs_neg]),last,neg_div,roundHalfEven_neg,← rounds,Int.cast_neg,neg_mul]

/-- A double is rounded to itself. -/
theorem ofRational_double {q : ℚ} (double : IsDouble q) : ofRational q = .finite q := by
  obtain ⟨significand,exponent,few,low,high,rfl⟩ := double
  have weight : (0 : ℚ) < 2^exponent := zpow_pos (by norm_num) _
  have cast : |(significand : ℚ)| ≤ 2^53 - 1 := by exact_mod_cast Int.le_sub_one_of_lt few
  have size : |(significand : ℚ) * 2^exponent| ≤ (2^53 - 1) * 2^exponent := by
    rw [abs_mul,abs_of_pos weight]
    exact mul_le_mul_of_nonneg_right cast weight.le
  have small : |(significand : ℚ) * 2^exponent| < overflow := by
    refine size.trans_lt ?_
    have top : (2 : ℚ)^exponent ≤ 2^971 := by
      rw [← zpow_natCast]
      exact zpow_le_zpow_right₀ (by norm_num) (by exact_mod_cast high)
    have unit : (0 : ℚ) < 2^970 := pow_pos (by norm_num) _
    calc (2^53 - 1) * (2 : ℚ)^exponent ≤ (2^53 - 1) * 2^971 :=
          mul_le_mul_of_nonneg_left top (by norm_num)
      _ = (2^54 - 2) * 2^970 := by
        rw [pow_succ (2 : ℚ) 970]
        generalize (2 : ℚ)^970 = unit
        ring
      _ < overflow := mul_lt_mul_of_pos_right (by norm_num) unit
  rw [ofRational_eq small]
  rcases eq_or_ne significand 0 with rfl | nonzero
  · simp [Doubles.roundHalfEven]
  have positive : 0 < |(significand : ℚ) * 2^exponent| :=
    abs_pos.mpr (mul_ne_zero (by exact_mod_cast nonzero) weight.ne')
  have last : lastExponent (significand * 2^exponent) ≤ exponent := by
    have below : |(significand : ℚ) * 2^exponent| < ((2 : ℕ) : ℚ)^(53 + exponent) := by
      push_cast
      rw [zpow_add₀ (by norm_num)]
      refine size.trans_lt (mul_lt_mul_of_pos_right ?_ weight)
      norm_num
    have log := (Int.lt_zpow_iff_log_lt (b := 2) (by norm_num) positive).mp below
    unfold lastExponent
    omega
  obtain ⟨shift,same⟩ := Int.eq_ofNat_of_zero_le (sub_nonneg.mpr last)
  generalize lastExponent (significand * 2^exponent) = least at *
  have least_pos : (0 : ℚ) < 2^least := zpow_pos (by norm_num) _
  have split : (2 : ℚ)^exponent = 2^shift * 2^least := by
    rw [← zpow_natCast,← zpow_add₀ (by norm_num)]
    congr 1
    omega
  have whole : (significand : ℚ) * 2^exponent / 2^least = ((significand * 2^shift : ℤ) : ℚ) := by
    rw [split]
    push_cast
    field_simp
  rw [whole,Doubles.roundHalfEven_int,← whole,div_mul_cancel₀ _ least_pos.ne']

end Doubles

section Shortest

/-- The decimal of that many digits nearest to a positive value: its digits and the weight of the
last of them. -/
def decimalAt (q : ℚ) (digits : Nat) : ℤ × ℤ :=
  let exponent := Int.log 10 q + 1 - digits
  (Doubles.roundHalfEven (q / 10^exponent),exponent)

def readsAt (q : ℚ) (digits : Nat) : Bool :=
  ofRational ((decimalAt q digits).1 * 10^(decimalAt q digits).2) = .finite q

/-- The fewest digits that are read back; no double has 1400 digits. -/
def fewestDigits (q : ℚ) : Nat := ((List.range' 1 1400).find? (readsAt q)).getD 1

def shortest (q : ℚ) : ℤ × ℤ := decimalAt q (fewestDigits q)

/-- With all its digits a double is its own decimal. -/
theorem readsAt_all {q : ℚ} (double : IsDouble q) (positive : 0 < q) :
    ∃ digits ∈ List.range' 1 1400, readsAt q digits = true := by
  have whole : ∃ n : ℤ, q * 10^1074 = n := by
    obtain ⟨significand,exponent,-,low,-,rfl⟩ := double
    obtain ⟨shift,same⟩ := Int.eq_ofNat_of_zero_le (show 0 ≤ exponent + 1074 by omega)
    refine ⟨significand * 2^shift * 5^1074,?_⟩
    have ten : (10 : ℚ)^1074 = 2^1074 * 5^1074 := by rw [← mul_pow]; norm_num
    have power : (2 : ℚ)^exponent * 2^1074 = 2^shift := by
      rw [← zpow_natCast (2 : ℚ) 1074,← zpow_add₀ (by norm_num),← zpow_natCast (2 : ℚ) shift,← same]
      rfl
    rw [Int.cast_mul,Int.cast_mul,Int.cast_pow,Int.cast_pow,Int.cast_ofNat,Int.cast_ofNat]
    rw [ten,← power]
    generalize (2 : ℚ)^1074 = two
    generalize (5 : ℚ)^1074 = five
    ring
  obtain ⟨n,whole⟩ := whole
  have weight : (0 : ℚ) < 10^1074 := pow_pos (by norm_num) _
  have one : 1 ≤ n := by
    have above : (0 : ℚ) < n := whole ▸ mul_pos positive weight
    exact_mod_cast above
  have low : -1074 ≤ Int.log 10 q := by
    refine (Int.zpow_le_iff_le_log (b := 10) (by norm_num) positive).mp ?_
    have least : (1 : ℚ) ≤ q * 10^1074 := by rw [whole]; exact_mod_cast one
    calc ((10 : ℕ) : ℚ)^(-1074 : ℤ) = 1 / 10^1074 := by
          rw [zpow_neg,one_div]
          rfl
      _ ≤ q := (div_le_iff₀ weight).mpr least
  have high : Int.log 10 q < 309 := by
    refine (Int.lt_zpow_iff_log_lt (b := 10) (by norm_num) positive).mp ?_
    obtain ⟨significand,exponent,few,-,high,rfl⟩ := double
    have cast : (significand : ℚ) ≤ 2^53 := by exact_mod_cast ((le_abs_self _).trans few.le)
    have top : (2 : ℚ)^exponent ≤ 2^971 := by
      rw [← zpow_natCast]
      exact zpow_le_zpow_right₀ (by norm_num) (by exact_mod_cast high)
    have bound : 2^53 * 2^971 < 10^309 := by decide +kernel
    calc (significand : ℚ) * 2^exponent ≤ 2^53 * 2^exponent :=
          mul_le_mul_of_nonneg_right cast (zpow_pos (by norm_num) _).le
      _ ≤ 2^53 * 2^971 := mul_le_mul_of_nonneg_left top (by norm_num)
      _ < 10^309 := by exact_mod_cast bound
      _ = ((10 : ℕ) : ℚ)^(309 : ℤ) := (zpow_natCast (10 : ℚ) 309).symm
  obtain ⟨digits,same⟩ := Int.eq_ofNat_of_zero_le (show 0 ≤ Int.log 10 q + 1 + 1074 by omega)
  refine ⟨digits,List.mem_range'_1.mpr (by omega),?_⟩
  have last : Int.log 10 q + 1 - digits = -1074 := by omega
  have inverse : (10 : ℚ)^(-1074 : ℤ) = (10^1074)⁻¹ := by
    rw [zpow_neg]
    rfl
  unfold readsAt
  simp only [decimalAt,last]
  rw [inverse,div_inv_eq_mul,whole,Doubles.roundHalfEven_int,← whole,
    mul_inv_cancel_right₀ weight.ne',ofRational_double double]
  exact decide_eq_true rfl

theorem find?_getD {l : List α} {p : α → Bool} (found : ∃ item ∈ l, p item = true) (other : α) :
    p ((l.find? p).getD other) = true := by
  obtain ⟨item,first⟩ := Option.isSome_iff_exists.mp (List.find?_isSome.mpr found)
  rw [first]
  exact List.find?_some first

/-- The digits of a positive double are read back as it. -/
theorem shortest_reads {q : ℚ} (double : IsDouble q) (positive : 0 < q) :
    0 < (shortest q).1 ∧ ofRational ((shortest q).1 * 10^(shortest q).2) = .finite q := by
  have reads : readsAt q (fewestDigits q) = true := find?_getD (readsAt_all double positive) 1
  rw [readsAt,decide_eq_true_eq] at reads
  refine ⟨?_,reads⟩
  rw [shortest]
  have nonneg : 0 ≤ (decimalAt q (fewestDigits q)).1 := by
    refine Doubles.le_roundHalfEven ?_
    rw [Int.cast_zero]
    exact div_nonneg positive.le (zpow_pos (by norm_num) _).le
  refine nonneg.lt_of_ne fun zero => ?_
  rw [← zero,Int.cast_zero,zero_mul,show (0 : ℚ) = ((0 : ℤ) : ℚ) by norm_num,
    ofRational_int (by norm_num),finite.injEq] at reads
  exact absurd reads.symm (by simpa using positive.ne')

end Shortest

section Layout

/-- The text of digits whose point stands behind the place `n`. -/
def layout (digits : JsString) (n : ℤ) : JsString :=
  if digits.length ≤ n ∧ n ≤ 21 then digits ++ List.replicate (n.toNat - digits.length) 48
  else if 0 < n ∧ n ≤ 21 then digits.take n.toNat ++ 46 :: digits.drop n.toNat
  else if -6 < n ∧ n ≤ 0 then 48 :: 46 :: (List.replicate (-n).toNat 48 ++ digits)
  else
    let exponent := 101 :: (if n - 1 < 0 then 45 else 43) :: natDigits (n - 1).natAbs
    if digits.length = 1 then digits ++ exponent
    else digits.take 1 ++ 46 :: digits.drop 1 ++ exponent

def positiveText (q : ℚ) : JsString :=
  let (significand,exponent) := shortest q
  let digits := natDigits significand.toNat
  layout (digits.rdropWhile (· = 48)) (digits.length + exponent)

/-- `String` of a number. -/
def text : Number → JsString
  | .nan => js "NaN"
  | .infinite negative => if negative then js "-Infinity" else js "Infinity"
  | .finite q =>
    if q = 0 then js "0" else if q < 0 then 45 :: positiveText (-q) else positiveText q

/-- The text of a number that is laid out in parts: what stands behind the whole part is split into
a fraction, an exponent and the rest. -/
theorem readJsonNumber_parts (negative : Bool) {whole behind left rest : JsString}
    {fraction : Option JsString} {exponent : ℤ} (digits : ∀ unit ∈ whole, isDigit unit = true)
    (filled : whole ≠ []) (head : whole.head? = some 48 → whole.length = 1)
    (ends : behind.head?.all fun unit => !isDigit unit)
    (point : splitFraction behind = (fraction,left)) (fractional : fraction ≠ some [])
    (power : splitExponent left = some (exponent,rest)) :
    readJsonNumber ((if negative then [45] else []) ++ whole ++ behind) =
      some (literalValue negative whole (fraction.getD []) exponent,rest) := by
  have sign : splitSign false ((if negative then [45] else []) ++ whole ++ behind) =
      (negative,whole ++ behind) := by
    obtain ⟨unit,more,shown⟩ := List.exists_cons_of_ne_nil filled
    have digit := digits unit (by simp [shown])
    have minus : unit ≠ 45 := by rintro rfl; cases digit
    cases negative
    · simp [shown,splitSign,minus]
    · simp [splitSign]
  have taken : (whole ++ behind).takeWhile isDigit = whole ∧
      (whole ++ behind).dropWhile isDigit = behind := by
    have stops : behind.takeWhile isDigit = [] ∧ behind.dropWhile isDigit = behind := by
      cases behind with
      | nil => exact ⟨rfl,rfl⟩
      | cons unit behind =>
        have other : isDigit unit = false := by simpa using ends
        simp [other]
    rw [List.takeWhile_append_of_pos digits,List.dropWhile_append_of_pos digits,stops.1,stops.2,
      List.append_nil]
    exact ⟨rfl,rfl⟩
  have plain : (whole.isEmpty || (whole.head? = some 48 && whole.length ≠ 1)) = false := by
    cases whole with
    | nil => exact absurd rfl filled
    | cons unit more =>
      by_cases zero : unit = 48
      · have one := head (by simp [zero])
        simp [one]
      · simp [zero]
  unfold readJsonNumber
  simp only [sign,taken.1,taken.2,plain,point,power,Option.map_some]
  rw [if_neg Bool.false_ne_true,if_neg fractional]

theorem endsNumber_head {rest : JsString} (ends : EndsNumber rest) :
    rest.head?.all fun unit => !isDigit unit := by
  cases rest with
  | nil => rfl
  | cons unit rest => simp [ends.1]

theorem span_digits {digits rest : JsString} (all : ∀ unit ∈ digits, isDigit unit = true)
    (stops : rest.head?.all fun unit => !isDigit unit) :
    (digits ++ rest).takeWhile isDigit = digits ∧ (digits ++ rest).dropWhile isDigit = rest := by
  have left : rest.takeWhile isDigit = [] ∧ rest.dropWhile isDigit = rest := by
    cases rest with
    | nil => exact ⟨rfl,rfl⟩
    | cons unit rest =>
      have other : isDigit unit = false := by simpa using stops
      simp [other]
  rw [List.takeWhile_append_of_pos all,List.dropWhile_append_of_pos all,left.1,left.2,
    List.append_nil]
  exact ⟨rfl,rfl⟩

/-- A fraction behind a point. -/
theorem splitFraction_point {digits rest : JsString} (all : ∀ unit ∈ digits, isDigit unit = true)
    (stops : rest.head?.all fun unit => !isDigit unit) :
    splitFraction (46 :: (digits ++ rest)) = (some digits,rest) := by
  obtain ⟨taken,dropped⟩ := span_digits all stops
  rw [splitFraction,if_pos rfl,taken,dropped]

theorem splitExponent_power (power : ℤ) {rest : JsString} (ends : EndsNumber rest) :
    splitExponent (101 :: (if power < 0 then 45 else 43) :: (natDigits power.natAbs ++ rest)) =
      some (power,rest) := by
  obtain ⟨taken,dropped⟩ := natDigits_span power.natAbs ends
  have filled : (natDigits power.natAbs).isEmpty = false := by
    simpa using natDigits_filled power.natAbs
  rw [splitExponent,if_pos (by decide)]
  by_cases negative : power < 0
  · have sign : splitSign true (45 :: (natDigits power.natAbs ++ rest)) =
        (true,natDigits power.natAbs ++ rest) := rfl
    have value : -|power| = power := by rw [abs_of_neg negative,neg_neg]
    simp [negative,sign,taken,dropped,filled,fixedValue_natDigits,value]
  · have sign : splitSign true (43 :: (natDigits power.natAbs ++ rest)) =
        (false,natDigits power.natAbs ++ rest) := rfl
    have value : |power| = power := abs_of_nonneg (not_lt.mp negative)
    simp [negative,sign,taken,dropped,filled,fixedValue_natDigits,value]

section Reading
variable (negative : Bool) {digits rest : JsString} (all : ∀ unit ∈ digits, isDigit unit = true)
  (filled : digits ≠ []) (head : digits.head? ≠ some 48) (n : ℤ) (ends : EndsNumber rest)
include all filled head ends

/-- Every layout is read as the value that its digits and its point stand for. -/
theorem readJsonNumber_layout :
    readJsonNumber ((if negative then [45] else []) ++ layout digits n ++ rest) =
      some (.ofRational (if negative then -(fixedValue 10 digits * 10^(n - digits.length) : ℚ)
        else fixedValue 10 digits * 10^(n - digits.length)),rest) := by
  have zero : ∀ count, ∀ unit ∈ List.replicate count (48 : UInt16), isDigit unit = true := by
    intro count unit member
    rw [(List.mem_replicate.mp member).2]
    decide
  have front {other : JsString} : (digits ++ other).head? = digits.head? := by
    cases digits with
    | nil => exact absurd rfl filled
    | cons unit more => rfl
  have ten : (10 : ℚ) ≠ 0 := by norm_num
  by_cases whole : digits.length ≤ n ∧ n ≤ 21
  · obtain ⟨zeros,same⟩ := Int.eq_ofNat_of_zero_le (show 0 ≤ n - digits.length by omega)
    have count : n.toNat - digits.length = zeros := by omega
    have value : literalValue negative (digits ++ List.replicate zeros 48) [] 0 = .ofRational
        (if negative then -(fixedValue 10 digits * 10^(zeros : ℤ) : ℚ)
          else fixedValue 10 digits * 10^(zeros : ℤ)) := by
      simp [literalValue,fixedValue_append,fixedValue_zeros]
    have padded : ∀ unit ∈ digits ++ List.replicate zeros 48, isDigit unit = true :=
      fun unit member => (List.mem_append.mp member).elim (all unit) (zero zeros unit)
    have read := readJsonNumber_parts negative padded
      (by simp [filled]) (fun first => absurd (front ▸ first) head) (endsNumber_head ends)
      (splitFraction_ends ends) (by simp) (splitExponent_ends ends)
    rw [Option.getD_none,value] at read
    rw [layout,if_pos whole,count,same]
    exact read
  by_cases within : 0 < n ∧ n ≤ 21
  · obtain ⟨place,rfl⟩ := Int.eq_ofNat_of_zero_le within.1.le
    have split : digits.take place ++ digits.drop place = digits := List.take_append_drop place digits
    have short : place < digits.length := by omega
    have value : literalValue negative (digits.take place) (digits.drop place) 0 = .ofRational
        (if negative then -(fixedValue 10 digits * 10^((place : ℤ) - digits.length) : ℚ)
          else fixedValue 10 digits * 10^((place : ℤ) - digits.length)) := by
      rw [literalValue,split,List.length_drop,Nat.cast_sub short.le,zero_sub,neg_sub]
    have first : (digits.take place).head? = digits.head? := by
      rw [List.head?_take,if_neg (by omega)]
    have front : ∀ unit ∈ digits.take place, isDigit unit = true :=
      fun unit member => all unit (List.mem_of_mem_take member)
    have back : ∀ unit ∈ digits.drop place, isDigit unit = true :=
      fun unit member => all unit (List.mem_of_mem_drop member)
    have read := readJsonNumber_parts negative front
      (fun empty => by simp [filled] at empty; omega) (fun zero => absurd (first ▸ zero) head)
      (by simp [isDigit]) (splitFraction_point back (endsNumber_head ends))
      (by simp; omega) (splitExponent_ends ends)
    rw [Option.getD_some,value] at read
    rw [layout,if_neg whole,if_pos within,Int.toNat_natCast]
    simpa using read
  by_cases small : -6 < n ∧ n ≤ 0
  · obtain ⟨zeros,same⟩ := Int.eq_ofNat_of_zero_le (show 0 ≤ -n by omega)
    have value : literalValue negative [48] (List.replicate zeros 48 ++ digits) 0 = .ofRational
        (if negative then -(fixedValue 10 digits * 10^(n - digits.length) : ℚ)
          else fixedValue 10 digits * 10^(n - digits.length)) := by
      have digit : fixedValue 10 [48] = 0 := rfl
      have place : n - (digits.length : ℤ) = 0 - (zeros + digits.length) := by omega
      rw [literalValue,fixedValue_append,fixedValue_append,fixedValue_zeros,digit,Nat.zero_mul,
        Nat.zero_mul,Nat.zero_add,Nat.zero_add,List.length_append,List.length_replicate,place,
        Nat.cast_add]
    have padded : ∀ unit ∈ List.replicate zeros 48 ++ digits, isDigit unit = true :=
      fun unit member => (List.mem_append.mp member).elim (zero zeros unit) (all unit)
    have read := readJsonNumber_parts negative (List.forall_mem_singleton.mpr (zero 1 48 (by simp)))
      (by simp) (by simp) (by simp [isDigit]) (splitFraction_point padded (endsNumber_head ends))
      (by simp [filled]) (splitExponent_ends ends)
    rw [Option.getD_some,value] at read
    rw [layout,if_neg whole,if_neg within,if_pos small,same,Int.toNat_natCast]
    simpa using read
  have exponent : splitExponent ((101 :: (if n - 1 < 0 then 45 else 43) ::
      natDigits (n - 1).natAbs) ++ rest) = some (n - 1,rest) := splitExponent_power (n - 1) ends
  obtain ⟨unit,more,rfl⟩ := List.exists_cons_of_ne_nil filled
  have value : literalValue negative [unit] more (n - 1) = .ofRational
      (if negative then -(fixedValue 10 (unit :: more) * 10^(n - (unit :: more).length) : ℚ)
        else fixedValue 10 (unit :: more) * 10^(n - (unit :: more).length)) := by
    have place : n - 1 - (more.length : ℤ) = n - (unit :: more).length := by
      rw [List.length_cons]
      omega
    rw [literalValue,place,List.singleton_append]
  have first : ∀ other ∈ [unit], isDigit other = true :=
    List.forall_mem_singleton.mpr (all unit List.mem_cons_self)
  have shape : ∃ power, (101 :: (if n - 1 < 0 then 45 else 43) :: natDigits (n - 1).natAbs) ++ rest =
      101 :: power := ⟨_,rfl⟩
  rw [layout,if_neg whole,if_neg within,if_neg small]
  generalize 101 :: (if n - 1 < 0 then (45 : UInt16) else 43) :: natDigits (n - 1).natAbs = written at *
  obtain ⟨power,shape⟩ := shape
  have exponent : splitExponent (101 :: power) = some (n - 1,rest) := shape ▸ exponent
  cases more with
  | nil =>
    have point : splitFraction (101 :: power) = (none,101 :: power) := by
      rw [splitFraction,if_neg (by decide)]
    have read := readJsonNumber_parts negative first (by simp) (by simp) (by simp [isDigit]) point
      (by simp) exponent
    rw [Option.getD_none,value,← shape] at read
    simpa using read
  | cons next more =>
    have point : splitFraction (46 :: (next :: more ++ 101 :: power)) =
        (some (next :: more),101 :: power) :=
      splitFraction_point (fun unit member => all unit (List.mem_cons_of_mem _ member))
        (by simp [isDigit])
    have read := readJsonNumber_parts negative first (by simp) (by simp) (by simp [isDigit]) point
      (by simp) exponent
    rw [Option.getD_some,value,← shape] at read
    simpa using read

end Reading

theorem text_finite (q : ℚ) (nonzero : q ≠ 0) : text (.finite q) =
    (if decide (q < 0) then [45] else []) ++ positiveText |q| := by
  rw [text,if_neg nonzero]
  by_cases negative : q < 0
  · simp [negative,abs_of_neg negative]
  · simp [negative,abs_of_nonneg (not_lt.mp negative)]

theorem IsDouble.abs {q : ℚ} (double : IsDouble q) : IsDouble |q| := by
  obtain ⟨significand,exponent,few,low,high,rfl⟩ := double
  refine ⟨|significand|,exponent,by rwa [abs_abs],low,high,?_⟩
  have weight : (0 : ℚ) < 2^exponent := zpow_pos (by norm_num) exponent
  rw [abs_mul,abs_of_pos weight,Int.cast_abs]

/-- What is left of the digits of a number without the zeros at their end. -/
theorem natDigits_trimmed {value : Nat} (positive : 0 < value) :
    let kept := (natDigits value).rdropWhile fun unit => unit = 48
    kept ≠ [] ∧ kept.head? ≠ some 48 ∧
      ∃ zeros, natDigits value = kept ++ List.replicate zeros 48 := by
  intro kept
  have parts : natDigits value = kept ++ List.replicate
      ((natDigits value).rtakeWhile fun unit => unit = 48).length 48 := by
    have all : ∀ unit ∈ (natDigits value).rtakeWhile fun unit => unit = 48, unit = 48 :=
      fun unit member => by simpa using List.mem_rtakeWhile_imp member
    rw [← List.eq_replicate_of_mem all]
    exact List.rdropWhile_append_rtakeWhile.symm
  have filled : kept ≠ [] := by
    intro empty
    rw [empty,List.nil_append] at parts
    have total := fixedValue_natDigits value
    rw [parts,fixedValue_zeros] at total
    omega
  refine ⟨filled,fun zero => ?_,_,parts⟩
  have first : (natDigits value).head? = some 48 := by
    obtain ⟨unit,more,shown⟩ := List.exists_cons_of_ne_nil filled
    rw [shown] at zero parts
    rw [parts]
    exact zero
  have one : (natDigits value).length = 1 := by
    by_contra long
    exact natDigits_head value ⟨first,long⟩
  obtain ⟨unit,single⟩ := List.length_eq_one_iff.mp one
  have total := fixedValue_natDigits value
  rw [single,List.head?_cons,Option.some.injEq] at first
  rw [single,first] at total
  exact positive.ne total

/-- The text of a double is read back. -/
theorem readJsonNumber_text {q : ℚ} (double : IsDouble q) {rest : JsString}
    (ends : EndsNumber rest) : readJsonNumber (text (.finite q) ++ rest) = some (.finite q,rest) := by
  rcases eq_or_ne q 0 with rfl | nonzero
  · have read := readJsonNumber_natDigits 0 ends
    have rounds : ofRational ((0 : ℕ) : ℚ) = .finite 0 := by
      rw [ofRational_nat (by norm_num),Nat.cast_zero]
    rw [rounds] at read
    exact read
  obtain ⟨positive,reads⟩ := shortest_reads double.abs (abs_pos.mpr nonzero)
  have shown : text (.finite q) = (if decide (q < 0) then [45] else []) ++
      layout ((natDigits (shortest |q|).1.toNat).rdropWhile fun unit => unit = 48)
        ((natDigits (shortest |q|).1.toNat).length + (shortest |q|).2) := text_finite q nonzero
  rw [shown]
  generalize (shortest |q|).1 = significand at *
  generalize (shortest |q|).2 = exponent at *
  obtain ⟨value,rfl⟩ := Int.eq_ofNat_of_zero_le positive.le
  rw [Int.toNat_natCast]
  obtain ⟨filled,head,zeros,parts⟩ := natDigits_trimmed (Int.natCast_pos.mp positive)
  generalize (natDigits value).rdropWhile (fun unit => unit = 48) = kept at *
  have digits : ∀ unit ∈ kept, isDigit unit = true := fun unit member =>
    isDigit_natDigits (parts ▸ List.mem_append_left _ member)
  have point : ((natDigits value).length : ℤ) + exponent - kept.length = zeros + exponent := by
    rw [parts,List.length_append,List.length_replicate]
    omega
  have whole : (value : ℚ) = fixedValue 10 kept * 10^zeros := by
    have total := fixedValue_natDigits value
    rw [parts,fixedValue_append,fixedValue_zeros,List.length_replicate,Nat.add_zero] at total
    exact_mod_cast total.symm
  have same : (fixedValue 10 kept * 10^((zeros : ℤ) + exponent) : ℚ) = value * 10^exponent := by
    rw [whole,zpow_add₀ (by norm_num),zpow_natCast]
    ring
  rw [Int.cast_natCast] at reads
  rw [readJsonNumber_layout _ digits filled head _ ends,point,same]
  by_cases negative : q < 0
  · rw [if_pos (decide_eq_true negative),ofRational_neg reads,abs_of_neg negative,neg_neg]
  · rw [if_neg (by simpa using negative),reads,abs_of_nonneg (not_lt.mp negative)]

end Layout

end Number

end EcmaScript
