import Mathlib.Algebra.Group.Int.Defs
import Mathlib.Data.List.DropRight
import Mathlib.Data.List.TakeWhile
import Tonbankcard.Unicode

/-! Texts as the three SDKs read them: the white space around them, decimal digits, digests in
hexadecimal digits. -/
namespace Tonbankcard.Sdk

section WhiteSpace

/-- The white space of all three languages. -/
def commonSpace (c : Char) : Bool :=
  (9 ≤ c.toNat && c.toNat ≤ 13) || c.toNat = 32 || c.toNat = 0xA0 || c.toNat = 0x1680 ||
    (0x2000 ≤ c.toNat && c.toNat ≤ 0x200A) || c.toNat = 0x2028 || c.toNat = 0x2029 ||
    c.toNat = 0x202F || c.toNat = 0x205F || c.toNat = 0x3000

def jsSpace (c : Char) : Bool := commonSpace c || c.toNat = 0xFEFF

def goSpace (c : Char) : Bool := commonSpace c || c.toNat = 0x85

def pySpace (c : Char) : Bool :=
  commonSpace c || c.toNat = 0x85 || (0x1C ≤ c.toNat && c.toNat ≤ 0x1F)

/-- `trim`, `strings.TrimSpace` and `str.strip`. -/
def trim (space : Char → Bool) (s : List Char) : List Char :=
  (s.dropWhile space).rdropWhile space

def printable (c : Char) : Bool := 32 ≤ c.toNat && c.toNat ≤ 126

theorem jsSpace_printable {c : Char} (ascii : printable c = true) : jsSpace c = commonSpace c := by
  simp only [printable,Bool.and_eq_true,decide_eq_true_eq] at ascii
  have apart : c.toNat ≠ 0xFEFF := by omega
  simp [jsSpace,apart]

theorem goSpace_printable {c : Char} (ascii : printable c = true) : goSpace c = commonSpace c := by
  simp only [printable,Bool.and_eq_true,decide_eq_true_eq] at ascii
  have apart : c.toNat ≠ 0x85 := by omega
  simp [goSpace,apart]

theorem pySpace_printable {c : Char} (ascii : printable c = true) : pySpace c = commonSpace c := by
  simp only [printable,Bool.and_eq_true,decide_eq_true_eq] at ascii
  have apart : c.toNat ≠ 0x85 := by omega
  have control : ¬ c.toNat ≤ 0x1F := by omega
  simp [pySpace,apart,control]

theorem dropWhile_congr {p q : Char → Bool} {s : List Char} (same : ∀ c ∈ s, p c = q c) :
    s.dropWhile p = s.dropWhile q := by
  induction s with
  | nil => rfl
  | cons c rest ih =>
    rw [List.dropWhile_cons,List.dropWhile_cons,same c List.mem_cons_self,
      ih fun d member => same d (List.mem_cons_of_mem _ member)]

theorem trim_congr {p q : Char → Bool} {s : List Char} (same : ∀ c ∈ s, p c = q c) :
    trim p s = trim q s := by
  rw [trim,trim,dropWhile_congr same,List.rdropWhile,List.rdropWhile,dropWhile_congr]
  intro c member
  exact same c ((List.dropWhile_suffix q).subset (List.mem_reverse.mp member))

/-- On printable ASCII the three languages trim the same. -/
theorem trim_printable {s : List Char} (ascii : ∀ c ∈ s, printable c = true) :
    trim jsSpace s = trim commonSpace s ∧ trim goSpace s = trim commonSpace s ∧
      trim pySpace s = trim commonSpace s :=
  ⟨trim_congr fun c member => jsSpace_printable (ascii c member),
    trim_congr fun c member => goSpace_printable (ascii c member),
    trim_congr fun c member => pySpace_printable (ascii c member)⟩

/-- What is no white space stays. -/
theorem mem_trim {space : Char → Bool} {c : Char} {s : List Char} (solid : space c = false)
    (member : c ∈ s) : c ∈ trim space s := by
  have dropped (t : List Char) (inside : c ∈ t) : c ∈ t.dropWhile space := by
    rw [← List.takeWhile_append_dropWhile (p := space) (l := t)] at inside
    refine (List.mem_append.mp inside).resolve_left fun taken => ?_
    rw [List.mem_takeWhile_imp taken] at solid
    cases solid
  have front := dropped s member
  exact List.mem_reverse.mpr (dropped _ (List.mem_reverse.mpr front))

theorem trim_cons {space : Char → Bool} {c : Char} (blank : space c = true) (s : List Char) :
    trim space (c :: s) = trim space s := by
  rw [trim,List.dropWhile_cons_of_pos blank,trim]

theorem trim_concat {space : Char → Bool} {c : Char} (blank : space c = true) (s : List Char) :
    trim space (s ++ [c]) = trim space s := by
  rw [trim,trim,List.dropWhile_append]
  split
  · rename_i none
    rw [List.isEmpty_iff.mp none,List.dropWhile_cons_of_pos blank,List.dropWhile_nil]
  · exact List.rdropWhile_concat_pos _ _ _ blank

/-- What neither starts nor ends with white space is left as it is. -/
theorem trim_solid {space : Char → Bool} {s : List Char} (solid : ∀ c ∈ s, space c = false) :
    trim space s = s := by
  have none : s.dropWhile space = s := by
    cases s with
    | nil => rfl
    | cons c rest =>
      exact List.dropWhile_cons_of_neg (by rw [solid c List.mem_cons_self]; decide)
  rw [trim,none]
  refine List.rdropWhile_eq_self_iff.mpr fun filled => ?_
  rw [solid _ (List.getLast_mem filled)]
  decide

/-- Where nothing of the wider white space is left, trimming it gives the same text. -/
theorem trim_wider {narrow wide : Char → Bool} {s : List Char}
    (sub : ∀ c, narrow c = true → wide c = true) (solid : ∀ c ∈ trim narrow s, wide c = false) :
    trim wide s = trim narrow s := by
  have front (blanks rest : List Char) (blank : ∀ c ∈ blanks, narrow c = true) :
      trim wide (blanks ++ rest) = trim wide rest := by
    induction blanks with
    | nil => rfl
    | cons c blanks ih =>
      rw [List.cons_append,trim_cons (sub c (blank c List.mem_cons_self)),
        ih fun d member => blank d (List.mem_cons_of_mem _ member)]
  have back (rest blanks : List Char) (blank : ∀ c ∈ blanks, narrow c = true) :
      trim wide (rest ++ blanks) = trim wide rest := by
    induction blanks using List.reverseRecOn with
    | nil => rw [List.append_nil]
    | append_singleton blanks c ih =>
      rw [← List.append_assoc,
        trim_concat (sub c (blank c (List.mem_append_right _ List.mem_cons_self))),
        ih fun d member => blank d (List.mem_append_left _ member)]
  have split : s = s.takeWhile narrow ++ (trim narrow s ++ (s.dropWhile narrow).rtakeWhile narrow) := by
    rw [trim,List.rdropWhile_append_rtakeWhile,List.takeWhile_append_dropWhile]
  have leading : ∀ c ∈ s.takeWhile narrow, narrow c = true := fun _ => List.mem_takeWhile_imp
  have trailing : ∀ c ∈ (s.dropWhile narrow).rtakeWhile narrow, narrow c = true :=
    fun _ => List.mem_rtakeWhile_imp
  conv_lhs => rw [split]
  rw [front _ _ leading,back _ _ trailing,trim_solid solid]

end WhiteSpace

section Digits

def isDecimal (s : List Char) : Bool := !s.isEmpty && s.all Char.isDigit

def decimalValue (s : List Char) : Nat := Nat.ofDigitChars 10 s 0

/-- Python's `int` takes all digits of the text. -/
def withinDigits (limit : Nat) (digits : List Char) : Prop := limit = 0 ∨ digits.length ≤ limit

instance (limit : Nat) (digits : List Char) : Decidable (withinDigits limit digits) :=
  inferInstanceAs (Decidable (_ ∨ _))

theorem isDecimal_toDigits (n : Nat) : isDecimal (Nat.toDigits 10 n) = true := by
  have digits : (Nat.toDigits 10 n).all Char.isDigit = true :=
    List.all_eq_true.mpr fun c member => Nat.isDigit_of_mem_toDigits (by decide) (by decide) member
  have filled : Nat.toDigits 10 n ≠ [] := Nat.toDigits_ne_nil
  simp [isDecimal,digits,filled]

theorem decimalValue_toDigits (n : Nat) : decimalValue (Nat.toDigits 10 n) = n :=
  Nat.ofDigitChars_ten_toDigits

theorem isDecimal_digit {s : List Char} (decimal : isDecimal s = true) {c : Char} (member : c ∈ s) :
    c.isDigit = true := by
  simp only [isDecimal,Bool.and_eq_true] at decimal
  exact List.all_eq_true.mp decimal.2 c member

def splitSign : List Char → ℤ × List Char
  | '-' :: rest => (-1,rest)
  | '+' :: rest => (1,rest)
  | s => (1,s)

/-- `strconv.ParseInt` reads a sign and digits within 64 bits. -/
def parseInt (s : List Char) : Option ℤ :=
  let (sign,digits) := splitSign s
  let n := sign * decimalValue digits
  if isDecimal digits && decide (-2^63 ≤ n) && decide (n < 2^63) then some n else none

theorem splitSign_decimal {s : List Char} (decimal : isDecimal s = true) : splitSign s = (1,s) := by
  cases s with
  | nil => rfl
  | cons c rest =>
    have digit := isDecimal_digit decimal List.mem_cons_self
    unfold splitSign
    split
    · exact absurd digit (by simp_all)
    · exact absurd digit (by simp_all)
    · rfl

theorem parseInt_decimal {val : List Char} (decimal : isDecimal val = true) :
    parseInt val = if decimalValue val < 2^63 then some (decimalValue val : ℤ) else none := by
  have low : (-2^63 : ℤ) ≤ decimalValue val := by omega
  have high : (decimalValue val : ℤ) < 2^63 ↔ decimalValue val < 2^63 := by omega
  rw [parseInt,splitSign_decimal decimal]
  simp only [Int.one_mul,decimal,low,high,decide_true,Bool.true_and,decide_eq_true_eq]

end Digits

section Hexadecimal

/-- The value of a digit in either case. -/
def hexDigitValue (c : Char) : Option Nat :=
  (List.range 16).find? fun n => Nat.digitChar n = c.toLower

def encodeHex (bytes : List UInt8) : List Char :=
  bytes.flatMap fun byte => [Nat.digitChar (byte.toNat / 16),Nat.digitChar (byte.toNat % 16)]

/-- `hex.DecodeString`, and `none` for its errors. -/
def decodeHex : List Char → Option (List UInt8)
  | [] => some []
  | [_] => none
  | high :: low :: rest => do
    let h ← hexDigitValue high
    let l ← hexDigitValue low
    let bytes ← decodeHex rest
    pure (UInt8.ofNat (16 * h + l) :: bytes)

theorem hexDigitValue_eq_some_iff {c : Char} :
    hexDigitValue c = some n ↔ n < 16 ∧ Nat.digitChar n = c.toLower := by
  have injective : ∀ n < 16, ∀ m < 16, Nat.digitChar n = Nat.digitChar m → n = m := by decide
  have sound {m : Nat} (found : hexDigitValue c = some m) : m < 16 ∧ Nat.digitChar m = c.toLower := by
    have holds := List.find?_some (p := fun n => decide (Nat.digitChar n = c.toLower)) found
    exact ⟨List.mem_range.mp (List.mem_of_find?_eq_some found),of_decide_eq_true holds⟩
  constructor
  · exact sound
  · rintro ⟨small,same⟩
    cases found : hexDigitValue c with
    | none =>
      have absent := List.find?_eq_none.mp found n (List.mem_range.mpr small)
      exact absurd (decide_eq_true same) absent
    | some m =>
      obtain ⟨bound,lower⟩ := sound found
      rw [injective m bound n small (lower.trans same.symm)]

theorem decodeHex_eq_some_iff {s : List Char} {bytes : List UInt8} :
    decodeHex s = some bytes ↔ s.map Char.toLower = encodeHex bytes := by
  induction s using decodeHex.induct generalizing bytes with
  | case1 =>
    cases bytes with
    | nil => simp [decodeHex,encodeHex]
    | cons byte rest => simp [decodeHex,encodeHex]
  | case2 c =>
    cases bytes with
    | nil => simp [decodeHex,encodeHex]
    | cons byte rest => simp [decodeHex,encodeHex]
  | case3 high low rest ih =>
    have step : decodeHex (high :: low :: rest) = some bytes ↔
        ∃ h l tail, hexDigitValue high = some h ∧ hexDigitValue low = some l ∧ decodeHex rest = some tail ∧
          UInt8.ofNat (16 * h + l) :: tail = bytes := by
      simp [decodeHex,Option.bind_eq_some_iff]
    rw [step]
    constructor
    · rintro ⟨h,l,tail,first,second,decoded,rfl⟩
      obtain ⟨smallHigh,sameHigh⟩ := hexDigitValue_eq_some_iff.mp first
      obtain ⟨smallLow,sameLow⟩ := hexDigitValue_eq_some_iff.mp second
      have value : (UInt8.ofNat (16 * h + l)).toNat = 16 * h + l := by
        rw [UInt8.toNat_ofNat']
        omega
      have quotient : (16 * h + l) / 16 = h := by omega
      have remainder : (16 * h + l) % 16 = l := by omega
      rw [List.map_cons,List.map_cons,ih.mp decoded,← sameHigh,← sameLow]
      change _ = Nat.digitChar (_ / 16) :: Nat.digitChar (_ % 16) :: encodeHex tail
      rw [value,quotient,remainder]
    · intro same
      cases bytes with
      | nil => simp [encodeHex] at same
      | cons byte tail =>
        simp only [List.map_cons,encodeHex,List.flatMap_cons,List.cons_append,List.nil_append,
          List.cons.injEq] at same
        obtain ⟨sameHigh,sameLow,behind⟩ := same
        have range := byte.toNat_lt
        refine ⟨byte.toNat / 16,byte.toNat % 16,tail,
          hexDigitValue_eq_some_iff.mpr ⟨by omega,sameHigh.symm⟩,
          hexDigitValue_eq_some_iff.mpr ⟨by omega,sameLow.symm⟩,ih.mpr behind,?_⟩
        rw [Nat.div_add_mod,UInt8.ofNat_toNat]

theorem decodeHex_encodeHex (bytes : List UInt8) : decodeHex (encodeHex bytes) = some bytes := by
  refine decodeHex_eq_some_iff.mpr ?_
  have lower : ∀ n < 16, (Nat.digitChar n).toLower = Nat.digitChar n := by decide
  induction bytes with
  | nil => rfl
  | cons byte rest ih =>
    have range := byte.toNat_lt
    have tail : (encodeHex rest).map Char.toLower = encodeHex rest := ih
    change ([_,_] ++ encodeHex rest).map Char.toLower = _
    rw [List.map_append,tail]
    simp [encodeHex,lower _ (show byte.toNat / 16 < 16 by omega),
      lower _ (show byte.toNat % 16 < 16 by omega)]

end Hexadecimal

end Tonbankcard.Sdk
