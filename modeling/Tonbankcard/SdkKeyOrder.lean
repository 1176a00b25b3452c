import Mathlib.Order.Defs.Unbundled
import Tonbankcard.SdkCanonicalBytes

/-! The order of the keys in the canonical JSON of the TypeScript SDK. On well-formed strings it
is the order of their UTF-8 bytes. -/
namespace Tonbankcard.Sdk

open EcmaScript Unicode

/-- A string without unpaired surrogates. -/
abbrev Text := {s : JsString // isWellFormed s = true}

/-- The lexicographic comparison of bytes, as a sign. -/
def byteOrder (s t : List UInt8) : Int := if s < t then -1 else if t < s then 1 else 0

theorem compareCodePoints_swap (as bs : List Nat) :
    compareCodePoints bs as = -compareCodePoints as bs := by
  induction as generalizing bs with
  | nil => cases bs <;> simp [compareCodePoints]
  | cons a as ih =>
    cases bs with
    | nil => simp [compareCodePoints]
    | cons b bs =>
      rw [compareCodePoints,compareCodePoints]
      by_cases same : a = b
      · rw [if_neg (not_not.mpr same.symm),if_neg (not_not.mpr same),ih]
      · rw [if_pos (Ne.symm same),if_pos same]
        omega

/-- The characters that a well-formed string encodes. -/
def characters (text : Text) : List Char := (codePoints text.1).map scalar

theorem utf16_characters (text : Text) : utf16 (characters text) = text.1 :=
  utf16_codePoints text.2

theorem encodeUtf8_characters (text : Text) : encodeUtf8 text.1 = utf8 (characters text) := rfl

theorem characters_injective : Function.Injective characters := fun a b same =>
  Subtype.ext (by rw [← utf16_characters a,← utf16_characters b,same])

theorem compareByCodePoint_le (a b : Text) :
    compareByCodePoint a.1 b.1 ≤ 0 ↔ ¬encodeUtf8 b.1 < encodeUtf8 a.1 := by
  have points (text : Text) : codePoints text.1 = (characters text).map Char.toNat := by
    rw [← codePoints_utf16,utf16_characters]
  rw [encodeUtf8_characters,encodeUtf8_characters,utf8_lt_iff,compareByCodePoint,points a,points b]
  exact compareCodePoints_le (fun _ _ => Char.toNat_lt_toNat) toNat_injective _ _

theorem compareByCodePoint_lt (a b : Text) :
    compareByCodePoint a.1 b.1 < 0 ↔ encodeUtf8 a.1 < encodeUtf8 b.1 := by
  have swapped := compareByCodePoint_le b a
  rw [compareByCodePoint,compareCodePoints_swap] at swapped
  rw [← not_iff_not,← swapped,not_lt]
  exact (Int.neg_nonpos_iff _).symm

theorem compareByCodePoint_sign (a b : Text) :
    (compareByCodePoint a.1 b.1).sign = byteOrder (encodeUtf8 a.1) (encodeUtf8 b.1) := by
  have less := compareByCodePoint_lt a b
  have least := compareByCodePoint_le a b
  rw [byteOrder]
  split
  · rename_i before
    exact Int.sign_eq_neg_one_of_neg (less.mpr before)
  rename_i notBefore
  split
  · rename_i after
    exact Int.sign_eq_one_of_pos (not_le.mp fun small => least.mp small after)
  · rename_i notAfter
    have zero : compareByCodePoint a.1 b.1 = 0 :=
      le_antisymm (least.mpr notAfter) (not_lt.mp fun small => notBefore (less.mp small))
    rw [zero,Int.sign_zero]

theorem compareByCodePoint_eq (a b : Text) : compareByCodePoint a.1 b.1 = 0 ↔ a = b := by
  have less := compareByCodePoint_lt a b
  have least := compareByCodePoint_le a b
  rw [encodeUtf8_characters,encodeUtf8_characters,utf8_lt_iff] at less least
  constructor
  · intro zero
    rcases lt_trichotomy (characters a) (characters b) with before | same | after
    · exact absurd (less.mpr before) (by omega)
    · exact characters_injective same
    · exact absurd after (least.mp zero.le)
  · rintro rfl
    exact le_antisymm (least.mpr (List.lt_irrefl _))
      (not_lt.mp fun small => List.lt_irrefl _ (less.mp small))

/-- The comparison has the sign of that of the UTF-8 bytes, and is a strict total order. -/
theorem compareByCodePoint_utf8 :
    (∀ a b : Text, (compareByCodePoint a.1 b.1).sign =
      byteOrder (encodeUtf8 a.1) (encodeUtf8 b.1)) ∧
    IsStrictTotalOrder Text (fun a b => compareByCodePoint a.1 b.1 < 0) ∧
    ∀ a b : Text, compareByCodePoint a.1 b.1 = 0 ↔ a = b := by
  refine ⟨compareByCodePoint_sign,?_,compareByCodePoint_eq⟩
  exact {
    irrefl := fun a less => List.lt_irrefl _ ((compareByCodePoint_lt a a).mp less)
    trans := fun a b c first second => (compareByCodePoint_lt a c).mpr
      (List.lt_trans ((compareByCodePoint_lt a b).mp first) ((compareByCodePoint_lt b c).mp second))
    trichotomous := fun a b notBefore notAfter => (compareByCodePoint_eq a b).mp
      (le_antisymm ((compareByCodePoint_le a b).mpr fun after =>
        notAfter ((compareByCodePoint_lt b a).mpr after)) (not_lt.mp notBefore)) }

/-- Beyond the first plane the order is not that of the code units. -/
example : compareByCodePoint (js "\uFF5E") (js "😀") < 0 ∧ js "😀" < js "\uFF5E" := by
  decide +kernel

end Tonbankcard.Sdk
