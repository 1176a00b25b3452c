import Tonbankcard.TonCell

/-! How Tact lays a message out over cells. The fields go in order, each with the room of its
widest value; the first that has none left continues the message in a reference. -/
namespace Ton.Tact

/-- A field of a message with a value of its declared width. -/
inductive Field where
  | uint (width : Nat) (value : BitVec width)
  | int257 (value : BitVec 257)
  | coins (value : BitVec 120)
  | address (value : Address)

namespace Field

def room : Field → Nat
  | .uint width _ => width
  | .int257 _ => 257
  | .coins _ => 124
  | .address _ => 267

def store : Field → Builder → Result Builder
  | .uint width value, b => b.storeUint value.toNat width
  | .int257 value, b => b.storeInt value.toInt 257
  | .coins value, b => b.storeCoins value.toNat
  | .address value, b => b.storeBits value.bits

def bits : Field → List Bool
  | .uint width value => uintBits width value.toNat
  | .int257 value => uintBits 257 value.toNat
  | .coins value => Builder.coinsBits value.toNat
  | .address value => value.bits

theorem coinsBits_length (small : value < 2^120) : (Builder.coinsBits value).length ≤ 124 := by
  have short := (Builder.coins_short value).mpr small
  unfold Builder.coinsBits
  generalize (if value = 0 then 0 else value.log2 / 8 + 1) = count at short
  simp only [List.length_append,uintBits_length]
  omega

theorem bits_length_le (field : Field) : field.bits.length ≤ field.room := by
  cases field with
  | uint width value => simp [bits,room]
  | int257 value => simp [bits,room]
  | coins value => exact coinsBits_length value.isLt
  | address value => simp [bits,room]

theorem toInt_emod (value : BitVec w) : (value.toInt % 2^w).toNat = value.toNat := by
  have again : (BitVec.ofInt w value.toInt).toNat = value.toNat :=
    congrArg BitVec.toNat BitVec.ofInt_toInt
  rw [BitVec.toNat_ofInt] at again
  exact_mod_cast again

/-- A value of the declared width is stored wherever it has its room. -/
theorem store_ok (field : Field) {b : Builder} (space : b.bits.length + field.room ≤ maxBits) :
    field.store b = .ok ⟨b.bits ++ field.bits,b.refs⟩ := by
  have short := field.bits_length_le
  cases field with
  | uint width value =>
    apply Builder.storeUint_ok.mpr
    exact ⟨by simp [bits],⟨Int.natCast_nonneg _,by exact_mod_cast value.isLt⟩,space⟩
  | int257 value =>
    apply storeInt_ok.mpr
    refine ⟨by rw [toInt_emod]; rfl,⟨?_,?_⟩,space⟩
    · exact BitVec.le_toInt value
    · exact BitVec.toInt_lt
  | coins value =>
    apply Builder.storeCoins_ok.mpr
    exact ⟨rfl,value.isLt,by simp only [bits,room] at short space; omega⟩
  | address value =>
    apply Builder.storeBits_ok.mpr
    exact ⟨rfl,by simp only [room] at space; simpa using space⟩

end Field

/-- A bit and a reference of every cell are held back. -/
def cellRoom : Nat := maxBits - 1

def storeFields : Nat → List Field → Builder → Result Builder
  | _, [], b => pure b
  | space, field :: fields, b =>
    if field.room ≤ space then do
      let b ← field.store b
      storeFields (space - field.room) fields b
    else do
      let next ← field.store beginCell
      let next ← storeFields (cellRoom - field.room) fields next
      b.storeRef next.endCell

def toCell (op : BitVec 32) (fields : List Field) : Result Cell := do
  let b ← beginCell.storeUint op.toNat 32
  let b ← storeFields (cellRoom - 32) fields b
  pure b.endCell

def bits (fields : List Field) : List Bool := fields.flatMap Field.bits

def room (fields : List Field) : Nat := (fields.map Field.room).sum

/-- Fields that have room together stay in the cell they start in. -/
theorem storeFields_ok (fields : List Field) {b : Builder} (enough : room fields ≤ space)
    (inside : b.bits.length + space ≤ maxBits) :
    storeFields space fields b = .ok ⟨b.bits ++ bits fields,b.refs⟩ := by
  induction fields generalizing space b with
  | nil => simp [storeFields,bits,pure,Except.pure]
  | cons field fields ih =>
    have first : field.room + room fields ≤ space := by simpa [room] using enough
    have short := field.bits_length_le
    have here : field.room ≤ space := by omega
    rw [storeFields,if_pos here,field.store_ok (by omega),ok_bind]
    rw [ih (by omega) (by simp only [List.length_append]; omega)]
    simp [bits]

theorem toCell_ok (op : BitVec 32) {fields : List Field} (enough : room fields ≤ cellRoom - 32) :
    toCell op fields = .ok (.ordinary (uintBits 32 op.toNat ++ bits fields) []) := by
  have small : ((op.toNat : Int)) < 2^32 := by exact_mod_cast op.isLt
  have front : beginCell.storeUint op.toNat 32 = .ok ⟨uintBits 32 op.toNat,[]⟩ := by
    apply Builder.storeUint_ok.mpr
    exact ⟨by simp [beginCell],⟨Int.natCast_nonneg _,small⟩,by decide⟩
  rw [toCell,front,ok_bind]
  rw [storeFields_ok fields enough (by rw [uintBits_length]; decide),ok_bind]
  rfl

section Loads

variable (more : List Bool) (refs : List Cell)

theorem loadUint_uint (value : BitVec width) :
    Slice.loadUint width ⟨(Field.uint width value).bits ++ more,refs⟩ =
      .ok (value.toNat,⟨more,refs⟩) :=
  Slice.loadUint_append width value.toNat more refs value.isLt

theorem toInt_signed (value : BitVec (width + 1)) :
    value.toInt =
      if value.toNat < 2^width then (value.toNat : Int) else value.toNat - 2^(width + 1) := by
  have double : 2^(width + 1) = 2 * 2^width := by rw [Nat.pow_succ,Nat.mul_comm]
  rw [BitVec.toInt_eq_toNat_cond,double]
  by_cases low : value.toNat < 2^width
  · rw [if_pos low,if_pos (by omega)]
  · rw [if_neg low,if_neg (by omega),← double]
    push_cast
    rfl

theorem loadInt_signed (value : BitVec (width + 1)) :
    Slice.loadInt (width + 1) ⟨uintBits (width + 1) value.toNat ++ more,refs⟩ =
      .ok (value.toInt,⟨more,refs⟩) := by
  rw [Slice.loadInt,Slice.loadUint_append _ _ _ _ value.isLt,ok_bind,toInt_signed]
  rfl

theorem loadInt_int257 (value : BitVec 257) :
    Slice.loadInt 257 ⟨(Field.int257 value).bits ++ more,refs⟩ =
      .ok (value.toInt,⟨more,refs⟩) :=
  loadInt_signed more refs value

theorem loadCoins_coins (value : BitVec 120) :
    Slice.loadCoins ⟨(Field.coins value).bits ++ more,refs⟩ = .ok (value.toNat,⟨more,refs⟩) :=
  loadCoins_append value.toNat more refs value.isLt

end Loads
end Ton.Tact
