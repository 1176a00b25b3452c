import Mathlib.Data.List.GetD
import Mathlib.Data.Nat.Bitwise
import Tonbankcard.QrCodeCodewords
import Tonbankcard.ReedSolomonDistance

/-! Damaged symbols: what the error correction codewords of the generator are there for. Where no
block has more damaged codewords than half of its error correction codewords, the codewords come
from the symbol of one byte string alone. -/
namespace Tonbankcard.QrCode

open Polynomial ReedSolomon

section Field

instance : IsDomain GF256 := gf256_isField.isDomain

theorem alpha_ne_zero : alpha ≠ 0 := by
  intro zero
  have one := alpha_order
  rw [zero,zero_pow (by decide)] at one
  exact zero_ne_one one

theorem element_ne_zero {x : Nat} (byte : x < 256) (filled : x ≠ 0) : element x ≠ 0 := by
  rw [← gfExp_gfLog byte filled,element_gfExp]
  exact pow_ne_zero _ alpha_ne_zero

/-- Distinct bytes stand for distinct elements. -/
theorem element_injective {a b : Nat} (byteA : a < 256) (byteB : b < 256)
    (same : element a = element b) : a = b := by
  have cancelled : element (a ^^^ b) = 0 := by rw [element_xor,same,CharTwo.add_self_eq_zero]
  by_contra apart
  refine element_ne_zero (Nat.xor_lt_two_pow (n := 8) byteA byteB) ?_ cancelled
  exact fun zero => apart (Nat.xor_eq_zero_iff.mp zero)

theorem gfExp_injOn : Set.InjOn gfExp (Finset.range 255) := by
  refine Finset.injOn_of_surjOn_of_card_le (t := Finset.Icc 1 255) gfExp ?_ ?_ (by simp)
  · intro i _
    have filled : gfExp i ≠ 0 := by
      intro zero
      have power := element_gfExp i
      rw [zero,element_zero] at power
      exact pow_ne_zero _ alpha_ne_zero power.symm
    have byte := gfExp_lt i
    exact Finset.mem_coe.mpr (Finset.mem_Icc.mpr ⟨by omega,by omega⟩)
  · intro x member
    obtain ⟨positive,byte⟩ := Finset.mem_Icc.mp (Finset.mem_coe.mp member)
    refine ⟨gfLog x % 255,by simpa using Nat.mod_lt _ (by decide),?_⟩
    rw [gfExp,Nat.mod_mod]
    exact gfExp_gfLog (by omega) (by omega)

/-- The first 255 powers of the root are distinct. -/
theorem alpha_orders {i j : Nat} (inI : i < 255) (inJ : j < 255) (same : alpha ^ i = alpha ^ j) :
    i = j := by
  rw [← element_gfExp i,← element_gfExp j] at same
  exact gfExp_injOn (by simpa using inI) (by simpa using inJ)
    (element_injective (gfExp_lt i) (gfExp_lt j) same)

end Field

section Blocks
variable {ecLen : Nat} {data other received : List Nat}

theorem map_element_injective {left right : List Nat} (leftBytes : Bytes left)
    (rightBytes : Bytes right) (same : left.map element = right.map element) : left = right := by
  have length : left.length = right.length := by simpa using congrArg List.length same
  refine List.ext_getElem length fun i inside within => ?_
  have place := List.getElem_of_eq same (by simpa using inside)
  rw [List.getElem_map,List.getElem_map] at place
  exact element_injective (leftBytes _ (List.getElem_mem inside))
    (rightBytes _ (List.getElem_mem within)) place

/-- A block with its error correction codewords. -/
def codedBlock (ecLen : Nat) (data : List Nat) : List Nat := data ++ rsEncode data ecLen

/-- A damaged block leads back to one block of data. -/
theorem block_unique (positive : 0 < ecLen) (bytes : Bytes data) (otherBytes : Bytes other)
    (length : other.length = data.length) (fits : data.length + ecLen ≤ 255)
    (close : 2 * distance (data.length + ecLen) (codedBlock ecLen data) received ≤ ecLen)
    (near : 2 * distance (data.length + ecLen) received (codedBlock ecLen other) ≤ ecLen) :
    data = other := by
  classical
  have check {block : List Nat} (bytes : Bytes block) := rsEncode_division positive bytes
  have whole {block : List Nat} (bytes : Bytes block) (same : block.length = data.length) :
      ((codedBlock ecLen block).map element).length = data.length + ecLen := by
    rw [List.length_map,codedBlock,List.length_append,(check bytes).2.1,same]
  have coded {block : List Nat} (bytes : Bytes block) : Bytes (codedBlock ecLen block) := by
    intro codeword member
    rcases List.mem_append.mp member with inside | inside
    · exact bytes codeword inside
    · exact (check bytes).1 codeword inside
  have mapped (left right : List Nat) := distance_map_le (data.length + ecLen) element left right
  have same := word_unique (α := alpha) (fun i inI j inJ => alpha_orders (by omega) (by omega))
    (whole bytes rfl) (whole otherBytes length) (generator_dvd_block positive bytes)
    (generator_dvd_block positive otherBytes)
    ((Nat.mul_le_mul_left 2 (mapped (codedBlock ecLen data) received)).trans close)
    ((Nat.mul_le_mul_left 2 (mapped received (codedBlock ecLen other))).trans near)
  have blocks := map_element_injective (coded bytes) (coded otherBytes) same
  exact List.append_inj_left blocks length.symm

end Blocks

section Symbols
variable {version : Nat} {ec : QRErrorLevel} {data other : List Nat}

set_option maxRecDepth 4000 in
/-- No block of the table outgrows the field. -/
theorem blocks_fit : ∀ version < 21, ∀ ec, (blockInfoFor version ec).all (fun info =>
    info.sizes.all (· + info.ecCodewordsPerBlock ≤ 255)) = true := by
  intro version bound ec
  cases ec <;> revert version <;> decide

/-- The codewords of some bytes in a version. -/
def codewordsOf (version : Nat) (ec : QRErrorLevel) (data : List Nat) : Option (List Nat) := do
  let encoded ← encodeDataBytes data version ec
  buildCodewords encoded version ec

/-- A block of the codewords of a symbol, its data codewords before the others. -/
def readBlock (info : BlockInfo) (codewords : List Nat) (block : Nat) : List Nat :=
  (Iso18004.deinterleaved info.sizes (codewords.take info.sizes.sum)).getD block [] ++
    (Iso18004.deinterleaved (info.sizes.map fun _ => info.ecCodewordsPerBlock)
      (codewords.drop info.sizes.sum)).getD block []

/-- No block has more damage than half of its error correction codewords. -/
def Correctable (info : BlockInfo) (codewords received : List Nat) : Prop :=
  ∀ block < info.sizes.length,
    2 * distance (info.sizes.getD block 0 + info.ecCodewordsPerBlock) (readBlock info codewords block)
      (readBlock info received block) ≤ info.ecCodewordsPerBlock

instance (info : BlockInfo) (codewords received : List Nat) :
    Decidable (Correctable info codewords received) :=
  inferInstanceAs (Decidable (∀ block < info.sizes.length, _ ≤ _))

/-- What the data codewords of some bytes are. -/
theorem encodeDataBytes_spec {minVersion : Int} {info : BlockInfo} {encoded : List Nat}
    (bytes : Bytes data) (selected : selectVersion data.length ec minVersion = some version)
    (table : blockInfoFor version ec = some info)
    (encode : encodeDataBytes data version ec = some encoded) :
    Bytes encoded ∧ encoded.length = info.sizes.sum ∧
      dataCodewordsFor version ec = some info.sizes.sum ∧
      Iso18004.readData version encoded = some data := by
  obtain ⟨bound,total,known,fits⟩ : version < 21 ∧ ∃ total, dataCodewordsFor version ec =
      some total ∧ 4 + charCountBits version + data.length * 8 ≤ total * 8 :=
    selectVersion_fits selected
  obtain ⟨_,found,rfl⟩ := dataCodewordsFor_sizes known
  obtain rfl := Option.some.inj (table.symm.trans found)
  obtain ⟨pads,whole,same⟩ := encodeDataBytes_eq known fits
  obtain rfl := Option.some.inj (encode.symm.trans same)
  have small := dataCodewordsFor_small version bound ec
  rw [known,Option.all_some] at small
  have counted : info.sizes.sum < 2 ^ charCountBits version := of_decide_eq_true small
  exact ⟨packBytes_bytes _ _,packBytes_length _ _,known,readData_packBytes bytes (by omega) whole⟩

/-- A block of the codewords that are built is a block of the data with its check. -/
theorem readBlock_built {info : BlockInfo} {encoded codewords : List Nat}
    (table : blockInfoFor version ec = some info)
    (known : dataCodewordsFor version ec = some info.sizes.sum)
    (positive : 0 < info.ecCodewordsPerBlock) (bytes : Bytes encoded)
    (whole : encoded.length = info.sizes.sum)
    (build : buildCodewords encoded version ec = some codewords) {block : Nat}
    (inside : block < info.sizes.length) :
    readBlock info codewords block =
      codedBlock info.ecCodewordsPerBlock ((slices info.sizes encoded).getD block []) := by
  obtain ⟨_,same,dataBlocks,ecBlocks⟩ := buildCodewords_blocks table known positive bytes whole
  obtain rfl := Option.some.inj (build.symm.trans same)
  have within : block < (slices info.sizes encoded).length := by
    rw [← List.length_map (f := List.length),slices_lengths whole]
    exact inside
  rw [readBlock,dataBlocks,ecBlocks,codedBlock]
  simp [List.getElem?_eq_getElem within]

/-- Some damaged codewords of a symbol for some bytes. -/
def Damaged (version : Nat) (ec : QRErrorLevel) (data received : List Nat) : Prop :=
  ∃ info codewords, blockInfoFor version ec = some info ∧
    codewordsOf version ec data = some codewords ∧ Correctable info codewords received

/-- Codewords that are not damaged more than the error correction can undo come from one byte
string. -/
theorem damaged_unambiguous {minVersion otherMin : Int} {received : List Nat} (bytes : Bytes data)
    (otherBytes : Bytes other) (selected : selectVersion data.length ec minVersion = some version)
    (otherSelected : selectVersion other.length ec otherMin = some version)
    (damaged : Damaged version ec data received) (otherDamaged : Damaged version ec other received) :
    data = other := by
  obtain ⟨info,codewords,table,coded,close⟩ := damaged
  obtain ⟨_,otherCodewords,found,otherCoded,near⟩ := otherDamaged
  obtain rfl := Option.some.inj (table.symm.trans found)
  obtain ⟨encoded,encode,build⟩ := Option.bind_eq_some_iff.mp coded
  obtain ⟨otherEncoded,otherEncode,otherBuild⟩ := Option.bind_eq_some_iff.mp otherCoded
  obtain ⟨filled,whole,known,read⟩ := encodeDataBytes_spec bytes selected table encode
  obtain ⟨otherFilled,otherWhole,-,otherRead⟩ :=
    encodeDataBytes_spec otherBytes otherSelected table otherEncode
  have bound : version < 21 := (selectVersion_fits selected).1
  have positive : 0 < info.ecCodewordsPerBlock := by
    have positive := ecCodewords_pos version bound ec
    rw [table,Option.all_some] at positive
    exact of_decide_eq_true positive
  have fit : ∀ size ∈ info.sizes, size + info.ecCodewordsPerBlock ≤ 255 := by
    have fit := blocks_fit version bound ec
    rw [table,Option.all_some,List.all_eq_true] at fit
    exact fun size member => of_decide_eq_true (fit size member)
  have lengths := slices_lengths whole
  have otherLengths := slices_lengths otherWhole
  have blocks : slices info.sizes encoded = slices info.sizes otherEncoded := by
    refine List.ext_getElem ?_ fun block within otherWithin => ?_
    · rw [← List.length_map (f := List.length),lengths,← List.length_map (f := List.length),
        otherLengths]
    have inside : block < info.sizes.length := by rwa [← lengths,List.length_map]
    have size : info.sizes.getD block 0 = (slices info.sizes encoded)[block].length := by
      conv_lhs => rw [← lengths]
      simp [List.getElem?_eq_getElem within]
    have same : (slices info.sizes otherEncoded)[block].length =
        (slices info.sizes encoded)[block].length := by
      rw [← size]
      conv_rhs => rw [← otherLengths]
      simp [List.getElem?_eq_getElem otherWithin]
    have dataBlock := readBlock_built table known positive filled whole build inside
    have otherBlock := readBlock_built table known positive otherFilled otherWhole otherBuild inside
    rw [List.getD_eq_getElem _ _ within] at dataBlock
    rw [List.getD_eq_getElem _ _ otherWithin] at otherBlock
    have closeBlock := close block inside
    have nearBlock := near block inside
    rw [size,dataBlock] at closeBlock
    rw [size,otherBlock,distance_comm] at nearBlock
    refine block_unique positive (bytes_slices filled whole _ (List.getElem_mem within))
      (bytes_slices otherFilled otherWhole _ (List.getElem_mem otherWithin)) same ?_ closeBlock
      nearBlock
    refine fit _ ?_
    rw [← size,List.getD_eq_getElem _ _ inside]
    exact List.getElem_mem inside
  rw [← slices_flatten whole,blocks,slices_flatten otherWhole] at read
  exact Option.some.inj (read.symm.trans otherRead)

/-- Five of the 26 codewords of a symbol of the first version are lost. -/
theorem damaged_unambiguous_letters : ∃ received,
    codewordsOf 1 .M [84,79,78] ≠ some received ∧ Damaged 1 .M [84,79,78] received ∧
      ∀ other, Bytes other → selectVersion other.length .M 1 = some 1 →
        Damaged 1 .M other received → [84,79,78] = other := by
  have damaged : Damaged 1 .M [84,79,78] [0,0,0,0,0,236,17,236,17,236,17,236,17,236,17,236,17,107,
      68,255,222,57,7,219,225,47] :=
    ⟨⟨10,[⟨1,16⟩]⟩,[64,53,68,244,224,236,17,236,17,236,17,236,17,236,17,236,17,107,68,255,222,57,7,
      219,225,47],rfl,by decide +kernel,by decide +kernel⟩
  refine ⟨_,by decide +kernel,damaged,fun other bytes selected otherDamaged => ?_⟩
  have least : selectVersion 3 .M 1 = some 1 := by decide +kernel
  exact damaged_unambiguous (by simp [Bytes]) bytes least selected damaged otherDamaged

end Symbols
end Tonbankcard.QrCode
