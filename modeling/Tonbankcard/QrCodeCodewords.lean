import Tonbankcard.QrCodeField
import Tonbankcard.QrCodeReading

/-! The codewords of a symbol: the data codewords read back as the bytes that went in, the
interleaving is undone by the table of blocks, and every block is a word of its code. -/
namespace Tonbankcard.QrCode

open Polynomial

section Interleaving

theorem le_foldl_max (sizes : List Nat) (start : Nat) :
    start ≤ sizes.foldl max start ∧ ∀ size ∈ sizes, size ≤ sizes.foldl max start := by
  induction sizes generalizing start with
  | nil => exact ⟨le_rfl,fun _ member => absurd member List.not_mem_nil⟩
  | cons first rest ih =>
    obtain ⟨above,each⟩ := ih (max start first)
    refine ⟨(le_max_left _ _).trans above,fun size member => ?_⟩
    rcases List.mem_cons.mp member with rfl | later
    · exact (le_max_right _ _).trans above
    · exact each size later

theorem mem_interleaving {sizes : List Nat} {block place : Nat} (inside : block < sizes.length)
    (within : place < sizes.getD block 0) : (block,place) ∈ Iso18004.interleaving sizes := by
  have bound : sizes.getD block 0 ≤ sizes.foldl max 0 := by
    rw [List.getD_eq_getElem?_getD,List.getElem?_eq_getElem inside,Option.getD_some]
    exact (le_foldl_max sizes 0).2 _ (List.getElem_mem inside)
  refine List.mem_flatMap.mpr ⟨place,List.mem_range.mpr (within.trans_le bound),?_⟩
  refine List.mem_map.mpr ⟨block,List.mem_filter.mpr ⟨List.mem_range.mpr inside,?_⟩,rfl⟩
  exact decide_eq_true within

/-- One turn through the blocks, in terms of their numbers. -/
theorem turn_eq (blocks : List (List Nat)) (place : Nat) :
    blocks.filterMap (·[place]?) =
      ((List.range blocks.length).filter fun block =>
        place < (blocks.map List.length).getD block 0).map fun block =>
          (blocks.getD block []).getD place 0 := by
  induction blocks with
  | nil => rfl
  | cons first rest ih =>
    have later : ((List.range rest.length).map Nat.succ).filter (fun block =>
        decide (place < ((first :: rest).map List.length).getD block 0)) =
          ((List.range rest.length).filter fun block =>
            place < (rest.map List.length).getD block 0).map Nat.succ := by
      rw [List.filter_map]
      rfl
    rw [List.length_cons,List.range_succ_eq_map,List.filter_cons,later]
    by_cases inside : place < first.length
    · simp [inside,ih]
    · simp [inside,ih]

theorem interleave_eq (blocks : List (List Nat)) :
    interleave blocks = (Iso18004.interleaving (blocks.map List.length)).map fun position =>
      (blocks.getD position.1 []).getD position.2 0 := by
  rw [interleave,Iso18004.interleaving,List.map_flatMap]
  refine List.flatMap_congr fun place _ => ?_
  rw [turn_eq,List.map_map,List.length_map]
  rfl

/-- The reader takes the blocks apart again, whatever stands behind them. -/
theorem deinterleaved_interleave (blocks : List (List Nat)) (behind : List Nat) :
    Iso18004.deinterleaved (blocks.map List.length) (interleave blocks ++ behind) = blocks := by
  refine List.ext_getElem (by rw [Iso18004.deinterleaved,List.length_mapIdx,List.length_map])
    fun block _ inside => ?_
  have inSizes : block < (blocks.map List.length).length := by rwa [List.length_map]
  simp only [Iso18004.deinterleaved,List.getElem_mapIdx,List.getElem_map]
  refine List.ext_getElem (by rw [List.length_map,List.length_range]) fun place _ within => ?_
  have member : (block,place) ∈ Iso18004.interleaving (blocks.map List.length) := by
    refine mem_interleaving inSizes ?_
    rw [List.getD_eq_getElem?_getD,List.getElem?_eq_getElem inSizes,Option.getD_some,
      List.getElem_map]
    exact within
  have found := List.idxOf_lt_length_iff.mpr member
  rw [List.getElem_map,List.getElem_range,interleave_eq,List.getD_eq_getElem?_getD,
    List.getElem?_append_left (by rwa [List.length_map]),List.getElem?_map,
    List.getElem?_eq_getElem found,List.getElem_idxOf found,Option.map_some,Option.getD_some,
    List.getD_eq_getElem?_getD,List.getD_eq_getElem?_getD,List.getElem?_eq_getElem inside,
    Option.getD_some,List.getElem?_eq_getElem within,Option.getD_some]

/-- How often a block of some size takes its turn. -/
theorem turns_sum (size turns : Nat) :
    ((List.range turns).map fun place => if place < size then 1 else 0).sum = min size turns := by
  induction turns with
  | zero => simp
  | succ turns ih =>
    rw [List.range_succ,List.map_append,List.sum_append,ih,List.map_singleton,List.sum_singleton]
    split <;> omega

theorem turns_length (blocks : List (List Nat)) {turns : Nat}
    (enough : ∀ block ∈ blocks, block.length ≤ turns) :
    ((List.range turns).map fun place => (blocks.filterMap (·[place]?)).length).sum =
      (blocks.map List.length).sum := by
  induction blocks with
  | nil => simp
  | cons first rest ih =>
    have split (place : Nat) : ((first :: rest).filterMap (·[place]?)).length =
        (if place < first.length then 1 else 0) + (rest.filterMap (·[place]?)).length := by
      by_cases inside : place < first.length
      · simp [inside,Nat.add_comm]
      · simp [inside]
    simp only [split]
    rw [List.sum_map_add,turns_sum,ih fun block later => enough block (List.mem_cons_of_mem _ later),
      Nat.min_eq_left (enough first List.mem_cons_self),List.map_cons,List.sum_cons]

theorem interleave_length (blocks : List (List Nat)) :
    (interleave blocks).length = (blocks.map List.length).sum := by
  rw [interleave,List.length_flatMap]
  refine turns_length blocks fun block member => ?_
  exact (le_foldl_max _ 0).2 _ (List.mem_map_of_mem member)

end Interleaving

section Slices
variable {α : Type}

theorem slices_lengths {sizes : List Nat} {items : List α} (whole : items.length = sizes.sum) :
    (slices sizes items).map List.length = sizes := by
  induction sizes generalizing items with
  | nil => rfl
  | cons size rest ih =>
    rw [List.sum_cons] at whole
    rw [slices,List.map_cons,List.length_take,ih (by rw [List.length_drop]; omega)]
    congr 1
    omega

/-- The parts are the whole, in order. -/
theorem slices_flatten {sizes : List Nat} {items : List α} (whole : items.length = sizes.sum) :
    (slices sizes items).flatten = items := by
  induction sizes generalizing items with
  | nil => exact (List.eq_nil_of_length_eq_zero whole).symm
  | cons size rest ih =>
    rw [List.sum_cons] at whole
    rw [slices,List.flatten_cons,ih (by rw [List.length_drop]; omega),List.take_append_drop]

end Slices

section Bits

theorem put_succ (value width : Nat) :
    put value (width + 1) = value.testBit width :: put value width := by
  rw [put,List.range_succ,List.reverse_append,List.reverse_singleton,List.singleton_append,
    List.map_cons,put]

theorem put_length (value width : Nat) : (put value width).length = width := by
  rw [put,List.length_map,List.length_reverse,List.length_range]

theorem number_from (bits : List Bool) (start : Nat) :
    bits.foldl (fun value bit => 2 * value + bit.toNat) start =
      start * 2 ^ bits.length + Iso18004.number bits := by
  induction bits generalizing start with
  | nil => simp [Iso18004.number]
  | cons bit rest ih =>
    have whole : Iso18004.number (bit :: rest) =
        (2 * 0 + bit.toNat) * 2 ^ rest.length + Iso18004.number rest := ih _
    rw [List.foldl_cons,ih,whole,List.length_cons,Nat.pow_succ]
    ring

theorem number_cons (bit : Bool) (bits : List Bool) :
    Iso18004.number (bit :: bits) = bit.toNat * 2 ^ bits.length + Iso18004.number bits := by
  rw [Iso18004.number,List.foldl_cons,number_from,Nat.mul_zero,Nat.zero_add]

/-- A number is read as it was put. -/
theorem number_put (value width : Nat) : Iso18004.number (put value width) = value % 2 ^ width := by
  induction width with
  | zero => rw [pow_zero,Nat.mod_one]; rfl
  | succ width ih =>
    rw [put_succ,number_cons,put_length,ih,Nat.testBit_eq_decide_div_mod_eq,Nat.pow_succ,
      Nat.mod_mul,Nat.mul_comm (2 ^ width),Nat.add_comm]
    rcases Nat.mod_two_eq_zero_or_one (value / 2 ^ width) with even | odd
    · simp [even]
    · simp [odd]

theorem number_lt (bits : List Bool) : Iso18004.number bits < 2 ^ bits.length := by
  induction bits with
  | nil => decide
  | cons bit rest ih =>
    have small : bit.toNat ≤ 1 := Bool.toNat_le bit
    have scaled := Nat.mul_le_mul_right (2 ^ rest.length) small
    rw [number_cons,List.length_cons,Nat.pow_succ]
    omega

/-- The bits of a number are put as they were read. -/
theorem put_number (bits : List Bool) : put (Iso18004.number bits) bits.length = bits := by
  induction bits with
  | nil => rfl
  | cons bit rest ih =>
    have digit (i : Nat) : (Iso18004.number (bit :: rest)).testBit i =
        if i < rest.length then (Iso18004.number rest).testBit i
        else bit.toNat.testBit (i - rest.length) := by
      rw [number_cons,Nat.mul_comm,Nat.testBit_two_pow_mul_add _ (number_lt rest)]
    rw [List.length_cons,put_succ,digit,if_neg (Nat.lt_irrefl _),Nat.sub_self]
    congr 1
    · cases bit <;> rfl
    · conv_rhs => rw [← ih]
      refine List.map_congr_left fun i member => ?_
      rw [digit,if_pos (by simpa using member)]

/-- Whole bytes have the bits they were packed from. -/
theorem packBytes_bits (count : Nat) {bits : List Bool} (whole : bits.length = 8 * count) :
    (packBytes count bits).flatMap (put · 8) = bits := by
  induction count generalizing bits with
  | zero => exact (List.eq_nil_of_length_eq_zero whole).symm
  | succ count ih =>
    match bits, whole with
    | a :: b :: c :: d :: e :: f :: g :: h :: rest, whole =>
      have later : rest.length = 8 * count := by
        simp only [List.length_cons] at whole
        omega
      rw [packBytes,List.flatMap_cons]
      change put (Iso18004.number [a,b,c,d,e,f,g,h]) 8 ++
        (packBytes count rest).flatMap (put · 8) = _
      rw [ih later]
      exact congrArg (· ++ rest) (put_number [a,b,c,d,e,f,g,h])

theorem packBytes_length (count : Nat) (bits : List Bool) : (packBytes count bits).length = count := by
  induction count generalizing bits with
  | zero => rfl
  | succ count ih => rw [packBytes,List.length_cons,ih]

theorem packBytes_bytes (count : Nat) (bits : List Bool) : Bytes (packBytes count bits) := by
  induction count generalizing bits with
  | zero => exact fun _ member => absurd member List.not_mem_nil
  | succ count ih =>
    intro codeword member
    rcases List.mem_cons.mp member with rfl | later
    · have bound := number_lt ((List.range 8).map fun i => bits.getD i false)
      rw [List.length_map,List.length_range,Iso18004.number,List.foldl_map] at bound
      exact bound
    · exact ih _ codeword later

theorem numbers_put {data : List Nat} (bytes : Bytes data) (behind : List Bool) :
    Iso18004.numbers 8 data.length (data.flatMap (put · 8) ++ behind) = data := by
  induction data with
  | nil => rfl
  | cons byte rest ih =>
    have small : byte < 2 ^ 8 := bytes byte List.mem_cons_self
    rw [List.flatMap_cons,List.append_assoc,List.length_cons,Iso18004.numbers,
      List.take_left' (put_length byte 8),List.drop_left' (put_length byte 8),number_put,
      Nat.mod_eq_of_lt small,ih fun other later => bytes other (List.mem_cons_of_mem _ later)]

end Bits

section Table
variable {version : Nat} {ec : QRErrorLevel}

/-- The data codewords of each block. -/
def BlockInfo.sizes (info : BlockInfo) : List Nat :=
  info.blocks.flatMap fun group => List.replicate group.count group.dataCount

theorem sizes_sum (info : BlockInfo) :
    info.sizes.sum = (info.blocks.map fun group => group.count * group.dataCount).sum := by
  rw [BlockInfo.sizes]
  induction info.blocks with
  | nil => rfl
  | cons group rest ih =>
    rw [List.flatMap_cons,List.sum_append,ih,List.sum_replicate,smul_eq_mul,List.map_cons,
      List.sum_cons]

theorem dataCodewordsFor_sizes {total : Nat} (known : dataCodewordsFor version ec = some total) :
    ∃ info, blockInfoFor version ec = some info ∧ info.sizes.sum = total := by
  obtain ⟨info,found,rfl⟩ := Option.map_eq_some_iff.mp known
  exact ⟨info,found,sizes_sum info⟩

set_option maxRecDepth 4000 in
/-- The number of data codewords of a version can be counted in its indicator. -/
theorem dataCodewordsFor_small : ∀ version < 21, ∀ ec,
    (dataCodewordsFor version ec).all (· < 2 ^ charCountBits version) = true := by
  intro version bound ec
  cases ec <;> revert version <;> decide

set_option maxRecDepth 4000 in
theorem ecCodewords_pos : ∀ version < 21, ∀ ec,
    (blockInfoFor version ec).all (0 < ·.ecCodewordsPerBlock) = true := by
  intro version bound ec
  cases ec <;> revert version <;> decide

theorem firstFitting_fits {dataLen : Nat} {versions : List Nat}
    (found : firstFitting dataLen ec versions = some version) :
    ∃ total, dataCodewordsFor version ec = some total ∧
      4 + charCountBits version + dataLen * 8 ≤ total * 8 := by
  induction versions with
  | nil => cases found
  | cons first rest ih =>
    rw [firstFitting] at found
    obtain ⟨total,known,found⟩ := Option.bind_eq_some_iff.mp found
    split at found
    · rename_i fits
      obtain rfl := Option.some.inj found
      exact ⟨total,known,fits⟩
    · exact ih found

/-- What a selected version promises. -/
theorem selectVersion_fits {dataLen : Nat} {minVersion : Int}
    (selected : selectVersion dataLen ec minVersion = some version) :
    version < 21 ∧ ∃ total, dataCodewordsFor version ec = some total ∧
      4 + charCountBits version + dataLen * 8 ≤ total * 8 := by
  have member := List.mem_range'_1.mp (firstFitting_mem selected)
  exact ⟨by omega,firstFitting_fits selected⟩

/-- Every version takes all that it has room for. -/
theorem selectVersion_self {dataLen total : Nat} (least : 1 ≤ version) (bound : version < 21)
    (known : dataCodewordsFor version ec = some total)
    (fits : 4 + charCountBits version + dataLen * 8 ≤ total * 8) :
    selectVersion dataLen ec version = some version := by
  have first : (max 1 (version : Int)).toNat = version := by omega
  obtain ⟨rest,more⟩ : ∃ rest, 21 - version = rest + 1 :=
    Nat.exists_eq_succ_of_ne_zero (by omega)
  rw [selectVersion,first,more,List.range'_succ,firstFitting,known,Option.bind_eq_bind,
    Option.bind_some,if_pos fits]
  rfl

end Table

section Data
variable {version total : Nat} {ec : QRErrorLevel} {data : List Nat}

/-- Mode, length, bytes and terminator. -/
def segment (version : Nat) (data : List Nat) : List Bool :=
  put 4 4 ++ put data.length (charCountBits version) ++ data.flatMap (put · 8) ++ put 0 4

theorem flatMap_put_length (values : List Nat) : (values.flatMap (put · 8)).length = values.length * 8 := by
  induction values with
  | nil => rfl
  | cons value rest ih =>
    rw [List.flatMap_cons,List.length_append,put_length,ih,List.length_cons]
    omega

theorem segment_length (version : Nat) (data : List Nat) :
    (segment version data).length = 8 + charCountBits version + data.length * 8 := by
  simp only [segment,List.length_append,put_length,flatMap_put_length]
  omega

theorem charCountBits_cases (version : Nat) :
    charCountBits version = 8 ∨ charCountBits version = 16 := by
  unfold charCountBits
  split
  · exact .inl rfl
  · exact .inr rfl

/-- Four bits or more are always left for the terminator, and it ends a byte. -/
theorem encodeDataBytes_eq (known : dataCodewordsFor version ec = some total)
    (fits : 4 + charCountBits version + data.length * 8 ≤ total * 8) :
    ∃ pads, (segment version data ++ pads).length = 8 * total ∧
      encodeDataBytes data version ec = some (packBytes total (segment version data ++ pads)) := by
  have width := charCountBits_cases version
  have terminated : put 4 4 ++ put data.length (charCountBits version) ++ data.flatMap (put · 8) ++
      put 0 (min 4 (total * 8 - (put 4 4 ++ put data.length (charCountBits version) ++
        data.flatMap (put · 8)).length)) = segment version data := by
    have left : min 4 (total * 8 - (put 4 4 ++ put data.length (charCountBits version) ++
        data.flatMap (put · 8)).length) = 4 := by
      simp only [List.length_append,put_length,flatMap_put_length]
      omega
    rw [left,segment]
  have length := segment_length version data
  have aligned : (8 - (segment version data).length % 8) % 8 = 0 := by omega
  have whole : (segment version data ++
      (List.range ((total * 8 - (segment version data).length) / 8)).flatMap fun i =>
        put (if i % 2 = 0 then 0xec else 0x11) 8).length = 8 * total := by
    rw [← List.flatMap_map (fun i => if i % 2 = 0 then 0xec else 0x11) (put · 8),List.length_append,
      flatMap_put_length,List.length_map,List.length_range,length]
    omega
  refine ⟨_,whole,?_⟩
  have count : (8 * total + 7) / 8 = total := by omega
  rw [encodeDataBytes,known]
  simp only [Option.bind_eq_bind,Option.bind_some]
  rw [terminated,aligned,List.replicate_zero,List.append_nil,bytes,whole,count]
  rfl

/-- The segment is read up to its terminator. -/
theorem segments_segment (bytes : Bytes data) (counted : data.length < 2 ^ charCountBits version)
    (fuel : Nat) (pads : List Bool) :
    Iso18004.segments version (fuel + 2) (segment version data ++ pads) = some data := by
  have indicator : Iso18004.countBits version = charCountBits version := by
    unfold Iso18004.countBits charCountBits
    split <;> split <;> omega
  have terminated : Iso18004.segments version (fuel + 1) (put 0 4 ++ pads) = some [] := by
    rw [Iso18004.segments,if_neg (by rw [List.length_append,put_length]; omega),
      List.take_left' (put_length 0 4),number_put]
    rfl
  have mode : put 4 4 ++ put data.length (charCountBits version) ++ data.flatMap (put · 8) ++
      put 0 4 ++ pads = put 4 4 ++ (put data.length (charCountBits version) ++
        (data.flatMap (put · 8) ++ (put 0 4 ++ pads))) := by
    simp only [List.append_assoc]
  rw [segment,mode,Iso18004.segments,if_neg (by rw [List.length_append,put_length]; omega),
    List.take_left' (put_length 4 4),List.drop_left' (put_length 4 4),number_put]
  have byteMode : 4 % 2 ^ 4 = 4 := by decide
  have present : ¬(data.flatMap (put · 8) ++ (put 0 4 ++ pads)).length < 8 * data.length := by
    rw [List.length_append,flatMap_put_length]
    omega
  have last : (data.flatMap (put · 8)).length = 8 * data.length := by
    rw [flatMap_put_length,Nat.mul_comm]
  rw [byteMode]
  dsimp only
  rw [indicator,if_neg (by rw [List.length_append,put_length]; omega),
    List.take_left' (put_length _ _),List.drop_left' (put_length _ _),number_put,
    Nat.mod_eq_of_lt counted,if_neg present,List.drop_left' last,terminated,numbers_put bytes]
  simp

theorem readData_packBytes (bytes : Bytes data)
    (counted : data.length < 2 ^ charCountBits version) {pads : List Bool}
    (whole : (segment version data ++ pads).length = 8 * total) :
    Iso18004.readData version (packBytes total (segment version data ++ pads)) = some data := by
  have length := segment_length version data
  obtain ⟨fuel,rfl⟩ : ∃ fuel, total = fuel + 1 := by
    refine Nat.exists_eq_succ_of_ne_zero ?_
    rintro rfl
    rw [List.length_append] at whole
    omega
  have unpacked := packBytes_bits (fuel + 1) whole
  rw [Iso18004.readData,packBytes_length]
  change Iso18004.segments version (fuel + 2) (List.flatMap (put · 8) _) = _
  rw [unpacked]
  exact segments_segment bytes counted fuel pads

end Data

section Blocks
variable {version total : Nat} {ec : QRErrorLevel} {data encoded : List Nat}

set_option maxRecDepth 4000 in
/-- The blocks are those of the standard's table. -/
theorem blockTable_standard : ∀ version < 21, ∀ ec, (blockInfoFor version ec).all fun info =>
    (Iso18004.blocks (match ec with | .L => .L | .M => .M))[version - 1]? =
        some (info.sizes.length,info.ecCodewordsPerBlock) ∧
      info.sizes = Iso18004.blockSizes info.sizes.length info.sizes.sum := by
  intro version bound ec
  cases ec <;> revert version <;> decide

theorem bytes_slices {sizes : List Nat} (bytes : Bytes encoded)
    (whole : encoded.length = sizes.sum) : ∀ block ∈ slices sizes encoded, Bytes block := by
  intro block member codeword inside
  refine bytes codeword ?_
  rw [← slices_flatten whole]
  exact List.mem_flatten.mpr ⟨block,member,inside⟩

/-- What the reader finds in the codewords that are built from data of the right length. -/
theorem buildCodewords_blocks {info : BlockInfo} (found : blockInfoFor version ec = some info)
    (known : dataCodewordsFor version ec = some info.sizes.sum)
    (positive : 0 < info.ecCodewordsPerBlock) (bytes : Bytes encoded)
    (whole : encoded.length = info.sizes.sum) :
    ∃ codewords, buildCodewords encoded version ec = some codewords ∧
      Iso18004.deinterleaved info.sizes (codewords.take info.sizes.sum) =
        slices info.sizes encoded ∧
      Iso18004.deinterleaved (info.sizes.map fun _ => info.ecCodewordsPerBlock)
          (codewords.drop info.sizes.sum) =
        (slices info.sizes encoded).map fun block => rsEncode block info.ecCodewordsPerBlock := by
  have lengths := slices_lengths whole
  have front : (interleave (slices info.sizes encoded)).length = info.sizes.sum := by
    rw [interleave_length,lengths]
  have check : ((slices info.sizes encoded).map fun block =>
      rsEncode block info.ecCodewordsPerBlock).map List.length =
        info.sizes.map fun _ => info.ecCodewordsPerBlock := by
    rw [← lengths,List.map_map,List.map_map,lengths]
    refine List.map_congr_left fun block member => ?_
    exact (rsEncode_division positive (bytes_slices bytes whole block member)).2.1
  refine ⟨interleave (slices info.sizes encoded) ++ interleave ((slices info.sizes encoded).map
    fun block => rsEncode block info.ecCodewordsPerBlock),?_,?_,?_⟩
  · rw [buildCodewords,found,known]
    simp only [Option.bind_eq_bind,Option.bind_some,whole,ne_eq,not_true_eq_false,if_false]
    rfl
  · have apart := deinterleaved_interleave (slices info.sizes encoded) []
    rw [List.append_nil,lengths] at apart
    rw [List.take_left' front,apart]
  · have apart := deinterleaved_interleave ((slices info.sizes encoded).map fun block =>
      rsEncode block info.ecCodewordsPerBlock) []
    rw [List.append_nil,check] at apart
    rw [List.drop_left' front,apart]

/-- The codewords of some bytes in a version, as a reader finds them: the data codewords fill the
version and read back as the bytes, the codewords come apart into the blocks of the table, and
every block with its error correction codewords is a multiple of the generator. -/
structure Readable (version : Nat) (ec : QRErrorLevel) (data : List Nat) (info : BlockInfo)
    (encoded codewords : List Nat) : Prop where
  table : blockInfoFor version ec = some info
  encode : encodeDataBytes data version ec = some encoded
  filled : dataCodewordsFor version ec = some encoded.length
  reads : Iso18004.readData version encoded = some data
  build : buildCodewords encoded version ec = some codewords
  ordered : (slices info.sizes encoded).flatten = encoded
  dataBlocks : Iso18004.deinterleaved info.sizes (codewords.take encoded.length) =
    slices info.sizes encoded
  ecBlocks : Iso18004.deinterleaved (info.sizes.map fun _ => info.ecCodewordsPerBlock)
      (codewords.drop encoded.length) =
    (slices info.sizes encoded).map fun block => rsEncode block info.ecCodewordsPerBlock
  divisible : ∀ block ∈ slices info.sizes encoded,
    (∏ i ∈ Finset.range info.ecCodewordsPerBlock, (X - C (alpha ^ i))) ∣
      ReedSolomon.poly ((block ++ rsEncode block info.ecCodewordsPerBlock).map element)

/-- Whatever bytes a version takes, their codewords are readable. -/
theorem codewords_readable {minVersion : Int} (bytes : Bytes data)
    (selected : selectVersion data.length ec minVersion = some version) :
    ∃ info encoded codewords, Readable version ec data info encoded codewords := by
  obtain ⟨bound,total,known,fits⟩ := selectVersion_fits selected
  obtain ⟨info,found,rfl⟩ := dataCodewordsFor_sizes known
  obtain ⟨pads,whole,encoded⟩ := encodeDataBytes_eq known fits
  have small : info.sizes.sum < 2 ^ charCountBits version := by
    have small := dataCodewordsFor_small version bound ec
    rw [known,Option.all_some] at small
    exact of_decide_eq_true small
  have positive : 0 < info.ecCodewordsPerBlock := by
    have positive := ecCodewords_pos version bound ec
    rw [found,Option.all_some] at positive
    exact of_decide_eq_true positive
  have length := packBytes_length info.sizes.sum (segment version data ++ pads)
  have packed := packBytes_bytes info.sizes.sum (segment version data ++ pads)
  obtain ⟨codewords,built,dataBlocks,ecBlocks⟩ :=
    buildCodewords_blocks found known positive packed length
  refine ⟨info,packBytes info.sizes.sum (segment version data ++ pads),codewords,?_⟩
  constructor
  · exact found
  · exact encoded
  · rw [length,known]
  · exact readData_packBytes bytes (by omega) whole
  · exact built
  · exact slices_flatten length
  · rw [length,dataBlocks]
  · rw [length,ecBlocks]
  · exact fun block member => generator_dvd_block positive (bytes_slices packed length block member)

theorem codewords_readable_sample :
    ∃ info encoded codewords, Readable 1 .M [84,79,78] info encoded codewords :=
  @codewords_readable 1 .M [84,79,78] 1 (by simp [Bytes]) (by decide +kernel)

end Blocks

end Tonbankcard.QrCode
