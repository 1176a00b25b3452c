import Mathlib.Data.List.Basic
import Tonbankcard.QrCode
import Tonbankcard.Iso18004

/-! What a reader of the standard makes of the symbols of the generator: the second copy of the
format information runs the other way, so that no reader that compares the copies takes one. -/
namespace Tonbankcard.QrCode

open EcmaScript

section Squares

def Square (size : Nat) (m : Matrix) : Prop := m.length = size ∧ ∀ row ∈ m, row.length = size

variable {size : Nat} {m : Matrix}

theorem square_makeMatrix (size : Nat) : Square size (makeMatrix size) := by
  constructor
  · exact List.length_replicate
  · intro row member
    rw [List.eq_of_mem_replicate member]
    exact List.length_replicate

theorem Square.set (square : Square size m) (place : Nat × Nat) (value : Bool) :
    Square size (m.set place value) := by
  constructor
  · rw [Matrix.set,List.length_modify]
    exact square.1
  · intro row member
    obtain ⟨y,at_y⟩ := List.mem_iff_getElem?.mp member
    rw [Matrix.set,List.getElem?_modify,Option.map_eq_map,Option.map_eq_some_iff] at at_y
    obtain ⟨old,at_old,rfl⟩ := at_y
    have length := square.2 old (List.mem_of_getElem? at_old)
    split <;> simp [length]

/-- A write is seen at its place and nowhere else. -/
theorem Square.get_set (square : Square size m) {y x : Nat} (inY : y < size) (inX : x < size)
    (place : Nat × Nat) (value : Bool) :
    (m.set place value).get y x = if place = (y,x) then value else m.get y x := by
  obtain ⟨row,at_y⟩ : ∃ row, m[y]? = some row :=
    ⟨_,List.getElem?_eq_getElem (square.1.symm ▸ inY)⟩
  have length : row.length = size := square.2 row (List.mem_of_getElem? at_y)
  simp only [Matrix.get,Matrix.set,List.getD_eq_getElem?_getD,List.getElem?_modify,at_y]
  by_cases sameY : place.1 = y
  · by_cases sameX : place.2 = x
    · simp [sameX,length,inX,Prod.ext_iff,sameY]
    · simp [sameX,Prod.ext_iff,sameY]
  · simp [sameY,Prod.ext_iff]

theorem square_writes (square : Square size m) (places : List ι) (place : ι → Nat × Nat)
    (value : ι → Bool) :
    Square size (places.foldl (fun m i => m.set (place i) (value i)) m) := by
  induction places generalizing m with
  | nil => exact square
  | cons i rest ih => exact ih (square.set (place i) (value i))

theorem get_writes_other (square : Square size m) {y x : Nat} (inY : y < size) (inX : x < size)
    (places : List ι) (place : ι → Nat × Nat) (value : ι → Bool)
    (apart : ∀ i ∈ places, place i ≠ (y,x)) :
    (places.foldl (fun m i => m.set (place i) (value i)) m).get y x = m.get y x := by
  induction places generalizing m with
  | nil => rfl
  | cons i rest ih =>
    rw [List.foldl_cons,ih (square.set (place i) (value i)) fun j member =>
      apart j (List.mem_cons_of_mem i member),square.get_set inY inX,
      if_neg (apart i List.mem_cons_self)]

/-- Of writes to different places each is seen. -/
theorem get_writes (square : Square size m) {y x : Nat} (inY : y < size) (inX : x < size)
    {places : List ι} (place : ι → Nat × Nat) (value : ι → Bool) (different : places.Nodup)
    (injective : ∀ i ∈ places, ∀ j ∈ places, place i = place j → i = j) {i : ι}
    (member : i ∈ places) (at_i : place i = (y,x)) :
    (places.foldl (fun m i => m.set (place i) (value i)) m).get y x = value i := by
  induction places generalizing m with
  | nil => cases member
  | cons first rest ih =>
    obtain ⟨fresh,different⟩ := List.nodup_cons.mp different
    rcases List.mem_cons.mp member with rfl | member
    · rw [List.foldl_cons,get_writes_other (square.set (place i) (value i)) inY inX,
        square.get_set inY inX,if_pos at_i]
      intro j later same
      have := injective i List.mem_cons_self j (List.mem_cons_of_mem i later) (at_i.trans same.symm)
      exact fresh (this ▸ later)
    · exact ih (square.set (place first) (value first)) different
        (fun a inA b inB => injective a (List.mem_cons_of_mem first inA) b
          (List.mem_cons_of_mem first inB)) member

end Squares

section Symbols

variable {size : Nat} {m : Matrix} {canvas : Canvas}

theorem Square.draw (square : Square size canvas.m) (y x : Nat) (value : Bool) :
    Square size (canvas.draw y x value).m :=
  square.set (y,x) value

theorem square_foldl {step : Canvas → ι → Canvas} (items : List ι)
    (kept : ∀ canvas i, Square size canvas.m → Square size (step canvas i).m)
    (square : Square size canvas.m) : Square size (items.foldl step canvas).m := by
  induction items generalizing canvas with
  | nil => exact square
  | cons i rest ih => exact ih (kept canvas i square)

theorem square_placeFinderPattern (x y : Nat) (square : Square size canvas.m) :
    Square size (placeFinderPattern x y canvas).m := by
  apply square_foldl (offsets (-1) 7)
  · rintro canvas ⟨dy,dx⟩ square
    dsimp only
    split
    · exact square
    · exact square.draw _ _ _
  · exact square

theorem square_placeAlignmentPattern (cx cy : Nat) (square : Square size canvas.m) :
    Square size (placeAlignmentPattern cx cy canvas).m := by
  apply square_foldl (offsets (-2) 2)
  · rintro canvas ⟨dy,dx⟩ square
    exact square.draw _ _ _
  · exact square

theorem square_placeAlignmentPatterns (version : Nat) (square : Square size canvas.m) :
    Square size (placeAlignmentPatterns version canvas).m := by
  apply square_foldl
  · intro canvas cy square
    apply square_foldl
    · intro canvas cx square
      split
      · exact square
      · exact square_placeAlignmentPattern cx cy square
    · exact square
  · exact square

theorem square_placeTimingPatterns (square : Square size canvas.m) :
    Square size (placeTimingPatterns size canvas).m := by
  apply square_foldl (List.range' 8 (size - 16))
  · intro canvas i square
    exact (square.draw 6 i _).draw i 6 _
  · exact square

/-- Reserving draws nothing. -/
theorem square_reserveFormatArea (square : Square size canvas.m) :
    Square size (reserveFormatArea size canvas).m := by
  unfold reserveFormatArea
  apply square_foldl (List.range 8)
  · intro canvas i square
    exact square
  · apply square_foldl (List.range 9)
    · intro canvas i square
      exact square
    · exact square

theorem square_reserveVersionArea (version : Nat) (square : Square size canvas.m) :
    Square size (reserveVersionArea version size canvas).m := by
  unfold reserveVersionArea
  split
  · exact square
  · apply square_foldl (List.range 6)
    · intro canvas i square
      apply square_foldl (List.range 3)
      · intro canvas j square
        exact square
      · exact square
    · exact square

theorem square_functionPatterns (version size : Nat) :
    Square size (functionPatterns version size).m := by
  apply square_reserveVersionArea
  apply Square.draw
  apply square_placeTimingPatterns
  apply square_placeAlignmentPatterns
  apply square_reserveFormatArea
  apply square_placeFinderPattern
  apply square_placeFinderPattern
  apply square_placeFinderPattern
  exact square_makeMatrix size

theorem square_placeData (data : List Nat) (square : Square size canvas.m) :
    Square size (placeData canvas data) := by
  have kept (places : List (Nat × Nat)) (start : Matrix × Nat) (begun : Square size start.1) :
      Square size (places.foldl (fun state place =>
        if canvas.reserved.get place.1 place.2 then state
        else (state.1.set place (dataBit data state.2),state.2 + 1)) start).1 := by
    induction places generalizing start with
    | nil => exact begun
    | cons place rest ih =>
      apply ih
      dsimp only
      split
      · exact begun
      · exact begun.set _ _
  exact kept (zigzag canvas.m.length) (canvas.m,0) square

theorem square_applyMask (reserved : Matrix) (pattern : Nat) (square : Square size m) :
    Square size (applyMask m reserved pattern) := by
  constructor
  · rw [applyMask,List.length_mapIdx]
    exact square.1
  · intro row member
    obtain ⟨y,below,rfl⟩ := List.mem_mapIdx.mp member
    rw [List.length_mapIdx]
    exact square.2 m[y] (List.getElem_mem below)

end Symbols

section Reading

variable {size : Nat} {m : Matrix}

theorem formatModule_injective : ∀ i ∈ List.range 15, ∀ j ∈ List.range 15,
    formatModule i = formatModule j → i = j := by
  decide

theorem splitFormatModule_injective (large : 21 ≤ size) : ∀ i ∈ List.range 15,
    ∀ j ∈ List.range 15, splitFormatModule size i = splitFormatModule size j → i = j := by
  intro i inI j inJ same
  rw [List.mem_range] at inI inJ
  unfold splitFormatModule at same
  split at same <;> split at same <;> simp only [Prod.mk.injEq] at same <;> omega

theorem formatModule_bound : ∀ i < 15, (formatModule i).1 ≤ 8 ∧ (formatModule i).2 ≤ 8 ∧
    ((formatModule i).1 = 8 ∨ (formatModule i).2 = 8) := by
  decide

theorem splitFormatModule_bound {i : Nat} (large : 21 ≤ size) (inI : i < 15) :
    ((splitFormatModule size i).1 < size ∧ size - 8 < (splitFormatModule size i).1 ∧
      (splitFormatModule size i).2 = 8) ∨
    ((splitFormatModule size i).1 = 8 ∧ size - 8 ≤ (splitFormatModule size i).2 ∧
      (splitFormatModule size i).2 < size) := by
  unfold splitFormatModule
  split <;> dsimp only <;> omega

theorem square_placeFormatInfo (square : Square size m) (ec : QRErrorLevel) (mask : Nat) :
    Square size (placeFormatInfo m ec mask) :=
  (square_writes (square_writes square _ _ _) _ _ _).set _ _

theorem placeFormatInfo_first (square : Square size m) (large : 21 ≤ size) (ec : QRErrorLevel)
    (mask : Nat) {i : Nat} (inI : i < 15) :
    (placeFormatInfo m ec mask).get (formatModule i).1 (formatModule i).2 =
      (formatInfoBits ec mask).testBit i := by
  have bound := formatModule_bound i inI
  have inY : (formatModule i).1 < size := by omega
  have inX : (formatModule i).2 < size := by omega
  have once := square_writes square (List.range 15) formatModule (formatInfoBits ec mask).testBit
  unfold placeFormatInfo
  rw [(square_writes once _ _ _).get_set inY inX,if_neg,get_writes_other once inY inX,
    get_writes square inY inX formatModule _ List.nodup_range formatModule_injective
      (List.mem_range.mpr inI) rfl]
  · intro j inJ same
    have := splitFormatModule_bound large (List.mem_range.mp inJ)
    rw [square.1] at same
    rw [same] at this
    dsimp only at this
    omega
  · intro same
    rw [square.1,Prod.ext_iff] at same
    dsimp only at same
    omega

theorem placeFormatInfo_second (square : Square size m) (large : 21 ≤ size) (ec : QRErrorLevel)
    (mask : Nat) {i : Nat} (inI : i < 15) :
    (placeFormatInfo m ec mask).get (splitFormatModule size i).1 (splitFormatModule size i).2 =
      (formatInfoBits ec mask).testBit i := by
  have bound := splitFormatModule_bound large inI
  have inY : (splitFormatModule size i).1 < size := by omega
  have inX : (splitFormatModule size i).2 < size := by omega
  have once := square_writes square (List.range 15) formatModule (formatInfoBits ec mask).testBit
  unfold placeFormatInfo
  rw [square.1,(square_writes once _ _ _).get_set inY inX,if_neg,
    get_writes once inY inX (splitFormatModule size) _ List.nodup_range
      (splitFormatModule_injective large) (List.mem_range.mpr inI) rfl]
  intro same
  rw [Prod.ext_iff] at same
  dsimp only at same
  omega

/-- The version information stays clear of the row and the column of the format information. -/
theorem placeVersionInfo_get (square : Square size m) {version y x : Nat}
    (wide : size = 17 + 4 * version) (inY : y < size) (inX : x < size) (format : y = 8 ∨ x = 8) :
    (placeVersionInfo m version).get y x = m.get y x := by
  unfold placeVersionInfo
  split
  · rfl
  next tall =>
    have kept (places : List Nat) (m : Matrix) (square : Square size m)
        (inRange : ∀ i ∈ places, i < 18) :
        (places.foldl (fun m i => (m.set (i / 3,i % 3 + size - 11)
          ((versionInfoBits version).testBit i)).set (i % 3 + size - 11,i / 3)
            ((versionInfoBits version).testBit i)) m).get y x = m.get y x := by
      induction places generalizing m with
      | nil => rfl
      | cons i rest ih =>
        have low := inRange i List.mem_cons_self
        rw [List.foldl_cons,ih _ ((square.set _ _).set _ _) fun j later =>
          inRange j (List.mem_cons_of_mem i later),(square.set _ _).get_set inY inX,if_neg,
          square.get_set inY inX,if_neg]
        all_goals
          rw [Prod.ext_iff]
          dsimp only
          omega
    dsimp only
    rw [square.1]
    exact kept (List.range 18) m square fun i => List.mem_range.mp

theorem square_placeVersionInfo (square : Square size m) (version : Nat) :
    Square size (placeVersionInfo m version) := by
  unfold placeVersionInfo
  split
  · exact square
  · have kept (places : List Nat) (m : Matrix) (square : Square size m) (row : Nat) :
        Square size (places.foldl (fun m i => (m.set (i / 3,i % 3 + row - 11)
          ((versionInfoBits version).testBit i)).set (i % 3 + row - 11,i / 3)
            ((versionInfoBits version).testBit i)) m) := by
      induction places generalizing m with
      | nil => exact square
      | cons i rest ih => exact ih _ ((square.set _ _).set _ _)
    exact kept (List.range 18) m square m.length

theorem square_candidate {base : Matrix} (square : Square size base) (reserved : Matrix)
    (version : Nat) (ec : QRErrorLevel) (mask : Nat) :
    Square size (candidate base reserved version ec mask) :=
  square_placeVersionInfo (square_placeFormatInfo (square_applyMask reserved mask square) ec mask)
    version

theorem firstCopy_places : Iso18004.firstCopy = (List.range 15).map formatModule := by
  decide

/-- The places of the second copy in the order of the standard. -/
theorem secondCopy_places (large : 21 ≤ size) :
    Iso18004.secondCopy size = (List.range 15).map fun i => splitFormatModule size (14 - i) := by
  have cases (i : Nat) : splitFormatModule size (14 - i) =
      if i < 8 then (8,size - 15 + (14 - i)) else (size - 1 - (14 - i),8) := by
    unfold splitFormatModule
    split <;> split <;> first | rfl | omega
  have parts : List.range 15 = List.range 8 ++ (List.range 7).map (8 + ·) := by decide
  rw [parts,List.map_append,List.map_map,Iso18004.secondCopy]
  congr 1 <;> refine List.map_congr_left fun i member => ?_
  · have := List.mem_range.mp member
    rw [cases,if_pos this]
    congr 1
    omega
  · have := List.mem_range.mp member
    rw [Function.comp_apply,cases,if_neg (by omega)]
    congr 1
    omega

section Copies

variable {base : Matrix} {version : Nat}

theorem candidate_firstCopy (square : Square size base) (wide : size = 17 + 4 * version)
    (large : 21 ≤ size) (reserved : Matrix) (ec : QRErrorLevel) (mask : Nat) :
    Iso18004.readBits (candidate base reserved version ec mask) Iso18004.firstCopy =
      (List.range 15).map (formatInfoBits ec mask).testBit := by
  have masked := square_applyMask reserved mask square
  rw [firstCopy_places,Iso18004.readBits,List.map_map]
  refine List.map_congr_left fun i member => ?_
  have inI := List.mem_range.mp member
  have bound := formatModule_bound i inI
  calc (candidate base reserved version ec mask).get (formatModule i).1 (formatModule i).2
      = (placeFormatInfo (applyMask base reserved mask) ec mask).get (formatModule i).1
          (formatModule i).2 :=
        placeVersionInfo_get (square_placeFormatInfo masked ec mask) wide (by omega) (by omega)
          bound.2.2
    _ = (formatInfoBits ec mask).testBit i := placeFormatInfo_first masked large ec mask inI

/-- The second copy has the bits from the other end. -/
theorem candidate_secondCopy (square : Square size base) (wide : size = 17 + 4 * version)
    (large : 21 ≤ size) (reserved : Matrix) (ec : QRErrorLevel) (mask : Nat) :
    Iso18004.readBits (candidate base reserved version ec mask) (Iso18004.secondCopy size) =
      (List.range 15).map fun i => (formatInfoBits ec mask).testBit (14 - i) := by
  have masked := square_applyMask reserved mask square
  rw [secondCopy_places large,Iso18004.readBits,List.map_map]
  refine List.map_congr_left fun i member => ?_
  have inI : 14 - i < 15 := by omega
  have bound := splitFormatModule_bound large inI
  calc (candidate base reserved version ec mask).get (splitFormatModule size (14 - i)).1
        (splitFormatModule size (14 - i)).2
      = (placeFormatInfo (applyMask base reserved mask) ec mask).get
          (splitFormatModule size (14 - i)).1 (splitFormatModule size (14 - i)).2 :=
        placeVersionInfo_get (square_placeFormatInfo masked ec mask) wide (by omega) (by omega)
          (by omega)
    _ = (formatInfoBits ec mask).testBit (14 - i) :=
        placeFormatInfo_second masked large ec mask inI

set_option maxRecDepth 4000 in
/-- No format information of the generator reads the same from both ends. -/
theorem formatInfoBits_oneWay (ec : QRErrorLevel) : ∀ mask < 8,
    (List.range 15).map (formatInfoBits ec mask).testBit ≠
      (List.range 15).map fun i => (formatInfoBits ec mask).testBit (14 - i) := by
  cases ec <;> decide

/-- The two copies of a candidate differ. -/
theorem candidate_readFormat (square : Square size base) (wide : size = 17 + 4 * version)
    (large : 21 ≤ size) (reserved : Matrix) (ec : QRErrorLevel) {mask : Nat} (known : mask < 8) :
    Iso18004.readFormat (candidate base reserved version ec mask) = none := by
  have length := (square_candidate square reserved version ec mask).1
  unfold Iso18004.readFormat
  rw [length,candidate_firstCopy square wide large,candidate_secondCopy square wide large]
  exact if_neg (formatInfoBits_oneWay ec mask known)

end Copies

/-- A fold whose step keeps what it holds or takes the item ends with one of the items. -/
theorem foldl_takes {f : Option (Nat × Matrix) → Matrix → Option (Nat × Matrix)}
    (takes : ∀ score best m, f (some (score,best)) m = some (penaltyScore m,m) ∨
      f (some (score,best)) m = some (score,best))
    (candidates : List Matrix) (score : Nat) (best : Matrix) :
    ∃ score', ∃ best' ∈ best :: candidates,
      candidates.foldl f (some (score,best)) = some (score',best') := by
  induction candidates generalizing score best with
  | nil => exact ⟨score,best,List.mem_cons_self,rfl⟩
  | cons m rest ih =>
    rw [List.foldl_cons]
    rcases takes score best m with taken | kept
    · obtain ⟨score',best',member,found⟩ := ih (penaltyScore m) m
      exact ⟨score',best',List.mem_cons_of_mem best member,by rw [taken,found]⟩
    · obtain ⟨score',best',member,found⟩ := ih score best
      refine ⟨score',best',?_,by rw [kept,found]⟩
      rcases List.mem_cons.mp member with rfl | later
      · exact List.mem_cons_self
      · exact List.mem_cons_of_mem best (List.mem_cons_of_mem m later)

theorem bestCandidate_mem {candidates : List Matrix} (nonempty : candidates ≠ []) :
    ∃ score, ∃ best ∈ candidates, bestCandidate candidates = some (score,best) := by
  obtain ⟨first,rest,rfl⟩ := List.exists_cons_of_ne_nil nonempty
  refine foldl_takes (fun score best m => ?_) rest (penaltyScore first) first
  dsimp only
  split
  · exact .inl rfl
  · exact .inr rfl

theorem firstFitting_mem {dataLen : Nat} {ec : QRErrorLevel} {versions : List Nat} {version : Nat}
    (found : firstFitting dataLen ec versions = some version) : version ∈ versions := by
  induction versions with
  | nil => cases found
  | cons first rest ih =>
    rw [firstFitting] at found
    obtain ⟨total,-,found⟩ := Option.bind_eq_some_iff.mp found
    split at found
    · cases found
      exact List.mem_cons_self
    · exact List.mem_cons_of_mem first (ih found)

theorem selectVersion_pos {dataLen : Nat} {ec : QRErrorLevel} {minVersion : Int} {version : Nat}
    (found : selectVersion dataLen ec minVersion = some version) : 1 ≤ version := by
  have := List.mem_range'_1.mp (firstFitting_mem found)
  omega

/-- A symbol is a candidate of its version. -/
theorem generateQRMatrix_candidate {textEncoder : Bool} {data : JsString} {options : QRCodeOptions}
    {symbol : QRSymbol} (generated : generateQRMatrix textEncoder data options = some symbol) :
    1 ≤ symbol.version ∧ ∃ base reserved ec, ∃ mask < 8,
      Square (17 + 4 * symbol.version) base ∧
        symbol.matrix = candidate base reserved symbol.version ec mask := by
  unfold generateQRMatrix at generated
  dsimp only at generated
  split at generated
  · cases generated
  obtain ⟨version,selected,generated⟩ := Option.bind_eq_some_iff.mp generated
  obtain ⟨dataCodewords,-,generated⟩ := Option.bind_eq_some_iff.mp generated
  obtain ⟨finalBits,-,generated⟩ := Option.bind_eq_some_iff.mp generated
  cases generated
  refine ⟨selectVersion_pos selected,?_⟩
  dsimp only
  have square := square_placeData finalBits (square_functionPatterns version (17 + 4 * version))
  have nonempty : (List.range 8).map (candidate
      (placeData (functionPatterns version (17 + 4 * version)) finalBits)
      (functionPatterns version (17 + 4 * version)).reserved version
      (options.errorLevel.getD .M)) ≠ [] := by
    simp
  obtain ⟨score,best,member,found⟩ := bestCandidate_mem nonempty
  obtain ⟨mask,known,rfl⟩ := List.mem_map.mp member
  rw [found]
  exact ⟨_,_,_,mask,List.mem_range.mp known,square,rfl⟩

/-- A reader that follows the standard gets nothing from any symbol. -/
theorem generated_unreadable {textEncoder : Bool} {data : JsString} {options : QRCodeOptions}
    {symbol : QRSymbol} (generated : generateQRMatrix textEncoder data options = some symbol) :
    Iso18004.decode symbol.matrix = none := by
  obtain ⟨version,base,reserved,ec,mask,known,square,same⟩ := generateQRMatrix_candidate generated
  rw [same]
  have format := candidate_readFormat square rfl (by omega) reserved ec known
  unfold Iso18004.decode
  rw [format]
  exact ite_self none

/-- The bytes of the string are read from no symbol, whatever the string and the options. -/
theorem round_trip_never (textEncoder : Bool) (data : JsString) (options : QRCodeOptions)
    (symbol : QRSymbol) (generated : generateQRMatrix textEncoder data options = some symbol) :
    Iso18004.decode symbol.matrix ≠ some ((Unicode.encodeUtf8 data).map UInt8.toNat) := by
  rw [generated_unreadable generated]
  nofun

section Symbol

def defaultOptions : QRCodeOptions := ⟨none,none⟩

theorem generated_letter :
    (generateQRMatrix true (js "a") defaultOptions).isSome = true := by
  decide +kernel

theorem round_trip_never_letter : ∃ symbol,
    generateQRMatrix true (js "a") defaultOptions = some symbol ∧
      Iso18004.decode symbol.matrix ≠ some ((Unicode.encodeUtf8 (js "a")).map UInt8.toNat) := by
  obtain ⟨symbol,generated⟩ := Option.isSome_iff_exists.mp generated_letter
  exact ⟨symbol,generated,round_trip_never true (js "a") defaultOptions symbol generated⟩

theorem letter_unread : ¬∀ textEncoder data options symbol, data ≠ [] →
    generateQRMatrix textEncoder data options = some symbol →
      Iso18004.decode symbol.matrix = some ((Unicode.encodeUtf8 data).map UInt8.toNat) := by
  intro claimed
  obtain ⟨symbol,generated⟩ := Option.isSome_iff_exists.mp generated_letter
  have read := claimed true (js "a") defaultOptions symbol (by decide) generated
  rw [generated_unreadable generated] at read
  cases read

end Symbol
end Reading
end Tonbankcard.QrCode
