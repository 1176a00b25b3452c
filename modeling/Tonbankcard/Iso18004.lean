import Mathlib.Data.List.Range

/-! A reader of QR code symbols as ISO/IEC 18004 lays them out, for versions 1 to 20, levels L and
M and byte mode. It takes a symbol only where both copies of the format information agree. -/
namespace Iso18004

inductive Level where
  | L
  | M
  deriving DecidableEq

/-- Rows of modules, where `true` is dark. -/
abbrev Symbol := List (List Bool)

def module (symbol : Symbol) (y x : Nat) : Bool := (symbol.getD y []).getD x false

section Regions

def sizeOf (version : Nat) : Nat := 17 + 4 * version

/-- The centers of the alignment patterns of a version (Annex E). -/
def alignmentCenters : Nat → List Nat
  | 2 => [6,18]
  | 3 => [6,22]
  | 4 => [6,26]
  | 5 => [6,30]
  | 6 => [6,34]
  | 7 => [6,22,38]
  | 8 => [6,24,42]
  | 9 => [6,26,46]
  | 10 => [6,28,50]
  | 11 => [6,30,54]
  | 12 => [6,32,58]
  | 13 => [6,34,62]
  | 14 => [6,26,46,66]
  | 15 => [6,26,48,70]
  | 16 => [6,26,50,74]
  | 17 => [6,30,54,78]
  | 18 => [6,30,56,82]
  | 19 => [6,30,58,86]
  | 20 => [6,34,62,90]
  | _ => []

def near (center place : Nat) : Bool := center ≤ place + 2 && place ≤ center + 2

/-- The finder patterns with their separators. -/
def isFinder (size y x : Nat) : Bool :=
  (y < 8 && x < 8) || (y < 8 && size - 8 ≤ x) || (size - 8 ≤ y && x < 8)

/-- No alignment pattern stands on a finder pattern. -/
def isAlignment (version y x : Nat) : Bool :=
  let centers := alignmentCenters version
  let last := sizeOf version - 7
  centers.any fun cy => centers.any fun cx =>
    !((cy = 6 && cx = 6) || (cy = 6 && cx = last) || (cy = last && cx = 6)) &&
      near cy y && near cx x

/-- The format information and the dark module. -/
def isFormat (size y x : Nat) : Bool :=
  (y = 8 && (x ≤ 8 || size - 8 ≤ x)) || (x = 8 && (y ≤ 8 || size - 8 ≤ y))

def isVersion (version y x : Nat) : Bool :=
  let size := sizeOf version
  7 ≤ version && ((y < 6 && size - 11 ≤ x && x < size - 8) ||
    (x < 6 && size - 11 ≤ y && y < size - 8))

/-- The modules that carry no data. -/
def isFunction (version y x : Nat) : Bool :=
  isFinder (sizeOf version) y x || y = 6 || x = 6 || isAlignment version y x ||
    isFormat (sizeOf version) y x || isVersion version y x

end Regions

section Format

/-- Where the bits of the format information stand around the upper left finder pattern, the least
significant first. -/
def firstCopy : List (Nat × Nat) :=
  [(0,8),(1,8),(2,8),(3,8),(4,8),(5,8),(7,8),(8,8),(8,7),(8,5),(8,4),(8,3),(8,2),(8,1),(8,0)]

/-- Where they stand again: the lower eight below the upper right finder pattern, from the right,
and the others beside the lower left one, downwards. -/
def secondCopy (size : Nat) : List (Nat × Nat) :=
  (List.range 8).map (fun i => (8,size - 1 - i)) ++ (List.range 7).map fun i => (size - 7 + i,8)

def readBits (symbol : Symbol) (places : List (Nat × Nat)) : List Bool :=
  places.map fun place => module symbol place.1 place.2

/-- The masked format information by level and mask (Annex C). -/
def formatWords : Level → List Nat
  | .L => [0x77c4,0x72f3,0x7daa,0x789d,0x662f,0x6318,0x6c41,0x6976]
  | .M => [0x5412,0x5125,0x5e7c,0x5b4b,0x45f9,0x40ce,0x4f97,0x4aa0]

def wordOf (bits : List Bool) : Nat := bits.foldr (fun bit value => bit.toNat + 2 * value) 0

def formatOf (word : Nat) : Option (Level × Nat) :=
  match (formatWords .L).idxOf? word with
  | some mask => some (.L,mask)
  | none => ((formatWords .M).idxOf? word).map fun mask => (.M,mask)

def readFormat (symbol : Symbol) : Option (Level × Nat) :=
  let first := readBits symbol firstCopy
  let second := readBits symbol (secondCopy symbol.length)
  if first = second then formatOf (wordOf first) else none

end Format

section Codewords

/-- Whether a mask turns over the module of a row and a column. -/
def inverts (mask i j : Nat) : Bool :=
  match mask with
  | 0 => (i + j) % 2 = 0
  | 1 => i % 2 = 0
  | 2 => j % 3 = 0
  | 3 => (i + j) % 3 = 0
  | 4 => (i / 2 + j / 3) % 2 = 0
  | 5 => (i * j) % 2 + (i * j) % 3 = 0
  | 6 => ((i * j) % 2 + (i * j) % 3) % 2 = 0
  | _ => ((i + j) % 2 + (i * j) % 3) % 2 = 0

def pairs : List α → List (α × α)
  | first :: second :: rest => (first,second) :: pairs rest
  | _ => []

/-- Columns in pairs from the right without the column of the timing pattern, upwards and downwards
in turn. -/
def readingOrder (size : Nat) : List (Nat × Nat) :=
  ((pairs ((List.range size).reverse.filter (· ≠ 6))).mapIdx fun turn (right,left) =>
    (if turn % 2 = 0 then (List.range size).reverse else List.range size).flatMap fun y =>
      [(y,right),(y,left)]).flatten

/-- The data modules in reading order, unmasked. -/
def dataBits (symbol : Symbol) (version mask : Nat) : List Bool :=
  ((readingOrder symbol.length).filter fun (y,x) => !isFunction version y x).map fun (y,x) =>
    xor (module symbol y x) (inverts mask y x)

/-- A number from its bits, the highest first. -/
def number (bits : List Bool) : Nat := bits.foldl (fun value bit => 2 * value + bit.toNat) 0

/-- The whole numbers of some width that bits begin with. -/
def numbers (width : Nat) : Nat → List Bool → List Nat
  | 0, _ => []
  | count+1, bits => number (bits.take width) :: numbers width count (bits.drop width)

end Codewords

section Blocks

/-- The number of blocks and the error correction codewords of each (Table 9). -/
def blocks : Level → List (Nat × Nat)
  | .L => [(1,7),(1,10),(1,15),(1,20),(1,26),(2,18),(2,20),(2,24),(2,30),(4,18),(4,20),(4,24),(4,26),
      (4,30),(6,22),(6,24),(6,28),(6,30),(7,28),(8,28)]
  | .M => [(1,10),(1,16),(1,26),(2,18),(2,24),(4,16),(4,18),(4,22),(5,22),(5,26),(5,30),(8,22),(9,22),
      (9,24),(10,24),(10,28),(11,28),(13,26),(14,26),(16,26)]

/-- The data codewords of each block, of which the longer ones are the last. -/
def blockSizes (count total : Nat) : List Nat :=
  List.replicate (count - total % count) (total / count) ++
    List.replicate (total % count) (total / count + 1)

/-- The blocks and places that the data codewords stand for in turn. -/
def interleaving (sizes : List Nat) : List (Nat × Nat) :=
  (List.range (sizes.foldl max 0)).flatMap fun place =>
    ((List.range sizes.length).filter fun block => place < sizes.getD block 0).map fun block =>
      (block,place)

/-- The data codewords of each block. -/
def deinterleaved (sizes : List Nat) (codewords : List Nat) : List (List Nat) :=
  sizes.mapIdx fun block size => (List.range size).map fun place =>
    codewords.getD ((interleaving sizes).idxOf (block,place)) 0

/-- The data codewords of one block after the other. -/
def deinterleave (sizes : List Nat) (codewords : List Nat) : List Nat :=
  (sizes.mapIdx fun block size => (List.range size).map fun place =>
    codewords.getD ((interleaving sizes).idxOf (block,place)) 0).flatten

end Blocks

section Segments

def countBits (version : Nat) : Nat := if version ≤ 9 then 8 else 16

/-- The segments up to the terminator or the last bits, all in byte mode. -/
def segments (version : Nat) : Nat → List Bool → Option (List Nat)
  | 0, _ => none
  | fuel+1, bits =>
    if bits.length < 4 then some []
    else match number (bits.take 4) with
      | 0 => some []
      | 4 => do
        let bits := bits.drop 4
        if bits.length < countBits version then none else
          let count := number (bits.take (countBits version))
          let bits := bits.drop (countBits version)
          if bits.length < 8 * count then none else
            let rest ← segments version fuel (bits.drop (8 * count))
            pure (numbers 8 count bits ++ rest)
      | _ => none

/-- The bytes of some data codewords. -/
def readData (version : Nat) (codewords : List Nat) : Option (List Nat) :=
  segments version (codewords.length + 1)
    (codewords.flatMap fun codeword => (List.range 8).reverse.map codeword.testBit)

end Segments

/-- The bytes of a symbol. -/
def decode (symbol : Symbol) : Option (List Nat) := do
  let version := (symbol.length - 17) / 4
  if symbol.length ≠ sizeOf version ∨ version = 0 then none else
    let (level,mask) ← readFormat symbol
    let (count,ecCodewords) ← (blocks level)[version - 1]?
    let bits := dataBits symbol version mask
    let total := bits.length / 8
    let sizes := blockSizes count (total - count * ecCodewords)
    let codewords := numbers 8 total bits
    let data := (deinterleave sizes codewords).flatMap fun codeword =>
      (List.range 8).reverse.map codeword.testBit
    segments version (data.length + 1) data

end Iso18004
