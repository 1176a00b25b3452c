import Mathlib.Algebra.GroupWithZero.Nat
import Tonbankcard.Unicode

/-! The QR code generator of the wallet: the bytes of a string in byte mode, their blocks with
error correction codewords, and the module matrix with the mask of the lowest penalty. -/
namespace Tonbankcard.QrCode

open EcmaScript

inductive QRErrorLevel where
  | L
  | M
  deriving DecidableEq

/-- A least version that is no whole number is below 1 or no symbol comes of it. -/
structure QRCodeOptions where
  errorLevel : Option QRErrorLevel
  minVersion : Option Int

section Blocks

/-- Codewords for error correction in a block, and the number and the size of the blocks of two
groups, by version. -/
def blockTable : QRErrorLevel → List (Nat × Nat × Nat × Nat × Nat)
  | .L => [
    (7,1,19,0,0),
    (10,1,34,0,0),
    (15,1,55,0,0),
    (20,1,80,0,0),
    (26,1,108,0,0),
    (18,2,68,0,0),
    (20,2,78,0,0),
    (24,2,97,0,0),
    (30,2,116,0,0),
    (18,2,68,2,69),
    (20,4,81,0,0),
    (24,2,92,2,93),
    (26,4,107,0,0),
    (30,3,115,1,116),
    (22,5,87,1,88),
    (24,5,98,1,99),
    (28,1,107,5,108),
    (30,5,120,1,121),
    (28,3,113,4,114),
    (28,3,107,5,108)]
  | .M => [
    (10,1,16,0,0),
    (16,1,28,0,0),
    (26,1,44,0,0),
    (18,2,32,0,0),
    (24,2,43,0,0),
    (16,4,27,0,0),
    (18,4,31,0,0),
    (22,2,38,2,39),
    (22,3,36,2,37),
    (26,4,43,1,44),
    (30,1,50,4,51),
    (22,6,36,2,37),
    (22,8,37,1,38),
    (24,4,40,5,41),
    (24,5,41,5,42),
    (28,7,45,3,46),
    (28,10,46,1,47),
    (26,9,43,4,44),
    (26,3,44,11,45),
    (26,3,41,13,42)]

/-- Centers of alignment patterns as the generator lists them. -/
def alignmentPatterns : List (List Nat) := [
  [],
  [],
  [6,18],
  [6,22],
  [6,26],
  [6,30],
  [6,34],
  [6,22,38],
  [6,24,42],
  [6,26,46],
  [6,28,50],
  [6,30,54],
  [6,32,58],
  [6,34,62],
  [6,26,46,66],
  [6,26,48,70],
  [6,26,50,74],
  [6,30,54,78],
  [6,30,56,82],
  [6,30,58,86],
  [6,34,62,90]]

def charCountBits (version : Nat) : Nat := if version < 10 then 8 else 16

structure BlockGroup where
  count : Nat
  dataCount : Nat

structure BlockInfo where
  ecCodewordsPerBlock : Nat
  blocks : List BlockGroup

/-- `none` where the version is not supported. -/
def blockInfoFor (version : Nat) (ec : QRErrorLevel) : Option BlockInfo :=
  if version = 0 then none else
    ((blockTable ec)[version - 1]?).map fun (ecPer,g1,g1Data,g2,g2Data) =>
      ⟨ecPer,⟨g1,g1Data⟩ :: (if 0 < g2 then [⟨g2,g2Data⟩] else [])⟩

def dataCodewordsFor (version : Nat) (ec : QRErrorLevel) : Option Nat :=
  (blockInfoFor version ec).map fun info =>
    (info.blocks.map fun group => group.count * group.dataCount).sum

/-- The first of some versions that has room for data. -/
def firstFitting (dataLen : Nat) (ec : QRErrorLevel) : List Nat → Option Nat
  | [] => none
  | version :: rest => do
    let total ← dataCodewordsFor version ec
    if 4 + charCountBits version + dataLen * 8 ≤ total * 8 then pure version
    else firstFitting dataLen ec rest

def selectVersion (dataLen : Nat) (ec : QRErrorLevel) (minVersion : Int) : Option Nat :=
  let first := (max 1 minVersion).toNat
  firstFitting dataLen ec (List.range' first (21 - first))

end Blocks

section ReedSolomon

/-- Doubling in the field of 256 elements. -/
def gfDouble (x : Nat) : Nat := if 256 ≤ 2 * x then (2 * x) ^^^ 0x11d else 2 * x

/-- The powers of 2 up to the 254th. -/
def gfPowers : List Nat := List.iterate gfDouble 1 255

def gfExp (i : Nat) : Nat := gfPowers.getD (i % 255) 0
def gfLog (x : Nat) : Nat := gfPowers.idxOf x

def gfMul (a b : Nat) : Nat := if a = 0 ∨ b = 0 then 0 else gfExp (gfLog a + gfLog b)

/-- Coefficients from the highest degree on. -/
def rsGenerator (degree : Nat) : List Nat :=
  (List.range degree).foldl (fun poly i => List.zipWith (· ^^^ ·) (poly ++ [0])
    (0 :: poly.map fun coefficient => gfMul coefficient (gfExp i))) [1]

def rsEncode (data : List Nat) (ecLen : Nat) : List Nat :=
  let generator := rsGenerator ecLen
  data.foldl (fun out byte =>
    let factor := byte ^^^ out.headD 0
    let shifted := out.tail ++ [0]
    if factor = 0 then shifted
    else List.zipWith (fun value coefficient => value ^^^ gfMul coefficient factor) shifted
      generator.tail) (List.replicate ecLen 0)

end ReedSolomon

section Codewords

/-- The bits of a value in some width, the highest first. -/
def put (value bits : Nat) : List Bool := (List.range bits).reverse.map value.testBit

/-- Eight bits to the byte, where the last byte may lack some. -/
def packBytes : Nat → List Bool → List Nat
  | 0, _ => []
  | count+1, bits => ((List.range 8).foldl (fun byte i =>
      2 * byte + (bits.getD i false).toNat) 0) :: packBytes count (bits.drop 8)

def bytes (bits : List Bool) : List Nat := packBytes ((bits.length + 7) / 8) bits

/-- Cuts a list into parts of some sizes. -/
def slices : List Nat → List α → List (List α)
  | [], _ => []
  | size :: rest, items => items.take size :: slices rest (items.drop size)

/-- The items of some lists in turn, from the front of each. -/
def interleave (blocks : List (List α)) : List α :=
  (List.range ((blocks.map List.length).foldl max 0)).flatMap fun i =>
    blocks.filterMap (·[i]?)

/-- `none` where the data does not fill its codewords. -/
def buildCodewords (data : List Nat) (version : Nat) (ec : QRErrorLevel) : Option (List Nat) := do
  let info ← blockInfoFor version ec
  let totalData ← dataCodewordsFor version ec
  if data.length ≠ totalData then none else
    let sizes := info.blocks.flatMap fun group => List.replicate group.count group.dataCount
    let dataBlocks := slices sizes data
    let ecBlocks := dataBlocks.map fun block => rsEncode block info.ecCodewordsPerBlock
    pure (interleave dataBlocks ++ interleave ecBlocks)

/-- Without a `TextEncoder` each code unit is encoded by itself. -/
def utf8Bytes (textEncoder : Bool) (input : JsString) : List Nat :=
  if textEncoder then (Unicode.encodeUtf8 input).map UInt8.toNat
  else input.flatMap fun unit =>
    let c := unit.toNat
    if c < 0x80 then [c]
    else if c < 0x800 then [0xc0 ||| c >>> 6,0x80 ||| c &&& 0x3f]
    else [0xe0 ||| c >>> 12,0x80 ||| (c >>> 6) &&& 0x3f,0x80 ||| c &&& 0x3f]

def encodeDataBytes (data : List Nat) (version : Nat) (ec : QRErrorLevel) : Option (List Nat) := do
  let total ← dataCodewordsFor version ec
  let totalDataBits := total * 8
  let content := put 4 4 ++ put data.length (charCountBits version) ++ data.flatMap (put · 8)
  let terminated := content ++ put 0 (min 4 (totalDataBits - content.length))
  let aligned := terminated ++ List.replicate ((8 - terminated.length % 8) % 8) false
  let pads := (List.range ((totalDataBits - aligned.length) / 8)).flatMap fun i =>
    put (if i % 2 = 0 then 0xec else 0x11) 8
  pure (bytes (aligned ++ pads))

end Codewords

section Modules

/-- Rows of modules, where `true` is dark. -/
abbrev Matrix := List (List Bool)

def Matrix.get (m : Matrix) (y x : Nat) : Bool := (m.getD y []).getD x false

def Matrix.set (m : Matrix) (place : Nat × Nat) (value : Bool) : Matrix :=
  m.modify place.1 (List.set · place.2 value)

def makeMatrix (size : Nat) : Matrix := List.replicate size (List.replicate size false)

/-- The modules and the map of those that carry no data. -/
structure Canvas where
  m : Matrix
  reserved : Matrix

def Canvas.reserve (canvas : Canvas) (y x : Nat) : Canvas :=
  {canvas with reserved := canvas.reserved.set (y,x) true}

def Canvas.draw (canvas : Canvas) (y x : Nat) (value : Bool) : Canvas :=
  {canvas with m := canvas.m.set (y,x) value}.reserve y x

/-- The offsets of a square around a place. -/
def offsets (first last : Int) : List (Int × Int) :=
  let range := (List.range (last + 1 - first).toNat).map fun i => first + (i : Int)
  range.flatMap fun dy => range.map fun dx => (dy,dx)

def placeFinderPattern (x y : Nat) (canvas : Canvas) : Canvas :=
  (offsets (-1) 7).foldl (fun canvas (dy,dx) =>
    let xx := (x : Int) + dx
    let yy := (y : Int) + dy
    if xx < 0 || yy < 0 || canvas.m.length ≤ xx || canvas.m.length ≤ yy then canvas else
      let inOuter := (0 ≤ dx && dx ≤ 6 && (dy = 0 || dy = 6)) ||
        (0 ≤ dy && dy ≤ 6 && (dx = 0 || dx = 6))
      let inInner := 2 ≤ dx && dx ≤ 4 && 2 ≤ dy && dy ≤ 4
      canvas.draw yy.toNat xx.toNat (inOuter || inInner)) canvas

def placeAlignmentPattern (cx cy : Nat) (canvas : Canvas) : Canvas :=
  (offsets (-2) 2).foldl (fun canvas (dy,dx) =>
    let onRing := max dx.natAbs dy.natAbs = 2 || (dx = 0 && dy = 0)
    canvas.draw ((cy : Int) + dy).toNat ((cx : Int) + dx).toNat onRing) canvas

def reserveFormatArea (size : Nat) (canvas : Canvas) : Canvas :=
  let canvas := (List.range 9).foldl (fun canvas i => (canvas.reserve 8 i).reserve i 8) canvas
  (List.range 8).foldl (fun canvas i =>
    (canvas.reserve (size - 1 - i) 8).reserve 8 (size - 1 - i)) canvas

/-- A center on a reserved module has no pattern. -/
def placeAlignmentPatterns (version : Nat) (canvas : Canvas) : Canvas :=
  let centers := alignmentPatterns.getD (version - 1) []
  centers.foldl (fun canvas cy => centers.foldl (fun canvas cx =>
    if canvas.reserved.get cy cx then canvas else placeAlignmentPattern cx cy canvas) canvas) canvas

def placeTimingPatterns (size : Nat) (canvas : Canvas) : Canvas :=
  (List.range' 8 (size - 16)).foldl (fun canvas i =>
    (canvas.draw 6 i (i % 2 = 0)).draw i 6 (i % 2 = 0)) canvas

def placeDarkModule (version : Nat) (canvas : Canvas) : Canvas :=
  canvas.draw (4 * version + 9) 8 true

def reserveVersionArea (version size : Nat) (canvas : Canvas) : Canvas :=
  if version < 7 then canvas else
    (List.range 6).foldl (fun canvas i => (List.range 3).foldl (fun canvas j =>
      (canvas.reserve i (size - 11 + j)).reserve (size - 11 + j) i) canvas) canvas

/-- The right columns of the pairs that data runs through, without the column of the vertical
timing pattern. -/
def rightColumns : Nat → Nat → List Nat
  | 0, _ => []
  | _+1, 0 => []
  | fuel+1, right =>
    let right := if right = 6 then 5 else right
    right :: rightColumns fuel (right - 2)

/-- The places that data runs through, upwards and downwards in turn. -/
def zigzag (size : Nat) : List (Nat × Nat) :=
  ((rightColumns size (size - 1)).mapIdx fun turn right =>
    (List.range size).flatMap fun vert =>
      let y := if turn % 2 = 0 then size - 1 - vert else vert
      [(y,right),(y,right - 1)]).flatten

def dataBit (data : List Nat) (bitIndex : Nat) : Bool :=
  (data.getD (bitIndex / 8) 0).testBit (7 - bitIndex % 8)

def placeData (canvas : Canvas) (data : List Nat) : Matrix :=
  ((zigzag canvas.m.length).foldl (fun (m,bitIndex) (y,x) =>
    if canvas.reserved.get y x then (m,bitIndex)
    else (m.set (y,x) (dataBit data bitIndex),bitIndex + 1)) (canvas.m,0)).1

/-- One of eight patterns, for a column and a row. -/
def maskFn (pattern x y : Nat) : Bool :=
  match pattern with
  | 0 => (x + y) % 2 = 0
  | 1 => y % 2 = 0
  | 2 => x % 3 = 0
  | 3 => (x + y) % 3 = 0
  | 4 => (x / 3 + y / 2) % 2 = 0
  | 5 => (x * y) % 2 + (x * y) % 3 = 0
  | 6 => ((x * y) % 2 + (x * y) % 3) % 2 = 0
  | _ => ((x + y) % 2 + (x * y) % 3) % 2 = 0

def applyMask (m reserved : Matrix) (pattern : Nat) : Matrix :=
  m.mapIdx fun y row => row.mapIdx fun x value =>
    if !reserved.get y x && maskFn pattern x y then !value else value

/-- The remainder of a shift register that is fed with nothing. -/
def bchRemainder (width generator value : Nat) : Nat :=
  ((List.range width).foldl (fun bch _ =>
    2 * bch ^^^ (if bch.testBit (width - 1) then generator else 0)) value) % 2^width

def formatInfoBits (ec : QRErrorLevel) (mask : Nat) : Nat :=
  let ecBits := match ec with
    | .L => 1
    | .M => 0
  let data := 8 * ecBits ||| mask
  ((data * 2^10 ||| bchRemainder 10 0x537 data) ^^^ 0x5412) % 2^15

/-- The place of a bit around the top left finder pattern. -/
def formatModule (i : Nat) : Nat × Nat :=
  if i < 6 then (i,8)
  else if i = 6 then (7,8)
  else if i = 7 then (8,8)
  else if i = 8 then (8,7)
  else (8,14 - i)

/-- The place of a bit at the other two finder patterns. -/
def splitFormatModule (size i : Nat) : Nat × Nat :=
  if i < 7 then (size - 1 - i,8) else (8,size - 15 + i)

def placeFormatInfo (m : Matrix) (ec : QRErrorLevel) (mask : Nat) : Matrix :=
  let bits := formatInfoBits ec mask
  let size := m.length
  let m := (List.range 15).foldl (fun m i => m.set (formatModule i) (bits.testBit i)) m
  let m := (List.range 15).foldl (fun m i =>
    m.set (splitFormatModule size i) (bits.testBit i)) m
  m.set (size - 8,8) true

def versionInfoBits (version : Nat) : Nat :=
  (version * 2^12 ||| bchRemainder 12 0x1f25 version) % 2^18

def placeVersionInfo (m : Matrix) (version : Nat) : Matrix :=
  if version < 7 then m else
    let bits := versionInfoBits version
    let size := m.length
    (List.range 18).foldl (fun m i =>
      let a := i / 3
      let b := i % 3 + size - 11
      (m.set (a,b) (bits.testBit i)).set (b,a) (bits.testBit i)) m

end Modules

section Penalty

def row (m : Matrix) (y : Nat) : List Bool := (List.range m.length).map fun x => m.get y x
def column (m : Matrix) (x : Nat) : List Bool := (List.range m.length).map fun y => m.get y x

/-- The score of a line whose last modules are a run of one color. -/
def runScores (last : Bool) (run : Nat) : List Bool → Nat
  | [] => if 5 ≤ run then run - 2 else 0
  | value :: rest =>
    if value = last then runScores last (run + 1) rest
    else (if 5 ≤ run then run - 2 else 0) + runScores value 1 rest

def runScore : List Bool → Nat
  | [] => 0
  | value :: rest => runScores value 1 rest

/-- How often a line looks like a finder pattern with four light modules on one side. -/
def finderScore (line : List Bool) : Nat :=
  let finder := [true,false,true,true,true,false,true]
  let light := List.replicate 4 false
  ((List.range (line.length - 10)).map fun x =>
    let window := (line.drop x).take 11
    if window = finder ++ light ∨ window = light ++ finder then 40 else 0).sum

def squareScore (m : Matrix) : Nat :=
  ((List.range (m.length - 1)).flatMap fun y => (List.range (m.length - 1)).map fun x =>
    let v := m.get y x
    if m.get y (x + 1) = v ∧ m.get (y + 1) x = v ∧ m.get (y + 1) (x + 1) = v then 3 else 0).sum

/-- The quotient of the source is exact at every boundary of its floor. -/
def darkScore (m : Matrix) : Nat :=
  let modules := m.length * m.length
  let dark := ((List.range m.length).map fun y => (row m y).count true).sum
  (100 * (dark : Int) - 50 * (modules : Int)).natAbs / (5 * modules) * 10

def penaltyScore (m : Matrix) : Nat :=
  let lines := (List.range m.length).flatMap fun i => [row m i,column m i]
  (lines.map runScore).sum + squareScore m + (lines.map finderScore).sum + darkScore m

end Penalty

section Symbols

structure QRSymbol where
  matrix : Matrix
  version : Nat
  size : Nat

/-- The function patterns and the reserved areas of a version. -/
def functionPatterns (version size : Nat) : Canvas :=
  let canvas : Canvas := ⟨makeMatrix size,makeMatrix size⟩
  let canvas := placeFinderPattern 0 0 canvas
  let canvas := placeFinderPattern (size - 7) 0 canvas
  let canvas := placeFinderPattern 0 (size - 7) canvas
  let canvas := reserveFormatArea size canvas
  let canvas := placeAlignmentPatterns version canvas
  let canvas := placeTimingPatterns size canvas
  let canvas := placeDarkModule version canvas
  reserveVersionArea version size canvas

def candidate (base reserved : Matrix) (version : Nat) (ec : QRErrorLevel) (mask : Nat) : Matrix :=
  placeVersionInfo (placeFormatInfo (applyMask base reserved mask) ec mask) version

/-- The first candidate of the lowest score. -/
def bestCandidate (candidates : List Matrix) : Option (Nat × Matrix) :=
  candidates.foldl (fun best m =>
    let score := penaltyScore m
    match best with
    | none => some (score,m)
    | some (bestScore,_) => if score < bestScore then some (score,m) else best) none

/-- `none` where it throws. -/
def generateQRMatrix (textEncoder : Bool) (data : JsString) (options : QRCodeOptions) :
    Option QRSymbol := do
  let ec := options.errorLevel.getD .M
  let minVersion := options.minVersion.getD 1
  if data.isEmpty then none else
    let bytes := utf8Bytes textEncoder data
    let version ← selectVersion bytes.length ec minVersion
    let size := 17 + 4 * version
    let dataCodewords ← encodeDataBytes bytes version ec
    let finalBits ← buildCodewords dataCodewords version ec
    let canvas := functionPatterns version size
    let base := placeData canvas finalBits
    let best := bestCandidate ((List.range 8).map (candidate base canvas.reserved version ec))
    pure ⟨(best.map Prod.snd).getD base,version,size⟩

end Symbols
end Tonbankcard.QrCode
