import Tonbankcard.CanonicalJson
import Tonbankcard.Unicode

/-! Canonical JSON in the TypeScript, the Go and the Python SDK, each over the values of its
language and the JSON encoder of its library. The three make the same bytes. -/
namespace Tonbankcard.Sdk

open EcmaScript Unicode CanonicalJson

/-- The largest whole number that a double has with all its neighbours. -/
def maxSafeInteger : Nat := 2^53 - 1

section TypeScript

/-- A JavaScript value; what is neither plain nor a primitive is among the others. -/
inductive TsValue where
  | undefined
  | null
  | bigint (n : Int)
  | string (s : JsString)
  | boolean (b : Bool)
  | number (n : JsNumber)
  | array (items : List TsValue)
  | object (fields : List (JsString × TsValue))
  | other

def replaceUnit (unit : UInt16) (replacement : JsString) (s : JsString) : JsString :=
  s.flatMap fun other => if other = unit then replacement else [other]

def encodeCanonicalString (value : JsString) : JsString :=
  replaceUnit 0x2029 (js "\\u2029") (replaceUnit 0x2028 (js "\\u2028") (quote value))

def compareCodePoints : List Nat → List Nat → Int
  | a :: as, b :: bs => if a ≠ b then (a : Int) - b else compareCodePoints as bs
  | as, bs => (as.length : Int) - bs.length

def compareByCodePoint (a b : JsString) : Int := compareCodePoints (codePoints a) (codePoints b)

abbrev KeyLe (a b : JsString × JsString) : Prop := compareByCodePoint a.1 b.1 ≤ 0

/-- The value of a decimal text. -/
def integerOf (text : JsString) : Int :=
  match text with
  | 45 :: rest => -fixedValue 10 rest
  | _ => fixedValue 10 text

def isSafeInteger (n : JsNumber) : Bool :=
  decimal (integerOf n.text) = n.text && (integerOf n.text).natAbs ≤ maxSafeInteger

mutual

/-- `none` where it throws a `TypeError`. -/
def canonicalJson : TsValue → Option JsString
  | .null => some (js "null")
  | .bigint n => some (encodeCanonicalString (decimal n))
  | .string s => some (encodeCanonicalString s)
  | .boolean b => some (if b then js "true" else js "false")
  | .number n => if isSafeInteger n then some n.text else none
  | .array items =>
    (canonicalItems items).map fun parts => 91 :: ([44].intercalate parts ++ [93])
  | .object fields =>
    (canonicalFields fields).map fun members =>
      123 :: ([44].intercalate ((members.insertionSort KeyLe).map fun field =>
        encodeCanonicalString field.1 ++ 58 :: field.2) ++ [125])
  | .undefined => none
  | .other => none

def canonicalItems : List TsValue → Option (List JsString)
  | [] => some []
  | item :: rest => do
    let text ← canonicalJson item
    let texts ← canonicalItems rest
    pure (text :: texts)

def canonicalFields : List (JsString × TsValue) → Option (List (JsString × JsString))
  | [] => some []
  | (key,value) :: rest => do
    let text ← canonicalJson value
    let members ← canonicalFields rest
    pure ((key,text) :: members)

end

mutual

/-- A JSON value as JavaScript has it. -/
def TsValue.ofJson : JsonValue → TsValue
  | .null => .null
  | .boolean b => .boolean b
  | .integer n => .number (JsNumber.ofInt n)
  | .string s => .string (utf16 s)
  | .array items => .array (TsValue.ofItems items)
  | .object fields => .object (TsValue.ofFields fields)

def TsValue.ofItems : List JsonValue → List TsValue
  | [] => []
  | item :: rest => TsValue.ofJson item :: TsValue.ofItems rest

def TsValue.ofFields : List (List Char × JsonValue) → List (JsString × TsValue)
  | [] => []
  | (key,value) :: rest => (utf16 key,TsValue.ofJson value) :: TsValue.ofFields rest

end

end TypeScript

section Libraries

def hexDigits (n : Nat) : List Char :=
  [Nat.digitChar (n / 4096 % 16),Nat.digitChar (n / 256 % 16),Nat.digitChar (n / 16 % 16),
    Nat.digitChar (n % 16)]

/-- How the encoders of the libraries write a character: by a short escape, by its number where it
is a control character or one of some others, or as it is. -/
def escape (numbered : Char → Bool) (c : Char) : List Char :=
  if c.toNat = 8 then ['\\','b']
  else if c.toNat = 9 then ['\\','t']
  else if c.toNat = 10 then ['\\','n']
  else if c.toNat = 12 then ['\\','f']
  else if c.toNat = 13 then ['\\','r']
  else if c.toNat = 34 then ['\\','"']
  else if c.toNat = 92 then ['\\','\\']
  else if c.toNat < 32 || numbered c then '\\' :: 'u' :: hexDigits c.toNat
  else [c]

def quoted (numbered : Char → Bool) (s : List Char) : List Char :=
  '"' :: (s.flatMap (escape numbered) ++ ['"'])

def isSeparator (c : Char) : Bool := c.toNat = 0x2028 || c.toNat = 0x2029

/-- `json.dumps` with sorted keys, no blanks and `ensure_ascii=False`. -/
def jsonDumps : Encoder Char where
  symbol := id
  literal := quoted fun _ => false
  precedes a b := !decide (b < a)

/-- `encoding/json` without HTML escapes, which sorts keys by their bytes. -/
def encodingJson : Encoder UInt8 where
  symbol c := UInt8.ofNat c.toNat
  literal s := 34 :: (s.flatMap (fun c => utf8 (escape isSeparator c)) ++ [34])
  precedes a b := !decide (utf8 b < utf8 a)

end Libraries

section GoAndPython

/-- A value of Go or of Python. Whole numbers of Go's machine types and of Python are integers, and
those of `big.Int` are big; what cannot be encoded, maps with other keys than strings among it, is
among the others. -/
inductive HostValue where
  | null
  | boolean (b : Bool)
  | integer (n : Int)
  | float
  | big (n : Int)
  | string (s : List Char)
  | array (items : List HostValue)
  | object (fields : List (List Char × HostValue))
  | other

section Normalize
variable (big : Int → Option JsonValue)

mutual

def normalize : HostValue → Option JsonValue
  | .null => some .null
  | .boolean b => some (.boolean b)
  | .integer n => if n.natAbs ≤ maxSafeInteger then some (.integer n) else none
  | .float => none
  | .big n => big n
  | .string s => some (.string s)
  | .array items => (normalizeItems items).map .array
  | .object fields => (normalizeFields fields).map .object
  | .other => none

def normalizeItems : List HostValue → Option (List JsonValue)
  | [] => some []
  | item :: rest => do
    let value ← normalize item
    let values ← normalizeItems rest
    pure (value :: values)

def normalizeFields : List (List Char × HostValue) → Option (List (List Char × JsonValue))
  | [] => some []
  | (key,item) :: rest => do
    let value ← normalize item
    let values ← normalizeFields rest
    pure ((key,value) :: values)

end
end Normalize

def goNormalizeCanonicalJSON : HostValue → Option JsonValue :=
  normalize fun n => some (.string (integerText n))

def trimNewline (bytes : List UInt8) : List UInt8 :=
  if bytes.getLast? = some 10 then bytes.dropLast else bytes

/-- The bytes of the Go SDK; the encoder ends with a line feed. -/
def goCanonicalJSON (value : HostValue) : Option (List UInt8) :=
  (goNormalizeCanonicalJSON value).map fun normalized =>
    trimNewline (encodingJson.encode normalized ++ [10])

/-- Python has no type of its own for big numbers. -/
def pyNormalizeCanonicalJson : HostValue → Option JsonValue := normalize fun _ => none

def replaceChar (c : Char) (replacement : List Char) (s : List Char) : List Char :=
  s.flatMap fun other => if other = c then replacement else [other]

/-- The text of the Python SDK. -/
def pyCanonicalJson (value : HostValue) : Option (List Char) :=
  (pyNormalizeCanonicalJson value).map fun normalized =>
    replaceChar (Char.ofNat 0x2029) ['\\','u','2','0','2','9']
      (replaceChar (Char.ofNat 0x2028) ['\\','u','2','0','2','8'] (jsonDumps.encode normalized))

mutual

/-- A JSON value as Go and Python have it. -/
def HostValue.ofJson : JsonValue → HostValue
  | .null => .null
  | .boolean b => .boolean b
  | .integer n => .integer n
  | .string s => .string s
  | .array items => .array (HostValue.ofItems items)
  | .object fields => .object (HostValue.ofFields fields)

def HostValue.ofItems : List JsonValue → List HostValue
  | [] => []
  | item :: rest => HostValue.ofJson item :: HostValue.ofItems rest

def HostValue.ofFields : List (List Char × JsonValue) → List (List Char × HostValue)
  | [] => []
  | (key,value) :: rest => (key,HostValue.ofJson value) :: HostValue.ofFields rest

end

end GoAndPython
end Tonbankcard.Sdk
