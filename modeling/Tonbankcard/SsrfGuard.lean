import Tonbankcard.IpText

/-! The guard of the merchant API against requests to internal addresses: the blocked ranges, and
the check of an address text against them. -/
namespace Tonbankcard.SsrfGuard

open EcmaScript IpText

section Tables

def blockedIPv4Cidrs : List JsString := [
  js "0.0.0.0/8",
  js "10.0.0.0/8",
  js "100.64.0.0/10",
  js "127.0.0.0/8",
  js "169.254.0.0/16",
  js "172.16.0.0/12",
  js "192.0.0.0/24",
  js "192.0.2.0/24",
  js "192.168.0.0/16",
  js "198.18.0.0/15",
  js "198.51.100.0/24",
  js "203.0.113.0/24",
  js "224.0.0.0/4",
  js "240.0.0.0/4"]

def blockedIPv6Cidrs : List JsString := [
  js "::/128",
  js "::1/128",
  js "::/96",
  js "64:ff9b::/96",
  js "100::/64",
  js "2001:db8::/32",
  js "fc00::/7",
  js "fe80::/10",
  js "ff00::/8"]

end Tables

section Conversion

/-- A number that `BigInt` takes. -/
def wholeNumber : Number → Option ℤ
  | .finite value => if value.den = 1 then some value.num else none
  | _ => none

/-- `Number(part)` of an octet. -/
def readOctetNumber (part : JsString) : Option Nat :=
  (wholeNumber (stringToNumber part)).bind fun octet =>
    if octet < 0 ∨ 255 < octet then none else some octet.toNat

/-- An error that is thrown is none here and below. -/
def ipv4ToBigInt (ip : JsString) : Option Nat :=
  let parts := ip.splitOn 46
  if parts.length ≠ 4 then none
  else parts.foldlM (fun value part =>
    (readOctetNumber part).map fun octet => value <<< 8 ||| octet) 0

def lastIndexOf (unit : UInt16) (units : JsString) : Option Nat :=
  (units.reverse.idxOf? unit).map (units.length - 1 - ·)

/-- `toString(16)`. -/
def hexDigits (n : Nat) : JsString := (Nat.toDigits 16 n).map digitUnit

/-- `/^[0-9a-fA-F]{1,4}$/`. -/
def isHextet (group : JsString) : Bool :=
  1 ≤ group.length && group.length ≤ 4 && group.all fun unit => (hexValue unit).isSome

def appendHextet (value : Nat) (group : JsString) : Option Nat :=
  if isHextet group then some (value <<< 16 ||| hexNumber group) else none

/-- Takes an embedded quad off the end, with the separator before it. -/
def splitQuad (head : JsString) : Option (JsString × List JsString) :=
  if head.contains 46 then do
    let lastColon ← lastIndexOf 58 head
    let v4 ← ipv4ToBigInt (head.drop (lastColon + 1))
    return (head.take lastColon,[hexDigits (v4 >>> 16 &&& 0xffff),hexDigits (v4 &&& 0xffff)])
  else some (head,[])

/-- The groups with those that `::` stands for. -/
def expandGroups (head : JsString) (tail : List JsString) : Option (List JsString) :=
  match splitDoubleColon head with
  | [whole] => some (splitGroups whole ++ tail)
  | [before,behind] =>
    let left := splitGroups before
    let right := splitGroups behind
    if 8 < left.length + right.length + tail.length then none
    else some (left ++ List.replicate (8 - (left.length + right.length + tail.length)) (js "0") ++
      right ++ tail)
  | _ => none

def ipv6ToBigInt (ip : JsString) : Option Nat := do
  let (head,tail) ← splitQuad (ip.takeWhile (· ≠ 37))
  let expanded ← expandGroups head tail
  if expanded.length ≠ 8 then none else expanded.foldlM appendHextet 0

end Conversion

section Ranges

structure ParsedCidr where
  base : Nat
  mask : Nat
  deriving DecidableEq

/-- `~x & y` for numbers that are not negative. -/
def andNot (x y : Nat) : Nat := y ^^^ (y &&& x)

def parseCidr (cidr : JsString) (bits : Nat) (toBigInt : JsString → Option Nat) :
    Option ParsedCidr :=
  match cidr.splitOn 47 with
  | addr :: prefixStr :: _ => do
    let length ← wholeNumber (stringToNumber prefixStr)
    let hostBits := (bits - length).toNat
    let mask := if hostBits = 0 then 1 <<< bits - 1
      else andNot (1 <<< hostBits - 1) (1 <<< bits - 1)
    let base ← toBigInt addr
    return ⟨base &&& mask,mask⟩
  | _ => none

/-- The module does not load if a range is malformed. -/
def parsedIPv4 : Option (List ParsedCidr) := blockedIPv4Cidrs.mapM (parseCidr · 32 ipv4ToBigInt)

def parsedIPv6 : Option (List ParsedCidr) := blockedIPv6Cidrs.mapM (parseCidr · 128 ipv6ToBigInt)

def matchesAny (ranges : Option (List ParsedCidr)) (value : Nat) : Bool :=
  (ranges.getD []).any fun c => value &&& c.mask = c.base

end Ranges

section Check

/-- `toLowerCase` of a text of ASCII units, as the texts of addresses are. -/
def lowerUnit (unit : UInt16) : UInt16 := if 65 ≤ unit && unit ≤ 90 then unit + 32 else unit

def toLowerCase (units : JsString) : JsString := units.map lowerUnit

/-- `/^\d{1,3}\.\d{1,3}\.\d{1,3}\.\d{1,3}$/`. -/
def isQuadLike (text : JsString) : Bool :=
  let parts := text.splitOn 46
  parts.length = 4 && parts.all fun part =>
    1 ≤ part.length && part.length ≤ 3 && part.all isDigit

/-- `/^::ffff:(\d{1,3}\.\d{1,3}\.\d{1,3}\.\d{1,3})$/`, by the fields between the colons. -/
def mappedMatch (lower : JsString) : Option JsString :=
  match lower.splitOn 58 with
  | [first,second,third,quad] =>
    if first = [] ∧ second = [] ∧ third = js "ffff" ∧ isQuadLike quad then some quad else none
  | _ => none

/-- `/^[0-9a-f]{1,4}$/`. -/
def isLowerHextet (group : JsString) : Bool :=
  1 ≤ group.length && group.length ≤ 4 &&
    group.all fun unit => isDigit unit || (97 ≤ unit && unit ≤ 102)

/-- `/^::ffff:([0-9a-f]{1,4}):([0-9a-f]{1,4})$/`. -/
def hexMappedMatch (lower : JsString) : Option (JsString × JsString) :=
  match lower.splitOn 58 with
  | [first,second,third,hi,lo] =>
    if first = [] ∧ second = [] ∧ third = js "ffff" ∧ isLowerHextet hi ∧ isLowerHextet lo then
      some (hi,lo) else none
  | _ => none

/-- The dotted quad of two groups. -/
def quadText (hi lo : Nat) : JsString :=
  natDigits (hi >>> 8 &&& 0xff) ++ 46 :: natDigits (hi &&& 0xff) ++
    46 :: natDigits (lo >>> 8 &&& 0xff) ++ 46 :: natDigits (lo &&& 0xff)

/-- The check with `calls` for the calls that it makes of itself. -/
def isBlockedWithin : Nat → JsString → Bool
  | 0, _ => true
  | calls+1, ip =>
    let family := isIP ip
    if family = 0 then true
    else if family = 4 then ((ipv4ToBigInt ip).map (matchesAny parsedIPv4)).getD true
    else
      let lower := toLowerCase ip
      match mappedMatch lower with
      | some quad => isBlockedWithin calls quad
      | none =>
        match hexMappedMatch lower with
        | some (hi,lo) => isBlockedWithin calls (quadText (hexNumber hi) (hexNumber lo))
        | none => ((ipv6ToBigInt ip).map (matchesAny parsedIPv6)).getD true

/-- A mapped address is checked by one call more, whose text has no colon. -/
def isBlockedAddress (ip : JsString) : Bool := isBlockedWithin 2 ip

end Check

end Tonbankcard.SsrfGuard
