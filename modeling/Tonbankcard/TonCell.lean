import Tonbankcard.FiniteMap

/-! TVM values: the ways a computation aborts, standard addresses, cells, and the
builder and slice operations with their capacity, range and underflow exits. The root
cell of a dictionary is kept as the finite map it encodes. -/
namespace Ton

/-- A failed `require` carries its text; every other abort has a TVM or contract exit code. -/
inductive Abort where
  | require (text : String)
  | exit (code : Nat)
  deriving DecidableEq, Repr

abbrev Result := Except Abort

def require (condition : Prop) [Decidable condition] (text : String) : Result Unit :=
  if condition then .ok () else .error (.require text)

def throwUnless (code : Nat) (condition : Prop) [Decidable condition] : Result Unit :=
  if condition then .ok () else .error (.exit code)

def integerOverflow : Abort := .exit 4
def rangeCheck : Abort := .exit 5
def cellOverflow : Abort := .exit 8
def cellUnderflow : Abort := .exit 9
def dictionaryError : Abort := .exit 10

theorem require_ok {condition : Prop} [Decidable condition] {text : String} :
    require condition text = .ok () ↔ condition := by
  unfold require
  split <;> simp_all

@[simp] theorem require_bind_ok {condition : Prop} [Decidable condition] {text : String}
    {next : Unit → Result α} {value : α} :
    (require condition text >>= next) = .ok value ↔ condition ∧ next () = .ok value := by
  unfold require
  split
  next h => simp [h,bind,Except.bind]
  next h => simp [h,bind,Except.bind]

@[simp] theorem throwUnless_bind_ok {condition : Prop} [Decidable condition] {code : Nat}
    {next : Unit → Result α} {value : α} :
    (throwUnless code condition >>= next) = .ok value ↔ condition ∧ next () = .ok value := by
  unfold throwUnless
  split
  next h => simp [h,bind,Except.bind]
  next h => simp [h,bind,Except.bind]

theorem bind_ok {first : Result α} {next : α → Result β} {value : β} :
    (first >>= next) = .ok value ↔ ∃ middle, first = .ok middle ∧ next middle = .ok value := by
  cases first <;> simp [bind,Except.bind]

/-- A check whose value is not used. -/
theorem unit_bind_ok {first : Result Unit} {next : Unit → Result α} {value : α} :
    (first >>= next) = .ok value ↔ first = .ok () ∧ next () = .ok value := by
  cases first <;> simp [bind,Except.bind]

theorem require_bind_error {condition : Prop} [Decidable condition] {text : String}
    {next : Unit → Result α} {reason : Abort} :
    (require condition text >>= next) = .error reason ↔
      ¬condition ∧ reason = .require text ∨ condition ∧ next () = .error reason := by
  unfold require
  split
  next h => simp [h,bind,Except.bind]
  next h => simp [h,bind,Except.bind,eq_comm]

theorem bind_error {first : Result α} {next : α → Result β} {reason : Abort} :
    (first >>= next) = .error reason ↔
      first = .error reason ∨ ∃ middle, first = .ok middle ∧ next middle = .error reason := by
  cases first <;> simp [bind,Except.bind]

/-- A computable test for one way of aborting. -/
def abortsWith (abort : Abort) : Result α → Bool
  | .error reason => decide (reason = abort)
  | .ok _ => false

theorem abortsWith_eq {result : Result α} (aborts : abortsWith abort result = true) :
    result = .error abort := by
  cases result with
  | error reason => exact congrArg _ (of_decide_eq_true aborts)
  | ok value => contradiction

@[simp] theorem ok_bind (value : α) (next : α → Result β) :
    ((.ok value : Result α) >>= next) = next value := rfl

@[simp] theorem pure_ok {value other : α} :
    (pure value : Result α) = .ok other ↔ value = other := by simp [pure,Except.pure]

/-- The values of a 257-bit signed integer; arithmetic outside them aborts. -/
def int257 (value : Int) : Result Int :=
  if -2^256 ≤ value ∧ value < 2^256 then .ok value else .error integerOverflow

/-- Serialisation into an unsigned field. -/
def fitUint (width : Nat) (value : Int) : Result Int :=
  if 0 ≤ value ∧ value < 2^width then .ok value else .error rangeCheck

@[simp] theorem int257_ok : int257 value = .ok stored ↔
    stored = value ∧ -2^256 ≤ value ∧ value < 2^256 := by
  unfold int257
  split
  next fits => simp only [Except.ok.injEq,fits,and_self,and_true,eq_comm]
  next fits => simp only [reduceCtorEq,false_iff]; exact fun h => fits h.2

@[simp] theorem fitUint_ok : fitUint width value = .ok stored ↔
    stored = value ∧ 0 ≤ value ∧ value < 2^width := by
  unfold fitUint
  split
  next fits => simp [fits,eq_comm]
  next fits => simp only [reduceCtorEq,false_iff]; exact fun h => fits h.2

/-- Serialisation of several unsigned fields, each with its width. -/
def fitUints : List (Nat × Int) → Result Unit
  | [] => .ok ()
  | (width,value) :: fields => do
    let _ ← fitUint width value
    fitUints fields

/-- A value outside its width aborts without a text of its own. -/
theorem fitUints_ne_require (fields : List (Nat × Int)) :
    fitUints fields ≠ .error (.require text) := by
  induction fields with
  | nil => nofun
  | cons field fields ih =>
    obtain ⟨width,value⟩ := field
    intro failed
    rcases bind_error.mp failed with outOfRange | ⟨-,-,failed⟩
    · unfold fitUint at outOfRange
      split at outOfRange <;> cases outOfRange
    · exact ih failed

section Bits

/-- Big-endian bits of a number, truncated to a width. -/
def uintBits : Nat → Nat → List Bool
  | 0, _ => []
  | width+1, value => value.testBit width :: uintBits width value

def uintOf : List Bool → Nat
  | [] => 0
  | bit :: rest => 2^rest.length * bit.toNat + uintOf rest

@[simp] theorem uintBits_length (width value : Nat) : (uintBits width value).length = width := by
  induction width with
  | zero => rfl
  | succ width ih => simp [uintBits,ih]

theorem uintOf_uintBits (width value : Nat) : uintOf (uintBits width value) = value % 2^width := by
  induction width with
  | zero => simp [uintBits,uintOf,Nat.mod_one]
  | succ width ih =>
    rw [uintBits,uintOf,uintBits_length,ih,Nat.toNat_testBit,Nat.pow_succ,Nat.mod_mul,Nat.add_comm]

theorem uintBits_injective (width : Nat) (small : a < 2^width) (small' : b < 2^width)
    (same : uintBits width a = uintBits width b) : a = b := by
  have values := congrArg uintOf same
  rwa [uintOf_uintBits,uintOf_uintBits,Nat.mod_eq_of_lt small,Nat.mod_eq_of_lt small'] at values

theorem uintBits_toNat_injective {a b : BitVec w} (wide : w ≤ width)
    (same : uintBits width a.toNat = uintBits width b.toNat) : a = b := by
  have fits := Nat.pow_le_pow_right Nat.two_pos wide
  exact BitVec.eq_of_toNat_eq
    (uintBits_injective width (a.isLt.trans_le fits) (b.isLt.trans_le fits) same)

theorem uintOf_lt (bits : List Bool) : uintOf bits < 2^bits.length := by
  induction bits with
  | nil => decide
  | cons bit rest ih =>
    have value : bit.toNat ≤ 1 := Bool.toNat_le bit
    have scaled : 2^rest.length * bit.toNat ≤ 2^rest.length * 1 := Nat.mul_le_mul_left _ value
    simp only [uintOf,List.length_cons,Nat.pow_succ]
    omega

theorem uintOf_injective (lengths : bits.length = other.length)
    (same : uintOf bits = uintOf other) : bits = other := by
  induction bits generalizing other with
  | nil => exact (List.length_eq_zero_iff.mp lengths.symm).symm
  | cons bit rest ih =>
    cases other with
    | nil => simp at lengths
    | cons bit' rest' =>
      have tails : rest.length = rest'.length := by simpa using lengths
      have small := uintOf_lt rest
      have small' := uintOf_lt rest'
      simp only [uintOf,tails] at same small
      have heads : bit = bit' := by
        cases bit <;> cases bit' <;> simp at same ⊢ <;> omega
      subst heads
      rw [ih tails (by omega)]

end Bits

/-- A standard internal address without anycast. -/
structure Address where
  workchain : BitVec 8
  account : BitVec 256
  deriving DecidableEq, Repr

/-- `newAddress` on non-negative arguments. -/
def newAddress (workchain account : Nat) : Address :=
  ⟨BitVec.ofNat 8 workchain,BitVec.ofNat 256 account⟩

/-- The 267 bits `addr_std$10 anycast:nothing workchain_id:int8 address:bits256`. -/
def Address.bits (a : Address) : List Bool :=
  [true,false,false] ++ uintBits 8 a.workchain.toNat ++ uintBits 256 a.account.toNat

@[simp] theorem Address.bits_length (a : Address) : a.bits.length = 267 := by simp [Address.bits]

theorem Address.bits_injective : Function.Injective Address.bits := by
  intro a b same
  obtain ⟨heads,accounts⟩ := List.append_inj same (by simp)
  obtain ⟨-,workchains⟩ := List.append_inj heads (by simp)
  have workchain := uintBits_toNat_injective le_rfl workchains
  have account := uintBits_toNat_injective le_rfl accounts
  cases a; cases b
  simp_all

/-- `addr_none$00`. -/
def addrNone : List Bool := [false,false]

inductive Cell where
  | ordinary (bits : List Bool) (refs : List Cell)
  | dictionary (entries : FiniteMap Nat (List Bool))

/-- What contracts that key maps by the hash of a packed cell rely on. -/
def CollisionFree (hash : Cell → Int) : Prop :=
  ∀ bits other, hash (.ordinary bits []) = hash (.ordinary other []) → bits = other

/-- The bits behind a leading one, read as a number. -/
def packedHash : Cell → Int
  | .ordinary bits _ => uintOf (true :: bits)
  | .dictionary _ => 0

theorem packedHash_collisionFree : CollisionFree packedHash := by
  intro bits other same
  have same : uintOf (true :: bits) = uintOf (true :: other) := Int.ofNat.inj same
  have bound := uintOf_lt bits
  have bound' := uintOf_lt other
  simp only [uintOf,Bool.toNat_true,Nat.mul_one] at same
  have lengths : bits.length = other.length := by
    rcases Nat.lt_trichotomy bits.length other.length with less | equal | greater
    · have doubled := Nat.pow_le_pow_right (n := 2) (by decide) (Nat.succ_le_of_lt less)
      rw [Nat.pow_succ] at doubled
      omega
    · exact equal
    · have doubled := Nat.pow_le_pow_right (n := 2) (by decide) (Nat.succ_le_of_lt greater)
      rw [Nat.pow_succ] at doubled
      omega
  rw [lengths] at same
  exact uintOf_injective lengths (by omega)

def maxBits : Nat := 1023
def maxRefs : Nat := 4

structure Slice where
  bits : List Bool
  refs : List Cell

/-- A dictionary root is an exotic payload here and never parsed bit by bit. -/
def Cell.beginParse : Cell → Slice
  | .ordinary bits refs => ⟨bits,refs⟩
  | .dictionary _ => ⟨[],[]⟩

namespace Slice

def loadBits (count : Nat) (s : Slice) : Result (List Bool × Slice) :=
  if count ≤ s.bits.length then .ok (s.bits.take count,⟨s.bits.drop count,s.refs⟩)
  else .error cellUnderflow

def loadUint (width : Nat) (s : Slice) : Result (Nat × Slice) := do
  let (bits,rest) ← s.loadBits width
  pure (uintOf bits,rest)

def preloadUint (width : Nat) (bits : List Bool) : Result Nat :=
  if width ≤ bits.length then .ok (uintOf (bits.take width)) else .error cellUnderflow

def loadRef (s : Slice) : Result (Cell × Slice) :=
  match s.refs with
  | [] => .error cellUnderflow
  | cell :: rest => .ok (cell,⟨s.bits,rest⟩)

/-- `Maybe ^Cell`: one bit, then the reference when it is set. -/
def loadDict (s : Slice) : Result (Option Cell × Slice) := do
  let (present,s) ← s.loadUint 1
  if present = 0 then pure (none,s) else
    let (cell,s) ← s.loadRef
    pure (some cell,s)

/-- Bits of an optional anycast prefix: `anycast_info$_ depth:(#<= 30) rewrite_pfx`. -/
def anycastLength : List Bool → Option Nat
  | false :: _ => some 1
  | true :: rest =>
    let depth := uintOf (rest.take 5)
    if 5 ≤ rest.length ∧ 1 ≤ depth ∧ depth ≤ 30 then some (6 + depth) else none
  | [] => none

/-- How many bits the message address at the front occupies, in all four of its forms. -/
def msgAddrLength : List Bool → Option Nat
  | false :: false :: _ => some 2
  | false :: true :: rest =>
    if 9 ≤ rest.length then some (11 + uintOf (rest.take 9)) else none
  | true :: false :: rest => (anycastLength rest).map (fun anycast => 2 + anycast + 8 + 256)
  | true :: true :: rest =>
    match anycastLength rest with
    | none => none
    | some anycast =>
      if 9 ≤ (rest.drop anycast).length then
        some (2 + anycast + 9 + 32 + uintOf ((rest.drop anycast).take 9)) else none
  | _ => none

def loadMsgAddr (s : Slice) : Result (List Bool × Slice) :=
  match msgAddrLength s.bits with
  | some count => s.loadBits count
  | none => .error cellUnderflow

/-- Loading consumes exactly a known front and leaves the rest. -/
theorem loadBits_append (front rest : List Bool) (refs : List Cell) :
    loadBits front.length ⟨front ++ rest,refs⟩ = .ok (front,⟨rest,refs⟩) := by
  simp [loadBits]

theorem loadUint_append (width value : Nat) (rest : List Bool) (refs : List Cell)
    (small : value < 2^width) :
    loadUint width ⟨uintBits width value ++ rest,refs⟩ = .ok (value,⟨rest,refs⟩) := by
  have front := loadBits_append (uintBits width value) rest refs
  rw [uintBits_length] at front
  simp [loadUint,front,bind,Except.bind,uintOf_uintBits,Nat.mod_eq_of_lt small,pure,Except.pure]

theorem loadMsgAddr_std (a : Address) (rest : List Bool) (refs : List Cell) :
    loadMsgAddr ⟨a.bits ++ rest,refs⟩ = .ok (a.bits,⟨rest,refs⟩) := by
  have front := loadBits_append a.bits rest refs
  have length : msgAddrLength (a.bits ++ rest) = some 267 := rfl
  rw [Address.bits_length] at front
  simp [loadMsgAddr,length,front]

theorem anycastLength_append (front more : List Bool) (room : 6 ≤ front.length) :
    anycastLength (front ++ more) = anycastLength front := by
  cases front with
  | nil => simp at room
  | cons bit rest =>
    have short : 5 ≤ rest.length := by simpa using room
    cases bit with
    | false => rfl
    | true =>
      simp only [anycastLength,List.cons_append,List.take_append_of_le_length short,
        List.length_append]
      simp [short,Nat.le_add_right_of_le short]

theorem msgAddrLength_two_le {source : List Bool}
    (length : msgAddrLength source = some count) : 2 ≤ count := by
  unfold msgAddrLength at length
  split at length
  · exact (Option.some.inj length).le
  · simp only [Option.ite_none_right_eq_some,Option.some.injEq] at length
    omega
  · simp only [Option.map_eq_some_iff] at length
    omega
  · split at length
    · contradiction
    · simp only [Option.ite_none_right_eq_some,Option.some.injEq] at length
      omega
  · contradiction

/-- How long an address is shows in its own bits. -/
theorem msgAddrLength_append (front tail more : List Bool)
    (length : msgAddrLength (front ++ tail) = some front.length) :
    msgAddrLength (front ++ more) = some front.length := by
  have wide := msgAddrLength_two_le length
  match front with
  | [] => simp at wide
  | [_] => simp at wide
  | false :: false :: rest => exact length
  | false :: true :: rest =>
    simp only [List.cons_append,msgAddrLength,Option.ite_none_right_eq_some,Option.some.injEq,
      List.length_cons] at length ⊢
    have room : 9 ≤ rest.length := by omega
    rw [List.take_append_of_le_length room] at length ⊢
    exact ⟨by rw [List.length_append]; omega,length.2⟩
  | true :: false :: rest =>
    simp only [List.cons_append,msgAddrLength,Option.map_eq_some_iff,List.length_cons] at length ⊢
    obtain ⟨anycast,found,length⟩ := length
    have room : 6 ≤ rest.length := by omega
    rw [anycastLength_append _ _ room] at found ⊢
    exact ⟨anycast,found,length⟩
  | true :: true :: rest =>
    simp only [List.cons_append,msgAddrLength] at length ⊢
    split at length
    · contradiction
    rename_i anycast found
    simp only [Option.ite_none_right_eq_some,Option.some.injEq,List.length_cons] at length
    have room : 6 ≤ rest.length := by omega
    have inside : anycast ≤ rest.length := by omega
    have field : 9 ≤ (rest.drop anycast).length := by rw [List.length_drop]; omega
    rw [anycastLength_append _ _ room] at found ⊢
    simp only [found]
    rw [List.drop_append_of_le_length inside,List.take_append_of_le_length field] at length ⊢
    simp only [Option.ite_none_right_eq_some,Option.some.injEq,List.length_cons]
    exact ⟨by rw [List.length_append]; omega,length.2⟩

/-- A loaded address loads again from wherever it is put. -/
theorem loadMsgAddr_again (loaded : loadMsgAddr s = .ok (address,rest)) (more : List Bool)
    (refs : List Cell) : loadMsgAddr ⟨address ++ more,refs⟩ = .ok (address,⟨more,refs⟩) := by
  simp only [loadMsgAddr] at loaded
  split at loaded
  · rename_i count length
    simp only [loadBits] at loaded
    split at loaded
    · rename_i room
      simp only [Except.ok.injEq,Prod.mk.injEq] at loaded
      obtain ⟨rfl,-⟩ := loaded
      have taken : (s.bits.take count).length = count := List.length_take_of_le room
      have whole : msgAddrLength (s.bits.take count ++ s.bits.drop count) =
          some (s.bits.take count).length := by rw [List.take_append_drop,length,taken]
      have front := loadBits_append (s.bits.take count) more refs
      simp only [loadMsgAddr,msgAddrLength_append _ _ more whole,front]
    · contradiction
  · contradiction

theorem loadMsgAddr_none (rest : List Bool) (refs : List Cell) :
    loadMsgAddr ⟨addrNone ++ rest,refs⟩ = .ok (addrNone,⟨rest,refs⟩) := by
  simp [loadMsgAddr,addrNone,msgAddrLength,loadBits]

end Slice

/-- An unsigned dictionary: no root cell when it is empty. -/
def udictGet (key : Nat) : Option Cell → Result (Option (List Bool))
  | none => .ok none
  | some (.dictionary entries) => .ok (entries.get key)
  | some (.ordinary ..) => .error dictionaryError

def udictSet (key : Nat) (value : List Bool) : Option Cell → Result (Option Cell)
  | none => .ok (some (.dictionary (FiniteMap.set ∅ key value)))
  | some (.dictionary entries) => .ok (some (.dictionary (entries.set key value)))
  | some (.ordinary ..) => .error dictionaryError

structure Builder where
  bits : List Bool
  refs : List Cell

def beginCell : Builder := ⟨[],[]⟩

namespace Builder

def storeBits (bits : List Bool) (b : Builder) : Result Builder :=
  if b.bits.length + bits.length ≤ maxBits then .ok ⟨b.bits ++ bits,b.refs⟩
  else .error cellOverflow

def storeUint (value : Int) (width : Nat) (b : Builder) : Result Builder := do
  let value ← fitUint width value
  b.storeBits (uintBits width value.toNat)

/-- `VarUInteger 16`: a byte length in four bits, then that many bytes. -/
def storeCoins (value : Nat) (b : Builder) : Result Builder := do
  let bytes := if value = 0 then 0 else value.log2 / 8 + 1
  let b ← b.storeUint bytes 4
  b.storeUint value (8 * bytes)

def storeRef (cell : Cell) (b : Builder) : Result Builder :=
  if b.refs.length + 1 ≤ maxRefs then .ok ⟨b.bits,b.refs ++ [cell]⟩ else .error cellOverflow

def storeDict (dict : Option Cell) (b : Builder) : Result Builder :=
  match dict with
  | none => b.storeBits [false]
  | some cell => do
    let b ← b.storeBits [true]
    b.storeRef cell

def endCell (b : Builder) : Cell := .ordinary b.bits b.refs

@[simp] theorem storeBits_ok {b stored : Builder} {more : List Bool} :
    b.storeBits more = .ok stored ↔
      stored = ⟨b.bits ++ more,b.refs⟩ ∧ b.bits.length + more.length ≤ maxBits := by
  unfold storeBits
  split <;> simp_all [eq_comm]

@[simp] theorem storeRef_ok {b stored : Builder} : b.storeRef cell = .ok stored ↔
    stored = ⟨b.bits,b.refs ++ [cell]⟩ ∧ b.refs.length + 1 ≤ maxRefs := by
  unfold storeRef
  split <;> simp_all [eq_comm]

@[simp] theorem storeUint_ok {b stored : Builder} : b.storeUint value width = .ok stored ↔
    stored = ⟨b.bits ++ uintBits width value.toNat,b.refs⟩ ∧
      (0 ≤ value ∧ value < 2^width) ∧ b.bits.length + width ≤ maxBits := by
  unfold storeUint
  rw [bind_ok]
  constructor
  · rintro ⟨middle,fits,store⟩
    obtain ⟨rfl,range⟩ := fitUint_ok.mp fits
    simpa [range] using store
  · rintro ⟨rfl,range,room⟩
    exact ⟨value,by simp [range],by simp [room]⟩

theorem storeDict_ok {b stored : Builder} : b.storeDict dict = .ok stored ↔
    stored = ⟨b.bits ++ uintBits 1 dict.toList.length,b.refs ++ dict.toList⟩ ∧
      b.bits.length + 1 ≤ maxBits ∧ (dict ≠ none → b.refs.length + 1 ≤ maxRefs) := by
  cases dict with
  | none => simp [storeDict,uintBits]
  | some cell => simp [storeDict,bind_ok,uintBits,and_left_comm]

/-- The byte length of an amount and its bytes. -/
def coinsBits (value : Nat) : List Bool :=
  let bytes := if value = 0 then 0 else value.log2 / 8 + 1
  uintBits 4 bytes ++ uintBits (8 * bytes) value

theorem coins_bytes (value : Nat) :
    value < 2^(8 * if value = 0 then 0 else value.log2 / 8 + 1) := by
  split
  · simp_all
  · rename_i filled
    refine Nat.lt_of_lt_of_le Nat.lt_log2_self (Nat.pow_le_pow_right (by decide) ?_)
    omega

theorem coins_short (value : Nat) :
    (if value = 0 then 0 else value.log2 / 8 + 1) < 2^4 ↔ value < 2^120 := by
  split
  · simp_all
  · rename_i filled
    rw [← Nat.log2_lt filled]
    omega

theorem storeCoins_ok {b stored : Builder} : b.storeCoins value = .ok stored ↔
    stored = ⟨b.bits ++ coinsBits value,b.refs⟩ ∧ value < 2^120 ∧
      b.bits.length + (coinsBits value).length ≤ maxBits := by
  have bytes := coins_bytes value
  have short := coins_short value
  unfold storeCoins coinsBits
  generalize (if value = 0 then 0 else value.log2 / 8 + 1) = count at bytes short
  have wide : (value : Int) < 2^(8 * count) := by exact_mod_cast bytes
  simp only [bind_ok,storeUint_ok,List.length_append,uintBits_length]
  constructor
  · rintro ⟨middle,⟨rfl,⟨-,small⟩,room⟩,rfl,-,fits⟩
    have small : count < 2^4 := by exact_mod_cast small
    simp only [List.length_append,uintBits_length] at fits
    exact ⟨by simp,short.mp small,by omega⟩
  · rintro ⟨rfl,small,fits⟩
    have few : (count : Int) < 2^4 := by exact_mod_cast short.mpr small
    refine ⟨_,⟨rfl,⟨Int.natCast_nonneg _,few⟩,by omega⟩,by simp,⟨Int.natCast_nonneg _,wide⟩,?_⟩
    simp only [List.length_append,uintBits_length]
    omega

end Builder

section Integers

def Slice.loadCoins (s : Slice) : Result (Nat × Slice) := do
  let (bytes,s) ← s.loadUint 4
  s.loadUint (8 * bytes)

theorem loadCoins_append (value : Nat) (rest : List Bool) (refs : List Cell)
    (small : value < 2^120) :
    Slice.loadCoins ⟨Builder.coinsBits value ++ rest,refs⟩ = .ok (value,⟨rest,refs⟩) := by
  have bytes := Builder.coins_bytes value
  have short := (Builder.coins_short value).mpr small
  unfold Slice.loadCoins Builder.coinsBits
  generalize (if value = 0 then 0 else value.log2 / 8 + 1) = count at bytes short
  rw [List.append_assoc,Slice.loadUint_append _ _ _ _ short,ok_bind]
  exact Slice.loadUint_append _ _ _ _ bytes

/-- Two's complement in a number of bits. -/
def Builder.storeInt (value : Int) (width : Nat) (b : Builder) : Result Builder :=
  if -2^(width - 1) ≤ value ∧ value < 2^(width - 1) then
    b.storeBits (uintBits width (value % 2^width).toNat)
  else .error rangeCheck

def Slice.loadInt (width : Nat) (s : Slice) : Result (Int × Slice) := do
  let (value,s) ← s.loadUint width
  pure (if value < 2^(width - 1) then (value : Int) else value - 2^width,s)

theorem storeInt_ok {b stored : Builder} : b.storeInt value width = .ok stored ↔
    stored = ⟨b.bits ++ uintBits width (value % 2^width).toNat,b.refs⟩ ∧
      (-2^(width - 1) ≤ value ∧ value < 2^(width - 1)) ∧ b.bits.length + width ≤ maxBits := by
  unfold Builder.storeInt
  split
  · rename_i fits
    simp [fits]
  · rename_i fits
    simp [fits]

theorem loadInt_append {value : Int} (rest : List Bool) (refs : List Cell) (natural : 0 ≤ value)
    (small : value < 2^width) :
    Slice.loadInt (width + 1) ⟨uintBits (width + 1) (value % 2^(width + 1)).toNat ++ rest,refs⟩ =
      .ok (value,⟨rest,refs⟩) := by
  obtain ⟨value,rfl⟩ := Int.eq_ofNat_of_zero_le natural
  have small : value < 2^width := by exact_mod_cast small
  have wide : value < 2^(width + 1) := by rw [Nat.pow_succ]; omega
  have reduced : ((value : Int) % 2^(width + 1)).toNat = value := by
    rw [Int.emod_eq_of_lt (Int.natCast_nonneg _) (by exact_mod_cast wide),Int.toNat_natCast]
  rw [reduced,Slice.loadInt,Slice.loadUint_append _ _ _ _ wide,ok_bind]
  simp [small]

end Integers
end Ton
