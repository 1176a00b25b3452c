import Mathlib.Algebra.Order.Floor.Ring
import Mathlib.Data.Rat.Floor
import Tonbankcard.JsMap
import Tonbankcard.JsNumbers

/-! The rate limiter of the faucet, which keeps the times of the slots that were taken for each
address, and the requests that take a slot, wait for the dispenser and give the slot back if it
fails. Times are exact; the parser of addresses is a parameter. -/
namespace Tonbankcard.Faucet

open EcmaScript

section Limiter

structure RateLimitDecision where
  allowed : Bool
  retryAfterSeconds : ℤ
  nextAvailableAt : ℚ
  deriving DecidableEq

structure RateLimitConfig where
  windowMs : ℚ
  maxPerWindow : ℚ
  windowPositive : 0 < windowMs
  maxPositive : 0 < maxPerWindow

def defaultWindowMs : ℚ := 60 * 60 * 1000
def defaultMaxPerWindow : ℚ := 1

/-- The constructor of the limiter. -/
def RateLimitConfig.create (windowMs maxPerWindow : Option ℚ) : Except String RateLimitConfig :=
  let windowMs := windowMs.getD defaultWindowMs
  let maxPerWindow := maxPerWindow.getD defaultMaxPerWindow
  if window : 0 < windowMs then
    if most : 0 < maxPerWindow then .ok ⟨windowMs,maxPerWindow,window,most⟩
    else .error "maxPerWindow must be positive"
  else .error "windowMs must be positive"

abbrev Hits := JsMap JsString (List ℚ)

namespace RateLimitConfig

variable (config : RateLimitConfig)

/-- The timestamps of a key that the window holds, and the hits with only these under the key. -/
def activeTimestamps (hits : Hits) (key : JsString) (now : ℚ) : List ℚ × Hits :=
  let cutoff := now - config.windowMs
  let previous := (hits.get key).getD []
  let fresh := previous.filter fun ts => cutoff < ts
  (fresh,
    if fresh.isEmpty then hits.delete key
    else if fresh.length ≠ previous.length then hits.set key fresh
    else hits)

/-- The loop over the keys of the hits. -/
def activeKeys (hits : Hits) (now : ℚ) : Hits :=
  (hits.entries.map Prod.fst).foldl
    (fun hits existing => (config.activeTimestamps hits existing now).2) hits

def decide (timestamps : List ℚ) (now : ℚ) : RateLimitDecision :=
  if timestamps.length < config.maxPerWindow then ⟨true,0,0⟩
  else
    let oldest := timestamps.headD 0
    let nextAvailableAt := oldest + config.windowMs
    ⟨false,max 1 ⌈(nextAvailableAt - now) / 1000⌉,nextAvailableAt⟩

end RateLimitConfig

/-- The pair that the limiter cares about. -/
structure Address where
  workchain : ℤ
  hash : BitVec 256
  deriving DecidableEq

def Address.toRawString (address : Address) : JsString :=
  decimal address.workchain ++ 58 :: fixedDigits 16 64 address.hash.toNat

variable (parse : JsString → Option Address)

/-- None is the error that `Address.parse` throws. -/
def normaliseAddress (address : JsString) : Option JsString :=
  (parse (trim address)).map Address.toRawString

variable (config : RateLimitConfig)

def peek (hits : Hits) (address : JsString) (now : ℚ) : Option (RateLimitDecision × Hits) :=
  (normaliseAddress parse address).map fun key =>
    let (timestamps,hits) := config.activeTimestamps (config.activeKeys hits now) key now
    (config.decide timestamps now,hits)

def consume (hits : Hits) (address : JsString) (now : ℚ) : Option (RateLimitDecision × Hits) :=
  (normaliseAddress parse address).map fun key =>
    let (timestamps,hits) := config.activeTimestamps (config.activeKeys hits now) key now
    let decision := config.decide timestamps now
    (decision,if decision.allowed then hits.set key (timestamps ++ [now]) else hits)

def reset (hits : Hits) (address : JsString) : Hits :=
  if address.isEmpty then JsMap.empty
  else match normaliseAddress parse address with
    | some key => hits.delete key
    | none => hits

end Limiter

section Server

/-- A slot that was taken for an address. -/
structure Slot where
  address : Address
  time : ℚ
  deriving DecidableEq

/-- The hits of the limiter, the slots whose dispense is under way, those whose dispense has
succeeded, and the time of the last event. -/
structure State where
  hits : Hits
  pending : List Slot
  dispensed : List Slot
  clock : ℚ

/-- What happens at the server, each at its time. A request that is refused before it reaches the
limiter is not an event. -/
inductive Event where
  | dispense (address : JsString) (now : ℚ)
  | status (address : JsString) (now : ℚ)
  | succeed (i : Nat) (now : ℚ)
  | fail (i : Nat) (now : ℚ)
  deriving DecidableEq

def Event.now : Event → ℚ
  | .dispense _ now | .status _ now | .succeed _ now | .fail _ now => now

variable (parse : JsString → Option Address)

def isValidTonAddress (address : JsString) : Bool :=
  !(trim address).isEmpty && (parse (trim address)).isSome

/-- None is a validation error. -/
def assertValidTonAddress (address : JsString) : Option Address :=
  if address.isEmpty then none
  else if isValidTonAddress parse (trim address) then parse (trim address)
  else none

variable (config : RateLimitConfig)

/-- `POST /faucet/dispense` up to the call of the dispenser. -/
def State.dispense (s : State) (spelling : JsString) (now : ℚ) :
    Option RateLimitDecision × State :=
  match assertValidTonAddress parse spelling with
  | none => (none,⟨s.hits,s.pending,s.dispensed,now⟩)
  | some address =>
    match consume parse config s.hits address.toRawString now with
    | none => (none,⟨s.hits,s.pending,s.dispensed,now⟩)
    | some (decision,hits) =>
      (some decision,
        if decision.allowed then ⟨hits,s.pending ++ [⟨address,now⟩],s.dispensed,now⟩
        else ⟨hits,s.pending,s.dispensed,now⟩)

def step (s : State) : Event → State
  | .dispense spelling now => (s.dispense parse config spelling now).2
  | .status spelling now =>
    let peeked := (assertValidTonAddress parse spelling).bind fun address =>
      peek parse config s.hits address.toRawString now
    ⟨(peeked.map Prod.snd).getD s.hits,s.pending,s.dispensed,now⟩
  | .succeed i now =>
    match s.pending[i]? with
    | none => ⟨s.hits,s.pending,s.dispensed,now⟩
    | some slot => ⟨s.hits,s.pending.eraseIdx i,s.dispensed ++ [slot],now⟩
  | .fail i now =>
    match s.pending[i]? with
    | none => ⟨s.hits,s.pending,s.dispensed,now⟩
    | some slot =>
      ⟨reset parse s.hits slot.address.toRawString,s.pending.eraseIdx i,s.dispensed,now⟩

def run (s : State) (events : List Event) : State := events.foldl (step parse config) s

def initial (clock : ℚ) : State := ⟨JsMap.empty,[],[],clock⟩

/-- The clock does not go back. -/
def Ordered (clock : ℚ) : List Event → Prop
  | [] => True
  | event :: rest => clock ≤ event.now ∧ Ordered event.now rest

end Server

section Times

/-- The timestamps under a key. -/
def times (hits : Hits) (key : JsString) : List ℚ := (hits.get key).getD []

theorem times_delete (hits : Hits) (key other : JsString) :
    times (hits.delete key) other = if other = key then [] else times hits other := by
  rw [times,JsMap.get_delete]
  split <;> rfl

theorem times_set (hits : Hits) (key other : JsString) (timestamps : List ℚ) :
    times (hits.set key timestamps) other =
      if other = key then timestamps else times hits other := by
  rw [times,JsMap.get_set]
  split <;> rfl

variable (config : RateLimitConfig) (hits : Hits) (now : ℚ)

/-- Those that the window holds. -/
def fresh (key : JsString) : List ℚ :=
  (times hits key).filter fun ts => now - config.windowMs < ts

theorem activeTimestamps_fst (key : JsString) :
    (config.activeTimestamps hits key now).1 = fresh config hits now key := rfl

theorem times_activeTimestamps (key other : JsString) :
    times (config.activeTimestamps hits key now).2 other =
      if other = key then fresh config hits now key else times hits other := by
  have held : (config.activeTimestamps hits key now).2 =
      if (fresh config hits now key).isEmpty then hits.delete key
      else if (fresh config hits now key).length ≠ (times hits key).length then
        hits.set key (fresh config hits now key)
      else hits := rfl
  rw [held]
  split
  · rename_i empty
    rw [times_delete,List.isEmpty_iff.mp empty]
  split
  · exact times_set hits key other _
  · rename_i whole
    have all := List.filter_sublist.eq_of_length (not_not.mp whole)
    split
    · rename_i same
      rw [same]
      exact all.symm
    · rfl

theorem fresh_fresh (key : JsString) : (fresh config hits now key).filter
    (fun ts => now - config.windowMs < ts) = fresh config hits now key := by
  rw [fresh,List.filter_filter]
  simp

/-- The loop leaves under every key what the window holds. -/
theorem times_activeKeys (key : JsString) :
    times (config.activeKeys hits now) key = fresh config hits now key := by
  have loop (keys : List JsString) (hits : Hits) :
      times (keys.foldl (fun hits existing => (config.activeTimestamps hits existing now).2) hits)
        key = if key ∈ keys then fresh config hits now key else times hits key := by
    induction keys generalizing hits with
    | nil => rfl
    | cons first keys ih =>
      rw [List.foldl_cons,ih,fresh,times_activeTimestamps]
      by_cases here : key = first
      · rw [if_pos here,if_pos (List.mem_cons.mpr (.inl here)),← here,fresh_fresh,ite_self]
      · rw [if_neg here]
        simp only [List.mem_cons,here,false_or]
        rfl
  rw [RateLimitConfig.activeKeys,loop]
  split
  · rfl
  · rename_i absent
    have none : hits.get key = none := by
      cases held : hits.get key with
      | none => rfl
      | some timestamps =>
        exact absurd (List.mem_map.mpr ⟨_,(hits.mem_entries_iff key timestamps).mpr held,rfl⟩) absent
    rw [fresh,times,none]
    rfl

/-- What a decision is made on. -/
theorem fresh_activeKeys (key : JsString) :
    fresh config (config.activeKeys hits now) now key = fresh config hits now key := by
  rw [fresh,times_activeKeys,fresh_fresh]

theorem times_active (key other : JsString) :
    times (config.activeTimestamps (config.activeKeys hits now) key now).2 other =
      fresh config hits now other := by
  rw [times_activeTimestamps,fresh_activeKeys,times_activeKeys]
  split
  · rename_i same
    rw [same]
  · rfl

end Times

section Steps
variable (parse : JsString → Option Address) (config : RateLimitConfig)

/-- Two texts that are parsed to addresses: the raw text of what was parsed is parsed to it. -/
def Rereads : Prop :=
  ∀ text address, parse text = some address → parse address.toRawString = some address

theorem fixedDigits_unit {base width value : Nat} (positive : 0 < base) {unit : UInt16}
    (member : unit ∈ fixedDigits base width value) : ∃ v < base, unit = digit v := by
  induction width generalizing value with
  | zero => cases member
  | succ width ih =>
    rcases List.mem_append.mp member with front | last
    · exact ih front
    · exact ⟨_,Nat.mod_lt _ positive,List.mem_singleton.mp last⟩

theorem trim_toRawString (address : Address) : trim address.toRawString = address.toRawString := by
  refine trim_solid fun unit member => ?_
  have digits : ∀ v < 16, isBlank (digit v) = false := by decide
  rcases List.mem_append.mp member with front | back
  · have range := decimal_unit front
    have values : ∀ code < 58, 45 ≤ code → isBlank (UInt16.ofNat code) = false := by decide
    have code := values unit.toNat (by omega) (by omega)
    rwa [UInt16.ofNat_toNat] at code
  · rcases List.mem_cons.mp back with rfl | back
    · decide
    · obtain ⟨v,small,rfl⟩ := fixedDigits_unit (by decide) back
      exact digits v small

variable {parse} {config}

theorem normaliseAddress_raw {address : Address}
    (rereads : parse address.toRawString = some address) :
    normaliseAddress parse address.toRawString = some address.toRawString := by
  rw [normaliseAddress,trim_toRawString,rereads]
  rfl

/-- Addresses that are parsed have different keys. -/
theorem toRawString_inj {address other : Address}
    (rereads : parse address.toRawString = some address)
    (rereads' : parse other.toRawString = some other)
    (same : address.toRawString = other.toRawString) : address = other := by
  rw [same,rereads'] at rereads
  exact (Option.some.inj rereads).symm

theorem assertValid_rereads (canonical : Rereads parse) {spelling : JsString} {address : Address}
    (valid : assertValidTonAddress parse spelling = some address) :
    parse address.toRawString = some address := by
  rw [assertValidTonAddress] at valid
  split at valid
  · cases valid
  split at valid
  · exact canonical _ _ valid
  · cases valid

variable (config) in
/-- What a request for a dispense does to the hits of every key and to the slots. -/
theorem dispense_valid (s : State) {spelling : JsString} {address : Address}
    (valid : assertValidTonAddress parse spelling = some address)
    (rereads : parse address.toRawString = some address) (now : ℚ) :
    let decision := config.decide (fresh config s.hits now address.toRawString) now
    let next := (s.dispense parse config spelling now).2
    (s.dispense parse config spelling now).1 = some decision ∧
      (∀ key, times next.hits key =
        if decision.allowed = true ∧ key = address.toRawString then
          fresh config s.hits now key ++ [now]
        else fresh config s.hits now key) ∧
      next.pending = (if decision.allowed then s.pending ++ [⟨address,now⟩] else s.pending) ∧
      next.dispensed = s.dispensed ∧ next.clock = now := by
  intro decision next
  have consumed : consume parse config s.hits address.toRawString now =
      some (decision,if decision.allowed then
        (config.activeTimestamps (config.activeKeys s.hits now) address.toRawString now).2.set
          address.toRawString (fresh config s.hits now address.toRawString ++ [now])
        else (config.activeTimestamps (config.activeKeys s.hits now) address.toRawString now).2) := by
    rw [consume,normaliseAddress_raw rereads,Option.map_some]
    simp only [activeTimestamps_fst,fresh_activeKeys]
    rfl
  have whole : s.dispense parse config spelling now = (some decision,next) := by
    have first : (s.dispense parse config spelling now).1 = some decision := by
      simp only [State.dispense,valid,consumed]
    rw [← first]
  have after : next = if decision.allowed then
      ⟨(config.activeTimestamps (config.activeKeys s.hits now) address.toRawString now).2.set
        address.toRawString (fresh config s.hits now address.toRawString ++ [now]),
        s.pending ++ [⟨address,now⟩],s.dispensed,now⟩
      else ⟨(config.activeTimestamps (config.activeKeys s.hits now) address.toRawString now).2,
        s.pending,s.dispensed,now⟩ := by
    change (s.dispense parse config spelling now).2 = _
    simp only [State.dispense,valid,consumed]
    cases decision.allowed <;> rfl
  rw [whole,after]
  refine ⟨rfl,fun key => ?_,?_,?_,?_⟩
  · cases decision.allowed with
    | false =>
      rw [if_neg Bool.false_ne_true,times_active,if_neg (by simp)]
    | true =>
      rw [if_pos rfl,times_set,times_active]
      by_cases here : key = address.toRawString
      · rw [if_pos here,if_pos ⟨rfl,here⟩,here]
      · rw [if_neg here,if_neg fun both => here both.2]
  all_goals cases decision.allowed <;> rfl

theorem dispense_invalid (s : State) {spelling : JsString}
    (invalid : assertValidTonAddress parse spelling = none) (now : ℚ) :
    s.dispense parse config spelling now = (none,⟨s.hits,s.pending,s.dispensed,now⟩) := by
  rw [State.dispense,invalid]

variable (config) in
/-- A status request drops timestamps at most. -/
theorem status_times (s : State) (spelling : JsString) (now : ℚ) :
    let next := step parse config s (.status spelling now)
    (next = ⟨s.hits,s.pending,s.dispensed,now⟩ ∨
      ∃ hits, next = ⟨hits,s.pending,s.dispensed,now⟩ ∧
        ∀ key, times hits key = fresh config s.hits now key) := by
  intro next
  have unfolded : next = ⟨(((assertValidTonAddress parse spelling).bind fun address =>
      peek parse config s.hits address.toRawString now).map Prod.snd).getD s.hits,
      s.pending,s.dispensed,now⟩ := rfl
  cases valid : assertValidTonAddress parse spelling with
  | none =>
    rw [valid] at unfolded
    exact .inl unfolded
  | some address =>
    rw [valid,Option.bind_some,peek] at unfolded
    cases normalised : normaliseAddress parse address.toRawString with
    | none =>
      rw [normalised] at unfolded
      exact .inl unfolded
    | some key =>
      rw [normalised] at unfolded
      exact .inr ⟨_,unfolded,times_active config s.hits now key⟩

end Steps

section Window

/-- The slots that have not been given back. -/
def State.held (s : State) : List Slot := s.pending ++ s.dispensed

/-- How many of the slots are an address's and later than the cutoff. -/
def slotsAfter (address : Address) (cutoff : ℚ) (slots : List Slot) : ℕ :=
  slots.countP fun slot => slot.address = address ∧ cutoff < slot.time

variable (parse : JsString → Option Address) (config : RateLimitConfig)

/-- How many of the slots are an address's and in the window from `start`. -/
def slotsWithin (address : Address) (start : ℚ) (slots : List Slot) : ℕ :=
  slots.countP fun slot =>
    slot.address = address ∧ start ≤ slot.time ∧ slot.time < start + config.windowMs

def RateLimitConfig.Whole : Prop := ∃ most : ℕ, config.maxPerWindow = most

/-- A dispense that fails leaves no other slot of its address in the window. -/
def Spares (s : State) : Event → Prop
  | .fail i now => ∀ slot, s.pending[i]? = some slot →
      ∀ other ∈ s.pending.eraseIdx i ++ s.dispensed, other.address = slot.address →
        other.time ≤ now - config.windowMs
  | _ => True

/-- Every event of a run spares. -/
def Spared (s : State) : List Event → Prop
  | [] => True
  | event :: rest => Spares config s event ∧ Spared (step parse config s event) rest

/-- The address that an event takes a slot for. -/
def taken (s : State) : Event → Option Address
  | .dispense spelling now =>
    if (s.dispense parse config spelling now).1.any (·.allowed) then
      assertValidTonAddress parse spelling
    else none
  | _ => none

/-- No event of a run takes a slot for the address. -/
def Untaken (address : Address) (s : State) : List Event → Prop
  | [] => True
  | event :: rest =>
    taken parse config s event ≠ some address ∧ Untaken address (step parse config s event) rest

/-- What the limiter has for a slot while the window holds it. -/
structure Accounted (s : State) : Prop where
  rereads : ∀ slot ∈ s.held, parse slot.address.toRawString = some slot.address
  counted : ∀ address, parse address.toRawString = some address → ∀ cutoff,
    s.clock - config.windowMs ≤ cutoff →
      slotsAfter address cutoff s.held ≤
        (times s.hits address.toRawString).countP fun ts => cutoff < ts
  bounded : ∀ address start,
    (slotsWithin config address start s.held : ℚ) < config.maxPerWindow + 1

variable {parse} {config}

theorem fresh_countP (hits : Hits) (key : JsString) {now cutoff : ℚ}
    (later : now - config.windowMs ≤ cutoff) :
    (fresh config hits now key).countP (fun ts => cutoff < ts) =
      (times hits key).countP fun ts => cutoff < ts := by
  rw [fresh,List.countP_filter]
  refine List.countP_congr fun ts _ => ?_
  simp only [decide_eq_true_eq,Bool.and_eq_true,and_iff_left_iff_imp]
  exact later.trans_lt

/-- The same slots in another order. -/
theorem Accounted.perm {s t : State} (accounted : Accounted parse config s)
    (hits : t.hits = s.hits) (later : s.clock ≤ t.clock) (same : t.held.Perm s.held) :
    Accounted parse config t where
  rereads slot member := accounted.rereads slot (same.mem_iff.mp member)
  counted address parsed cutoff cut := by
    have before := accounted.counted address parsed cutoff (by linarith)
    rw [slotsAfter,same.countP_eq,hits]
    exact before
  bounded address start := by
    have before := accounted.bounded address start
    rw [slotsWithin,same.countP_eq]
    exact before

/-- The same slots, and the hits with only what the window holds. -/
theorem Accounted.refresh {s t : State} (accounted : Accounted parse config s)
    (later : s.clock ≤ t.clock) (same : t.held = s.held)
    (hits : ∀ key, times t.hits key = fresh config s.hits t.clock key) :
    Accounted parse config t where
  rereads slot member := accounted.rereads slot (same ▸ member)
  counted address parsed cutoff cut := by
    rw [hits,fresh_countP _ _ cut,same]
    exact accounted.counted address parsed cutoff (by linarith)
  bounded := same ▸ accounted.bounded

theorem decide_allowed (timestamps : List ℚ) (now : ℚ) :
    (config.decide timestamps now).allowed = true ↔ timestamps.length < config.maxPerWindow := by
  rw [RateLimitConfig.decide]
  split
  · rename_i few
    exact iff_of_true rfl few
  · rename_i many
    exact iff_of_false Bool.false_ne_true many

theorem length_fresh (hits : Hits) (key : JsString) (now : ℚ) :
    (fresh config hits now key).length =
      (times hits key).countP fun ts => now - config.windowMs < ts :=
  List.countP_eq_length_filter.symm

/-- A slot that is taken: those in a window with it are later than what its cutoff drops. -/
theorem Accounted.take {s t : State} (accounted : Accounted parse config s) {address : Address}
    (parsed : parse address.toRawString = some address) (later : s.clock ≤ t.clock)
    (few : (fresh config s.hits t.clock address.toRawString).length < config.maxPerWindow)
    (hits : ∀ key, times t.hits key =
      if key = address.toRawString then fresh config s.hits t.clock key ++ [t.clock]
      else fresh config s.hits t.clock key)
    (held : t.held.Perm (⟨address,t.clock⟩ :: s.held)) : Accounted parse config t where
  rereads slot member := by
    rcases List.mem_cons.mp (held.mem_iff.mp member) with rfl | old
    · exact parsed
    · exact accounted.rereads slot old
  counted other parsed' cutoff cut := by
    have before := accounted.counted other parsed' cutoff (by linarith)
    rw [← fresh_countP s.hits _ cut] at before
    rw [slotsAfter,held.countP_eq,List.countP_cons]
    by_cases same : other = address
    · subst same
      rw [hits,if_pos rfl,List.countP_append,List.countP_singleton]
      simp only [true_and]
      exact Nat.add_le_add_right before _
    · have key : other.toRawString ≠ address.toRawString := fun equal =>
        same (toRawString_inj parsed' parsed equal)
      rw [hits,if_neg key,if_neg (by simp [Ne.symm same])]
      exact before
  bounded other start := by
    rw [slotsWithin,held.countP_eq,List.countP_cons]
    by_cases inside : address = other ∧ start ≤ t.clock ∧ t.clock < start + config.windowMs
    · obtain ⟨rfl,from_,until_⟩ := inside
      have counted := accounted.counted address parsed (t.clock - config.windowMs) (by linarith)
      rw [← length_fresh] at counted
      have within : slotsWithin config address start s.held ≤
          slotsAfter address (t.clock - config.windowMs) s.held := by
        refine List.countP_mono_left fun slot _ here => ?_
        simp only [decide_eq_true_eq] at here ⊢
        exact ⟨here.1,by linarith [here.2.1]⟩
      rw [if_pos (by simpa using ⟨from_,until_⟩),Nat.cast_add,Nat.cast_one]
      have bound : (slotsWithin config address start s.held : ℚ) ≤
          (fresh config s.hits t.clock address.toRawString).length := by
        exact_mod_cast within.trans counted
      rw [slotsWithin] at bound
      linarith
    · rw [if_neg (by simpa using inside)]
      exact accounted.bounded other start

theorem reset_raw {address : Address} (parsed : parse address.toRawString = some address)
    (hits : Hits) : reset parse hits address.toRawString = hits.delete address.toRawString := by
  have filled : address.toRawString.isEmpty = false := by simp [Address.toRawString]
  rw [reset,filled,normaliseAddress_raw parsed]
  rfl

variable (config) in
theorem fresh_sublist (hits : Hits) (now : ℚ) (key : JsString) :
    (fresh config hits now key).Sublist (times hits key) := List.filter_sublist

/-- A slot that leaves those under way. -/
theorem held_erase {s : State} {i : ℕ} {slot : Slot} (here : s.pending[i]? = some slot) :
    (slot :: (s.pending.eraseIdx i ++ s.dispensed)).Perm s.held := by
  obtain ⟨bound,rfl⟩ := List.getElem?_eq_some_iff.mp here
  exact (List.getElem_cons_eraseIdx_perm bound).append_right s.dispensed

/-- A slot that is given back with no other of its address in the window. -/
theorem Accounted.giveBack {s : State} (accounted : Accounted parse config s) {i : ℕ} {slot : Slot}
    (here : s.pending[i]? = some slot) {now : ℚ} (later : s.clock ≤ now)
    (spares : Spares config s (.fail i now)) : Accounted parse config
      ⟨reset parse s.hits slot.address.toRawString,s.pending.eraseIdx i,s.dispensed,now⟩ := by
  have order := held_erase here
  have kept : ∀ other ∈ s.pending.eraseIdx i ++ s.dispensed, other ∈ s.held := fun other member =>
    order.mem_iff.mp (List.mem_cons_of_mem _ member)
  have parsed := accounted.rereads slot (order.mem_iff.mp List.mem_cons_self)
  refine ⟨fun other member => accounted.rereads other (kept other member),?_,?_⟩
  · intro address parsed' cutoff cut
    change now - config.windowMs ≤ cutoff at cut
    change slotsAfter address cutoff (s.pending.eraseIdx i ++ s.dispensed) ≤
      (times (reset parse s.hits slot.address.toRawString) address.toRawString).countP _
    rw [reset_raw parsed,times_delete]
    split
    · -- the timestamps of all slots of the address go with the one given back
      rename_i same
      have same := toRawString_inj parsed' parsed same
      refine (List.countP_eq_zero.mpr fun other member => ?_).le
      simp only [decide_eq_true_eq,not_and,not_lt]
      intro equal
      exact (spares slot here other member (equal.trans same)).trans cut
    · have before := accounted.counted address parsed' cutoff (by linarith)
      refine le_trans ?_ before
      rw [slotsAfter,slotsAfter,← order.countP_eq,List.countP_cons]
      exact Nat.le_add_right _ _
  · intro address start
    refine lt_of_le_of_lt ?_ (accounted.bounded address start)
    rw [slotsWithin,slotsWithin,← order.countP_eq,List.countP_cons,Nat.cast_add]
    exact le_add_of_nonneg_right (Nat.cast_nonneg _)

theorem step_accounted (canonical : Rereads parse) {s : State}
    (accounted : Accounted parse config s) {event : Event} (later : s.clock ≤ event.now)
    (spares : Spares config s event) : Accounted parse config (step parse config s event) := by
  cases event with
  | dispense spelling now =>
    change Accounted parse config (s.dispense parse config spelling now).2
    cases valid : assertValidTonAddress parse spelling with
    | none =>
      rw [dispense_invalid s valid]
      exact accounted.perm rfl later (.refl _)
    | some address =>
      have parsed := assertValid_rereads canonical valid
      obtain ⟨-,hits,pending,dispensed,clock⟩ := dispense_valid config s valid parsed now
      cases allowed : (config.decide (fresh config s.hits now address.toRawString) now).allowed with
      | false =>
        refine accounted.refresh (later.trans_eq clock.symm) ?_ fun key => ?_
        · rw [State.held,pending,dispensed,allowed]
          rfl
        · rw [hits,allowed,if_neg (by simp),clock]
      | true =>
        refine accounted.take parsed (later.trans_eq clock.symm) ?_ (fun key => ?_) ?_
        · rw [clock]
          exact (decide_allowed _ _).mp allowed
        · rw [hits,allowed,clock]
          simp only [true_and]
        · rw [State.held,pending,dispensed,allowed,clock,if_pos rfl,State.held,List.append_assoc]
          exact List.perm_middle
  | status spelling now =>
    rcases status_times config s spelling now with same | ⟨hits,same,fresh⟩
    · rw [same]
      exact accounted.perm rfl later (.refl _)
    · rw [same]
      exact accounted.refresh later rfl fresh
  | succeed i now =>
    rw [step]
    cases here : s.pending[i]? with
    | none => exact accounted.perm rfl later (.refl _)
    | some slot =>
      refine accounted.perm rfl later (.trans ?_ (held_erase here))
      change (s.pending.eraseIdx i ++ (s.dispensed ++ [slot])).Perm _
      rw [← List.append_assoc]
      exact List.perm_append_singleton _ _
  | fail i now =>
    rw [step]
    cases here : s.pending[i]? with
    | none => exact accounted.perm rfl later (.refl _)
    | some slot => exact accounted.giveBack here later spares

theorem step_clock (s : State) (event : Event) : (step parse config s event).clock = event.now := by
  cases event with
  | dispense spelling now =>
    change (s.dispense parse config spelling now).2.clock = now
    rw [State.dispense]
    split
    · rfl
    split
    · rfl
    · split <;> rfl
  | status spelling now => rfl
  | succeed i now =>
    rw [step]
    split <;> rfl
  | fail i now =>
    rw [step]
    split <;> rfl

theorem run_accounted (canonical : Rereads parse) {s : State}
    (accounted : Accounted parse config s) {events : List Event} (ordered : Ordered s.clock events)
    (spared : Spared parse config s events) :
    Accounted parse config (run parse config s events) := by
  induction events generalizing s with
  | nil => exact accounted
  | cons event events ih =>
    refine ih (step_accounted canonical accounted ordered.1 spared.1) ?_ spared.2
    rw [step_clock]
    exact ordered.2

end Window

section Denied
variable {parse : JsString → Option Address} {config : RateLimitConfig}

/-- No key has more timestamps than a window may have slots. -/
def Short (config : RateLimitConfig) (s : State) : Prop :=
  ∀ key, ((times s.hits key).length : ℚ) < config.maxPerWindow + 1

theorem length_lt_of_sublist {timestamps others : List ℚ} {most : ℚ}
    (fewer : timestamps.Sublist others) (short : (others.length : ℚ) < most) :
    (timestamps.length : ℚ) < most := by
  have length : (timestamps.length : ℚ) ≤ others.length := by exact_mod_cast fewer.length_le
  exact length.trans_lt short

theorem reset_sublist (hits : Hits) (address key : JsString) :
    (times (reset parse hits address) key).Sublist (times hits key) := by
  rw [reset]
  split
  · exact List.nil_sublist _
  split
  · rw [times_delete]
    split
    · exact List.nil_sublist _
    · exact .refl _
  · exact .refl _

/-- An event that takes no slot for an address adds no timestamp to it. -/
theorem step_sublist (canonical : Rereads parse) {address : Address}
    (parsed : parse address.toRawString = some address) (s : State) {event : Event}
    (untaken : taken parse config s event ≠ some address) :
    (times (step parse config s event).hits address.toRawString).Sublist
      (times s.hits address.toRawString) := by
  cases event with
  | dispense spelling now =>
    change (times (s.dispense parse config spelling now).2.hits _).Sublist _
    cases valid : assertValidTonAddress parse spelling with
    | none =>
      rw [dispense_invalid s valid]
    | some other =>
      have parsed' := assertValid_rereads canonical valid
      obtain ⟨decided,hits,-⟩ := dispense_valid config s valid parsed' now
      rw [hits,if_neg]
      · exact fresh_sublist _ _ _ _
      · rintro ⟨allowed,same⟩
        refine untaken ?_
        rw [taken,decided,Option.any_some,if_pos allowed,valid,
          toRawString_inj parsed' parsed same.symm]
  | status spelling now =>
    rcases status_times config s spelling now with same | ⟨hits,same,fresh⟩
    · rw [same]
    · rw [same,fresh]
      exact fresh_sublist _ _ _ _
  | succeed i now =>
    rw [step]
    split <;> exact .refl _
  | fail i now =>
    rw [step]
    split
    · exact .refl _
    · exact reset_sublist _ _ _

theorem run_sublist (canonical : Rereads parse) {address : Address}
    (parsed : parse address.toRawString = some address) {s : State} {events : List Event}
    (untaken : Untaken parse config address s events) :
    (times (run parse config s events).hits address.toRawString).Sublist
      (times s.hits address.toRawString) := by
  induction events generalizing s with
  | nil => exact .refl _
  | cons event events ih => exact (ih untaken.2).trans (step_sublist canonical parsed s untaken.1)

theorem step_short (canonical : Rereads parse) {s : State} (short : Short config s)
    (event : Event) : Short config (step parse config s event) := by
  cases event with
  | dispense spelling now =>
    change Short config (s.dispense parse config spelling now).2
    cases valid : assertValidTonAddress parse spelling with
    | none =>
      rw [dispense_invalid s valid]
      exact short
    | some address =>
      have parsed := assertValid_rereads canonical valid
      obtain ⟨-,hits,-⟩ := dispense_valid config s valid parsed now
      intro key
      rw [hits]
      split
      · rename_i added
        have few := (decide_allowed _ _).mp added.1
        rw [List.length_append,added.2,List.length_singleton]
        push_cast
        linarith
      · exact length_lt_of_sublist (fresh_sublist _ _ _ _) (short key)
  | status spelling now =>
    rcases status_times config s spelling now with same | ⟨hits,same,fresh⟩
    · rw [same]
      exact short
    · rw [same]
      intro key
      rw [fresh]
      exact length_lt_of_sublist (fresh_sublist _ _ _ _) (short key)
  | succeed i now =>
    rw [step]
    split <;> exact short
  | fail i now =>
    rw [step]
    split
    · exact short
    · exact fun key => length_lt_of_sublist (reset_sublist _ _ _) (short key)

theorem run_short (canonical : Rereads parse) {s : State} (short : Short config s)
    (events : List Event) : Short config (run parse config s events) := by
  induction events generalizing s with
  | nil => exact short
  | cons event events ih => exact ih (step_short canonical short event)

/-- At the time that a denial names, its oldest timestamp is out of the window. -/
theorem fresh_reported (hits later : Hits) (key : JsString) (now : ℚ)
    (denied : (config.decide (fresh config hits now key) now).allowed = false)
    (short : ((times hits key).length : ℚ) < config.maxPerWindow + 1)
    (fewer : (times later key).Sublist (fresh config hits now key)) :
    ((fresh config later (config.decide (fresh config hits now key) now).nextAvailableAt key).length
      : ℚ) < config.maxPerWindow := by
  have many : ¬ ((fresh config hits now key).length : ℚ) < config.maxPerWindow := fun few => by
    rw [(decide_allowed _ _).mpr few] at denied
    cases denied
  have bound := length_lt_of_sublist (fresh_sublist config hits now key) short
  rw [RateLimitConfig.decide,if_neg many]
  generalize fresh config hits now key = held at *
  cases held with
  | nil =>
    refine absurd config.maxPositive ?_
    simpa using many
  | cons oldest rest =>
    have dropped : (fresh config later (oldest + config.windowMs) key).Sublist rest := by
      have filtered := fewer.filter fun ts => oldest < ts
      rw [List.filter_cons_of_neg (by simp)] at filtered
      rw [fresh,add_sub_cancel_right]
      exact filtered.trans List.filter_sublist
    refine length_lt_of_sublist dropped ?_
    rw [List.length_cons,Nat.cast_add,Nat.cast_one] at bound
    linarith

end Denied

section Limit

theorem initial_accounted (parse : JsString → Option Address) (config : RateLimitConfig)
    (clock : ℚ) : Accounted parse config (initial clock) where
  rereads slot member := absurd member List.not_mem_nil
  counted _ _ _ _ := Nat.zero_le _
  bounded _ _ := by
    change ((0 : ℕ) : ℚ) < _
    have positive := config.maxPositive
    push_cast
    linarith

theorem initial_short (config : RateLimitConfig) (clock : ℚ) : Short config (initial clock) :=
  fun _ => by
    change ((0 : ℕ) : ℚ) < _
    have positive := config.maxPositive
    push_cast
    linarith

/-- In a run that spares, no window has more dispenses to an address than a whole limit. In every
run, a request at the time that a denial names is allowed if no other slot was taken for its
address. -/
theorem faucet_limits {parse : JsString → Option Address} (canonical : Rereads parse)
    (config : RateLimitConfig) {clock : ℚ} {events : List Event} (ordered : Ordered clock events) :
    (config.Whole → Spared parse config (initial clock) events → ∀ address start,
      (slotsWithin config address start (run parse config (initial clock) events).dispensed : ℚ) ≤
        config.maxPerWindow) ∧
    ∀ spelling address now decision,
      assertValidTonAddress parse spelling = some address →
      ((run parse config (initial clock) events).dispense parse config spelling now).1 =
        some decision → decision.allowed = false →
      ∀ later, Untaken parse config address
        ((run parse config (initial clock) events).dispense parse config spelling now).2 later →
      ∀ again, assertValidTonAddress parse again = some address →
        (((run parse config
          ((run parse config (initial clock) events).dispense parse config spelling now).2
            later).dispense parse config again decision.nextAvailableAt).1.map (·.allowed)) =
          some true := by
  refine ⟨fun ⟨most,whole⟩ spared address start => ?_,?_⟩
  · have accounted := run_accounted canonical (initial_accounted parse config clock) ordered spared
    have bound := accounted.bounded address start
    have fewer : slotsWithin config address start
        (run parse config (initial clock) events).dispensed ≤
          slotsWithin config address start (run parse config (initial clock) events).held :=
      (List.sublist_append_right _ _).countP_le
    rw [whole] at bound ⊢
    have bound : slotsWithin config address start
        (run parse config (initial clock) events).held < most + 1 := by exact_mod_cast bound
    exact_mod_cast fewer.trans (Nat.le_of_lt_succ bound)
  · intro spelling address now decision valid answered denied later untaken again valid'
    have short := run_short canonical (initial_short config clock) events
    generalize run parse config (initial clock) events = s at *
    have parsed := assertValid_rereads canonical valid
    obtain ⟨decided,hits,-⟩ := dispense_valid config s valid parsed now
    obtain rfl := Option.some.inj (decided.symm.trans answered)
    have fewer := run_sublist canonical parsed untaken
    rw [hits,if_neg fun both => by simp [denied] at both] at fewer
    generalize run parse config (s.dispense parse config spelling now).2 later = t at *
    have few := fresh_reported s.hits t.hits _ now denied (short _) fewer
    obtain ⟨decided',-⟩ := dispense_valid config t valid' parsed
      (config.decide (fresh config s.hits now address.toRawString) now).nextAvailableAt
    rw [decided',Option.map_some,(decide_allowed _ _).mpr few]

def wallet : Address := ⟨0,7⟩
def otherWallet : Address := ⟨-1,7⟩

/-- The raw texts of two addresses. -/
def rawAddress (text : JsString) : Option Address :=
  [wallet,otherWallet].find? fun address => address.toRawString = text

def hourly (most : ℚ) (positive : 0 < most) : RateLimitConfig :=
  ⟨3600000,most,by norm_num,positive⟩

theorem rawAddress_rereads : Rereads rawAddress := by
  intro text address parsed
  have among : address ∈ [wallet,otherWallet] := List.mem_of_find?_eq_some parsed
  rcases List.mem_pair.mp among with rfl | rfl <;> decide +kernel

/-- A dispense that fails an hour after another was taken. -/
def twoHours : List Event :=
  [.dispense wallet.toRawString 0,.succeed 0 5,.dispense wallet.toRawString 3600000,
    .fail 0 3600005,.dispense wallet.toRawString 3600006,.succeed 0 3600007]

theorem faucet_limits_hourly :
    let s := run rawAddress (hourly 1 one_pos) (initial 0) twoHours
    let denied := s.dispense rawAddress (hourly 1 one_pos) wallet.toRawString 3600010
    (slotsWithin (hourly 1 one_pos) wallet 1 s.dispensed : ℚ) ≤ 1 ∧
      ((run rawAddress (hourly 1 one_pos) denied.2
        [.dispense otherWallet.toRawString 3600011]).dispense rawAddress (hourly 1 one_pos)
          wallet.toRawString 7200006).1.map (·.allowed) = some true := by
  have ordered : Ordered 0 twoHours := by simp only [twoHours,Ordered,Event.now]; norm_num
  obtain ⟨window,denial⟩ := faucet_limits rawAddress_rereads (hourly 1 one_pos) ordered
  refine ⟨window ⟨1,Nat.cast_one.symm⟩ ?_ wallet 1,?_⟩
  · refine ⟨trivial,trivial,trivial,fun slot here other member _ => ?_,trivial,trivial,trivial⟩
    have slots : (run rawAddress (hourly 1 one_pos) (initial 0) (twoHours.take 3)).pending =
        [⟨wallet,3600000⟩] ∧
      (run rawAddress (hourly 1 one_pos) (initial 0) (twoHours.take 3)).dispensed =
        [⟨wallet,0⟩] := by decide +kernel
    change other ∈ (run rawAddress (hourly 1 one_pos) (initial 0)
      (twoHours.take 3)).pending.eraseIdx 0 ++ (run rawAddress (hourly 1 one_pos) (initial 0)
        (twoHours.take 3)).dispensed at member
    rw [slots.1,slots.2] at member
    obtain rfl := List.mem_singleton.mp member
    norm_num [hourly]
  · exact denial wallet.toRawString wallet 3600010 ⟨false,3600,7200006⟩ (by decide +kernel)
      (by decide +kernel) rfl [.dispense otherWallet.toRawString 3600011]
      ⟨by decide +kernel,trivial⟩ wallet.toRawString (by decide +kernel)

/-- A dispense that fails while another of its address has gone out, and two more. -/
def cleared : List Event :=
  [.dispense wallet.toRawString 0,.dispense wallet.toRawString 1,.succeed 0 2,.fail 0 3,
    .dispense wallet.toRawString 4,.dispense wallet.toRawString 5,.succeed 0 6,.succeed 0 7]

/-- The failure gives back the slot of the other dispense too. -/
theorem failure_clears_others : (hourly 2 two_pos).Whole ∧ Ordered 0 cleared ∧
    ¬ (slotsWithin (hourly 2 two_pos) wallet 0
      (run rawAddress (hourly 2 two_pos) (initial 0) cleared).dispensed : ℚ) ≤
        (hourly 2 two_pos).maxPerWindow := by
  refine ⟨⟨2,by norm_num [hourly]⟩,?_,?_⟩
  · simp only [cleared,Ordered,Event.now]
    norm_num
  · have slots : slotsWithin (hourly 2 two_pos) wallet 0
        (run rawAddress (hourly 2 two_pos) (initial 0) cleared).dispensed = 3 := by decide +kernel
    rw [slots]
    norm_num [hourly]

end Limit

end Tonbankcard.Faucet
