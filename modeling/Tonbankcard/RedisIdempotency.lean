import Tonbankcard.InvoiceService
import Tonbankcard.Journal

/-! The idempotency keys of production, in a Redis that the replicas of the service share. A call
takes several commands to acquire a key, with the commands of other calls between them; still,
until a record expires every call for its key comes to it. -/
namespace Tonbankcard.MerchantApi.RedisIdempotency

open EcmaScript

section Commands

/-- A record with the last instant at which Redis has it. -/
structure Stored where
  record : IdempotencyRecord
  deadline : ℤ

/-- A command on its way to Redis. The two of `setIfAbsent`, its `SET` with `NX` and the `GET` after
a refusal, carry the locals of the call. -/
inductive Command where
  | set (key : JsString) (record : IdempotencyRecord) (ttlMs : ℤ)
  | setIfAbsent (key : JsString) (record : IdempotencyRecord) (attempt : Nat) (ttlMs : ℤ)
  | existing (key : JsString) (record : IdempotencyRecord) (attempt : Nat)
  | get (key : JsString)
  | delete (key : JsString)

/-- A reply on its way to the replica. -/
inductive Reply where
  | acknowledged
  | refused (key : JsString) (record : IdempotencyRecord) (attempt : Nat)
  | existing (key : JsString) (record : IdempotencyRecord) (attempt : Nat)
      (raw : Option IdempotencyRecord)
  | got (key : JsString) (raw : Option IdempotencyRecord)

inductive Call where
  | sent (command : Command)
  | replied (reply : Reply)
  | ended

structure State where
  keys : JsMap JsString Stored
  calls : List Call

def redisKey (key : JsString) : JsString := js "idempotency:" ++ key

def ttlMs (record : IdempotencyRecord) (now : ℤ) : ℤ := max 1 (record.expiresAt - now)

def State.live (s : State) (now : ℤ) (key : JsString) : Option Stored :=
  (s.keys.get (redisKey key)).filter fun stored => now ≤ stored.deadline

def State.raw (s : State) (now : ℤ) (key : JsString) : Option IdempotencyRecord :=
  (s.live now key).map Stored.record

/-- A replica takes no record that is expired at its own clock. -/
def fresh (clock : ℤ) (raw : Option IdempotencyRecord) : Option IdempotencyRecord :=
  raw.filter fun record => clock ≤ record.expiresAt

def State.store (s : State) (now : ℤ) (key : JsString) (record : IdempotencyRecord) (ttl : ℤ) :
    State := {s with keys := s.keys.set (redisKey key) ⟨record,now + ttl⟩}

def State.move (s : State) (position : Nat) (call : Call) : State :=
  {s with calls := s.calls.set position call}

inductive Event where
  | set (key : JsString) (record : IdempotencyRecord)
  | setIfAbsent (key : JsString) (record : IdempotencyRecord)
  | get (key : JsString)
  | delete (key : JsString)
  | executed (position : Nat)
  | read (position : Nat)

/-- An event with the time of Redis and what `Date.now()` is at the replica. -/
structure Input where
  now : ℤ
  clock : ℤ
  event : Event

/-- What Redis does at the execution of a command, and what a call does with its reply. -/
inductive Output where
  | sent
  | stored (key : JsString) (record : IdempotencyRecord)
  | acquired (key : JsString) (record : IdempotencyRecord)
  | refused (key : JsString)
  | found (key : JsString) (raw : Option IdempotencyRecord)
  | deleted (key : JsString)
  | returned
  | asked
  | existing (key : JsString) (record : IdempotencyRecord)
  | retried
  | failed
  | got (key : JsString) (raw : Option IdempotencyRecord)
  deriving DecidableEq

def maxAttempts : Nat := 8

/-- Redis executes a command. -/
def execute (now : ℤ) (position : Nat) (s : State) : Command → State × Output
  | .set key record ttl =>
    ((s.move position (.replied .acknowledged)).store now key record ttl,.stored key record)
  | .setIfAbsent key record attempt ttl =>
    if (s.live now key).isNone then
      ((s.move position (.replied .acknowledged)).store now key record ttl,.acquired key record)
    else (s.move position (.replied (.refused key record attempt)),.refused key)
  | .existing key record attempt =>
    (s.move position (.replied (.existing key record attempt (s.raw now key))),
      .found key (s.raw now key))
  | .get key => (s.move position (.replied (.got key (s.raw now key))),.found key (s.raw now key))
  | .delete key =>
    ({s.move position (.replied .acknowledged) with keys := s.keys.delete (redisKey key)},
      .deleted key)

/-- The call reads the reply, and may send its next command. -/
def read (clock : ℤ) (position : Nat) (s : State) : Reply → State × Output
  | .acknowledged => (s.move position .ended,.returned)
  | .refused key record attempt => (s.move position (.sent (.existing key record attempt)),.asked)
  | .existing key record attempt raw =>
    match fresh clock raw with
    | some existing => (s.move position .ended,.existing key existing)
    | none =>
      if attempt + 1 < maxAttempts then
        (s.move position (.sent (.setIfAbsent key record (attempt + 1) (ttlMs record clock))),
          .retried)
      else (s.move position .ended,.failed)
  | .got key raw => (s.move position .ended,.got key (fresh clock raw))

/-- A call sends its first command at once. -/
def step : Journal.Machine State Input Output := fun s input =>
  let send := fun command => some ({s with calls := s.calls ++ [.sent command]},.sent)
  match input.event with
  | .set key record => send (.set key record (ttlMs record input.clock))
  | .setIfAbsent key record => send (.setIfAbsent key record 0 (ttlMs record input.clock))
  | .get key => send (.get key)
  | .delete key => send (.delete key)
  | .executed position =>
    match s.calls[position]? with
    | some (.sent command) => some (execute input.now position s command)
    | _ => none
  | .read position =>
    match s.calls[position]? with
    | some (.replied reply) => some (read input.clock position s reply)
    | _ => none

end Commands

section Effects

/-- A record is not gone before it expires, when its command is executed from now on. -/
def Command.Lasts (now : ℤ) : Command → Prop
  | .set _ record ttl | .setIfAbsent _ record _ ttl => record.expiresAt ≤ now + ttl
  | _ => True

/-- The record that a reply brings. -/
def Reply.brings : Reply → Option (JsString × IdempotencyRecord)
  | .existing key _ _ raw | .got key raw => raw.map (Prod.mk key)
  | _ => none

/-- The record that a call returns. -/
def Output.returns : Output → Option (JsString × IdempotencyRecord)
  | .existing key record => some (key,record)
  | .got key raw => raw.map (Prod.mk key)
  | _ => none

/-- What happens at a replica, not at Redis. -/
def Output.atReplica : Output → Bool
  | .sent | .returned | .asked | .existing .. | .retried | .failed | .got .. => true
  | _ => false

/-- What a step does. A call that reads a reply goes on or ends. -/
inductive Effect (input : Input) (s : State) : State → Output → Prop where
  | sent (lasts : Command.Lasts input.clock command) :
      Effect input s {s with calls := s.calls ++ [.sent command]} .sent
  | stored (waits : .sent (.set key record ttl) ∈ s.calls) :
      Effect input s ((s.move position (.replied .acknowledged)).store input.now key record ttl)
        (.stored key record)
  | acquired (waits : .sent (.setIfAbsent key record attempt ttl) ∈ s.calls)
      (free : s.live input.now key = none) :
      Effect input s ((s.move position (.replied .acknowledged)).store input.now key record ttl)
        (.acquired key record)
  | refused : Effect input s (s.move position (.replied (.refused key record attempt)))
      (.refused key)
  | found (brings : reply.brings = (s.raw input.now key).map (Prod.mk key)) :
      Effect input s (s.move position (.replied reply)) (.found key (s.raw input.now key))
  | deleted :
      Effect input s
        {s.move position (.replied .acknowledged) with keys := s.keys.delete (redisKey key)}
        (.deleted key)
  | goesOn (lasts : Command.Lasts input.clock command) (own : output.atReplica = true)
      (empty : output.returns = none) :
      Effect input s (s.move position (.sent command)) output
  | ends (event : input.event = .read position)
      (waits : s.calls[position]? = some (.replied reply)) (own : output.atReplica = true)
      (returns : ∀ key record, output.returns = some (key,record) →
        reply.brings = some (key,record) ∧ input.clock ≤ record.expiresAt) :
      Effect input s (s.move position .ended) output

variable {s next : State} {input : Input} {output : Output}

theorem ttlMs_lasts (record : IdempotencyRecord) (clock : ℤ) :
    record.expiresAt ≤ clock + ttlMs record clock := by
  have within := le_max_right 1 (record.expiresAt - clock)
  unfold ttlMs
  omega

theorem execute_effect {command : Command} (waits : s.calls[position]? = some (.sent command))
    (executed : execute input.now position s command = (next,output)) :
    Effect input s next output := by
  have member := List.mem_of_getElem? waits
  cases command with
  | set key record ttl =>
    obtain ⟨rfl,rfl⟩ := Prod.mk.inj executed
    exact .stored member
  | setIfAbsent key record attempt ttl =>
    rw [execute] at executed
    split at executed
    · rename_i free
      obtain ⟨rfl,rfl⟩ := Prod.mk.inj executed
      exact .acquired member (Option.isNone_iff_eq_none.mp free)
    · obtain ⟨rfl,rfl⟩ := Prod.mk.inj executed
      exact .refused
  | existing key record attempt =>
    obtain ⟨rfl,rfl⟩ := Prod.mk.inj executed
    exact .found rfl
  | get key =>
    obtain ⟨rfl,rfl⟩ := Prod.mk.inj executed
    exact .found rfl
  | delete key =>
    obtain ⟨rfl,rfl⟩ := Prod.mk.inj executed
    exact .deleted

theorem fresh_some (found : fresh clock raw = some record) :
    raw = some record ∧ clock ≤ record.expiresAt := by
  obtain ⟨found,fresh⟩ := Option.filter_eq_some_iff.mp found
  exact ⟨found,of_decide_eq_true fresh⟩

theorem read_effect {reply : Reply} (event : input.event = .read position)
    (waits : s.calls[position]? = some (.replied reply))
    (answered : read input.clock position s reply = (next,output)) :
    Effect input s next output := by
  cases reply with
  | acknowledged =>
    obtain ⟨rfl,rfl⟩ := Prod.mk.inj answered
    exact .ends event waits rfl (by simp [Output.returns])
  | refused key record attempt =>
    obtain ⟨rfl,rfl⟩ := Prod.mk.inj answered
    exact .goesOn trivial rfl rfl
  | existing key record attempt raw =>
    rw [read] at answered
    split at answered
    · rename_i existing found
      obtain ⟨rfl,rfl⟩ := Prod.mk.inj answered
      obtain ⟨rfl,valid⟩ := fresh_some found
      refine .ends event waits rfl fun other returned same => ?_
      obtain ⟨rfl,rfl⟩ := Prod.mk.inj (Option.some.inj same)
      exact ⟨rfl,valid⟩
    · split at answered
      · obtain ⟨rfl,rfl⟩ := Prod.mk.inj answered
        exact .goesOn (ttlMs_lasts record input.clock) rfl rfl
      · obtain ⟨rfl,rfl⟩ := Prod.mk.inj answered
        exact .ends event waits rfl (by simp [Output.returns])
  | got key raw =>
    obtain ⟨rfl,rfl⟩ := Prod.mk.inj answered
    refine .ends event waits rfl fun other returned same => ?_
    obtain ⟨record,found,same⟩ := Option.map_eq_some_iff.mp same
    obtain ⟨rfl,rfl⟩ := Prod.mk.inj same
    obtain ⟨rfl,valid⟩ := fresh_some found
    exact ⟨rfl,valid⟩

theorem step_effect (stepped : step s input = some (next,output)) :
    Effect input s next output := by
  obtain ⟨now,clock,event⟩ := input
  cases event with
  | set key record =>
    obtain ⟨rfl,rfl⟩ := Prod.mk.inj (Option.some.inj stepped)
    exact .sent (ttlMs_lasts record clock)
  | setIfAbsent key record =>
    obtain ⟨rfl,rfl⟩ := Prod.mk.inj (Option.some.inj stepped)
    exact .sent (ttlMs_lasts record clock)
  | get key =>
    obtain ⟨rfl,rfl⟩ := Prod.mk.inj (Option.some.inj stepped)
    exact .sent trivial
  | delete key =>
    obtain ⟨rfl,rfl⟩ := Prod.mk.inj (Option.some.inj stepped)
    exact .sent trivial
  | executed position =>
    simp only [step] at stepped
    split at stepped
    · rename_i command waits
      exact execute_effect waits (Option.some.inj stepped)
    · cases stepped
  | read position =>
    simp only [step] at stepped
    split at stepped
    · rename_i reply waits
      exact read_effect rfl waits (Option.some.inj stepped)
    · cases stepped

end Effects

section Lifetimes
variable {s next : State} {input : Input} {output : Output}

theorem redisKey_injective {key other : JsString} (same : redisKey key = redisKey other) :
    key = other := List.append_cancel_left same

theorem Command.Lasts.later {command : Command} {now instant : ℤ} (lasts : command.Lasts now)
    (order : now ≤ instant) : command.Lasts instant := by
  cases command with
  | set key record ttl =>
    have lasts : record.expiresAt ≤ now + ttl := lasts
    exact lasts.trans (Int.add_le_add_right order ttl)
  | setIfAbsent key record attempt ttl =>
    have lasts : record.expiresAt ≤ now + ttl := lasts
    exact lasts.trans (Int.add_le_add_right order ttl)
  | _ => trivial

/-- Redis has each record at least until it expires. -/
structure Sound (now : ℤ) (s : State) : Prop where
  calls : ∀ command, .sent command ∈ s.calls → command.Lasts now
  keys : ∀ key stored, s.keys.get key = some stored → stored.record.expiresAt ≤ stored.deadline

theorem Sound.later {now instant : ℤ} (sound : Sound now s) (order : now ≤ instant) :
    Sound instant s where
  calls command member := (sound.calls command member).later order
  keys := sound.keys

theorem Sound.move {now : ℤ} {call : Call} (sound : Sound now s) (position : Nat)
    (lasts : ∀ command, call = .sent command → command.Lasts now) :
    Sound now (s.move position call) where
  calls command member := by
    rcases List.mem_or_eq_of_mem_set member with before | same
    · exact sound.calls command before
    · exact lasts command same.symm
  keys := sound.keys

theorem Sound.store {now ttl : ℤ} {record : IdempotencyRecord} (sound : Sound now s)
    (key : JsString) (lasts : record.expiresAt ≤ now + ttl) :
    Sound now (s.store now key record ttl) where
  calls := sound.calls
  keys := by
    intro other stored found
    rw [State.store,JsMap.get_set] at found
    split at found
    · obtain rfl := Option.some.inj found
      exact lasts
    · exact sound.keys other stored found

/-- A replica whose clock is not ahead asks for lifetimes that are long enough. -/
theorem sound_step (sound : Sound input.now s) (behind : input.clock ≤ input.now)
    (stepped : step s input = some (next,output)) : Sound input.now next := by
  have replied {reply : Reply} (position : Nat) :
      Sound input.now (s.move position (.replied reply)) := by
    apply sound.move
    intro command same
    cases same
  cases step_effect stepped with
  | @sent command lasts =>
    refine ⟨fun other member => ?_,sound.keys⟩
    rcases List.mem_append.mp member with before | latest
    · exact sound.calls other before
    · obtain rfl := Call.sent.inj (List.mem_singleton.mp latest)
      exact lasts.later behind
  | stored waits => exact (replied _).store _ (sound.calls _ waits)
  | acquired waits free => exact (replied _).store _ (sound.calls _ waits)
  | refused => exact replied _
  | found brings => exact replied _
  | deleted =>
    refine ⟨(replied _).calls,fun key stored found => ?_⟩
    rw [JsMap.get_delete] at found
    split at found
    · cases found
    · exact sound.keys key stored found
  | goesOn lasts own empty =>
    apply sound.move
    rintro command ⟨⟩
    exact lasts.later behind
  | ends event waits own returns =>
    apply sound.move
    intro command same
    cases same

end Lifetimes

section Runs
variable {s next : State} {input : Input} {output : Output} {key : JsString}
  {record : IdempotencyRecord}

/-- The record that a command of a call comes to, its own or one that is there. -/
def Output.comes : Output → Option (JsString × IdempotencyRecord)
  | .acquired key record => some (key,record)
  | .found key raw => raw.map (Prod.mk key)
  | _ => none

/-- The commands of `set` and `delete`, which replace a record whether or not it is there. -/
def Output.replaces (key : JsString) : Output → Bool
  | .stored other _ | .deleted other => other = key
  | _ => false

theorem comes_atReplica (own : output.atReplica = true) : output.comes = none := by
  cases output <;> first | rfl | cases own

def Held (key : JsString) (record : IdempotencyRecord) (s : State) : Prop :=
  ∃ stored, s.keys.get (redisKey key) = some stored ∧ stored.record = record

/-- The reply with this record has not been read. -/
def Unread (key : JsString) (position : Nat) (record : IdempotencyRecord) (s : State) : Prop :=
  ∃ reply : Reply, s.calls[position]? = some (.replied reply) ∧ reply.brings = some (key,record)

theorem held_live (sound : Sound now s) (held : Held key record s)
    (early : now < record.expiresAt) : ∃ stored, s.live now key = some stored ∧
      stored.record = record := by
  obtain ⟨stored,found,rfl⟩ := held
  have present : now ≤ stored.deadline := early.le.trans (sound.keys _ stored found)
  exact ⟨stored,by rw [State.live,found,Option.filter_some,if_pos (decide_eq_true present)],rfl⟩

theorem raw_held (found : s.raw now key = some record) : Held key record s := by
  obtain ⟨stored,live,same⟩ := Option.map_eq_some_iff.mp found
  exact ⟨stored,(Option.filter_eq_some_iff.mp live).1,same⟩

theorem held_comes (stepped : step s input = some (next,output))
    (comes : output.comes = some (key,record)) : Held key record next := by
  cases step_effect stepped with
  | acquired waits free =>
    obtain ⟨rfl,rfl⟩ := Prod.mk.inj (Option.some.inj comes)
    exact ⟨_,by rw [State.store,JsMap.get_set,if_pos rfl],rfl⟩
  | found brings =>
    obtain ⟨other,there,same⟩ := Option.map_eq_some_iff.mp comes
    obtain ⟨rfl,rfl⟩ := Prod.mk.inj same
    exact raw_held (s := s) there
  | goesOn lasts own empty => simp [comes_atReplica own] at comes
  | ends event waits own returns => simp [comes_atReplica own] at comes
  | _ => cases comes

theorem found_raw (stepped : step s input = some (next,output))
    (found : output = .found key raw) : raw = s.raw input.now key := by
  cases step_effect stepped with
  | found brings =>
    obtain ⟨rfl,rfl⟩ := Output.found.inj found
    rfl
  | goesOn lasts own empty => simp [found,Output.atReplica] at own
  | ends event waits own returns => simp [found,Output.atReplica] at own
  | _ => cases found

theorem acquired_free (stepped : step s input = some (next,output))
    (acquired : output = .acquired key record) : s.live input.now key = none := by
  cases step_effect stepped with
  | acquired waits free =>
    obtain ⟨rfl,-⟩ := Output.acquired.inj acquired
    exact free
  | goesOn lasts own empty => simp [acquired,Output.atReplica] at own
  | ends event waits own returns => simp [acquired,Output.atReplica] at own
  | _ => cases acquired

theorem Held.store {other : JsString} {another : IdempotencyRecord} {now ttl : ℤ}
    (held : Held key record s) (apart : key ≠ other) :
    Held key record (s.store now other another ttl) := by
  obtain ⟨stored,found,same⟩ := held
  refine ⟨stored,?_,same⟩
  rw [State.store,JsMap.get_set,if_neg fun equal => apart (redisKey_injective equal)]
  exact found

/-- An unexpired record goes only where it is replaced. -/
theorem held_step (sound : Sound input.now s) (held : Held key record s)
    (early : input.now < record.expiresAt) (stepped : step s input = some (next,output))
    (kept : output.replaces key = false) : Held key record next := by
  cases step_effect stepped with
  | stored waits =>
    have apart := of_decide_eq_false kept
    exact Held.store held (Ne.symm apart)
  | @acquired other _ _ _ _ waits free =>
    have apart : key ≠ other := by
      rintro rfl
      obtain ⟨stored,live,-⟩ := held_live sound held early
      rw [free] at live
      cases live
    exact Held.store held apart
  | @deleted _ other =>
    have apart := of_decide_eq_false kept
    obtain ⟨stored,found,same⟩ := held
    refine ⟨stored,?_,same⟩
    rw [JsMap.get_delete,if_neg fun equal => apart (redisKey_injective equal).symm]
    exact found
  | _ => exact held

/-- While a record is there and unexpired, no other is acquired and only it is found. -/
theorem comes_held (sound : Sound input.now s) (held : Held key record s)
    (early : input.now < record.expiresAt) (stepped : step s input = some (next,output)) :
    (∀ other, output ≠ .acquired key other) ∧
      ∀ raw, output = .found key raw → raw = some record := by
  obtain ⟨stored,live,same⟩ := held_live sound held early
  refine ⟨fun other acquired => ?_,fun raw found => ?_⟩
  · rw [acquired_free stepped acquired] at live
    cases live
  · rw [found_raw stepped found,State.raw,live,Option.map_some,same]

theorem unread_keys {other : IdempotencyRecord} {keys : JsMap JsString Stored}
    (unread : Unread key place other {s with keys := keys}) : Unread key place other s := unread

theorem unread_move {other : IdempotencyRecord} {call : Call}
    (unread : Unread key place other (s.move position call)) : Unread key place other s ∨
      ∃ reply, call = .replied reply ∧ reply.brings = some (key,other) := by
  obtain ⟨reply,waits,brings⟩ := unread
  rw [State.move,List.getElem?_set] at waits
  split at waits
  · split at waits
    · exact .inr ⟨reply,Option.some.inj waits,brings⟩
    · cases waits
  · exact .inl ⟨reply,waits,brings⟩

/-- A reply brings a record exactly if its `GET` has found it. -/
theorem unread_step {other : IdempotencyRecord} (stepped : step s input = some (next,output))
    (unread : Unread key place other next) :
    Unread key place other s ∨ output = .found key (some other) := by
  have silent {call : Call} {position : Nat}
      (unread : Unread key place other (s.move position call))
      (plain : ∀ reply, call = .replied reply → reply.brings = none) :
      Unread key place other s := by
    rcases unread_move unread with before | ⟨reply,same,brings⟩
    · exact before
    · simp [plain reply same] at brings
  cases step_effect stepped with
  | sent lasts =>
    obtain ⟨reply,waits,brings⟩ := unread
    rw [List.getElem?_append] at waits
    split at waits
    · exact .inl ⟨reply,waits,brings⟩
    · cases List.mem_singleton.mp (List.mem_of_getElem? waits)
  | found finds =>
    rcases unread_move unread with before | ⟨reply,same,brings⟩
    · exact .inl before
    · obtain rfl := Call.replied.inj same
      rw [finds] at brings
      obtain ⟨record,there,same⟩ := Option.map_eq_some_iff.mp brings
      obtain ⟨rfl,rfl⟩ := Prod.mk.inj same
      exact .inr (congrArg (Output.found _) there)
  | goesOn lasts own empty => exact .inl (silent unread (by simp))
  | ends event waits own returns => exact .inl (silent unread (by simp))
  | stored waits => exact .inl (silent (unread_keys unread) (by simp [Reply.brings]))
  | acquired waits free => exact .inl (silent (unread_keys unread) (by simp [Reply.brings]))
  | refused => exact .inl (silent unread (by simp [Reply.brings]))
  | deleted => exact .inl (silent (unread_keys unread) (by simp [Reply.brings]))

abbrev Entry := Journal.Entry State Input Output

def initial : State := ⟨.empty,[]⟩

abbrev journal : List Input → List Entry := Journal.journal step initial

abbrev run : List Input → State := Journal.run step initial

/-- The time of Redis never runs backwards, and no replica is ahead of it. -/
structure Timed (inputs : List Input) : Prop where
  ordered : inputs.Pairwise fun later earlier => earlier.now ≤ later.now
  behind : ∀ input ∈ inputs, input.clock ≤ input.now

theorem Timed.past {past : List Input} (timed : Timed (input :: past)) :
    Timed past ∧ ∀ earlier ∈ past, earlier.now ≤ input.now := by
  obtain ⟨latest,ordered⟩ := List.pairwise_cons.mp timed.ordered
  exact ⟨⟨ordered,fun earlier member => timed.behind earlier (List.mem_cons_of_mem _ member)⟩,
    latest⟩

theorem run_sound {inputs : List Input} (timed : Timed inputs) {now : ℤ}
    (latest : ∀ input ∈ inputs, input.now ≤ now) : Sound now (run inputs) := by
  induction inputs generalizing now with
  | nil =>
    constructor
    · intro command member
      cases member
    · intro key stored found
      cases found
  | cons input past ih =>
    obtain ⟨earlier,newest⟩ := timed.past
    have sound := ih earlier newest
    have order := latest input List.mem_cons_self
    cases outcome : step (run past) input with
    | none =>
      rw [run,Journal.run_refused outcome]
      exact sound.later order
    | some result =>
      obtain ⟨next,output⟩ := result
      rw [run,Journal.run_accepted outcome]
      exact (sound_step sound (timed.behind input List.mem_cons_self) outcome).later order

/-- A record that a call came to is there until it expires, if nothing replaces it, and no other
is found meanwhile. -/
theorem held_since {inputs : List Input} {between older : List Entry} {earlier : Entry}
    (timed : Timed inputs) (early : ∀ input ∈ inputs, input.now < record.expiresAt)
    (whole : journal inputs = between ++ earlier :: older)
    (kept : ∀ entry ∈ between, entry.output.replaces key = false)
    (first : earlier.output.comes = some (key,record)) :
    Held key record (run inputs) ∧ ∀ position other, Unread key position other (run inputs) →
      other = record ∨ Unread key position other earlier.after := by
  induction inputs generalizing between with
  | nil => simp [journal,Journal.journal] at whole
  | cons input past ih =>
    obtain ⟨timedPast,newest⟩ := timed.past
    have earlyPast : ∀ input ∈ past, input.now < record.expiresAt :=
      fun input member => early input (List.mem_cons_of_mem _ member)
    cases outcome : step (run past) input with
    | none =>
      rw [journal,Journal.journal_refused outcome] at whole
      rw [run,Journal.run_refused outcome]
      exact ih timedPast earlyPast whole kept
    | some result =>
      obtain ⟨next,output⟩ := result
      rw [journal,Journal.journal_accepted outcome] at whole
      rw [run,Journal.run_accepted outcome]
      cases between with
      | nil =>
        obtain ⟨rfl,-⟩ := List.cons.inj whole
        exact ⟨held_comes outcome first,fun position other unread => .inr unread⟩
      | cons entry between =>
        obtain ⟨rfl,rest⟩ := List.cons.inj whole
        obtain ⟨held,replies⟩ := ih timedPast earlyPast rest
          fun entry member => kept entry (List.mem_cons_of_mem _ member)
        have sound := run_sound timedPast newest
        have now := early input List.mem_cons_self
        refine ⟨held_step sound held now outcome (kept _ List.mem_cons_self),?_⟩
        intro position other unread
        rcases unread_step outcome unread with before | found
        · exact replies position other before
        · exact .inl (Option.some.inj ((comes_held sound held now outcome).2 _ found))

/-- A call returns a record that it has read from its reply. -/
theorem returns_unread {other : IdempotencyRecord} (stepped : step s input = some (next,output))
    (returns : output.returns = some (key,other)) : ∃ position,
      input.event = .read position ∧ Unread key position other s ∧
        input.clock ≤ other.expiresAt := by
  cases step_effect stepped with
  | goesOn lasts own empty =>
    rw [empty] at returns
    cases returns
  | ends event waits own brings =>
    obtain ⟨brings,valid⟩ := brings key other returns
    exact ⟨_,event,⟨_,waits,brings⟩,valid⟩
  | _ => cases returns

/-- Concurrent calls for one key converge: after a command of a call has come to a record, and until
that record expires or is replaced, no other call acquires the key, each `GET` of the key finds the
record, and each call returns it, unless the reply with another was under way by then. -/
theorem calls_converge {inputs : List Input} {between older : List Entry} {later earlier : Entry}
    (timed : Timed inputs) (here : later :: (between ++ earlier :: older) <:+ journal inputs)
    (kept : ∀ entry ∈ between, entry.output.replaces key = false)
    (first : earlier.output.comes = some (key,record))
    (unexpired : later.input.now < record.expiresAt) :
    (∀ other, later.output ≠ .acquired key other) ∧
    (∀ raw, later.output = .found key raw → raw = some record) ∧
    ∀ other, later.output.returns = some (key,other) → other = record ∨
      ∃ position, later.input.event = .read position ∧ Unread key position other earlier.after := by
  obtain ⟨past,within,whole,before,stepped⟩ := Journal.suffix_origin here
  have timedHere : Timed (later.input :: past) :=
    ⟨timed.ordered.sublist within.sublist,fun input member => timed.behind input
      (within.subset member)⟩
  obtain ⟨timedPast,newest⟩ := timedHere.past
  obtain ⟨held,replies⟩ := held_since timedPast
    (fun input member => (newest input member).trans_lt unexpired) whole.symm kept first
  have sound := run_sound timedPast newest
  rw [before] at stepped
  obtain ⟨acquires,finds⟩ := comes_held sound held unexpired stepped
  refine ⟨acquires,finds,fun other returns => ?_⟩
  obtain ⟨position,event,unread,-⟩ := returns_unread stepped returns
  rcases replies position other unread with same | earlier
  · exact .inl same
  · exact .inr ⟨position,event,earlier⟩

theorem get_store {other : JsString} {another : IdempotencyRecord} {now ttl : ℤ} {stored : Stored}
    (found : (s.store now other another ttl).keys.get (redisKey key) = some stored) :
    key = other ∧ stored = ⟨another,now + ttl⟩ ∨ s.keys.get (redisKey key) = some stored := by
  rw [State.store,JsMap.get_set] at found
  split at found
  · rename_i same
    exact .inl ⟨redisKey_injective same,(Option.some.inj found).symm⟩
  · exact .inr found

/-- Records come from acquisitions and from `set`. -/
theorem stored_step {stored : Stored} (stepped : step s input = some (next,output))
    (found : next.keys.get (redisKey key) = some stored) :
    s.keys.get (redisKey key) = some stored ∨ output = .acquired key stored.record ∨
      output = .stored key stored.record := by
  cases step_effect stepped with
  | stored waits =>
    rcases get_store found with ⟨rfl,rfl⟩ | before
    · exact .inr (.inr rfl)
    · exact .inl before
  | acquired waits free =>
    rcases get_store found with ⟨rfl,rfl⟩ | before
    · exact .inr (.inl rfl)
    · exact .inl before
  | deleted =>
    rw [JsMap.get_delete] at found
    split at found
    · cases found
    · exact .inl found
  | _ => exact .inl found

/-- A command has stored the record under the key. -/
def Stores (key : JsString) (record : IdempotencyRecord) (entries : List Entry) : Prop :=
  ∃ entry ∈ entries, entry.output = .acquired key record ∨ entry.output = .stored key record

theorem Stores.more {entries : List Entry} (stores : Stores key record entries) (entry : Entry) :
    Stores key record (entry :: entries) := by
  obtain ⟨earlier,member,announced⟩ := stores
  exact ⟨earlier,List.mem_cons_of_mem _ member,announced⟩

/-- Whatever is stored or under way was stored by a command. -/
theorem run_stored (inputs : List Input) : ∀ record, Held key record (run inputs) ∨
    (∃ position, Unread key position record (run inputs)) → Stores key record (journal inputs) := by
  refine Journal.invariant (fun (past : List Entry) (s : State) => ∀ record,
    Held key record s ∨ (∃ position, Unread key position record s) → Stores key record past)
    ?_ ?_ inputs
  · rintro record (⟨stored,found,-⟩ | ⟨position,reply,waits,-⟩)
    · cases found
    · cases waits
  · rintro past s input next output origin stepped record (⟨stored,found,rfl⟩ | ⟨position,unread⟩)
    · rcases stored_step stepped found with before | announced
      · exact (origin _ (.inl ⟨stored,before,rfl⟩)).more _
      · exact ⟨_,List.mem_cons_self,announced⟩
    · rcases unread_step stepped unread with before | found
      · exact (origin _ (.inr ⟨position,before⟩)).more _
      · exact (origin _ (.inl (raw_held (found_raw stepped found).symm))).more _

/-- A record that a call returns was stored under its key by a command of `set`, or by an
acquisition, and it is not expired at the replica. -/
theorem returned_stored {inputs : List Input} {entry : Entry} {older : List Entry}
    (here : entry :: older <:+ journal inputs)
    (returns : entry.output.returns = some (key,record)) :
    entry.input.clock ≤ record.expiresAt ∧ Stores key record older := by
  obtain ⟨past,-,rfl,before,stepped⟩ := Journal.suffix_origin here
  obtain ⟨position,-,unread,valid⟩ := returns_unread stepped returns
  rw [before] at unread
  exact ⟨valid,run_stored past record (.inr ⟨position,unread⟩)⟩

end Runs

section Replicas

def sampleKey : JsString := js "5f1c"

def firstRecord : IdempotencyRecord := ⟨js "inv_0000000000000001",87400000⟩

def secondRecord : IdempotencyRecord := ⟨js "inv_0000000000000002",87400000⟩

/-- Two replicas ask at once: one acquires the key, the other is refused and finds the record. -/
def sampleInputs : List Input :=
  [⟨1000006,1000005,.read 1⟩,⟨1000005,1000004,.executed 1⟩,⟨1000004,1000003,.read 1⟩,
    ⟨1000003,1000003,.read 0⟩,⟨1000002,1000001,.executed 1⟩,⟨1000001,1000001,.executed 0⟩,
    ⟨1000000,999999,.setIfAbsent sampleKey secondRecord⟩,
    ⟨1000000,1000000,.setIfAbsent sampleKey firstRecord⟩]

theorem calls_converge_replicas : ∃ later earlier : Entry, later ∈ journal sampleInputs ∧
    later.output = .existing sampleKey firstRecord ∧
    (∀ other, later.output ≠ .acquired sampleKey other) ∧
    (∀ raw, later.output = .found sampleKey raw → raw = some firstRecord) ∧
    ∀ other, later.output.returns = some (sampleKey,other) → other = firstRecord ∨
      ∃ position, later.input.event = .read position ∧
        Unread sampleKey position other earlier.after := by
  have timed : Timed sampleInputs := ⟨by simp [sampleInputs],by simp [sampleInputs]⟩
  obtain ⟨later,between,earlier,older,whole,last,quiet,first,instant⟩ :
      ∃ later between earlier older,
        journal sampleInputs = later :: (between ++ earlier :: older) ∧
        later.output = .existing sampleKey firstRecord ∧
        between.map (·.output) =
          [.found sampleKey (some firstRecord),.asked,.returned,.refused sampleKey] ∧
        earlier.output = .acquired sampleKey firstRecord ∧ later.input.now = 1000006 :=
    ⟨_,[_,_,_,_],_,_,rfl,rfl,rfl,rfl,rfl⟩
  have here : later :: (between ++ earlier :: older) <:+ journal sampleInputs :=
    whole ▸ List.suffix_refl _
  refine ⟨later,earlier,here.subset List.mem_cons_self,last,calls_converge timed here ?_
    (congrArg Output.comes first) ?_⟩
  · intro entry member
    have among := List.mem_map_of_mem (f := fun entry : Entry => entry.output) member
    rw [quiet] at among
    have plain : ∀ output ∈ [.found sampleKey (some firstRecord),.asked,.returned,
        .refused sampleKey], Output.replaces sampleKey output = false := by simp [Output.replaces]
    exact plain _ among
  · rw [instant]
    decide

theorem returned_stored_replicas : ∃ entry older, entry :: older <:+ journal sampleInputs ∧
    entry.input.clock ≤ firstRecord.expiresAt ∧ Stores sampleKey firstRecord older := by
  obtain ⟨entry,older,whole,last⟩ : ∃ entry older, journal sampleInputs = entry :: older ∧
      entry.output = .existing sampleKey firstRecord := ⟨_,_,rfl,rfl⟩
  have here : entry :: older <:+ journal sampleInputs := whole ▸ List.suffix_refl _
  exact ⟨entry,older,here,returned_stored here (congrArg Output.returns last)⟩

end Replicas
end Tonbankcard.MerchantApi.RedisIdempotency
