import Tonbankcard.Journal
import Tonbankcard.TonCell

/-! Contracts as receivers of internal messages: the compute phase returns a new storage
and a list of actions or aborts, and the action phase pays for the actions in order.
A transaction that fails in either phase is rolled back as a whole. -/
namespace Ton

open Journal

structure Context where
  sender : Address
  value : Nat
  now : Nat
  deriving DecidableEq, Repr

def sendPayGasSeparately : Nat := 1
def sendIgnoreErrors : Nat := 2
def sendRemainingValue : Nat := 64

structure SendParameters (Body : Type) where
  destination : Address
  value : Nat
  mode : Nat
  bounce : Bool := true
  body : Body
  deriving DecidableEq, Repr

/-- An internal message, or an external-out message emitted for indexers. -/
inductive Action (Body : Type) where
  | send (parameters : SendParameters Body)
  | emit (body : Body)
  deriving DecidableEq, Repr

abbrev Receiver (State Message Body : Type) :=
  Context → Message → State → Result (State × List (Action Body))

/-- One inbound message. A delivery that does not commit ran out of gas or failed in the
action phase after its handler, for whatever reason. -/
structure Delivery (Message : Type) where
  context : Context
  message : Message
  commits : Bool

variable {State Message Body : Type}

def deliver (receiver : Receiver State Message Body) :
    Machine State (Delivery Message) (List (Action Body)) :=
  fun s d => if d.commits then (receiver d.context d.message s).toOption else none

theorem deliver_some (receiver : Receiver State Message Body) :
    deliver receiver s d = some (next,actions) ↔
      d.commits = true ∧ receiver d.context d.message s = .ok (next,actions) := by
  unfold deliver
  split
  next commits => cases receiver d.context d.message s <;> simp [Except.toOption,commits]
  next commits => simp [commits]

variable {receiver : Receiver State Message Body}

theorem deliver_received (delivered : deliver receiver s d = some (next,actions)) :
    receiver d.context d.message s = .ok (next,actions) := ((deliver_some receiver).mp delivered).2

theorem entry_received (member : entry ∈ journal (deliver receiver) initial deliveries) :
    receiver entry.input.context entry.input.message entry.before =
      .ok (entry.after,entry.output) :=
  deliver_received (entry_accepted deliveries entry member)

/-- The induction rule for runs of a contract: what its receiver accepts preserves a
relation between the journal and the state. -/
theorem deliver_invariant
    (related : List (Entry State (Delivery Message) (List (Action Body))) → State → Prop)
    (start : related [] initial)
    (step : ∀ past s d next actions, related past s →
      receiver d.context d.message s = .ok (next,actions) →
      related (⟨s,d,next,actions⟩ :: past) next)
    (deliveries : List (Delivery Message)) :
    related (journal (deliver receiver) initial deliveries)
      (run (deliver receiver) initial deliveries) :=
  invariant related start (fun past s d next actions held delivered =>
    step past s d next actions held (deliver_received delivered)) deliveries

section ActionPhase

/-- Funds during the action phase: what the contract still holds, the values the sent
messages arrive with, newest first, and the fees charged so far. -/
structure Purse where
  remaining : Nat
  sent : List Nat
  fees : Nat
  deriving DecidableEq, Repr

variable (inbound gas : Nat) (forwardFee : Action Body → Nat)

/-- A send in mode 64 carries the inbound value less the compute fee besides its own value,
whatever was sent before it. -/
def carriedValue (parameters : SendParameters Body) : Nat :=
  parameters.value + if parameters.mode &&& sendRemainingValue ≠ 0 then inbound - gas else 0

/-- The forward fee of a send comes out of what it carries unless mode 1 pays it
separately; mode 2 skips a send that is not covered. -/
def perform (purse : Purse) : Action Body → Option Purse
  | .emit body =>
    let fee := forwardFee (.emit body)
    if fee ≤ purse.remaining then some ⟨purse.remaining - fee,purse.sent,purse.fees + fee⟩
    else none
  | .send parameters =>
    let fee := forwardFee (.send parameters)
    let carried := carriedValue inbound gas parameters
    if parameters.mode &&& sendPayGasSeparately ≠ 0 then
      if carried + fee ≤ purse.remaining then
        some ⟨purse.remaining - (carried + fee),carried :: purse.sent,purse.fees + fee⟩
      else if parameters.mode &&& sendIgnoreErrors ≠ 0 then some purse else none
    else if fee ≤ carried ∧ carried ≤ purse.remaining then
      some ⟨purse.remaining - carried,(carried - fee) :: purse.sent,purse.fees + fee⟩
    else if parameters.mode &&& sendIgnoreErrors ≠ 0 then some purse else none

/-- A payment in mode 1 carries its own value, and its fee is paid on top of it. -/
theorem perform_payGasSeparately (purse : Purse) (parameters : SendParameters Body)
    (mode : parameters.mode = sendPayGasSeparately) :
    perform inbound gas forwardFee purse (.send parameters) =
      if parameters.value + forwardFee (.send parameters) ≤ purse.remaining then
        some ⟨purse.remaining - (parameters.value + forwardFee (.send parameters)),
          parameters.value :: purse.sent,purse.fees + forwardFee (.send parameters)⟩
      else none := by
  have separate : parameters.mode &&& sendPayGasSeparately ≠ 0 := by rw [mode]; decide
  have strict : ¬parameters.mode &&& sendIgnoreErrors ≠ 0 := by rw [mode]; decide
  have plain : ¬parameters.mode &&& sendRemainingValue ≠ 0 := by rw [mode]; decide
  simp only [perform,carriedValue,if_pos separate,if_neg strict,if_neg plain,Nat.add_zero]

/-- A reply in mode 64+2 carries the inbound value less its fee, or is skipped. -/
theorem perform_remainingValue (purse : Purse) (parameters : SendParameters Body)
    (mode : parameters.mode = sendRemainingValue ||| sendIgnoreErrors)
    (value : parameters.value = 0) :
    perform inbound gas forwardFee purse (.send parameters) =
      if forwardFee (.send parameters) ≤ inbound - gas ∧ inbound - gas ≤ purse.remaining then
        some ⟨purse.remaining - (inbound - gas),
          (inbound - gas - forwardFee (.send parameters)) :: purse.sent,
          purse.fees + forwardFee (.send parameters)⟩
      else some purse := by
  have inside : ¬parameters.mode &&& sendPayGasSeparately ≠ 0 := by rw [mode]; decide
  have lenient : parameters.mode &&& sendIgnoreErrors ≠ 0 := by rw [mode]; decide
  have remaining : parameters.mode &&& sendRemainingValue ≠ 0 := by rw [mode]; decide
  simp only [perform,carriedValue,if_neg inside,if_pos lenient,if_pos remaining,value,
    Nat.zero_add]

def performAll (purse : Purse) (actions : List (Action Body)) : Option Purse :=
  actions.foldlM (perform inbound gas forwardFee) purse

def Purse.total (purse : Purse) : Nat := purse.remaining + purse.sent.sum + purse.fees

/-- No action creates or destroys value: what leaves the contract is sent or a fee. -/
theorem perform_total (purse next : Purse) (action : Action Body)
    (performed : perform inbound gas forwardFee purse action = some next) :
    next.total = purse.total := by
  cases action with
  | emit body =>
    simp only [perform,Option.ite_none_right_eq_some,Option.some.injEq] at performed
    obtain ⟨covered,rfl⟩ := performed
    simp only [Purse.total]; omega
  | send parameters =>
    simp only [perform] at performed
    split at performed <;> split at performed
    · obtain rfl := Option.some.inj performed
      simp only [Purse.total,List.sum_cons]; omega
    · split at performed
      · exact congrArg Purse.total (Option.some.inj performed).symm
      · contradiction
    · obtain rfl := Option.some.inj performed
      simp only [Purse.total,List.sum_cons]; omega
    · split at performed
      · exact congrArg Purse.total (Option.some.inj performed).symm
      · contradiction

theorem performAll_total (purse next : Purse) (actions : List (Action Body))
    (performed : performAll inbound gas forwardFee purse actions = some next) :
    next.total = purse.total := by
  induction actions generalizing purse with
  | nil => exact congrArg Purse.total (Option.some.inj performed).symm
  | cons action rest ih =>
    simp only [performAll,List.foldlM_cons,Option.bind_eq_bind,Option.bind_eq_some_iff] at performed
    obtain ⟨middle,first,later⟩ := performed
    exact (ih middle later).trans (perform_total inbound gas forwardFee purse middle action first)

end ActionPhase

/-- An inbound message with the contract's balance before it and its compute fee. -/
structure Arrival (Message : Type) where
  context : Context
  message : Message
  balance : Nat
  gas : Nat

structure Receipt (Body : Type) where
  actions : List (Action Body)
  sent : List Nat
  fees : Nat
  balance : Nat

/-- A whole transaction. The compute fee is paid out of the inbound value. -/
def transact (receiver : Receiver State Message Body) (forwardFee : Action Body → Nat) :
    Machine State (Arrival Message) (Receipt Body) :=
  fun s a =>
    if a.gas ≤ a.context.value then
      match receiver a.context a.message s with
      | .error _ => none
      | .ok (next,actions) =>
        (performAll a.context.value a.gas forwardFee
          ⟨a.balance + a.context.value - a.gas,[],a.gas⟩ actions).map
          (fun purse => (next,⟨actions,purse.sent,purse.fees,purse.remaining⟩))
    else none

variable {forwardFee : Action Body → Nat}

theorem transact_some : transact receiver forwardFee s a = some (next,receipt) ↔
    a.gas ≤ a.context.value ∧ receiver a.context a.message s = .ok (next,receipt.actions) ∧
      performAll a.context.value a.gas forwardFee
        ⟨a.balance + a.context.value - a.gas,[],a.gas⟩ receipt.actions =
          some ⟨receipt.balance,receipt.sent,receipt.fees⟩ := by
  unfold transact
  split
  next covered =>
    cases receiver a.context a.message s with
    | error reason => simp
    | ok result =>
      obtain ⟨after,actions⟩ := result
      simp only [Option.map_eq_some_iff,Prod.mk.injEq,covered,true_and,Except.ok.injEq]
      constructor
      · rintro ⟨purse,performed,rfl,rfl⟩
        exact ⟨⟨rfl,rfl⟩,performed⟩
      · rintro ⟨⟨rfl,rfl⟩,performed⟩
        exact ⟨_,performed,rfl,rfl⟩
  next uncovered => simp [uncovered]

/-- Value is conserved by a transaction: what came in is kept, sent on or charged. -/
theorem transact_total (transacted : transact receiver forwardFee s a = some (next,receipt)) :
    receipt.balance + receipt.sent.sum + receipt.fees = a.balance + a.context.value := by
  obtain ⟨covered,-,performed⟩ := transact_some.mp transacted
  have total := performAll_total _ _ _ _ _ _ performed
  simp only [Purse.total,List.sum_nil] at total
  omega

end Ton
