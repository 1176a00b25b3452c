import Tonbankcard.Ledger
import Tonbankcard.MerchantPaymentHub

/-! The hub's balance map refines an abstract ledger: an accepted deposit is a credit, a
payment is a movement and every other message leaves the ledger alone. Conservation and
solvency are then facts about the ledger, and replay protection about the consumed ids. -/
namespace Tonbankcard.MerchantPaymentHub

open Ton

/-- The ledger operation announced by the events of a transaction. -/
def movement : List (Action Body) → Ledger.Operation Address
  | .emit (.merchantPayment payerNft merchantNft amountTbc _ _) :: _ =>
    .move payerNft merchantNft amountTbc
  | .emit (.merchantTBCDeposited _ nftAddress amountTbc _) :: _ => .credit nftAddress amountTbc
  | _ => .none

structure Deposit where
  depositId : Int
  nftAddress : Address
  amountTbc : Int

def depositOf : Message → Option Deposit
  | .tbcDeposit depositId nftAddress amountTbc => some ⟨depositId,nftAddress,amountTbc⟩
  | _ => none

/-- The accepted deposits of a journal, newest first. -/
def deposits (entries : List Entry) : List Deposit :=
  entries.filterMap (fun entry => depositOf entry.input.message)

@[simp] theorem pay_amounts (self : State) (payerNft merchantNft : Address) (amountTbc : Int) :
    (self.pay payerNft merchantNft amountTbc).accountBalances.amounts =
      Ledger.apply self.accountBalances.amounts (.move payerNft merchantNft amountTbc) := by
  have debit : self.getBalance payerNft - amountTbc - self.accountBalances.amount payerNft =
      -amountTbc := by
    change self.accountBalances.amount payerNft - amountTbc - _ = _
    omega
  rw [State.pay,FiniteMap.amounts_set,add_sub_cancel_left,FiniteMap.amounts_set,debit,
    Finsupp.single_neg,← sub_eq_add_neg]
  rfl

@[simp] theorem deposit_amounts (self : State) (depositId : Int) (nftAddress : Address)
    (amountTbc : Int) :
    (self.deposit depositId nftAddress amountTbc).accountBalances.amounts =
      Ledger.apply self.accountBalances.amounts (.credit nftAddress amountTbc) := by
  have credit : self.getBalance nftAddress + amountTbc - self.accountBalances.amount nftAddress =
      amountTbc := by
    change self.accountBalances.amount nftAddress + amountTbc - _ = _
    omega
  simp only [State.deposit,FiniteMap.amounts_set,credit,Ledger.apply]

/-- Every accepted message performs exactly the ledger operation its events announce. -/
theorem effect_ledger {hash : Cell → Int} {env : Context} {self next : State}
    (effect : Effect hash env self msg next actions) :
    next.accountBalances.amounts =
      Ledger.apply self.accountBalances.amounts (movement actions) := by
  cases effect with
  | paid payable => exact pay_amounts ..
  | deposited => exact deposit_amounts ..
  | _ => rfl

theorem effect_covered {hash : Cell → Int} {env : Context} {self next : State}
    (effect : Effect hash env self msg next actions) :
    (movement actions).Covered self.accountBalances.amounts := by
  cases effect with
  | paid payable => exact ⟨le_of_lt payable.positive,payable.funded⟩
  | deposited _ positive => exact le_of_lt positive
  | _ => trivial

theorem effect_minted {hash : Cell → Int} {env : Context} {self next : State}
    (effect : Effect hash env self msg next actions) :
    (movement actions).minted = ((depositOf msg).map Deposit.amountTbc).getD 0 := by
  cases effect <;> rfl

/-- Only a deposit consumes an id, and it consumes exactly its own. -/
theorem effect_consumed {hash : Cell → Int} {env : Context} {self next : State}
    (effect : Effect hash env self msg next actions) (depositId : Int) :
    next.processedDeposits.get depositId ≠ none ↔
      self.processedDeposits.get depositId ≠ none ∨
        ∃ deposit, depositOf msg = some deposit ∧ deposit.depositId = depositId := by
  cases effect with
  | deposited =>
    simp only [State.deposit,FiniteMap.get_set,depositOf,Option.some.injEq,exists_eq_left']
    split
    next same => simp [same]
    next different => simp [Ne.symm different]
  | _ => simp [depositOf,State.pay,State.register]

theorem effect_fresh {hash : Cell → Int} {env : Context} {self next : State}
    (effect : Effect hash env self msg next actions) (deposited : depositOf msg = some deposit) :
    self.processedDeposits.get deposit.depositId = none := by
  cases effect with
  | deposited _ _ _ fresh =>
    simp only [depositOf,Option.some.injEq] at deposited
    exact deposited ▸ fresh
  | _ => simp [depositOf] at deposited

/-- What a run maintains between its journal and the stored maps. -/
structure Conserved (entries : List Entry) (s : State) : Prop where
  refines : s.accountBalances.amounts =
    Ledger.replay (entries.map (fun entry => movement entry.output))
  minted : ((entries.map (fun entry => movement entry.output)).map Ledger.Operation.minted).sum =
    ((deposits entries).map Deposit.amountTbc).sum
  consumed : ∀ depositId, s.processedDeposits.get depositId ≠ none ↔
    depositId ∈ (deposits entries).map Deposit.depositId
  distinct : ((deposits entries).map Deposit.depositId).Nodup
  solvent : ∀ nftAddress, 0 ≤ s.accountBalances.amounts nftAddress

theorem conserved_initial (deployer locks resolver settlement : Address) :
    Conserved [] (init deployer locks resolver settlement) := by
  constructor <;> simp [init,Ledger.replay,deposits]

theorem conserved_step {hash : Cell → Int} {d : Delivery Message} {s next : State}
    (valid : Conserved past s)
    (effect : Effect hash d.context s d.message next actions) :
    Conserved (⟨s,d,next,actions⟩ :: past) next := by
  constructor
  · rw [effect_ledger effect,valid.refines]
    rfl
  · have minted := effect_minted effect
    simp only [List.map_cons,List.sum_cons,valid.minted,minted,deposits,List.filterMap_cons]
    cases depositOf d.message <;> simp
  · intro depositId
    rw [effect_consumed effect,valid.consumed]
    simp only [deposits,List.filterMap_cons]
    cases depositOf d.message with
    | none => simp
    | some deposit => simp [or_comm,eq_comm]
  · simp only [deposits,List.filterMap_cons]
    cases deposited : depositOf d.message with
    | none => exact valid.distinct
    | some deposit =>
      refine List.nodup_cons.mpr ⟨?_,valid.distinct⟩
      intro replayed
      exact (valid.consumed _).mpr replayed (effect_fresh effect deposited)
  · rw [effect_ledger effect]
    exact Ledger.apply_nonneg _ _ valid.solvent (effect_covered effect)

theorem run_conserved (hash : Cell → Int) (deployer locks resolver settlement : Address)
    (deliveries : List (Delivery Message)) :
    Conserved (journal hash (init deployer locks resolver settlement) deliveries)
      (run hash (init deployer locks resolver settlement) deliveries) := by
  refine deliver_invariant Conserved (conserved_initial deployer locks resolver settlement) ?_
    deliveries
  intro past s d next actions valid accepted
  exact conserved_step valid (receive_effect accepted)

/-- An accepted deposit credits its account and no other. -/
theorem deposit_balance {hash : Cell → Int} {env : Context} {self next : State}
    (effect : Effect hash env self (.tbcDeposit depositId nftAddress amountTbc) next actions)
    (other : Address) : next.getBalance other =
      self.getBalance other + if other = nftAddress then amountTbc else 0 := by
  cases effect
  change FiniteMap.amount _ _ = self.accountBalances.amount other + _
  rw [State.deposit,FiniteMap.amount_set]
  split
  next same => subst same; rfl
  next different => simp

/-- Ledger conservation: over every run, whatever the senders and the order, the stored
balances sum to the accepted deposits, no deposit id is accepted twice and each accepted
deposit credits one account, and no stored balance is negative. -/
theorem ledger_conservation (hash : Cell → Int) (deployer locks resolver settlement : Address)
    (deliveries : List (Delivery Message)) :
    let entries := journal hash (init deployer locks resolver settlement) deliveries
    let s := run hash (init deployer locks resolver settlement) deliveries
    s.accountBalances.total = ((deposits entries).map Deposit.amountTbc).sum ∧
    ((deposits entries).map Deposit.depositId).Nodup ∧
    (∀ entry ∈ entries, ∀ depositId nftAddress amountTbc,
      entry.input.message = .tbcDeposit depositId nftAddress amountTbc →
      ∀ other, entry.after.getBalance other =
        entry.before.getBalance other + if other = nftAddress then amountTbc else 0) ∧
    (∀ nftAddress balance, s.accountBalances.get nftAddress = some balance → 0 ≤ balance) := by
  intro entries s
  have valid : Conserved entries s := run_conserved hash deployer locks resolver settlement deliveries
  refine ⟨?_,valid.distinct,?_,?_⟩
  · rw [FiniteMap.total_eq_degree,valid.refines,Ledger.degree_replay,valid.minted]
  · intro entry member depositId nftAddress amountTbc deposited other
    have effect := entry_effect member
    rw [deposited] at effect
    exact deposit_balance effect other
  · intro nftAddress balance stored
    have held := valid.solvent nftAddress
    simpa [FiniteMap.amount,stored] using held

end Tonbankcard.MerchantPaymentHub
