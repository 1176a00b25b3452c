import Mathlib.Algebra.BigOperators.Group.Finset.Basic
import Mathlib.Algebra.GroupWithZero.Nat
import Mathlib.Data.Set.Defs
import Mathlib.Logic.Function.Basic
import Tonbankcard.Simulation

/-! The TLA+ specification of the protocol: balances, owners and the two locks of the accounts, and
its five actions. The invariants that the model checker runs say what type the variables have; what
the comments say beside them are facts about executions. -/
namespace Tonbankcard.Protocol

open Simulation

variable {NFTs Owners : Type}

@[ext] structure State (NFTs Owners : Type) where
  balance : NFTs → Nat
  owner : NFTs → Owners
  fraud : NFTs → Bool
  collat : NFTs → Bool

inductive Action (NFTs Owners : Type) where
  | mint (nft : NFTs) (amt : Nat)
  | transfer (u : Owners) (fromNft toNft : NFTs) (amt : Nat)
  | transferNFT (nft : NFTs) (newOwner : Owners)
  | setFraud (nft : NFTs) (v : Bool)
  | setCollateral (nft : NFTs) (v : Bool)

/-- The owners are any. -/
def Init (s : State NFTs Owners) : Prop :=
  (∀ nft, s.balance nft = 0) ∧ (∀ nft, s.fraud nft = false) ∧ ∀ nft, s.collat nft = false

def Enabled (Amounts : Set Nat) (s : State NFTs Owners) : Action NFTs Owners → Prop
  | .mint _ amt => amt ∈ Amounts
  | .transfer u fromNft toNft amt =>
    amt ∈ Amounts ∧ u = s.owner fromNft ∧ s.fraud fromNft = false ∧ s.collat fromNft = false ∧
      amt ≤ s.balance fromNft ∧ fromNft ≠ toNft
  | _ => True

variable [DecidableEq NFTs]

def State.after (s : State NFTs Owners) : Action NFTs Owners → State NFTs Owners
  | .mint nft amt => {s with balance := Function.update s.balance nft (s.balance nft + amt)}
  | .transfer _ fromNft toNft amt =>
    let debited := Function.update s.balance fromNft (s.balance fromNft - amt)
    {s with balance := Function.update debited toNft (s.balance toNft + amt)}
  | .transferNFT nft newOwner => {s with owner := Function.update s.owner nft newOwner}
  | .setFraud nft v => {s with fraud := Function.update s.fraud nft v}
  | .setCollateral nft v => {s with collat := Function.update s.collat nft v}

def Next (Amounts : Set Nat) : Spec (State NFTs Owners) (Action NFTs Owners) := fun s action t =>
  Enabled Amounts s action ∧ t = s.after action

/-- What an action adds to an account. -/
def Action.credit (nft : NFTs) : Action NFTs Owners → Nat
  | .mint minted amt => if minted = nft then amt else 0
  | .transfer _ _ toNft amt => if toNft = nft then amt else 0
  | _ => 0

/-- What an action takes from an account. -/
def Action.debit (nft : NFTs) : Action NFTs Owners → Nat
  | .transfer _ fromNft _ amt => if fromNft = nft then amt else 0
  | _ => 0

variable {Amounts : Set Nat} {s t initial : State NFTs Owners} {action : Action NFTs Owners}

theorem next_balance (step : Next Amounts s action t) (nft : NFTs) :
    t.balance nft + action.debit nft = s.balance nft + action.credit nft := by
  obtain ⟨enabled,rfl⟩ := step
  cases action with
  | mint minted amt =>
    simp only [State.after,Action.debit,Action.credit,Function.update_apply,eq_comm (a := nft)]
    split <;> simp_all
  | transfer u fromNft toNft amt =>
    obtain ⟨-,-,-,-,funded,apart⟩ := enabled
    simp only [State.after,Action.debit,Action.credit,Function.update_apply,eq_comm (a := nft)]
    split <;> split <;> simp_all
  | _ => rfl

/-- An account holds what was minted into it and received, less what its owners have sent. -/
theorem balance_history (executes : Executes (Next Amounts) initial actions s) (nft : NFTs) :
    s.balance nft + (actions.map (Action.debit nft)).sum =
      initial.balance nft + (actions.map (Action.credit nft)).sum := by
  refine Executes.invariant (fun actions s => s.balance nft + (actions.map (Action.debit nft)).sum =
    initial.balance nft + (actions.map (Action.credit nft)).sum) rfl ?_ executes
  intro past s action t held step
  have balance := next_balance step nft
  rw [List.map_cons,List.map_cons,List.sum_cons,List.sum_cons]
  omega

end Tonbankcard.Protocol
