import Mathlib.Data.Finsupp.Weight

/-! Abstract ledgers: a finitely supported amount for each account, changed by credits
from outside and by movements between accounts. A movement is linear, so an account
that pays itself needs no case of its own. -/
namespace Ledger

variable {Account : Type}

inductive Operation (Account : Type) where
  | none
  | credit (account : Account) (value : ℤ)
  | move (payer payee : Account) (value : ℤ)

/-- What an operation brings in from outside the ledger. -/
def Operation.minted : Operation Account → ℤ
  | .credit _ value => value
  | _ => 0

noncomputable def apply (ledger : Account →₀ ℤ) : Operation Account → (Account →₀ ℤ)
  | .none => ledger
  | .credit account value => ledger + Finsupp.single account value
  | .move payer payee value =>
    ledger - Finsupp.single payer value + Finsupp.single payee value

/-- The ledger after a newest-first list of operations. -/
noncomputable def replay : List (Operation Account) → (Account →₀ ℤ)
  | [] => 0
  | operation :: past => apply (replay past) operation

theorem degree_apply (ledger : Account →₀ ℤ) (operation : Operation Account) :
    (apply ledger operation).degree = ledger.degree + operation.minted := by
  cases operation <;> simp [apply,Operation.minted]

/-- Conservation: the total is what was minted, whatever moved where. -/
theorem degree_replay (operations : List (Operation Account)) :
    (replay operations).degree = (operations.map Operation.minted).sum := by
  induction operations with
  | nil => simp [replay]
  | cons operation past ih => simp [replay,degree_apply,ih,add_comm]

def Operation.Covered (ledger : Account →₀ ℤ) : Operation Account → Prop
  | .none => True
  | .credit _ value => 0 ≤ value
  | .move payer _ value => 0 ≤ value ∧ value ≤ ledger payer

/-- Covered operations keep every account non-negative. -/
theorem apply_nonneg (ledger : Account →₀ ℤ) (operation : Operation Account)
    (solvent : ∀ account, 0 ≤ ledger account) (covered : operation.Covered ledger) :
    ∀ account, 0 ≤ apply ledger operation account := by
  classical
  intro account
  have held := solvent account
  cases operation with
  | none => exact held
  | credit credited value =>
    have positive : 0 ≤ value := covered
    simp only [apply,Finsupp.add_apply,Finsupp.single_apply]
    split <;> omega
  | move payer payee value =>
    obtain ⟨positive,funded⟩ := covered
    simp only [apply,Finsupp.add_apply,Finsupp.sub_apply,Finsupp.single_apply]
    by_cases pays : payer = account
    · subst pays
      split <;> simp <;> omega
    · simp only [if_neg pays]
      split <;> omega

end Ledger
