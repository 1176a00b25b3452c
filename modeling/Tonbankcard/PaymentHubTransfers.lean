import Tonbankcard.Ledger
import Tonbankcard.PaymentHub

/-! The hub's accounts as an abstract ledger. A transfer is a movement between two accounts, also
when they are the same one, and every other message leaves the ledger alone. -/
namespace Tonbankcard.PaymentHub

open Ton

/-- A hub that starts from a given ledger. -/
def start (deployerAddress : Address) (accounts : FiniteMap Address AccountState) : State :=
  {init deployerAddress with accounts}

def State.totalBalance (self : State) : Int := self.accounts.sumOf AccountState.balance

noncomputable def State.ledger (self : State) : Address →₀ ℤ :=
  self.accounts.weights AccountState.balance

theorem ledger_apply (self : State) (nft : Address) : self.ledger nft = self.getBalance nft := by
  rw [State.ledger,FiniteMap.weights_apply,State.getBalance,State.getAccountOrDefault]
  cases self.accounts.get nft <;> rfl

theorem totalBalance_degree (self : State) : self.totalBalance = self.ledger.degree :=
  FiniteMap.sumOf_eq_degree ..

/-- What a transfer between two accounts checks and does. -/
structure Transferred (before after : State) (sender fromNft toNft : Address) (amountTbc : Int) :
    Prop where
  apart : fromNft ≠ toNft
  positive : 0 < amountTbc
  authority : ∃ account, before.accounts.get fromNft = some account ∧ account.owner = sender ∧
    account.state = accountStateActive ∧ amountTbc ≤ account.balance
  recipient : before.isValidAccountNFT toNft = true ∧
    (before.getAccountOrDefault toNft).state ≠ accountStateClosed
  debited : after.getBalance fromNft = before.getBalance fromNft - amountTbc
  credited : after.getBalance toNft = before.getBalance toNft + amountTbc
  others : ∀ nft, nft ≠ fromNft → nft ≠ toNft → after.accounts.get nft = before.accounts.get nft
  kept : ∀ nft account, before.accounts.get nft = some account →
    ∃ moved, after.accounts.get nft = some moved ∧ moved.owner = account.owner ∧
      moved.state = account.state

/-- What the hub promises of a run from a ledger. -/
structure TransferSafe (hash : String → Int) (initial : State)
    (deliveries : List (Delivery Message)) : Prop where
  conserved : (run hash initial deliveries).totalBalance = initial.totalBalance
  solvent : ∀ nft, 0 ≤ (run hash initial deliveries).getBalance nft
  changes : ∀ entry ∈ journal hash initial deliveries,
    (∃ nft, entry.after.getBalance nft ≠ entry.before.getBalance nft) →
    ∃ fromNft toNft amountTbc payload,
      entry.input.message = .transferInternalRequest fromNft toNft amountTbc payload ∧
      Transferred entry.before entry.after entry.input.context.sender fromNft toNft amountTbc
  failed : ∀ d, deliver (receive hash) (run hash initial deliveries) d = none →
    run hash initial (d :: deliveries) = run hash initial deliveries
  unlocked : (run hash initial deliveries).locked = false

section Steps
variable {env : Context} {self next : State} {nft fromNft toNft : Address} {amountTbc : Int}

theorem transfer_get (self : State) (fromNft toNft : Address) (amountTbc : Int) (nft : Address) :
    (self.transfer fromNft toNft amountTbc).accounts.get nft =
      if nft = toNft then
        some {self.getAccountOrDefault toNft with balance := self.getBalance toNft + amountTbc}
      else if nft = fromNft then
        some {self.getAccountOrDefault fromNft with
          balance := self.getBalance fromNft - amountTbc}
      else self.accounts.get nft := by
  rw [State.transfer,FiniteMap.get_set,FiniteMap.get_set]

theorem transfer_ledger (self : State) (apart : fromNft ≠ toNft) :
    (self.transfer fromNft toNft amountTbc).ledger =
      Ledger.apply self.ledger (.move fromNft toNft amountTbc) := by
  ext nft
  rw [ledger_apply,State.getBalance,State.getAccountOrDefault,transfer_get]
  simp only [Ledger.apply,Finsupp.add_apply,Finsupp.sub_apply,Finsupp.single_apply,ledger_apply]
  by_cases credited : nft = toNft
  · subst credited
    simp [apart]
  by_cases debited : nft = fromNft
  · subst debited
    simp [apart,Ne.symm apart]
  simp [credited,debited,Ne.symm credited,Ne.symm debited,State.getBalance,
    State.getAccountOrDefault]

/-- The ledger operation of a message that is accepted. -/
def movement : Message → Ledger.Operation Address
  | .transferInternalRequest fromNft toNft amountTbc _ => .move fromNft toNft amountTbc
  | _ => .none

theorem effect_ledger (effect : Effect env self msg next) :
    next.ledger = Ledger.apply self.ledger (movement msg) := by
  cases effect with
  | toItself payable => exact (sub_add_cancel _ _).symm
  | transferred payable apart => exact transfer_ledger self apart
  | _ => rfl

theorem effect_covered (effect : Effect env self msg next) :
    (movement msg).Covered self.ledger := by
  cases effect with
  | toItself payable =>
    exact ⟨payable.positive.le,(ledger_apply self _).symm ▸ payable.funded⟩
  | transferred payable apart =>
    exact ⟨payable.positive.le,(ledger_apply self _).symm ▸ payable.funded⟩
  | _ => trivial

theorem effect_locked (effect : Effect env self msg next) (unlocked : self.locked = false) :
    next.locked = false := by
  cases effect with
  | _ => exact unlocked

theorem payable_stored {sender : Address} (payable : Payable self sender fromNft toNft amountTbc) :
    self.accounts.get fromNft = some (self.getAccountOrDefault fromNft) := by
  have funded := payable.funded
  have positive := payable.positive
  rw [State.getBalance,State.getAccountOrDefault] at funded
  rw [State.getAccountOrDefault]
  cases stored : self.accounts.get fromNft with
  | none =>
    rw [stored] at funded
    exact absurd funded (not_le.mpr positive)
  | some account => rfl

theorem transfer_transferred {sender : Address}
    (payable : Payable self sender fromNft toNft amountTbc) (apart : fromNft ≠ toNft) :
    Transferred self (self.transfer fromNft toNft amountTbc) sender fromNft toNft amountTbc := by
  have stored := payable_stored payable
  have moved := transfer_get self fromNft toNft amountTbc
  constructor
  · exact apart
  · exact payable.positive
  · exact ⟨_,stored,payable.owner.symm,payable.active,payable.funded⟩
  · exact ⟨payable.validTo,payable.open_⟩
  · rw [State.getBalance,State.getAccountOrDefault,moved,if_neg apart,if_pos rfl]
    rfl
  · rw [State.getBalance,State.getAccountOrDefault,moved,if_pos rfl]
    rfl
  · intro nft other another
    rw [moved,if_neg another,if_neg other]
  · intro nft account held
    rw [moved]
    have same : self.getAccountOrDefault nft = account := by
      rw [State.getAccountOrDefault,held]
      rfl
    split
    next here =>
      subst here
      exact ⟨_,rfl,by rw [← same],by rw [← same]⟩
    split
    next here =>
      subst here
      exact ⟨_,rfl,by rw [← same],by rw [← same]⟩
    · exact ⟨account,held,rfl,rfl⟩

/-- Only a transfer between two accounts changes a balance. -/
theorem effect_changes (effect : Effect env self msg next)
    (changed : next.getBalance nft ≠ self.getBalance nft) :
    ∃ fromNft toNft amountTbc payload,
      msg = .transferInternalRequest fromNft toNft amountTbc payload ∧
      Transferred self next env.sender fromNft toNft amountTbc := by
  cases effect with
  | transferred payable apart => exact ⟨_,_,_,_,rfl,transfer_transferred payable apart⟩
  | _ => exact absurd rfl changed

end Steps

section Runs
variable {initial : State}

/-- From an unlocked hub without debts, a run keeps the total, the debts at zero and the guard
released. -/
theorem run_solvent (hash : String → Int) (solvent : ∀ nft, 0 ≤ initial.ledger nft)
    (unlocked : initial.locked = false) (deliveries : List (Delivery Message)) :
    (run hash initial deliveries).ledger.degree = initial.ledger.degree ∧
      (∀ nft, 0 ≤ (run hash initial deliveries).ledger nft) ∧
      (run hash initial deliveries).locked = false := by
  refine deliver_invariant (fun _ (s : State) => s.ledger.degree = initial.ledger.degree ∧
    (∀ nft, 0 ≤ s.ledger nft) ∧ s.locked = false) ⟨rfl,solvent,unlocked⟩ ?_ deliveries
  intro past s d next actions ⟨total,funded,free⟩ accepted
  have effect := receive_effect accepted
  refine ⟨?_,?_,effect_locked effect free⟩
  · have minted : (movement d.message).minted = 0 := by cases d.message <;> rfl
    rw [effect_ledger effect,Ledger.degree_apply,minted,add_zero,total]
  · rw [effect_ledger effect]
    exact Ledger.apply_nonneg s.ledger (movement d.message) funded (effect_covered effect)

/-- From any ledger without debts, in every run of any messages. -/
theorem transfer_safety (hash : String → Int) (deployerAddress : Address)
    (accounts : FiniteMap Address AccountState)
    (solvent : ∀ nft account, accounts.get nft = some account → 0 ≤ account.balance)
    (deliveries : List (Delivery Message)) :
    TransferSafe hash (start deployerAddress accounts) deliveries := by
  have funded : ∀ nft, 0 ≤ (start deployerAddress accounts).ledger nft := by
    intro nft
    rw [ledger_apply]
    change 0 ≤ ((accounts.get nft).getD _).balance
    cases held : accounts.get nft with
    | none => exact le_rfl
    | some account => exact solvent nft account held
  obtain ⟨total,solvent,unlocked⟩ := run_solvent hash funded rfl deliveries
  constructor
  · rw [totalBalance_degree,totalBalance_degree,total]
  · intro nft
    rw [← ledger_apply]
    exact solvent nft
  · intro entry member ⟨nft,changed⟩
    obtain ⟨before,⟨env,msg,commits⟩,after,actions⟩ := entry
    exact effect_changes (entry_effect member) changed
  · intro d refused
    exact Journal.run_refused refused
  · exact unlocked

end Runs

section Samples

def deployer : Address := newAddress 0 1
def holder : Address := newAddress 0 2
def card : Address := newAddress 0 7
def shop : Address := newAddress 0 8

def sampleAccounts : FiniteMap Address AccountState :=
  ((∅ : FiniteMap Address AccountState).set card ⟨100,accountStateActive,holder⟩).set shop
    ⟨5,accountStateFrozen,deployer⟩

/-- A payment to the shop, and one to the card itself before it. -/
def samplePayments : List (Delivery Message) :=
  [⟨⟨holder,1000,20⟩,.transferInternalRequest card shop 30 none,true⟩,
    ⟨⟨holder,1000,10⟩,.transferInternalRequest card card 30 none,true⟩]

theorem transfer_safety_sample :
    TransferSafe (fun _ => 0) (start deployer sampleAccounts) samplePayments ∧
      (run (fun _ => 0) (start deployer sampleAccounts) samplePayments).getBalance shop = 35 := by
  refine ⟨transfer_safety (fun _ => 0) deployer sampleAccounts ?_ samplePayments,by decide +kernel⟩
  intro nft account held
  rw [sampleAccounts,FiniteMap.get_set,FiniteMap.get_set] at held
  split at held
  · obtain rfl := Option.some.inj held
    decide
  split at held
  · obtain rfl := Option.some.inj held
    decide
  · cases (FiniteMap.get_empty nft).symm.trans held

end Samples
end Tonbankcard.PaymentHub
