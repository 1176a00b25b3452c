import Tonbankcard.MerchantPaymentHub

/-! The event log of the hub as a source of its storage. A reader of the log that starts from
nothing keeps the same books as the contract after every message. -/
namespace Tonbankcard.MerchantPaymentHub

open Ton Journal

/-- The books that a reader keeps; an account without a balance has nothing. -/
@[ext] structure Books where
  accountBalances : Address → Int
  accountStates : FiniteMap Address Int
  nftOwners : FiniteMap Address Address
  accountLocks : FiniteMap Address LockState
  processedDeposits : FiniteMap Int Bool

namespace Books

def empty : Books := ⟨fun _ => 0,∅,∅,∅,∅⟩

def credit (books : Books) (nftAddress : Address) (amountTbc : Int) : Books :=
  {books with
    accountBalances :=
      Function.update books.accountBalances nftAddress (books.accountBalances nftAddress + amountTbc)}

def register (books : Books) (nftAddress owner : Address) : Books :=
  {books with
    nftOwners := books.nftOwners.set nftAddress owner
    accountStates := if books.accountStates.get nftAddress = none then
      books.accountStates.set nftAddress accountStateActive else books.accountStates}

/-- What one event of the log tells; the events of other concerns tell nothing. -/
def apply (books : Books) : Body → Books
  | .merchantNFTOwnerRegistered nftAddress owner _ _ => books.register nftAddress owner
  | .merchantTBCDeposited depositId nftAddress amountTbc _ =>
    {books.credit nftAddress amountTbc with
      processedDeposits := books.processedDeposits.set depositId true}
  | .merchantPayment payerNft merchantNft amountTbc _ _ =>
    (books.credit payerNft (-amountTbc)).credit merchantNft amountTbc
  | .merchantAccountLockApplied nftAddress fraudLocked collateralLocked _ =>
    {books with accountLocks := books.accountLocks.set nftAddress ⟨fraudLocked,collateralLocked⟩}
  | _ => books

end Books

/-- The emitted events of a transaction; its messages are no part of the log. -/
def emitted (actions : List (Action Body)) : List Body :=
  actions.filterMap fun
    | .emit body => some body
    | .send _ => none

def eventLog (entries : List Entry) : List Body := emissions emitted entries

namespace State

def books (self : State) : Books :=
  ⟨self.getBalance,self.accountStates,self.nftOwners,self.accountLocks,self.processedDeposits⟩

end State

theorem amount_set_update (balances : FiniteMap Address Int) (nftAddress : Address)
    (balance : Int) : (balances.set nftAddress balance).amount =
      Function.update balances.amount nftAddress balance := by
  funext other
  rw [FiniteMap.amount_set,Function.update_apply]

/-- The merchant is credited on top of the debit, also where both are one account. -/
theorem pay_books (self : State) (payerNft merchantNft : Address) (amountTbc : Int) :
    (self.pay payerNft merchantNft amountTbc).books =
      (self.books.credit payerNft (-amountTbc)).credit merchantNft amountTbc := by
  have balances : (self.pay payerNft merchantNft amountTbc).books.accountBalances =
      ((self.books.credit payerNft (-amountTbc)).credit merchantNft amountTbc).accountBalances := by
    change FiniteMap.amount (FiniteMap.set (FiniteMap.set _ _ _) _ _) = _
    rw [amount_set_update,amount_set_update]
    rfl
  exact Books.ext balances rfl rfl rfl rfl

theorem deposit_books (self : State) (depositId : Int) (nftAddress : Address) (amountTbc : Int) :
    (self.deposit depositId nftAddress amountTbc).books =
      {self.books.credit nftAddress amountTbc with
        processedDeposits := self.books.processedDeposits.set depositId true} := by
  have balances : (self.deposit depositId nftAddress amountTbc).books.accountBalances =
      (self.books.credit nftAddress amountTbc).accountBalances :=
    amount_set_update self.accountBalances nftAddress _
  exact Books.ext balances rfl rfl rfl rfl

/-- An accepted message announces exactly what it writes. -/
theorem effect_announced {hash : Cell → Int} {env : Context} {self next : State}
    (effect : Effect hash env self msg next actions) :
    (emitted actions).foldl Books.apply self.books = next.books := by
  cases effect with
  | paid => exact (pay_books ..).symm
  | deposited => exact (deposit_books ..).symm
  | _ => rfl

/-- Over every run the books kept from the event log are those of the contract. -/
theorem event_log_complete (hash : Cell → Int) (deployer locks resolver settlement : Address)
    (deliveries : List (Delivery Message)) :
    (eventLog (journal hash (init deployer locks resolver settlement) deliveries)).foldl
        Books.apply Books.empty =
      (run hash (init deployer locks resolver settlement) deliveries).books := by
  have nothing : Books.empty = (init deployer locks resolver settlement).books := rfl
  rw [nothing]
  refine replay_run emitted Books.apply State.books ?_ deliveries
  intro s d next actions accepted
  exact effect_announced (receive_effect (deliver_received accepted))

end Tonbankcard.MerchantPaymentHub
