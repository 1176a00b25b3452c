import Tonbankcard.MerchantPaymentHubLedger
import Tonbankcard.MerchantPaymentHubAuthority
import Tonbankcard.Protocol

/-! The hub carries out the specification of the protocol: what its events announce are the actions
of the specification, and its maps are the variables. -/
namespace Tonbankcard.MerchantPaymentHub

open Ton Simulation

/-- The variables of the specification. An account without an owner has a given one, whom no message
can come from on its behalf. -/
def view (unowned : Address) (self : State) : Protocol.State Address Address where
  balance nft := (self.getBalance nft).toNat
  owner nft := (self.nftOwners.get nft).getD unowned
  fraud nft := (self.getLockState nft).fraudLocked
  collat nft := (self.getLockState nft).collateralLocked

/-- The actions that an accepted message stands for, newest first. The specification knows no
transfer of an account to itself, and it sets one lock at a time. -/
def protocolActions (entry : Entry) : List (Protocol.Action Address Address) :=
  match entry.output with
  | .emit (.merchantPayment payerNft merchantNft amountTbc _ _) :: _ =>
    if payerNft = merchantNft then []
    else [.transfer entry.input.context.sender payerNft merchantNft amountTbc.toNat]
  | .emit (.merchantTBCDeposited _ nftAddress amountTbc _) :: _ => [.mint nftAddress amountTbc.toNat]
  | .emit (.merchantNFTOwnerRegistered nftAddress owner _ _) :: _ => [.transferNFT nftAddress owner]
  | .emit (.merchantAccountLockApplied nftAddress fraudLocked collateralLocked _) :: _ =>
    [.setCollateral nftAddress collateralLocked,.setFraud nftAddress fraudLocked]
  | _ => []

def Solvent (self : State) : Prop := ∀ nft, 0 ≤ self.getBalance nft

variable {hash : Cell → Int} {env : Context} {self next : State} {unowned : Address}

theorem effect_solvent (solvent : Solvent self)
    (effect : Effect hash env self msg next actions) : Solvent next := by
  intro nft
  change 0 ≤ next.accountBalances.amounts nft
  rw [effect_ledger effect]
  exact Ledger.apply_nonneg self.accountBalances.amounts _ solvent (effect_covered effect) nft

theorem canSendWithLocks_iff (lockState : LockState) : canSendWithLocks lockState = true ↔
    lockState.fraudLocked = false ∧ lockState.collateralLocked = false := by
  rw [canSendWithLocks,isLocked,Bool.not_eq_true',Bool.or_eq_false_iff]

theorem view_pay (payable : Payable self env.sender payerNft merchantNft amountTbc)
    (solvent : Solvent self) (apart : payerNft ≠ merchantNft) :
    view unowned (self.pay payerNft merchantNft amountTbc) =
      (view unowned self).after (.transfer env.sender payerNft merchantNft amountTbc.toNat) := by
  have positive := payable.positive
  have funded := payable.funded
  ext nft
  · have paid := solvent merchantNft
    simp only [view,Protocol.State.after,Function.update_apply,pay_getBalance]
    by_cases merchant : nft = merchantNft
    · subst merchant
      simp only [if_pos,if_neg (Ne.symm apart)]
      omega
    · by_cases payer : nft = payerNft
      · subst payer
        simp only [if_pos,if_neg merchant]
        omega
      · simp only [if_neg merchant,if_neg payer]
        omega
  all_goals rfl

/-- Paying oneself changes no variable. -/
theorem view_pay_self (self : State) (nft : Address) (amountTbc : Int) :
    view unowned (self.pay nft nft amountTbc) = view unowned self := by
  ext other
  · simp only [view,pay_getBalance]
    split <;> omega
  all_goals rfl

theorem view_register (self : State) (nftAddress owner : Address) :
    view unowned (self.register nftAddress owner) =
      (view unowned self).after (.transferNFT nftAddress owner) := by
  ext nft
  case owner =>
    simp only [view,State.register,Protocol.State.after,Function.update_apply,FiniteMap.get_set]
    split <;> rfl
  all_goals rfl

theorem view_deposit (solvent : Solvent self) (positive : 0 < amountTbc) (depositId : Int)
    (nftAddress : Address) :
    view unowned (self.deposit depositId nftAddress amountTbc) =
      (view unowned self).after (.mint nftAddress amountTbc.toNat) := by
  ext nft
  · have held := solvent nftAddress
    simp only [view,Protocol.State.after,Function.update_apply,State.deposit]
    change (FiniteMap.amount _ nft).toNat = _
    rw [FiniteMap.amount_set]
    split
    · exact Int.toNat_add held (le_of_lt positive)
    · rfl
  all_goals rfl

theorem view_lock (self : State) (nftAddress : Address) (lockState : LockState) :
    view unowned {self with accountLocks := self.accountLocks.set nftAddress lockState} =
      ((view unowned self).after (.setFraud nftAddress lockState.fraudLocked)).after
        (.setCollateral nftAddress lockState.collateralLocked) := by
  ext nft
  case fraud =>
    simp only [view,Protocol.State.after,Function.update_apply,State.getLockState,
      FiniteMap.get_set]
    split <;> rfl
  case collat =>
    simp only [view,Protocol.State.after,Function.update_apply,State.getLockState,
      FiniteMap.get_set]
    split <;> rfl
  all_goals rfl

/-- Every accepted message is a few actions of the specification. -/
theorem effect_executes {d : Delivery Message} (solvent : Solvent self)
    (effect : Effect hash d.context self d.message next actions) :
    Executes (Protocol.Next Set.univ) (view unowned self)
      (protocolActions ⟨self,d,next,actions⟩) (view unowned next) := by
  obtain ⟨context,msg,commits⟩ := d
  cases effect with
  | @paid payerNft merchantNft amountTbc payload payable =>
    simp only [protocolActions]
    split
    next same =>
      subst same
      rw [view_pay_self]
      exact .start
    next apart =>
      rw [view_pay payable solvent apart]
      refine .single ⟨⟨trivial,?_,?_,?_,?_,apart⟩,rfl⟩
      · simp only [view,payable.owner,Option.getD_some]
      · exact ((canSendWithLocks_iff _).mp payable.unlocked).1
      · exact ((canSendWithLocks_iff _).mp payable.unlocked).2
      · exact Int.toNat_le_toNat payable.funded
  | resolved =>
    rw [view_register]
    exact .single ⟨trivial,rfl⟩
  | deposited _ positive =>
    rw [view_deposit solvent positive]
    exact .single ⟨trivial,rfl⟩
  | locked =>
    rw [view_lock]
    exact .act (.single ⟨trivial,rfl⟩) ⟨trivial,rfl⟩
  | _ => exact .start

theorem init_view (deployerAddress accountLocksContract nftResolver tbcSettlement : Address) :
    Protocol.Init (view unowned
      (init deployerAddress accountLocksContract nftResolver tbcSettlement)) :=
  ⟨fun _ => rfl,fun _ => rfl,fun _ => rfl⟩

/-- The protocol's actions of a run, newest first. -/
def protocolLog (entries : List Entry) : List (Protocol.Action Address Address) :=
  entries.flatMap protocolActions

/-- The hub refines the specification: each of its runs from the initial storage is an execution
of it from an initial state. So an account holds what it was minted and paid less what it has paid,
by the actions that the events announce. -/
theorem run_refines_protocol (hash : Cell → Int)
    (unowned deployerAddress accountLocksContract nftResolver tbcSettlement : Address)
    (deliveries : List (Delivery Message)) :
    let start := init deployerAddress accountLocksContract nftResolver tbcSettlement
    let log := protocolLog (journal hash start deliveries)
    Protocol.Init (view unowned start) ∧
      Executes (Protocol.Next Set.univ) (view unowned start) log
        (view unowned (run hash start deliveries)) ∧
      ∀ nft, (run hash start deliveries).getBalance nft =
        (log.map (Protocol.Action.credit nft)).sum - (log.map (Protocol.Action.debit nft)).sum := by
  intro start log
  have opening : Solvent start := fun _ => le_refl (0 : Int)
  have refined : Solvent (run hash start deliveries) ∧ Executes (Protocol.Next Set.univ)
      (view unowned start) log (view unowned (run hash start deliveries)) :=
    run_executes Solvent (view unowned) protocolActions opening
      (fun s d next actions solvent accepted =>
        have effect := receive_effect (deliver_received accepted)
        ⟨effect_solvent solvent effect,effect_executes solvent effect⟩) deliveries
  obtain ⟨solvent,executes⟩ := refined
  refine ⟨init_view ..,executes,fun nft => ?_⟩
  have balance := Protocol.balance_history executes nft
  have held : ((view unowned (run hash start deliveries)).balance nft : Int) =
      (run hash start deliveries).getBalance nft := Int.toNat_of_nonneg (solvent nft)
  have empty : (view unowned start).balance nft = 0 := rfl
  rw [empty] at balance
  omega

end Tonbankcard.MerchantPaymentHub
